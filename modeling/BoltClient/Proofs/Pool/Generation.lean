import BoltClient.Proofs.Pool.Crowd

/-!
The generations of connections. A connection belongs from its place on to one address and one generation, and
no slot is of an earlier generation than the connections to its address. Numbers start again with a new slot,
but by then no connection to the address is left.
-/

namespace BoltClient

namespace Holding

/-- The address and the generation of a connection that counts, or of the place for one. -/
def stake? : Holding → Option (Address × Nat)
  | borrowed m | parting m => some (m.connection.address, m.generation)
  | place a generation => some (a, generation)
  | _ => none

theorem isOut_or_isPlace {x : Holding} {a : Address} {generation : Nat}
    (h : x.stake? = some (a, generation)) : x.isOut a = true ∨ x.isPlace a = true := by
  cases x with
  | borrowed m | parting m =>
    cases h
    exact .inl (decide_eq_true rfl)
  | place b n =>
    cases h
    exact .inr (decide_eq_true rfl)
  | loose | wire | turn => cases h

end Holding

def Feedback.givesUp (reported a : Address) : Feedback → Bool
  | deactivate => a = reported
  | invalidateAll => true
  | writeFailure _ => false

namespace Pool

open Work
open Stage (World)

def Waits (p : Pool) (a : Address) (generation : Nat) : Prop :=
  ∃ s, p.slot? a = some s ∧ ∃ m ∈ s.idle, m.generation = generation

def Staked (hs : List Holding) (a : Address) (generation : Nat) : Prop :=
  ∃ x ∈ hs, x.stake? = some (a, generation)

/-- There is a connection to an address of a generation: it waits, is out or is being opened. -/
def Live (p : Pool) (hs : List Holding) (a : Address) (generation : Nat) : Prop :=
  p.Waits a generation ∨ Staked hs a generation

/-- From one pool to another: an address that has a slot had it before, nothing new waits in it, and at least
so many of its generations have ended. -/
def Descends (k : Nat) (a : Address) (p q : Pool) : Prop :=
  ∀ t, q.slot? a = some t → ∃ s, p.slot? a = some s ∧ s.generation + k ≤ t.generation ∧ t.idle ⊆ s.idle

variable {p q r : Pool} {a b : Address} {k l generation : Nat} {held held' hs hs' : List Holding}
  {m : Member} {s t : Slot}

theorem Descends.congr (h : q.slots = p.slots) : Descends 0 a p q := fun t ht =>
  ⟨t, by rw [← slot?_congr h]; exact ht, Nat.le_refl _, List.Subset.refl _⟩

theorem Descends.trans (h : Descends k a p q) (h' : Descends l a q r) : Descends (k + l) a p r := by
  intro u hu
  obtain ⟨t, ht, htu, hidle'⟩ := h' u hu
  obtain ⟨s, hs, hst, hidle⟩ := h t ht
  exact ⟨s, hs, by omega, fun _ hm => hidle (hidle' hm)⟩

theorem Descends.fewer (h : Descends k a p q) (hl : l ≤ k) : Descends l a p q := fun t ht => by
  obtain ⟨s, hs, hst, hidle⟩ := h t ht
  exact ⟨s, hs, by omega, hidle⟩

theorem Descends.waits (h : Descends k a p q) (hq : q.Waits a generation) : p.Waits a generation := by
  obtain ⟨t, ht, m, hm, hgeneration⟩ := hq
  obtain ⟨s, hs, _, hidle⟩ := h t ht
  exact ⟨s, hs, m, hidle hm, hgeneration⟩

theorem Descends.generation_le (h : Descends k a p q) (hs : p.slot? a = some s) (ht : q.slot? a = some t) :
    s.generation + k ≤ t.generation := by
  obtain ⟨s', hs', hst, _⟩ := h t ht
  rw [hs] at hs'
  cases hs'
  exact hst

/-- A slot changes, so that generations of it end. -/
theorem descends_modify {f : Slot → Slot} (hf : ∀ s, (f s).address = s.address)
    (hgeneration : ∀ s, s.generation + k ≤ (f s).generation) (hidle : ∀ s, (f s).idle ⊆ s.idle) :
    Descends (if b = a then k else 0) b p (p.modify a f) := by
  intro t ht
  rw [slot?_modify hf] at ht
  split at ht
  · next hb =>
    subst hb
    obtain ⟨s, hs, rfl⟩ := Option.map_eq_some_iff.mp ht
    rw [if_pos rfl]
    exact ⟨s, hs, hgeneration s, hidle s⟩
  · next hb =>
    rw [if_neg hb]
    exact ⟨t, ht, Nat.le_refl _, List.Subset.refl _⟩

theorem descends_recount {f : Slot → Slot} (hf : ∀ s, (f s).address = s.address)
    (hgeneration : ∀ s, (f s).generation = s.generation) (hidle : ∀ s, (f s).idle = s.idle) :
    Descends 0 b p (p.modify a f) := by
  refine (@descends_modify p a b 0 f hf (fun s => ?_) fun s => ?_).fewer (Nat.zero_le _)
  · rw [hgeneration]
    exact Nat.le_refl _
  · rw [hidle]
    exact List.Subset.refl _

/-- All generations of a slot that is gone have ended. -/
theorem descends_remove (k : Nat) (a b : Address) :
    Descends (if b = a then k else 0) b p (p.remove a) := by
  intro t ht
  rw [slot?_remove] at ht
  split at ht
  · cases ht
  · next hb =>
    rw [if_neg hb]
    exact ⟨t, ht, Nat.le_refl _, List.Subset.refl _⟩

theorem descends_map {f : Slot → Slot} (hslots : q.slots = p.slots.map f)
    (hf : ∀ s, (f s).address = s.address) (hgeneration : ∀ s, s.generation + k ≤ (f s).generation)
    (hidle : ∀ s, (f s).idle ⊆ s.idle) : Descends k b p q := by
  intro t ht
  rw [slot?, hslots, slot?_map hf] at ht
  obtain ⟨s, hs, rfl⟩ := Option.map_eq_some_iff.mp ht
  exact ⟨s, hs, hgeneration s, hidle s⟩

theorem descends_markAllStale (b : Address) : Descends 1 b p p.markAllStale :=
  descends_map rfl (fun _ => rfl) (fun _ => Nat.le_refl _) fun _ => List.Subset.refl _

theorem descends_shut (b : Address) : Descends 0 b p p.shut.2 :=
  descends_map rfl (fun _ => rfl) (fun _ => Nat.le_refl _) fun _ => List.nil_subset _

/-- A generation of an address that is given up ends, or its slot is gone. -/
theorem descends_detach (a b : Address) : Descends (if b = a then 1 else 0) b p (p.detach a).2 := by
  unfold detach
  cases hslot : p.slot? a with
  | none =>
    intro t ht
    have hb : b ≠ a := fun hb => by
      rw [hb, hslot] at ht
      cases ht
    rw [if_neg hb]
    exact ⟨t, ht, Nat.le_refl _, List.Subset.refl _⟩
  | some s =>
    dsimp only
    by_cases hempty : s.inUse = 0 ∧ s.reservations = 0
    · rw [if_pos hempty]
      exact descends_remove 1 a b
    · rw [if_neg hempty]
      exact descends_modify (fun _ => rfl) (fun _ => Nat.le_refl _) fun _ => List.nil_subset _

theorem descends_heedAll (a b : Address) (fs : List Feedback) :
    Descends (fs.countP (·.givesUp a b)) b p (p.heedAll a fs).2 := by
  induction fs generalizing p with
  | nil => exact .congr rfl
  | cons f rest ih =>
    have hfirst : Descends (if f.givesUp a b then 1 else 0) b p (p.heed a f).2 := by
      cases f with
      | deactivate =>
        have htables : Descends 0 b p (p.changeTables (·.discard a)) := .congr rfl
        have hdetach := htables.trans (descends_detach a b)
        rw [Nat.zero_add] at hdetach
        simp only [Feedback.givesUp, decide_eq_true_eq]
        exact hdetach
      | writeFailure database => exact .congr rfl
      | invalidateAll => exact descends_markAllStale b
    have hall := hfirst.trans ih
    rw [Nat.add_comm] at hall
    rw [List.countP_cons]
    exact hall

theorem descends_abandon (a b : Address) (generation : Nat) : Descends 0 b p (p.abandon a generation) := by
  have hless : Descends 0 b p (p.modify a fun s => { s with reservations := s.reservations - 1 }) := by
    exact descends_recount (fun _ => rfl) (fun _ => rfl) fun _ => rfl
  unfold abandon
  dsimp only
  split
  · split
    · exact hless.trans ((descends_remove 0 a b).fewer (Nat.zero_le _))
    · exact hless
  · exact hless

/-- A connection comes back, and nothing is done yet about what it reports. -/
def accept (p : Pool) (m : Member) (kept : Bool) : Pool :=
  p.modify m.connection.address fun s =>
    { s with
      inUse := s.inUse - 1
      idle := if kept then s.idle ++ [{ m with connection := { m.connection with feedback := [] } }]
        else s.idle }

theorem descends_checkIn (m : Member) (now : Instant) (b : Address) :
    Descends (m.connection.feedback.countP (·.givesUp m.connection.address b)) b (p.accept m (p.keeps m now))
      (p.checkIn m now).2 := descends_heedAll m.connection.address b m.connection.feedback

theorem slot?_accept {kept : Bool} (ht : (p.accept m kept).slot? a = some t) :
    ∃ s, p.slot? a = some s ∧ s.generation = t.generation ∧
      ∀ x ∈ t.idle, x ∈ s.idle ∨ m.connection.address = a ∧ x.generation = m.generation := by
  unfold accept at ht
  rw [slot?_modify] at ht
  case hf => exact fun _ => rfl
  split at ht
  · next ha =>
    obtain ⟨s, hs, rfl⟩ := Option.map_eq_some_iff.mp ht
    refine ⟨s, ha ▸ hs, rfl, fun x hx => ?_⟩
    dsimp only at hx
    split at hx
    · refine (List.mem_append.mp hx).imp_right fun hx => ?_
      rw [List.mem_singleton.mp hx]
      exact ⟨ha.symm, rfl⟩
    · exact .inl hx
  · exact ⟨t, ht, rfl, fun _ hx => .inl hx⟩

theorem slot?_ensure_of_some (h : p.slot? a = some s) (b : Address) : (p.ensure b).slot? a = some s := by
  rw [slot?_ensure]
  split
  · next hab =>
    rw [← hab, h]
    rfl
  · exact h

theorem waits_ensure (h : (p.ensure b).Waits a generation) : p.Waits a generation := by
  obtain ⟨t, ht, m, hm, hgeneration⟩ := h
  rw [slot?_ensure] at ht
  split at ht
  · next hab =>
    cases hslot : p.slot? b with
    | some s =>
      rw [hslot] at ht
      cases ht
      exact ⟨s, hab ▸ hslot, m, hm, hgeneration⟩
    | none =>
      rw [hslot] at ht
      cases ht
      cases hm
  · exact ⟨t, ht, m, hm, hgeneration⟩

/-- A place is taken in a slot that there is from now on. -/
theorem descends_reserve (a b : Address) : Descends 0 b (p.ensure a) (p.reserve a).2 := by
  unfold reserve
  dsimp only
  split
  · exact .congr rfl
  · split
    · exact .congr rfl
    · exact descends_recount (fun _ => rfl) (fun _ => rfl) fun _ => rfl

/-- The place belongs to the generation of the slot. -/
theorem slot?_of_reserve (h : p.reserve a = (some generation, q)) :
    ∃ s, q.slot? a = some s ∧ s.generation = generation := by
  unfold reserve at h
  dsimp only at h
  split at h
  · cases h
  · next s hs =>
    split at h
    · cases h
    · cases h
      refine ⟨{ s with reservations := s.reservations + 1 }, ?_, rfl⟩
      rw [slot?_modify, if_pos rfl, hs]
      · rfl
      · exact fun _ => rfl

theorem descends_fulfil (a b : Address) : Descends 0 b (p.ensure a) (p.fulfil a) :=
  descends_recount (fun _ => rfl) (fun _ => rfl) fun _ => rfl

theorem descends_takeIdle (h : p.takeIdle a = some (m, q)) (b : Address) : Descends 0 b p q := by
  obtain ⟨rest, hidle, _, rfl⟩ := mem_of_takeIdle h
  intro t ht
  rw [slot?_modify] at ht
  case hf => exact fun _ => rfl
  split at ht
  · next hb =>
    obtain ⟨s, hs, rfl⟩ := Option.map_eq_some_iff.mp ht
    rw [hs] at hidle
    have hidle : s.idle = m :: rest := Option.some.inj hidle
    exact ⟨s, hb ▸ hs, Nat.le_refl _, hidle ▸ List.subset_cons_self m rest⟩
  · exact ⟨t, ht, Nat.le_refl _, List.Subset.refl _⟩

theorem waits_of_takeIdle (h : p.takeIdle a = some (m, q)) : p.Waits a m.generation := by
  obtain ⟨rest, hidle, _, _⟩ := mem_of_takeIdle h
  obtain ⟨s, hs, hidle⟩ := Option.map_eq_some_iff.mp hidle
  exact ⟨s, hs, m, hidle ▸ List.mem_cons_self, rfl⟩

/-- While an address has a slot, its generations do not go back. -/
theorem Change.generation_le (h : Change p q) (hs : p.slot? a = some s) (ht : q.slot? a = some t) :
    s.generation ≤ t.generation := by
  cases h with
  | slots hslots => exact (Descends.congr hslots).generation_le hs ht
  | takeIdle htake => exact (descends_takeIdle htake a).generation_le hs ht
  | reserve b => exact (descends_reserve b a).generation_le (slot?_ensure_of_some hs b) ht
  | fulfil b => exact (descends_fulfil b a).generation_le (slot?_ensure_of_some hs b) ht
  | abandon b generation => exact (descends_abandon b a generation).generation_le hs ht
  | checkIn m now =>
    obtain ⟨u, hu, hut, _⟩ := descends_checkIn m now a t ht
    obtain ⟨s', hs', hsu, _⟩ := slot?_accept hu
    rw [hs] at hs'
    cases hs'
    omega
  | detach b => exact ((descends_detach b a).fewer (Nat.zero_le _)).generation_le hs ht
  | markAllStale => exact ((descends_markAllStale a).fewer (Nat.zero_le _)).generation_le hs ht
  | shut => exact (descends_shut a).generation_le hs ht

theorem staked_cons {x : Holding} :
    Staked (x :: held) a generation ↔ x.stake? = some (a, generation) ∨ Staked held a generation := by
  simp only [Staked, List.mem_cons, or_and_right, exists_or, exists_eq_left]

theorem staked_congr {x y : Holding} (h : x.stake? = y.stake?) :
    Staked (x :: held) a generation ↔ Staked (y :: held) a generation := by
  rw [staked_cons, staked_cons, h]

theorem staked_append :
    Staked (held ++ hs) a generation ↔ Staked held a generation ∨ Staked hs a generation := by
  simp only [Staked, List.mem_append, or_and_right, exists_or]

/-- What nobody counts makes no difference. -/
theorem staked_spare {x : Holding} (hx : x.isSpare) :
    Staked (x :: held) a generation ↔ Staked held a generation := by
  rw [staked_cons]
  refine or_iff_right fun h => ?_
  cases x with
  | loose | wire | turn => cases h
  | borrowed | parting | place => cases hx

theorem staked_hold (ms : List Member) :
    Staked (Grip.hold ⟨p, held⟩ ms).2.held a generation ↔ Staked held a generation := by
  unfold Grip.hold
  induction ms with
  | nil => exact Iff.rfl
  | cons m ms ih => exact (staked_spare rfl).trans ih

theorem Live.more (h : Live p held a generation) {x : Holding} : Live p (x :: held) a generation :=
  h.imp_right fun h => staked_cons.mpr (.inr h)

theorem live_spare {x : Holding} (hx : x.isSpare) :
    Live p (x :: held) a generation ↔ Live p held a generation :=
  or_congr_right (staked_spare hx)

/-- A connection that comes back was out. -/
theorem live_of_checkIn {x : Holding} {now : Instant}
    (hx : x.stake? = some (m.connection.address, m.generation))
    (h : Live (p.checkIn m now).2 held a generation) : Live p (x :: held) a generation := by
  rcases h with hwaits | hstaked
  · obtain ⟨t, ht, y, hy, hgeneration⟩ := (descends_checkIn m now a).waits hwaits
    obtain ⟨s, hs, _, hidle⟩ := slot?_accept ht
    rcases hidle y hy with hold | ⟨ha, hm⟩
    · exact .inl ⟨s, hs, y, hold, hgeneration⟩
    · refine .inr (staked_cons.mpr (.inl ?_))
      rw [hx, ha, ← hm, hgeneration]
  · exact .inr (staked_cons.mpr (.inr hstaked))

theorem live_of_letGo {x : Holding} (now : Instant) (h : Live (p.letGo now x) held a generation) :
    Live p (x :: held) a generation := by
  cases x with
  | borrowed m =>
    refine live_of_checkIn ?_ h
    dsimp only [Holding.stake?]
    split <;> rfl
  | place b n =>
    refine Live.more (h.imp_left fun hwaits => ?_)
    exact (descends_abandon b a n).waits hwaits
  | parting | loose | wire | turn => exact Live.more h

theorem live_of_letGoHeld {now : Instant}
    (h : Live (Grip.letGo now p held).pool (Grip.letGo now p held).held a generation) :
    Live p held a generation := by
  induction held with
  | nil => exact h
  | cons x held ih =>
    cases x with
    | wire link => exact (live_spare rfl).mpr (ih h)
    | borrowed | parting | loose | place | turn => exact live_of_letGo now h

theorem live_of_fulfil {c : Connection} (hc : (Move.fulfil c).Suits held)
    (h : Live (Grip.fulfil c p held).pool (Grip.fulfil c p held).held a generation) :
    Live p held a generation := by
  induction held with
  | nil => exact h
  | cons x held ih =>
    cases x with
    | wire link => exact (live_spare rfl).mpr (ih hc h)
    | place b n =>
      obtain rfl := hc b n held rfl
      rcases h with hwaits | hstaked
      · exact .inl (waits_ensure ((descends_fulfil _ a).waits hwaits))
      · let m : Member := ⟨{ c with routed := p.directory.isSome }, n⟩
        have hsame : (Holding.borrowed m).stake? = (Holding.place c.address n).stake? := rfl
        exact .inr ((staked_congr hsame).mp hstaked)
    | borrowed | parting | loose | turn => exact h

/-- A connection that is taken was waiting. -/
theorem live_of_takeIdle (hsound : Sound p hs) (htake : p.takeIdle b = some (m, q))
    (h : Live q (.borrowed m :: held) a generation) : Live p held a generation := by
  rcases h with hwaits | hstaked
  · exact .inl ((descends_takeIdle htake a).waits hwaits)
  · rcases staked_cons.mp hstaked with hm | hstaked
    · cases hm
      rw [hsound.address_of_takeIdle htake]
      exact .inl (waits_of_takeIdle htake)
    · exact .inr hstaked

def Query.Reserves (a : Address) : {β : Type} → Query β → Prop
  | _, .move (.reserve b) => b = a
  | _, _ => False

def Placed (p : Pool) (held : List Holding) (a : Address) (generation : Nat) : Prop :=
  .place a generation ∈ held ∧ ∃ s, p.slot? a = some s ∧ s.generation = generation

/-- The place that is taken is the only thing that a reservation adds. -/
theorem live_of_reserve {n : Nat} (hroom : p.reserve b = (some n, q))
    (h : Live q (.place b n :: held) a generation) :
    Live p held a generation ∨ b = a ∧ Placed q (.place b n :: held) a generation := by
  have hdescends := @descends_reserve p b a
  rw [hroom] at hdescends
  rcases h with hwaits | hstaked
  · exact .inl (.inl (waits_ensure (hdescends.waits hwaits)))
  · rcases staked_cons.mp hstaked with hplace | hstaked
    · cases hplace
      exact .inr ⟨rfl, List.mem_cons_self, slot?_of_reserve hroom⟩
    · exact .inl (.inr hstaked)

/-- Whatever there is after a move was there before, or its place has just been taken. -/
theorem live_of_move {β : Type} {m : Move β} (hm : m.Suits held) (hsound : Sound p (held ++ hs))
    (now : Instant)
    (h : Live (m.apply now ⟨p, held⟩).2.pool (m.apply now ⟨p, held⟩).2.held a generation) :
    Live p held a generation ∨ (Query.move m).Reserves a ∧
      Placed (m.apply now ⟨p, held⟩).2.pool (m.apply now ⟨p, held⟩).2.held a generation := by
  cases m with
  | enter | announce | serves | strangers | routers | isFresh | store | discard | discardWriter =>
    exact .inl h
  | markAllStale => exact .inl (h.imp_left (descends_markAllStale a).waits)
  | takeIdle b =>
    refine .inl ?_
    simp only [Move.apply] at h
    cases htake : p.takeIdle b with
    | none =>
      rw [htake] at h
      exact h
    | some r =>
      rw [htake] at h
      exact live_of_takeIdle hsound htake h
  | isCurrent b =>
    simp only [Move.apply] at h
    split at h <;> exact .inl h
  | reserve b =>
    simp only [Move.apply] at h ⊢
    cases hroom : p.reserve b with
    | mk room q =>
      rw [hroom] at h
      cases room with
      | none =>
        have hdescends := @descends_reserve p b a
        rw [hroom] at hdescends
        exact .inl (h.imp_left fun hwaits => waits_ensure (hdescends.waits hwaits))
      | some n => exact live_of_reserve hroom h
  | fulfil c => exact .inl (live_of_fulfil hm h)
  | part =>
    simp only [Move.apply] at h
    split at h
    · next m rest =>
      have hsame : (Holding.parting m).stake? = (Holding.borrowed m).stake? := rfl
      exact .inl (Or.imp_right (staked_congr hsame).mp h)
    · exact .inl h
  | checkIn =>
    refine .inl ?_
    simp only [Move.apply] at h
    split at h
    · exact live_of_checkIn rfl (h.imp_right (staked_hold _).mp)
    · exact live_of_checkIn rfl (h.imp_right (staked_hold _).mp)
    · exact h
  | letGo => exact .inl (live_of_letGoHeld h)
  | detach b => exact .inl (h.imp (descends_detach b a).waits (staked_hold _).mp)
  | shut => exact .inl (h.imp (descends_shut a).waits (staked_hold _).mp)
  | select role database choice =>
    simp only [Move.apply] at h
    split at h <;> exact .inl h

theorem staked_of_editTop {α : Type} {f : Connection → α × Connection} {x : α}
    (hf : ∀ c, (f c).2.address = c.address) (hedit : World.editTop f held = some (x, held'))
    (h : Staked held' a generation) : Staked held a generation := by
  cases held with
  | nil => cases hedit
  | cons y held =>
    cases y with
    | borrowed m =>
      cases hedit
      have hsame : (Holding.borrowed { m with connection := (f m.connection).2 }).stake?
          = (Holding.borrowed m).stake? := by simp only [Holding.stake?, hf]
      exact (staked_congr hsame).mp h
    | parting m =>
      cases hedit
      have hsame : (Holding.parting { m with connection := (f m.connection).2 }).stake?
          = (Holding.parting m).stake? := by simp only [Holding.stake?, hf]
      exact (staked_congr hsame).mp h
    | loose m =>
      cases hedit
      exact (staked_spare rfl).mpr ((staked_spare rfl).mp h)
    | wire | place | turn => cases hedit

theorem live_append :
    Live p (held ++ hs) a generation ↔ Live p held a generation ∨ Staked hs a generation := by
  rw [Live, Live, staked_append, or_assoc]

/-- Whatever there is after an answer was there before, or its place has just been taken. -/
theorem live_of_answers {β : Type} {q : Query β} {x : β} {p' : Pool} (hq : q.Suits held)
    (hsound : Sound p (held ++ hs)) (hb : Grip.Answers ⟨p, held⟩ q x ⟨p', held'⟩)
    (h : Live p' (held' ++ hs) a generation) :
    Live p (held ++ hs) a generation ∨ q.Reserves a ∧ Placed p' held' a generation := by
  rcases live_append.mp h with h | hothers
  · rw [live_append, or_right_comm]
    refine .inl ?_
    cases q with
    | move m =>
      obtain ⟨now, happly⟩ := hb
      have hmove := @live_of_move p a generation held hs β m hq hsound now
      rw [happly] at hmove
      exact hmove h
    | edit f =>
      obtain ⟨now, _, hedit, heq⟩ := hb
      cases heq
      exact .inl (h.imp_right (staked_of_editTop (fun c => hq now c) hedit))
    | transfer t =>
      cases hb
      rcases Grip.grasp_cases held t (.ready x) with hsame | ⟨link, hmore⟩
      · rw [hsame] at h
        exact .inl h
      · rw [hmore] at h
        exact .inl ((live_spare rfl).mp h)
    | waitForChange =>
      cases hb.2
      exact .inl h
    | waitForTurn =>
      cases hb.2
      exact .inl ((live_spare rfl).mp h)
    | draw =>
      cases hb
      exact .inl h
  · exact .inl (live_append.mpr (.inr hothers))

/-- There is a slot wherever there is a connection. -/
theorem Sound.slot_of_live (h : Sound p hs) (hlive : Live p hs a generation) : ∃ s, p.slot? a = some s := by
  rcases hlive with ⟨s, hs, _⟩ | ⟨x, hx, hstake⟩
  · exact ⟨s, hs⟩
  · have hcovers := h.covers a
    cases hslot : p.slot? a with
    | some s => exact ⟨s, rfl⟩
    | none =>
      rw [hslot] at hcovers
      rcases Holding.isOut_or_isPlace hstake with hout | hplace
      · exact absurd hout (List.countP_eq_zero.mp hcovers.1 x hx)
      · exact absurd hplace (List.countP_eq_zero.mp hcovers.2 x hx)

namespace Crowd

variable {opener : Opener} {c c' : Crowd}

def Live (c : Crowd) (a : Address) (generation : Nat) : Prop := Pool.Live c.pool c.held a generation

/-- No connection is of a later generation than the slot of its address. -/
def Aged (c : Crowd) : Prop :=
  ∀ a generation, c.Live a generation → ∃ s, c.pool.slot? a = some s ∧ generation ≤ s.generation

theorem live_perm {hs : List Holding} (h : c.held.Perm hs) :
    c.Live a generation ↔ Pool.Live c.pool hs a generation := by
  unfold Live Pool.Live Staked
  simp only [h.mem_iff]

theorem Step.live (h : Step opener c c') (hc : c.Kept) (hlive : c'.Live a generation) :
    c.Live a generation ∨ Placed c'.pool c'.held a generation := by
  cases h with
  | join => exact .inl hlive
  | @turn before after x x' p p' hx =>
    have hsound := hc.sound.perm (held_perm p x)
    rw [live_perm (held_perm p' x')] at hlive
    rw [live_perm (held_perm p x)]
    cases hx with
    | call k => exact .inl hlive
    | @goOn w w' held held' p p' hstep =>
      cases hstep with
      | @answer _ q next b _ _ hb =>
        have hq : q.Suits held := (hc.safe _ (List.mem_append_right before List.mem_cons_self)).1
        refine (live_of_answers hq hsound hb hlive).imp_right fun ⟨_, hplace, hslot⟩ => ⟨?_, hslot⟩
        exact (held_perm p' ⟨next b, held'⟩).mem_iff.mpr (List.mem_append_left _ hplace)
      | round => exact .inl hlive
    | @use m held p c haddress =>
      have hsame : (Holding.borrowed { m with connection := c }).stake? = (Holding.borrowed m).stake? := by
        simp only [Holding.stake?, haddress]
      exact .inl (Or.imp_right (staked_congr hsame).mp hlive)
    | quit => exact .inl hlive

theorem Step.ages (h : Step opener c c') (hopener : Opening.Faithful opener) (hc : c.Kept) (haged : c.Aged) :
    c'.Aged := by
  intro a generation hlive
  obtain ⟨t, ht⟩ := (h.keeps hopener hc).sound.slot_of_live hlive
  refine ⟨t, ht, ?_⟩
  rcases h.live hc hlive with hold | ⟨_, s, hs, rfl⟩
  · obtain ⟨s, hs, hle⟩ := haged a generation hold
    exact Nat.le_trans hle (h.change.generation_le hs ht)
  · rw [ht] at hs
    cases hs
    exact Nat.le_refl _

/-- Nothing is ahead of its slot however long anybody is at work. -/
theorem Reaches.ages (h : Reaches opener c c') (hopener : Opening.Faithful opener) (hc : c.Kept)
    (haged : c.Aged) : c'.Kept ∧ c'.Aged := by
  induction h with
  | refl => exact ⟨hc, haged⟩
  | tail _ hstep ih => exact ⟨hstep.keeps hopener ih.1, hstep.ages hopener ih.1 ih.2⟩

theorem start_aged (limit : Option Nat) (directory : Option Routing.Directory) :
    Aged ⟨{ limit := limit, directory := directory }, []⟩ := by
  rintro a generation (⟨s, hs, _⟩ | ⟨x, hx, _⟩)
  · cases hs
  · cases hx

end Crowd

end Pool
end BoltClient
