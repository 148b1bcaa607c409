import BoltClient.Pool.Move
import BoltClient.Proofs.Pool.Slots

namespace BoltClient

namespace Holding

def isOut (a : Address) : Holding → Bool
  | borrowed m | parting m => m.connection.address = a
  | _ => false

def isPlace (a : Address) : Holding → Bool
  | place b _ => b = a
  | _ => false

/-- Something that no pool counts. -/
def isSpare : Holding → Bool
  | loose _ | wire _ | turn => true
  | _ => false

theorem isOut_borrowed {m : Member} {a : Address} (h : m.connection.address = a) :
    (borrowed m).isOut a = true := decide_eq_true h

theorem isOut_borrowed_of_ne {m : Member} {a b : Address} (h : m.connection.address = a) (hb : b ≠ a) :
    (borrowed m).isOut b = false := decide_eq_false fun hab => hb (hab.symm.trans h)

theorem isPlace_place_of_ne {a b : Address} (hb : b ≠ a) (generation : Nat) :
    (place a generation).isPlace b = false := decide_eq_false fun hab => hb hab.symm

theorem isPlace_place (a : Address) (generation : Nat) : (place a generation).isPlace a = true :=
  decide_eq_true rfl

theorem isOut_of_isSpare {h : Holding} (hspare : h.isSpare) (a : Address) : h.isOut a = false := by
  cases h with
  | loose | wire | turn => rfl
  | borrowed | parting | place => cases hspare

theorem isPlace_of_isSpare {h : Holding} (hspare : h.isSpare) (a : Address) : h.isPlace a = false := by
  cases h with
  | loose | wire | turn => rfl
  | borrowed | parting | place => cases hspare

end Holding

namespace Pool

def outOf (hs : List Holding) (a : Address) : Nat := hs.countP (·.isOut a)

def takenOf (hs : List Holding) (a : Address) : Nat := hs.countP (·.isPlace a)

/-- The slot of an address counts at least what is out and what is taken, keeps within the limit, and its
idle connections belong there. -/
def Covers (limit : Option Nat) (a : Address) (out taken : Nat) : Option Slot → Prop
  | none => out = 0 ∧ taken = 0
  | some s => out ≤ s.inUse ∧ taken ≤ s.reservations ∧ (∀ n, limit = some n → s.size ≤ n) ∧
      ∀ m ∈ s.idle, m.connection.address = a

structure Sound (p : Pool) (hs : List Holding) : Prop where
  nodup : p.addresses.Nodup
  covers : ∀ a, Covers p.limit a (outOf hs a) (takenOf hs a) (p.slot? a)

variable {p q : Pool} {a : Address} {hs hs' : List Holding} {m : Member} {s : Slot}

theorem outOf_cons (h : Holding) (hs : List Holding) (a : Address) :
    outOf (h :: hs) a = outOf hs a + if h.isOut a then 1 else 0 := List.countP_cons

theorem takenOf_cons (h : Holding) (hs : List Holding) (a : Address) :
    takenOf (h :: hs) a = takenOf hs a + if h.isPlace a then 1 else 0 := List.countP_cons

theorem outOf_of_isOut {x : Holding} (hx : x.isOut a = true) :
    outOf (x :: hs) a = outOf hs a + 1 := by
  rw [outOf_cons, hx, if_pos rfl]

theorem outOf_of_not {x : Holding} (hx : x.isOut a = false) : outOf (x :: hs) a = outOf hs a := by
  rw [outOf_cons, hx, if_neg Bool.false_ne_true, Nat.add_zero]

theorem takenOf_of_isPlace {x : Holding} (hx : x.isPlace a = true) :
    takenOf (x :: hs) a = takenOf hs a + 1 := by
  rw [takenOf_cons, hx, if_pos rfl]

theorem takenOf_of_not {x : Holding} (hx : x.isPlace a = false) :
    takenOf (x :: hs) a = takenOf hs a := by
  rw [takenOf_cons, hx, if_neg Bool.false_ne_true, Nat.add_zero]

theorem counts_of_spare (h : ∀ y ∈ hs, y.isSpare) (a : Address) : outOf hs a = 0 ∧ takenOf hs a = 0 := by
  refine ⟨List.countP_eq_zero.mpr fun y hy => ?_, List.countP_eq_zero.mpr fun y hy => ?_⟩
  · rw [Holding.isOut_of_isSpare (h y hy)]
    exact Bool.false_ne_true
  · rw [Holding.isPlace_of_isSpare (h y hy)]
    exact Bool.false_ne_true

theorem Covers.mono {limit : Option Nat} {out out' taken taken' : Nat} {s : Option Slot}
    (h : Covers limit a out taken s) (hout : out' ≤ out) (htaken : taken' ≤ taken) :
    Covers limit a out' taken' s := by
  cases s with
  | none =>
    obtain ⟨rfl, rfl⟩ := h
    exact ⟨by omega, by omega⟩
  | some s => exact ⟨by have := h.1; omega, by have := h.2.1; omega, h.2.2⟩

theorem Sound.mono (h : Sound p hs) (hout : ∀ a, outOf hs' a ≤ outOf hs a)
    (htaken : ∀ a, takenOf hs' a ≤ takenOf hs a) : Sound p hs' :=
  ⟨h.nodup, fun a => (h.covers a).mono (hout a) (htaken a)⟩

theorem Sound.perm (h : Sound p hs) (hperm : hs.Perm hs') : Sound p hs' :=
  h.mono (fun _ => Nat.le_of_eq (hperm.countP_eq _).symm)
    (fun _ => Nat.le_of_eq (hperm.countP_eq _).symm)

theorem Sound.congr (h : Sound p hs) (hslots : q.slots = p.slots) (hlimit : q.limit = p.limit) :
    Sound q hs := by
  refine ⟨?_, fun a => ?_⟩
  · rw [addresses, hslots]
    exact h.nodup
  · rw [hlimit, slot?_congr hslots]
    exact h.covers a

theorem Sound.drop {x : Holding} (h : Sound p (x :: hs)) : Sound p hs := by
  refine h.mono (fun a => ?_) (fun a => ?_)
  · rw [outOf_cons]
    omega
  · rw [takenOf_cons]
    omega

theorem Sound.spare {x : Holding} (h : Sound p hs) (hx : x.isSpare) : Sound p (x :: hs) := by
  refine h.mono (fun a => ?_) (fun a => ?_)
  · exact Nat.le_of_eq (outOf_of_not (Holding.isOut_of_isSpare hx a))
  · exact Nat.le_of_eq (takenOf_of_not (Holding.isPlace_of_isSpare hx a))

/-- One thing held becomes another that counts the same. -/
theorem Sound.swap {x y : Holding} (h : Sound p (x :: hs)) (hout : ∀ a, y.isOut a = x.isOut a)
    (hplace : ∀ a, y.isPlace a = x.isPlace a) : Sound p (y :: hs) := by
  refine h.mono (fun a => Nat.le_of_eq ?_) (fun a => Nat.le_of_eq ?_)
  · rw [outOf_cons, outOf_cons, hout]
  · rw [takenOf_cons, takenOf_cons, hplace]

/-- The slot of one address changes, and so does what is held of it. -/
theorem Sound.change (h : Sound p hs) (hlimit : q.limit = p.limit) (hnodup : q.addresses.Nodup)
    (hothers : ∀ b, b ≠ a → q.slot? b = p.slot? b ∧ outOf hs' b ≤ outOf hs b ∧ takenOf hs' b ≤ takenOf hs b)
    (ha : Covers p.limit a (outOf hs' a) (takenOf hs' a) (q.slot? a)) : Sound q hs' := by
  refine ⟨hnodup, fun b => ?_⟩
  rw [hlimit]
  by_cases hb : b = a
  · subst hb
    exact ha
  · obtain ⟨hslot, hout, htaken⟩ := hothers b hb
    rw [hslot]
    exact (h.covers b).mono hout htaken

theorem Sound.modify {f : Slot → Slot} (h : Sound p hs) (hf : ∀ s, (f s).address = s.address)
    (hothers : ∀ b, b ≠ a → outOf hs' b ≤ outOf hs b ∧ takenOf hs' b ≤ takenOf hs b)
    (ha : Covers p.limit a (outOf hs' a) (takenOf hs' a) ((p.slot? a).map f)) :
    Sound (p.modify a f) hs' := by
  refine h.change rfl ?_ (fun b hb => ⟨?_, hothers b hb⟩) ?_
  · rw [addresses_modify hf]
    exact h.nodup
  · rw [slot?_modify hf, if_neg hb]
  · rw [slot?_modify hf, if_pos rfl]
    exact ha

theorem Sound.ensure (h : Sound p hs) (a : Address) : Sound (p.ensure a) hs := by
  refine h.change (a := a) ?_ (nodup_ensure h.nodup) (fun b hb => ⟨?_, Nat.le_refl _, Nat.le_refl _⟩) ?_
  · unfold Pool.ensure
    split <;> rfl
  · rw [slot?_ensure, if_neg hb]
  · rw [slot?_ensure, if_pos rfl]
    have hcovers := h.covers a
    cases hslot : p.slot? a with
    | some s =>
      rw [hslot] at hcovers
      exact hcovers
    | none =>
      rw [hslot] at hcovers
      obtain ⟨hout, htaken⟩ := hcovers
      exact ⟨by omega, by omega, fun n _ => Nat.zero_le n, fun m hm => by cases hm⟩

theorem Sound.remove (h : Sound p hs) (hs₀ : p.slot? a = some s) (hinUse : s.inUse = 0)
    (hreservations : s.reservations = 0) : Sound (p.remove a) hs := by
  refine h.change (a := a) rfl (nodup_remove h.nodup)
    (fun b hb => ⟨?_, Nat.le_refl _, Nat.le_refl _⟩) ?_
  · rw [slot?_remove, if_neg hb]
  · rw [slot?_remove, if_pos rfl]
    have hcovers := h.covers a
    rw [hs₀] at hcovers
    exact ⟨by have := hcovers.1; omega, by have := hcovers.2.1; omega⟩

theorem countP_idle_of_home {slots : List Slot} (hnodup : (slots.map (·.address)).Nodup)
    (hhome : ∀ s ∈ slots, ∀ m ∈ s.idle, m.connection.address = s.address) (a : Address) :
    (slots.flatMap (·.idle)).countP (·.connection.address = a)
      = ((slots.find? (·.address = a)).map (·.idle.length)).getD 0 := by
  induction slots with
  | nil => rfl
  | cons s rest ih =>
    rw [List.map_cons, List.nodup_cons] at hnodup
    have hrest := ih hnodup.2 fun t ht => hhome t (List.mem_cons_of_mem s ht)
    rw [List.flatMap_cons, List.countP_append, hrest, List.find?_cons]
    by_cases hs : s.address = a
    · have hall : s.idle.countP (·.connection.address = a) = s.idle.length := by
        refine List.countP_eq_length.mpr fun m hm => decide_eq_true ?_
        rw [hhome s List.mem_cons_self m hm, hs]
      have hnone : rest.find? (·.address = a) = none := by
        refine List.find?_eq_none.mpr fun t ht hta => hnodup.1 ?_
        rw [hs, ← of_decide_eq_true hta]
        exact List.mem_map_of_mem ht
      rw [hall, hnone, decide_eq_true hs]
      rfl
    · have hnone : s.idle.countP (·.connection.address = a) = 0 := by
        refine List.countP_eq_zero.mpr fun m hm hma => hs ?_
        rw [← hhome s List.mem_cons_self m hm]
        exact of_decide_eq_true hma
      rw [hnone, decide_eq_false hs, Nat.zero_add]

/-- The idle connections to an address are all in the slot of the address. -/
theorem Sound.countP_idle (h : Sound p hs) (a : Address) :
    p.idleMembers.countP (·.connection.address = a) = p.idleCount a := by
  refine countP_idle_of_home h.nodup (fun s hs m hm => ?_) a
  have hcovers := h.covers s.address
  rw [slot?_of_mem h.nodup hs] at hcovers
  exact hcovers.2.2.2 m hm

theorem Sound.takeIdle (h : Sound p hs) (htake : p.takeIdle a = some (m, q)) :
    Sound q (.borrowed m :: hs) := by
  unfold Pool.takeIdle at htake
  have hcovers := h.covers a
  cases hslot : p.slot? a with
  | none => rw [hslot] at htake; cases htake
  | some s =>
    rw [hslot] at htake hcovers
    obtain ⟨hout, htaken, hsize, hhome⟩ := hcovers
    cases hidle : s.idle with
    | nil => rw [Option.map_some, hidle] at htake; cases htake
    | cons first rest =>
      rw [Option.map_some, hidle] at htake
      cases htake
      rw [hidle] at hhome
      have hfirst : m.connection.address = a := hhome m List.mem_cons_self
      refine h.modify (fun _ => rfl) (fun b hb => ⟨Nat.le_of_eq ?_, Nat.le_refl _⟩) ?_
      · exact outOf_of_not (Holding.isOut_borrowed_of_ne hfirst hb)
      · rw [hslot, outOf_of_isOut (Holding.isOut_borrowed hfirst), takenOf_of_not rfl]
        refine ⟨Nat.succ_le_succ hout, htaken, fun n hn => ?_, fun x hx =>
          hhome x (List.mem_cons_of_mem _ hx)⟩
        have hn := hsize n hn
        simp only [Slot.size, hidle, List.length_cons] at hn ⊢
        omega

theorem Sound.reserve (h : Sound p hs) : Sound (p.reserve a).2
    (match (p.reserve a).1 with
      | some generation => .place a generation :: hs
      | none => hs) := by
  have hensured := h.ensure a
  unfold Pool.reserve
  dsimp only
  cases hslot : (p.ensure a).slot? a with
  | none => exact hensured
  | some s =>
    have hcovers := hensured.covers a
    rw [hslot] at hcovers
    obtain ⟨hout, htaken, hsize, hhome⟩ := hcovers
    dsimp only
    split
    · exact hensured
    · next hroom =>
      refine hensured.modify (fun _ => rfl) (fun b hb => ⟨Nat.le_refl _, Nat.le_of_eq ?_⟩) ?_
      · exact takenOf_of_not (Holding.isPlace_place_of_ne hb _)
      · rw [hslot, outOf_of_not rfl, takenOf_of_isPlace (Holding.isPlace_place a _)]
        refine ⟨hout, Nat.succ_le_succ htaken, fun n hn => ?_, hhome⟩
        have hlt : ¬n ≤ s.size := by
          rw [hn] at hroom
          simpa using hroom
        simp only [Slot.size] at hlt ⊢
        omega

theorem Sound.fulfil {generation generation' : Nat} {c : Connection} (hc : c.address = a)
    (h : Sound p (.place a generation :: hs)) :
    Sound (p.fulfil a) (.borrowed ⟨c, generation'⟩ :: hs) := by
  have hensured := h.ensure a
  have hcovers := hensured.covers a
  unfold Pool.fulfil
  cases hslot : (p.ensure a).slot? a with
  | none =>
    rw [slot?_ensure, if_pos rfl] at hslot
    cases hslot
  | some s =>
    rw [hslot, outOf_of_not rfl, takenOf_of_isPlace (Holding.isPlace_place a _)] at hcovers
    obtain ⟨hout, htaken, hsize, hhome⟩ := hcovers
    refine hensured.modify (fun _ => rfl) (fun b hb => ⟨Nat.le_of_eq ?_, Nat.le_of_eq ?_⟩) ?_
    · rw [outOf_of_not (Holding.isOut_borrowed_of_ne hc hb), outOf_of_not rfl]
    · rw [takenOf_of_not rfl, takenOf_of_not (Holding.isPlace_place_of_ne hb _)]
    · rw [hslot, outOf_of_isOut (Holding.isOut_borrowed hc), takenOf_of_not rfl]
      refine ⟨Nat.succ_le_succ hout, Nat.le_sub_one_of_lt htaken, fun n hn => ?_, hhome⟩
      have hn := hsize n hn
      simp only [Slot.size] at hn ⊢
      omega

theorem Sound.abandon {generation : Nat} (h : Sound p (.place a generation :: hs)) :
    Sound (p.abandon a generation) hs := by
  have hless : Sound (p.modify a fun s => { s with reservations := s.reservations - 1 }) hs := by
    have hcovers := h.covers a
    rw [outOf_of_not rfl, takenOf_of_isPlace (Holding.isPlace_place a _)] at hcovers
    refine h.modify (fun _ => rfl) (fun b hb => ⟨Nat.le_of_eq ?_, Nat.le_of_eq ?_⟩) ?_
    · rw [outOf_of_not rfl]
    · rw [takenOf_of_not (Holding.isPlace_place_of_ne hb _)]
    · cases hslot : p.slot? a with
      | none =>
        rw [hslot] at hcovers
        cases hcovers.2
      | some s =>
        rw [hslot] at hcovers
        obtain ⟨hout, htaken, hsize, hhome⟩ := hcovers
        refine ⟨hout, Nat.le_sub_one_of_lt htaken, fun n hn => ?_, hhome⟩
        have hn := hsize n hn
        simp only [Slot.size] at hn ⊢
        omega
  unfold Pool.abandon
  dsimp only
  split
  · next s hslot =>
    split
    · next hempty =>
      have hsize : s.idle.length + s.inUse + s.reservations = 0 := hempty.1
      exact (hless.remove hslot (by omega) (by omega)).congr rfl rfl
    · exact hless.congr rfl rfl
  · exact hless.congr rfl rfl

theorem Sound.detach (h : Sound p hs) (a : Address) : Sound (p.detach a).2 hs := by
  unfold Pool.detach
  cases hslot : p.slot? a with
  | none => exact h
  | some s =>
    dsimp only
    split
    · next hunused => exact h.remove hslot hunused.1 hunused.2
    · have hcovers := h.covers a
      rw [hslot] at hcovers
      obtain ⟨hout, htaken, hsize, _⟩ := hcovers
      refine h.modify (fun _ => rfl) (fun _ _ => ⟨Nat.le_refl _, Nat.le_refl _⟩) ?_
      rw [hslot]
      refine ⟨hout, htaken, fun n hn => ?_, fun m hm => by cases hm⟩
      have hn := hsize n hn
      simp only [Slot.size, List.length_nil] at hn ⊢
      omega

/-- All slots change in the same way, and none of them gets more. -/
theorem Sound.modifyAll {f : Slot → Slot} (h : Sound p hs) (hslots : q.slots = p.slots.map f)
    (hlimit : q.limit = p.limit) (haddress : ∀ s, (f s).address = s.address)
    (hinUse : ∀ s, (f s).inUse = s.inUse) (hreservations : ∀ s, (f s).reservations = s.reservations)
    (hidle : ∀ s, (f s).idle = s.idle ∨ (f s).idle = []) : Sound q hs := by
  refine ⟨?_, fun a => ?_⟩
  · have hsame : q.addresses = p.addresses := by
      rw [addresses, addresses, hslots, List.map_map]
      exact List.map_congr_left fun s _ => haddress s
    rw [hsame]
    exact h.nodup
  · have hslot : q.slot? a = (p.slot? a).map f := by
      rw [slot?, slot?, hslots, slot?_map haddress]
    have hcovers := h.covers a
    rw [hslot, hlimit]
    cases hs₀ : p.slot? a with
    | none =>
      rw [hs₀] at hcovers
      exact hcovers
    | some s =>
      rw [hs₀] at hcovers
      obtain ⟨hout, htaken, hsize, hhome⟩ := hcovers
      refine ⟨by rw [hinUse]; exact hout, by rw [hreservations]; exact htaken, fun n hn => ?_, ?_⟩
      · have hn := hsize n hn
        rcases hidle s with hsame | hnone
        · simp only [Slot.size, hsame, hinUse, hreservations] at hn ⊢
          exact hn
        · simp only [Slot.size, hnone, hinUse, hreservations, List.length_nil] at hn ⊢
          omega
      · rcases hidle s with hsame | hnone
        · rw [hsame]
          exact hhome
        · rw [hnone]
          intro m hm
          cases hm

theorem Sound.markAllStale (h : Sound p hs) : Sound p.markAllStale hs :=
  h.modifyAll rfl rfl (fun _ => rfl) (fun _ => rfl) (fun _ => rfl) fun _ => .inl rfl

theorem Sound.shut (h : Sound p hs) : Sound p.shut.2 hs :=
  h.modifyAll rfl rfl (fun _ => rfl) (fun _ => rfl) (fun _ => rfl) fun _ => .inr rfl

theorem Sound.heedAll (h : Sound p hs) (a : Address) (feedback : List Feedback) :
    Sound (p.heedAll a feedback).2 hs := by
  induction feedback generalizing p with
  | nil => exact h
  | cons f rest ih =>
    have hfirst : Sound (p.heed a f).2 hs := by
      cases f with
      | deactivate =>
        have htables : Sound (p.changeTables (·.discard a)) hs := h.congr rfl rfl
        exact htables.detach a
      | writeFailure database => exact h.congr rfl rfl
      | invalidateAll => exact h.markAllStale
    exact ih hfirst

/-- A connection that was out comes back. -/
theorem Sound.checkIn {x : Holding} (hx : ∀ a, x.isOut a = decide (m.connection.address = a))
    (h : Sound p (x :: hs)) (now : Instant) : Sound (p.checkIn m now).2 hs := by
  unfold Pool.checkIn
  dsimp only
  refine Sound.congr (Sound.heedAll (p := p.modify m.connection.address _) ?_ _ _) rfl rfl
  have hcovers := h.covers m.connection.address
  rw [outOf_of_isOut (by rw [hx]; exact decide_eq_true rfl)] at hcovers
  refine h.drop.modify (fun _ => rfl) (fun _ _ => ⟨Nat.le_refl _, Nat.le_refl _⟩) ?_
  cases hslot : p.slot? m.connection.address with
  | none =>
    rw [hslot] at hcovers
    cases hcovers.1
  | some s =>
    rw [hslot] at hcovers
    obtain ⟨hout, htaken, hsize, hhome⟩ := hcovers
    refine ⟨Nat.le_sub_one_of_lt hout, ?_, fun n hn => ?_, fun x hx => ?_⟩
    · rw [takenOf_cons] at htaken
      simp only
      omega
    · have hn := hsize n hn
      simp only [Slot.size] at hn ⊢
      split
      · rw [List.length_append, List.length_singleton]
        omega
      · omega
    · simp only at hx
      split at hx
      · rcases List.mem_append.mp hx with hx | hx
        · exact hhome x hx
        · rw [List.mem_singleton] at hx
          rw [hx]
      · exact hhome x hx

theorem Sound.giveBack (h : Sound p (.borrowed m :: hs)) (now : Instant) :
    Sound (p.giveBack m now) hs := by
  unfold Pool.giveBack
  refine Sound.checkIn (x := .borrowed m) (fun a => ?_) h now
  dsimp only
  split <;> rfl

/-- Whatever is held can be given back. -/
theorem Sound.letGo {x : Holding} (h : Sound p (x :: hs)) (now : Instant) :
    Sound (p.letGo now x) hs := by
  cases x with
  | borrowed m => exact h.giveBack now
  | place a generation => exact h.abandon
  | parting | loose | wire => exact h.drop
  | turn => exact h.drop.congr rfl rfl

end Pool
end BoltClient
