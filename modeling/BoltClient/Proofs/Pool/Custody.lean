import BoltClient.Proofs.Pool.Balance
import BoltClient.Proofs.Pool.Crowd

namespace BoltClient

/-- Something that may be held between calls, with connections that are lent or without. -/
def Holding.isSettled (lent : Bool) : Holding → Bool
  | borrowed _ => lent
  | parting _ | place .. => false
  | _ => true

namespace Pool

open Work
open Stage (World)

def Settled (lent : Bool) (held : List Holding) : Prop := ∀ x ∈ held, x.isSettled lent

/-- A question that takes nothing out of the pool and does not begin to part with anything. -/
def Query.Steady : {β : Type} → Query β → Prop
  | _, .move (.takeIdle _) | _, .move (.reserve _) | _, .move .part => False
  | _, _ => True

def Query.OnTop : {β : Type} → Query β → Prop
  | _, .edit _ => True
  | _, .transfer t => (Connection.Query.transfer t).Stays
  | _, _ => False

/-- What work holds, among all that others may do with the pool between its questions; it may ask what is
careful. -/
def custody : Surroundings Query (List Holding) where
  Answers := hands.Answers
  Allows held q := q.Careful held

variable {α β : Type} {lent : Bool} {p p' : Pool} {held held' : List Holding} {m : Member}

namespace Grip

theorem letGo_suffix (now : Instant) (p : Pool) (held : List Holding) :
    (Grip.letGo now p held).held <:+ held.tail := by
  induction held with
  | nil => exact List.nil_suffix
  | cons x held ih =>
    cases x with
    | wire link => exact ih.trans (List.tail_suffix held)
    | borrowed | parting | loose | place | turn => exact List.suffix_refl held

/-- The newest thing held goes, and the links held for it. -/
theorem held_letGo {x : Holding} {rest : List Holding} (h : beneath held = x :: rest) (now : Instant)
    (p : Pool) : (Grip.letGo now p held).held = rest := by
  induction held with
  | nil => cases h
  | cons y held ih =>
    cases y with
    | wire link => exact ih h
    | borrowed | parting | loose | place | turn =>
      cases h
      rfl

theorem held_fulfil {a : Address} {generation : Nat} {rest : List Holding}
    (h : beneath held = .place a generation :: rest) (c : Connection) (p : Pool) :
    (Grip.fulfil c p held).held
      = .borrowed ⟨{ c with routed := p.directory.isSome }, generation⟩ :: rest := by
  induction held with
  | nil => cases h
  | cons y held ih =>
    cases y with
    | wire link => exact ih h
    | place =>
      cases h
      rfl
    | borrowed | parting | loose | turn => cases h

/-- What is being parted with is the newest thing held, or it stays. -/
theorem beneath_or_mem_letGo {held : List Holding} {m : Member} (hm : .parting m ∈ held) (now : Instant)
    (p : Pool) : (∃ rest, beneath held = .parting m :: rest) ∨ .parting m ∈ (Grip.letGo now p held).held := by
  induction held with
  | nil => cases hm
  | cons x held ih =>
    rcases List.mem_cons.mp hm with rfl | hrest
    · exact .inl ⟨held, rfl⟩
    · cases x with
      | wire link => exact ih hrest
      | borrowed | parting | loose | place | turn => exact .inr hrest

theorem beneath_suffix (held : List Holding) : beneath held <:+ held := by
  induction held with
  | nil => exact List.suffix_refl []
  | cons x held ih =>
    cases x with
    | wire link => exact ih.trans (List.suffix_cons _ held)
    | borrowed | parting | loose | place | turn => exact List.suffix_refl _

end Grip

theorem Settled.of_subset (h : Settled lent held) (hsub : held' ⊆ held) : Settled lent held' :=
  fun x hx => h x (hsub hx)

theorem Settled.cons {x : Holding} (hx : x.isSettled lent) (h : Settled lent held) :
    Settled lent (x :: held) := List.forall_mem_cons.mpr ⟨hx, h⟩

theorem Settled.hold (h : Settled lent held) (ms : List Member) : Settled lent (ms.map .loose ++ held) := by
  intro x hx
  rcases List.mem_append.mp hx with hx | hx
  · obtain ⟨m, _, rfl⟩ := List.mem_map.mp hx
    rfl
  · exact h x hx

/-- Whoever parts with nothing may let go of what they hold. -/
theorem careful_of_notMem (h : ∀ m, .parting m ∉ held) (q : Query α) : q.Careful held := by
  unfold Query.Careful
  split
  · intro m rest hbeneath
    refine h m ((Grip.beneath_suffix held).subset ?_)
    rw [hbeneath]
    exact List.mem_cons_self
  · exact trivial

theorem Settled.notMem (h : Settled lent held) (m : Member) : .parting m ∉ held :=
  fun hm => Bool.false_ne_true (h _ hm)

theorem Settled.careful (h : Settled lent held) (q : Query α) : q.Careful held :=
  careful_of_notMem h.notMem q

theorem Settled.fulfil (h : Settled lent held) (c : Connection) (p : Pool) :
    Settled lent (Grip.fulfil c p held).held := by
  induction held with
  | nil => exact h
  | cons x held ih =>
    cases x with
    | wire link => exact ih (List.forall_mem_cons.mp h).2
    | place a generation => cases (List.forall_mem_cons.mp h).1
    | borrowed | parting | loose | turn => exact h

theorem Settled.edit {f : Connection → α × Connection} {b : α} (h : Settled lent held)
    (hedit : World.editTop f held = some (b, held')) : Settled lent held' := by
  cases held with
  | nil => cases hedit
  | cons x held =>
    obtain ⟨hx, hrest⟩ := List.forall_mem_cons.mp h
    cases x with
    | borrowed | loose =>
      cases hedit
      exact Settled.cons hx hrest
    | parting => cases hx
    | wire | place | turn => cases hedit

/-- With a steady question nobody takes a place or begins to part with a connection. -/
theorem Settled.answer {q : Query β} {b : β} (h : Settled lent held) (hq : q.Steady)
    (hb : Grip.Answers ⟨p, held⟩ q b ⟨p', held'⟩) : Settled lent held' := by
  cases q with
  | move m =>
    obtain ⟨now, happly⟩ := hb
    obtain rfl : (m.apply now ⟨p, held⟩).2.held = held' := congrArg (Grip.held ∘ Prod.snd) happly
    cases m with
    | enter | announce | serves | strangers | routers | isFresh | store | discard | discardWriter
      | markAllStale => exact h
    | takeIdle | reserve | part => exact hq.elim
    | isCurrent =>
      simp only [Move.apply]
      split <;> exact h
    | fulfil c => exact h.fulfil c p
    | checkIn =>
      simp only [Move.apply]
      split
      · exact Settled.hold (List.forall_mem_cons.mp h).2 _
      · exact Settled.hold (List.forall_mem_cons.mp h).2 _
      · exact h
    | letGo => exact h.of_subset fun x hx => List.mem_of_mem_tail ((Grip.letGo_suffix now p held).subset hx)
    | detach | shut => exact h.hold _
    | select =>
      simp only [Move.apply]
      split <;> exact h
  | edit f =>
    obtain ⟨now, held₁, hedit, heq⟩ := hb
    cases heq
    exact h.edit hedit
  | transfer t =>
    cases hb
    rcases Grip.grasp_cases held t (.ready b) with hsame | ⟨link, hmore⟩
    · rw [hsame]
      exact h
    · rw [hmore]
      exact Settled.cons rfl h
  | waitForChange =>
    cases hb.2
    exact h
  | waitForTurn =>
    cases hb.2
    exact Settled.cons rfl h
  | draw =>
    cases hb
    exact h

theorem safe_of_steady {w : Task α} (h : w.Asks Query.Steady) (hheld : Settled lent held) :
    w.Safe custody held fun _ held' => Settled lent held' := by
  refine h.safe (Settled lent) (fun hs _ => hs.careful _) ?_ hheld
  rintro β q s b t hs hq ⟨p, p', hb⟩
  exact hs.answer hq hb

theorem steady_basics : Basics fun {α : Type} (w : Task α) => w.Asks Query.Steady :=
  asks_basics (fun _ => onTop_asks_all (fun _ => trivial) (fun _ => trivial) _) (fun _ => trivial) trivial trivial
    fun _ => trivial

theorem onTop_asks {t : Connection.Task α} (h : t.Asks Connection.Query.Stays) :
    (onTop t : Task α).Asks Query.OnTop := by
  refine h.via fun {β} {q} hq => ?_
  cases q with
  | edit f => exact trivial
  | transfer t => exact hq

/-- The newest connection held is being parted with, if there is one. -/
def Parting (held : List Holding) : Prop :=
  Settled true held ∨ ∃ m rest, held = .parting m :: rest ∧ Settled true rest

theorem parting_of_part {now : Instant} {b : Unit} (h : Settled true held)
    (hpart : Move.part.apply now ⟨p, held⟩ = (b, ⟨p', held'⟩)) : Parting held' := by
  simp only [Move.apply] at hpart
  split at hpart
  · next m rest =>
    cases hpart
    exact .inr ⟨m, rest, rfl, (List.forall_mem_cons.mp h).2⟩
  · cases hpart
    exact .inl h

/-- What is being parted with stays the newest while it is closed. -/
theorem Parting.answer {q : Query β} {b : β} (h : Parting held) (hq : q.OnTop)
    (hb : Grip.Answers ⟨p, held⟩ q b ⟨p', held'⟩) : Parting held' := by
  rcases h with hsettled | ⟨m, rest, rfl, hrest⟩
  · refine .inl (hsettled.answer ?_ hb)
    cases q with
    | edit | transfer => exact trivial
    | move | waitForChange | waitForTurn | draw => exact hq.elim
  · cases q with
    | edit f =>
      obtain ⟨now, held₁, hedit, heq⟩ := hb
      cases hedit
      cases heq
      exact .inr ⟨_, rest, rfl, hrest⟩
    | transfer t =>
      cases hb
      cases t with
      | connect | dial => exact hq.elim
      | now | resolve | settle | read | write | shutdown => exact .inr ⟨m, rest, rfl, hrest⟩
    | move | waitForChange | waitForTurn | draw => exact hq.elim

theorem settled_of_checkIn {now : Instant} {n : Nat} (h : Parting held)
    (hcheck : Move.checkIn.apply now ⟨p, held⟩ = (n, ⟨p', held'⟩)) : Settled true held' := by
  rcases h with hsettled | ⟨m, rest, rfl, hrest⟩
  · exact hsettled.answer (q := .move .checkIn) trivial ⟨now, hcheck⟩
  · obtain rfl := congrArg (Grip.held ∘ Prod.snd) hcheck
    exact hrest.hold _

theorem safe_closeAndRelease (h : Settled true held) :
    closeAndRelease.Safe custody held fun _ held' => Settled true held' := by
  unfold closeAndRelease
  refine Safe.andThen ⟨trivial, fun _ held₁ ⟨p, p', now, hpart⟩ => ?_⟩
  have hclosing : (onTop Connection.close : Task Unit).Safe custody held₁ fun _ held' => Parting held' := by
    refine (onTop_asks Connection.close_stays).safe Parting ?_ ?_ (parting_of_part h hpart)
    · intro β q held _ hq
      cases q with
      | move => exact hq.elim
      | edit | transfer | waitForChange | waitForTurn | draw => exact trivial
    · rintro β q held b held' hparting hq ⟨p, p', hb⟩
      exact hparting.answer hq hb
  refine Safe.andThen (hclosing.mono fun _ held₂ hparting => ?_)
  refine Safe.andThen ⟨trivial, fun n held₃ ⟨p, p', now, hcheck⟩ => ?_⟩
  exact safe_of_steady (steady_basics.closeHeld n) (settled_of_checkIn hparting hcheck)

theorem safe_reuse_custody (h : Settled true held) (a : Address) (deadline : Deadline)
    (liveness : Option Duration) :
    (reuse a deadline liveness).Safe custody held fun _ held' => Settled true held' := by
  unfold reuse
  refine safe_iterate (fun _ held => Settled true held) h fun _ held h => ?_
  refine Safe.andThen ⟨trivial, fun found held₁ ⟨p, p', now, htake⟩ => ?_⟩
  have htaken : Settled true held₁ := by
    simp only [Move.apply] at htake
    split at htake
    · cases htake
      exact Settled.cons rfl h
    · cases htake
      exact h
  cases found with
  | false => exact htaken
  | true =>
    refine Safe.andThen ((safe_of_steady (steady_basics.isHealthy a deadline liveness) htaken).mono
      fun healthy held₂ h => ?_)
    cases healthy with
    | true => exact h
    | false => exact Safe.andThen (safe_closeAndRelease h)

/-- A place that is held is taken by the connection or is let go. -/
theorem safe_openReserved_custody (opener : Opener) (a : Address) (deadline : Deadline) {generation : Nat}
    {rest : List Holding} (hplace : Grip.beneath held = .place a generation :: rest)
    (hrest : Settled true rest) :
    (openReserved opener a deadline).run.Safe custody held fun _ held' => Settled true held' := by
  have hopened := safe_opening (R := custody) (fun held => Grip.beneath held = .place a generation :: rest)
    (fun _ _ _ => trivial) (fun hbeneath ⟨_, _, hb⟩ => (Grip.beneath_of_transfer hb).trans hbeneath)
    (Opening.safe_anything (opener a deadline).run) hplace
  refine safe_openReserved (Settled true) (fun _ _ h => h) (fun _ h => safe_of_steady (steady_basics.deactivate a) h)
    (hopened.mono fun r held₁ hr => ?_)
  obtain ⟨hbeneath, _⟩ := hr
  cases r with
  | ok c =>
    refine ⟨trivial, fun _ held₂ ⟨p, p', now, hfulfil⟩ => ?_⟩
    obtain rfl := congrArg (Grip.held ∘ Prod.snd) hfulfil
    change Settled true (Grip.fulfil c p held₁).held
    rw [Grip.held_fulfil hbeneath]
    exact Settled.cons rfl hrest
  | error e =>
    refine ⟨fun m rest h => ?_, fun _ held₂ ⟨p, p', now, hletGo⟩ => ?_⟩
    · rw [hbeneath] at h
      cases h
    · obtain rfl := congrArg (Grip.held ∘ Prod.snd) hletGo
      change Settled true (Grip.letGo now p held₁).held
      rw [Grip.held_letGo hbeneath]
      exact hrest

theorem safe_acquire_custody (opener : Opener) (h : Settled true held) (a : Address) (deadline : Deadline)
    (liveness : Option Duration) :
    (acquire opener a deadline liveness).run.Safe custody held fun _ held' => Settled true held' := by
  refine safe_acquire (Settled true) h (fun _ _ h => h)
    (fun t h => safe_of_steady (asks_move (m := .enter) trivial) h)
    (fun t h => (safe_reuse_custody h a deadline liveness).mono fun found u hu => ?_)
    (fun t h => ⟨trivial, fun room u ⟨p, p', now, hreserve⟩ => ?_⟩)
    fun t seen h => safe_of_steady (asks_query (q := Query.waitForChange seen deadline) trivial) h
  · cases found <;> exact hu
  · have hplace := Grip.held_of_reserve hreserve
    cases room with
    | false =>
      obtain rfl : u = t := hplace
      exact h
    | true =>
      obtain ⟨generation, rfl⟩ : ∃ generation, u = .place a generation :: t := hplace
      exact safe_openReserved_custody opener a deadline rfl h

theorem call_steady (opener : Opener) (k : Call) :
    (∃ a deadline liveness, k = .acquire a deadline liveness) ∨ (k.work opener).Asks Query.Steady := by
  cases k with
  | acquire a deadline liveness => exact .inl ⟨a, deadline, liveness, rfl⟩
  | release => exact .inr steady_basics.release
  | killAndRelease => exact .inr steady_basics.killAndRelease
  | deactivate a => exact .inr (steady_basics.deactivate a)
  | markAllStale => exact .inr (asks_move (m := .markAllStale) trivial)
  | close => exact .inr (steady_basics.close (asks_move trivial) (asks_move trivial))

/-- Every call ends without a place and with nothing that is being parted with. -/
theorem settled_call (opener : Opener) (k : Call) (h : Settled true held) :
    (k.work opener).Safe custody held fun _ held' => Settled true held' := by
  rcases call_steady opener k with ⟨a, deadline, liveness, rfl⟩ | hsteady
  · exact Safe.andThen ((safe_acquire_custody opener h a deadline liveness).mono fun _ _ h => h)
  · exact safe_of_steady hsteady h

/-- Whoever may let go of the newest thing held, however many things are held, can let go of everything. -/
theorem safe_letGoAllOf {R : Surroundings Query (List Holding)} {J : List Holding → Prop}
    (hanswers : ∀ {held b held'}, R.Answers held (.move .letGo) b held' →
      ∃ p p', Grip.Answers ⟨p, held⟩ (.move .letGo) b ⟨p', held'⟩)
    (hallows : ∀ {held}, J held → R.Allows held (.move .letGo))
    (hfewer : ∀ {held held'}, J held → held' ⊆ held → J held') (n : Nat) (hn : held.length ≤ n) (h : J held) :
    (letGoAll n).Safe R held fun _ held' => held' = [] := by
  induction n generalizing held with
  | zero => exact List.eq_nil_of_length_eq_zero (Nat.le_zero.mp hn)
  | succ n ih =>
    refine Safe.andThen ⟨hallows h, fun _ held₁ hb => ?_⟩
    obtain ⟨p, p', now, hletGo⟩ := hanswers hb
    obtain rfl := congrArg (Grip.held ∘ Prod.snd) hletGo
    have hsuffix := Grip.letGo_suffix now p held
    refine ih ?_ (hfewer h fun x hx => List.mem_of_mem_tail (hsuffix.subset hx))
    have hless := hsuffix.length_le
    rw [List.length_tail] at hless
    exact Nat.le_trans hless (by omega)

/-- Whoever parts with nothing can let go of everything. -/
theorem safe_letGoAll (n : Nat) (hn : held.length ≤ n) (h : ∀ m, .parting m ∉ held) :
    (letGoAll n).Safe custody held fun _ held' => held' = [] := by
  refine safe_letGoAllOf (J := fun held => ∀ m, .parting m ∉ held) (fun hb => hb) (fun h => ?_) ?_ n hn h
  · exact careful_of_notMem h (.move .letGo)
  · exact fun h hsub m hm => h m (hsub hm)

/-- Whoever is sure to let go of everything with care parts with nothing. -/
theorem notMem_of_safe_letGoAll (n : Nat)
    (h : (letGoAll n).Safe custody held fun _ held' => Settled true held') (m : Member) :
    .parting m ∉ held := by
  induction n generalizing held with
  | zero => exact Settled.notMem h m
  | succ n ih =>
    obtain ⟨hcareful, hnext⟩ := h
    intro hm
    rcases Grip.beneath_or_mem_letGo hm .start default with ⟨rest, hbeneath⟩ | hstays
    · exact hcareful m rest hbeneath
    · exact ih (hnext () _ ⟨default, _, .start, rfl⟩) hstays

end Pool
end BoltClient
