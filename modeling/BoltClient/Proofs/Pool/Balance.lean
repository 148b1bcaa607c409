import BoltClient.Proofs.Pool.Hands

namespace BoltClient.Pool

open Stage (World)

/-- Somebody holds whatever the slots of a pool count. -/
def Backed (p : Pool) (hs : List Holding) : Prop :=
  ∀ a s, p.slot? a = some s → s.inUse ≤ outOf hs a ∧ s.reservations ≤ takenOf hs a

variable {α : Type} {p q : Pool} {a : Address} {held held' hs hs' : List Holding} {m : Member}

theorem Backed.mono (h : Backed p hs) (hout : ∀ a, outOf hs a ≤ outOf hs' a)
    (htaken : ∀ a, takenOf hs a ≤ takenOf hs' a) : Backed p hs' := fun a s hslot =>
  ⟨Nat.le_trans (h a s hslot).1 (hout a), Nat.le_trans (h a s hslot).2 (htaken a)⟩

theorem Backed.perm (h : Backed p hs) (hperm : hs.Perm hs') : Backed p hs' :=
  h.mono (fun _ => Nat.le_of_eq (hperm.countP_eq _)) fun _ => Nat.le_of_eq (hperm.countP_eq _)

theorem Backed.congr (h : Backed p hs) (hslots : q.slots = p.slots) : Backed q hs := by
  intro a s hslot
  rw [slot?_congr hslots] at hslot
  exact h a s hslot

/-- It does no harm to hold more. -/
theorem Backed.more (h : Backed p hs) (x : Holding) : Backed p (x :: hs) := by
  refine h.mono (fun a => ?_) fun a => ?_
  · rw [outOf_cons]
    omega
  · rw [takenOf_cons]
    omega

theorem Backed.drop {x : Holding} (h : Backed p (x :: hs)) (hx : x.isSpare) : Backed p hs := by
  refine h.mono (fun a => ?_) fun a => ?_
  · exact Nat.le_of_eq (outOf_of_not (Holding.isOut_of_isSpare hx a))
  · exact Nat.le_of_eq (takenOf_of_not (Holding.isPlace_of_isSpare hx a))

/-- One thing held becomes another that counts the same. -/
theorem Backed.swap {x y : Holding} (h : Backed p (x :: hs)) (hout : ∀ a, y.isOut a = x.isOut a)
    (hplace : ∀ a, y.isPlace a = x.isPlace a) : Backed p (y :: hs) := by
  refine h.mono (fun a => Nat.le_of_eq ?_) fun a => Nat.le_of_eq ?_
  · rw [outOf_cons, outOf_cons, hout]
  · rw [takenOf_cons, takenOf_cons, hplace]

/-- The slot of one address changes, and so does what is held of it. -/
theorem Backed.modify {f : Slot → Slot} (h : Backed p hs) (hf : ∀ s, (f s).address = s.address)
    (hothers : ∀ b, b ≠ a → outOf hs b ≤ outOf hs' b ∧ takenOf hs b ≤ takenOf hs' b)
    (ha : ∀ s, s.inUse ≤ outOf hs a → s.reservations ≤ takenOf hs a →
      (f s).inUse ≤ outOf hs' a ∧ (f s).reservations ≤ takenOf hs' a) : Backed (p.modify a f) hs' := by
  intro b s hslot
  rw [slot?_modify hf] at hslot
  split at hslot
  · next hb =>
    subst hb
    obtain ⟨t, ht, rfl⟩ := Option.map_eq_some_iff.mp hslot
    exact ha t (h b t ht).1 (h b t ht).2
  · next hb =>
    obtain ⟨hout, htaken⟩ := h b s hslot
    exact ⟨Nat.le_trans hout (hothers b hb).1, Nat.le_trans htaken (hothers b hb).2⟩

theorem Backed.ensure (h : Backed p hs) (a : Address) : Backed (p.ensure a) hs := by
  intro b s hslot
  rw [slot?_ensure] at hslot
  split at hslot
  · next hb =>
    subst hb
    cases hold : p.slot? b with
    | some t =>
      rw [hold] at hslot
      cases hslot
      exact h b t hold
    | none =>
      rw [hold] at hslot
      cases hslot
      exact ⟨Nat.zero_le _, Nat.zero_le _⟩
  · exact h b s hslot

theorem Backed.remove (h : Backed p hs) (a : Address) : Backed (p.remove a) hs := by
  intro b s hslot
  rw [slot?_remove] at hslot
  split at hslot
  · cases hslot
  · exact h b s hslot

theorem Backed.takeIdle (h : Backed p hs) (hm : m.connection.address = a)
    (htake : p.takeIdle a = some (m, q)) : Backed q (.borrowed m :: hs) := by
  obtain ⟨rest, _, _, rfl⟩ := mem_of_takeIdle htake
  refine h.modify (fun _ => rfl) (fun b hb => ⟨Nat.le_of_eq ?_, Nat.le_refl _⟩) fun s hout htaken => ?_
  · exact (outOf_of_not (Holding.isOut_borrowed_of_ne hm hb)).symm
  · rw [outOf_of_isOut (Holding.isOut_borrowed hm)]
    exact ⟨Nat.succ_le_succ hout, htaken⟩

theorem Backed.reserve (h : Backed p hs) : Backed (p.reserve a).2
    (match (p.reserve a).1 with
      | some generation => .place a generation :: hs
      | none => hs) := by
  have hensured := h.ensure a
  unfold Pool.reserve
  dsimp only
  split
  · exact hensured
  · split
    · exact hensured
    · refine hensured.modify (fun _ => rfl) (fun b hb => ⟨Nat.le_refl _, Nat.le_of_eq ?_⟩)
        fun s hout htaken => ?_
      · exact (takenOf_of_not (Holding.isPlace_place_of_ne hb _)).symm
      · rw [takenOf_of_isPlace (Holding.isPlace_place a _)]
        exact ⟨hout, Nat.succ_le_succ htaken⟩

theorem Backed.fulfil {generation generation' : Nat} {c : Connection} (hc : c.address = a)
    (h : Backed p (.place a generation :: hs)) :
    Backed (p.fulfil a) (.borrowed ⟨c, generation'⟩ :: hs) := by
  unfold Pool.fulfil
  refine (h.ensure a).modify (fun _ => rfl) (fun b hb => ⟨Nat.le_of_eq ?_, Nat.le_of_eq ?_⟩)
    fun s hout htaken => ?_
  · rw [outOf_of_not (Holding.isOut_borrowed_of_ne hc hb), outOf_of_not rfl]
  · rw [takenOf_of_not (Holding.isPlace_place_of_ne hb _)]
    exact (takenOf_of_not rfl).symm
  · rw [outOf_of_not rfl] at hout
    rw [takenOf_of_isPlace (Holding.isPlace_place a _)] at htaken
    rw [outOf_of_isOut (Holding.isOut_borrowed hc), takenOf_of_not rfl]
    exact ⟨Nat.succ_le_succ hout, Nat.sub_le_of_le_add htaken⟩

theorem Backed.abandon {generation : Nat} (h : Backed p (.place a generation :: hs)) :
    Backed (p.abandon a generation) hs := by
  have hless : Backed (p.modify a fun s => { s with reservations := s.reservations - 1 }) hs := by
    refine h.modify (fun _ => rfl) (fun b hb => ⟨Nat.le_of_eq ?_, Nat.le_of_eq ?_⟩)
      fun s hout htaken => ?_
    · rw [outOf_of_not rfl]
    · rw [takenOf_of_not (Holding.isPlace_place_of_ne hb _)]
    · rw [outOf_of_not rfl] at hout
      rw [takenOf_of_isPlace (Holding.isPlace_place a _)] at htaken
      exact ⟨hout, Nat.sub_le_of_le_add htaken⟩
  unfold Pool.abandon
  dsimp only
  split
  · split
    · exact (hless.remove a).congr rfl
    · exact hless.congr rfl
  · exact hless.congr rfl

theorem Backed.detach (h : Backed p hs) (a : Address) : Backed (p.detach a).2 hs := by
  unfold Pool.detach
  split
  · exact h
  · split
    · exact h.remove a
    · exact h.modify (fun _ => rfl) (fun _ _ => ⟨Nat.le_refl _, Nat.le_refl _⟩)
        fun _ hout htaken => ⟨hout, htaken⟩

/-- All slots change in the same way, and none of them counts more. -/
theorem Backed.modifyAll {f : Slot → Slot} (h : Backed p hs) (hslots : q.slots = p.slots.map f)
    (haddress : ∀ s, (f s).address = s.address) (hinUse : ∀ s, (f s).inUse = s.inUse)
    (hreservations : ∀ s, (f s).reservations = s.reservations) : Backed q hs := by
  intro a s hslot
  rw [slot?, hslots, slot?_map haddress] at hslot
  obtain ⟨t, ht, rfl⟩ := Option.map_eq_some_iff.mp hslot
  rw [hinUse, hreservations]
  exact h a t ht

theorem Backed.markAllStale (h : Backed p hs) : Backed p.markAllStale hs :=
  h.modifyAll rfl (fun _ => rfl) (fun _ => rfl) fun _ => rfl

theorem Backed.shut (h : Backed p hs) : Backed p.shut.2 hs :=
  h.modifyAll rfl (fun _ => rfl) (fun _ => rfl) fun _ => rfl

theorem Backed.heedAll (h : Backed p hs) (a : Address) (feedback : List Feedback) :
    Backed (p.heedAll a feedback).2 hs := by
  induction feedback generalizing p with
  | nil => exact h
  | cons f rest ih =>
    have hfirst : Backed (p.heed a f).2 hs := by
      cases f with
      | deactivate =>
        have htables : Backed (p.changeTables (·.discard a)) hs := h.congr rfl
        exact htables.detach a
      | writeFailure database => exact h.congr rfl
      | invalidateAll => exact h.markAllStale
    exact ih hfirst

/-- A connection that was out comes back. -/
theorem Backed.checkIn {x : Holding} (hx : ∀ a, x.isOut a = decide (m.connection.address = a))
    (hplace : ∀ a, x.isPlace a = false) (h : Backed p (x :: hs)) (now : Instant) :
    Backed (p.checkIn m now).2 hs := by
  unfold Pool.checkIn
  dsimp only
  refine Backed.congr (Backed.heedAll (p := p.modify m.connection.address _) ?_ _ _) rfl
  refine h.modify (fun _ => rfl) (fun b hb => ⟨Nat.le_of_eq ?_, Nat.le_of_eq ?_⟩) fun s hout htaken => ?_
  · have hother : x.isOut b = false := by
      rw [hx]
      exact decide_eq_false fun hab => hb hab.symm
    exact outOf_of_not hother
  · exact takenOf_of_not (hplace b)
  · have hback : x.isOut m.connection.address = true := by
      rw [hx]
      exact decide_eq_true rfl
    rw [outOf_of_isOut hback] at hout
    rw [takenOf_of_not (hplace _)] at htaken
    exact ⟨Nat.sub_le_of_le_add hout, htaken⟩

theorem Backed.giveBack (h : Backed p (.borrowed m :: hs)) (now : Instant) :
    Backed (p.giveBack m now) hs := by
  unfold Pool.giveBack
  refine Backed.checkIn (x := .borrowed m) (fun a => ?_) (fun _ => rfl) h now
  dsimp only
  split <;> rfl

/-- Whatever is given back is no longer counted, unless it was being parted with. -/
theorem Backed.letGo {x : Holding} (h : Backed p (x :: hs)) (hx : ∀ m, x ≠ .parting m) (now : Instant) :
    Backed (p.letGo now x) hs := by
  cases x with
  | borrowed m => exact h.giveBack now
  | parting m => exact absurd rfl (hx m)
  | place a generation => exact h.abandon
  | loose | wire => exact h.drop rfl
  | turn => exact (h.drop rfl).congr rfl

/-- A question that does not let go of a connection that is being parted with. -/
def Query.Careful (held : List Holding) : {β : Type} → Query β → Prop
  | _, .move .letGo => ∀ m rest, Grip.beneath held ≠ .parting m :: rest
  | _, _ => True

theorem Backed.fulfilHeld {c : Connection} (hc : (Move.fulfil c).Suits held) (h : Backed p (held ++ hs)) :
    Backed (Grip.fulfil c p held).pool ((Grip.fulfil c p held).held ++ hs) := by
  induction held with
  | nil => exact h
  | cons x held ih =>
    cases x with
    | wire link => exact ih hc (h.drop rfl)
    | place a generation => exact Backed.fulfil (hc a generation held rfl) h
    | borrowed | parting | loose | turn => exact h

theorem Backed.letGoHeld (h : Backed p (held ++ hs))
    (hheld : ∀ m rest, Grip.beneath held ≠ .parting m :: rest) (now : Instant) :
    Backed (Grip.letGo now p held).pool ((Grip.letGo now p held).held ++ hs) := by
  induction held with
  | nil => exact h
  | cons x held ih =>
    cases x with
    | wire link => exact ih (h.drop rfl) hheld
    | parting m => exact absurd rfl (hheld m held)
    | borrowed | loose | place | turn => exact Backed.letGo h (fun m hm => by cases hm) now

theorem Backed.hold (h : Backed p (held ++ hs)) (ms : List Member) :
    Backed (Grip.hold ⟨p, held⟩ ms).2.pool ((Grip.hold ⟨p, held⟩ ms).2.held ++ hs) := by
  unfold Grip.hold
  induction ms with
  | nil => exact h
  | cons m ms ih => exact ih.more _

variable {g g' : Grip}

theorem Backed.move {m : Move α} (hm : m.Suits g.held) (hcareful : (Query.move m).Careful g.held)
    (hsound : Sound g.pool (g.held ++ hs)) (h : Backed g.pool (g.held ++ hs)) (now : Instant) :
    Backed (m.apply now g).2.pool ((m.apply now g).2.held ++ hs) := by
  obtain ⟨p, held⟩ := g
  cases m with
  | enter | announce | serves | strangers | routers | isFresh | store | discard | discardWriter =>
    exact h.congr rfl
  | markAllStale => exact h.markAllStale
  | takeIdle a =>
    simp only [Move.apply]
    cases htake : p.takeIdle a with
    | none => exact h
    | some r => exact h.takeIdle (hsound.address_of_takeIdle htake) htake
  | isCurrent a =>
    simp only [Move.apply]
    split <;> exact h
  | reserve a =>
    have hreserve := h.reserve (a := a)
    simp only [Move.apply]
    generalize p.reserve a = r at hreserve ⊢
    obtain ⟨_ | generation, q⟩ := r
    · exact hreserve
    · exact hreserve
  | fulfil c => exact h.fulfilHeld hm
  | part =>
    simp only [Move.apply]
    split
    · exact Backed.swap h (fun _ => rfl) fun _ => rfl
    · exact h
  | checkIn =>
    simp only [Move.apply]
    split
    · exact Backed.hold (Backed.checkIn (fun _ => rfl) (fun _ => rfl) h now) _
    · exact Backed.hold (Backed.checkIn (fun _ => rfl) (fun _ => rfl) h now) _
    · exact h
  | letGo => exact h.letGoHeld hcareful now
  | detach a => exact (h.detach a).hold _
  | shut => exact h.shut.hold _
  | select role database choice =>
    simp only [Move.apply]
    split
    · exact h
    · exact h.congr rfl

theorem Backed.edit {f : Connection → α × Connection} {b : α} (hf : ∀ c, (f c).2.address = c.address)
    (hedit : World.editTop f held = some (b, held')) (h : Backed p (held ++ hs)) :
    Backed p (held' ++ hs) :=
  h.mono (fun a => Nat.le_of_eq (counts_of_editTop hf hedit hs a).1.symm)
    fun a => Nat.le_of_eq (counts_of_editTop hf hedit hs a).2.symm

/-- No careful question makes the pool count what nobody holds, however it is answered. -/
theorem Backed.answer {β : Type} {q : Query β} {b : β} (hq : q.Suits g.held) (hcareful : q.Careful g.held)
    (hb : g.Answers q b g') (hsound : Sound g.pool (g.held ++ hs)) (h : Backed g.pool (g.held ++ hs)) :
    Backed g'.pool (g'.held ++ hs) := by
  cases q with
  | move m =>
    obtain ⟨now, happly⟩ := hb
    have hmove := h.move hq hcareful hsound now
    rw [happly] at hmove
    exact hmove
  | edit f =>
    obtain ⟨now, held', hedit, rfl⟩ := hb
    exact h.edit (fun c => hq now c) hedit
  | transfer t =>
    obtain rfl : g' = _ := hb
    rcases Grip.grasp_cases g.held t (.ready b) with hsame | ⟨link, hmore⟩
    · rw [hsame]
      exact h
    · rw [hmore]
      exact Backed.more h _
  | waitForChange =>
    obtain ⟨_, rfl⟩ := hb
    exact h
  | waitForTurn =>
    obtain ⟨_, rfl⟩ := hb
    exact Backed.more (h.congr rfl) _
  | draw =>
    obtain rfl : g' = _ := hb
    exact h

end BoltClient.Pool
