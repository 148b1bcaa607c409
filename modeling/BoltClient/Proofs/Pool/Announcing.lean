import BoltClient.Proofs.Pool.Crowd

namespace BoltClient.Pool

/-- One pool becomes another. Unless it is announced, nobody who waits for an address gains by it: no
connection to it begins to wait to be used, and no more room is left for new ones. -/
structure Candid (a : Address) (p q : Pool) : Prop where
  changes : p.changes ≤ q.changes
  limit : q.limit = p.limit
  silent : q.changes = p.changes → p.idleCount a = 0 →
    q.idleCount a = 0 ∧ p.inUse a + p.reserved a ≤ q.inUse a + q.reserved a

variable {β : Type} {p p' q r : Pool} {a b : Address} {held held' : List Holding} {m : Member}
  {f : Slot → Slot}

namespace Candid

theorem congr (hslot : q.slot? a = p.slot? a) (hchanges : p.changes ≤ q.changes) (hlimit : q.limit = p.limit) :
    Candid a p q := by
  refine ⟨hchanges, hlimit, fun _ hidle => ?_⟩
  unfold idleCount inUse reserved at *
  rw [hslot]
  exact ⟨hidle, Nat.le_refl _⟩

theorem refl (a : Address) (p : Pool) : Candid a p p := congr rfl (Nat.le_refl _) rfl

theorem trans (h : Candid a p q) (h' : Candid a q r) : Candid a p r := by
  refine ⟨Nat.le_trans h.changes h'.changes, h'.limit.trans h.limit, fun hsame hidle => ?_⟩
  have hle := h.changes
  have hle' := h'.changes
  obtain ⟨hidle', hroom⟩ := h.silent (by omega) hidle
  obtain ⟨hidle'', hroom'⟩ := h'.silent (by omega) hidle'
  exact ⟨hidle'', Nat.le_trans hroom hroom'⟩

/-- What is announced may be anything. -/
theorem announced (hchanges : p.changes < q.changes) (hlimit : q.limit = p.limit) : Candid a p q :=
  ⟨Nat.le_of_lt hchanges, hlimit, fun hsame => absurd hsame (Nat.ne_of_gt hchanges)⟩

/-- The slot of the address changes, if there is one. -/
theorem mapped (hmap : q.slot? a = (p.slot? a).map f) (hchanges : p.changes ≤ q.changes)
    (hlimit : q.limit = p.limit)
    (hslot : ∀ s, p.slot? a = some s → s.idle = [] →
      (f s).idle = [] ∧ s.inUse + s.reservations ≤ (f s).inUse + (f s).reservations) : Candid a p q := by
  refine ⟨hchanges, hlimit, fun _ hidle => ?_⟩
  unfold idleCount inUse reserved at *
  rw [hmap]
  cases hs : p.slot? a with
  | none => simp
  | some s =>
    have hempty : s.idle = [] := by simpa [hs] using hidle
    obtain ⟨hnone, hroom⟩ := hslot s hs hempty
    simpa [hnone] using hroom

/-- One slot changes. -/
theorem modify (hf : ∀ s, (f s).address = s.address)
    (hslot : ∀ s, p.slot? b = some s → s.idle = [] →
      (f s).idle = [] ∧ s.inUse + s.reservations ≤ (f s).inUse + (f s).reservations) :
    Candid a p (p.modify b f) := by
  have hmodify : (p.modify b f).slot? a = _ := slot?_modify hf a
  by_cases hab : a = b
  · subst hab
    rw [if_pos rfl] at hmodify
    exact mapped hmodify (Nat.le_refl _) rfl hslot
  · rw [if_neg hab] at hmodify
    exact congr hmodify (Nat.le_refl _) rfl

/-- Every slot changes. -/
theorem map (hslots : q.slots = p.slots.map f) (hchanges : p.changes ≤ q.changes) (hlimit : q.limit = p.limit)
    (hf : ∀ s, (f s).address = s.address)
    (hslot : ∀ s, s.idle = [] → (f s).idle = [] ∧ s.inUse + s.reservations ≤ (f s).inUse + (f s).reservations) :
    Candid a p q := by
  have hmap : q.slot? a = (p.slot? a).map f := by
    unfold slot?
    rw [hslots, slot?_map hf]
  exact mapped hmap hchanges hlimit fun s _ => hslot s

/-- A slot is forgotten that nothing is out of and no place is taken in. -/
theorem remove (hslot : ∀ s, p.slot? b = some s → s.inUse + s.reservations = 0) :
    Candid a p (p.remove b) := by
  refine ⟨Nat.le_refl _, rfl, fun _ hidle => ?_⟩
  unfold idleCount inUse reserved at *
  rw [slot?_remove]
  split
  · next hab =>
    subst hab
    cases hs : p.slot? a with
    | none => simp
    | some s =>
      have hnone := hslot s hs
      simp
      omega
  · exact ⟨hidle, Nat.le_refl _⟩

theorem ensure (a : Address) (p : Pool) (b : Address) : Candid a p (p.ensure b) := by
  have hchanges : (p.ensure b).changes = p.changes := by
    unfold Pool.ensure
    split <;> rfl
  refine ⟨Nat.le_of_eq hchanges.symm, (frame_ensure p b).1, fun _ hidle => ?_⟩
  unfold idleCount inUse reserved at *
  rw [slot?_ensure]
  split
  · next hab =>
    subst hab
    cases hs : p.slot? a with
    | none => simp
    | some s =>
      rw [hs] at hidle
      exact ⟨hidle, Nat.le_refl _⟩
  · exact ⟨hidle, Nat.le_refl _⟩

theorem takeIdle (h : p.takeIdle b = some (m, q)) : Candid a p q := by
  obtain ⟨rest, hidle, _, rfl⟩ := mem_of_takeIdle h
  refine modify (fun _ => rfl) fun s hs hempty => ?_
  rw [hs, Option.map_some, hempty] at hidle
  cases hidle

theorem reserve (a : Address) (p : Pool) (b : Address) : Candid a p (p.reserve b).2 := by
  have hensure := ensure a p b
  unfold Pool.reserve
  dsimp only
  split
  · exact hensure
  · split
    · exact hensure
    · refine hensure.trans (modify (fun _ => rfl) fun s _ hempty => ⟨hempty, ?_⟩)
      dsimp only
      omega

theorem fulfil (a : Address) (p : Pool) (b : Address) : Candid a p (p.fulfil b) := by
  refine (ensure a p b).trans (modify (fun _ => rfl) fun s _ hempty => ⟨hempty, ?_⟩)
  dsimp only
  omega

theorem abandon (a : Address) (p : Pool) (b : Address) (generation : Nat) :
    Candid a p (p.abandon b generation) := by
  refine announced ?_ (frame_abandon p b generation).1
  have hone : (p.abandon b generation).changes = p.changes + 1 := by
    unfold Pool.abandon
    dsimp only
    split
    · split <;> rfl
    · rfl
  omega

theorem detach (a : Address) (p : Pool) (b : Address) : Candid a p (p.detach b).2 := by
  unfold Pool.detach
  cases hs : p.slot? b with
  | none => exact refl a p
  | some s =>
    dsimp only
    split
    · next hnone =>
      refine remove fun t ht => ?_
      rw [hs] at ht
      cases ht
      omega
    · exact modify (fun _ => rfl) fun t _ _ => ⟨rfl, Nat.le_refl _⟩

theorem markAllStale (a : Address) (p : Pool) : Candid a p p.markAllStale :=
  map rfl (Nat.le_refl _) rfl (fun _ => rfl) fun _ hempty => ⟨hempty, Nat.le_refl _⟩

theorem shut (a : Address) (p : Pool) : Candid a p p.shut.2 :=
  map rfl (Nat.le_refl _) rfl (fun _ => rfl) fun _ _ => ⟨rfl, Nat.le_refl _⟩

theorem heedAll (a : Address) (p : Pool) (b : Address) (feedback : List Feedback) :
    Candid a p (p.heedAll b feedback).2 := by
  induction feedback generalizing p with
  | nil => exact refl a p
  | cons f rest ih =>
    have hfirst : Candid a p (p.heed b f).2 := by
      cases f with
      | deactivate =>
        have htables : Candid a p (p.changeTables (·.discard b)) := congr rfl (Nat.le_refl _) rfl
        exact htables.trans (detach a _ b)
      | writeFailure database => exact congr rfl (Nat.le_refl _) rfl
      | invalidateAll => exact markAllStale a p
    exact hfirst.trans (ih _)

theorem checkIn (a : Address) (p : Pool) (m : Member) (now : Instant) : Candid a p (p.checkIn m now).2 := by
  refine announced ?_ (frame_heedAll _ _ _).1
  unfold Pool.checkIn
  dsimp only
  generalize hback : p.modify _ _ = back
  have hsame : back.changes = p.changes := by rw [← hback]; rfl
  have hheed := (heedAll a back m.connection.address m.connection.feedback).changes
  rw [hsame] at hheed
  exact Nat.lt_succ_of_le hheed

theorem letGo (a : Address) (p : Pool) (now : Instant) (x : Holding) : Candid a p (p.letGo now x) := by
  cases x with
  | borrowed m => exact checkIn a p _ now
  | place b generation => exact abandon a p b generation
  | parting | loose | wire | turn => exact congr rfl (Nat.le_refl _) rfl

theorem letGoHeld (a : Address) (p : Pool) (now : Instant) (held : List Holding) :
    Candid a p (Grip.letGo now p held).pool := by
  induction held with
  | nil => exact refl a p
  | cons x held ih =>
    have hone := letGo a p now x
    cases x with
    | wire link => exact ih
    | borrowed | parting | loose | place | turn => exact hone

theorem fulfilHeld (a : Address) (c : Connection) (p : Pool) (held : List Holding) :
    Candid a p (Grip.fulfil c p held).pool := by
  induction held with
  | nil => exact refl a p
  | cons x held ih =>
    cases x with
    | wire link => exact ih
    | place b generation => exact fulfil a p b
    | borrowed | parting | loose | turn => exact refl a p

theorem move (a : Address) (now : Instant) (g : Grip) (m : Move β) :
    Candid a g.pool (m.apply now g).2.pool := by
  cases m with
  | enter | serves | strangers | routers | isFresh | store | discard | discardWriter =>
    exact congr rfl (Nat.le_refl _) rfl
  | announce => exact congr rfl (Nat.le_succ _) rfl
  | markAllStale => exact markAllStale a g.pool
  | shut => exact shut a g.pool
  | takeIdle b =>
    simp only [Move.apply]
    cases htake : g.pool.takeIdle b with
    | none => exact refl a g.pool
    | some r => exact takeIdle htake
  | isCurrent b =>
    simp only [Move.apply]
    split <;> exact refl a g.pool
  | reserve b =>
    have hreserve := reserve a g.pool b
    simp only [Move.apply]
    generalize g.pool.reserve b = r at hreserve ⊢
    obtain ⟨_ | generation, q⟩ := r
    · exact hreserve
    · exact hreserve
  | fulfil c => exact fulfilHeld a c g.pool g.held
  | part =>
    simp only [Move.apply]
    split <;> exact refl a g.pool
  | checkIn =>
    simp only [Move.apply]
    split
    · exact checkIn a g.pool _ now
    · exact checkIn a g.pool _ now
    · exact refl a g.pool
  | letGo => exact letGoHeld a g.pool now g.held
  | detach b => exact detach a g.pool b
  | select role database choice =>
    simp only [Move.apply]
    split <;> exact congr rfl (Nat.le_refl _) rfl

theorem answer {q : Query β} {x : β} (h : Grip.Answers ⟨p, held⟩ q x ⟨p', held'⟩) : Candid a p p' := by
  cases q with
  | move m =>
    obtain ⟨now, happly⟩ := h
    have hmove := move a now ⟨p, held⟩ m
    rw [happly] at hmove
    exact hmove
  | edit f =>
    obtain ⟨_, _, _, heq⟩ := h
    cases heq
    exact refl a p
  | transfer | draw =>
    cases h
    exact refl a p
  | waitForChange =>
    cases h.2
    exact refl a p
  | waitForTurn =>
    cases h.2
    exact congr rfl (Nat.le_refl _) rfl

end Candid

theorem Party.Step.candid {opener : Opener} {x x' : Party} (h : Party.Step opener (x, p) (x', p'))
    (a : Address) : Candid a p p' := by
  cases h with
  | goOn hstep =>
    cases hstep with
    | answer hb => exact .answer hb
    | round => exact .refl a p
  | call | use | quit => exact .refl a p

theorem Crowd.Step.candid {opener : Opener} {c c' : Crowd} (h : Crowd.Step opener c c') (a : Address) :
    Candid a c.pool c'.pool := by
  cases h with
  | join => exact .refl a _
  | turn hx => exact hx.candid a

end BoltClient.Pool
