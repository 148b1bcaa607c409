import BoltClient.Pool.Move
import BoltClient.Proofs.Connection.Changes
import BoltClient.Proofs.Pool.Slots

namespace BoltClient.Pool

variable {p q : Pool} {a : Address} {m : Member}

inductive Change (p : Pool) : Pool → Prop where
  | slots {q : Pool} (hslots : q.slots = p.slots) (hlimit : q.limit = p.limit)
      (hclosed : q.closed = p.closed) : Change p q
  | takeIdle {a : Address} {m : Member} {q : Pool} (h : p.takeIdle a = some (m, q)) : Change p q
  | reserve (a : Address) : Change p (p.reserve a).2
  | fulfil (a : Address) : Change p (p.fulfil a)
  | abandon (a : Address) (generation : Nat) : Change p (p.abandon a generation)
  | checkIn (m : Member) (now : Instant) : Change p (p.checkIn m now).2
  | detach (a : Address) : Change p (p.detach a).2
  | markAllStale : Change p p.markAllStale
  | shut : Change p p.shut.2

theorem change_letGo (p : Pool) (now : Instant) (x : Holding) : Change p (p.letGo now x) := by
  cases x with
  | borrowed m => exact .checkIn _ now
  | place a generation => exact .abandon a generation
  | parting | loose | wire | turn => exact .slots rfl rfl rfl

theorem change_letGoHeld (now : Instant) (p : Pool) (held : List Holding) :
    Change p (Grip.letGo now p held).pool := by
  induction held with
  | nil => exact .slots rfl rfl rfl
  | cons x held ih =>
    have hone := change_letGo p now x
    cases x with
    | wire link => exact ih
    | borrowed | parting | loose | place | turn => exact hone

theorem change_fulfilHeld (c : Connection) (p : Pool) (held : List Holding) :
    Change p (Grip.fulfil c p held).pool := by
  induction held with
  | nil => exact .slots rfl rfl rfl
  | cons x held ih =>
    cases x with
    | wire link => exact ih
    | place a generation => exact .fulfil a
    | borrowed | parting | loose | turn => exact .slots rfl rfl rfl

theorem change_move (now : Instant) (g : Grip) {β : Type} (m : Move β) :
    Change g.pool (m.apply now g).2.pool := by
  cases m with
  | enter | announce | serves | strangers | routers | isFresh | store | discard | discardWriter =>
    exact .slots rfl rfl rfl
  | markAllStale => exact .markAllStale
  | shut => exact .shut
  | takeIdle a =>
    simp only [Move.apply]
    cases htake : g.pool.takeIdle a with
    | none => exact .slots rfl rfl rfl
    | some r => exact .takeIdle htake
  | isCurrent a =>
    simp only [Move.apply]
    split <;> exact .slots rfl rfl rfl
  | reserve a =>
    have hreserve := Change.reserve (p := g.pool) a
    simp only [Move.apply]
    generalize g.pool.reserve a = r at hreserve ⊢
    obtain ⟨_ | generation, q⟩ := r
    · exact hreserve
    · exact hreserve
  | fulfil c => exact change_fulfilHeld c g.pool g.held
  | part =>
    simp only [Move.apply]
    split <;> exact .slots rfl rfl rfl
  | checkIn =>
    simp only [Move.apply]
    split
    · exact .checkIn _ now
    · exact .checkIn _ now
    · exact .slots rfl rfl rfl
  | letGo => exact change_letGoHeld now g.pool g.held
  | detach a => exact .detach a
  | select role database choice =>
    simp only [Move.apply]
    split <;> exact .slots rfl rfl rfl

theorem frame_ensure (p : Pool) (a : Address) :
    (p.ensure a).limit = p.limit ∧ (p.ensure a).closed = p.closed := by
  unfold ensure
  split <;> exact ⟨rfl, rfl⟩

theorem frame_detach (p : Pool) (a : Address) :
    (p.detach a).2.limit = p.limit ∧ (p.detach a).2.closed = p.closed := by
  unfold detach
  split
  · exact ⟨rfl, rfl⟩
  · split <;> exact ⟨rfl, rfl⟩

theorem frame_heedAll (p : Pool) (a : Address) (feedback : List Feedback) :
    (p.heedAll a feedback).2.limit = p.limit ∧ (p.heedAll a feedback).2.closed = p.closed := by
  induction feedback generalizing p with
  | nil => exact ⟨rfl, rfl⟩
  | cons f rest ih =>
    have hfirst : (p.heed a f).2.limit = p.limit ∧ (p.heed a f).2.closed = p.closed := by
      cases f with
      | deactivate => exact frame_detach _ a
      | writeFailure | invalidateAll => exact ⟨rfl, rfl⟩
    exact ⟨(ih _).1.trans hfirst.1, (ih _).2.trans hfirst.2⟩

theorem frame_takeIdle (h : p.takeIdle a = some (m, q)) : q.limit = p.limit ∧ q.closed = p.closed := by
  unfold takeIdle at h
  split at h
  · cases h
    exact ⟨rfl, rfl⟩
  · cases h

theorem frame_reserve (p : Pool) (a : Address) :
    (p.reserve a).2.limit = p.limit ∧ (p.reserve a).2.closed = p.closed := by
  unfold reserve
  dsimp only
  split
  · exact frame_ensure p a
  · split
    · exact frame_ensure p a
    · exact frame_ensure p a

theorem frame_abandon (p : Pool) (a : Address) (generation : Nat) :
    (p.abandon a generation).limit = p.limit ∧ (p.abandon a generation).closed = p.closed := by
  unfold abandon
  dsimp only
  split
  · split <;> exact ⟨rfl, rfl⟩
  · exact ⟨rfl, rfl⟩

theorem Change.limit (h : Change p q) : q.limit = p.limit := by
  cases h with
  | slots _ hlimit _ => exact hlimit
  | takeIdle htake => exact (frame_takeIdle htake).1
  | reserve a => exact (frame_reserve p a).1
  | fulfil a => exact (frame_ensure p a).1
  | abandon a generation => exact (frame_abandon p a generation).1
  | checkIn m now => exact (frame_heedAll _ _ _).1
  | detach a => exact (frame_detach p a).1
  | markAllStale | shut => rfl

/-- Nothing opens a pool that is closed. -/
theorem Change.closed (h : Change p q) (hp : p.closed = true) : q.closed = true := by
  cases h with
  | slots _ _ hclosed => exact hclosed.trans hp
  | takeIdle htake => exact (frame_takeIdle htake).2.trans hp
  | reserve a => exact (frame_reserve p a).2.trans hp
  | fulfil a => exact (frame_ensure p a).2.trans hp
  | abandon a generation => exact (frame_abandon p a generation).2.trans hp
  | checkIn m now => exact (frame_heedAll _ _ _).2.trans hp
  | detach a => exact (frame_detach p a).2.trans hp
  | markAllStale => exact hp
  | shut => rfl

theorem mem_idleMembers : m ∈ p.idleMembers ↔ ∃ s ∈ p.slots, m ∈ s.idle := List.mem_flatMap

/-- A connection that is taken out is one that waited. -/
theorem mem_of_takeIdle (h : p.takeIdle a = some (m, q)) :
    ∃ rest, (p.slot? a).map (·.idle) = some (m :: rest) ∧ (∀ x ∈ m :: rest, x ∈ p.idleMembers) ∧
      q = p.modify a fun s => { s with idle := rest, inUse := s.inUse + 1 } := by
  unfold Pool.takeIdle at h
  split at h
  · next first rest hidle =>
    cases h
    refine ⟨rest, hidle, fun x hx => ?_, rfl⟩
    obtain ⟨s, hs, hidle⟩ := Option.map_eq_some_iff.mp hidle
    rw [← hidle] at hx
    exact mem_idleMembers.mpr ⟨s, slot?_mem hs, hx⟩
  · cases h

theorem idleMembers_congr (h : q.slots = p.slots) : q.idleMembers = p.idleMembers := by
  rw [idleMembers, h, idleMembers]

theorem idle_modify {f : Slot → Slot} (hf : ∀ s ∈ p.slots, ∀ x ∈ (f s).idle, x ∈ p.idleMembers) :
    (p.modify a f).idleMembers ⊆ p.idleMembers := by
  intro x hx
  obtain ⟨s, hs, hx⟩ := mem_idleMembers.mp hx
  obtain ⟨t, ht, rfl⟩ := List.mem_map.mp hs
  split at hx
  · exact hf t ht x hx
  · exact mem_idleMembers.mpr ⟨t, ht, hx⟩

/-- Slots change in any way that makes nothing idle. -/
theorem idle_recount {f : Slot → Slot} (hf : ∀ s, (f s).idle = s.idle) :
    (p.modify a f).idleMembers ⊆ p.idleMembers := by
  refine idle_modify fun s hs x hx => ?_
  rw [hf] at hx
  exact mem_idleMembers.mpr ⟨s, hs, hx⟩

theorem idle_map {f : Slot → Slot} (hslots : q.slots = p.slots.map f) (hf : ∀ s, (f s).idle ⊆ s.idle) :
    q.idleMembers ⊆ p.idleMembers := by
  intro x hx
  obtain ⟨s, hs, hx⟩ := mem_idleMembers.mp hx
  rw [hslots] at hs
  obtain ⟨t, ht, rfl⟩ := List.mem_map.mp hs
  exact mem_idleMembers.mpr ⟨t, ht, hf t hx⟩

theorem idle_ensure (p : Pool) (a : Address) : (p.ensure a).idleMembers ⊆ p.idleMembers := by
  unfold Pool.ensure
  split
  · exact List.Subset.refl _
  · intro x hx
    obtain ⟨s, hs, hx⟩ := mem_idleMembers.mp hx
    rcases List.mem_append.mp hs with hs | hs
    · exact mem_idleMembers.mpr ⟨s, hs, hx⟩
    · rw [List.mem_singleton] at hs
      subst hs
      cases hx

theorem idle_remove (p : Pool) (a : Address) : (p.remove a).idleMembers ⊆ p.idleMembers := by
  intro x hx
  obtain ⟨s, hs, hx⟩ := mem_idleMembers.mp hx
  exact mem_idleMembers.mpr ⟨s, (List.mem_filter.mp hs).1, hx⟩

theorem idle_takeIdle (h : p.takeIdle a = some (m, q)) : q.idleMembers ⊆ p.idleMembers := by
  obtain ⟨rest, _, hmem, rfl⟩ := mem_of_takeIdle h
  exact idle_modify fun _ _ x hx => hmem x (List.mem_cons_of_mem _ hx)

theorem idle_reserve (p : Pool) (a : Address) : (p.reserve a).2.idleMembers ⊆ p.idleMembers := by
  unfold Pool.reserve
  dsimp only
  split
  · exact idle_ensure p a
  · split
    · exact idle_ensure p a
    · refine List.Subset.trans (idle_recount ?_) (idle_ensure p a)
      exact fun _ => rfl

theorem idle_fulfil (p : Pool) (a : Address) : (p.fulfil a).idleMembers ⊆ p.idleMembers := by
  refine List.Subset.trans (idle_recount ?_) (idle_ensure p a)
  exact fun _ => rfl

theorem idle_abandon (p : Pool) (a : Address) (generation : Nat) :
    (p.abandon a generation).idleMembers ⊆ p.idleMembers := by
  have hless : (p.modify a fun s => { s with reservations := s.reservations - 1 }).idleMembers ⊆ p.idleMembers :=
    idle_recount fun _ => rfl
  unfold Pool.abandon
  dsimp only
  split
  · split
    · exact List.Subset.trans (idle_remove _ a) hless
    · exact hless
  · exact hless

theorem idle_detach (p : Pool) (a : Address) : (p.detach a).2.idleMembers ⊆ p.idleMembers := by
  unfold Pool.detach
  split
  · exact List.Subset.refl _
  · split
    · exact idle_remove p a
    · exact idle_modify fun _ _ x hx => by cases hx

theorem idle_markAllStale (p : Pool) : p.markAllStale.idleMembers ⊆ p.idleMembers :=
  idle_map rfl fun _ => List.Subset.refl _

theorem idle_shut (p : Pool) : p.shut.2.idleMembers ⊆ p.idleMembers := idle_map rfl fun _ => List.nil_subset _

theorem idle_heedAll (p : Pool) (a : Address) (feedback : List Feedback) :
    (p.heedAll a feedback).2.idleMembers ⊆ p.idleMembers := by
  induction feedback generalizing p with
  | nil => exact List.Subset.refl _
  | cons f rest ih =>
    have hfirst : (p.heed a f).2.idleMembers ⊆ p.idleMembers := by
      cases f with
      | deactivate => exact idle_detach (p.changeTables (·.discard a)) a
      | writeFailure database => exact List.Subset.refl _
      | invalidateAll => exact idle_markAllStale p
    exact List.Subset.trans (ih _) hfirst

/-- A connection that begins to wait has come back and is kept; what it reported has been heard. -/
theorem idle_checkIn {x : Member} {now : Instant} (h : x ∈ (p.checkIn m now).2.idleMembers) :
    x ∈ p.idleMembers ∨
      p.keeps m now = true ∧ x = { m with connection := { m.connection with feedback := [] } } := by
  unfold Pool.checkIn at h
  dsimp only at h
  obtain ⟨s, hs, hx⟩ := mem_idleMembers.mp (idle_heedAll _ _ _ h)
  obtain ⟨t, ht, rfl⟩ := List.mem_map.mp hs
  have hold (hx : x ∈ t.idle) : x ∈ p.idleMembers := mem_idleMembers.mpr ⟨t, ht, hx⟩
  split at hx
  · dsimp only at hx
    split at hx
    · next hkept =>
      rcases List.mem_append.mp hx with hx | hx
      · exact .inl (hold hx)
      · exact .inr ⟨hkept, List.mem_singleton.mp hx⟩
    · exact .inl (hold hx)
  · exact .inl (hold hx)

theorem Change.idle {x : Member} (h : Change p q) (hx : x ∈ q.idleMembers) : x ∈ p.idleMembers ∨
    ∃ m now, p.keeps m now = true ∧ x = { m with connection := { m.connection with feedback := [] } } := by
  cases h with
  | slots hslots _ _ => exact .inl (idleMembers_congr hslots ▸ hx)
  | takeIdle htake => exact .inl (idle_takeIdle htake hx)
  | reserve a => exact .inl (idle_reserve p a hx)
  | fulfil a => exact .inl (idle_fulfil p a hx)
  | abandon a generation => exact .inl (idle_abandon p a generation hx)
  | checkIn m now => exact (idle_checkIn hx).imp_right fun hkept => ⟨m, now, hkept⟩
  | detach a => exact .inl (idle_detach p a hx)
  | markAllStale => exact .inl (idle_markAllStale p hx)
  | shut => exact .inl (idle_shut p hx)

/-- Every connection that waits to be used can be used. -/
def Tidy (p : Pool) : Prop := ∀ m ∈ p.idleMembers, m.connection.Usable

/-- Only a connection that can be used is kept. -/
theorem usable_of_keeps {now : Instant} (h : p.keeps m now = true) : m.connection.Usable := by
  unfold keeps isCurrent at h
  simp only [Bool.and_eq_true, Bool.not_eq_true', List.isEmpty_iff] at h
  obtain ⟨⟨⟨_, ⟨⟨hclosed, hdefunct⟩, _⟩, _⟩, hpending⟩, _⟩ := h
  exact ⟨hclosed, hdefunct, hpending⟩

theorem Change.tidy (h : Change p q) (hp : Tidy p) : Tidy q := by
  intro x hx
  rcases h.idle hx with hx | ⟨m, now, hkept, rfl⟩
  · exact hp x hx
  · have husable := usable_of_keeps hkept
    exact ⟨husable.closed, husable.defunct, husable.pending⟩

end BoltClient.Pool
