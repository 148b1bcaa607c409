import BoltClient.Pool.Basic

namespace BoltClient.Pool

variable {p q : Pool} {a b : Address} {s : Slot} {f : Slot → Slot}

def reserved (p : Pool) (a : Address) : Nat := ((p.slot? a).map (·.reservations)).getD 0

def idleMembers (p : Pool) : List Member := p.slots.flatMap (·.idle)

theorem slot?_congr (h : q.slots = p.slots) (a : Address) : q.slot? a = p.slot? a := by
  rw [slot?, slot?, h]

theorem slot?_address (h : p.slot? a = some s) : s.address = a := by
  unfold slot? at h
  simpa using List.find?_some h

theorem slot?_mem (h : p.slot? a = some s) : s ∈ p.slots := List.mem_of_find?_eq_some h

theorem slot?_of_mem (hnodup : p.addresses.Nodup) (hs : s ∈ p.slots) : p.slot? s.address = some s := by
  unfold slot?
  unfold addresses at hnodup
  generalize p.slots = slots at hnodup hs ⊢
  induction slots with
  | nil => cases hs
  | cons t rest ih =>
    rw [List.map_cons, List.nodup_cons] at hnodup
    rw [List.find?_cons]
    rcases List.mem_cons.mp hs with rfl | hs
    · rw [decide_eq_true rfl]
    · have hne : t.address ≠ s.address := fun hts => hnodup.1 (hts ▸ List.mem_map_of_mem hs)
      rw [decide_eq_false hne]
      exact ih hnodup.2 hs

theorem slot?_map (hf : ∀ s, (f s).address = s.address) (l : List Slot) (b : Address) :
    (l.map f).find? (·.address = b) = (l.find? (·.address = b)).map f := by
  induction l with
  | nil => rfl
  | cons s rest ih =>
    rw [List.map_cons, List.find?_cons, List.find?_cons, hf s]
    split
    · rfl
    · exact ih

theorem slot?_modify (hf : ∀ s, (f s).address = s.address) (b : Address) :
    (p.modify a f).slot? b = if b = a then (p.slot? a).map f else p.slot? b := by
  have haddress (s : Slot) : (if s.address = a then f s else s).address = s.address := by
    split
    · exact hf s
    · rfl
  unfold slot? modify
  rw [slot?_map haddress]
  split
  · next hb =>
    subst hb
    cases hfind : p.slots.find? (·.address = b) with
    | none => rfl
    | some s =>
      have hs : s.address = b := slot?_address hfind
      simp [hs]
  · next hb =>
    cases hfind : p.slots.find? (·.address = b) with
    | none => rfl
    | some s =>
      have hs : s.address = b := slot?_address hfind
      simp [hs, hb]

theorem slot?_ensure (b : Address) : (p.ensure a).slot? b
    = if b = a then some ((p.slot? a).getD { address := a }) else p.slot? b := by
  unfold ensure
  cases h : p.slot? a with
  | some s =>
    by_cases hb : b = a
    · rw [if_pos hb, hb]
      exact h
    · rw [if_neg hb]
  | none =>
    unfold slot? at h ⊢
    simp only [List.find?_append]
    split
    · next hb =>
      subst hb
      simp [h]
    · next hb =>
      have hab : ¬a = b := fun hab => hb hab.symm
      simp [hab]

theorem slot?_remove (b : Address) :
    (p.remove a).slot? b = if b = a then none else p.slot? b := by
  unfold slot? remove
  simp only [List.find?_filter]
  split
  · next hb =>
    subst hb
    simp
  · next hb =>
    congr 1
    funext s
    by_cases hs : s.address = b
    · simp [hs, hb]
    · simp [hs]

theorem addresses_modify (hf : ∀ s, (f s).address = s.address) :
    (p.modify a f).addresses = p.addresses := by
  unfold addresses modify
  rw [List.map_map]
  refine List.map_congr_left fun s _ => ?_
  simp only [Function.comp]
  split
  · exact hf s
  · rfl

theorem nodup_ensure (h : p.addresses.Nodup) : (p.ensure a).addresses.Nodup := by
  unfold ensure
  cases hslot : p.slot? a with
  | some s => exact h
  | none =>
    unfold slot? at hslot
    simp only [addresses, List.map_append, List.map_cons, List.map_nil]
    rw [List.nodup_append]
    refine ⟨h, by simp, ?_⟩
    intro b hb c hc hbc
    obtain ⟨s, hs, rfl⟩ := List.mem_map.mp hb
    rw [List.mem_singleton] at hc
    have hne := List.find?_eq_none.mp hslot s hs
    simp [hbc, hc] at hne

theorem nodup_remove (h : p.addresses.Nodup) : (p.remove a).addresses.Nodup :=
  (List.Sublist.map _ List.filter_sublist).nodup h

end BoltClient.Pool
