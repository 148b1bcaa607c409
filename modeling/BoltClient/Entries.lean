import Std.Data.HashSet

/-!
Named entries in the order in which their names first came. Putting a name that is already there
replaces its value and keeps its place.
-/

namespace BoltClient

/-- Entries under names, in order. -/
abbrev Entries (α : Type) := List (String × α)

namespace Entries

variable {α β : Type}

def get? (key : String) : Entries α → Option α
  | [] => none
  | (k, v) :: rest => if k = key then some v else get? key rest

def put (key : String) (value : α) : Entries α → Entries α
  | [] => [(key, value)]
  | (k, v) :: rest => if k = key then (k, value) :: rest else (k, v) :: put key value rest

def putAll (entries : Entries α) (pairs : List (String × α)) : Entries α :=
  pairs.foldl (fun entries pair => entries.put pair.1 pair.2) entries

def keys (entries : Entries α) : List String := entries.map Prod.fst

/-- Whether no name comes twice, given the names that came before. -/
def distinctFrom (seen : Std.HashSet String) : List String → Bool
  | [] => true
  | key :: rest => if seen.contains key then false else distinctFrom (seen.insert key) rest

/-- The entries that pairs build up. Pairs of distinct names are those entries already. -/
def ofPairs (pairs : List (String × α)) : Entries α :=
  if distinctFrom ∅ (pairs.map Prod.fst) then pairs else putAll [] pairs

theorem put_of_get?_eq_none {key : String} {entries : Entries α} (value : α)
    (h : entries.get? key = none) : entries.put key value = entries ++ [(key, value)] := by
  induction entries with
  | nil => rfl
  | cons entry rest ih =>
    obtain ⟨k, v⟩ := entry
    by_cases hk : k = key
    · simp [get?, hk] at h
    · simp only [get?, hk, if_false] at h
      simp [put, hk, ih h]

theorem get?_eq_none_iff {key : String} {entries : Entries α} :
    entries.get? key = none ↔ key ∉ entries.keys := by
  induction entries with
  | nil => simp [get?, keys]
  | cons entry rest ih =>
    obtain ⟨k, v⟩ := entry
    by_cases hk : k = key
    · simp [get?, keys, hk]
    · have hk' : ¬key = k := fun h => hk h.symm
      simp [get?, keys, hk, hk'] at ih ⊢
      exact ih

theorem keys_put (key : String) (value : α) (entries : Entries α) :
    (entries.put key value).keys
      = if key ∈ entries.keys then entries.keys else entries.keys ++ [key] := by
  induction entries with
  | nil => simp [put, keys]
  | cons entry rest ih =>
    obtain ⟨k, v⟩ := entry
    by_cases hk : k = key
    · simp [put, keys, hk]
    · have hk' : ¬key = k := fun h => hk h.symm
      simp only [keys] at ih
      simp only [put, hk, if_false, keys, List.map_cons, List.mem_cons, hk', false_or]
      rw [ih]
      by_cases hm : key ∈ rest.map Prod.fst <;> simp [hm]

theorem nodup_keys_put {key : String} (value : α) {entries : Entries α} (h : entries.keys.Nodup) :
    (entries.put key value).keys.Nodup := by
  rw [keys_put]
  split
  · exact h
  · next hk => simp [List.nodup_append, h]; intro a ha e; exact hk (e ▸ ha)

/-- What stands in entries after a change stood there before, or is what was put in. -/
theorem mem_of_mem_put {key : String} {value : α} {entries : Entries α} {entry : String × α}
    (h : entry ∈ entries.put key value) : entry ∈ entries ∨ entry = (key, value) := by
  induction entries with
  | nil => exact .inr (List.mem_singleton.mp h)
  | cons first rest ih =>
    obtain ⟨k, v⟩ := first
    rw [put] at h
    split at h <;> rcases List.mem_cons.mp h with rfl | hrest
    · next hk => exact .inr (by rw [hk])
    · exact .inl (List.mem_cons_of_mem _ hrest)
    · exact .inl List.mem_cons_self
    · exact (ih hrest).imp_left (List.mem_cons_of_mem _)

theorem mem_of_mem_putAll {pairs : List (String × α)} {entries : Entries α} {entry : String × α}
    (h : entry ∈ entries.putAll pairs) : entry ∈ entries ∨ entry ∈ pairs := by
  induction pairs generalizing entries with
  | nil => exact .inl h
  | cons pair rest ih =>
    obtain hput | hrest := ih h
    · obtain hentries | rfl := mem_of_mem_put hput
      · exact .inl hentries
      · exact .inr List.mem_cons_self
    · exact .inr (List.mem_cons_of_mem _ hrest)

theorem mem_of_mem_putAll_nil {pairs : List (String × α)} {entry : String × α}
    (h : entry ∈ putAll [] pairs) : entry ∈ pairs :=
  (mem_of_mem_putAll h).resolve_left List.not_mem_nil

theorem length_put_le (key : String) (value : α) (entries : Entries α) :
    (entries.put key value).length ≤ entries.length + 1 := by
  induction entries with
  | nil => exact Nat.le_refl _
  | cons first rest ih =>
    obtain ⟨k, v⟩ := first
    rw [put]
    split
    · exact Nat.le_succ _
    · exact Nat.succ_le_succ ih

theorem length_putAll_le (pairs : List (String × α)) (entries : Entries α) :
    (entries.putAll pairs).length ≤ entries.length + pairs.length := by
  induction pairs generalizing entries with
  | nil => exact Nat.le_refl _
  | cons pair rest ih =>
    have hput := length_put_le pair.1 pair.2 entries
    have hrest := ih (entries.put pair.1 pair.2)
    rw [List.length_cons]
    exact Nat.le_trans hrest (by omega)

theorem nodup_keys_putAll (pairs : List (String × α)) {entries : Entries α}
    (h : entries.keys.Nodup) : (entries.putAll pairs).keys.Nodup := by
  induction pairs generalizing entries with
  | nil => exact h
  | cons pair rest ih => exact ih (nodup_keys_put _ h)

theorem putAll_of_nodup (pairs : List (String × α)) (entries : Entries α)
    (h : (keys (entries ++ pairs)).Nodup) : entries.putAll pairs = entries ++ pairs := by
  induction pairs generalizing entries with
  | nil => simp [putAll]
  | cons pair rest ih =>
    obtain ⟨key, value⟩ := pair
    have hnew : key ∉ entries.keys := by
      intro hk
      simp only [keys, List.map_append, List.map_cons, List.nodup_append] at h
      exact h.2.2 key hk key (by simp) rfl
    have hput := put_of_get?_eq_none value (get?_eq_none_iff.2 hnew)
    have hrest := ih (entries.put key value) (by rw [hput]; simpa using h)
    rw [putAll, List.foldl_cons]
    rw [putAll] at hrest
    rw [hrest, hput]
    simp

theorem putAll_of_distinctFrom (pairs : List (String × α)) (seen : Std.HashSet String)
    (entries : Entries α) (hseen : ∀ key ∈ entries.keys, key ∈ seen)
    (h : distinctFrom seen (pairs.map Prod.fst) = true) :
    entries.putAll pairs = entries ++ pairs := by
  induction pairs generalizing seen entries with
  | nil => simp [putAll]
  | cons pair rest ih =>
    obtain ⟨key, value⟩ := pair
    simp only [List.map_cons, distinctFrom] at h
    split at h
    · cases h
    · next hkey =>
      have hnew : key ∉ entries.keys := fun hk => hkey (by simpa using hseen key hk)
      have hput := put_of_get?_eq_none value (get?_eq_none_iff.2 hnew)
      have hrest := ih (seen.insert key) (entries.put key value) (by
        intro k hk
        rw [hput] at hk
        simp only [keys, List.map_append, List.map_cons, List.map_nil, List.mem_append,
          List.mem_singleton] at hk
        rcases hk with hk | hk
        · exact Std.HashSet.mem_insert.2 (.inr (hseen k hk))
        · exact Std.HashSet.mem_insert.2 (.inl (by simp [hk]))) h
      rw [putAll, List.foldl_cons]
      rw [putAll] at hrest
      simp only at hrest ⊢
      rw [hrest, hput]
      simp

theorem ofPairs_eq_putAll (pairs : List (String × α)) : ofPairs pairs = putAll [] pairs := by
  unfold ofPairs
  split
  · next h => simpa using (putAll_of_distinctFrom pairs ∅ [] (by simp [keys]) h).symm
  · rfl

theorem ofPairs_of_nodup {pairs : List (String × α)} (h : (keys pairs).Nodup) :
    ofPairs pairs = pairs := by
  rw [ofPairs_eq_putAll, putAll_of_nodup pairs [] h]
  rfl

end Entries
end BoltClient
