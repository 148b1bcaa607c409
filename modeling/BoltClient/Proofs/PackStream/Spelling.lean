import BoltClient.Proofs.PackStream.Extent
import Mathlib.Tactic.SplitIfs
import Mathlib.Tactic.Tauto

namespace BoltClient.PackStream

open Value

/-- Bytes behind bytes, if there are both. -/
def joined (a b : Except Error (List UInt8)) : Except Error (List UInt8) := do
  let front ← a
  let back ← b
  return front ++ back

theorem joined_eq_ok_iff {a b : Except Error (List UInt8)} {c : List UInt8} :
    joined a b = .ok c ↔ ∃ x y, a = .ok x ∧ b = .ok y ∧ c = x ++ y := by
  cases a with
  | error e => simp [joined, bind, Except.bind]
  | ok x =>
    cases b with
    | error e => simp [joined, bind, Except.bind]
    | ok y => simp [joined, bind, Except.bind, pure, Except.pure, eq_comm]

mutual

def spell : Value → Except Error (List UInt8)
  | .null => .ok [0xC0]
  | .bool b => .ok [if b then 0xC3 else 0xC2]
  | .int i => .ok (encodeInt i)
  | .float bits => .ok (0xC1 :: Bytes.ofNat 8 bits.toNat)
  | .bytes b => joined (header .bytes b.length) (.ok b)
  | .text s => encodeText s
  | .list xs => joined (header .list xs.length) (spellAll xs)
  | .map es => joined (header .map es.length) (spellEntries es)
  | .struct tag fields => joined (header .struct fields.length) (joined (.ok [tag]) (spellAll fields))

def spellAll : List Value → Except Error (List UInt8)
  | [] => .ok []
  | x :: xs => joined (spell x) (spellAll xs)

def spellEntries : List (String × Value) → Except Error (List UInt8)
  | [] => .ok []
  | (key, x) :: rest => joined (encodeText key) (joined (spell x) (spellEntries rest))

end

section

variable {ε σ α β : Type}

theorem run_bind (x : ExceptT ε (StateM σ) α) (f : α → ExceptT ε (StateM σ) β) (s : σ) :
    (x >>= f).run.run s = match x.run.run s with
      | (.ok a, t) => (f a).run.run t
      | (.error e, t) => (.error e, t) := by
  rw [ExceptT.run_bind, StateT.run_bind]
  generalize x.run.run s = r
  obtain ⟨r, t⟩ := r
  cases r <;> rfl

end

namespace Writer

/-- A writer adds bytes to the buffer, or fails with the error that stands in their place. -/
def Adds (w : Writer Unit) (bytes : Except Error (List UInt8)) : Prop :=
  ∀ buffer, ∃ more : List UInt8, w.run.run buffer = (bytes.map fun _ => (), buffer ++ more) ∧
    ∀ b, bytes = .ok b → more = b

theorem adds_nothing : Adds (pure ()) (.ok []) := by
  intro buffer
  refine ⟨[], ?_, by simp⟩
  rw [Array.appendList_nil]
  rfl

theorem adds_write (b : List UInt8) : (write b).Adds (.ok b) := by
  intro buffer
  exact ⟨b, rfl, by simp⟩

theorem adds_writeIf (bytes : Except Error (List UInt8)) : (writeIf bytes).Adds bytes := by
  intro buffer
  cases bytes with
  | ok b => exact ⟨b, rfl, by simp⟩
  | error e =>
    refine ⟨[], ?_, by simp⟩
    rw [Array.appendList_nil]
    rfl

theorem Adds.seq {v w : Writer Unit} {a b : Except Error (List UInt8)} (hv : v.Adds a)
    (hw : w.Adds b) : Adds (do v; w) (joined a b) := by
  intro buffer
  obtain ⟨front, hfront, hf⟩ := hv buffer
  rw [run_bind, hfront]
  cases a with
  | error e => exact ⟨front, rfl, by simp [joined, bind, Except.bind]⟩
  | ok x =>
    obtain rfl := hf x rfl
    obtain ⟨back, hback, hb⟩ := hw (buffer ++ front)
    refine ⟨front ++ back, ?_, ?_⟩
    · change w.run.run (buffer ++ front) = _
      have hassoc : buffer ++ front ++ back = buffer ++ (front ++ back) := by
        apply Array.ext'
        simp
      rw [hback, hassoc]
      cases b <;> rfl
    · intro c hc
      obtain ⟨y, z, hy, hz, rfl⟩ := joined_eq_ok_iff.mp hc
      cases hy
      rw [hb z hz]

mutual

/-- The writer of a value adds the bytes of the value. -/
theorem adds_value (v : Value) : (value v).Adds (spell v) := by
  cases v with
  | null => exact adds_write _
  | bool b => exact adds_write _
  | int i => exact adds_write _
  | float bits => exact adds_write _
  | bytes b => exact (adds_writeIf _).seq (adds_write b)
  | text s => exact adds_writeIf _
  | list xs => exact (adds_writeIf _).seq (adds_items xs)
  | map es => exact (adds_writeIf _).seq (adds_entries es)
  | struct tag fields =>
    exact (adds_writeIf _).seq ((adds_write [tag]).seq (adds_items fields))

theorem adds_items (xs : List Value) : (items xs).Adds (spellAll xs) := by
  cases xs with
  | nil => exact adds_nothing
  | cons x xs => exact (adds_value x).seq (adds_items xs)

theorem adds_entries (es : List (String × Value)) : (entries es).Adds (spellEntries es) := by
  cases es with
  | nil => exact adds_nothing
  | cons entry rest =>
    obtain ⟨key, x⟩ := entry
    exact (adds_writeIf _).seq ((adds_value x).seq (adds_entries rest))

end

end Writer

theorem encode_eq_spell (v : Value) : encode v = spell v := by
  obtain ⟨more, hrun, hmore⟩ := Writer.adds_value v #[]
  have hencode : Encoder.encode {} v = ((spell v).map fun _ => (), ⟨(#[] : Array UInt8) ++ more⟩) := by
    unfold Encoder.encode
    rw [hrun]
  unfold encode
  rw [hencode]
  cases h : spell v with
  | error e => rfl
  | ok b => simp [Except.map, Encoder.bytes, hmore b h]

/-- A size has a header exactly within the limit of its kind. -/
theorem exists_header_iff (kind : Sized) (n : Nat) :
    (∃ h, header kind n = .ok h) ↔ n ≤ kind.limit := by
  have wide : (∃ h, header.wide kind n = .ok h) ↔ n ≤ kind.limit := by
    unfold header.wide
    split_ifs with h
    · simpa using h
    all_goals simpa using h
  unfold header
  split
  · split_ifs with h
    · have hlimit : 16 ≤ kind.limit := by cases kind <;> decide
      simp only [Except.ok.injEq, exists_eq', true_iff]
      omega
    · exact wide
  · exact wide

theorem exists_joined_iff {a b : Except Error (List UInt8)} :
    (∃ c, joined a b = .ok c) ↔ (∃ x, a = .ok x) ∧ ∃ y, b = .ok y := by
  simp only [joined_eq_ok_iff]
  constructor
  · rintro ⟨_, x, y, hx, hy, _⟩
    exact ⟨⟨x, hx⟩, y, hy⟩
  · rintro ⟨⟨x, hx⟩, y, hy⟩
    exact ⟨_, x, y, hx, hy, rfl⟩

theorem encodeText_eq_joined (s : String) :
    encodeText s = joined (header .text (Text.Utf8.encode s).length) (.ok (Text.Utf8.encode s)) := rfl

theorem exists_encodeText_iff (s : String) : (∃ b, encodeText s = .ok b) ↔ TextFits s := by
  rw [encodeText_eq_joined, exists_joined_iff, exists_header_iff]
  simp [TextFits, maxEntries, Sized.limit]

mutual

/-- A value has bytes exactly when every size in it can be written. -/
theorem exists_spell_iff (v : Value) : (∃ b, spell v = .ok b) ↔ v.Fits := by
  cases v with
  | null | bool | int | float => simp [spell, Fits, Everywhere, SizeFits]
  | bytes b =>
    rw [spell, exists_joined_iff, exists_header_iff]
    simp [Fits, Everywhere, SizeFits, maxEntries, Sized.limit]
  | text s =>
    rw [spell, exists_encodeText_iff]
    rfl
  | list xs =>
    rw [spell, exists_joined_iff, exists_header_iff, exists_spellAll_iff]
    rfl
  | map es =>
    rw [spell, exists_joined_iff, exists_header_iff, exists_spellEntries_iff, ← and_assoc]
    rfl
  | struct tag fields =>
    rw [spell, exists_joined_iff, exists_joined_iff, exists_header_iff, exists_spellAll_iff]
    simp [Fits, Everywhere, SizeFits, maxFields, Sized.limit]

theorem exists_spellAll_iff (xs : List Value) :
    (∃ b, spellAll xs = .ok b) ↔ EverywhereIn SizeFits xs := by
  cases xs with
  | nil => simp [spellAll, EverywhereIn]
  | cons x xs =>
    rw [spellAll, exists_joined_iff, exists_spell_iff x, exists_spellAll_iff xs]
    rfl

theorem exists_spellEntries_iff (es : List (String × Value)) :
    (∃ b, spellEntries es = .ok b)
      ↔ (∀ entry ∈ es, TextFits entry.1) ∧ EverywhereUnder SizeFits es := by
  cases es with
  | nil => simp [spellEntries, EverywhereUnder]
  | cons entry rest =>
    obtain ⟨key, x⟩ := entry
    rw [spellEntries, exists_joined_iff, exists_joined_iff, exists_encodeText_iff,
      exists_spell_iff x, exists_spellEntries_iff rest]
    simp only [List.forall_mem_cons, EverywhereUnder, Fits]
    tauto

end

end BoltClient.PackStream
