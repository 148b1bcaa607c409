import BoltClient.Proofs.Handshake.Varint

/-!
A number pushed into a decoder byte by byte. Nothing comes of a byte after which the number goes on, and the value
comes of the last one. From the eleventh byte on there is no place for a group. The tenth is taken in whole although
only its lowest bit has a place, so of a number of ten bytes that does not fit in sixty-four bits something is lost.
-/

namespace BoltClient.Handshake.Varint

/-- What comes of each byte when bytes are pushed one after another, whether or not one of them is refused. -/
def Decoder.pushAll (d : Decoder) : List UInt8 → List (Except Error (Option UInt64))
  | [] => []
  | b :: rest => (d.push b).1 :: (d.push b).2.pushAll rest

def pushed (b : List UInt8) : List (Except Error (Option UInt64)) := (default : Decoder).pushAll b

def tooLong : Error := .badData "varint too long"

/-- Nothing of a number is lost: a value that comes of its last byte is its value, and if there is no room for it, it
is refused. -/
structure Faithful (b : List UInt8) : Prop where
  exact : ∀ v, (pushed b).getLast? = some (.ok (some v)) → v.toNat = value b
  refused : 2 ^ 64 ≤ value b → ∃ detail, .error (.badData detail) ∈ pushed b

variable {b groups : List UInt8} {d : Decoder} {k n : Nat} {x : UInt8}

theorem value_lt (b : List UInt8) : value b < 0x80 ^ b.length := by
  induction b with
  | nil => decide
  | cons x rest ih =>
    have hx : x.toNat % 0x80 < 0x80 := Nat.mod_lt _ (by decide)
    rw [value, List.length_cons, Nat.pow_succ]
    omega

theorem pushAll_of_full (h : Holds d 10 n) (b : List UInt8) :
    d.pushAll b = List.replicate b.length (.error tooLong) := by
  induction b with
  | nil => rfl
  | cons x rest ih =>
    rw [Decoder.pushAll, h.full x, ih]
    rfl

/-- As long as there are places, the bytes of a number that goes on are taken in and give nothing. -/
theorem pushAll_of_holds (h : Holds d k n) (hgroups : Continues groups) (hroom : k + groups.length ≤ 10) :
    ∃ d', Holds d' (k + groups.length) (n + 0x80 ^ k * value groups) ∧
      ∀ rest, d.pushAll (groups ++ rest) = List.replicate groups.length (.ok none) ++ d'.pushAll rest := by
  induction groups generalizing d k n with
  | nil => exact ⟨d, by simpa [value] using h, fun _ => rfl⟩
  | cons g groups ih =>
    obtain ⟨hg, hmore⟩ := List.forall_mem_cons.mp hgroups
    rw [List.length_cons] at hroom
    obtain ⟨d₁, hpush, h₁⟩ := h.push (by omega) g
    obtain ⟨d', h', hrest⟩ := ih h₁ hmore (by omega)
    have hplace : k + 1 + groups.length = k + (groups.length + 1) := by omega
    have hvalue : n + 0x80 ^ k * (g.toNat % 0x80) + 0x80 ^ (k + 1) * value groups
        = n + 0x80 ^ k * value (g :: groups) := by
      rw [value, Nat.mul_add, Nat.pow_succ, Nat.mul_assoc, Nat.add_assoc]
    rw [hplace, hvalue] at h'
    refine ⟨d', h', fun rest => ?_⟩
    rw [List.cons_append, Decoder.pushAll, hpush, if_neg hg, hrest]
    rfl

/-- The last of up to ten bytes gives the value, as far as it fits in sixty-four bits. -/
theorem pushed_of_spelled (h : Spelled b) (hlength : b.length ≤ 10) :
    pushed b = List.replicate (b.length - 1) (.ok none) ++ [.ok (some (.ofNat (value b)))] := by
  obtain ⟨groups, x, rfl, hgroups, hx⟩ := h.exists_last
  rw [List.length_append, List.length_singleton] at hlength ⊢
  obtain ⟨d, hd, hall⟩ := pushAll_of_holds holds_default hgroups (by omega)
  obtain ⟨d', hpush, hd'⟩ := hd.push (by omega) x
  have hvalue : d'.value = .ofNat (value (groups ++ [x])) := by
    rw [hd'.value, value_concat]
    simp
  rw [pushed, hall, Decoder.pushAll, hpush, if_pos hx, hvalue]
  rfl

/-- Each byte behind the tenth is refused. -/
theorem pushed_of_long (h : Spelled b) (hlength : 10 < b.length) :
    pushed b = List.replicate 10 (.ok none) ++ List.replicate (b.length - 10) (.error tooLong) := by
  obtain ⟨groups, x, rfl, hgroups, _⟩ := h.exists_last
  have hcut : groups ++ [x] = groups.take 10 ++ (groups.drop 10 ++ [x]) := by
    rw [← List.append_assoc, List.take_append_drop]
  have hrest : (groups ++ [x]).length - 10 = (groups.drop 10 ++ [x]).length := by
    simp only [List.length_append, List.length_singleton, List.length_drop] at hlength ⊢
    omega
  have hten : (groups.take 10).length = 10 := by
    rw [List.length_append, List.length_singleton] at hlength
    rw [List.length_take]
    omega
  have hfirst : Continues (groups.take 10) := fun g hg => hgroups g (List.mem_of_mem_take hg)
  obtain ⟨d, hd, hall⟩ := pushAll_of_holds holds_default hfirst (by omega)
  rw [hten] at hd hall
  rw [pushed, hrest, hcut, hall, pushAll_of_full hd]

theorem faithful_iff_fits (h : Spelled b) (hlength : b.length ≤ 10) : Faithful b ↔ value b < 2 ^ 64 := by
  have hpushed := pushed_of_spelled h hlength
  constructor
  · intro hfaithful
    by_contra hlarge
    obtain ⟨detail, herror⟩ := hfaithful.refused (Nat.le_of_not_lt hlarge)
    rw [hpushed] at herror
    simp at herror
  · intro hfits
    refine ⟨fun v hv => ?_, fun hlarge => absurd hfits (Nat.not_lt.mpr hlarge)⟩
    rw [hpushed, List.getLast?_concat] at hv
    cases hv
    exact Nat.mod_eq_of_lt hfits

theorem faithful_of_long (h : Spelled b) (hlength : 10 < b.length) : Faithful b := by
  have hpushed := pushed_of_long h hlength
  have hsome : b.length - 10 ≠ 0 := by omega
  have hlast : (pushed b).getLast? = some (.error tooLong) := by
    rw [hpushed, List.getLast?_append, List.getLast?_replicate, if_neg hsome]
    rfl
  refine ⟨fun v hv => ?_, fun _ => ⟨"varint too long", List.mem_of_getLast? hlast⟩⟩
  rw [hlast] at hv
  cases hv

/-- What comes of each byte of a number. Nothing of it is lost unless it has exactly ten bytes and does not fit in
sixty-four bits. -/
theorem faithful_iff (b : List UInt8) (h : Spelled b) :
    (b.length ≤ 10 → pushed b
      = List.replicate (b.length - 1) (.ok none) ++ [.ok (some (.ofNat (value b)))]) ∧
    (10 < b.length → pushed b
      = List.replicate 10 (.ok none) ++ List.replicate (b.length - 10) (.error tooLong)) ∧
    (Faithful b ↔ (b.length = 10 → value b < 2 ^ 64)) := by
  refine ⟨pushed_of_spelled h, pushed_of_long h, ?_⟩
  rcases Nat.lt_trichotomy b.length 10 with hless | hten | hmore
  · have hvalue : value b < 2 ^ 64 :=
      calc value b < 0x80 ^ b.length := value_lt b
        _ ≤ 0x80 ^ 9 := Nat.pow_le_pow_right (by decide) (by omega)
        _ < 2 ^ 64 := by decide
    rw [faithful_iff_fits h (by omega)]
    exact iff_of_true hvalue fun _ => hvalue
  · rw [faithful_iff_fits h (by omega)]
    exact ⟨fun hfits _ => hfits, fun hfits => hfits hten⟩
  · exact iff_of_true (faithful_of_long h hmore) fun hten => absurd hten (by omega)

theorem spelled_of_full (k : Nat) (hx : x < 0x80) : Spelled (List.replicate k 0xFF ++ [x]) := by
  have hgroups : Continues (List.replicate k 0xFF) := fun g hg => (List.eq_of_mem_replicate hg) ▸ by decide
  exact hgroups.spelled hx

/-- The largest number that fits. -/
theorem largest_faithful : Spelled (List.replicate 9 0xFF ++ [1]) ∧ Faithful (List.replicate 9 0xFF ++ [1]) := by
  have h : Spelled (List.replicate 9 0xFF ++ [1]) := spelled_of_full 9 (by decide)
  exact ⟨h, (faithful_iff _ h).2.2.mpr fun _ => by decide⟩

/-- Ten bytes for a number that does not fit: the top bit is lost in silence. -/
theorem not_all_faithful : ¬ ∀ b, Spelled b → Faithful b := by
  intro hall
  have hfaithful := hall (List.replicate 9 0xFF ++ [2]) (spelled_of_full 9 (by decide))
  have hvalue := hfaithful.exact 0x7FFFFFFFFFFFFFFF (by decide)
  exact absurd hvalue (by decide)

end BoltClient.Handshake.Varint
