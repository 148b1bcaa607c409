import BoltClient.Handshake.Varint
import Mathlib.Algebra.Ring.Nat

namespace BoltClient.Handshake.Varint

/-- Bytes that spell a number: it goes on after each of them but the last. -/
inductive Spelled : List UInt8 → Prop where
  | last {b : UInt8} (h : b < 0x80) : Spelled [b]
  | more {b : UInt8} {rest : List UInt8} (h : ¬b < 0x80) (hrest : Spelled rest) : Spelled (b :: rest)

def Continues (groups : List UInt8) : Prop := ∀ g ∈ groups, ¬g < 0x80

/-- The number that bytes spell, the lowest group first. -/
def value : List UInt8 → Nat
  | [] => 0
  | b :: rest => b.toNat % 0x80 + 0x80 * value rest

variable {b c groups rest : List UInt8} {x : UInt8}

theorem Continues.spelled (h : Continues groups) (hx : x < 0x80) : Spelled (groups ++ [x]) := by
  induction groups with
  | nil => exact .last hx
  | cons g groups ih =>
    obtain ⟨hg, hgroups⟩ := List.forall_mem_cons.mp h
    exact .more hg (ih hgroups)

/-- Bytes after which a number goes on, and one more byte, are the beginning of a number. -/
theorem Continues.exists_spelled (h : Continues groups) (x : UInt8) :
    ∃ more, Spelled (groups ++ [x] ++ more) := by
  by_cases hx : x < 0x80
  · refine ⟨[], ?_⟩
    rw [List.append_nil]
    exact h.spelled hx
  · have hall : Continues (groups ++ [x]) := by
      intro g hg
      rcases List.mem_append.mp hg with hg | hg
      · exact h g hg
      · rw [List.mem_singleton.mp hg]
        exact hx
    exact ⟨[0], hall.spelled (by decide)⟩

theorem Spelled.exists_last (h : Spelled b) : ∃ groups x, b = groups ++ [x] ∧ Continues groups ∧ x < 0x80 := by
  induction h with
  | @last x hx => exact ⟨[], x, rfl, List.forall_mem_nil _, hx⟩
  | @more y rest hy _ ih =>
    obtain ⟨groups, x, rfl, hgroups, hx⟩ := ih
    exact ⟨y :: groups, x, rfl, List.forall_mem_cons.mpr ⟨hy, hgroups⟩, hx⟩

theorem value_concat (groups : List UInt8) (x : UInt8) :
    value (groups ++ [x]) = value groups + 0x80 ^ groups.length * (x.toNat % 0x80) := by
  induction groups with
  | nil => simp [value]
  | cons g groups ih =>
    rw [List.cons_append, value, ih, value, List.length_cons, Nat.mul_add, ← Nat.mul_assoc, ← Nat.pow_succ',
      Nat.add_assoc]

/-- No number is the beginning of another. -/
theorem Spelled.eq_of_prefix (hb : Spelled b) (hc : Spelled c) (h : b <+: c) : b = c := by
  induction hb generalizing c with
  | last hlast =>
    cases hc with
    | last => simpa using h
    | more hmore =>
      obtain ⟨rfl, _⟩ := List.cons_prefix_cons.mp h
      exact absurd hlast hmore
  | more hmore _ ih =>
    cases hc with
    | last hlast =>
      obtain ⟨rfl, _⟩ := List.cons_prefix_cons.mp h
      exact absurd hlast hmore
    | more _ hrest =>
      obtain ⟨rfl, htail⟩ := List.cons_prefix_cons.mp h
      rw [ih hrest htail]

/-- Bytes begin with a number of a limited length, or they end before it does, or it is longer. -/
theorem spelled_or (n : Nat) (stream : List UInt8) :
    (∃ b rest, stream = b ++ rest ∧ Spelled b ∧ b.length ≤ n) ∨
    (Continues stream ∧ stream.length ≤ n) ∨
    ∃ groups x rest, stream = groups ++ x :: rest ∧ Continues groups ∧ groups.length = n := by
  induction n generalizing stream with
  | zero =>
    cases stream with
    | nil => exact .inr (.inl ⟨List.forall_mem_nil _, Nat.le_refl _⟩)
    | cons x rest => exact .inr (.inr ⟨[], x, rest, rfl, List.forall_mem_nil _, rfl⟩)
  | succ n ih =>
    cases stream with
    | nil => exact .inr (.inl ⟨List.forall_mem_nil _, Nat.zero_le _⟩)
    | cons x rest =>
      by_cases hx : x < 0x80
      · exact .inl ⟨[x], rest, rfl, .last hx, Nat.succ_le_succ (Nat.zero_le n)⟩
      · rcases ih rest with ⟨b, tail, rfl, hb, hle⟩ | ⟨hall, hle⟩ | ⟨groups, y, tail, rfl, hgroups, hlength⟩
        · exact .inl ⟨x :: b, tail, rfl, .more hx hb, Nat.succ_le_succ hle⟩
        · exact .inr (.inl ⟨List.forall_mem_cons.mpr ⟨hx, hall⟩, Nat.succ_le_succ hle⟩)
        · exact .inr (.inr ⟨x :: groups, y, tail, rfl, List.forall_mem_cons.mpr ⟨hx, hgroups⟩,
            congrArg Nat.succ hlength⟩)

/-- The decoder has taken in some groups of a number, of a value. -/
structure Holds (d : Decoder) (groups n : Nat) : Prop where
  shift : d.shift = 7 * groups
  value : d.value = UInt64.ofNat n
  below : n < 2 ^ (7 * groups)

variable {d : Decoder} {k n : Nat}

theorem holds_default : Holds default 0 0 := ⟨rfl, rfl, Nat.one_pos⟩

/-- A group that is put in front of those that are there adds to the value. -/
theorem ofNat_or_shift {g : Nat} (hk : k < 10) (hn : n < 2 ^ (7 * k)) (hg : g < 0x80) :
    UInt64.ofNat n ||| (UInt64.ofNat g <<< UInt64.ofNat (7 * k)) = UInt64.ofNat (n + 2 ^ (7 * k) * g) := by
  have hlow : 2 ^ (7 * k) ≤ 2 ^ 63 := Nat.pow_le_pow_right (by decide) (by omega)
  have hsplit : 2 ^ 64 = 2 ^ (7 * k) * 2 ^ (64 - 7 * k) := by
    rw [← Nat.pow_add]
    congr 1
    omega
  have hshift : (2 ^ (7 * k) * g) % 2 ^ 64 = 2 ^ (7 * k) * (g % 2 ^ (64 - 7 * k)) := by
    rw [hsplit, Nat.mul_mod_mul_left]
  have hsum : (n + 2 ^ (7 * k) * g) % 2 ^ 64 = n + 2 ^ (7 * k) * (g % 2 ^ (64 - 7 * k)) := by
    rw [hsplit, Nat.mod_mul, Nat.add_mul_mod_self_left, Nat.mod_eq_of_lt hn,
      Nat.add_mul_div_left _ _ (Nat.two_pow_pos _), Nat.div_eq_of_lt hn, Nat.zero_add]
  refine UInt64.toNat_inj.mp ?_
  rw [UInt64.toNat_or, UInt64.toNat_shiftLeft]
  simp only [UInt64.toNat_ofNat']
  rw [Nat.mod_eq_of_lt (show n < 2 ^ 64 by omega), Nat.mod_eq_of_lt (show g < 2 ^ 64 by omega),
    Nat.mod_eq_of_lt (show 7 * k < 2 ^ 64 by omega), Nat.mod_eq_of_lt (show 7 * k < 64 by omega),
    Nat.shiftLeft_eq, Nat.mul_comm g, hshift, hsum, Nat.or_comm]
  exact (Nat.two_pow_add_eq_or_of_lt hn _).symm.trans (Nat.add_comm _ _)

/-- A byte is taken in as long as there is a place for its group. -/
theorem Holds.push (h : Holds d k n) (hk : k < 10) (b : UInt8) :
    ∃ d', d.push b = (.ok (if b < 0x80 then some d'.value else none), d') ∧
      Holds d' (k + 1) (n + 0x80 ^ k * (b.toNat % 0x80)) := by
  have hroom : ¬64 ≤ d.shift := by
    rw [h.shift]
    omega
  have hg : b.toNat % 0x80 < 0x80 := Nat.mod_lt _ (by decide)
  have hpow : 0x80 ^ k = 2 ^ (7 * k) := by rw [Nat.pow_mul]
  unfold Decoder.push
  rw [if_neg hroom]
  refine ⟨⟨d.value ||| (UInt64.ofNat (b.toNat % 0x80) <<< UInt64.ofNat d.shift), d.shift + 7⟩, rfl, ?_, ?_, ?_⟩
  · dsimp only
    rw [h.shift]
    omega
  · dsimp only
    rw [h.value, h.shift, ofNat_or_shift hk h.below hg, hpow]
  · have hbelow := h.below
    have hnext : 2 ^ (7 * (k + 1)) = 2 ^ (7 * k) * 0x80 := by rw [Nat.mul_add, Nat.pow_add]
    have hle : 2 ^ (7 * k) * (b.toNat % 0x80) ≤ 2 ^ (7 * k) * 0x7F := Nat.mul_le_mul_left _ (by omega)
    rw [hnext, hpow]
    omega

/-- After ten groups there is no place left. -/
theorem Holds.full (h : Holds d 10 n) (b : UInt8) : d.push b = (.error (.badData "varint too long"), d) := by
  unfold Decoder.push
  rw [if_pos (by rw [h.shift]; decide)]

end BoltClient.Handshake.Varint
