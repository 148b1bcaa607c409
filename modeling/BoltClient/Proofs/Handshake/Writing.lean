import BoltClient.Proofs.Handshake.Pushing

namespace BoltClient.Handshake.Varint

theorem encode_of_lt {n : Nat} (h : n < 0x80) : encode n = [UInt8.ofNat n] := by
  rw [encode, if_pos h]

theorem encode_of_not_lt {n : Nat} (h : ¬n < 0x80) :
    encode n = UInt8.ofNat (0x80 + n % 0x80) :: encode (n / 0x80) := by
  rw [encode, if_neg h]

theorem toNat_last {n : Nat} (h : n < 0x80) : (UInt8.ofNat n).toNat = n :=
  UInt8.toNat_ofNat_of_lt (Nat.lt_trans h (by decide))

theorem toNat_more (n : Nat) : (UInt8.ofNat (0x80 + n % 0x80)).toNat = 0x80 + n % 0x80 := by
  have hgroup : n % 0x80 < 0x80 := Nat.mod_lt n (by decide)
  exact UInt8.toNat_ofNat_of_lt (show 0x80 + n % 0x80 < 256 by omega)

/-- The top bit is clear in the last byte and set in all others. -/
theorem spelled_encode (n : Nat) : Spelled (encode n) := by
  fun_induction encode n with
  | case1 n hlast =>
    refine .last (UInt8.lt_iff_toNat_lt.mpr ?_)
    rw [toNat_last hlast]
    exact hlast
  | case2 n hmore ih =>
    refine .more (fun hclear => ?_) ih
    have htop := UInt8.lt_iff_toNat_lt.mp hclear
    rw [toNat_more] at htop
    exact absurd htop (Nat.not_lt.mpr (Nat.le_add_right 0x80 _))

theorem value_encode (n : Nat) : value (encode n) = n := by
  fun_induction encode n with
  | case1 n hlast =>
    rw [value, value, toNat_last hlast, Nat.mod_eq_of_lt hlast, Nat.mul_zero, Nat.add_zero]
  | case2 n hmore ih =>
    rw [value, ih, toNat_more, Nat.add_mod_left, Nat.mod_mod]
    exact Nat.mod_add_div n 0x80

/-- As many bytes as the number has groups, and one for zero. -/
theorem length_encode_le_of_lt {n k : Nat} (h : n < 0x80 ^ (k + 1)) : (encode n).length ≤ k + 1 := by
  induction k generalizing n with
  | zero =>
    rw [encode_of_lt (by simpa using h)]
    exact Nat.le_refl 1
  | succ k ih =>
    by_cases hlast : n < 0x80
    · rw [encode_of_lt hlast]
      exact Nat.succ_le_succ (Nat.zero_le _)
    · have hrest : n / 0x80 < 0x80 ^ (k + 1) := by
        rw [Nat.div_lt_iff_lt_mul (by decide), ← Nat.pow_succ]
        exact h
      rw [encode_of_not_lt hlast]
      exact Nat.succ_le_succ (ih hrest)

/-- A number of sixty-four bits is written so that it comes back: nothing comes of any byte but the last, and the
last gives the number. -/
theorem encoded_comes_back (n : UInt64) :
    pushed (encode n.toNat) = List.replicate ((encode n.toNat).length - 1) (.ok none) ++ [.ok (some n)] := by
  have hten : (encode n.toNat).length ≤ 10 :=
    length_encode_le_of_lt (Nat.lt_trans n.toNat_lt (by decide : 2 ^ 64 < 0x80 ^ (9 + 1)))
  rw [pushed_of_spelled (spelled_encode n.toNat) hten, value_encode, UInt64.ofNat_toNat]

end BoltClient.Handshake.Varint
