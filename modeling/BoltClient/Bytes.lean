namespace BoltClient.Bytes

/-- How many numbers `width` bytes tell apart. -/
def bound : Nat → Nat
  | 0 => 1
  | width + 1 => bound width * 256

/-- The `width` lowest bytes of a number, most significant first. -/
def ofNat : Nat → Nat → List UInt8
  | 0, _ => []
  | width + 1, n => UInt8.ofNat (n / bound width) :: ofNat width n

/-- The number whose bytes are given, most significant first. -/
def toNat (bytes : List UInt8) : Nat := bytes.foldl (fun n b => 256 * n + b.toNat) 0

/-- The two's complement bytes of an integer. -/
def ofInt (width : Nat) (i : Int) : List UInt8 := ofNat width (i % bound width).toNat

/-- The integer whose two's complement bytes are given. -/
def toInt (bytes : List UInt8) : Int :=
  let n := toNat bytes
  if 2 * n < bound bytes.length then n else (n : Int) - bound bytes.length

theorem bound_pos (width : Nat) : 0 < bound width := by
  induction width with
  | zero => decide
  | succ width ih =>
    rw [bound]
    omega

@[simp] theorem length_ofNat (width n : Nat) : (ofNat width n).length = width := by
  induction width with
  | zero => rfl
  | succ width ih => simp [ofNat, ih]

@[simp] theorem length_ofInt (width : Nat) (i : Int) : (ofInt width i).length = width :=
  length_ofNat ..

theorem foldl_ofNat (width n start : Nat) :
    (ofNat width n).foldl (fun n b => 256 * n + b.toNat) start
      = bound width * start + n % bound width := by
  induction width generalizing start with
  | zero => simp [ofNat, bound, Nat.mod_one]
  | succ width ih =>
    have hdiv : n / bound width % 256 = n % bound (width + 1) / bound width := by
      rw [bound, Nat.mod_mul_right_div_self]
    have hmod : n % bound width = n % bound (width + 1) % bound width := by
      rw [bound, Nat.mod_mul_right_mod]
    have hsplit := Nat.div_add_mod (n % bound (width + 1)) (bound width)
    simp only [ofNat, List.foldl_cons, ih, UInt8.toNat_ofNat']
    rw [hdiv, hmod, Nat.mul_add, ← Nat.mul_assoc, bound] at *
    omega

theorem toNat_ofNat (width n : Nat) : toNat (ofNat width n) = n % bound width := by
  simp [toNat, foldl_ofNat]

theorem toNat_ofNat_of_lt {width n : Nat} (h : n < bound width) : toNat (ofNat width n) = n := by
  rw [toNat_ofNat, Nat.mod_eq_of_lt h]

theorem toInt_ofInt {width : Nat} {i : Int} (low : -bound width ≤ 2 * i)
    (high : 2 * i < bound width) : toInt (ofInt width i) = i := by
  have hpos : (0 : Int) < bound width := by
    have h := bound_pos width
    omega
  generalize hM : bound width = M at *
  have hlt := Int.emod_lt_of_pos i hpos
  have hnonneg := Int.emod_nonneg i (by omega : (M : Int) ≠ 0)
  have hnat : toNat (ofInt width i) = (i % M).toNat := by
    rw [ofInt, hM, toNat_ofNat_of_lt]
    omega
  unfold toInt
  rw [hnat, length_ofInt, hM]
  by_cases hi : 0 ≤ i
  · have hmod : i % M = i := Int.emod_eq_of_lt hi (by omega)
    rw [hmod]
    dsimp only
    split <;> omega
  · have hmod : i % M = i + M := by
      rw [← Int.add_emod_right]
      exact Int.emod_eq_of_lt (by omega) (by omega)
    rw [hmod]
    dsimp only
    split <;> omega

theorem ofNat_mul_add (width k n : Nat) : ofNat width (bound width * k + n) = ofNat width n := by
  induction width generalizing k with
  | zero => rfl
  | succ width ih =>
    have hpos := bound_pos width
    have hsplit : bound (width + 1) * k + n = bound width * (256 * k) + n := by
      rw [bound, Nat.mul_assoc]
    have hdiv : (bound width * (256 * k) + n) / bound width = 256 * k + n / bound width := by
      rw [Nat.mul_add_div hpos]
    have hbyte : UInt8.ofNat (256 * k + n / bound width) = UInt8.ofNat (n / bound width) := by
      apply UInt8.toNat_inj.mp
      simp only [UInt8.toNat_ofNat']
      omega
    rw [ofNat, ofNat, hsplit, ih, hdiv, hbyte]

theorem foldl_eq_toNat (bytes : List UInt8) (start : Nat) :
    bytes.foldl (fun n b => 256 * n + b.toNat) start = bound bytes.length * start + toNat bytes := by
  induction bytes generalizing start with
  | nil => simp [bound, toNat]
  | cons b bytes ih =>
    rw [toNat, List.foldl_cons, List.foldl_cons, ih, ih, List.length_cons, bound, Nat.mul_assoc]
    simp only [Nat.mul_add]
    omega

theorem toNat_cons (b : UInt8) (bytes : List UInt8) :
    toNat (b :: bytes) = bound bytes.length * b.toNat + toNat bytes := by
  rw [toNat, List.foldl_cons, foldl_eq_toNat]
  simp

theorem toNat_lt (bytes : List UInt8) : toNat bytes < bound bytes.length := by
  induction bytes with
  | nil => decide
  | cons b bytes ih =>
    have hbyte : b.toNat + 1 ≤ 256 := b.toNat_lt
    have hscaled := Nat.mul_le_mul_left (bound bytes.length) hbyte
    rw [toNat_cons, List.length_cons, bound]
    rw [Nat.mul_add, Nat.mul_one] at hscaled
    omega

theorem ofNat_toNat (bytes : List UInt8) : ofNat bytes.length (toNat bytes) = bytes := by
  induction bytes with
  | nil => rfl
  | cons b bytes ih =>
    have hdiv : (bound bytes.length * b.toNat + toNat bytes) / bound bytes.length = b.toNat := by
      rw [Nat.mul_add_div (bound_pos _), Nat.div_eq_of_lt (toNat_lt bytes), Nat.add_zero]
    rw [List.length_cons, ofNat, toNat_cons, ofNat_mul_add, ih, hdiv, UInt8.ofNat_toNat]

theorem toInt_range (bytes : List UInt8) :
    -bound bytes.length ≤ 2 * toInt bytes ∧ 2 * toInt bytes < bound bytes.length := by
  have hlt := toNat_lt bytes
  simp only [toInt]
  split <;> omega

theorem ofInt_toInt (bytes : List UInt8) : ofInt bytes.length (toInt bytes) = bytes := by
  have hlt := toNat_lt bytes
  have hmod : (toInt bytes % bound bytes.length).toNat = toNat bytes := by
    simp only [toInt]
    split
    · rw [Int.emod_eq_of_lt (by omega) (by omega), Int.toNat_natCast]
    · rw [Int.sub_emod_right, Int.emod_eq_of_lt (by omega) (by omega), Int.toNat_natCast]
  rw [ofInt, hmod, ofNat_toNat]

/-- One hexadecimal digit in upper case. -/
def digit (n : Nat) : Char := (Nat.digitChar n).toUpper

/-- A byte as two hexadecimal digits in upper case. -/
def hex (b : UInt8) : String := String.ofList [digit (b.toNat / 16), digit (b.toNat % 16)]

/-- Bytes in brackets, two hexadecimal digits each. -/
def hexList (bytes : List UInt8) : String := "[" ++ ", ".intercalate (bytes.map hex) ++ "]"

end BoltClient.Bytes
