import BoltClient.Proofs.Protocol.Features

/-!
Timeouts in whole milliseconds, as servers are told them. A longer timeout never becomes a smaller number. The number
is the nearest one, half way the even one, but for two kinds of timeout: one that would become zero although it is
some time, and one beyond the greatest number.
-/

namespace BoltClient

/-- How far a number of milliseconds is from a length of time, in nanoseconds. -/
def Duration.off (t : Duration) (ms : Int) : Nat := (ms * Duration.nanosPerMilli - t.nanos).natAbs

/-- Whole milliseconds that are as near to a length of time as can be: half a millisecond off at most, and just that
only if the number is even. -/
structure Duration.Nearest (t : Duration) (ms : Int) : Prop where
  near : 2 * t.off ms ≤ Duration.nanosPerMilli
  even : 2 * t.off ms = Duration.nanosPerMilli → ms % 2 = 0

def mostMillis : Nat := 0x7FFFFFFFFFFFFFFF

def longestTold : Duration := .ofMillis mostMillis

/-- What is told for a timeout: one for some time that is nearest to zero, the greatest number for a time that is too
long, and the nearest number for all others. -/
inductive Told (t : Duration) : Int → Prop where
  | one (pos : 0 < t.nanos) (short : t.Nearest 0) : Told t 1
  | most (long : longestTold.nanos < t.nanos) : Told t mostMillis
  | nearest {ms : Int} (plain : ¬(0 < t.nanos ∧ t.Nearest 0)) (fits : t.nanos ≤ longestTold.nanos)
    (h : t.Nearest ms) : Told t ms

variable {a b t : Duration} {i j : Int}

theorem Duration.Nearest.mono (ha : a.Nearest i) (hb : b.Nearest j) (h : a.nanos ≤ b.nanos) : i ≤ j := by
  obtain ⟨hnear, heven⟩ := ha
  obtain ⟨hnear', heven'⟩ := hb
  unfold off nanosPerMilli at *
  -- were it not so, the two would be neighbours and both lengths of time half way between them
  refine Int.not_lt.mp fun hless => ?_
  have hnext : i = j + 1 := by omega
  have hfirst : i % 2 = 0 := heven (by omega)
  have hsecond : j % 2 = 0 := heven' (by omega)
  omega

theorem Duration.Nearest.unique (hi : t.Nearest i) (hj : t.Nearest j) : i = j :=
  Int.le_antisymm (hi.mono hj (Nat.le_refl _)) (hj.mono hi (Nat.le_refl _))

theorem Duration.nearest_zero : Duration.zero.Nearest 0 := ⟨by decide, fun _ => rfl⟩

theorem nearest_longestTold : longestTold.Nearest mostMillis := ⟨by decide, by decide⟩

theorem not_long_of_nearest_zero (h : t.Nearest 0) : ¬longestTold.nanos < t.nanos := by
  intro hlong
  have hmost : (mostMillis : Int) ≤ 0 := nearest_longestTold.mono h (Nat.le_of_lt hlong)
  exact absurd hmost (by decide)

/-- From the whole milliseconds in a length of time and the rest the nearest number is found. -/
theorem Duration.nearest_of_rest {m : Nat}
    (h : m = t.nanos / nanosPerMilli ∧ t.nanos % nanosPerMilli ≤ 500000 ∨
      m = t.nanos / nanosPerMilli + 1 ∧ 500000 ≤ t.nanos % nanosPerMilli)
    (heven : t.nanos % nanosPerMilli = 500000 → m % 2 = 0) : t.Nearest m := by
  unfold nanosPerMilli at h heven
  constructor
  · unfold off nanosPerMilli
    omega
  · unfold off nanosPerMilli
    intro hhalf
    have hm : m % 2 = 0 := heven (by omega)
    omega

theorem exists_nearest (t : Duration) :
    ∃ m : Nat, t.Nearest m ∧ timeoutMillis t = min (if m = 0 ∧ 0 < t.nanos then 1 else m) mostMillis := by
  unfold timeoutMillis
  dsimp only
  split
  · next hup =>
    rw [Bool.or_eq_true, Bool.and_eq_true, decide_eq_true_eq, decide_eq_true_eq, decide_eq_true_eq] at hup
    exact ⟨_, Duration.nearest_of_rest (.inr ⟨rfl, by omega⟩) (by omega), rfl⟩
  · next hdown =>
    rw [Bool.or_eq_true, Bool.and_eq_true, decide_eq_true_eq, decide_eq_true_eq, decide_eq_true_eq] at hdown
    exact ⟨_, Duration.nearest_of_rest (.inl ⟨rfl, by omega⟩) (by omega), rfl⟩

theorem told_timeoutMillis (t : Duration) : Told t (timeoutMillis t) := by
  obtain ⟨m, hm, htold⟩ := exists_nearest t
  rw [htold]
  by_cases hshort : 0 < t.nanos ∧ t.Nearest 0
  · have hzero : m = 0 := Int.natCast_eq_zero.mp (hm.unique hshort.2)
    rw [if_pos ⟨hzero, hshort.1⟩]
    exact .one hshort.1 hshort.2
  · have hplain : ¬(m = 0 ∧ 0 < t.nanos) := by
      rintro ⟨rfl, hpos⟩
      exact hshort ⟨hpos, hm⟩
    rw [if_neg hplain]
    by_cases hlong : longestTold.nanos < t.nanos
    · have hmost : (mostMillis : Int) ≤ m := nearest_longestTold.mono hm (Nat.le_of_lt hlong)
      rw [Nat.min_eq_right (Int.ofNat_le.mp hmost)]
      exact .most hlong
    · have hfits : (m : Int) ≤ mostMillis := hm.mono nearest_longestTold (Nat.le_of_not_lt hlong)
      rw [Nat.min_eq_left (Int.ofNat_le.mp hfits)]
      exact .nearest hshort (Nat.le_of_not_lt hlong) hm

/-- Only no time at all is told as zero. -/
theorem Told.eq_zero_iff (h : Told t i) : i = 0 ↔ t = .zero := by
  constructor
  · rintro rfl
    cases h with
    | nearest plain _ hzero =>
      have hnone : t.nanos = 0 := Nat.eq_zero_of_not_pos fun hpos => plain ⟨hpos, hzero⟩
      cases t
      exact congrArg Duration.mk hnone
  · rintro rfl
    cases h with
    | one pos => exact absurd pos (by decide)
    | most long => exact absurd long (by decide)
    | nearest _ _ hnearest => exact hnearest.unique Duration.nearest_zero

theorem Told.le_most (h : Told t i) : i ≤ mostMillis := by
  cases h with
  | one => decide
  | most => exact Int.le_refl _
  | nearest _ fits hnearest => exact hnearest.mono nearest_longestTold fits

theorem Told.pos (h : Told t i) (hpos : 0 < t.nanos) : 0 < i := by
  cases h with
  | one => decide
  | most => decide
  | nearest plain _ hnearest =>
    have hle : 0 ≤ i := Duration.nearest_zero.mono hnearest (Nat.zero_le _)
    refine Int.lt_iff_le_and_ne.mpr ⟨hle, ?_⟩
    rintro rfl
    exact plain ⟨hpos, hnearest⟩

/-- No longer time is told as a smaller number. -/
theorem Told.mono (ha : Told a i) (hb : Told b j) (h : a.nanos ≤ b.nanos) : i ≤ j := by
  cases ha with
  | one pos => exact hb.pos (Nat.lt_of_lt_of_le pos h)
  | most long =>
    cases hb with
    | one _ short => exact absurd (Nat.lt_of_lt_of_le long h) (not_long_of_nearest_zero short)
    | most => exact Int.le_refl _
    | nearest _ fits => exact absurd (Nat.lt_of_lt_of_le long h) (Nat.not_lt.mpr fits)
  | nearest plain fits hnearest =>
    cases hb with
    | one _ short => exact Int.le_trans (hnearest.mono short h) (by decide)
    | most => exact (Told.nearest plain fits hnearest).le_most
    | nearest _ _ hnearest' => exact hnearest.mono hnearest' h

/-- The number of sixty-four bits that is sent is the one that is told. -/
theorem toInt_timeoutMillis (t : Duration) : (Int64.ofNat (timeoutMillis t)).toInt = timeoutMillis t := by
  have hle : timeoutMillis t ≤ mostMillis := Int.ofNat_le.mp (told_timeoutMillis t).le_most
  exact Int64.toInt_ofNat_of_lt (Nat.lt_succ_of_le hle)

theorem TransactionExtra.get?_timeout {x : TransactionExtra} (h : x.timeout = some t) :
    x.entries.get? "tx_timeout" = some (.int (Int64.ofNat (timeoutMillis t))) := by
  have hnames : (x.settings.map Prod.fst).Nodup := by
    change ["mode", "db", "imp_user", "bookmarks", "tx_metadata", "tx_timeout"].Nodup
    decide
  have hset : ("tx_timeout", some (Value.int (Int64.ofNat (timeoutMillis t)))) ∈ x.settings := by
    unfold settings
    rw [h]
    simp
  rw [entries_eq, Entries.get?_given hnames hset]

/-- The extra map has a number for every timeout. It is zero for no time at all and for no other, it is what is told
for the timeout, and it is at most the number for a timeout that is as long or longer. -/
theorem timeout_is_told (x y : TransactionExtra) (a b : Duration) (hx : x.timeout = some a) (hy : y.timeout = some b) :
    ∃ i j : Int64, x.entries.get? "tx_timeout" = some (.int i) ∧ y.entries.get? "tx_timeout" = some (.int j) ∧
      (i = 0 ↔ a = .zero) ∧ Told a i.toInt ∧ (a.nanos ≤ b.nanos → i ≤ j) := by
  have hi := told_timeoutMillis a
  have hj := told_timeoutMillis b
  rw [← toInt_timeoutMillis] at hi hj
  refine ⟨_, _, TransactionExtra.get?_timeout hx, TransactionExtra.get?_timeout hy, ?_, hi, ?_⟩
  · rw [← hi.eq_zero_iff, ← Int64.toInt_inj]
    rfl
  · intro h
    exact Int64.le_iff_toInt_le.mpr (hi.mono hj h)

/-- Two milliseconds and a half, and the longest time of all. -/
theorem two_and_a_half_is_told :
    let x : TransactionExtra := { mode := .read, database := some "d", timeout := some ⟨2500000⟩ }
    let y : TransactionExtra := { bookmarks := ["b"], timeout := some .longest }
    x.timeout = some ⟨2500000⟩ ∧ y.timeout = some .longest ∧
      ∃ i j : Int64, x.entries.get? "tx_timeout" = some (.int i) ∧ y.entries.get? "tx_timeout" = some (.int j) ∧
        i ≠ 0 ∧ Told ⟨2500000⟩ i.toInt ∧ i ≤ j := by
  intro x y
  obtain ⟨i, j, hi, hj, hzero, htold, hle⟩ := timeout_is_told x y ⟨2500000⟩ .longest rfl rfl
  refine ⟨rfl, rfl, i, j, hi, hj, ?_, htold, hle (by decide)⟩
  rw [Ne, hzero]
  decide

end BoltClient
