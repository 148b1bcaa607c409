/-!
The shortest decimal that reads back as a given binary fraction, and of those the nearest. A binary
fraction stands for all reals that round to it; the search looks at coarser decimal grids first and
stops at the first grid with a point among those reals.
-/

namespace BoltClient

/-- The number `digits · 10 ^ exponent`. -/
structure Decimal where
  digits : Nat
  exponent : Int
  deriving DecidableEq, Repr

namespace Decimal

/-- The number `mantissa · 2 ^ exponent`. Below the least mantissa of a binade the neighbour is only
half as far away, which `narrowBelow` tells. -/
structure Binary where
  mantissa : Nat
  exponent : Int
  narrowBelow : Bool
  deriving DecidableEq, Repr

/-- Comparing decimal multiples of `10 ^ k` with binary multiples of `2 ^ e` in whole numbers:
`d · 10 ^ k ≤ n · 2 ^ e` exactly if `d * (weights k e).1 ≤ n * (weights k e).2`. -/
def weights (k e : Int) : Nat × Nat :=
  (Nat.pow 10 k.toNat * Nat.pow 2 (-e).toNat, Nat.pow 2 e.toNat * Nat.pow 10 (-k).toNat)

/-- Whether `d · 10 ^ k` rounds to `x`. The two ends round to `x` if its mantissa is even. -/
def Binary.admits (x : Binary) (k : Int) (d : Nat) : Bool :=
  let (ten, two) := weights k (x.exponent - 2)
  let point := d * ten
  let low := (4 * x.mantissa - if x.narrowBelow then 1 else 2) * two
  let high := (4 * x.mantissa + 2) * two
  if x.mantissa % 2 = 0 then low ≤ point && point ≤ high else low < point && point < high

/-- The point of the grid of multiples of `10 ^ k` that rounds to `x` and lies nearest to it. Halfway
between two such points the greater is taken. -/
def Binary.onGrid (x : Binary) (k : Int) : Option Decimal :=
  let (ten, two) := weights k (x.exponent - 2)
  let value := 4 * x.mantissa * two
  let below := value / ten
  let upper := if x.admits k (below + 1) then some ⟨below + 1, k⟩ else none
  if x.admits k below then
    if upper.isSome && ten ≤ 2 * (value % ten) then upper else some ⟨below, k⟩
  else upper

/-- Looks at the grids of `10 ^ k`, `10 ^ (k - 1)` and so on, at most `grids` of them. -/
def Binary.search (x : Binary) : Nat → Int → Decimal
  | 0, k => ⟨0, k⟩
  | grids + 1, k =>
    match x.onGrid k with
    | some d => d
    | none => x.search grids (k - 1)

/-- The shortest decimal that reads back. Seventeen digits always suffice, and the first grid looked at
is coarser than the number itself by at most three places. -/
def Binary.shortest (x : Binary) : Decimal :=
  x.search 24 ((x.mantissa.log2 + x.exponent) * 30103 / 100000 + 2)

end Decimal
end BoltClient
