import BoltClient.Bytes
import BoltClient.Decimal.Shortest
import BoltClient.Text.Quoted
import BoltClient.Value.Basic

namespace BoltClient.Value

/-- The binary fraction of a positive finite float's bits. -/
def binaryOf (bits : UInt64) : Decimal.Binary :=
  let fraction := bits.toNat % 0x10000000000000
  let power : Nat := bits.toNat / 0x10000000000000 % 0x800
  if power = 0 then ⟨fraction, -1074, false⟩
  else ⟨fraction + 0x10000000000000, (power : Int) - 1075, fraction = 0 ∧ 1 < power⟩

/-- A number written with its point in place. -/
def positional (digits : List Char) (exponent : Int) : List Char :=
  let places := digits.length + exponent
  if 0 ≤ exponent then digits ++ List.replicate exponent.toNat '0' ++ ['.', '0']
  else if 0 < places then digits.take places.toNat ++ ['.'] ++ digits.drop places.toNat
  else ['0', '.'] ++ List.replicate (-places).toNat '0' ++ digits

/-- A number written with one digit before the point and a power of ten. -/
def scientific (digits : List Char) (exponent : Int) : List Char :=
  let power := digits.length + exponent - 1
  let fraction := digits.drop 1
  digits.take 1 ++ (if fraction.isEmpty then [] else '.' :: fraction) ++ 'e' :: (toString power).toList

/-- A float is written with its fewest digits; from `10 ^ 16` on and below `10 ^ -4` with a power. -/
def floatText (bits : UInt64) : String :=
  let sign := if bits.toNat / 0x8000000000000000 = 1 then "-" else ""
  let size := bits.toNat % 0x8000000000000000
  if 0x7FF0000000000000 < size then "NaN"
  else if size = 0x7FF0000000000000 then sign ++ "inf"
  else if size = 0 then sign ++ "0.0"
  else
    let shortest := (binaryOf (UInt64.ofNat size)).shortest
    let digits := Nat.toDigits 10 shortest.digits
    let power := digits.length + shortest.exponent - 1
    let written := if -4 ≤ power ∧ power < 16 then positional digits shortest.exponent
      else scientific digits shortest.exponent
    sign ++ String.ofList written

mutual

def toText : Value → String
  | null => "null"
  | bool b => if b then "true" else "false"
  | int i => toString i.toInt
  | float bits => floatText bits
  | bytes b => s!"bytes[{b.length}]"
  | text s => Text.quote s
  | list items => "[" ++ ", ".intercalate (itemTexts [] items) ++ "]"
  | map entries => "\x7b" ++ ", ".intercalate (entryTexts [] entries) ++ "\x7d"
  | struct tag fields =>
    "Structure<" ++ Bytes.hex tag ++ ">(" ++ ", ".intercalate (itemTexts [] fields) ++ ")"

/-- The texts of items, after those that `done` holds in reverse. -/
def itemTexts (done : List String) : List Value → List String
  | [] => done.reverse
  | item :: rest => itemTexts (toText item :: done) rest

/-- The texts of entries, after those that `done` holds in reverse. -/
def entryTexts (done : List String) : List (String × Value) → List String
  | [] => done.reverse
  | (key, value) :: rest => entryTexts ((Text.quote key ++ ": " ++ toText value) :: done) rest

end

end BoltClient.Value

namespace BoltClient

/-- The text of entries: a map's. -/
def Entries.toText (entries : Entries Value) : String := (Value.map entries).toText

end BoltClient
