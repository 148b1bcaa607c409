import BoltClient.Address.Basic

namespace BoltClient

/-- An address of the internet protocol. -/
inductive Ip where
  | v4 (a b c d : UInt8)
  | v6 (groups : Vector UInt16 8)
  deriving DecidableEq, Repr

/-- A numeric address and a port. An IPv6 address may be tied to a network interface by its number; zero
ties it to none. -/
structure Endpoint where
  ip : Ip
  port : UInt16
  interface : UInt32 := 0
  deriving DecidableEq, Repr

namespace Ip

/-- Parts between `c`. -/
def parts (c : Char) (s : List Char) : List (List Char) :=
  s.foldr (fun d parts =>
    if d = c then [] :: parts
    else match parts with
      | part :: rest => (d :: part) :: rest
      | [] => [[d]]) [[]]

/-- A decimal number below 256, without zeros in front. -/
def octet? (s : List Char) : Option UInt8 :=
  let n := Address.ofDigits s
  if !s.isEmpty && s.length ≤ 3 && s.all Char.isDigit && n < 256 && (s.length = 1 || s.head? ≠ some '0')
  then some (UInt8.ofNat n) else none

/-- Four numbers between dots. -/
def v4? (s : List Char) : Option Ip :=
  match (parts '.' s).map octet? with
  | [some a, some b, some c, some d] => some (v4 a b c d)
  | _ => none

def hexValue? (c : Char) : Option Nat :=
  if c.isDigit then some (c.toNat - 48)
  else if 'a' ≤ c ∧ c ≤ 'f' then some (c.toNat - 87)
  else if 'A' ≤ c ∧ c ≤ 'F' then some (c.toNat - 55)
  else none

/-- One to four hexadecimal digits. -/
def group? (s : List Char) : Option UInt16 :=
  if s.isEmpty || 4 < s.length then none
  else (s.mapM hexValue?).map fun ds => UInt16.ofNat (ds.foldl (fun n d => 16 * n + d) 0)

/-- Two bytes as a group. -/
def pair (a b : UInt8) : UInt16 := UInt16.ofNat (256 * a.toNat + b.toNat)

/-- Groups between colons; the last two may be spelled as an address of the old kind. -/
def groups? : List (List Char) → Option (List UInt16)
  | [] => some []
  | [last] =>
    match v4? last with
    | some (v4 a b c d) => some [pair a b, pair c d]
    | _ => (group? last).map ([·])
  | part :: rest => do return (← group? part) :: (← groups? rest)

/-- Groups written one after another; nothing at all is no group. -/
def groupsOf? (s : List Char) : Option (List UInt16) := if s.isEmpty then some [] else groups? (parts ':' s)

/-- What stands before the first `::` and what stands behind it. -/
def cutGap? : List Char → Option (List Char × List Char)
  | ':' :: ':' :: rest => some ([], rest)
  | c :: rest => (cutGap? rest).map fun (a, b) => (c :: a, b)
  | [] => none

/-- Eight groups, or fewer around a `::` that stands for the zeros between them. -/
def v6? (s : List Char) : Option Ip :=
  match cutGap? s with
  | none => (groups? (parts ':' s)).bind ofGroups?
  | some (front, back) => do
    let first ← if front.contains '.' then none else groupsOf? front
    let last ← groupsOf? back
    if first.length + last.length < 8 then
      ofGroups? (first ++ List.replicate (8 - first.length - last.length) 0 ++ last)
    else none
where
  /-- Eight groups as an address. -/
  ofGroups? (groups : List UInt16) : Option Ip :=
    if h : groups.length = 8 then some (v6 ⟨groups.toArray, by simpa using h⟩) else none

def ofText? (s : List Char) : Option Ip := v4? s <|> v6? s

/-- Groups in hexadecimal between colons. -/
def groupsText (groups : List UInt16) : String :=
  ":".intercalate (groups.map fun g => String.ofList (Nat.toDigits 16 g.toNat))

def leadingZeros (groups : List UInt16) : Nat := (groups.takeWhile (· = 0)).length

/-- Start and length of the longest run of zeros among groups that start at `place`; of equally long ones
the first. -/
def longestGap (place : Nat) : List UInt16 → Nat × Nat
  | [] => (place, 0)
  | g :: rest =>
    let here := leadingZeros (g :: rest)
    let later := longestGap (place + 1) rest
    if later.2 ≤ here then (place, here) else later

/-- The written form. Of an IPv6 address the longest run of two or more zeros is left out, and one that
stands for an address of the old kind ends like it. -/
def text : Ip → String
  | v4 a b c d => ".".intercalate ([a, b, c, d].map fun n => toString n.toNat)
  | v6 groups =>
    match groups.toList with
    | [0, 0, 0, 0, 0, 0xFFFF, high, low] =>
      "::ffff:" ++ text.quad high low
    | all =>
      let (start, length) := longestGap 0 all
      if 1 < length then groupsText (all.take start) ++ "::" ++ groupsText (all.drop (start + length))
      else groupsText all
where
  /-- Two groups as four numbers between dots. -/
  quad (high low : UInt16) : String :=
    ".".intercalate ([high, low].flatMap fun g => [toString (g.toNat / 256), toString (g.toNat % 256)])

end Ip

namespace Endpoint

def text (e : Endpoint) : String :=
  (match e.ip with
    | .v4 .. => e.ip.text
    | .v6 _ =>
      let tie := if e.interface = 0 then "" else "%" ++ toString e.interface.toNat
      "[" ++ e.ip.text ++ tie ++ "]") ++ ":" ++ toString e.port.toNat

/-- The number below `bound` that decimal digits spell. -/
def number? (bound : Nat) (s : List Char) : Option Nat :=
  if !s.isEmpty && s.all Char.isDigit && Address.ofDigits s < bound then some (Address.ofDigits s)
  else none

/-- The endpoint that a text spells: an address, an IPv6 one in brackets, and a port. -/
def ofText? (s : List Char) : Option Endpoint :=
  match s with
  | '[' :: rest => do
    let (inner, tail) ← Address.cut? ']' rest
    let (ip, interface) ← match Address.cut? '%' inner with
      | some (ip, interface) => (number? 0x100000000 interface).map (ip, ·)
      | none => some (inner, 0)
    match tail with
    | ':' :: port =>
      return ⟨← Ip.v6? ip, UInt16.ofNat (← number? 0x10000 port), UInt32.ofNat interface⟩
    | _ => none
  | _ => do
    let (ip, port) ← Address.cut? ':' s
    return ⟨← Ip.v4? ip, UInt16.ofNat (← number? 0x10000 port), 0⟩

def address (e : Endpoint) : Address := ⟨e.ip.text, e.port⟩

end Endpoint

namespace Address

/-- The endpoint of an address whose host is numeric. -/
def endpoint? (a : Address) : Option Endpoint := (Ip.ofText? a.host.toList).map (⟨·, a.port, 0⟩)

end Address
end BoltClient
