import BoltClient.Bytes
import BoltClient.PackStream.Error
import BoltClient.PackStream.Marker
import BoltClient.Text.Utf8
import BoltClient.Value.Basic

namespace BoltClient.PackStream

/-- The marker and the size of a value with `n` parts. -/
def header (kind : Sized) (n : Nat) : Except Error (List UInt8) :=
  match kind.tiny with
  | some tiny => if n < 16 then .ok [tiny ||| UInt8.ofNat n] else wide
  | none => wide
where
  /-- The forms with a size of their own. -/
  wide : Except Error (List UInt8) :=
    if kind.limit < n then .error (.tooLarge kind.name n)
    else if n < 0x100 then .ok (kind.first :: Bytes.ofNat 1 n)
    else if n < 0x10000 then .ok ((kind.first + 1) :: Bytes.ofNat 2 n)
    else .ok ((kind.first + 2) :: Bytes.ofNat 4 n)

def encodeInt (i : Int64) : List UInt8 :=
  let n := i.toInt
  if -0x10 ≤ n ∧ n < 0x80 then Bytes.ofInt 1 n
  else if -0x80 ≤ n ∧ n < 0x80 then 0xC8 :: Bytes.ofInt 1 n
  else if -0x8000 ≤ n ∧ n < 0x8000 then 0xC9 :: Bytes.ofInt 2 n
  else if -0x80000000 ≤ n ∧ n < 0x80000000 then 0xCA :: Bytes.ofInt 4 n
  else 0xCB :: Bytes.ofInt 8 n

def encodeText (s : String) : Except Error (List UInt8) :=
  let content := Text.Utf8.encode s
  return (← header .text content.length) ++ content

/-- Bytes under way. What was written before an error stays. -/
abbrev Writer := ExceptT Error (StateM (Array UInt8))

namespace Writer

def write (bytes : List UInt8) : Writer Unit := modify fun buffer : Array UInt8 => buffer ++ bytes

/-- Adds bytes that may not exist. -/
def writeIf (bytes : Except Error (List UInt8)) : Writer Unit := do
  write (← liftExcept bytes)
where
  liftExcept (bytes : Except Error (List UInt8)) : Writer (List UInt8) :=
    match bytes with
    | .ok bytes => pure bytes
    | .error e => throw e

mutual

def value : Value → Writer Unit
  | .null => write [0xC0]
  | .bool b => write [if b then 0xC3 else 0xC2]
  | .int i => write (encodeInt i)
  | .float bits => write (0xC1 :: Bytes.ofNat 8 bits.toNat)
  | .bytes b => do
    writeIf (header .bytes b.length)
    write b
  | .text s => writeIf (encodeText s)
  | .list xs => do
    writeIf (header .list xs.length)
    items xs
  | .map es => do
    writeIf (header .map es.length)
    entries es
  | .struct tag fields => do
    writeIf (header .struct fields.length)
    write [tag]
    items fields

def items : List Value → Writer Unit
  | [] => pure ()
  | x :: xs => do
    value x
    items xs

def entries : List (String × Value) → Writer Unit
  | [] => pure ()
  | (key, x) :: rest => do
    writeIf (encodeText key)
    value x
    entries rest

end

end Writer

/-- A buffer that values are written to. -/
structure Encoder where
  written : Array UInt8 := #[]
  deriving Inhabited

namespace Encoder

def bytes (e : Encoder) : List UInt8 := e.written.toList

/-- Writes a value. After an error the buffer keeps what was written before it. -/
def encode (e : Encoder) (v : Value) : Except Error Unit × Encoder :=
  let (outcome, written) := (Writer.value v).run.run e.written
  (outcome, ⟨written⟩)

/-- Opens a list of unknown length: items follow, then the end of the stream. -/
def beginListStream (e : Encoder) : Encoder := ⟨e.written.push 0xD7⟩

/-- Opens a map of unknown length: names and values follow, then the end of the stream. -/
def beginMapStream (e : Encoder) : Encoder := ⟨e.written.push 0xDB⟩

/-- Closes a list or map of unknown length. -/
def endStream (e : Encoder) : Encoder := ⟨e.written.push 0xDF⟩

end Encoder

def encode (v : Value) : Except Error (List UInt8) :=
  match ({} : Encoder).encode v with
  | (.ok (), e) => .ok e.bytes
  | (.error error, _) => .error error

end BoltClient.PackStream
