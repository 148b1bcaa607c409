import BoltClient.Bytes
import BoltClient.PackStream.Error
import BoltClient.PackStream.Marker
import BoltClient.Text.Utf8
import BoltClient.Value.Basic

namespace BoltClient.PackStream

/-- The deepest nesting of lists, maps and structures that is read. -/
def maxNesting : Nat := 256

/-- Reading from the front of bytes. -/
abbrev Reader := ExceptT Error (StateM (List UInt8))

namespace Reader

variable {α : Type}

def byte : Reader UInt8 := fun bytes =>
  match bytes with
  | [] => (.error .unexpectedEnd, [])
  | b :: rest => (.ok b, rest)

/-- The first `n` bytes, in front of them those that `taken` holds in reverse, and the rest. -/
def split (taken : List UInt8) : Nat → List UInt8 → Option (List UInt8 × List UInt8)
  | 0, rest => some (taken.reverse, rest)
  | _ + 1, [] => none
  | n + 1, b :: rest => split (b :: taken) n rest

theorem split_eq (taken : List UInt8) (n : Nat) (bytes : List UInt8) :
    split taken n bytes
      = if n ≤ bytes.length then some (taken.reverse ++ bytes.take n, bytes.drop n) else none := by
  induction n generalizing taken bytes with
  | zero => simp [split]
  | succ n ih =>
    cases bytes with
    | nil => simp [split]
    | cons b rest => simp [split, ih]

/-- The next `n` bytes; if there are fewer, none is read. -/
def take (n : Nat) : Reader (List UInt8) := fun bytes =>
  match split [] n bytes with
  | some (taken, rest) => (.ok taken, rest)
  | none => (.error .unexpectedEnd, bytes)

/-- A number in the next `width` bytes. -/
def number (width : Nat) : Reader Nat := return Bytes.toNat (← take width)

/-- The size of a value. A size of four bytes is signed, and a negative one is too large. -/
def size (kind : Sized) : Size → Reader Nat
  | .inMarker n => pure n
  | .inNext width => do
    let n ← number width
    if n < 0x80000000 then pure n else throw (.tooLarge kind.name n)

/-- A text of `n` bytes. -/
def text (n : Nat) : Reader String := do
  let content ← take n
  match Text.Utf8.decode content with
  | .ok s => pure s
  | .error fault => throw (.badText fault.message)

/-- `n` times the same, after what `done` holds in reverse. -/
def times (one : Reader α) (done : List α) : Nat → Reader (List α)
  | 0 => pure done.reverse
  | n + 1 => do
    let a ← one
    times one (a :: done) n

/-- The same until there is nothing, after what `done` holds in reverse. A reader that finds something
without reading a byte would never end; it is stopped. -/
def untilNone (one : Reader (Option α)) (done : List α) (bytes : List UInt8) :
    Except Error (List α) × List UInt8 :=
  match one bytes with
  | (.error e, rest) => (.error e, rest)
  | (.ok none, rest) => (.ok done.reverse, rest)
  | (.ok (some a), rest) =>
    if rest.length < bytes.length then untilNone one (a :: done) rest
    else (.error .unexpectedEnd, rest)
  termination_by bytes.length

/-- A value where the end of a stream is an error. -/
def required (item : Reader (Option Value)) : Reader Value := do
  match ← item with
  | some v => pure v
  | none => throw .strayEnd

/-- A name where the end of a stream is an error. -/
def key (item : Reader (Option Value)) : Reader String := do
  match ← required item with
  | .text s => pure s
  | _ => throw .keyNotText

def entry (item : Reader (Option Value)) : Reader (String × Value) := do
  let name ← key item
  let v ← required item
  pure (name, v)

/-- A name and its value, or the end of a stream instead of the name. -/
def entryOrEnd (item : Reader (Option Value)) : Reader (Option (String × Value)) := do
  match ← item with
  | some (.text name) =>
    let v ← required item
    pure (some (name, v))
  | some _ => throw .keyNotText
  | none => pure none

/-- What stands inside a container of `n` parts, or of unknown length. -/
inductive Container where
  | list (n : Nat)
  | map (n : Nat)
  | struct (n : Nat)
  | listStream
  | mapStream

/-- The parts of a container, each of them read by `item`. A repeated name keeps its first place and its
last value. -/
def contents (item : Reader (Option Value)) : Container → Reader Value
  | .list n => return .list (← times (required item) [] n)
  | .map n => return .map (Entries.ofPairs (← times (entry item) [] n))
  | .struct n => do
    let tag ← byte
    return .struct tag (← times (required item) [] n)
  | .listStream => return .list (← untilNone item [])
  | .mapStream => return .map (Entries.ofPairs (← untilNone (entryOrEnd item) []))

/-- A value or the end of a stream. `inside` reads what stands in containers, and is absent where
containers are nested too deep. -/
def itemWith (inside : Option (Reader (Option Value))) : Reader (Option Value) := do
  let marker ← byte
  match Marker.ofByte? marker with
  | none => throw (.unknownMarker marker)
  | some .null => pure (some .null)
  | some (.bool b) => pure (some (.bool b))
  | some (.tinyInt i) => pure (some (.int i))
  | some (.int width) => return some (.int (Int64.ofInt (Bytes.toInt (← take width))))
  | some .float => return some (.float (UInt64.ofNat (← number 8)))
  | some (.sized .bytes n) => return some (.bytes (← take (← size .bytes n)))
  | some (.sized .text n) => return some (.text (← text (← size .text n)))
  | some (.sized .list n) => container (.list (← size .list n))
  | some (.sized .map n) => container (.map (← size .map n))
  | some (.sized .struct n) => container (.struct (← size .struct n))
  | some .listStream => container .listStream
  | some .mapStream => container .mapStream
  | some .endOfStream => pure none
where
  /-- A container, if there is room for one. -/
  container (c : Container) : Reader (Option Value) :=
    match inside with
    | some item => return some (← contents item c)
    | none => throw (.tooDeep maxNesting)

/-- A value or the end of a stream, where `room` more levels of nesting are allowed. -/
def item (room : Nat) : Reader (Option Value) := fun bytes =>
  match room with
  | 0 => itemWith none bytes
  | room + 1 => itemWith (some (item room)) bytes

def value : Reader Value := required (item maxNesting)

end Reader

/-- A place in bytes from which values are read, one after another. -/
structure Decoder where
  position : Nat
  rest : List UInt8

namespace Decoder

/-- At the front of bytes. -/
def ofBytes (bytes : List UInt8) : Decoder := ⟨0, bytes⟩

def remaining (d : Decoder) : Nat := d.rest.length

/-- Reads a value and stands behind what was read. -/
def decode (d : Decoder) : Except Error Value × Decoder :=
  let (outcome, rest) := Reader.value.run.run d.rest
  (outcome, ⟨d.position + (d.rest.length - rest.length), rest⟩)

end Decoder

/-- The first value that bytes spell. -/
def decode (bytes : List UInt8) : Except Error Value := ((Decoder.ofBytes bytes).decode).1

end BoltClient.PackStream
