import BoltClient.PackStream.Decoder

/-!
Reading values from a place in bytes. The place is a number, and so is the depth: how many containers around it are
being read. Either of the two could get out of hand, and the reading could go on without end; each is told apart from
bytes that are refused.
-/

namespace BoltClient.PackStream

/-- Bytes, a place in them, and the number of containers that are being read there. -/
structure Cursor where
  bytes : List UInt8
  position : Nat
  depth : Nat
  deriving DecidableEq, Repr

/-- Why nothing is read. -/
inductive Halt where
  | refused (e : Error)
  /-- A byte was read where there is none. -/
  | outside
  /-- A container was left that was not entered. -/
  | unbalanced
  /-- The steps did not suffice. -/
  | endless
  deriving DecidableEq, Repr

/-- Reading from a cursor. -/
abbrev Walk := ExceptT Halt (StateM Cursor)

namespace Walk

variable {α : Type}

def refuse (e : Error) : Walk α := throw (.refused e)

/-- There must be `n` more bytes. -/
def ensure (n : Nat) : Walk Unit := fun c =>
  if c.bytes.length - c.position < n then (.error (.refused .unexpectedEnd), c) else (.ok (), c)

/-- The byte at the place. -/
def here : Walk UInt8 := fun c =>
  match c.bytes[c.position]? with
  | some b => (.ok b, { c with position := c.position + 1 })
  | none => (.error .outside, c)

/-- The `n` bytes from the place on. -/
def onwards (n : Nat) : Walk (List UInt8) := fun c =>
  if c.position + n ≤ c.bytes.length then
    (.ok ((c.bytes.drop c.position).take n), { c with position := c.position + n })
  else (.error .outside, c)

def byte : Walk UInt8 := do
  ensure 1
  here

def take (n : Nat) : Walk (List UInt8) := do
  ensure n
  onwards n

def number (width : Nat) : Walk Nat := return Bytes.toNat (← take width)

/-- The size of a value. A size of four bytes is signed, and a negative one is too large. -/
def size (kind : Sized) : Size → Walk Nat
  | .inMarker n => pure n
  | .inNext width => do
    let n ← number width
    if n < 0x80000000 then pure n else refuse (.tooLarge kind.name n)

def text (n : Nat) : Walk String := do
  let content ← take n
  match Text.Utf8.decode content with
  | .ok s => pure s
  | .error fault => refuse (.badText fault.message)

/-- Enters a container, unless it is one too many, and leaves it whether or not all of it was read. -/
def nested (inside : Walk α) : Walk α := fun c =>
  if maxNesting ≤ c.depth then (.error (.refused (.tooDeep maxNesting)), c)
  else
    let (outcome, c) := inside { c with depth := c.depth + 1 }
    if c.depth = 0 then (.error .unbalanced, c) else (outcome, { c with depth := c.depth - 1 })

def times (one : Walk α) (done : List α) : Nat → Walk (List α)
  | 0 => pure done.reverse
  | n + 1 => do
    let a ← one
    times one (a :: done) n

/-- The same until there is nothing, for a number of steps. -/
def untilNone (one : Walk (Option α)) (done : List α) : Nat → Walk (List α)
  | 0 => throw .endless
  | steps + 1 => do
    match ← one with
    | some a => untilNone one (a :: done) steps
    | none => pure done.reverse

def required (item : Walk (Option Value)) : Walk Value := do
  match ← item with
  | some v => pure v
  | none => refuse .strayEnd

def key (item : Walk (Option Value)) : Walk String := do
  match ← required item with
  | .text s => pure s
  | _ => refuse .keyNotText

def entry (item : Walk (Option Value)) : Walk (String × Value) := do
  let name ← key item
  let v ← required item
  pure (name, v)

def entryOrEnd (item : Walk (Option Value)) : Walk (Option (String × Value)) := do
  match ← item with
  | some (.text name) =>
    let v ← required item
    pure (some (name, v))
  | some _ => refuse .keyNotText
  | none => pure none

/-- The parts of a container, each of them read by `item`. A stream is read for a number of steps. -/
def contents (steps : Nat) (item : Walk (Option Value)) : Reader.Container → Walk Value
  | .list n => return .list (← times (required item) [] n)
  | .map n => return .map (Entries.ofPairs (← times (entry item) [] n))
  | .struct n => do
    let tag ← byte
    return .struct tag (← times (required item) [] n)
  | .listStream => return .list (← untilNone item [] steps)
  | .mapStream => return .map (Entries.ofPairs (← untilNone (entryOrEnd item) [] steps))

/-- A value or the end of a stream; `inside` reads what stands in containers. -/
def itemWith (steps : Nat) (inside : Walk (Option Value)) : Walk (Option Value) := do
  let marker ← byte
  match Marker.ofByte? marker with
  | none => refuse (.unknownMarker marker)
  | some .null => pure (some .null)
  | some (.bool b) => pure (some (.bool b))
  | some (.tinyInt i) => pure (some (.int i))
  | some (.int width) => return some (.int (Int64.ofInt (Bytes.toInt (← take width))))
  | some .float => return some (.float (UInt64.ofNat (← number 8)))
  | some (.sized .bytes n) => return some (.bytes (← take (← size .bytes n)))
  | some (.sized .text n) => return some (.text (← text (← size .text n)))
  | some (.sized .list n) => container (.list (← size .list n))
  | some (.sized .map n) => container (.map (← size .map n))
  | some (.sized .struct n) => container (.struct (← size .struct n))
  | some .listStream => container .listStream
  | some .mapStream => container .mapStream
  | some .endOfStream => pure none
where
  container (c : Reader.Container) : Walk (Option Value) := return some (← nested (contents steps inside c))

/-- A value or the end of a stream. The steps bound how deep the reading goes and how many parts a stream has. -/
def item : Nat → Walk (Option Value)
  | 0 => throw .endless
  | steps + 1 => itemWith steps (item steps)

end Walk

namespace Cursor

/-- At the front of bytes. -/
def ofBytes (bytes : List UInt8) : Cursor := ⟨bytes, 0, 0⟩

/-- Reads a value, in a number of steps, and stands behind what was read. -/
def decode (c : Cursor) (steps : Nat) : Except Halt Value × Cursor := (Walk.required (Walk.item steps)).run.run c

end Cursor
end BoltClient.PackStream
