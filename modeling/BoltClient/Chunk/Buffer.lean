import BoltClient.Chunk.Writer

/-!
Chunks written into one row of bytes. The header of the open chunk stands in front of its content from the start and
is written anew whenever content is added, so of the open chunk only the place of its header is kept.

Sizes and places are computed as on a machine: a difference below zero, a place outside of the bytes and a size that
does not fit in a header have no result.
-/

namespace BoltClient.Chunk

structure Buffer where
  limit : Nat
  bytes : List UInt8
  /-- Where the header of the open chunk stands. -/
  header? : Option Nat
  deriving DecidableEq, Repr

namespace Buffer

/-- A buffer for chunks of `size` bytes, brought into the range of sizes that chunks can have. -/
def ofLimit (size : Nat) : Buffer := ⟨min (max size 1) 0xFFFF, [], none⟩

/-- A difference, if it is not below zero. -/
def minus? (a b : Nat) : Option Nat := if b ≤ a then some (a - b) else none

/-- How many bytes there are behind the header at a place. -/
def filled? (b : Buffer) (header : Nat) : Option Nat := do minus? (← minus? b.bytes.length header) 2

/-- Puts bytes in the place of others, if there are as many. -/
def overwrite? (bytes : List UInt8) (place : Nat) (new : List UInt8) : Option (List UInt8) :=
  if place + new.length ≤ bytes.length then
    some (bytes.take place ++ new ++ bytes.drop (place + new.length))
  else none

/-- Writes into a header how many bytes there are behind it. -/
def patch? (b : Buffer) (header : Nat) : Option Buffer := do
  let size ← b.filled? header
  if size < 0x10000 then return { b with bytes := ← overwrite? b.bytes header (Bytes.ofNat 2 size) }
  else none

/-- The header of the open chunk. If there is none a chunk is begun, and its header is still to be written. -/
def openChunk (b : Buffer) : Nat × Buffer :=
  match b.header? with
  | some header => (header, b)
  | none => (b.bytes.length, { b with bytes := b.bytes ++ [0, 0], header? := some b.bytes.length })

/-- Adds to the open chunk what there is room for, closes it if it is full, and gives the data that is left. -/
def fill? (b : Buffer) (data : List UInt8) : Option (Buffer × List UInt8) := do
  let (header, b) := b.openChunk
  let used ← b.filled? header
  let room ← minus? b.limit used
  let n := min room data.length
  let b ← { b with bytes := b.bytes ++ data.take n }.patch? header
  return ({ b with header? := if used + n = b.limit then none else b.header? }, data.drop n)

/-- Adds data chunk by chunk. A chunk that took none of it would be followed by others without end; there is no result
then. -/
def write? (b : Buffer) (data : List UInt8) : Option Buffer :=
  if data.isEmpty then some b
  else
    match b.fill? data with
    | none => none
    | some (b', rest) => if rest.length < data.length then b'.write? rest else none
  termination_by data.length

def endMessage (b : Buffer) : Buffer := { b with bytes := b.bytes ++ terminator, header? := none }

def clear (b : Buffer) : Buffer := { b with bytes := [], header? := none }

/-- Takes all bytes out. What follows starts a new chunk. -/
def take (b : Buffer) : List UInt8 × Buffer := (b.bytes, b.clear)

end Buffer
end BoltClient.Chunk
