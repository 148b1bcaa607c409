import BoltClient.Bytes

/-!
Messages cut into chunks. A chunk is its length in two bytes and then its content, and two zero bytes
end a message. A chunk is kept open until it is full or its message ends, so how a message is cut into
writes does not show.
-/

namespace BoltClient.Chunk

/-- Two zero bytes: the end of a message. -/
def terminator : List UInt8 := [0, 0]

/-- The chunk size unless another is asked for. -/
def defaultLimit : Nat := 16384

/-- Complete chunks and the content of the open one. -/
structure Writer where
  limit : Nat
  limit_pos : 0 < limit
  limit_lt : limit < 0x10000
  closed : Array UInt8
  opened : Array UInt8
  opened_lt : opened.size < limit

namespace Writer

/-- A writer of chunks of `size` bytes, brought into the range of sizes that chunks can have. -/
def ofLimit (size : Nat) : Writer where
  limit := min (max size 1) 0xFFFF
  limit_pos := by omega
  limit_lt := by omega
  closed := #[]
  opened := #[]
  opened_lt := by simp only [List.size_toArray, List.length_nil]; omega

instance : Inhabited Writer := ⟨ofLimit defaultLimit⟩

/-- A chunk; no content is no chunk. -/
def chunk (content : Array UInt8) : List UInt8 :=
  if content.isEmpty then [] else Bytes.ofNat 2 content.size ++ content.toList

/-- All bytes held. -/
def bytes (w : Writer) : List UInt8 := w.closed.toList ++ chunk w.opened

def size (w : Writer) : Nat := w.closed.size + if w.opened.isEmpty then 0 else 2 + w.opened.size

/-- Adds a byte to the open chunk and closes the chunk when it is full. -/
def push (w : Writer) (b : UInt8) : Writer :=
  if h : w.opened.size + 1 < w.limit then
    { w with opened := w.opened.push b, opened_lt := by simpa using h }
  else
    { w with
      closed := w.closed ++ chunk (w.opened.push b)
      opened := #[]
      opened_lt := by simpa using w.limit_pos }

def write (w : Writer) (data : List UInt8) : Writer := data.foldl push w

def closeChunk (w : Writer) : Writer :=
  { w with
    closed := w.closed ++ chunk w.opened
    opened := #[]
    opened_lt := by simpa using w.limit_pos }

def endMessage (w : Writer) : Writer :=
  let w := w.closeChunk
  { w with closed := w.closed ++ terminator }

def clear (w : Writer) : Writer :=
  { w with
    closed := #[]
    opened := #[]
    opened_lt := by simpa using w.limit_pos }

/-- Takes all bytes out. What follows starts a new chunk. -/
def take (w : Writer) : List UInt8 × Writer := (w.bytes, w.clear)

theorem write_append (w : Writer) (a b : List UInt8) : w.write (a ++ b) = (w.write a).write b := by
  simp [write]

theorem length_bytes (w : Writer) : w.bytes.length = w.size := by
  unfold bytes size chunk
  split <;> simp_all

end Writer

/-- A whole message in chunks. -/
def ofPayload (payload : List UInt8) (size : Nat) : List UInt8 :=
  ((Writer.ofLimit size).write payload).endMessage.bytes

end BoltClient.Chunk
