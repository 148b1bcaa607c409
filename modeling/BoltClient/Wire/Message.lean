import BoltClient.Chunk.Reader
import BoltClient.Chunk.Writer
import BoltClient.Message.Request
import BoltClient.Message.Response
import BoltClient.PackStream.Encoder
import BoltClient.Wire.Error

/-!
Whole messages on the wire: a value, encoded and cut into chunks. What cannot be read as a value is gone
with its message and does not disturb the messages behind it.
-/

namespace BoltClient.Wire

/-- A value as a message in chunks. -/
def frame (v : Value) (chunkSize : Nat) : Except PackStream.Error (List UInt8) :=
  return Chunk.ofPayload (← PackStream.encode v) chunkSize

/-- The next message, as a value. -/
def nextValue (r : Chunk.Reader) : Except Error (Option Value) × Chunk.Reader :=
  match r.next with
  | (.error e, r) => (.error (.messageTooLarge e.size e.limit), r)
  | (.ok none, r) => (.ok none, r)
  | (.ok (some payload), r) => ((PackStream.decode payload).map some |>.mapError .packStream, r)

/-- The answer that a value is. -/
def responseOf (v : Value) : Except Error Response :=
  match v.asStruct? with
  | some s => (Response.ofStruct s).mapError .packStream
  | none => .error (.protocol ("Expected message structure, received " ++ v.kindName))

/-- The next message, as an answer. -/
def nextResponse (r : Chunk.Reader) : Except Error (Option Response) × Chunk.Reader :=
  match nextValue r with
  | (.error e, r) => (.error e, r)
  | (.ok none, r) => (.ok none, r)
  | (.ok (some v), r) => ((responseOf v).map some, r)

end BoltClient.Wire
