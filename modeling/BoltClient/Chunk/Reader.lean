import BoltClient.Bytes
import BoltClient.PackStream.Decoder

namespace BoltClient.Chunk

open PackStream.Reader (split)

/-- The greatest message that is put together unless another limit is asked for. -/
def defaultMessageLimit : Nat := 16 * 1024 * 1024

/-- A message grows beyond the limit. -/
structure TooLarge where
  size : Nat
  limit : Nat
  deriving DecidableEq, Repr

/-- A complete chunk at the front of bytes, and the bytes behind it. -/
def first? : List UInt8 → Option (List UInt8 × List UInt8)
  | high :: low :: rest => split [] (Bytes.toNat [high, low]) rest
  | _ => none

theorem first?_length {bytes content rest : List UInt8} (h : first? bytes = some (content, rest)) :
    rest.length < bytes.length := by
  unfold first? at h
  split at h
  · next high low tail =>
    rw [PackStream.Reader.split_eq] at h
    split at h
    · simp only [Option.some.injEq, Prod.mk.injEq] at h
      rw [← h.2, List.length_drop, List.length_cons, List.length_cons]
      omega
    · cases h
  · cases h

/-- Bytes that came in and are not looked at yet, and the content of the message so far. -/
structure Reader where
  limit : Nat
  source : List UInt8
  message : Array UInt8

namespace Reader

def ofLimit (limit : Nat) : Reader := ⟨limit, [], #[]⟩

instance : Inhabited Reader := ⟨ofLimit defaultMessageLimit⟩

def feed (r : Reader) (bytes : List UInt8) : Reader := { r with source := r.source ++ bytes }

/-- Whether part of a message has been taken from the source. -/
def inMessage (r : Reader) : Bool := !r.message.isEmpty

/-- Goes through the complete chunks of `source` up to the end of a message. A chunk that would make
the message too large stays where it is. -/
def collect (limit : Nat) (message : Array UInt8) (source : List UInt8) :
    Except TooLarge (Option (List UInt8)) × Reader :=
  match _ : first? source with
  | none => (.ok none, ⟨limit, source, message⟩)
  | some (content, rest) =>
    if content.isEmpty then
      if message.isEmpty then collect limit message rest
      else (.ok (some message.toList), ⟨limit, rest, #[]⟩)
    else if limit < message.size + content.length then
      (.error ⟨message.size + content.length, limit⟩, ⟨limit, source, message⟩)
    else collect limit (message ++ content) rest
  termination_by source.length
  decreasing_by all_goals exact first?_length (by assumption)

/-- The next message, if it is complete. -/
def next (r : Reader) : Except TooLarge (Option (List UInt8)) × Reader :=
  collect r.limit r.message r.source

end Reader

/-- Goes through the complete chunks up to the end of a message. -/
def payloadFrom (message : Array UInt8) (framed : List UInt8) : Option (List UInt8) :=
  match _ : first? framed with
  | none => none
  | some (content, rest) =>
    if content.isEmpty then
      if message.isEmpty then payloadFrom message rest else some message.toList
    else payloadFrom (message ++ content) rest
  termination_by framed.length
  decreasing_by all_goals exact first?_length (by assumption)

/-- The content of the first message, if it is complete. -/
def payload? (framed : List UInt8) : Option (List UInt8) := payloadFrom #[] framed

end BoltClient.Chunk
