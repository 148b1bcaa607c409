import BoltClient.Chunk.Writer

namespace BoltClient.Chunk

def frame (content : List UInt8) : List UInt8 := Bytes.ofNat 2 content.length ++ content

/-- The bytes are whole chunks of at most `most` bytes. They carry `messages`, and then `part` of one that
is not ended. -/
inductive Carries (most : Nat) : List UInt8 → List (List UInt8) → List UInt8 → Prop
  | nothing : Carries most [] [] []
  | chunk {bytes messages part} (content : List UInt8) (before : Carries most bytes messages part)
      (pos : 0 < content.length) (short : content.length ≤ most) :
      Carries most (bytes ++ frame content) messages (part ++ content)
  | ended {bytes messages part} (before : Carries most bytes messages part) :
      Carries most (bytes ++ terminator) (messages ++ [part]) []

theorem size_append_content (message : Array UInt8) (content : List UInt8) :
    (message ++ content).size = message.size + content.length := by
  rw [← Array.length_toList, Array.toList_appendList, List.length_append, Array.length_toList]

namespace Writer

variable {w : Writer} {taken part : List UInt8} {messages : List (List UInt8)}

theorem chunk_of_pos {content : Array UInt8} (h : 0 < content.size) :
    chunk content = frame content.toList := by
  have hfull : content.isEmpty = false := by simpa using Nat.pos_iff_ne_zero.mp h
  simp [chunk, frame, hfull]

/-- Closing a chunk adds its content to what is carried, also where there is none. -/
theorem carries_chunk {most : Nat} (h : Carries most taken messages part) {content : Array UInt8}
    (short : content.size ≤ most) :
    Carries most (taken ++ chunk content) messages (part ++ content.toList) := by
  rcases Nat.eq_zero_or_pos content.size with hzero | hpos
  · have hnone : content = #[] := Array.eq_empty_of_size_eq_zero hzero
    simpa [hnone, chunk] using h
  · rw [chunk_of_pos hpos]
    exact h.chunk content.toList (by simpa using hpos) (by simpa using short)

/-- With the bytes that were `taken` before, a writer carries `messages`, and it is in the middle of one of
which it has `part`. The end of the part is in the open chunk. -/
def Holds (w : Writer) (taken : List UInt8) (messages : List (List UInt8)) (part : List UInt8) : Prop :=
  ∃ sent, Carries w.limit (taken ++ w.closed.toList) messages sent ∧ part = sent ++ w.opened.toList

theorem holds_ofLimit (size : Nat) : (ofLimit size).Holds [] [] [] :=
  ⟨[], .nothing, rfl⟩

@[simp] theorem limit_push (w : Writer) (b : UInt8) : (w.push b).limit = w.limit := by
  rw [push]
  split <;> rfl

@[simp] theorem limit_write (w : Writer) (data : List UInt8) : (w.write data).limit = w.limit := by
  induction data generalizing w with
  | nil => rfl
  | cons b data ih => exact (ih (w.push b)).trans (limit_push w b)

@[simp] theorem limit_endMessage (w : Writer) : w.endMessage.limit = w.limit := rfl

@[simp] theorem limit_take (w : Writer) : w.take.2.limit = w.limit := rfl

theorem Holds.push (h : w.Holds taken messages part) (b : UInt8) :
    (w.push b).Holds taken messages (part ++ [b]) := by
  obtain ⟨sent, hcarries, rfl⟩ := h
  rw [Holds, limit_push, Writer.push]
  split
  · exact ⟨sent, hcarries, by simp⟩
  · have hfull : (w.opened.push b).size ≤ w.limit := by
      rw [Array.size_push]
      exact w.opened_lt
    have hclosed := carries_chunk hcarries hfull
    exact ⟨_, by simpa using hclosed, by simp⟩

theorem Holds.write (h : w.Holds taken messages part) (data : List UInt8) :
    (w.write data).Holds taken messages (part ++ data) := by
  induction data generalizing w part with
  | nil => simpa [Writer.write] using h
  | cons b data ih => simpa [Writer.write] using ih (h.push b)

theorem Holds.carries_bytes (h : w.Holds taken messages part) :
    Carries w.limit (taken ++ w.bytes) messages part := by
  obtain ⟨sent, hcarries, rfl⟩ := h
  simpa [bytes] using carries_chunk hcarries (Nat.le_of_lt w.opened_lt)

theorem Holds.endMessage (h : w.Holds taken messages part) :
    w.endMessage.Holds taken (messages ++ [part]) [] :=
  ⟨[], by simpa [Writer.endMessage, closeChunk, bytes] using h.carries_bytes.ended, rfl⟩

theorem Holds.take (h : w.Holds taken messages part) :
    w.take.2.Holds (taken ++ w.take.1) messages part :=
  ⟨part, by simpa [Writer.take, clear] using h.carries_bytes, by simp [Writer.take, clear]⟩

inductive Use
  | write (data : List UInt8)
  | endMessage
  | take

def takenBy (w : Writer) : List Use → List UInt8
  | [] => []
  | .write data :: uses => (w.write data).takenBy uses
  | .endMessage :: uses => w.endMessage.takenBy uses
  | .take :: uses => w.take.1 ++ w.take.2.takenBy uses

/-- The messages that uses end when `part` of one is already written, and what they leave of the last. -/
def said (part : List UInt8) : List Use → List (List UInt8) × List UInt8
  | [] => ([], part)
  | .write data :: uses => said (part ++ data) uses
  | .endMessage :: uses => (part :: (said [] uses).1, (said [] uses).2)
  | .take :: uses => said part uses

/-- Taken to the end, the bytes carry what was said. -/
theorem Holds.carries_takenBy (h : w.Holds taken messages part) (uses : List Use) :
    Carries w.limit (taken ++ w.takenBy (uses ++ [.take])) (messages ++ (said part uses).1)
      (said part uses).2 := by
  induction uses generalizing w taken messages part with
  | nil => simpa [takenBy, said, Writer.take] using h.carries_bytes
  | cons use uses ih =>
    cases use with
    | write data => simpa [takenBy, said] using ih (h.write data)
    | endMessage => simpa [takenBy, said] using ih h.endMessage
    | take => simpa [takenBy, said] using ih h.take

end Writer

theorem carries_ofPayload (payload : List UInt8) (size : Nat) :
    Carries (Writer.ofLimit size).limit (ofPayload payload size) [payload] [] := by
  have hended := ((Writer.holds_ofLimit size).write payload).endMessage.carries_bytes
  simpa [ofPayload] using hended

end BoltClient.Chunk
