import BoltClient.Proofs.Chunk.Framing

namespace BoltClient.Chunk

namespace Writer

variable {w : Writer} {payload : List UInt8}

/-- The last message is ended, or taken out, and nothing of another is written. -/
def Between (w : Writer) : Prop := w.opened = #[]

theorem append_chunks (front closed : Array UInt8) (bytes : List UInt8) :
    front ++ closed ++ bytes = front ++ (closed ++ bytes) := Array.ext' (by simp)

def behind (front : Array UInt8) (w : Writer) : Writer := { w with closed := front ++ w.closed }

theorem bytes_behind (front : Array UInt8) (w : Writer) : (w.behind front).bytes = front.toList ++ w.bytes := by
  simp [behind, bytes]

theorem push_behind (front : Array UInt8) (w : Writer) (b : UInt8) :
    (w.behind front).push b = (w.push b).behind front := by
  unfold push behind
  dsimp only
  split
  · rfl
  · rw [append_chunks]

theorem write_behind (front : Array UInt8) (w : Writer) (payload : List UInt8) :
    (w.behind front).write payload = (w.write payload).behind front := by
  induction payload generalizing w with
  | nil => rfl
  | cons b payload ih =>
    have hnext := ih (w.push b)
    rw [← push_behind] at hnext
    exact hnext

theorem endMessage_behind (front : Array UInt8) (w : Writer) :
    (w.behind front).endMessage = w.endMessage.behind front := by
  unfold endMessage closeChunk behind
  dsimp only
  rw [append_chunks, append_chunks]

/-- Between two messages only the bytes ahead tell a writer from a new one. -/
theorem Between.eq_behind (h : w.Between) : w = (ofLimit w.limit).behind w.closed := by
  have hlimit : (ofLimit w.limit).limit = w.limit := by
    have hpos := w.limit_pos
    have hlt := w.limit_lt
    show min (max w.limit 1) 0xFFFF = w.limit
    omega
  obtain ⟨limit, _, _, closed, opened, _⟩ := w
  obtain rfl : opened = #[] := h
  unfold behind
  congr 1
  exact hlimit.symm

/-- A message adds the chunks it would have in a writer of its own. -/
theorem Between.bytes_message (h : w.Between) (payload : List UInt8) :
    (w.write payload).endMessage.bytes = w.bytes ++ ofPayload payload w.limit := by
  have hnone : (ofLimit w.limit).bytes = [] := rfl
  have hbytes : w.bytes = w.closed.toList := by
    rw [h.eq_behind, bytes_behind, hnone, List.append_nil]
    rw [← h.eq_behind]
  calc (w.write payload).endMessage.bytes
      = (((ofLimit w.limit).behind w.closed).write payload).endMessage.bytes := by rw [← h.eq_behind]
    _ = w.closed.toList ++ ((ofLimit w.limit).write payload).endMessage.bytes := by
      rw [write_behind, endMessage_behind, bytes_behind]
    _ = w.bytes ++ ofPayload payload w.limit := by rw [hbytes, ofPayload]

theorem between_endMessage (w : Writer) : w.endMessage.Between := rfl

theorem between_take (w : Writer) : w.take.2.Between := rfl

end Writer
end BoltClient.Chunk
