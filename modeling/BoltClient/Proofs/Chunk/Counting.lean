import BoltClient.Proofs.Chunk.Reassembly

namespace BoltClient.Chunk

/-- How many messages are complete in the bytes. No message in them is too large to be counted. -/
def messageCount (bytes : List UInt8) : Nat :=
  ((Reader.ofLimit bytes.length).feed bytes).drain.messages.length

variable {most more : Nat} {bytes later part last : List UInt8} {messages others : List (List UInt8)}

theorem Carries.mono (h : Carries most bytes messages part) (hmore : most ≤ more) :
    Carries more bytes messages part := by
  induction h with
  | nothing => exact .nothing
  | chunk content _ pos short ih => exact ih.chunk content pos (Nat.le_trans short hmore)
  | ended _ ih => exact ih.ended

/-- Where nothing is left of a message, other bytes can follow. -/
theorem Carries.append (h : Carries most bytes messages []) (hlater : Carries most later others last) :
    Carries most (bytes ++ later) (messages ++ others) last := by
  induction hlater with
  | nothing => simpa using h
  | chunk content _ pos short ih =>
    rw [← List.append_assoc]
    exact ih.chunk content pos short
  | ended _ ih =>
    rw [← List.append_assoc, ← List.append_assoc]
    exact ih.ended

/-- Nothing that is carried is longer than what carries it. -/
theorem Carries.length_le (h : Carries most bytes messages part) :
    (∀ m ∈ messages, m.length ≤ bytes.length) ∧ part.length ≤ bytes.length := by
  induction h with
  | nothing => exact ⟨nofun, Nat.le_refl 0⟩
  | @chunk bytes messages part content _ _ _ ih =>
    have hframe : content.length ≤ (frame content).length := by
      rw [frame, List.length_append]
      exact Nat.le_add_left _ _
    refine ⟨fun m hm => ?_, ?_⟩
    · have hbefore := ih.1 m hm
      rw [List.length_append]
      omega
    · rw [List.length_append, List.length_append]
      exact Nat.add_le_add ih.2 hframe
  | @ended bytes messages part _ ih =>
    have hlonger : bytes.length ≤ (bytes ++ terminator).length := by
      rw [List.length_append]
      exact Nat.le_add_right _ _
    refine ⟨fun m hm => ?_, Nat.zero_le _⟩
    rcases List.mem_append.mp hm with hm | hm
    · exact Nat.le_trans (ih.1 m hm) hlonger
    · obtain rfl := List.mem_singleton.mp hm
      exact Nat.le_trans ih.2 hlonger

theorem Carries.messageCount_eq (h : Carries most bytes messages []) (hmost : most < 0x10000)
    (hfull : ∀ m ∈ messages, m ≠ []) : messageCount bytes = messages.length := by
  have hall : messages.filter (· ≠ []) = messages :=
    List.filter_eq_self.mpr fun m hm => decide_eq_true (hfull m hm)
  rw [messageCount, Reader.drain_carries h hmost bytes.length h.length_le.1 (Nat.zero_le _), hall]

namespace Writer

variable {w : Writer} {payload : List UInt8}

/-- A writer without bytes carries nothing, and only such a one. -/
theorem holds_nothing_iff : w.Holds [] [] [] ↔ w.size = 0 := by
  constructor
  · intro h
    have hcarries := h.carries_bytes
    rw [List.nil_append] at hcarries
    have hnone : ∀ {bytes messages part}, Carries w.limit bytes messages part → messages = [] → part = [] →
        bytes = [] := by
      intro bytes messages part h hmessages hpart
      cases h with
      | nothing => rfl
      | chunk content _ pos _ =>
        obtain rfl := (List.append_eq_nil_iff.mp hpart).2
        cases pos
      | ended => exact absurd (List.append_eq_nil_iff.mp hmessages).2 nofun
    rw [← length_bytes, hnone hcarries rfl rfl]
    rfl
  · intro h
    unfold size at h
    have hclosed : w.closed = #[] := Array.eq_empty_of_size_eq_zero (by omega)
    have hopened : w.opened = #[] := by
      split at h
      · next hempty => exact Array.isEmpty_iff.mp hempty
      · omega
    exact ⟨[], by rw [hclosed]; exact .nothing, by rw [hopened]; rfl⟩

theorem Holds.message (h : w.Holds [] messages []) (payload : List UInt8) :
    ((w.write payload).endMessage).Holds [] (messages ++ [payload]) [] := (h.write payload).endMessage

/-- What is taken out of a writer carries what it held. -/
theorem Holds.carries_take (h : w.Holds [] messages []) :
    Carries 0xFFFF w.take.1 messages [] := h.carries_bytes.mono (Nat.lt_succ_iff.mp w.limit_lt)

theorem size_take (w : Writer) : w.take.2.size = 0 := rfl

theorem size_endMessage (w : Writer) : w.endMessage.size ≠ 0 := by
  simp [endMessage, size, terminator]

end Writer
end BoltClient.Chunk
