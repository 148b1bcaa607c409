import BoltClient.Chunk.Buffer
import BoltClient.Proofs.Chunk.Joining

/-!
Chunks written in place. A buffer of which only the place of the open header is kept does at every call what a writer
does that keeps the open chunk apart, so no size and no place is ever wrong: a chunk that is open has room left, and
its header stands where it is looked for.
-/

namespace BoltClient.Chunk

namespace Writer

variable {w : Writer} {data : List UInt8}

theorem push_of_lt {b : UInt8} (h : w.opened.size + 1 < w.limit) :
    (w.push b).closed = w.closed ∧ (w.push b).opened = w.opened.push b := by
  rw [push, dif_pos h]
  exact ⟨rfl, rfl⟩

theorem push_of_not_lt {b : UInt8} (h : ¬w.opened.size + 1 < w.limit) :
    (w.push b).closed = w.closed ++ chunk (w.opened.push b) ∧ (w.push b).opened = #[] := by
  rw [push, dif_neg h]
  exact ⟨rfl, rfl⟩

/-- Data for which the open chunk has more than enough room only makes it longer. -/
theorem write_of_lt (h : w.opened.size + data.length < w.limit) :
    (w.write data).closed = w.closed ∧ (w.write data).opened = w.opened ++ data := by
  induction data generalizing w with
  | nil => exact ⟨rfl, by simp [write]⟩
  | cons b data ih =>
    rw [List.length_cons] at h
    obtain ⟨hclosed, hopened⟩ := push_of_lt (w := w) (b := b) (by omega)
    have hroom : (w.push b).opened.size + data.length < (w.push b).limit := by
      rw [hopened, limit_push, Array.size_push]
      omega
    obtain ⟨hclosed', hopened'⟩ := ih hroom
    refine ⟨hclosed'.trans hclosed, hopened'.trans ?_⟩
    rw [hopened]
    exact Array.ext' (by simp)

/-- Data that fills the open chunk closes it. -/
theorem write_of_eq (h : w.opened.size + data.length = w.limit) :
    (w.write data).closed = w.closed ++ chunk (w.opened ++ data) ∧ (w.write data).opened = #[] := by
  have hopen := w.opened_lt
  -- all data but the last byte leaves the chunk open
  obtain ⟨front, last, hdata⟩ := (List.eq_nil_or_concat data).resolve_left (by
    rintro rfl
    exact absurd h (Nat.ne_of_lt hopen))
  rw [List.concat_eq_append] at hdata
  subst hdata
  rw [List.length_append, List.length_singleton] at h
  have hfront : w.opened.size + front.length < w.limit := by omega
  obtain ⟨hclosed, hopened⟩ := write_of_lt hfront
  have hfull : ¬(w.write front).opened.size + 1 < (w.write front).limit := by
    rw [hopened, limit_write, size_append_content]
    omega
  obtain ⟨hclosed', hopened'⟩ := push_of_not_lt (b := last) hfull
  have hpushed : (w.write front).opened.push last = w.opened ++ (front ++ [last]) := by
    rw [hopened]
    exact Array.ext' (by simp)
  rw [write_append]
  refine ⟨hclosed'.trans ?_, hopened'⟩
  rw [hclosed, hpushed]

def buffer (w : Writer) : Buffer := ⟨w.limit, w.bytes, if w.opened.isEmpty then none else some w.closed.size⟩

/-- The complete chunks of a writer and then an open one. -/
def started (w : Writer) (content : List UInt8) : Buffer :=
  ⟨w.limit, w.closed.toList ++ frame content, some w.closed.size⟩

/-- The header in front of the open chunk, also where the chunk has no content yet. -/
theorem openChunk_buffer (w : Writer) : w.buffer.openChunk = (w.closed.size, w.started w.opened.toList) := by
  rcases Nat.eq_zero_or_pos w.opened.size with hzero | hpos
  · have hnone : w.opened = #[] := Array.eq_empty_of_size_eq_zero hzero
    simp [buffer, started, Buffer.openChunk, bytes, chunk, frame, hnone, Bytes.ofNat]
  · have hsome : w.opened.isEmpty = false := by simpa using Nat.pos_iff_ne_zero.mp hpos
    rw [buffer, bytes, chunk_of_pos hpos, hsome]
    rfl

/-- The buffer after data that does not go beyond the open chunk. -/
theorem buffer_write (h : 0 < data.length) (hroom : w.opened.size + data.length ≤ w.limit) :
    (w.write data).buffer = { w.started (w.opened.toList ++ data) with
      header? := if w.opened.size + data.length = w.limit then none else some w.closed.size } := by
  have hpos : 0 < (w.opened ++ data).size := by
    rw [size_append_content]
    omega
  have hchunk : chunk (w.opened ++ data) = frame (w.opened.toList ++ data) := by
    rw [chunk_of_pos hpos, Array.toList_appendList]
  rcases Nat.lt_or_eq_of_le hroom with hless | hfull
  · obtain ⟨hclosed, hopened⟩ := write_of_lt hless
    have hsome : (w.opened ++ data).isEmpty = false := by simpa using Nat.pos_iff_ne_zero.mp hpos
    rw [buffer, bytes, hclosed, hopened, hchunk, hsome, limit_write, if_neg (Nat.ne_of_lt hless)]
    rfl
  · obtain ⟨hclosed, hopened⟩ := write_of_eq hfull
    rw [buffer, bytes, hclosed, hopened, limit_write, if_pos hfull, Array.toList_appendList, hchunk]
    simp [started, chunk]

end Writer

namespace Buffer

variable {front header content : List UInt8} {limit : Nat} {header? : Option Nat}

theorem minus?_of_le {a b : Nat} (h : b ≤ a) : minus? a b = some (a - b) := if_pos h

theorem filled?_header (hheader : header.length = 2) :
    filled? ⟨limit, front ++ (header ++ content), header?⟩ front.length = some content.length := by
  have hall : (front ++ (header ++ content)).length = front.length + (2 + content.length) := by
    rw [List.length_append, List.length_append, hheader]
  unfold filled?
  dsimp only
  rw [hall, minus?_of_le (Nat.le_add_right _ _), Nat.add_sub_cancel_left, Option.bind_eq_bind, Option.bind_some,
    minus?_of_le (Nat.le_add_right _ _), Nat.add_sub_cancel_left]

/-- A header that is written anew tells the length of what stands behind it. -/
theorem patch?_header (hheader : header.length = 2) (hcontent : content.length < 0x10000) :
    patch? ⟨limit, front ++ (header ++ content), header?⟩ front.length
      = some ⟨limit, front ++ frame content, header?⟩ := by
  have hplace : front.length + (Bytes.ofNat 2 content.length).length ≤ (front ++ (header ++ content)).length := by
    rw [Bytes.length_ofNat, List.length_append, List.length_append, hheader]
    omega
  have hrest : (front ++ (header ++ content)).drop (front.length + 2) = content := by
    rw [← List.append_assoc]
    exact List.drop_left' (by rw [List.length_append, hheader])
  have hover : overwrite? (front ++ (header ++ content)) front.length (Bytes.ofNat 2 content.length)
      = some (front ++ frame content) := by
    rw [overwrite?, if_pos hplace, List.take_left, Bytes.length_ofNat, hrest, frame, List.append_assoc]
  unfold patch?
  rw [filled?_header hheader, Option.bind_eq_bind, Option.bind_some, if_pos hcontent]
  dsimp only
  rw [hover]
  rfl

theorem filled?_started (w : Writer) (content : List UInt8) :
    (w.started content).filled? w.closed.size = some content.length :=
  filled?_header (Bytes.length_ofNat 2 content.length)

theorem patch?_started (w : Writer) {content data : List UInt8} (h : (content ++ data).length < 0x10000) :
    patch? { w.started content with bytes := (w.started content).bytes ++ data } w.closed.size
      = some (w.started (content ++ data)) := by
  have hrow : (w.started content).bytes ++ data
      = w.closed.toList ++ (Bytes.ofNat 2 content.length ++ (content ++ data)) := by
    rw [Writer.started, frame, List.append_assoc, List.append_assoc]
  rw [hrow]
  exact patch?_header (Bytes.length_ofNat 2 content.length) h

end Buffer

namespace Writer

variable {w : Writer} {data : List UInt8}

theorem fill?_buffer {n : Nat} (hn : min (w.limit - w.opened.size) data.length = n) (hpos : 0 < n) :
    w.buffer.fill? data = some ((w.write (data.take n)).buffer, data.drop n) := by
  have hopen := w.opened_lt
  have hlimit := w.limit_lt
  have htake : (data.take n).length = n := by
    rw [List.length_take]
    omega
  have hcontent : (w.opened.toList ++ data.take n).length < 0x10000 := by
    rw [List.length_append, htake, Array.length_toList]
    omega
  have hsome : 0 < (data.take n).length := by omega
  have hfits : w.opened.size + (data.take n).length ≤ w.limit := by omega
  have hroom : Buffer.minus? (w.started w.opened.toList).limit w.opened.toList.length
      = some (w.limit - w.opened.size) := Buffer.minus?_of_le (Nat.le_of_lt hopen)
  unfold Buffer.fill?
  rw [openChunk_buffer]
  dsimp only
  rw [Buffer.filled?_started, Option.bind_eq_bind, Option.bind_some, hroom, Option.bind_eq_bind, Option.bind_some, hn,
    Buffer.patch?_started w hcontent, buffer_write hsome hfits, htake]
  rfl

/-- Writing in place gives what the writer has, and there is a result: while a chunk is open it has room, so each time
there is less data left. -/
theorem write?_buffer (w : Writer) (data : List UInt8) : w.buffer.write? data = some (w.write data).buffer := by
  induction hlength : data.length using Nat.strongRecOn generalizing w data with
  | ind length ih =>
    subst hlength
    rw [Buffer.write?]
    split
    · next hempty =>
      rw [List.isEmpty_iff.mp hempty]
      rfl
    · next hsome =>
      have hdata : 0 < data.length := List.length_pos_iff.mpr fun hnil => hsome (List.isEmpty_iff.mpr hnil)
      have hopen := w.opened_lt
      generalize hn : min (w.limit - w.opened.size) data.length = n
      have hshorter : (data.drop n).length < data.length := by
        rw [List.length_drop]
        omega
      rw [fill?_buffer hn (by omega)]
      dsimp only
      rw [if_pos hshorter, ih _ hshorter _ _ rfl, ← write_append, List.take_append_drop]

end Writer

inductive Call where
  | write (data : List UInt8)
  | endMessage
  | take
  | clear

def Writer.call (w : Writer) : Call → Writer
  | .write data => w.write data
  | .endMessage => w.endMessage
  | .take => w.take.2
  | .clear => w.clear

def Writer.run (w : Writer) (calls : List Call) : Writer := calls.foldl Writer.call w

def Buffer.call? (b : Buffer) : Call → Option Buffer
  | .write data => b.write? data
  | .endMessage => some b.endMessage
  | .take => some b.take.2
  | .clear => some b.clear

def Buffer.run? (b : Buffer) (calls : List Call) : Option Buffer := calls.foldlM Buffer.call? b

/-- The messages that are held after a call, and what there is of one that is not ended. What is taken or dropped is
held no longer. -/
def Call.held (before : List (List UInt8) × List UInt8) : Call → List (List UInt8) × List UInt8
  | write data => (before.1, before.2 ++ data)
  | endMessage => (before.1 ++ [before.2], [])
  | take => ([], [])
  | clear => ([], [])

namespace Writer

theorem call?_buffer (w : Writer) (call : Call) : w.buffer.call? call = some (w.call call).buffer := by
  cases call with
  | write data => exact write?_buffer w data
  | endMessage =>
    have hbytes : w.endMessage.bytes = w.bytes ++ terminator := by simp [endMessage, closeChunk, bytes, chunk]
    have hended : w.endMessage.buffer = ⟨w.limit, w.bytes ++ terminator, none⟩ := by
      rw [← hbytes]
      rfl
    rw [call, hended]
    rfl
  | take => rfl
  | clear => rfl

theorem run?_buffer (w : Writer) (calls : List Call) : w.buffer.run? calls = some (w.run calls).buffer := by
  induction calls generalizing w with
  | nil => rfl
  | cons call calls ih =>
    rw [Buffer.run?, List.foldlM_cons, call?_buffer]
    exact ih (w.call call)

theorem limit_call (w : Writer) (call : Call) : (w.call call).limit = w.limit := by
  cases call with
  | write data => exact limit_write w data
  | endMessage => rfl
  | take => rfl
  | clear => rfl

theorem limit_run (w : Writer) (calls : List Call) : (w.run calls).limit = w.limit := by
  induction calls generalizing w with
  | nil => rfl
  | cons call calls ih => exact (ih (w.call call)).trans (limit_call w call)

theorem Holds.run {w : Writer} {before : List (List UInt8) × List UInt8} (h : w.Holds [] before.1 before.2)
    (calls : List Call) :
    (w.run calls).Holds [] (calls.foldl Call.held before).1 (calls.foldl Call.held before).2 := by
  induction calls generalizing w before with
  | nil => exact h
  | cons call calls ih =>
    have hcall : (w.call call).Holds [] (call.held before).1 (call.held before).2 := by
      cases call with
      | write data => exact h.write data
      | endMessage => exact h.endMessage
      | take => exact ⟨[], .nothing, rfl⟩
      | clear => exact ⟨[], .nothing, rfl⟩
    exact ih hcall

theorem run_writes (w : Writer) (pieces : List (List UInt8)) :
    w.run (pieces.map .write) = w.write pieces.flatten := by
  induction pieces generalizing w with
  | nil => rfl
  | cons piece pieces ih =>
    rw [List.flatten_cons, write_append]
    exact ih (w.write piece)

/-- However a message is cut into writes, it leaves the writer in the same state. -/
theorem run_message (w : Writer) (pieces : List (List UInt8)) :
    w.run (pieces.map .write ++ [.endMessage]) = (w.write pieces.flatten).endMessage := by
  rw [run, List.foldl_append]
  change (w.run (pieces.map .write)).endMessage = _
  rw [run_writes]

/-- Where no chunk is open, a message adds the chunks it would have in a buffer of its own. -/
theorem bytes_run_message (w : Writer) (hnone : w.buffer.header? = none) (pieces : List (List UInt8)) :
    (w.run (pieces.map .write ++ [.endMessage])).bytes = w.bytes ++ ofPayload pieces.flatten w.limit := by
  have hbetween : w.Between := by
    unfold buffer at hnone
    split at hnone
    · next hempty => exact Array.isEmpty_iff.mp hempty
    · cases hnone
  rw [run_message, hbetween.bytes_message]

end Writer

/-- Bytes are headers of two bytes, each in front of as many bytes as it tells, and no more than `most`. A header that
tells of none is a terminator. -/
def Framed (most : Nat) (bytes : List UInt8) : Prop :=
  ∃ chunks : List (List UInt8 × List UInt8), bytes = chunks.flatMap (fun c => c.1 ++ c.2) ∧
    ∀ c ∈ chunks, c.1.length = 2 ∧ Bytes.toNat c.1 = c.2.length ∧ c.2.length ≤ most

theorem Framed.concat {most : Nat} {bytes content : List UInt8} (h : Framed most bytes) (hmost : most < 0x10000)
    (hcontent : content.length ≤ most) : Framed most (bytes ++ frame content) := by
  obtain ⟨chunks, rfl, hall⟩ := h
  refine ⟨chunks ++ [(Bytes.ofNat 2 content.length, content)], by simp [frame], fun c hc => ?_⟩
  rcases List.mem_append.mp hc with hc | hc
  · exact hall c hc
  · rw [List.mem_singleton.mp hc]
    exact ⟨Bytes.length_ofNat _ _, Bytes.toNat_ofNat_of_lt (Nat.lt_of_le_of_lt hcontent hmost), hcontent⟩

theorem Carries.framed {most : Nat} {bytes part : List UInt8} {messages : List (List UInt8)}
    (h : Carries most bytes messages part) (hmost : most < 0x10000) : Framed most bytes := by
  induction h with
  | nothing => exact ⟨[], rfl, nofun⟩
  | chunk content _ _ short ih => exact ih.concat hmost short
  | ended _ ih =>
    have hnone : ([] : List UInt8).length ≤ most := Nat.zero_le most
    exact ih.concat hmost hnone

/-- A buffer between two calls: all chunks are complete, and if one is open it is the last, its header is where it is
looked for, and it has content and room for more. -/
structure Buffer.Sound (b : Buffer) : Prop where
  framed : Framed b.limit b.bytes
  opened : ∀ header, b.header? = some header → ∃ front content, front.length = header ∧
    b.bytes = front ++ frame content ∧ Framed b.limit front ∧ 0 < content.length ∧ content.length < b.limit

theorem Writer.Holds.sound {w : Writer} {messages : List (List UInt8)} {part : List UInt8}
    (h : w.Holds [] messages part) : w.buffer.Sound where
  framed := h.carries_bytes.framed w.limit_lt
  opened := by
    intro header hheader
    obtain ⟨sent, hclosed, _⟩ := h
    rw [buffer] at hheader
    split at hheader
    · cases hheader
    · next hsome =>
      cases hheader
      have hpos : 0 < w.opened.size := Nat.pos_of_ne_zero (by simpa using hsome)
      refine ⟨w.closed.toList, w.opened.toList, rfl, ?_, hclosed.framed w.limit_lt, hpos, w.opened_lt⟩
      rw [← chunk_of_pos hpos]
      rfl

/-- Whatever is called in whatever order, there is a result: nothing that is computed is below zero or too large for
its place. It is what the writer has, its chunks are whole and carry what was written since the last time that bytes
were taken or dropped, and what comes of a message is the same however it is cut into writes. -/
theorem chunks_in_place (size : Nat) (calls : List Call) :
    ∃ b, (Buffer.ofLimit size).run? calls = some b ∧ b = ((Writer.ofLimit size).run calls).buffer ∧
      b.limit = min (max size 1) 0xFFFF ∧ b.Sound ∧
      Carries b.limit b.bytes (calls.foldl Call.held ([], [])).1 (calls.foldl Call.held ([], [])).2 ∧
      ∀ pieces : List (List UInt8), ∃ b', b.run? (pieces.map .write ++ [.endMessage]) = some b' ∧
        b.run? [.write pieces.flatten, .endMessage] = some b' ∧
        (b.header? = none → b'.bytes = b.bytes ++ ofPayload pieces.flatten b.limit) := by
  have hholds : ((Writer.ofLimit size).run calls).Holds [] (calls.foldl Call.held ([], [])).1
      (calls.foldl Call.held ([], [])).2 := Writer.Holds.run (Writer.holds_ofLimit size) calls
  refine ⟨_, Writer.run?_buffer (Writer.ofLimit size) calls, rfl, Writer.limit_run _ calls, hholds.sound,
    hholds.carries_bytes, fun pieces => ?_⟩
  refine ⟨_, Writer.run?_buffer _ _, ?_, fun hnone => Writer.bytes_run_message _ hnone pieces⟩
  rw [Writer.run_message]
  exact Writer.run?_buffer _ [.write pieces.flatten, .endMessage]

/-- Two bytes in a chunk: a message that is taken in its middle, and then one in three pieces. -/
theorem pieces_in_place :
    ∃ b b', (Buffer.ofLimit 2).run? [.write [1], .take, .write [2, 3, 4], .endMessage] = some b ∧
      b.header? = none ∧ b.bytes = [0, 2, 2, 3, 0, 1, 4, 0, 0] ∧
      b.run? [.write [5], .write [], .write [6, 7], .endMessage] = some b' ∧
      b'.bytes = [0, 2, 2, 3, 0, 1, 4, 0, 0, 0, 2, 5, 6, 0, 1, 7, 0, 0] := by
  obtain ⟨b, hrun, rfl, -, -, -, hpieces⟩ := chunks_in_place 2 [.write [1], .take, .write [2, 3, 4], .endMessage]
  obtain ⟨b', hrun', -, hbytes⟩ := hpieces [[5], [], [6, 7]]
  exact ⟨_, b', hrun, rfl, rfl, hrun', hbytes rfl⟩

end BoltClient.Chunk
