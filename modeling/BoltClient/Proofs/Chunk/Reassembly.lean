import BoltClient.Proofs.Chunk.Framing
import BoltClient.Proofs.Wire.Stream

namespace BoltClient.Chunk

theorem first?_frame {content : List UInt8} (h : content.length < 0x10000) :
    first? (frame content) = some (content, []) := by
  have hsize : Bytes.toNat (Bytes.ofNat 2 content.length) = content.length :=
    Bytes.toNat_ofNat_of_lt h
  simp only [Bytes.ofNat] at hsize
  simp [frame, Bytes.ofNat, first?, hsize, PackStream.Reader.split_eq]

theorem first?_terminator : first? terminator = some ([], []) := by decide

namespace Reader

variable {r r' : Reader} {e : TooLarge} {m part source : List UInt8} {messages : List (List UInt8)}
  {message : Array UInt8} {limit most : Nat}

structure Drained where
  messages : List (List UInt8)
  fault : Option TooLarge
  rest : Reader

def Drained.behind (d : Drained) (messages : List (List UInt8)) : Drained :=
  { d with messages := messages ++ d.messages }

def drain (r : Reader) : Drained :=
  match _ : r.next with
  | (.ok none, r') => ⟨[], none, r'⟩
  | (.error e, r') => ⟨[], some e, r'⟩
  | (.ok (some m), r') => r'.drain.behind [m]
  termination_by r.source.length
  decreasing_by exact collect_length (by assumption)

/-- Takes in a piece and asks for messages until there is none. A fault is the end. -/
def Drained.read (d : Drained) (piece : List UInt8) : Drained :=
  if d.fault.isSome then d else (d.rest.feed piece).drain.behind d.messages

theorem drain_of_nothing (h : r.next = (.ok none, r')) : r.drain = ⟨[], none, r'⟩ := by
  rw [drain]
  split <;> simp_all

theorem drain_of_fault (h : r.next = (.error e, r')) : r.drain = ⟨[], some e, r'⟩ := by
  rw [drain]
  split <;> simp_all

theorem drain_of_message (h : r.next = (.ok (some m), r')) : r.drain = r'.drain.behind [m] := by
  rw [drain]
  split <;> simp_all

theorem collect_append_of_fault (h : collect limit message source = (.error e, r))
    (more : List UInt8) : collect limit message (source ++ more) = (.error e, r.feed more) := by
  fun_induction collect limit message source with
  | case1 => cases h
  | case2 message source content rest hfirst hempty hstart ih =>
    rw [collect_of_some (first?_append hfirst more), if_pos hempty, if_pos hstart]
    exact ih h
  | case3 => cases h
  | case4 message source content rest hfirst hempty hlarge =>
    rw [collect_of_some (first?_append hfirst more), if_neg hempty, if_pos hlarge]
    cases h
    rfl
  | case5 message source content rest hfirst hempty hfits ih =>
    rw [collect_of_some (first?_append hfirst more), if_neg hempty, if_neg hfits]
    exact ih h

theorem drain_feed_of_fault (h : r.drain.fault = some e) (more : List UInt8) :
    (r.feed more).drain.messages = r.drain.messages ∧ (r.feed more).drain.fault = some e := by
  induction r using drain.induct with
  | case1 r r' hnext => simp [drain_of_nothing hnext] at h
  | case2 r e' r' hnext =>
    have hmore : (r.feed more).next = (.error e', r'.feed more) :=
      collect_append_of_fault hnext more
    rw [drain_of_fault hnext] at h ⊢
    rw [drain_of_fault hmore]
    exact ⟨rfl, h⟩
  | case3 r m r' hnext ih =>
    have hmore : (r.feed more).next = (.ok (some m), r'.feed more) :=
      collect_append_of_message hnext more
    rw [drain_of_message hnext] at h ⊢
    rw [drain_of_message hmore]
    obtain ⟨hmessages, hfault⟩ := ih h
    exact ⟨congrArg ([m] ++ ·) hmessages, hfault⟩

theorem drain_feed (h : r.drain.fault = none) (more : List UInt8) :
    (r.feed more).drain = (r.drain.rest.feed more).drain.behind r.drain.messages := by
  induction r using drain.induct with
  | case1 r r' hnext =>
    have hmore : (r.feed more).next = (r'.feed more).next := collect_append_of_nothing hnext more
    rw [drain_of_nothing hnext, drain, hmore, drain]
    simp [Drained.behind]
  | case2 r e r' hnext => simp [drain_of_fault hnext] at h
  | case3 r m r' hnext ih =>
    have hmore : (r.feed more).next = (.ok (some m), r'.feed more) :=
      collect_append_of_message hnext more
    rw [drain_of_message hnext] at h ⊢
    rw [drain_of_message hmore, ih h]
    simp [Drained.behind]

theorem read_drain {piece : List UInt8} (h : (r.feed piece).drain.fault = none) :
    r.drain.read piece = (r.feed piece).drain := by
  cases hfault : r.drain.fault with
  | none => rw [drain_feed hfault, Drained.read, hfault, if_neg (by simp)]
  | some e =>
    have hstays := (drain_feed_of_fault hfault piece).2
    rw [h] at hstays
    cases hstays

/-- In which pieces the bytes come makes no difference. -/
theorem read_pieces {pieces : List (List UInt8)} (h : (r.feed pieces.flatten).drain.fault = none) :
    pieces.foldl Drained.read r.drain = (r.feed pieces.flatten).drain := by
  induction pieces generalizing r with
  | nil => simp [feed]
  | cons piece pieces ih =>
    rw [List.flatten_cons, ← feed_feed] at h ⊢
    have hpiece : (r.feed piece).drain.fault = none := by
      cases hfault : (r.feed piece).drain.fault with
      | none => rfl
      | some e => simpa [h] using (drain_feed_of_fault hfault pieces.flatten).2
    rw [List.foldl_cons, read_drain hpiece, ih h]

theorem next_frame {content : List UInt8} (pos : 0 < content.length)
    (short : content.length < 0x10000) (fits : message.size + content.length ≤ limit) :
    next ⟨limit, frame content, message⟩ = (.ok none, ⟨limit, [], message ++ content⟩) := by
  have hfull : ¬ content.isEmpty := by simpa using List.ne_nil_of_length_pos pos
  rw [next, collect_of_some (first?_frame short), if_neg hfull, if_neg (Nat.not_lt.mpr fits),
    collect_of_none rfl]

theorem next_terminator (limit : Nat) (part : List UInt8) :
    next ⟨limit, terminator, part.toArray⟩
      = (.ok (if part = [] then none else some part), ofLimit limit) := by
  rw [next, collect_of_some first?_terminator]
  cases part with
  | nil => exact collect_of_none rfl
  | cons b part => simp [ofLimit]

theorem drain_ofLimit (limit : Nat) : (ofLimit limit).drain = ⟨[], none, ofLimit limit⟩ :=
  drain_of_nothing (collect_of_none rfl)

theorem drain_terminator (limit : Nat) (part : List UInt8) :
    drain ⟨limit, terminator, part.toArray⟩ = ⟨[part].filter (· ≠ []), none, ofLimit limit⟩ := by
  have hnext := next_terminator limit part
  by_cases hempty : part = []
  · rw [if_pos hempty] at hnext
    rw [drain_of_nothing hnext]
    simp [hempty]
  · rw [if_neg hempty] at hnext
    simp [drain_of_message hnext, drain_ofLimit, Drained.behind, hempty]

/-- From whole chunks a reader gets the messages they carry, the empty ones apart, and keeps the part
behind them. -/
theorem drain_carries (h : Carries most source messages part) (hmost : most < 0x10000) (limit : Nat)
    (fit : ∀ m ∈ messages, m.length ≤ limit) (partFits : part.length ≤ limit) :
    ((ofLimit limit).feed source).drain
      = ⟨messages.filter (· ≠ []), none, ⟨limit, [], part.toArray⟩⟩ := by
  induction h with
  | nothing => exact drain_ofLimit limit
  | @chunk source messages part content before pos short ih =>
    rw [List.length_append] at partFits
    have hbefore := ih fit (by omega)
    have hnext : next ⟨limit, frame content, part.toArray⟩
        = (.ok none, ⟨limit, [], part.toArray ++ content⟩) :=
      next_frame pos (by omega) (by simpa using partFits)
    rw [← feed_feed, drain_feed (by rw [hbefore]), hbefore]
    simp [feed, drain_of_nothing hnext, Drained.behind]
  | @ended source messages part before ih =>
    have hbefore := ih (fun m hm => fit m (by simp [hm])) (fit part (by simp))
    rw [← feed_feed, drain_feed (by rw [hbefore]), hbefore]
    have hended := drain_terminator limit part
    simp [feed, Drained.behind, hended, ofLimit]

theorem next_of_drain (h : r.drain.messages = m :: messages) : ∃ r', r.next = (.ok (some m), r') := by
  match hnext : r.next with
  | (.ok none, r') => simp [drain_of_nothing hnext] at h
  | (.error e, r') => simp [drain_of_fault hnext] at h
  | (.ok (some m'), r') =>
    rw [drain_of_message hnext] at h
    have hsame : m' = m := (List.cons.inj h).1
    exact ⟨r', by rw [hsame]⟩

end Reader

section Payload

variable {limit : Nat} {message : Array UInt8} {source content rest payload : List UInt8} {r : Reader}

theorem payloadFrom_of_some (h : first? source = some (content, rest)) :
    payloadFrom message source =
      if content.isEmpty then if message.isEmpty then payloadFrom message rest else some message.toList
      else payloadFrom (message ++ content) rest := by
  rw [payloadFrom]
  split <;> simp_all

/-- Without a limit the first message is the same. -/
theorem payloadFrom_of_collect (h : Reader.collect limit message source = (.ok (some payload), r)) :
    payloadFrom message source = some payload := by
  fun_induction Reader.collect limit message source with
  | case1 => cases h
  | case2 message source content rest hfirst hempty hstart ih =>
    rw [payloadFrom_of_some hfirst, if_pos hempty, if_pos hstart]
    exact ih h
  | case3 message source content rest hfirst hempty hstart =>
    rw [payloadFrom_of_some hfirst, if_pos hempty, if_neg hstart]
    cases h
    rfl
  | case4 => cases h
  | case5 message source content rest hfirst hempty hfits ih =>
    rw [payloadFrom_of_some hfirst, if_neg hempty]
    exact ih h

theorem payload?_ofPayload (size : Nat) (h : payload ≠ []) :
    payload? (ofPayload payload size) = some payload := by
  have hdrain := Reader.drain_carries (carries_ofPayload payload size)
    (Writer.ofLimit size).limit_lt payload.length (by simp) (Nat.zero_le _)
  have hmessages : ((Reader.ofLimit payload.length).feed (ofPayload payload size)).drain.messages
      = [payload] := by
    rw [hdrain]
    simp [h]
  obtain ⟨r, hnext⟩ := Reader.next_of_drain hmessages
  exact payloadFrom_of_collect hnext

end Payload

/-- However messages are written and taken, and whatever pieces the bytes come in, the messages that are not
empty come out in order, and nothing is left over. -/
theorem messages_come_out (size limit : Nat) (uses : List Writer.Use)
    (messages pieces : List (List UInt8)) (said : Writer.said [] uses = (messages, []))
    (fit : ∀ m ∈ messages, m.length ≤ limit)
    (cut : pieces.flatten = (Writer.ofLimit size).takenBy (uses ++ [.take])) :
    pieces.foldl Reader.Drained.read (Reader.ofLimit limit).drain
        = ⟨messages.filter (· ≠ []), none, Reader.ofLimit limit⟩ ∧
      ∀ p ≠ [], payload? (ofPayload p size) = some p := by
  refine ⟨?_, fun p hp => payload?_ofPayload size hp⟩
  have hcarries := (Writer.holds_ofLimit size).carries_takenBy uses
  rw [said, ← cut] at hcarries
  have hdrain := Reader.drain_carries hcarries (Writer.ofLimit size).limit_lt limit
    (by simpa using fit) (Nat.zero_le limit)
  rw [List.nil_append] at hdrain
  rw [Reader.read_pieces (by rw [hdrain]), hdrain]
  rfl

/-- A message taken in its middle, an empty one and one of exactly one chunk, read byte by byte. -/
theorem split_messages_come_out :
    [[0], [1], [1], [0], [2], [2], [3], [0], [0], [0], [0], [0], [2], [4], [5], [0], [0]].foldl
        Reader.Drained.read (Reader.ofLimit 3).drain
      = ⟨[[1, 2, 3], [4, 5]], none, Reader.ofLimit 3⟩ ∧
    payload? (ofPayload [7, 8, 9] 2) = some [7, 8, 9] := by
  have h := messages_come_out 2 3
    [.write [1], .take, .write [2, 3], .endMessage, .endMessage, .write [4], .write [5], .endMessage]
    [[1, 2, 3], [], [4, 5]]
    [[0], [1], [1], [0], [2], [2], [3], [0], [0], [0], [0], [0], [2], [4], [5], [0], [0]]
    rfl (by decide) (by decide)
  exact ⟨h.1, h.2 [7, 8, 9] (by decide)⟩

end BoltClient.Chunk
