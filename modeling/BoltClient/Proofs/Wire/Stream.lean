import BoltClient.Wire.Message
import Mathlib.Tactic.SplitIfs

namespace BoltClient

namespace Chunk

theorem first?_append {bytes content rest : List UInt8} (h : first? bytes = some (content, rest))
    (more : List UInt8) : first? (bytes ++ more) = some (content, rest ++ more) := by
  match bytes with
  | [] | [_] => cases h
  | high :: low :: tail =>
    simp only [List.cons_append, first?, PackStream.Reader.split_eq] at h ⊢
    split_ifs at h with hlen
    simp only [Option.some.injEq, Prod.mk.injEq] at h
    obtain ⟨rfl, rfl⟩ := h
    rw [if_pos (by rw [List.length_append]; omega), List.take_append_of_le_length hlen,
      List.drop_append_of_le_length hlen]

namespace Reader

variable {limit : Nat} {message : Array UInt8} {source content rest payload : List UInt8} {r : Reader}

theorem collect_of_none (h : first? source = none) :
    collect limit message source = (.ok none, ⟨limit, source, message⟩) := by
  rw [collect]
  split
  · rfl
  · next h' => rw [h] at h'; cases h'

theorem collect_of_some (h : first? source = some (content, rest)) :
    collect limit message source =
      if content.isEmpty then
        if message.isEmpty then collect limit message rest
        else (.ok (some message.toList), ⟨limit, rest, #[]⟩)
      else if limit < message.size + content.length then
        (.error ⟨message.size + content.length, limit⟩, ⟨limit, source, message⟩)
      else collect limit (message ++ content) rest := by
  rw [collect]
  split
  · next h' => rw [h] at h'; cases h'
  · next h' =>
    rw [h] at h'
    cases h'
    rfl

/-- A message that is complete stays as it is when more bytes come. -/
theorem collect_append_of_message (h : collect limit message source = (.ok (some payload), r))
    (more : List UInt8) :
    collect limit message (source ++ more) = (.ok (some payload), r.feed more) := by
  fun_induction collect limit message source with
  | case1 => cases h
  | case2 message source content rest hfirst hempty hstart ih =>
    rw [collect_of_some (first?_append hfirst more), if_pos hempty, if_pos hstart]
    exact ih h
  | case3 message source content rest hfirst hempty hstart =>
    rw [collect_of_some (first?_append hfirst more), if_pos hempty, if_neg hstart]
    cases h
    rfl
  | case4 => cases h
  | case5 message source content rest hfirst hempty hfits ih =>
    rw [collect_of_some (first?_append hfirst more), if_neg hempty, if_neg hfits]
    exact ih h

/-- Where a message is not complete, it is put together from what there is and what comes. -/
theorem collect_append_of_nothing (h : collect limit message source = (.ok none, r))
    (more : List UInt8) : collect limit message (source ++ more) = (r.feed more).next := by
  fun_induction collect limit message source with
  | case1 =>
    cases h
    rfl
  | case2 message source content rest hfirst hempty hstart ih =>
    rw [collect_of_some (first?_append hfirst more), if_pos hempty, if_pos hstart]
    exact ih h
  | case3 => cases h
  | case4 => cases h
  | case5 message source content rest hfirst hempty hfits ih =>
    rw [collect_of_some (first?_append hfirst more), if_neg hempty, if_neg hfits]
    exact ih h

theorem collect_length (h : collect limit message source = (.ok (some payload), r)) :
    r.source.length < source.length := by
  fun_induction collect limit message source with
  | case1 => cases h
  | case2 message source content rest hfirst _ _ ih =>
    have hshorter := first?_length hfirst
    have hrest := ih h
    omega
  | case3 message source content rest hfirst _ _ =>
    cases h
    exact first?_length hfirst
  | case4 => cases h
  | case5 message source content rest hfirst _ _ ih =>
    have hshorter := first?_length hfirst
    have hrest := ih h
    omega

theorem feed_feed (r : Reader) (a b : List UInt8) : (r.feed a).feed b = r.feed (a ++ b) := by
  simp [feed]

end Reader
end Chunk

namespace Wire

variable {r r' : Chunk.Reader} {x : Response}

/-- An answer is a message that is a value that is an answer. -/
theorem nextResponse_eq_some_iff : nextResponse r = (.ok (some x), r') ↔
    ∃ payload v, r.next = (.ok (some payload), r') ∧ PackStream.decode payload = .ok v ∧
      responseOf v = .ok x := by
  unfold nextResponse nextValue
  constructor
  · intro h
    split at h
    · cases h
    · cases h
    · next v r hvalue =>
      split at hvalue
      · cases hvalue
      · cases hvalue
      · next payload r hnext =>
        cases hdecode : PackStream.decode payload with
        | error e => rw [hdecode] at hvalue; cases hvalue
        | ok w =>
          rw [hdecode] at hvalue
          cases hvalue
          cases hresponse : responseOf v with
          | error e => rw [hresponse] at h; cases h
          | ok y =>
            rw [hresponse] at h
            cases h
            exact ⟨payload, v, hnext, hdecode, hresponse⟩
  · rintro ⟨payload, v, hnext, hdecode, hresponse⟩
    simp only [hnext, hdecode, hresponse, Except.map, Except.mapError]

theorem next_of_nextResponse_eq_none (h : nextResponse r = (.ok none, r')) :
    r.next = (.ok none, r') := by
  unfold nextResponse nextValue at h
  split at h
  · cases h
  · next r hvalue =>
    split at hvalue
    · cases hvalue
    · next r hnext =>
      cases hvalue
      cases h
      exact hnext
    · next payload r hnext =>
      cases hdecode : PackStream.decode payload with
      | error e => rw [hdecode] at hvalue; cases hvalue
      | ok w => rw [hdecode] at hvalue; cases hvalue
  · next v r hvalue =>
    cases hresponse : responseOf v with
    | error e => rw [hresponse] at h; cases h
    | ok y => rw [hresponse] at h; cases h

theorem nextResponse_default : nextResponse default = (.ok none, default) := by
  unfold nextResponse nextValue Chunk.Reader.next
  rw [Chunk.Reader.collect_of_none rfl]

/-- A message that is all there is and fits one chunk. -/
theorem nextResponse_of_chunk {bytes content : List UInt8} {v : Value}
    (hfirst : Chunk.first? bytes = some (content, [0, 0])) (hsome : content ≠ [])
    (hfits : content.length ≤ Chunk.defaultMessageLimit) (hvalue : PackStream.decode content = .ok v)
    (hresponse : responseOf v = .ok x) :
    nextResponse ((default : Chunk.Reader).feed bytes) = (.ok (some x), default) := by
  refine nextResponse_eq_some_iff.mpr ⟨content, v, ?_, hvalue, hresponse⟩
  have hstart : ¬content.isEmpty = true := by simpa using hsome
  have hsmall : ¬Chunk.defaultMessageLimit < (#[] : Array UInt8).size + content.length := by simpa using hfits
  have hlast : Chunk.Reader.collect Chunk.defaultMessageLimit ((#[] : Array UInt8) ++ content) [0, 0]
      = (.ok (some content), default) := by
    rw [Chunk.Reader.collect_of_some rfl]
    simp [hsome]
    rfl
  rw [Chunk.Reader.next]
  exact (Chunk.Reader.collect_of_some hfirst).trans ((if_neg hstart).trans ((if_neg hsmall).trans hlast))

theorem nextResponse_length (h : nextResponse r = (.ok (some x), r')) :
    r'.source.length < r.source.length := by
  obtain ⟨_, _, hnext, _⟩ := nextResponse_eq_some_iff.mp h
  exact Chunk.Reader.collect_length hnext

theorem nextResponse_feed_of_some (h : nextResponse r = (.ok (some x), r')) (more : List UInt8) :
    nextResponse (r.feed more) = (.ok (some x), r'.feed more) := by
  obtain ⟨payload, v, hnext, hrest⟩ := nextResponse_eq_some_iff.mp h
  exact nextResponse_eq_some_iff.mpr
    ⟨payload, v, Chunk.Reader.collect_append_of_message hnext more, hrest⟩

theorem nextResponse_feed_of_none (h : nextResponse r = (.ok none, r')) (more : List UInt8) :
    nextResponse (r.feed more) = nextResponse (r'.feed more) := by
  have hnext : (r.feed more).next = (r'.feed more).next :=
    Chunk.Reader.collect_append_of_nothing (next_of_nextResponse_eq_none h) more
  unfold nextResponse nextValue
  rw [hnext]

/-- The answers that are complete, up to the first message that makes no sense. -/
def answers (r : Chunk.Reader) : List Response :=
  match _ : nextResponse r with
  | (.ok (some x), r') => x :: answers r'
  | _ => []
  termination_by r.source.length
  decreasing_by exact nextResponse_length (by assumption)

theorem answers_of_some (h : nextResponse r = (.ok (some x), r')) : answers r = x :: answers r' := by
  rw [answers]
  split
  · next h' =>
    rw [h] at h'
    cases h'
    rfl
  · next hnone => exact absurd h (hnone x r')

theorem answers_of_none (h : nextResponse r = (.ok none, r')) : answers r = [] := by
  rw [answers]
  split
  · next h' =>
    rw [h] at h'
    cases h'
  · rfl

theorem answers_feed_of_none (h : nextResponse r = (.ok none, r')) (more : List UInt8) :
    answers (r.feed more) = answers (r'.feed more) := by
  rw [answers, answers, nextResponse_feed_of_none h more]

def successBytes : List UInt8 := [0, 3, 0xB1, 0x70, 0xA0, 0, 0]

def recordBytes : List UInt8 := [0, 4, 0xB1, 0x71, 0x91, 0x01, 0, 0]

def failureBytes : List UInt8 := [0, 3, 0xB1, 0x7F, 0xA0, 0, 0]

def ignoredBytes : List UInt8 := [0, 2, 0xB0, 0x7E, 0, 0]

theorem nextResponse_success : nextResponse ((default : Chunk.Reader).feed successBytes)
    = (.ok (some (.success [])), default) :=
  @nextResponse_of_chunk _ successBytes [0xB1, 0x70, 0xA0] (.struct 0x70 [.map []]) rfl nofun (by decide)
    rfl rfl

theorem nextResponse_record : nextResponse ((default : Chunk.Reader).feed recordBytes)
    = (.ok (some (.record [.int 1])), default) :=
  @nextResponse_of_chunk _ recordBytes [0xB1, 0x71, 0x91, 0x01] (.struct 0x71 [.list [.int 1]]) rfl nofun
    (by decide) rfl rfl

theorem nextResponse_failure : nextResponse ((default : Chunk.Reader).feed failureBytes)
    = (.ok (some (.failure [])), default) :=
  @nextResponse_of_chunk _ failureBytes [0xB1, 0x7F, 0xA0] (.struct 0x7F [.map []]) rfl nofun (by decide)
    rfl rfl

theorem nextResponse_ignored : nextResponse ((default : Chunk.Reader).feed ignoredBytes)
    = (.ok (some .ignored), default) :=
  @nextResponse_of_chunk _ ignoredBytes [0xB0, 0x7E] (.struct 0x7E []) rfl nofun (by decide) rfl rfl

end Wire
end BoltClient
