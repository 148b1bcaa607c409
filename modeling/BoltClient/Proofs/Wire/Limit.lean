import BoltClient.Proofs.Wire.Values
import Mathlib.Data.List.Induction

namespace BoltClient

namespace Chunk

variable {most limit : Nat} {bytes part content piece more : List UInt8} {messages chunks : List (List UInt8)}

/-- Chunks one after the other carry a message on. -/
theorem Carries.flatMap_frame (h : Carries most bytes messages part)
    (whole : ∀ c ∈ chunks, c ≠ [] ∧ c.length ≤ most) :
    Carries most (bytes ++ chunks.flatMap frame) messages (part ++ chunks.flatten) := by
  induction chunks generalizing bytes part with
  | nil => simpa using h
  | cons c chunks ih =>
    obtain ⟨hfull, hshort⟩ := whole c List.mem_cons_self
    have hnext := ih (h.chunk c (List.length_pos_iff.mpr hfull) hshort)
      fun c hc => whole c (List.mem_cons_of_mem _ hc)
    simpa using hnext

theorem flatMap_frame_concat (front : List UInt8) (chunks : List (List UInt8)) (c : List UInt8) :
    front ++ (chunks ++ [c]).flatMap frame = front ++ chunks.flatMap frame ++ frame c := by
  rw [List.flatMap_append, List.flatMap_singleton, List.append_assoc]

/-- Where chunks together go beyond a limit, one of them is the first that does. -/
theorem exists_first_beyond (h : limit < chunks.flatten.length) : ∃ before c behind,
    chunks = before ++ c :: behind ∧ before.flatten.length ≤ limit ∧ limit < (before ++ [c]).flatten.length := by
  induction chunks using List.reverseRecOn with
  | nil => cases h
  | append_singleton chunks c ih =>
    by_cases hfits : chunks.flatten.length ≤ limit
    · exact ⟨chunks, c, [], rfl, hfits, h⟩
    · obtain ⟨before, first, behind, rfl, hbefore, hbeyond⟩ := ih (Nat.not_le.mp hfits)
      exact ⟨before, first, behind ++ [c], by simp, hbefore, hbeyond⟩

/-- A chunk that is cut off is not complete. -/
theorem first?_cut (hcut : piece ++ more = frame content) (hmore : more ≠ [])
    (short : content.length < 0x10000) : first? piece = none := by
  cases hfirst : first? piece with
  | none => rfl
  | some found =>
    have hframe := first?_append hfirst more
    rw [hcut, first?_frame short] at hframe
    simp only [Option.some.injEq, Prod.mk.injEq] at hframe
    exact absurd (List.append_eq_nil_iff.mp hframe.2.symm).2 hmore

namespace Reader

variable {r : Reader} {source : List UInt8} {message : Array UInt8}

/-- More bytes take back no message. -/
theorem messages_feed (r : Reader) (more : List UInt8) : r.drain.messages <+: (r.feed more).drain.messages := by
  cases hfault : r.drain.fault with
  | none =>
    rw [drain_feed hfault]
    exact List.prefix_append _ _
  | some e => exact (drain_feed_of_fault hfault more).1 ▸ List.prefix_rfl

theorem fault_of_feed (r : Reader) (more : List UInt8) (h : (r.feed more).drain.fault = none) :
    r.drain.fault = none := by
  cases hfault : r.drain.fault with
  | none => rfl
  | some e =>
    rw [(drain_feed_of_fault hfault more).2] at h
    cases h

/-- What the reader has behind whole chunks decides what it does with the next one. -/
theorem drain_behind_chunks (h : Carries most source messages part) (hmost : most < 0x10000)
    (fit : ∀ m ∈ messages, m.length ≤ limit) (partFits : part.length ≤ limit) (piece : List UInt8) :
    ((ofLimit limit).feed (source ++ piece)).drain
      = (drain ⟨limit, piece, part.toArray⟩).behind (messages.filter (· ≠ [])) := by
  have hdrain := drain_carries h hmost limit fit partFits
  rw [← feed_feed, drain_feed (by rw [hdrain]), hdrain]
  rfl

/-- A complete chunk with which a message goes beyond the limit. -/
theorem drain_beyond (full : content ≠ []) (short : content.length < 0x10000)
    (beyond : limit < part.length + content.length) :
    drain ⟨limit, frame content, part.toArray⟩
      = ⟨[], some ⟨part.length + content.length, limit⟩, ⟨limit, frame content, part.toArray⟩⟩ := by
  refine drain_of_fault ?_
  rw [next, collect_of_some (first?_frame short), if_neg (by simpa using full), if_pos (by simpa using beyond)]
  simp

/-- Up to the end of the first chunk with which a message goes beyond the limit all is well. -/
theorem drain_cut (h : Carries most source messages part) (hmost : most < 0x10000)
    (fit : ∀ m ∈ messages, m.length ≤ limit) (partFits : part.length ≤ limit)
    (short : content.length < 0x10000) (hcut : bytes ++ more = source ++ frame content) (hmore : more ≠ []) :
    ((ofLimit limit).feed bytes).drain.fault = none ∧
      ((ofLimit limit).feed bytes).drain.messages <+: messages.filter (· ≠ []) := by
  obtain ⟨piece, rfl, hpiece⟩ | ⟨behind, rfl, -⟩ := List.append_eq_append_iff.mp hcut.symm
  · have hnothing : first? piece = none := first?_cut hpiece.symm hmore short
    rw [drain_behind_chunks h hmost fit partFits, drain_of_nothing (collect_of_none hnothing)]
    exact ⟨rfl, by simp [Drained.behind]⟩
  · have hdrain := drain_carries h hmost limit fit partFits
    rw [← feed_feed] at hdrain
    refine ⟨fault_of_feed _ behind (by rw [hdrain]), ?_⟩
    have hmessages := messages_feed ((ofLimit limit).feed bytes) behind
    rwa [hdrain] at hmessages

/-- Whole messages within the limit, then one in chunks, then whatever follows. Of all that, `pieces` were read. -/
structure Arriving (limit : Nat) (front : List UInt8) (messages chunks pieces : List (List UInt8)) : Prop where
  carried : Carries 0xFFFF front messages []
  fit : ∀ m ∈ messages, m.length ≤ limit
  whole : ∀ c ∈ chunks, c ≠ [] ∧ c.length ≤ 0xFFFF
  read : ∃ rest, pieces.flatten <+: front ++ chunks.flatMap frame ++ terminator ++ rest

namespace Arriving

variable {front c : List UInt8} {before behind pieces : List (List UInt8)}

/-- Any number of the message's chunks carry a part of it. -/
theorem carries_before (h : Arriving limit front messages (before ++ c :: behind) pieces) :
    Carries 0xFFFF (front ++ before.flatMap frame) messages before.flatten := by
  have hbefore := h.carried.flatMap_frame fun c hc => h.whole c (List.mem_append_left _ hc)
  rwa [List.nil_append] at hbefore

/-- When the first chunk that goes beyond the limit is complete, the message is given up. -/
theorem given_up (h : Arriving limit front messages (before ++ c :: behind) pieces)
    (fits : before.flatten.length ≤ limit) (beyond : limit < (before ++ [c]).flatten.length)
    (complete : front ++ (before ++ [c]).flatMap frame <+: pieces.flatten) :
    ((ofLimit limit).feed pieces.flatten).drain.messages = messages.filter (· ≠ []) ∧
      ((ofLimit limit).feed pieces.flatten).drain.fault = some ⟨(before ++ [c]).flatten.length, limit⟩ := by
  obtain ⟨more, hmore⟩ := complete
  obtain ⟨hfull, hshort⟩ := h.whole c (by simp)
  have hlength : (before ++ [c]).flatten.length = before.flatten.length + c.length := by simp
  have hdrain := drain_behind_chunks h.carries_before (by decide) h.fit fits (frame c)
  rw [drain_beyond hfull (by omega) (by omega), ← flatMap_frame_concat, ← hlength] at hdrain
  have hstays := drain_feed_of_fault (by rw [hdrain]; rfl) more
  rw [feed_feed, hmore, hdrain] at hstays
  simpa [Drained.behind] using hstays

/-- Until then there is no fault. -/
theorem not_given_up (h : Arriving limit front messages (before ++ c :: behind) pieces)
    (fits : before.flatten.length ≤ limit)
    (incomplete : ¬ front ++ (before ++ [c]).flatMap frame <+: pieces.flatten) :
    ((ofLimit limit).feed pieces.flatten).drain.fault = none ∧
      ((ofLimit limit).feed pieces.flatten).drain.messages <+: messages.filter (· ≠ []) := by
  obtain ⟨rest, hread⟩ := h.read
  have hshort := (h.whole c (by simp)).2
  have hbegins : front ++ (before ++ [c]).flatMap frame <+:
      front ++ (before ++ c :: behind).flatMap frame ++ terminator ++ rest := by simp
  obtain hcomplete | ⟨more, hmore⟩ := List.prefix_or_prefix_of_prefix hbegins hread
  · exact absurd hcomplete incomplete
  · refine drain_cut h.carries_before (by decide) h.fit fits (by omega)
      (hmore.trans (flatMap_frame_concat front before c)) ?_
    rintro rfl
    rw [List.append_nil] at hmore
    exact incomplete (hmore ▸ List.prefix_rfl)

/-- A message within the limit comes out, and nothing of it stays behind. -/
theorem drain_whole (h : Arriving limit front messages chunks pieces) (fits : chunks.flatten.length ≤ limit) :
    ((ofLimit limit).feed (front ++ chunks.flatMap frame ++ terminator)).drain
      = ⟨(messages ++ [chunks.flatten]).filter (· ≠ []), none, ofLimit limit⟩ := by
  have hcarries := (h.carried.flatMap_frame h.whole).ended
  rw [List.nil_append] at hcarries
  have hfit (m : List UInt8) (hm : m ∈ messages ++ [chunks.flatten]) : m.length ≤ limit := by
    rcases List.mem_append.mp hm with hm | hm
    · exact h.fit m hm
    · rwa [List.mem_singleton.mp hm]
  exact drain_carries hcarries (by decide) limit hfit (Nat.zero_le limit)

/-- At no point of a message within the limit is there a fault. -/
theorem not_faulted (h : Arriving limit front messages chunks pieces) (fits : chunks.flatten.length ≤ limit)
    (within : pieces.flatten <+: front ++ chunks.flatMap frame ++ terminator) :
    ((ofLimit limit).feed pieces.flatten).drain.fault = none := by
  obtain ⟨more, hmore⟩ := within
  refine fault_of_feed _ more ?_
  rw [feed_feed, hmore, h.drain_whole fits]

/-- A message that has arrived comes out if it is within the limit, and only then. -/
theorem comes_out_iff (h : Arriving limit front messages chunks pieces)
    (complete : front ++ chunks.flatMap frame ++ terminator <+: pieces.flatten) :
    (messages ++ [chunks.flatten]).filter (· ≠ []) <+: ((ofLimit limit).feed pieces.flatten).drain.messages ↔
      chunks.flatten.length ≤ limit := by
  constructor
  · intro hout
    by_contra hlarge
    obtain ⟨before, c, behind, rfl, hfits, hbeyond⟩ := exists_first_beyond (Nat.not_le.mp hlarge)
    have hbegins : front ++ (before ++ [c]).flatMap frame <+:
        front ++ (before ++ c :: behind).flatMap frame ++ terminator := by simp
    rw [(h.given_up hfits hbeyond (hbegins.trans complete)).1] at hout
    have hfull : decide ((before ++ c :: behind).flatten ≠ []) = true :=
      decide_eq_true (List.ne_nil_of_length_pos (Nat.zero_lt_of_lt (Nat.not_le.mp hlarge)))
    have hkept : [(before ++ c :: behind).flatten].filter (· ≠ []) = [(before ++ c :: behind).flatten] := by
      rw [List.filter_cons, if_pos hfull, List.filter_nil]
    have hlength := hout.length_le
    rw [List.filter_append, hkept, List.length_append, List.length_singleton] at hlength
    omega
  · intro hfits
    obtain ⟨more, hmore⟩ := complete
    have hmessages := messages_feed ((ofLimit limit).feed (front ++ chunks.flatMap frame ++ terminator)) more
    rwa [feed_feed, hmore, h.drain_whole hfits] at hmessages

end Arriving

/-- A reader keeps its limit, and no more of a message than that; nor does more come out. -/
theorem collect_within (source : List UInt8) (h : message.size ≤ limit) :
    (collect limit message source).2.limit = limit ∧ (collect limit message source).2.message.size ≤ limit ∧
      ∀ m, (collect limit message source).1 = .ok (some m) → m.length ≤ limit := by
  fun_induction collect limit message source with
  | case1 | case4 =>
    refine ⟨rfl, h, ?_⟩
    rintro _ ⟨⟩
  | case2 message source content rest hfirst hempty hstart ih => exact ih h
  | case3 message source content rest hfirst hempty hstart =>
    refine ⟨rfl, Nat.zero_le limit, ?_⟩
    rintro _ ⟨⟩
    simpa using h
  | case5 message source content rest hfirst hempty hfits ih =>
    exact ih (by rw [size_append_content]; omega)

end Reader
end Chunk

namespace Wire

open Chunk (Reader)
open Chunk.Reader (Drained)

variable {limit : Nat} {r : Reader}

/-- What a reader can become that is given bytes and asked for values, also behind errors. -/
inductive Reached (limit : Nat) : Reader → Prop
  | start : Reached limit (.ofLimit limit)
  | given {r : Reader} (source : List UInt8) (before : Reached limit r) : Reached limit { r with source := source }
  | asked {r : Reader} (before : Reached limit r) : Reached limit (nextValue r).2

theorem nextValue_snd (r : Reader) : (nextValue r).2 = r.next.2 := by
  match hnext : r.next with
  | (.ok none, _) => rw [nextValue_of_nothing hnext]
  | (.error _, _) => rw [nextValue_of_fault hnext]
  | (.ok (some _), _) => rw [nextValue_of_message hnext]

theorem Reached.within (h : Reached limit r) : r.limit = limit ∧ r.message.size ≤ limit := by
  induction h with
  | start => exact ⟨rfl, Nat.zero_le limit⟩
  | given source _ ih => exact ih
  | @asked r _ ih =>
    obtain ⟨rfl, hsize⟩ := ih
    rw [nextValue_snd]
    have hstep := Reader.collect_within r.source hsize
    exact ⟨hstep.1, hstep.2.1⟩

/-- Whole messages within the limit went before, each a value or not. Then a message that has arrived in chunks comes
out, whatever pieces it came in, if its chunks together are within the limit, and there is no fault up to its end; an
empty one is only a sign of life. If they are not, it is given up at the first complete chunk that goes beyond, and
not before. A reader never keeps more of a message than the limit allows, and nothing longer comes out. -/
theorem limit_decides (limit : Nat) :
    (∀ (front : List UInt8) (messages chunks pieces : List (List UInt8)),
      Reader.Arriving limit front messages chunks pieces →
      let d := pieces.foldl Drained.read (Reader.ofLimit limit).drain
      (pieces.foldl Heard.read (.start limit)).results
        = d.messages.map valueOf ++ (d.fault.map fun e => .error (tooLarge e)).toList ∧
      (front ++ chunks.flatMap Chunk.frame ++ Chunk.terminator <+: pieces.flatten →
        ((messages ++ [chunks.flatten]).filter (· ≠ []) <+: d.messages ↔ chunks.flatten.length ≤ limit)) ∧
      (chunks.flatten.length ≤ limit →
        pieces.flatten <+: front ++ chunks.flatMap Chunk.frame ++ Chunk.terminator → d.fault = none) ∧
      (limit < chunks.flatten.length → ∃ before c behind, chunks = before ++ c :: behind ∧
        before.flatten.length ≤ limit ∧ limit < (before ++ [c]).flatten.length ∧
        (front ++ (before ++ [c]).flatMap Chunk.frame <+: pieces.flatten →
          d.messages = messages.filter (· ≠ []) ∧ d.fault = some ⟨(before ++ [c]).flatten.length, limit⟩) ∧
        (¬ front ++ (before ++ [c]).flatMap Chunk.frame <+: pieces.flatten →
          d.fault = none ∧ d.messages <+: messages.filter (· ≠ [])))) ∧
    ∀ r, Reached limit r → r.message.size ≤ limit ∧ ∀ m, r.next.1 = .ok (some m) → m.length ≤ limit := by
  refine ⟨fun front messages chunks pieces h => ?_, fun r h => ⟨h.within.2, ?_⟩⟩
  · obtain ⟨hmessages, hfault, -⟩ := Reader.agrees_pieces (Reader.ofLimit limit) pieces
    dsimp only
    rw [start_eq, reads_ofDrained, hmessages, hfault]
    refine ⟨by simp only [Heard.ofDrained, hmessages, hfault], h.comes_out_iff, h.not_faulted, fun hlarge => ?_⟩
    obtain ⟨before, c, behind, rfl, hfits, hbeyond⟩ := Chunk.exists_first_beyond hlarge
    exact ⟨before, c, behind, rfl, hfits, hbeyond, h.given_up hfits hbeyond, h.not_given_up hfits⟩
  · obtain ⟨rfl, hsize⟩ := h.within
    exact (Reader.collect_within r.source hsize).2.2

/-- A value, and a message that is given up at its second chunk, before it has come to its end. -/
theorem given_up_at_second_chunk :
    ([[0], [1, 7, 0], [0, 0, 2, 1], [2, 0], [2, 3, 4]].foldl Heard.read (.start 3)).results
      = [.ok (.int 7), .error (.messageTooLarge 4 3)] := by
  let pieces : List (List UInt8) := [[0], [1, 7, 0], [0, 0, 2, 1], [2, 0], [2, 3, 4]]
  have harriving : Reader.Arriving 3 [0, 1, 7, 0, 0] [[7]] [[1, 2], [3, 4], [5]] pieces :=
    ⟨.ended (.chunk [7] .nothing (by decide) (by decide)), by decide, by decide, [], by decide⟩
  obtain ⟨hresults, -, -, hlarge⟩ := (limit_decides 3).1 _ _ _ _ harriving
  obtain ⟨before, c, behind, hchunks, hfits, hbeyond, hcomplete, -⟩ := hlarge (by decide)
  -- the first chunk alone is within the limit, the first two are beyond
  obtain rfl : before = [[1, 2]] := by
    match before with
    | [] =>
      obtain ⟨rfl, -⟩ := List.cons.inj hchunks
      exact absurd hbeyond (by decide)
    | [_] =>
      obtain ⟨rfl, -⟩ := List.cons.inj hchunks
      rfl
    | _ :: _ :: before =>
      obtain ⟨rfl, hmore⟩ := List.cons.inj hchunks
      obtain ⟨rfl, -⟩ := List.cons.inj hmore
      have hlong : before.flatten.length + 4 ≤ 3 := hfits
      omega
  obtain ⟨rfl, -⟩ := List.cons.inj (List.cons.inj hchunks).2
  obtain ⟨hmessages, hfault⟩ := hcomplete (by decide)
  rw [hmessages, hfault] at hresults
  exact hresults

end Wire
end BoltClient
