import BoltClient.Proofs.Chunk.Reassembly

namespace BoltClient

namespace Chunk.Reader

variable {d d' : Drained} {e : TooLarge} {limit : Nat} {message : Array UInt8}
  {source payload : List UInt8}

/-- The same messages and the same fault; behind them, unless there is a fault, the same reader. -/
structure Drained.Agrees (d d' : Drained) : Prop where
  messages : d.messages = d'.messages
  fault : d.fault = d'.fault
  rest : d.fault = none → d.rest = d'.rest

theorem Drained.Agrees.read (h : d.Agrees d') (piece : List UInt8) :
    (d.read piece).Agrees (d'.read piece) := by
  cases hfault : d.fault with
  | none =>
    have hsame : d = d' := by
      obtain ⟨messages, fault, rest⟩ := d
      obtain ⟨messages', fault', rest'⟩ := d'
      have hmessages := h.messages
      have hfaults := h.fault
      have hrest := h.rest hfault
      simp_all
    rw [hsame]
    exact ⟨rfl, rfl, fun _ => rfl⟩
  | some e =>
    have hfault' : d'.fault = some e := h.fault.symm.trans hfault
    have hd : d.read piece = d := by simp [Drained.read, hfault]
    have hd' : d'.read piece = d' := by simp [Drained.read, hfault']
    rw [hd, hd']
    exact h

theorem Drained.Agrees.reads (h : d.Agrees d') (pieces : List (List UInt8)) :
    (pieces.foldl Drained.read d).Agrees (pieces.foldl Drained.read d') := by
  induction pieces generalizing d d' with
  | nil => exact h
  | cons piece pieces ih => exact ih (h.read piece)

/-- One more piece might as well have been there from the start. -/
theorem agrees_read (r : Reader) (piece : List UInt8) :
    (r.drain.read piece).Agrees (r.feed piece).drain := by
  cases hfault : r.drain.fault with
  | none =>
    have hread : r.drain.read piece = (r.feed piece).drain := by
      rw [drain_feed hfault]
      simp [Drained.read, hfault]
    rw [hread]
    exact ⟨rfl, rfl, fun _ => rfl⟩
  | some e =>
    have hread : r.drain.read piece = r.drain := by simp [Drained.read, hfault]
    obtain ⟨hmessages, hstays⟩ := drain_feed_of_fault hfault piece
    rw [hread]
    refine ⟨hmessages.symm, hfault.trans hstays.symm, fun hnone => ?_⟩
    rw [hfault] at hnone
    cases hnone

/-- In which pieces the bytes come makes no difference up to a fault. -/
theorem agrees_pieces (r : Reader) (pieces : List (List UInt8)) :
    (pieces.foldl Drained.read r.drain).Agrees (r.feed pieces.flatten).drain := by
  induction pieces generalizing r with
  | nil =>
    have hsame : r.feed [] = r := by simp [feed]
    simp only [List.foldl_nil, List.flatten_nil, hsame]
    exact ⟨rfl, rfl, fun _ => rfl⟩
  | cons piece pieces ih =>
    have hrest := ih (r.feed piece)
    have hfirst := (agrees_read r piece).reads pieces
    rw [feed_feed] at hrest
    simp only [List.foldl_cons, List.flatten_cons]
    refine ⟨hfirst.messages.trans hrest.messages, hfirst.fault.trans hrest.fault, fun hnone => ?_⟩
    rw [hfirst.rest hnone]
    exact hrest.rest (hfirst.fault.symm.trans hnone)

/-- What is put together so far stays part of the message. -/
theorem size_le_of_payloadFrom (h : payloadFrom message source = some payload) :
    message.size ≤ payload.length := by
  fun_induction payloadFrom message source with
  | case1 => cases h
  | case2 message source content rest hfirst hempty hstart ih => exact ih h
  | case3 message source content rest hfirst hempty hstart =>
    cases h
    simp
  | case4 message source content rest hfirst hempty ih =>
    have hmore := ih h
    rw [size_append_content] at hmore
    omega

/-- A message within the limit is found as it is without one. -/
theorem collect_of_payloadFrom (h : payloadFrom message source = some payload)
    (fits : payload.length ≤ limit) : ∃ r, collect limit message source = (.ok (some payload), r) := by
  fun_induction payloadFrom message source with
  | case1 => cases h
  | case2 message source content rest hfirst hempty hstart ih =>
    rw [collect_of_some hfirst, if_pos hempty, if_pos hstart]
    exact ih h
  | case3 message source content rest hfirst hempty hstart =>
    cases h
    rw [collect_of_some hfirst, if_pos hempty, if_neg hstart]
    exact ⟨_, rfl⟩
  | case4 message source content rest hfirst hempty ih =>
    have hpart := size_le_of_payloadFrom h
    rw [size_append_content] at hpart
    rw [collect_of_some hfirst, if_neg hempty, if_neg (by omega)]
    exact ih h

/-- What is found without a limit is the first message of a reader whose limit it keeps. -/
theorem payload?_iff_next (fits : ∀ m, payload? source = some m → m.length ≤ limit) :
    payload? source = some payload ↔
      ∃ r, ((ofLimit limit).feed source).next = (.ok (some payload), r) := by
  constructor
  · intro h
    exact collect_of_payloadFrom h (fits payload h)
  · rintro ⟨r, hnext⟩
    exact payloadFrom_of_collect hnext

end Chunk.Reader

namespace Wire

open Chunk (Reader)
open Chunk.Reader (Drained)

/-- What the content of a message says: a value, unless its bytes are none. -/
def valueOf (payload : List UInt8) : Except Error Value :=
  (PackStream.decode payload).mapError .packStream

def tooLarge (e : Chunk.TooLarge) : Error := .messageTooLarge e.size e.limit

def Error.isTooLarge : Error → Bool
  | messageTooLarge .. => true
  | _ => false

section

variable {r r' : Reader} {m : List UInt8} {e : Error} {fault : Chunk.TooLarge} {v : Value}

theorem nextValue_of_nothing (h : r.next = (.ok none, r')) : nextValue r = (.ok none, r') := by
  simp [nextValue, h]

theorem nextValue_of_fault (h : r.next = (.error fault, r')) :
    nextValue r = (.error (tooLarge fault), r') := by
  simp [nextValue, h, tooLarge]

theorem nextValue_of_message (h : r.next = (.ok (some m), r')) :
    nextValue r = ((valueOf m).map some, r') := by
  simp only [nextValue, h, valueOf]
  cases PackStream.decode m <;> rfl

theorem valueOf_error (h : valueOf m = .error e) : e.isTooLarge = false := by
  unfold valueOf at h
  cases hdecode : PackStream.decode m with
  | ok v => simp [hdecode, Except.mapError] at h
  | error fault =>
    simp only [hdecode, Except.mapError, Except.error.injEq] at h
    rw [← h]
    rfl

/-- Whatever is found but a message that is too large takes bytes away. -/
theorem nextValue_length (h : nextValue r = (.ok (some v), r') ∨
    nextValue r = (.error e, r') ∧ e.isTooLarge = false) : r'.source.length < r.source.length := by
  match hnext : r.next with
  | (.ok none, _) => simp [nextValue_of_nothing hnext] at h
  | (.error fault, _) =>
    rw [nextValue_of_fault hnext] at h
    obtain h | ⟨h, hlarge⟩ := h
    · simp at h
    · cases h
      cases hlarge
  | (.ok (some m), r₁) =>
    have hshorter := Reader.collect_length hnext
    rw [nextValue_of_message hnext] at h
    have hsame : r₁ = r' := by
      obtain h | ⟨h, -⟩ := h <;> exact congrArg Prod.snd h
    rwa [hsame] at hshorter

end

/-- What comes of bytes: values and messages that are none, in order, and the reader behind them. It is over
when a message is too large. -/
structure Heard where
  results : List (Except Error Value)
  isOver : Bool
  rest : Reader

def Heard.behind (h : Heard) (results : List (Except Error Value)) : Heard :=
  { h with results := results ++ h.results }

/-- Asks for values until there is nothing complete or a message is too large. -/
def hear (r : Reader) : Heard :=
  match _ : nextValue r with
  | (.ok none, r') => ⟨[], false, r'⟩
  | (.ok (some v), r') => (hear r').behind [.ok v]
  | (.error e, r') => if _ : e.isTooLarge then ⟨[.error e], true, r'⟩ else (hear r').behind [.error e]
  termination_by r.source.length
  decreasing_by
    · exact nextValue_length (e := .connectionClosed) (.inl (by assumption))
    · exact nextValue_length (v := .null) (.inr ⟨by assumption, eq_false_of_ne_true (by assumption)⟩)

namespace Heard

def start (limit : Nat) : Heard := ⟨[], false, .ofLimit limit⟩

def read (h : Heard) (piece : List UInt8) : Heard :=
  if h.isOver then h else (hear (h.rest.feed piece)).behind h.results

def ofDrained (d : Drained) : Heard :=
  ⟨d.messages.map valueOf ++ (d.fault.map fun e => .error (tooLarge e)).toList, d.fault.isSome, d.rest⟩

end Heard

section

variable {r r' : Reader} {m : List UInt8} {fault : Chunk.TooLarge}

theorem hear_of_nothing (h : r.next = (.ok none, r')) : hear r = ⟨[], false, r'⟩ := by
  have hnone := nextValue_of_nothing h
  rw [hear]
  split <;> simp_all

theorem hear_of_fault (h : r.next = (.error fault, r')) : hear r = ⟨[.error (tooLarge fault)], true, r'⟩ := by
  have hlarge : (tooLarge fault).isTooLarge = true := rfl
  have herror := nextValue_of_fault h
  rw [hear]
  split <;> simp_all

theorem hear_of_message (h : r.next = (.ok (some m), r')) : hear r = (hear r').behind [valueOf m] := by
  have hvalue := nextValue_of_message h
  rw [hear]
  cases hm : valueOf m with
  | ok v =>
    simp only [hm, Except.map] at hvalue
    split <;> simp_all
  | error e =>
    have hsmall := valueOf_error hm
    simp only [hm, Except.map] at hvalue
    split <;> simp_all

/-- Each message gives one result, whether it is a value or not. -/
theorem hear_eq_drain (r : Reader) : hear r = .ofDrained r.drain := by
  fun_induction Reader.drain r with
  | case1 r r' hnext => simp [hear_of_nothing hnext, Heard.ofDrained]
  | case2 r e r' hnext => simp [hear_of_fault hnext, Heard.ofDrained]
  | case3 r m r' hnext ih =>
    rw [hear_of_message hnext, ih]
    simp [Heard.ofDrained, Heard.behind, Drained.behind]

theorem read_ofDrained (d : Drained) (piece : List UInt8) :
    (Heard.ofDrained d).read piece = .ofDrained (d.read piece) := by
  cases hfault : d.fault with
  | none => simp [Heard.read, Drained.read, Heard.ofDrained, Heard.behind, Drained.behind, hear_eq_drain, hfault]
  | some e => simp [Heard.read, Drained.read, Heard.ofDrained, hfault]

theorem reads_ofDrained (d : Drained) (pieces : List (List UInt8)) :
    pieces.foldl Heard.read (.ofDrained d) = .ofDrained (pieces.foldl Drained.read d) := by
  induction pieces generalizing d with
  | nil => rfl
  | cons piece pieces ih => rw [List.foldl_cons, read_ofDrained, ih, List.foldl_cons]

theorem start_eq (limit : Nat) : Heard.start limit = .ofDrained (Reader.ofLimit limit).drain := by
  rw [Reader.drain_ofLimit]
  rfl

theorem reads_pieces (limit : Nat) (pieces : List (List UInt8)) :
    (pieces.foldl Heard.read (.start limit)).results
      = (hear ((Reader.ofLimit limit).feed pieces.flatten)).results := by
  have hagrees := Reader.agrees_pieces (Reader.ofLimit limit) pieces
  rw [start_eq, reads_ofDrained, hear_eq_drain]
  simp only [Heard.ofDrained, hagrees.messages, hagrees.fault]

/-- Whole messages give their results, and what comes behind them is heard as if it came first. -/
theorem hear_carries {most limit : Nat} {source : List UInt8} {messages : List (List UInt8)}
    (h : Chunk.Carries most source messages []) (hmost : most < 0x10000)
    (fit : ∀ m ∈ messages, m.length ≤ limit) (rest : List UInt8) :
    hear ((Reader.ofLimit limit).feed (source ++ rest))
      = (hear ((Reader.ofLimit limit).feed rest)).behind ((messages.filter (· ≠ [])).map valueOf) := by
  have hdrain := Reader.drain_carries h hmost limit fit (Nat.zero_le limit)
  have hmore := Reader.drain_feed (r := (Reader.ofLimit limit).feed source) (by rw [hdrain]) rest
  rw [Reader.feed_feed, hdrain] at hmore
  have hbehind : (⟨limit, [], ([] : List UInt8).toArray⟩ : Reader) = .ofLimit limit := rfl
  rw [hear_eq_drain, hmore, hear_eq_drain, hbehind]
  simp [Heard.ofDrained, Heard.behind, Drained.behind]

end

/-- In which pieces bytes come makes no difference to the values and the errors up to the first message that
is too large. Whatever a message says, the next one begins behind its end. And within the limit the first
message is what is found in the bytes without a reader. -/
theorem results_whatever_the_cut (limit : Nat) (bytes : List UInt8) :
    (∀ pieces : List (List UInt8), pieces.flatten = bytes →
      (pieces.foldl Heard.read (.start limit)).results
        = (hear ((Reader.ofLimit limit).feed bytes)).results) ∧
    (∀ (most : Nat) (whole rest : List UInt8) (messages : List (List UInt8)), bytes = whole ++ rest →
      Chunk.Carries most whole messages [] → most < 0x10000 → (∀ m ∈ messages, m.length ≤ limit) →
      (hear ((Reader.ofLimit limit).feed bytes)).results
        = (messages.filter (· ≠ [])).map valueOf ++ (hear ((Reader.ofLimit limit).feed rest)).results) ∧
    ((∀ m, Chunk.payload? bytes = some m → m.length ≤ limit) → ∀ payload,
      (Chunk.payload? bytes = some payload ↔
        ∃ r, ((Reader.ofLimit limit).feed bytes).next = (.ok (some payload), r))) := by
  refine ⟨?_, ?_, ?_⟩
  · rintro pieces rfl
    exact reads_pieces limit pieces
  · rintro most whole rest messages rfl hcarries hmost fit
    rw [hear_carries hcarries hmost fit rest]
    rfl
  · intro fits payload
    exact Reader.payload?_iff_next fits

/-- A message that is no value, in pieces, and a value behind it. -/
theorem no_value_and_a_value :
    let bytes : List UInt8 := [0, 1, 0xDF, 0, 0, 0, 1, 7, 0, 0]
    ([[0], [1, 0xDF, 0], [0, 0, 1, 7], [0, 0]].foldl Heard.read (.start 3)).results
      = (hear ((Reader.ofLimit 3).feed bytes)).results ∧
    (hear ((Reader.ofLimit 3).feed bytes)).results
      = .error (.packStream .strayEnd) :: (hear ((Reader.ofLimit 3).feed [0, 1, 7, 0, 0])).results ∧
    (Chunk.payload? bytes = some [0xDF] ↔
      ∃ r, ((Reader.ofLimit 3).feed bytes).next = (.ok (some [0xDF]), r)) := by
  intro bytes
  have hfirst : Chunk.first? bytes = some ([0xDF], [0, 0, 0, 1, 7, 0, 0]) := by decide
  have hended : Chunk.first? [0, 0, 0, 1, 7, 0, 0] = some ([], [0, 1, 7, 0, 0]) := by decide
  have hpayload : Chunk.payload? bytes = some [0xDF] := by
    rw [Chunk.payload?, Chunk.payloadFrom_of_some hfirst]
    simp [Chunk.payloadFrom_of_some hended]
  have hcarries : Chunk.Carries 1 [0, 1, 0xDF, 0, 0] [[0xDF]] [] :=
    .ended (.chunk [0xDF] .nothing (by decide) (by decide))
  have hfit (m : List UInt8) (hm : Chunk.payload? bytes = some m) : m.length ≤ 3 := by
    rw [hpayload] at hm
    cases hm
    decide
  have h := results_whatever_the_cut 3 bytes
  exact ⟨h.1 _ rfl, h.2.1 1 _ [0, 1, 7, 0, 0] [[0xDF]] rfl hcarries (by decide) (by decide),
    h.2.2 hfit [0xDF]⟩

end Wire
end BoltClient
