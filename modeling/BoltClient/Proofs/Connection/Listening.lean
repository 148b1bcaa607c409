import BoltClient.Proofs.Connection.Changes
import BoltClient.Proofs.Connection.Correlation
import BoltClient.Proofs.Connection.Session
import BoltClient.Proofs.Wire.Stream

namespace BoltClient.Connection

open Work Session

def resetExchange : Exchange := .ofRequest .reset .reset {}

/-- Since some connection the bytes in a session have been read, and these answers were taken out of them. -/
structure Hears (c₀ : Connection) (told : List Response) (s : Session) : Prop where
  heard : told <+: Wire.answers (c₀.inbox.feed s.heard)
  /-- The other answers are still to come, unless nothing will be taken in any more. -/
  ahead : s.connection.defunct = false → ∀ more,
    Wire.answers (c₀.inbox.feed (s.heard ++ more)) = told ++ Wire.answers (s.connection.inbox.feed more)

section

variable {c₀ d : Connection} {told : List Response} {s : Session} {begun : List Exchange}

theorem Hears.start (c : Connection) : Hears c [] ⟨c, []⟩ :=
  ⟨List.nil_prefix, fun _ _ => rfl⟩

theorem Hears.congr (h : Hears c₀ told s) (hinbox : d.inbox = s.connection.inbox)
    (hdefunct : s.connection.defunct = true → d.defunct = true) : Hears c₀ told ⟨d, s.heard⟩ := by
  refine ⟨h.heard, fun hd more => ?_⟩
  have hs : s.connection.defunct = false := by
    cases hs : s.connection.defunct with
    | false => rfl
    | true => rw [hdefunct hs] at hd; cases hd
  rw [h.ahead hs more, hinbox]

theorem Hears.lose (h : Hears c₀ told s) (hdefunct : d.defunct = true) : Hears c₀ told ⟨d, s.heard⟩ :=
  ⟨h.heard, fun hd => by rw [hdefunct] at hd; cases hd⟩

/-- An answer is taken out. -/
theorem Hears.take (h : Hears c₀ told s) (hs : s.connection.defunct = false) {r : Response}
    (hnext : Wire.nextResponse s.connection.inbox = (.ok (some r), d.inbox)) :
    Hears c₀ (told ++ [r]) ⟨d, s.heard⟩ := by
  have hahead (more : List UInt8) : Wire.answers (c₀.inbox.feed (s.heard ++ more))
      = told ++ [r] ++ Wire.answers (d.inbox.feed more) := by
    rw [h.ahead hs more, Wire.answers_of_some (Wire.nextResponse_feed_of_some hnext more),
      List.append_assoc]
    rfl
  refine ⟨?_, fun _ => hahead⟩
  have hnow := hahead []
  rw [List.append_nil] at hnow
  exact ⟨_, hnow.symm⟩

/-- There is no answer yet. -/
theorem Hears.nothing (h : Hears c₀ told s) (hs : s.connection.defunct = false)
    (hnext : Wire.nextResponse s.connection.inbox = (.ok none, d.inbox)) :
    Hears c₀ told ⟨d, s.heard⟩ := by
  refine ⟨h.heard, fun _ more => ?_⟩
  rw [h.ahead hs more, Wire.answers_feed_of_none hnext more]

/-- Bytes come in. -/
theorem Hears.feed (h : Hears c₀ told s) (hs : s.connection.defunct = false) {b : List UInt8}
    (hinbox : d.inbox = s.connection.inbox.feed b) : Hears c₀ told ⟨d, s.heard ++ b⟩ := by
  refine ⟨?_, fun _ more => ?_⟩
  · exact ⟨_, (h.ahead hs b).symm⟩
  · rw [List.append_assoc, h.ahead hs, hinbox, Chunk.Reader.feed_feed]

/-- Exchanges were begun since, answers were taken out of what was read, and they belong together. -/
structure Tracks (c₀ : Connection) (begun : List Exchange) (told : List Response) (s : Session) :
    Prop where
  correlated : Correlated c₀ s.connection begun told
  hears : Hears c₀ told s

theorem Tracks.start (c : Connection) : Tracks c [] [] ⟨c, []⟩ := ⟨.refl c, .start c⟩

theorem Tracks.keeps (h : Tracks c₀ begun told s) (hd : Keeps s.connection d) :
    Tracks c₀ begun told ⟨d, s.heard⟩ :=
  ⟨h.correlated.congr hd.answered hd.pending, h.hears.congr hd.inbox hd.defunct⟩

theorem Tracks.begin (h : Tracks c₀ begun told s) {x : Exchange} (hd : Begins s.connection d x) :
    Tracks c₀ (begun ++ [x]) told ⟨d, s.heard⟩ :=
  ⟨h.correlated.begin hd.answered hd.pending,
    h.hears.congr hd.inbox fun hs => by rw [hd.defunct, hs]⟩

/-- A RESET has got a record for an answer. -/
def Misplaced (c₀ : Connection) (begun : List Exchange) (told : List Response) : Prop :=
  ∃ i x, (c₀.pending ++ begun)[i]? = some x ∧ x.purpose = .reset ∧ Response.recordsOf i told ≠ []

theorem not_misplaced_nil (c : Connection) (begun : List Exchange) : ¬Misplaced c begun [] := by
  rintro ⟨i, x, _, _, hrecords⟩
  exact hrecords (by simp [Response.recordsOf])

/-- What is begun later has got no record yet. -/
theorem Misplaced.of_begin (h : Tracks c₀ begun told s) {x : Exchange}
    (hmisplaced : Misplaced c₀ (begun ++ [x]) told) : Misplaced c₀ begun told := by
  obtain ⟨i, y, hy, hpurpose, hrecords⟩ := hmisplaced
  refine ⟨i, y, ?_, hpurpose, hrecords⟩
  have hi : i < (c₀.pending ++ begun).length := by
    rw [List.length_append]
    exact Nat.lt_of_not_le fun hlarge => hrecords (h.correlated.spare i hlarge)
  rwa [← List.append_assoc, List.getElem?_append_left hi] at hy

/-- An answer goes to the oldest exchange without a summary. If it is misplaced there, that is noticed. -/
theorem Tracks.receive {r : Response} {x : Exchange} {rest : List Exchange}
    (hbooks : Correlated c₀ s.connection begun told) (hhears : Hears c₀ (told ++ [r]) s)
    (hpending : s.connection.pending = x :: rest) :
    Tracks c₀ begun (told ++ [r]) ⟨(s.connection.receive r).2.2, s.heard⟩ ∧
    (¬Misplaced c₀ begun told → Misplaced c₀ begun (told ++ [r]) →
      (s.connection.receive r).2.1 = some ⟨.reset, .close, none⟩) := by
  have hlink := sameLink_receive s.connection r
  refine ⟨⟨hbooks.receive hpending r,
    hhears.congr hlink.inbox fun hdefunct => by rw [hlink.defunct, hdefunct]⟩, ?_⟩
  rintro hplaced ⟨i, y, hy, hpurpose, hrecords⟩
  rw [Response.recordsOf_append] at hrecords
  have hold : Response.recordsOf i told = [] :=
    Classical.not_not.mp fun hsome => hplaced ⟨i, y, hy, hpurpose, hsome⟩
  rw [hold, List.nil_append] at hrecords
  split at hrecords
  · next hi =>
    -- the record is for the exchange in front, which is the RESET
    have horder := hbooks.inOrder i
    have hindex : c₀.answered.size + i = s.connection.answered.size + 0 := by
      rw [hi, hbooks.concluded, Nat.add_zero]
    rw [hy, hindex, exchange?_pending, hpending] at horder
    have hx : x = y.after _ _ := Option.some.inj horder
    cases r with
    | record values =>
      rw [receive_record_of_reset hpending (by rw [hx, Exchange.after_purpose, hpurpose])]
    | success | failure | ignored => exact absurd rfl hrecords
  · exact absurd rfl hrecords

/-- Where work can wait: exchanges were begun, and perhaps RESETs after them. -/
def Waiting (c₀ : Connection) (begun : List Exchange) (s : Session) : Prop :=
  ∃ n told, Tracks c₀ (begun ++ List.replicate n resetExchange) told s

/-- Where work has come to an end: besides, a RESET answered with a record has closed the connection, unless
closing had been begun and given up before. -/
def Rested (c₀ : Connection) (begun : List Exchange) (s : Session) : Prop :=
  ∃ n told, Tracks c₀ (begun ++ List.replicate n resetExchange) told s ∧
    s.connection.closing = c₀.closing ∧
    (c₀.closing = false → Misplaced c₀ (begun ++ List.replicate n resetExchange) told →
      s.connection.closed = true)

/-- What is left to be done about an answer: only where a RESET was answered with a record the connection is
not closed yet. -/
def Owing (c₀ : Connection) (begun : List Exchange) (trouble : Option Trouble) (s : Session) : Prop :=
  Waiting c₀ begun s ∧ s.connection.closing = c₀.closing ∧
    (trouble ≠ some ⟨.reset, .close, none⟩ → Rested c₀ begun s)

theorem Waiting.congr (h : Waiting c₀ begun s) (hanswered : d.answered = s.connection.answered)
    (hpending : d.pending = s.connection.pending) (hinbox : d.inbox = s.connection.inbox)
    (hdefunct : s.connection.defunct = true → d.defunct = true) : Waiting c₀ begun ⟨d, s.heard⟩ := by
  obtain ⟨n, told, hcorrelated, hhears⟩ := h
  exact ⟨n, told, hcorrelated.congr hanswered hpending, hhears.congr hinbox hdefunct⟩

theorem Waiting.keeps (h : Waiting c₀ begun s) (hd : Keeps s.connection d) :
    Waiting c₀ begun ⟨d, s.heard⟩ := h.congr hd.answered hd.pending hd.inbox hd.defunct

theorem Waiting.rested (h : Waiting c₀ begun s) (hclosing : s.connection.closing = c₀.closing)
    (hclosed : c₀.closing = false → s.connection.closed = true) : Rested c₀ begun s := by
  obtain ⟨n, told, htracks⟩ := h
  exact ⟨n, told, htracks, hclosing, fun hc _ => hclosed hc⟩

theorem Rested.keeps (h : Rested c₀ begun s) (hd : Keeps s.connection d) :
    Rested c₀ begun ⟨d, s.heard⟩ := by
  obtain ⟨n, told, htracks, hclosing, hplaced⟩ := h
  exact ⟨n, told, htracks.keeps hd, by rw [hd.closing, hclosing], fun hc hm => hd.closed (hplaced hc hm)⟩

theorem Rested.waiting (h : Rested c₀ begun s) :
    Waiting c₀ begun s ∧ s.connection.closing = c₀.closing := by
  obtain ⟨n, told, htracks, hclosing, _⟩ := h
  exact ⟨⟨n, told, htracks⟩, hclosing⟩

theorem Rested.owing (h : Rested c₀ begun s) (trouble : Option Trouble) :
    Owing c₀ begun trouble s := ⟨h.waiting.1, h.waiting.2, fun _ => h⟩

/-- A RESET is begun. -/
theorem Rested.beginReset (h : Rested c₀ begun s) (hd : Begins s.connection d resetExchange) :
    Rested c₀ begun ⟨d, s.heard⟩ := by
  obtain ⟨n, told, htracks, hclosing, hplaced⟩ := h
  have hbegun : begun ++ List.replicate (n + 1) resetExchange
      = begun ++ List.replicate n resetExchange ++ [resetExchange] := by
    rw [List.replicate_succ', List.append_assoc]
  refine ⟨n + 1, told, ?_, by rw [hd.closing, hclosing], ?_⟩
  · rw [hbegun]
    exact htracks.begin hd
  · rw [hbegun, hd.closed]
    exact fun hc hm => hplaced hc (hm.of_begin htracks)

end

end BoltClient.Connection
