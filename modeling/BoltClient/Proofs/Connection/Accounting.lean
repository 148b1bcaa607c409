import BoltClient.Proofs.Chunk.Counting
import BoltClient.Proofs.Connection.Address
import BoltClient.Proofs.Connection.Calls
import BoltClient.Proofs.Connection.Warning
import BoltClient.Proofs.PackStream.Spelling
import BoltClient.Proofs.Work.Upkeep

/-!
Accounts of what goes back and forth. While a connection is open, the requests that have been written and those
that wait to be written are, one for one, those that have been answered and those that are pending. So where the
server does not answer more than it was asked, nothing waits to be written once nothing is pending.
-/

namespace BoltClient

namespace PackStream

/-- No structure is written in no bytes. -/
theorem encode_struct_ne_nil {tag : UInt8} {fields : List Value} {bytes : List UInt8}
    (h : encode (.struct tag fields) = .ok bytes) : bytes ≠ [] := by
  rw [encode_eq_spell, spell] at h
  obtain ⟨front, back, _, hback, rfl⟩ := joined_eq_ok_iff.mp h
  obtain ⟨_, rest, htag, _, rfl⟩ := joined_eq_ok_iff.mp hback
  cases htag
  simp

end PackStream

def Transfer.spoken : {β : Type} → Transfer β → List UInt8
  | _, .write _ bytes _ => bytes
  | _, _ => []

namespace Connection

open Chunk (Carries messageCount)
open Work

/-- What has gone back and forth since some moment. -/
structure Account where
  /-- The connection at that moment. -/
  start : Connection
  heard : List UInt8 := []
  written : List UInt8 := []

namespace Account

/-- The answers that have come. -/
def told (a : Account) : List Response := Wire.answers (a.start.inbox.feed a.heard)

/-- The server has not sent more summaries than requests were written to it. -/
def Fair (a : Account) : Prop := (Response.summaries a.told).length ≤ messageCount a.written

def note (a : Account) {β : Type} (q : Transfer β) (b : β) : Account :=
  { a with heard := a.heard ++ q.heard b, written := a.written ++ q.spoken }

end Account

structure Audited where
  connection : Connection
  account : Account

def Audited.Answers (s : Audited) : {β : Type} → Query β → β → Audited → Prop
  | _, .edit f, b, t => ∃ now, b = (f now s.connection).1 ∧ t = ⟨(f now s.connection).2, s.account⟩
  | _, .transfer q, b, t => t = ⟨s.connection, s.account.note q b⟩

def audit : Surroundings Query Audited where
  Answers s q b t := s.Answers q b t
  Allows _ _ := True

namespace Audited

variable {α : Type} {s : Audited}

theorem safe_edit {f : Instant → Connection → α × Connection} {post : α → Audited → Prop}
    (h : ∀ now, post (f now s.connection).1 ⟨(f now s.connection).2, s.account⟩) :
    (edit f : Task α).Safe audit s post := by
  refine ⟨trivial, ?_⟩
  rintro b t ⟨now, rfl, rfl⟩
  exact h now

theorem safe_attempt {f : Instant → Connection → Except Error α × Connection}
    {post : Except Error α → Audited → Prop}
    (h : ∀ now, post (f now s.connection).1 ⟨(f now s.connection).2, s.account⟩) :
    (attempt f).run.Safe audit s post := safe_edit h

theorem safe_editAmid {f : Instant → Connection → α × Connection} {post : Except Error α → Audited → Prop}
    (h : ∀ now, post (.ok (f now s.connection).1) ⟨(f now s.connection).2, s.account⟩) :
    (edit f : Attempt α).run.Safe audit s post := Work.Safe.map (safe_edit h)

theorem safe_transferAmid {q : Transfer α} {post : Except Error α → Audited → Prop}
    (h : ∀ b, post (.ok b) ⟨s.connection, s.account.note q b⟩) :
    (transfer q : Attempt α).run.Safe audit s post := by
  refine ⟨trivial, ?_⟩
  rintro b t rfl
  exact h b

end Audited

/-- Requests have been `written` and others wait to be written, together as many as there are exchanges that are
pending or among the first `concluded`. -/
def Posted (written : List UInt8) (concluded : Nat) (c : Connection) : Prop :=
  ∃ sent waiting, Carries 0xFFFF written sent [] ∧ c.outbox.Holds [] waiting [] ∧
    (∀ m ∈ sent ++ waiting, m ≠ []) ∧ concluded + c.pending.length = sent.length + waiting.length

/-- A connection works; some answers have been taken out of what has come, and so many exchanges are over. -/
structure Reckons (told : List Response) (concluded : Nat) (a : Account) (c : Connection) : Prop where
  works : Works c
  calm : c.closing = false
  linked : c.transport ≠ none
  hears : Hears a.start told ⟨c, a.heard⟩
  posted : Posted a.written concluded c

/-- The account of a connection is in order, if it is not closed. -/
def InOrder (s : Audited) : Prop := s.connection.closed = true ∨
  ∃ told, Reckons told (Response.summaries told).length s.account s.connection

/-- Nothing but what is known of time and answers is different. -/
structure SameLine (c d : Connection) : Prop where
  transport : d.transport = c.transport
  inbox : d.inbox = c.inbox
  outbox : d.outbox = c.outbox
  pending : d.pending.length = c.pending.length
  closing : d.closing = c.closing
  closed : d.closed = c.closed
  defunct : d.defunct = c.defunct
  inFlight : d.inFlight = c.inFlight

/-- A connection that nothing is pending on and that has nothing to send. -/
structure Idle (c : Connection) : Prop where
  works : Works c
  calm : c.closing = false
  linked : c.transport ≠ none
  pending : c.pending = []
  sent : c.outbox.size = 0

section

variable {c d : Connection} {a : Account} {s : Audited} {told : List Response} {concluded : Nat}

theorem Posted.congr {written : List UInt8} (h : Posted written concluded c) (houtbox : d.outbox = c.outbox)
    (hpending : d.pending.length = c.pending.length) : Posted written concluded d := by
  unfold Posted
  rw [houtbox, hpending]
  exact h

theorem Reckons.congr (h : Reckons told concluded a c) (hd : SameLine c d) : Reckons told concluded a d where
  works := ⟨hd.inFlight.trans h.works.settled, hd.defunct.trans h.works.defunct,
    hd.closed.trans h.works.closed⟩
  calm := hd.closing.trans h.calm
  linked := fun hnone => h.linked (hd.transport.symm.trans hnone)
  hears := h.hears.congr hd.inbox hd.defunct.trans
  posted := h.posted.congr hd.outbox hd.pending

theorem InOrder.congr (h : InOrder s) (hd : SameLine s.connection d) : InOrder ⟨d, s.account⟩ := by
  rcases h with hclosed | ⟨told, hreckons⟩
  · exact .inl (hd.closed.trans hclosed)
  · exact .inr ⟨told, hreckons.congr hd⟩

/-- A new account of a connection that is left alone is in order. -/
theorem Idle.inOrder (h : Idle c) : InOrder ⟨c, { start := c }⟩ := by
  refine .inr ⟨[], h.works, h.calm, h.linked, .start c, [], [], .nothing, ?_, nofun, ?_⟩
  · exact Chunk.Writer.holds_nothing_iff.mpr h.sent
  · rw [h.pending]
    rfl

/-- Where the server has not answered more than it was asked and nothing is pending, nothing waits to be sent. -/
theorem Reckons.idle (h : Reckons told (Response.summaries told).length a c) (hfair : a.Fair)
    (hpending : c.pending = []) : Idle c := by
  refine ⟨h.works, h.calm, h.linked, hpending, ?_⟩
  obtain ⟨sent, waiting, hcarries, hholds, hfull, hcount⟩ := h.posted
  have htold : (Response.summaries told).length ≤ (Response.summaries a.told).length :=
    (h.hears.heard.sublist.filter _).length_le
  have hwritten : messageCount a.written = sent.length :=
    hcarries.messageCount_eq (by decide) fun m hm => hfull m (List.mem_append_left _ hm)
  have hanswered : (Response.summaries a.told).length ≤ sent.length := hwritten ▸ hfair
  rw [hpending, List.length_nil] at hcount
  obtain rfl : waiting = [] := List.eq_nil_of_length_eq_zero (by omega)
  exact Chunk.Writer.holds_nothing_iff.mp hholds

/-- A request that is queued waits to be written, and its exchange is pending. -/
theorem Posted.queue {written : List UInt8} (h : Posted written concluded c) (r : Request) (purpose : Purpose)
    (watch : Watch) : Posted written concluded (c.queue r purpose watch).2 := by
  unfold Connection.queue put
  cases hencode : PackStream.encode r.toStruct.value with
  | error e => exact h
  | ok payload =>
    obtain ⟨sent, waiting, hcarries, hholds, hfull, hcount⟩ := h
    refine ⟨sent, waiting ++ [payload], hcarries, hholds.message payload, fun m hm => ?_, ?_⟩
    · rw [← List.append_assoc, List.mem_append, List.mem_singleton] at hm
      rcases hm with hm | rfl
      · exact hfull m hm
      · exact PackStream.encode_struct_ne_nil hencode
    · simp only [List.length_append, List.length_singleton]
      omega

theorem queue_line (c : Connection) (r : Request) (purpose : Purpose) (watch : Watch) :
    (c.queue r purpose watch).2.transport = c.transport ∧ (c.queue r purpose watch).2.inbox = c.inbox ∧
      (c.queue r purpose watch).2.closing = c.closing ∧ (c.queue r purpose watch).2.closed = c.closed ∧
      (c.queue r purpose watch).2.defunct = c.defunct ∧ (c.queue r purpose watch).2.inFlight = c.inFlight := by
  unfold queue put
  cases PackStream.encode r.toStruct.value <;> exact ⟨rfl, rfl, rfl, rfl, rfl, rfl⟩

theorem InOrder.queue (h : InOrder s) (r : Request) (purpose : Purpose) (watch : Watch) :
    InOrder ⟨(s.connection.queue r purpose watch).2, s.account⟩ := by
  obtain ⟨htransport, hinbox, hclosing, hclosed, hdefunct, hinFlight⟩ := queue_line s.connection r purpose watch
  rcases h with hparted | ⟨told, hreckons⟩
  · exact .inl (hclosed.trans hparted)
  · refine .inr ⟨told, ⟨?_, ?_, ?_⟩, hclosing.trans hreckons.calm, ?_, ?_, hreckons.posted.queue r purpose watch⟩
    · exact hinFlight.trans hreckons.works.settled
    · exact hdefunct.trans hreckons.works.defunct
    · exact hclosed.trans hreckons.works.closed
    · exact fun hnone => hreckons.linked (htransport.symm.trans hnone)
    · exact hreckons.hears.congr hinbox hdefunct.trans

/-- An answer that has been taken out of what has come goes to the oldest exchange that is pending. -/
theorem Reckons.receive {x : Exchange} {rest : List Exchange} {r : Response}
    (h : Reckons (told ++ [r]) (Response.summaries told).length a c) (hpending : c.pending = x :: rest) :
    Reckons (told ++ [r]) (Response.summaries (told ++ [r])).length a (c.receive r).2.2 := by
  obtain ⟨hsize, hbooks⟩ := receive_books hpending r
  have hleft : (c.receive r).2.2.pending.length + r.summary?.toList.length = c.pending.length := by
    have hlength := congrArg List.length hbooks
    rw [hpending]
    simp only [List.length_append, List.length_cons, Array.length_toList] at hlength ⊢
    omega
  have hlink := sameLink_receive c r
  have htransport : (c.receive r).2.2.transport = c.transport := by
    obtain ⟨_, _, _, _, _, _, _, _, _, hc⟩ := receive_frame c r
    rw [hc]
  obtain ⟨sent, waiting, hcarries, hholds, hfull, hcount⟩ := h.posted
  refine ⟨⟨?_, ?_, ?_⟩, hlink.closing.trans h.calm, ?_, ?_, sent, waiting, hcarries, ?_, hfull, ?_⟩
  · exact (inFlight_receive c r).trans h.works.settled
  · exact hlink.defunct.trans h.works.defunct
  · exact hlink.closed.trans h.works.closed
  · exact fun hnone => h.linked (htransport.symm.trans hnone)
  · exact h.hears.congr hlink.inbox hlink.defunct.trans
  · rw [outbox_receive]
    exact hholds
  · rw [Response.summaries_append, List.length_append]
    omega

/-- Whatever is done with a connection that is closed, it stays closed. -/
theorem Alters.closed (h : Alters c d) (hc : c.closed = true) : d.closed = true := by
  cases h with
  | same | unlink => exact hc
  | part | kill => rfl
  | check _ direction => exact (check_cases c direction).1.closed hc
  | beginWrite => exact (keeps_beginWrite c).closed hc
  | endWrite outcome now => exact (keeps_endWrite outcome now c).closed hc
  | beginRead now => exact (beginRead_cases now c).1.closed hc
  | endRead input => cases input <;> first | exact hc | rfl
  | receive now _ r => exact (sameLink_receive { c with lastUsed := now } r).closed.trans hc
  | beginClose =>
    unfold Connection.beginClose
    rw [hc]
    exact hc
  | queue _ r purpose watch => exact (queue_line c r purpose watch).2.2.2.1.trans hc

theorem safe_closed {α : Type} {w : Task α} (hw : w.Asks Query.Alters) (hc : s.connection.closed = true) :
    w.Safe audit s fun _ t => InOrder t := by
  refine (hw.safe (fun t : Audited => t.connection.closed = true) (fun _ _ => trivial) ?_ hc).mono
    fun _ t ht => .inl ht
  intro β q s b t hs hq hb
  cases q with
  | edit f =>
    obtain ⟨now, _, rfl⟩ := hb
    exact (hq now s.connection).closed hs
  | transfer q =>
    obtain rfl : t = _ := hb
    exact hs

theorem Account.note_write (a : Account) (link : Link) (bytes : List UInt8) (deadline : Deadline)
    (outcome : Output) :
    a.note (.write link bytes deadline) outcome = { a with written := a.written ++ bytes } := by
  have hheard : (Transfer.write link bytes deadline).heard outcome = [] := rfl
  rw [note, hheard, List.append_nil]
  rfl

theorem Account.note_read (a : Account) (link : Link) (limit : Option Nat) (deadline : Deadline) (input : Input) :
    a.note (.read link limit deadline) input
      = { a with heard := a.heard ++ (Transfer.read link limit deadline).heard input } := by
  have hspoken : (Transfer.read link limit deadline).spoken = [] := rfl
  rw [note, hspoken, List.append_nil]

/-- What waited has been written. -/
theorem Reckons.write (h : Reckons told concluded a c) (now : Instant) :
    Reckons told concluded { a with written := a.written ++ c.outbox.take.1 }
      { c with outbox := c.outbox.take.2, lastUsed := now, inFlight := false } := by
  obtain ⟨sent, waiting, hcarries, hholds, hfull, hcount⟩ := h.posted
  refine ⟨⟨rfl, h.works.defunct, h.works.closed⟩, h.calm, h.linked, h.hears.congr rfl id, ?_⟩
  refine ⟨sent ++ waiting, [], hcarries.append hholds.carries_take, ?_, ?_, ?_⟩
  · exact Chunk.Writer.holds_nothing_iff.mpr (Chunk.Writer.size_take _)
  · rwa [List.append_nil]
  · rw [List.length_append]
    exact hcount

/-- The requests that waited have been written, or the connection is closed. -/
theorem flush_inOrder : Maintains audit InOrder flush.run := by
  rintro s (hclosed | ⟨told, h⟩)
  · exact safe_closed flush_alters hclosed
  obtain ⟨link, hlink⟩ := Option.ne_none_iff_exists'.mp h.linked
  unfold flush
  refine Safe.orFail (Audited.safe_attempt fun _ => ?_)
  rw [beginWrite_of_linked hlink]
  by_cases hnothing : s.connection.outbox.size = 0
  · rw [if_pos hnothing]
    exact safe_ok (.inr ⟨told, h⟩)
  · rw [if_neg hnothing]
    refine Safe.orFail (Audited.safe_transferAmid fun outcome => Audited.safe_attempt fun now => ?_)
    rw [Account.note_write]
    cases outcome with
    | done => exact .inr ⟨told, h.write now⟩
    | failed | late => exact .inl rfl

/-- The next answer has been taken out of what has come, or the connection is closed. -/
theorem nextAnswer_reckons (h : Reckons told concluded s.account s.connection) :
    nextAnswer.run.Safe audit s fun r t =>
      match r with
      | .ok x => Reckons (told ++ [x]) concluded t.account t.connection ∧
          t.connection.pending = s.connection.pending
      | .error _ => t.connection.closed = true := by
  unfold nextAnswer
  refine safe_iterateOrFail (fun _ t => Reckons told concluded t.account t.connection ∧
    t.connection.pending = s.connection.pending) ⟨h, rfl⟩ ?_
  rintro _ ⟨c, a⟩ ⟨h, hpending⟩
  refine Safe.orFail (Audited.safe_attempt fun now => ?_)
  obtain ⟨link, hlink⟩ := Option.ne_none_iff_exists'.mp h.linked
  match hnext : Wire.nextResponse c.inbox with
  | (.error e, inbox) =>
    have hbegin : c.beginRead now = (.error (.ofWire e), { { c with inbox := inbox }.kill with defunct := true }) := by
      unfold beginRead
      rw [hnext]
    rw [hbegin]
    exact rfl
  | (.ok (some x), inbox) =>
    rw [beginRead_of_some hnext]
    refine safe_ok ⟨⟨⟨h.works.settled, h.works.defunct, h.works.closed⟩, h.calm, h.linked, ?_, h.posted⟩, hpending⟩
    exact h.hears.take h.works.defunct hnext
  | (.ok none, inbox) =>
    rw [beginRead_of_none hnext hlink]
    refine Safe.orFail (Audited.safe_transferAmid fun input => Safe.orFail (Audited.safe_attempt fun _ => ?_))
    rw [Account.note_read]
    cases input with
    | ended | failed | late => exact rfl
    | bytes b =>
      have hhears : Hears a.start told ⟨{ c with inbox := inbox }, a.heard⟩ := h.hears.nothing h.works.defunct hnext
      refine safe_ok ⟨⟨⟨rfl, h.works.defunct, h.works.closed⟩, h.calm, h.linked, ?_, h.posted⟩, hpending⟩
      exact hhears.feed h.works.defunct rfl

/-- An answer goes to the exchange that it belongs to. -/
theorem fetchOne_inOrder : Maintains audit InOrder fetchOne.run := by
  rintro s (hclosed | ⟨told, h⟩)
  · exact safe_closed fetchOne_alters hclosed
  unfold fetchOne
  refine Safe.orFail (Audited.safe_attempt fun _ => ?_)
  rw [check_of_works h.works]
  refine Safe.orFail (Audited.safe_editAmid fun _ => ?_)
  dsimp only
  split
  · exact safe_ok (.inr ⟨told, h⟩)
  · next hsome =>
    refine Safe.orFail ((nextAnswer_reckons h).mono fun r t ht => ?_)
    cases r with
    | error e => exact .inl ht
    | ok x =>
      obtain ⟨hanswered, hpending⟩ := ht
      obtain ⟨y, rest, hy⟩ := List.exists_cons_of_ne_nil fun hnone => hsome (List.isEmpty_iff.mpr hnone)
      refine Audited.safe_editAmid fun now => .inr ⟨told ++ [x], ?_⟩
      have hnow : Reckons (told ++ [x]) (Response.summaries told).length t.account
          { t.connection with lastUsed := now } := hanswered.congr ⟨rfl, rfl, rfl, rfl, rfl, rfl, rfl, rfl⟩
      exact hnow.receive (hpending.trans hy)

section

variable {α : Type}

theorem edit_inOrder {f : Instant → Connection → α × Connection}
    (hf : ∀ now s, InOrder s → InOrder ⟨(f now s.connection).2, s.account⟩) :
    Maintains audit InOrder (edit f : Task α) := fun s hs => Audited.safe_edit fun now => hf now s hs

/-- A change of nothing that the account is about. -/
theorem edit_sameLine {f : Instant → Connection → α × Connection} (hf : ∀ now c, SameLine c (f now c).2) :
    Maintains audit InOrder (edit f : Task α) := edit_inOrder fun now _ hs => hs.congr (hf now _)

theorem look_inOrder (f : Connection → α) : Maintains audit InOrder (look f : Task α) :=
  edit_sameLine fun _ _ => ⟨rfl, rfl, rfl, rfl, rfl, rfl, rfl, rfl⟩

theorem queue_inOrder (r : Request) (purpose : Purpose) (watch : Watch) :
    Maintains audit InOrder (attempt fun _ c => c.queue r purpose watch).run :=
  edit_inOrder fun _ _ hs => hs.queue r purpose watch

theorem check_inOrder (direction : Direction) :
    Maintains audit InOrder (attempt fun _ c => c.check direction).run := by
  refine edit_inOrder fun _ s hs => ?_
  rcases hs with hclosed | ⟨told, h⟩
  · exact .inl ((check_cases s.connection direction).1.closed hclosed)
  · rw [check_of_works h.works]
    exact .inr ⟨told, h⟩

theorem kill_inOrder : Maintains audit InOrder (change kill : Task Unit) := edit_inOrder fun _ _ _ => .inl rfl

end

end

end Connection
end BoltClient
