import BoltClient.Proofs.Chunk.Counting
import BoltClient.Proofs.Connection.Warning

namespace BoltClient.Connection

open Work Session Relation

variable {c d : Connection} {s t u : Session} {heard : List UInt8} {link : Link} {counts : Counts}

theorem beginWrite_of_linked (hlink : c.transport = some link) : c.beginWrite =
    if c.outbox.size = 0 then (.ok none, c)
    else (.ok (some ⟨link, c.outbox.take.1, c.deadline⟩), { c with outbox := c.outbox.take.2, inFlight := true }) := by
  unfold beginWrite
  rw [hlink]

/-- A connection once everything that waited is written. -/
def written (now : Instant) (c : Connection) : Connection :=
  { c with outbox := c.outbox.take.2, inFlight := false, lastUsed := now }

theorem leads_sendAll (now : Instant) (hworks : Works c) (hlink : c.transport = some link)
    (hsize : c.outbox.size ≠ 0) :
    Leads anyNetwork (sendAll.run, ⟨c, heard⟩) (.done (.ok ()), ⟨c.written now, heard⟩) := by
  let writing : Connection := { c with outbox := c.outbox.take.2, inFlight := true }
  have hbegin : c.beginWrite = (.ok (some ⟨link, c.outbox.take.1, c.deadline⟩), writing) := by
    rw [beginWrite_of_linked hlink, if_neg hsize]
  have hchecked : Session.Answers ⟨c, heard⟩ (.edit fun _ c => c.check .writing) (.ok ()) ⟨c, heard⟩ :=
    answers_edit now (check_of_works hworks .writing)
  have hwritten : Session.Answers ⟨writing, heard⟩ (.transfer (.write link c.outbox.take.1 c.deadline)) .done
      ⟨writing, heard⟩ := congrArg (Session.mk writing) (List.append_nil heard).symm
  refine .head (.answer hchecked) ?_
  refine .head (.answer (answers_edit now hbegin)) ?_
  refine .head (.answer hwritten) ?_
  exact .head (.answer (b := .ok ()) ⟨now, rfl, rfl⟩) .refl

section

variable {r : Response} {inbox : Chunk.Reader}

/-- The answer is among the bytes that are here. -/
theorem leads_nextAnswer (hanswer : Wire.nextResponse c.inbox = (.ok (some r), inbox)) :
    Leads anyNetwork (nextAnswer.run, ⟨c, heard⟩) (.done (.ok r), ⟨{ c with inbox := inbox }, heard⟩) :=
  .head .round (.head (.answer (answers_edit .start (beginRead_of_some hanswer))) .refl)

/-- The answer comes with the next bytes. -/
theorem leads_nextAnswer_reading {rest : Chunk.Reader} {bytes : List UInt8}
    (hlink : c.transport = some link) (hempty : Wire.nextResponse c.inbox = (.ok none, rest))
    (hanswer : Wire.nextResponse (rest.feed bytes) = (.ok (some r), inbox)) :
    Leads anyNetwork (nextAnswer.run, ⟨c, heard⟩)
      (.done (.ok r), ⟨{ c with inbox := inbox, inFlight := false }, heard ++ bytes⟩) := by
  let fed : Connection := { c with inbox := rest.feed bytes, inFlight := false }
  have hfound : Leads anyNetwork (nextAnswer.run, ⟨fed, heard ++ bytes⟩)
      (.done (.ok r), ⟨{ fed with inbox := inbox }, heard ++ bytes⟩) := leads_nextAnswer hanswer
  refine .head .round ?_
  refine .head (.answer (answers_edit .start (beginRead_of_none hempty hlink))) ?_
  refine .head (.answer (b := .bytes bytes) rfl) ?_
  refine .head (.answer (b := .ok ()) (t := ⟨fed, heard ++ bytes⟩) ⟨.start, rfl, rfl⟩) ?_
  exact hfound

theorem leads_fetchOne {trouble : Option Trouble} (now : Instant) (hworks : Works s.connection)
    (hpending : s.connection.pending.isEmpty = false)
    (hnext : Leads anyNetwork (nextAnswer.run, s) (.done (.ok r), t))
    (hreceive : { t.connection with lastUsed := now }.receive r = (counts, trouble, d)) :
    Leads anyNetwork (fetchOne.run, s) (.done (.ok (counts, trouble)), ⟨d, t.heard⟩) := by
  have hchecked : s.Answers (.edit fun _ c => c.check .reading) (.ok ()) s :=
    answers_edit now (check_of_works hworks .reading)
  refine .head (.answer hchecked) ?_
  refine .head (.answer (b := false) (t := s) ⟨now, hpending.symm, rfl⟩) ?_
  refine ReflTransGen.trans (Leads.bind hnext _) ?_
  have hcounts := congrArg (fun found => (found.1, found.2.1)) hreceive.symm
  have hconnection := congrArg (fun found => Session.mk found.2.2 t.heard) hreceive.symm
  exact .head (.answer ⟨now, hcounts, hconnection⟩) .refl

end

theorem leads_fetchMessage (hfetch : Leads anyNetwork (fetchOne.run, s) (.done (.ok (counts, none)), t)) :
    Leads anyNetwork (fetchMessage.run, s) (.done (.ok counts), t) := hfetch.bind _

/-- An error of the server is given once the connection is brought back. -/
theorem leads_fetchMessage_reset {trouble : Trouble} {e : Error}
    (hfetch : Leads anyNetwork (fetchOne.run, s) (.done (.ok (counts, some trouble)), t))
    (hremedy : trouble.remedy = .reset) (herror : trouble.error = some e)
    (hreset : Leads anyNetwork (reset.run, t) (.done (.ok ()), u)) :
    Leads anyNetwork (fetchMessage.run, s) (.done (.error e), u) := by
  have hsettled : Leads anyNetwork ((settle trouble).run, t) (.done (.error e), u) := by
    unfold settle giveError
    rw [hremedy, herror]
    exact (hreset.bind _).bind _
  exact .trans (hfetch.bind _) (hsettled.bind _)

/-- One of the answers that are waited for comes, and nothing is to be done about it. -/
def TakesIn (s t : Session) : Prop :=
  s.connection.isQuiet = false ∧ ∃ counts, Leads anyNetwork (fetchOne.run, s) (.done (.ok (counts, none)), t)

theorem leads_fetchAll (h : ReflTransGen TakesIn s t) (hquiet : t.connection.isQuiet = true) :
    ∃ counts, Leads anyNetwork (fetchAll.run, s) (.done (.ok counts), t) := by
  unfold fetchAll
  generalize (⟨0, 0⟩ : Counts) = counts
  induction h using ReflTransGen.head_induction_on generalizing counts with
  | refl => exact ⟨counts, .last (.head (.answer (b := true) ⟨.start, hquiet.symm, rfl⟩) .refl)⟩
  | head htakes _ ih =>
    obtain ⟨hwaits, more, hfetch⟩ := htakes
    obtain ⟨all, hrest⟩ := ih (counts + more)
    refine ⟨all, .trans (Leads.again ?_) hrest⟩
    exact .head (.answer (b := false) ⟨.start, hwaits.symm, rfl⟩) ((leads_fetchMessage hfetch).bind _)

/-- A connection once RESET is queued. -/
def resetting (c : Connection) : Connection :=
  { c with
    outbox := (c.outbox.write [0xB0, 0x0F]).endMessage
    pending := c.pending ++ [resetExchange] }

theorem leads_reset (now : Instant) (hworks : Works c) (hlink : c.transport = some link)
    (hfetched : ReflTransGen TakesIn ⟨c.resetting.written now, heard⟩ t) (hquiet : t.connection.isQuiet = true) :
    Leads anyNetwork (reset.run, ⟨c, heard⟩) (.done (.ok ()), t) := by
  have hsend : Leads anyNetwork (sendAll.run, ⟨c.resetting, heard⟩)
      (.done (.ok ()), ⟨c.resetting.written now, heard⟩) :=
    leads_sendAll now ⟨hworks.settled, hworks.defunct, hworks.closed⟩ hlink (Chunk.Writer.size_endMessage _)
  refine .head (.answer (answers_edit now (queue_reset c))) ?_
  refine ReflTransGen.trans (Leads.bind hsend _) ?_
  generalize Session.mk (c.resetting.written now) heard = sent at hfetched
  clear hsend
  induction hfetched using ReflTransGen.head_induction_on with
  | refl => exact Leads.last (.head (.answer (b := true) ⟨now, hquiet.symm, rfl⟩) .refl)
  | head htakes _ ih =>
    obtain ⟨hwaits, counts, hfetch⟩ := htakes
    refine .trans (Leads.again ?_) ih
    exact .head (.answer (b := false) ⟨now, hwaits.symm, rfl⟩) (hfetch.bind _)

end BoltClient.Connection
