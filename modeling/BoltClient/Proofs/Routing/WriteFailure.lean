import Mathlib
import BoltClient.Proofs.Connection.Recording
import BoltClient.Proofs.Connection.Warning
import BoltClient.Proofs.Wire.Stream

/-!
From a failure to the routing tables. A server that does not take writes for a database is taken out of the
writers of one table when its connection comes back: the table of the database that was named last. That is
the database of the work at hand as long as nothing in it names another, not even by its silence.
-/

namespace BoltClient

/-- What the tables make of a report on an address. -/
def Routing.Directory.heed (a : Address) (d : Directory) : Feedback → Directory
  | .deactivate => d.discard a
  | .writeFailure database => d.discardWriter a database
  | .invalidateAll => d

namespace Routing

variable {d : Directory} {t : Table} {a : Address} {database key : Option String}

theorem Directory.table?_modify (f : Table → Table) :
    (d.modify database f).table? key = (d.table? key).map fun t => if key = database then f t else t := by
  unfold Directory.table? Directory.modify
  induction d.tables with
  | nil => rfl
  | cons entry rest ih =>
    obtain ⟨k, t⟩ := entry
    rw [List.map_cons, List.lookup_cons, List.lookup_cons]
    by_cases hkey : key = k
    · rw [hkey, beq_self_eq_true]
      rfl
    · rw [beq_false_of_ne hkey]
      exact ih

/-- There is nothing to be taken out a second time. -/
theorem Table.discardWriter_twice (h : t.writers.Nodup) :
    (t.discardWriter a).discardWriter a = t.discardWriter a := by
  have hout : a ∉ t.writers.erase a := fun ha => (h.mem_erase_iff.mp ha).1 rfl
  have htwice : (t.writers.erase a).erase a = t.writers.erase a := List.erase_of_not_mem hout
  unfold Table.discardWriter
  rw [htwice]

/-- The tables of databases for which nothing is reported stay as they are. -/
theorem Directory.table?_heed {fs : List Feedback} (ht : d.table? key = some t) (hwriters : t.writers.Nodup)
    (hfs : .deactivate ∉ fs) : (fs.foldl (Directory.heed a) d).table? key
      = some (if .writeFailure key ∈ fs then t.discardWriter a else t) := by
  induction fs generalizing d t with
  | nil => simpa using ht
  | cons f rest ih =>
    have hrest : Feedback.deactivate ∉ rest := fun h => hfs (List.mem_cons_of_mem f h)
    rw [List.foldl_cons]
    cases f with
    | deactivate => exact absurd List.mem_cons_self hfs
    | invalidateAll => simpa [Directory.heed] using ih ht hwriters hrest
    | writeFailure database =>
      have hnext : (d.heed a (.writeFailure database)).table? key
          = some (if key = database then t.discardWriter a else t) := by
        rw [Directory.heed, Directory.discardWriter, Directory.table?_modify, ht]
        rfl
      by_cases hkey : key = database
      · rw [if_pos hkey] at hnext
        rw [ih hnext (hwriters.erase a) hrest, Table.discardWriter_twice hwriters, ite_self,
          if_pos (hkey ▸ List.mem_cons_self)]
      · rw [if_neg hkey] at hnext
        simpa [hkey] using ih hnext hwriters hrest

end Routing

namespace Pool

variable {p : Pool} {a : Address} {m : Member}

theorem directory_detach : (p.detach a).2.directory = p.directory := by
  unfold detach
  split
  · rfl
  · split <;> rfl

theorem directory_heed (f : Feedback) :
    (p.heed a f).2.directory = p.directory.map (Routing.Directory.heed a · f) := by
  cases f with
  | deactivate => exact directory_detach
  | writeFailure database => rfl
  | invalidateAll => exact Option.map_id'.symm

theorem directory_heedAll (fs : List Feedback) :
    (p.heedAll a fs).2.directory = p.directory.map (fs.foldl (Routing.Directory.heed a)) := by
  induction fs generalizing p with
  | nil => exact Option.map_id'.symm
  | cons f rest ih =>
    refine (@ih (p.heed a f).2).trans ?_
    rw [directory_heed, Option.map_map]
    rfl

theorem directory_checkIn (now : Instant) : (p.checkIn m now).2.directory = p.directory.map
    (m.connection.feedback.foldl (Routing.Directory.heed m.connection.address)) :=
  directory_heedAll m.connection.feedback

end Pool

namespace Connection

open Work Session
open Stage (Queueing)

/-- Work for a database: a query on its own, or a transaction. The extras of the queries inside a
transaction are as given. -/
inductive WorksFor (database : Option String) (inside : TransactionExtra → Prop) : List Queueing → Prop where
  | alone (query : String) (parameters : Entries Value) (extra : TransactionExtra)
      (filter : Notification.Filter) (hextra : extra.database = database) {rest : List Queueing}
      (hrest : ∀ q ∈ rest, (∃ n qid, q = .pull n qid) ∨ ∃ n qid, q = .discard n qid) :
      WorksFor database inside (.run query parameters extra filter :: rest)
  | transaction (extra : TransactionExtra) (filter : Notification.Filter) (hextra : extra.database = database)
      {rest : List Queueing}
      (hrest : ∀ q ∈ rest, (∃ n qid, q = .pull n qid) ∨ (∃ n qid, q = .discard n qid) ∨ q = .commit ∨
        ∃ query parameters extra filter, q = .run query parameters extra filter ∧ inside extra) :
      WorksFor database inside (.begin extra filter :: rest)

section

variable {c : Connection} {database : Option String} {inside : TransactionExtra → Prop} {q : Queueing}
  {rest : List Queueing} {n : Nat}

/-- The request that work begins with is for its database. -/
theorem WorksFor.first (h : WorksFor database inside (q :: rest)) {watch : Watch}
    (hbegun : (q.apply watch c).1 = .ok n) : q.database? c.version = some database := by
  have hsome (r : Entries Value → Request) (extra : TransactionExtra) (filter : Notification.Filter)
      (hextra : extra.database = database)
      (hok : (c.queueFor (r <$> Protocol.extraEntries c.version extra filter) extra.database watch).1
        = .ok n) :
      ((Protocol.extraEntries c.version extra filter).toOption.map fun _ => extra.database)
        = some database := by
    cases hentries : Protocol.extraEntries c.version extra filter with
    | error e =>
      rw [hentries] at hok
      cases hok
    | ok entries => exact congrArg some hextra
  cases h with
  | alone query parameters extra filter hextra =>
    exact hsome (.run query parameters) extra filter hextra hbegun
  | transaction extra filter hextra => exact hsome .begin extra filter hextra hbegun

/-- Whatever else in the work names a database is a query inside a transaction. -/
theorem WorksFor.others (h : WorksFor database (·.database = database) (q :: rest)) (version : Version) :
    ∀ r ∈ rest, ∀ named, r.database? version = some named → named = database := by
  intro r hr named hnamed
  cases h with
  | alone _ _ _ _ _ hrest =>
    rcases hrest r hr with ⟨_, _, rfl⟩ | ⟨_, _, rfl⟩ <;> cases hnamed
  | transaction _ _ _ hrest =>
    rcases hrest r hr with ⟨_, _, rfl⟩ | ⟨_, _, rfl⟩ | rfl | ⟨_, _, extra, filter, rfl, hinside⟩
    · cases hnamed
    · cases hnamed
    · cases hnamed
    · obtain ⟨_, _, rfl⟩ := Option.map_eq_some_iff.mp hnamed
      exact hinside

end

/-- What is noted down while work is at hand: for each of its requests that a server would not write for, the
database of the work, and no other. A pool then takes the server out of the writers of that database, and it
leaves the tables of the others alone. -/
structure Reported (c : Connection) (database : Option String) (new : List Feedback) (s : Session) :
    Prop where
  feedback : s.connection.feedback = c.feedback ++ new
  names : ∀ named, .writeFailure named ∈ new → named = database
  noted : ∀ n x f, s.connection.exchange? n = some x → x.failure = some f → f.refusesWrites = true →
    (∃ y, c.exchange? n = some y ∧ y.failure = some f) ∨ .writeFailure database ∈ new
  evicts : c.feedback = [] → .deactivate ∉ new → ∀ (p : Pool) d generation now key t,
    p.directory = some d → d.table? key = some t → t.writers.Nodup →
    ∃ d', (p.checkIn ⟨s.connection, generation⟩ now).2.directory = some d' ∧ d'.table? key =
      some (if key = database ∧ .writeFailure database ∈ new then t.discardWriter s.connection.address else t)

theorem Records.reported {new : List Feedback} {s : Session} {c : Connection}
    (h : Records c s.connection new) :
    Reported c c.lastDatabase new s := by
  refine ⟨h.feedback, h.names, h.noted, ?_⟩
  intro hnone hkept p d generation now key t hd ht hwriters
  have hfeedback : s.connection.feedback = new := by rw [h.feedback, hnone, List.nil_append]
  refine ⟨_, (Pool.directory_checkIn now).trans (congrArg (Option.map _) hd), ?_⟩
  refine (Routing.Directory.table?_heed ht hwriters (hfeedback ▸ hkept)).trans ?_
  have hkey : .writeFailure key ∈ new ↔ key = c.lastDatabase ∧ .writeFailure c.lastDatabase ∈ new :=
    ⟨fun hmem => ⟨h.names key hmem, h.names key hmem ▸ hmem⟩, fun ⟨hkey, hmem⟩ => hkey ▸ hmem⟩
  simp only [hfeedback, hkey]

/-- What is noted down when a server does not take writes names the database of the last RUN or BEGIN that
was queued. If every query of the work says which database it is for, that is the database of the work. -/
theorem write_failure_names_last (c : Connection) (q : Queueing) (watch : Watch) (n : Nat)
    (rest : List Queueing) (s : Session) (hbegun : (q.apply watch c).1 = .ok n)
    (h : Uses (q.apply watch c).2 rest s) :
    (∀ (k : Call) w t, k.queues = false → Leads anyNetwork (k.work, s) (w, t) →
      ∃ new, t.connection.feedback = s.connection.feedback ++ new ∧
        ∀ database, .writeFailure database ∈ new →
          database = named c.version c.lastDatabase (q :: rest)) ∧
    ∀ database, WorksFor database (·.database = database) (q :: rest) → ∃ new, Reported c database new s := by
  have hfirst := records_apply q watch c
  constructor
  · intro k w t hk hleads
    obtain ⟨new, hrecords⟩ := k.records hk hleads
    have hlast := h.remembers.2
    rw [hfirst.version, hfirst.lastDatabase] at hlast
    exact ⟨new, hrecords.feedback, fun database hmem => (hrecords.names database hmem).trans hlast⟩
  · intro database hworks
    rw [hworks.first hbegun] at hfirst
    obtain ⟨new, hrest⟩ := h.records fun r hr named hnamed => by
      rw [hfirst.lastDatabase]
      exact hworks.others _ r hr named hnamed
    obtain ⟨hfeedback, hnames, hnoted, hevicts⟩ := (hfirst.trans hrest).reported
    exact ⟨_, hfeedback, hnames, hnoted, hevicts⟩

/-- FAILURE with the code of a server that does not lead. -/
def notLeaderBytes : List UInt8 :=
  [0, 44, 0xB1, 0x7F, 0xA1, 0x84] ++ "code".toUTF8.toList ++ [0xD0, 34]
    ++ "Neo.ClientError.Cluster.NotALeader".toUTF8.toList ++ [0, 0]

def notLeader : Failure := ⟨[("code", .text "Neo.ClientError.Cluster.NotALeader")]⟩

set_option maxRecDepth 8000 in
theorem nextResponse_notLeader : Wire.nextResponse ((default : Chunk.Reader).feed notLeaderBytes)
    = (.ok (some (.failure notLeader.metadata)), default) := by
  have hvalue : PackStream.decode ([0xB1, 0x7F, 0xA1, 0x84] ++ "code".toUTF8.toList ++ [0xD0, 34]
      ++ "Neo.ClientError.Cluster.NotALeader".toUTF8.toList)
      = .ok (.struct 0x7F [.map notLeader.metadata]) := by
    cbv
  exact Wire.nextResponse_of_chunk (by cbv) (by simp) (by cbv) hvalue rfl

theorem notLeader_refusesWrites : notLeader.refusesWrites = true := by
  have hsplit : "Neo.ClientError.Cluster.NotALeader".splitOn "."
      = ["Neo", "ClientError", "Cluster", "NotALeader"] := by
    unfold String.splitOn
    repeat (unfold String.splitOnAux; simp +decide only [↓reduceIte])
  have hcode : (Server.Error.ofFailure notLeader).kind = .notALeader := by
    have hfailure : Server.Error.ofFailure notLeader
      = .ofCode (some "Neo.ClientError.Cluster.NotALeader") none := rfl
    rw [hfailure]
    unfold Server.Error.ofCode
    dsimp only [Option.getD]
    rw [hsplit]
    dsimp only
    decide
  unfold Failure.refusesWrites
  rw [hcode]
  rfl

def rested : Connection := { ofLink ⟨0⟩ default none .v5_2 none .start with state := .ready }

def opening : Queueing := .begin { database := some "d" } {}

def query (inside : TransactionExtra) : Queueing := .run "RETURN 1" [] inside {}

theorem worksFor_query {inside : TransactionExtra → Prop} {extra : TransactionExtra} (h : inside extra) :
    WorksFor (some "d") inside [opening, query extra] := by
  refine .transaction { database := some "d" } {} rfl fun q hq => .inr (.inr (.inr ?_))
  exact ⟨"RETURN 1", [], extra, {}, List.mem_singleton.mp hq, h⟩

def begun : Connection := (opening.apply {} rested).2

/-- The connection after BEGIN and one query, but for what is to be written. -/
def underWay (inside : TransactionExtra) (outbox : Chunk.Writer) : Connection :=
  { rested with
    pending := [.ofRequest .begin .plain {}, .ofRequest .run .plain {}]
    outbox := outbox
    lastDatabase := inside.database }

/-- A failure that is read next is noted down for the database that is remembered. -/
theorem fetchMessage_notes {x : Exchange} {bytes : List UInt8} {f : Failure} (c : Connection)
    (heard : List UInt8) (hworks : Works c) (hpending : c.pending = [x]) (hx : x.purpose ≠ .reset)
    (hinbox : c.inbox = default) (htransport : c.transport = some ⟨0⟩)
    (hanswer : Wire.nextResponse ((default : Chunk.Reader).feed bytes)
      = (.ok (some (.failure f.metadata)), default))
    (hrefuses : f.refusesWrites = true) :
    ∃ w t, Leads anyNetwork (Call.fetchMessage.work, ⟨c, heard⟩) (w, t) ∧
      .writeFailure c.lastDatabase ∈ t.connection.feedback := by
  have hwaiting : c.pending.isEmpty = false := by rw [hpending]; rfl
  have hempty : Wire.nextResponse c.inbox = (.ok none, default) := by
    rw [hinbox]
    exact Wire.nextResponse_default
  let d : Connection := { c with inbox := default, inFlight := false, lastUsed := .start }
  have hfeedback := @feedback_receive d x [] hpending (.failure f.metadata)
  dsimp only at hfeedback
  rw [if_neg hx] at hfeedback
  have hnoted : .writeFailure c.lastDatabase ∈ (d.receive (.failure f.metadata)).2.2.feedback :=
    hfeedback ▸ List.mem_append_right _ (feedbackOf_of_refusesWrites hrefuses)
  have hnext : Leads anyNetwork (nextAnswer.run, ⟨c, heard⟩) (.done (.ok (.failure f.metadata)),
      ⟨{ c with inbox := default, inFlight := false }, heard ++ bytes⟩) :=
    leads_nextAnswer_reading htransport hempty hanswer
  have hfetch := leads_fetchOne .start hworks hwaiting hnext rfl
  exact ⟨_, _, (hfetch.bind _).bind _, hnoted⟩

/-- The note names the database of the query. -/
theorem refused_inside {inside : TransactionExtra} {outbox : Chunk.Writer}
    (hqueued : ((query inside).apply {} begun).2 = underWay inside outbox) (hsize : outbox.size ≠ 0) :
    ∃ s, Uses begun [query inside] s ∧
      .writeFailure inside.database ∈ s.connection.feedback := by
  have hstart : Uses begun [query inside] ⟨underWay inside outbox, []⟩ := by
    have h := (@Uses.start begun).queued (query inside) {}
    rw [hqueued] at h
    exact h
  let sent : Connection := underWay inside outbox.take.2
  have hsend : Leads anyNetwork (sendAll.run, ⟨underWay inside outbox, []⟩) (.done (.ok ()), ⟨sent, []⟩) :=
    leads_sendAll .start ⟨rfl, rfl, rfl⟩ rfl hsize
  let x := Exchange.ofRequest .begin .plain {}
  let accepted : Connection := { sent with
    answered := #[(x.succeed ⟨[]⟩).1], pending := [.ofRequest .run .plain {}], state := .inTransaction }
  have hnext : Leads anyNetwork (nextAnswer.run, ⟨sent, []⟩) (.done (.ok (.success [])), ⟨sent, Wire.successBytes⟩) :=
    leads_nextAnswer_reading rfl Wire.nextResponse_default Wire.nextResponse_success
  have hfetch : Leads anyNetwork (fetchOne.run, ⟨sent, []⟩)
      (.done (.ok (⟨0, 1⟩, none)), ⟨accepted, Wire.successBytes⟩) :=
    leads_fetchOne .start ⟨rfl, rfl, rfl⟩ rfl hnext rfl
  have hrefused := @fetchMessage_notes (.ofRequest .run .plain {}) _ _ accepted Wire.successBytes
    ⟨rfl, rfl, rfl⟩ rfl nofun rfl rfl nextResponse_notLeader notLeader_refusesWrites
  obtain ⟨w, t, hrefused, hnoted⟩ := hrefused
  have haccepted := (hstart.called .sendAll rfl (hsend.bind _)).called .fetchMessage rfl
    ((leads_fetchMessage hfetch).bind _)
  exact ⟨t, haccepted.called .fetchMessage rfl hrefused, hnoted⟩

set_option maxRecDepth 4000 in
theorem refused_named_query : ∃ s, Uses begun [query { database := some "d" }] s ∧
    .writeFailure (some "d") ∈ s.connection.feedback :=
  @refused_inside _ ((query { database := some "d" }).apply {} begun).2.outbox rfl
    (Chunk.Writer.size_endMessage _)

set_option maxRecDepth 4000 in
theorem refused_default_query : ∃ s, Uses begun [query {}] s ∧
    .writeFailure none ∈ s.connection.feedback :=
  @refused_inside {} ((query {}).apply {} begun).2.outbox rfl (Chunk.Writer.size_endMessage _)

theorem refused_named_query_reported : ∃ s new, Reported rested (some "d") new s ∧
    .writeFailure (some "d") ∈ new := by
  obtain ⟨s, huses, hnoted⟩ := refused_named_query
  obtain ⟨new, hreported⟩ := (write_failure_names_last rested opening {} 0
    [query { database := some "d" }] s rfl huses).2 (some "d") (worksFor_query rfl)
  have hfeedback : s.connection.feedback = new := hreported.feedback
  exact ⟨s, new, hreported, hfeedback ▸ hnoted⟩

/-- A query that leaves its extra at the default, as it should inside a transaction, takes the note to
another table. -/
theorem not_all_notes_name_the_work : ¬∀ (c : Connection) (q : Queueing) (watch : Watch) (n : Nat)
    (rest : List Queueing) (s : Session) (database : Option String),
    c.feedback = [] → (q.apply watch c).1 = .ok n → WorksFor database (· = {}) (q :: rest) →
    Uses (q.apply watch c).2 rest s →
    ∀ named, .writeFailure named ∈ s.connection.feedback → named = database := by
  intro h
  obtain ⟨s, huses, hnoted⟩ := refused_default_query
  cases h rested opening {} 0 [query {}] s (some "d") rfl rfl (worksFor_query rfl) huses none hnoted

end Connection
end BoltClient
