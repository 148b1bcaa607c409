import BoltClient.Proofs.Connection.Alteration
import BoltClient.Proofs.Connection.Calls

namespace BoltClient

/-- Whether a failure says that the server does not take writes for the database. -/
def Failure.refusesWrites (f : Failure) : Bool :=
  (Server.Error.ofFailure f).kind = .notALeader
    || (Server.Error.ofFailure f).kind = .forbiddenOnReadOnlyDatabase

namespace Stage.Queueing

/-- The database that a request is for, if it is one that says so and the version can carry it. -/
def database? (version : Version) : Queueing → Option (Option String)
  | run _ _ extra filter | begin extra filter =>
    (Protocol.extraEntries version extra filter).toOption.map fun _ => extra.database
  | _ => none

end Stage.Queueing

namespace Connection

open Work Session
open Stage (Queueing)

/-- The database that is remembered after requests, if one was remembered before. -/
def named (version : Version) (before : Option String) (past : List Queueing) : Option String :=
  past.foldl (fun database q => (q.database? version).getD database) before

theorem named_concat (version : Version) (before : Option String) (past : List Queueing) (q : Queueing) :
    named version before (past ++ [q]) = (q.database? version).getD (named version before past) :=
  List.foldl_append

/-- From one connection to another: what has been noted down is that servers do not take writes for the
database that is remembered, for each request that has failed so. Nothing else is remembered. -/
structure Records (c d : Connection) (new : List Feedback) : Prop where
  version : d.version = c.version
  lastDatabase : d.lastDatabase = c.lastDatabase
  feedback : d.feedback = c.feedback ++ new
  names : ∀ database, .writeFailure database ∈ new → database = c.lastDatabase
  noted : ∀ n x f, d.exchange? n = some x → x.failure = some f → f.refusesWrites = true →
    (∃ y, c.exchange? n = some y ∧ y.failure = some f) ∨ .writeFailure c.lastDatabase ∈ new

variable {c d e : Connection} {new more : List Feedback} {s t : Session}

theorem Records.refl (c : Connection) : Records c c [] where
  version := rfl
  lastDatabase := rfl
  feedback := (List.append_nil _).symm
  names := nofun
  noted _ x _ hx hf _ := .inl ⟨x, hx, hf⟩

theorem Records.trans (h : Records c d new) (h' : Records d e more) : Records c e (new ++ more) where
  version := h'.version.trans h.version
  lastDatabase := h'.lastDatabase.trans h.lastDatabase
  feedback := by rw [h'.feedback, h.feedback, List.append_assoc]
  names database hdatabase := by
    rcases List.mem_append.mp hdatabase with hnew | hmore
    · exact h.names database hnew
    · exact (h'.names database hmore).trans h.lastDatabase
  noted n x f hx hf hrefuses := by
    rcases h'.noted n x f hx hf hrefuses with ⟨y, hy, hyf⟩ | hmore
    · exact (h.noted n y f hy hyf hrefuses).imp_right (List.mem_append_left more)
    · rw [h.lastDatabase] at hmore
      exact .inr (List.mem_append_right new hmore)

/-- Nothing has failed, and no more is noted down than that the server is to be given up. -/
theorem records_silent (hversion : d.version = c.version) (hdatabase : d.lastDatabase = c.lastDatabase)
    (hanswered : d.answered = c.answered) (hpending : d.pending = c.pending)
    (hfeedback : d.feedback = c.feedback ++ new) (hnew : ∀ f ∈ new, f = .deactivate) :
    ∃ new, Records c d new := by
  refine ⟨new, hversion, hdatabase, hfeedback, fun database h => (nomatch hnew _ h),
    fun n x f hx hf _ => ?_⟩
  rw [exchange?, hanswered, hpending] at hx
  exact .inl ⟨x, hx, hf⟩

theorem records_same (hversion : d.version = c.version) (hdatabase : d.lastDatabase = c.lastDatabase)
    (hanswered : d.answered = c.answered) (hpending : d.pending = c.pending)
    (hfeedback : d.feedback = c.feedback) : ∃ new, Records c d new :=
  have hnone : ∀ f ∈ ([] : List Feedback), f = .deactivate := nofun
  records_silent hversion hdatabase hanswered hpending (by rw [hfeedback, List.append_nil]) hnone

/-- What a loss notes down. -/
theorem eq_deactivate {lost : Prop} [Decidable lost] :
    ∀ f ∈ if lost then [Feedback.deactivate] else [], f = .deactivate := by
  split <;> simp

theorem records_check (c : Connection) (direction : Direction) :
    ∃ new, Records c (c.check direction).2 new := by
  have hsettle : ∃ new, Records c c.settleFlight new := by
    unfold settleFlight
    split
    · exact records_same rfl rfl rfl rfl rfl
    · exact ⟨[], .refl c⟩
  unfold check
  dsimp only
  split
  · exact hsettle
  · split <;> exact hsettle

theorem records_beginWrite (c : Connection) : ∃ new, Records c c.beginWrite.2 new := by
  unfold beginWrite
  split
  · exact ⟨[], .refl c⟩
  · dsimp only
    split
    · exact records_same rfl rfl rfl rfl rfl
    · exact records_silent rfl rfl rfl rfl rfl eq_deactivate

theorem records_endWrite (outcome : Output) (now : Instant) (c : Connection) :
    ∃ new, Records c (c.endWrite outcome now).2 new := by
  cases outcome with
  | done => exact records_same rfl rfl rfl rfl rfl
  | failed | late => exact records_silent rfl rfl rfl rfl rfl eq_deactivate

theorem records_beginRead (now : Instant) (c : Connection) :
    ∃ new, Records c (c.beginRead now).2 new := by
  unfold beginRead
  split
  dsimp only
  split
  · exact records_same rfl rfl rfl rfl rfl
  · exact records_same rfl rfl rfl rfl rfl
  · split
    · exact records_same rfl rfl rfl rfl rfl
    · exact records_silent rfl rfl rfl rfl rfl eq_deactivate

theorem records_endRead (input : Input) (c : Connection) : ∃ new, Records c (c.endRead input).2 new := by
  cases input with
  | bytes b => exact records_same rfl rfl rfl rfl rfl
  | ended | failed | late => exact records_silent rfl rfl rfl rfl rfl eq_deactivate

theorem records_beginClose (c : Connection) : ∃ new, Records c c.beginClose.2 new := by
  unfold beginClose put
  split
  · exact ⟨[], .refl c⟩
  · dsimp only
    split
    · exact records_same rfl rfl rfl rfl rfl
    · cases PackStream.encode Request.goodbye.toStruct.value with
      | ok payload => exact records_same rfl rfl rfl rfl rfl
      | error e => exact records_same rfl rfl rfl rfl rfl

/-- The exchange that is begun has not failed. -/
theorem records_queue (c : Connection) (r : Request) (purpose : Purpose) (watch : Watch) :
    Records c (c.queue r purpose watch).2 [] := by
  have hsame : Records c (c.queue r purpose watch).2 [] ∨
      ∃ outbox, (c.queue r purpose watch).2 = { c with
        outbox := outbox, pending := c.pending ++ [.ofRequest r.kind purpose watch] } := by
    unfold queue put
    cases PackStream.encode r.toStruct.value with
    | error e => exact .inl (.refl c)
    | ok payload => exact .inr ⟨_, rfl⟩
  rcases hsame with hsame | ⟨outbox, hqueued⟩
  · exact hsame
  · rw [hqueued]
    refine ⟨rfl, rfl, (List.append_nil _).symm, nofun, fun n x f hx hf _ => .inl ⟨x, ?_, hf⟩⟩
    rw [exchange?_eq_append, ← List.append_assoc, getElem?_concat] at hx
    split at hx
    · cases hx
      cases hf
    · rw [exchange?_eq_append, hx]

/-- What a failure means does not depend on what the request was for. -/
theorem kind_failureError (purpose : Purpose) (f : Failure) :
    (failureError purpose f).kind = (Server.Error.ofFailure f).kind := by
  have hkind (message message' : Option String) : (Server.Error.ofCode f.code? message).kind
      = (Server.Error.ofCode f.code? message').kind := by
    unfold Server.Error.ofCode
    dsimp only
    split <;> rfl
  unfold failureError Server.Error.ofFailure
  split <;> exact hkind _ _

theorem failure_after (x : Exchange) (records : List (List Value)) (r : Response) {f : Failure}
    (h : (x.after records r.summary?).failure = some f) :
    x.failure = some f ∨ x.purpose ≠ .reset ∧ r = .failure f.metadata := by
  unfold Exchange.after at h
  by_cases hx : x.purpose = .reset
  · rw [if_pos hx] at h
    cases r <;> exact .inl h
  · rw [if_neg hx] at h
    cases r with
    | failure metadata =>
      cases h
      exact .inr ⟨hx, rfl⟩
    | record | success | ignored => exact .inl h

/-- The answer to an exchange is noted down if it is a failure. -/
theorem feedback_receive {x : Exchange} {rest : List Exchange} (hpending : c.pending = x :: rest)
    (r : Response) : (c.receive r).2.2.feedback = c.feedback ++ match r with
      | .failure metadata =>
        if x.purpose = .reset then [] else feedbackOf c.lastDatabase (failureError x.purpose ⟨metadata⟩)
      | _ => [] := by
  unfold receive
  rw [hpending]
  cases r with
  | record values => dsimp only; split <;> exact (List.append_nil _).symm
  | success metadata =>
    dsimp only
    split
    · exact (feedback_takeGreeting _ _).trans (List.append_nil _).symm
    · exact (List.append_nil _).symm
  | ignored => dsimp only; split <;> exact (List.append_nil _).symm
  | failure metadata =>
    dsimp only
    unfold failHead
    dsimp only
    split
    · exact (List.append_nil _).symm
    · rfl

/-- A note that a server does not take writes names the database that is remembered. -/
theorem feedbackOf_names {database : Option String} {f : Server.Error} {named : Option String}
    (h : .writeFailure named ∈ feedbackOf database f) : named = database := by
  unfold feedbackOf at h
  split at h
  · cases List.mem_singleton.mp h
  · cases List.mem_singleton.mp h
    rfl
  · cases List.mem_singleton.mp h
    rfl
  · split at h
    · cases List.mem_singleton.mp h
    · cases h

theorem feedbackOf_of_refusesWrites {database : Option String} {purpose : Purpose} {f : Failure}
    (h : f.refusesWrites = true) : .writeFailure database ∈ feedbackOf database (failureError purpose f) := by
  have hkind := kind_failureError purpose f
  unfold Failure.refusesWrites at h
  unfold feedbackOf
  rcases (by simpa using h : _ ∨ _) with hkind' | hkind'
  all_goals
    rw [hkind, hkind']
    exact List.mem_singleton_self _

theorem records_receive (c : Connection) (r : Response) : ∃ new, Records c (c.receive r).2.2 new := by
  cases hpending : c.pending with
  | nil =>
    unfold receive
    rw [hpending]
    exact ⟨[], .refl c⟩
  | cons x rest =>
    obtain ⟨_, _, _, _, _, _, _, _, _, hc⟩ := receive_frame c r
    refine ⟨_, ?_, ?_, feedback_receive hpending r, fun database h => ?_, fun n y f hy hf hrefuses => ?_⟩
    · rw [hc]
    · rw [hc]
    · cases r with
      | record | success | ignored => cases h
      | failure metadata =>
        dsimp only at h
        split at h
        · cases h
        · exact feedbackOf_names h
    · rw [exchange?_eq_append, (receive_books hpending r).2, getElem?_middle _ _ _ x] at hy
      split at hy
      · next hn =>
        cases hy
        rcases failure_after x _ r hf with hold | ⟨hx, rfl⟩
        · refine .inl ⟨x, ?_, hold⟩
          rw [exchange?_eq_append, hpending, hn, List.getElem?_append_right (Nat.le_refl _), Nat.sub_self]
          rfl
        · refine .inr ?_
          dsimp only
          rw [if_neg hx]
          exact feedbackOf_of_refusesWrites hrefuses
      · refine .inl ⟨y, ?_, hf⟩
        rw [exchange?_eq_append, hpending, hy]

theorem Alters.records (h : Alters c d) : ∃ new, Records c d new := by
  cases h with
  | same => exact ⟨[], .refl c⟩
  | unlink | part | kill => exact records_same rfl rfl rfl rfl rfl
  | check _ direction => exact records_check c direction
  | beginWrite => exact records_beginWrite c
  | endWrite outcome now => exact records_endWrite outcome now c
  | beginRead now => exact records_beginRead now c
  | endRead input => exact records_endRead input c
  | receive now _ r =>
    obtain ⟨new, h⟩ := records_same (c := c) (d := { c with lastUsed := now }) rfl rfl rfl rfl rfl
    obtain ⟨more, h'⟩ := records_receive { c with lastUsed := now } r
    exact ⟨new ++ more, h.trans h'⟩
  | beginClose => exact records_beginClose c
  | queue _ r purpose watch => exact ⟨[], records_queue c r purpose watch⟩

/-- Wherever a call has come to. -/
theorem Call.records (k : Call) (hk : k.queues = false) {w : Task Returned}
    (hleads : Leads anyNetwork (k.work, s) (w, t)) : ∃ new, Records s.connection t.connection new := by
  have hasks : k.work.Asks Query.Alters := by
    cases k with
    | queue => cases hk
    | sendAll => exact sendAll_alters.map
    | fetchMessage => exact fetchMessage_alters.map
    | fetchAll => exact fetchAll_alters.map
    | reset => exact reset_alters.map
  refine hasks.leads (fun u => ∃ new, Records s.connection u.connection new) ?_ ⟨[], .refl _⟩ hleads
  rintro β q u b v ⟨new, hnew⟩ hq hb
  cases q with
  | edit f =>
    obtain ⟨now, rfl, rfl⟩ := hb
    obtain ⟨more, hmore⟩ := (hq now u.connection).records
    exact ⟨new ++ more, hnew.trans hmore⟩
  | transfer q =>
    obtain rfl : v = ⟨u.connection, u.heard ++ q.heard b⟩ := hb
    exact ⟨new, hnew⟩

/-- Queueing notes nothing down. It may change which database is remembered. -/
theorem records_apply (q : Queueing) (watch : Watch) (c : Connection) :
    Records { c with lastDatabase := (q.database? c.version).getD c.lastDatabase }
      (q.apply watch c).2 [] := by
  have hqueueFor (r : Entries Value → Request) (extra : TransactionExtra) (filter : Notification.Filter) :
      Records { c with
          lastDatabase := ((Protocol.extraEntries c.version extra filter).toOption.map
            fun _ => extra.database).getD c.lastDatabase }
        (c.queueFor (r <$> Protocol.extraEntries c.version extra filter) extra.database watch).2 [] := by
    cases Protocol.extraEntries c.version extra filter with
    | error e => exact .refl c
    | ok entries => exact records_queue _ _ _ _
  cases q with
  | run query parameters extra filter => exact hqueueFor (.run query parameters) extra filter
  | begin extra filter => exact hqueueFor .begin extra filter
  | pull | discard | commit | rollback | other => exact records_queue c _ _ _

/-- What has become of a connection: the requests that were queued, in order, and the connection now. Every
other call may be dropped anywhere. Nothing is assumed of the network. -/
inductive Uses (c₀ : Connection) : List Queueing → Session → Prop where
  | start : Uses c₀ [] ⟨c₀, []⟩
  | queued {past : List Queueing} {s : Session} (h : Uses c₀ past s) (q : Queueing) (watch : Watch) :
      Uses c₀ (past ++ [q]) ⟨(q.apply watch s.connection).2, s.heard⟩
  | called {past : List Queueing} {s t : Session} (h : Uses c₀ past s) (k : Call) (hk : k.queues = false)
      {w : Task Returned} (hleads : Leads anyNetwork (k.work, s) (w, t)) : Uses c₀ past t

section

variable {c₀ : Connection} {past : List Queueing}

/-- The database that is remembered is the one that was named last. -/
theorem Uses.remembers (h : Uses c₀ past s) :
    s.connection.version = c₀.version ∧
      s.connection.lastDatabase = named c₀.version c₀.lastDatabase past := by
  induction h with
  | start => exact ⟨rfl, rfl⟩
  | @queued past s _ q watch ih =>
    have hrecords := records_apply q watch s.connection
    refine ⟨hrecords.version.trans ih.1, hrecords.lastDatabase.trans ?_⟩
    rw [named_concat, ← ih.2, ← ih.1]
  | called _ k hk hleads ih =>
    obtain ⟨new, hrecords⟩ := k.records hk hleads
    exact ⟨hrecords.version.trans ih.1, hrecords.lastDatabase.trans ih.2⟩

/-- As long as no other database is named, all notes are for one. -/
theorem Uses.records (h : Uses c₀ past s)
    (hsame : ∀ q ∈ past, ∀ database, q.database? c₀.version = some database → database = c₀.lastDatabase) :
    ∃ new, Records c₀ s.connection new := by
  induction h with
  | start => exact ⟨[], .refl c₀⟩
  | @queued past s _ q watch ih =>
    obtain ⟨new, hrecords⟩ := ih fun r hr => hsame r (List.mem_append_left [q] hr)
    have hq := hsame q (List.mem_append_right past (List.mem_singleton_self q))
    have hnamed : (q.database? s.connection.version).getD s.connection.lastDatabase
        = s.connection.lastDatabase := by
      rw [hrecords.version, hrecords.lastDatabase]
      cases hdatabase : q.database? c₀.version with
      | none => rfl
      | some database => exact hq database hdatabase
    have happly := records_apply q watch s.connection
    rw [hnamed] at happly
    exact ⟨new ++ [], hrecords.trans happly⟩
  | called _ k hk hleads ih =>
    obtain ⟨new, hrecords⟩ := ih hsame
    obtain ⟨more, hmore⟩ := k.records hk hleads
    exact ⟨new ++ more, hrecords.trans hmore⟩

end

end Connection
end BoltClient
