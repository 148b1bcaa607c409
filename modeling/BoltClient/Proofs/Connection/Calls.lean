import BoltClient.Proofs.Connection.Conversation
import BoltClient.Proofs.Connection.Smooth
import BoltClient.Stage.Command

namespace BoltClient

namespace Stage.Queueing

def kind : Queueing → Message.Kind
  | run .. => .run
  | begin .. => .begin
  | pull .. => .pull
  | discard .. => .discard
  | commit => .commit
  | rollback => .rollback
  | other r _ => r.kind

def purpose : Queueing → Purpose
  | commit => .commit
  | other _ purpose => purpose
  | _ => .plain

/-- A request is queued behind all others under the next number, or nothing is begun. -/
theorem apply_cases (q : Queueing) (watch : Watch) (c : Connection) :
    ((∃ e, (q.apply watch c).1 = .error e) ∧ c.Keeps (q.apply watch c).2) ∨
    (q.apply watch c).1 = .ok (c.answered.size + c.pending.length) ∧
      c.Begins (q.apply watch c).2 (.ofRequest q.kind q.purpose watch) := by
  have hqueue (r : Request) (purpose : Purpose) := (c.queue_cases r purpose watch).imp_left fun h =>
    And.intro h.1 (by rw [h.2]; exact .refl c : c.Keeps (c.queue r purpose watch).2)
  cases q with
  | run query parameters extra filter =>
    refine c.queueFor_cases _ extra.database watch .run fun r hr => ?_
    unfold Protocol.run at hr
    cases hextra : Protocol.extraEntries c.version extra filter with
    | error e => rw [hextra] at hr; cases hr
    | ok entries => rw [hextra] at hr; cases hr; rfl
  | begin extra filter =>
    refine c.queueFor_cases _ extra.database watch .begin fun r hr => ?_
    unfold Protocol.begin at hr
    cases hextra : Protocol.extraEntries c.version extra filter with
    | error e => rw [hextra] at hr; cases hr
    | ok entries => rw [hextra] at hr; cases hr; rfl
  | pull n qid => exact hqueue _ _
  | discard n qid => exact hqueue _ _
  | commit => exact hqueue _ _
  | rollback => exact hqueue _ _
  | other r purpose => exact hqueue _ _

end Stage.Queueing

namespace Connection

open Work Session

inductive Call where
  | queue (q : Stage.Queueing) (watch : Watch)
  | sendAll
  | fetchMessage
  | fetchAll
  | reset

/-- What a call gives back; a request that is queued gets a number. -/
abbrev Returned := Except Error (Option Nat)

namespace Call

def work : Call → Task Returned
  | queue q watch => Except.map some <$> edit fun _ c => q.apply watch c
  | sendAll => Except.map (fun _ => none) <$> Connection.sendAll.run
  | fetchMessage => Except.map (fun _ => none) <$> Connection.fetchMessage.run
  | fetchAll => Except.map (fun _ => none) <$> Connection.fetchAll.run
  | reset => Except.map (fun _ => none) <$> Connection.reset.run

def queues : Call → Bool
  | queue .. => true
  | _ => false

end Call

/-- What has been done with a connection: the calls that are over and what they gave back, the call that is
under way, and the connection now. Nothing is assumed of the network. -/
inductive Life (c₀ : Connection) :
    List (Call × Returned) → Option (Call × Task Returned) → Session → Prop where
  | start : Life c₀ [] none ⟨c₀, []⟩
  | call {past : List (Call × Returned)} {s : Session} (k : Call) (h : Life c₀ past none s) :
      Life c₀ past (some (k, k.work)) s
  | step {past : List (Call × Returned)} {s t : Session} {k : Call} {w w' : Task Returned}
      (h : Life c₀ past (some (k, w)) s) (hstep : Step (network fun _ => True) (w, s) (w', t)) :
      Life c₀ past (some (k, w')) t
  | finish {past : List (Call × Returned)} {s : Session} {k : Call} {r : Returned}
      (h : Life c₀ past (some (k, .done r)) s) : Life c₀ (past ++ [(k, r)]) none s

/-- What can become of a connection between calls: each call came to an end, or was dropped where it waited
for the network. -/
inductive Comes (c₀ : Connection) : Session → Prop where
  | start : Comes c₀ ⟨c₀, []⟩
  | ended {s t : Session} (h : Comes c₀ s) (k : Call) {r : Returned}
      (hends : Leads anyNetwork (k.work, s) (.done r, t)) : Comes c₀ t
  | dropped {s t : Session} (h : Comes c₀ s) (k : Call) {β : Type} {q : Transfer β}
      {next : β → Task Returned} (hwaits : Leads anyNetwork (k.work, s) (.ask (.transfer q) next, t)) :
      Comes c₀ t

/-- The exchanges that calls have begun, in order, if the first has a given number: one for each request
that was queued, and any number of RESETs for each of the other calls. -/
inductive Begun (first : Nat) : List (Call × Returned) → List Exchange → Prop where
  | nothing : Begun first [] []
  | queued {past : List (Call × Returned)} {begun : List Exchange} (h : Begun first past begun)
      (q : Stage.Queueing) (watch : Watch) :
      Begun first (past ++ [(.queue q watch, .ok (some (first + begun.length)))])
        (begun ++ [.ofRequest q.kind q.purpose watch])
  | refused {past : List (Call × Returned)} {begun : List Exchange} (h : Begun first past begun)
      (q : Stage.Queueing) (watch : Watch) (e : Error) :
      Begun first (past ++ [(.queue q watch, .error e)]) begun
  | reset {past : List (Call × Returned)} {begun : List Exchange} (h : Begun first past begun)
      {k : Call} (hk : k.queues = false) (r : Returned) (n : Nat) :
      Begun first (past ++ [(k, r)]) (begun ++ List.replicate n resetExchange)

/-- Between two calls. -/
def AtRest (c₀ : Connection) (past : List (Call × Returned)) (s : Session) : Prop :=
  ∃ begun told, Begun (c₀.answered.size + c₀.pending.length) past begun ∧ Tracks c₀ begun told s ∧
    s.connection.closing = c₀.closing ∧
    (c₀.closing = false → Misplaced c₀ begun told → s.connection.closed = true)

section

variable {c₀ : Connection} {past : List (Call × Returned)} {begun : List Exchange} {s t : Session}

/-- A life goes on with a call that comes to its end. -/
theorem Life.ended {k : Call} {r : Returned} (h : Life c₀ past none s)
    (hends : Leads anyNetwork (k.work, s) (.done r, t)) : Life c₀ (past ++ [(k, r)]) none t := by
  have hgoes : ∀ x, Leads anyNetwork (k.work, s) x → Life c₀ past (some (k, x.1)) x.2 := by
    intro x hx
    induction hx with
    | refl => exact h.call k
    | tail _ hstep ih => exact ih.step hstep
  exact (hgoes _ hends).finish

theorem Rested.atRest (h : Rested c₀ begun s) {k : Call} (hk : k.queues = false)
    (hbegun : Begun (c₀.answered.size + c₀.pending.length) past begun) (r : Returned) :
    AtRest c₀ (past ++ [(k, r)]) s := by
  obtain ⟨n, told, htracks, hclosing, hplaced⟩ := h
  exact ⟨_, told, hbegun.reset hk r n, htracks, hclosing, hplaced⟩

/-- A call leads from rest to rest. -/
theorem safe_call (k : Call) (h : AtRest c₀ past s) :
    ∃ begun, Begun (c₀.answered.size + c₀.pending.length) past begun ∧
      k.work.Safe (network (Waiting c₀ begun)) s fun r t => AtRest c₀ (past ++ [(k, r)]) t := by
  obtain ⟨begun, told, hbegun, htracks, hclosing, hplaced⟩ := h
  have hrested : Rested c₀ begun s := by
    refine ⟨0, told, ?_, hclosing, ?_⟩
    · simpa using htracks
    · simpa using hplaced
  refine ⟨begun, hbegun, ?_⟩
  cases k with
  | queue q watch =>
    refine Safe.map (safe_edit fun _ => ?_)
    rcases q.apply_cases watch s.connection with ⟨⟨e, he⟩, hkeeps⟩ | ⟨hnumber, hbegins⟩
    · rw [he]
      exact ⟨begun, told, hbegun.refused q watch e, htracks.keeps hkeeps, by rw [hkeeps.closing, hclosing],
        fun hc hm => hkeeps.closed (hplaced hc hm)⟩
    · have hnext : s.connection.answered.size + s.connection.pending.length
          = c₀.answered.size + c₀.pending.length + begun.length := by
        have hconcluded := htracks.correlated.concluded
        have hpending := htracks.correlated.pending
        omega
      rw [hnumber, hnext]
      exact ⟨_, told, hbegun.queued q watch, htracks.begin hbegins, by rw [hbegins.closing, hclosing],
        fun hc hm => by rw [hbegins.closed]; exact hplaced hc (hm.of_begin htracks)⟩
  | sendAll =>
    refine Safe.map ((safe_sendAll hrested.waiting.1).mono fun r t ht => ?_)
    have hkeeps := hrested.keeps ht.1
    rw [← ht.2.1] at hkeeps
    exact hkeeps.atRest rfl hbegun _
  | fetchMessage =>
    exact Safe.map ((safe_fetchMessage hrested).mono fun r t ht => ht.atRest rfl hbegun _)
  | fetchAll => exact Safe.map ((safe_fetchAll hrested).mono fun r t ht => ht.atRest rfl hbegun _)
  | reset => exact Safe.map ((safe_reset hrested).mono fun r t ht => ht.atRest rfl hbegun _)

/-- Every call that is under way comes to rest, and every place where it waits is in order. -/
theorem Life.safe {now : Option (Call × Task Returned)} (h : Life c₀ past now s) :
    match now with
    | none => AtRest c₀ past s
    | some (k, w) => ∃ begun, Begun (c₀.answered.size + c₀.pending.length) past begun ∧
        w.Safe (network (Waiting c₀ begun)) s fun r t => AtRest c₀ (past ++ [(k, r)]) t := by
  induction h with
  | start => exact ⟨[], [], .nothing, .start c₀, rfl, fun _ hm => absurd hm (not_misplaced_nil c₀ [])⟩
  | call k _ ih => exact safe_call k ih
  | step _ hstep ih =>
    obtain ⟨begun, hbegun, hsafe⟩ := ih
    refine ⟨begun, hbegun, hsafe.step ?_⟩
    cases hstep with
    | answer hb => exact .answer hb
    | round => exact .round
  | finish _ ih =>
    obtain ⟨begun, hbegun, hsafe⟩ := ih
    exact hsafe

end

/-- Whatever is called in whatever order, and whatever the server says: between calls and wherever a call
waits, the answers that were taken in are the first of those that the server sent, and the exchange of each
number has the records and the summary of the section of its number, and nothing else. A connection on which
a RESET was answered with a record is closed after the call. -/
theorem each_answer_to_its_exchange (c₀ : Connection) (past : List (Call × Returned))
    (now : Option (Call × Task Returned)) (s : Session) (h : Life c₀ past now s) :
    (now = none → ∃ begun told,
      Begun (c₀.answered.size + c₀.pending.length) past begun ∧
      Correlated c₀ s.connection begun told ∧ Hears c₀ told s ∧
      (c₀.closing = false → Misplaced c₀ begun told → s.connection.closed = true)) ∧
    (∀ (k : Call) (β : Type) (q : Transfer β) (next : β → Task Returned),
      now = some (k, .ask (.transfer q) next) → ∃ begun n told,
        Begun (c₀.answered.size + c₀.pending.length) past begun ∧
        Correlated c₀ s.connection (begun ++ List.replicate n resetExchange) told ∧
        Hears c₀ told s) := by
  have hsafe := h.safe
  constructor
  · rintro rfl
    obtain ⟨begun, told, hbegun, htracks, _, hplaced⟩ := hsafe
    exact ⟨begun, told, hbegun, htracks.correlated, htracks.hears, hplaced⟩
  · rintro k β q next rfl
    obtain ⟨begun, hbegun, ⟨n, told, htracks⟩, _⟩ := hsafe
    exact ⟨begun, n, told, hbegun, htracks.correlated, htracks.hears⟩

def loggedIn : Connection := { ofLink ⟨0⟩ default none .v5_2 none .start with state := .ready }

/-- A query is sent, and all of its records are asked for. -/
def querying : List (Call × Returned) :=
  [(.queue (.run "RETURN 1" [] {} {}) {}, .ok (some 0)), (.queue (.pull (-1) (-1)) {}, .ok (some 1)),
    (.sendAll, .ok none)]

def queried : Connection :=
  { loggedIn with pending := [.ofRequest .run .plain {}, .ofRequest .pull .plain {}] }

def failing : List UInt8 := Wire.successBytes ++ Wire.recordBytes ++ Wire.failureBytes

def running : Connection :=
  { queried with
    inbox := ((default : Chunk.Reader).feed Wire.recordBytes).feed Wire.failureBytes
    answered := #[(Exchange.succeed (.ofRequest .run .plain {}) ⟨[]⟩).1]
    pending := [.ofRequest .pull .plain {}], state := .streaming }

def recorded : Connection :=
  { running with
    inbox := (default : Chunk.Reader).feed Wire.failureBytes
    pending := [(Exchange.addRecord (.ofRequest .pull .plain {}) [.int 1]).1] }

def ran : Connection := (loggedIn.run "RETURN 1" [] {} {} {}).2

def pulled : Connection := (ran.pull (-1) (-1) {}).2

theorem life_querying : Life loggedIn querying none ⟨queried, []⟩ := by
  have hrun : Leads anyNetwork (Call.work (.queue (.run "RETURN 1" [] {} {}) {}), ⟨loggedIn, []⟩)
      (.done (.ok (some 0)), ⟨ran, []⟩) := .head (.answer (b := .ok 0) ⟨.start, rfl, rfl⟩) .refl
  have hpull : Leads anyNetwork (Call.work (.queue (.pull (-1) (-1)) {}), ⟨ran, []⟩)
      (.done (.ok (some 1)), ⟨pulled, []⟩) := .head (.answer (b := .ok 1) ⟨.start, rfl, rfl⟩) .refl
  have hsend : Leads anyNetwork (sendAll.run, ⟨pulled, []⟩) (.done (.ok ()), ⟨queried, []⟩) :=
    leads_sendAll .start ⟨rfl, rfl, rfl⟩ rfl (by decide +kernel)
  exact ((Life.start.ended hrun).ended hpull).ended (hsend.bind _)

theorem fetches_success :
    Leads anyNetwork (Call.fetchMessage.work, ⟨queried, []⟩) (.done (.ok none), ⟨running, failing⟩) := by
  let inbox := ((default : Chunk.Reader).feed Wire.recordBytes).feed Wire.failureBytes
  have hanswer : Wire.nextResponse ((default : Chunk.Reader).feed failing) = (.ok (some (.success [])), inbox) :=
    Wire.nextResponse_feed_of_some
      (Wire.nextResponse_feed_of_some Wire.nextResponse_success Wire.recordBytes) Wire.failureBytes
  have hnext : Leads anyNetwork (nextAnswer.run, ⟨queried, []⟩)
      (.done (.ok (.success [])), ⟨{ queried with inbox := inbox }, failing⟩) :=
    leads_nextAnswer_reading rfl Wire.nextResponse_default hanswer
  have hfetch : Leads anyNetwork (fetchOne.run, ⟨queried, []⟩) (.done (.ok (⟨0, 1⟩, none)), ⟨running, failing⟩) :=
    leads_fetchOne .start ⟨rfl, rfl, rfl⟩ rfl hnext rfl
  exact (leads_fetchMessage hfetch).bind _

theorem fetches_record :
    Leads anyNetwork (Call.fetchMessage.work, ⟨running, failing⟩) (.done (.ok none), ⟨recorded, failing⟩) := by
  have hanswer := Wire.nextResponse_feed_of_some Wire.nextResponse_record Wire.failureBytes
  have hfetch : Leads anyNetwork (fetchOne.run, ⟨running, failing⟩) (.done (.ok (⟨1, 0⟩, none)), ⟨recorded, failing⟩) :=
    leads_fetchOne .start ⟨rfl, rfl, rfl⟩ rfl (leads_nextAnswer hanswer) rfl
  exact (leads_fetchMessage hfetch).bind _

/-- The failure is told after a RESET, which is answered too. -/
theorem fetches_failure : ∃ t e,
    Leads anyNetwork (Call.fetchMessage.work, ⟨recorded, failing⟩) (.done (.error e), t) ∧
    t.heard = failing ++ Wire.successBytes ∧ t.connection.answered.size = 3 ∧ t.connection.pending = [] := by
  let trouble : Trouble := ⟨.plain, .reset, some (.ofServer (.ofFailure ⟨[]⟩))⟩
  let failed : Connection := ({ recorded with inbox := default }.receive (.failure [])).2.2
  let sent : Connection := failed.resetting.written .start
  have hfetch : Leads anyNetwork (fetchOne.run, ⟨recorded, failing⟩)
      (.done (.ok (⟨0, 1⟩, some trouble)), ⟨failed, failing⟩) :=
    leads_fetchOne .start ⟨rfl, rfl, rfl⟩ rfl (leads_nextAnswer Wire.nextResponse_failure) rfl
  have hnext : Leads anyNetwork (nextAnswer.run, ⟨sent, failing⟩)
      (.done (.ok (.success [])), ⟨sent, failing ++ Wire.successBytes⟩) :=
    leads_nextAnswer_reading rfl Wire.nextResponse_default Wire.nextResponse_success
  have htakes : TakesIn ⟨sent, failing⟩ ⟨(sent.receive (.success [])).2.2, failing ++ Wire.successBytes⟩ :=
    ⟨rfl, _, leads_fetchOne .start ⟨rfl, rfl, rfl⟩ rfl hnext rfl⟩
  have hreset := leads_reset .start ⟨rfl, rfl, rfl⟩ rfl (.single htakes) rfl
  exact ⟨_, _, (leads_fetchMessage_reset hfetch rfl rfl hreset).bind _, rfl, rfl, rfl⟩

theorem failed_query_in_its_place : ∃ s e begun told,
    let past := querying ++ [(.fetchMessage, .ok none), (.fetchMessage, .ok none), (.fetchMessage, .error e)]
    Life loggedIn past none s ∧ s.heard = failing ++ Wire.successBytes ∧ s.connection.answered.size = 3 ∧
    s.connection.pending = [] ∧ Begun 0 past begun ∧ Correlated loggedIn s.connection begun told ∧
    Hears loggedIn told s := by
  obtain ⟨s, e, hfailure, hheard, hsize, hpending⟩ := fetches_failure
  have hlife := ((life_querying.ended fetches_success).ended fetches_record).ended hfailure
  obtain ⟨begun, told, hbegun, hcorrelated, hhears, _⟩ :=
    (each_answer_to_its_exchange loggedIn _ none s hlife).1 rfl
  exact ⟨s, e, begun, told, hlife, hheard, hsize, hpending, hbegun, hcorrelated, hhears⟩

end Connection
end BoltClient
