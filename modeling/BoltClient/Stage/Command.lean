import BoltClient.Pool.Task
import BoltClient.Routing.Cluster

namespace BoltClient.Stage

/-- What comes of a command or a step. -/
inductive Outcome where
  | nothing
  | done
  /-- A request is queued; its exchange has this number. -/
  | queued (n : Nat)
  | counts (c : Counts)
  | rows (rows : List Routing.Row)
  | flag (b : Bool)
  | exchange (x : Option Exchange)
  | records (r : Option (List (List Value)))
  /-- Everything that is known about the server. -/
  | facts (c : Connection)
  | version (v : Version)
  /-- A connection is there. -/
  | connection (c : Connection)
  | renewed (b : Bool)
  | finished (b : Bool)
  /-- There is no such connection. -/
  | absent
  | failed (e : Error)
  | cancelled

def Outcome.ofExcept {α : Type} (f : α → Outcome) : Except Error α → Outcome
  | .ok a => f a
  | .error e => failed e

/-- A request to be queued. -/
inductive Queueing where
  | run (query : String) (parameters : Entries Value) (extra : TransactionExtra)
      (filter : Notification.Filter)
  | begin (extra : TransactionExtra) (filter : Notification.Filter)
  | pull (n qid : Int64)
  | discard (n qid : Int64)
  | commit
  | rollback
  | other (r : Request) (purpose : Purpose)

def Queueing.apply (watch : Watch) (c : Connection) : Queueing → Except Error Nat × Connection
  | run query parameters extra filter => c.run query parameters extra filter watch
  | begin extra filter => c.begin extra filter watch
  | pull n qid => c.pull n qid watch
  | discard n qid => c.discard n qid watch
  | commit => c.commit watch
  | rollback => c.rollback watch
  | other r purpose => c.queue r purpose watch

/-- Something to do with a connection. Exchanges have labels. -/
inductive Command where
  | queue (label : String) (q : Queueing) (watch : Watch)
  | hello (config : ConnectionConfig)
  | route (context : Entries Value) (bookmarks : List String) (database user : Option String)
  | reset
  | sendAll
  | fetchMessage
  | fetchAll
  | close
  | kill
  | markStale
  | setDeadline (timeout : Option Duration)
  | isIdleFor (time : Duration)
  | exchange (label : String)
  | takeRecords (label : String)
  | facts

/-- The numbers of labelled exchanges, the newest first. -/
abbrev Labels := List (String × Nat)

/-- The label of an exchange. -/
def Labels.name (labels : Labels) (n : Nat) : String :=
  ((labels.find? (·.2 = n)).map (·.1)).getD ""

namespace Command

open Connection (look change edit)

/-- Adds the outcome of work that may fail. -/
def attempt {α : Type} (f : α → Outcome) (w : Connection.Attempt α) : Connection.Task Outcome :=
  .ofExcept f <$> w.run

def work (labels : Labels) : Command → Connection.Task Outcome
  | queue _ q watch => .ofExcept .queued <$> edit fun _ c => q.apply watch c
  | hello config => attempt (fun _ => .done) (Connection.hello config)
  | route context bookmarks database user =>
    attempt .rows (Connection.route context bookmarks database user)
  | reset => attempt (fun _ => .done) Connection.reset
  | sendAll => attempt (fun _ => .done) Connection.sendAll
  | fetchMessage => attempt .counts Connection.fetchMessage
  | fetchAll => attempt .counts Connection.fetchAll
  | close => (fun _ => .done) <$> Connection.close
  | kill => (fun _ => .done) <$> change Connection.kill
  | markStale => (fun _ => .done) <$> change fun c => { c with markedStale := true }
  | setDeadline timeout =>
    edit fun now c => (.done, { c with deadline := .ofTimeout now timeout })
  | isIdleFor time => edit fun now c => (.flag (c.isIdleFor time now), c)
  | exchange label => look fun c => .exchange ((labels.lookup label).bind c.exchange?)
  | takeRecords label =>
    edit fun _ c =>
      match labels.lookup label with
      | some n =>
        let (records, c) := c.takeRecords n
        (.records (some records), c)
      | none => (.records none, c)
  | facts => look .facts

def relabel (labels : Labels) : Command → Outcome → Labels
  | queue label _ _, .queued n => (label, n) :: labels
  | _, _ => labels

end Command
end BoltClient.Stage
