import BoltClient.Connection.Answer
import BoltClient.Routing.Row

/-!
What is done with a connection, step by step: writing what has been collected, reading answers until there
are enough, bringing the server back to where it takes requests, and parting. Between two questions to the
network nothing else happens, so a connection can only be found in the states that are left when one of
them is asked.
-/

namespace BoltClient.Connection

/-- Questions of work on a connection. -/
inductive Query : Type → Type 1 where
  /-- Looks at the clock and at the connection, and changes it. -/
  | edit {α : Type} (f : Instant → Connection → α × Connection) : Query α
  | transfer {α : Type} (t : Transfer α) : Query α

abbrev Task := Work Query

/-- Work on a connection that may fail. -/
abbrev Attempt := ExceptT Error Task

variable {α : Type} {m : Type → Type 1} [MonadLiftT Task m]

/-- Changes the connection and tells something about it. -/
def edit (f : Instant → Connection → α × Connection) : m α :=
  liftM (Work.query (.edit f) : Task α)

def change (f : Connection → Connection) : m Unit := edit fun _ c => ((), f c)

def look (f : Connection → α) : m α := edit fun _ c => (f c, c)

def transfer (t : Transfer α) : m α := liftM (Work.query (.transfer t) : Task α)

/-- A change that may fail. -/
def attempt (f : Instant → Connection → Except Error α × Connection) : Attempt α := ExceptT.mk (edit f)

/-- Bytes on their way out. -/
structure Outgoing where
  link : Link
  bytes : List UInt8
  deadline : Deadline

/-- Takes out the bytes to write, if there are any. -/
def beginWrite (c : Connection) : Except Error (Option Outgoing) × Connection :=
  if c.outbox.size = 0 then (.ok none, c)
  else
    let (bytes, outbox) := c.outbox.take
    let c := { c with outbox := outbox }
    match c.transport with
    | some link => (.ok (some ⟨link, bytes, c.deadline⟩), { c with inFlight := true })
    | none =>
      let (e, c) := { c with inFlight := false }.lose .writing none
      (.error e, c)

/-- The bytes are written, or not. -/
def endWrite (outcome : Output) (now : Instant) (c : Connection) : Except Error Unit × Connection :=
  let c := { c with inFlight := false }
  let lost (cause : String) : Except Error Unit × Connection :=
    let (e, c) := c.lose .writing (some cause)
    (.error e, c)
  match outcome with
  | .done => (.ok (), { c with lastUsed := now })
  | .failed detail => lost detail
  | .late => lost "write timed out"

def flush : Attempt Unit := do
  match ← attempt fun _ c => c.beginWrite with
  | none => pure ()
  | some o =>
    let outcome ← transfer (.write o.link o.bytes o.deadline)
    attempt (endWrite outcome)

/-- Writes everything that has been collected, if the connection can be used. -/
def sendAll : Attempt Unit := do
  attempt fun _ c => c.check .writing
  flush

/-- What there is to do to have an answer: nothing, or reading. -/
inductive Reading where
  | answer (r : Response)
  | read (link : Link) (deadline : Deadline)

/-- Looks for an answer among the bytes that are here, and otherwise begins to read. Bytes that make no
sense end the connection. -/
def beginRead (now : Instant) (c : Connection) : Except Error Reading × Connection :=
  let (found, inbox) := Wire.nextResponse c.inbox
  let c := { c with inbox := inbox }
  match found with
  | .error e => (.error (.ofWire e), { c.kill with defunct := true })
  | .ok (some r) => (.ok (.answer r), c)
  | .ok none =>
    match c.transport with
    | some link =>
      (.ok (.read link (c.deadline.min (.ofTimeout now c.silence))), { c with inFlight := true })
    | none =>
      let (e, c) := { c with inFlight := false }.lose .reading none
      (.error e, c)

/-- Some bytes are read, or none. -/
def endRead (input : Input) (c : Connection) : Except Error Unit × Connection :=
  let c := { c with inFlight := false }
  let lost (cause : String) : Except Error Unit × Connection :=
    let (e, c) := c.lose .reading (some cause)
    (.error e, c)
  match input with
  | .bytes b => (.ok (), { c with inbox := c.inbox.feed b })
  | .ended => lost "connection closed by peer"
  | .failed detail => lost detail
  | .late => lost "read timed out"

def nextAnswer : Attempt Response :=
  Work.iterateOrFail (fun () => do
    match ← attempt beginRead with
    | .answer r => return .inr r
    | .read link deadline =>
      let input ← transfer (.read link none deadline)
      attempt fun _ c => c.endRead input
      return .inl ()) ()

/-- Takes in one answer, if one is expected. -/
def fetchOne : Attempt (Counts × Option Trouble) := do
  attempt fun _ c => c.check .reading
  if ← look (·.pending.isEmpty) then return (⟨0, 0⟩, none)
  let r ← nextAnswer
  edit fun now c =>
    let (counts, trouble, c) := { c with lastUsed := now }.receive r
    ((counts, trouble), c)

/-- Begins to part, unless the connection has parted or is about to; a connection that can be used says
GOODBYE. The answer tells whether there is something to do and whether to write. -/
def beginClose (c : Connection) : Option Bool × Connection :=
  if c.closed || c.closing then (none, c)
  else
    let c := { c with closing := true }
    if c.defunct then (some false, c)
    else match c.put .goodbye with
      | .ok c => (some true, c)
      | .error _ => (some false, c)

/-- Shuts the transport down and lets go of it. -/
def hangUp : Task Unit := do
  let (link, deadline) ← edit fun _ c => ((c.transport, c.deadline), { c with transport := none })
  match link with
  | some link => transfer (.shutdown link deadline)
  | none => pure ()
  change fun c => { c with closed := true, closing := false }

/-- Parts. Whatever goes wrong, the transport is gone in the end. -/
def close : Task Unit := do
  match ← edit fun _ c => c.beginClose with
  | none => pure ()
  | some writes =>
    if writes then
      let _ ← flush.run
    hangUp

/-- Whether there is nothing to wait for. -/
def isQuiet (c : Connection) : Bool := c.closed || c.pending.isEmpty

/-- Does what is to be done about trouble ahead of a RESET that is already on its way. -/
def settleBeforeReset (trouble : Trouble) : Attempt Unit := do
  if trouble.purpose = .reset then
    change kill
    match trouble.error with
    | some e => throw e
    | none => pure ()
  else
    match trouble.remedy with
    | .reset => pure ()
    | .kill => change kill
    | .close => close

/-- Brings the server back to where it takes requests. All answers before that of RESET are taken in. -/
def reset : Attempt Unit := do
  let _ ← attempt fun _ c => c.queue .reset .reset {}
  sendAll
  Work.iterateOrFail (fun () => do
    if ← look isQuiet then return .inr ()
    let (_, trouble) ← fetchOne
    match trouble with
    | some trouble => settleBeforeReset trouble
    | none => pure ()
    return .inl ()) ()

/-- Gives the error of trouble, if it has one. -/
def giveError (trouble : Trouble) : Attempt Unit :=
  match trouble.error with
  | some e => throw e
  | none => pure ()

/-- Does what is to be done about trouble, and gives its error. That the server cannot be brought back
because the connection is lost is no error of its own. -/
def settle (trouble : Trouble) : Attempt Unit := do
  match trouble.remedy with
  | .reset => tryCatch reset fun e => if e.isUnavailable then pure () else throw e
  | .kill => change kill
  | .close => close
  giveError trouble

/-- Takes in one answer, if one is expected. After a failure the connection is brought back before the
error is given. -/
def fetchMessage : Attempt Counts := do
  let (counts, trouble) ← fetchOne
  match trouble with
  | some trouble => settle trouble
  | none => pure ()
  return counts

/-- Takes in answers until none is expected. -/
def fetchAll : Attempt Counts :=
  Work.iterateOrFail (fun counts => do
    if ← look isQuiet then return .inr counts
    return .inl (counts + (← fetchMessage))) ⟨0, 0⟩

/-- Queues the requests that log in. -/
def queueHello (requests : List Request) : Attempt Unit :=
  requests.forM fun r => do
    let purpose := match r with
      | .logon _ => Purpose.logon
      | _ => .init
    let _ ← attempt fun _ c => c.queue r purpose {}

/-- Says who the client is, and hears what the server says. -/
def hello (config : ConnectionConfig) : Attempt Unit := do
  let version ← look (·.version)
  let requests ← ExceptT.mk (pure (Protocol.hello version config))
  queueHello requests
  sendAll
  let _ ← fetchAll

/-- A row that may not make sense. -/
def readRow (row : Except PackStream.Error Routing.Row) : Except Error Routing.Row :=
  row.mapError fun e => .protocol ("Invalid routing table: " ++ e.message)

/-- The routing table in the answer to ROUTE. -/
def routeRow (x : Option Exchange) : Except Error (List Routing.Row) :=
  match (x.bind (·.success)).bind Success.routingRow? with
  | some row => ([·]) <$> readRow (Routing.Row.ofEntries row)
  | none => .error (.protocol "ROUTE response without a routing table")

/-- The routing tables in the records of a query. -/
def procedureRows (run : Option Exchange) (records : List (List Value)) :
    Except Error (List Routing.Row) :=
  let columns := (run.map Exchange.columns).getD []
  records.mapM fun values => readRow (Routing.Row.ofRecord columns values)

def route (context : Entries Value) (bookmarks : List String) (database user : Option String) :
    Attempt (List Routing.Row) := do
  let version ← look (·.version)
  match ← ExceptT.mk (pure (Protocol.route version context bookmarks database user)) with
  | .message r =>
    let n ← attempt fun _ c => c.queue r .plain {}
    sendAll
    let _ ← fetchAll
    ExceptT.mk (look fun c => routeRow (c.exchange? n))
  | .procedure run pull =>
    let first ← attempt fun _ c => c.queue run .plain {}
    let second ← attempt fun _ c => c.queue pull .plain {}
    sendAll
    let _ ← fetchAll
    attempt fun _ c =>
      let (records, d) := c.takeRecords second
      (procedureRows (c.exchange? first) records, d)

end BoltClient.Connection
