import BoltClient.Chunk.Reader
import BoltClient.Chunk.Writer
import BoltClient.Connection.Exchange
import BoltClient.Connection.Transfer
import BoltClient.Protocol.Requests
import BoltClient.Protocol.ServerState
import BoltClient.Wire.Message

/-!
One side of a conversation with a server. Requests are collected and then written together; answers come
in the order of the requests. What the owner of the connection should know is noted down until the
connection comes back.
-/

namespace BoltClient

/-- What the owner of a connection should do when it comes back. -/
inductive Feedback where
  /-- Give up all connections to this address. -/
  | deactivate
  /-- Do not write to this address for a database any more. -/
  | writeFailure (database : Option String)
  /-- Give up every connection. -/
  | invalidateAll
  deriving DecidableEq, Repr

/-- A connection whose version is agreed on. Without a transport nothing can be read or written. -/
structure Connection where
  address : Address
  endpoint : Option Endpoint
  version : Version
  transport : Option Link
  inbox : Chunk.Reader
  outbox : Chunk.Writer
  /-- The exchanges that are over, oldest first. -/
  answered : Array Exchange
  /-- The exchanges that have no summary yet, oldest first. -/
  pending : List Exchange
  /-- What has been told and to which exchange it belongs, until somebody takes it. -/
  notices : Array (Nat × Notice)
  state : ServerState
  created : Instant
  lastUsed : Instant
  lifetime : Option Duration
  /-- How long the server may keep silent. -/
  silence : Option Duration
  deadline : Deadline
  markedStale : Bool
  /-- Reading or writing went wrong. -/
  defunct : Bool
  closed : Bool
  closing : Bool
  /-- A read or write has begun and not ended. -/
  inFlight : Bool
  /-- The connection was chosen by a routing table. -/
  routed : Bool
  feedback : List Feedback
  agent : Option String
  name : Option String
  hints : Entries Value
  lastDatabase : Option String

/-- The direction of bytes. -/
inductive Direction where
  | reading
  | writing
  deriving DecidableEq, Repr

def Direction.phrase : Direction → String
  | reading => "read from"
  | writing => "write to"

namespace Connection

/-- A connection whose link has just agreed on a version. -/
def ofLink (link : Link) (address : Address) (endpoint : Option Endpoint) (version : Version)
    (lifetime : Option Duration) (now : Instant) : Connection where
  address := address
  endpoint := endpoint
  version := version
  transport := some link
  inbox := default
  outbox := default
  answered := #[]
  pending := []
  notices := #[]
  state := .connected
  created := now
  lastUsed := now
  lifetime := lifetime
  silence := none
  deadline := .never
  markedStale := false
  defunct := false
  closed := false
  closing := false
  inFlight := false
  routed := false
  feedback := []
  agent := none
  name := none
  hints := []
  lastDatabase := none

def description (c : Connection) : String :=
  match c.endpoint with
  | some e => c.address.text ++ " (" ++ e.text ++ ")"
  | none => c.address.text

/-- Whether the connection is to be closed rather than used again. -/
def isStale (c : Connection) (now : Instant) : Bool :=
  c.markedStale || match c.lifetime with
    | some lifetime => lifetime.nanos ≤ (now.since c.created).nanos
    | none => false

/-- Whether nothing has come or gone for longer than a time. -/
def isIdleFor (c : Connection) (time : Duration) (now : Instant) : Bool :=
  time.nanos < (now.since c.lastUsed).nanos

/-- Whether the server is ready for new requests, or will be once the RESET on its way is answered. -/
def isReset (c : Connection) : Bool :=
  match c.pending.getLast? with
  | some last => last.purpose = .reset
  | none => c.state = .ready

/-- The exchange of a number; exchanges are numbered from zero. -/
def exchange? (c : Connection) (n : Nat) : Option Exchange :=
  if n < c.answered.size then c.answered[n]? else c.pending[n - c.answered.size]?

def modifyExchange (c : Connection) (n : Nat) (f : Exchange → Exchange) : Connection :=
  if n < c.answered.size then { c with answered := c.answered.modify n f }
  else { c with pending := c.pending.modify (n - c.answered.size) f }

def takeRecords (c : Connection) (n : Nat) : List (List Value) × Connection :=
  (((c.exchange? n).map (·.records.toList)).getD [],
    c.modifyExchange n fun x => { x with records := #[] })

def takeNotices (c : Connection) : List (Nat × Notice) × Connection :=
  (c.notices.toList, { c with notices := #[] })

/-- Lets go of the transport without a word. -/
def kill (c : Connection) : Connection := { c with transport := none, closed := true }

def lossMessage (c : Connection) : Direction → String
  | .reading => "Failed to read from defunct connection " ++ c.description
  | .writing => "Failed to write data to connection " ++ c.description

/-- The error of a loss. Where a commit waits for its answer, its outcome is unknown. -/
def lossError (c : Connection) (direction : Direction) (cause : Option String) : Error :=
  let message := c.lossMessage direction
  if c.pending.any (·.purpose = .commit) then .incompleteCommit message cause
  else if c.routed then .sessionExpired message cause
  else .serviceUnavailable message cause

/-- The transport is lost. A server that had not failed before is one to give up. -/
def lose (c : Connection) (direction : Direction) (cause : Option String) : Error × Connection :=
  let told := if !c.closed && !c.closing && c.state ≠ .failed then [Feedback.deactivate] else []
  (c.lossError direction cause,
    { c.kill with defunct := true, feedback := c.feedback ++ told })

/-- A connection that a read or write was dropped on is lost. -/
def settleFlight (c : Connection) : Connection :=
  if c.inFlight then { c.kill with inFlight := false, defunct := true } else c

/-- Whether the connection can be used. -/
def check (c : Connection) (direction : Direction) : Except Error Unit × Connection :=
  let c := c.settleFlight
  let refuse (what : String) : Except Error Unit :=
    .error (.unavailable ("Failed to " ++ direction.phrase ++ what ++ c.description))
  if c.defunct then (refuse " defunct connection ", c)
  else if c.closed then (refuse " closed connection ", c)
  else (.ok (), c)

/-- Adds a request to what will be written. A request that cannot be encoded changes nothing. -/
def put (c : Connection) (r : Request) : Except Error Connection :=
  match PackStream.encode r.toStruct.value with
  | .ok payload => .ok { c with outbox := (c.outbox.write payload).endMessage }
  | .error e => .error (.protocol ("Failed to encode " ++ r.name ++ ": " ++ e.message))

/-- Adds a request that is answered; its exchange's number is given back. -/
def queue (c : Connection) (r : Request) (purpose : Purpose) (watch : Watch) :
    Except Error Nat × Connection :=
  match c.put r with
  | .error e => (.error e, c)
  | .ok d =>
    (.ok (c.answered.size + c.pending.length),
      { d with pending := c.pending ++ [.ofRequest r.kind purpose watch] })

/-- Adds a request that may be impossible, and remembers which database it is for. -/
def queueFor (c : Connection) (r : Except Error Request) (database : Option String) (watch : Watch) :
    Except Error Nat × Connection :=
  match r with
  | .error e => (.error e, c)
  | .ok r => { c with lastDatabase := database }.queue r .plain watch

/-- RUN, on its own or inside a transaction. -/
def run (c : Connection) (query : String) (parameters : Entries Value) (extra : TransactionExtra)
    (filter : Notification.Filter) (watch : Watch) : Except Error Nat × Connection :=
  c.queueFor (Protocol.run c.version query parameters extra filter) extra.database watch

def begin (c : Connection) (extra : TransactionExtra) (filter : Notification.Filter) (watch : Watch) :
    Except Error Nat × Connection :=
  c.queueFor (Protocol.begin c.version extra filter) extra.database watch

def pull (c : Connection) (n qid : Int64) (watch : Watch) : Except Error Nat × Connection :=
  c.queue (.pull n qid) .plain watch

def discard (c : Connection) (n qid : Int64) (watch : Watch) : Except Error Nat × Connection :=
  c.queue (.discard n qid) .plain watch

def commit (c : Connection) (watch : Watch) : Except Error Nat × Connection :=
  c.queue .commit .commit watch

def rollback (c : Connection) (watch : Watch) : Except Error Nat × Connection :=
  c.queue .rollback .plain watch

end Connection
end BoltClient
