import BoltClient.Address.Resolver
import BoltClient.Pool.Task

/-!
A pool for a cluster: which server a connection goes to is looked up in the routing table of a database.
A table that is out of date is renewed from its routers, one renewal at a time, before a server is
selected from it. Servers that cannot be reached are taken out of the tables.
-/

namespace BoltClient.Routing

/-- A cluster as its pool sees it. -/
structure Cluster where
  opener : Pool.Opener
  resolver : Resolver
  /-- What is told to routers. -/
  context : Entries Value

/-- The name that a routing context of a user must leave free. -/
def reservedName : String := "address"

/-- The configuration of connections to a cluster: routers are told which address the client knows. -/
def configFor (firstRouter : Address) (config : ConnectionConfig) : Except Error ConnectionConfig :=
  let context := config.routingContext.getD []
  if (context.get? reservedName).isSome then
    .error (.configuration "The key 'address' is reserved for routing context.")
  else .ok { config with routingContext := some (context.put reservedName firstRouter.text) }

/-- The role of the servers that do the work of a mode. -/
def roleFor : AccessMode → Role
  | .read => .read
  | .write => .write

/-- Which table is wanted, and by when. -/
structure Inquiry where
  database : Option String
  user : Option String
  bookmarks : List String
  deadline : Deadline

namespace Cluster

open Pool (Attempt)

variable (c : Cluster)

/-- Takes an address out of the tables and gives it up. -/
def deactivate (a : Address) : Pool.Task Unit := do
  Pool.move (.discard a)
  Pool.deactivate a

def askRouter (router : Address) (q : Inquiry) : Attempt (List Row) := do
  Pool.acquire c.opener router q.deadline none
  Pool.onTop (Connection.change fun x => { x with deadline := q.deadline })
  let answer ← Pool.onTop (Connection.route c.context q.bookmarks q.database q.user).run
  Pool.onTop (Connection.change fun x => { x with deadline := .never })
  Pool.release
  ExceptT.mk (pure answer)

/-- Whether no other router need be asked. A failure reported by the server may be its own; that a
server is gone certainly is. -/
def isFinal (e : Error) : Bool :=
  match e.failure? with
  | some failure => failure.isFatalInDiscovery
  | none => !e.isUnavailable

/-- The table that a router gives, if it is of any use: it has to list routers and readers. Writers may be
missing while a new one is being chosen. -/
def fetchTable (router : Address) (q : Inquiry) : Attempt (Option Table) := do
  let rows ← tryCatch (c.askRouter router q) fun e => if isFinal e then throw e else pure []
  match rows with
  | [] => return none
  | row :: _ =>
    let now ← Pool.ask (.transfer .now)
    let t ← ExceptT.mk (pure (Table.ofRow row q.database now))
    return if t.routers.isEmpty || t.readers.isEmpty then none else some t

/-- Renews a table from the first candidate that gives one. -/
def renewFromCandidates (q : Inquiry) : List Address → Attempt Bool
  | [] => return false
  | a :: rest => do
    match ← c.fetchTable a q with
    | some t =>
      Pool.move (.store q.database t)
      return true
    | none => renewFromCandidates q rest

/-- Renews a table from the first router that gives one. The others are given up. -/
def renewFrom (q : Inquiry) : List Address → Attempt Bool
  | [] => return false
  | router :: rest => do
    if ← c.renewFromCandidates q (c.resolver.expand router) then return true
    deactivate router
    renewFrom q rest

/-- The error of a table that no router gives. -/
def noTable : Error := .routing "Unable to retrieve routing information"

def renew (q : Inquiry) : Attempt Unit := do
  let routers ← Pool.move (.routers q.database)
  if !(← c.renewFrom q routers) then throw noTable

/-- Work that only one may do at a time. -/
def inTurn {α : Type} (w : Attempt α) : Attempt α := do
  Pool.ask .waitForTurn
  let outcome ← ExceptT.lift w.run
  Pool.move .letGo
  ExceptT.mk (pure outcome)

/-- Renews a table whether or not it is out of date. -/
def update (q : Inquiry) : Attempt Unit := inTurn (c.renew q)

/-- Gives up the addresses that no table lists. -/
def dropStrangers : Pool.Task Unit := do
  for a in ← Pool.move .strangers do Pool.deactivate a

/-- Sees to it that a table can be used for a role. A table that cannot be renewed is used as it is while
it lists a server of the role. Tells whether the table was renewed. -/
def ensureFresh (role : Role) (q : Inquiry) : Attempt Bool :=
  inTurn do
    if ← Pool.move (.isFresh role q.database) then return false
    match ← ExceptT.lift (c.renew q).run with
    | .ok () =>
      dropStrangers
      return true
    | .error e =>
      match e with
      | .routing _ => if ← Pool.move (.serves role q.database) then return false else throw e
      | _ => throw e

/-- The error of a cluster without a server for a mode. -/
def noServer (mode : AccessMode) : Error :=
  .sessionExpired ("Failed to obtain connection towards '" ++ mode.name ++ "' server.") none

/-- Takes hold of a connection to a server that does the work of a mode. Servers that cannot be reached
are given up. -/
def acquire (mode : AccessMode) (q : Inquiry) (liveness : Option Duration) : Attempt Unit := do
  let _ ← c.ensureFresh (roleFor mode) q
  Work.iterateOrFail (fun () => do
    let choice ← Pool.ask .draw
    match ← Pool.move (.select (roleFor mode) q.database choice) with
    | none => throw (noServer mode)
    | some a =>
      tryCatch
        (do
          Pool.acquire c.opener a q.deadline liveness
          return .inr ())
        fun e => do
          if e.isUnavailable then
            deactivate a
            return .inl ()
          else throw e) ()

end Cluster
end BoltClient.Routing
