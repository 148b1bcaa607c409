import BoltClient.Connection.Basic

/-!
What an answer does to a connection. Answers belong to the oldest exchange that has no summary; a summary
ends it. Some answers leave something to be done before anything else.
-/

namespace BoltClient

/-- What is to be done about a request that went wrong. -/
inductive Remedy where
  | reset
  | kill
  | close
  deriving DecidableEq, Repr

/-- A request that went wrong. -/
structure Trouble where
  purpose : Purpose
  remedy : Remedy
  error : Option Error
  deriving DecidableEq, Repr

/-- How many messages came in. -/
structure Counts where
  records : Nat
  summaries : Nat
  deriving DecidableEq, Repr, Inhabited

instance : Add Counts := ⟨fun a b => ⟨a.records + b.records, a.summaries + b.summaries⟩⟩

namespace Connection

/-- The name of the hint that says how long a server may keep silent. -/
def silenceHint : String := "connection.recv_timeout_seconds"

/-- The message where a server refuses HELLO or LOGON without one. -/
def refusedMessage : String := "Connection initialisation failed due to an unknown error"

/-- Adds notices about the exchange that is being answered. -/
def hear (c : Connection) (notices : List Notice) : Connection :=
  { c with notices := c.notices ++ (notices.map fun n => (c.answered.size, n)).toArray }

/-- The oldest exchange is over. -/
def conclude (c : Connection) (x : Exchange) (rest : List Exchange) (notices : List Notice) :
    Connection :=
  { c.hear notices with answered := c.answered.push x, pending := rest }

def takeHints (c : Connection) (hints : Entries Value) : Connection :=
  match hints.int? silenceHint with
  | some n =>
    if 0 < n then { c with hints := hints, silence := some (.ofSeconds n.toInt.toNat) }
    else { c with hints := hints }
  | none => { c with hints := hints }

/-- Takes note of what a server says of itself. -/
def takeGreeting (c : Connection) (s : Success) : Connection :=
  let c := { c with agent := s.server? <|> c.agent, name := s.connectionId? <|> c.name }
  if c.version.capabilities.hints then
    match s.hints? with
    | some hints => c.takeHints hints
    | none => c
  else c

/-- What a failure of this kind tells the owner of the connection. -/
def feedbackOf (lastDatabase : Option String) (e : Server.Error) : List Feedback :=
  match e.kind with
  | .databaseUnavailable => [.deactivate]
  | .notALeader | .forbiddenOnReadOnlyDatabase => [.writeFailure lastDatabase]
  | _ => if e.invalidatesAll then [.invalidateAll] else []

/-- A failure as an error: one that refuses HELLO or LOGON has a message of its own if it comes
without. -/
def failureError (purpose : Purpose) (f : Failure) : Server.Error :=
  match purpose with
  | .init | .logon => .ofCode f.code? (some (f.message?.getD refusedMessage))
  | _ => .ofFailure f

/-- What is to be done when a request of a purpose fails. -/
def remedyFor : Purpose → Remedy
  | .init | .logon => .kill
  | _ => .reset

/-- The oldest exchange fails. -/
def failHead (c : Connection) (x : Exchange) (rest : List Exchange) (f : Failure) :
    Trouble × Connection :=
  let c := { c with state := .failed }
  if x.purpose = .reset then
    (⟨.reset, .close, some (.protocol ("RESET failed " ++ f.text))⟩, c.conclude x.finish rest [])
  else
    let (x, notices) := x.fail f
    let e := failureError x.purpose f
    let d := c.conclude x rest notices
    (⟨x.purpose, remedyFor x.purpose, some (.ofServer e)⟩,
      { d with feedback := d.feedback ++ feedbackOf c.lastDatabase e })

/-- An answer comes in. -/
def receive (c : Connection) (r : Response) : Counts × Option Trouble × Connection :=
  match c.pending with
  | [] => (⟨0, 0⟩, none, c)
  | x :: rest =>
    match r with
    | .record values =>
      if x.purpose = .reset then (⟨0, 0⟩, some ⟨.reset, .close, none⟩, c)
      else
        let (x, notices) := x.addRecord values
        (⟨1, 0⟩, none, { c.hear notices with pending := x :: rest })
    | .success metadata =>
      let s : Success := ⟨metadata⟩
      let c := { c with state := c.state.after x.request s.hasMore }
      let c := if x.purpose = .init then c.takeGreeting s else c
      let (x, notices) := x.succeed s
      (⟨0, 1⟩, none, c.conclude x rest notices)
    | .ignored =>
      if x.purpose = .reset then
        (⟨0, 1⟩, some ⟨.reset, .close, none⟩, c.conclude x.finish rest [])
      else
        let (x, notices) := x.ignore
        (⟨0, 1⟩, none, c.conclude x rest notices)
    | .failure metadata =>
      let (trouble, c) := c.failHead x rest ⟨metadata⟩
      (⟨0, 1⟩, some trouble, c)

end Connection
end BoltClient
