import BoltClient.Stage.Bench

namespace BoltClient.Stage

/-- A connection that is held, with labels for its exchanges. -/
structure Kept where
  holding : Holding
  labels : Labels := []

/-- A command and how long it may take. -/
structure Action where
  command : Command
  guard : Duration

/-- What a command has done: its outcome, what was told about labelled exchanges meanwhile, and the
connection afterwards. -/
structure Turn where
  outcome : Outcome
  events : List (String × Notice)
  connection : Connection
  now : Instant

def connectionOf : Holding → Option Connection
  | .borrowed m | .parting m | .loose m => some m.connection
  | _ => none

def linkOf : Holding → Option Link
  | .borrowed m | .parting m | .loose m => m.connection.transport
  | .wire link => some link
  | _ => none

namespace Bench

/-- Does a command with a connection. A command that takes too long is dropped, and the connection is kept
as it is then. -/
def act (b : Bench) (k : Kept) (a : Action) : Option Turn × Kept × Bench :=
  let (outcome, held, b) := b.run a.guard ⟨Pool.onTop (a.command.work k.labels), [k.holding]⟩
  let outcome := outcome.getD .cancelled
  let labels := a.command.relabel k.labels outcome
  match World.editTop Connection.takeNotices held with
  | some (notices, h :: _) =>
    let turn := (connectionOf h).map fun c =>
      { outcome := outcome
        events := notices.map fun (n, notice) => (labels.name n, notice)
        connection := c
        now := b.world.now }
    (turn, ⟨h, labels⟩, b)
  | _ => (none, k, b)

def actAll (b : Bench) (k : Kept) : List Action → List Turn × Kept × Bench
  | [] => ([], k, b)
  | a :: rest =>
    let (turn, k, b) := b.act k a
    let (turns, k, b) := b.actAll k rest
    (turn.toList ++ turns, k, b)

/-- Whether somebody can still use a link. -/
def usesLink (b : Bench) (kept : List Kept) (link : Link) : Bool :=
  b.world.pool.slots.any (fun s => s.idle.any fun m => m.connection.transport = some link)
    || b.waiting.any (fun j => j.thread.held.any fun h => linkOf h = some link)
    || b.ended.any (fun e => e.held.any fun h => linkOf h = some link)
    || kept.any (fun k => linkOf k.holding = some link)

end Bench
end BoltClient.Stage
