import BoltClient.Config.Pool
import BoltClient.Connection.Opening
import BoltClient.Pool.Move

/-!
What is done with a pool, step by step: handing a connection out, taking it back, giving up an address
and closing. The work may be dropped at any question; what it holds then is given back.
-/

namespace BoltClient.Pool

/-- Questions of work on a pool. -/
inductive Query : Type → Type 1 where
  /-- Does something at once. -/
  | move {α : Type} (m : Move α) : Query α
  /-- Looks at the clock and at the newest connection held, and changes it. -/
  | edit {α : Type} (f : Instant → Connection → α × Connection) : Query α
  | transfer {α : Type} (t : Transfer α) : Query α
  /-- Waits until there have been more changes than those seen; no if the deadline comes first. -/
  | waitForChange (seen : Nat) (deadline : Deadline) : Query Bool
  /-- Waits for the right to renew the routing tables. -/
  | waitForTurn : Query Unit
  /-- A number drawn by lot. -/
  | draw : Query Nat

/-- The moment when a question is given up, and what its answer is then. -/
def Query.limit? : {α : Type} → Query α → Option (Instant × α)
  | _, transfer t => t.limit?
  | _, waitForChange _ d => d.at?.map (·, false)
  | _, move _ | _, edit _ | _, waitForTurn | _, draw => none

abbrev Task := Work Query

/-- Work on a pool that may fail. -/
abbrev Attempt := ExceptT Error Task

/-- How connections are opened. -/
abbrev Opener := Address → Deadline → Opening.Attempt Connection

section

variable {α : Type} {m : Type → Type 1} [MonadLiftT Task m]

def ask (q : Query α) : m α := liftM (Work.query q : Task α)

def move (q : Move α) : m α := ask (.move q)

/-- Work on the newest connection held. -/
def onTop (t : Connection.Task α) : m α :=
  liftM (t.via fun
    | .edit f => Query.edit f
    | .transfer t => .transfer t : Task α)

end

def closeOne : Task Unit := do
  onTop Connection.close
  move .letGo

/-- Closes connections held, the newest first. -/
def closeHeld : Nat → Task Unit
  | 0 => pure ()
  | n + 1 => do
    closeOne
    closeHeld n

/-- Closes a connection before it comes back. -/
def closeAndRelease : Task Unit := do
  move .part
  onTop Connection.close
  closeHeld (← move .checkIn)

/-- Brings a connection to where it can be used again, if it can be. -/
def tidy : Connection.Task Unit := do
  let c ← Connection.look id
  if c.defunct || c.closed then pure ()
  else if !c.isReset then
    let _ ← Connection.reset.run
  else if !c.pending.isEmpty then
    let _ ← Connection.fetchAll.run

/-- Takes a connection back. -/
def release : Task Unit := do
  onTop tidy
  closeHeld (← move .checkIn)

/-- Takes a connection back and lets its transport go. -/
def killAndRelease : Task Unit := do
  onTop (Connection.change Connection.kill)
  move .letGo

/-- Gives up an address and closes its idle connections. -/
def deactivate (a : Address) : Task Unit := do
  closeHeld (← move (.detach a))

/-- Closes the pool. Connections that are out are closed when they come back. -/
def close : Task Unit := do
  closeHeld (← move .shut)
  move .announce

/-- Tries out a connection, if nothing has come or gone on it for longer than a time. -/
def isAlive (idleTime : Duration) (deadline : Deadline) : Connection.Task Bool := do
  if ← Connection.edit fun now c => (c.isIdleFor idleTime now, c) then
    Connection.change fun c => { c with deadline := deadline }
    let outcome ← Connection.reset.run
    Connection.change fun c => { c with deadline := .never }
    return outcome.toBool
  else return true

/-- Whether an idle connection can be handed out. -/
def isHealthy (a : Address) (deadline : Deadline) (liveness : Option Duration) : Task Bool := do
  if ← move (.isCurrent a) then
    match liveness with
    | some idleTime => onTop (isAlive idleTime deadline)
    | none => return true
  else return false

/-- Takes hold of the first idle connection that can be handed out; those that cannot are closed. -/
def reuse (a : Address) (deadline : Deadline) (liveness : Option Duration) : Task Bool :=
  Work.iterate (fun () => do
    if ← move (.takeIdle a) then
      if ← isHealthy a deadline liveness then return .inr true
      closeAndRelease
      return .inl ()
    else return .inr false) ()

/-- Opens a connection for the place that is held. An address that cannot be reached is given up. -/
def openReserved (opener : Opener) (a : Address) (deadline : Deadline) : Attempt Unit :=
  tryCatch
    (do
      let c ← ExceptT.mk ((opener a deadline).run.via .transfer)
      move (.fulfil c))
    fun e => do
      move .letGo
      match e with
      | .serviceUnavailable .. => deactivate a
      | _ => pure ()
      throw e

def closedError : Error := .unavailable "Connection pool is closed"

/-- The error of a pool in which nothing came free in time. -/
def exhausted (deadline : Deadline) : Error :=
  .poolExhausted ("failed to obtain a connection from the pool within "
    ++ (deadline.timeout.getD .zero).text ++ " (timeout)")

/-- Takes hold of a connection to an address: an idle one, a new one if there is room, or else one that
comes free before the deadline. -/
def acquire (opener : Opener) (a : Address) (deadline : Deadline) (liveness : Option Duration) :
    Attempt Unit :=
  Work.iterateOrFail (fun () => do
    match ← move .enter with
    | none => throw closedError
    | some seen =>
      if ← reuse a deadline liveness then return .inr ()
      if ← move (.reserve a) then
        openReserved opener a deadline
        return .inr ()
      if ← ask (.waitForChange seen deadline) then return .inl ()
      throw (exhausted deadline)) ()

end BoltClient.Pool
