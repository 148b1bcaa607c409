import BoltClient.Stage.Kept

namespace BoltClient.Stage.Ensemble

/-- What kind of pool there is. -/
inductive Kind where
  /-- A pool for one server. -/
  | direct
  | cluster (policy : Routing.Policy)
  deriving DecidableEq, Repr

/-- How connections are opened. -/
inductive Entrance where
  /-- By dialing the scripted servers. -/
  | dialed
  /-- By address, which nobody can be reached by. -/
  | resolved (r : Resolving)

/-- What there is before the first step. -/
structure Setup where
  kind : Kind
  address : Address
  config : PoolConfig
  entrance : Entrance
  resolver : Resolver
  servers : List (Address × Server)
  /-- The databases whose tables are looked at. -/
  databases : List (Option String)

/-- Where a connection is wanted to. -/
inductive Target where
  /-- To the one server of the pool. -/
  | only
  | address (a : Address)
  | role (mode : AccessMode) (database : Option String) (bookmarks : List String)

/-- A wish for a connection. -/
structure Wish where
  target : Target
  timeout : Option Duration
  liveness : Option Duration

inductive Step where
  | acquire (name : String) (w : Wish) (guard : Duration)
  /-- Acquires in the background. -/
  | begin (name : String) (w : Wish)
  | poll (name : String)
  | join (name : String) (guard : Duration)
  | abort (name : String)
  | release (name : String) (guard : Duration)
  | drop (name : String)
  | kill (name : String)
  | use (name : String) (actions : List Action)
  | script (servers : List (Address × Server))
  | send (serial : Nat) (items : List Item)
  | pass (d : Duration)
  | deactivate (a : Address) (poolOnly : Bool) (guard : Duration)
  | markAllStale
  | close (guard : Duration)
  | ensureFresh (mode : AccessMode) (database user : Option String) (bookmarks : List String)
      (timeout : Option Duration) (guard : Duration)
  | update (database user : Option String) (bookmarks : List String) (timeout : Option Duration)
      (guard : Duration)
  | writeFailure (a : Address) (database : Option String)

/-- What comes of a step. -/
inductive Result where
  | outcome (o : Outcome)
  | turns (ts : List Turn)

/-- The state of a link that can be seen. -/
structure LinkState where
  shut : Bool
  dropped : Bool
  deriving DecidableEq, Repr, Inhabited

/-- What can be seen after a step. -/
structure Scene where
  result : Result
  now : Instant
  /-- By address, the connections that are out and those that are idle. -/
  slots : List (Address × Nat × Nat)
  attempts : List Address
  /-- What servers have heard, by number. -/
  traffic : List (Nat × List (String × List Value))
  /-- The links whose state has changed, by number. -/
  links : List (Nat × LinkState)
  tables : List (Option String × Option Routing.Table)

/-- A pool in use. -/
structure Play where
  setup : Setup
  cluster : Routing.Cluster
  bench : Bench
  kept : Entries Kept := []
  /-- The states of the links as last reported. -/
  reported : List LinkState := []

def Setup.routing (s : Setup) : Except Error (ConnectionConfig × Option Routing.Directory) :=
  match s.kind with
  | .direct => .ok (s.config.connection, none)
  | .cluster policy => do
    let config ← Routing.configFor s.address s.config.connection
    return (config, some { firstRouter := s.address, selector := { policy := policy } })

/-- How connections are opened. Scripted servers are not told about routing. -/
def Setup.opener (s : Setup) (config : ConnectionConfig) : Pool.Opener :=
  match s.entrance with
  | .dialed => Opening.dial { config with routingContext := none }
  | .resolved _ => Opening.reach config

def Setup.resolving (s : Setup) : Resolving :=
  match s.entrance with
  | .dialed => .empty
  | .resolved r => r

/-- The pool before the first step. -/
def Setup.play (s : Setup) : Except Error Play :=
  match s.routing with
  | .error e => .error e
  | .ok (config, directory) =>
    .ok {
      setup := s
      cluster := ⟨s.opener config, s.resolver, config.routingEntries.getD []⟩
      bench := { world := {
        servers := s.servers
        resolving := s.resolving
        pool := { limit := s.config.limit?, directory := directory } } } }

namespace Play

/-- The error of a pool for many servers when it is asked for its only one. -/
def notDirect : Error :=
  .configuration "acquire_direct requires a pool created for a single address"

def acquire (p : Play) (w : Wish) : Pool.Attempt Unit :=
  let deadline := Deadline.ofTimeout p.bench.world.now w.timeout
  match w.target, p.setup.kind with
  | .address a, _ => Pool.acquire p.cluster.opener a deadline w.liveness
  | .only, .direct => Pool.acquire p.cluster.opener p.setup.address deadline w.liveness
  | .only, .cluster _ => throw notDirect
  | .role mode database bookmarks, _ =>
    p.cluster.acquire mode ⟨database, none, bookmarks, deadline⟩ w.liveness

/-- The work of a wish, as a thread. -/
def wish (p : Play) (w : Wish) : Thread := ⟨.ofExcept (fun _ => .done) <$> (p.acquire w).run, []⟩

/-- Gives back what is held, and lets everybody go on who is woken by that. -/
def giveBack (p : Play) (held : List Holding) : Play := { p with bench := p.bench.giveBack held }

/-- Keeps a connection under a name. The connection that had the name is given back. -/
def keep (p : Play) (name : String) (h : Holding) : Play :=
  let old := (p.kept.get? name).map (·.holding)
  { p with kept := p.kept.put name ⟨h, []⟩ }.giveBack old.toList

/-- No longer keeps a connection. -/
def forget (p : Play) (name : String) : Play :=
  { p with kept := p.kept.filter (·.1 ≠ name) }

/-- The end of a wish. -/
def receive (p : Play) (name : String) (outcome : Option Outcome) (held : List Holding) :
    Outcome × Play :=
  match outcome, held with
  | some .done, h :: rest =>
    match connectionOf h with
    | some c => (.connection c, (p.giveBack rest).keep name h)
    | none => (.absent, p.giveBack held)
  | some o, _ => (o, p.giveBack held)
  | none, _ => (.cancelled, p.giveBack held)

/-- Does work in the foreground; what it holds in the end is given back. -/
def run (p : Play) (guard : Duration) (t : Thread) : Outcome × Play :=
  let (outcome, held, b) := p.bench.run guard t
  (outcome.getD .cancelled, { p with bench := b }.giveBack held)

/-- Does work that cannot fail. -/
def runTask (p : Play) (guard : Duration) (o : Outcome) (t : Pool.Task Unit) (held : List Holding) :
    Outcome × Play :=
  p.run guard ⟨(fun _ => o) <$> t, held⟩

/-- Does work with a connection that is kept, which is kept no more. -/
def part (p : Play) (name : String) (guard : Duration) (t : Pool.Task Unit) : Outcome × Play :=
  match p.kept.get? name with
  | some k => (p.forget name).runTask guard .done t [k.holding]
  | none => (.absent, p)

/-- Waits for a job in the background. -/
def join (p : Play) (name : String) (guard : Duration) : Outcome × Play :=
  let last := p.bench.world.now.plus guard
  let (job, b) := (p.bench.waitFor (some name) last patience).take (some name)
  let p := { p with bench := b }
  match job with
  | some (outcome, held) => p.receive name outcome held
  | none => (.absent, p)

/-- Puts new scripts in the place of those of the same addresses. -/
def rescript (p : Play) (servers : List (Address × Server)) : Play :=
  let w := p.bench.world
  { p with bench := { p.bench with world := { w with
      servers := servers ++ w.servers.filter fun (a, _) => (servers.lookup a).isNone } } }

def step (p : Play) : Step → Result × Play
  | .acquire name w guard =>
    let (outcome, held, b) := p.bench.run guard (p.wish w)
    let (o, p) := { p with bench := b }.receive name outcome held
    (.outcome o, p)
  | .begin name w =>
    let b := p.bench.start (some name) (p.wish w)
    (.outcome (.finished (b.hasEnded (some name))), { p with bench := b })
  | .poll name => (.outcome (.finished (p.bench.hasEnded (some name))), p)
  | .join name guard =>
    let (o, p) := p.join name guard
    (.outcome o, p)
  | .abort name =>
    let (job, b) := p.bench.take (some name)
    let held := (job.map (·.2)).getD []
    (.outcome .nothing, { p with bench := b }.giveBack held)
  | .release name guard =>
    let (o, p) := p.part name guard Pool.release
    (.outcome o, p)
  | .drop name =>
    let (o, p) := p.part name .zero (Pool.move .letGo)
    (.outcome o, p)
  | .kill name =>
    let (o, p) := p.part name .zero Pool.killAndRelease
    (.outcome o, p)
  | .use name actions =>
    match p.kept.get? name with
    | none => (.outcome .absent, p)
    | some k =>
      let (turns, k, b) := p.bench.actAll k actions
      (.turns turns, { p with bench := b, kept := p.kept.put name k })
  | .script servers => (.outcome .nothing, p.rescript servers)
  | .send serial items =>
    let w := p.bench.world.modifyPipe ⟨serial - 1⟩ (·.send items)
    (.outcome .nothing, { p with bench := { p.bench with world := w }.settle })
  | .pass d => (.outcome .nothing, { p with bench := p.bench.advance d })
  | .deactivate a poolOnly guard =>
    let t := if poolOnly || p.setup.kind = .direct then Pool.deactivate a
      else Routing.Cluster.deactivate a
    let (o, p) := p.runTask guard .nothing t []
    (.outcome o, p)
  | .markAllStale =>
    let (o, p) := p.runTask .zero .nothing (Pool.move .markAllStale) []
    (.outcome o, p)
  | .close guard =>
    let (o, p) := p.runTask guard .nothing Pool.close []
    (.outcome o, p)
  | .ensureFresh mode database user bookmarks timeout guard =>
    let q : Routing.Inquiry := ⟨database, user, bookmarks, .ofTimeout p.bench.world.now timeout⟩
    let t := p.cluster.ensureFresh (Routing.roleFor mode) q
    let (o, p) := p.run guard ⟨.ofExcept .renewed <$> t.run, []⟩
    (.outcome o, p)
  | .update database user bookmarks timeout guard =>
    let q : Routing.Inquiry := ⟨database, user, bookmarks, .ofTimeout p.bench.world.now timeout⟩
    let (o, p) := p.run guard ⟨.ofExcept (fun _ => .done) <$> (p.cluster.update q).run, []⟩
    (.outcome o, p)
  | .writeFailure a database =>
    let (o, p) := p.runTask .zero .nothing (Pool.move (.discardWriter a database)) []
    (.outcome o, p)

/-- The slots in the order of their addresses. -/
def slots (p : Play) : List (Address × Nat × Nat) :=
  let pool := p.bench.world.pool
  (Address.sorted pool.addresses).map fun a => (a, pool.inUse a, pool.idleCount a)

def linkStates (p : Play) : List LinkState :=
  (p.bench.world.pipes.toList.zipIdx).map fun (pipe, n) =>
    ⟨pipe.shut, !p.bench.usesLink (p.kept.map (·.2)) ⟨n⟩⟩

/-- The links whose state is not what was last reported. -/
def changedLinks (reported : List LinkState) (states : List LinkState) : List (Nat × LinkState) :=
  (states.zipIdx.filter fun (s, n) => s ≠ reported.getD n default).map fun (s, n) => (n + 1, s)

/-- What servers have heard since the last look. -/
def traffic (p : Play) : List (Nat × List (String × List Value)) :=
  (p.bench.world.pipes.toList.zipIdx.filter fun (pipe, _) => !pipe.heard.isEmpty).map
    fun (pipe, n) => (n + 1, pipe.heard)

/-- Looks around after a step. -/
def look (p : Play) (result : Result) : Scene × Play :=
  let w := p.bench.world
  let states := p.linkStates
  ({  result := result
      now := w.now
      slots := p.slots
      attempts := w.attempts
      traffic := p.traffic
      links := changedLinks p.reported states
      tables := p.setup.databases.map fun database =>
        (database, w.pool.directory.bind (·.table? database)) },
    { p with
      reported := states
      bench := { p.bench with world := { w with
        attempts := []
        pipes := w.pipes.map fun pipe => { pipe with heard := [] } } } })

def scenes (p : Play) : List Step → List Scene
  | [] => []
  | s :: rest =>
    let (result, p) := p.step s
    let (scene, p) := p.look result
    scene :: p.scenes rest

end Play

def Setup.perform (s : Setup) (steps : List Step) : Except Error (List Scene) :=
  match s.play with
  | .error e => .error e
  | .ok p => .ok (p.scenes steps)

/-- Opens a connection where nothing but resolving works; what comes of it, and when. -/
def openOnce (config : ConnectionConfig) (a : Address) (timeout : Option Duration) (r : Resolving)
    (guard : Duration) : Outcome × Instant :=
  let b : Bench := { world := { resolving := r } }
  let w := Opening.reach config a (.ofTimeout .start timeout)
  let (outcome, _, b) := b.run guard ⟨(Outcome.ofExcept .connection <$> w.run).via .transfer, []⟩
  (outcome.getD .cancelled, b.world.now)

end BoltClient.Stage.Ensemble
