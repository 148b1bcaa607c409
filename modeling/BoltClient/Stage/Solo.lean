import BoltClient.Stage.Kept

namespace BoltClient.Stage.Solo

/-- What the server side does. -/
structure Supply where
  items : List Item
  /-- How many more bytes the client may write. -/
  room : Option Nat := none
  /-- The fault of every write. -/
  writeFault : Option String := none

/-- How the connection comes about. -/
inductive Start where
  /-- The version is agreed on already. -/
  | agreed (version : Version) (lifetime : Option Duration)
  | establish (config : ConnectionConfig) (timeout : Option Duration)
  /-- A version is agreed on and nothing else. -/
  | agree (timeout : Option Duration)

inductive Step where
  | supply (s : Supply)
  | pass (d : Duration)
  | act (a : Action)

structure Script where
  address : Address
  endpoint : Option Endpoint
  start : Start
  supply : Supply
  guard : Duration
  steps : List Step

/-- What can be seen of the link: bytes written since the last look, and whether the client has shut it
down or let go of it. -/
structure Trace where
  written : List UInt8
  shut : Bool
  dropped : Bool

/-- What can be seen after the start. -/
structure Overture where
  outcome : Outcome
  now : Instant
  trace : Trace

/-- What can be seen after a step. -/
structure Scene where
  turn : Turn
  trace : Trace

def link : Link := ⟨0⟩

/-- The server side does something. -/
def Supply.apply (s : Supply) (p : Pipe) : Pipe :=
  { p.send s.items with
    room := s.room <|> p.room
    writeFault := s.writeFault <|> p.writeFault }

def look (b : Bench) (kept : List Kept) : Trace × Bench :=
  let p := b.world.pipes.getD link.id default
  (⟨p.written, p.shut, !b.usesLink kept link⟩,
    { b with world := b.world.modifyPipe link fun p => { p with written := [] } })

/-- The bench before the start. -/
def Script.bench (s : Script) : Bench :=
  { world := { pipes := #[s.supply.apply { address := s.address }], answering := false } }

def Script.opening (s : Script) : Work Transfer Outcome :=
  let setting (timeout : Option Duration) : Opening.Setting :=
    ⟨link, s.address, .ofTimeout .start timeout⟩
  match s.start with
  | .agreed version lifetime =>
    .done (.connection (.ofLink link s.address s.endpoint version lifetime .start))
  | .establish config timeout =>
    .ofExcept .connection <$> ((setting timeout).establish s.endpoint config).run
  | .agree timeout => .ofExcept .version <$> (setting timeout).agree.run

def Step.play (b : Bench) (k : Kept) : Step → Option Turn × Kept × Bench
  | act a => b.act k a
  | supply s =>
    let b := { b with world := b.world.modifyPipe link s.apply }
    (still b .nothing, k, b)
  | pass d =>
    let b := b.advance d
    (still b .nothing, k, b)
where
  /-- A turn in which the client does nothing. -/
  still (b : Bench) (outcome : Outcome) : Option Turn :=
    (connectionOf k.holding).map fun c => ⟨outcome, [], c, b.world.now⟩

def playAll (b : Bench) (k : Kept) : List Step → List Scene
  | [] => []
  | s :: rest =>
    let (turn, k, b) := s.play b k
    let (trace, b) := look b [k]
    (turn.map (⟨·, trace⟩)).toList ++ playAll b k rest

/-- Plays a script. Without a connection after the start there are no scenes. -/
def Script.play (s : Script) : Overture × List Scene :=
  let (outcome, _, b) := s.bench.run s.guard ⟨s.opening.via .transfer, [.wire link]⟩
  let outcome := outcome.getD .cancelled
  match outcome with
  | .connection c =>
    let k : Kept := ⟨.loose ⟨c, 0⟩, []⟩
    let (trace, b) := look b [k]
    (⟨outcome, b.world.now, trace⟩, playAll b k s.steps)
  | _ =>
    let kept := match s.start with
      | .agree _ => [⟨.wire link, []⟩]
      | _ => []
    let (trace, b) := look b kept
    (⟨outcome, b.world.now, trace⟩, [])

end BoltClient.Stage.Solo
