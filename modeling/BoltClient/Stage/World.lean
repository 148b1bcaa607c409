import BoltClient.Pool.Task
import BoltClient.Stage.Server

/-!
A world without a network: links are pipes to scripted servers, and time passes only when it is told to.
It answers the questions of work on a pool, or lets them wait.
-/

namespace BoltClient.Stage

/-- A link. -/
structure Pipe where
  address : Address
  /-- What the client will find, in order. -/
  inbound : List Signal := []
  /-- What the client has written since the last report. -/
  written : List UInt8 := []
  /-- How many more bytes the client may write. -/
  room : Option Nat := none
  /-- The fault of every write. -/
  writeFault : Option String := none
  shut : Bool := false
  /-- When the link begins to carry bytes. -/
  ready : Instant := .start
  /-- How many bytes of the client's greeting have not come yet. -/
  greetingLeft : Nat := Handshake.request.length
  inbox : Chunk.Reader := default
  /-- The requests that the server has had since the last report. -/
  heard : List (String × List Value) := []

namespace Pipe

instance : Inhabited Pipe := ⟨{ address := default }⟩

/-- The server sends something. -/
def send (p : Pipe) (items : List Item) : Pipe :=
  { p with inbound := p.inbound ++ items.flatMap Item.signals }

/-- The server answers every request that is complete, at most so many. -/
def answerAll (s : Server) (serial : Nat) : Nat → Pipe → Pipe
  | 0, p => p
  | n + 1, p =>
    match Wire.nextValue p.inbox with
    | (.ok (some (.struct tag fields)), inbox) =>
      let p := { p with inbox := inbox }
      match Message.nameOfTag? tag with
      | some name =>
        answerAll s serial n ({ p with heard := p.heard ++ [(name, fields)] }.send (s.answer serial name))
      | none => answerAll s serial n p
    | (.ok (some _), inbox) | (.error _, inbox) => answerAll s serial n { p with inbox := inbox }
    | (.ok none, inbox) => { p with inbox := inbox }

/-- The server takes in bytes. -/
def hear (s : Server) (serial : Nat) (b : List UInt8) (p : Pipe) : Pipe :=
  let left := p.greetingLeft - b.length
  let greeted := if 0 < p.greetingLeft ∧ left = 0 then p.send s.greeting else p
  { greeted with greetingLeft := left, inbox := p.inbox.feed (b.drop p.greetingLeft) }.answerAll s serial
    (b.length + 1)

/-- The client reads at most `limit` bytes. An end and a break stay where they are. -/
def read (limit : Option Nat) (p : Pipe) : Option Input × Pipe :=
  match p.inbound with
  | [] => (none, p)
  | .ended :: _ => (some .ended, p)
  | .failed detail :: _ => (some (.failed detail), p)
  | .bytes b :: rest =>
    match limit with
    | some n =>
      if n < b.length then (some (.bytes (b.take n)), { p with inbound := .bytes (b.drop n) :: rest })
      else (some (.bytes b), { p with inbound := rest })
    | none => (some (.bytes b), { p with inbound := rest })

/-- The client writes as much as there is room for; the bytes that are taken and those left over. -/
def write (b : List UInt8) (p : Pipe) : List UInt8 × List UInt8 × Pipe :=
  match p.room with
  | none => (b, [], { p with written := p.written ++ b })
  | some n =>
    (b.take n, b.drop n, { p with written := p.written ++ b.take n, room := some (n - b.length) })

end Pipe

/-- What comes of asking: an answer, or the question is left waiting. -/
inductive Reply (Q : Type → Type 1) (α : Type) where
  | ready (a : α)
  | wait (q : Q α)

/-- The world. -/
structure World where
  now : Instant := .start
  pipes : Array Pipe := #[]
  servers : List (Address × Server) := []
  /-- Whether the servers take part; otherwise they say only what they are told to. -/
  answering : Bool := true
  resolving : Resolving := .empty
  /-- The addresses that were dialed since the last report, in order. -/
  attempts : List Address := []
  pool : Pool := default

namespace World

def server (w : World) (a : Address) : Server := (w.servers.lookup a).getD default

/-- The number that a link has for its server. -/
def serial (link : Link) : Nat := link.id + 1

def modifyPipe (w : World) (link : Link) (f : Pipe → Pipe) : World :=
  { w with pipes := w.pipes.modify link.id f }

/-- A new pipe. -/
def addPipe (w : World) (p : Pipe) : Link × World := (⟨w.pipes.size⟩, { w with pipes := w.pipes.push p })

def dial (w : World) (a : Address) : Except Error Link × World :=
  let w := { w with attempts := w.attempts ++ [a] }
  let s := w.server a
  match s.refusal with
  | some refusal => (.error (refusal.error a), w)
  | none =>
    let (link, w) := w.addPipe { address := a, ready := w.now.plus s.delay }
    (.ok link, w)

def write (w : World) (link : Link) (b : List UInt8) : Except String (List UInt8) × World :=
  match w.pipes[link.id]? with
  | none => (.error "no link", w)
  | some p =>
    match p.writeFault with
    | some detail => (.error detail, w)
    | none =>
      let (taken, left, p) := p.write b
      let p := if w.answering then p.hear (w.server p.address) (serial link) taken else p
      (.ok left, w.modifyPipe link fun _ => p)

/-- Answers a question to the network. -/
def transfer (w : World) : {α : Type} → Transfer α → Reply Transfer α × World
  | _, .now => (.ready w.now, w)
  | _, .resolve a d =>
    match w.resolving.resolve a with
    | some answer => (.ready (some answer), w)
    | none => (.wait (.resolve a d), w)
  | _, .connect _ _ => (.ready (.failed "no network"), w)
  | _, .dial a =>
    let (answer, w) := w.dial a
    (.ready answer, w)
  | _, .settle link =>
    match w.pipes[link.id]? with
    | some p => if p.ready ≤ w.now then (.ready (), w) else (.wait (.settle link), w)
    | none => (.wait (.settle link), w)
  | _, .read link limit d =>
    match w.pipes[link.id]? with
    | none => (.ready (.failed "no link"), w)
    | some p =>
      match p.read limit with
      | (some input, p) => (.ready input, w.modifyPipe link fun _ => p)
      | (none, _) => (.wait (.read link limit d), w)
  | _, .write link b d =>
    match w.write link b with
    | (.error detail, w) => (.ready (.failed detail), w)
    | (.ok [], w) => (.ready .done, w)
    | (.ok left, w) => (.wait (.write link left d), w)
  | _, .shutdown link _ => (.ready (), w.modifyPipe link fun p => { p with shut := true })

/-- Changes the newest connection held. -/
def editTop {α : Type} (f : Connection → α × Connection) : List Holding → Option (α × List Holding)
  | .borrowed m :: held =>
    let (a, c) := f m.connection
    some (a, .borrowed { m with connection := c } :: held)
  | .parting m :: held =>
    let (a, c) := f m.connection
    some (a, .parting { m with connection := c } :: held)
  | .loose m :: held =>
    let (a, c) := f m.connection
    some (a, .loose { m with connection := c } :: held)
  | _ => none

/-- What somebody who dials holds afterwards. -/
def grasp {α : Type} (held : List Holding) : Transfer α → Reply Transfer α → List Holding
  | .dial _, .ready (.ok link) => .wire link :: held
  | .connect _ _, .ready (.linked link) => .wire link :: held
  | _, _ => held

/-- Answers a question of work that holds something. A change to a connection waits until one is held. -/
def answer (w : World) (held : List Holding) :
    {α : Type} → Pool.Query α → Reply Pool.Query α × World × List Holding
  | _, .move m =>
    let (a, g) := m.apply w.now ⟨w.pool, held⟩
    (.ready a, { w with pool := g.pool }, g.held)
  | _, .edit f =>
    match editTop (f w.now) held with
    | some (a, held) => (.ready a, w, held)
    | none => (.wait (.edit f), w, held)
  | _, .transfer t =>
    match w.transfer t with
    | (.ready a, w) => (.ready a, w, grasp held t (.ready a))
    | (.wait t, w) => (.wait (.transfer t), w, held)
  | _, .waitForChange seen d =>
    if seen < w.pool.changes then (.ready true, w, held) else (.wait (.waitForChange seen d), w, held)
  | _, .waitForTurn =>
    if w.pool.renewing then (.wait .waitForTurn, w, held)
    else (.ready (), { w with pool := { w.pool with renewing := true } }, .turn :: held)
  | _, .draw => (.ready 0, w, held)

/-- The moment when a question that waits should be asked again at the latest. -/
def wakes (w : World) {α : Type} (q : Pool.Query α) : Option Instant :=
  match q with
  | .transfer (.settle link) => w.pipes[link.id]?.map (·.ready)
  | q => q.limit?.map (·.1)

/-- One thing that work held comes back. -/
def giveBack (w : World) (h : Holding) : World := { w with pool := w.pool.letGo w.now h }

end World
end BoltClient.Stage
