import BoltClient.Stage.Command
import BoltClient.Stage.World

/-!
Work done side by side in a world without a network. Each piece of work goes on until it has to wait. What it
does on the way may wake others: they take their turns in the order in which they were woken, and those who
are woken by the same event in the order in which they began to wait. When nothing can go on, time passes up
to the next moment that somebody waits for.
-/

namespace BoltClient.Stage

/-- Work under way and what it holds. -/
structure Thread where
  work : Work Pool.Query Outcome
  held : List Holding

/-- Work with a name; work in the foreground has none. -/
structure Job where
  name : Option String
  thread : Thread

/-- Work that has ended. -/
structure Ended where
  name : Option String
  outcome : Outcome
  held : List Holding

/-- A world and the work in it. -/
structure Bench where
  world : World := {}
  /-- The work that waits, in the order in which it began to wait. -/
  waiting : List Job := []
  ended : List Ended := []

/-- A bound on the questions that are answered and on the turns that are taken in one step. -/
def patience : Nat := 1000000000000

/-- What becomes of work that asks its next question. -/
inductive Progress where
  | moves (t : Thread)
  | waits (t : Thread)
  | ends (outcome : Outcome) (held : List Holding)

namespace World

/-- Lets work ask its next question. A question whose moment has passed is given up, but only where there is
no answer. -/
def proceed (w : World) : Thread → Progress × World
  | ⟨.done outcome, held⟩ => (.ends outcome held, w)
  | ⟨.loop body s next, held⟩ => (.moves ⟨Work.round body s next, held⟩, w)
  | ⟨.ask q next, held⟩ =>
    match w.answer held q with
    | (.ready a, w, held) => (.moves ⟨next a, held⟩, w)
    | (.wait q, w, held) =>
      match q.limit? with
      | some (t, a) =>
        if t ≤ w.now then (.moves ⟨next a, held⟩, w) else (.waits ⟨.ask q next, held⟩, w)
      | none => (.waits ⟨.ask q next, held⟩, w)

/-- Tells whether work that waits can go on. An answer that has come is handed over at once, so that nobody
else can take it. Work whose question is given up looks for an answer once more when its turn comes. -/
def rouse (w : World) : Thread → Bool × Thread × World
  | ⟨.ask q next, held⟩ =>
    match w.answer held q with
    | (.ready a, w, held) => (true, ⟨next a, held⟩, w)
    | (.wait q, w, held) =>
      match q.limit? with
      | some (t, _) => (t ≤ w.now, ⟨.ask q next, held⟩, w)
      | none => (false, ⟨.ask q next, held⟩, w)
  | t => (true, t, w)

/-- The moment when work that waits should be asked again at the latest. -/
def wakesThread (w : World) (t : Thread) : Option Instant :=
  match t.work with
  | .ask q _ => w.wakes q
  | _ => none

end World

namespace Bench

/-- Leaves a job waiting, behind all others. -/
def leave (b : Bench) (j : Job) : Bench := { b with waiting := b.waiting ++ [j] }

/-- Takes out those who can go on, in the order in which they began to wait. The others keep their places. -/
def wake (b : Bench) : List Job × Bench :=
  b.waiting.foldl
    (fun (woken, b) j =>
      match b.world.rouse j.thread with
      | (true, t, w) => (woken ++ [⟨j.name, t⟩], { b with world := w })
      | (false, t, w) => (woken, { b with world := w }.leave ⟨j.name, t⟩))
    ([], { b with waiting := [] })

/-- Goes on with a job until it waits or ends. Those whom it wakes on the way join the queue. -/
def goOn (name : Option String) : Nat → List Job → Bench → Thread → List Job × Bench
  | 0, queue, b, t => (queue, b.leave ⟨name, t⟩)
  | n + 1, queue, b, t =>
    match b.world.proceed t with
    | (.moves t, w) =>
      let (woken, b) := { b with world := w }.wake
      goOn name n (queue ++ woken) b t
    | (.waits t, w) => (queue, { b with world := w }.leave ⟨name, t⟩)
    | (.ends outcome held, w) =>
      (queue, { b with world := w, ended := b.ended ++ [⟨name, outcome, held⟩] })

/-- Lets the jobs of a queue take their turns, and everybody who is woken by that. -/
def serve : Nat → List Job → Bench → Bench
  | 0, queue, b => { b with waiting := queue ++ b.waiting }
  | _ + 1, [], b => b
  | n + 1, j :: rest, b =>
    let (queue, b) := b.goOn j.name patience rest j.thread
    serve n queue b

/-- Goes on with everything that can go on without time passing. -/
def settle (b : Bench) : Bench :=
  let (woken, b) := b.wake
  b.serve patience woken

/-- Gives back what work held that is dropped, one thing after another; each may wake somebody. -/
def giveBack (b : Bench) (held : List Holding) : Bench :=
  let (queue, b) := held.foldl
    (fun (queue, b) h =>
      let (woken, b) := { b with world := b.world.giveBack h }.wake
      (queue ++ woken, b))
    ([], b)
  b.serve patience queue

/-- Time passes in one leap. Those whose moments have come take their turns in the order of these moments. -/
def leap (b : Bench) (now : Instant) : Bench :=
  let due (j : Job) : Option Instant := (b.world.wakesThread j.thread).filter (· ≤ now)
  let woken := (b.waiting.filterMap fun j => (due j).map fun t => (t, j)).mergeSort fun x y => x.1 ≤ y.1
  let rest := b.waiting.filter fun j => (due j).isNone
  { b with world := { b.world with now := now }, waiting := rest }.serve patience (woken.map Prod.snd)

/-- The next moment that somebody waits for. -/
def nextMoment (b : Bench) : Option Instant :=
  (b.waiting.filterMap fun j => b.world.wakesThread j.thread).foldl
    (fun least t => some (match least with
      | some s => if s ≤ t then s else t
      | none => t)) none

def hasEnded (b : Bench) (name : Option String) : Bool := b.ended.any (·.name = name)

/-- Lets time pass until a job has ended, but not beyond a moment. -/
def waitFor (name : Option String) (last : Instant) : Nat → Bench → Bench
  | 0, b => b
  | n + 1, b =>
    let b := b.settle
    if b.hasEnded name then b
    else if last ≤ b.world.now then b
    else
      let next := match b.nextMoment with
        | some t => if t ≤ last then t else last
        | none => last
      waitFor name last n (b.leap next)

/-- Takes a job out, wherever it is: its end if it has ended, else what it holds. -/
def take (b : Bench) (name : Option String) : Option (Option Outcome × List Holding) × Bench :=
  match b.ended.find? (·.name = name) with
  | some e => (some (some e.outcome, e.held), { b with ended := b.ended.filter (·.name ≠ name) })
  | none =>
    match b.waiting.find? (·.name = name) with
    | some j => (some (none, j.thread.held), { b with waiting := b.waiting.filter (·.name ≠ name) })
    | none => (none, b)

/-- Starts a job and lets it go on until it waits, and then everybody whom it has woken. -/
def start (b : Bench) (name : Option String) (t : Thread) : Bench := b.serve patience [⟨name, t⟩]

/-- Does work in the foreground, for at most a length of time. Work that has not ended by then is dropped
where it waits; what it holds is told in either case. -/
def run (b : Bench) (guard : Duration) (t : Thread) : Option Outcome × List Holding × Bench :=
  let last := b.world.now.plus guard
  let b := (b.start none t).waitFor none last patience
  match b.take none with
  | (some (outcome, held), b) => (outcome, held, b)
  | (none, b) => (none, [], b)

def advance (b : Bench) (d : Duration) : Bench := b.leap (b.world.now.plus d)

end Bench
end BoltClient.Stage
