import BoltClient.Time.Duration

/-!
Instants, and the instant by which a piece of work must be done. A deadline is fixed once, when the work
starts; whatever the work tries has only the time that is left.
-/

namespace BoltClient

/-- A moment, counted from the start of the clock. -/
structure Instant where
  nanos : Nat
  deriving DecidableEq, Repr, Inhabited

namespace Instant

def start : Instant := ⟨0⟩

/-- The last moment that can be told. -/
def last : Instant := ⟨0x7FFFFFFFFFF00000 * Duration.nanosPerSecond⟩

instance : LE Instant := ⟨fun a b => a.nanos ≤ b.nanos⟩

instance : LT Instant := ⟨fun a b => a.nanos < b.nanos⟩

instance (a b : Instant) : Decidable (a ≤ b) := inferInstanceAs (Decidable (a.nanos ≤ b.nanos))

instance (a b : Instant) : Decidable (a < b) := inferInstanceAs (Decidable (a.nanos < b.nanos))

def plus (t : Instant) (d : Duration) : Instant := ⟨t.nanos + d.nanos⟩

/-- The moment a length of time later, if it can be told. -/
def plus? (t : Instant) (d : Duration) : Option Instant :=
  if t.plus d ≤ last then some (t.plus d) else none

/-- The time from `earlier` to `t`, none if `earlier` is not earlier. -/
def since (t earlier : Instant) : Duration := ⟨t.nanos - earlier.nanos⟩

end Instant

/-- A moment by which work must be done, and the length of time it was made from. Without a moment there
is no hurry. -/
structure Deadline where
  at? : Option Instant
  timeout : Option Duration
  deriving DecidableEq, Repr, Inhabited

namespace Deadline

def never : Deadline := ⟨none, none⟩

/-- A length of time from now. A moment too far away to be told is no deadline. -/
def after (now : Instant) (timeout : Duration) : Deadline := ⟨now.plus? timeout, some timeout⟩

/-- A length of time from now, or no deadline. -/
def ofTimeout (now : Instant) : Option Duration → Deadline
  | some timeout => after now timeout
  | none => never

def expired (d : Deadline) (now : Instant) : Bool :=
  match d.at? with
  | some t => t ≤ now
  | none => false

def left (d : Deadline) (now : Instant) : Option Duration := d.at?.map (·.since now)

/-- The earlier deadline, and of two at the same moment the first. -/
def min (a b : Deadline) : Deadline :=
  match a.at?, b.at? with
  | none, _ => b
  | some _, none => a
  | some s, some t => if s ≤ t then a else b

/-- Whether work that takes a length of time is done before the deadline, and the moment when that is
known. Work that is ready at once is done whatever the time, and so is work that ends just in time. -/
def complete (d : Deadline) (now : Instant) (work : Duration) : Bool × Instant :=
  let done := now.plus work
  match d.at? with
  | none => (true, done)
  | some t =>
    if work.nanos = 0 ∨ done ≤ t then (true, done)
    else (false, if now ≤ t then t else now)

end Deadline
end BoltClient
