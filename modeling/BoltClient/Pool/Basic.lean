import BoltClient.Connection.Basic
import BoltClient.Routing.Directory

/-!
Connections kept for use, by address. For every address the pool counts the connections that are out and
the places taken for connections that are being opened, and together with the idle ones these stay within
the limit. A generation number tells which connections belong to a time before the address was given up.
-/

namespace BoltClient

/-- A connection and the generation that it belongs to. -/
structure Member where
  connection : Connection
  generation : Nat

/-- The connections to one address. -/
structure Slot where
  address : Address
  /-- Connections that wait to be used, the longest idle first. -/
  idle : List Member := []
  inUse : Nat := 0
  /-- Places of connections that are being opened. -/
  reservations : Nat := 0
  generation : Nat := 0

/-- All connections that count against the limit. -/
def Slot.size (s : Slot) : Nat := s.idle.length + s.inUse + s.reservations

/-- A pool. No address has two slots. -/
structure Pool where
  /-- The most connections to one address. -/
  limit : Option Nat := none
  /-- The routing tables that hear what connections report, if the pool has any. -/
  directory : Option Routing.Directory := none
  slots : List Slot := []
  closed : Bool := false
  /-- How often those who wait have been told to look again. -/
  changes : Nat := 0
  /-- Whether somebody is renewing the routing tables. -/
  renewing : Bool := false

namespace Pool

instance : Inhabited Pool := ⟨{}⟩

def slot? (p : Pool) (a : Address) : Option Slot := p.slots.find? (·.address = a)

def modify (p : Pool) (a : Address) (f : Slot → Slot) : Pool :=
  { p with slots := p.slots.map fun s => if s.address = a then f s else s }

/-- Sees to it that an address has a slot. -/
def ensure (p : Pool) (a : Address) : Pool :=
  match p.slot? a with
  | some _ => p
  | none => { p with slots := p.slots ++ [{ address := a }] }

def remove (p : Pool) (a : Address) : Pool := { p with slots := p.slots.filter (·.address ≠ a) }

/-- Tells those who wait to look again. -/
def announce (p : Pool) : Pool := { p with changes := p.changes + 1 }

def addresses (p : Pool) : List Address := p.slots.map (·.address)

def inUse (p : Pool) (a : Address) : Nat := ((p.slot? a).map (·.inUse)).getD 0

def idleCount (p : Pool) (a : Address) : Nat := ((p.slot? a).map (·.idle.length)).getD 0

/-- Takes out the longest idle connection to an address. -/
def takeIdle (p : Pool) (a : Address) : Option (Member × Pool) :=
  match (p.slot? a).map (·.idle) with
  | some (m :: rest) => some (m, p.modify a fun s => { s with idle := rest, inUse := s.inUse + 1 })
  | _ => none

/-- Takes a place for a new connection, if there is one; the generation that it will belong to is given. -/
def reserve (p : Pool) (a : Address) : Option Nat × Pool :=
  let p := p.ensure a
  match p.slot? a with
  | none => (none, p)
  | some s =>
    if p.limit.any (· ≤ s.size) then (none, p)
    else (some s.generation, p.modify a fun s => { s with reservations := s.reservations + 1 })

/-- A connection takes its place. -/
def fulfil (p : Pool) (a : Address) : Pool :=
  (p.ensure a).modify a fun s => { s with reservations := s.reservations - 1, inUse := s.inUse + 1 }

/-- Gives a place back. An address that was given up meanwhile and has nothing left is forgotten. -/
def abandon (p : Pool) (a : Address) (generation : Nat) : Pool :=
  let p := p.modify a fun s => { s with reservations := s.reservations - 1 }
  match p.slot? a with
  | some s =>
    if s.size = 0 ∧ s.generation ≠ generation then (p.remove a).announce else p.announce
  | none => p.announce

/-- Gives up an address: its idle connections are taken out, and those that are out will not be kept when
they come back. -/
def detach (p : Pool) (a : Address) : List Member × Pool :=
  match p.slot? a with
  | none => ([], p)
  | some s =>
    if s.inUse = 0 ∧ s.reservations = 0 then (s.idle, p.remove a)
    else (s.idle, p.modify a fun s => { s with idle := [], generation := s.generation + 1 })

/-- Gives up every connection: none will be used again. -/
def markAllStale (p : Pool) : Pool :=
  { p with slots := p.slots.map fun s => { s with generation := s.generation + 1 } }

/-- Takes out all idle connections; from now on none is handed out or kept. -/
def shut (p : Pool) : List Member × Pool :=
  (p.slots.flatMap (·.idle),
    { p with closed := true, slots := p.slots.map fun s => { s with idle := [] } })

/-- Whether a connection may be used: it works, is not too old, and its address has not been given up
since it was opened. -/
def isCurrent (p : Pool) (a : Address) (m : Member) (now : Instant) : Bool :=
  !m.connection.closed && !m.connection.defunct && !m.connection.isStale now
    && (p.slot? a).map (·.generation) = some m.generation

/-- Whether a connection that comes back is kept. -/
def keeps (p : Pool) (m : Member) (now : Instant) : Bool :=
  !p.closed && p.isCurrent m.connection.address m now
    && m.connection.pending.isEmpty && m.connection.isReset

def changeTables (p : Pool) (f : Routing.Directory → Routing.Directory) : Pool :=
  { p with directory := p.directory.map f }

/-- Does what a connection reports. The connections to be closed for it are given. -/
def heed (p : Pool) (a : Address) : Feedback → List Member × Pool
  | .deactivate => (p.changeTables (·.discard a)).detach a
  | .writeFailure database => ([], p.changeTables (·.discardWriter a database))
  | .invalidateAll => ([], p.markAllStale)

/-- Does all that a connection reports, in order. -/
def heedAll (p : Pool) (a : Address) : List Feedback → List Member × Pool
  | [] => ([], p)
  | f :: rest =>
    let (first, p) := p.heed a f
    let (others, p) := p.heedAll a rest
    (first ++ others, p)

/-- A connection comes back. It becomes idle, or else it is among those to be closed. -/
def checkIn (p : Pool) (m : Member) (now : Instant) : List Member × Pool :=
  let a := m.connection.address
  let back : Member := { m with connection := { m.connection with feedback := [] } }
  let kept := p.keeps m now
  let p := p.modify a fun s =>
    { s with inUse := s.inUse - 1, idle := if kept then s.idle ++ [back] else s.idle }
  let (others, p) := p.heedAll a m.connection.feedback
  ((if kept then [] else [back]) ++ others, p.announce)

/-- A connection comes back without a word. What it left undone cannot be undone now, so unless it is
clean its transport is let go. -/
def giveBack (p : Pool) (m : Member) (now : Instant) : Pool :=
  let c := m.connection
  let clean := c.pending.isEmpty && c.isReset
  (p.checkIn { m with connection := if clean then c else c.kill } now).2

end Pool
end BoltClient
