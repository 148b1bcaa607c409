import BoltClient.Pool.Basic

/-!
What work on a pool does at once, and what it holds meanwhile. Whatever is held is given back when the
work is dropped, the newest first. Only a connection that was being parted with stays counted as out then.
-/

namespace BoltClient

/-- Something that work on a pool holds. -/
inductive Holding where
  /-- A connection that is out. -/
  | borrowed (m : Member)
  /-- A connection that is out and about to be checked in; nobody gives it back if the work is dropped. -/
  | parting (m : Member)
  /-- A connection that does not count: it is only there to be closed. -/
  | loose (m : Member)
  /-- A place for a connection that is being opened. -/
  | place (a : Address) (generation : Nat)
  /-- A link on which no connection is established yet. -/
  | wire (link : Link)
  /-- The right to renew the routing tables. -/
  | turn

namespace Pool

/-- What work on a pool does at once. -/
inductive Move : Type → Type where
  /-- Looks in: the number of changes so far, unless the pool is closed. -/
  | enter : Move (Option Nat)
  /-- Takes hold of the longest idle connection to an address, if there is one. -/
  | takeIdle (a : Address) : Move Bool
  /-- Whether the newest connection held may be used. -/
  | isCurrent (a : Address) : Move Bool
  /-- Takes hold of a place for a new connection, if there is one. -/
  | reserve (a : Address) : Move Bool
  /-- A new connection takes the place held for it. -/
  | fulfil (c : Connection) : Move Unit
  /-- Begins to part with the newest connection held: it will be checked in by hand. -/
  | part : Move Unit
  /-- Checks the newest connection held in; those to be closed are held and counted. -/
  | checkIn : Move Nat
  /-- Lets go of the newest thing held, and of the links held for it. -/
  | letGo : Move Unit
  /-- Gives up an address; the connections to be closed are held and counted. -/
  | detach (a : Address) : Move Nat
  | markAllStale : Move Unit
  /-- Closes the pool; the connections to be closed are held and counted. -/
  | shut : Move Nat
  /-- Tells those who wait to look again. -/
  | announce : Move Unit
  /-- Whether the table of a database can be used for a role. Tables out of time are thrown away. -/
  | isFresh (role : Routing.Role) (database : Option String) : Move Bool
  /-- The routers to ask for the table of a database. -/
  | routers (database : Option String) : Move (List Address)
  /-- Takes over a newer table. It counts for the database that it names and for the one asked for. -/
  | store (requested : Option String) (t : Routing.Table) : Move Unit
  /-- Whether a database has a server of a role. -/
  | serves (role : Routing.Role) (database : Option String) : Move Bool
  /-- Selects a server of a role. -/
  | select (role : Routing.Role) (database : Option String) (choice : Nat) : Move (Option Address)
  /-- The addresses that no table lists. -/
  | strangers : Move (List Address)
  /-- Takes an address out of every table. -/
  | discard (a : Address) : Move Unit
  /-- Takes an address out of the writers of a database. -/
  | discardWriter (a : Address) (database : Option String) : Move Unit

/-- A pool and what work on it holds, the newest first. -/
structure Grip where
  pool : Pool
  held : List Holding

def letGo (p : Pool) (now : Instant) : Holding → Pool
  | .borrowed m => p.giveBack m now
  | .parting _ | .loose _ | .wire _ => p
  | .place a generation => p.abandon a generation
  | .turn => { p with renewing := false }

namespace Grip

def look {α : Type} (g : Grip) (otherwise : α) (f : Routing.Directory → α) : α :=
  (g.pool.directory.map f).getD otherwise

def change (g : Grip) (f : Routing.Directory → Routing.Directory) : Grip :=
  { g with pool := g.pool.changeTables f }

/-- Holds connections to be closed and counts them. -/
def hold (g : Grip) (ms : List Member) : Nat × Grip :=
  (ms.length, { g with held := ms.map .loose ++ g.held })

/-- A new connection takes the place held for it. A link held for it is its own now. -/
def fulfil (c : Connection) (p : Pool) : List Holding → Grip
  | .wire _ :: held => fulfil c p held
  | .place a generation :: held =>
    ⟨p.fulfil a, .borrowed ⟨{ c with routed := p.directory.isSome }, generation⟩ :: held⟩
  | held => ⟨p, held⟩

/-- Lets go of the newest thing held, and of the links held for it. -/
def letGo (now : Instant) (p : Pool) : List Holding → Grip
  | .wire _ :: held => letGo now p held
  | h :: held => ⟨p.letGo now h, held⟩
  | [] => ⟨p, []⟩

end Grip

def Move.apply (now : Instant) (g : Grip) : {α : Type} → Move α → α × Grip
  | _, .enter => (if g.pool.closed then none else some g.pool.changes, g)
  | _, .takeIdle a =>
    match g.pool.takeIdle a with
    | some (m, p) => (true, ⟨p, .borrowed m :: g.held⟩)
    | none => (false, g)
  | _, .isCurrent a =>
    match g.held with
    | .borrowed m :: _ => (g.pool.isCurrent a m now, g)
    | _ => (false, g)
  | _, .reserve a =>
    match g.pool.reserve a with
    | (some generation, p) => (true, ⟨p, .place a generation :: g.held⟩)
    | (none, p) => (false, { g with pool := p })
  | _, .fulfil c => ((), .fulfil c g.pool g.held)
  | _, .part =>
    match g.held with
    | .borrowed m :: held => ((), { g with held := .parting m :: held })
    | _ => ((), g)
  | _, .checkIn =>
    match g.held with
    | .borrowed m :: held | .parting m :: held =>
      let (ms, p) := g.pool.checkIn m now
      Grip.hold ⟨p, held⟩ ms
    | _ => (0, g)
  | _, .letGo => ((), .letGo now g.pool g.held)
  | _, .detach a =>
    let (ms, p) := g.pool.detach a
    Grip.hold { g with pool := p } ms
  | _, .markAllStale => ((), { g with pool := g.pool.markAllStale })
  | _, .shut =>
    let (ms, p) := g.pool.shut
    Grip.hold { g with pool := p } ms
  | _, .announce => ((), { g with pool := g.pool.announce })
  | _, .isFresh role database =>
    let g := g.change fun d => (d.purge now).ensure database now
    (g.look false fun d => (d.table database now).isFresh role now, g)
  | _, .routers database =>
    let g := g.change (·.ensure database now)
    (g.look [] (·.routers database now), g)
  | _, .store requested t =>
    ((), g.change fun d =>
      let d := if t.database = requested then d else d.store t.database t now
      d.store requested t now)
  | _, .serves role database => (g.look false (·.serves role database), g)
  | _, .select role database choice =>
    match g.pool.directory with
    | none => (none, g)
    | some d =>
      let (a, d) := d.select role database g.pool.inUse choice
      (a, { g with pool := { g.pool with directory := some d } })
  | _, .strangers => (g.look [] fun d => g.pool.addresses.filter (!d.lists ·), g)
  | _, .discard a => ((), g.change (·.discard a))
  | _, .discardWriter a database => ((), g.change (·.discardWriter a database))

end Pool
end BoltClient
