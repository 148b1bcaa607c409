import BoltClient.Routing.Selection
import BoltClient.Routing.Table

/-!
The tables of all databases of a cluster. The home database, whose name the client need not know, has a
table of its own. A table that is missing starts from the one router that is known from the beginning.
-/

namespace BoltClient.Routing

/-- Tables by database. No database has two. -/
structure Directory where
  firstRouter : Address
  tables : List (Option String × Table) := []
  selector : Selector := default
  deriving DecidableEq, Repr

namespace Directory

def table? (d : Directory) (database : Option String) : Option Table := d.tables.lookup database

def modify (d : Directory) (database : Option String) (f : Table → Table) : Directory :=
  { d with tables := d.tables.map fun (key, t) => (key, if key = database then f t else t) }

/-- The table that a database starts with. -/
def firstTable (d : Directory) (database : Option String) (now : Instant) : Table :=
  .ofRouters database [d.firstRouter] now

/-- Sees to it that a database has a table. -/
def ensure (d : Directory) (database : Option String) (now : Instant) : Directory :=
  match d.table? database with
  | some _ => d
  | none => { d with tables := d.tables ++ [(database, d.firstTable database now)] }

/-- The table of a database, its first one if it has none. -/
def table (d : Directory) (database : Option String) (now : Instant) : Table :=
  (d.table? database).getD (d.firstTable database now)

/-- Takes over a newer table for a database. -/
def store (d : Directory) (database : Option String) (t : Table) (now : Instant) : Directory :=
  (d.ensure database now).modify database (·.update t now)

/-- Throws away the tables whose time is long over. -/
def purge (d : Directory) (now : Instant) : Directory :=
  { d with tables := d.tables.filter fun (_, t) => !t.shouldBePurged now }

def discard (d : Directory) (a : Address) : Directory :=
  { d with tables := d.tables.map fun (key, t) => (key, t.discard a) }

def discardWriter (d : Directory) (a : Address) (database : Option String) : Directory :=
  d.modify database (·.discardWriter a)

/-- Whether any table lists an address. -/
def lists (d : Directory) (a : Address) : Bool := d.tables.any fun (_, t) => t.contains a

def serves (d : Directory) (role : Role) (database : Option String) : Bool :=
  match d.table? database with
  | some t => !(t.addresses role).isEmpty
  | none => false

/-- The routers of a database in the order in which they are asked. The first router of all comes first
if the last table had no writers, since it may come from a server that was cut off; otherwise it comes
last. -/
def routers (d : Directory) (database : Option String) (now : Instant) : List Address :=
  let t := d.table database now
  let others := t.routers.filter (· ≠ d.firstRouter)
  if t.withoutWriters then d.firstRouter :: others else others ++ [d.firstRouter]

def select (d : Directory) (role : Role) (database : Option String) (count : Address → Nat)
    (choice : Nat) : Option Address × Directory :=
  match d.table? database with
  | none => (none, d)
  | some t =>
    let (a, selector) := d.selector.select count choice (t.addresses role)
    (a, { d with selector := selector })

end Directory
end BoltClient.Routing
