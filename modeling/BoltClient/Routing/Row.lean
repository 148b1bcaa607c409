import BoltClient.PackStream.Error
import BoltClient.Value.Basic

namespace BoltClient.Routing

/-- What a server is there for. -/
inductive Role where
  | route
  | read
  | write
  deriving DecidableEq, Repr

namespace Role

def name : Role → String
  | route => "ROUTE"
  | read => "READ"
  | write => "WRITE"

def ofName? (name : String) : Option Role := [route, read, write].find? (·.name = name)

end Role

/-- Servers of one role, by address as sent. -/
structure Listing where
  role : Role
  addresses : List String
  deriving DecidableEq, Repr

/-- A row: how many seconds it is good for, the servers by role, and the database if it is named. -/
structure Row where
  ttl : Int64
  listings : List Listing
  database : Option String
  deriving DecidableEq, Repr

namespace Row

/-- A part of the row that is there. -/
def need {α : Type} (part : Option α) (reason : String) : Except PackStream.Error α :=
  match part with
  | some a => .ok a
  | none => .error (.badStructure reason)

/-- One entry of `servers`; nothing for a role that is not known. -/
def listing? (entry : Value) : Except PackStream.Error (Option Listing) := do
  let entry ← need entry.asMap? "routing server entry must be a map"
  let role ← need (entry.text? "role") "routing server entry requires a role"
  let addresses ← need (entry.list? "addresses") "routing server entry requires addresses"
  let addresses ← addresses.mapM fun a => need a.asText? "routing address must be a string"
  return (Role.ofName? role).map (⟨·, addresses⟩)

/-- The row that entries spell. Servers of unknown roles are left out. -/
def ofEntries (row : Entries Value) : Except PackStream.Error Row := do
  let ttl ← need (row.int? "ttl") "routing row requires an integer ttl"
  let servers ← need (row.list? "servers") "routing row requires a servers list"
  let listings ← servers.mapM listing?
  return ⟨ttl, listings.filterMap id, row.text? "db"⟩

/-- The row that the columns of a record spell. -/
def ofRecord (fields : List String) (values : List Value) : Except PackStream.Error Row :=
  ofEntries (Entries.ofPairs (fields.zip values))

def addresses (row : Row) (role : Role) : List String :=
  row.listings.filter (·.role = role) |>.flatMap (·.addresses)

end Row
end BoltClient.Routing
