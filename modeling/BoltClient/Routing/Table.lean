import BoltClient.Address.Basic
import BoltClient.Routing.Row
import BoltClient.Time.Deadline

namespace BoltClient.Routing

/-- A table. No list names an address twice. -/
structure Table where
  database : Option String
  /-- The routers that the table began with. -/
  initialRouters : List Address
  routers : List Address
  readers : List Address
  writers : List Address
  /-- Whether no writer was listed at the last update. -/
  withoutWriters : Bool
  updated : Instant
  ttl : Duration
  deriving DecidableEq, Repr

namespace Table

/-- How long a table is kept after its time. -/
def grace : Duration := .ofSeconds 30

def ofServers (database : Option String) (routers readers writers : List Address) (ttl : Duration)
    (now : Instant) : Table where
  database := database
  initialRouters := routers.eraseDups
  routers := routers.eraseDups
  readers := readers.eraseDups
  writers := writers.eraseDups
  withoutWriters := writers.isEmpty
  updated := now
  ttl := ttl

/-- A table that knows routers only and has to be updated at once. -/
def ofRouters (database : Option String) (routers : List Address) (now : Instant) : Table :=
  ofServers database routers [] [] .zero now

/-- Every listed address with its role, in order. -/
def located (listings : List Listing) : Except Address.Fault (List (Role × Address)) :=
  listings.flatMap (fun l => l.addresses.map (l.role, ·)) |>.mapM fun (role, s) =>
    return (role, ← Address.ofText s Address.defaultPort)

/-- The addresses with a role. -/
def inRole (located : List (Role × Address)) (role : Role) : List Address :=
  (located.filter (·.1 = role)).map (·.2)

/-- The length of time of a number of seconds; a negative one is none. -/
def ttlOfSeconds (n : Int64) : Duration := .ofSeconds n.toInt.toNat

def ofListings (database : Option String) (listings : List Listing) (ttl : Int64) (now : Instant) :
    Except Error Table :=
  match located listings with
  | .ok all =>
    .ok (ofServers database (inRole all .route) (inRole all .read) (inRole all .write)
      (ttlOfSeconds ttl) now)
  | .error f => .error (.protocol ("Cannot parse routing info: " ++ f.toError.message))

/-- The table of a row: for the database that the row names, or else for the one asked for. -/
def ofRow (row : Row) (requested : Option String) (now : Instant) : Except Error Table :=
  ofListings (row.database <|> requested) row.listings row.ttl now

def addresses (t : Table) : Role → List Address
  | .route => t.routers
  | .read => t.readers
  | .write => t.writers

/-- Whether an address has any role. -/
def contains (t : Table) (a : Address) : Bool :=
  t.routers.contains a || t.readers.contains a || t.writers.contains a

def servers (t : Table) : List Address := (t.routers ++ t.writers ++ t.readers).eraseDups

/-- The moment when the time of a table and some more is over. A moment too far away to be told never
comes. -/
def validUntil (t : Table) (more : Duration) : Option Instant :=
  (t.updated.plus? t.ttl).bind (·.plus? more)

/-- Whether the time of a table and some more is over. -/
def isOver (t : Table) (more : Duration) (now : Instant) : Bool :=
  match t.validUntil more with
  | some moment => moment ≤ now
  | none => false

/-- Whether a table can be used as it is: its time is not over, and it has a router and a server of the
role. -/
def isFresh (t : Table) (role : Role) (now : Instant) : Bool :=
  !t.isOver .zero now && !t.routers.isEmpty && !(t.addresses role).isEmpty

/-- Whether a table is to be thrown away. -/
def shouldBePurged (t : Table) (now : Instant) : Bool := t.isOver grace now

/-- The time since the last update. -/
def age (t : Table) (now : Instant) : Duration := now.since t.updated

/-- Takes over what a newer table lists. -/
def update (t newer : Table) (now : Instant) : Table :=
  { t with
    routers := newer.routers
    readers := newer.readers
    writers := newer.writers
    withoutWriters := newer.writers.isEmpty
    updated := now
    ttl := newer.ttl }

def discard (t : Table) (a : Address) : Table :=
  { t with
    routers := t.routers.erase a
    readers := t.readers.erase a
    writers := t.writers.erase a }

def discardWriter (t : Table) (a : Address) : Table := { t with writers := t.writers.erase a }

end Table
end BoltClient.Routing
