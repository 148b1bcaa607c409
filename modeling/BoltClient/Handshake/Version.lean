namespace BoltClient

inductive Version where
  | v4_0
  | v4_1
  | v4_2
  | v4_3
  | v4_4
  | v5_0
  | v5_1
  | v5_2
  deriving DecidableEq, Repr, Inhabited

/-- What a version can do. -/
structure Capabilities where
  /-- HELLO carries the routing context. -/
  routingInHello : Bool := false
  /-- The answer to HELLO carries hints. -/
  hints : Bool := false
  /-- HELLO asks for times in UTC. -/
  utcPatch : Bool := false
  /-- Routing tables come as answers to ROUTE; otherwise from a procedure. -/
  routeMessage : Bool := false
  /-- ROUTE names the database in a map, together with a user. -/
  routeDatabaseContext : Bool := false
  /-- Requests may be made on behalf of another user. -/
  impersonation : Bool := false
  /-- LOGON carries the credentials; otherwise HELLO does. -/
  logon : Bool := false
  /-- Requests may say which notifications are wanted. -/
  notificationFilters : Bool := false
  deriving DecidableEq, Repr

namespace Version

/-- All versions, newest first. -/
def all : List Version := [v5_2, v5_1, v5_0, v4_4, v4_3, v4_2, v4_1, v4_0]

def major : Version → UInt8
  | v4_0 | v4_1 | v4_2 | v4_3 | v4_4 => 4
  | v5_0 | v5_1 | v5_2 => 5

def minor : Version → UInt8
  | v4_0 | v5_0 => 0
  | v4_1 | v5_1 => 1
  | v4_2 | v5_2 => 2
  | v4_3 => 3
  | v4_4 => 4

def ofNumbers? (major minor : UInt8) : Option Version :=
  all.find? fun v => v.major = major ∧ v.minor = minor

def bytes (v : Version) : List UInt8 := [0, 0, v.minor, v.major]

/-- The written form, such as `5.2`. -/
def text (v : Version) : String := s!"{v.major.toNat}.{v.minor.toNat}"

def ofText? (s : String) : Option Version := all.find? (·.text = s)

def isNewer (v w : Version) : Bool := w.major < v.major || (w.major = v.major && w.minor < v.minor)

/-- What a version can do, by the version that brought it. -/
def capabilities (v : Version) : Capabilities :=
  let since (w : Version) : Bool := v = w || v.isNewer w
  { routingInHello := since v4_1
    hints := since v4_3
    utcPatch := since v4_3 && !since v5_0
    routeMessage := since v4_3
    routeDatabaseContext := since v4_4
    impersonation := since v4_4
    logon := since v5_1
    notificationFilters := since v5_2 }

theorem mem_all (v : Version) : v ∈ all := by cases v <;> decide

end Version
end BoltClient
