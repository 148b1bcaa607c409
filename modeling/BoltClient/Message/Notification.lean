import BoltClient.Value.Basic

namespace BoltClient.Notification

/-- The least severe notifications wanted. -/
inductive Severity where
  | off
  | warning
  | information
  deriving DecidableEq, Repr

inductive Category where
  | hint
  | unrecognized
  | unsupported
  | performance
  | deprecation
  | generic
  | security
  | topology
  | schema
  deriving DecidableEq, Repr

def Severity.name : Severity → String
  | off => "OFF"
  | warning => "WARNING"
  | information => "INFORMATION"

def Category.name : Category → String
  | hint => "HINT"
  | unrecognized => "UNRECOGNIZED"
  | unsupported => "UNSUPPORTED"
  | performance => "PERFORMANCE"
  | deprecation => "DEPRECATION"
  | generic => "GENERIC"
  | security => "SECURITY"
  | topology => "TOPOLOGY"
  | schema => "SCHEMA"

/-- The severity of a name, in letters of either case. -/
def Severity.ofName? (name : String) : Option Severity :=
  [off, warning, information].find? (·.name = name.toUpper)

/-- The category of a name, in letters of either case. -/
def Category.ofName? (name : String) : Option Category :=
  [hint, unrecognized, unsupported, performance, deprecation, generic, security, topology,
    schema].find? (·.name = name.toUpper)

/-- A severity and the categories that are not wanted; what is absent is left to the server. -/
structure Filter where
  severity : Option Severity := none
  disabled : Option (List Category) := none
  deriving DecidableEq, Repr, Inhabited

namespace Filter

def isSet (f : Filter) : Bool := f.severity.isSome || f.disabled.isSome

/-- The entries that ask for it. -/
def entries (f : Filter) : Entries Value :=
  (f.severity.map fun s => ("notifications_minimum_severity", Value.text s.name)).toList
  ++ (f.disabled.map fun cs =>
    ("notifications_disabled_categories", Value.ofTexts (cs.map Category.name))).toList

def addTo (f : Filter) (extra : Entries Value) : Entries Value := extra.putAll f.entries

end Filter
end BoltClient.Notification
