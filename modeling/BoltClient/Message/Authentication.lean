import BoltClient.Message.Request

namespace BoltClient

structure AuthToken where
  scheme : String
  principal : Option String := none
  credentials : Option String := none
  realm : Option String := none
  parameters : Entries Value := []
  deriving Inhabited

namespace AuthToken

def none : AuthToken := { scheme := "none" }

def basic (user password : String) : AuthToken :=
  { scheme := "basic", principal := some user, credentials := some password }

def basicIn (user password realm : String) : AuthToken :=
  { basic user password with realm := some realm }

def bearer (token : String) : AuthToken := { scheme := "bearer", credentials := some token }

/-- Servers before 4.4 want a principal here, even an empty one. -/
def kerberos (ticket : String) : AuthToken :=
  { scheme := "kerberos", principal := some "", credentials := some ticket }

def withParameter (a : AuthToken) (key : String) (v : Value) : AuthToken :=
  { a with parameters := a.parameters.put key v }

def nonempty (key : String) (s : Option String) : Entries Value :=
  (s.filter (· ≠ "")).toList.map fun s => (key, .text s)

/-- The auth map. An empty principal is told, anything else that is empty is not. -/
def entries (a : AuthToken) : Entries Value :=
  ("scheme", .text a.scheme)
    :: (a.principal.map fun p => ("principal", Value.text p)).toList
  ++ nonempty "credentials" a.credentials
  ++ nonempty "realm" a.realm
  ++ if a.parameters.isEmpty then [] else [("parameters", .map a.parameters)]

/-- A token spelled out for a developer, without its credentials. -/
def inspect (a : AuthToken) : String :=
  Entries.toText <|
    [("scheme", .text a.scheme), ("principal", .ofText? a.principal),
      ("credentials", .ofText? (a.credentials.map fun _ => Request.redacted)),
      ("realm", .ofText? a.realm), ("parameters", .map a.parameters)]

end AuthToken
end BoltClient
