import BoltClient.Address.Resolver
import BoltClient.Config.Tls

/-!
What stands in for the world around a client where there is no network and there are no files: only numeric hosts
have endpoints, no certificate file can be opened, and the names of servers are told by their letters.
-/

namespace BoltClient

namespace Resolver

/-- The endpoint of a host that is numeric. -/
def numeric (a : Address) : Except Error (List Endpoint) :=
  match a.endpoint? with
  | some e => .ok [e]
  | none => .error (.serviceUnavailable ("Failed to DNS resolve address " ++ a.text) (some "no name service"))

def resolve (r : Resolver) (a : Address) : Except Error (List Endpoint) := r.resolveBy numeric a

end Resolver

namespace Tls

/-- The name of a server. -/
inductive ServerName where
  | dns (name : String)
  | ip (address : Ip)
  deriving DecidableEq, Repr

def ServerName.text : ServerName → String
  | dns name => name
  | ip address => address.text

/-- One to sixty-three letters, digits, low lines and hyphens, with no hyphen at either end. -/
def isLabel (label : List Char) : Bool :=
  !label.isEmpty && label.length ≤ 63 && label.all (fun c => c.isAlphanum || c = '_' || c = '-')
    && label.head? ≠ some '-' && label.getLast? ≠ some '-'

/-- Whether labels make up a name: the last one is not a number, and one dot may follow it. -/
def areLabels : List (List Char) → Bool
  | [last] | [last, []] => isLabel last && !last.all Char.isDigit
  | label :: rest => isLabel label && areLabels rest
  | [] => false

def serverName (s : String) : Except String ServerName :=
  if s.length ≤ 253 && areLabels (Ip.parts '.' s.toList) then .ok (.dns s)
  else match Ip.ofText? s.toList with
    | some ip => .ok (.ip ip)
    | none => .error "invalid dns name"

end Tls

namespace TlsConfig

/-- Whether the trusted certificates can be had; those in files cannot. -/
def check (c : TlsConfig) : Except Error Unit :=
  c.checkBy fun path =>
    .error (.security ("Failed to open certificate file " ++ path) (some "No such file or directory (os error 2)"))

def nameOf (c : TlsConfig) (host : String) : Except Error Tls.ServerName := c.nameBy Tls.serverName host

end TlsConfig
end BoltClient
