import BoltClient.Error
import BoltClient.Text.Quoted

namespace BoltClient

namespace Tls

/-- Whose certificates are trusted. -/
inductive Trust where
  | system
  /-- Only certificates from these files. -/
  | files (paths : List String)
  | all
  deriving DecidableEq, Repr, Inhabited

end Tls

structure TlsConfig where
  trust : Tls.Trust := .system
  /-- The name to use in place of the host. -/
  serverName : Option String := none
  deriving DecidableEq, Repr, Inhabited

namespace TlsConfig

/-- Whether the trusted certificates can be had, where files are loaded by `load`. -/
def checkBy (load : String → Except Error Unit) (c : TlsConfig) : Except Error Unit :=
  match c.trust with
  | .files paths => paths.forM load
  | .system | .all => .ok ()

/-- The name under which a server is known, where `parse` tells names from other texts. -/
def nameBy {α : Type} (parse : String → Except String α) (c : TlsConfig) (host : String) : Except Error α :=
  let name := c.serverName.getD host
  (parse name).mapError fun cause => .security ("Invalid TLS server name " ++ Text.quote name) (some cause)

end TlsConfig
end BoltClient
