import BoltClient.Address.Basic
import BoltClient.Config.Tls
import BoltClient.Time.Duration
import BoltClient.Message.Authentication
import BoltClient.Message.Notification

namespace BoltClient

/-- The name under which a client introduces itself. -/
def defaultUserAgent : String := "bolt-driver-core/0.1.0"

structure ConnectionConfig where
  userAgent : String := defaultUserAgent
  auth : AuthToken := .none
  /-- Told to servers so that they route; without it they do not. -/
  routingContext : Option (Entries String) := none
  filter : Notification.Filter := {}
  tls : Option TlsConfig := none
  connectionTimeout : Duration := .ofSeconds 30
  /-- After this time a connection is no longer used. -/
  lifetime : Option Duration := some (.ofSeconds 3600)
  keepAlive : Bool := true

namespace ConnectionConfig

instance : Inhabited ConnectionConfig := ⟨{}⟩

def routingEntries (c : ConnectionConfig) : Option (Entries Value) :=
  c.routingContext.map fun context => context.map fun (key, s) => (key, .text s)

/-- The routing context of a client that knows one router. -/
def routingContextFor (router : Address) : Entries String := [("address", router.text)]

/-- A configuration spelled out for a developer. -/
def inspect (c : ConnectionConfig) : String :=
  " ".intercalate
    [Text.quote c.userAgent, c.auth.inspect,
      (c.routingEntries.map Entries.toText).getD "null", Entries.toText c.filter.entries,
      c.connectionTimeout.text, (c.lifetime.map Duration.text).getD "null", toString c.keepAlive]

end ConnectionConfig
end BoltClient
