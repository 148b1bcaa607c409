import BoltClient.Config.Connection

namespace BoltClient

structure PoolConfig where
  /-- The most connections to one address; without a bound if negative. -/
  maxConnections : Int64 := 100
  /-- How long to wait for a connection. -/
  acquisitionTimeout : Option Duration := some (.ofSeconds 60)
  /-- Connections idle for longer are tried before they are handed out. -/
  livenessTimeout : Option Duration := none
  connection : ConnectionConfig := {}

namespace PoolConfig

instance : Inhabited PoolConfig := ⟨{}⟩

/-- The bound on connections to one address, if there is one. -/
def limit? (c : PoolConfig) : Option Nat :=
  if 0 ≤ c.maxConnections then some c.maxConnections.toInt.toNat else none

/-- A configuration spelled out for a developer. -/
def inspect (c : PoolConfig) : String :=
  " ".intercalate
    [toString c.maxConnections.toInt, (c.acquisitionTimeout.map Duration.text).getD "null",
      (c.livenessTimeout.map Duration.text).getD "null", c.connection.inspect]

end PoolConfig
end BoltClient
