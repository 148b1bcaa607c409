import BoltClient.Message.Kind

namespace BoltClient

inductive ServerState where
  /-- Nothing is agreed on but the version. -/
  | connected
  | ready
  /-- A query of its own has an open result. -/
  | streaming
  | inTransaction
  /-- A request failed; only RESET is accepted. -/
  | failed
  deriving DecidableEq, Repr, Inhabited

namespace ServerState

def name : ServerState → String
  | connected => "CONNECTED"
  | ready => "READY"
  | streaming => "STREAMING"
  | inTransaction => "TX_READY||TX_STREAMING"
  | failed => "FAILED"

def all : List ServerState := [connected, ready, streaming, inTransaction, failed]

def ofName? (name : String) : Option ServerState := all.find? (·.name = name)

/-- The state after a request went well. While there are more records to ask for nothing changes. -/
def after (s : ServerState) (request : Message.Kind) (hasMore : Bool) : ServerState :=
  if hasMore then s
  else match s, request with
  | connected, .hello => ready
  | ready, .run => streaming
  | ready, .begin => inTransaction
  | streaming, .pull | streaming, .discard | streaming, .reset => ready
  | inTransaction, .commit | inTransaction, .rollback | inTransaction, .reset => ready
  | failed, .reset => ready
  | s, _ => s

end ServerState
end BoltClient
