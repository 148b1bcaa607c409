import BoltClient.Server.Error
import BoltClient.Wire.Error

namespace BoltClient

inductive Error where
  /-- A server cannot be reached, or was lost. -/
  | serviceUnavailable (detail : String) (cause : Option String)
  /-- A server that a routing table named cannot be used any more. -/
  | sessionExpired (detail : String) (cause : Option String)
  | security (detail : String) (cause : Option String)
  | protocol (detail : String)
  | authentication (failure : Server.Error)
  /-- The connection was lost before the outcome of a commit was known. -/
  | incompleteCommit (detail : String) (cause : Option String)
  | server (failure : Server.Error)
  | routing (detail : String)
  | poolExhausted (detail : String)
  | configuration (detail : String)
  | io (detail : String)
  deriving DecidableEq, Repr

namespace Error

/-- A server cannot be reached, and nothing else is known. -/
def unavailable (detail : String) : Error := serviceUnavailable detail none

/-- The error that a failure reported by a server is for its client. -/
def ofServer (failure : Server.Error) : Error :=
  match failure.kind with
  | .auth | .tokenExpired => authentication failure
  | _ => server failure

/-- The error that broken bytes are for the client. -/
def ofWire : Wire.Error → Error
  | .io detail => serviceUnavailable "Connection I/O failed" (some detail)
  | .connectionClosed => unavailable "Connection closed"
  | e => protocol e.message

def name : Error → String
  | serviceUnavailable .. => "ServiceUnavailable"
  | sessionExpired .. => "SessionExpired"
  | security .. => "Security"
  | protocol _ => "Protocol"
  | authentication _ => "Authentication"
  | incompleteCommit .. => "IncompleteCommit"
  | server _ => "Server"
  | routing _ => "Routing"
  | poolExhausted _ => "PoolExhausted"
  | configuration _ => "Configuration"
  | io _ => "Io"

def message : Error → String
  | serviceUnavailable detail _ | sessionExpired detail _ | incompleteCommit detail _ => detail
  | security detail _ => "Security error: " ++ detail
  | protocol detail => "Protocol error: " ++ detail
  | authentication failure => "Authentication error: " ++ failure.text
  | server failure => failure.text
  | routing detail => "Routing error: " ++ detail
  | poolExhausted detail => "Pool exhausted: " ++ detail
  | configuration detail => "Configuration error: " ++ detail
  | io detail => "I/O error: " ++ detail

/-- The wording of the error behind a loss or a refusal. -/
def cause? : Error → Option String
  | serviceUnavailable _ cause | sessionExpired _ cause | security _ cause
  | incompleteCommit _ cause => cause
  | _ => none

def failure? : Error → Option Server.Error
  | authentication failure | server failure => some failure
  | _ => none

/-- Whether the same work may be tried again. -/
def isRetryable : Error → Bool
  | serviceUnavailable .. | sessionExpired .. => true
  | server failure => failure.isRetryable
  | _ => false

/-- Whether a connection or a server is gone. -/
def isUnavailable : Error → Bool
  | serviceUnavailable .. | sessionExpired .. => true
  | _ => false

end Error
end BoltClient
