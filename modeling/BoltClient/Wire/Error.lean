import BoltClient.Handshake.Error
import BoltClient.PackStream.Error

namespace BoltClient.Wire

inductive Error where
  | io (detail : String)
  | handshake (cause : Handshake.Error)
  | packStream (cause : PackStream.Error)
  | protocol (detail : String)
  | unexpectedMessage (tag : UInt8)
  | messageTooLarge (size limit : Nat)
  | connectionClosed
  deriving DecidableEq, Repr

namespace Error

def name : Error → String
  | io _ => "Io"
  | handshake _ => "Handshake"
  | packStream _ => "PackStream"
  | protocol _ => "Protocol"
  | unexpectedMessage _ => "UnexpectedMessage"
  | messageTooLarge .. => "MessageTooLarge"
  | connectionClosed => "ConnectionClosed"

def message : Error → String
  | io detail => "I/O error: " ++ detail
  | handshake cause => "Handshake error: " ++ cause.message
  | packStream cause => "PackStream error: " ++ cause.message
  | protocol detail => "Protocol error: " ++ detail
  | unexpectedMessage tag => "Unexpected response message with signature " ++ Bytes.hex tag
  | messageTooLarge size limit => s!"Message too large: {size} bytes (max: {limit})"
  | connectionClosed => "Connection closed"

def cause? : Error → Option String
  | io detail => some detail
  | handshake cause => some cause.message
  | packStream cause => some cause.message
  | _ => none

end Error
end BoltClient.Wire
