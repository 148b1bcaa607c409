import BoltClient.Bytes

namespace BoltClient.Handshake

inductive Error where
  | looksLikeHttp
  | unsupportedManifest (number : UInt8)
  | noCompatibleVersion (reply : List UInt8)
  | badData (detail : String)
  | closed
  deriving DecidableEq, Repr

namespace Error

def name : Error → String
  | looksLikeHttp => "LooksLikeHttp"
  | unsupportedManifest _ => "UnsupportedManifest"
  | noCompatibleVersion _ => "NoCompatibleVersion"
  | badData _ => "InvalidData"
  | closed => "ConnectionClosed"

def message : Error → String
  | looksLikeHttp => "Non-Bolt endpoint (looks like HTTP)"
  | unsupportedManifest number => s!"Unsupported Bolt handshake manifest version {number.toNat}"
  | noCompatibleVersion reply =>
    "No compatible protocol version found (server replied " ++ Bytes.hexList reply ++ ")"
  | badData detail => "Invalid handshake data: " ++ detail
  | closed => "Connection closed with incomplete handshake response"

end Error
end BoltClient.Handshake
