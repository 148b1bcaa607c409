import BoltClient.Stage.Outside
import BoltClient.Handshake.Version
import BoltClient.Time.Duration
import BoltClient.Wire.Message

namespace BoltClient.Stage

/-- Something that a server sends. -/
inductive Item where
  | message (v : Value) (chunkSize : Nat)
  | bytes (b : List UInt8)
  /-- The server closes its side. -/
  | ended
  /-- The link breaks. -/
  | failed (detail : String)

/-- What a client finds when it reads. -/
inductive Signal where
  | bytes (b : List UInt8)
  | ended
  | failed (detail : String)
  deriving DecidableEq, Repr

namespace Item

/-- An answer as an item. -/
def reply (kind : Message.ReplyKind) (fields : List Value) (chunkSize : Nat) : Item :=
  message (.struct kind.tag fields) chunkSize

def success (metadata : Entries Value) : Item :=
  reply .success [.map metadata] Chunk.defaultLimit

/-- What arrives at the client. -/
def signals : Item → List Signal
  | message v chunkSize =>
    match Wire.frame v chunkSize with
    | .ok b => [.bytes b]
    | .error _ => []
  | bytes b => if b.isEmpty then [] else [.bytes b]
  | ended => [.ended]
  | failed detail => [.failed detail]

end Item

/-- How a server refuses links. -/
inductive Refusal where
  | unavailable
  | sessionExpired
  | security
  | protocol
  deriving DecidableEq, Repr

def Refusal.error (a : Address) : Refusal → Error
  | unavailable => .unavailable ("Couldn't connect to " ++ a.text)
  | sessionExpired => .sessionExpired "refused" none
  | security => .security "refused" (some "bad certificate")
  | protocol => .protocol "refused"

/-- The script of a server. -/
structure Server where
  refusal : Option Refusal := none
  /-- How long a new link takes before it carries bytes. -/
  delay : Duration := .zero
  version : Version := .v5_0
  /-- What is sent in place of a version. -/
  handshake : Option (List Item) := none
  /-- What is sent for a request of a name, other than the usual. -/
  answers : Entries (List Item) := []

namespace Server

instance : Inhabited Server := ⟨{}⟩

/-- The first items on a link. -/
def greeting (s : Server) : List Item := s.handshake.getD [.bytes s.version.bytes]

/-- What HELLO is answered with, on the link of a number. -/
def welcome (serial : Nat) : Entries Value :=
  [("server", .text "Mock/1.0"), ("connection_id", .text ("conn-" ++ toString serial))]

/-- The items for a request, on the link of a number. -/
def answer (s : Server) (serial : Nat) (name : String) : List Item :=
  match s.answers.get? name with
  | some items => items
  | none =>
    if name = Message.Kind.hello.name then [.success (welcome serial)]
    else if name = Message.Kind.goodbye.name then []
    else [.success []]

end Server

/-- How addresses are resolved. -/
inductive Resolving where
  /-- To nothing. -/
  | empty
  /-- There is never an answer. -/
  | silent
  | unavailable
  | misconfigured
  | mapped (r : Resolver)

/-- The endpoints of an address, or nothing while there is no answer. -/
def Resolving.resolve (a : Address) : Resolving → Option (Except Error (List Endpoint))
  | empty => some (.ok [])
  | silent => none
  | unavailable => some (.error (.unavailable ("cannot resolve " ++ a.text)))
  | misconfigured => some (.error (.configuration "resolver misconfigured"))
  | mapped r => some (r.resolve a)

end BoltClient.Stage
