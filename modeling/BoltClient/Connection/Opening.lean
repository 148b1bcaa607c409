import BoltClient.Connection.Task
import BoltClient.Handshake.Offer
import BoltClient.Handshake.Varint

namespace BoltClient.Connection

/-- Work on a connection that nobody else has. -/
def carry : {α : Type} → Connection → Task α → Work Transfer (α × Connection)
  | _, c, .done a => .done (a, c)
  | _, c, .ask (.edit f) next => .ask .now fun t => carry (f t c).2 (next (f t c).1)
  | _, c, .ask (.transfer t) next => .ask t fun b => carry c (next b)
  | _, c, .loop body s next =>
    .loop (fun (s, c) => (carry c (body s)).bind fun
      | (.inl s, c) => .done (.inl (s, c))
      | (.inr b, c) => .done (.inr (b, c))) (s, c) fun (b, c) => carry c (next b)

end BoltClient.Connection

namespace BoltClient.Opening

/-- Work on the network that may fail. -/
abbrev Attempt := ExceptT Error (Work Transfer)

variable {α : Type}

def ask (t : Transfer α) : Attempt α := ExceptT.lift (Work.query t)

/-- Where and how long an agreement is sought. -/
structure Setting where
  link : Link
  address : Address
  deadline : Deadline

namespace Setting

variable (s : Setting)

def timedOut : Error :=
  .serviceUnavailable ("Timed out during handshake with " ++ s.address.text)
    (some "handshake timed out")

def noVersion : Error :=
  .protocol ("The server at " ++ s.address.text
    ++ " does not support any of the driver's Bolt protocol versions ("
    ++ ", ".intercalate (Version.all.map Version.text) ++ ")")

/-- The error of a link that ends after `got`, where `size` bytes were expected. -/
def cutShort (size : Nat) (got : List UInt8) : Error :=
  if got.isEmpty then
    .unavailable ("Connection to " ++ s.address.text ++ " closed with incomplete handshake response")
  else
    .protocol ("Expected " ++ toString size ++ " bytes of Bolt handshake from " ++ s.address.text
      ++ ", received " ++ Bytes.hexList got ++ " instead; check for incorrect port number")

def send (bytes : List UInt8) : Attempt Unit := do
  match ← ask (.write s.link bytes s.deadline) with
  | .done => pure ()
  | .failed detail =>
    throw (.serviceUnavailable ("Failed to write handshake to " ++ s.address.text) (some detail))
  | .late => throw s.timedOut

/-- Exactly so many bytes. -/
def receive (size : Nat) : Attempt (List UInt8) :=
  Work.iterateOrFail (fun got => do
    if size ≤ got.length then return .inr got
    match ← ask (.read s.link (some (size - got.length)) s.deadline) with
    | .bytes b => return .inl (got ++ b)
    | .ended => throw (s.cutShort size got)
    | .failed detail =>
      throw (.serviceUnavailable ("Failed to read handshake response from " ++ s.address.text)
        (some detail))
    | .late => throw s.timedOut) []

/-- A number, byte by byte. -/
def receiveNumber : Attempt UInt64 :=
  Work.iterateOrFail (fun (d : Handshake.Varint.Decoder) => do
    let b ← s.receive 1
    match d.push (b.headD 0) with
    | (.error e, _) => throw (.protocol e.message)
    | (.ok (some n), _) => return .inr n
    | (.ok none, d) => return .inl d) default

/-- The most offerings that a manifest may list. -/
def maxOfferings : Nat := 256

/-- Chooses a version from the server's manifest and tells the server. -/
def agreeOnManifest : Attempt Version := do
  let count ← s.receiveNumber
  if maxOfferings < count.toNat then
    throw (.protocol ("Bolt handshake manifest from " ++ s.address.text ++ " lists "
      ++ toString count.toNat ++ " offerings"))
  let offerings ← (List.range count.toNat).mapM fun _ => do
    let b ← s.receive 4
    return Handshake.Offering.ofReply (.ofBytes b)
  let _ ← s.receiveNumber
  match Handshake.chooseVersion? offerings with
  | some v =>
    s.send (v.bytes ++ Handshake.Varint.encode 0)
    return v
  | none =>
    s.send [0, 0, 0, 0, 0]
    throw s.noVersion

def agree : Attempt Version := do
  s.send Handshake.request
  let reply ← s.receive 4
  match (Handshake.Reply.ofBytes reply).answer with
  | .ok (.version v) => return v
  | .ok .manifest => s.agreeOnManifest
  | .error .looksLikeHttp =>
    throw (.unavailable ("Cannot connect to Bolt service on " ++ s.address.text
      ++ " (looks like HTTP)"))
  | .error (.unsupportedManifest _) => throw (.protocol "Unsupported Bolt handshake manifest version")
  | .error _ => throw s.noVersion

/-- A connection on a link that does not carry anything yet. It is left without a deadline. -/
def establish (endpoint : Option Endpoint) (config : ConnectionConfig) : Attempt Connection := do
  let version ← s.agree
  let now ← ask .now
  let c := Connection.ofLink s.link s.address endpoint version config.lifetime now
  let (greeted, c) ← ExceptT.lift
    (Connection.carry { c with deadline := s.deadline } (Connection.hello config).run)
  match greeted with
  | .ok () => return { c with deadline := .never }
  | .error e => throw e

end Setting

/-- The error of an address none of whose endpoints could be connected to. -/
def unreachable (a : Address) (endpoints : List Endpoint) (first : Option String) : Error :=
  .serviceUnavailable ("Couldn't connect to " ++ a.text ++ " (resolved to ("
    ++ ", ".intercalate (endpoints.map Endpoint.text) ++ "))") first

/-- The first endpoint that can be connected to. Each is given a limited time. -/
def connectAny (a : Address) (all : List Endpoint) (config : ConnectionConfig) (deadline : Deadline) :
    List Endpoint → Option String → Attempt (Link × Endpoint)
  | [], first => throw (unreachable a all first)
  | e :: rest, first => do
    let started ← ask .now
    match ← ask (.connect e ((Deadline.after started config.connectionTimeout).min deadline)) with
    | .linked link => return (link, e)
    | .failed detail => goOn (first <|> some detail) rest
    | .late => goOn (first <|> some ("timed out connecting to " ++ e.text)) rest
where
  /-- Tries the rest if there is time. -/
  goOn (first : Option String) (rest : List Endpoint) : Attempt (Link × Endpoint) := do
    let now ← ask .now
    if deadline.expired now then throw (unreachable a all first)
    connectAny a all config deadline rest first

def reach (config : ConnectionConfig) (a : Address) (deadline : Deadline) : Attempt Connection := do
  match ← ask (.resolve a deadline) with
  | none => throw (.unavailable ("Timed out resolving " ++ a.text))
  | some (.error e) => throw e
  | some (.ok endpoints) =>
    let (link, e) ← connectAny a endpoints config deadline endpoints none
    Setting.establish ⟨link, a, deadline⟩ (some e) config

/-- A connection over a link from somebody who knows the way to its address. -/
def dial (config : ConnectionConfig) (a : Address) (deadline : Deadline) : Attempt Connection := do
  let link ← ExceptT.mk (Work.query (.dial a))
  ask (.settle link)
  Setting.establish ⟨link, a, deadline⟩ none config

end BoltClient.Opening
