import BoltClient.Handshake.Error
import BoltClient.Handshake.Version

namespace BoltClient.Handshake

/-- The number that a client starts with. -/
def magic : List UInt8 := [0x60, 0x60, 0xB0, 0x17]

/-- What the client proposes: a manifest, or one of the versions 5.2 to 5.0 or 4.4 to 4.0. -/
def proposals : List (List UInt8) :=
  [[0, 0, 1, 0xFF], [0, 2, 2, 5], [0, 4, 4, 4], [0, 0, 0, 0]]

/-- What the client sends first. -/
def request : List UInt8 := magic ++ proposals.flatten

/-- The server's first four bytes. -/
structure Reply where
  first : UInt8
  second : UInt8
  third : UInt8
  fourth : UInt8
  deriving DecidableEq, Repr

/-- What a reply says. -/
inductive Answer where
  | version (v : Version)
  | manifest
  deriving DecidableEq, Repr

def Reply.bytes (r : Reply) : List UInt8 := [r.first, r.second, r.third, r.fourth]

/-- The reply of four bytes; bytes that are missing count as zero. -/
def Reply.ofBytes (b : List UInt8) : Reply := ⟨b.getD 0 0, b.getD 1 0, b.getD 2 0, b.getD 3 0⟩

/-- What a reply says, if it makes sense. -/
def Reply.answer (r : Reply) : Except Error Answer :=
  if r.bytes = [0x48, 0x54, 0x54, 0x50] then .error .looksLikeHttp
  else if r.fourth = 0xFF then
    if r.third = 1 then .ok .manifest else .error (.unsupportedManifest r.third)
  else
    match Version.ofNumbers? r.fourth r.third with
    | some v => .ok (.version v)
    | none => .error (.noCompatibleVersion r.bytes)

/-- A range of versions of one major number: `minor` and the `range` minor numbers below it. -/
structure Offering where
  major : UInt8
  minor : UInt8
  range : UInt8
  deriving DecidableEq, Repr

namespace Offering

def ofReply (r : Reply) : Offering := ⟨r.fourth, r.third, r.second⟩

def covers (o : Offering) (v : Version) : Bool :=
  v.major = o.major && v.minor ≤ o.minor && o.minor.toNat - o.range.toNat ≤ v.minor.toNat

end Offering

/-- The newest version that some offering covers. -/
def chooseVersion? (offerings : List Offering) : Option Version :=
  Version.all.find? fun v => offerings.any (·.covers v)

end BoltClient.Handshake
