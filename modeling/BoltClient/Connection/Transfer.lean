import BoltClient.Address.Endpoint
import BoltClient.Error
import BoltClient.Time.Deadline
import BoltClient.Work

/-!
Bytes that go back and forth, as questions to the network. A question that can be answered at once is
answered whatever the time; otherwise the deadline ends the wait.
-/

namespace BoltClient

/-- A way to a server that bytes travel on. -/
structure Link where
  id : Nat
  deriving DecidableEq, Repr, Inhabited

/-- What comes of reading. -/
inductive Input where
  | bytes (b : List UInt8)
  /-- The server has closed its side. -/
  | ended
  | failed (detail : String)
  /-- The deadline came first. -/
  | late
  deriving DecidableEq, Repr

/-- What comes of writing. -/
inductive Output where
  | done
  | failed (detail : String)
  /-- The deadline came first; any number of bytes may have been written. -/
  | late
  deriving DecidableEq, Repr

/-- What comes of connecting. -/
inductive Contact where
  | linked (link : Link)
  | failed (detail : String)
  /-- The deadline came first. -/
  | late
  deriving DecidableEq, Repr

/-- Questions to the network. -/
inductive Transfer : Type → Type 1 where
  /-- The time. -/
  | now : Transfer Instant
  /-- The endpoints of an address, unless the deadline comes first. -/
  | resolve (a : Address) (deadline : Deadline) : Transfer (Option (Except Error (List Endpoint)))
  /-- A new link to a server. -/
  | connect (e : Endpoint) (deadline : Deadline) : Transfer Contact
  /-- A new link from somebody who knows the way to an address. -/
  | dial (a : Address) : Transfer (Except Error Link)
  /-- Waits until a link that was asked for by address can carry bytes. -/
  | settle (link : Link) : Transfer Unit
  /-- Some of the bytes that came in, at most `limit` of them. -/
  | read (link : Link) (limit : Option Nat) (deadline : Deadline) : Transfer Input
  | write (link : Link) (bytes : List UInt8) (deadline : Deadline) : Transfer Output
  /-- Tells the server that nothing more will be written. -/
  | shutdown (link : Link) (deadline : Deadline) : Transfer Unit

/-- The moment when a question is given up, and what its answer is then. -/
def Transfer.limit? : {α : Type} → Transfer α → Option (Instant × α)
  | _, resolve _ d => d.at?.map (·, none)
  | _, connect _ d => d.at?.map (·, .late)
  | _, read _ _ d => d.at?.map (·, .late)
  | _, write _ _ d => d.at?.map (·, .late)
  | _, shutdown _ d => d.at?.map (·, ())
  | _, now | _, dial _ | _, settle _ => none

end BoltClient
