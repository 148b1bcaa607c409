import BoltClient.Proofs.Connection.Abandoned
import BoltClient.Proofs.Connection.Accounting
import BoltClient.Proofs.Connection.Commands
import BoltClient.Proofs.Work.Ending

/-!
The story of a connection: one command after another, each done to its end or dropped where it waits for the
network, and beside the connection what has been written and each loss of the transport. The network may answer
whatever it likes.
-/

namespace BoltClient

/-- Whether an answer of the network says that the transport is lost: the server has gone, something has failed,
or the deadline has come. -/
def Transfer.loses : {β : Type} → Transfer β → β → Bool
  | _, .read .., .bytes _ => false
  | _, .read .., .ended | _, .read .., .failed _ | _, .read .., .late => true
  | _, .write .., .done => false
  | _, .write .., .failed _ | _, .write .., .late => true
  | _, _, _ => false

namespace Connection

open Work

/-- A connection before and after the change that follows when the network says that the transport is lost. -/
structure Loss where
  before : Connection
  after : Connection

/-- What the owner is told when the transport is lost. -/
def Loss.told (l : Loss) : List Feedback := l.after.feedback.drop l.before.feedback.length

structure Chronicle where
  connection : Connection
  written : List UInt8 := []
  /-- The network has just said that the transport is lost. -/
  losing : Bool := false
  losses : List Loss := []

namespace Chronicle

def change (s : Chronicle) (d : Connection) : Chronicle where
  connection := d
  written := s.written
  losing := false
  losses := if s.losing then s.losses ++ [⟨s.connection, d⟩] else s.losses

def note (s : Chronicle) {β : Type} (q : Transfer β) (b : β) : Chronicle :=
  { s with written := s.written ++ q.spoken, losing := q.loses b }

def Answers (s : Chronicle) : {β : Type} → Query β → β → Chronicle → Prop
  | _, .edit f, b, t => ∃ now, b = (f now s.connection).1 ∧ t = s.change (f now s.connection).2
  | _, .transfer q, b, t => t = s.note q b

end Chronicle

def anyTimes : Surroundings Query Chronicle where
  Answers s q b t := s.Answers q b t
  Allows _ _ := True

section

variable {α β : Type} {s : Chronicle}

theorem Chronicle.step_edit {f : Instant → Connection → β × Connection} {next : β → Task α} (now : Instant) :
    Step anyTimes (.ask (.edit f) next, s) (next (f now s.connection).1, s.change (f now s.connection).2) :=
  .answer ⟨now, rfl, rfl⟩

theorem Chronicle.step_transfer {q : Transfer β} {next : β → Task α} (b : β) :
    Step anyTimes (.ask (.transfer q) next, s) (next b, s.note q b) := .answer rfl

end

/-- What is being done with a connection, if anything is, and what has happened so far. -/
structure Story where
  doing : Option (Task Stage.Outcome)
  chronicle : Chronicle

namespace Story

/-- What can come next. While nobody is at work the owner can take what he is told, and say that a routing table
has chosen the connection. -/
inductive Next : Story → Story → Prop
  | begin (labels : Stage.Labels) (k : Stage.Command) (s : Chronicle) : Next ⟨none, s⟩ ⟨some (k.work labels), s⟩
  | goOn {w w' : Task Stage.Outcome} {s t : Chronicle} (h : Step anyTimes (w, s) (w', t)) :
      Next ⟨some w, s⟩ ⟨some w', t⟩
  | finish (outcome : Stage.Outcome) (s : Chronicle) : Next ⟨some (.done outcome), s⟩ ⟨none, s⟩
  | drop {β : Type} (q : Transfer β) (next : β → Task Stage.Outcome) (s : Chronicle) :
      Next ⟨some (.ask (.transfer q) next), s⟩ ⟨none, s⟩
  | heed (s : Chronicle) : Next ⟨none, s⟩ ⟨none, s.change { s.connection with feedback := [] }⟩
  | choose (routed : Bool) (s : Chronicle) : Next ⟨none, s⟩ ⟨none, s.change { s.connection with routed := routed }⟩

abbrev Reaches : Story → Story → Prop := Relation.ReflTransGen Next

/-- A connection whose link has just agreed on a version. -/
def opened (link : Link) (address : Address) (endpoint : Option Endpoint) (version : Version)
    (lifetime : Option Duration) (now : Instant) : Story :=
  ⟨none, { connection := ofLink link address endpoint version lifetime now }⟩

variable {x y : Story} {J : Connection → Prop}

/-- Whatever is being done leaves something true of the connection if it was so before. -/
def Preserves (J : Connection → Prop) (x : Story) : Prop :=
  ∀ w, x.doing = some w → w.Asks (Query.Preserves J)

theorem preserves_opened (J : Connection → Prop) (link : Link) (address : Address) (endpoint : Option Endpoint)
    (version : Version) (lifetime : Option Duration) (now : Instant) :
    (opened link address endpoint version lifetime now).Preserves J := nofun

theorem Preserves.next (hJ : Lasting J) (hx : x.Preserves J) (h : Next x y) :
    y.Preserves J ∧ (J x.chronicle.connection → J y.chronicle.connection) := by
  cases h with
  | begin labels k s =>
    refine ⟨?_, id⟩
    rintro _ ⟨⟩
    exact k.work_preserves hJ labels
  | goOn hstep =>
    have hw := hx _ rfl
    refine ⟨?_, fun hc => ?_⟩
    · rintro _ ⟨⟩
      exact hw.step hstep
    · cases hstep with
      | @answer _ q _ _ _ _ hb =>
        cases q with
        | edit f =>
          obtain ⟨now, _, rfl⟩ := hb
          exact hw.1 now _ hc
        | transfer q =>
          obtain rfl := hb
          exact hc
      | round => exact hc
  | finish | drop => exact ⟨nofun, id⟩
  | heed s => exact ⟨nofun, fun hc => hJ.marks hc (.heeded _)⟩
  | choose routed s => exact ⟨nofun, fun hc => hJ.marks hc (.chosen _ routed)⟩

theorem Preserves.reaches (hJ : Lasting J) (hx : x.Preserves J) (h : Reaches x y) :
    y.Preserves J ∧ (J x.chronicle.connection → J y.chronicle.connection) := by
  induction h with
  | refl => exact ⟨hx, id⟩
  | tail _ hnext ih =>
    obtain ⟨hthen, hkept⟩ := ih.1.next hJ hnext
    exact ⟨hthen, fun hc => hkept (ih.2 hc)⟩

end Story
end Connection
end BoltClient
