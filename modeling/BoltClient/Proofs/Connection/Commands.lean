import BoltClient.Proofs.Connection.Alteration
import BoltClient.Stage.Command

namespace BoltClient

namespace Connection

open Work

inductive Marks : Connection → Connection → Prop
  | same (c : Connection) : Marks c c
  | deadline (c : Connection) (d : Deadline) : Marks c { c with deadline := d }
  | stale (c : Connection) : Marks c { c with markedStale := true }
  | records (c : Connection) (n : Nat) : Marks c (c.modifyExchange n fun x => { x with records := #[] })
  | database (c : Connection) (name : Option String) : Marks c { c with lastDatabase := name }
  /-- The owner has taken what he is told. -/
  | heeded (c : Connection) : Marks c { c with feedback := [] }
  /-- A routing table has chosen the connection, or has not. -/
  | chosen (c : Connection) (routed : Bool) : Marks c { c with routed := routed }

structure Lasting (J : Connection → Prop) : Prop where
  alters {c d : Connection} (hc : J c) (h : Alters c d) : J d
  marks {c d : Connection} (hc : J c) (h : Marks c d) : J d

def Query.Preserves (J : Connection → Prop) : {β : Type} → Query β → Prop
  | _, .edit f => ∀ now c, J c → J (f now c).2
  | _, .transfer _ => True

variable {J : Connection → Prop}

theorem Lasting.apply (hJ : Lasting J) (q : Stage.Queueing) (watch : Watch) {c : Connection} (hc : J c) :
    J (q.apply watch c).2 := by
  have hfor (r : Except Error Request) (database : Option String) : J (c.queueFor r database watch).2 := by
    cases r with
    | error e => exact hc
    | ok r => exact hJ.alters (hJ.marks hc (.database c database)) (.queue _ r .plain watch)
  cases q with
  | run | begin => exact hfor _ _
  | pull | discard | commit | rollback | other => exact hJ.alters hc (.queue c _ _ watch)

/-- What every single change leaves true is true wherever work on a connection has come to. -/
theorem preserving_basics (hJ : ∀ {c d : Connection}, J c → Alters c d → J d) :
    Basics fun {α : Type} (w : Task α) => w.Asks (Query.Preserves J) :=
  have hpreserves {β : Type} {q : Query β} (h : q.Alters) : q.Preserves J := by
    cases q with
    | edit f => exact fun now c hc => hJ hc (h now c)
    | transfer t => exact trivial
  have hmono {α : Type} {w : Task α} (hw : w.Asks Query.Alters) : w.Asks (Query.Preserves J) := hw.mono hpreserves
  { toComposes := composes_asks
    looking := fun f => hmono (alters_basics.looking f)
    queueing := fun r purpose watch => hmono (alters_basics.queueing r purpose watch)
    checking := fun direction => hmono (alters_basics.checking direction)
    writing := hmono flush_alters
    fetching := hmono fetchOne_alters
    killing := hmono alters_basics.killing
    closing := hmono close_alters }

end Connection

namespace Stage.Command

open Connection (Basics Marks Lasting edit)

theorem work_basics {C : {α : Type} → Connection.Task α → Prop} (h : Basics C)
    (hqueue : ∀ (q : Queueing) (watch : Watch),
      C (edit fun _ c => q.apply watch c : Connection.Task (Except Error Nat)))
    (hmark : ∀ {α : Type} {f : Instant → Connection → α × Connection}, (∀ now c, Marks c (f now c).2) →
      C (edit f : Connection.Task α))
    (labels : Labels) (k : Command) : C (k.work labels) := by
  cases k with
  | queue label q watch => exact h.map (hqueue q watch)
  | hello config => exact h.map (h.hello config)
  | route context bookmarks database user =>
    exact h.map (h.route (fun n _ => hmark fun _ c => .records c n) context bookmarks database user)
  | reset => exact h.map h.reset
  | sendAll => exact h.map h.sendAll
  | fetchMessage => exact h.map h.fetchMessage
  | fetchAll => exact h.map h.fetchAll
  | close => exact h.map h.closing
  | kill => exact h.map h.killing
  | markStale => exact h.map (hmark fun _ c => .stale c)
  | setDeadline timeout => exact hmark fun now c => .deadline c _
  | isIdleFor time => exact hmark fun _ c => .same c
  | exchange label => exact h.looking _
  | takeRecords label =>
    refine hmark fun _ c => ?_
    split
    · next n _ => exact .records c n
    · exact .same c
  | facts => exact h.looking _

theorem work_preserves {J : Connection → Prop} (hJ : Lasting J) (labels : Labels) (k : Command) :
    (k.work labels).Asks (Connection.Query.Preserves J) :=
  work_basics (Connection.preserving_basics hJ.alters)
    (fun q watch => Connection.asks_edit fun _ _ hc => hJ.apply q watch hc)
    (fun hf => Connection.asks_edit fun now c hc => hJ.marks hc (hf now c)) labels k

end Stage.Command
end BoltClient
