import BoltClient.Connection.Task
import BoltClient.Proofs.Work.Safety

/-!
What is true of work on a connection because it is true of its parts. Properties that work has if its parts have
them are shown for the parts alone: queueing, checking, writing, fetching one answer, killing and closing.
-/

namespace BoltClient.Connection

open Work

/-- A property that work has if its parts have it, and that the parts of all work on a connection have. -/
structure Basics (C : {α : Type} → Task α → Prop) : Prop extends Composes C where
  looking {α : Type} (f : Connection → α) : C (look f : Task α)
  queueing (r : Request) (purpose : Purpose) (watch : Watch) : C (attempt fun _ c => c.queue r purpose watch).run
  checking (direction : Direction) : C (attempt fun _ c => c.check direction).run
  writing : C flush.run
  fetching : C fetchOne.run
  killing : C (change kill : Task Unit)
  closing : C close

namespace Basics

variable {C : {α : Type} → Task α → Prop} (h : Basics C)

include h

theorem sendAll : C sendAll.run := by
  unfold Connection.sendAll
  exact h.orFail (h.checking .writing) fun _ => h.writing

theorem settleBeforeReset (trouble : Trouble) : C (settleBeforeReset trouble).run := by
  unfold Connection.settleBeforeReset
  split
  · refine h.orFail (h.map h.killing) fun _ => ?_
    split
    · exact h.throw _
    · exact h.ok _
  · split
    · exact h.ok _
    · exact h.map h.killing
    · exact h.map h.closing

theorem reset : C reset.run := by
  unfold Connection.reset
  refine h.orFail (h.queueing .reset .reset {}) fun _ => ?_
  refine h.orFail h.sendAll fun _ => h.iterateOrFail _ fun _ => ?_
  refine h.orFail (h.map (h.looking _)) fun quiet => ?_
  dsimp only
  split
  · exact h.ok _
  · refine h.orFail h.fetching fun found => ?_
    obtain ⟨_, _ | trouble⟩ := found
    · exact h.ok _
    · exact h.orFail (h.settleBeforeReset trouble) fun _ => h.ok _

theorem giveError (trouble : Trouble) : C (giveError trouble).run := by
  unfold Connection.giveError
  split
  · exact h.throw _
  · exact h.ok _

theorem settle (trouble : Trouble) : C (settle trouble).run := by
  have hgive (_ : Unit) := h.giveError trouble
  obtain ⟨purpose, remedy, error⟩ := trouble
  cases remedy with
  | reset =>
    refine h.orFail (h.orElse h.reset fun e => ?_) hgive
    split
    · exact h.ok _
    · exact h.throw _
  | kill => exact h.orFail (h.map h.killing) hgive
  | close => exact h.orFail (h.map h.closing) hgive

theorem fetchMessage : C fetchMessage.run := by
  unfold Connection.fetchMessage
  refine h.orFail h.fetching fun found => ?_
  obtain ⟨_, _ | trouble⟩ := found
  · exact h.ok _
  · exact h.orFail (h.settle trouble) fun _ => h.ok _

theorem fetchAll : C fetchAll.run := by
  unfold Connection.fetchAll
  refine h.iterateOrFail _ fun _ => h.orFail (h.map (h.looking _)) fun quiet => ?_
  split
  · exact h.ok _
  · exact h.orFail h.fetchMessage fun _ => h.ok _

theorem queueHello (requests : List Request) : C (queueHello requests).run := by
  unfold Connection.queueHello
  induction requests with
  | nil => exact h.ok _
  | cons r rest ih =>
    refine h.orFail ?_ fun _ => ih
    exact h.orFail (h.queueing r _ {}) fun _ => h.ok _

theorem hello (config : ConnectionConfig) : C (hello config).run := by
  unfold Connection.hello
  refine h.orFail (h.map (h.looking _)) fun version => h.orFail (h.done _) fun requests => ?_
  exact h.orFail (h.queueHello requests) fun _ => h.orFail h.sendAll fun _ => h.orFail h.fetchAll fun _ => h.ok _

/-- Asking for a table takes records as well. -/
theorem route (htake : ∀ {α : Type} (n : Nat) (f : Connection → α),
      C (edit fun _ c => (f c, c.modifyExchange n fun x => { x with records := #[] }) : Task α))
    (context : Entries Value) (bookmarks : List String) (database user : Option String) :
    C (route context bookmarks database user).run := by
  unfold Connection.route
  refine h.orFail (h.map (h.looking _)) fun version => h.orFail (h.done _) fun request => ?_
  cases request with
  | message r =>
    refine h.orFail (h.queueing r .plain {}) fun n => ?_
    exact h.orFail h.sendAll fun _ => h.orFail h.fetchAll fun _ => h.looking _
  | procedure run pull =>
    refine h.orFail (h.queueing run .plain {}) fun first => h.orFail (h.queueing pull .plain {}) fun second => ?_
    exact h.orFail h.sendAll fun _ => h.orFail h.fetchAll fun _ => htake second _

end Basics
end BoltClient.Connection
