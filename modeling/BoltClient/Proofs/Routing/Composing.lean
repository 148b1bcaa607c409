import BoltClient.Proofs.Pool.Composing
import BoltClient.Routing.Cluster

namespace BoltClient

/-- A move that has to do with the routing tables and with nothing else. -/
def Pool.Move.OfTables : {β : Type} → Pool.Move β → Prop
  | _, .isFresh .. | _, .routers _ | _, .store .. | _, .serves .. | _, .select .. | _, .strangers | _, .discard _
  | _, .discardWriter .. => True
  | _, _ => False

namespace Routing.Cluster

open Work

/-- Asking a router is in order where its parts are. -/
theorem askRouter_composes {c : Cluster} {C : {α : Type} → Pool.Task α → Prop} (h : Pool.Basics C)
    (hacquire : ∀ a deadline liveness, C (Pool.acquire c.opener a deadline liveness).run)
    (hlimit : ∀ d, C (Pool.onTop (Connection.change fun x => { x with deadline := d }) : Pool.Task Unit))
    (hroute : ∀ bookmarks database user, C (Pool.onTop (Connection.route c.context bookmarks database user).run))
    (router : Address) (q : Inquiry) : C (c.askRouter router q).run := by
  unfold Cluster.askRouter
  refine h.orFail (hacquire router q.deadline none) fun _ => h.orFail (h.map (hlimit _)) fun _ => ?_
  refine h.orFail (h.map (hroute _ _ _)) fun _ => h.orFail (h.map (hlimit _)) fun _ => ?_
  exact h.orFail (h.map h.release) fun _ => h.done _

/-- A property that work has if its parts have it, and that the parts of looking for a table have. -/
structure Basics (c : Cluster) (C : {α : Type} → Pool.Task α → Prop) : Prop extends Pool.Basics C where
  acquiring (a : Address) (deadline : Deadline) (liveness : Option Duration) :
    C (Pool.acquire c.opener a deadline liveness).run
  asking (router : Address) (q : Inquiry) : C (c.askRouter router q).run
  timing : C (Pool.ask (.transfer .now) : Pool.Task Instant)
  discarding (a : Address) : C (Pool.move (.discard a) : Pool.Task Unit)

namespace Basics

variable {c : Cluster} {C : {α : Type} → Pool.Task α → Prop} (h : c.Basics C)

include h

theorem fetchTable (router : Address) (q : Inquiry) : C (c.fetchTable router q).run := by
  unfold Cluster.fetchTable
  refine h.orFail (h.orElse (h.asking router q) fun e => ?_) fun rows => ?_
  · split
    · exact h.throw _
    · exact h.ok _
  · split
    · exact h.ok _
    · exact h.orFail (h.map h.timing) fun now => h.orFail (h.done _) fun t => h.ok _

theorem giveUp (a : Address) : C (Cluster.deactivate a) := by
  unfold Cluster.deactivate
  exact h.andThen (h.discarding a) fun _ => h.deactivate a

theorem dropStrangers (hstrangers : C (Pool.move .strangers : Pool.Task (List Address))) :
    C Cluster.dropStrangers := by
  unfold Cluster.dropStrangers
  refine h.andThen hstrangers fun strangers => h.andThen (h.forEach strangers _ fun a _ => ?_) fun _ => h.done _
  exact h.andThen (h.deactivate a) fun _ => h.done _

section

variable {q : Inquiry} (hstore : ∀ t, C (Pool.move (.store q.database t) : Pool.Task Unit))

include hstore

theorem renewFromCandidates (candidates : List Address) : C (c.renewFromCandidates q candidates).run := by
  induction candidates with
  | nil => exact h.ok _
  | cons a rest ih =>
    unfold Cluster.renewFromCandidates
    refine h.orFail (h.fetchTable a q) fun found => ?_
    cases found with
    | none => exact ih
    | some t => exact h.orFail (h.map (hstore t)) fun _ => h.ok _

theorem renewFrom (routers : List Address) : C (c.renewFrom q routers).run := by
  induction routers with
  | nil => exact h.ok _
  | cons router rest ih =>
    unfold Cluster.renewFrom
    refine h.orFail (h.renewFromCandidates hstore _) fun renewed => ?_
    cases renewed with
    | true => exact h.ok _
    | false => exact h.orFail (h.map (h.giveUp router)) fun _ => ih

theorem renew (hrouters : C (Pool.move (.routers q.database) : Pool.Task (List Address))) : C (c.renew q).run := by
  unfold Cluster.renew
  refine h.orFail (h.map hrouters) fun routers => h.orFail (h.renewFrom hstore routers) fun renewed => ?_
  cases renewed with
  | true => exact h.ok _
  | false => exact h.throw _

end

end Basics

/-- A property that work has if its parts have it, and that all parts of what is asked of a cluster have. -/
structure Parts (c : Cluster) (C : {α : Type} → Pool.Task α → Prop) : Prop extends toClusterBasics : c.Basics C where
  awaiting : C (Pool.ask .waitForTurn : Pool.Task Unit)
  drawing : C (Pool.ask .draw : Pool.Task Nat)
  consulting {β : Type} {m : Pool.Move β} (hm : m.OfTables) : C (Pool.move m : Pool.Task β)

namespace Parts

variable {c : Cluster} {C : {α : Type} → Pool.Task α → Prop} (h : c.Parts C)

include h

theorem inTurn {α : Type} {w : Pool.Attempt α} (hw : C w.run) : C (inTurn w).run := by
  unfold Cluster.inTurn
  refine h.orFail (h.map h.awaiting) fun _ => h.orFail (h.map hw) fun outcome => ?_
  exact h.orFail (h.map h.lettingGo) fun _ => h.done _

theorem renewing (q : Inquiry) : C (c.renew q).run := h.renew (fun _ => h.consulting trivial) (h.consulting trivial)

theorem update (q : Inquiry) : C (c.update q).run := h.inTurn (h.renewing q)

theorem ensureFresh (role : Role) (q : Inquiry) : C (c.ensureFresh role q).run := by
  unfold Cluster.ensureFresh
  refine h.inTurn (h.orFail (h.map (h.consulting trivial)) fun fresh => ?_)
  split
  · exact h.ok _
  · refine h.orFail (h.map (h.renewing q)) fun outcome => ?_
    split
    · exact h.orFail (h.map (h.dropStrangers (h.consulting trivial))) fun _ => h.ok _
    · split
      · refine h.orFail (h.map (h.consulting trivial)) fun serves => ?_
        split
        · exact h.ok _
        · exact h.throw _
      · exact h.throw _

theorem acquire (mode : AccessMode) (q : Inquiry) (liveness : Option Duration) :
    C (c.acquire mode q liveness).run := by
  unfold Cluster.acquire
  refine h.orFail (h.ensureFresh _ q) fun _ => h.iterateOrFail _ fun _ => ?_
  refine h.orFail (h.map h.drawing) fun choice => h.orFail (h.map (h.consulting trivial)) fun selected => ?_
  cases selected with
  | none => exact h.throw _
  | some a =>
    refine h.orElse ?_ fun e => ?_
    · exact h.orFail (h.acquiring a q.deadline liveness) fun _ => h.ok _
    · split
      · exact h.orFail (h.map (h.giveUp a)) fun _ => h.ok _
      · exact h.throw _

end Parts

end Routing.Cluster
end BoltClient
