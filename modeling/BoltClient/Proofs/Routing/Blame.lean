import BoltClient.Proofs.Connection.Blame
import BoltClient.Proofs.Pool.Hands
import BoltClient.Routing.Cluster

namespace BoltClient

open Work
open Pool (Attempt Grip Query)

variable {S α : Type} {R : Surroundings Query S} {grip : S → Grip} {e : Error} {detail : String}

namespace Pool

theorem sparing_task (w : Task α) : Sparing R.lenient e (liftM w : Attempt α) := sparing_lift (fun _ _ => trivial) w

section

variable (opener : Opener) (a : Address) (deadline : Deadline)

theorem openReserved_spares
    (h : Sparing R.lenient e (ExceptT.mk ((opener a deadline).run.via Query.transfer) : Attempt Connection)) :
    Sparing R.lenient e (openReserved opener a deadline) := by
  unfold openReserved
  refine (h.orFail fun c => sparing_task _).orElse fun other hother => (sparing_task _).orFail fun _ => ?_
  split
  · exact (sparing_task _).orFail fun _ => sparing_throw hother
  · exact sparing_throw hother

theorem acquire_spares (liveness : Option Duration)
    (h : Sparing R.lenient (.routing detail)
      (ExceptT.mk ((opener a deadline).run.via Query.transfer) : Attempt Connection)) :
    Sparing R.lenient (.routing detail) (acquire opener a deadline liveness) := by
  unfold acquire
  refine sparing_iterateOrFail _ fun _ => (sparing_task _).orFail fun open? => ?_
  split
  · exact sparing_throw nofun
  · refine (sparing_task _).orFail fun found => ?_
    split
    · exact sparing_ok _
    · refine (sparing_task _).orFail fun room => ?_
      split
      · exact (openReserved_spares opener a deadline h).orFail fun _ => sparing_ok _
      · refine (sparing_task _).orFail fun again => ?_
        split
        · exact sparing_ok _
        · exact sparing_throw nofun

end

theorem connection_of_editTop {f : Connection → α × Connection} {b : α} {held held' : List Holding}
    (h : Stage.World.editTop f held = some (b, held')) : ∃ c, (f c).1 = b := by
  cases held with
  | nil => cases h
  | cons x held =>
    cases x with
    | borrowed m | parting m | loose m =>
      cases h
      exact ⟨m.connection, rfl⟩
    | wire | place | turn => cases h

/-- What is true of work on a connection whatever it finds is true of it amid work on a pool. -/
theorem safe_onTop_anything (hR : Alone R grip) {t : Connection.Task α} {post : α → Prop}
    (h : t.Safe Connection.anything () fun b _ => post b) (s : S) :
    (onTop t : Task α).Safe R.lenient s fun b _ => post b := by
  refine (Asks.safeVia (p := fun _ => True) (fun _ _ => True) (fun _ _ => trivial) ?_
    (asks_of_all (fun _ => trivial) t) h trivial).mono fun b _ ⟨_, _, hb⟩ => hb
  intro β q _ s b t _ _ hb
  refine ⟨(), ?_, trivial⟩
  cases q with
  | transfer t => exact trivial
  | edit f =>
    obtain ⟨now, held, hedit, _⟩ := hR hb
    obtain ⟨c, hc⟩ := connection_of_editTop hedit
    exact ⟨now, c, hc⟩

end Pool

namespace Routing.Cluster

variable {c : Cluster}

/-- Asking a router fails for want of a router only if opening a connection does. -/
theorem askRouter_spares (hR : Pool.Alone R grip) (hopener : ∀ a deadline s t,
      ¬Runs R ((c.opener a deadline).run.via Query.transfer) s (.error (.routing detail)) t)
    (router : Address) (q : Inquiry) {s t : S} :
    ¬Runs R (c.askRouter router q).run s (.error (.routing detail)) t := by
  have hacquire : Sparing R.lenient (.routing detail) (Pool.acquire c.opener router q.deadline none) := by
    refine Pool.acquire_spares _ _ _ _ fun s => safe_of_runs fun r t hrun heq => ?_
    exact hopener router q.deadline s t (heq ▸ hrun)
  have hblameless : Connection.Blameless detail (Connection.route c.context q.bookmarks q.database q.user) :=
    Connection.blameless_route _ _ _ _
  have hroute (s : S) := Pool.safe_onTop_anything hR (hblameless ()) s
  have hask : Sparing R.lenient (.routing detail) (c.askRouter router q) := by
    unfold askRouter
    refine hacquire.orFail fun _ => (Pool.sparing_task _).orFail fun _ => ?_
    refine fun s => Safe.orFail (Safe.map ((hroute s).mono fun answer t hanswer => ?_))
    refine (Pool.sparing_task _).orFail (fun _ => (Pool.sparing_task _).orFail fun _ => ?_) t
    exact sparing_of_eq hanswer
  exact fun hrun => (hask s).of_runs hrun.lenient rfl

end Routing.Cluster

end BoltClient
