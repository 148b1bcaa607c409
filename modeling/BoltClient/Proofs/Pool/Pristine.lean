import BoltClient.Proofs.Pool.Housekeeping
import BoltClient.Proofs.Pool.Lending

/-!
What waits in a pool while everybody awaits what they begin. Those who borrow connections may leave them in any
state: with requests that were never sent, with answers that were never read, in a transaction or refused. However
they give them back, only a connection that is as good as new begins to wait, provided that no server answers more
than it was asked.
-/

namespace BoltClient

namespace Routing.Cluster

inductive Call where
  | acquire (mode : AccessMode) (q : Inquiry) (liveness : Option Duration)
  | update (q : Inquiry)
  | ensureFresh (role : Role) (q : Inquiry)

def Call.work (c : Cluster) : Call → Pool.Task Unit
  | acquire mode q liveness => do
    let _ ← (c.acquire mode q liveness).run
  | update q => do
    let _ ← (c.update q).run
  | ensureFresh role q => do
    let _ ← (c.ensureFresh role q).run

theorem Parts.call {c : Cluster} {C : {α : Type} → Pool.Task α → Prop} (h : c.Parts C) (k : Call) : C (k.work c) := by
  cases k with
  | acquire mode q liveness => exact h.andThen (h.acquire mode q liveness) fun _ => h.done _
  | update q => exact h.andThen (h.update q) fun _ => h.done _
  | ensureFresh role q => exact h.andThen (h.ensureFresh role q) fun _ => h.done _

end Routing.Cluster

namespace Pool

open Work
open Routing (Cluster)

/-- What a borrower can begin. -/
inductive Deed where
  | call (k : Call)
  /-- Something is asked of a cluster whose connections the pool keeps. -/
  | inquire (resolver : Resolver) (context : Entries Value) (k : Cluster.Call)
  /-- Anything that can be done with a connection, to the newest one held. -/
  | use (labels : Stage.Labels) (k : Stage.Command)
  /-- The newest handles are dropped. -/
  | drop (n : Nat)

def Deed.work (opener : Opener) : Deed → Task Unit
  | call k => k.work opener
  | inquire resolver context k => k.work ⟨opener, resolver, context⟩
  | use labels k => do
    let _ ← onTop (k.work labels)
  | drop n => letGoAll n

/-- Somebody who borrows connections. Whoever uses several at a time is several borrowers. -/
structure Borrower where
  work : Task Unit := pure ()
  keeper : Keeper := {}

/-- What a borrower can do next, and what becomes of the pool. Nothing is begun before all that was begun has ended.

The server is fair at every step. It is enough to count from when a connection was taken out or opened: then it is
owed no request and owes no answer. Requests count as written even where writing fails. -/
inductive Borrower.Step (opener : Opener) : Borrower × Pool → Borrower × Pool → Prop where
  | begin {s : Keeper} {p : Pool} (d : Deed) : Step opener (⟨.done (), s⟩, p) (⟨d.work opener, s⟩, p)
  | answer {β : Type} {q : Query β} {next : β → Task Unit} {s : Keeper} {b : β} {p p' : Pool} {held' : List Holding}
      (h : Grip.Answers ⟨p, s.held⟩ q b ⟨p', held'⟩) (hfair : (s.note held' q b).Fair) :
      Step opener (⟨.ask q next, s⟩, p) (⟨next b, s.note held' q b⟩, p')
  | round {β σ : Type} {body : σ → Task (σ ⊕ β)} {x : σ} {next : β → Task Unit} {s : Keeper} {p : Pool} :
      Step opener (⟨.loop body x next, s⟩, p) (⟨.round body x next, s⟩, p)

structure Clientele where
  pool : Pool
  borrowers : List Borrower := []

namespace Clientele

inductive Step (opener : Opener) : Clientele → Clientele → Prop where
  | join {p : Pool} {borrowers : List Borrower} : Step opener ⟨p, borrowers⟩ ⟨p, {} :: borrowers⟩
  | turn {before after : List Borrower} {x x' : Borrower} {p p' : Pool} (h : Borrower.Step opener (x, p) (x', p')) :
      Step opener ⟨p, before ++ x :: after⟩ ⟨p', before ++ x' :: after⟩

def Reaches (opener : Opener) : Clientele → Clientele → Prop := Relation.ReflTransGen (Step opener)

/-- What waits is as good as new, and whatever is under way leaves the accounts of what is out in order. -/
structure Kept (c : Clientele) : Prop where
  clean : c.pool.Clean
  safe : ∀ x ∈ c.borrowers, x.work.Safe borrowing x.keeper fun _ t => t.Kept

end Clientele

variable {opener : Opener} {p p' : Pool} {x x' : Borrower} {c c' : Clientele}

/-- Whatever is begun leaves the accounts in order. -/
theorem deed_kept (hopener : Opening.Neat opener) (d : Deed) : Maintains borrowing Keeper.Kept (d.work opener) := by
  cases d with
  | call k => exact call_kept hopener k
  | inquire resolver context k => exact (Cluster.kept_parts hopener).call k
  | use labels k =>
    exact maintains_composes.andThen (maintains_onTop (k.work_lone labels) (k.work_inOrder labels)) fun _ =>
      maintains_pure _
  | drop n => exact kept_basics.letGoAll n

theorem Borrower.Step.keeps (h : Borrower.Step opener (x, p) (x', p')) (hopener : Opening.Neat opener)
    (hclean : p.Clean) (hsafe : x.work.Safe borrowing x.keeper fun _ t => t.Kept) :
    p'.Clean ∧ x'.work.Safe borrowing x'.keeper fun _ t => t.Kept := by
  cases h with
  | begin d => exact ⟨hclean, deed_kept hopener d _ hsafe⟩
  | answer hb hfair => exact ⟨hsafe.1 _ _ _ _ hclean hb, hsafe.2 _ _ ⟨_, _, hclean, hb, rfl, hfair⟩⟩
  | round => exact ⟨hclean, hsafe.round⟩

namespace Clientele

theorem Step.keeps (h : Step opener c c') (hopener : Opening.Neat opener) (hc : c.Kept) : c'.Kept := by
  cases h with
  | join =>
    refine ⟨hc.clean, fun x hx => ?_⟩
    rcases List.mem_cons.mp hx with rfl | hx
    · exact Keeper.kept_nothing
    · exact hc.safe x hx
  | turn hx =>
    obtain ⟨hclean, hsafe⟩ := hx.keeps hopener hc.clean (hc.safe _ (by simp))
    refine ⟨hclean, fun y hy => ?_⟩
    rcases List.mem_append.mp hy with hy | hy
    · exact hc.safe y (List.mem_append_left _ hy)
    · rcases List.mem_cons.mp hy with rfl | hy
      · exact hsafe
      · exact hc.safe y (List.mem_append_right _ (List.mem_cons_of_mem _ hy))

theorem Reaches.keeps (h : Reaches opener c c') (hopener : Opening.Neat opener) (hc : c.Kept) : c'.Kept := by
  induction h with
  | refl => exact hc
  | tail _ hstep ih => exact hstep.keeps hopener ih

/-- Nobody is there yet. -/
theorem start_kept (limit : Option Nat) (directory : Option Routing.Directory) :
    Kept ⟨{ limit := limit, directory := directory }, []⟩ where
  clean := fun _ hm => absurd hm List.not_mem_nil
  safe := fun _ hx => absurd hx List.not_mem_nil

end Clientele

/-- Whatever those who borrow do with their connections and however they give them back: as long as they await what
they begin and no server answers more than it was asked, every connection that waits has its transport and can be
used, the server is ready, nothing is to come, nothing is to be sent and nothing is left to report. -/
theorem waiting_pristine (opener : Opener) (hopener : Opening.Neat opener) (limit : Option Nat)
    (directory : Option Routing.Directory) (c : Clientele)
    (hrun : Clientele.Reaches opener ⟨{ limit := limit, directory := directory }, []⟩ c) (m : Member)
    (hm : m ∈ c.pool.idleMembers) : m.connection.Pristine :=
  (hrun.keeps hopener (Clientele.start_kept limit directory)).clean m hm

/-- Where connections are opened over the network, whatever waits is as good as new, whatever the configuration. -/
theorem reached_pristine (config : ConnectionConfig) (limit : Option Nat) (directory : Option Routing.Directory)
    (hrun : Clientele.Reaches (Opening.reach config) ⟨{ limit := limit, directory := directory }, []⟩ c) (m : Member)
    (hm : m ∈ c.pool.idleMembers) : m.connection.Pristine :=
  (hrun.keeps (Opening.reach_neat config) (Clientele.start_kept limit directory)).clean m hm

theorem prompt_neat : Opening.Neat prompt := by
  rintro a deadline c ⟨⟩
  exact ⟨⟨rfl, rfl, rfl⟩, rfl, nofun, rfl, rfl⟩

/-- Somebody opens a connection and takes it back. -/
theorem reaches_released : Clientele.Reaches prompt ⟨{}, []⟩ ⟨stocked.pool, [{}]⟩ := by
  have hone {x x' : Borrower} {p p' : Pool} (h : Borrower.Step prompt (x, p) (x', p')) :
      Clientele.Step prompt ⟨p, [x]⟩ ⟨p', [x']⟩ := @Clientele.Step.turn _ [] [] _ _ _ _ h
  have hnobody : Keeper.Fair {} := fun _ ha => absurd ha List.not_mem_nil
  have hquiet : Keeper.Fair ⟨[.borrowed ⟨readyFor default, 0⟩], [{ start := readyFor default }]⟩ := by
    intro a ha
    obtain rfl := List.mem_singleton.mp ha
    have htold : Connection.Account.told { start := readyFor default } = [] :=
      Wire.answers_of_none Wire.nextResponse_default
    unfold Connection.Account.Fair
    rw [htold]
    exact Nat.zero_le _
  refine .head .join (.head (hone (.begin (.call (.acquire default .never none)))) ?_)
  refine .head (hone .round) ?_
  refine .head (hone (.answer (b := some 0) ⟨.start, rfl⟩ hnobody)) ?_
  refine .head (hone .round) ?_
  refine .head (hone (.answer (b := false) ⟨.start, rfl⟩ hnobody)) ?_
  refine .head (hone (.answer (b := true) ⟨.start, rfl⟩ hnobody)) ?_
  refine .head (hone (.answer ⟨.start, rfl⟩ hquiet)) ?_
  refine .head (hone (.begin (.call .release))) ?_
  refine .head (hone (.answer (answers_edit .start rfl) hquiet)) ?_
  refine .head (hone (.answer (b := 0) ⟨.start, rfl⟩ hnobody)) ?_
  exact .refl

theorem released_pristine : ∃ c m, Clientele.Reaches prompt ⟨{}, []⟩ c ∧ m ∈ c.pool.idleMembers ∧
    m.connection.Pristine :=
  ⟨⟨stocked.pool, [{}]⟩, ⟨readyFor default, 0⟩, reaches_released, List.mem_singleton_self _,
    waiting_pristine prompt prompt_neat none none _ reaches_released _ (List.mem_singleton_self _)⟩

end Pool
end BoltClient
