import BoltClient.Proofs.Connection.Greeting
import BoltClient.Proofs.Pool.Accounts
import BoltClient.Proofs.Routing.Composing

namespace BoltClient

namespace Pool

open Work
open Connection (InOrder audit edit_sameLine inOrder_basics)

variable {α : Type} {opener : Opener} {a : Address} {deadline : Deadline} {s : Keeper} {held rest : List Holding}

/-- Work on the newest connection held, over its own link. -/
theorem maintains_onTopStaying {w : Connection.Task α} (hstays : w.Asks Connection.Query.Stays)
    (hw : Maintains audit InOrder w) : Maintains borrowing Keeper.Kept (onTop w : Task α) :=
  maintains_onTop (hstays.mono Connection.Query.Stays.lone) hw

theorem deadline_inOrder (d : Deadline) : Maintains audit InOrder
    (Connection.change (fun c => { c with deadline := d }) : Connection.Task Unit) :=
  edit_sameLine fun _ _ => ⟨rfl, rfl, rfl, rfl, rfl, rfl, rfl, rfl⟩

theorem isAlive_inOrder (idleTime : Duration) (deadline : Deadline) :
    Maintains audit InOrder (isAlive idleTime deadline) :=
  isAlive_composes inOrder_basics (fun _ => edit_sameLine fun _ _ => ⟨rfl, rfl, rfl, rfl, rfl, rfl, rfl, rfl⟩)
    deadline_inOrder idleTime deadline

theorem kept_basics : Basics fun {α : Type} (w : Task α) => Maintains borrowing Keeper.Kept w where
  toComposes := maintains_composes
  closing := maintains_onTopStaying Connection.close_stays inOrder_basics.closing
  tidying := maintains_onTopStaying tidy_stays (tidy_composes inOrder_basics)
  killing := maintains_onTopStaying Connection.stays_basics.killing inOrder_basics.killing
  trying idleTime deadline := maintains_onTopStaying (isAlive_stays idleTime deadline) (isAlive_inOrder _ deadline)
  looking a := maintains_move (k := .isCurrent a) trivial
  checkingIn := maintains_move (k := .checkIn) trivial
  lettingGo := maintains_move (k := .letGo) trivial
  detaching a := maintains_move (k := .detach a) trivial

theorem reuse_kept (a : Address) (deadline : Deadline) (liveness : Option Duration) :
    Maintains borrowing Keeper.Kept (reuse a deadline liveness) :=
  kept_basics.reuse a deadline liveness (maintains_move trivial) (maintains_move trivial)

/-- Whoever holds a place has no connection at hand. -/
theorem not_atHand_of_place {generation : Nat} (h : Grip.beneath held = .place a generation :: rest) :
    ¬AtHand held := by
  cases held with
  | nil => exact nofun
  | cons x held =>
    cases x with
    | borrowed | parting => cases h
    | loose | wire | place | turn => exact nofun

/-- What is said while a connection is being opened for a place is not noted. -/
theorem safe_openReservedKept {generation : Nat} (hopener : Opening.Neat opener) (hs : s.Kept)
    (hplace : Grip.beneath s.held = .place a generation :: rest) :
    (openReserved opener a deadline).run.Safe borrowing s fun _ t => t.Kept := by
  have hopened : ((opener a deadline).run.via Query.transfer).Safe borrowing s fun r t =>
      (t.Kept ∧ Grip.beneath t.held = .place a generation :: rest) ∧ ∀ c, r = .ok c → c.Idle := by
    refine safe_opening (fun t : Keeper => t.Kept ∧ Grip.beneath t.held = .place a generation :: rest) ?_ ?_
      (hopener a deadline) ⟨hs, hplace⟩
    · intro β q t _ p b p' held' hclean hb
      exact clean_of_aside (q := .transfer q) trivial hclean hb
    · intro β q t b t' ⟨ht, hplace⟩ ⟨p, p', _, hb, hnote, _⟩
      refine ⟨?_, (Grip.beneath_of_transfer hb).trans hplace⟩
      rw [hnote]
      exact ht.same (out_of_transfer hb) (hear_spare (not_atHand_of_place hplace) b)
  refine safe_openReserved (fun t => t.Kept) (fun _ _ ht => ht) (kept_basics.deactivate a)
    (hopened.mono fun r t ht => ?_)
  obtain ⟨⟨ht, _⟩, hidle⟩ := ht
  cases r with
  | ok c =>
    have hbrings : (Move.fulfil c).Brings := hidle c rfl
    exact maintains_move hbrings t ht
  | error e => exact maintains_move (k := .letGo) trivial t ht

theorem acquire_kept (hopener : Opening.Neat opener) (a : Address) (deadline : Deadline)
    (liveness : Option Duration) : Maintains borrowing Keeper.Kept (acquire opener a deadline liveness).run := by
  intro s hs
  refine safe_acquire (fun t => t.Kept) hs (fun _ _ ht => ht) (maintains_move (k := .enter) trivial)
    (fun t ht => (reuse_kept a deadline liveness t ht).mono fun found u hu => ?_) (fun t ht => ?_)
    fun t seen => maintains_waitForChange seen deadline t
  · cases found <;> exact hu
  · have hreserve := maintains_move (k := .reserve a) trivial t ht
    refine ⟨hreserve.1, fun room u hb => ?_⟩
    have hkept := hreserve.2 room u hb
    obtain ⟨p, p', _, ⟨now, happly⟩, _⟩ := hb
    have hplace := Grip.held_of_reserve happly
    cases room with
    | false => exact hkept
    | true =>
      obtain ⟨generation, hplace⟩ := hplace
      exact safe_openReservedKept hopener hkept (congrArg Grip.beneath hplace)

theorem call_kept (hopener : Opening.Neat opener) (k : Call) :
    Maintains borrowing Keeper.Kept (k.work opener) :=
  kept_basics.call (acquire_kept hopener) (maintains_move trivial) (maintains_move trivial) (maintains_move trivial) k

end Pool

namespace Routing.Cluster

open Work
open Pool (Keeper borrowing maintains_move maintains_onTopStaying)

variable {c : Cluster} (hopener : Opening.Neat c.opener)

include hopener

theorem kept_parts : c.Parts fun {α : Type} (w : Pool.Task α) => Maintains borrowing Keeper.Kept w where
  toBasics := Pool.kept_basics
  acquiring := Pool.acquire_kept hopener
  asking := askRouter_composes Pool.kept_basics (Pool.acquire_kept hopener)
    (fun d => maintains_onTopStaying (Connection.asks_edit fun _ _ => rfl) (Pool.deadline_inOrder d))
    fun _ _ _ => maintains_onTopStaying (Connection.route_stays _ _ _ _) (Connection.route_inOrder _ _ _ _)
  timing := Pool.maintains_now
  discarding a := maintains_move (k := .discard a) trivial
  awaiting := Pool.maintains_waitForTurn
  drawing := Pool.maintains_draw
  consulting {β m} hm := by
    have hbrings : m.Brings := by
      cases m with
      | fulfil c => exact hm.elim
      | _ => exact trivial
    exact maintains_move hbrings

end Routing.Cluster
end BoltClient
