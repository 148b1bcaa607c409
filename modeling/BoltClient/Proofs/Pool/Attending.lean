import BoltClient.Proofs.Pool.Returning
import BoltClient.Proofs.Work.Ending

namespace BoltClient

/-- Whatever is asked of the network can be answered. -/
theorem Transfer.answerable {β : Type} (t : Transfer β) : Nonempty β := by
  cases t with
  | now => exact ⟨.start⟩
  | resolve => exact ⟨none⟩
  | connect | read | write => exact ⟨.late⟩
  | dial => exact ⟨.error (.unavailable "")⟩
  | settle | shutdown => exact ⟨()⟩

namespace Connection

open Work

theorem straight_flush : flush.run.Straight := by
  unfold flush
  refine Straight.orFail (fun _ => trivial) fun outgoing => ?_
  cases outgoing with
  | none => exact trivial
  | some o => exact Straight.orFail (fun _ => trivial) fun _ _ => trivial

theorem straight_close : close.Straight := by
  have hhangUp : hangUp.Straight := by
    unfold hangUp
    refine Straight.andThen (fun _ => trivial) fun (link, deadline) => ?_
    cases link with
    | none => exact fun _ => trivial
    | some link => exact fun _ _ => trivial
  unfold close
  refine Straight.andThen (fun _ => trivial) fun writes => ?_
  cases writes with
  | none => exact trivial
  | some writes =>
    cases writes with
    | true => exact Straight.andThen straight_flush fun _ => hhangUp
    | false => exact hhangUp

end Connection

namespace Pool

open Stage (World)
open Work

variable {S α β : Type} {R : Surroundings Query S} {grip : S → Grip} {s : S} {wrap : Member → Holding}
  {m : Member} {ms : List Member} {rest : List Holding}

/-- Nobody else has a hand in the pool, and whatever the pool, the clock and the network can answer is answered. -/
structure Attended (R : Surroundings Query S) (grip : S → Grip) : Prop where
  alone : Alone R grip
  ready {β : Type} {s : S} {q : Query β} {b : β} {g : Grip} (h : (grip s).Answers q b g) :
    ∃ b t, R.Answers s q b t

section

variable (hR : Attended R grip)

include hR

theorem ends_move {m : Move β} {post : β → S → Prop}
    (h : ∀ now t, grip t = (m.apply now (grip s)).2 → post (m.apply now (grip s)).1 t) :
    (move m : Task β).Ends R post s := by
  refine .ask (hR.ready (q := .move m) ⟨.start, rfl⟩) fun b t hb => .done ?_
  obtain ⟨now, happly⟩ := hR.alone hb
  have hpost := h now t (congrArg Prod.snd happly).symm
  rwa [congrArg Prod.fst happly] at hpost

/-- Work without loops on the newest connection held comes to an end. -/
theorem ends_onTop {t : Connection.Task α} (ht : t.Asks Connection.Query.Stays) (hstraight : t.Straight)
    (hwrap : IsWrap wrap) (hheld : (grip s).held = wrap m :: rest) :
    (onTop t : Task α).Ends R (fun _ t => ∃ m, (grip t).held = wrap m :: rest) s := by
  refine (hstraight.via _).ends (fun t => ∃ m, (grip t).held = wrap m :: rest) ?_ ?_ (onTop_asks ht) ⟨m, hheld⟩
  · rintro β q s ⟨m, hheld⟩ hq
    cases q with
    | edit f =>
      have hedit : ∃ b held, World.editTop (f .start) (grip s).held = some (b, held) := by
        rw [hheld]
        rcases hwrap with rfl | rfl | rfl <;> exact ⟨_, _, rfl⟩
      obtain ⟨b, held, hedit⟩ := hedit
      exact hR.ready (q := .edit f) ⟨.start, held, hedit, rfl⟩
    | transfer t =>
      obtain ⟨b⟩ := t.answerable
      exact hR.ready (q := .transfer t) (b := b) rfl
    | move | waitForChange | waitForTurn | draw => exact hq.elim
  · rintro β q s b t ⟨m, hheld⟩ hq hb
    exact (Grip.top_of_answers hwrap hheld hq (hR.alone hb)).2

theorem ends_closeHeld (hheld : (grip s).held = ms.map .loose ++ rest) :
    (closeHeld ms.length).Ends R (fun _ _ => True) s := by
  induction ms generalizing s with
  | nil => exact .done trivial
  | cons m ms ih =>
    unfold closeHeld closeOne
    refine Ends.andThen (Ends.andThen ((ends_onTop hR Connection.close_stays Connection.straight_close
      (.inr (.inr rfl)) hheld).mono fun _ t ht => ends_move hR fun now u hu => ?_))
    obtain ⟨m', hheld'⟩ := ht
    refine ih ?_
    rw [hu, Move.apply, hheld']
    rfl

theorem ends_deactivate (a : Address) : (deactivate a).Ends R (fun _ _ => True) s := by
  unfold deactivate
  refine Ends.andThen (ends_move hR fun now t ht => ?_)
  have hheld : (grip t).held = ((grip s).pool.detach a).1.map .loose ++ (grip s).held := by
    rw [ht]
    rfl
  exact ends_closeHeld hR hheld

end

end Pool

end BoltClient
