import BoltClient.Proofs.Work.Passage

/-!
What is done in turn on the way from one point of some work to another. Where work of one kind is done again and
again, the way falls into its turns, from first to last, and into gaps in which only other questions are asked.
-/

namespace BoltClient

variable {Q : Type → Type 1} {S : Type}

/-- The same surroundings, for work that asks only questions of a kind. -/
def Surroundings.only (R : Surroundings Q S) (p : {β : Type} → Q β → Prop) : Surroundings Q S where
  Answers s q b t := p q ∧ R.Answers s q b t
  Allows := R.Allows

namespace Work

/-- Work on a subject that has been done from beginning to end. -/
structure Turn (ι β S : Type) where
  subject : ι
  before : S
  result : β
  after : S

/-- The way from one point to another takes some turns, one after the other. In between only questions of a kind
are asked. -/
inductive Course {ι α β : Type} (R : Surroundings Q S) (p : {γ : Type} → Q γ → Prop) (work : ι → Work Q β)
    (y : Work Q α × S) : Work Q α × S → List (Turn ι β S) → Prop where
  | rest {x : Work Q α × S} (h : Leads (R.only @p) x y) : Course R @p work y x []
  | turn {x : Work Q α × S} {f : β → Work Q α} {turn : Turn ι β S} {turns : List (Turn ι β S)}
      (hthere : Leads (R.only @p) x ((work turn.subject).bind f, turn.before))
      (hrun : Runs R (work turn.subject) turn.before turn.result turn.after)
      (hrest : Course R @p work y (f turn.result, turn.after) turns) : Course R @p work y x (turn :: turns)

variable {ι α β γ ε : Type} {R : Surroundings Q S} {p : {δ : Type} → Q δ → Prop} {work : ι → Work Q β}
  {s t u : S} {turns more : List (Turn ι β S)}

/-- Work that asks only questions of a kind has no others answered. -/
theorem Leads.only {w w' : Work Q α} (h : w.Asks p) (hleads : Leads R (w, s) (w', t)) :
    Leads (R.only p) (w, s) (w', t) := by
  have hkept : ∀ x, Leads R (w, s) x → x.1.Asks p ∧ Leads (R.only p) (w, s) x := by
    intro x hx
    induction hx with
    | refl => exact ⟨h, .refl⟩
    | tail _ hstep ih =>
      obtain ⟨hasks, hsteps⟩ := ih
      refine ⟨hasks.step hstep, hsteps.tail ?_⟩
      cases hstep with
      | answer hb => exact .answer ⟨hasks.1, hb⟩
      | round => exact .round
  exact (hkept _ hleads).2

theorem run_tryCatch (w : ExceptT ε (Work Q) α) (handler : ε → ExceptT ε (Work Q) α) :
    (tryCatch w handler).run = w.run.bind fun
      | .ok a => .done (Except.ok a)
      | .error e => (handler e).run := by
  refine congrArg w.run.bind ?_
  funext r
  cases r <;> rfl

theorem run_iterateOrFail {σ : Type} (body : σ → ExceptT ε (Work Q) (σ ⊕ γ)) (x : σ) :
    (iterateOrFail body x).run = loop (fun y => (body y).run.bind fun
      | .ok (.inl z) => .done (.inl z)
      | .ok (.inr b) => .done (.inr (Except.ok b))
      | .error e => .done (.inr (.error e))) x .done := by
  refine congrArg (fun body => loop body x .done) (funext fun y => congrArg (body y).run.bind (funext fun r => ?_))
  match r with
  | .ok (.inl z) => rfl
  | .ok (.inr b) => rfl
  | .error e => rfl

namespace Course

section

variable {x y z : Work Q α × S}

theorem before (hthere : Leads (R.only p) x y) (h : Course R p work z y turns) : Course R p work z x turns := by
  cases h with
  | rest hrest => exact .rest (hthere.trans hrest)
  | turn hturn hrun hrest => exact .turn (hthere.trans hturn) hrun hrest

theorem append (h : Course R p work y x turns) (hmore : Course R p work z y more) :
    Course R p work z x (turns ++ more) := by
  induction h with
  | rest hrest => exact hmore.before hrest
  | turn hthere hrun _ ih => exact .turn hthere hrun ih

end

/-- Each turn is a run of the work on its subject. -/
theorem runs {x y : Work Q α × S} (h : Course R p work y x turns) {turn : Turn ι β S} (hturn : turn ∈ turns) :
    Runs R (work turn.subject) turn.before turn.result turn.after := by
  induction h with
  | rest => cases hturn
  | turn _ hrun _ ih =>
    rcases List.mem_cons.mp hturn with rfl | hlater
    · exact hrun
    · exact ih hlater

/-- The turns of work that comes first are turns of the whole. -/
theorem bind {w w' : Work Q α} (h : Course R p work (w', t) (w, s) turns) (f : α → Work Q γ) :
    Course R p work (w'.bind f, t) (w.bind f, s) turns := by
  generalize hx : (w, s) = x at h
  induction h generalizing w s with
  | rest hrest =>
    subst hx
    exact .rest (hrest.bind f)
  | turn hthere hrun _ ih =>
    subst hx
    have hwithin := hthere.bind f
    rw [bind_assoc] at hwithin
    exact .turn hwithin hrun (ih rfl)

/-- Work in which only such questions are asked is a gap. -/
theorem gap {w : Work Q α} {a : α} (h : w.Asks p) (hrun : Runs R w s a t) : Course R p work (.done a, t) (w, s) [] :=
  .rest (Leads.only h hrun)

/-- Work on a subject is one turn. -/
theorem one {i : ι} {b : β} (hrun : Runs R (work i) s b t) :
    Course R p work (.done b, t) (work i, s) [⟨i, s, b, t⟩] := by
  refine .turn (f := .done) ?_ hrun (.rest .refl)
  rw [bind_done]
  exact .refl

/-- One piece of work after another. -/
theorem andThen {w : Work Q α} {f : α → Work Q γ} {a : α} {y : Work Q γ × S}
    (h : Course R p work (.done a, t) (w, s) turns) (hrest : Course R p work y (f a, t) more) :
    Course R p work y (w.bind f, s) (turns ++ more) := (h.bind f).append hrest

section

variable {w : ExceptT ε (Work Q) α} {f : α → ExceptT ε (Work Q) γ} {a : α} {e : ε} {r : Except ε γ}

theorem orFail (h : Course R p work (.done (.ok a), t) (w.run, s) turns)
    (hrest : Course R p work (.done r, u) ((f a).run, t) more) :
    Course R p work (.done r, u) ((w >>= f).run, s) (turns ++ more) := by
  have hwhole := h.andThen (f := ExceptT.bindCont f) hrest
  exact hwhole

theorem failed (h : Course R p work (.done (.error e), t) (w.run, s) turns) :
    Course R p work (.done (.error e), t) ((w >>= f).run, s) turns := by
  have hwhole := h.bind (ExceptT.bindCont f)
  exact hwhole

theorem succeeded {handler : ε → ExceptT ε (Work Q) α} (h : Course R p work (.done (.ok a), t) (w.run, s) turns) :
    Course R p work (.done (.ok a), t) ((tryCatch w handler).run, s) turns := by
  rw [run_tryCatch, ← List.append_nil turns]
  exact h.andThen (.rest .refl)

theorem caught {handler : ε → ExceptT ε (Work Q) α} {r : Except ε α}
    (h : Course R p work (.done (.error e), t) (w.run, s) turns)
    (hrest : Course R p work (.done r, u) ((handler e).run, t) more) :
    Course R p work (.done r, u) ((tryCatch w handler).run, s) (turns ++ more) := by
  rw [run_tryCatch]
  exact h.andThen hrest

theorem lifted {w : Work Q α} (h : Course R p work (.done a, t) (w, s) turns)
    (hrest : Course R p work (.done r, u) ((f a).run, t) more) :
    Course R p work (.done r, u) ((ExceptT.lift w >>= f).run, s) (turns ++ more) := by
  have hlift : Course R p work (.done (.ok a), t) ((ExceptT.lift w : ExceptT ε (Work Q) α).run, s) turns :=
    h.bind fun a => .done (Except.ok a)
  exact hlift.orFail hrest

end

section

variable {σ : Type} {body : σ → ExceptT ε (Work Q) (σ ⊕ γ)} {x y : σ}

/-- One round of a loop, and the others. -/
theorem round {z : Work Q (Except ε γ) × S} (h : Course R p work (.done (.ok (.inl y)), u) ((body x).run, s) turns)
    (hrest : Course R p work z ((iterateOrFail body y).run, u) more) :
    Course R p work z ((iterateOrFail body x).run, s) (turns ++ more) := by
  rw [run_iterateOrFail] at hrest ⊢
  refine before (.single .round) ?_
  rw [Work.round, bind_assoc]
  exact h.andThen hrest

/-- The last round of a loop. -/
theorem lastRound {r : Except ε γ} (h : Course R p work (.done (r.map .inr), t) ((body x).run, s) turns) :
    Course R p work (.done r, t) ((iterateOrFail body x).run, s) turns := by
  rw [run_iterateOrFail]
  refine before (.single .round) ?_
  rw [Work.round, bind_assoc, ← List.append_nil turns]
  refine h.andThen ?_
  cases r <;> exact .rest .refl

end

end Course

end Work
end BoltClient
