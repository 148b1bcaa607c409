import BoltClient.Proofs.Work.Safety

/-!
Work that comes to an end. Safety says how work ends if it does; here every question has an answer, no run goes
on for ever, and in the end something holds, whatever the answers are.
-/

namespace BoltClient.Work

variable {Q : Type → Type 1} {S α β ε : Type} {R : Surroundings Q S} {s t : S}

/-- Every question has an answer, and after finitely many steps the work is done, as wanted. -/
inductive Ends (R : Surroundings Q S) (post : α → S → Prop) : Work Q α → S → Prop where
  | done {a : α} {s : S} (h : post a s) : Ends R post (done a) s
  | ask {β : Type} {q : Q β} {next : β → Work Q α} {s : S} (hanswer : ∃ b t, R.Answers s q b t)
      (h : ∀ b t, R.Answers s q b t → Ends R post (next b) t) : Ends R post (ask q next) s
  | loop {β σ : Type} {body : σ → Work Q (σ ⊕ β)} {x : σ} {next : β → Work Q α} {s : S}
      (h : Ends R post (round body x next) s) : Ends R post (loop body x next) s

section

variable {w w' : Work Q α} {post wider : α → S → Prop}

theorem Ends.mono (h : w.Ends R post s) (hwider : ∀ a t, post a t → wider a t) : w.Ends R wider s := by
  induction h with
  | done h => exact .done (hwider _ _ h)
  | ask hanswer _ ih => exact .ask hanswer ih
  | loop _ ih => exact .loop ih

theorem Ends.bind {f : α → Work Q β} {post : β → S → Prop}
    (h : w.Ends R (fun a t => (f a).Ends R post t) s) : (w.bind f).Ends R post s := by
  induction h with
  | done h => exact h
  | ask hanswer _ ih => exact .ask hanswer ih
  | @loop _ _ body x next s _ ih =>
    refine .loop ?_
    rw [round_bind] at ih
    exact ih

theorem Ends.step (h : w.Ends R post s) (hstep : Step R (w, s) (w', t)) : w'.Ends R post t := by
  cases hstep with
  | answer hb =>
    cases h with
    | ask _ h => exact h _ _ hb
  | round =>
    cases h with
    | loop h => exact h

theorem Ends.leads (h : w.Ends R post s) (hleads : Leads R (w, s) (w', t)) : w'.Ends R post t := by
  have hends : ∀ x, Leads R (w, s) x → x.1.Ends R post x.2 := by
    intro x hx
    induction hx with
    | refl => exact h
    | tail _ hstep ih => exact ih.step hstep
  exact hends _ hleads

/-- No run goes on for ever. -/
theorem Ends.acc (h : w.Ends R post s) : Acc (fun y x => Step R x y) (w, s) := by
  induction h with
  | done =>
    refine .intro _ fun y hstep => ?_
    cases hstep
  | ask _ _ ih =>
    refine .intro _ fun y hstep => ?_
    cases hstep with
    | answer hb => exact ih _ _ hb
  | loop _ ih =>
    refine .intro _ fun y hstep => ?_
    cases hstep with
    | round => exact ih

/-- Where nothing goes on the work is done. -/
theorem Ends.stops (h : w.Ends R post s) (hstop : ∀ x, ¬Step R (w, s) x) : ∃ a, w = .done a ∧ post a s := by
  cases h with
  | done h => exact ⟨_, rfl, h⟩
  | ask hanswer _ =>
    obtain ⟨b, t, hb⟩ := hanswer
    exact absurd (.answer hb) (hstop _)
  | loop => exact absurd .round (hstop _)

/-- Some run comes to the end. -/
theorem Ends.exists_done (h : w.Ends R post s) : ∃ a t, Leads R (w, s) (.done a, t) ∧ post a t := by
  induction h with
  | done h => exact ⟨_, _, .refl, h⟩
  | ask hanswer _ ih =>
    obtain ⟨b, t, hb⟩ := hanswer
    obtain ⟨a, u, hleads, hpost⟩ := ih b t hb
    exact ⟨a, u, .head (.answer hb) hleads, hpost⟩
  | loop _ ih =>
    obtain ⟨a, u, hleads, hpost⟩ := ih
    exact ⟨a, u, .head .round hleads, hpost⟩

/-- So does every other, with what is wanted. -/
theorem Ends.of_done {a : α} (h : w.Ends R post s) (hleads : Leads R (w, s) (.done a, t)) : post a t := by
  cases h.leads hleads with
  | done h => exact h

/-- Where work ends it has been led to. -/
theorem Ends.reached (h : w.Ends R post s) :
    w.Ends R (fun a t => post a t ∧ Leads R (w, s) (.done a, t)) s := by
  induction h with
  | done h => exact .done ⟨h, .refl⟩
  | ask hanswer _ ih =>
    refine .ask hanswer fun b t hb => (ih b t hb).mono fun a u hu => ?_
    exact ⟨hu.1, .head (.answer hb) hu.2⟩
  | loop _ ih => exact .loop (ih.mono fun a u hu => ⟨hu.1, .head .round hu.2⟩)

/-- Work that ends in two ways ends in both at once, somewhere. -/
theorem Ends.meet (h : w.Ends R post s) (h' : w.Ends R wider s) : ∃ a t, post a t ∧ wider a t := by
  induction h with
  | done h =>
    cases h' with
    | done h' => exact ⟨_, _, h, h'⟩
  | ask hanswer _ ih =>
    obtain ⟨b, t, hb⟩ := hanswer
    cases h' with
    | ask _ h' => exact ih b t hb (h' b t hb)
  | loop _ ih =>
    cases h' with
    | loop h' => exact ih h'

end

theorem Ends.andThen {w : Work Q α} {f : α → Work Q β} {post : β → S → Prop}
    (h : w.Ends R (fun a t => (f a).Ends R post t) s) : (w >>= f).Ends R post s := h.bind

theorem Ends.map {w : Work Q α} {f : α → β} {post : β → S → Prop} (h : w.Ends R (fun a t => post (f a) t) s) :
    (f <$> w).Ends R post s := Ends.bind (h.mono fun _ _ hpost => .done hpost)

/-- A loop ends if one round leads to its end or to a loop that ends. -/
theorem ends_iterate {σ : Type} {body : σ → Work Q (σ ⊕ β)} {x : σ} {post : β → S → Prop}
    (h : (body x).Ends R (fun r t =>
      match r with
      | .inl y => (iterate body y).Ends R post t
      | .inr b => post b t) s) : (iterate body x).Ends R post s := by
  refine .loop (Ends.bind (h.mono fun r t hr => ?_))
  cases r with
  | inl y => exact hr
  | inr b => exact .done hr

section

variable {w : ExceptT ε (Work Q) α} {f : α → ExceptT ε (Work Q) β}

theorem Ends.orFail {post : Except ε β → S → Prop} (h : w.run.Ends R (fun r t =>
      match r with
      | .ok a => (f a).run.Ends R post t
      | .error e => post (.error e) t) s) : (w >>= f).run.Ends R post s := by
  rw [ExceptT.run_bind]
  refine Ends.bind (h.mono fun r t hr => ?_)
  cases r with
  | ok a => exact hr
  | error e => exact .done hr

theorem Ends.orElse {handler : ε → ExceptT ε (Work Q) α} {post : Except ε α → S → Prop}
    (h : w.run.Ends R (fun r t =>
      match r with
      | .ok a => post (.ok a) t
      | .error e => (handler e).run.Ends R post t) s) : (tryCatch w handler).run.Ends R post s := by
  refine Ends.bind (h.mono fun r t hr => ?_)
  cases r with
  | ok a => exact .done hr
  | error e => exact hr

/-- The same for a loop that may fail. -/
theorem Ends.iterateOrFail {σ : Type} {body : σ → ExceptT ε (Work Q) (σ ⊕ β)} {x : σ}
    {post : Except ε β → S → Prop} (h : (body x).run.Ends R (fun r t =>
      match r with
      | .ok (.inl y) => (iterateOrFail body y).run.Ends R post t
      | .ok (.inr b) => post (.ok b) t
      | .error e => post (.error e) t) s) : (Work.iterateOrFail body x).run.Ends R post s := by
  refine ends_iterate (Ends.andThen (h.mono fun r t hr => ?_))
  match r with
  | .ok (.inl y) => exact .done hr
  | .ok (.inr b) => exact .done hr
  | .error e => exact .done hr

/-- A loop ends if each round keeps an invariant and makes something smaller. -/
theorem ends_iterateOrFail {σ : Type} {body : σ → ExceptT ε (Work Q) (σ ⊕ β)} {x : σ}
    {post : Except ε β → S → Prop} (inv : σ → S → Prop) (size : σ → S → Nat) (hx : inv x s)
    (hbody : ∀ y t, inv y t → (body y).run.Ends R (fun r u =>
      match r with
      | .ok (.inl z) => inv z u ∧ size z u < size y t
      | .ok (.inr b) => post (.ok b) u
      | .error e => post (.error e) u) t) : (iterateOrFail body x).run.Ends R post s := by
  -- On the size, since the round that comes next is not a part of the loop as it is written.
  induction hn : size x s using Nat.strongRecOn generalizing x s with
  | ind n ih =>
    refine Ends.iterateOrFail ((hbody x s hx).mono fun r t hr => ?_)
    match r with
    | .ok (.inl y) => exact ih (size y t) (hn ▸ hr.2) hr.1 rfl
    | .ok (.inr b) => exact hr
    | .error e => exact hr

end

/-- The work does nothing again and again. -/
def Straight : {α : Type} → Work Q α → Prop
  | _, done _ => True
  | _, ask _ next => ∀ b, Straight (next b)
  | _, loop .. => False

theorem Straight.andThen {w : Work Q α} {f : α → Work Q β} (h : w.Straight) (hf : ∀ a, (f a).Straight) :
    (w >>= f).Straight := by
  change (w.bind f).Straight
  induction w with
  | done a => exact hf a
  | ask q next ih => exact fun b => ih b (h b) hf
  | loop => exact h.elim

theorem Straight.orFail {w : ExceptT ε (Work Q) α} {f : α → ExceptT ε (Work Q) β} (h : w.run.Straight)
    (hf : ∀ a, (f a).run.Straight) : (w >>= f).run.Straight := by
  rw [ExceptT.run_bind]
  refine h.andThen fun r => ?_
  cases r with
  | ok a => exact hf a
  | error e => exact trivial

theorem Straight.via {Q' : Type → Type 1} {w : Work Q α} (f : {β : Type} → Q β → Q' β) (h : w.Straight) :
    (w.via f).Straight := by
  induction w with
  | done a => exact trivial
  | ask q next ih => exact fun b => ih b (h b)
  | loop => exact h.elim

/-- Such work ends if every question of its kind has an answer. -/
theorem Straight.ends {p : {β : Type} → Q β → Prop} {w : Work Q α} (J : S → Prop)
    (hanswer : ∀ {β : Type} {q : Q β} {s}, J s → p q → ∃ b t, R.Answers s q b t)
    (hkeeps : ∀ {β : Type} {q : Q β} {s b t}, J s → p q → R.Answers s q b t → J t)
    (h : w.Straight) (hasks : w.Asks p) (hs : J s) : w.Ends R (fun _ t => J t) s := by
  induction w generalizing s with
  | done a => exact .done hs
  | ask q next ih =>
    exact .ask (hanswer hs hasks.1) fun b t hb => ih b (h b) (hasks.2 b) (hkeeps hs hasks.1 hb)
  | loop => exact h.elim

end BoltClient.Work
