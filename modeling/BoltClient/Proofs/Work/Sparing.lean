import BoltClient.Proofs.Work.Passage

namespace BoltClient

variable {Q : Type → Type 1} {S : Type}

theorem bind_ne_error {ε α β : Type} {e : ε} {w : Except ε α} {f : α → Except ε β} (h : w ≠ .error e)
    (hf : ∀ a, f a ≠ .error e) : (w >>= f) ≠ .error e := by
  cases w with
  | ok a => exact hf a
  | error other => exact fun heq => h (congrArg _ (Except.error.inj heq))

/-- The same surroundings, where everything may be asked. -/
def Surroundings.lenient (R : Surroundings Q S) : Surroundings Q S where
  Answers s q b t := R.Answers s q b t
  Allows _ _ := True

namespace Work

variable {R : Surroundings Q S} {α β ε : Type} {s t : S}

theorem Runs.lenient {w : Work Q α} {a : α} (h : Runs R w s a t) : Runs R.lenient w s a t := by
  have hanswer {β : Type} {s t : S} {q : Q β} {b : β} (hb : R.Answers s q b t) :
      R.lenient.Answers (id s) q b (id t) := hb
  exact h.seen id hanswer

/-- What comes of every run can be shown along the work. -/
theorem safe_of_runs {w : Work Q α} {post : α → S → Prop} (h : ∀ a t, Runs R w s a t → post a t) :
    w.Safe R.lenient s post := by
  induction w generalizing s with
  | done a => exact h a s .refl
  | ask q next ih => exact ⟨trivial, fun b u hb => ih b fun a t hrun => h a t (.head (.answer hb) hrun)⟩
  | @loop _ _ σ body x next ihbody ihnext =>
    -- The invariant of the loop is that this is how far the loop has come.
    refine ⟨fun y u => Leads R (loop body x next, s) (loop body y next, u), .refl, fun y u hy => ?_⟩
    have hbegun := hy.tail .round
    rw [round_eq] at hbegun
    have hround {r : σ ⊕ _} {v : S} (hrun : Runs R (body y) u r v) := hbegun.trans (Leads.bind hrun _)
    refine ihbody y fun r v hrun => ?_
    cases r with
    | inl z => exact hround hrun
    | inr b => exact ihnext b fun a t hrest => h a t ((hround hrun).trans hrest)

/-- Wherever it begins, the work does not fail with an error. -/
def Sparing (R : Surroundings Q S) (e : ε) (w : ExceptT ε (Work Q) α) : Prop :=
  ∀ s, w.run.Safe R s fun r _ => r ≠ .error e

variable {e : ε} {w : ExceptT ε (Work Q) α}

theorem sparing_ok (a : α) : Sparing R e (pure a : ExceptT ε (Work Q) α) := fun _ => nofun

theorem sparing_throw {other : ε} (h : other ≠ e) : Sparing R e (throw other : ExceptT ε (Work Q) α) := by
  intro s heq
  exact h (Except.error.inj heq)

theorem sparing_of_eq {r : Except ε α} (h : r ≠ .error e) :
    Sparing R e (ExceptT.mk (pure r) : ExceptT ε (Work Q) α) := fun _ => h

theorem Sparing.orFail {f : α → ExceptT ε (Work Q) β} (h : Sparing R e w) (hf : ∀ a, Sparing R e (f a)) :
    Sparing R e (w >>= f) := by
  refine fun s => Safe.orFail ((h s).mono fun r t hr => ?_)
  cases r with
  | ok a => exact hf a t
  | error other => exact fun heq => hr (congrArg _ (Except.error.inj heq))

theorem Sparing.orElse {handler : ε → ExceptT ε (Work Q) α} (h : Sparing R e w)
    (hhandler : ∀ other, other ≠ e → Sparing R e (handler other)) : Sparing R e (tryCatch w handler) := by
  refine fun s => Safe.orElse ((h s).mono fun r t hr => ?_)
  cases r with
  | ok a => exact hr
  | error other => exact hhandler other (fun heq => hr (congrArg _ heq)) t

theorem sparing_iterateOrFail {σ : Type} {body : σ → ExceptT ε (Work Q) (σ ⊕ β)} (x : σ)
    (h : ∀ y, Sparing R e (body y)) : Sparing R e (iterateOrFail body x) := by
  refine fun s => safe_iterateOrFail (fun _ _ => True) trivial fun y t _ => ((h y) t).mono fun r u hr => ?_
  match r with
  | .ok (.inl z) => exact trivial
  | .ok (.inr b) => exact nofun
  | .error other => exact fun heq => hr (congrArg _ (Except.error.inj heq))

/-- Work that cannot fail fails with no error. -/
theorem sparing_lift (hallows : ∀ {γ : Type} (s : S) (q : Q γ), R.Allows s q) (w : Work Q α) :
    Sparing R e (ExceptT.lift w) :=
  fun _ => Safe.map ((safe_of_allows hallows w).mono fun _ _ _ => nofun)

end Work
end BoltClient
