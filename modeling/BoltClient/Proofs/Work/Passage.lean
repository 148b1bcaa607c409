import BoltClient.Proofs.Work.Safety

namespace BoltClient.Work

variable {Q : Type → Type 1} {S α β γ ε : Type} {R : Surroundings Q S} {s t u v : S}

/-- The work can be done from beginning to end, with a result. -/
def Runs (R : Surroundings Q S) (w : Work Q α) (s : S) (a : α) (t : S) : Prop := Leads R (w, s) (.done a, t)

/-- On the way from one point to another some work is done from beginning to end. -/
def Passes (R : Surroundings Q S) (x y : Work Q α × S) (w : Work Q β) (s : S) (b : β) (t : S) : Prop :=
  ∃ f : β → Work Q α, Leads R x (w.bind f, s) ∧ Runs R w s b t ∧ Leads R (f b, t) y

section

variable {w : Work Q α} {f : α → Work Q β} {a : α} {b : β}

theorem Runs.of_done {a' : α} (h : Runs R (.done a) s a' t) : a' = a ∧ t = s := by
  cases Relation.ReflTransGen.cases_head h with
  | inl heq =>
    cases heq
    exact ⟨rfl, rfl⟩
  | inr hmore =>
    obtain ⟨_, hstep, _⟩ := hmore
    cases hstep

theorem Runs.of_ask {q : Q γ} {next : γ → Work Q α} (h : Runs R (.ask q next) s a t) :
    ∃ c u, R.Answers s q c u ∧ Runs R (next c) u a t := by
  obtain ⟨_, hstep, hrest⟩ := (Relation.ReflTransGen.cases_head h).resolve_left nofun
  cases hstep with
  | answer hc => exact ⟨_, _, hc, hrest⟩

theorem Runs.of_query {q : Q α} (h : Runs R (query q) s a t) : R.Answers s q a t := by
  obtain ⟨b, u, hb, hdone⟩ := h.of_ask
  obtain ⟨rfl, rfl⟩ := hdone.of_done
  exact hb

/-- What is done first has come to an end where the rest begins. -/
theorem Runs.of_bind (h : Runs R (w.bind f) s b t) : ∃ a u, Runs R w s a u ∧ Runs R (f a) u b t := by
  have hsplit : ∀ x, Leads R x (.done b, t) → ∀ (w : Work Q α) (s : S), x = (w.bind f, s) →
      ∃ a u, Runs R w s a u ∧ Runs R (f a) u b t := by
    intro x hx
    -- From the front, since it is the first step that shows which part of the work is under way.
    induction hx using Relation.ReflTransGen.head_induction_on with
    | refl =>
      intro w s heq
      cases w with
      | done a =>
        obtain ⟨hdone, rfl⟩ : .done b = f a ∧ t = s := Prod.mk.inj heq
        exact ⟨a, t, .refl, hdone ▸ .refl⟩
      | ask | loop => cases heq
    | head hstep hrest ih =>
      rintro w s rfl
      cases w with
      | done a => exact ⟨a, s, .refl, .head hstep hrest⟩
      | ask q next =>
        cases hstep with
        | answer hc =>
          obtain ⟨a, u, hfirst, hsecond⟩ := ih _ _ rfl
          exact ⟨a, u, .head (.answer hc) hfirst, hsecond⟩
      | loop body y next =>
        cases hstep with
        | round =>
          obtain ⟨a, u, hfirst, hsecond⟩ := ih (round body y next) s (by rw [round_bind])
          exact ⟨a, u, .head .round hfirst, hsecond⟩
  exact hsplit _ h w s rfl

theorem Runs.bind (h : Runs R w s a u) (h' : Runs R (f a) u b t) : Runs R (w.bind f) s b t :=
  (Leads.bind h f).trans h'

/-- Whoever sees less of the surroundings sees the same steps. -/
theorem Runs.seen {S' : Type} {R' : Surroundings Q S'} (see : S → S')
    (hsee : ∀ {β : Type} {s t : S} {q : Q β} {b : β}, R.Answers s q b t → R'.Answers (see s) q b (see t))
    (h : Runs R w s a t) : Runs R' w (see s) a (see t) := by
  refine h.lift (fun x : Work Q α × S => (x.1, see x.2)) fun x y hstep => ?_
  cases hstep with
  | answer hb => exact .answer (hsee hb)
  | round => exact .round

theorem Safe.of_runs {post : α → S → Prop} (h : w.Safe R s post) (hrun : Runs R w s a t) : post a t :=
  h.leads hrun

end

section

variable {w : ExceptT ε (Work Q) α} {f : α → ExceptT ε (Work Q) β} {a : α}

theorem Runs.of_orFail {r : Except ε β} (h : Runs R (w >>= f).run s r t) :
    (∃ a u, Runs R w.run s (.ok a) u ∧ Runs R (f a).run u r t) ∨
      ∃ e, r = .error e ∧ Runs R w.run s (.error e) t := by
  rw [ExceptT.run_bind] at h
  obtain ⟨a | a, u, hfirst, hrest⟩ := h.of_bind
  · obtain ⟨rfl, rfl⟩ := hrest.of_done
    exact .inr ⟨a, rfl, hfirst⟩
  · exact .inl ⟨a, u, hfirst, hrest⟩

theorem Runs.of_orElse {handler : ε → ExceptT ε (Work Q) α} {r : Except ε α}
    (h : Runs R (tryCatch w handler).run s r t) : (∃ a, r = .ok a ∧ Runs R w.run s (.ok a) t) ∨
      ∃ e u, Runs R w.run s (.error e) u ∧ Runs R (handler e).run u r t := by
  obtain ⟨a | a, u, hfirst, hrest⟩ := Runs.of_bind h
  · exact .inr ⟨a, u, hfirst, hrest⟩
  · obtain ⟨rfl, rfl⟩ := hrest.of_done
    exact .inl ⟨a, rfl, hfirst⟩

/-- Work that cannot fail, and what comes after it. -/
theorem Runs.of_lift {w : Work Q α} {f : α → ExceptT ε (Work Q) β} {r : Except ε β}
    (h : Runs R (ExceptT.lift w >>= f).run s r t) : ∃ a u, Runs R w s a u ∧ Runs R (f a).run u r t := by
  rcases h.of_orFail with ⟨a, u, hlift, hrest⟩ | ⟨e, _, hlift⟩
  · obtain ⟨b, v, hfirst, hdone⟩ := Runs.of_bind hlift
    obtain ⟨heq, rfl⟩ := hdone.of_done
    cases heq
    exact ⟨a, u, hfirst, hrest⟩
  · obtain ⟨_, _, _, hdone⟩ := Runs.of_bind hlift
    cases hdone.of_done.1

end

section

variable {w : Work Q β} {f : β → Work Q α} {x y z : Work Q α × S} {b : β}

theorem Passes.leads (h : Passes R x y w s b t) : Leads R x y := by
  obtain ⟨f, hthere, hrun, hrest⟩ := h
  exact hthere.trans ((Leads.bind hrun f).trans hrest)

theorem Passes.runs (h : Passes R x y w s b t) : Runs R w s b t := by
  obtain ⟨_, _, hrun, _⟩ := h
  exact hrun

theorem Passes.after (h : Passes R y z w s b t) (hbefore : Leads R x y) : Passes R x z w s b t := by
  obtain ⟨f, hthere, hrun, hrest⟩ := h
  exact ⟨f, hbefore.trans hthere, hrun, hrest⟩

theorem Passes.first (h : Runs R w s b t) (hrest : Leads R (f b, t) y) : Passes R (w.bind f, s) y w s b t :=
  ⟨f, .refl, h, hrest⟩

theorem Passes.whole (h : Runs R w s b t) : Passes R (w, s) (.done b, t) w s b t := by
  refine ⟨.done, ?_, h, .refl⟩
  rw [bind_done]
  exact .refl

/-- What is done in the course of a part is done in the course of the whole. -/
theorem Passes.nest {part : Work Q γ} {c : γ} (h : Passes R x y w s b t)
    (hpart : Passes R (w, s) (.done b, t) part u c v) : Passes R x y part u c v := by
  obtain ⟨f, hthere, _, hrest⟩ := h
  obtain ⟨g, hbefore, hrun, hafter⟩ := hpart
  refine ⟨fun c => (g c).bind f, hthere.trans ?_, hrun, (hafter.bind f).trans hrest⟩
  have hwithin := hbefore.bind f
  rwa [bind_assoc] at hwithin

theorem Passes.within {part : Work Q γ} {c : γ} (h : Passes R (w, s) (.done b, t) part u c v)
    (hrest : Leads R (f b, t) y) : Passes R (w.bind f, s) y part u c v := (Passes.first h.leads hrest).nest h

end

section

variable {w : ExceptT ε (Work Q) α} {f : α → ExceptT ε (Work Q) β} {a : α} {r : Except ε β} {part : Work Q γ}
  {c : γ}

theorem Passes.inFirst (h : Passes R (w.run, s) (.done (.ok a), t) part u c v)
    {t' : S} (hrest : Runs R (f a).run t r t') : Passes R ((w >>= f).run, s) (.done r, t') part u c v := by
  have hwithin := h.within (f := ExceptT.bindCont f) hrest
  exact hwithin

theorem Passes.inTry {handler : ε → ExceptT ε (Work Q) α} (h : Runs R w.run s (.ok a) t) :
    Passes R ((tryCatch w handler).run, s) (.done (.ok a), t) w.run s (.ok a) t := .first h .refl

theorem Passes.inRest (hfirst : Runs R w.run s (.ok a) t) {t' : S}
    (h : Passes R ((f a).run, t) (.done r, t') part u c v) :
    Passes R ((w >>= f).run, s) (.done r, t') part u c v := by
  have hbefore := Leads.bind hfirst (ExceptT.bindCont f)
  exact h.after hbefore

end

section

variable {w : Work Q α} {f : α → ExceptT ε (Work Q) β} {a : α} {r : Except ε β} {part : Work Q γ} {c : γ}

theorem Runs.lift (h : Runs R w s a t) : Runs R (ExceptT.lift w : ExceptT ε (Work Q) α).run s (.ok a) t :=
  h.bind .refl

theorem Passes.inLifted (h : Passes R (w, s) (.done a, t) part u c v) {t' : S}
    (hrest : Runs R (f a).run t r t') :
    Passes R ((ExceptT.lift w >>= f).run, s) (.done r, t') part u c v := by
  have hlift : Passes R ((ExceptT.lift w : ExceptT ε (Work Q) α).run, s) (.done (.ok a), t) part u c v :=
    h.within .refl
  exact hlift.inFirst hrest

theorem Passes.lifted (h : Runs R w s a t) {t' : S} (hrest : Runs R (f a).run t r t') :
    Passes R ((ExceptT.lift w >>= f).run, s) (.done r, t') w s a t :=
  .inLifted (.whole h) hrest

theorem Passes.inRestLifted (hfirst : Runs R w s a t) {t' : S}
    (h : Passes R ((f a).run, t) (.done r, t') part u c v) :
    Passes R ((ExceptT.lift w >>= f).run, s) (.done r, t') part u c v := .inRest hfirst.lift h

end

theorem round_eq {σ : Type} (body : σ → Work Q (σ ⊕ β)) (x : σ) (next : β → Work Q α) :
    round body x next = (body x).bind (Sum.elim (fun y => loop body y next) next) := by
  refine congrArg (body x).bind (funext fun r => ?_)
  cases r <;> rfl

/-- What the last round of a loop comes to, and what each earlier one takes from the rest, the whole loop comes to. -/
theorem Runs.rounds {σ : Type} {body : σ → Work Q (σ ⊕ β)} {x : σ} {b : β} {motive : σ → S → Prop}
    (h : Runs R (iterate body x) s b t) (hlast : ∀ y u, Runs R (body y) u (.inr b) t → motive y u)
    (hmore : ∀ y z u v, Runs R (body y) u (.inl z) v → motive z v → motive y u) : motive x s := by
  have hloop : ∀ y u, Runs R (body y) u (.inr b) t ∨ (∃ z v, Runs R (body y) u (.inl z) v ∧ motive z v) →
      motive y u := fun y u hround => hround.elim (hlast y u) fun ⟨z, v, hrun, hrest⟩ => hmore y z u v hrun hrest
  have hround : ∀ p, Leads R p (.done b, t) → ∀ (w : Work Q (σ ⊕ β)) (u : S),
      p = (w.bind (Sum.elim (fun y => loop body y done) done), u) →
      Runs R w u (.inr b) t ∨ ∃ z v, Runs R w u (.inl z) v ∧ motive z v := by
    intro p hp
    -- From the front: whatever is left of one round is followed by a loop of fewer steps.
    induction hp using Relation.ReflTransGen.head_induction_on with
    | refl =>
      intro w u heq
      cases w with
      | done r =>
        cases r with
        | inl y => cases heq
        | inr c =>
          obtain ⟨hc, rfl⟩ := Prod.mk.inj heq
          cases hc
          exact .inl .refl
      | ask | loop => cases heq
    | head hstep hrest ih =>
      rintro w u rfl
      cases w with
      | done r =>
        cases r with
        | inr c => cases hstep
        | inl y =>
          cases hstep with
          | round => exact .inr ⟨y, u, .refl, hloop y u (ih (body y) u (by rw [round_eq]))⟩
      | ask q next =>
        cases hstep with
        | answer hc =>
          refine (ih _ _ rfl).imp (fun hrun => .head (.answer hc) hrun) ?_
          rintro ⟨z, v, hrun, hz⟩
          exact ⟨z, v, .head (.answer hc) hrun, hz⟩
      | loop inner y next =>
        cases hstep with
        | round =>
          refine (ih (Work.round inner y next) u (by rw [round_bind])).imp (fun hrun => .head .round hrun) ?_
          rintro ⟨z, v, hrun, hz⟩
          exact ⟨z, v, .head .round hrun, hz⟩
  obtain ⟨_, hstep, hrest⟩ := (Relation.ReflTransGen.cases_head h).resolve_left nofun
  cases hstep with
  | round => exact hloop x s (hround _ hrest (body x) s (by rw [round_eq]))

/-- The same for a loop that may fail: its last round gives the result or fails. -/
theorem Runs.roundsOrFail {σ : Type} {body : σ → ExceptT ε (Work Q) (σ ⊕ β)} {x : σ} {r : Except ε β}
    {motive : σ → S → Prop} (h : Runs R (iterateOrFail body x).run s r t)
    (hlast : ∀ y u, Runs R (body y).run u (r.map .inr) t → motive y u)
    (hmore : ∀ y z u v, Runs R (body y).run u (.ok (.inl z)) v → motive z v → motive y u) : motive x s := by
  refine Runs.rounds h (fun y u hround => ?_) fun y z u v hround hz => ?_
  · obtain ⟨outcome, v, hrun, hend⟩ := hround.of_bind
    match outcome with
    | .ok (.inl z) => cases hend.of_done.1
    | .ok (.inr b) =>
      obtain ⟨heq, rfl⟩ := hend.of_done
      cases heq
      exact hlast y u hrun
    | .error e =>
      obtain ⟨heq, rfl⟩ := hend.of_done
      cases heq
      exact hlast y u hrun
  · obtain ⟨outcome, w, hrun, hend⟩ := hround.of_bind
    match outcome with
    | .ok (.inl z') =>
      obtain ⟨heq, rfl⟩ := hend.of_done
      cases heq
      exact hmore y z u v hrun hz
    | .ok (.inr b) => cases hend.of_done.1
    | .error e => cases hend.of_done.1

end BoltClient.Work
