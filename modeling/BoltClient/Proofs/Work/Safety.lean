import BoltClient.Work
import Mathlib.Logic.Relation

/-!
Work among surroundings that may answer in many ways. Work is safe if every question it can come to is
allowed where it is asked, whatever the answers were, and its result is as wanted. Safety is shown along
the work itself, with an invariant for each loop, and stays with every step.
-/

namespace BoltClient

/-- How surroundings with a state can answer questions. -/
structure Surroundings (Q : Type → Type 1) (S : Type) where
  /-- In a state a question can have this answer, and then that is the state. -/
  Answers {β : Type} : S → Q β → β → S → Prop
  /-- In a state a question is allowed. -/
  Allows {β : Type} : S → Q β → Prop

namespace Work

variable {Q : Type → Type 1} {S α β γ ε : Type} {R : Surroundings Q S} {s t : S}

inductive Step (R : Surroundings Q S) : Work Q α × S → Work Q α × S → Prop where
  | answer {β : Type} {q : Q β} {next : β → Work Q α} {b : β} {s t : S} (h : R.Answers s q b t) :
      Step R (ask q next, s) (next b, t)
  | round {β σ : Type} {body : σ → Work Q (σ ⊕ β)} {x : σ} {next : β → Work Q α} {s : S} :
      Step R (loop body x next, s) (round body x next, s)

/-- Every question is allowed when it is asked, and the result is as wanted. -/
def Safe (R : Surroundings Q S) : {α : Type} → Work Q α → S → (α → S → Prop) → Prop
  | _, done a, s, post => post a s
  | _, ask q next, s, post => R.Allows s q ∧ ∀ b t, R.Answers s q b t → Safe R (next b) t post
  | _, @loop _ _ β σ body x next, s, post => ∃ inv : σ → S → Prop, inv x s ∧
      ∀ y t, inv y t → Safe R (body y) t fun (r : σ ⊕ β) u =>
        match r with
        | .inl z => inv z u
        | .inr b => Safe R (next b) u post

theorem Safe.mono {w : Work Q α} {post wider : α → S → Prop} (h : w.Safe R s post)
    (hwider : ∀ a t, post a t → wider a t) : w.Safe R s wider := by
  induction w generalizing s with
  | done a => exact hwider a s h
  | ask q next ih => exact ⟨h.1, fun b t hb => ih b (h.2 b t hb) hwider⟩
  | loop body x next ihbody ihnext =>
    obtain ⟨inv, hx, hbody⟩ := h
    refine ⟨inv, hx, fun y t hy => ihbody y (hbody y t hy) fun r u hr => ?_⟩
    cases r with
    | inl z => exact hr
    | inr b => exact ihnext b hr hwider

theorem Safe.bind {w : Work Q α} {f : α → Work Q β} {post : β → S → Prop}
    (h : w.Safe R s fun a t => (f a).Safe R t post) : (w.bind f).Safe R s post := by
  induction w generalizing s with
  | done a => exact h
  | ask q next ih => exact ⟨h.1, fun b t hb => ih b (h.2 b t hb)⟩
  | loop body x next _ ih =>
    obtain ⟨inv, hx, hbody⟩ := h
    refine ⟨inv, hx, fun y t hy => (hbody y t hy).mono fun r u hr => ?_⟩
    cases r with
    | inl z => exact hr
    | inr b => exact ih b hr

/-- A loop that is safe is safe after each round. -/
theorem Safe.round {σ : Type} {body : σ → Work Q (σ ⊕ β)} {x : σ} {next : β → Work Q α}
    {post : α → S → Prop} (h : (loop body x next).Safe R s post) :
    (Work.round body x next).Safe R s post := by
  obtain ⟨inv, hx, hbody⟩ := h
  refine Safe.bind ((hbody x s hx).mono fun r u hr => ?_)
  cases r with
  | inl z => exact ⟨inv, hr, hbody⟩
  | inr b => exact hr

/-- What is safe for two reasons is safe for both, also where the surroundings answer less than those of the
second. -/
theorem Safe.both {w : Work Q α} {R' : Surroundings Q S} {post post' : α → S → Prop}
    (h : w.Safe R s post) (h' : w.Safe R' s post')
    (hanswers : ∀ {β : Type} {s t : S} {q : Q β} {b : β}, R.Answers s q b t → R'.Answers s q b t) :
    w.Safe R s fun a t => post a t ∧ post' a t := by
  induction w generalizing s with
  | done a => exact ⟨h, h'⟩
  | ask q next ih => exact ⟨h.1, fun b t hb => ih b (h.2 b t hb) (h'.2 b t (hanswers hb))⟩
  | loop body x next ihbody ihnext =>
    obtain ⟨inv, hx, hbody⟩ := h
    obtain ⟨inv', hx', hbody'⟩ := h'
    refine ⟨fun y t => inv y t ∧ inv' y t, ⟨hx, hx'⟩, fun y t hy => ?_⟩
    refine (ihbody y (hbody y t hy.1) (hbody' y t hy.2)).mono fun r u hr => ?_
    cases r with
    | inl z => exact hr
    | inr b => exact ihnext b hr.1 hr.2

theorem Safe.step {w w' : Work Q α} {post : α → S → Prop} (h : w.Safe R s post)
    (hstep : Step R (w, s) (w', t)) : w'.Safe R t post := by
  cases hstep with
  | answer hb => exact h.2 _ _ hb
  | round => exact h.round

def Leads (R : Surroundings Q S) : Work Q α × S → Work Q α × S → Prop := Relation.ReflTransGen (Step R)

theorem Safe.leads {w w' : Work Q α} {post : α → S → Prop} (h : w.Safe R s post)
    (hleads : Leads R (w, s) (w', t)) : w'.Safe R t post := by
  have hsafe : ∀ x, Leads R (w, s) x → x.1.Safe R x.2 post := by
    intro x hx
    induction hx with
    | refl => exact h
    | tail _ hstep ih => exact ih.step hstep
  exact hsafe _ hleads

theorem round_bind {σ : Type} (body : σ → Work Q (σ ⊕ γ)) (x : σ) (next : γ → Work Q α)
    (f : α → Work Q β) : (round body x next).bind f = round body x fun b => (next b).bind f := by
  unfold Work.round
  rw [bind_assoc]
  congr 1
  funext r
  cases r <;> rfl

theorem via_bind {Q' : Type → Type 1} (f : {β : Type} → Q β → Q' β) (w : Work Q α) (g : α → Work Q β) :
    (w.bind g).via f = (w.via f).bind fun a => (g a).via f := by
  induction w with
  | done a => rfl
  | ask q next ih => exact congrArg _ (funext fun b => ih b g)
  | loop body x next _ ih => exact congrArg _ (funext fun b => ih b g)

theorem round_via {Q' : Type → Type 1} {σ : Type} (f : {β : Type} → Q β → Q' β) (body : σ → Work Q (σ ⊕ β))
    (x : σ) (next : β → Work Q α) :
    (round body x next).via f = round (fun y => (body y).via f) x fun b => (next b).via f := by
  unfold Work.round
  rw [via_bind]
  congr 1
  funext r
  cases r <;> rfl

theorem Step.bind {x y : Work Q α × S} (h : Step R x y) (f : α → Work Q β) :
    Step R (x.1.bind f, x.2) (y.1.bind f, y.2) := by
  cases h with
  | answer hb => exact .answer hb
  | @round _ _ body x next s =>
    rw [round_bind]
    exact .round

/-- Work that comes first goes on as it does alone. -/
theorem Leads.bind {w w' : Work Q α} (h : Leads R (w, s) (w', t)) (f : α → Work Q β) :
    Leads R (w.bind f, s) (w'.bind f, t) :=
  have hsteps := h.lift (fun x : Work Q α × S => (x.1.bind f, x.2)) fun _ _ hstep => hstep.bind f
  hsteps

/-- One more round of a loop. -/
theorem Leads.again {σ : Type} {body : σ → ExceptT ε (Work Q) (σ ⊕ β)} {x y : σ}
    (h : Leads R ((body x).run, s) (.done (.ok (.inl y)), t)) :
    Leads R ((iterateOrFail body x).run, s) ((iterateOrFail body y).run, t) :=
  .head .round ((h.bind _).bind _)

/-- The last round of a loop. -/
theorem Leads.last {σ : Type} {body : σ → ExceptT ε (Work Q) (σ ⊕ β)} {x : σ} {b : β}
    (h : Leads R ((body x).run, s) (.done (.ok (.inr b)), t)) :
    Leads R ((iterateOrFail body x).run, s) (.done (.ok b), t) :=
  .head .round ((h.bind _).bind _)

theorem Safe.andThen {w : Work Q α} {f : α → Work Q β} {post : β → S → Prop}
    (h : w.Safe R s fun a t => (f a).Safe R t post) : (w >>= f).Safe R s post := h.bind

theorem Safe.map {w : Work Q α} {f : α → β} {post : β → S → Prop}
    (h : w.Safe R s fun a t => post (f a) t) : (f <$> w).Safe R s post := h.bind

theorem safe_iterate {σ : Type} {body : σ → Work Q (σ ⊕ β)} {x : σ} {post : β → S → Prop}
    (inv : σ → S → Prop) (hx : inv x s)
    (hbody : ∀ y t, inv y t → (body y).Safe R t fun r u =>
      match r with
      | .inl z => inv z u
      | .inr b => post b u) : (iterate body x).Safe R s post := ⟨inv, hx, hbody⟩

section

variable {w : ExceptT ε (Work Q) α} {f : α → ExceptT ε (Work Q) β}

theorem safe_ok {a : α} {post : Except ε α → S → Prop} (h : post (.ok a) s) :
    (pure a : ExceptT ε (Work Q) α).run.Safe R s post := h

theorem safe_throw {e : ε} {post : Except ε α → S → Prop} (h : post (.error e) s) :
    (throw e : ExceptT ε (Work Q) α).run.Safe R s post := h

/-- After work that may fail comes other work, unless it fails. -/
theorem Safe.orFail {post : Except ε β → S → Prop} (h : w.run.Safe R s fun r t =>
      match r with
      | .ok a => (f a).run.Safe R t post
      | .error e => post (.error e) t) : (w >>= f).run.Safe R s post := by
  rw [ExceptT.run_bind]
  refine Safe.bind (h.mono fun r t hr => ?_)
  cases r with
  | ok a => exact hr
  | error e => exact hr

theorem Safe.orElse {handler : ε → ExceptT ε (Work Q) α} {post : Except ε α → S → Prop}
    (h : w.run.Safe R s fun r t =>
      match r with
      | .ok a => post (.ok a) t
      | .error e => (handler e).run.Safe R t post) : (tryCatch w handler).run.Safe R s post := by
  refine Safe.bind (h.mono fun r t hr => ?_)
  cases r with
  | ok a => exact hr
  | error e => exact hr

theorem safe_iterateOrFail {σ : Type} {body : σ → ExceptT ε (Work Q) (σ ⊕ β)} {x : σ}
    {post : Except ε β → S → Prop} (inv : σ → S → Prop) (hx : inv x s)
    (hbody : ∀ y t, inv y t → (body y).run.Safe R t fun r u =>
      match r with
      | .ok (.inl z) => inv z u
      | .ok (.inr b) => post (.ok b) u
      | .error e => post (.error e) u) : (iterateOrFail body x).run.Safe R s post := by
  refine safe_iterate inv hx fun y t hy => Safe.andThen ((hbody y t hy).mono fun r u hr => ?_)
  match r with
  | .ok (.inl z) => exact hr
  | .ok (.inr b) => exact hr
  | .error e => exact hr

end

/-- Among surroundings that allow everything, all work is safe. -/
theorem safe_of_allows (h : ∀ {β : Type} (s : S) (q : Q β), R.Allows s q) (w : Work Q α) :
    w.Safe R s fun _ _ => True := by
  induction w generalizing s with
  | done a => exact trivial
  | ask q next ih => exact ⟨h s q, fun b _ _ => ih b⟩
  | loop body x next ihbody ihnext =>
    refine ⟨fun _ _ => True, trivial, fun y _ _ => (ihbody y).mono fun r _ _ => ?_⟩
    cases r with
    | inl z => exact trivial
    | inr b => exact ihnext b

/-- Every question of the work has a property, whatever the answers are. -/
def Asks (p : {β : Type} → Q β → Prop) : {α : Type} → Work Q α → Prop
  | _, done _ => True
  | _, ask q next => p q ∧ ∀ b, Asks p (next b)
  | _, loop body _ next => (∀ x, Asks p (body x)) ∧ ∀ b, Asks p (next b)

section

variable {p : {β : Type} → Q β → Prop} {w : Work Q α}

/-- What the surroundings keep under questions of a kind, work of this kind keeps. -/
theorem Asks.safe (J : S → Prop) (hallows : ∀ {β : Type} {q : Q β} {s}, J s → p q → R.Allows s q)
    (hkeeps : ∀ {β : Type} {q : Q β} {s b t}, J s → p q → R.Answers s q b t → J t)
    (h : w.Asks p) (hs : J s) : w.Safe R s fun _ t => J t := by
  induction w generalizing s with
  | done a => exact hs
  | ask q next ih =>
    exact ⟨hallows hs h.1, fun b t hb => ih b (h.2 b) (hkeeps hs h.1 hb)⟩
  | loop body x next ihbody ihnext =>
    refine ⟨fun _ t => J t, hs, fun y t ht => (ihbody y (h.1 y) ht).mono fun r u hu => ?_⟩
    cases r with
    | inl z => exact hu
    | inr b => exact ihnext b (h.2 b) hu

/-- Work asked in other words is safe among surroundings that do no more than the first. -/
theorem Asks.safeVia {Q' : Type → Type 1} {S' : Type} {R' : Surroundings Q' S'}
    {f : {β : Type} → Q β → Q' β} (agree : S → S' → Prop)
    (hallows : ∀ {β : Type} {q : Q β} {s s'}, agree s s' → R.Allows s q → R'.Allows s' (f q))
    (hanswers : ∀ {β : Type} {q : Q β} {s s' b t'}, agree s s' → p q → R'.Answers s' (f q) b t' →
      ∃ t, R.Answers s q b t ∧ agree t t')
    {post : α → S → Prop} (hasks : w.Asks p) (h : w.Safe R s post) {s' : S'} (hs : agree s s') :
    (w.via f).Safe R' s' fun a t' => ∃ t, agree t t' ∧ post a t := by
  induction w generalizing s s' with
  | done a => exact ⟨s, hs, h⟩
  | ask q next ih =>
    refine ⟨hallows hs h.1, fun b t' hb => ?_⟩
    obtain ⟨t, ht, hagree⟩ := hanswers hs hasks.1 hb
    exact ih b (hasks.2 b) (h.2 b t ht) hagree
  | loop body x next ihbody ihnext =>
    obtain ⟨inv, hx, hbody⟩ := h
    refine ⟨fun y t' => ∃ t, agree t t' ∧ inv y t, ⟨s, hs, hx⟩, ?_⟩
    rintro y t' ⟨t, ht, hy⟩
    refine (ihbody y (hasks.1 y) (hbody y t hy) ht).mono ?_
    rintro (z | b) u' ⟨u, hu, hr⟩
    · exact ⟨u, hu, hr⟩
    · exact ihnext b (hasks.2 b) hr hu

theorem asks_of_all (h : ∀ {β : Type} (q : Q β), p q) (w : Work Q α) : w.Asks p := by
  induction w with
  | done a => exact trivial
  | ask q next ih => exact ⟨h q, ih⟩
  | loop body x next ihbody ihnext => exact ⟨ihbody, ihnext⟩

theorem Asks.mono {p' : {β : Type} → Q β → Prop} (hp : ∀ {β : Type} {q : Q β}, p q → p' q)
    (h : w.Asks p) : w.Asks p' := by
  induction w with
  | done a => exact trivial
  | ask q next ih => exact ⟨hp h.1, fun b => ih b (h.2 b)⟩
  | loop body x next ihbody ihnext => exact ⟨fun y => ihbody y (h.1 y), fun b => ihnext b (h.2 b)⟩

theorem Asks.bind {f : α → Work Q β} (h : w.Asks p) (hf : ∀ a, (f a).Asks p) : (w.bind f).Asks p := by
  induction w with
  | done a => exact hf a
  | ask q next ih => exact ⟨h.1, fun b => ih b (h.2 b) hf⟩
  | loop body x next _ ih => exact ⟨h.1, fun b => ih b (h.2 b) hf⟩

theorem Asks.via {Q' : Type → Type 1} {p' : {β : Type} → Q' β → Prop} {f : {β : Type} → Q β → Q' β}
    (hf : ∀ {β : Type} {q : Q β}, p q → p' (f q)) (h : w.Asks p) : (w.via f).Asks p' := by
  induction w with
  | done a => exact trivial
  | ask q next ih => exact ⟨hf h.1, fun b => ih b (h.2 b)⟩
  | loop body x next ihbody ihnext =>
    exact ⟨fun y => ihbody y (h.1 y), fun b => ihnext b (h.2 b)⟩

theorem Asks.step {w' : Work Q α} (h : w.Asks p) (hstep : Step R (w, s) (w', t)) : w'.Asks p := by
  cases hstep with
  | answer hb => exact h.2 _
  | round =>
    refine (h.1 _).bind fun r => ?_
    cases r with
    | inl y => exact ⟨h.1, h.2⟩
    | inr b => exact h.2 b

/-- What the surroundings keep under questions of a kind holds wherever work of this kind has come to. -/
theorem Asks.leads {w' : Work Q α} (J : S → Prop)
    (hkeeps : ∀ {β : Type} {q : Q β} {s b t}, J s → p q → R.Answers s q b t → J t)
    (h : w.Asks p) (hs : J s) (hleads : Leads R (w, s) (w', t)) : J t := by
  have hkept : ∀ x, Leads R (w, s) x → x.1.Asks p ∧ J x.2 := by
    intro x hx
    induction hx with
    | refl => exact ⟨h, hs⟩
    | tail _ hstep ih =>
      refine ⟨ih.1.step hstep, ?_⟩
      cases hstep with
      | answer hb => exact hkeeps ih.2 ih.1.1 hb
      | round => exact ih.2
  exact (hkept _ hleads).2

/-- Work asked in other words goes on as it does in its own, among surroundings that do all that the first do. -/
theorem Asks.leadsVia {Q' : Type → Type 1} {S' : Type} {R' : Surroundings Q' S'}
    {f : {β : Type} → Q β → Q' β} (agree : S → S' → Prop)
    (hanswers : ∀ {β : Type} {q : Q β} {s t s' b}, agree s s' → p q → R.Answers s q b t →
      ∃ t', R'.Answers s' (f q) b t' ∧ agree t t')
    {w' : Work Q α} (hasks : w.Asks p) (hleads : Leads R (w, s) (w', t)) {s' : S'} (hs : agree s s') :
    ∃ t', Leads R' (w.via f, s') (w'.via f, t') ∧ agree t t' := by
  have hgone : ∀ x, Leads R (w, s) x →
      x.1.Asks p ∧ ∃ t', Leads R' (w.via f, s') (x.1.via f, t') ∧ agree x.2 t' := by
    intro x hx
    induction hx with
    | refl => exact ⟨hasks, s', .refl, hs⟩
    | tail _ hstep ih =>
      obtain ⟨hasks, t', hleads, hagree⟩ := ih
      refine ⟨hasks.step hstep, ?_⟩
      cases hstep with
      | answer hb =>
        obtain ⟨u', hb', hagree'⟩ := hanswers hagree hasks.1 hb
        exact ⟨u', hleads.tail (.answer hb'), hagree'⟩
      | round =>
        refine ⟨t', hleads.tail ?_, hagree⟩
        rw [round_via]
        exact .round
  exact (hgone _ hleads).2

theorem asks_pure (a : α) : (pure a : Work Q α).Asks p := trivial

theorem asks_query {q : Q α} (hq : p q) : (query q).Asks p := ⟨hq, fun _ => trivial⟩

theorem Asks.andThen {f : α → Work Q β} (h : w.Asks p) (hf : ∀ a, (f a).Asks p) :
    (w >>= f).Asks p := h.bind hf

theorem Asks.map {f : α → β} (h : w.Asks p) : (f <$> w).Asks p := h.bind fun _ => trivial

theorem asks_iterate {σ : Type} {body : σ → Work Q (σ ⊕ β)} (x : σ) (h : ∀ y, (body y).Asks p) :
    (iterate body x).Asks p := ⟨h, fun _ => trivial⟩

end

/-- A property of this kind. Whoever shows it goes along the work once, for all of them. -/
structure Composes (C : {α : Type} → Work Q α → Prop) : Prop where
  done {α : Type} (a : α) : C (pure a : Work Q α)
  andThen {α β : Type} {w : Work Q α} {f : α → Work Q β} (h : C w) (hf : ∀ a, C (f a)) : C (w >>= f)
  iterate {β σ : Type} {body : σ → Work Q (σ ⊕ β)} (x : σ) (h : ∀ y, C (body y)) : C (Work.iterate body x)

namespace Composes

variable {C : {α : Type} → Work Q α → Prop}

theorem map {w : Work Q α} {f : α → β} (h : Composes C) (hw : C w) : C (f <$> w) :=
  h.andThen hw fun _ => h.done _

theorem forEach {body : α → β → Work Q (ForInStep β)} (h : Composes C) (xs : List α) (b : β)
    (hbody : ∀ a b, C (body a b)) : C (forIn xs b body) := by
  induction xs generalizing b with
  | nil => exact h.done b
  | cons a rest ih =>
    rw [List.forIn_cons]
    refine h.andThen (hbody a b) fun step => ?_
    cases step with
    | done b => exact h.done b
    | yield b => exact ih b

theorem ok (h : Composes C) (a : α) : C (pure a : ExceptT ε (Work Q) α).run := h.done _

theorem throw (h : Composes C) (e : ε) : C (throw e : ExceptT ε (Work Q) α).run := h.done _

theorem orFail {w : ExceptT ε (Work Q) α} {f : α → ExceptT ε (Work Q) β} (h : Composes C) (hw : C w.run)
    (hf : ∀ a, C (f a).run) : C (w >>= f).run := by
  rw [ExceptT.run_bind]
  refine h.andThen hw fun r => ?_
  cases r with
  | ok a => exact hf a
  | error e => exact h.done _

theorem orElse {w : ExceptT ε (Work Q) α} {handler : ε → ExceptT ε (Work Q) α} (h : Composes C) (hw : C w.run)
    (hhandler : ∀ e, C (handler e).run) : C (tryCatch w handler).run := by
  refine h.andThen hw fun r => ?_
  cases r with
  | ok a => exact h.done _
  | error e => exact hhandler e

theorem iterateOrFail {σ : Type} {body : σ → ExceptT ε (Work Q) (σ ⊕ β)} (h : Composes C) (x : σ)
    (hbody : ∀ y, C (body y).run) : C (Work.iterateOrFail body x).run := by
  refine h.iterate x fun y => h.andThen (hbody y) fun r => ?_
  rcases r with e | y | b
  · exact h.done _
  · exact h.done _
  · exact h.done _

end Composes

section

variable {p : {β : Type} → Q β → Prop} {w : ExceptT ε (Work Q) α}

theorem composes_asks : Composes fun {α : Type} (w : Work Q α) => w.Asks p where
  done := asks_pure
  andThen := Asks.andThen
  iterate := asks_iterate

theorem asks_ok (a : α) : (pure a : ExceptT ε (Work Q) α).run.Asks p := composes_asks.ok a

theorem asks_throw (e : ε) : (throw e : ExceptT ε (Work Q) α).run.Asks p := composes_asks.throw e

theorem Asks.orFail {f : α → ExceptT ε (Work Q) β} (h : w.run.Asks p)
    (hf : ∀ a, (f a).run.Asks p) : (w >>= f).run.Asks p := composes_asks.orFail h hf

theorem Asks.orElse {handler : ε → ExceptT ε (Work Q) α} (h : w.run.Asks p)
    (hhandler : ∀ e, (handler e).run.Asks p) : (tryCatch w handler).run.Asks p := composes_asks.orElse h hhandler

theorem asks_iterateOrFail {σ : Type} {body : σ → ExceptT ε (Work Q) (σ ⊕ β)} (x : σ)
    (h : ∀ y, (body y).run.Asks p) : (iterateOrFail body x).run.Asks p := composes_asks.iterateOrFail x h

end

end Work
end BoltClient
