import BoltClient.Proofs.Work.Safety

/-!
Work that leaves things in order. What holds where such work begins holds where it ends, however it ends, though
perhaps not all the while; work that is put together from such parts is of this kind.
-/

namespace BoltClient.Work

variable {Q : Type → Type 1} {S α β ε : Type} {R : Surroundings Q S} {J : S → Prop}

/-- Whoever finds things in order leaves them in order. -/
def Maintains (R : Surroundings Q S) (J : S → Prop) (w : Work Q α) : Prop :=
  ∀ s, J s → w.Safe R s fun _ t => J t

theorem maintains_pure (a : α) : Maintains R J (pure a : Work Q α) := fun _ hs => hs

theorem maintains_query {q : Q α} (hallows : ∀ s, J s → R.Allows s q)
    (hkeeps : ∀ s b t, J s → R.Answers s q b t → J t) : Maintains R J (query q) :=
  fun s hs => ⟨hallows s hs, fun b t hb => hkeeps s b t hs hb⟩

/-- Work that is safe where more can be told apart is safe where less is seen of its surroundings. -/
theorem Safe.seen {S' : Type} {R' : Surroundings Q S'} {w : Work Q α} {post : α → S → Prop} (f : S' → S)
    (hallows : ∀ {β : Type} {s' : S'} {q : Q β}, R.Allows (f s') q → R'.Allows s' q)
    (hanswers : ∀ {β : Type} {s' t' : S'} {q : Q β} {b : β}, R'.Answers s' q b t' → R.Answers (f s') q b (f t'))
    {s' : S'} (h : w.Safe R (f s') post) : w.Safe R' s' fun a t' => post a (f t') := by
  induction w generalizing s' with
  | done a => exact h
  | ask q next ih => exact ⟨hallows h.1, fun b t' hb => ih b (h.2 b (f t') (hanswers hb))⟩
  | loop body x next ihbody ihnext =>
    obtain ⟨inv, hx, hbody⟩ := h
    refine ⟨fun y t' => inv y (f t'), hx, fun y t' hy => (ihbody y (hbody y (f t') hy)).mono fun r u' hr => ?_⟩
    cases r with
    | inl z => exact hr
    | inr b => exact ihnext b hr

theorem maintains_composes : Composes fun {α : Type} (w : Work Q α) => Maintains R J w where
  done := maintains_pure
  andThen h hf s hs := Safe.andThen ((h s hs).mono fun a t ht => hf a t ht)
  iterate x h s hs := by
    refine safe_iterate (fun _ t => J t) hs fun y t ht => (h y t ht).mono fun r u hu => ?_
    cases r <;> exact hu

end BoltClient.Work
