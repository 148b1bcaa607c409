/-!
Work that waits. Work asks its surroundings one question after another and goes on with each answer; how
long an answer takes is up to the surroundings. Work that waits for an answer can be dropped there and
then, so every place where it can be dropped is a question.
-/

namespace BoltClient

/-- Work that asks questions of `Q` and ends with a result. A loop goes on while its body says so. -/
inductive Work (Q : Type → Type 1) : Type → Type 1 where
  | done {α : Type} (a : α) : Work Q α
  | ask {α β : Type} (q : Q β) (next : β → Work Q α) : Work Q α
  | loop {α β σ : Type} (body : σ → Work Q (σ ⊕ β)) (s : σ) (next : β → Work Q α) : Work Q α

namespace Work

variable {Q R : Type → Type 1} {α β γ : Type}

/-- One piece of work after another. -/
def bind : Work Q α → (α → Work Q β) → Work Q β
  | done a, f => f a
  | ask q next, f => ask q fun b => (next b).bind f
  | loop body s next, f => loop body s fun b => (next b).bind f

instance : Monad (Work Q) where
  pure := done
  bind := bind

def query (q : Q α) : Work Q α := ask q done

/-- Goes round until the body gives a result. -/
def iterate {σ : Type} (body : σ → Work Q (σ ⊕ β)) (s : σ) : Work Q β := loop body s done

/-- Goes round until the body gives a result or fails. -/
def iterateOrFail {ε σ : Type} (body : σ → ExceptT ε (Work Q) (σ ⊕ β)) (s : σ) : ExceptT ε (Work Q) β :=
  ExceptT.mk <| iterate (fun s => do
    match ← (body s).run with
    | .ok (.inl s) => pure (.inl s)
    | .ok (.inr b) => pure (.inr (.ok b))
    | .error e => pure (.inr (.error e))) s

/-- The same work, its questions asked in other words. -/
def via (f : {β : Type} → Q β → R β) : {α : Type} → Work Q α → Work R α
  | _, done a => done a
  | _, ask q next => ask (f q) fun b => via f (next b)
  | _, loop body s next => loop (fun s => via f (body s)) s fun b => via f (next b)

/-- One round of a loop, and what comes after it. -/
def round {σ : Type} (body : σ → Work Q (σ ⊕ β)) (s : σ) (next : β → Work Q α) : Work Q α :=
  (body s).bind fun
    | .inl s => loop body s next
    | .inr b => next b

theorem bind_done (w : Work Q α) : w.bind done = w := by
  induction w with
  | done a => rfl
  | ask q next ih => simp [bind, ih]
  | loop body s next _ ih => simp [bind, ih]

theorem bind_assoc (w : Work Q α) (f : α → Work Q β) (g : β → Work Q γ) :
    (w.bind f).bind g = w.bind fun a => (f a).bind g := by
  induction w with
  | done a => rfl
  | ask q next ih => simp [bind, ih]
  | loop body s next _ ih => simp [bind, ih]

instance : LawfulMonad (Work Q) :=
  LawfulMonad.mk' _ (fun w => bind_done w) (fun _ _ => rfl) (fun w f g => bind_assoc w f g)

end Work
end BoltClient
