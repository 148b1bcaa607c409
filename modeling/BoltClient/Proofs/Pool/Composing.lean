import BoltClient.Proofs.Connection.Address

namespace BoltClient.Pool

open Work

section

variable {C : {α : Type} → Connection.Task α → Prop} (h : Connection.Basics C)

include h

theorem tidy_composes : C tidy := by
  unfold tidy
  refine h.andThen (h.looking id) fun c => ?_
  split
  · exact h.done _
  · split
    · exact h.andThen h.reset fun _ => h.done _
    · split
      · exact h.andThen h.fetchAll fun _ => h.done _
      · exact h.done _

theorem isAlive_composes
    (hidle : ∀ t, C (Connection.edit fun now c => (c.isIdleFor t now, c) : Connection.Task Bool))
    (hlimit : ∀ d, C (Connection.change fun c => { c with deadline := d } : Connection.Task Unit))
    (idleTime : Duration) (deadline : Deadline) : C (isAlive idleTime deadline) := by
  unfold isAlive
  refine h.andThen (hidle idleTime) fun long => ?_
  split
  · exact h.andThen (hlimit deadline) fun _ => h.andThen h.reset fun _ =>
      h.andThen (hlimit .never) fun _ => h.done _
  · exact h.done _

end

/-- A property that work has if its parts have it, and that the parts of giving back and of trying out have. -/
structure Basics (C : {α : Type} → Task α → Prop) : Prop extends Composes C where
  closing : C (onTop Connection.close : Task Unit)
  tidying : C (onTop tidy : Task Unit)
  killing : C (onTop (Connection.change Connection.kill) : Task Unit)
  trying (idleTime : Duration) (deadline : Deadline) : C (onTop (isAlive idleTime deadline) : Task Bool)
  looking (a : Address) : C (move (.isCurrent a) : Task Bool)
  checkingIn : C (move .checkIn : Task Nat)
  lettingGo : C (move .letGo : Task Unit)
  detaching (a : Address) : C (move (.detach a) : Task Nat)

namespace Basics

variable {C : {α : Type} → Task α → Prop} (h : Basics C)

include h

theorem closeHeld (n : Nat) : C (closeHeld n) := by
  induction n with
  | zero => exact h.done _
  | succ n ih =>
    unfold Pool.closeHeld closeOne
    exact h.andThen (h.andThen h.closing fun _ => h.lettingGo) fun _ => ih

theorem closeAndRelease (hpart : C (move .part : Task Unit)) : C closeAndRelease := by
  unfold Pool.closeAndRelease
  exact h.andThen hpart fun _ => h.andThen h.closing fun _ => h.andThen h.checkingIn h.closeHeld

theorem release : C release := by
  unfold Pool.release
  exact h.andThen h.tidying fun _ => h.andThen h.checkingIn h.closeHeld

theorem killAndRelease : C killAndRelease := by
  unfold Pool.killAndRelease
  exact h.andThen h.killing fun _ => h.lettingGo

theorem deactivate (a : Address) : C (deactivate a) := by
  unfold Pool.deactivate
  exact h.andThen (h.detaching a) h.closeHeld

theorem close (hshut : C (move .shut : Task Nat)) (hannounce : C (move .announce : Task Unit)) : C close := by
  unfold Pool.close
  exact h.andThen hshut fun n => h.andThen (h.closeHeld n) fun _ => hannounce

theorem isHealthy (a : Address) (deadline : Deadline) (liveness : Option Duration) :
    C (isHealthy a deadline liveness) := by
  unfold Pool.isHealthy
  refine h.andThen (h.looking a) fun current => ?_
  split
  · split
    · exact h.trying _ deadline
    · exact h.done _
  · exact h.done _

theorem reuse (a : Address) (deadline : Deadline) (liveness : Option Duration)
    (htake : C (move (.takeIdle a) : Task Bool)) (hpart : C (move .part : Task Unit)) :
    C (reuse a deadline liveness) := by
  unfold Pool.reuse
  refine h.iterate _ fun _ => h.andThen htake fun found => ?_
  split
  · refine h.andThen (h.isHealthy a deadline liveness) fun healthy => ?_
    split
    · exact h.done _
    · exact h.andThen (h.closeAndRelease hpart) fun _ => h.done _
  · exact h.done _

end Basics

theorem tidy_stays : tidy.Asks Connection.Query.Stays := tidy_composes Connection.stays_basics

theorem isAlive_stays (idleTime : Duration) (deadline : Deadline) :
    (isAlive idleTime deadline).Asks Connection.Query.Stays :=
  isAlive_composes Connection.stays_basics (fun _ => Connection.asks_edit fun _ _ => rfl)
    (fun _ => Connection.asks_edit fun _ _ => rfl) idleTime deadline

section

variable {p : {β : Type} → Query β → Prop}

theorem asks_move {β : Type} {m : Move β} (hm : p (.move m)) : (move m : Task β).Asks p := ⟨hm, fun _ => trivial⟩

/-- Work on a connection asks whatever it asks about the newest connection held. -/
theorem onTop_asks_all (hedit : ∀ {β : Type} (f : Instant → Connection → β × Connection), p (.edit f))
    (htransfer : ∀ {β : Type} (t : Transfer β), p (.transfer t)) {α : Type} (t : Connection.Task α) :
    (onTop t : Task α).Asks p := by
  refine Asks.via (p := fun _ => True) (fun {β} {q} _ => ?_) (asks_of_all (fun _ => trivial) t)
  cases q with
  | edit f => exact hedit f
  | transfer t => exact htransfer t

theorem asks_basics
    (honTop : ∀ {α : Type} {t : Connection.Task α}, t.Asks Connection.Query.Stays → (onTop t : Task α).Asks p)
    (hlook : ∀ a, p (.move (.isCurrent a))) (hcheckIn : p (.move .checkIn)) (hletGo : p (.move .letGo))
    (hdetach : ∀ a, p (.move (.detach a))) : Basics fun {α : Type} (w : Task α) => w.Asks p where
  toComposes := composes_asks
  closing := honTop Connection.close_stays
  tidying := honTop tidy_stays
  killing := honTop Connection.stays_basics.killing
  trying idleTime deadline := honTop (isAlive_stays idleTime deadline)
  looking a := asks_move (hlook a)
  checkingIn := asks_move hcheckIn
  lettingGo := asks_move hletGo
  detaching a := asks_move (hdetach a)

end

end BoltClient.Pool
