import BoltClient.Proofs.Pool.Capacity
import BoltClient.Proofs.Work.Safety
import BoltClient.Stage.World

namespace BoltClient.Pool

open Stage (World)

namespace Grip

def Answers (g : Grip) : {β : Type} → Query β → β → Grip → Prop
  | _, .move m, b, g' => ∃ now, m.apply now g = (b, g')
  | _, .edit f, b, g' => ∃ now held, World.editTop (f now) g.held = some (b, held) ∧ g' = ⟨g.pool, held⟩
  | _, .transfer t, b, g' => g' = ⟨g.pool, World.grasp g.held t (.ready b)⟩
  | _, .waitForChange seen _, b, g' => (b = true → seen < g.pool.changes) ∧ g' = g
  | _, .waitForTurn, _, g' =>
    g.pool.renewing = false ∧ g' = ⟨{ g.pool with renewing := true }, .turn :: g.held⟩
  | _, .draw, _, g' => g' = g

theorem pool_of_dial (w : World) (a : Address) : (w.dial a).2.pool = w.pool := by
  unfold World.dial
  dsimp only
  split <;> rfl

theorem pool_of_write (w : World) (link : Link) (b : List UInt8) : (w.write link b).2.pool = w.pool := by
  unfold World.write
  split
  · rfl
  · split <;> rfl

/-- The network has no hand in the pool. -/
theorem pool_of_transfer (w : World) {β : Type} (t : Transfer β) : (w.transfer t).2.pool = w.pool := by
  cases t with
  | now | connect | shutdown => rfl
  | resolve a d =>
    simp only [World.transfer]
    split <;> rfl
  | dial a => exact pool_of_dial w a
  | settle link =>
    simp only [World.transfer]
    split
    · split <;> rfl
    · rfl
  | read link limit d =>
    simp only [World.transfer]
    split
    · rfl
    · split <;> rfl
  | write link b d =>
    have hwrite := pool_of_write w link b
    simp only [World.transfer]
    split
    · next heq => rw [heq] at hwrite; exact hwrite
    · next heq => rw [heq] at hwrite; exact hwrite
    · next heq => rw [heq] at hwrite; exact hwrite

/-- The scripted world answers in one of these ways. -/
theorem answers_of_world {w w' : World} {held held' : List Holding} {β : Type} {q : Query β} {b : β}
    (h : w.answer held q = (.ready b, w', held')) :
    Answers ⟨w.pool, held⟩ q b ⟨w'.pool, held'⟩ := by
  cases q with
  | move m =>
    cases h
    exact ⟨w.now, rfl⟩
  | edit f =>
    simp only [World.answer] at h
    split at h
    · next hedit =>
      cases h
      exact ⟨w.now, _, hedit, rfl⟩
    · cases h
  | transfer t =>
    have hpool := pool_of_transfer w t
    simp only [World.answer] at h
    split at h
    · next heq =>
      rw [heq] at hpool
      cases h
      exact congrArg (Grip.mk · _) hpool
    · cases h
  | waitForChange seen d =>
    simp only [World.answer] at h
    split at h
    · next hseen =>
      cases h
      exact ⟨fun _ => hseen, rfl⟩
    · cases h
  | waitForTurn =>
    simp only [World.answer] at h
    split at h
    · cases h
    · next hfree =>
      cases h
      exact ⟨by simpa using hfree, rfl⟩
  | draw =>
    cases h
    rfl

def beneath : List Holding → List Holding
  | .wire _ :: held => beneath held
  | held => held

end Grip

/-- A new connection goes where the place held for it is. -/
def Move.Suits (held : List Holding) : {β : Type} → Move β → Prop
  | _, .fulfil c => ∀ a generation rest, Grip.beneath held = .place a generation :: rest → c.address = a
  | _, _ => True

variable {p : Pool} {g : Grip} {held hs : List Holding} {m : Member}

theorem Sound.fulfilHeld {c : Connection} (hc : (Move.fulfil c).Suits held)
    (h : Sound p (held ++ hs)) :
    Sound (Grip.fulfil c p held).pool ((Grip.fulfil c p held).held ++ hs) := by
  induction held with
  | nil => exact h
  | cons x held ih =>
    cases x with
    | wire link => exact ih hc h.drop
    | place a generation => exact Sound.fulfil (hc a generation held rfl) h
    | borrowed | parting | loose | turn => exact h

theorem Sound.letGoHeld (h : Sound p (held ++ hs)) (now : Instant) :
    Sound (Grip.letGo now p held).pool ((Grip.letGo now p held).held ++ hs) := by
  induction held with
  | nil => exact h
  | cons x held ih =>
    cases x with
    | wire link => exact ih h.drop
    | borrowed | parting | loose | place | turn => exact Sound.letGo h now

theorem Sound.part (h : Sound p (.borrowed m :: hs)) : Sound p (.parting m :: hs) :=
  h.swap (fun _ => rfl) fun _ => rfl

theorem Sound.hold (h : Sound p (held ++ hs)) (ms : List Member) :
    Sound (Grip.hold ⟨p, held⟩ ms).2.pool ((Grip.hold ⟨p, held⟩ ms).2.held ++ hs) := by
  unfold Grip.hold
  induction ms with
  | nil => exact h
  | cons m ms ih => exact ih.spare rfl

/-- No move lets the counts fall behind. -/
theorem Sound.move {β : Type} {m : Move β} (hm : m.Suits g.held) (h : Sound g.pool (g.held ++ hs))
    (now : Instant) : Sound (m.apply now g).2.pool ((m.apply now g).2.held ++ hs) := by
  obtain ⟨p, held⟩ := g
  cases m with
  | enter | announce | serves | strangers | routers | isFresh | store | discard | discardWriter =>
    exact h.congr rfl rfl
  | markAllStale => exact h.markAllStale
  | takeIdle a =>
    simp only [Move.apply]
    cases htake : p.takeIdle a with
    | none => exact h
    | some r => exact h.takeIdle htake
  | isCurrent a =>
    simp only [Move.apply]
    split <;> exact h
  | reserve a =>
    have hreserve := h.reserve (a := a)
    simp only [Move.apply]
    generalize p.reserve a = r at hreserve ⊢
    obtain ⟨_ | generation, q⟩ := r
    · exact hreserve
    · exact hreserve
  | fulfil c => exact h.fulfilHeld hm
  | part =>
    simp only [Move.apply]
    split
    · exact Sound.part h
    · exact h
  | checkIn =>
    simp only [Move.apply]
    split
    · exact Sound.hold (Sound.checkIn (fun _ => rfl) h now) _
    · exact Sound.hold (Sound.checkIn (fun _ => rfl) h now) _
    · exact h
  | letGo => exact h.letGoHeld now
  | detach a => exact (h.detach a).hold _
  | shut => exact h.shut.hold _
  | select role database choice =>
    simp only [Move.apply]
    split
    · exact h
    · exact h.congr rfl rfl

end BoltClient.Pool
