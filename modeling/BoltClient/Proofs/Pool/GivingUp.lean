import BoltClient.Proofs.Pool.Custody
import BoltClient.Proofs.Pool.Generation
import BoltClient.Proofs.Pool.Lending

namespace BoltClient

def Connection.GivesUp (c : Connection) (a : Address) : Prop := ∃ f ∈ c.feedback, f.givesUp c.address a = true

namespace Pool

open Work
open Stage (World)

/-- A question with which an address is given up: by name, with all others, or when a connection comes back
that reports so. -/
def Query.GivesUp (a : Address) (held : List Holding) : {β : Type} → Query β → Prop
  | _, .move (.detach b) => b = a
  | _, .move .markAllStale => True
  | _, .move .checkIn => ∃ m rest, (held = .borrowed m :: rest ∨ held = .parting m :: rest) ∧
      m.connection.GivesUp a
  | _, .move .letGo => ∃ m rest, Grip.beneath held = .borrowed m :: rest ∧ m.connection.GivesUp a
  | _, _ => False

/-- From one pool to another the slot of an address is gone, or its generation has ended. -/
def Ends (a : Address) (p q : Pool) : Prop :=
  ∀ t, q.slot? a = some t → ∃ s, p.slot? a = some s ∧ s.generation < t.generation

variable {α β : Type} {p p' q : Pool} {a : Address} {generation : Nat} {held held' hs rest : List Holding}
  {m : Member} {s t : Slot}

theorem Descends.ends (h : Descends 1 a p q) : Ends a p q := fun t ht => by
  obtain ⟨s, hs, hless, _⟩ := h t ht
  exact ⟨s, hs, hless⟩

theorem ends_checkIn (h : m.connection.GivesUp a) (now : Instant) : Ends a p (p.checkIn m now).2 := by
  intro t ht
  obtain ⟨u, hu, hless, _⟩ := descends_checkIn m now a t ht
  obtain ⟨s, hs, hsame, _⟩ := slot?_accept hu
  obtain ⟨f, hf, hgives⟩ := h
  have hsome : 0 < m.connection.feedback.countP (·.givesUp m.connection.address a) :=
    List.countP_pos_iff.mpr ⟨f, hf, hgives⟩
  exact ⟨s, hs, by omega⟩

theorem ends_giveBack (h : m.connection.GivesUp a) (now : Instant) : Ends a p (p.giveBack m now) := by
  refine ends_checkIn ?_ now
  dsimp only
  split
  · exact h
  · exact h

theorem ends_letGoHeld (hheld : Grip.beneath held = .borrowed m :: rest) (h : m.connection.GivesUp a)
    (now : Instant) : Ends a p (Grip.letGo now p held).pool := by
  induction held with
  | nil => cases hheld
  | cons x held ih =>
    cases x with
    | wire link => exact ih hheld
    | borrowed =>
      cases hheld
      exact ends_giveBack h now
    | parting | loose | place | turn => cases hheld

theorem ends_of_givesUp {q : Query β} {b : β} (hq : q.GivesUp a held)
    (hb : Grip.Answers ⟨p, held⟩ q b ⟨p', held'⟩) : Ends a p p' := by
  cases q with
  | move m =>
    obtain ⟨now, happly⟩ := hb
    obtain rfl : (m.apply now ⟨p, held⟩).2.pool = p' := congrArg (Grip.pool ∘ Prod.snd) happly
    cases m with
    | detach e =>
      have hdescends := @descends_detach p e a
      rw [if_pos (Eq.symm hq)] at hdescends
      exact hdescends.ends
    | markAllStale => exact (descends_markAllStale a).ends
    | checkIn =>
      obtain ⟨m, rest, rfl | rfl, hgives⟩ := hq
      · exact ends_checkIn hgives now
      · exact ends_checkIn hgives now
    | letGo =>
      obtain ⟨m, rest, hheld, hgives⟩ := hq
      exact ends_letGoHeld hheld hgives now
    | enter | announce | serves | strangers | routers | isFresh | store | discard | discardWriter | shut
      | takeIdle | isCurrent | reserve | fulfil | part | select => exact hq.elim
  | edit | transfer | waitForChange | waitForTurn | draw => exact hq.elim

theorem Query.GivesUp.not_reserves {q : Query β} (hq : q.GivesUp a held) : ¬q.Reserves a := by
  intro h
  unfold Query.Reserves at h
  split at h
  · exact hq
  · exact h

namespace Crowd

/-- One of those at work with a pool gives an address up. -/
inductive GivesUp (a : Address) : Crowd → Crowd → Prop where
  | intro {before after : List Party} {held held' : List Holding} {p p' : Pool} {β : Type} {q : Query β}
      {next : β → Task Unit} {b : β} (hq : q.GivesUp a held)
      (hb : Grip.Answers ⟨p, held⟩ q b ⟨p', held'⟩) :
      GivesUp a ⟨p, before ++ ⟨.ask q next, held⟩ :: after⟩ ⟨p', before ++ ⟨next b, held'⟩ :: after⟩

variable {opener : Opener} {c c' : Crowd}

theorem GivesUp.step (h : GivesUp a c c') : Step opener c c' := by
  obtain ⟨_, hb⟩ := h
  exact .turn (.goOn (.answer hb))

/-- Afterwards every connection to the address is of a generation that has ended. -/
theorem GivesUp.past (h : GivesUp a c c') (hc : c.Kept) (haged : c.Aged) (hlive : c'.Live a generation)
    (ht : c'.pool.slot? a = some t) : generation < t.generation := by
  obtain @⟨before, after, held, held', p, p', β, q, next, b, hq, hb⟩ := h
  have hsuits : q.Suits held := (hc.safe _ (List.mem_append_right before List.mem_cons_self)).1
  have hsound := hc.sound.perm (held_perm p ⟨.ask q next, held⟩)
  rw [live_perm (held_perm p' ⟨next b, held'⟩)] at hlive
  rcases live_of_answers hsuits hsound hb hlive with hold | ⟨hreserves, _⟩
  · obtain ⟨s, hs, hle⟩ := haged a generation ((live_perm (held_perm p _)).mpr hold)
    obtain ⟨s', hs', hless⟩ := ends_of_givesUp hq hb t ht
    rw [hs] at hs'
    cases hs'
    exact Nat.lt_of_le_of_lt hle hless
  · exact absurd hreserves hq.not_reserves

end Crowd

/-- The slot of an address, if there is one, is of no earlier generation than a given one. -/
def Since (a : Address) (generation : Nat) (p : Pool) : Prop :=
  ∀ s, p.slot? a = some s → generation ≤ s.generation ∧ ∀ m ∈ s.idle, m.connection.address = a

/-- What work holds while others do anything with the pool, as long as the slot of an address does not go
back. -/
def since (a : Address) (generation : Nat) : Surroundings Query (List Holding) where
  Answers held q b held' := ∃ p p', p.Since a generation ∧ p'.Since a generation ∧
    Grip.Answers ⟨p, held⟩ q b ⟨p', held'⟩
  Allows _ _ := True

/-- The newest connection held is to an address and of no earlier generation than a given one. -/
def Recent (a : Address) (generation : Nat) (held : List Holding) : Prop :=
  ∃ m rest, held = .borrowed m :: rest ∧ m.connection.address = a ∧ generation ≤ m.generation

/-- A question about the newest connection held that leaves its address alone. -/
def Query.Stays : {β : Type} → Query β → Prop
  | _, .edit f => (Connection.Query.edit f).Stays
  | _, .transfer t => (Connection.Query.transfer t).Stays
  | _, _ => False

theorem Recent.answer {q : Query β} {b : β} (h : Recent a generation held) (hq : q.Stays)
    (hb : Grip.Answers ⟨p, held⟩ q b ⟨p', held'⟩) : Recent a generation held' := by
  obtain ⟨m, rest, rfl, haddress, hle⟩ := h
  cases q with
  | edit f =>
    obtain ⟨now, _, hedit, heq⟩ := hb
    cases hedit
    cases heq
    exact ⟨_, rest, rfl, (hq now m.connection).trans haddress, hle⟩
  | transfer t =>
    cases hb
    cases t with
    | connect | dial => exact hq.elim
    | now | resolve | settle | read | write | shutdown => exact ⟨m, rest, rfl, haddress, hle⟩
  | move | waitForChange | waitForTurn | draw => exact hq.elim

theorem safe_since (w : Task α) : w.Safe (since a generation) held fun _ _ => True :=
  safe_of_allows (fun _ _ => trivial) w

theorem safe_move_since {m : Move α} {post : α → List Holding → Prop}
    (h : ∀ p p' now b held', p.Since a generation → p'.Since a generation →
      m.apply now ⟨p, held⟩ = (b, ⟨p', held'⟩) → post b held') :
    (move m : Task α).Safe (since a generation) held post := by
  refine ⟨trivial, ?_⟩
  rintro b held' ⟨p, p', hp, hp', now, happly⟩
  exact h p p' now b held' hp hp' happly

/-- Only a connection of the present generation can be handed out. -/
theorem safe_isHealthy_since (hheld : held = .borrowed m :: rest) (haddress : m.connection.address = a)
    (deadline : Deadline) (liveness : Option Duration) :
    (isHealthy a deadline liveness).Safe (since a generation) held fun healthy held' =>
      healthy = true → Recent a generation held' := by
  unfold isHealthy
  refine Safe.andThen (safe_move_since fun p p' now current held₁ hp _ happly => ?_)
  rw [hheld] at happly
  cases happly
  cases hcurrent : p.isCurrent a m now with
  | false => exact fun h => nomatch h
  | true =>
    have hrecent : Recent a generation (.borrowed m :: rest) := by
      unfold isCurrent at hcurrent
      simp only [Bool.and_eq_true, decide_eq_true_eq, Option.map_eq_some_iff] at hcurrent
      obtain ⟨_, s, hs, hgeneration⟩ := hcurrent
      exact ⟨m, rest, rfl, haddress, hgeneration ▸ (hp s hs).1⟩
    rw [if_pos rfl]
    cases liveness with
    | none => exact fun _ => hrecent
    | some idleTime =>
      have hasks : (onTop (isAlive idleTime deadline) : Task Bool).Asks Query.Stays :=
        (isAlive_stays idleTime deadline).via fun {β} {q} hq => by cases q <;> exact hq
      refine (hasks.safe (Recent a generation) (fun _ _ => trivial) ?_ hrecent).mono fun _ _ h _ => h
      rintro β q held b held' h hq ⟨p, p', _, _, hb⟩
      exact h.answer hq hb

theorem safe_reuse_since (deadline : Deadline) (liveness : Option Duration) :
    (reuse a deadline liveness).Safe (since a generation) held fun found held' =>
      found = true → Recent a generation held' := by
  unfold reuse
  refine safe_iterate (fun _ _ => True) trivial fun _ held _ => ?_
  refine Safe.andThen (safe_move_since fun p p' now found held₁ hp _ happly => ?_)
  simp only [Move.apply] at happly
  split at happly
  · next m q htake =>
    cases happly
    obtain ⟨_, hidle, _⟩ := mem_of_takeIdle htake
    obtain ⟨s, hs, hidle⟩ := Option.map_eq_some_iff.mp hidle
    have haddress := (hp s hs).2 m (hidle ▸ List.mem_cons_self)
    refine Safe.andThen ((safe_isHealthy_since rfl haddress deadline liveness).mono
      fun healthy held₂ h => ?_)
    cases healthy with
    | true => exact fun _ => h rfl
    | false => exact Safe.andThen ((safe_since _).mono fun _ _ _ => trivial)
  · cases happly
    exact fun h => absurd h Bool.false_ne_true

/-- A new connection belongs to the generation of its place. -/
theorem safe_openReserved_since {opener : Opener} (hopener : Opening.Faithful opener) (deadline : Deadline)
    {n : Nat} (hn : generation ≤ n) (hplace : Grip.beneath held = .place a n :: rest) :
    (openReserved opener a deadline).run.Safe (since a generation) held fun r held' =>
      r = .ok () → Recent a generation held' := by
  have hopened := safe_opening (R := since a generation) (fun held => Grip.beneath held = .place a n :: rest)
    (fun _ _ _ => trivial) (fun hbeneath ⟨_, _, _, _, hb⟩ => (Grip.beneath_of_transfer hb).trans hbeneath)
    (hopener a deadline) hplace
  refine safe_openReserved (fun _ => True) (fun _ _ _ h => nomatch h) (fun _ _ => safe_since _)
    (hopened.mono fun r held₁ hr => ?_)
  obtain ⟨hbeneath, hc⟩ := hr
  cases r with
  | error e => exact safe_since _
  | ok c =>
    refine safe_move_since fun p p' now _ held₂ _ _ happly _ => ?_
    obtain rfl := congrArg (Grip.held ∘ Prod.snd) happly
    exact ⟨_, rest, Grip.held_fulfil hbeneath c p, hc c rfl, hn⟩

theorem acquire_recent {opener : Opener} (hopener : Opening.Faithful opener) (a : Address)
    (deadline : Deadline) (liveness : Option Duration) (generation : Nat) (held : List Holding) :
    (acquire opener a deadline liveness).run.Safe (since a generation) held fun r held' =>
      r = .ok () → Recent a generation held' := by
  refine safe_acquire (fun _ => True) trivial (fun _ _ _ h => nomatch h) (fun _ _ => safe_since _)
    (fun held _ => (safe_reuse_since deadline liveness).mono fun found held' h => ?_)
    (fun held _ => safe_move_since fun p p' now room held' _ hp' happly => ?_) fun _ _ _ => safe_since _
  · cases found with
    | true => exact fun _ => h rfl
    | false => exact trivial
  · simp only [Move.apply] at happly
    cases hreserve : p.reserve a with
    | mk place q =>
      rw [hreserve] at happly
      cases place with
      | none =>
        cases happly
        exact trivial
      | some n =>
        cases happly
        obtain ⟨s, hs, hsame⟩ := slot?_of_reserve hreserve
        exact safe_openReserved_since hopener deadline (hsame ▸ (hp' s hs).1) rfl

/-- The others and whoever is on the errand. -/
def Errand.everyone (e : Errand) : Crowd :=
  ⟨e.crowd.pool, e.crowd.parties ++ [⟨e.work.bind fun _ => .done (), e.loan.held⟩]⟩

section

variable {opener : Opener} {e e₀ e' : Errand} {c : Crowd} {post : Except Error Unit → List Holding → Prop}

theorem Errand.Step.everyone (h : Errand.Step opener e e') : Crowd.Step opener e.everyone e'.everyone := by
  cases h with
  | others h =>
    cases h with
    | join => exact .join
    | turn h =>
      simp only [Errand.everyone, List.append_assoc, List.cons_append]
      exact .turn h
  | answer h =>
    simp only [Errand.everyone, note_held]
    exact .turn (.goOn (.answer h))
  | round =>
    simp only [Errand.everyone, round_bind]
    exact .turn (.goOn .round)

theorem Errand.Reaches.everyone (h : Errand.Reaches opener e e') :
    Crowd.Reaches opener e.everyone e'.everyone := by
  induction h with
  | refl => exact .refl
  | tail _ hstep ih => exact ih.tail hstep.everyone

theorem held_everyone (e : Errand) : e.everyone.held = e.crowd.held ++ e.loan.held := by
  simp [Errand.everyone, Crowd.held]

theorem Crowd.Kept.everyone (hc : c.Kept) (hopener : Opening.Faithful opener) (a : Address)
    (deadline : Deadline) (liveness : Option Duration) :
    (Errand.mk c (acquire opener a deadline liveness).run {}).everyone.Kept := by
  refine ⟨?_, fun x hx => ?_⟩
  · rw [held_everyone, List.append_nil]
    exact hc.sound
  · rcases List.mem_append.mp hx with hx | hx
    · exact hc.safe x hx
    · rw [List.mem_singleton.mp hx]
      exact safe_call hopener (.acquire a deadline liveness) []

theorem Crowd.Kept.since (hc : c.Kept) (h : ∀ s, c.pool.slot? a = some s → generation ≤ s.generation) :
    c.pool.Since a generation := by
  intro s hs
  have hcovers := hc.sound.covers a
  rw [hs] at hcovers
  exact ⟨h s hs, hcovers.2.2.2⟩

/-- Work goes on as it should as long as the slot of an address does not go back. -/
theorem Errand.Reaches.safe_since (h : Errand.Reaches opener e₀ e) (hopener : Opening.Faithful opener)
    (hkept : e₀.everyone.Kept) (hsafe : e₀.work.Safe (since a generation) e₀.loan.held post)
    (hsince : ∀ e₁, Errand.Reaches opener e₀ e₁ → Errand.Reaches opener e₁ e →
      ∀ s, e₁.crowd.pool.slot? a = some s → generation ≤ s.generation) :
    e.work.Safe (since a generation) e.loan.held post := by
  induction h with
  | refl => exact hsafe
  | @tail e e' hrun hstep ih =>
    have hrun : Errand.Reaches opener e₀ e := hrun
    have hp := (hrun.everyone.keeps hopener hkept).since (hsince e hrun (.single hstep))
    have hrun' : Errand.Reaches opener e₀ e' := hrun.tail hstep
    have hp' := (hrun'.everyone.keeps hopener hkept).since (hsince e' hrun' .refl)
    have hsafe := ih fun e₁ h₁ h₂ => hsince e₁ h₁ (h₂.tail hstep)
    cases hstep with
    | others => exact hsafe
    | answer hb =>
      rw [note_held]
      exact hsafe.2 _ _ ⟨_, _, hp, hp', hb⟩
    | round => exact hsafe.round

/-- While an address keeps a slot, the generation of it does not go back. -/
theorem Errand.Reaches.generation_le (h : Errand.Reaches opener e₀ e) (ht : e₀.crowd.pool.slot? a = some t)
    (hkeeps : ∀ e₁, Errand.Reaches opener e₀ e₁ → Errand.Reaches opener e₁ e →
      e₁.crowd.pool.slot? a ≠ none) (hs : e.crowd.pool.slot? a = some s) : t.generation ≤ s.generation := by
  induction h generalizing s with
  | refl =>
    rw [ht] at hs
    cases hs
    exact Nat.le_refl _
  | @tail e e' hrun hstep ih =>
    obtain ⟨u, hu⟩ := Option.ne_none_iff_exists'.mp (hkeeps e hrun (.single hstep))
    have hle := ih (fun e₁ h₁ h₂ => hkeeps e₁ h₁ (h₂.tail hstep)) hu
    exact Nat.le_trans hle (hstep.everyone.change.generation_le hu hs)

/-- A connection that was not there before has a place that was taken since. -/
theorem Errand.Reaches.placed (h : Errand.Reaches opener e₀ e) (hopener : Opening.Faithful opener)
    (hkept : e₀.everyone.Kept) (hnew : ¬e₀.everyone.Live a generation)
    (hlive : e.everyone.Live a generation) :
    ∃ e₁ e₂, Errand.Reaches opener e₀ e₁ ∧ ¬e₁.everyone.Live a generation ∧ Errand.Step opener e₁ e₂ ∧
      .place a generation ∈ e₂.everyone.held ∧ Errand.Reaches opener e₂ e := by
  induction h with
  | refl => exact absurd hlive hnew
  | @tail e e' hrun hstep ih =>
    have hrun : Errand.Reaches opener e₀ e := hrun
    by_cases hold : e.everyone.Live a generation
    · obtain ⟨e₁, e₂, h₁, hnot, hfirst, hplace, h₂⟩ := ih hold
      exact ⟨e₁, e₂, h₁, hnot, hfirst, hplace, h₂.tail hstep⟩
    · obtain ⟨hplace, _⟩ := (hstep.everyone.live (hrun.everyone.keeps hopener hkept) hlive).resolve_left hold
      exact ⟨e, e', hrun, hold, hstep, hplace, .refl⟩

/-- Whoever acquires a connection is given one of no earlier generation than its slot has had meanwhile. -/
theorem Errand.Reaches.recent {deadline : Deadline} {liveness : Option Duration}
    (h : Errand.Reaches opener ⟨c, (acquire opener a deadline liveness).run, {}⟩ e)
    (hopener : Opening.Faithful opener) (hc : c.Kept) (hdone : e.work = .done (.ok ()))
    (hsince : ∀ e₁, Errand.Reaches opener ⟨c, (acquire opener a deadline liveness).run, {}⟩ e₁ →
      Errand.Reaches opener e₁ e → ∀ s, e₁.crowd.pool.slot? a = some s → generation ≤ s.generation) :
    Recent a generation e.loan.held := by
  have hsafe := h.safe_since hopener (hc.everyone hopener a deadline liveness)
    (acquire_recent hopener a deadline liveness generation []) hsince
  rw [hdone] at hsafe
  exact hsafe rfl

/-- If all connections to an address are of generations that have ended, there is a moment before the end at
which no connection is of the generation of the one that is handed out: the slot is gone then, or that
generation has not begun when the acquiring begins. -/
theorem Errand.Reaches.absent {deadline : Deadline} {liveness : Option Duration}
    (h : Errand.Reaches opener ⟨c, (acquire opener a deadline liveness).run, {}⟩ e)
    (hopener : Opening.Faithful opener) (hc : c.Kept) (hdone : e.work = .done (.ok ()))
    (hpast : ∀ n t, c.Live a n → c.pool.slot? a = some t → n < t.generation)
    (hheld : e.loan.held = .borrowed m :: rest) :
    ∃ e₀, Errand.Reaches opener ⟨c, (acquire opener a deadline liveness).run, {}⟩ e₀ ∧
      Errand.Reaches opener e₀ e ∧ ¬e₀.everyone.Live a m.generation := by
  by_cases hgone : ∃ e₀, Errand.Reaches opener ⟨c, (acquire opener a deadline liveness).run, {}⟩ e₀ ∧
      Errand.Reaches opener e₀ e ∧ e₀.crowd.pool.slot? a = none
  · obtain ⟨e₀, h₀, h₁, hslot⟩ := hgone
    refine ⟨e₀, h₀, h₁, fun hlive => ?_⟩
    have hkept := h₀.everyone.keeps hopener (hc.everyone hopener a deadline liveness)
    obtain ⟨s, hs⟩ := hkept.sound.slot_of_live hlive
    exact Option.some_ne_none s (hs.symm.trans hslot)
  · have hkeeps : ∀ e₁, Errand.Reaches opener ⟨c, (acquire opener a deadline liveness).run, {}⟩ e₁ →
        Errand.Reaches opener e₁ e → e₁.crowd.pool.slot? a ≠ none :=
      fun e₁ h₁ h₂ hslot => hgone ⟨e₁, h₁, h₂, hslot⟩
    obtain ⟨t, ht⟩ := Option.ne_none_iff_exists'.mp (hkeeps _ .refl h)
    obtain ⟨m', rest', hheld', _, hle⟩ := h.recent hopener hc hdone fun e₁ h₁ h₂ s hs =>
      h₁.generation_le ht (fun e₂ h₃ h₄ => hkeeps e₂ h₃ (h₄.trans h₂)) hs
    rw [hheld] at hheld'
    cases hheld'
    refine ⟨_, .refl, h, fun hlive => ?_⟩
    rw [Crowd.Live, held_everyone, List.append_nil] at hlive
    exact absurd (hpast m.generation t hlive ht) (Nat.not_lt.mpr hle)

end

/-- Nobody is given a connection to an address that was given up before: at some moment since then there
was no connection of its generation, whether idle, out or being opened, and its place was taken after
that. -/
theorem given_up_not_lent (opener : Opener) (hopener : Opening.Faithful opener) (limit : Option Nat)
    (directory : Option Routing.Directory) (c c' : Crowd)
    (hcrowd : Crowd.Reaches opener ⟨{ limit := limit, directory := directory }, []⟩ c) (a : Address)
    (hgives : Crowd.GivesUp a c c') (deadline : Deadline) (liveness : Option Duration) (e : Errand)
    (hrun : Errand.Reaches opener ⟨c', (acquire opener a deadline liveness).run, {}⟩ e)
    (hdone : e.work = .done (.ok ())) :
    ∃ m rest, e.loan.held = .borrowed m :: rest ∧ m.connection.address = a ∧
      ∃ e₁ e₂, Errand.Reaches opener ⟨c', (acquire opener a deadline liveness).run, {}⟩ e₁ ∧
        ¬e₁.everyone.Live a m.generation ∧ Errand.Step opener e₁ e₂ ∧
        .place a m.generation ∈ e₂.everyone.held ∧ Errand.Reaches opener e₂ e := by
  obtain ⟨hc, haged⟩ := hcrowd.ages hopener (Crowd.start_kept limit directory)
    (Crowd.start_aged limit directory)
  have hc' := hgives.step.keeps hopener hc
  have hkept := hc'.everyone hopener a deadline liveness
  obtain ⟨m, rest, hheld, haddress, _⟩ := hrun.recent hopener hc' hdone fun _ _ _ _ _ => Nat.zero_le _
  obtain ⟨e₀, h₀, h₁, hnew⟩ := hrun.absent hopener hc' hdone
    (fun n t hlive ht => hgives.past hc haged hlive ht) hheld
  have hlive : e.everyone.Live a m.generation := by
    refine .inr ⟨.borrowed m, ?_, ?_⟩
    · rw [held_everyone, hheld]
      exact List.mem_append_right _ List.mem_cons_self
    · rw [← haddress]
      rfl
  obtain ⟨e₁, e₂, h₂, hnot, hstep, hplace, h₃⟩ :=
    h₁.placed hopener (h₀.everyone.keeps hopener hkept) hnew hlive
  exact ⟨m, rest, hheld, haddress, e₁, e₂, h₀.trans h₂, hnot, hstep, hplace, h₃⟩

/-- Somebody is about to give the address up. -/
def leaving : Crowd := { stocked with parties := [{ work := deactivate default }] }

theorem reaches_leaving : Crowd.Reaches prompt ⟨{}, []⟩ leaving :=
  reaches_stocked.tail (.first (.call (.deactivate default)))

/-- The slot is gone with the connection, and the next one is of generation zero again. -/
theorem opened_again : ∃ c e m, Crowd.GivesUp default leaving c ∧ c.pool.slots.length = 0 ∧
    Errand.Reaches prompt ⟨c, (acquire prompt default .never none).run, {}⟩ e ∧ e.work = .done (.ok ()) ∧
    e.loan.held = [.borrowed m] ∧ m.generation = 0 := by
  refine ⟨?c, ?e, ?m, ?gives, ?gone, ?run, ?done, ?held, ?zero⟩
  case gives => exact @Crowd.GivesUp.intro _ [] [] [] _ _ _ _ (.move (.detach default)) _ _ rfl ⟨.start, rfl⟩
  case gone => rfl
  case run =>
    refine .head .round ?_
    refine .head (.answer (b := some 1) ⟨.start, rfl⟩) ?_
    refine .head .round ?_
    refine .head (.answer (b := false) ⟨.start, rfl⟩) ?_
    refine .head (.answer (b := true) ⟨.start, rfl⟩) ?_
    refine .head (.answer ⟨.start, rfl⟩) ?_
    exact .refl
  case done => rfl
  case held => rfl
  case zero => rfl

theorem opened_again_later : leaving.Live default 0 ∧ ∃ (e : Errand) (m : Member) (rest : List Holding),
    e.loan.held = .borrowed m :: rest ∧ m.connection.address = default ∧ m.generation = 0 ∧
    ∃ c e₁ e₂, Crowd.GivesUp default leaving c ∧
      Errand.Reaches prompt ⟨c, (acquire prompt default .never none).run, {}⟩ e₁ ∧
      ¬e₁.everyone.Live default 0 ∧ Errand.Step prompt e₁ e₂ ∧
      .place default 0 ∈ e₂.everyone.held ∧ Errand.Reaches prompt e₂ e := by
  refine ⟨.inl ⟨_, rfl, _, List.mem_cons_self, rfl⟩, ?_⟩
  obtain ⟨c, e, m, hgives, _, hrun, hdone, hheld, hzero⟩ := opened_again
  obtain ⟨m', rest, hheld', haddress, e₁, e₂, h₁, hnew, hstep, hplace, h₂⟩ := given_up_not_lent prompt
    prompt_faithful none none leaving c reaches_leaving default hgives .never none e hrun hdone
  rw [hheld] at hheld'
  cases hheld'
  rw [hzero] at hnew hplace
  exact ⟨e, m, [], hheld, haddress, hzero, c, e₁, e₂, hgives, h₁, hnew, hstep, hplace, h₂⟩

end Pool
end BoltClient
