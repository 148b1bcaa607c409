import BoltClient.Proofs.Connection.Session
import BoltClient.Proofs.Pool.Custody
import BoltClient.Proofs.Work.Passage

namespace BoltClient

namespace Pool

open Work
open Connection (Session)
open Stage (World)

def Grip.free : Surroundings Query Grip where
  Answers g q b g' := g.Answers q b g'
  Allows _ _ := True

variable {α : Type} {p : Pool} {g g' : Grip} {held rest : List Holding} {m : Member} {ms : List Member}
  {wrap : Member → Holding} {opener : Opener} {a : Address} {deadline : Deadline} {liveness : Option Duration}

theorem safe_freeMove {m : Move α} {post : α → Grip → Prop}
    (h : ∀ now, post (m.apply now g).1 (m.apply now g).2) : (move m : Task α).Safe Grip.free g post := by
  refine ⟨trivial, ?_⟩
  rintro b g' ⟨now, happly⟩
  have hpost := h now
  rw [happly] at hpost
  exact hpost

def IsWrap (wrap : Member → Holding) : Prop :=
  wrap = .borrowed ∨ wrap = .parting ∨ wrap = .loose

/-- What is asked about the newest connection held changes nothing but that connection. -/
theorem Grip.top_of_answers {β : Type} {q : Query β} {b : β} (hwrap : IsWrap wrap) (hheld : g.held = wrap m :: rest)
    (hq : q.OnTop) (hb : g.Answers q b g') : g'.pool = g.pool ∧ ∃ m, g'.held = wrap m :: rest := by
  obtain ⟨p, held⟩ := g
  obtain rfl : held = wrap m :: rest := hheld
  cases q with
  | edit f =>
    obtain ⟨now, held', hedit, rfl⟩ := hb
    rcases hwrap with rfl | rfl | rfl <;> cases hedit <;> exact ⟨rfl, _, rfl⟩
  | transfer t =>
    obtain rfl : g' = _ := hb
    cases t with
    | connect | dial => exact hq.elim
    | now | resolve | settle | read | write | shutdown => exact ⟨rfl, m, rfl⟩
  | move | waitForChange | waitForTurn | draw => exact hq.elim

/-- Work on the newest connection held changes nothing but that connection. -/
theorem safe_onTopFree {t : Connection.Task α} (ht : t.Asks Connection.Query.Stays) (hwrap : IsWrap wrap)
    (hheld : g.held = wrap m :: rest) :
    (onTop t : Task α).Safe Grip.free g fun _ g' => g'.pool = g.pool ∧ ∃ m, g'.held = wrap m :: rest := by
  refine (onTop_asks ht).safe (fun g' : Grip => g'.pool = g.pool ∧ ∃ m, g'.held = wrap m :: rest)
    (fun _ _ => trivial) ?_ ⟨rfl, m, hheld⟩
  rintro β q g₁ b g₂ ⟨hpool, m, hheld⟩ hq hb
  obtain ⟨hsame, htop⟩ := Grip.top_of_answers hwrap hheld hq hb
  exact ⟨hsame.trans hpool, htop⟩

/-- What work on the newest connection held asks is answered as it is on a connection of one's own. -/
theorem Grip.answers_onTop {s : Session} {q : Connection.Query α} {b : α} {p' : Pool}
    {held' : List Holding} (hwrap : IsWrap wrap) (hq : q.Stays)
    (hb : Grip.Answers ⟨p, wrap { m with connection := s.connection } :: rest⟩ (match q with
      | .edit f => Query.edit f
      | .transfer t => .transfer t) b ⟨p', held'⟩) :
    ∃ t : Session, s.Answers q b t ∧ held' = wrap { m with connection := t.connection } :: rest := by
  cases q with
  | edit f =>
    obtain ⟨now, held, hedit, heq⟩ := hb
    cases heq
    rcases hwrap with rfl | rfl | rfl
    all_goals
      cases hedit
      exact ⟨⟨_, s.heard⟩, ⟨now, rfl, rfl⟩, rfl⟩
  | transfer t =>
    cases hb
    refine ⟨⟨s.connection, s.heard ++ t.heard b⟩, rfl, ?_⟩
    cases t with
    | connect | dial => exact hq.elim
    | now | resolve | settle | read | write | shutdown => rfl

/-- Work on the newest connection held goes as it goes on a connection of one's own, wherever no more is known of the
surroundings than what is held. -/
theorem safe_onTopHeld {R : Surroundings Query (List Holding)} {I : Session → Prop} {t : Connection.Task α}
    {post : α → Session → Prop}
    (hanswers : ∀ {β : Type} {q : Query β} {b : β} {held held'}, R.Answers held q b held' →
      ∃ p p', Grip.Answers ⟨p, held⟩ q b ⟨p', held'⟩)
    (hedits : ∀ {β : Type} (f : Instant → Connection → β × Connection) held, R.Allows held (.edit f))
    (hwaits : ∀ {β : Type} (q : Transfer β) s, I s →
      R.Allows (wrap { m with connection := s.connection } :: rest) (.transfer q))
    (hwrap : IsWrap wrap) (ht : t.Asks Connection.Query.Stays)
    (h : t.Safe (Session.network I) ⟨m.connection, []⟩ post) (hheld : held = wrap m :: rest) :
    (onTop t : Task α).Safe R held fun b held' =>
      ∃ s : Session, held' = wrap { m with connection := s.connection } :: rest ∧ post b s := by
  refine Asks.safeVia (fun (s : Session) held => held = wrap { m with connection := s.connection } :: rest)
    ?_ ?_ ht h hheld
  · rintro β q s _ rfl hI
    cases q with
    | edit f => exact hedits f _
    | transfer q => exact hwaits q s hI
  · rintro β q s _ b held' rfl hq hb
    obtain ⟨p, p', hb⟩ := hanswers hb
    exact Grip.answers_onTop hwrap hq hb

/-- Work on the newest connection held goes on as it does on a connection of one's own. -/
theorem leads_onTop {w w' : Connection.Task α} {s t : Session} (hwrap : IsWrap wrap)
    (hw : w.Asks Connection.Query.Stays) (h : Leads Session.anyNetwork (w, s) (w', t)) :
    Leads Grip.surroundings ((onTop w : Task α), ⟨p, wrap { m with connection := s.connection } :: rest⟩)
      ((onTop w' : Task α), ⟨p, wrap { m with connection := t.connection } :: rest⟩) := by
  have hgone : ∃ g', Leads Grip.surroundings
      ((onTop w : Task α), ⟨p, wrap { m with connection := s.connection } :: rest⟩) ((onTop w' : Task α), g') ∧
      g' = ⟨p, wrap { m with connection := t.connection } :: rest⟩ := by
    refine Asks.leadsVia
      (fun (s : Session) (g : Grip) => g = ⟨p, wrap { m with connection := s.connection } :: rest⟩) ?_ hw h rfl
    rintro β q s t _ b rfl hq hb
    refine ⟨_, ?_, rfl⟩
    cases q with
    | edit f =>
      obtain ⟨now, rfl, rfl⟩ := hb
      refine ⟨now, _, ?_, rfl⟩
      rcases hwrap with rfl | rfl | rfl <;> rfl
    | transfer q =>
      cases hb
      cases q with
      | connect | dial => exact hq.elim
      | now | resolve | settle | read | write | shutdown => rfl
  obtain ⟨_, hleads, rfl⟩ := hgone
  exact hleads

/-- Connections that do not count are gone when they are closed, and nothing else has changed. -/
theorem safe_closeHeldFree (hheld : g.held = ms.map .loose ++ rest) :
    (closeHeld ms.length).Safe Grip.free g fun _ g' => g' = ⟨g.pool, rest⟩ := by
  induction ms generalizing g with
  | nil =>
    obtain ⟨p, held⟩ := g
    exact congrArg (Grip.mk p) hheld
  | cons m ms ih =>
    unfold closeHeld closeOne
    refine Safe.andThen (Safe.andThen ((safe_onTopFree Connection.close_stays (.inr (.inr rfl)) hheld).mono
      fun _ g₁ hg₁ => safe_freeMove fun now => ?_))
    obtain ⟨hpool, m', hheld'⟩ := hg₁
    have hgone : Grip.letGo now g₁.pool g₁.held = ⟨g.pool, ms.map .loose ++ rest⟩ := by
      rw [hheld', hpool]
      rfl
    exact (congrArg (Safe Grip.free (closeHeld ms.length) · _) hgone).mpr (ih rfl)

theorem safe_deactivateFree (a : Address) :
    (deactivate a).Safe Grip.free g fun _ g' => g' = ⟨(g.pool.detach a).2, g.held⟩ := by
  unfold deactivate
  exact Safe.andThen (safe_freeMove fun now => safe_closeHeldFree rfl)

/-- What is checked in is held no longer. -/
theorem safe_checkInFree (hwrap : wrap = .borrowed ∨ wrap = .parting) (hheld : g.held = wrap m :: rest) :
    (move .checkIn >>= closeHeld : Task Unit).Safe Grip.free g fun _ g' => g'.held = rest := by
  refine Safe.andThen (safe_freeMove fun now => ?_)
  have hcheckIn : Move.checkIn.apply now g
      = Grip.hold ⟨(g.pool.checkIn m now).2, rest⟩ (g.pool.checkIn m now).1 := by
    rcases hwrap with rfl | rfl <;> simp only [Move.apply, hheld]
  rw [hcheckIn]
  exact (safe_closeHeldFree rfl).mono fun _ g' hg' => congrArg Grip.held hg'

theorem safe_releaseFree (hheld : g.held = .borrowed m :: rest) :
    release.Safe Grip.free g fun _ g' => g'.held = rest := by
  unfold release
  refine Safe.andThen ((safe_onTopFree tidy_stays (.inl rfl) hheld).mono fun _ g₁ hg₁ => ?_)
  obtain ⟨_, m', hheld'⟩ := hg₁
  exact safe_checkInFree (.inl rfl) hheld'

theorem safe_closeAndReleaseFree (hheld : g.held = .borrowed m :: rest) :
    closeAndRelease.Safe Grip.free g fun _ g' => g'.held = rest := by
  unfold closeAndRelease
  refine Safe.andThen (safe_freeMove fun now => ?_)
  have hpart : (Move.part.apply now g).2.held = .parting m :: rest := by simp only [Move.apply, hheld]
  refine Safe.andThen ((safe_onTopFree Connection.close_stays (.inr (.inl rfl)) hpart).mono fun _ g₁ hg₁ => ?_)
  obtain ⟨_, m', hheld'⟩ := hg₁
  exact safe_checkInFree (.inr rfl) hheld'

theorem safe_isHealthyFree (hheld : g.held = .borrowed m :: rest) :
    (isHealthy a deadline liveness).Safe Grip.free g fun _ g' => ∃ m, g'.held = .borrowed m :: rest := by
  unfold isHealthy
  refine Safe.andThen (safe_freeMove fun now => ?_)
  have hsame : ((Move.isCurrent a).apply now g).2 = g := by simp only [Move.apply, hheld]
  rw [hsame]
  split
  · split
    · exact (safe_onTopFree (isAlive_stays _ deadline) (.inl rfl) hheld).mono fun _ _ h => h.2
    · exact ⟨m, hheld⟩
  · exact ⟨m, hheld⟩

theorem safe_reuseFree (hheld : g.held = held) : (reuse a deadline liveness).Safe Grip.free g fun found g' =>
    if found then ∃ m, g'.held = .borrowed m :: held else g'.held = held := by
  unfold reuse
  refine safe_iterate (fun _ g => g.held = held) hheld fun _ g hheld => ?_
  refine Safe.andThen ⟨trivial, fun found g₁ ⟨now, htake⟩ => ?_⟩
  simp only [Move.apply] at htake
  split at htake
  · next m p _ =>
    cases htake
    have htaken : (Grip.mk p (.borrowed m :: g.held)).held = .borrowed m :: held := congrArg _ hheld
    refine Safe.andThen ((safe_isHealthyFree htaken).mono fun healthy g₂ hg₂ => ?_)
    obtain ⟨m', hheld'⟩ := hg₂
    cases healthy with
    | true => exact ⟨m', hheld'⟩
    | false => exact Safe.andThen ((safe_closeAndReleaseFree hheld').mono fun _ _ h => h)
  · cases htake
    exact hheld

theorem safe_openReservedFree {generation : Nat}
    (hplace : Grip.beneath g.held = .place a generation :: rest) :
    (openReserved opener a deadline).run.Safe Grip.free g fun r g' =>
      match r with
      | .ok _ => ∃ m, g'.held = .borrowed m :: rest
      | .error _ => g'.held = rest := by
  have hkeeps {β : Type} {q : Transfer β} {g₁ g₂ : Grip} {b : β}
      (hbeneath : Grip.beneath g₁.held = .place a generation :: rest) (hb : Grip.free.Answers g₁ (.transfer q) b g₂) :
      Grip.beneath g₂.held = .place a generation :: rest := by
    have hb : g₁.Answers (.transfer q) b g₂ := hb
    exact (Grip.beneath_of_transfer hb).trans hbeneath
  have hopened := safe_opening (R := Grip.free) (fun g => Grip.beneath g.held = .place a generation :: rest)
    (fun _ _ _ => trivial) hkeeps (Opening.safe_anything (opener a deadline).run) hplace
  refine safe_openReserved (fun g => g.held = rest) (fun _ _ h => h)
    (fun t ht => (safe_deactivateFree a).mono fun _ g' hg' => (congrArg Grip.held hg').trans ht)
    (hopened.mono fun r g₁ hr => ?_)
  obtain ⟨hbeneath, _⟩ := hr
  cases r with
  | ok c => exact safe_freeMove fun now => ⟨_, Grip.held_fulfil hbeneath c g₁.pool⟩
  | error e => exact safe_freeMove fun now => Grip.held_letGo hbeneath now g₁.pool

/-- Whoever acquires a connection holds one more, unless acquiring fails. -/
theorem safe_acquireFree (hheld : g.held = held) :
    (acquire opener a deadline liveness).run.Safe Grip.free g fun r g' =>
      match r with
      | .ok _ => ∃ m, g'.held = .borrowed m :: held
      | .error _ => g'.held = held := by
  refine safe_acquire (fun g => g.held = held) hheld (fun _ _ h => h) (fun t ht => safe_freeMove fun _ => ht)
    (fun t ht => (safe_reuseFree ht).mono fun found u hu => ?_)
    (fun t ht => ⟨trivial, fun room u ⟨now, hreserve⟩ => ?_⟩) fun t seen ht => ⟨trivial, ?_⟩
  · cases found <;> exact hu
  · have hplace := Grip.held_of_reserve hreserve
    rw [ht] at hplace
    cases room with
    | false => exact hplace
    | true =>
      obtain ⟨generation, hplace⟩ := hplace
      exact safe_openReservedFree (congrArg Grip.beneath hplace)
  · rintro b t' ⟨_, rfl⟩
    exact ht

/-- Work that is safe in any hands is so in any run. -/
theorem post_of_runs {w : Task α} {post : α → Grip → Prop} {b : α} (h : w.Safe Grip.free g post)
    (hrun : Runs Grip.surroundings w g b g') : post b g' := by
  have hanswers {β : Type} {s t : Grip} {q : Query β} {b : β} (hb : Grip.surroundings.Answers s q b t) :
      Grip.free.Answers s q b t := hb
  exact h.of_runs (hrun.seen id hanswers)

end Pool
end BoltClient
