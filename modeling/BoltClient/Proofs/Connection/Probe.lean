import BoltClient.Pool.Task
import BoltClient.Proofs.Connection.Conversation

namespace BoltClient

/-- An answer that no RESET should get. -/
def Response.isStray : Response → Bool
  | record _ | ignored => true
  | success _ | failure _ => false

namespace Connection

open Work Session

section

variable {c : Connection}

/-- What comes of the answer to a RESET. -/
theorem receive_of_reset (hpending : c.pending = [resetExchange]) (r : Response) :
    match (c.receive r).2.1 with
    | none => r.isStray = false ∧ (c.receive r).2.2.pending = []
    | some trouble => trouble.purpose = .reset ∧ (trouble.error = none → r.isStray = true) := by
  unfold receive
  rw [hpending]
  cases r with
  | record values => exact ⟨rfl, fun _ => rfl⟩
  | success metadata => exact ⟨rfl, rfl⟩
  | ignored => exact ⟨rfl, fun _ => rfl⟩
  | failure metadata => exact ⟨rfl, fun h => nomatch h⟩

end

section

variable {c₀ d : Connection} {told : List Response} {s : Session} {I : Session → Prop}

structure Awaits (c₀ : Connection) (s : Session) : Prop where
  tracks : Tracks c₀ [resetExchange] [] s
  closed : s.connection.closed = false
  defunct : s.connection.defunct = false
  pending : s.connection.pending = [resetExchange]

/-- A connection has been tried out, and these are the answers that it got. -/
structure Tried (c₀ : Connection) (told : List Response) (s : Session) : Prop where
  hears : Hears c₀ told s
  defunct : s.connection.defunct = false
  /-- The connection can be used unless there was an answer that no RESET should get. -/
  usable : s.connection.Usable ↔ ∀ r ∈ told, r.isStray = false

theorem Awaits.unharmed (h : Awaits c₀ s) (hd : Unharmed s.connection d) : Awaits c₀ ⟨d, s.heard⟩ where
  tracks := ⟨h.tracks.correlated.congr hd.answered hd.pending,
    h.tracks.hears.congr hd.inbox fun hs => by rw [hd.defunct, hs]⟩
  closed := hd.closed.trans h.closed
  defunct := hd.defunct.trans h.defunct
  pending := hd.pending.trans h.pending

theorem Awaits.waiting (h : Awaits c₀ s) : Waiting c₀ [] s := ⟨1, [], h.tracks⟩

theorem Tried.unharmed (h : Tried c₀ told s) (hd : Unharmed s.connection d) :
    Tried c₀ told ⟨d, s.heard⟩ where
  hears := h.hears.congr hd.inbox fun hs => by rw [hd.defunct, hs]
  defunct := hd.defunct.trans h.defunct
  usable := by
    rw [← h.usable]
    exact ⟨fun h => ⟨hd.closed ▸ h.closed, hd.defunct ▸ h.defunct, hd.pending ▸ h.pending⟩,
      fun h => ⟨hd.closed.trans h.closed, hd.defunct.trans h.defunct, hd.pending.trans h.pending⟩⟩

/-- One answer comes in, or the connection fails. -/
theorem fetchOne_awaits (h : Awaits c₀ s) :
    fetchOne.run.Safe (network (Waiting c₀ [])) s fun r t =>
      match r with
      | .ok (_, none) => ∃ a, Tried c₀ [a] t ∧ t.connection.isQuiet = true
      | .ok (_, some trouble) => trouble.purpose = .reset ∧ (trouble.error = none → ∃ a,
          a.isStray = true ∧ Hears c₀ [a] t ∧ t.connection.defunct = false)
      | .error _ => True := by
  refine (@safe_fetchOneTold c₀ [] s 1 [] h.tracks).mono fun r t ht => ?_
  match r with
  | .error e => exact trivial
  | .ok (counts, trouble) =>
    rcases ht with ⟨hnone, _⟩ | ⟨a, c, hbooks, _, _, hdefunct, hclosed, hhears, hreceived⟩
    · rw [h.pending] at hnone
      cases hnone
    · have hlink := sameLink_receive c a
      have hreceive := receive_of_reset (hbooks.pending.trans h.pending) a
      rw [hreceived] at hlink hreceive
      have hworks : t.connection.defunct = false := hlink.defunct.trans hdefunct
      have hheard : Hears c₀ [a] t :=
        hhears.congr hlink.inbox fun hs => by rw [hdefunct] at hs; cases hs
      cases trouble with
      | none =>
        obtain ⟨hfits, hdone⟩ := hreceive
        have hnone : t.connection.pending = [] := hdone
        refine ⟨a, ⟨hheard, hworks, ?_⟩, ?_⟩
        · exact iff_of_true ⟨hlink.closed.trans hclosed, hworks, hnone⟩ (by simpa using hfits)
        · simp [isQuiet, hnone]
      | some trouble =>
        exact ⟨hreceive.1, fun hnone => ⟨a, hreceive.2 hnone, hheard, hworks⟩⟩

/-- Whatever is wrong with the answer, the connection is closed. -/
theorem settleBeforeReset_tried {trouble : Trouble} (hpurpose : trouble.purpose = .reset)
    (h : trouble.error = none → ∃ a, a.isStray = true ∧ Hears c₀ [a] s ∧ s.connection.defunct = false) :
    (settleBeforeReset trouble).run.Safe (network I) s fun r t =>
      r = .ok () → ∃ a, Tried c₀ [a] t ∧ t.connection.isQuiet = true := by
  unfold settleBeforeReset
  rw [if_pos hpurpose]
  refine Safe.orFail (safe_editAmid fun _ => ?_)
  dsimp only
  split
  · exact fun h => nomatch h
  · next hnone =>
    obtain ⟨a, hstray, hhears, hdefunct⟩ := h hnone
    refine safe_ok fun _ => ⟨a, ⟨hhears.congr rfl id, hdefunct, ?_⟩, rfl⟩
    refine iff_of_false (fun h => ?_) (fun h => ?_)
    · cases h.closed
    · rw [h a List.mem_cons_self] at hstray
      cases hstray

/-- A RESET on a connection that can be used ends in failure, or one answer has come in. -/
theorem reset_tries (htracks : Tracks c₀ [] [] s) (hs : s.connection.Usable) :
    reset.run.Safe (network (Waiting c₀ [])) s fun r t => r = .ok () → ∃ a, Tried c₀ [a] t := by
  unfold reset
  refine Safe.orFail (safe_attempt fun _ => ?_)
  have hqueue := queue_cases s.connection .reset .reset {}
  generalize s.connection.queue .reset .reset {} = queued at hqueue
  obtain ⟨outcome, d⟩ := queued
  rcases hqueue with ⟨⟨e, rfl⟩, _⟩ | ⟨rfl, hbegins⟩
  · exact fun h => nomatch h
  · have hd : Awaits c₀ ⟨d, s.heard⟩ :=
      ⟨htracks.begin hbegins, hbegins.closed.trans hs.closed, hbegins.defunct.trans hs.defunct,
        by rw [hbegins.pending, hs.pending]; rfl⟩
    refine Safe.orFail ((safe_sendAll hd.waiting).mono fun r t ht => ?_)
    obtain ⟨_, hheard, hunharmed⟩ := ht
    cases r with
    | error e => exact fun h => nomatch h
    | ok =>
      have hsent : Awaits c₀ t := by
        have hawaits := hd.unharmed (hunharmed rfl)
        rwa [← hheard] at hawaits
      refine safe_iterateOrFail (fun _ u => Awaits c₀ u ∨ ∃ a, Tried c₀ [a] u ∧
        u.connection.isQuiet = true) (.inl hsent) fun _ u hu => ?_
      refine Safe.orFail (safe_editAmid fun _ => ?_)
      dsimp only
      rcases hu with hu | ⟨a, htried, hquiet⟩
      · have hbusy : ¬u.connection.isQuiet = true := by simp [isQuiet, hu.closed, hu.pending]
        rw [if_neg hbusy]
        refine Safe.orFail ((fetchOne_awaits hu).mono fun r v hv => ?_)
        match r with
        | .error e => exact fun h => nomatch h
        | .ok (_, none) => exact safe_ok (.inr hv)
        | .ok (_, some trouble) =>
          refine Safe.orFail ((settleBeforeReset_tried hv.1 hv.2).mono fun r w hw => ?_)
          cases r with
          | error e => exact fun h => nomatch h
          | ok => exact safe_ok (.inr (hw rfl))
      · rw [if_pos hquiet]
        exact safe_ok fun _ => ⟨a, htried⟩

/-- A connection that is said to be alive was not tried out at all, or got one answer. -/
theorem isAlive_tries (idleTime : Duration) (deadline : Deadline) (htracks : Tracks c₀ [] [] s)
    (hs : s.connection.Usable) :
    (Pool.isAlive idleTime deadline).Safe (network (Waiting c₀ [])) s fun alive t =>
      alive = true → ∃ told, told.length ≤ 1 ∧ Tried c₀ told t := by
  unfold Pool.isAlive
  refine Safe.andThen (safe_edit fun now => ?_)
  dsimp only
  split
  · let c : Connection := { s.connection with deadline := deadline }
    have hready : Tracks c₀ [] [] ⟨c, s.heard⟩ := htracks.keeps ⟨⟨rfl, rfl, rfl, id⟩, rfl, id⟩
    have husable : c.Usable := ⟨hs.closed, hs.defunct, hs.pending⟩
    refine Safe.andThen (safe_edit fun _ => ?_)
    refine Safe.andThen ((reset_tries hready husable).mono fun r t ht => ?_)
    refine Safe.andThen (safe_edit fun _ => ?_)
    cases r with
    | error e => exact fun h => nomatch h
    | ok =>
      obtain ⟨a, htried⟩ := ht rfl
      exact fun _ => ⟨[a], Nat.le_refl _, htried.unharmed ⟨⟨rfl, rfl, rfl, rfl⟩, rfl, rfl⟩⟩
  · exact fun _ => ⟨[], Nat.zero_le _, htracks.hears, hs.defunct, iff_of_true hs (by simp)⟩

end

end Connection
end BoltClient
