import BoltClient.Proofs.Connection.Listening

namespace BoltClient.Connection

open Work Session

section

variable {c₀ : Connection} {begun : List Exchange} {s : Session}

theorem safe_flush (h : Waiting c₀ begun s) :
    flush.run.Safe (network (Waiting c₀ begun)) s fun r t =>
      Keeps s.connection t.connection ∧ t.heard = s.heard ∧
      (r = .ok () → Unharmed s.connection t.connection) := by
  unfold flush
  refine Safe.orFail (safe_attempt fun _ => ?_)
  have hbegin := keeps_beginWrite s.connection
  have hunharmed := @unharmed_beginWrite s.connection
  generalize s.connection.beginWrite = began at hbegin hunharmed
  obtain ⟨outcome, d⟩ := began
  match outcome with
  | .error e => exact ⟨hbegin, rfl, fun h => nomatch h⟩
  | .ok none => exact safe_ok ⟨hbegin, rfl, fun _ => hunharmed rfl⟩
  | .ok (some o) =>
    refine Safe.orFail (safe_silentAmid (h.keeps hbegin) (fun _ => rfl) fun outcome => ?_)
    exact safe_attempt fun now => ⟨hbegin.trans (keeps_endWrite outcome now d), rfl,
      fun hok => (hunharmed rfl).trans (unharmed_endWrite hok)⟩

theorem safe_sendAll (h : Waiting c₀ begun s) :
    sendAll.run.Safe (network (Waiting c₀ begun)) s fun r t =>
      Keeps s.connection t.connection ∧ t.heard = s.heard ∧
      (r = .ok () → Unharmed s.connection t.connection) := by
  unfold sendAll
  refine Safe.orFail (safe_attempt fun _ => ?_)
  have hcheck := (check_cases s.connection .writing).1
  have hsame := @check_of_ok s.connection .writing
  generalize s.connection.check .writing = checked at hcheck hsame
  obtain ⟨outcome, d⟩ := checked
  cases outcome with
  | error e => exact ⟨hcheck, rfl, fun h => nomatch h⟩
  | ok =>
    obtain rfl := hsame rfl
    exact safe_flush h

/-- The next answer is taken out of the bytes of the server, and nothing else happens. -/
theorem safe_nextAnswer {n : Nat} {told : List Response}
    (h : Tracks c₀ (begun ++ List.replicate n resetExchange) told s)
    (hdefunct : s.connection.defunct = false) (hclosed : s.connection.closed = false) :
    nextAnswer.run.Safe (network (Waiting c₀ begun)) s fun r t =>
      SameBooks s.connection t.connection ∧
      match r with
      | .ok a => Hears c₀ (told ++ [a]) t ∧ t.connection.defunct = false ∧ t.connection.closed = false
      | .error _ => Hears c₀ told t := by
  unfold nextAnswer
  refine safe_iterateOrFail (fun _ t => SameBooks s.connection t.connection ∧ Hears c₀ told t ∧
    t.connection.defunct = false ∧ t.connection.closed = false)
    ⟨⟨rfl, rfl, rfl, id⟩, h.hears, hdefunct, hclosed⟩ ?_
  rintro _ t ⟨hbooks, hhears, hworks, hopen⟩
  refine Safe.orFail (safe_attempt fun now => ?_)
  obtain ⟨hsame, hcases⟩ := beginRead_cases now t.connection
  generalize t.connection.beginRead now = began at hsame hcases
  obtain ⟨outcome, d⟩ := began
  match outcome with
  | .error e => exact ⟨hbooks.trans hsame, hhears.lose hcases⟩
  | .ok (.answer a) =>
    obtain ⟨inbox, hnext, rfl, hdefunct, hclosed⟩ := hcases
    exact safe_ok ⟨hbooks.trans hsame, hhears.take hworks hnext, hdefunct.trans hworks,
      hclosed.trans hopen⟩
  | .ok (.read link deadline) =>
    obtain ⟨inbox, hnext, rfl, hdefunct, hclosed⟩ := hcases
    rw [hworks] at hdefunct
    rw [hopen] at hclosed
    have hbooks := hbooks.trans hsame
    have hhears := hhears.nothing hworks hnext
    refine Safe.orFail (safe_transferAmid ?_ fun input => Safe.orFail (safe_attempt fun _ => ?_))
    · exact ⟨n, told, h.correlated.congr hbooks.answered hbooks.pending, hhears⟩
    by_cases hbytes : ∃ b, input = .bytes b
    · obtain ⟨b, rfl⟩ := hbytes
      exact safe_ok ⟨⟨hbooks.answered, hbooks.pending, hbooks.closing, hbooks.closed⟩,
        hhears.feed hdefunct rfl, hdefunct, hclosed⟩
    · have hinput : ∀ b, input ≠ .bytes b := fun b hb => hbytes ⟨b, hb⟩
      have hheard : (Transfer.read link none deadline).heard input = [] := by
        cases input with
        | bytes b => exact absurd rfl (hinput b)
        | ended | failed | late => rfl
      obtain ⟨⟨e, he⟩, hkeeps, hlost⟩ := endRead_nothing hinput d
      rw [hheard, List.append_nil, he]
      exact ⟨hbooks.trans hkeeps.toSameBooks, hhears.lose hlost⟩

/-- An answer is taken in if one is pending, unless the connection fails before that. -/
theorem safe_fetchOneTold {n : Nat} {told : List Response}
    (h : Tracks c₀ (begun ++ List.replicate n resetExchange) told s) :
    fetchOne.run.Safe (network (Waiting c₀ begun)) s fun r t =>
      match r with
      | .error _ => SameBooks s.connection t.connection ∧ Hears c₀ told t
      | .ok (counts, trouble) => (s.connection.pending = [] ∧ trouble = none ∧ t = s) ∨
          ∃ a c, SameBooks s.connection c ∧ s.connection.pending ≠ [] ∧ s.connection.closed = false ∧
            c.defunct = false ∧ c.closed = false ∧ Hears c₀ (told ++ [a]) ⟨c, t.heard⟩ ∧
            c.receive a = (counts, trouble, t.connection) := by
  unfold fetchOne
  refine Safe.orFail (safe_attempt fun _ => ?_)
  obtain ⟨hcheck, hpassed⟩ := check_cases s.connection .reading
  have hsame := @check_of_ok s.connection .reading
  generalize s.connection.check .reading = checked at hcheck hpassed hsame
  obtain ⟨outcome, d⟩ := checked
  cases outcome with
  | error e => exact ⟨hcheck.toSameBooks, h.hears.congr hcheck.inbox hcheck.defunct⟩
  | ok =>
    obtain ⟨hdefunct, hclosed⟩ := hpassed rfl
    obtain rfl := hsame rfl
    refine Safe.orFail (safe_editAmid fun _ => ?_)
    dsimp only
    split
    · next hnone => exact safe_ok (.inl ⟨List.isEmpty_iff.mp hnone, rfl, rfl⟩)
    · next hsome =>
      refine Safe.orFail ((safe_nextAnswer h hdefunct hclosed).mono fun r t ht => ?_)
      obtain ⟨hbooks, ht⟩ := ht
      cases r with
      | error e => exact ⟨hbooks, ht⟩
      | ok a =>
        obtain ⟨hhears, hworks, hopen⟩ := ht
        -- the time of the answer is noted first
        refine safe_editAmid fun now => .inr ⟨a, { t.connection with lastUsed := now }, ?_, ?_, hclosed,
          hworks, hopen, hhears.congr rfl id, rfl⟩
        · exact ⟨hbooks.answered, hbooks.pending, hbooks.closing, hbooks.closed⟩
        · exact fun hnone => hsome (List.isEmpty_iff.mpr hnone)

/-- One answer is taken in and goes where it belongs, unless the connection fails. Only an answer to RESET
can be left to be dealt with. -/
theorem safe_fetchOne (h : Rested c₀ begun s) :
    fetchOne.run.Safe (network (Waiting c₀ begun)) s fun r t =>
      match r with
      | .ok (_, trouble) => Owing c₀ begun trouble t
      | .error _ => Rested c₀ begun t := by
  obtain ⟨n, told, htracks, hclosing, hplaced⟩ := h
  refine (safe_fetchOneTold htracks).mono fun r t ht => ?_
  match r with
  | .error e =>
    obtain ⟨hbooks, hhears⟩ := ht
    exact ⟨n, told, ⟨htracks.correlated.congr hbooks.answered hbooks.pending, hhears⟩,
      by rw [hbooks.closing, hclosing], fun hc hm => hbooks.closed (hplaced hc hm)⟩
  | .ok (counts, trouble) =>
    rcases ht with ⟨_, _, rfl⟩ | ⟨a, c, hbooks, hsome, hclosed, _, _, hhears, hreceived⟩
    · exact Rested.owing ⟨n, told, htracks, hclosing, hplaced⟩ trouble
    · have hunplaced (hc : c₀.closing = false) :
          ¬Misplaced c₀ (begun ++ List.replicate n resetExchange) told := by
        intro hm
        rw [hplaced hc hm] at hclosed
        cases hclosed
      obtain ⟨x, rest, hpending⟩ := List.exists_cons_of_ne_nil hsome
      have hreceive := Tracks.receive (s := ⟨c, t.heard⟩)
        (htracks.correlated.congr hbooks.answered hbooks.pending) hhears (hbooks.pending.trans hpending)
      have hlink := sameLink_receive c a
      rw [hreceived] at hreceive hlink
      obtain ⟨htold, htrouble⟩ := hreceive
      have hsame : t.connection.closing = c₀.closing := by rw [hlink.closing, hbooks.closing, hclosing]
      refine ⟨⟨n, _, htold⟩, hsame, fun hdealt => ?_⟩
      exact ⟨n, _, htold, hsame, fun hc hm => absurd (htrouble (hunplaced hc) hm) hdealt⟩

theorem safe_hangUp (h : Waiting c₀ begun s) (hclosing : c₀.closing = false) :
    hangUp.Safe (network (Waiting c₀ begun)) s fun _ t => Rested c₀ begun t := by
  unfold hangUp
  refine Safe.andThen (safe_edit fun _ => ?_)
  have hunlinked : Waiting c₀ begun ⟨{ s.connection with transport := none }, s.heard⟩ :=
    h.congr rfl rfl rfl id
  dsimp only
  split
  · refine Safe.andThen (safe_silent hunlinked (fun _ => rfl) fun _ => safe_edit fun _ => ?_)
    exact Waiting.rested (hunlinked.congr rfl rfl rfl id) hclosing.symm fun _ => rfl
  · exact safe_edit fun _ =>
      Waiting.rested (hunlinked.congr rfl rfl rfl id) hclosing.symm fun _ => rfl

/-- However it goes, the connection is closed in the end. -/
theorem safe_close (h : Waiting c₀ begun s) (hclosing : s.connection.closing = c₀.closing) :
    close.Safe (network (Waiting c₀ begun)) s fun _ t => Rested c₀ begun t := by
  unfold close
  refine Safe.andThen (safe_edit fun _ => ?_)
  have hbegin := beginClose_cases s.connection
  generalize s.connection.beginClose = began at hbegin
  obtain ⟨todo, d⟩ := began
  cases todo with
  | none =>
    obtain ⟨hparted, rfl⟩ := hbegin
    refine h.rested hclosing fun hc => hparted.resolve_right ?_
    rw [hclosing, hc]
    exact Bool.false_ne_true
  | some writes =>
    obtain ⟨hcalm, hanswered, hpending, hinbox, hdefunct⟩ := hbegin
    rw [hclosing] at hcalm
    have hd : Waiting c₀ begun ⟨d, s.heard⟩ :=
      h.congr hanswered hpending hinbox fun hs => by rw [← hs]; exact hdefunct
    cases writes with
    | false => exact safe_hangUp hd hcalm
    | true =>
      refine Safe.andThen ((safe_flush hd).mono fun _ t ht => safe_hangUp ?_ hcalm)
      rw [← ht.2.1] at hd
      exact hd.keeps ht.1

theorem safe_kill (h : Waiting c₀ begun s) (hclosing : s.connection.closing = c₀.closing) :
    (change kill : Attempt Unit).run.Safe (network (Waiting c₀ begun)) s fun _ t => Rested c₀ begun t :=
  safe_editAmid fun _ => Waiting.rested (h.keeps (keeps_kill s.connection)) hclosing fun _ => rfl

theorem safe_settleBeforeReset {trouble : Trouble} (h : Owing c₀ begun (some trouble) s) :
    (settleBeforeReset trouble).run.Safe (network (Waiting c₀ begun)) s fun _ t =>
      Rested c₀ begun t := by
  obtain ⟨hwaiting, hclosing, hrested⟩ := h
  unfold settleBeforeReset
  split
  · refine Safe.orFail ((safe_kill hwaiting hclosing).mono fun r t ht => ?_)
    cases r with
    | error e => exact ht
    | ok =>
      dsimp only
      split
      · exact safe_throw ht
      · exact safe_ok ht
  · split
    · next hpurpose hremedy =>
      refine safe_ok (hrested ?_)
      rintro ⟨rfl⟩
      cases hremedy
    · exact safe_kill hwaiting hclosing
    · exact safe_taskAmid (safe_close hwaiting hclosing)

/-- A RESET comes behind everything that is pending. -/
theorem safe_reset (h : Rested c₀ begun s) :
    reset.run.Safe (network (Waiting c₀ begun)) s fun _ t => Rested c₀ begun t := by
  unfold reset
  refine Safe.orFail (safe_attempt fun _ => ?_)
  have hqueue := queue_cases s.connection .reset .reset {}
  generalize s.connection.queue .reset .reset {} = queued at hqueue
  obtain ⟨outcome, d⟩ := queued
  rcases hqueue with ⟨⟨e, rfl⟩, rfl⟩ | ⟨rfl, hbegins⟩
  · exact h
  · have hd : Rested c₀ begun ⟨d, s.heard⟩ := h.beginReset hbegins
    refine Safe.orFail ((safe_sendAll hd.waiting.1).mono fun r t ht => ?_)
    have hsent : Rested c₀ begun t := by
      have hkeeps := hd.keeps ht.1
      rwa [← ht.2.1] at hkeeps
    cases r with
    | error e => exact hsent
    | ok =>
      refine safe_iterateOrFail (fun _ u => Rested c₀ begun u) hsent fun _ u hu => ?_
      refine Safe.orFail (safe_editAmid fun _ => ?_)
      dsimp only
      split
      · exact safe_ok hu
      · refine Safe.orFail ((safe_fetchOne hu).mono fun r v hv => ?_)
        match r with
        | .error e => exact hv
        | .ok (_, none) => exact safe_ok (hv.2.2 (by simp))
        | .ok (_, some trouble) =>
          refine Safe.orFail ((safe_settleBeforeReset hv).mono fun r w hw => ?_)
          cases r with
          | error e => exact hw
          | ok => exact safe_ok hw

theorem safe_giveError {trouble : Trouble} (h : Rested c₀ begun s) :
    (giveError trouble).run.Safe (network (Waiting c₀ begun)) s fun _ t => Rested c₀ begun t := by
  unfold giveError
  split
  · exact safe_throw h
  · exact safe_ok h

theorem safe_settle {trouble : Trouble} (h : Owing c₀ begun (some trouble) s) :
    (settle trouble).run.Safe (network (Waiting c₀ begun)) s fun _ t => Rested c₀ begun t := by
  obtain ⟨hwaiting, hclosing, hrested⟩ := h
  obtain ⟨purpose, remedy, error⟩ := trouble
  have hgive {w : Attempt Unit} (hw : w.run.Safe (network (Waiting c₀ begun)) s fun _ t =>
      Rested c₀ begun t) : (w >>= fun _ => giveError ⟨purpose, remedy, error⟩).run.Safe
        (network (Waiting c₀ begun)) s fun _ t => Rested c₀ begun t := by
    refine Safe.orFail (hw.mono fun r t ht => ?_)
    cases r with
    | error e => exact ht
    | ok => exact safe_giveError ht
  cases remedy with
  | reset =>
    refine hgive (Safe.orElse ((safe_reset (hrested nofun)).mono fun r t ht => ?_))
    cases r with
    | ok => exact ht
    | error e =>
      dsimp only
      split
      · exact safe_ok ht
      · exact safe_throw ht
  | kill => exact hgive (safe_kill hwaiting hclosing)
  | close => exact hgive (safe_taskAmid (safe_close hwaiting hclosing))

theorem safe_fetchMessage (h : Rested c₀ begun s) :
    fetchMessage.run.Safe (network (Waiting c₀ begun)) s fun _ t => Rested c₀ begun t := by
  unfold fetchMessage
  refine Safe.orFail ((safe_fetchOne h).mono fun r t ht => ?_)
  match r with
  | .error e => exact ht
  | .ok (_, none) => exact safe_ok (ht.2.2 (by simp))
  | .ok (_, some trouble) =>
    refine Safe.orFail ((safe_settle ht).mono fun r u hu => ?_)
    cases r with
    | error e => exact hu
    | ok => exact safe_ok hu

theorem safe_fetchAll (h : Rested c₀ begun s) :
    fetchAll.run.Safe (network (Waiting c₀ begun)) s fun _ t => Rested c₀ begun t := by
  unfold fetchAll
  refine safe_iterateOrFail (fun _ t => Rested c₀ begun t) h fun _ t ht => ?_
  refine Safe.orFail (safe_editAmid fun _ => ?_)
  dsimp only
  split
  · exact safe_ok ht
  · refine Safe.orFail ((safe_fetchMessage ht).mono fun r u hu => ?_)
    cases r with
    | error e => exact hu
    | ok => exact safe_ok hu

end

end BoltClient.Connection
