import BoltClient.Proofs.Connection.Calls
import BoltClient.Proofs.Connection.Warning

namespace BoltClient.Connection

open Work Session

section

variable {clear : Prop} {s : Session} {trouble : Trouble}

/-- What work leaves behind: an error that warns, or a connection of which something holds. -/
def Ends {α : Type} (clear : Prop) (post : α → Connection → Prop) (r : Except Error α) (t : Session) : Prop :=
  match r with
  | .ok a => post a t.connection
  | .error e => Warns clear e t.connection

/-- The same, and everything waits that waited before. -/
def EndsWith {α : Type} (clear : Prop) (pending : List Exchange) (r : Except Error α) (t : Session) : Prop :=
  t.connection.pending = pending ∧ Ends clear (fun _ d => Ready clear d) r t

theorem flush_ends (h : Ready clear s.connection) :
    flush.run.Safe anyNetwork s (EndsWith clear s.connection.pending) := by
  unfold flush
  refine Safe.orFail (safe_attempt fun _ => ?_)
  have hbegin := beginWrite_ends h
  generalize s.connection.beginWrite = began at hbegin
  obtain ⟨outcome, d⟩ := began
  match outcome with
  | .error e => exact hbegin
  | .ok none => exact safe_ok hbegin
  | .ok (some o) =>
    refine Safe.orFail (safe_transferAmid trivial fun outcome => safe_attempt fun now => ?_)
    have hend := endWrite_ends hbegin.2 outcome now
    rw [hbegin.1] at hend
    generalize d.endWrite outcome now = ended at hend
    obtain ⟨outcome, d⟩ := ended
    cases outcome with
    | error e => exact hend
    | ok => exact hend

theorem sendAll_ends (h : Ready clear s.connection) :
    sendAll.run.Safe anyNetwork s (EndsWith clear s.connection.pending) := by
  unfold sendAll
  refine Safe.orFail (safe_attempt fun _ => ?_)
  rw [check_of_works h.works]
  exact flush_ends h

theorem nextAnswer_ends (h : Ready clear s.connection) :
    nextAnswer.run.Safe anyNetwork s (EndsWith clear s.connection.pending) := by
  unfold nextAnswer
  refine safe_iterateOrFail (fun _ t => t.connection.pending = s.connection.pending ∧
    Ready clear t.connection) ⟨rfl, h⟩ ?_
  rintro _ t ⟨hpending, ht⟩
  refine Safe.orFail (safe_attempt fun now => ?_)
  have hbegin := beginRead_ends ht now
  rw [hpending] at hbegin
  generalize t.connection.beginRead now = began at hbegin
  obtain ⟨outcome, d⟩ := began
  match outcome with
  | .error e => exact hbegin
  | .ok (.answer a) => exact safe_ok hbegin
  | .ok (.read link deadline) =>
    refine Safe.orFail (safe_transferAmid trivial fun input => Safe.orFail (safe_attempt fun _ => ?_))
    have hend := endRead_ends hbegin.2 input
    rw [hbegin.1] at hend
    generalize d.endRead input = ended at hend
    obtain ⟨outcome, d⟩ := ended
    cases outcome with
    | error e => exact hend
    | ok => exact safe_ok hend

theorem fetchOne_ends (h : Ready clear s.connection) : fetchOne.run.Safe anyNetwork s
    (Ends clear fun (_, trouble) d => Ready clear d ∧ ∀ t, trouble = some t → Due clear t d) := by
  unfold fetchOne
  refine Safe.orFail (safe_attempt fun _ => ?_)
  rw [check_of_works h.works]
  refine Safe.orFail (safe_editAmid fun _ => ?_)
  dsimp only
  split
  · exact safe_ok ⟨h, fun _ hnone => nomatch hnone⟩
  · next hsome =>
    refine Safe.orFail ((nextAnswer_ends h).mono fun r t ht => ?_)
    obtain ⟨hpending, ht⟩ := ht
    cases r with
    | error e => exact ht
    | ok a =>
      obtain ⟨x, rest, hx⟩ := List.exists_cons_of_ne_nil (by simpa using hsome)
      refine safe_editAmid fun now => ?_
      have hnoted : Ready clear { t.connection with lastUsed := now } := Ready.congr ht rfl rfl rfl rfl
      exact ⟨hnoted.receive (hpending.trans hx) a, fun _ htrouble => hnoted.due (hpending.trans hx) htrouble⟩

def Over (clear : Prop) (c : Connection) : Prop := Ready clear c ∨ c.closed = true

theorem hangUp_ends (s : Session) : hangUp.Safe anyNetwork s fun _ t =>
    t.connection.pending = s.connection.pending ∧ t.connection.closed = true := by
  unfold hangUp
  refine Safe.andThen (safe_edit fun _ => ?_)
  dsimp only
  split
  · exact Safe.andThen (safe_transfer trivial fun _ => safe_edit fun _ => ⟨rfl, rfl⟩)
  · exact safe_edit fun _ => ⟨rfl, rfl⟩

/-- A connection that parts waits for what it waited for. -/
theorem close_ends (h : Ready clear s.connection) : close.Safe anyNetwork s fun _ t =>
    t.connection.pending = s.connection.pending ∧ Over clear t.connection := by
  unfold close
  refine Safe.andThen (safe_edit fun _ => ?_)
  have hbegin := beginClose_ends h
  generalize s.connection.beginClose = began at hbegin
  obtain ⟨todo, d⟩ := began
  have hhangUp (t : Session) (ht : t.connection.pending = s.connection.pending) :
      hangUp.Safe anyNetwork t fun _ u =>
        u.connection.pending = s.connection.pending ∧ Over clear u.connection :=
    (hangUp_ends t).mono fun _ u hu => ⟨hu.1.trans ht, .inr hu.2⟩
  match todo with
  | none => exact ⟨hbegin.1, .inl hbegin.2⟩
  | some false => exact hhangUp _ hbegin.1
  | some true =>
    exact Safe.andThen ((flush_ends hbegin.2).mono fun _ t ht => hhangUp t (ht.1.trans hbegin.1))

theorem settleBeforeReset_ends (h : Ready clear s.connection) (hdue : Due clear trouble s.connection) :
    (settleBeforeReset trouble).run.Safe anyNetwork s (Ends clear fun _ d =>
      Ready clear d ∨ d.closed = true ∧ (clear → ¬AwaitsCommit d)) := by
  unfold settleBeforeReset
  split
  · next hpurpose =>
    have hnone := hdue.not_awaits (d := s.connection.kill) (hdue.ofReset hpurpose) rfl
    refine Safe.orFail (safe_editAmid fun _ => ?_)
    dsimp only
    split
    · next e he => exact safe_throw (hdue.warns hnone he)
    · exact safe_ok (.inr ⟨rfl, hnone⟩)
  · split
    · exact safe_ok (.inl h)
    · next hremedy =>
      exact safe_editAmid fun _ => .inr ⟨rfl, hdue.not_awaits (by rw [hremedy]; decide) rfl⟩
    · next hremedy =>
      refine safe_taskAmid ((close_ends h).mono fun _ t ht => ht.2.imp_right fun hclosed => ?_)
      exact ⟨hclosed, hdue.not_awaits (by rw [hremedy]; decide) ht.1⟩

theorem Ready.queueReset {c : Connection} (h : Ready clear c) :
    Ready clear (c.queue .reset .reset {}).2 := by
  rw [queue_reset]
  refine ⟨⟨h.works.settled, h.works.defunct, h.works.closed⟩, fun hclear => ?_⟩
  have hlast : ∀ x ∈ c.pending, ∀ y ∈ [resetExchange], y.purpose = .commit →
      x.purpose = .plain ∨ x.purpose = .commit := by
    rintro x _ y hy hcommit
    rw [List.mem_singleton.mp hy] at hcommit
    cases hcommit
  exact List.pairwise_append.mpr ⟨h.clear hclear, List.pairwise_singleton _ _, hlast⟩

/-- A RESET that ends well leaves no commit waiting if the way was clear. -/
theorem reset_ends (h : Ready clear s.connection) : reset.run.Safe anyNetwork s
    (Ends clear fun _ d => Over clear d ∧ (clear → ¬AwaitsCommit d)) := by
  unfold reset
  refine Safe.orFail (safe_attempt fun _ => ?_)
  have hqueued := h.queueReset
  rw [queue_reset] at hqueued ⊢
  refine Safe.orFail ((sendAll_ends hqueued).mono fun r t ht => ?_)
  cases r with
  | error e => exact ht.2
  | ok =>
    refine safe_iterateOrFail (fun _ u => Ready clear u.connection ∨
      u.connection.closed = true ∧ (clear → ¬AwaitsCommit u.connection)) (.inl ht.2) fun _ u hu => ?_
    refine Safe.orFail (safe_editAmid fun _ => ?_)
    dsimp only
    split
    · next hquiet =>
      rcases hu with hready | ⟨hclosed, hnone⟩
      · have hempty : u.connection.pending = [] := by
          simpa [isQuiet, hready.works.closed] using hquiet
        exact safe_ok ⟨.inl hready, fun _ => by simp [AwaitsCommit, hempty]⟩
      · exact safe_ok ⟨.inr hclosed, hnone⟩
    · next hbusy =>
      have hready : Ready clear u.connection := hu.resolve_right fun hu => hbusy (by simp [isQuiet, hu.1])
      refine Safe.orFail ((fetchOne_ends hready).mono fun r v hv => ?_)
      cases r with
      | error e => exact hv
      | ok outcome =>
        obtain ⟨_, _ | trouble⟩ := outcome
        · exact safe_ok (.inl hv.1)
        · refine Safe.orFail ((settleBeforeReset_ends hv.1 (hv.2 _ rfl)).mono fun r w hw => ?_)
          cases r with
          | error e => exact hw
          | ok => exact safe_ok hw

/-- An error is given where no commit waits if the way was clear. -/
theorem giveError_ends {c : Connection} {post : Unit → Connection → Prop} (hdue : Due clear trouble c)
    (hnone : clear → ¬AwaitsCommit s.connection) (hok : trouble.error = none → post () s.connection) :
    (giveError trouble).run.Safe anyNetwork s (Ends clear post) := by
  unfold giveError
  split
  · next e he => exact safe_throw (hdue.warns hnone he)
  · next hno => exact safe_ok (hok hno)

theorem settle_ends (h : Ready clear s.connection) (hdue : Due clear trouble s.connection) :
    (settle trouble).run.Safe anyNetwork s (Ends clear fun _ => Over clear) := by
  unfold settle
  split
  · next hremedy =>
    have htold := hdue.told hremedy
    refine Safe.orFail (Safe.orElse ((reset_ends h).mono fun r t ht => ?_))
    cases r with
    | ok => exact giveError_ends hdue ht.2 fun hno => absurd hno htold
    | error e =>
      dsimp only
      split
      · next hgone =>
        have hnone : ¬AwaitsCommit t.connection := Warns.not_awaits ht hgone
        exact safe_ok (giveError_ends hdue (fun _ => hnone) fun hno => absurd hno htold)
      · exact safe_throw ht
  · next hremedy =>
    refine Safe.orFail (safe_editAmid fun _ => ?_)
    exact giveError_ends hdue (hdue.not_awaits (by rw [hremedy]; decide) rfl) fun _ => .inr rfl
  · next hremedy =>
    refine Safe.orFail (safe_taskAmid ((close_ends h).mono fun _ t ht => ?_))
    exact giveError_ends hdue (hdue.not_awaits (by rw [hremedy]; decide) ht.1) fun _ => ht.2

theorem fetchMessage_ends (h : Ready clear s.connection) :
    fetchMessage.run.Safe anyNetwork s (Ends clear fun _ => Over clear) := by
  unfold fetchMessage
  refine Safe.orFail ((fetchOne_ends h).mono fun r t ht => ?_)
  match r with
  | .error e => exact ht
  | .ok (_, none) => exact safe_ok (.inl ht.1)
  | .ok (_, some trouble) =>
    refine Safe.orFail ((settle_ends ht.1 (ht.2 _ rfl)).mono fun r u hu => ?_)
    cases r with
    | error e => exact hu
    | ok => exact safe_ok hu

theorem fetchAll_ends (h : Ready clear s.connection) :
    fetchAll.run.Safe anyNetwork s (Ends clear fun _ => Over clear) := by
  unfold fetchAll
  refine safe_iterateOrFail (fun _ t => Over clear t.connection) (.inl h) fun _ t ht => ?_
  refine Safe.orFail (safe_editAmid fun _ => ?_)
  dsimp only
  split
  · exact safe_ok ht
  · next hbusy =>
    have hready : Ready clear t.connection := ht.resolve_right fun ht => hbusy (by simp [isQuiet, ht])
    refine Safe.orFail ((fetchMessage_ends hready).mono fun r u hu => ?_)
    cases r with
    | error e => exact hu
    | ok => exact safe_ok hu

end

section

variable {s : Session}

def Refused {α : Type} (r : Except Error α) : Prop := ∃ what, r = .error (.unavailable what)

theorem sendAll_refuses (h : ¬Works s.connection) :
    sendAll.run.Safe anyNetwork s fun r _ => Refused r := by
  unfold sendAll
  refine Safe.orFail (safe_attempt fun _ => ?_)
  obtain ⟨what, hcheck⟩ := check_of_not_works h .writing
  rw [hcheck]
  exact ⟨what, rfl⟩

theorem fetchMessage_refuses (h : ¬Works s.connection) :
    fetchMessage.run.Safe anyNetwork s fun r _ => Refused r := by
  unfold fetchMessage fetchOne
  refine Safe.orFail (Safe.orFail (safe_attempt fun _ => ?_))
  obtain ⟨what, hcheck⟩ := check_of_not_works h .reading
  rw [hcheck]
  exact ⟨what, rfl⟩

theorem reset_refuses (h : ¬Works s.connection) : reset.run.Safe anyNetwork s fun r _ => Refused r := by
  unfold reset
  refine Safe.orFail (safe_attempt fun _ => ?_)
  rw [queue_reset]
  have hqueued : ¬Works { s.connection with
      outbox := (s.connection.outbox.write [0xB0, 0x0F]).endMessage
      pending := s.connection.pending ++ [resetExchange] } := fun hw => h ⟨hw.1, hw.2, hw.3⟩
  refine Safe.orFail ((sendAll_refuses hqueued).mono fun r t ht => ?_)
  obtain ⟨what, rfl⟩ := ht
  exact ⟨what, rfl⟩

theorem fetchAll_refuses (h : ¬Works s.connection) :
    fetchAll.run.Safe anyNetwork s fun r _ => ∀ e, r = .error e → Refused r := by
  unfold fetchAll
  refine safe_iterateOrFail (fun _ t => t = s) rfl fun _ t ht => ?_
  subst ht
  refine Safe.orFail (safe_editAmid fun _ => ?_)
  dsimp only
  split
  · exact safe_ok fun _ hnone => nomatch hnone
  · refine Safe.orFail ((fetchMessage_refuses h).mono fun r u hu => ?_)
    obtain ⟨what, rfl⟩ := hu
    exact fun _ _ => ⟨what, rfl⟩

theorem Call.refuses (h : ¬Works s.connection) (k : Call) (hk : k.queues = false) :
    k.work.Safe anyNetwork s fun r _ => ∀ e, r = .error e → e.isRetryable = true := by
  have hrefused {α : Type} (f : α → Option Nat) {r : Except Error α} (hr : ∀ e, r = .error e → Refused r)
      (e : Error) (he : r.map f = .error e) : e.isRetryable = true := by
    cases r with
    | ok a => cases he
    | error e' =>
      obtain ⟨what, hwhat⟩ := hr e' rfl
      cases hwhat
      cases he
      rfl
  cases k with
  | queue => cases hk
  | sendAll => exact Safe.map ((sendAll_refuses h).mono fun r t ht => hrefused _ fun _ _ => ht)
  | fetchMessage => exact Safe.map ((fetchMessage_refuses h).mono fun r t ht => hrefused _ fun _ _ => ht)
  | fetchAll => exact Safe.map ((fetchAll_refuses h).mono fun r t ht => hrefused _ ht)
  | reset => exact Safe.map ((reset_refuses h).mono fun r t ht => hrefused _ fun _ _ => ht)

/-- A call on a connection that works ends with an error that warns, or with none. -/
theorem Call.warns {clear : Prop} (h : Ready clear s.connection) (k : Call) (hk : k.queues = false) :
    k.work.Safe anyNetwork s fun r t => ∀ e, r = .error e → Warns clear e t.connection := by
  have hwarns {α : Type} {post : α → Connection → Prop} (f : α → Option Nat) {r : Except Error α}
      {t : Session} (hr : Ends clear post r t) (e : Error) (he : r.map f = .error e) :
      Warns clear e t.connection := by
    cases r with
    | ok a => cases he
    | error e' =>
      cases he
      exact hr
  cases k with
  | queue => cases hk
  | sendAll => exact Safe.map ((sendAll_ends h).mono fun r t ht => hwarns _ ht.2)
  | fetchMessage => exact Safe.map ((fetchMessage_ends h).mono fun r t ht => hwarns _ ht)
  | fetchAll => exact Safe.map ((fetchAll_ends h).mono fun r t ht => hwarns _ ht)
  | reset => exact Safe.map ((reset_ends h).mono fun r t ht => hwarns _ ht)

end

/-- A call that sends or fetches ends with an error while a commit waits. If the way was clear, the error does
not ask for another try exactly when the connection worked at the start of the call. If the way was not
clear, it may ask for one, as the server's word about another request. -/
theorem retryable_while_commit_waits (s t : Session) (k : Call) (e : Error) (hk : k.queues = false)
    (hends : Leads anyNetwork (k.work, s) (.done (.error e), t)) (hawaits : AwaitsCommit t.connection) :
    (Clear s.connection → (e.isRetryable = false ↔ Works s.connection)) ∧
    (e.isRetryable = true → Works s.connection → ¬Clear s.connection ∧ ∃ f, e = .server f) := by
  have hrefuses (h : ¬Works s.connection) : e.isRetryable = true :=
    (Call.refuses h k hk).leads hends e rfl
  have hwarns (h : Works s.connection) (hretry : e.isRetryable = true) :
      ¬Clear s.connection ∧ ∃ f, e = .server f := by
    have hready : Ready (Clear s.connection) s.connection := ⟨h, id⟩
    exact (Call.warns hready k hk).leads hends e rfl hawaits hretry
  refine ⟨fun hclear => ⟨fun hretry => ?_, fun hworks => ?_⟩, fun hretry hworks => hwarns hworks hretry⟩
  · refine Classical.byContradiction fun hbroken => ?_
    rw [hrefuses hbroken] at hretry
    cases hretry
  · cases hretry : e.isRetryable with
    | false => rfl
    | true => exact absurd hclear (hwarns hworks hretry).1

def committing : Connection :=
  { ofLink ⟨0⟩ default none .v5_0 none .start with pending := [.ofRequest .commit .commit {}] }

theorem comes_committing : Comes (ofLink ⟨0⟩ default none .v5_0 none .start) ⟨committing, []⟩ := by
  let opened : Connection := ofLink ⟨0⟩ default none .v5_0 none .start
  let queued : Connection := (opened.queue .commit .commit {}).2
  have hqueue : Leads anyNetwork (Call.work (.queue .commit {}), ⟨opened, []⟩) (.done (.ok (some 0)), ⟨queued, []⟩) :=
    .head (.answer (b := .ok 0) ⟨.start, rfl, rfl⟩) .refl
  have hsend : Leads anyNetwork (sendAll.run, ⟨queued, []⟩) (.done (.ok ()), ⟨committing, []⟩) :=
    leads_sendAll .start ⟨rfl, rfl, rfl⟩ rfl (Chunk.Writer.size_endMessage _)
  exact (Comes.start.ended (.queue .commit {}) hqueue).ended .sendAll (hsend.bind _)

theorem comes_dropped : Comes (ofLink ⟨0⟩ default none .v5_0 none .start)
    ⟨{ committing with inFlight := true }, []⟩ := by
  have hread : committing.beginRead .start = (.ok (.read ⟨0⟩ .never), { committing with inFlight := true }) :=
    beginRead_of_none Wire.nextResponse_default rfl
  have hwaits : ∃ next, Leads anyNetwork (Call.fetchAll.work, ⟨committing, []⟩)
      (.ask (.transfer (.read ⟨0⟩ none .never)) next, ⟨{ committing with inFlight := true }, []⟩) := by
    refine ⟨?next, ?run⟩
    case run =>
      refine .head .round ?_
      refine .head (.answer (b := false) ⟨.start, rfl, rfl⟩) ?_
      refine .head (.answer (b := .ok ()) ⟨.start, rfl, rfl⟩) ?_
      refine .head (.answer (b := false) ⟨.start, rfl, rfl⟩) ?_
      refine .head .round ?_
      refine .head (.answer (b := .ok (.read ⟨0⟩ .never)) (t := ⟨{ committing with inFlight := true }, []⟩)
        ⟨.start, ?_, ?_⟩) ?_
      · exact (congrArg Prod.fst hread).symm
      · exact congrArg (Session.mk · []) (congrArg Prod.snd hread).symm
      · exact .refl
  obtain ⟨next, hnext⟩ := hwaits
  exact comes_committing.dropped .fetchAll hnext

theorem fetchAll_dropped : Leads anyNetwork
    (Call.fetchAll.work, ⟨{ committing with inFlight := true }, []⟩)
    (.done (.error (.unavailable ("Failed to read from defunct connection " ++ committing.description))),
      ⟨{ committing with transport := none, closed := true, defunct := true }, []⟩) := by
  refine .head .round ?_
  refine .head (.answer (b := false) ⟨.start, rfl, rfl⟩) ?_
  refine .head (.answer (b := .error (.unavailable _)) ⟨.start, rfl, rfl⟩) ?_
  exact .refl

theorem awaits_after_dropped :
    AwaitsCommit { committing with transport := none, closed := true, defunct := true } :=
  ⟨_, List.mem_singleton_self _, rfl⟩

theorem retryable_after_dropped :
    let s : Connection := { committing with inFlight := true }
    let e : Error := .unavailable ("Failed to read from defunct connection " ++ committing.description)
    Clear s ∧ (e.isRetryable = false ↔ Works s) := by
  intro s e
  have hclear : Clear s := List.pairwise_singleton _ _
  have h := retryable_while_commit_waits ⟨s, []⟩ _ .fetchAll e rfl fetchAll_dropped awaits_after_dropped
  exact ⟨hclear, h.1 hclear⟩

/-- Not every error warns while a commit waits: after a wait for its answer was dropped, the next call asks
for another try. -/
theorem not_all_errors_warn : ¬∀ (link : Link) (a : Address) (endpoint : Option Endpoint) (version : Version)
    (lifetime : Option Duration) (now : Instant) (s : Session),
    Comes (ofLink link a endpoint version lifetime now) s → ∀ (k : Call) (t : Session) (e : Error),
    k.queues = false → Leads anyNetwork (k.work, s) (.done (.error e), t) →
    AwaitsCommit t.connection → e.isRetryable = false := by
  intro h
  cases h _ _ _ _ _ _ _ comes_dropped .fetchAll _ _ rfl fetchAll_dropped awaits_after_dropped

end BoltClient.Connection
