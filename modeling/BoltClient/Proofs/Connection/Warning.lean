import BoltClient.Proofs.Connection.Changes
import BoltClient.Proofs.Connection.Correlation
import BoltClient.Proofs.Connection.Listening

namespace BoltClient.Connection

def AwaitsCommit (c : Connection) : Prop := ∃ x ∈ c.pending, x.purpose = .commit

/-- The connection passes the check before it is used. -/
structure Works (c : Connection) : Prop where
  settled : c.inFlight = false
  defunct : c.defunct = false
  closed : c.closed = false

/-- Ahead of a commit only such requests wait as do not end the connection when they fail. -/
def Clear (c : Connection) : Prop :=
  c.pending.Pairwise fun x y => y.purpose = .commit → x.purpose = .plain ∨ x.purpose = .commit

/-- While a commit waits, an error does not ask for another try. Only where the way was not clear may it,
and then it is what the server has said of a request. -/
def Warns (clear : Prop) (e : Error) (c : Connection) : Prop :=
  AwaitsCommit c → e.isRetryable = true → ¬clear ∧ ∃ f, e = .server f

/-- The connection works, and the way is clear if it was. -/
structure Ready (clear : Prop) (c : Connection) : Prop where
  works : Works c
  clear : clear → Clear c

/-- Trouble with a request whose answer has come in. -/
structure Due (clear : Prop) (trouble : Trouble) (c : Connection) : Prop where
  served : ∀ e, trouble.error = some e → e.isRetryable = true → ∃ f, e = .server f
  barred : trouble.remedy ≠ .reset → clear → ¬AwaitsCommit c
  told : trouble.remedy = .reset → trouble.error ≠ none
  ofReset : trouble.purpose = .reset → trouble.remedy ≠ .reset

section

variable {clear : Prop} {c d : Connection} {e : Error} {trouble : Trouble}

theorem AwaitsCommit.congr (h : AwaitsCommit d) (hpending : d.pending = c.pending) : AwaitsCommit c := by
  rwa [AwaitsCommit, hpending] at h

theorem warns_of_not_retryable (h : e.isRetryable = false) : Warns clear e c :=
  fun _ hretry => by rw [h] at hretry; cases hretry

/-- What is gone can only be told where no commit waits. -/
theorem Warns.not_awaits (h : Warns clear e c) (hgone : e.isUnavailable = true) : ¬AwaitsCommit c := by
  intro hawaits
  have hretry : e.isRetryable = true := by
    cases e <;> first | rfl | cases hgone
  obtain ⟨_, f, rfl⟩ := h hawaits hretry
  cases hgone

theorem Due.not_awaits (h : Due clear trouble c) (hremedy : trouble.remedy ≠ .reset)
    (hpending : d.pending = c.pending) (hclear : clear) : ¬AwaitsCommit d :=
  fun hawaits => h.barred hremedy hclear (hawaits.congr hpending)

theorem Due.warns (h : Due clear trouble c) (hnone : clear → ¬AwaitsCommit d) (he : trouble.error = some e) :
    Warns clear e d :=
  fun hawaits hretry => ⟨fun hclear => hnone hclear hawaits, h.served e he hretry⟩

/-- A loss does not ask for another try while a commit waits. -/
theorem warns_lose (c : Connection) (direction : Direction) (cause : Option String) :
    Warns clear (c.lose direction cause).1 (c.lose direction cause).2 := by
  intro hawaits hretry
  have hhere : AwaitsCommit c := hawaits
  have hcommit : c.pending.any (·.purpose = .commit) = true := by simpa [AwaitsCommit] using hhere
  have herror : (c.lose direction cause).1 = .incompleteCommit (c.lossMessage direction) cause :=
    if_pos hcommit
  rw [herror] at hretry
  cases hretry

/-- Bytes that make no sense are no reason to try again. -/
theorem not_retryable_of_nextResponse {r r' : Chunk.Reader} {e : Wire.Error}
    (h : Wire.nextResponse r = (.error e, r')) : (Error.ofWire e).isRetryable = false := by
  have hvalue {v : Except Wire.Error (Option Value)} {r r' : Chunk.Reader}
      (h : Wire.nextValue r = (v, r')) (he : v = .error e) : (Error.ofWire e).isRetryable = false := by
    subst he
    unfold Wire.nextValue at h
    split at h
    · cases h
      rfl
    · cases h
    · next payload _ _ =>
      cases hdecode : PackStream.decode payload with
      | ok v => rw [hdecode] at h; cases h
      | error fault =>
        rw [hdecode] at h
        cases h
        rfl
  unfold Wire.nextResponse at h
  split at h
  · next hnext =>
    cases h
    exact hvalue hnext rfl
  · cases h
  · next v _ _ =>
    unfold Wire.responseOf at h
    split at h
    · next st _ =>
      cases hresponse : Response.ofStruct st with
      | ok x => rw [hresponse] at h; cases h
      | error fault =>
        rw [hresponse] at h
        cases h
        rfl
    · cases h
      rfl

theorem check_of_works (h : Works c) (direction : Direction) : c.check direction = (.ok (), c) := by
  simp [check, settleFlight, h.settled, h.defunct, h.closed]

theorem check_of_not_works (h : ¬Works c) (direction : Direction) :
    ∃ what, (c.check direction).1 = .error (.unavailable what) := by
  unfold check settleFlight
  by_cases hflight : c.inFlight = true
  · rw [if_pos hflight]
    exact ⟨_, rfl⟩
  · rw [if_neg hflight]
    dsimp only
    split
    · exact ⟨_, rfl⟩
    · next hdefunct =>
      split
      · exact ⟨_, rfl⟩
      · next hclosed =>
        have hworks : Works c := ⟨by simpa using hflight, by simpa using hdefunct, by simpa using hclosed⟩
        exact absurd hworks h

/-- Queuing a RESET never fails. -/
theorem queue_reset (c : Connection) : c.queue .reset .reset {} = (.ok (c.answered.size + c.pending.length),
    { c with
      outbox := (c.outbox.write [0xB0, 0x0F]).endMessage
      pending := c.pending ++ [resetExchange] }) := rfl

theorem inFlight_receive (c : Connection) (r : Response) : (c.receive r).2.2.inFlight = c.inFlight := by
  obtain ⟨_, _, _, _, _, _, _, _, _, hc⟩ := receive_frame c r
  rw [hc]

theorem served_ofServer (f : Server.Error) (h : (Error.ofServer f).isRetryable = true) :
    ∃ f', Error.ofServer f = .server f' := by
  unfold Error.ofServer at h ⊢
  split at h
  · cases h
  · cases h
  · exact ⟨f, rfl⟩

/-- What an answer leaves in the queue: at most the exchange in front is gone. -/
theorem pending_receive {x : Exchange} {rest : List Exchange} (hpending : c.pending = x :: rest)
    (r : Response) : (c.receive r).2.2.pending = rest ∨
      ∃ y, y.purpose = x.purpose ∧ (c.receive r).2.2.pending = y :: rest := by
  obtain ⟨hsize, hbooks⟩ := receive_books hpending r
  cases hsummary : r.summary? with
  | none =>
    have hlength : (c.receive r).2.2.answered.toList.length = c.answered.toList.length := by
      simpa [hsummary] using hsize
    exact .inr ⟨_, x.after_purpose _ _, List.append_inj_right hbooks hlength⟩
  | some answer =>
    have hlength : (c.receive r).2.2.answered.toList.length
        = (c.answered.toList ++ [x.after r.records r.summary?]).length := by
      simpa [hsummary] using hsize
    rw [List.append_cons] at hbooks
    exact .inl (List.append_inj_right hbooks hlength)

/-- The trouble of an answer is trouble with the exchange in front. -/
theorem trouble_receive {x : Exchange} {rest : List Exchange} (hpending : c.pending = x :: rest)
    {r : Response} (h : (c.receive r).2.1 = some trouble) : trouble.purpose = x.purpose ∧
      (x.purpose = .reset → trouble.remedy = .close ∧
        ∀ e, trouble.error = some e → e.isRetryable = false) ∧
      (x.purpose ≠ .reset → trouble.remedy = remedyFor x.purpose ∧
        ∃ f, trouble.error = some (.ofServer f)) := by
  unfold receive at h
  rw [hpending] at h
  by_cases hreset : x.purpose = .reset
  · cases r with
    | record values | ignored =>
      simp only [hreset, if_true] at h
      cases h
      exact ⟨hreset.symm, fun _ => ⟨rfl, nofun⟩, fun h => absurd hreset h⟩
    | success metadata => cases h
    | failure metadata =>
      simp only [failHead, hreset, if_true] at h
      cases h
      refine ⟨hreset.symm, fun _ => ⟨rfl, ?_⟩, fun h => absurd hreset h⟩
      rintro e ⟨⟩
      rfl
  · cases r with
    | record values | ignored =>
      simp only [hreset, if_false] at h
      cases h
    | success metadata => cases h
    | failure metadata =>
      simp only [failHead, hreset, if_false] at h
      cases h
      exact ⟨rfl, fun h => absurd h hreset, fun _ => ⟨rfl, _, rfl⟩⟩

section

variable {x : Exchange} {rest : List Exchange}

theorem clear_receive (h : Clear c) (hpending : c.pending = x :: rest) (r : Response) :
    Clear (c.receive r).2.2 := by
  rw [Clear, hpending] at h
  obtain ⟨hfirst, hrest⟩ := List.pairwise_cons.mp h
  rw [Clear]
  obtain hnow | ⟨y, hy, hnow⟩ := pending_receive hpending r
  · rwa [hnow]
  · rw [hnow]
    exact .cons (by rwa [hy]) hrest

/-- Behind an exchange that is in the way no commit waits if the way is clear. -/
theorem not_awaits_receive (h : Clear c) (hpending : c.pending = x :: rest)
    (hx : ¬(x.purpose = .plain ∨ x.purpose = .commit)) (r : Response) :
    ¬AwaitsCommit (c.receive r).2.2 := by
  rw [Clear, hpending] at h
  have hnone : ∀ y ∈ rest, y.purpose ≠ .commit := fun y hy hcommit =>
    hx ((List.pairwise_cons.mp h).1 y hy hcommit)
  rintro ⟨y, hy, hcommit⟩
  obtain hnow | ⟨z, hz, hnow⟩ := pending_receive hpending r
  · rw [hnow] at hy
    exact hnone y hy hcommit
  · rw [hnow] at hy
    rcases List.mem_cons.mp hy with rfl | hy
    · exact hx (.inr (hz.symm.trans hcommit))
    · exact hnone y hy hcommit

theorem Ready.receive (h : Ready clear c) (hpending : c.pending = x :: rest) (r : Response) :
    Ready clear (c.receive r).2.2 where
  works :=
    have hlink := sameLink_receive c r
    ⟨by rw [inFlight_receive, h.works.settled], by rw [hlink.defunct, h.works.defunct],
      by rw [hlink.closed, h.works.closed]⟩
  clear hclear := clear_receive (h.clear hclear) hpending r

theorem Ready.due (h : Ready clear c) (hpending : c.pending = x :: rest) {r : Response}
    (htrouble : (c.receive r).2.1 = some trouble) : Due clear trouble (c.receive r).2.2 := by
  obtain ⟨hpurpose, hreset, hother⟩ := trouble_receive hpending htrouble
  constructor
  · intro e he hretry
    by_cases hx : x.purpose = .reset
    · rw [(hreset hx).2 e he] at hretry
      cases hretry
    · obtain ⟨_, f, hf⟩ := hother hx
      rw [he] at hf
      cases hf
      exact served_ofServer f hretry
  · intro hremedy hclear
    refine not_awaits_receive (h.clear hclear) hpending ?_ r
    rintro (hx | hx)
    all_goals
      obtain ⟨hsame, _⟩ := hother (by rw [hx]; decide)
      rw [hsame, hx] at hremedy
      exact hremedy rfl
  · intro hremedy hnone
    by_cases hx : x.purpose = .reset
    · rw [(hreset hx).1] at hremedy
      cases hremedy
    · obtain ⟨_, f, hf⟩ := hother hx
      rw [hnone] at hf
      cases hf
  · intro hx
    rw [hpurpose] at hx
    rw [(hreset hx).1]
    decide

end

end

section

variable {clear : Prop} {c d : Connection}

theorem Ready.congr (h : Ready clear c) (hflight : d.inFlight = c.inFlight) (hdefunct : d.defunct = c.defunct)
    (hclosed : d.closed = c.closed) (hpending : d.pending = c.pending) : Ready clear d where
  works := ⟨hflight.trans h.works.settled, hdefunct.trans h.works.defunct, hclosed.trans h.works.closed⟩
  clear hclear := by
    rw [Clear, hpending]
    exact h.clear hclear

def Busy (clear : Prop) (c : Connection) : Prop := Ready clear { c with inFlight := false }

theorem Ready.busy (h : Ready clear c) (hdefunct : d.defunct = c.defunct) (hclosed : d.closed = c.closed)
    (hpending : d.pending = c.pending) : Busy clear d :=
  h.congr h.works.settled.symm hdefunct hclosed hpending

theorem beginWrite_ends (h : Ready clear c) : c.beginWrite.2.pending = c.pending ∧
    match c.beginWrite.1 with
    | .ok none => Ready clear c.beginWrite.2
    | .ok (some _) => Busy clear c.beginWrite.2
    | .error e => Warns clear e c.beginWrite.2 := by
  unfold beginWrite
  split
  · exact ⟨rfl, h⟩
  · dsimp only
    cases c.transport with
    | some link => exact ⟨rfl, h.busy rfl rfl rfl⟩
    | none => exact ⟨rfl, warns_lose _ _ _⟩

theorem endWrite_ends (h : Busy clear c) (outcome : Output) (now : Instant) :
    (c.endWrite outcome now).2.pending = c.pending ∧
    match (c.endWrite outcome now).1 with
    | .ok () => Ready clear (c.endWrite outcome now).2
    | .error e => Warns clear e (c.endWrite outcome now).2 := by
  cases outcome with
  | done => exact ⟨rfl, Ready.congr h rfl rfl rfl rfl⟩
  | failed | late => exact ⟨rfl, warns_lose _ _ _⟩

theorem beginRead_ends (h : Ready clear c) (now : Instant) : (c.beginRead now).2.pending = c.pending ∧
    match (c.beginRead now).1 with
    | .ok (.answer _) => Ready clear (c.beginRead now).2
    | .ok (.read ..) => Busy clear (c.beginRead now).2
    | .error e => Warns clear e (c.beginRead now).2 := by
  unfold beginRead
  rcases hnext : Wire.nextResponse c.inbox with ⟨found, inbox⟩
  match found with
  | .error e => exact ⟨rfl, warns_of_not_retryable (not_retryable_of_nextResponse hnext)⟩
  | .ok (some a) => exact ⟨rfl, h.congr rfl rfl rfl rfl⟩
  | .ok none =>
    dsimp only
    cases c.transport with
    | some link => exact ⟨rfl, h.busy rfl rfl rfl⟩
    | none => exact ⟨rfl, warns_lose _ _ _⟩

theorem endRead_ends (h : Busy clear c) (input : Input) : (c.endRead input).2.pending = c.pending ∧
    match (c.endRead input).1 with
    | .ok () => Ready clear (c.endRead input).2
    | .error e => Warns clear e (c.endRead input).2 := by
  cases input with
  | bytes b => exact ⟨rfl, Ready.congr h rfl rfl rfl rfl⟩
  | ended | failed | late => exact ⟨rfl, warns_lose _ _ _⟩

theorem beginClose_ends (h : Ready clear c) :
    c.beginClose.2.pending = c.pending ∧ Ready clear c.beginClose.2 := by
  unfold beginClose put
  split
  · exact ⟨rfl, h⟩
  · dsimp only
    split
    · exact ⟨rfl, h.congr rfl rfl rfl rfl⟩
    · cases PackStream.encode Request.goodbye.toStruct.value with
      | ok payload => exact ⟨rfl, h.congr rfl rfl rfl rfl⟩
      | error e => exact ⟨rfl, h.congr rfl rfl rfl rfl⟩

end

end BoltClient.Connection
