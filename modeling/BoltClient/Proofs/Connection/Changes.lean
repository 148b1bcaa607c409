import BoltClient.Connection.Task

namespace BoltClient.Connection

structure SameBooks (c d : Connection) : Prop where
  answered : d.answered = c.answered
  pending : d.pending = c.pending
  closing : d.closing = c.closing
  closed : c.closed = true → d.closed = true

/-- The exchanges and the bytes that came in are as before, and what cannot be used cannot be used. -/
structure Keeps (c d : Connection) : Prop extends SameBooks c d where
  inbox : d.inbox = c.inbox
  defunct : c.defunct = true → d.defunct = true

structure Begins (c d : Connection) (x : Exchange) : Prop where
  answered : d.answered = c.answered
  pending : d.pending = c.pending ++ [x]
  inbox : d.inbox = c.inbox
  closing : d.closing = c.closing
  closed : d.closed = c.closed
  defunct : d.defunct = c.defunct

/-- A connection that works and waits for nothing. -/
structure Usable (c : Connection) : Prop where
  closed : c.closed = false
  defunct : c.defunct = false
  pending : c.pending = []

variable {c d e : Connection}

theorem SameBooks.trans (h : SameBooks c d) (h' : SameBooks d e) : SameBooks c e where
  answered := by rw [h'.answered, h.answered]
  pending := by rw [h'.pending, h.pending]
  closing := by rw [h'.closing, h.closing]
  closed hc := h'.closed (h.closed hc)

theorem Keeps.refl (c : Connection) : Keeps c c := ⟨⟨rfl, rfl, rfl, id⟩, rfl, id⟩

theorem Keeps.trans (h : Keeps c d) (h' : Keeps d e) : Keeps c e where
  toSameBooks := h.toSameBooks.trans h'.toSameBooks
  inbox := by rw [h'.inbox, h.inbox]
  defunct hc := h'.defunct (h.defunct hc)

theorem keeps_kill (c : Connection) : Keeps c c.kill :=
  ⟨⟨rfl, rfl, rfl, fun _ => rfl⟩, rfl, id⟩

theorem keeps_settleFlight (c : Connection) : Keeps c c.settleFlight := by
  unfold settleFlight
  split
  · exact ⟨⟨rfl, rfl, rfl, fun _ => rfl⟩, rfl, fun _ => rfl⟩
  · exact .refl c

/-- Only a connection that works passes the check. -/
theorem check_cases (c : Connection) (direction : Direction) : Keeps c (c.check direction).2 ∧
    ((c.check direction).1 = .ok () →
      (c.check direction).2.defunct = false ∧ (c.check direction).2.closed = false) := by
  have hkeeps := keeps_settleFlight c
  unfold check
  dsimp only
  split
  · exact ⟨hkeeps, fun h => nomatch h⟩
  · next hdefunct =>
    split
    · exact ⟨hkeeps, fun h => nomatch h⟩
    · next hclosed => exact ⟨hkeeps, fun _ => ⟨by simpa using hdefunct, by simpa using hclosed⟩⟩

theorem keeps_beginWrite (c : Connection) : Keeps c c.beginWrite.2 := by
  unfold beginWrite
  split
  · exact .refl c
  · dsimp only
    split
    · exact ⟨⟨rfl, rfl, rfl, id⟩, rfl, id⟩
    · exact ⟨⟨rfl, rfl, rfl, fun _ => rfl⟩, rfl, fun _ => rfl⟩

theorem keeps_endWrite (outcome : Output) (now : Instant) (c : Connection) :
    Keeps c (c.endWrite outcome now).2 := by
  cases outcome with
  | done => exact ⟨⟨rfl, rfl, rfl, id⟩, rfl, id⟩
  | failed | late => exact ⟨⟨rfl, rfl, rfl, fun _ => rfl⟩, rfl, fun _ => rfl⟩

/-- Where an answer is looked for, either the next one is taken out, or what there is of it is put together
and reading begins, or the connection is lost. -/
theorem beginRead_cases (now : Instant) (c : Connection) :
    SameBooks c (c.beginRead now).2 ∧
    match (c.beginRead now).1 with
    | .ok (.answer r) => ∃ inbox, Wire.nextResponse c.inbox = (.ok (some r), inbox) ∧
        (c.beginRead now).2.inbox = inbox ∧ (c.beginRead now).2.defunct = c.defunct ∧
        (c.beginRead now).2.closed = c.closed
    | .ok (.read ..) => ∃ inbox, Wire.nextResponse c.inbox = (.ok none, inbox) ∧
        (c.beginRead now).2.inbox = inbox ∧ (c.beginRead now).2.defunct = c.defunct ∧
        (c.beginRead now).2.closed = c.closed
    | .error _ => (c.beginRead now).2.defunct = true := by
  unfold beginRead
  split
  next found inbox hfound =>
  split
  · exact ⟨⟨rfl, rfl, rfl, fun _ => rfl⟩, rfl⟩
  · exact ⟨⟨rfl, rfl, rfl, id⟩, inbox, hfound, rfl, rfl, rfl⟩
  · dsimp only
    split
    · exact ⟨⟨rfl, rfl, rfl, id⟩, inbox, hfound, rfl, rfl, rfl⟩
    · exact ⟨⟨rfl, rfl, rfl, fun _ => rfl⟩, rfl⟩

theorem beginRead_of_none {now : Instant} {link : Link} {inbox : Chunk.Reader}
    (hnext : Wire.nextResponse c.inbox = (.ok none, inbox)) (htransport : c.transport = some link) :
    c.beginRead now = (.ok (.read link (c.deadline.min (.ofTimeout now c.silence))),
      { c with inbox := inbox, inFlight := true }) := by
  unfold beginRead
  rw [hnext]
  dsimp only
  rw [htransport]

theorem beginRead_of_some {now : Instant} {r : Response} {inbox : Chunk.Reader}
    (hnext : Wire.nextResponse c.inbox = (.ok (some r), inbox)) :
    c.beginRead now = (.ok (.answer r), { c with inbox := inbox }) := by
  unfold beginRead
  rw [hnext]

/-- Reading that brings no bytes loses the connection. -/
theorem endRead_nothing {input : Input} (h : ∀ b, input ≠ .bytes b) (c : Connection) :
    (∃ e, (c.endRead input).1 = .error e) ∧ Keeps c (c.endRead input).2 ∧
    (c.endRead input).2.defunct = true := by
  cases input with
  | bytes b => exact absurd rfl (h b)
  | ended | failed | late =>
    exact ⟨⟨_, rfl⟩, ⟨⟨rfl, rfl, rfl, fun _ => rfl⟩, rfl, fun _ => rfl⟩, rfl⟩

/-- Parting begins unless the connection has parted already or is about to. -/
theorem beginClose_cases (c : Connection) :
    match c.beginClose.1 with
    | none => (c.closed = true ∨ c.closing = true) ∧ c.beginClose.2 = c
    | some _ => c.closing = false ∧ c.beginClose.2.answered = c.answered ∧
        c.beginClose.2.pending = c.pending ∧ c.beginClose.2.inbox = c.inbox ∧
        c.beginClose.2.defunct = c.defunct := by
  unfold beginClose
  by_cases hparted : (c.closed || c.closing) = true
  · rw [if_pos hparted]
    exact ⟨by simpa using hparted, rfl⟩
  · have hclosing : c.closing = false := by simp at hparted; exact hparted.2
    rw [if_neg hparted]
    dsimp only
    by_cases hdefunct : c.defunct = true
    · rw [if_pos hdefunct]
      exact ⟨hclosing, rfl, rfl, rfl, rfl⟩
    · rw [if_neg hdefunct]
      unfold put
      cases PackStream.encode Request.goodbye.toStruct.value with
      | ok payload => exact ⟨hclosing, rfl, rfl, rfl, rfl⟩
      | error e => exact ⟨hclosing, rfl, rfl, rfl, rfl⟩

/-- A request is queued as one exchange behind all others, whose number is given back, or nothing is begun. -/
theorem queue_cases (c : Connection) (r : Request) (purpose : Purpose) (watch : Watch) :
    ((∃ e, (c.queue r purpose watch).1 = .error e) ∧ (c.queue r purpose watch).2 = c) ∨
    (c.queue r purpose watch).1 = .ok (c.answered.size + c.pending.length) ∧
      Begins c (c.queue r purpose watch).2 (.ofRequest r.kind purpose watch) := by
  unfold queue put
  split
  · exact .inl ⟨⟨_, rfl⟩, rfl⟩
  · next hput =>
    split at hput
    · cases hput
      exact .inr ⟨rfl, rfl, rfl, rfl, rfl, rfl, rfl⟩
    · cases hput

theorem queueFor_cases (c : Connection) (r : Except Error Request) (database : Option String)
    (watch : Watch) (kind : Message.Kind) (hkind : ∀ q, r = .ok q → q.kind = kind) :
    ((∃ e, (c.queueFor r database watch).1 = .error e) ∧ Keeps c (c.queueFor r database watch).2) ∨
    (c.queueFor r database watch).1 = .ok (c.answered.size + c.pending.length) ∧
      Begins c (c.queueFor r database watch).2 (.ofRequest kind .plain watch) := by
  cases r with
  | error e => exact .inl ⟨⟨e, rfl⟩, .refl c⟩
  | ok q =>
    have hcases := queue_cases { c with lastDatabase := database } q .plain watch
    rw [hkind q rfl] at hcases
    rcases hcases with ⟨herror, hsame⟩ | ⟨hnumber, hbegins⟩
    · refine .inl ⟨herror, ?_⟩
      rw [queueFor, hsame]
      exact ⟨⟨rfl, rfl, rfl, id⟩, rfl, id⟩
    · exact .inr ⟨hnumber, hbegins.answered, hbegins.pending, hbegins.inbox, hbegins.closing,
        hbegins.closed, hbegins.defunct⟩

structure SameLink (c d : Connection) : Prop where
  inbox : d.inbox = c.inbox
  closing : d.closing = c.closing
  closed : d.closed = c.closed
  defunct : d.defunct = c.defunct

theorem SameLink.refl (c : Connection) : SameLink c c := ⟨rfl, rfl, rfl, rfl⟩

/-- Nothing has happened to the connection but bytes on their way out. -/
structure Unharmed (c d : Connection) : Prop extends SameLink c d where
  answered : d.answered = c.answered
  pending : d.pending = c.pending

theorem Unharmed.refl (c : Connection) : Unharmed c c := ⟨.refl c, rfl, rfl⟩

theorem Unharmed.trans (h : Unharmed c d) (h' : Unharmed d e) : Unharmed c e where
  inbox := h'.inbox.trans h.inbox
  closing := h'.closing.trans h.closing
  closed := h'.closed.trans h.closed
  defunct := h'.defunct.trans h.defunct
  answered := h'.answered.trans h.answered
  pending := h'.pending.trans h.pending

theorem check_of_ok {direction : Direction} (h : (c.check direction).1 = .ok ()) :
    (c.check direction).2 = c := by
  unfold check settleFlight at h ⊢
  by_cases hflight : c.inFlight = true
  · rw [if_pos hflight] at h
    cases h
  · rw [if_neg hflight]
    dsimp only
    split
    · rfl
    · split <;> rfl

theorem unharmed_beginWrite {o : Option Outgoing} (h : c.beginWrite.1 = .ok o) :
    Unharmed c c.beginWrite.2 := by
  unfold beginWrite at h ⊢
  split
  · exact .refl c
  · next hsome =>
    rw [if_neg hsome] at h
    cases htransport : c.transport with
    | none =>
      simp only [htransport] at h
      cases h
    | some link => exact ⟨⟨rfl, rfl, rfl, rfl⟩, rfl, rfl⟩

theorem unharmed_endWrite {outcome : Output} {now : Instant}
    (h : (c.endWrite outcome now).1 = .ok ()) : Unharmed c (c.endWrite outcome now).2 := by
  cases outcome with
  | done => exact ⟨⟨rfl, rfl, rfl, rfl⟩, rfl, rfl⟩
  | failed | late => cases h

/-- A greeting only tells of the server. -/
theorem takeGreeting_frame (c : Connection) (s : Success) : ∃ agent name hints silence,
    c.takeGreeting s = { c with agent := agent, name := name, hints := hints, silence := silence } := by
  unfold takeGreeting takeHints
  dsimp only
  split
  · split
    · split
      · split <;> exact ⟨_, _, _, _, rfl⟩
      · exact ⟨_, _, _, _, rfl⟩
    · exact ⟨_, _, _, c.silence, rfl⟩
  · exact ⟨_, _, _, c.silence, rfl⟩

theorem state_takeGreeting (c : Connection) (s : Success) : (c.takeGreeting s).state = c.state := by
  obtain ⟨agent, name, hints, silence, hc⟩ := takeGreeting_frame c s
  rw [hc]

theorem feedback_takeGreeting (c : Connection) (s : Success) :
    (c.takeGreeting s).feedback = c.feedback := by
  obtain ⟨agent, name, hints, silence, hc⟩ := takeGreeting_frame c s
  rw [hc]

/-- What an answer can change. -/
theorem receive_frame (c : Connection) (r : Response) :
    ∃ answered pending notices state feedback agent name hints silence, (c.receive r).2.2 =
      { c with
        answered := answered, pending := pending, notices := notices, state := state
        feedback := feedback, agent := agent, name := name, hints := hints, silence := silence } := by
  unfold receive
  split
  · exact ⟨_, _, _, _, _, _, _, _, _, rfl⟩
  · next x rest _ =>
    cases r with
    | record values =>
      dsimp only
      split <;> exact ⟨_, _, _, _, _, _, _, _, _, rfl⟩
    | success metadata =>
      dsimp only
      split
      · obtain ⟨agent, name, hints, silence, hc⟩ := takeGreeting_frame
          { c with state := c.state.after x.request (Success.hasMore ⟨metadata⟩) } ⟨metadata⟩
        rw [hc]
        exact ⟨_, _, _, _, _, _, _, _, _, rfl⟩
      · exact ⟨_, _, _, _, _, _, _, _, _, rfl⟩
    | ignored =>
      dsimp only
      split <;> exact ⟨_, _, _, _, _, _, _, _, _, rfl⟩
    | failure metadata =>
      dsimp only
      unfold failHead
      dsimp only
      split <;> exact ⟨_, _, _, _, _, _, _, _, _, rfl⟩

theorem sameLink_receive (c : Connection) (r : Response) : SameLink c (c.receive r).2.2 := by
  obtain ⟨_, _, _, _, _, _, _, _, _, hc⟩ := receive_frame c r
  rw [hc]
  exact ⟨rfl, rfl, rfl, rfl⟩

theorem outbox_receive (c : Connection) (r : Response) : (c.receive r).2.2.outbox = c.outbox := by
  obtain ⟨_, _, _, _, _, _, _, _, _, hc⟩ := receive_frame c r
  rw [hc]

/-- Where a server stands is told by its summaries. -/
theorem state_receive {x : Exchange} {rest : List Exchange} (hpending : c.pending = x :: rest)
    (r : Response) : (c.receive r).2.2.state = match r with
      | .record _ | .ignored => c.state
      | .success metadata => c.state.after x.request (Success.hasMore ⟨metadata⟩)
      | .failure _ => .failed := by
  unfold receive
  rw [hpending]
  cases r with
  | record values => dsimp only; split <;> rfl
  | success metadata =>
    dsimp only
    split
    · exact state_takeGreeting _ _
    · rfl
  | ignored => dsimp only; split <;> rfl
  | failure metadata => dsimp only; unfold failHead; dsimp only; split <;> rfl

theorem receive_record_of_reset {x : Exchange} {rest : List Exchange} (hpending : c.pending = x :: rest)
    (hpurpose : x.purpose = .reset) (values : List Value) :
    c.receive (.record values) = (⟨0, 0⟩, some ⟨.reset, .close, none⟩, c) := by
  unfold receive
  rw [hpending]
  exact if_pos hpurpose

end BoltClient.Connection
