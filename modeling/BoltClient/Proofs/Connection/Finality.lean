import BoltClient.Proofs.Connection.Bookkeeping
import BoltClient.Proofs.Connection.Chronicle

namespace BoltClient.Connection

open Work

/-- What cannot be used is closed, and what is closed has no transport. -/
structure Coherent (c : Connection) : Prop where
  parted : c.defunct = true → c.closed = true
  unlinked : c.closed = true → c.transport = none

/-- A server that had not failed before is one to give up, unless the connection was about to part. -/
def Loss.Fair (l : Loss) : Prop :=
  l.after.feedback = l.before.feedback ++ if l.before.closing || l.before.state = .failed then [] else [.deactivate]

namespace Chronicle

/-- The transport was lost once at most, and its owner was told what he should be. -/
structure Sound (s : Chronicle) : Prop where
  coherent : Coherent s.connection
  once : s.losses.length ≤ 1
  fair : ∀ l ∈ s.losses, l.Fair

/-- The network has not just said that the transport is lost, and a connection that is open has lost none. -/
structure Settled (s : Chronicle) : Prop extends Sound s where
  quiet : s.losing = false
  unharmed : s.connection.closed = false → s.losses = []

/-- A question that leaves things sound, asked of the network only where they are settled. -/
def Sees (s : Chronicle) : {β : Type} → Query β → Prop
  | _, .edit f => ∀ now, Sound (s.change (f now s.connection).2)
  | _, .transfer _ => Settled s

end Chronicle

open Chronicle

/-- A network that may do anything, under work that leaves things sound at every step. -/
def soundly : Surroundings Query Chronicle where
  Answers s q b t := s.Answers q b t
  Allows s q := s.Sees q

section

variable {α : Type} {c d : Connection} {s t : Chronicle}

theorem Chronicle.losses_change (h : s.losing = false) (d : Connection) : (s.change d).losses = s.losses := by
  unfold change
  rw [h]
  rfl

theorem Chronicle.Settled.change (h : s.Settled) (hd : Coherent d)
    (hclosed : s.connection.closed = true → d.closed = true) : (s.change d).Settled := by
  have hsame := losses_change h.quiet d
  refine ⟨⟨hd, hsame ▸ h.once, hsame ▸ h.fair⟩, rfl, fun hopen => hsame.trans (h.unharmed ?_)⟩
  cases hbefore : s.connection.closed with
  | false => rfl
  | true => exact (hclosed hbefore).symm.trans hopen

/-- The network has said that the transport is lost, and so it is. -/
theorem Chronicle.Settled.lose (h : s.Settled) (hopen : s.connection.closed = false) {β : Type} {q : Transfer β} {b : β}
    (hloses : q.loses b = true) (direction : Direction) (cause : Option String) :
    ((s.note q b).change ({ s.connection with inFlight := false }.lose direction cause).2).Settled := by
  have hnone := h.unharmed hopen
  have hlosses : ((s.note q b).change ({ s.connection with inFlight := false }.lose direction cause).2).losses
      = [⟨s.connection, ({ s.connection with inFlight := false }.lose direction cause).2⟩] := by
    unfold Chronicle.change Chronicle.note
    dsimp only
    rw [if_pos hloses, hnone]
    rfl
  refine ⟨⟨⟨fun _ => rfl, fun _ => rfl⟩, ?_, ?_⟩, rfl, nofun⟩
  · rw [hlosses]
    exact Nat.le_refl 1
  · rw [hlosses]
    intro l hl
    obtain rfl := List.mem_singleton.mp hl
    unfold Loss.Fair Connection.lose
    dsimp only
    rw [hopen]
    cases s.connection.closing <;> by_cases hfailed : s.connection.state = .failed <;> simp [hfailed]

/-- What the network says is noted. -/
theorem Chronicle.Settled.note (h : s.Settled) {β : Type} {q : Transfer β} {b : β} (hkeeps : q.loses b = false) :
    (s.note q b).Settled := ⟨⟨h.coherent, h.once, h.fair⟩, hkeeps, h.unharmed⟩

theorem safe_editSoundly {f : Instant → Connection → α × Connection} {post : α → Chronicle → Prop}
    (h : ∀ now, Settled (s.change (f now s.connection).2) ∧
      post (f now s.connection).1 (s.change (f now s.connection).2)) :
    (edit f : Task α).Safe soundly s post := by
  refine ⟨fun now => (h now).1.toSound, ?_⟩
  rintro b t ⟨now, rfl, rfl⟩
  exact (h now).2

theorem safe_attemptSoundly {f : Instant → Connection → Except Error α × Connection}
    {post : Except Error α → Chronicle → Prop}
    (h : ∀ now, Settled (s.change (f now s.connection).2) ∧
      post (f now s.connection).1 (s.change (f now s.connection).2)) :
    (attempt f).run.Safe soundly s post := safe_editSoundly h

theorem safe_settling {f : Instant → Connection → Except Error α × Connection}
    (h : ∀ now, Settled (s.change (f now s.connection).2)) :
    (attempt f).run.Safe soundly s fun _ t => t.Settled := safe_attemptSoundly fun now => ⟨h now, h now⟩

theorem safe_transferSoundly {q : Transfer α} {post : Except Error α → Chronicle → Prop} (hs : s.Settled)
    (h : ∀ b, post (.ok b) (s.note q b)) : (transfer q : Attempt α).run.Safe soundly s post := by
  refine ⟨hs, ?_⟩
  rintro b t rfl
  exact h b

theorem settles_edit {f : Instant → Connection → α × Connection}
    (hf : ∀ now c, Coherent c → Coherent (f now c).2 ∧ (c.closed = true → (f now c).2.closed = true)) :
    Maintains soundly Settled (edit f : Task α) := fun s hs =>
  safe_editSoundly fun now =>
    have hd := hf now s.connection hs.coherent
    have hthen := hs.change hd.1 hd.2
    ⟨hthen, hthen⟩

structure SameUse (c d : Connection) : Prop where
  defunct : d.defunct = c.defunct
  closed : d.closed = c.closed
  transport : d.transport = c.transport

theorem Coherent.congr (hc : Coherent c) (h : SameUse c d) : Coherent d where
  parted hdefunct := h.closed.trans (hc.parted (h.defunct.symm.trans hdefunct))
  unlinked hclosed := h.transport.trans (hc.unlinked (h.closed.symm.trans hclosed))

theorem Chronicle.Settled.same (h : s.Settled) (hd : SameUse s.connection d) : (s.change d).Settled :=
  h.change (h.coherent.congr hd) fun hc => hd.closed.trans hc

theorem settles_same {f : Instant → Connection → α × Connection} (hf : ∀ now c, SameUse c (f now c).2) :
    Maintains soundly Settled (edit f : Task α) :=
  settles_edit fun now c hc => ⟨hc.congr (hf now c), fun h => (hf now c).closed.trans h⟩

theorem sameUse_queue (c : Connection) (r : Request) (purpose : Purpose) (watch : Watch) :
    SameUse c (c.queue r purpose watch).2 := by
  obtain ⟨htransport, _, _, hclosed, hdefunct, _⟩ := queue_line c r purpose watch
  exact ⟨hdefunct, hclosed, htransport⟩

theorem sameUse_receive (c : Connection) (r : Response) : SameUse c (c.receive r).2.2 := by
  obtain ⟨_, _, _, _, _, _, _, _, _, hc⟩ := receive_frame c r
  rw [hc]
  exact ⟨rfl, rfl, rfl⟩

theorem Marks.sameUse (h : Marks c d) : SameUse c d := by
  cases h with
  | records n =>
    obtain ⟨htransport, _, _, _, _, hclosed, hdefunct, _⟩ :=
      sameLine_modifyExchange c n fun x => { x with records := #[] }
    exact ⟨hdefunct, hclosed, htransport⟩
  | same | deadline | stale | database | heeded | chosen => exact ⟨rfl, rfl, rfl⟩

theorem sameUse_apply (q : Stage.Queueing) (watch : Watch) (c : Connection) : SameUse c (q.apply watch c).2 := by
  have hfor (r : Except Error Request) (database : Option String) : SameUse c (c.queueFor r database watch).2 := by
    cases r with
    | error e => exact ⟨rfl, rfl, rfl⟩
    | ok r =>
      obtain ⟨hdefunct, hclosed, htransport⟩ := sameUse_queue { c with lastDatabase := database } r .plain watch
      exact ⟨hdefunct, hclosed, htransport⟩
  cases q with
  | run | begin => exact hfor _ _
  | pull | discard | commit | rollback | other => exact sameUse_queue c _ _ watch

theorem coherent_kill (c : Connection) : Coherent c.kill := ⟨fun _ => rfl, fun _ => rfl⟩

theorem settles_check (direction : Direction) :
    Maintains soundly Settled (attempt fun _ c => c.check direction).run := by
  refine settles_edit fun _ c hc => ?_
  rw [check_settles]
  unfold settleFlight
  split
  · exact ⟨⟨fun _ => rfl, fun _ => rfl⟩, fun _ => rfl⟩
  · exact ⟨hc, id⟩

theorem Coherent.open_of_linked (hc : Coherent c) {link : Link} (hlink : c.transport = some link) :
    c.closed = false := by
  cases hclosed : c.closed with
  | false => rfl
  | true => exact nomatch hlink.symm.trans (hc.unlinked hclosed)

/-- A write that goes wrong loses the transport. -/
theorem Chronicle.Settled.endWrite (h : s.Settled) (hopen : s.connection.closed = false) (link : Link)
    (bytes : List UInt8) (deadline : Deadline) (outcome : Output) (now : Instant) :
    ((s.note (.write link bytes deadline) outcome).change (s.connection.endWrite outcome now).2).Settled := by
  cases outcome with
  | done =>
    have hnoted : (s.note (.write link bytes deadline) .done).Settled := h.note rfl
    exact hnoted.same ⟨rfl, rfl, rfl⟩
  | failed detail =>
    exact h.lose hopen (q := .write link bytes deadline) (b := .failed detail) rfl .writing (some detail)
  | late => exact h.lose hopen (q := .write link bytes deadline) (b := .late) rfl .writing (some "write timed out")

/-- So does a read that brings nothing. -/
theorem Chronicle.Settled.endRead (h : s.Settled) (hopen : s.connection.closed = false) (link : Link)
    (limit : Option Nat) (deadline : Deadline) (input : Input) :
    ((s.note (.read link limit deadline) input).change (s.connection.endRead input).2).Settled := by
  cases input with
  | bytes b =>
    have hnoted : (s.note (.read link limit deadline) (.bytes b)).Settled := h.note rfl
    exact hnoted.same ⟨rfl, rfl, rfl⟩
  | ended =>
    exact h.lose hopen (q := .read link limit deadline) (b := .ended) rfl .reading
      (some "connection closed by peer")
  | failed detail =>
    exact h.lose hopen (q := .read link limit deadline) (b := .failed detail) rfl .reading (some detail)
  | late => exact h.lose hopen (q := .read link limit deadline) (b := .late) rfl .reading (some "read timed out")

/-- Where there is no transport any more, nothing is told unless the connection was open. -/
theorem Chronicle.Settled.ended (h : s.Settled) (hd : d.closed = true) (htransport : d.transport = none) :
    (s.change d).Settled := h.change ⟨fun _ => hd, fun _ => htransport⟩ fun _ => hd

theorem settles_flush : Maintains soundly Settled flush.run := by
  intro s hs
  unfold flush
  refine Safe.orFail (safe_attemptSoundly fun _ => ?_)
  unfold beginWrite
  split
  · have hsame : (s.change s.connection).Settled := hs.same ⟨rfl, rfl, rfl⟩
    exact ⟨hsame, safe_ok hsame⟩
  dsimp only
  split
  · next link hlink =>
    have hopen := hs.coherent.open_of_linked hlink
    have hbegun : (s.change { s.connection with outbox := s.connection.outbox.take.2, inFlight := true }).Settled :=
      hs.same ⟨rfl, rfl, rfl⟩
    refine ⟨hbegun, Safe.orFail (safe_transferSoundly hbegun fun outcome => safe_attemptSoundly fun now => ?_)⟩
    have hdone := hbegun.endWrite hopen link s.connection.outbox.take.1 s.connection.deadline outcome now
    exact ⟨hdone, hdone⟩
  · have hlost := hs.ended (d := ({ s.connection with
      outbox := s.connection.outbox.take.2, inFlight := false }.lose .writing none).2) rfl rfl
    exact ⟨hlost, hlost⟩

theorem settles_nextAnswer : Maintains soundly Settled nextAnswer.run := by
  intro s hs
  unfold nextAnswer
  refine safe_iterateOrFail (fun _ t => t.Settled) hs fun _ s hs => Safe.orFail (safe_attemptSoundly fun now => ?_)
  unfold beginRead
  split
  next found inbox _ =>
  split
  · have hended := hs.ended (d := { { s.connection with inbox := inbox }.kill with defunct := true }) rfl rfl
    exact ⟨hended, hended⟩
  · have htaken : (s.change { s.connection with inbox := inbox }).Settled := hs.same ⟨rfl, rfl, rfl⟩
    exact ⟨htaken, safe_ok htaken⟩
  · dsimp only
    split
    · next link hlink =>
      have hopen := hs.coherent.open_of_linked hlink
      have hbegun : (s.change { s.connection with inbox := inbox, inFlight := true }).Settled :=
        hs.same ⟨rfl, rfl, rfl⟩
      refine ⟨hbegun, Safe.orFail (safe_transferSoundly hbegun fun input => Safe.orFail
        ((safe_settling fun _ => hbegun.endRead hopen link none _ input).mono fun r t ht => ?_))⟩
      cases r with
      | ok => exact safe_ok ht
      | error e => exact ht
    · have hlost :=
        hs.ended (d := ({ s.connection with inbox := inbox, inFlight := false }.lose .reading none).2) rfl rfl
      exact ⟨hlost, hlost⟩

theorem settles_fetchOne : Maintains soundly Settled fetchOne.run := by
  have hcomposes := maintains_composes (R := soundly) (J := Settled)
  unfold fetchOne
  refine hcomposes.orFail (settles_check .reading) fun _ => ?_
  refine hcomposes.orFail (hcomposes.map (settles_same fun _ _ => ⟨rfl, rfl, rfl⟩)) fun empty => ?_
  dsimp only
  split
  · exact hcomposes.ok _
  · refine hcomposes.orFail settles_nextAnswer fun r => hcomposes.map (settles_same fun now c => ?_)
    obtain ⟨hdefunct, hclosed, htransport⟩ := sameUse_receive { c with lastUsed := now } r
    exact ⟨hdefunct, hclosed, htransport⟩

/-- A connection that has let go of its transport is closed. -/
theorem settles_hangUp : Maintains soundly Settled hangUp := by
  intro s hs
  unfold hangUp
  refine Safe.andThen (safe_editSoundly fun _ => ?_)
  have hunlinked : (s.change { s.connection with transport := none }).Settled :=
    hs.change ⟨hs.coherent.parted, fun _ => rfl⟩ id
  refine ⟨hunlinked, ?_⟩
  have hpart {t : Chronicle} (ht : t.Settled) (hnone : t.connection.transport = none) :
      (change fun c => { c with closed := true, closing := false } : Task Unit).Safe soundly t
        fun _ u => u.Settled :=
    safe_editSoundly fun _ =>
      have hparted : (t.change { t.connection with closed := true, closing := false }).Settled := ht.ended rfl hnone
      ⟨hparted, hparted⟩
  dsimp only
  split
  · refine Safe.andThen ⟨hunlinked, ?_⟩
    rintro _ t rfl
    exact hpart (hunlinked.note rfl) rfl
  · exact hpart hunlinked rfl

theorem settles_close : Maintains soundly Settled close := by
  have hcomposes := maintains_composes (R := soundly) (J := Settled)
  unfold close
  refine hcomposes.andThen (settles_same fun _ c => ?_) fun todo => ?_
  · unfold beginClose put
    split
    · exact ⟨rfl, rfl, rfl⟩
    · dsimp only
      split
      · exact ⟨rfl, rfl, rfl⟩
      · cases PackStream.encode Request.goodbye.toStruct.value <;> exact ⟨rfl, rfl, rfl⟩
  · match todo with
    | none => exact hcomposes.done _
    | some false => exact settles_hangUp
    | some true => exact hcomposes.andThen settles_flush fun _ => settles_hangUp

theorem settles_basics : Basics fun {α : Type} (w : Task α) => Maintains soundly Settled w where
  toComposes := maintains_composes
  looking _ := settles_same fun _ _ => ⟨rfl, rfl, rfl⟩
  queueing r purpose watch := settles_same fun _ c => sameUse_queue c r purpose watch
  checking := settles_check
  writing := settles_flush
  fetching := settles_fetchOne
  killing := settles_edit fun _ c _ => ⟨coherent_kill c, fun _ => rfl⟩
  closing := settles_close

theorem settles_command (labels : Stage.Labels) (k : Stage.Command) : Maintains soundly Settled (k.work labels) :=
  Stage.Command.work_basics settles_basics (fun q watch => settles_same fun _ c => sameUse_apply q watch c)
    (fun hf => settles_same fun now c => (hf now c).sameUse) labels k

/-- The work is refused as unavailable. Nothing is written or delivered, and the server is as it was. -/
structure TurnedAway (s : Chronicle) (r : Except Error α) (t : Chronicle) : Prop where
  unavailable : ∃ what, r = .error (.unavailable what)
  written : t.written = s.written
  undelivered : Undelivered s.connection t.connection
  state : t.connection.state = s.connection.state

theorem ends_attempt {f : Instant → Connection → Except Error α × Connection} {post : Except Error α → Chronicle → Prop}
    (h : ∀ now, post (f now s.connection).1 (s.change (f now s.connection).2)) :
    (attempt f).run.Ends anyTimes post s := by
  refine .ask ⟨_, _, .start, rfl, rfl⟩ ?_
  rintro b t ⟨now, rfl, rfl⟩
  exact .done (h now)

theorem turnedAway_check (hclosed : s.connection.closed = true) (direction : Direction) :
    (attempt fun _ c => c.check direction).run.Ends anyTimes (TurnedAway s) s := by
  refine ends_attempt fun _ => ?_
  obtain ⟨hrefused, hundelivered, _⟩ := Severed.check (.inr hclosed) direction
  refine ⟨hrefused, rfl, hundelivered, ?_⟩
  show (s.connection.check direction).2.state = s.connection.state
  rw [check_settles]
  unfold settleFlight
  split <;> rfl

/-- What comes after work that is refused is not begun. -/
theorem TurnedAway.first {β : Type} {w : Attempt α} {f : α → Attempt β} (h : w.run.Ends anyTimes (TurnedAway s) t) :
    (w >>= f).run.Ends anyTimes (TurnedAway s) t := by
  refine Ends.orFail (h.mono fun r u hu => ?_)
  obtain ⟨⟨what, rfl⟩, hwritten, hundelivered, hstate⟩ := hu
  exact ⟨⟨what, rfl⟩, hwritten, hundelivered, hstate⟩

theorem turnedAway_sendAll (hclosed : s.connection.closed = true) : sendAll.run.Ends anyTimes (TurnedAway s) s :=
  TurnedAway.first (turnedAway_check hclosed .writing)

theorem turnedAway_fetchMessage (hclosed : s.connection.closed = true) :
    fetchMessage.run.Ends anyTimes (TurnedAway s) s :=
  TurnedAway.first (TurnedAway.first (turnedAway_check hclosed .reading))

/-- The RESET waits behind all else, and is not sent. -/
theorem turnedAway_reset (hclosed : s.connection.closed = true) : reset.run.Ends anyTimes (TurnedAway s) s := by
  unfold reset
  refine Ends.orFail (ends_attempt fun _ => ?_)
  rw [queue_reset]
  have hsent := turnedAway_sendAll (s := s.change (s.connection.queue .reset .reset {}).2) hclosed
  refine TurnedAway.first (hsent.mono fun r t ht => ?_)
  have hqueued : Undelivered s.connection (s.connection.queue .reset .reset {}).2 :=
    (queue_undelivered s.connection .reset .reset {}).1
  exact ⟨ht.unavailable, ht.written, hqueued.trans ht.undelivered, ht.state⟩

theorem lasting_closed : Lasting fun c => c.closed = true where
  alters hc h := h.closed hc
  marks hc h := h.sameUse.closed.trans hc

/-- What has once been found broken is broken for good. -/
theorem Alters.defunct (h : Alters c d) (hc : c.defunct = true) : d.defunct = true := by
  cases h with
  | same | unlink | part | kill => exact hc
  | check _ direction => exact (check_cases c direction).1.defunct hc
  | beginWrite => exact (keeps_beginWrite c).defunct hc
  | endWrite outcome now => exact (keeps_endWrite outcome now c).defunct hc
  | beginRead now =>
    have hcases := (beginRead_cases now c).2
    generalize c.beginRead now = began at hcases ⊢
    match began with
    | (.ok (.answer r), d) =>
      obtain ⟨_, _, _, hsame, _⟩ := hcases
      exact hsame.trans hc
    | (.ok (.read link deadline), d) =>
      obtain ⟨_, _, _, hsame, _⟩ := hcases
      exact hsame.trans hc
    | (.error e, d) => exact hcases
  | endRead input => cases input <;> first | exact hc | rfl
  | receive now _ r => exact (sameLink_receive { c with lastUsed := now } r).defunct.trans hc
  | beginClose =>
    have hcases := beginClose_cases c
    generalize c.beginClose = began at hcases ⊢
    match began with
    | (none, d) =>
      obtain ⟨_, rfl⟩ := hcases
      exact hc
    | (some _, d) =>
      obtain ⟨_, _, _, _, hsame⟩ := hcases
      exact hsame.trans hc
  | queue _ r purpose watch => exact (queue_line c r purpose watch).2.2.2.2.1.trans hc

theorem lasting_defunct : Lasting fun c => c.defunct = true where
  alters hc h := h.defunct hc
  marks hc h := h.sameUse.defunct.trans hc

namespace Story

variable {x y : Story}

/-- Things are settled, or somebody is at work who leaves them settled. -/
def Proceeds (x : Story) : Prop :=
  x.chronicle.Sound ∧ match x.doing with
    | none => x.chronicle.Settled
    | some w => w.Safe soundly x.chronicle fun _ t => t.Settled

theorem Proceeds.next (hx : x.Proceeds) (h : Next x y) : y.Proceeds := by
  obtain ⟨hsound, hx⟩ := hx
  cases h with
  | begin labels k s => exact ⟨hsound, settles_command labels k s hx⟩
  | goOn hstep =>
    cases hstep with
    | @answer _ q _ b _ _ hb =>
      refine ⟨?_, hx.2 _ _ hb⟩
      cases q with
      | edit f =>
        obtain ⟨now, _, rfl⟩ := hb
        exact hx.1 now
      | transfer q =>
        obtain rfl := hb
        exact ⟨hsound.coherent, hsound.once, hsound.fair⟩
    | round => exact ⟨hsound, Safe.round hx⟩
  | finish => exact ⟨hsound, hx⟩
  | drop => exact ⟨hsound, hx.1⟩
  | heed s =>
    have hheeded := Settled.same hx (Marks.heeded s.connection).sameUse
    exact ⟨hheeded.toSound, hheeded⟩
  | choose routed s =>
    have hchosen := Settled.same hx (Marks.chosen s.connection routed).sameUse
    exact ⟨hchosen.toSound, hchosen⟩

theorem Reaches.proceeds (h : Reaches x y) (hx : x.Proceeds) : y.Proceeds := by
  induction h with
  | refl => exact hx
  | tail _ hnext ih => exact ih.next hnext

theorem proceeds_opened (link : Link) (address : Address) (endpoint : Option Endpoint) (version : Version)
    (lifetime : Option Duration) (now : Instant) : (opened link address endpoint version lifetime now).Proceeds := by
  have hcoherent : Coherent (ofLink link address endpoint version lifetime now) := by
    constructor
    · intro h
      cases h
    · intro h
      cases h
  have hsound : Sound { connection := ofLink link address endpoint version lifetime now } :=
    ⟨hcoherent, Nat.zero_le 1, List.forall_mem_nil _⟩
  have hsettled : Settled { connection := ofLink link address endpoint version lifetime now } :=
    ⟨hsound, rfl, fun _ => rfl⟩
  exact ⟨hsound, hsettled⟩

end Story

theorem Loss.Fair.told_eq {l : Loss} (h : l.Fair) :
    l.told = if l.before.closing || l.before.state = .failed then [] else [.deactivate] := by
  unfold told
  rw [h, List.drop_left]

/-- A transport that is lost is told of once at most. -/
theorem Chronicle.Sound.told_once (h : s.Sound) : (s.losses.flatMap Loss.told).count .deactivate ≤ 1 := by
  match hlosses : s.losses with
  | [] => exact Nat.zero_le 1
  | [l] =>
    have hfair := h.fair l (by rw [hlosses]; exact List.mem_singleton_self l)
    rw [List.flatMap_cons, List.flatMap_nil, List.append_nil, hfair.told_eq]
    split <;> decide
  | _ :: _ :: _ =>
    have honce := h.once
    rw [hlosses] at honce
    simp at honce

/-- Whatever is done with a connection from its opening on, however it is dropped and whatever the network says:
a connection that is defunct is closed and has no transport; what is closed or defunct stays so; once it is closed,
sending, fetching and bringing back come to an end, refused as unavailable, with nothing written or delivered and
the server where it was. The owner is told at most once to give up the server because the transport was lost, and
not if that came while the connection was parting or after the server had failed. -/
theorem closed_for_good (link : Link) (address : Address) (endpoint : Option Endpoint) (version : Version)
    (lifetime : Option Duration) (now : Instant) (x : Story)
    (hx : Story.Reaches (.opened link address endpoint version lifetime now) x) :
    (x.chronicle.connection.defunct = true →
      x.chronicle.connection.closed = true ∧ x.chronicle.connection.transport = none) ∧
    (∀ y, Story.Reaches x y →
      (x.chronicle.connection.closed = true → y.chronicle.connection.closed = true) ∧
      (x.chronicle.connection.defunct = true → y.chronicle.connection.defunct = true)) ∧
    (x.chronicle.connection.closed = true →
      sendAll.run.Ends anyTimes (TurnedAway x.chronicle) x.chronicle ∧
      fetchMessage.run.Ends anyTimes (TurnedAway x.chronicle) x.chronicle ∧
      reset.run.Ends anyTimes (TurnedAway x.chronicle) x.chronicle) ∧
    (x.chronicle.losses.flatMap Loss.told).count .deactivate ≤ 1 ∧
    ∀ l ∈ x.chronicle.losses, l.after.feedback = l.before.feedback ++ l.told ∧
      (l.before.closing = true ∨ l.before.state = .failed → .deactivate ∉ l.told) := by
  have hsound := (hx.proceeds (Story.proceeds_opened link address endpoint version lifetime now)).1
  have hstart (J : Connection → Prop) := Story.preserves_opened J link address endpoint version lifetime now
  refine ⟨fun hdefunct => ?_, fun y hy => ⟨?_, ?_⟩, fun hclosed => ?_, hsound.told_once, fun l hl => ?_⟩
  · have hclosed := hsound.coherent.parted hdefunct
    exact ⟨hclosed, hsound.coherent.unlinked hclosed⟩
  · exact (((hstart _).reaches lasting_closed hx).1.reaches lasting_closed hy).2
  · exact (((hstart _).reaches lasting_defunct hx).1.reaches lasting_defunct hy).2
  · exact ⟨turnedAway_sendAll hclosed, turnedAway_fetchMessage hclosed, turnedAway_reset hclosed⟩
  · have hfair := hsound.fair l hl
    refine ⟨hfair.told_eq ▸ hfair, fun hspared => ?_⟩
    have hcalm : (l.before.closing || decide (l.before.state = .failed)) = true := by simpa using hspared
    rw [hfair.told_eq, if_pos hcalm]
    exact List.not_mem_nil

theorem late_write_closes :
    ∃ x, Story.Reaches (.opened ⟨0⟩ default none .v5_2 none .start) x ∧ x.chronicle.losses.length = 1 ∧
      x.chronicle.connection.closed = true ∧ x.chronicle.connection.transport = none ∧
      sendAll.run.Ends anyTimes (TurnedAway x.chronicle) x.chronicle := by
  let c : Connection := ofLink ⟨0⟩ default none .v5_2 none .start
  let queued : Chronicle := ({ connection := c } : Chronicle).change (c.commit {}).2
  let checked : Chronicle := queued.change queued.connection
  let begun : Chronicle := checked.change checked.connection.beginWrite.2
  let writing : Transfer Output := .write ⟨0⟩ queued.connection.outbox.take.1 .never
  let late : Chronicle := begun.note writing .late
  let lost : Chronicle := late.change (late.connection.endWrite .late .start).2
  let sending {α : Type} (w : Attempt α) : Task Stage.Outcome := Stage.Command.attempt (fun _ => .done) w
  have hcommit : Step anyTimes (Stage.Command.work [] (.queue "" .commit {}), { connection := c })
      (.done (.queued 0), queued) := step_edit .start
  have hqueue : Story.Reaches ⟨none, { connection := c }⟩ ⟨none, queued⟩ :=
    .tail (.tail (.tail .refl (.begin [] (.queue "" .commit {}) _)) (.goOn hcommit)) (.finish _ _)
  have hcheck : Step anyTimes (sending sendAll, queued) (sending flush, checked) := step_edit .start
  have hbegin : Step anyTimes (sending flush, checked)
      (sending (do let outcome ← transfer writing; attempt (endWrite outcome)), begun) := step_edit .start
  have hwrite : Step anyTimes (sending (do let outcome ← transfer writing; attempt (endWrite outcome)), begun)
      (sending (attempt (endWrite .late)), late) := step_transfer Output.late
  have hend : Step anyTimes (sending (attempt (endWrite .late)), late) (.done (.failed _), lost) := step_edit .start
  have hsend : Story.Reaches ⟨none, queued⟩ ⟨none, lost⟩ :=
    .tail (.tail (.tail (.tail (.tail (.tail .refl (.begin [] .sendAll _)) (.goOn hcheck)) (.goOn hbegin))
      (.goOn hwrite)) (.goOn hend)) (.finish _ _)
  have hx := hqueue.trans hsend
  obtain ⟨_, _, hrefused, _⟩ := closed_for_good ⟨0⟩ default none .v5_2 none .start _ hx
  exact ⟨_, hx, rfl, rfl, rfl, (hrefused rfl).1⟩

end
end BoltClient.Connection
