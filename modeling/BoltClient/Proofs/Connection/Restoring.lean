import BoltClient.Proofs.Connection.Commit

namespace BoltClient

namespace ServerState

/-- A server that has greeted once does not need to greet again. -/
theorem after_ne_connected {s : ServerState} (h : s ≠ .connected) (request : Message.Kind)
    (hasMore : Bool) : s.after request hasMore ≠ .connected := by
  unfold after
  split
  · exact h
  · split <;> first | decide | exact h

theorem after_reset {s : ServerState} (h : s ≠ .connected) : s.after .reset false = .ready := by
  cases s with
  | connected => exact absurd rfl h
  | ready | streaming | inTransaction | failed => rfl

end ServerState

/-- What a server says has failed is told as such. -/
theorem Error.failure?_ofServer (f : Server.Error) : (Error.ofServer f).failure? = some f := by
  unfold ofServer
  split <;> rfl

namespace Connection

open Work Session

def OrCloses {α : Type} (post : α → Session → Prop) (r : Except Error α) (t : Session) : Prop :=
  match r with
  | .ok a => post a t
  | .error _ => t.connection.closed = true

def IfFails {α : Type} (post : Session → Prop) (r : Except Error α) (t : Session) : Prop :=
  match r with
  | .ok _ => True
  | .error e => ∀ f, e.failure? = some f → post t

structure Moves (c d : Connection) : Prop where
  works : Works d
  state : d.state = c.state

variable {c d : Connection} {s : Session}

theorem Moves.refl (h : Works c) : Moves c c := ⟨h, rfl⟩

theorem Moves.trans {e : Connection} (h : Moves c d) (h' : Moves d e) : Moves c e :=
  ⟨h'.works, h'.state.trans h.state⟩

/-- Bytes are on their way. -/
def MovesOn (c d : Connection) : Prop := Moves c { d with inFlight := false }

theorem Works.movesOn (h : Works c) (hstate : d.state = c.state) (hdefunct : d.defunct = c.defunct)
    (hclosed : d.closed = c.closed) : MovesOn c d :=
  ⟨⟨rfl, hdefunct.trans h.defunct, hclosed.trans h.closed⟩, hstate⟩

theorem beginWrite_moves (h : Works c) : match c.beginWrite.1 with
    | .ok none => Moves c c.beginWrite.2 ∧ c.beginWrite.2.outbox.size = 0
    | .ok (some _) => MovesOn c c.beginWrite.2 ∧ c.beginWrite.2.outbox.size = 0
    | .error _ => c.beginWrite.2.closed = true := by
  unfold beginWrite
  by_cases hnothing : c.outbox.size = 0
  · rw [if_pos hnothing]
    exact ⟨.refl h, hnothing⟩
  · rw [if_neg hnothing]
    dsimp only
    cases c.transport with
    | some link => exact ⟨h.movesOn rfl rfl rfl, rfl⟩
    | none => exact rfl

theorem endWrite_moves (h : MovesOn c d) (outcome : Output) (now : Instant) :
    match (d.endWrite outcome now).1 with
    | .ok () => Moves c (d.endWrite outcome now).2 ∧ (d.endWrite outcome now).2.outbox = d.outbox
    | .error _ => (d.endWrite outcome now).2.closed = true := by
  cases outcome with
  | done => exact ⟨⟨⟨rfl, h.works.defunct, h.works.closed⟩, h.state⟩, rfl⟩
  | failed | late => exact rfl

theorem beginRead_moves (h : Works c) (now : Instant) : match (c.beginRead now).1 with
    | .ok (.answer _) => Moves c (c.beginRead now).2 ∧ (c.beginRead now).2.outbox = c.outbox
    | .ok (.read ..) => MovesOn c (c.beginRead now).2 ∧ (c.beginRead now).2.outbox = c.outbox
    | .error _ => (c.beginRead now).2.closed = true := by
  unfold beginRead
  rcases Wire.nextResponse c.inbox with ⟨found, inbox⟩
  match found with
  | .error e => exact rfl
  | .ok (some a) => exact ⟨⟨⟨h.settled, h.defunct, h.closed⟩, rfl⟩, rfl⟩
  | .ok none =>
    dsimp only
    cases c.transport with
    | some link => exact ⟨h.movesOn rfl rfl rfl, rfl⟩
    | none => exact rfl

theorem endRead_moves (h : MovesOn c d) (input : Input) : match (d.endRead input).1 with
    | .ok () => Moves c (d.endRead input).2 ∧ (d.endRead input).2.outbox = d.outbox
    | .error _ => (d.endRead input).2.closed = true := by
  cases input with
  | bytes b => exact ⟨⟨⟨rfl, h.works.defunct, h.works.closed⟩, h.state⟩, rfl⟩
  | ended | failed | late => exact rfl

theorem flush_moves (h : Works s.connection) : flush.run.Safe anyNetwork s
    (OrCloses fun _ t => Moves s.connection t.connection ∧ t.connection.outbox.size = 0) := by
  unfold flush
  refine Safe.orFail (safe_attempt fun _ => ?_)
  have hbegin := beginWrite_moves h
  generalize s.connection.beginWrite = began at hbegin
  obtain ⟨outcome, d⟩ := began
  match outcome with
  | .error e => exact hbegin
  | .ok none => exact safe_ok hbegin
  | .ok (some o) =>
    refine Safe.orFail (safe_transferAmid trivial fun outcome => safe_attempt fun now => ?_)
    have hend := endWrite_moves hbegin.1 outcome now
    generalize d.endWrite outcome now = ended at hend
    obtain ⟨_ | _, e⟩ := ended
    · exact hend
    · exact ⟨hend.1, by rw [hend.2, hbegin.2]⟩

theorem sendAll_moves (h : Works s.connection) : sendAll.run.Safe anyNetwork s
    (OrCloses fun _ t => Moves s.connection t.connection ∧ t.connection.outbox.size = 0) := by
  unfold sendAll
  refine Safe.orFail (safe_attempt fun _ => ?_)
  rw [check_of_works h]
  exact flush_moves h

theorem nextAnswer_moves (h : Works s.connection) : nextAnswer.run.Safe anyNetwork s
    (OrCloses fun _ t => Moves s.connection t.connection ∧ t.connection.outbox = s.connection.outbox) := by
  unfold nextAnswer
  refine safe_iterateOrFail (fun _ t => Moves s.connection t.connection ∧
    t.connection.outbox = s.connection.outbox) ⟨.refl h, rfl⟩ fun _ t ht => ?_
  obtain ⟨hmoves, houtbox⟩ := ht
  refine Safe.orFail (safe_attempt fun now => ?_)
  have hbegin := beginRead_moves hmoves.works now
  generalize t.connection.beginRead now = began at hbegin
  obtain ⟨outcome, d⟩ := began
  match outcome with
  | .error e => exact hbegin
  | .ok (.answer a) => exact safe_ok ⟨hmoves.trans hbegin.1, hbegin.2.trans houtbox⟩
  | .ok (.read link deadline) =>
    refine Safe.orFail (safe_transferAmid trivial fun input => Safe.orFail (safe_attempt fun _ => ?_))
    have hend := endRead_moves hbegin.1 input
    generalize d.endRead input = ended at hend
    obtain ⟨_ | _, e⟩ := ended
    · exact hend
    · exact safe_ok ⟨hmoves.trans hend.1, by rw [hend.2, hbegin.2, houtbox]⟩

/-- An answer has been taken out of the bytes that came in and not been dealt with. -/
structure Takes (c₀ : Connection) (told : List Response) (c d : Connection) (heard : List UInt8)
    (a : Response) : Prop where
  moves : Moves c d
  books : SameBooks c d
  outbox : d.outbox = c.outbox
  hears : Hears c₀ (told ++ [a]) ⟨d, heard⟩

/-- A RESET has been sent behind everything that was pending, and its answer has not come in. -/
structure Drains (c₀ : Connection) (told : List Response) (s : Session) : Prop where
  tracks : Tracks c₀ [resetExchange] told s
  works : Works s.connection
  sent : s.connection.outbox.size = 0
  greeted : s.connection.state ≠ .connected
  waits : s.connection.pending ≠ []

/-- A RESET went well behind everything that was pending. -/
structure Restored (c₀ : Connection) (told : List Response) (metadata : Entries Value) (t : Session) :
    Prop where
  hears : Hears c₀ told t
  /-- Every exchange that was pending has got a summary, its own. -/
  each : ∀ i x, c₀.pending[i]? = some x → ∃ summary, (Response.summaries told)[i]? = some summary ∧
    t.connection.exchange? (c₀.answered.size + i)
      = some (x.after (Response.recordsOf i told) (some summary))
  /-- The summary that comes next is that of the RESET, which is a success. -/
  answered : (Response.summaries told)[c₀.pending.length]? = some (.success metadata)
  pending : t.connection.pending = []
  sent : t.connection.outbox.size = 0
  /-- The server takes requests again, unless it says that there is more of a result. -/
  ready : Success.hasMore ⟨metadata⟩ = false → t.connection.state = .ready

def Settled (c₀ : Connection) (s : Session) : Prop :=
  s.connection.closed = true ∨ ∃ told metadata, Restored c₀ told metadata s

/-- The same, or the RESET is on its way. -/
def Settling (c₀ : Connection) (s : Session) : Prop := (∃ told, Drains c₀ told s) ∨ Settled c₀ s

section

variable {c₀ : Connection} {told : List Response} {begun : List Exchange} {n : Nat} {x : Exchange}
  {rest : List Exchange} {trouble : Trouble}

/-- An answer is taken in if one is pending, or the connection is closed. -/
theorem fetchOne_takes (hworks : Works s.connection)
    (htracks : Tracks c₀ (begun ++ List.replicate n resetExchange) told s) :
    fetchOne.run.Safe anyNetwork s (OrCloses fun r t =>
      (s.connection.pending = [] ∧ r.2 = none ∧ t = s) ∨
      ∃ a d, s.connection.pending ≠ [] ∧ Takes c₀ told s.connection d t.heard a ∧
        d.receive a = (r.1, r.2, t.connection)) := by
  unfold fetchOne
  refine Safe.orFail (safe_attempt fun _ => ?_)
  rw [check_of_works hworks]
  refine Safe.orFail (safe_editAmid fun _ => ?_)
  dsimp only
  split
  · next hnone => exact safe_ok (.inl ⟨List.isEmpty_iff.mp hnone, rfl, rfl⟩)
  · next hsome =>
    have hanswer := unguarded (safe_nextAnswer htracks hworks.defunct hworks.closed)
    refine Safe.orFail ((hanswer.both (nextAnswer_moves hworks) fun hb => hb).mono fun r t ht => ?_)
    obtain ⟨⟨hbooks, hhears⟩, hmoves⟩ := ht
    cases r with
    | error e => exact hmoves
    | ok a =>
      obtain ⟨⟨hworks, hstate⟩, houtbox⟩ := hmoves
      refine safe_editAmid fun now => .inr ⟨a, { t.connection with lastUsed := now }, ?_, ?_, rfl⟩
      · exact fun hnone => hsome (List.isEmpty_iff.mpr hnone)
      · exact ⟨⟨⟨hworks.settled, hworks.defunct, hworks.closed⟩, hstate⟩,
          ⟨hbooks.answered, hbooks.pending, hbooks.closing, hbooks.closed⟩, houtbox, hhears.1.congr rfl id⟩

/-- The last exchange that is pending is that of the RESET. -/
theorem Correlated.last (h : Correlated c₀ c [resetExchange] told) (hpending : c.pending = [x]) :
    x = resetExchange ∧ (Response.summaries told).length = c₀.pending.length := by
  have hcount := h.pending
  rw [hpending, List.length_singleton, List.length_singleton] at hcount
  have hlast : (Response.summaries told).length = c₀.pending.length := by omega
  refine ⟨?_, hlast⟩
  have horder := h.inOrder c₀.pending.length
  have hindex : c₀.answered.size + c₀.pending.length = c.answered.size + 0 := by
    rw [h.concluded, hlast, Nat.add_zero]
  have hnone : (Response.summaries told)[c₀.pending.length]? = none :=
    List.getElem?_eq_none (Nat.le_of_eq hlast)
  rw [hindex, exchange?_pending, hpending, hnone, List.getElem?_append_right (Nat.le_refl _),
    Nat.sub_self] at horder
  exact Option.some.inj horder

/-- An exchange with a summary has its own. -/
theorem Correlated.concludes {summary : Response} {i : Nat} (h : Correlated c₀ c begun told)
    (hx : (c₀.pending ++ begun)[i]? = some x) (hsummary : (Response.summaries told)[i]? = some summary) :
    c.exchange? (c₀.answered.size + i) = some (x.after (Response.recordsOf i told) (some summary)) := by
  rw [h.inOrder, hx, hsummary, Option.map_some]

theorem remedyFor_ne_close (purpose : Purpose) : remedyFor purpose ≠ .close := by
  cases purpose <;> exact nofun

/-- Only after a failure the server is brought back, and only trouble with a RESET, which is not told as a
failure, makes the connection part. -/
theorem remedy_receive (hpending : c.pending = x :: rest) {r : Response}
    (h : (c.receive r).2.1 = some trouble) :
    (trouble.remedy = .reset → (c.receive r).2.2.state = .failed) ∧
    (trouble.remedy = .close → ∀ e, trouble.error = some e → e.failure? = none) := by
  have hstate := state_receive hpending r
  obtain ⟨_, hreset, hother⟩ := trouble_receive hpending h
  unfold receive at h
  rw [hpending] at h
  by_cases hx : x.purpose = .reset
  · refine ⟨fun hremedy => ?_, fun _ e he => ?_⟩
    · rw [(hreset hx).1] at hremedy
      cases hremedy
    cases r with
    | record values | ignored =>
      simp only [hx, if_true] at h
      cases h
      cases he
    | success metadata => cases h
    | failure metadata =>
      simp only [failHead, hx, if_true] at h
      cases h
      cases he
      rfl
  · refine ⟨fun _ => ?_, fun hremedy => ?_⟩
    · cases r with
      | record values | ignored =>
        simp only [hx, if_false] at h
        cases h
      | success metadata => cases h
      | failure metadata => exact hstate
    · rw [(hother hx).1] at hremedy
      exact absurd hremedy (remedyFor_ne_close _)

theorem Takes.works {heard : List UInt8} {a : Response} (h : Takes c₀ told c d heard a) :
    Works (d.receive a).2.2 :=
  have hlink := sameLink_receive d a
  ⟨(inFlight_receive d a).trans h.moves.works.settled, hlink.defunct.trans h.moves.works.defunct,
    hlink.closed.trans h.moves.works.closed⟩

theorem Takes.tracks {heard : List UInt8} {a : Response} (h : Takes c₀ told s.connection d heard a)
    (htracks : Tracks c₀ begun told s) (hpending : s.connection.pending = x :: rest) :
    Tracks c₀ begun (told ++ [a]) ⟨(d.receive a).2.2, heard⟩ :=
  (Tracks.receive (s := ⟨d, heard⟩) (htracks.correlated.congr h.books.answered h.books.pending) h.hears
    (h.books.pending.trans hpending)).1

/-- An answer ahead of that of the RESET comes in, and the RESET still waits for its own. -/
theorem Drains.receive {y : Exchange} (h : Drains c₀ told s) {heard : List UInt8} {a : Response}
    (htakes : Takes c₀ told s.connection d heard a) (hpending : s.connection.pending = x :: y :: rest) :
    Drains c₀ (told ++ [a]) ⟨(d.receive a).2.2, heard⟩ := by
  have hnext : d.pending = x :: y :: rest := htakes.books.pending.trans hpending
  refine ⟨htakes.tracks h.tracks hpending, htakes.works, ?_, ?_, ?_⟩
  · rw [outbox_receive, htakes.outbox, h.sent]
  · rw [state_receive hnext, htakes.moves.state]
    cases a with
    | record | ignored => exact h.greeted
    | success metadata => exact ServerState.after_ne_connected h.greeted _ _
    | failure metadata => exact nofun
  · obtain hnow | ⟨z, _, hnow⟩ := pending_receive hnext a <;> rw [hnow] <;> exact nofun

/-- The RESET is answered last, with a success. -/
theorem Drains.restored (h : Drains c₀ told s) {heard : List UInt8} {metadata : Entries Value}
    (htakes : Takes c₀ told s.connection d heard (.success metadata)) (hpending : s.connection.pending = [x]) :
    Restored c₀ (told ++ [.success metadata]) metadata ⟨(d.receive (.success metadata)).2.2, heard⟩ := by
  obtain ⟨rfl, hlast⟩ := h.tracks.correlated.last hpending
  have hnext : d.pending = [resetExchange] := htakes.books.pending.trans hpending
  have hcorrelated := (htakes.tracks h.tracks hpending).correlated
  have hlink := sameLink_receive d (.success metadata)
  have hsummaries : Response.summaries (told ++ [.success metadata])
      = Response.summaries told ++ [.success metadata] := Response.summaries_append _ _
  refine ⟨htakes.hears.congr hlink.inbox hlink.defunct.trans, fun i y hy => ?_, ?_, ?_, ?_, fun hall => ?_⟩
  · have hi : i < (Response.summaries told).length := by
      rw [hlast]
      exact (List.getElem?_eq_some_iff.mp hy).1
    have hsummary : (Response.summaries (told ++ [.success metadata]))[i]?
        = some (Response.summaries told)[i] := by
      rw [hsummaries, List.getElem?_append_left hi, List.getElem?_eq_getElem hi]
    refine ⟨_, hsummary, hcorrelated.concludes ?_ hsummary⟩
    rw [List.getElem?_append_left (hlast ▸ hi), hy]
  · rw [hsummaries, ← hlast, getElem?_concat, if_pos rfl]
  · unfold Connection.receive
    rw [hnext]
    rfl
  · rw [outbox_receive, htakes.outbox, h.sent]
  · refine (state_receive hnext _).trans ?_
    rw [htakes.moves.state]
    dsimp only
    rw [hall]
    exact ServerState.after_reset h.greeted

/-- One more answer comes in. Either the RESET still waits for its own, or that was it; trouble with anything
else leaves it waiting. -/
theorem Drains.settling (h : Drains c₀ told s) {heard : List UInt8} {a : Response}
    (htakes : Takes c₀ told s.connection d heard a) :
    match (d.receive a).2.1 with
    | none => Settling c₀ ⟨(d.receive a).2.2, heard⟩
    | some trouble => trouble.purpose = .reset ∨ trouble.remedy ≠ .close ∧
        Settling c₀ ⟨(d.receive a).2.2, heard⟩ := by
  obtain ⟨x, rest, hpending⟩ := List.exists_cons_of_ne_nil h.waits
  have hnext : d.pending = x :: rest := htakes.books.pending.trans hpending
  cases rest with
  | cons y rest =>
    have hdrains : Settling c₀ ⟨(d.receive a).2.2, heard⟩ := .inl ⟨_, h.receive htakes hpending⟩
    split
    · exact hdrains
    · next trouble hnow =>
      obtain ⟨hsame, _, hother⟩ := trouble_receive hnext hnow
      by_cases hx : x.purpose = .reset
      · exact .inl (hsame.trans hx)
      · exact .inr ⟨by rw [(hother hx).1]; exact remedyFor_ne_close _, hdrains⟩
  | nil =>
    obtain ⟨rfl, _⟩ := h.tracks.correlated.last hpending
    split
    · next hnow =>
      cases a with
      | record | ignored | failure =>
        unfold Connection.receive at hnow
        rw [hnext] at hnow
        cases hnow
      | success metadata => exact .inr (.inr ⟨_, metadata, h.restored htakes hpending⟩)
    · next trouble hnow => exact .inl (trouble_receive hnext hnow).1

/-- Whatever is wrong with an answer ahead of that of a RESET, the RESET goes on or the connection is
closed. -/
theorem settleBeforeReset_settles
    (h : trouble.purpose = .reset ∨ trouble.remedy ≠ .close ∧ Settling c₀ s) :
    (settleBeforeReset trouble).run.Safe anyNetwork s (OrCloses fun _ t => Settling c₀ t) := by
  unfold settleBeforeReset
  split
  · refine Safe.orFail (safe_editAmid fun _ => ?_)
    dsimp only
    split
    · exact safe_throw rfl
    · exact safe_ok (.inr (.inl rfl))
  · next hpurpose =>
    obtain ⟨hremedy, hsettling⟩ := h.resolve_left hpurpose
    split
    · exact safe_ok hsettling
    · exact safe_editAmid fun _ => .inr (.inl rfl)
    · next hclose => exact absurd hclose hremedy

/-- A RESET that ends well has brought the server back or closed the connection. -/
theorem reset_restores (htracks : Tracks c₀ [] told s) (hworks : Works s.connection)
    (hgreeted : s.connection.state ≠ .connected) :
    reset.run.Safe anyNetwork s (OrCloses fun _ t => Settled c₀ t) := by
  unfold reset
  refine Safe.orFail (safe_attempt fun _ => ?_)
  rw [queue_reset]
  let d : Connection := { s.connection with
    outbox := (s.connection.outbox.write [0xB0, 0x0F]).endMessage
    pending := s.connection.pending ++ [resetExchange] }
  have hqueued : Tracks c₀ [resetExchange] told ⟨d, s.heard⟩ :=
    htracks.begin (x := resetExchange) ⟨rfl, rfl, rfl, rfl, rfl, rfl⟩
  have hready : Works d := ⟨hworks.settled, hworks.defunct, hworks.closed⟩
  have hwaiting : Waiting c₀ [] ⟨d, s.heard⟩ := ⟨1, told, hqueued⟩
  have hsend := (unguarded (safe_sendAll hwaiting)).both (sendAll_moves hready) fun hb => hb
  refine Safe.orFail (hsend.mono fun r t ht => ?_)
  obtain ⟨⟨hkeeps, hheard, _⟩, hsent⟩ := ht
  cases r with
  | error e => exact hsent
  | ok =>
    obtain ⟨⟨hmoved, hstate⟩, hempty⟩ := hsent
    have hdrains : Drains c₀ told t := by
      have htold := hqueued.keeps hkeeps
      rw [← hheard] at htold
      refine ⟨htold, hmoved, hempty, by rw [hstate]; exact hgreeted, ?_⟩
      rw [hkeeps.pending]
      exact List.append_ne_nil_of_right_ne_nil _ nofun
    refine safe_iterateOrFail (fun _ u => Settling c₀ u) (.inl ⟨told, hdrains⟩) fun _ u hu => ?_
    refine Safe.orFail (safe_editAmid fun _ => ?_)
    dsimp only
    split
    · next hquiet =>
      rcases hu with ⟨told, hu⟩ | hsettled
      · exact absurd (by simpa [isQuiet, hu.works.closed] using hquiet) hu.waits
      · exact safe_ok hsettled
    · next hbusy =>
      rcases hu with ⟨told, hu⟩ | hclosed | ⟨told, metadata, hu⟩
      · have hfetch := @fetchOne_takes u c₀ told [] 1 hu.works hu.tracks
        refine Safe.orFail (hfetch.mono fun r v hv => ?_)
        rcases r with e | ⟨counts, trouble⟩
        · exact hv
        obtain ⟨hnone, _⟩ | ⟨a, d, _, htakes, hreceived⟩ := hv
        · exact absurd hnone hu.waits
        · have hsettling := hu.settling htakes
          rw [hreceived] at hsettling
          cases trouble with
          | none => exact safe_ok hsettling
          | some trouble =>
            refine Safe.orFail ((settleBeforeReset_settles hsettling).mono fun r w hw => ?_)
            cases r with
            | error e => exact hw
            | ok => exact safe_ok hw
      · exact absurd (by simp [isQuiet, hclosed]) hbusy
      · exact absurd (by simp [isQuiet, hu.pending]) hbusy

/-- Trouble is settled where its failure can be told. -/
theorem settle_restores (htracks : Tracks c₀ [] told s) (hworks : Works s.connection)
    (hfailed : trouble.remedy = .reset → s.connection.state = .failed)
    (hquiet : trouble.remedy = .close → ∀ e, trouble.error = some e → e.failure? = none) :
    (settle trouble).run.Safe anyNetwork s (IfFails (Settled c₀)) := by
  have hgive (t : Session) (h : ∀ e, trouble.error = some e → ∀ f, e.failure? = some f → Settled c₀ t) :
      (giveError trouble).run.Safe anyNetwork t (IfFails (Settled c₀)) := by
    unfold giveError
    split
    · next e he => exact safe_throw (h e he)
    · exact safe_ok trivial
  unfold settle
  split
  · next hremedy =>
    have hgreeted : s.connection.state ≠ .connected := by rw [hfailed hremedy]; exact nofun
    refine Safe.orFail (Safe.orElse ((reset_restores htracks hworks hgreeted).mono fun r t ht => ?_))
    cases r with
    | ok => exact hgive t fun _ _ _ _ => ht
    | error e =>
      have hclosed : t.connection.closed = true := ht
      dsimp only
      split
      · exact safe_ok (hgive t fun _ _ _ _ => .inl hclosed)
      · exact safe_throw fun _ _ => .inl hclosed
  · exact Safe.orFail (safe_editAmid fun _ => hgive _ fun _ _ _ _ => .inl rfl)
  · next hremedy =>
    refine Safe.orFail (safe_taskAmid ((safe_anyNetwork _).mono fun _ t _ => hgive t fun e he f hf => ?_))
    rw [hquiet hremedy e he] at hf
    cases hf

/-- A failure is told after a RESET has brought the server back, or on a closed connection. -/
theorem fetchMessage_restores (htracks : Tracks c₀ [] told s) (hworks : Works s.connection) :
    fetchMessage.run.Safe anyNetwork s (IfFails (Settled c₀)) := by
  unfold fetchMessage
  have hfetch := @fetchOne_takes s c₀ told [] 0 hworks htracks
  refine Safe.orFail (hfetch.mono fun r t ht => ?_)
  match r with
  | .error e => exact fun _ _ => .inl ht
  | .ok (counts, none) => exact safe_ok trivial
  | .ok (counts, some trouble) =>
    obtain ⟨_, hnone, _⟩ | ⟨a, d, hsome, htakes, hreceived⟩ := ht
    · cases hnone
    obtain ⟨x, rest, hpending⟩ := List.exists_cons_of_ne_nil hsome
    have htold := htakes.tracks htracks hpending
    have hready := htakes.works
    have hremedy := @remedy_receive d x rest trouble (htakes.books.pending.trans hpending) a
    rw [hreceived] at htold hready hremedy
    obtain ⟨hfailed, hquiet⟩ := hremedy rfl
    refine Safe.orFail ((settle_restores htold hready hfailed hquiet).mono fun r u hu => ?_)
    cases r with
    | error e => exact hu
    | ok => exact safe_ok trivial

end

/-- After a RESET that ends well on a connection that is still open, nothing is pending and nothing is left to
be sent, every exchange that was pending has its own summary, and the server takes requests again. A failure
is told by fetching a message only on a closed connection or after such a RESET. -/
theorem reset_brings_back (c : Connection) (t : Session) :
    (c.state ≠ .connected → Leads anyNetwork (reset.run, ⟨c, []⟩) (.done (.ok ()), t) →
      t.connection.closed = false → ∃ told metadata, Restored c told metadata t) ∧
    (∀ e f, Leads anyNetwork (fetchMessage.run, ⟨c, []⟩) (.done (.error e), t) → e.failure? = some f →
      t.connection.closed = true ∨ ∃ told metadata, Restored c told metadata t) := by
  constructor
  · intro hgreeted hends hopen
    by_cases hworks : Works c
    · have hsettled : Settled c t := (reset_restores (.start c) hworks hgreeted).leads hends
      exact hsettled.resolve_left fun hclosed => by rw [hopen] at hclosed; cases hclosed
    · obtain ⟨what, hrefused⟩ := (reset_refuses (s := ⟨c, []⟩) hworks).leads hends
      cases hrefused
  · intro e f hends hf
    by_cases hworks : Works c
    · exact (fetchMessage_restores (.start c) hworks).leads hends f hf
    · obtain ⟨what, hrefused⟩ := (fetchMessage_refuses (s := ⟨c, []⟩) hworks).leads hends
      cases hrefused
      cases hf

/-- A connection on which a RUN is pending, and what the server says to it and then to a RESET. -/
def asking (answer : List UInt8) : Connection :=
  { ofLink ⟨0⟩ default none .v5_2 none .start with
    state := .ready
    pending := [.ofRequest .run .plain {}]
    inbox := ((default : Chunk.Reader).feed answer).feed Wire.successBytes }

theorem run_brought_back : ∃ t,
    Leads anyNetwork (reset.run, ⟨asking Wire.successBytes, []⟩) (.done (.ok ()), t) ∧
    t.connection.closed = false ∧ t.connection.state = .ready := by
  let sent : Connection := (asking Wire.successBytes).resetting.written .start
  let answered : Connection := ({ sent with inbox := (default : Chunk.Reader).feed Wire.successBytes }.receive
    (.success [])).2.2
  have hrun := Wire.nextResponse_feed_of_some Wire.nextResponse_success Wire.successBytes
  have hanswered : TakesIn ⟨sent, []⟩ ⟨answered, []⟩ :=
    ⟨rfl, _, leads_fetchOne .start ⟨rfl, rfl, rfl⟩ rfl (leads_nextAnswer hrun) rfl⟩
  have hready : TakesIn ⟨answered, []⟩ ⟨({ answered with inbox := default }.receive (.success [])).2.2, []⟩ :=
    ⟨rfl, _, leads_fetchOne .start ⟨rfl, rfl, rfl⟩ rfl (leads_nextAnswer Wire.nextResponse_success) rfl⟩
  exact ⟨_, leads_reset .start ⟨rfl, rfl, rfl⟩ rfl (.tail (.single hanswered) hready) rfl, rfl, rfl⟩

theorem failure_brought_back : ∃ t e f,
    Leads anyNetwork (fetchMessage.run, ⟨asking Wire.failureBytes, []⟩) (.done (.error e), t) ∧
    e.failure? = some f ∧ t.connection.state = .ready := by
  let failed : Connection := ({ asking Wire.failureBytes with
    inbox := (default : Chunk.Reader).feed Wire.successBytes }.receive (.failure [])).2.2
  let sent : Connection := failed.resetting.written .start
  have hrun := Wire.nextResponse_feed_of_some Wire.nextResponse_failure Wire.successBytes
  have hfetch : Leads anyNetwork (fetchOne.run, ⟨asking Wire.failureBytes, []⟩)
      (.done (.ok (⟨0, 1⟩, some ⟨.plain, .reset, some (.ofServer (.ofFailure ⟨[]⟩))⟩)), ⟨failed, []⟩) :=
    leads_fetchOne .start ⟨rfl, rfl, rfl⟩ rfl (leads_nextAnswer hrun) rfl
  have hready : TakesIn ⟨sent, []⟩ ⟨({ sent with inbox := default }.receive (.success [])).2.2, []⟩ :=
    ⟨rfl, _, leads_fetchOne .start ⟨rfl, rfl, rfl⟩ rfl (leads_nextAnswer Wire.nextResponse_success) rfl⟩
  have hreset := leads_reset .start ⟨rfl, rfl, rfl⟩ rfl (.single hready) rfl
  exact ⟨_, _, _, leads_fetchMessage_reset hfetch rfl rfl hreset, Error.failure?_ofServer _, rfl⟩

theorem run_and_failure_brought_back :
    (∃ t told metadata, t.connection.closed = false ∧ Restored (asking Wire.successBytes) told metadata t) ∧
    ∃ t, t.connection.state = .ready ∧
      (t.connection.closed = true ∨
        ∃ told metadata, Restored (asking Wire.failureBytes) told metadata t) := by
  obtain ⟨t, hrun, hopen, _⟩ := run_brought_back
  obtain ⟨told, metadata, hrestored⟩ := (reset_brings_back (asking Wire.successBytes) t).1 nofun hrun hopen
  obtain ⟨u, e, f, hfetch, hf, hready⟩ := failure_brought_back
  exact ⟨⟨t, told, metadata, hopen, hrestored⟩, u, hready,
    (reset_brings_back (asking Wire.failureBytes) u).2 e f hfetch hf⟩

end Connection
end BoltClient
