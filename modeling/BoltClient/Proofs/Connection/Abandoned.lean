import BoltClient.Proofs.Connection.Alteration
import BoltClient.Proofs.Connection.Commit

namespace BoltClient.Connection

open Work Session

/-- Nothing has been delivered: the exchanges and notices are as they were, and new requests wait behind. -/
structure Undelivered (c d : Connection) : Prop where
  answered : d.answered = c.answered
  notices : d.notices = c.notices
  pending : c.pending <+: d.pending

/-- A read or write was dropped, or the transport is gone. -/
def Severed (c : Connection) : Prop := c.inFlight = true ∨ c.closed = true

/-- Nothing is read and nothing delivered, and it will stay so. -/
structure Silent (s t : Session) : Prop where
  heard : t.heard = s.heard
  undelivered : Undelivered s.connection t.connection
  severed : Severed t.connection

abbrev untouched : Surroundings Query Session := network fun _ => False

variable {α : Type} {c d e : Connection} {s t u : Session}

theorem Undelivered.refl (c : Connection) : Undelivered c c := ⟨rfl, rfl, List.prefix_refl _⟩

theorem Undelivered.trans (h : Undelivered c d) (h' : Undelivered d e) : Undelivered c e :=
  ⟨h'.answered.trans h.answered, h'.notices.trans h.notices, h.pending.trans h'.pending⟩

theorem Silent.refl (h : Severed s.connection) : Silent s s := ⟨rfl, .refl _, h⟩

theorem Silent.trans (h : Silent s t) (h' : Silent t u) : Silent s u :=
  ⟨h'.heard.trans h.heard, h.undelivered.trans h'.undelivered, h'.severed⟩

theorem Severed.not_works (h : Severed c) : ¬Works c := by
  intro hworks
  rcases h with hflight | hclosed
  · rw [hworks.settled] at hflight
    cases hflight
  · rw [hworks.closed] at hclosed
    cases hclosed

theorem check_settles (c : Connection) (direction : Direction) : (c.check direction).2 = c.settleFlight := by
  unfold check
  dsimp only
  split
  · rfl
  · split <;> rfl

/-- Whoever checks the connection is refused, and closes it. -/
theorem Severed.check (h : Severed c) (direction : Direction) :
    (∃ what, (c.check direction).1 = .error (.unavailable what)) ∧
    Undelivered c (c.check direction).2 ∧ (c.check direction).2.closed = true := by
  refine ⟨check_of_not_works h.not_works direction, ?_⟩
  rw [check_settles]
  unfold settleFlight
  split
  · exact ⟨⟨rfl, rfl, List.prefix_refl _⟩, rfl⟩
  · next hflight => exact ⟨.refl c, h.resolve_left hflight⟩

theorem queue_undelivered (c : Connection) (r : Request) (purpose : Purpose) (watch : Watch) :
    Undelivered c (c.queue r purpose watch).2 ∧ (Severed c → Severed (c.queue r purpose watch).2) := by
  unfold queue put
  cases PackStream.encode r.toStruct.value with
  | error e => exact ⟨.refl c, id⟩
  | ok payload => exact ⟨⟨rfl, rfl, List.prefix_append _ _⟩, id⟩

theorem queueFor_undelivered (c : Connection) (r : Except Error Request) (database : Option String)
    (watch : Watch) : Undelivered c (c.queueFor r database watch).2 ∧
      (Severed c → Severed (c.queueFor r database watch).2) := by
  cases r with
  | error e => exact ⟨.refl c, id⟩
  | ok r =>
    obtain ⟨⟨hanswered, hnotices, hpending⟩, hsevered⟩ :=
      queue_undelivered { c with lastDatabase := database } r .plain watch
    exact ⟨⟨hanswered, hnotices, hpending⟩, hsevered⟩

theorem apply_undelivered (q : Stage.Queueing) (watch : Watch) (c : Connection) :
    Undelivered c (q.apply watch c).2 ∧ (Severed c → Severed (q.apply watch c).2) := by
  cases q with
  | run | begin => exact queueFor_undelivered c _ _ watch
  | pull | discard | commit | rollback | other => exact queue_undelivered c _ _ watch

/-- The work fails, nothing is read or delivered, and the connection is closed. -/
def Denied (s : Session) (r : Except Error α) (t : Session) : Prop :=
  (∃ e, r = .error e) ∧ Silent s t ∧ t.connection.closed = true

theorem safe_check (h : Severed s.connection) (direction : Direction) :
    (attempt fun _ c => c.check direction).run.Safe untouched s (Denied s) := by
  refine safe_attempt fun _ => ?_
  obtain ⟨⟨what, hrefused⟩, hundelivered, hclosed⟩ := h.check direction
  exact ⟨⟨_, hrefused⟩, ⟨rfl, hundelivered, .inr hclosed⟩, hclosed⟩

/-- What comes after work that is denied is not begun. -/
theorem Denied.first {β : Type} {w : Attempt α} {f : α → Attempt β}
    (h : w.run.Safe untouched s (Denied s)) : (w >>= f).run.Safe untouched s (Denied s) := by
  refine Safe.orFail (h.mono fun r t ht => ?_)
  obtain ⟨⟨e, rfl⟩, hsilent, hclosed⟩ := ht
  exact ⟨⟨e, rfl⟩, hsilent, hclosed⟩

theorem Denied.since {r : Except Error α} (h : Silent s t) (hdenied : Denied t r u) : Denied s r u :=
  ⟨hdenied.1, h.trans hdenied.2.1, hdenied.2.2⟩

theorem sendAll_denied (h : Severed s.connection) : sendAll.run.Safe untouched s (Denied s) :=
  Denied.first (safe_check h .writing)

theorem fetchOne_denied (h : Severed s.connection) : fetchOne.run.Safe untouched s (Denied s) :=
  Denied.first (safe_check h .reading)

theorem fetchMessage_denied (h : Severed s.connection) : fetchMessage.run.Safe untouched s (Denied s) :=
  Denied.first (fetchOne_denied h)

theorem safe_queue (h : Severed s.connection) (r : Request) (purpose : Purpose) (watch : Watch) :
    (attempt fun _ c => c.queue r purpose watch).run.Safe untouched s fun _ t => Silent s t := by
  refine safe_attempt fun _ => ?_
  obtain ⟨hundelivered, hsevered⟩ := queue_undelivered s.connection r purpose watch
  exact ⟨rfl, hundelivered, hsevered h⟩

theorem reset_denied (h : Severed s.connection) : reset.run.Safe untouched s (Denied s) := by
  unfold reset
  refine Safe.orFail (safe_attempt fun _ => ?_)
  obtain ⟨hundelivered, hsevered⟩ := queue_undelivered s.connection .reset .reset {}
  have hqueued : Silent s ⟨(s.connection.queue .reset .reset {}).2, s.heard⟩ :=
    ⟨rfl, hundelivered, hsevered h⟩
  have hok := congrArg Prod.fst (queue_reset s.connection)
  rw [hok]
  exact (Denied.first (sendAll_denied hqueued.severed)).mono fun _ _ hdenied => hdenied.since hqueued

/-- One piece of work after another. -/
theorem Silent.orFail {β : Type} {w : Attempt α} {f : α → Attempt β}
    (h : w.run.Safe untouched s fun _ t => Silent s t)
    (hf : ∀ a t, Severed t.connection → (f a).run.Safe untouched t fun _ u => Silent t u) :
    (w >>= f).run.Safe untouched s fun _ u => Silent s u := by
  refine Safe.orFail (h.mono fun r t ht => ?_)
  cases r with
  | ok a => exact (hf a t ht.severed).mono fun _ _ hu => ht.trans hu
  | error e => exact ht

theorem Denied.silent {w : Attempt α} (h : w.run.Safe untouched s (Denied s)) :
    w.run.Safe untouched s fun _ t => Silent s t := h.mono fun _ _ ht => ht.2.1

theorem fetchAll_silent (h : Severed s.connection) :
    fetchAll.run.Safe untouched s fun _ t => Silent s t := by
  unfold fetchAll
  refine safe_iterateOrFail (fun _ t => t = s) rfl fun _ t ht => ?_
  subst ht
  refine Safe.orFail (safe_editAmid fun _ => ?_)
  dsimp only
  split
  · exact safe_ok (.refl h)
  · refine Safe.orFail ((fetchMessage_denied h).mono fun r u hu => ?_)
    obtain ⟨⟨e, rfl⟩, hsilent, _⟩ := hu
    exact hsilent

theorem queueHello_silent (requests : List Request) (h : Severed s.connection) :
    (queueHello requests).run.Safe untouched s fun _ t => Silent s t := by
  unfold queueHello
  induction requests generalizing s with
  | nil => exact safe_ok (.refl h)
  | cons r requests ih =>
    refine Silent.orFail (Silent.orFail (safe_queue h r _ {}) fun _ t ht => ?_) fun _ t ht => ih ht
    exact safe_ok (.refl ht)

theorem safe_look {f : Connection → α} (h : Severed s.connection) :
    (look f : Attempt α).run.Safe untouched s fun _ t => Silent s t := safe_editAmid fun _ => .refl h

theorem hello_silent (config : ConnectionConfig) (h : Severed s.connection) :
    (hello config).run.Safe untouched s fun _ t => Silent s t := by
  unfold hello
  refine Silent.orFail (safe_look h) fun version t ht => ?_
  have hrequests : (ExceptT.mk (pure (Protocol.hello version config)) : Attempt (List Request)).run.Safe
      untouched t fun _ u => Silent t u := Silent.refl ht
  refine Silent.orFail hrequests fun requests t ht => ?_
  refine Silent.orFail (queueHello_silent requests ht) fun _ t ht => ?_
  exact Denied.silent (Denied.first (sendAll_denied ht))

theorem route_silent (context : Entries Value) (bookmarks : List String) (database user : Option String)
    (h : Severed s.connection) :
    (route context bookmarks database user).run.Safe untouched s fun _ t => Silent s t := by
  unfold route
  refine Silent.orFail (safe_look h) fun version t ht => ?_
  have hrequest : (ExceptT.mk (pure (Protocol.route version context bookmarks database user)) :
      Attempt Protocol.RouteRequest).run.Safe untouched t fun _ u => Silent t u := Silent.refl ht
  refine Silent.orFail hrequest fun request t ht => ?_
  cases request with
  | message r =>
    refine Silent.orFail (safe_queue ht r .plain {}) fun _ t ht => ?_
    exact Denied.silent (Denied.first (sendAll_denied ht))
  | procedure run pull =>
    refine Silent.orFail (safe_queue ht run .plain {}) fun _ t ht => ?_
    refine Silent.orFail (safe_queue ht pull .plain {}) fun _ t ht => ?_
    exact Denied.silent (Denied.first (sendAll_denied ht))

def Query.Mute : {β : Type} → Query β → Prop
  | _, .edit f => ∀ now c, Undelivered c (f now c).2
  | _, .transfer q => ∀ b, q.heard b = []

theorem flush_mute : flush.run.Asks Query.Mute := by
  unfold flush
  refine Asks.orFail (asks_attempt fun _ c => ?_) fun out => ?_
  · have hkeeps := keeps_beginWrite c
    have hnotices : c.beginWrite.2.notices = c.notices := by
      unfold beginWrite
      split
      · rfl
      · dsimp only
        split <;> rfl
    exact ⟨hkeeps.answered, hnotices, hkeeps.pending ▸ List.prefix_refl _⟩
  · cases out with
    | none => exact asks_ok _
    | some o =>
      refine Asks.orFail (asks_transferAmid fun _ => rfl) fun outcome => asks_attempt fun now c => ?_
      cases outcome with
      | done | failed | late => exact ⟨rfl, rfl, List.prefix_refl _⟩

theorem hangUp_mute : hangUp.Asks Query.Mute := by
  unfold hangUp
  refine Asks.andThen (asks_edit fun _ c => ⟨rfl, rfl, List.prefix_refl _⟩) fun what => ?_
  have hpart : (change fun c => { c with closed := true, closing := false } : Task Unit).Asks Query.Mute :=
    asks_edit fun _ c => ⟨rfl, rfl, List.prefix_refl _⟩
  dsimp only
  split
  · exact Asks.andThen (asks_transfer fun _ => rfl) fun _ => hpart
  · exact hpart

theorem beginClose_undelivered (c : Connection) : Undelivered c c.beginClose.2 := by
  unfold beginClose put
  split
  · exact .refl c
  · dsimp only
    split
    · exact ⟨rfl, rfl, List.prefix_refl _⟩
    · cases PackStream.encode Request.goodbye.toStruct.value <;> exact ⟨rfl, rfl, List.prefix_refl _⟩

theorem close_mute : close.Asks Query.Mute := by
  unfold close
  refine Asks.andThen (asks_edit fun _ c => beginClose_undelivered c) fun todo => ?_
  match todo with
  | none => exact asks_pure _
  | some false => exact hangUp_mute
  | some true => exact Asks.andThen flush_mute fun _ => hangUp_mute

def Still (s t : Session) : Prop := t.heard = s.heard ∧ Undelivered s.connection t.connection

theorem close_still (s : Session) : close.Safe (network (Still s)) s fun _ t => Still s t := by
  refine close_mute.safe (Still s) ?_ ?_ ⟨rfl, .refl _⟩
  · intro β q t ht _
    cases q with
    | edit f => exact trivial
    | transfer q => exact ht
  · intro β q t b u ht hq hb
    cases q with
    | edit f =>
      obtain ⟨now, _, rfl⟩ := hb
      exact ⟨ht.1, ht.2.trans (hq now t.connection)⟩
    | transfer q =>
      obtain rfl : u = _ := hb
      refine ⟨?_, ht.2⟩
      dsimp only
      rw [hq b, List.append_nil]
      exact ht.1

/-- A connection that has parted has no transport, and one that was severed is so still. -/
theorem close_severs (h : Severed s.connection) :
    close.Safe anyNetwork s fun _ t => Severed t.connection := by
  unfold close
  refine Safe.andThen (safe_edit fun _ => ?_)
  have hhangUp (t : Session) : hangUp.Safe anyNetwork t fun _ u => Severed u.connection :=
    (hangUp_ends t).mono fun _ _ hu => .inr hu.2
  generalize hbegin : s.connection.beginClose = began
  obtain ⟨todo, d⟩ := began
  match todo with
  | none =>
    have hsame : d = s.connection := by
      unfold beginClose at hbegin
      split at hbegin
      · exact (congrArg Prod.snd hbegin).symm
      · dsimp only at hbegin
        split at hbegin
        · cases hbegin
        · split at hbegin <;> cases hbegin
    rw [hsame]
    exact h
  | some false => exact hhangUp _
  | some true => exact Safe.andThen ((safe_anyNetwork _).mono fun _ t _ => hhangUp t)

/-- Whoever has closed a connection has closed it, or it was being closed before. -/
theorem close_parts (s : Session) : close.Safe anyNetwork s fun _ t =>
    t.connection.closed = true ∨ t.connection.closing = true := by
  unfold close
  refine Safe.andThen (safe_edit fun _ => ?_)
  have hhangUp (t : Session) : hangUp.Safe anyNetwork t fun _ u =>
      u.connection.closed = true ∨ u.connection.closing = true :=
    (hangUp_ends t).mono fun _ _ hu => .inl hu.2
  have hcases := beginClose_cases s.connection
  generalize s.connection.beginClose = began at hcases
  obtain ⟨todo, d⟩ := began
  match todo with
  | none =>
    obtain ⟨hparted, rfl⟩ := hcases
    exact hparted
  | some false => exact hhangUp _
  | some true => exact Safe.andThen ((safe_anyNetwork _).mono fun _ t _ => hhangUp t)

/-- A connection that is closed has nothing to do to part. -/
theorem close_of_closed (h : s.connection.closed = true) : close.Safe untouched s fun _ t => t = s := by
  have hbegin : s.connection.beginClose = (none, s.connection) := by
    unfold beginClose
    rw [h]
    rfl
  unfold close
  refine Safe.andThen (safe_edit fun _ => ?_)
  rw [hbegin]
  exact rfl

inductive Later where
  | call (k : Call)
  | hello (config : ConnectionConfig)
  | route (context : Entries Value) (bookmarks : List String) (database user : Option String)
  | kill
  | close

namespace Later

def work : Later → Task Returned
  | call k => k.work
  | hello config => Except.map (fun _ => none) <$> (Connection.hello config).run
  | route context bookmarks database user =>
    Except.map (fun _ => none) <$> (Connection.route context bookmarks database user).run
  | kill => (fun _ => .ok none) <$> (change Connection.kill : Task Unit)
  | close => (fun _ => .ok none) <$> Connection.close

def looks : Later → Bool
  | call .sendAll | call .fetchMessage | call .reset => true
  | _ => false

inductive Follows : Session → Session → Prop where
  | intro {s t : Session} (k : Later) {r : Returned} (hends : Leads anyNetwork (k.work, s) (.done r, t)) :
      Follows s t

def Reaches : Session → Session → Prop := Relation.ReflTransGen Follows

/-- Every call but parting leaves the network alone. -/
theorem silent (h : Severed s.connection) (k : Later) (hk : k ≠ .close ∨ s.connection.closed = true) :
    k.work.Safe untouched s fun _ t => Silent s t ∧ (k.looks = true → t.connection.closed = true) := by
  have hdenied {α : Type} (f : α → Option Nat) {w : Attempt α} (hw : w.run.Safe untouched s (Denied s)) :
      (Except.map f <$> w.run : Task Returned).Safe untouched s fun _ t =>
        Silent s t ∧ (k.looks = true → t.connection.closed = true) :=
    Safe.map (hw.mono fun _ _ ht => ⟨ht.2.1, fun _ => ht.2.2⟩)
  have hquiet {α : Type} (f : α → Option Nat) (hlooks : k.looks = false) {w : Attempt α}
      (hw : w.run.Safe untouched s fun _ t => Silent s t) :
      (Except.map f <$> w.run : Task Returned).Safe untouched s fun _ t =>
        Silent s t ∧ (k.looks = true → t.connection.closed = true) := by
    refine Safe.map (hw.mono fun _ _ ht => ⟨ht, fun hlook => ?_⟩)
    rw [hlooks] at hlook
    cases hlook
  cases k with
  | call k =>
    cases k with
    | queue q watch =>
      obtain ⟨hundelivered, hsevered⟩ := apply_undelivered q watch s.connection
      exact Safe.map (safe_edit fun _ => ⟨⟨rfl, hundelivered, hsevered h⟩, nofun⟩)
    | sendAll => exact hdenied _ (sendAll_denied h)
    | fetchMessage => exact hdenied _ (fetchMessage_denied h)
    | fetchAll => exact hquiet _ rfl (fetchAll_silent h)
    | reset => exact hdenied _ (reset_denied h)
  | hello config => exact hquiet _ rfl (hello_silent config h)
  | route context bookmarks database user => exact hquiet _ rfl (route_silent context bookmarks database user h)
  | kill =>
    have hkilled : Silent s ⟨s.connection.kill, s.heard⟩ := ⟨rfl, ⟨rfl, rfl, List.prefix_refl _⟩, .inr rfl⟩
    exact Safe.map (safe_edit fun _ => ⟨hkilled, fun _ => rfl⟩)
  | close =>
    have hclosed := hk.resolve_left fun hne => hne rfl
    refine Safe.map ((close_of_closed hclosed).mono fun _ t ht => ?_)
    rw [ht]
    exact ⟨.refl h, fun _ => hclosed⟩

/-- Parting delivers nothing. -/
theorem silent_close (h : Severed s.connection) :
    Later.close.work.Safe (network (Still s)) s fun _ t => Silent s t := by
  have hstill := close_still s
  have hsevers := close_severs h
  exact Safe.map ((hstill.both hsevers fun hb => hb).mono fun _ _ ht => ⟨ht.1.1, ht.1.2, ht.2⟩)

theorem Follows.silent (hstep : Follows s t) (h : Severed s.connection) : Silent s t := by
  obtain ⟨k, hends⟩ := hstep
  by_cases hk : k = .close
  · subst hk
    exact (unguarded (silent_close h)).leads hends
  · exact ((unguarded (k.silent h (.inl hk))).leads hends).1

theorem Reaches.silent (hrun : Reaches s t) (h : Severed s.connection) : Silent s t := by
  induction hrun with
  | refl => exact .refl h
  | tail _ hstep ih => exact ih.trans (hstep.silent ih.severed)

end Later

/-- After a read or write was dropped: whatever is called later, in any order and each call to its end, no
bytes are read and nothing is delivered. Wherever a call asks the network, it is parting, and nobody has looked
before; once a call has looked, the connection is closed and the network is not asked again. -/
theorem silent_after_dropped (s t : Session) (hdropped : s.connection.inFlight = true)
    (hrun : Later.Reaches s t) (k : Later) :
    (∀ (r : Returned) (u : Session), Leads anyNetwork (k.work, t) (.done r, u) →
      u.heard = s.heard ∧ Undelivered s.connection u.connection ∧
      (k.looks = true → u.connection.closed = true)) ∧
    (∀ (β : Type) (q : Transfer β) (next : β → Task Returned) (u : Session),
      Leads anyNetwork (k.work, t) (.ask (.transfer q) next, u) →
      k = .close ∧ t.connection.closed = false ∧
      u.heard = s.heard ∧ Undelivered s.connection u.connection) := by
  have hsilent := hrun.silent (.inl hdropped)
  refine ⟨fun r u hends => ?_, fun β q next u hwaits => ?_⟩
  · have hlast := hsilent.trans (Later.Follows.silent ⟨k, hends⟩ hsilent.severed)
    refine ⟨hlast.heard, hlast.undelivered, fun hlooks => ?_⟩
    have hk : k ≠ .close := by
      rintro rfl
      cases hlooks
    exact ((unguarded (k.silent hsilent.severed (.inl hk))).leads hends).2 hlooks
  · -- Only parting asks the network at all, and only if the connection is not closed yet.
    have hasks : ¬(k ≠ .close ∨ t.connection.closed = true) := fun hk =>
      ((k.silent hsilent.severed hk).leads (guarded _ hwaits)).1
    obtain ⟨hk, hclosed⟩ := not_or.mp hasks
    obtain rfl := Classical.not_not.mp hk
    obtain ⟨hheard, hundelivered⟩ := ((Later.silent_close hsilent.severed).leads (guarded _ hwaits)).1
    exact ⟨rfl, by simpa using hclosed, hheard.trans hsilent.heard, hsilent.undelivered.trans hundelivered⟩

/-- Once somebody has been refused, parting has nothing to do. -/
theorem silent_once_refused :
    let s : Session := ⟨{ committing with inFlight := true }, []⟩
    let t : Session := ⟨{ committing with transport := none, closed := true, defunct := true }, []⟩
    Later.Reaches s t ∧ Leads anyNetwork (Later.close.work, t) (.done (.ok none), t) ∧
    Undelivered s.connection t.connection ∧
    ∀ (β : Type) (q : Transfer β) (next : β → Task Returned) (u : Session),
      ¬Leads anyNetwork (Later.close.work, t) (.ask (.transfer q) next, u) := by
  intro s t
  have hrun : Later.Reaches s t := .single ⟨.call .fetchAll, fetchAll_dropped⟩
  have hends : Leads anyNetwork (Later.close.work, t) (.done (.ok none), t) :=
    .head (.answer (b := none) ⟨.start, rfl, rfl⟩) .refl
  obtain ⟨hsilent, hasks⟩ := silent_after_dropped s t rfl hrun .close
  exact ⟨hrun, hends, (hsilent _ t hends).2.1, fun β q next u h => nomatch (hasks β q next u h).2.1⟩

theorem comes_half_written : Comes (ofLink ⟨0⟩ default none .v5_0 none .start)
    ⟨{ committing with inFlight := true }, []⟩ := by
  have hqueued := Comes.ended (@Comes.start (ofLink ⟨0⟩ default none .v5_0 none .start))
    (.queue .commit {}) (.head (.answer ⟨.start, rfl, rfl⟩) .refl)
  let queued : Session := ⟨((ofLink ⟨0⟩ default none .v5_0 none .start).commit {}).2, []⟩
  have hwaits : ∃ next, Leads anyNetwork (Call.sendAll.work, queued)
      (.ask (.transfer (.write ⟨0⟩ [0, 2, 0xB0, 0x12, 0, 0] .never)) next,
        ⟨{ committing with inFlight := true }, []⟩) := by
    refine ⟨?next, ?run⟩
    case run =>
      refine .head (.answer (b := .ok ()) ⟨.start, rfl, rfl⟩) ?_
      refine .head (.answer (b := .ok (some ⟨⟨0⟩, [0, 2, 0xB0, 0x12, 0, 0], .never⟩)) ⟨.start, rfl, rfl⟩) ?_
      exact .refl
  obtain ⟨next, hnext⟩ := hwaits
  exact hqueued.dropped .sendAll hnext

/-- Not every call is silent after a write was dropped: parting says GOODBYE behind what there is of the last
request. -/
theorem not_all_silent_after_dropped : ¬∀ (link : Link) (a : Address) (endpoint : Option Endpoint)
    (version : Version) (lifetime : Option Duration) (now : Instant) (s : Session),
    Comes (ofLink link a endpoint version lifetime now) s → s.connection.inFlight = true →
    ∀ (k : Later) (b : List UInt8) (d : Deadline) (next : Output → Task Returned) (u : Session),
    ¬Leads anyNetwork (k.work, s) (.ask (.transfer (.write link b d)) next, u) := by
  intro h
  have hwrites : ∃ next u, Leads anyNetwork (Later.close.work, ⟨{ committing with inFlight := true }, []⟩)
      (.ask (.transfer (.write ⟨0⟩ [0, 2, 0xB0, 0x02, 0, 0] .never)) next, u) := by
    refine ⟨?next, ?u, ?run⟩
    case run =>
      refine .head (.answer (b := some true) ⟨.start, rfl, rfl⟩) ?_
      refine .head (.answer (b := .ok (some ⟨⟨0⟩, [0, 2, 0xB0, 0x02, 0, 0], .never⟩)) ⟨.start, rfl, rfl⟩) ?_
      exact .refl
  obtain ⟨next, u, hleads⟩ := hwrites
  exact h ⟨0⟩ default none .v5_0 none .start _ comes_half_written rfl .close _ _ next u hleads

end BoltClient.Connection
