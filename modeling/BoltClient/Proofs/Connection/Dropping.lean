import BoltClient.Proofs.Connection.Commands
import BoltClient.Proofs.Connection.Warning
import BoltClient.Proofs.Pool.Composing
import BoltClient.Proofs.Work.Upkeep

namespace BoltClient

namespace Connection

open Work Session

def Expecting (s : Session) : Prop := s.connection.pending ≠ []

def Unreset (c : Connection) : Prop := ∀ x ∈ c.pending, x.purpose ≠ .reset

variable {α β : Type} {c d : Connection} {s t : Session} {x : Exchange} {rest : List Exchange} {trouble : Trouble}

/-- What comes after work that may fail need only wait as it should where the first has not failed. -/
theorem expects_orFail {w : Attempt α} {f : α → Attempt β}
    (h : w.run.Safe (network Expecting) s fun r t =>
      ∀ a, r = .ok a → (f a).run.Safe (network Expecting) t fun _ _ => True) :
    (w >>= f).run.Safe (network Expecting) s fun _ _ => True := by
  refine Safe.orFail (h.mono fun r t hr => ?_)
  cases r with
  | error e => exact trivial
  | ok a => exact hr a rfl

def Query.Pends : {β : Type} → Query β → Prop
  | _, .edit f => ∀ now c, (f now c).2.pending = c.pending
  | _, .transfer _ => True

theorem flush_pends : flush.run.Asks Query.Pends := by
  unfold flush
  refine Asks.orFail (asks_attempt fun _ c => (keeps_beginWrite c).pending) fun out => ?_
  cases out with
  | none => exact asks_ok _
  | some o =>
    exact Asks.orFail (asks_transferAmid trivial) fun outcome =>
      asks_attempt fun now c => (keeps_endWrite outcome now c).pending

theorem sendAll_pends : sendAll.run.Asks Query.Pends := by
  unfold sendAll
  exact Asks.orFail (asks_attempt fun _ c => (check_cases c .writing).1.pending) fun _ => flush_pends

theorem nextAnswer_pends : nextAnswer.run.Asks Query.Pends := by
  unfold nextAnswer
  refine asks_iterateOrFail _ fun _ => ?_
  refine Asks.orFail (asks_attempt fun now c => (beginRead_cases now c).1.pending) fun found => ?_
  cases found with
  | answer r => exact asks_ok _
  | read link deadline =>
    have hend (input : Input) : (attempt fun _ c => c.endRead input).run.Asks Query.Pends :=
      asks_attempt fun _ c => by cases input <;> rfl
    exact Asks.orFail (asks_transferAmid trivial) fun input => Asks.orFail (hend input) fun _ => asks_ok _

/-- Such work waits with the exchanges that there are. -/
theorem expects_of_pends {w : Task α} (hw : w.Asks Query.Pends) (hs : Expecting s) :
    w.Safe (network Expecting) s fun _ t => t.connection.pending = s.connection.pending := by
  refine hw.safe (fun t : Session => t.connection.pending = s.connection.pending) ?_ ?_ rfl
  · intro β q t ht _
    cases q with
    | edit f => exact trivial
    | transfer q =>
      have hexpects : Expecting t := fun hnone => hs (ht.symm.trans hnone)
      exact hexpects
  · intro β q t b u ht hq hb
    cases q with
    | edit f =>
      obtain ⟨now, _, rfl⟩ := hb
      exact (hq now t.connection).trans ht
    | transfer q =>
      obtain rfl : u = _ := hb
      exact ht

/-- Trouble that comes of an answer: only a RESET makes the connection part, and all else has an error. -/
def Troubled (c d : Connection) (trouble : Option Trouble) : Prop :=
  (∀ t, trouble = some t → t.remedy = .close → t.purpose = .reset) ∧
  (Unreset c → Unreset d ∧ ∀ t, trouble = some t → t.remedy ≠ .close ∧ ∃ e, t.error = some e)

theorem troubled_nothing (h : d.pending = c.pending) : Troubled c d none := by
  refine ⟨(fun _ h => nomatch h), fun hc => ⟨fun x hx => hc x ?_, (fun _ h => nomatch h)⟩⟩
  rw [← h]
  exact hx

theorem troubled_receive (hpending : c.pending = x :: rest) (r : Response) :
    Troubled c (c.receive r).2.2 (c.receive r).2.1 := by
  have hremedy (purpose : Purpose) : remedyFor purpose ≠ .close := by cases purpose <;> exact nofun
  refine ⟨fun t ht hclose => ?_, fun hc => ⟨fun y hy => ?_, fun t ht => ?_⟩⟩
  · obtain ⟨hpurpose, _, hother⟩ := trouble_receive hpending ht
    by_cases hreset : x.purpose = .reset
    · exact hpurpose.trans hreset
    · exact absurd ((hother hreset).1.symm.trans hclose) (hremedy _)
  · have hrest : ∀ z ∈ rest, z.purpose ≠ .reset := fun z hz => hc z (hpending ▸ List.mem_cons_of_mem x hz)
    rcases pending_receive hpending r with hnone | ⟨z, hz, hmore⟩
    · rw [hnone] at hy
      exact hrest y hy
    · rw [hmore] at hy
      rcases List.mem_cons.mp hy with rfl | hy
      · rw [hz]
        exact hc x (hpending ▸ List.mem_cons_self)
      · exact hrest y hy
  · obtain ⟨_, _, hother⟩ := trouble_receive hpending ht
    obtain ⟨hwhich, f, herror⟩ := hother (hc x (hpending ▸ List.mem_cons_self))
    refine ⟨?_, _, herror⟩
    rw [hwhich]
    exact hremedy _

theorem fetchOne_expects (s : Session) : fetchOne.run.Safe (network Expecting) s fun r t =>
    ∀ counts trouble, r = .ok (counts, trouble) → Troubled s.connection t.connection trouble := by
  unfold fetchOne
  have hcheck := (check_cases s.connection .reading).1.pending
  refine Safe.orFail (safe_attempt fun _ => ?_)
  generalize s.connection.check .reading = checked at hcheck
  obtain ⟨outcome, c⟩ := checked
  cases outcome with
  | error e => exact fun _ _ h => nomatch h
  | ok =>
    refine Safe.orFail (safe_editAmid fun _ => ?_)
    dsimp only
    split
    · refine safe_ok ?_
      rintro _ _ ⟨⟩
      exact troubled_nothing hcheck
    · next hsome =>
      have hexpects : Expecting ⟨c, s.heard⟩ := by simpa [Expecting] using hsome
      refine Safe.orFail ((expects_of_pends nextAnswer_pends hexpects).mono fun r t ht => ?_)
      cases r with
      | error e => exact fun _ _ h => nomatch h
      | ok a =>
        obtain ⟨x, rest, hx⟩ := List.exists_cons_of_ne_nil hexpects
        have hpending : t.connection.pending = x :: rest := ht.trans hx
        refine safe_editAmid fun now => ?_
        rintro _ _ heq
        have hreceived := @troubled_receive { t.connection with lastUsed := now } x rest hpending a
        cases heq
        refine ⟨hreceived.1, fun hs => hreceived.2 fun y hy => hs y ?_⟩
        rw [← hcheck, ← ht]
        exact hy

/-- Nothing is waited for. -/
theorem settleBeforeReset_expects (h : trouble.remedy = .close → trouble.purpose = .reset) :
    (settleBeforeReset trouble).run.Safe (network Expecting) s fun _ _ => True := by
  unfold settleBeforeReset
  split
  · refine Safe.orFail (safe_editAmid fun _ => ?_)
    dsimp only
    split
    · exact safe_throw trivial
    · exact safe_ok trivial
  · next hother =>
    split
    · exact trivial
    · exact safe_editAmid fun _ => trivial
    · next hclose => exact absurd (h hclose) hother

/-- Once a request is queued its answer is due. -/
theorem queue_expects {post : Except Error Nat → Session → Prop} {r : Request} {purpose : Purpose} {watch : Watch}
    (herror : ∀ e, post (.error e) s)
    (hqueued : ∀ n d, Begins s.connection d (.ofRequest r.kind purpose watch) → Expecting ⟨d, s.heard⟩ →
      post (.ok n) ⟨d, s.heard⟩) :
    (attempt fun _ c => c.queue r purpose watch).run.Safe (network Expecting) s post := by
  refine safe_attempt fun _ => ?_
  rcases queue_cases s.connection r purpose watch with ⟨⟨e, hfails⟩, hsame⟩ | ⟨hn, hbegins⟩
  · rw [hfails, hsame]
    exact herror e
  · rw [hn]
    refine hqueued _ _ hbegins ?_
    have hlast := hbegins.pending
    intro hnone
    rw [hlast] at hnone
    exact List.append_ne_nil_of_right_ne_nil _ (List.cons_ne_nil _ _) hnone

/-- What has been queued is written. -/
theorem sendAll_expects (hexpects : Expecting s) : sendAll.run.Safe (network Expecting) s fun _ t =>
    t.connection.pending = s.connection.pending := expects_of_pends sendAll_pends hexpects

theorem reset_expects (s : Session) : reset.run.Safe (network Expecting) s fun _ _ => True := by
  unfold reset
  refine expects_orFail (queue_expects (fun _ => nofun) fun n d _ hexpects _ _ => ?_)
  refine expects_orFail ((sendAll_expects hexpects).mono fun r t _ _ _ => ?_)
  refine safe_iterateOrFail (fun _ _ => True) trivial fun _ t _ => ?_
  refine Safe.orFail (safe_editAmid fun _ => ?_)
  dsimp only
  split
  · exact trivial
  · refine Safe.orFail ((fetchOne_expects t).mono fun r u hu => ?_)
    match r with
    | .error e => exact trivial
    | .ok (counts, none) => exact trivial
    | .ok (counts, some trouble) =>
      have htrouble := (hu counts (some trouble) rfl).1 trouble rfl
      refine Safe.orFail ((settleBeforeReset_expects htrouble).mono fun r v _ => ?_)
      cases r <;> exact trivial

/-- Trouble that has an error ends what is done. -/
theorem settle_expects (hremedy : trouble.remedy ≠ .close) (herror : ∃ e, trouble.error = some e) :
    (settle trouble).run.Safe (network Expecting) s fun r _ => ∃ e, r = .error e := by
  have hgive (t : Session) : (giveError trouble).run.Safe (network Expecting) t fun r _ => ∃ e, r = .error e := by
    obtain ⟨e, he⟩ := herror
    unfold giveError
    rw [he]
    exact safe_throw ⟨e, rfl⟩
  unfold settle
  split
  · refine Safe.orFail (Safe.orElse ((reset_expects s).mono fun r t _ => ?_))
    cases r with
    | ok => exact hgive t
    | error e =>
      dsimp only
      split
      · exact hgive t
      · exact safe_throw ⟨e, rfl⟩
  · exact Safe.orFail (safe_editAmid fun _ => hgive _)
  · next hclose => exact absurd hclose hremedy

theorem fetchAll_expects (hs : Unreset s.connection) : fetchAll.run.Safe (network Expecting) s fun _ _ => True := by
  have hfetch (t : Session) (ht : Unreset t.connection) : fetchMessage.run.Safe (network Expecting) t fun r u =>
      ∀ counts, r = .ok counts → Unreset u.connection := by
    unfold fetchMessage
    refine Safe.orFail ((fetchOne_expects t).mono fun r u hu => ?_)
    match r with
    | .error e => exact fun _ h => nomatch h
    | .ok (counts, none) => exact fun _ _ => ((hu counts none rfl).2 ht).1
    | .ok (counts, some trouble) =>
      obtain ⟨hremedy, herror⟩ := ((hu counts (some trouble) rfl).2 ht).2 trouble rfl
      refine Safe.orFail ((settle_expects hremedy herror).mono ?_)
      rintro _ _ ⟨e, rfl⟩
      exact fun _ h => nomatch h
  unfold fetchAll
  refine safe_iterateOrFail (fun _ t => Unreset t.connection) hs fun counts t ht => ?_
  refine Safe.orFail (safe_editAmid fun _ => ?_)
  dsimp only
  split
  · exact trivial
  · refine Safe.orFail ((hfetch t ht).mono fun r u hu => ?_)
    cases r with
    | error e => exact trivial
    | ok more => exact hu more rfl

theorem Unreset.begins (hc : Unreset c) (hbegins : Begins c d x) (hx : x.purpose ≠ .reset) : Unreset d := by
  intro y hy
  rw [hbegins.pending] at hy
  rcases List.mem_append.mp hy with hy | hy
  · exact hc y hy
  · rw [List.mem_singleton.mp hy]
    exact hx

theorem Unreset.congr (hc : Unreset c) (h : d.pending = c.pending) : Unreset d := by
  intro x hx
  rw [h] at hx
  exact hc x hx

theorem route_expects (context : Entries Value) (bookmarks : List String) (database user : Option String)
    (hs : Unreset s.connection) :
    (route context bookmarks database user).run.Safe (network Expecting) s fun _ _ => True := by
  have hplain (r : Request) : (Exchange.ofRequest r.kind .plain {}).purpose ≠ .reset := nofun
  unfold route
  refine expects_orFail (safe_editAmid fun _ version _ => ?_)
  refine expects_orFail (w := ExceptT.mk (pure (Protocol.route version context bookmarks database user))) ?_
  intro request _
  cases request with
  | message r =>
    refine expects_orFail (queue_expects (fun _ => nofun) fun n d hbegins hexpects _ _ => ?_)
    have hqueued : Unreset d := hs.begins hbegins (hplain r)
    refine expects_orFail ((sendAll_expects hexpects).mono fun _ t ht _ _ => ?_)
    refine expects_orFail ((fetchAll_expects (hqueued.congr ht)).mono fun _ u _ _ _ => ?_)
    exact safe_edit fun _ => trivial
  | procedure run pull =>
    refine expects_orFail (queue_expects (fun _ => nofun) fun n d hbegins _ _ _ => ?_)
    have hfirst : Unreset d := hs.begins hbegins (hplain run)
    refine expects_orFail (queue_expects (fun _ => nofun) fun n e hbegins hexpects _ _ => ?_)
    have hsecond : Unreset e := hfirst.begins hbegins (hplain pull)
    refine expects_orFail ((sendAll_expects hexpects).mono fun _ t ht _ _ => ?_)
    refine expects_orFail ((fetchAll_expects (hsecond.congr ht)).mono fun _ u _ _ _ => ?_)
    exact safe_attempt fun _ => trivial

def Unhurried (c : Connection) : Prop := c.deadline = .never

/-- No deadline is in force, or an answer is due. -/
def Gentle (c : Connection) : Prop := c.Unhurried ∨ c.pending ≠ []

/-- A network that may do anything, under work that waits only on such connections. -/
abbrev patient : Surroundings Query Session := network fun s => s.connection.Gentle

theorem patient_of_expecting {w : Task α} {post : α → Session → Prop} (h : w.Safe (network Expecting) s post) :
    w.Safe patient s post := by
  have hallows {β : Type} {t : Session} {q : Query β} (ht : (network Expecting).Allows t q) : patient.Allows t q := by
    cases q with
    | edit f => exact trivial
    | transfer q => exact .inr ht
  have hpatient : w.Safe patient s fun a t => post a (id t) := h.seen id hallows fun hb => hb
  exact hpatient

/-- Only who sets a deadline hurries. -/
theorem unhurried_basics : Basics fun {α : Type} (w : Task α) => w.Asks (Query.Preserves Unhurried) :=
  preserving_basics fun hc h => h.terms.deadline.trans hc

theorem patient_of_preserves {w : Task α} (hw : w.Asks (Query.Preserves Unhurried)) (hs : s.connection.Unhurried) :
    w.Safe patient s fun _ t => t.connection.Unhurried := by
  refine hw.safe (fun t : Session => t.connection.Unhurried) ?_ ?_ hs
  · intro β q t ht _
    cases q with
    | edit f => exact trivial
    | transfer q => exact .inl ht
  · intro β q t b u ht hq hb
    cases q with
    | edit f =>
      obtain ⟨now, _, rfl⟩ := hb
      exact hq now t.connection ht
    | transfer q =>
      obtain rfl : u = _ := hb
      exact ht

end Connection

namespace Pool

open Work
open Connection (Session patient)

/-- The deadline of whoever tries a connection out is in force only while they do. -/
theorem isAlive_patient {s : Session} (hs : s.connection.Unhurried) (idleTime : Duration) (deadline : Deadline) :
    (isAlive idleTime deadline).Safe patient s fun _ t => t.connection.Unhurried := by
  unfold isAlive
  refine Safe.andThen (Session.safe_edit fun now => ?_)
  dsimp only
  split
  · refine Safe.andThen (Session.safe_edit fun _ => ?_)
    refine Safe.andThen ((Connection.patient_of_expecting (Connection.reset_expects _)).mono fun _ t _ => ?_)
    exact Safe.andThen (Session.safe_edit fun _ => rfl)
  · exact hs

end Pool
end BoltClient
