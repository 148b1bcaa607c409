import BoltClient.Proofs.Connection.Abandoned
import BoltClient.Proofs.Pool.Lending
import BoltClient.Proofs.Pool.Returning
import BoltClient.Proofs.Work.Ending

namespace BoltClient.Pool

open Work
open Connection (Session)

structure Emptied (p : Pool) : Prop where
  closed : p.closed = true
  idle : p.idleMembers = []

variable {α β : Type} {p p' q : Pool} {m : Member} {now : Instant} {held held' rest : List Holding}

theorem Emptied.not_keeps (hp : p.Emptied) : p.keeps m now = false := by
  unfold keeps
  rw [hp.closed]
  rfl

theorem Change.emptied (h : Change p q) (hp : p.Emptied) : q.Emptied := by
  refine ⟨h.closed hp.closed, List.eq_nil_iff_forall_not_mem.mpr fun x hx => ?_⟩
  rcases h.idle hx with hx | ⟨m, now, hkept, _⟩
  · rw [hp.idle] at hx
    cases hx
  · rw [hp.not_keeps] at hkept
    cases hkept

theorem emptied_shut (p : Pool) : p.shut.2.Emptied := by
  refine ⟨rfl, List.eq_nil_iff_forall_not_mem.mpr fun x hx => ?_⟩
  obtain ⟨s, hs, hx⟩ := mem_idleMembers.mp hx
  obtain ⟨t, _, rfl⟩ := List.mem_map.mp hs
  cases hx

theorem Emptied.idle_slot (hp : p.Emptied) {s : Slot} (hs : s ∈ p.slots) : s.idle = [] := by
  have hnone := hp.idle
  unfold idleMembers at hnone
  exact List.flatMap_eq_nil_iff.mp hnone s hs

theorem Emptied.idleCount (hp : p.Emptied) (a : Address) : p.idleCount a = 0 := by
  unfold Pool.idleCount
  cases hslot : p.slot? a with
  | none => rfl
  | some s =>
    show s.idle.length = 0
    rw [hp.idle_slot (slot?_mem hslot)]
    rfl

/-- Nothing is taken out where nothing waits. -/
theorem Emptied.detach (hp : p.Emptied) (a : Address) : (p.detach a).1 = [] := by
  unfold Pool.detach
  cases hslot : p.slot? a with
  | none => rfl
  | some s =>
    dsimp only
    split
    · exact hp.idle_slot (slot?_mem hslot)
    · exact hp.idle_slot (slot?_mem hslot)

theorem Emptied.heedAll (hp : p.Emptied) (a : Address) (feedback : List Feedback) :
    (p.heedAll a feedback).1 = [] := by
  induction feedback generalizing p with
  | nil => rfl
  | cons f others ih =>
    have hfirst : (p.heed a f).1 = [] ∧ (p.heed a f).2.Emptied := by
      cases f with
      | deactivate =>
        have htables : (p.changeTables (·.discard a)).Emptied := ⟨hp.closed, hp.idle⟩
        exact ⟨htables.detach a, (Change.detach a).emptied htables⟩
      | writeFailure database => exact ⟨rfl, hp.closed, hp.idle⟩
      | invalidateAll => exact ⟨rfl, Change.markAllStale.emptied hp⟩
    unfold Pool.heedAll
    dsimp only
    rw [hfirst.1, ih hfirst.2, List.append_nil]

/-- A connection that comes back is to be closed, and nothing else is. -/
theorem Emptied.checkIn (hp : p.Emptied) (m : Member) (now : Instant) :
    (p.checkIn m now).1 = [{ m with connection := { m.connection with feedback := [] } }] := by
  have hkept : p.keeps m now = false := hp.not_keeps
  let count (s : Slot) : Slot := { s with inUse := s.inUse - 1, idle := s.idle }
  let counted := p.modify m.connection.address count
  have hcounted : counted.Emptied := by
    refine ⟨hp.closed, List.eq_nil_iff_forall_not_mem.mpr fun x hx => ?_⟩
    have hx := idle_recount (f := count) (fun _ => rfl) hx
    rw [hp.idle] at hx
    cases hx
  have hothers : (counted.heedAll m.connection.address m.connection.feedback).1 = [] := hcounted.heedAll _ _
  unfold Pool.checkIn
  simp only [hkept, Bool.false_eq_true, if_false]
  exact congrArg _ hothers

theorem Grip.emptied_of_answers {g g' : Grip} {q : Query β} {b : β} (hb : g.Answers q b g') (hp : g.pool.Emptied) :
    g'.pool.Emptied := (Grip.change_of_answers hb).emptied hp

/-- What somebody at work with a pool does, whatever work it is that they begin. -/
inductive Party.Acts : Party × Pool → Party × Pool → Prop where
  | begin {held : List Holding} {p : Pool} (w : Task Unit) : Acts (⟨.done (), held⟩, p) (⟨w, held⟩, p)
  | step {opener : Opener} {x y : Party × Pool} (h : Party.Step opener x y) : Acts x y

/-- Somebody comes, or one of those at work with the pool does something. -/
inductive Crowd.Acts : Crowd → Crowd → Prop where
  | join {p : Pool} {parties : List Party} : Acts ⟨p, parties⟩ ⟨p, {} :: parties⟩
  | turn {before after : List Party} {x x' : Party} {p p' : Pool} (h : Party.Acts (x, p) (x', p')) :
      Acts ⟨p, before ++ x :: after⟩ ⟨p', before ++ x' :: after⟩

def Crowd.Becomes : Crowd → Crowd → Prop := Relation.ReflTransGen Crowd.Acts

variable {c c' : Crowd}

theorem Crowd.Acts.change (h : Crowd.Acts c c') : Change c.pool c'.pool := by
  cases h with
  | join => exact .slots rfl rfl rfl
  | turn hx =>
    cases hx with
    | begin => exact .slots rfl rfl rfl
    | step h => exact h.change

theorem Crowd.Becomes.emptied (h : Crowd.Becomes c c') (hc : c.pool.Emptied) : c'.pool.Emptied := by
  induction h with
  | refl => exact hc
  | tail _ hstep ih => exact hstep.change.emptied ih

/-- A piece of work among others at work with the same pool. -/
structure Venture (α : Type) where
  crowd : Crowd
  held : List Holding
  work : Task α

namespace Venture

/-- The others do something that others do, or the work goes on. -/
inductive Step (Others : Crowd → Crowd → Prop) : Venture α → Venture α → Prop where
  | others {c c' : Crowd} {held : List Holding} {w : Task α} (h : Others c c') :
      Step Others ⟨c, held, w⟩ ⟨c', held, w⟩
  | own {c : Crowd} {held held' : List Holding} {w w' : Task α} {p' : Pool}
      (h : Work.Step Grip.surroundings (w, ⟨c.pool, held⟩) (w', ⟨p', held'⟩)) :
      Step Others ⟨c, held, w⟩ ⟨{ c with pool := p' }, held', w'⟩

def Reaches (Others : Crowd → Crowd → Prop) : Venture α → Venture α → Prop := Relation.ReflTransGen (Step Others)

def rejoin (v : Venture α) : Crowd := ⟨v.crowd.pool, { held := v.held } :: v.crowd.parties⟩

end Venture

/-- A pool as it is after each question of a piece of work. Meanwhile others do anything with it, but a pool that is
closed and empty stays so. -/
def amid : Surroundings Query Pool where
  Answers p q b p' := ∃ r held held', (p.Emptied → r.Emptied) ∧ Grip.Answers ⟨r, held⟩ q b ⟨p', held'⟩
  Allows _ _ := True

theorem close_empties (p : Pool) : close.Safe amid p fun _ p' => p'.Emptied := by
  unfold Pool.close
  refine Safe.andThen ⟨trivial, ?_⟩
  rintro n p' ⟨r, held, held', _, now, hshut⟩
  obtain rfl : r.shut.2 = p' := congrArg (Grip.pool ∘ Prod.snd) hshut
  refine (asks_of_all (p := fun _ => True) (fun _ => trivial) _).safe Emptied (fun _ _ => trivial) ?_
    (emptied_shut r)
  rintro β q p b p' hp _ ⟨r, held, held', hstays, hb⟩
  exact Grip.emptied_of_answers hb (hstays hp)

namespace Venture

variable {v v' : Venture α} {post : α → Pool → Prop}

/-- What the work leads to among others: the pool after its last question, and what it is since. -/
theorem Step.amid (h : Step Crowd.Acts v v') (hp : p.Emptied → v.crowd.pool.Emptied)
    (hsafe : v.work.Safe amid p post) :
    ∃ p', (p'.Emptied → v'.crowd.pool.Emptied) ∧ v'.work.Safe amid p' post := by
  cases h with
  | others h => exact ⟨p, fun hempty => h.change.emptied (hp hempty), hsafe⟩
  | @own c held held' w w' p' h =>
    cases h with
    | answer hb => exact ⟨p', id, hsafe.2 _ _ ⟨c.pool, held, held', hp, hb⟩⟩
    | round => exact ⟨p, hp, hsafe.round⟩

theorem Reaches.amid (h : Reaches Crowd.Acts v v') (hsafe : v.work.Safe amid v.crowd.pool post) :
    ∃ p', (p'.Emptied → v'.crowd.pool.Emptied) ∧ v'.work.Safe amid p' post := by
  induction h with
  | refl => exact ⟨_, id, hsafe⟩
  | tail _ hstep ih =>
    obtain ⟨p, hp, hsafe⟩ := ih
    exact hstep.amid hp hsafe

end Venture

/-- What is let go is no connection that was to be closed and has not been. -/
def Query.Discards (held : List Holding) : {β : Type} → Query β → Prop
  | _, .move .letGo => ∀ m rest, held = .loose m :: rest →
      m.connection.closed = true ∨ m.connection.closing = true
  | _, _ => True

/-- What work holds while others are at work with a pool that is closed and empty. -/
def emptied : Surroundings Query (List Holding) where
  Answers held q b held' := ∃ p p', p.Emptied ∧ Grip.Answers ⟨p, held⟩ q b ⟨p', held'⟩
  Allows held q := q.Discards held

namespace Venture

variable {v v' : Venture α}

theorem Step.emptied (h : Step Crowd.Acts v v') (hv : v.crowd.pool.Emptied) :
    v'.crowd.pool.Emptied ∧ Leads emptied (v.work, v.held) (v'.work, v'.held) := by
  cases h with
  | others h => exact ⟨h.change.emptied hv, .refl⟩
  | @own c held held' w w' p' h =>
    cases h with
    | answer hb => exact ⟨Grip.emptied_of_answers hb hv, .single (.answer ⟨c.pool, p', hv, hb⟩)⟩
    | round => exact ⟨hv, .single .round⟩

theorem Reaches.emptied (h : Reaches Crowd.Acts v v') (hv : v.crowd.pool.Emptied) :
    v'.crowd.pool.Emptied ∧ Leads emptied (v.work, v.held) (v'.work, v'.held) := by
  induction h with
  | refl => exact ⟨hv, .refl⟩
  | tail _ hstep ih =>
    obtain ⟨hempty, hleads⟩ := hstep.emptied ih.1
    exact ⟨hempty, ih.2.trans hleads⟩

end Venture

/-- Whoever asks for a connection is turned away. -/
theorem acquire_turnedAway (opener : Opener) (a : Address) (deadline : Deadline) (liveness : Option Duration)
    (held : List Holding) : (acquire opener a deadline liveness).run.Ends emptied
      (fun r held' => r = .error (.serviceUnavailable "Connection pool is closed" none) ∧ held' = held) held := by
  unfold acquire
  have henter : Grip.Answers ⟨{ closed := true }, held⟩ (.move .enter) none ⟨{ closed := true }, held⟩ :=
    ⟨.start, rfl⟩
  refine Ends.iterateOrFail (Ends.orFail (.ask ⟨none, held, _, _, ⟨rfl, rfl⟩, henter⟩ ?_))
  rintro seen held' ⟨p, p', hp, now, henter⟩
  simp only [Move.apply, hp.closed, if_true] at henter
  cases henter
  exact .done (.done ⟨rfl, rfl⟩)

/-- Work on the newest connection held goes as it goes on a connection of one's own. -/
theorem safe_onTopEmptied {t : Connection.Task α} {wrap : Member → Holding} {post : α → Session → Prop}
    (ht : t.Asks Connection.Query.Stays) (hwrap : IsWrap wrap) (hheld : held = wrap m :: rest)
    (h : t.Safe Session.anyNetwork ⟨m.connection, []⟩ post) :
    (onTop t : Task α).Safe emptied held fun b held' =>
      ∃ s : Session, held' = wrap { m with connection := s.connection } :: rest ∧ post b s := by
  refine safe_onTopHeld (fun hb => ?_) (fun _ _ => trivial) (fun _ _ _ => trivial) hwrap ht h hheld
  obtain ⟨p, p', _, hb⟩ := hb
  exact ⟨p, p', hb⟩

/-- A connection that is to be closed is closed before it is let go. -/
theorem closeOne_discards (hheld : held = .loose m :: rest) :
    closeOne.Safe emptied held fun _ held' => held' = rest := by
  unfold closeOne
  refine Safe.andThen ((safe_onTopEmptied Connection.close_stays (.inr (.inr rfl)) hheld
    (Connection.close_parts ⟨m.connection, []⟩)).mono ?_)
  rintro _ _ ⟨s, rfl, hparted⟩
  refine ⟨fun m rest heq => ?_, ?_⟩
  · cases heq
    exact hparted
  · rintro b held' ⟨p, p', _, now, hletGo⟩
    cases hletGo
    rfl

theorem closeHeld_discards (ms : List Member) :
    (closeHeld ms.length).Safe emptied (ms.map .loose ++ rest) fun _ held' => held' = rest := by
  induction ms with
  | nil => rfl
  | cons m ms ih =>
    unfold closeHeld
    refine Safe.andThen ((closeOne_discards rfl).mono ?_)
    rintro _ _ rfl
    exact ih

theorem release_discards : release.Safe emptied (.borrowed m :: rest) fun _ held' => held' = rest := by
  unfold release
  refine Safe.andThen ((safe_onTopEmptied tidy_stays (.inl rfl) rfl (Session.safe_anyNetwork _)).mono ?_)
  rintro _ _ ⟨s, rfl, _⟩
  refine Safe.andThen ⟨trivial, ?_⟩
  rintro n held' ⟨p, p', hp, now, hcheckIn⟩
  simp only [Move.apply, Grip.hold, hp.checkIn] at hcheckIn
  cases hcheckIn
  exact closeHeld_discards [_]

/-- A connection that is borrowed goes back at once when it is let go. -/
theorem letGo_discards : (move .letGo : Task Unit).Safe emptied (.borrowed m :: rest) fun _ held' => held' = rest := by
  refine ⟨fun m rest heq => ?_, ?_⟩
  · cases heq
  · rintro b held' ⟨p, p', _, now, hletGo⟩
    cases hletGo
    rfl

theorem killAndRelease_discards :
    killAndRelease.Safe emptied (.borrowed m :: rest) fun _ held' => held' = rest := by
  unfold killAndRelease
  refine Safe.andThen ((safe_onTopEmptied Connection.stays_basics.killing (.inl rfl) rfl
    (Session.safe_anyNetwork _)).mono ?_)
  rintro _ _ ⟨s, rfl, _⟩
  exact letGo_discards

/-- The ways to give a connection back. -/
inductive Return where
  | release
  | killAndRelease
  /-- The handle is dropped. -/
  | drop

def Return.work : Return → Task Unit
  | release => Pool.release
  | killAndRelease => Pool.killAndRelease
  | drop => letGoAll 1

theorem Return.discards (k : Return) (m : Member) (rest : List Holding) :
    k.work.Safe emptied (.borrowed m :: rest) fun _ held' => held' = rest := by
  cases k with
  | release => exact release_discards
  | killAndRelease => exact killAndRelease_discards
  | drop => exact Safe.andThen (letGo_discards.mono fun _ _ h => h)

/-- Whatever others do meanwhile and afterwards: once a pool has been closed, no connection waits in it, to no
address; whoever asks for a connection then is turned away, and a connection that is given back then, in
whichever way, is held no longer and does not wait in the pool. A connection that came back to be closed is let
go only when that has begun. -/
theorem nothing_kept_after_close (crowd : Crowd) (held : List Holding) (v : Venture Unit)
    (hclose : Venture.Reaches Crowd.Acts ⟨crowd, held, close⟩ v) (hdone : v.work = .done ()) (later : Crowd)
    (hlater : Crowd.Becomes v.rejoin later) :
    (later.pool.idleMembers = [] ∧ ∀ a, later.pool.idleCount a = 0) ∧
    (∀ opener a deadline liveness held u,
      Venture.Reaches Crowd.Acts ⟨later, held, (acquire opener a deadline liveness).run⟩ u →
      u.work.Ends emptied (fun r held' =>
        r = .error (.serviceUnavailable "Connection pool is closed" none) ∧ held' = held) u.held) ∧
    ∀ (k : Return) m rest u, Venture.Reaches Crowd.Acts ⟨later, .borrowed m :: rest, k.work⟩ u →
      u.crowd.pool.idleMembers = [] ∧ (u.work = .done () → u.held = rest) ∧
        ∀ β (q : Query β) next, u.work = .ask q next → q.Discards u.held := by
  have hclosed : v.crowd.pool.Emptied := by
    obtain ⟨p, hp, hsafe⟩ := hclose.amid (close_empties crowd.pool)
    rw [hdone] at hsafe
    exact hp hsafe
  have hempty : later.pool.Emptied := hlater.emptied hclosed
  refine ⟨⟨hempty.idle, hempty.idleCount⟩, fun opener a deadline liveness held u hu => ?_, fun k m rest u hu => ?_⟩
  · exact (acquire_turnedAway opener a deadline liveness held).leads (hu.emptied hempty).2
  · obtain ⟨hstill, hleads⟩ := hu.emptied hempty
    have hsafe := (k.discards m rest).leads hleads
    refine ⟨hstill.idle, fun hdone => ?_, fun β q next hasks => ?_⟩
    · rw [hdone] at hsafe
      exact hsafe
    · rw [hasks] at hsafe
      exact hsafe.1

/-- A pool in which one connection waits while another is borrowed. -/
def halfLent : Crowd where
  pool := { slots := [{ address := default, idle := [⟨readyFor default, 0⟩], inUse := 1 }] }
  parties := [{ held := [.borrowed ⟨readyFor default, 0⟩] }]

/-- While the connection that waited is being closed, the other comes back. -/
theorem closed_while_lent : ∃ v : Venture Unit, Venture.Reaches Crowd.Acts ⟨halfLent, [], close⟩ v ∧ v.work = .done () ∧
    v.rejoin.parties.map (·.held.length) = [0, 0] ∧
    (v.rejoin.pool.idleMembers = [] ∧ ∀ a, v.rejoin.pool.idleCount a = 0) := by
  have hother {x y : Party} {p q : Pool} (h : Party.Step prompt (x, p) (y, q)) : Crowd.Acts ⟨p, [x]⟩ ⟨q, [y]⟩ :=
    @Crowd.Acts.turn [] [] _ _ _ _ (.step h)
  have hrun : ∃ v : Venture Unit, Venture.Reaches Crowd.Acts ⟨halfLent, [], close⟩ v ∧ v.work = .done () ∧
      v.rejoin.parties.map (·.held.length) = [0, 0] := by
    refine ⟨?v, ?run, ?done, ?held⟩
    case run =>
      refine .head (.own (.answer (b := 1) ⟨.start, rfl⟩)) ?_
      refine .head (.others (hother .quit)) ?_
      refine .head (.others (hother (.goOn (.answer ⟨.start, rfl⟩)))) ?_
      refine .head (.own (.answer (b := some true) ⟨.start, _, rfl, rfl⟩)) ?_
      refine .head (.own (.answer (b := .ok (some ⟨⟨0⟩, [0, 2, 0xB0, 0x02, 0, 0], .never⟩))
        ⟨.start, _, rfl, rfl⟩)) ?_
      refine .head (.own (.answer (b := .done) rfl)) ?_
      refine .head (.own (.answer ⟨.start, _, rfl, rfl⟩)) ?_
      refine .head (.own (.answer ⟨.start, _, rfl, rfl⟩)) ?_
      refine .head (.own (.answer (b := ()) rfl)) ?_
      refine .head (.own (.answer ⟨.start, _, rfl, rfl⟩)) ?_
      refine .head (.own (.answer ⟨.start, rfl⟩)) ?_
      refine .head (.own (.answer ⟨.start, rfl⟩)) ?_
      exact .refl
    case done => rfl
    case held => rfl
  obtain ⟨v, hclose, hdone, hheld⟩ := hrun
  exact ⟨v, hclose, hdone, hheld,
    (nothing_kept_after_close halfLent [] v hclose hdone v.rejoin .refl).1⟩

end BoltClient.Pool
