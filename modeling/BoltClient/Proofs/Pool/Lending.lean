import BoltClient.Proofs.Connection.Probe
import BoltClient.Proofs.Pool.Crowd

/-!
Whether a connection that is lent again can be used. Everything that waits in a pool can be used, but trying a
connection out may close it; the pool trusts a RESET that did not fail, and a RESET does not fail when it gets
an answer that no RESET should get.
-/

namespace BoltClient.Pool

open Work
open Connection (Session Tried Tracks)
open Stage (World)

/-- Somebody who takes hold of a connection, and what happens to it. -/
structure Loan where
  held : List Holding := []
  /-- The last connection that was taken out of the pool as it was there, unless a new one came after. -/
  taken : Option Connection := none
  /-- The bytes that have been read since. -/
  heard : List UInt8 := []

def newest : List Holding → Option Connection
  | .borrowed m :: _ => some m.connection
  | _ => none

/-- Remembers what was taken and what was read; the work itself cannot see this. -/
def Loan.note (s : Loan) (held : List Holding) : {β : Type} → Query β → β → Loan
  | _, .move (.takeIdle _), found => if found then ⟨held, newest held, []⟩ else { s with held := held }
  | _, .move (.fulfil _), _ => ⟨held, none, []⟩
  | _, .transfer q, b => { s with held := held, heard := s.heard ++ q.heard b }
  | _, _, _ => { s with held := held }

/-- A pool that others may do anything with between two questions, as long as what waits in it can be
used. -/
def lending : Surroundings Query Loan where
  Answers s q b t := ∃ p p', p.Tidy ∧ Grip.Answers ⟨p, s.held⟩ q b ⟨p', t.held⟩ ∧ t = s.note t.held q b
  Allows _ _ := True

structure Errand where
  crowd : Crowd
  work : Task (Except Error Unit)
  loan : Loan := {}

namespace Errand

/-- The others do something, or a question is answered, or a loop goes round. -/
inductive Step (opener : Opener) : Errand → Errand → Prop where
  | others {c c' : Crowd} {w : Task (Except Error Unit)} {s : Loan} (h : Crowd.Step opener c c') :
      Step opener ⟨c, w, s⟩ ⟨c', w, s⟩
  | answer {c : Crowd} {β : Type} {q : Query β} {next : β → Task (Except Error Unit)} {s : Loan} {b : β}
      {p' : Pool} {held' : List Holding} (h : Grip.Answers ⟨c.pool, s.held⟩ q b ⟨p', held'⟩) :
      Step opener ⟨c, .ask q next, s⟩ ⟨{ c with pool := p' }, next b, s.note held' q b⟩
  | round {c : Crowd} {β σ : Type} {body : σ → Task (σ ⊕ β)} {x : σ}
      {next : β → Task (Except Error Unit)} {s : Loan} :
      Step opener ⟨c, .loop body x next, s⟩ ⟨c, .round body x next, s⟩

def Reaches (opener : Opener) : Errand → Errand → Prop := Relation.ReflTransGen (Step opener)

end Errand

/-- A connection is held that waited in the pool, and it has been tried out or not. -/
def Lent (s : Loan) : Prop :=
  ∃ c m rest, s.taken = some c ∧ s.held = .borrowed m :: rest ∧ c.Usable ∧
    ∃ told, told.length ≤ 1 ∧ Tried c told ⟨m.connection, s.heard⟩

variable {α : Type} {s t : Loan} {p : Pool} {a : Address}

@[simp] theorem note_held {held : List Holding} {β : Type} (q : Query β) (b : β) :
    (s.note held q b).held = held := by
  unfold Loan.note
  split
  · split <;> rfl
  · rfl
  · rfl
  · rfl

theorem safe_lending (w : Task α) : w.Safe lending s fun _ _ => True :=
  safe_of_allows (fun _ _ => trivial) w

theorem safe_move {m : Move α} {post : α → Loan → Prop}
    (h : ∀ (p p' : Pool) now b t, p.Tidy → m.apply now ⟨p, s.held⟩ = (b, ⟨p', t.held⟩) →
      t = s.note t.held (.move m) b → post b t) : (move m : Task α).Safe lending s post := by
  refine ⟨trivial, ?_⟩
  rintro b t ⟨p, p', htidy, ⟨now, hmove⟩, hnote⟩
  exact h p p' now b t htidy hmove hnote

/-- Work on the newest connection held goes as it goes on a connection of one's own. -/
theorem safe_onTop {w : Connection.Task α} {I : Session → Prop} {post : α → Session → Prop} {m : Member}
    {rest : List Holding} (hasks : w.Asks Connection.Query.Stays) (hheld : s.held = .borrowed m :: rest)
    (h : w.Safe (Session.network I) ⟨m.connection, s.heard⟩ post) :
    (onTop w : Task α).Safe lending s fun b t => ∃ c, t.held = .borrowed { m with connection := c } :: rest ∧
      t.taken = s.taken ∧ post b ⟨c, t.heard⟩ := by
  have hvia : (onTop w : Task α).Safe lending s fun b t => ∃ u : Session,
      (t.held = .borrowed { m with connection := u.connection } :: rest ∧ t.taken = s.taken ∧
        t.heard = u.heard) ∧ post b u := by
    refine Asks.safeVia _ (fun _ _ => trivial) ?_ hasks h ⟨hheld, rfl, rfl⟩
    rintro β q u t b t' ⟨hheld, htaken, hheard⟩ hq ⟨p, p', _, hb, hnote⟩
    cases q with
    | edit f =>
      obtain ⟨now, held', hedit, heq⟩ := hb
      rw [hheld] at hedit
      cases hedit
      have hheld' := congrArg Grip.held heq
      have htaken' := congrArg Loan.taken hnote
      have hheard' := congrArg Loan.heard hnote
      exact ⟨⟨_, u.heard⟩, ⟨now, rfl, rfl⟩, hheld', htaken'.trans htaken, hheard'.trans hheard⟩
    | transfer q =>
      have hsame : World.grasp t.held q (.ready b) = t.held := by
        cases q with
        | connect | dial => exact hq.elim
        | now | resolve | settle | read | write | shutdown => rfl
      have hheld' : t'.held = t.held := (congrArg Grip.held hb).trans hsame
      have htaken' := congrArg Loan.taken hnote
      have hheard' := congrArg Loan.heard hnote
      refine ⟨⟨u.connection, u.heard ++ q.heard b⟩, rfl, hheld'.trans hheld, htaken'.trans htaken, ?_⟩
      rw [hheard', ← hheard]
      rfl
  refine hvia.mono fun b t ht => ?_
  obtain ⟨u, ⟨hheld, htaken, hheard⟩, hpost⟩ := ht
  refine ⟨u.connection, hheld, htaken, ?_⟩
  rw [hheard]
  exact hpost

/-- A connection that waited is held, and nothing has happened to it. -/
structure Fresh (m : Member) (s : Loan) : Prop where
  held : ∃ rest, s.held = .borrowed m :: rest
  taken : s.taken = some m.connection
  heard : s.heard = []
  usable : m.connection.Usable

theorem Fresh.lent {m : Member} (h : Fresh m s) : Lent s := by
  obtain ⟨⟨rest, hheld⟩, htaken, hheard, husable⟩ := h
  refine ⟨m.connection, m, rest, htaken, hheld, husable, [], Nat.zero_le _, ?_, husable.defunct, ?_⟩
  · rw [hheard]
    exact .start _
  · exact iff_of_true husable (by simp)

theorem safe_isHealthy {m : Member} (h : Fresh m s) (a : Address) (deadline : Deadline)
    (liveness : Option Duration) :
    (isHealthy a deadline liveness).Safe lending s fun healthy t => healthy = true → Lent t := by
  unfold isHealthy
  refine Safe.andThen (safe_move fun p p' now current t _ hmove hnote => ?_)
  have ht : Fresh m t := by
    obtain ⟨⟨rest, hheld⟩, htaken, hheard, husable⟩ := h
    simp only [Move.apply, hheld] at hmove
    exact ⟨⟨rest, (congrArg (Grip.held ∘ Prod.snd) hmove).symm⟩, (congrArg Loan.taken hnote).trans htaken,
      (congrArg Loan.heard hnote).trans hheard, husable⟩
  cases current with
  | false => exact fun hhealthy => absurd hhealthy Bool.false_ne_true
  | true =>
    rw [if_pos rfl]
    cases liveness with
    | none => exact fun _ => ht.lent
    | some idleTime =>
      obtain ⟨⟨rest, hheld⟩, htaken, hheard, husable⟩ := ht
      have htracks : Tracks m.connection [] [] ⟨m.connection, t.heard⟩ := by
        rw [hheard]
        exact .start _
      refine (safe_onTop (isAlive_stays idleTime deadline) hheld
        (Connection.isAlive_tries idleTime deadline htracks husable)).mono fun alive u hu halive => ?_
      obtain ⟨c, hheld, hsame, hpost⟩ := hu
      obtain ⟨told, hfew, htried⟩ := hpost halive
      exact ⟨m.connection, { m with connection := c }, rest, hsame.trans htaken, hheld, husable, told, hfew,
        htried⟩

theorem safe_reuse (a : Address) (deadline : Deadline) (liveness : Option Duration) :
    (reuse a deadline liveness).Safe lending s fun found t => found = true → Lent t := by
  unfold reuse
  refine safe_iterate (fun _ _ => True) trivial fun _ s _ => ?_
  refine Safe.andThen (safe_move fun p p' now found t htidy hmove hnote => ?_)
  cases found with
  | false => exact fun h => nomatch h
  | true =>
    have hfresh : ∃ m, Fresh m t := by
      simp only [Move.apply] at hmove
      split at hmove
      · next m q htake =>
        obtain ⟨_, _, hmem, _⟩ := mem_of_takeIdle htake
        have hheld : t.held = .borrowed m :: s.held := (congrArg (Grip.held ∘ Prod.snd) hmove).symm
        have htaken : t.taken = newest t.held := congrArg Loan.taken hnote
        rw [hheld] at htaken
        exact ⟨m, ⟨_, hheld⟩, htaken, congrArg Loan.heard hnote, htidy m (hmem m List.mem_cons_self)⟩
      · cases hmove
    obtain ⟨m, hfresh⟩ := hfresh
    rw [if_pos rfl]
    refine Safe.andThen ((safe_isHealthy hfresh a deadline liveness).mono fun healthy u hu => ?_)
    cases healthy with
    | true => exact fun _ => hu rfl
    | false => exact Safe.andThen ((safe_lending _).mono fun _ _ _ => trivial)

/-- Whoever acquires a connection has one that was lent, or a new one. -/
theorem acquire_lends (opener : Opener) (a : Address) (deadline : Deadline) (liveness : Option Duration) :
    (acquire opener a deadline liveness).run.Safe lending s fun r t =>
      r = .ok () → t.taken = none ∨ Lent t := by
  refine safe_acquire (fun _ => True) trivial (fun _ _ _ h => nomatch h) (fun _ _ => safe_lending _)
    (fun t _ => (safe_reuse a deadline liveness).mono fun found u hu => ?_)
    (fun t _ => (safe_lending _).mono fun room u _ => ?_) fun _ _ _ => safe_lending _
  · cases found with
    | false => exact trivial
    | true => exact fun _ => .inr (hu rfl)
  · cases room with
    | false => exact trivial
    | true =>
      refine safe_openReserved (fun _ => True) (fun _ _ _ h => nomatch h) (fun _ _ => safe_lending _)
        ((safe_lending _).mono fun r v _ => ?_)
      cases r with
      | error e => exact safe_lending _
      | ok c => exact safe_move fun _ _ _ _ _ _ _ hnote _ => .inl (congrArg Loan.taken hnote)

/-- What waits in the pool can be used at every step, and the work goes on as it should. -/
theorem Errand.Step.keeps {opener : Opener} {e e' : Errand} {post : Except Error Unit → Loan → Prop}
    (h : Errand.Step opener e e') (htidy : e.crowd.pool.Tidy) (hsafe : e.work.Safe lending e.loan post) :
    e'.crowd.pool.Tidy ∧ e'.work.Safe lending e'.loan post := by
  cases h with
  | others h => exact ⟨h.change.tidy htidy, hsafe⟩
  | @answer c β q next s b p' held' hb =>
    refine ⟨(Grip.change_of_answers hb).tidy htidy, hsafe.2 b _ ⟨c.pool, p', htidy, ?_, ?_⟩⟩
    · rw [note_held]
      exact hb
    · rw [note_held]
  | round => exact ⟨htidy, hsafe.round⟩

theorem Errand.Reaches.keeps {opener : Opener} {e e' : Errand} {post : Except Error Unit → Loan → Prop}
    (h : Errand.Reaches opener e e') (htidy : e.crowd.pool.Tidy) (hsafe : e.work.Safe lending e.loan post) :
    e'.crowd.pool.Tidy ∧ e'.work.Safe lending e'.loan post := by
  induction h with
  | refl => exact ⟨htidy, hsafe⟩
  | tail _ hstep ih => exact hstep.keeps ih.1 ih.2

/-- Whatever the others do and whatever the server says: a connection that waited in the pool and is handed
out has not failed, and it can be used unless the RESET that it was tried out with got an answer that no
RESET should get. -/
theorem lent_usable_iff (opener : Opener) (limit : Option Nat) (directory : Option Routing.Directory)
    (crowd : Crowd) (hcrowd : Crowd.Reaches opener ⟨{ limit := limit, directory := directory }, []⟩ crowd)
    (a : Address) (deadline : Deadline) (liveness : Option Duration) (e : Errand)
    (hrun : Errand.Reaches opener ⟨crowd, (acquire opener a deadline liveness).run, {}⟩ e)
    (hdone : e.work = .done (.ok ())) (c : Connection) (htaken : e.loan.taken = some c) :
    ∃ m rest, e.loan.held = .borrowed m :: rest ∧ m.connection.defunct = false ∧
      ∃ told, told.length ≤ 1 ∧ Connection.Hears c told ⟨m.connection, e.loan.heard⟩ ∧
        (m.connection.Usable ↔ ∀ r ∈ told, r.isStray = false) := by
  have hnew : Tidy { limit := limit, directory := directory } := fun m hm => by cases hm
  have hlent := (hrun.keeps (hcrowd.tidy hnew) (acquire_lends opener a deadline liveness)).2
  rw [hdone] at hlent
  rcases hlent rfl with hnone | ⟨d, m, rest, hsame, hheld, _, told, hfew, htried⟩
  · rw [htaken] at hnone
    cases hnone
  · rw [htaken] at hsame
    cases hsame
    exact ⟨m, rest, hheld, htried.defunct, told, hfew, htried.hears, htried.usable⟩

def readyFor (a : Address) : Connection :=
  { Connection.ofLink ⟨0⟩ a none .v5_2 none .start with state := .ready }

def prompt : Opener := fun a _ => pure (readyFor a)

theorem prompt_faithful : Opening.Faithful prompt := by
  rintro a deadline c ⟨⟩
  rfl

/-- A pool in which one connection waits, and somebody who has used it. -/
def stockedWithin (limit : Option Nat) : Crowd :=
  ⟨{ limit := limit, slots := [{ address := default, idle := [⟨readyFor default, 0⟩] }], changes := 1 }, [{}]⟩

abbrev stocked : Crowd := stockedWithin none

theorem reaches_stockedWithin {limit : Option Nat} (h : limit ≠ some 0) :
    Crowd.Reaches prompt ⟨{ limit := limit }, []⟩ (stockedWithin limit) := by
  have hplace : (Move.reserve default).apply .start ⟨{ limit := limit }, []⟩
      = (true, ⟨{ limit := limit, slots := [{ address := default, reservations := 1 }] }, [.place default 0]⟩) := by
    match limit with
    | none => rfl
    | some 0 => exact absurd rfl h
    | some (n + 1) => rfl
  refine .head .join (.head (.first (.call (.acquire default .never none))) ?_)
  refine .head (.first (.goOn .round)) ?_
  refine .head (.first (.goOn (.answer (b := some 0) ⟨.start, rfl⟩))) ?_
  refine .head (.first (.goOn .round)) ?_
  refine .head (.first (.goOn (.answer (b := false) ⟨.start, rfl⟩))) ?_
  refine .head (.first (.goOn (.answer (b := true) ⟨.start, hplace⟩))) ?_
  refine .head (.first (.goOn (.answer ⟨.start, rfl⟩))) ?_
  refine .head (.first .quit) (.head (.first (.goOn (.answer ⟨.start, rfl⟩))) ?_)
  exact .refl

theorem reaches_stocked : Crowd.Reaches prompt ⟨{}, []⟩ stocked := reaches_stockedWithin (by simp)

theorem answers_edit {f : Instant → Connection → α × Connection} {m : Member} {rest : List Holding} {b : α}
    {c : Connection} (now : Instant) (h : f now m.connection = (b, c)) :
    Grip.Answers ⟨p, .borrowed m :: rest⟩ (.edit f) b ⟨p, .borrowed { m with connection := c } :: rest⟩ := by
  refine ⟨now, _, ?_, rfl⟩
  simp only [World.editTop, h]

/-- The connection that waited is tried out, closed and handed out. -/
theorem ignored_probe : ∃ e c m,
    Errand.Reaches prompt ⟨stocked, (acquire prompt default .never (some .zero)).run, {}⟩ e ∧
    e.work = .done (.ok ()) ∧ e.loan.taken = some c ∧ e.loan.held = [.borrowed m] ∧
    m.connection.closed = true := by
  let later : Instant := ⟨1⟩
  refine ⟨?e, readyFor default, ?m, ?run, ?done, ?taken, ?held, ?closed⟩
  case run =>
    refine .head .round ?_
    refine .head (.answer (b := some 1) ⟨later, rfl⟩) ?_
    refine .head .round ?_
    refine .head (.answer (b := true) ⟨later, rfl⟩) ?_
    refine .head (.answer (b := true) ⟨later, rfl⟩) ?_
    -- it has waited for long enough, so RESET is queued and written
    refine .head (.answer (b := true) (answers_edit later rfl)) ?_
    refine .head (.answer (answers_edit later rfl)) ?_
    refine .head (.answer (b := .ok 0) (answers_edit later rfl)) ?_
    refine .head (.answer (b := .ok ()) (answers_edit later rfl)) ?_
    refine .head (.answer (b := .ok (some ⟨⟨0⟩, [0, 2, 0xB0, 0x0F, 0, 0], .never⟩))
      (answers_edit later rfl)) ?_
    refine .head (.answer (b := .done) rfl) ?_
    refine .head (.answer (answers_edit later rfl)) ?_
    -- the answer is read
    refine .head .round ?_
    refine .head (.answer (answers_edit later rfl)) ?_
    refine .head (.answer (answers_edit later rfl)) ?_
    refine .head (.answer (answers_edit later rfl)) ?_
    refine .head .round ?_
    refine .head (.answer (answers_edit later (Connection.beginRead_of_none Wire.nextResponse_default rfl))) ?_
    refine .head (.answer (b := .bytes Wire.ignoredBytes) rfl) ?_
    refine .head (.answer (answers_edit later rfl)) ?_
    refine .head .round ?_
    refine .head (.answer (answers_edit later (Connection.beginRead_of_some Wire.nextResponse_ignored))) ?_
    refine .head (.answer (answers_edit later rfl)) ?_
    -- the connection is closed, and the loop ends without an error
    refine .head (.answer (answers_edit later rfl)) ?_
    refine .head .round ?_
    refine .head (.answer (answers_edit later rfl)) ?_
    refine .head (.answer (answers_edit later rfl)) ?_
    exact .refl
  case done => rfl
  case taken => rfl
  case held => rfl
  case closed => rfl

theorem ignored_probe_closes : ∃ (e : Errand) (c : Connection), e.work = .done (.ok ()) ∧
    e.loan.taken = some c ∧ ∃ m rest, e.loan.held = .borrowed m :: rest ∧ m.connection.defunct = false ∧
      ∃ told, told.length ≤ 1 ∧ Connection.Hears c told ⟨m.connection, e.loan.heard⟩ ∧
        (m.connection.Usable ↔ ∀ r ∈ told, r.isStray = false) := by
  obtain ⟨e, c, _, hrun, hdone, htaken, _⟩ := ignored_probe
  exact ⟨e, c, hdone, htaken, lent_usable_iff prompt none none stocked reaches_stocked default .never
    (some .zero) e hrun hdone c htaken⟩

/-- Not every connection that waited in the pool and is handed out can be used. -/
theorem not_all_lent_usable : ¬∀ (opener : Opener) (limit : Option Nat)
    (directory : Option Routing.Directory) (crowd : Crowd),
    Crowd.Reaches opener ⟨{ limit := limit, directory := directory }, []⟩ crowd →
    ∀ (a : Address) (deadline : Deadline) (liveness : Option Duration) (e : Errand),
    Errand.Reaches opener ⟨crowd, (acquire opener a deadline liveness).run, {}⟩ e →
    e.work = .done (.ok ()) → ∀ c, e.loan.taken = some c →
    ∀ m rest, e.loan.held = .borrowed m :: rest → m.connection.Usable := by
  intro h
  obtain ⟨e, c, m, hrun, hdone, htaken, hheld, hclosed⟩ := ignored_probe
  have husable := h prompt none none stocked reaches_stocked default .never (some .zero) e hrun hdone c
    htaken m [] hheld
  rw [husable.closed] at hclosed
  cases hclosed

end BoltClient.Pool
