import BoltClient.Proofs.Pool.Announcing
import BoltClient.Proofs.Pool.Exact

/-!
Waiting for a connection. Whoever waits and has heard nothing since it looked in has nothing to take, because
whatever there is to take is announced; and whoever has missed an announcement between looking in and waiting
does not wait at all.
-/

namespace BoltClient.Pool

open Work
open Stage (World)

variable {α β : Type} {p q : Pool} {a : Address}

/-- There is nothing to take for an address: no connection waits to be used, and there is no room. -/
def Full (a : Address) (p : Pool) : Prop :=
  p.idleCount a = 0 ∧ ∃ n, p.limit = some n ∧ n ≤ p.idleCount a + p.inUse a + p.reserved a

theorem Candid.full (h : Candid a p q) (hsame : q.changes = p.changes) (hp : Full a p) : Full a q := by
  obtain ⟨hidle, n, hlimit, hn⟩ := hp
  obtain ⟨hidle', hroom⟩ := h.silent hsame hidle
  exact ⟨hidle', n, h.limit.trans hlimit, by omega⟩

/-- No place is refused while there is room. -/
theorem full_of_reserve (h : p.reserve a = (none, q)) (hidle : q.idleCount a = 0) : Full a q := by
  have hslot : (p.ensure a).slot? a = some ((p.slot? a).getD { address := a }) := by
    rw [slot?_ensure, if_pos rfl]
  unfold Pool.reserve at h
  simp only [hslot] at h
  split at h
  · next hfull =>
    cases h
    obtain ⟨n, hlimit, hn⟩ := (Option.any_eq_true _ _).mp hfull
    refine ⟨hidle, n, hlimit, ?_⟩
    unfold idleCount inUse reserved
    rw [hslot]
    exact of_decide_eq_true hn
  · cases h

/-- The number of changes that count as seen once a question is answered. -/
def Query.registers (p : Pool) (registered : Nat) : {β : Type} → Query β → Nat
  | _, .move .enter => p.changes
  | _, _ => registered

structure Watch where
  pool : Pool
  held : List Holding
  /-- How many changes there had been when it last looked in. -/
  registered : Nat

namespace Watch

/-- As long as nothing has been announced since it looked in, there is nothing to take. -/
structure Idles (a : Address) (w : Watch) : Prop where
  registered : w.registered ≤ w.pool.changes
  full : w.pool.changes = w.registered → Full a w.pool

/-- It waits only for what comes after it looked in, and only if there is nothing to take. -/
def Waits (a : Address) (w : Watch) : {β : Type} → Query β → Prop
  | _, .waitForChange seen _ => seen = w.registered ∧ w.Idles a
  | _, _ => True

end Watch

/-- A pool that others may do anything with between two questions, as long as they say so. -/
def among (a : Address) : Surroundings Query Watch where
  Answers w q b w' := ∃ p, Candid a w.pool p ∧ Grip.Answers ⟨p, w.held⟩ q b ⟨w'.pool, w'.held⟩ ∧
    w'.registered = q.registers p w.registered
  Allows w q := w.Waits a q

/-- A question that is asked between looking in and waiting. -/
def Query.Between : {β : Type} → Query β → Prop
  | _, .move .enter => False
  | _, .waitForChange _ _ => False
  | _, _ => True

/-- Work has looked in and seen a number of changes. -/
structure Looked (seen : Nat) (w : Watch) : Prop where
  registered : w.registered = seen
  le : seen ≤ w.pool.changes

/-- It has looked in and found that no connection waits to be used. -/
structure Missed (a : Address) (seen : Nat) (w : Watch) : Prop extends Looked seen w where
  idle : w.pool.changes = seen → w.pool.idleCount a = 0

variable {w w' : Watch} {seen : Nat}

theorem Query.Between.registers {q : Query β} (hq : q.Between) (p : Pool) (registered : Nat) :
    q.registers p registered = registered := by
  unfold Query.registers
  split
  · exact hq.elim
  · rfl

theorem Looked.answer {q : Query β} {x : β} (h : Looked seen w) (hq : q.Between)
    (hx : (among a).Answers w q x w') : Looked seen w' := by
  obtain ⟨p, hcandid, hx, hregistered⟩ := hx
  have hle := hcandid.changes
  have hle' := (Candid.answer (a := a) hx).changes
  refine ⟨hregistered.trans ((hq.registers p _).trans h.registered), ?_⟩
  have hseen := h.le
  omega

theorem safe_between {t : Task α} (ht : t.Asks Query.Between) (hw : Looked seen w) :
    t.Safe (among a) w fun _ w' => Looked seen w' := by
  refine ht.safe (Looked seen) ?_ (fun h hq hx => h.answer hq hx) hw
  intro β q w _ hq
  show w.Waits a q
  unfold Watch.Waits
  split
  · exact hq.elim
  · exact trivial

theorem between_basics : Basics fun {α : Type} (w : Task α) => w.Asks Query.Between :=
  asks_basics (fun _ => onTop_asks_all (fun _ => trivial) (fun _ => trivial) _) (fun _ => trivial) trivial trivial
    fun _ => trivial

/-- However many connections are tried and closed, those who find none have seen that there is none. -/
theorem safe_reuse_among (hw : Looked seen w) (a : Address) (deadline : Deadline)
    (liveness : Option Duration) :
    (reuse a deadline liveness).Safe (among a) w fun found w' =>
      if found then True else Missed a seen w' := by
  unfold reuse
  -- Between looking in and waiting only the number that was seen matters; others may do anything meanwhile.
  refine safe_iterate (fun _ w => Looked seen w) hw fun _ w hw => ?_
  refine Safe.andThen ⟨trivial, fun found w' hfound => ?_⟩
  have hlooked : Looked seen w' := hw.answer (q := .move (.takeIdle a)) trivial hfound
  obtain ⟨p, hcandid, ⟨now, htake⟩, _⟩ := hfound
  simp only [Move.apply] at htake
  split at htake
  · obtain rfl : true = found := congrArg Prod.fst htake
    refine Safe.andThen ((safe_between (between_basics.isHealthy a deadline liveness) hlooked).mono
      fun healthy w₂ hw₂ => ?_)
    cases healthy with
    | true => exact trivial
    | false => exact Safe.andThen (safe_between (between_basics.closeAndRelease (asks_move trivial)) hw₂)
  · next hnone =>
    obtain rfl : false = found := congrArg Prod.fst htake
    obtain rfl : p = w'.pool := congrArg (Grip.pool ∘ Prod.snd) htake
    exact ⟨hlooked, fun _ => idleCount_of_takeIdle hnone⟩

/-- Who gets no place has seen that there is none. -/
theorem idles_of_reserve {w' : Watch} (hw : Missed a seen w)
    (hreserve : (among a).Answers w (.move (.reserve a)) false w') :
    w'.registered = seen ∧ w'.Idles a := by
  have hlooked : Looked seen w' := hw.toLooked.answer (q := .move (.reserve a)) trivial hreserve
  obtain ⟨p, hcandid, hanswer, _⟩ := hreserve
  have hcandid' : Candid a p w'.pool := .answer hanswer
  have hseen := hw.le
  have hle := hcandid.changes
  have hle' := hcandid'.changes
  refine ⟨hlooked.registered, ?_, fun hsame => ?_⟩
  · rw [hlooked.registered]
    exact hlooked.le
  · rw [hlooked.registered] at hsame
    -- As nothing was announced in between, no connection has come back since the last look.
    have hidle := (hcandid.silent (by omega) (hw.idle (by omega))).1
    have hidle' := (hcandid'.silent (by omega) hidle).1
    obtain ⟨now, happly⟩ := hanswer
    simp only [Move.apply] at happly
    split at happly
    · cases happly
    · next hnone =>
      obtain rfl := congrArg (Grip.pool ∘ Prod.snd) happly
      exact full_of_reserve hnone hidle'

theorem openReserved_between (opener : Opener) (a : Address) (deadline : Deadline) (hw : Looked seen w) :
    (openReserved opener a deadline).run.Safe (among a) w fun _ _ => True := by
  have hopened : ((opener a deadline).run.via Query.transfer).Asks Query.Between :=
    Asks.via (p := fun _ => True) (fun _ => trivial) (asks_of_all (fun _ => trivial) _)
  refine safe_openReserved (Looked seen) (fun _ _ _ => trivial)
    (fun t ht => safe_between (between_basics.deactivate a) ht)
    ((safe_between hopened hw).mono fun r t ht => ?_)
  cases r with
  | ok c =>
    have hfulfil : (move (.fulfil c) : Task Unit).Asks Query.Between := asks_move trivial
    exact (safe_between hfulfil ht).mono fun _ _ _ => trivial
  | error e => exact safe_between (asks_move (m := .letGo) trivial) ht

/-- Whoever acquires a connection waits only while there is nothing to take, unless it has been told. -/
theorem acquire_waits (opener : Opener) (a : Address) (deadline : Deadline) (liveness : Option Duration)
    (w : Watch) :
    (acquire opener a deadline liveness).run.Safe (among a) w fun _ _ => True := by
  refine safe_acquire_seen (fun _ => True) Looked (Missed a)
    (fun seen w => w.registered = seen ∧ w.Idles a) trivial (fun _ _ _ => trivial)
    (fun w _ => ⟨trivial, fun open? w' henter => ?_⟩)
    (fun seen w hw => safe_reuse_among hw a deadline liveness)
    (fun seen w hw => ⟨trivial, fun room w' hroom => ?_⟩)
    fun seen w hw => ⟨⟨hw.1.symm, hw.2⟩, fun _ _ _ => trivial⟩
  · obtain ⟨p, _, ⟨now, hlook⟩, hregistered⟩ := henter
    simp only [Move.apply] at hlook
    have hpool : p = w'.pool := congrArg (Grip.pool ∘ Prod.snd) hlook
    have hopen := congrArg Prod.fst hlook
    subst hpool
    dsimp only at hopen
    split at hopen
    · subst hopen
      exact trivial
    · subst hopen
      exact ⟨hregistered, Nat.le_refl _⟩
  · cases room with
    | true => exact openReserved_between opener a deadline (hw.toLooked.answer (q := .move (.reserve a)) trivial hroom)
    | false => exact idles_of_reserve hw hroom

structure Seeker where
  crowd : Crowd
  work : Task (Except Error Unit)
  held : List Holding := []
  /-- How many changes had been announced when it last looked in. -/
  registered : Nat := 0

namespace Seeker

/-- The others do something, or a question is answered, or a loop goes round. -/
inductive Step (opener : Opener) : Seeker → Seeker → Prop where
  | others {c c' : Crowd} {t : Task (Except Error Unit)} {held : List Holding} {n : Nat}
      (h : Crowd.Step opener c c') : Step opener ⟨c, t, held, n⟩ ⟨c', t, held, n⟩
  | answer {c : Crowd} {β : Type} {q : Query β} {next : β → Task (Except Error Unit)} {b : β} {p' : Pool}
      {held held' : List Holding} {n : Nat} (h : Grip.Answers ⟨c.pool, held⟩ q b ⟨p', held'⟩) :
      Step opener ⟨c, .ask q next, held, n⟩ ⟨{ c with pool := p' }, next b, held', q.registers c.pool n⟩
  | round {c : Crowd} {β σ : Type} {body : σ → Task (σ ⊕ β)} {x : σ}
      {next : β → Task (Except Error Unit)} {held : List Holding} {n : Nat} :
      Step opener ⟨c, .loop body x next, held, n⟩ ⟨c, .round body x next, held, n⟩

def Reaches (opener : Opener) : Seeker → Seeker → Prop := Relation.ReflTransGen (Step opener)

/-- Its work waits only while there is nothing to take, and the others have been candid. -/
def Kept (a : Address) (e : Seeker) : Prop :=
  ∃ p, Candid a p e.crowd.pool ∧ e.work.Safe (among a) ⟨p, e.held, e.registered⟩ fun _ _ => True

variable {opener : Opener} {e e' : Seeker}

theorem Step.keeps (h : Step opener e e') (he : e.Kept a) : e'.Kept a := by
  obtain ⟨p, hcandid, hsafe⟩ := he
  cases h with
  | others h => exact ⟨p, hcandid.trans (h.candid a), hsafe⟩
  | @answer c β q next b p' held held' n hb =>
    have hgap : Candid a p c.pool := hcandid
    exact ⟨p', .refl a p', hsafe.2 b ⟨p', held', q.registers c.pool n⟩ ⟨c.pool, hgap, hb, rfl⟩⟩
  | round => exact ⟨p, hcandid, hsafe.round⟩

theorem Reaches.keeps (h : Reaches opener e e') (he : e.Kept a) : e'.Kept a := by
  induction h with
  | refl => exact he
  | tail _ hstep ih => exact hstep.keeps ih

theorem Reaches.limit (h : Reaches opener e e') : e'.crowd.pool.limit = e.crowd.pool.limit := by
  induction h with
  | refl => rfl
  | tail _ hstep ih =>
    cases hstep with
    | others h => exact h.change.limit.trans ih
    | answer hb => exact (Grip.change_of_answers hb).limit.trans ih
    | round => exact ih

/-- Where it waits, it waits for more changes than it has seen, and without any there is nothing to take. -/
theorem Kept.waits {d : Deadline} {next : Bool → Task (Except Error Unit)} (he : e.Kept a)
    (hwork : e.work = .ask (.waitForChange seen d) next) :
    seen = e.registered ∧ e.registered ≤ e.crowd.pool.changes ∧
      (e.crowd.pool.changes = e.registered → Full a e.crowd.pool) := by
  obtain ⟨p, hcandid, hsafe⟩ := he
  rw [hwork] at hsafe
  obtain ⟨hseen, hidles⟩ := hsafe.1
  have hle : e.registered ≤ p.changes := hidles.registered
  have hle' := hcandid.changes
  refine ⟨hseen, Nat.le_trans hle hle', fun hsame => ?_⟩
  have hquiet : p.changes = e.registered := by omega
  exact hcandid.full (hsame.trans hquiet.symm) (hidles.full hquiet)

end Seeker

/-- However many are at work with a pool, and wherever their work is dropped: where an acquire waits for an
address and nothing has been announced since it looked in, no connection to the address is idle, and the
connections that are idle, out or being opened are as many as are configured. If something has been announced
since, also between its looking in and its waiting, it need not wait: the question is answered as soon as it
is asked. -/
theorem waits_only_when_full (opener : Opener) (config : PoolConfig) (directory : Option Routing.Directory)
    (crowd : Crowd)
    (hcrowd : Crowd.Reaches opener ⟨{ limit := config.limit?, directory := directory }, []⟩ crowd)
    (a : Address) (deadline : Deadline) (liveness : Option Duration) (held : List Holding) (e : Seeker)
    (hrun : Seeker.Reaches opener ⟨crowd, (acquire opener a deadline liveness).run, held, 0⟩ e)
    (seen : Nat) (d : Deadline) (next : Bool → Task (Except Error Unit))
    (hwaits : e.work = .ask (.waitForChange seen d) next) :
    (e.crowd.pool.changes = e.registered →
      e.crowd.pool.idleCount a = 0 ∧ 0 ≤ config.maxConnections ∧
      config.maxConnections.toInt ≤
        ((e.crowd.pool.idleCount a + e.crowd.pool.inUse a + e.crowd.pool.reserved a : Nat) : Int)) ∧
    (e.crowd.pool.changes ≠ e.registered → ∀ w : World, w.pool = e.crowd.pool →
      w.answer e.held (.waitForChange seen d) = (.ready true, w, e.held)) := by
  have hstart : Seeker.Kept a ⟨crowd, (acquire opener a deadline liveness).run, held, 0⟩ :=
    ⟨crowd.pool, .refl a _, acquire_waits opener a deadline liveness _⟩
  obtain ⟨hseen, hle, hfull⟩ := (hrun.keeps hstart).waits hwaits
  refine ⟨fun hsame => ?_, fun htold w hw => ?_⟩
  · obtain ⟨hidle, n, hlimit, hn⟩ := hfull hsame
    have hconfig : config.limit? = some n := (hrun.limit.trans hcrowd.limit).symm.trans hlimit
    unfold PoolConfig.limit? at hconfig
    split at hconfig
    · next hbound =>
      have hnonneg : 0 ≤ config.maxConnections.toInt := Int64.le_iff_toInt_le.mp hbound
      obtain rfl : config.maxConnections.toInt.toNat = n := Option.some.inj hconfig
      exact ⟨hidle, hbound, by omega⟩
    · cases hconfig
  · have hmore : seen < w.pool.changes := by
      rw [hw]
      omega
    simp only [World.answer, if_pos hmore]

/-- While the only connection is being opened for somebody, whoever comes next waits; once the other has gone
away, it does not wait any longer. -/
theorem second_waits_for_the_first : ∃ e e' d next,
    Seeker.Reaches prompt e e' ∧ e.work = .ask (.waitForChange 0 d) next ∧ e'.work = e.work ∧
    e.crowd.pool.changes = e.registered ∧ e'.crowd.pool.changes ≠ e'.registered ∧
    e.crowd.pool.idleCount default = 0 ∧
    (1 : Int) ≤ ((e.crowd.pool.idleCount default + e.crowd.pool.inUse default
      + e.crowd.pool.reserved default : Nat) : Int) ∧
    ∀ w : World, w.pool = e'.crowd.pool →
      w.answer e'.held (.waitForChange 0 d) = (.ready true, w, e'.held) := by
  let one : PoolConfig := { maxConnections := 1 }
  let start : Pool := { limit := one.limit? }
  let taken : Pool := (start.reserve default).2
  let given : Pool := taken.abandon default 0
  have hcrowd : ∃ t, Crowd.Reaches prompt ⟨start, []⟩ ⟨taken, [⟨t, [.place default 0]⟩]⟩ := by
    refine Exists.intro ?t (.head .join (.head (.first (.call (.acquire default .never none))) ?_))
    rotate_left
    refine .head (.first (.goOn .round)) ?_
    refine .head (.first (.goOn (.answer (b := some 0) ⟨.start, rfl⟩))) ?_
    refine .head (.first (.goOn .round)) ?_
    refine .head (.first (.goOn (.answer (b := false) ⟨.start, rfl⟩))) ?_
    refine .head (.first (.goOn (.answer (b := true) ⟨.start, rfl⟩))) ?_
    exact .refl
  obtain ⟨t, hcrowd⟩ := hcrowd
  have hrun : ∃ next, Seeker.Reaches prompt
      ⟨⟨taken, [⟨t, [.place default 0]⟩]⟩, (acquire prompt default .never none).run, [], 0⟩
      ⟨⟨taken, [⟨t, [.place default 0]⟩]⟩, .ask (.waitForChange 0 .never) next, [], 0⟩ := by
    refine Exists.intro ?next (.head .round ?_)
    rotate_left
    refine .head (.answer (b := some 0) ⟨.start, rfl⟩) ?_
    refine .head .round ?_
    refine .head (.answer (b := false) ⟨.start, rfl⟩) ?_
    refine .head (.answer (b := false) ⟨.start, rfl⟩) ?_
    exact .refl
  obtain ⟨next, hrun⟩ := hrun
  have hgone : Seeker.Reaches prompt
      ⟨⟨taken, [⟨t, [.place default 0]⟩]⟩, .ask (.waitForChange 0 .never) next, [], 0⟩
      ⟨⟨given, [⟨.done (), []⟩]⟩, .ask (.waitForChange 0 .never) next, [], 0⟩ := by
    refine .head (.others (.first .quit)) ?_
    exact .head (.others (.first (.goOn (.answer (b := ()) ⟨.start, rfl⟩)))) .refl
  have hmore : given.changes ≠ 0 := Nat.one_ne_zero
  obtain ⟨hidle, _, hfull⟩ := (waits_only_when_full prompt one none _ hcrowd default .never none [] _ hrun
    0 .never next rfl).1 rfl
  have htold := (waits_only_when_full prompt one none _ hcrowd default .never none [] _ (hrun.trans hgone)
    0 .never next rfl).2 hmore
  exact ⟨_, _, .never, next, hgone, rfl, rfl, rfl, hmore, hidle, hfull, htold⟩

end BoltClient.Pool
