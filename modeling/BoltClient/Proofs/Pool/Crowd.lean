import BoltClient.Config.Pool
import BoltClient.Proofs.Pool.Hands
import Mathlib.Logic.Relation

namespace BoltClient.Pool

open Work

inductive Call where
  | acquire (a : Address) (deadline : Deadline) (liveness : Option Duration)
  | release
  | killAndRelease
  | deactivate (a : Address)
  | markAllStale
  | close

def Call.work (opener : Opener) : Call → Task Unit
  | acquire a deadline liveness => do
    let _ ← (Pool.acquire opener a deadline liveness).run
  | release => Pool.release
  | killAndRelease => Pool.killAndRelease
  | deactivate a => Pool.deactivate a
  | markAllStale => move .markAllStale
  | close => Pool.close

def letGoAll : Nat → Task Unit
  | 0 => pure ()
  | n + 1 => do
    move .letGo
    letGoAll n

structure Party where
  work : Task Unit := pure ()
  held : List Holding := []

namespace Party

/-- What a party can do next, and what becomes of the pool. -/
inductive Step (opener : Opener) : Party × Pool → Party × Pool → Prop where
  | call {held : List Holding} {p : Pool} (k : Call) :
      Step opener (⟨.done (), held⟩, p) (⟨k.work opener, held⟩, p)
  /-- A question is answered, or a loop goes round. -/
  | goOn {w w' : Task Unit} {held held' : List Holding} {p p' : Pool}
      (h : Work.Step Grip.surroundings (w, ⟨p, held⟩) (w', ⟨p', held'⟩)) :
      Step opener (⟨w, held⟩, p) (⟨w', held'⟩, p')
  /-- A connection is used in some way. -/
  | use {m : Member} {held : List Holding} {p : Pool} (c : Connection)
      (hc : c.address = m.connection.address) :
      Step opener (⟨.done (), .borrowed m :: held⟩, p)
        (⟨.done (), .borrowed { m with connection := c } :: held⟩, p)
  /-- The work is dropped, and a handle if there is one. -/
  | quit {w : Task Unit} {held : List Holding} {p : Pool} :
      Step opener (⟨w, held⟩, p) (⟨letGoAll held.length, held⟩, p)

end Party

structure Crowd where
  pool : Pool
  parties : List Party := []

namespace Crowd

/-- Somebody comes, or one party does something. -/
inductive Step (opener : Opener) : Crowd → Crowd → Prop where
  | join {p : Pool} {parties : List Party} : Step opener ⟨p, parties⟩ ⟨p, {} :: parties⟩
  | turn {before after : List Party} {x x' : Party} {p p' : Pool}
      (h : Party.Step opener (x, p) (x', p')) :
      Step opener ⟨p, before ++ x :: after⟩ ⟨p', before ++ x' :: after⟩

def Reaches (opener : Opener) : Crowd → Crowd → Prop := Relation.ReflTransGen (Step opener)

def held (c : Crowd) : List Holding := c.parties.flatMap (·.held)

def connectionsTo (c : Crowd) (a : Address) : Nat :=
  c.pool.idleMembers.countP (·.connection.address = a) + outOf c.held a + takenOf c.held a

/-- The counts cover what is held, and all work that is under way is safe. -/
structure Kept (c : Crowd) : Prop where
  sound : Sound c.pool c.held
  safe : ∀ x ∈ c.parties, x.work.Safe hands x.held fun _ _ => True

end Crowd

variable {opener : Opener} {p p' : Pool} {x x' : Party} {hs : List Holding} {c c' : Crowd}

theorem Basics.letGoAll {C : {α : Type} → Task α → Prop} (h : Basics C) (n : Nat) : C (letGoAll n) := by
  induction n with
  | zero => exact h.done _
  | succ n ih => exact h.andThen h.lettingGo fun _ => ih

theorem Basics.call {C : {α : Type} → Task α → Prop} (h : Basics C)
    (hacquire : ∀ a deadline liveness, C (acquire opener a deadline liveness).run)
    (hstale : C (move .markAllStale : Task Unit)) (hshut : C (move .shut : Task Nat))
    (hannounce : C (move .announce : Task Unit)) (k : Call) : C (k.work opener) := by
  cases k with
  | acquire a deadline liveness => exact h.andThen (hacquire a deadline liveness) fun _ => h.done _
  | release => exact h.release
  | killAndRelease => exact h.killAndRelease
  | deactivate a => exact h.deactivate a
  | markAllStale => exact hstale
  | close => exact h.close hshut hannounce

theorem safe_call (hopener : Opening.Faithful opener) (k : Call) (held : List Holding) :
    (k.work opener).Safe hands held fun _ _ => True := by
  cases k with
  | acquire a deadline liveness =>
    exact Safe.andThen ((acquire_fits hopener a deadline liveness held).mono fun _ _ _ => trivial)
  | release => exact safe_of_tame tame_basics.release held
  | killAndRelease => exact safe_of_tame tame_basics.killAndRelease held
  | deactivate a => exact safe_of_tame (tame_basics.deactivate a) held
  | markAllStale =>
    have htame : (Call.markAllStale.work opener).Asks Query.Tame := asks_move fun _ => trivial
    exact safe_of_tame htame held
  | close =>
    have htame : close.Asks Query.Tame := tame_basics.close (asks_move fun _ => trivial) (asks_move fun _ => trivial)
    exact safe_of_tame htame held

theorem Party.Step.change (h : Party.Step opener (x, p) (x', p')) : Change p p' := by
  cases h with
  | @goOn w w' held held' p p' hstep =>
    cases hstep with
    | answer hb => exact Grip.change_of_answers hb
    | round => exact .slots rfl rfl rfl
  | call | use | quit => exact .slots rfl rfl rfl

/-- Whatever a party does, the counts keep up with what it holds. -/
theorem Party.Step.keeps (h : Party.Step opener (x, p) (x', p')) (hopener : Opening.Faithful opener)
    (hsafe : x.work.Safe hands x.held fun _ _ => True) (hsound : Sound p (x.held ++ hs)) :
    (x'.work.Safe hands x'.held fun _ _ => True) ∧ Sound p' (x'.held ++ hs) := by
  cases h with
  | call k => exact ⟨safe_call hopener k _, hsound⟩
  | @goOn w w' held held' p p' hstep =>
    cases hstep with
    | @answer _ q next b _ _ hb =>
      have hq : q.Suits held := hsafe.1
      have hb : Grip.Answers ⟨p, held⟩ q b ⟨p', held'⟩ := hb
      exact ⟨hsafe.2 b held' ⟨p, p', hb⟩, Sound.answer hq hb hsound⟩
    | round => exact ⟨hsafe.round, hsound⟩
  | use c hc =>
    exact ⟨trivial, Sound.swap hsound (fun a => by simp only [Holding.isOut, hc]) fun _ => rfl⟩
  | quit => exact ⟨safe_of_tame (tame_basics.letGoAll _) _, hsound⟩

namespace Crowd

theorem Step.change (h : Step opener c c') : Change c.pool c'.pool := by
  cases h with
  | join => exact .slots rfl rfl rfl
  | turn hx => exact hx.change

theorem Step.first {parties : List Party} (h : Party.Step opener (x, p) (x', p')) :
    Step opener ⟨p, x :: parties⟩ ⟨p', x' :: parties⟩ := @Step.turn _ [] parties _ _ _ _ h

/-- What one party holds, and what the others hold. -/
theorem held_perm {before after : List Party} (p : Pool) (x : Party) :
    (held ⟨p, before ++ x :: after⟩).Perm
      (x.held ++ (before.flatMap (·.held) ++ after.flatMap (·.held))) := by
  rw [held, List.flatMap_append, List.flatMap_cons]
  exact List.perm_append_comm_assoc _ _ _

/-- What is true of all parties stays true of the others. -/
theorem forall_turn {P : Party → Prop} {before after : List Party} (h : ∀ y ∈ before ++ x :: after, P y)
    (hx : P x') : ∀ y ∈ before ++ x' :: after, P y := by
  intro y hy
  rcases List.mem_append.mp hy with hy | hy
  · exact h y (List.mem_append_left _ hy)
  · rcases List.mem_cons.mp hy with rfl | hy
    · exact hx
    · exact h y (List.mem_append_right _ (List.mem_cons_of_mem _ hy))

/-- Nobody is there yet. -/
theorem start_kept (limit : Option Nat) (directory : Option Routing.Directory) :
    Kept ⟨{ limit := limit, directory := directory }, []⟩ :=
  ⟨⟨List.nodup_nil, fun _ => ⟨rfl, rfl⟩⟩, fun x hx => by cases hx⟩

theorem Step.keeps (h : Step opener c c') (hopener : Opening.Faithful opener) (hc : c.Kept) :
    c'.Kept := by
  cases h with
  | @join p parties =>
    refine ⟨hc.sound, fun x hx => ?_⟩
    rcases List.mem_cons.mp hx with rfl | hx
    · exact trivial
    · exact hc.safe x hx
  | @turn before after x x' p p' hx =>
    obtain ⟨hsafe, hsound⟩ := hx.keeps hopener (hc.safe x (by simp)) (hc.sound.perm (held_perm p x))
    exact ⟨hsound.perm (held_perm p' x').symm, forall_turn hc.safe hsafe⟩

theorem Reaches.keeps (h : Reaches opener c c') (hopener : Opening.Faithful opener) (hc : c.Kept) :
    c'.Kept := by
  induction h with
  | refl => exact hc
  | tail _ hstep ih => exact hstep.keeps hopener ih

theorem Reaches.limit (h : Reaches opener c c') : c'.pool.limit = c.pool.limit := by
  induction h with
  | refl => rfl
  | tail _ hstep ih => exact hstep.change.limit.trans ih

theorem Reaches.tidy (h : Reaches opener c c') (hc : c.pool.Tidy) : c'.pool.Tidy := by
  induction h with
  | refl => exact hc
  | tail _ hstep ih => exact hstep.change.tidy ih

/-- The counts of an address stay within the limit and cover all connections to it. -/
theorem Kept.counts (hc : c.Kept) (a : Address) :
    (∀ n, c.pool.limit = some n → c.pool.idleCount a + c.pool.inUse a + c.pool.reserved a ≤ n) ∧
    c.connectionsTo a ≤ c.pool.idleCount a + c.pool.inUse a + c.pool.reserved a := by
  have hidle := hc.sound.countP_idle a
  have hcovers := hc.sound.covers a
  unfold connectionsTo
  rw [hidle]
  unfold idleCount inUse reserved
  cases hslot : c.pool.slot? a with
  | none =>
    rw [hslot] at hcovers
    obtain ⟨hout, htaken⟩ := hcovers
    refine ⟨fun n _ => Nat.zero_le n, ?_⟩
    rw [hout, htaken]
    exact Nat.le_refl _
  | some s =>
    rw [hslot] at hcovers
    obtain ⟨hout, htaken, hsize, _⟩ := hcovers
    exact ⟨hsize, Nat.add_le_add (Nat.add_le_add (Nat.le_refl _) hout) htaken⟩

end Crowd

/-- However many are at work with a pool, and wherever their work is dropped: for each address the counts of
the pool are at most the bound that is configured, and they are at least the connections that are idle, out
or being opened. -/
theorem counts_within_limit (opener : Opener) (hopener : Opening.Faithful opener) (config : PoolConfig)
    (hbound : 0 ≤ config.maxConnections) (directory : Option Routing.Directory) (c : Crowd)
    (hrun : Crowd.Reaches opener ⟨{ limit := config.limit?, directory := directory }, []⟩ c)
    (a : Address) :
    ((c.pool.idleCount a + c.pool.inUse a + c.pool.reserved a : Nat) : Int)
      ≤ config.maxConnections.toInt ∧
    c.connectionsTo a ≤ c.pool.idleCount a + c.pool.inUse a + c.pool.reserved a := by
  have hstart : Crowd.Kept ⟨{ limit := config.limit?, directory := directory }, []⟩ :=
    ⟨⟨List.nodup_nil, fun _ => ⟨rfl, rfl⟩⟩, fun x hx => by cases hx⟩
  obtain ⟨hwithin, hcovered⟩ := (hrun.keeps hopener hstart).counts a
  have hnonneg : 0 ≤ config.maxConnections.toInt := Int64.le_iff_toInt_le.mp hbound
  have hconfig : config.limit? = some config.maxConnections.toInt.toNat := if_pos hbound
  have hle := hwithin _ (hrun.limit.trans hconfig)
  exact ⟨by omega, hcovered⟩

/-- A place is held while the first connection is being opened, and it is counted. -/
theorem first_place_is_counted :
    ∃ c, Crowd.Reaches (Opening.dial {}) ⟨{ limit := PoolConfig.limit? {} }, []⟩ c ∧
      takenOf c.held default = 1 ∧
      ((c.pool.idleCount default + c.pool.inUse default + c.pool.reserved default : Nat) : Int) ≤ 100 ∧
      c.connectionsTo default
        ≤ c.pool.idleCount default + c.pool.inUse default + c.pool.reserved default := by
  let opener := Opening.dial {}
  let start : Pool := { limit := PoolConfig.limit? {} }
  have hone {x y : Party} {p q : Pool} (h : Party.Step opener (x, p) (y, q)) :
      Crowd.Step opener ⟨p, [x]⟩ ⟨q, [y]⟩ := @Crowd.Step.turn _ [] [] _ _ _ _ h
  have hrun : ∃ w, Crowd.Reaches opener ⟨start, []⟩
      ⟨(start.reserve default).2, [⟨w, [.place default 0]⟩]⟩ := by
    refine Exists.intro ?w (.head .join (.head (hone (.call (.acquire default .never none))) ?_))
    rotate_left
    refine .head (hone (.goOn .round)) ?_
    refine .head (hone (.goOn (.answer (b := some 0) ⟨.start, rfl⟩))) ?_
    refine .head (hone (.goOn .round)) ?_
    refine .head (hone (.goOn (.answer (b := false) ⟨.start, rfl⟩))) ?_
    refine .head (hone (.goOn (.answer (b := true) ⟨.start, rfl⟩))) ?_
    exact .refl
  obtain ⟨w, hrun⟩ := hrun
  exact ⟨_, hrun, rfl,
    counts_within_limit opener (Opening.dial_faithful {}) {} (by decide) none _ hrun default⟩

end BoltClient.Pool
