import BoltClient.Proofs.Pool.Custody
import BoltClient.Proofs.Pool.Lending

/-!
The counts of a pool are exact as long as nobody drops work that is parting with a connection. Where that
happens, a connection is counted that nobody has.
-/

namespace BoltClient.Pool

open Work

namespace Crowd

/-- Between one crowd and the next, work is dropped that is parting with a connection. -/
def Drops (c c' : Crowd) : Prop :=
  ∃ before x after m, c.parties = before ++ x :: after ∧ .parting m ∈ x.held ∧
    c'.parties = before ++ ⟨letGoAll x.held.length, x.held⟩ :: after

/-- The crowd goes on, and no work is dropped while it closes a connection that is not yet checked in. -/
def Proceeds (opener : Opener) : Crowd → Crowd → Prop :=
  Relation.ReflTransGen fun c c' => Step opener c c' ∧ ¬c.Drops c'

/-- Whatever the pool counts is held, and all work that is under way will give it back. -/
structure Balanced (c : Crowd) : Prop where
  kept : c.Kept
  backed : Backed c.pool c.held
  safe : ∀ x ∈ c.parties, x.work.Safe custody x.held fun _ held => Settled true held

end Crowd

/-- A party that is at rest without a connection, or at work with nothing that a pool counts. -/
def Party.Free (x : Party) : Prop :=
  (x.work = .done () ∧ ∀ m, .borrowed m ∉ x.held) ∨ ∀ y ∈ x.held, y.isSpare

variable {opener : Opener} {p p' : Pool} {x x' : Party} {hs : List Holding} {c c' : Crowd} {a : Address}

/-- With every step the counts and the work stay as they should, unless work is dropped that is parting with
a connection. -/
theorem Party.Step.balances (h : Party.Step opener (x, p) (x', p'))
    (hsuits : x.work.Safe hands x.held fun _ _ => True) (hsound : Sound p (x.held ++ hs))
    (hsafe : x.work.Safe custody x.held fun _ held => Settled true held)
    (hbacked : Backed p (x.held ++ hs)) :
    (x'.work.Safe custody x'.held fun _ held => Settled true held) ∧ Backed p' (x'.held ++ hs) ∨
    (∃ m, .parting m ∈ x.held) ∧ x' = ⟨letGoAll x.held.length, x.held⟩ := by
  cases h with
  | call k => exact .inl ⟨settled_call opener k hsafe, hbacked⟩
  | @goOn w w' held held' p p' hstep =>
    refine .inl ?_
    cases hstep with
    | @answer _ q next b _ _ hb =>
      have hq : q.Suits held := hsuits.1
      have hcareful : q.Careful held := hsafe.1
      have hb : Grip.Answers ⟨p, held⟩ q b ⟨p', held'⟩ := hb
      exact ⟨hsafe.2 b held' ⟨p, p', hb⟩, Backed.answer hq hcareful hb hsound hbacked⟩
    | round => exact ⟨hsafe.round, hbacked⟩
  | use c hc =>
    have hrest := (List.forall_mem_cons.mp hsafe).2
    refine .inl ⟨Settled.cons rfl hrest, ?_⟩
    exact Backed.swap hbacked (fun a => by simp only [Holding.isOut, hc]) fun _ => rfl
  | @quit w held =>
    by_cases hparting : ∃ m, .parting m ∈ held
    · exact .inr ⟨hparting, rfl⟩
    · have hempties := safe_letGoAll held.length (Nat.le_refl _) fun m hm => hparting ⟨m, hm⟩
      refine .inl ⟨hempties.mono fun _ held hnone => ?_, hbacked⟩
      rw [hnone]
      exact List.forall_mem_nil _

namespace Crowd

theorem Step.balances (h : Step opener c c') (hopener : Opening.Faithful opener) (hc : c.Balanced) :
    c'.Balanced ∨ c.Drops c' := by
  have hkept := h.keeps hopener hc.kept
  cases h with
  | join => exact .inl ⟨hkept, hc.backed, List.forall_mem_cons.mpr ⟨List.forall_mem_nil _, hc.safe⟩⟩
  | @turn before after x x' p p' hx =>
    have hmem : x ∈ before ++ x :: after := List.mem_append_right _ List.mem_cons_self
    rcases hx.balances (hc.kept.safe x hmem) (hc.kept.sound.perm (held_perm p x)) (hc.safe x hmem)
      (hc.backed.perm (held_perm p x)) with ⟨hsafe, hbacked⟩ | ⟨⟨m, hm⟩, rfl⟩
    · exact .inl ⟨hkept, hbacked.perm (held_perm p' x').symm, forall_turn hc.safe hsafe⟩
    · exact .inr ⟨before, x, after, m, rfl, hm, rfl⟩

theorem Proceeds.balances (h : Proceeds opener c c') (hopener : Opening.Faithful opener) (hc : c.Balanced) :
    c'.Balanced := by
  induction h with
  | refl => exact hc
  | tail _ hstep ih => exact (hstep.1.balances hopener ih).resolve_right hstep.2

theorem Proceeds.reaches (h : Proceeds opener c c') : Reaches opener c c' :=
  Relation.ReflTransGen.mono (fun _ _ hstep => hstep.1) _ _ h

/-- Nobody is there yet. -/
theorem balanced_start (limit : Option Nat) (directory : Option Routing.Directory) :
    Balanced ⟨{ limit := limit, directory := directory }, []⟩ where
  kept := start_kept limit directory
  backed := fun _ _ hslot => by cases hslot
  safe := List.forall_mem_nil _

/-- The counts of a pool are what is held. -/
theorem Balanced.exact (hc : c.Balanced) (a : Address) :
    c.pool.inUse a = outOf c.held a ∧ c.pool.reserved a = takenOf c.held a := by
  have hcovers := hc.kept.sound.covers a
  unfold inUse reserved
  cases hslot : c.pool.slot? a with
  | none =>
    rw [hslot] at hcovers
    exact ⟨hcovers.1.symm, hcovers.2.symm⟩
  | some s =>
    rw [hslot] at hcovers
    obtain ⟨hout, htaken⟩ := hc.backed a s hslot
    exact ⟨Nat.le_antisymm hout hcovers.1, Nat.le_antisymm htaken hcovers.2.1⟩

/-- Who is free holds nothing that counts. -/
theorem Balanced.spare (hc : c.Balanced) (hfree : ∀ x ∈ c.parties, x.Free) : ∀ y ∈ c.held, y.isSpare := by
  intro y hy
  obtain ⟨⟨work, held⟩, hx, hy⟩ := List.mem_flatMap.mp hy
  rcases hfree _ hx with ⟨hdone, hnone⟩ | hspare
  · obtain rfl : work = .done () := hdone
    have hsettled : Settled true held := hc.safe _ hx
    have hy' := hsettled y hy
    cases y with
    | borrowed m => exact absurd hy (hnone m)
    | parting | place => cases hy'
    | loose | wire | turn => rfl
  · exact hspare y hy

end Crowd

theorem idleCount_of_takeIdle (h : p.takeIdle a = none) : p.idleCount a = 0 := by
  unfold takeIdle at h
  unfold idleCount
  cases hslot : p.slot? a with
  | none => rfl
  | some s =>
    rw [hslot] at h
    cases hidle : s.idle with
    | nil => simp [hidle]
    | cons m rest => simp [hidle] at h

/-- There is a place as long as the counts are below the limit. -/
theorem exists_place (h : ∀ n, p.limit = some n → p.idleCount a + p.inUse a + p.reserved a < n) :
    ∃ generation q, p.reserve a = (some generation, q) := by
  have hslot : (p.ensure a).slot? a = some ((p.slot? a).getD { address := a }) := by
    rw [slot?_ensure, if_pos rfl]
  have hsize : ((p.slot? a).getD { address := a }).size = p.idleCount a + p.inUse a + p.reserved a := by
    unfold idleCount inUse reserved
    cases p.slot? a <;> rfl
  have hroom : ¬(p.ensure a).limit.any (· ≤ ((p.slot? a).getD { address := a }).size) := by
    rw [(frame_ensure p a).1, hsize]
    cases hlimit : p.limit with
    | none => simp
    | some n => simpa using h n hlimit
  unfold reserve
  simp only [hslot]
  rw [if_neg hroom]
  exact ⟨_, _, rfl⟩

namespace Crowd

variable {parties : List Party}

theorem not_drops_join (c : Crowd) : ¬c.Drops { c with parties := {} :: c.parties } := by
  rintro ⟨before, x, after, m, hparties, hm, hdropped⟩
  have hlength := congrArg List.length hdropped
  simp only [hparties, List.length_cons, List.length_append] at hlength
  omega

/-- The first of a crowd, who parts with nothing, does something. -/
theorem Balanced.first (hc : Balanced ⟨p, x :: parties⟩) (hopener : Opening.Faithful opener)
    (hx : ∀ m, .parting m ∉ x.held) {y : Party} {q : Pool} (h : Party.Step opener (x, p) (y, q)) :
    Proceeds opener ⟨p, x :: parties⟩ ⟨q, y :: parties⟩ ∧ Balanced ⟨q, y :: parties⟩ := by
  have hstep : Step opener ⟨p, x :: parties⟩ ⟨q, y :: parties⟩ := .first h
  have hkeeps : ¬Drops ⟨p, x :: parties⟩ ⟨q, y :: parties⟩ := by
    rintro ⟨before, z, after, m, hparties, hm, hdropped⟩
    cases before with
    | nil =>
      cases hparties
      exact hx m hm
    | cons b before =>
      -- the others are as they were, so the work was dropped before
      have hafter : parties = before ++ ⟨letGoAll z.held.length, z.held⟩ :: after :=
        (List.cons.inj hdropped).2
      have hz : ⟨letGoAll z.held.length, z.held⟩ ∈ x :: parties := by
        rw [hafter]
        simp
      exact notMem_of_safe_letGoAll _ (hc.safe _ hz) m hm
  exact ⟨.single ⟨hstep, hkeeps⟩, (hstep.balances hopener hc).resolve_right hkeeps⟩

/-- As long as a pool is not closed, somebody who comes can look for an idle connection, and for a place if
there is none. -/
theorem Balanced.exists_look (hc : Balanced ⟨p, parties⟩) (hopener : Opening.Faithful opener) (a : Address)
    (hopen : p.closed = false) : ∃ (found missed : Bool → Task Unit),
    Proceeds opener ⟨p, parties⟩ ⟨p, ⟨.ask (.move (.takeIdle a)) found, []⟩ :: parties⟩ ∧
      Balanced ⟨p, ⟨.ask (.move (.takeIdle a)) found, []⟩ :: parties⟩ ∧
      found false = .ask (.move (.reserve a)) missed := by
  have hnone (m : Member) : .parting m ∉ ([] : List Holding) := List.not_mem_nil
  have henter : Move.enter.apply .start ⟨p, []⟩ = (some p.changes, ⟨p, []⟩) := by
    simp only [Move.apply]
    rw [hopen]
    rfl
  have hjoin : Step opener ⟨p, parties⟩ ⟨p, {} :: parties⟩ := .join
  have hcome := (hjoin.balances hopener hc).resolve_right (not_drops_join _)
  obtain ⟨hrun₁, hc₁⟩ := hcome.first hopener hnone (.call (.acquire a .never none))
  obtain ⟨hrun₂, hc₂⟩ := hc₁.first hopener hnone (.goOn .round)
  obtain ⟨hrun₃, hc₃⟩ := hc₂.first hopener hnone (.goOn (.answer (b := some p.changes) ⟨.start, henter⟩))
  obtain ⟨hrun₄, hc₄⟩ := hc₃.first hopener hnone (.goOn .round)
  have hrun := (hrun₁.trans hrun₂).trans (hrun₃.trans hrun₄)
  exact ⟨_, _, .head ⟨hjoin, not_drops_join _⟩ hrun, hc₄, rfl⟩

/-- While less than the limit is out or taken, somebody who comes gets a connection or a place. -/
theorem Balanced.lends (hc : c.Balanced) (hopener : Opening.Faithful opener) (a : Address)
    (hopen : c.pool.closed = false)
    (hroom : ∀ n, c.pool.limit = some n → outOf c.held a + takenOf c.held a < n) :
    ∃ c', Proceeds opener c c' ∧ c'.pool.closed = false ∧
      outOf c'.held a + takenOf c'.held a = outOf c.held a + takenOf c.held a + 1 := by
  obtain ⟨p, parties⟩ := c
  obtain ⟨found, missed, hrun, hlook, hmissed⟩ := hc.exists_look hopener a hopen
  have hnone (m : Member) : .parting m ∉ ([] : List Holding) := List.not_mem_nil
  cases htake : p.takeIdle a with
  | some r =>
    obtain ⟨m, q⟩ := r
    have htook : (Move.takeIdle a).apply .start ⟨p, []⟩ = (true, ⟨q, [.borrowed m]⟩) := by
      simp only [Move.apply, htake]
    obtain ⟨hstep, _⟩ := hlook.first hopener hnone (.goOn (.answer (b := true) ⟨.start, htook⟩))
    have haddress := hc.kept.sound.address_of_takeIdle htake
    refine ⟨_, hrun.trans hstep, (frame_takeIdle htake).2.trans hopen, ?_⟩
    change outOf (.borrowed m :: held ⟨p, parties⟩) a + takenOf (.borrowed m :: held ⟨p, parties⟩) a = _
    rw [outOf_of_isOut (Holding.isOut_borrowed haddress), takenOf_of_not rfl]
    omega
  | none =>
    have hmiss : (Move.takeIdle a).apply .start ⟨p, []⟩ = (false, ⟨p, []⟩) := by
      simp only [Move.apply, htake]
    obtain ⟨hstep, hmissing⟩ := hlook.first hopener hnone (.goOn (.answer (b := false) ⟨.start, hmiss⟩))
    rw [hmissed] at hstep hmissing
    have hbelow (n : Nat) (hn : p.limit = some n) : p.idleCount a + p.inUse a + p.reserved a < n := by
      have hless : outOf (held ⟨p, parties⟩) a + takenOf (held ⟨p, parties⟩) a < n := hroom n hn
      have hcounts : p.inUse a = outOf (held ⟨p, parties⟩) a ∧ p.reserved a = takenOf (held ⟨p, parties⟩) a :=
        hc.exact a
      rw [idleCount_of_takeIdle htake]
      omega
    obtain ⟨generation, q, hreserve⟩ := exists_place hbelow
    have htook : (Move.reserve a).apply .start ⟨p, []⟩ = (true, ⟨q, [.place a generation]⟩) := by
      simp only [Move.apply, hreserve]
    obtain ⟨hplace, _⟩ := hmissing.first hopener hnone (.goOn (.answer (b := true) ⟨.start, htook⟩))
    refine ⟨_, (hrun.trans hstep).trans hplace, ?_, ?_⟩
    · have hclosed := (frame_reserve p a).2
      rw [hreserve] at hclosed
      exact hclosed.trans hopen
    · change outOf (.place a generation :: held ⟨p, parties⟩) a
        + takenOf (.place a generation :: held ⟨p, parties⟩) a = _
      rw [outOf_of_not rfl, takenOf_of_isPlace (Holding.isPlace_place a generation)]
      omega

/-- When nothing is out and no place is taken, as many can be lent as the limit allows. -/
theorem Balanced.lends_all (hc : c.Balanced) (hopener : Opening.Faithful opener) (a : Address)
    (hopen : c.pool.closed = false) (hnone : outOf c.held a + takenOf c.held a = 0) (n : Nat)
    (hn : ∀ most, c.pool.limit = some most → n ≤ most) :
    ∃ c', Proceeds opener c c' ∧ c'.pool.closed = false ∧ outOf c'.held a + takenOf c'.held a = n := by
  induction n with
  | zero => exact ⟨c, .refl, hopen, hnone⟩
  | succ n ih =>
    obtain ⟨c₁, hrun, hopen₁, hcount⟩ := ih fun most hmost => Nat.le_of_succ_le (hn most hmost)
    have hroom (most : Nat) (hmost : c₁.pool.limit = some most) :
        outOf c₁.held a + takenOf c₁.held a < most := by
      rw [hcount]
      exact hn most (hrun.reaches.limit.symm.trans hmost)
    obtain ⟨c₂, hmore, hopen₂, hcount₂⟩ := (hrun.balances hopener hc).lends hopener a hopen₁ hroom
    exact ⟨c₂, hrun.trans hmore, hopen₂, by rw [hcount₂, hcount]⟩

end Crowd

/-- However many are at work with a pool, and wherever else their work is dropped: if nobody drops it while it
closes a connection that is not yet checked in, then for each address the connections counted as in use are
those that somebody has, and the places counted as taken are those of connections being opened. When nobody
acquires and everything is given back, both counts are zero and all of the pool can be lent again, unless it
has been closed. -/
theorem counts_are_held (opener : Opener) (hopener : Opening.Faithful opener) (limit : Option Nat)
    (directory : Option Routing.Directory) (c : Crowd)
    (hrun : Crowd.Proceeds opener ⟨{ limit := limit, directory := directory }, []⟩ c) (a : Address) :
    c.pool.inUse a = outOf c.held a ∧ c.pool.reserved a = takenOf c.held a ∧
    ((∀ x ∈ c.parties, x.Free) → c.pool.inUse a = 0 ∧ c.pool.reserved a = 0 ∧
      (c.pool.closed = false → ∀ n, (∀ most, limit = some most → n ≤ most) →
        ∃ c', Crowd.Proceeds opener c c' ∧ outOf c'.held a + takenOf c'.held a = n)) := by
  have hbalanced := hrun.balances hopener (Crowd.balanced_start limit directory)
  obtain ⟨hinUse, hreserved⟩ := hbalanced.exact a
  refine ⟨hinUse, hreserved, fun hfree => ?_⟩
  obtain ⟨hout, htaken⟩ := counts_of_spare (hbalanced.spare hfree) a
  refine ⟨hinUse.trans hout, hreserved.trans htaken, fun hopen n hn => ?_⟩
  have hlimit (most : Nat) (hmost : c.pool.limit = some most) : n ≤ most :=
    hn most (hrun.reaches.limit.symm.trans hmost)
  obtain ⟨c', hlent, _, hcount⟩ := hbalanced.lends_all hopener a hopen (by omega) n hlimit
  exact ⟨c', hlent, hcount⟩

/-- A party that goes away while a connection is opened for it leaves room for the next. -/
theorem dropped_opening_leaves_room : ∃ c, Crowd.Proceeds (Opening.reach {}) ⟨{ limit := some 1 }, []⟩ c ∧
    (∀ x ∈ c.parties, x.Free) ∧ c.pool.inUse default = 0 ∧ c.pool.reserved default = 0 ∧
    ∃ c', Crowd.Proceeds (Opening.reach {}) c c' ∧ outOf c'.held default + takenOf c'.held default = 1 := by
  let opener := Opening.reach {}
  let start : Pool := { limit := some 1 }
  have hopener : Opening.Faithful opener := Opening.reach_faithful {}
  have hstart : Crowd.Balanced ⟨start, []⟩ := Crowd.balanced_start (some 1) none
  obtain ⟨found, missed, hrun, hlook, hmissed⟩ := hstart.exists_look hopener default rfl
  obtain ⟨hstep, hmissing⟩ := hlook.first hopener (by simp) (.goOn (.answer (b := false) ⟨.start, rfl⟩))
  rw [hmissed] at hstep hmissing
  obtain ⟨hplace, hopening⟩ := hmissing.first hopener (by simp)
    (.goOn (.answer (b := true) ⟨.start, rfl⟩)) (y := ⟨missed true, [.place default 0]⟩)
  obtain ⟨hquit, hgoing⟩ := hopening.first hopener (by simp) .quit
  obtain ⟨hgone, _⟩ := hgoing.first hopener (by simp)
    (.goOn (.answer (b := ()) ⟨.start, rfl⟩)) (y := ⟨.done (), []⟩)
  have hdropped := (((hrun.trans hstep).trans hplace).trans hquit).trans hgone
  have hfree (x : Party) (hx : x ∈ [(⟨.done (), []⟩ : Party)]) : x.Free := by
    rw [List.mem_singleton.mp hx]
    exact .inr (List.forall_mem_nil _)
  obtain ⟨_, _, hback⟩ := counts_are_held opener hopener (some 1) none _ hdropped default
  obtain ⟨hinUse, hreserved, hlend⟩ := hback hfree
  have hone (most : Nat) (hmost : some 1 = some most) : 1 ≤ most := Nat.le_of_eq (Option.some.inj hmost)
  exact ⟨_, hdropped, hfree, hinUse, hreserved, hlend rfl 1 hone⟩

namespace Crowd

theorem Step.beside (h : Step opener c c') (x : Party) :
    Step opener ⟨c.pool, c.parties ++ [x]⟩ ⟨c'.pool, c'.parties ++ [x]⟩ := by
  cases h with
  | join => exact .join
  | turn hy =>
    rw [List.append_assoc, List.append_assoc]
    exact .turn hy

theorem Reaches.beside (h : Reaches opener c c') (x : Party) :
    Reaches opener ⟨c.pool, c.parties ++ [x]⟩ ⟨c'.pool, c'.parties ++ [x]⟩ := by
  induction h with
  | refl => exact .refl
  | tail _ hstep ih => exact ih.tail (hstep.beside x)

/-- What a pool counts and nobody holds counts for ever. If that is as much as the limit allows, nobody has anything
any more. -/
theorem Reaches.lends_none {lost : List Holding} {n : Nat} (h : Reaches opener c c') (hopener : Opening.Faithful opener)
    (hc : c.Kept) (hlost : Sound c.pool (c.held ++ lost)) (hlimit : c.pool.limit = some n) (hfull : n ≤ outOf lost a) :
    outOf c'.held a = 0 ∧ takenOf c'.held a = 0 := by
  -- somebody who does nothing any more takes what is lost upon themselves
  let keeper : Party := ⟨.done (), lost⟩
  have hheld (d : Crowd) : held ⟨d.pool, d.parties ++ [keeper]⟩ = d.held ++ lost := by simp [held, keeper]
  have hkept : Kept ⟨c.pool, c.parties ++ [keeper]⟩ := by
    refine ⟨(hheld c).symm ▸ hlost, fun x hx => ?_⟩
    rcases List.mem_append.mp hx with hx | hx
    · exact hc.safe x hx
    · obtain rfl := List.mem_singleton.mp hx
      exact trivial
  obtain ⟨hwithin, hcovered⟩ := ((h.beside keeper).keeps hopener hkept).counts a
  have hmost := hwithin n (h.limit.trans hlimit)
  unfold connectionsTo at hcovered
  rw [hheld, outOf, takenOf, List.countP_append, List.countP_append] at hcovered
  unfold outOf takenOf at *
  omega

end Crowd

/-- Somebody who waits for GOODBYE to be written on a connection that they have taken out. -/
def leaver (m : Member) (next : Output → Task Unit) : Party :=
  ⟨.ask (.transfer (.write ⟨0⟩ [0, 2, 0xB0, 0x02, 0, 0] .never)) next, [.parting m]⟩

/-- Work that is dropped while it says GOODBYE on a connection that it has taken out to close leaves the connection
counted. Everybody is at rest and holds nothing, and yet, where one connection is all that there may be, nobody gets hold
of one ever again. -/
theorem dropped_closing_stays_counted : ∃ (p : Pool) (m : Member) (next : Output → Task Unit),
    Crowd.Reaches prompt ⟨{ limit := some 1 }, []⟩ ⟨p, [leaver m next]⟩ ∧
    Crowd.Reaches prompt ⟨p, [leaver m next]⟩ ⟨p, [{}]⟩ ∧ p.closed = false ∧ p.inUse default = 1 ∧
    ∀ c, Crowd.Reaches prompt ⟨p, [{}]⟩ c → outOf c.held default = 0 ∧ takenOf c.held default = 0 := by
  let p : Pool := { limit := some 1, slots := [{ address := default, inUse := 1, generation := 1 }], changes := 1 }
  have hwrites : ∃ m next, m.connection.address = default ∧
      Crowd.Reaches prompt (stockedWithin (some 1)) ⟨p, [leaver m next]⟩ := by
    refine ⟨?m, ?next, ?address, ?run⟩
    case run =>
      refine .head (.first (.call .markAllStale)) ?_
      refine .head (.first (.goOn (.answer ⟨.start, rfl⟩))) ?_
      -- the connection that waits is too old for whoever acquires next
      refine .head (.first (.call (.acquire default .never none))) ?_
      refine .head (.first (.goOn .round)) ?_
      refine .head (.first (.goOn (.answer (b := some 1) ⟨.start, rfl⟩))) ?_
      refine .head (.first (.goOn .round)) ?_
      refine .head (.first (.goOn (.answer (b := true) ⟨.start, rfl⟩))) ?_
      refine .head (.first (.goOn (.answer (b := false) ⟨.start, rfl⟩))) ?_
      refine .head (.first (.goOn (.answer ⟨.start, rfl⟩))) ?_
      refine .head (.first (.goOn (.answer (b := some true) ⟨.start, _, rfl, rfl⟩))) ?_
      refine .head (.first (.goOn (.answer (b := .ok (some ⟨⟨0⟩, [0, 2, 0xB0, 0x02, 0, 0], .never⟩))
        ⟨.start, _, rfl, rfl⟩))) ?_
      exact .refl
    case address => rfl
  obtain ⟨m, next, haddress, hwrites⟩ := hwrites
  have hbefore : Crowd.Reaches prompt ⟨{ limit := some 1 }, []⟩ ⟨p, [leaver m next]⟩ :=
    (reaches_stockedWithin (by decide)).trans hwrites
  have hdropped : Crowd.Reaches prompt ⟨p, [leaver m next]⟩ ⟨p, [{}]⟩ :=
    .head (.first .quit) (.head (.first (.goOn (.answer ⟨.start, rfl⟩))) .refl)
  have hkept := hbefore.keeps prompt_faithful (Crowd.start_kept (some 1) none)
  have hlost : outOf [.parting m] default = 1 := by simp [outOf, Holding.isOut, haddress]
  refine ⟨p, m, next, hbefore, hdropped, rfl, rfl, fun c hc => ?_⟩
  exact hc.lends_none prompt_faithful (hdropped.keeps prompt_faithful hkept) hkept.sound rfl (Nat.le_of_eq hlost.symm)

end BoltClient.Pool
