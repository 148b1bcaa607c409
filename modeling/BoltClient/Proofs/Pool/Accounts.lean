import BoltClient.Proofs.Connection.Bookkeeping
import BoltClient.Proofs.Pool.Custody
import Mathlib.Data.List.Forall2

namespace BoltClient

def Holding.out? : Holding → Option Connection
  | borrowed m | parting m => some m.connection
  | _ => none

namespace Connection

/-- As good as new: besides having nothing to come and nothing to send, the server is ready and nothing is left
to report. -/
structure Pristine (c : Connection) : Prop extends Idle c where
  ready : c.state = .ready
  silent : c.feedback = []

variable {c : Connection} {m : Member} {p : Pool} {now : Instant} {a : Account}

theorem Idle.silence (h : Idle c) : Idle { c with feedback := [] } :=
  ⟨⟨h.works.settled, h.works.defunct, h.works.closed⟩, h.calm, h.linked, h.pending, h.sent⟩

theorem Idle.route (h : Idle c) (routed : Bool) : Idle { c with routed := routed } :=
  ⟨⟨h.works.settled, h.works.defunct, h.works.closed⟩, h.calm, h.linked, h.pending, h.sent⟩

/-- What is kept when it comes back is as good as new. That its outbox is empty is not looked at: it follows from
its account. -/
theorem pristine_of_keeps (h : InOrder ⟨m.connection, a⟩) (hfair : a.Fair) (hkept : p.keeps m now = true) :
    Pristine { m.connection with feedback := [] } := by
  have husable := Pool.usable_of_keeps hkept
  have hreset : m.connection.isReset = true := by
    unfold Pool.keeps at hkept
    simp only [Bool.and_eq_true] at hkept
    exact hkept.2
  rcases h with hclosed | ⟨told, hreckons⟩
  · rw [husable.closed] at hclosed
    cases hclosed
  · have hready : m.connection.state = .ready := by
      unfold isReset at hreset
      rw [husable.pending] at hreset
      exact of_decide_eq_true hreset
    exact ⟨(hreckons.idle hfair husable.pending).silence, hready, rfl⟩

end Connection

namespace Pool

open Work
open Connection (Account Audited Idle InOrder Pristine audit)
open Stage (World)

def out (held : List Holding) : List Connection := held.filterMap Holding.out?

def AtHand (held : List Holding) : Prop := (held.head?.bind Holding.out?).isSome

instance (held : List Holding) : Decidable (AtHand held) := inferInstanceAs (Decidable (_ = true))

/-- Every connection that waits to be used is as good as new. -/
def Clean (p : Pool) : Prop := ∀ m ∈ p.idleMembers, m.connection.Pristine

/-- Each connection that has newly gone out gets an account; the accounts of those that came back end. -/
def balance (cs : List Connection) (accounts : List Account) : List Account :=
  (cs.take (cs.length - accounts.length)).map (fun c => { start := c }) ++
    accounts.drop (accounts.length - cs.length)

/-- Somebody who holds things, with an account of each connection of theirs that is out. -/
structure Keeper where
  held : List Holding := []
  accounts : List Account := []

namespace Keeper

/-- What goes back and forth is about the newest thing held, if that is a connection that is out. -/
def hear (s : Keeper) : {β : Type} → Query β → β → List Account
  | _, .transfer q, b => if AtHand s.held then s.accounts.modifyHead (·.note q b) else s.accounts
  | _, _, _ => s.accounts

/-- Brings the accounts up to date; the work itself cannot see them. -/
def note (s : Keeper) (held : List Holding) {β : Type} (q : Query β) (b : β) : Keeper :=
  ⟨held, balance (out held) (s.hear q b)⟩

def Fair (s : Keeper) : Prop := ∀ a ∈ s.accounts, a.Fair

structure Kept (s : Keeper) : Prop where
  inOrder : List.Forall₂ (fun c a => InOrder ⟨c, a⟩) (out s.held) s.accounts
  fair : s.Fair

end Keeper

/-- A pool that others may do anything with between two questions, as long as what waits in it is as good as new.
No question may change that, however it is answered. -/
def borrowing : Surroundings Query Keeper where
  Answers s q b t := ∃ p p', p.Clean ∧ Grip.Answers ⟨p, s.held⟩ q b ⟨p', t.held⟩ ∧ t = s.note t.held q b ∧ t.Fair
  Allows s q := ∀ p b p' held', p.Clean → Grip.Answers ⟨p, s.held⟩ q b ⟨p', held'⟩ → p'.Clean

variable {α β : Type} {p p' : Pool} {g : Grip} {s t : Keeper} {held held' rest : List Holding} {m : Member}
  {c : Connection} {cs : List Connection} {a : Account} {accounts : List Account}

theorem balance_same (h : cs.length = accounts.length) : balance cs accounts = accounts := by
  simp [balance, h]

theorem balance_taken (h : cs.length = accounts.length) :
    balance (c :: cs) accounts = { start := c } :: accounts := by
  simp [balance, h]

theorem balance_given (h : cs.length = accounts.length) : balance cs (a :: accounts) = accounts := by
  simp [balance, h]

theorem out_hold (ms : List Member) (held : List Holding) : out (ms.map .loose ++ held) = out held := by
  induction ms with
  | nil => rfl
  | cons m ms ih => exact ih

theorem out_beneath (held : List Holding) : out (Grip.beneath held) = out held := by
  induction held with
  | nil => rfl
  | cons x held ih =>
    cases x with
    | wire link => exact ih
    | borrowed | parting | loose | place | turn => rfl

theorem out_of_transfer {g g' : Grip} {q : Transfer α} {b : α} (hb : g.Answers (.transfer q) b g') :
    out g'.held = out g.held := by
  rw [← out_beneath, Grip.beneath_of_transfer hb, out_beneath]

/-- A new connection has nothing to come and nothing to send. -/
def Move.Brings : {β : Type} → Move β → Prop
  | _, .fulfil c => c.Idle
  | _, _ => True

/-- What becomes of the connections that are out: one goes out, or the newest one comes back. -/
inductive Turnover (cs : List Connection) : List Connection → Prop where
  | same : Turnover cs cs
  | taken {c : Connection} (h : c.Idle) : Turnover cs (c :: cs)
  | given {c : Connection} {rest : List Connection} (h : cs = c :: rest) : Turnover cs rest

/-- A connection that a move lets whoever makes it take hold of: one that waited, or a new one. -/
def Move.Takes (p : Pool) (c : Connection) : {β : Type} → Move β → Prop
  | _, .takeIdle _ => ∃ m ∈ p.idleMembers, c = m.connection
  | _, .fulfil d => ∃ routed, c = { d with routed := routed }
  | _, _ => False

theorem out_fulfil (c : Connection) (p : Pool) (held : List Holding) :
    out (Grip.fulfil c p held).held = out held ∨
      ∃ routed, out (Grip.fulfil c p held).held = { c with routed := routed } :: out held := by
  induction held with
  | nil => exact .inl rfl
  | cons x held ih =>
    cases x with
    | wire link => exact ih
    | place a generation => exact .inr ⟨_, rfl⟩
    | borrowed | parting | loose | turn => exact .inl rfl

theorem out_letGo (now : Instant) (p : Pool) (held : List Holding) :
    out (Grip.letGo now p held).held = out held ∨ ∃ c, out held = c :: out (Grip.letGo now p held).held := by
  induction held with
  | nil => exact .inl rfl
  | cons x held ih =>
    cases x with
    | wire link => exact ih
    | borrowed m | parting m => exact .inr ⟨_, rfl⟩
    | loose | place | turn => exact .inl rfl

/-- With a move one connection goes out, or the newest one comes back, or neither. -/
theorem out_move (k : Move β) (now : Instant) : out (k.apply now g).2.held = out g.held ∨
    (∃ c, k.Takes g.pool c ∧ out (k.apply now g).2.held = c :: out g.held) ∨
    ∃ c, out g.held = c :: out (k.apply now g).2.held := by
  obtain ⟨p, held⟩ := g
  cases k with
  | enter | announce | serves | strangers | routers | isFresh | store | discard | discardWriter | markAllStale =>
    exact .inl rfl
  | takeIdle a =>
    simp only [Move.apply]
    split
    · next htake =>
      obtain ⟨_, _, hmem, _⟩ := mem_of_takeIdle htake
      exact .inr (.inl ⟨_, ⟨_, hmem _ List.mem_cons_self, rfl⟩, rfl⟩)
    · exact .inl rfl
  | isCurrent a =>
    simp only [Move.apply]
    split <;> exact .inl rfl
  | reserve a =>
    simp only [Move.apply]
    split <;> exact .inl rfl
  | fulfil c =>
    rcases out_fulfil c p held with hsame | ⟨routed, hmore⟩
    · exact .inl hsame
    · exact .inr (.inl ⟨_, ⟨routed, rfl⟩, hmore⟩)
  | part =>
    simp only [Move.apply]
    split <;> exact .inl rfl
  | checkIn =>
    simp only [Move.apply]
    split
    · exact .inr (.inr ⟨_, congrArg _ (out_hold _ _).symm⟩)
    · exact .inr (.inr ⟨_, congrArg _ (out_hold _ _).symm⟩)
    · exact .inl rfl
  | letGo => exact (out_letGo now p held).imp_right .inr
  | detach a => exact .inl (out_hold _ _)
  | shut => exact .inl (out_hold _ _)
  | select role database choice =>
    simp only [Move.apply]
    split <;> exact .inl rfl

theorem turnover_move {k : Move β} (hk : k.Brings) (hclean : g.pool.Clean) (now : Instant) :
    Turnover (out g.held) (out (k.apply now g).2.held) := by
  rcases out_move k now with hsame | ⟨c, htakes, hmore⟩ | ⟨c, hfewer⟩
  · rw [hsame]
    exact .same
  · rw [hmore]
    cases k with
    | takeIdle a =>
      obtain ⟨m, hm, rfl⟩ := htakes
      exact .taken (hclean m hm).toIdle
    | fulfil d =>
      obtain ⟨routed, rfl⟩ := htakes
      have hd : d.Idle := hk
      exact .taken (hd.route routed)
    | enter | announce | serves | strangers | routers | isFresh | store | discard | discardWriter | markAllStale
      | isCurrent | reserve | part | checkIn | letGo | detach | shut | select => exact htakes.elim
  · exact .given hfewer

/-- A connection that is given back without a word waits only if it had nothing to be undone. -/
theorem idle_giveBack {x : Member} {now : Instant} (h : x ∈ (p.giveBack m now).idleMembers) : x ∈ p.idleMembers ∨
    p.keeps m now = true ∧ x = { m with connection := { m.connection with feedback := [] } } := by
  unfold giveBack at h
  dsimp only at h
  rcases idle_checkIn h with hold | ⟨hkept, rfl⟩
  · exact .inl hold
  · split at hkept
    · next hclean =>
      rw [if_pos hclean]
      exact .inr ⟨hkept, rfl⟩
    · have hclosed := (usable_of_keeps hkept).closed
      cases hclosed

theorem idle_letGo {x : Member} {now : Instant} {held : List Holding}
    (h : x ∈ (Grip.letGo now p held).pool.idleMembers) : x ∈ p.idleMembers ∨ ∃ m rest,
      out held = m.connection :: rest ∧ p.keeps m now = true ∧
        x = { m with connection := { m.connection with feedback := [] } } := by
  induction held with
  | nil => exact .inl h
  | cons y held ih =>
    cases y with
    | wire link => exact ih h
    | borrowed m => exact (idle_giveBack h).imp_right fun hkept => ⟨m, out held, rfl, hkept⟩
    | place a generation => exact .inl (idle_abandon p a generation h)
    | parting | loose | turn => exact .inl h

theorem idle_fulfilHeld (c : Connection) (p : Pool) (held : List Holding) :
    (Grip.fulfil c p held).pool.idleMembers ⊆ p.idleMembers := by
  induction held with
  | nil => exact List.Subset.refl _
  | cons x held ih =>
    cases x with
    | wire link => exact ih
    | place a generation => exact idle_fulfil p a
    | borrowed | parting | loose | turn => exact List.Subset.refl _

/-- Only the newest connection that is out can begin to wait. -/
theorem idle_move {x : Member} (now : Instant) {k : Move β} (h : x ∈ (k.apply now g).2.pool.idleMembers) :
    x ∈ g.pool.idleMembers ∨ ∃ m rest, out g.held = m.connection :: rest ∧ g.pool.keeps m now = true ∧
      x = { m with connection := { m.connection with feedback := [] } } := by
  obtain ⟨p, held⟩ := g
  cases k with
  | enter | announce | serves | strangers | routers | isFresh | store | discard | discardWriter => exact .inl h
  | markAllStale => exact .inl (idle_markAllStale p h)
  | takeIdle a =>
    simp only [Move.apply] at h
    split at h
    · next htake => exact .inl (idle_takeIdle htake h)
    · exact .inl h
  | isCurrent a =>
    simp only [Move.apply] at h
    split at h <;> exact .inl h
  | reserve a =>
    have hreserve := idle_reserve p a
    simp only [Move.apply] at h
    split at h
    · next hroom =>
      rw [hroom] at hreserve
      exact .inl (hreserve h)
    · next hroom =>
      rw [hroom] at hreserve
      exact .inl (hreserve h)
  | fulfil c => exact .inl (idle_fulfilHeld c p held h)
  | part =>
    simp only [Move.apply] at h
    split at h <;> exact .inl h
  | checkIn =>
    simp only [Move.apply] at h
    split at h
    · next m rest => exact (idle_checkIn h).imp_right fun hkept => ⟨m, out rest, rfl, hkept⟩
    · next m rest => exact (idle_checkIn h).imp_right fun hkept => ⟨m, out rest, rfl, hkept⟩
    · exact .inl h
  | letGo => exact idle_letGo h
  | detach a => exact .inl (idle_detach p a h)
  | shut => exact .inl (idle_shut p h)
  | select role database choice =>
    simp only [Move.apply] at h
    split at h <;> exact .inl h

namespace Keeper

theorem kept_nothing : Kept {} := ⟨.nil, fun _ ha => absurd ha List.not_mem_nil⟩

theorem Kept.length_eq (h : s.Kept) : (out s.held).length = s.accounts.length := h.inOrder.length_eq

/-- Accounts begin and end with what goes out and comes back. -/
theorem Kept.turnover (h : s.Kept) (hturnover : Turnover (out s.held) cs) :
    List.Forall₂ (fun c a => InOrder ⟨c, a⟩) cs (balance cs s.accounts) := by
  cases hturnover with
  | same =>
    rw [balance_same h.length_eq]
    exact h.inOrder
  | taken hidle =>
    rw [balance_taken h.length_eq]
    exact .cons hidle.inOrder h.inOrder
  | given hout =>
    have horder := h.inOrder
    rw [hout] at horder
    generalize s.accounts = accounts at horder ⊢
    cases horder with
    | cons _ hrest =>
      rw [balance_given hrest.length_eq]
      exact hrest

/-- Where the connections that are out are the same, so are their accounts, unless something is heard. -/
theorem Kept.same {q : Query β} {b : β} (h : s.Kept) (hout : out held = out s.held)
    (hheard : s.hear q b = s.accounts) : (s.note held q b).Kept := by
  have hnote : s.note held q b = ⟨held, s.accounts⟩ := by
    rw [note, hheard, hout, balance_same h.length_eq]
  rw [hnote]
  refine ⟨?_, h.fair⟩
  rw [hout]
  exact h.inOrder

end Keeper

theorem clean_of_move {k : Move β} {b : β} {now : Instant} (hs : s.Kept) (hclean : p.Clean)
    (happly : k.apply now ⟨p, s.held⟩ = (b, ⟨p', held'⟩)) : p'.Clean := by
  intro x hx
  have hidle := @idle_move β ⟨p, s.held⟩ x now k
  rw [happly] at hidle
  rcases hidle hx with hold | ⟨m, rest, hout, hkept, rfl⟩
  · exact hclean x hold
  · have hout : out s.held = m.connection :: rest := hout
    have horder := hs.inOrder
    rw [hout] at horder
    obtain ⟨a, accounts, hfirst, _, haccounts⟩ := List.forall₂_cons_left_iff.mp horder
    have hfair : a.Fair := hs.fair a (haccounts ▸ List.mem_cons_self)
    exact Connection.pristine_of_keeps hfirst hfair hkept

theorem maintains_move {k : Move β} (hk : k.Brings) : Maintains borrowing Keeper.Kept (move k : Task β) := by
  refine maintains_query (fun s hs p b p' held' hclean ⟨now, happly⟩ => clean_of_move hs hclean happly) ?_
  rintro s b t hs ⟨p, p', hclean, ⟨now, happly⟩, hnote, hfair⟩
  have hturnover := @turnover_move β ⟨p, s.held⟩ k hk hclean now
  rw [happly] at hturnover
  refine ⟨?_, hfair⟩
  rw [hnote]
  exact hs.turnover hturnover

def Query.Aside : {β : Type} → Query β → Prop
  | _, .move _ => False
  | _, _ => True

theorem idle_of_aside {q : Query β} {b : β} (hq : q.Aside) (hb : Grip.Answers ⟨p, held⟩ q b ⟨p', held'⟩) :
    p'.idleMembers = p.idleMembers := by
  cases q with
  | move k => exact hq.elim
  | edit f =>
    obtain ⟨_, _, _, heq⟩ := hb
    cases heq
    rfl
  | transfer | draw =>
    cases hb
    rfl
  | waitForChange | waitForTurn =>
    cases hb.2
    rfl

theorem clean_of_aside {q : Query β} {b : β} (hq : q.Aside) (hclean : p.Clean)
    (hb : Grip.Answers ⟨p, held⟩ q b ⟨p', held'⟩) : p'.Clean := by
  intro m hm
  rw [idle_of_aside hq hb] at hm
  exact hclean m hm

/-- A question that leaves the pool and the connections that are out alone, and of which nothing is noted. -/
theorem maintains_aside {q : Query β} (hq : q.Aside)
    (hout : ∀ {g g' : Grip} {b : β}, g.Answers q b g' → out g'.held = out g.held)
    (hheard : ∀ s b, Keeper.hear s q b = s.accounts) : Maintains borrowing Keeper.Kept (Work.query q) := by
  refine maintains_query (fun s _ p b p' held' hclean hb => clean_of_aside hq hclean hb) ?_
  intro s b t hs ⟨p, p', _, hb, hnote, _⟩
  rw [hnote]
  exact hs.same (hout hb) (hheard s b)

theorem maintains_draw : Maintains borrowing Keeper.Kept (ask .draw : Task Nat) :=
  maintains_aside trivial (by intro g g' b hb; cases hb; rfl) fun _ _ => rfl

theorem maintains_waitForChange (seen : Nat) (deadline : Deadline) :
    Maintains borrowing Keeper.Kept (ask (.waitForChange seen deadline) : Task Bool) :=
  maintains_aside trivial (by intro g g' b hb; cases hb.2; rfl) fun _ _ => rfl

theorem maintains_waitForTurn : Maintains borrowing Keeper.Kept (ask .waitForTurn : Task Unit) :=
  maintains_aside trivial (by intro g g' b hb; cases hb.2; rfl) fun _ _ => rfl

/-- Nothing comes or goes where the clock is looked at. -/
theorem hear_now (s : Keeper) (b : Instant) : s.hear (.transfer .now) b = s.accounts := by
  have hnote (a : Account) : a.note .now b = a := by
    show { a with heard := a.heard ++ [], written := a.written ++ [] } = a
    rw [List.append_nil, List.append_nil]
  unfold Keeper.hear
  dsimp only
  rw [ite_eq_right_iff]
  intro _
  cases s.accounts with
  | nil => rfl
  | cons a accounts => exact congrArg (· :: accounts) (hnote a)

theorem maintains_now : Maintains borrowing Keeper.Kept (ask (.transfer .now) : Task Instant) :=
  maintains_aside trivial (by intro g g' b hb; cases hb; rfl) hear_now

/-- The newest thing held is a connection that is out; it and its account are these. -/
structure Tops (wrap : Member → Holding) (rest : List Holding) (accounts : List Account) (u : Audited)
    (t : Keeper) : Prop where
  held : ∃ generation, t.held = wrap ⟨u.connection, generation⟩ :: rest
  accounts : t.accounts = u.account :: accounts
  fair : t.Fair

def IsOut (wrap : Member → Holding) : Prop := wrap = .borrowed ∨ wrap = .parting

section

variable {wrap : Member → Holding} {u : Audited}

theorem IsOut.out (h : IsOut wrap) (m : Member) (rest : List Holding) :
    Pool.out (wrap m :: rest) = m.connection :: Pool.out rest := by
  rcases h with rfl | rfl <;> rfl

theorem IsOut.atHand (h : IsOut wrap) (m : Member) (rest : List Holding) : AtHand (wrap m :: rest) := by
  rcases h with rfl | rfl <;> rfl

theorem IsOut.editTop (h : IsOut wrap) (f : Connection → α × Connection) (m : Member) (rest : List Holding) :
    World.editTop f (wrap m :: rest)
      = some ((f m.connection).1, wrap { m with connection := (f m.connection).2 } :: rest) := by
  rcases h with rfl | rfl <;> rfl

theorem atHand_cases (h : AtHand held) : ∃ wrap m rest, IsOut wrap ∧ held = wrap m :: rest := by
  cases held with
  | nil => cases h
  | cons x rest =>
    cases x with
    | borrowed m => exact ⟨.borrowed, m, rest, .inl rfl, rfl⟩
    | parting m => exact ⟨.parting, m, rest, .inr rfl, rfl⟩
    | loose | wire | place | turn => cases h

/-- After a question the same connection is the newest that is out. -/
theorem Tops.note {q : Query β} {b : β} {generation : Nat} (hwrap : IsOut wrap)
    (hlength : (out rest).length = accounts.length) (hheard : s.hear q b = a :: accounts)
    (hfair : (s.note (wrap ⟨c, generation⟩ :: rest) q b).Fair) :
    Tops wrap rest accounts ⟨c, a⟩ (s.note (wrap ⟨c, generation⟩ :: rest) q b) := by
  refine ⟨⟨generation, rfl⟩, ?_, hfair⟩
  have hlengths : (out (wrap ⟨c, generation⟩ :: rest)).length = (a :: accounts).length := by
    rw [hwrap.out, List.length_cons, List.length_cons, hlength]
  rw [Keeper.note, hheard, balance_same hlengths]

theorem Tops.edit {f : Instant → Connection → β × Connection} {b : β} (h : Tops wrap rest accounts u s)
    (hwrap : IsOut wrap) (hlength : (out rest).length = accounts.length)
    (hb : Grip.Answers ⟨p, s.held⟩ (.edit f) b ⟨p', held'⟩) (hfair : (s.note held' (.edit f) b).Fair) :
    ∃ now, b = (f now u.connection).1 ∧
      Tops wrap rest accounts ⟨(f now u.connection).2, u.account⟩ (s.note held' (.edit f) b) := by
  obtain ⟨now, _, hedit, heq⟩ := hb
  obtain ⟨generation, hheld⟩ := h.held
  rw [hheld, hwrap.editTop] at hedit
  cases hedit
  cases heq
  have hheard : s.hear (.edit f) (f now u.connection).1 = u.account :: accounts := h.accounts
  exact ⟨now, rfl, .note hwrap hlength hheard hfair⟩

theorem Tops.transfer {q : Transfer β} {b : β} (h : Tops wrap rest accounts u s)
    (hwrap : IsOut wrap) (hlength : (out rest).length = accounts.length) (hq : (Connection.Query.transfer q).Lone)
    (hb : Grip.Answers ⟨p, s.held⟩ (.transfer q) b ⟨p', held'⟩) (hfair : (s.note held' (.transfer q) b).Fair) :
    Tops wrap rest accounts ⟨u.connection, u.account.note q b⟩ (s.note held' (.transfer q) b) := by
  have hsame : World.grasp s.held q (.ready b) = s.held := by
    cases q with
    | connect | dial => exact hq.elim
    | now | resolve | settle | read | write | shutdown => rfl
  obtain ⟨generation, hheld⟩ := h.held
  obtain rfl : held' = wrap ⟨u.connection, generation⟩ :: rest :=
    ((congrArg Grip.held hb).trans hsame).trans hheld
  have hheard : s.hear (.transfer q) b = u.account.note q b :: accounts := by
    rw [Keeper.hear, hheld, if_pos (hwrap.atHand _ rest), h.accounts]
    rfl
  exact .note hwrap hlength hheard hfair

/-- Work on a connection that is out does to its account what it does to that of a connection of one's own. -/
theorem safe_onTopOut {w : Connection.Task α} {post : α → Audited → Prop} (hs : Tops wrap rest accounts u s)
    (hwrap : IsOut wrap) (hlength : (out rest).length = accounts.length) (hlone : w.Asks Connection.Query.Lone)
    (h : w.Safe audit u post) :
    (onTop w : Task α).Safe borrowing s fun b t => ∃ u, Tops wrap rest accounts u t ∧ post b u := by
  refine Asks.safeVia _ ?_ ?_ hlone h hs
  · intro β q u t _ _ p b p' held' hclean hb
    cases q with
    | edit f => exact clean_of_aside (q := .edit f) trivial hclean hb
    | transfer q => exact clean_of_aside (q := .transfer q) trivial hclean hb
  · intro β q u t b t' ht hq ⟨p, p', _, hb, hnote, hfair⟩
    rw [hnote] at hfair ⊢
    cases q with
    | edit f =>
      obtain ⟨now, hanswer, htops⟩ := ht.edit hwrap hlength hb hfair
      exact ⟨_, ⟨now, hanswer, rfl⟩, htops⟩
    | transfer q => exact ⟨_, rfl, ht.transfer hwrap hlength hq hb hfair⟩

end

/-- Where no connection that is out is at hand, nothing that is asked about the newest connection held touches one. -/
theorem spare_of_edit {f : Instant → Connection → β × Connection} {b : β} (hspare : ¬AtHand held)
    (hb : Grip.Answers ⟨p, held⟩ (.edit f) b ⟨p', held'⟩) : out held' = out held ∧ ¬AtHand held' := by
  obtain ⟨now, _, hedit, heq⟩ := hb
  cases heq
  cases held with
  | nil => cases hedit
  | cons x rest =>
    cases x with
    | borrowed | parting => exact absurd rfl hspare
    | loose m =>
      cases hedit
      exact ⟨rfl, nofun⟩
    | wire | place | turn => cases hedit

theorem spare_of_transfer {q : Transfer β} {b : β} (hspare : ¬AtHand held)
    (hb : Grip.Answers ⟨p, held⟩ (.transfer q) b ⟨p', held'⟩) : out held' = out held ∧ ¬AtHand held' := by
  refine ⟨out_of_transfer hb, ?_⟩
  cases hb
  rcases Grip.grasp_cases held q (.ready b) with hsame | ⟨link, hmore⟩
  · rw [hsame]
    exact hspare
  · rw [hmore]
    exact nofun

/-- Where no connection that is out is at hand, work on the newest connection held asks only what does not touch
one. -/
theorem onTop_spares (w : Connection.Task α) : (onTop w : Task α).Asks fun {β} q => q.Aside ∧
    ∀ {held held' : List Holding} {p p' : Pool} {b : β}, ¬AtHand held → Grip.Answers ⟨p, held⟩ q b ⟨p', held'⟩ →
      out held' = out held ∧ ¬AtHand held' :=
  onTop_asks_all (fun _ => ⟨trivial, spare_of_edit⟩) (fun _ => ⟨trivial, spare_of_transfer⟩) w

/-- Nothing is noted of what goes back and forth elsewhere. -/
theorem hear_spare {q : Query β} (hspare : ¬AtHand s.held) (b : β) : s.hear q b = s.accounts := by
  cases q with
  | transfer q => exact if_neg hspare
  | move | edit | waitForChange | waitForTurn | draw => rfl

theorem safe_onTopSpare {w : Connection.Task α} (hs : s.Kept) (hspare : ¬AtHand s.held) :
    (onTop w : Task α).Safe borrowing s fun _ t => t.Kept := by
  refine ((onTop_spares w).safe (fun t : Keeper => t.Kept ∧ ¬AtHand t.held) ?_ ?_ ⟨hs, hspare⟩).mono fun _ _ ht => ht.1
  · intro β q t _ hq p b p' held' hclean hb
    exact clean_of_aside hq.1 hclean hb
  · intro β q t b t' ⟨ht, hspare⟩ hq ⟨p, p', _, hb, hnote, _⟩
    obtain ⟨hout, hspare'⟩ := hq.2 hspare hb
    rw [hnote]
    exact ⟨ht.same hout (hear_spare hspare b), hspare'⟩

/-- What leaves the account of a connection in order may be done with the newest connection held. -/
theorem maintains_onTop {w : Connection.Task α} (hlone : w.Asks Connection.Query.Lone)
    (hw : Maintains audit InOrder w) : Maintains borrowing Keeper.Kept (onTop w : Task α) := by
  intro s hs
  by_cases hhand : AtHand s.held
  · obtain ⟨wrap, m, rest, hwrap, hheld⟩ := atHand_cases hhand
    have horder := hs.inOrder
    rw [hheld, hwrap.out] at horder
    obtain ⟨a, accounts, hfirst, hrest, haccounts⟩ := List.forall₂_cons_left_iff.mp horder
    have htops : Tops wrap rest accounts ⟨m.connection, a⟩ s := ⟨⟨m.generation, hheld⟩, haccounts, hs.fair⟩
    refine (safe_onTopOut htops hwrap hrest.length_eq hlone (hw _ hfirst)).mono fun b t ht => ?_
    obtain ⟨u, ⟨⟨generation, hheld'⟩, haccounts', hfair⟩, hfirst'⟩ := ht
    refine ⟨?_, hfair⟩
    rw [hheld', hwrap.out, haccounts']
    exact .cons hfirst' hrest
  · exact safe_onTopSpare hs hhand

end Pool
end BoltClient
