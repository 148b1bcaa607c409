import BoltClient.Proofs.Connection.Dropping
import BoltClient.Proofs.Pool.Closing
import BoltClient.Proofs.Pool.Pristine

/-!
Deadlines on connections that are lent again. A pool sets deadlines of its own while it tries a connection out or
asks a router; they are gone before the connection can wait again, also where such work is dropped halfway. What a
borrower sets is not taken off: whoever is lent the connection next has it too.
-/

namespace BoltClient

namespace Opening

open Work

/-- Whatever the network says, an opener gives a connection without a deadline. -/
def Unhurried (opener : Pool.Opener) : Prop :=
  ∀ a deadline, (opener a deadline).run.Safe anything () fun r _ => ∀ c, r = .ok c → c.Unhurried

theorem establish_unhurried (s : Setting) (endpoint : Option Endpoint) (config : ConnectionConfig) :
    (s.establish endpoint config).run.Safe anything () fun r _ => ∀ c, r = .ok c → c.Unhurried :=
  establish_gives fun _ _ => (safe_anything _).mono fun _ _ _ _ => rfl

theorem reach_unhurried (config : ConnectionConfig) : Unhurried (reach config) :=
  reach_gives (P := fun _ c => c.Unhurried) fun s endpoint => establish_unhurried s endpoint config

end Opening

namespace Pool

open Work
open Connection (Gentle Session patient)

def Unhurried (p : Pool) : Prop := ∀ m ∈ p.idleMembers, m.connection.Unhurried

def AllUnhurried (held : List Holding) : Prop := ∀ c ∈ out held, c.Unhurried

def AllGentle (held : List Holding) : Prop := ∀ c ∈ out held, c.Gentle

variable {α β : Type} {p p' : Pool} {held held' rest : List Holding} {m : Member} {opener : Opener} {a : Address}
  {deadline : Deadline} {liveness : Option Duration}

theorem allUnhurried_nil : AllUnhurried [] := fun _ hc => absurd hc List.not_mem_nil

/-- It is only what is out that counts. -/
theorem AllUnhurried.of_out (h : AllUnhurried held) (hout : out held' = out held) : AllUnhurried held' := by
  intro c hc
  rw [hout] at hc
  exact h c hc

theorem AllUnhurried.gentle (h : AllUnhurried held) : AllGentle held := fun c hc => .inl (h c hc)

/-- A question that is answered at once, so that nobody can drop the work there. -/
def Query.AtOnce : {β : Type} → Query β → Prop
  | _, .edit _ => True
  | _, _ => False

/-- A connection on which an answer is due is not kept, so none is kept that has a deadline. -/
theorem unhurried_of_answer {q : Query β} {b : β} (hp : p.Unhurried) (hheld : q.AtOnce ∨ AllGentle held)
    (hb : Grip.Answers ⟨p, held⟩ q b ⟨p', held'⟩) : p'.Unhurried := by
  intro x hx
  cases q with
  | move k =>
    have hgentle : AllGentle held := hheld.resolve_left id
    obtain ⟨now, happly⟩ := hb
    have hidle := @idle_move β ⟨p, held⟩ x now k
    rw [happly] at hidle
    rcases hidle hx with hold | ⟨m, rest, hout, hkept, rfl⟩
    · exact hp x hold
    · have hpending : m.connection.pending = [] := (usable_of_keeps hkept).pending
      have hm : m.connection.Gentle := hgentle _ (hout ▸ List.mem_cons_self)
      exact hm.resolve_right fun hdue => hdue hpending
  | edit | transfer | waitForChange | waitForTurn | draw =>
    have hsame : p'.idleMembers = p.idleMembers := idle_of_aside (by exact trivial) hb
    rw [hsame] at hx
    exact hp x hx

/-- What work holds while others do anything with the pool but leave no deadline on what waits in it. Wherever the
work can be dropped, an answer has to be due on whatever has a deadline. -/
def leisurely : Surroundings Query (List Holding) where
  Answers held q b held' := ∃ p p', p.Tidy ∧ p.Unhurried ∧ Grip.Answers ⟨p, held⟩ q b ⟨p', held'⟩
  Allows held q := q.AtOnce ∨ AllGentle held

def Move.Eases : {β : Type} → Move β → Prop
  | _, .fulfil c => c.Unhurried
  | _, _ => True

theorem Move.Takes.unhurried {k : Move β} {c : Connection} (h : k.Takes p c) (hk : k.Eases) (hp : p.Unhurried) :
    c.Unhurried := by
  cases k with
  | takeIdle a =>
    obtain ⟨m, hm, rfl⟩ := h
    exact hp m hm
  | fulfil d =>
    obtain ⟨_, rfl⟩ := h
    exact hk
  | _ => exact h.elim

theorem leisurely_move {k : Move β} (hk : k.Eases) : Maintains leisurely AllUnhurried (move k : Task β) := by
  refine maintains_query (fun _ h => .inr h.gentle) ?_
  intro held b held' h hb
  obtain ⟨p, p', _, hp, now, happly⟩ := hb
  have hout := @out_move β ⟨p, held⟩ k now
  rw [happly] at hout
  rcases hout with hsame | ⟨d, htakes, hmore⟩ | ⟨d, hfewer⟩
  · exact h.of_out hsame
  · intro c hc
    rw [hmore] at hc
    rcases List.mem_cons.mp hc with rfl | hc
    · exact htakes.unhurried hk hp
    · exact h c hc
  · intro c hc
    have hmem : c ∈ out held := by
      rw [hfewer]
      exact List.mem_cons_of_mem d hc
    exact h c hmem

theorem leisurely_aside {q : Query β} (hout : ∀ {g g' : Grip} {b : β}, g.Answers q b g' → out g'.held = out g.held) :
    Maintains leisurely AllUnhurried (Work.query q) := by
  refine maintains_query (fun _ h => .inr h.gentle) ?_
  intro held b held' h hb
  obtain ⟨p, p', _, _, hb⟩ := hb
  exact h.of_out (hout hb)

section

variable {wrap : Member → Holding}

theorem allUnhurried_wrap (hwrap : IsOut wrap) :
    AllUnhurried (wrap m :: rest) ↔ m.connection.Unhurried ∧ AllUnhurried rest := by
  unfold AllUnhurried
  rw [hwrap.out]
  exact List.forall_mem_cons

theorem allGentle_wrap (hwrap : IsOut wrap) : AllGentle (wrap m :: rest) ↔ m.connection.Gentle ∧ AllGentle rest := by
  unfold AllGentle
  rw [hwrap.out]
  exact List.forall_mem_cons

/-- Work on a connection that is out goes as it goes on a connection of one's own, if an answer is due whenever it
waits with a deadline. -/
theorem safe_onTopLeisurely {t : Connection.Task α} {post : α → Session → Prop}
    (hstays : t.Asks Connection.Query.Stays) (hwrap : IsOut wrap) (hrest : AllUnhurried rest)
    (h : t.Safe patient ⟨m.connection, []⟩ post) :
    (onTop t : Task α).Safe leisurely (wrap m :: rest) fun b held' =>
      ∃ s : Session, held' = wrap { m with connection := s.connection } :: rest ∧ post b s := by
  have hgentle (s : Session) (hs : s.connection.Gentle) :
      AllGentle (wrap { m with connection := s.connection } :: rest) :=
    (allGentle_wrap hwrap).mpr ⟨hs, hrest.gentle⟩
  refine safe_onTopHeld ?_ (fun _ _ => .inl trivial) (fun q s hs => .inr (hgentle s hs)) (hwrap.imp_right .inl)
    hstays h rfl
  intro β q b held held' hb
  obtain ⟨p, p', _, _, hb⟩ := hb
  exact ⟨p, p', hb⟩

end

theorem leisurely_onTop {t : Connection.Task α} (hstays : t.Asks Connection.Query.Stays)
    (ht : ∀ s : Session, s.connection.Unhurried → t.Safe patient s fun _ u => u.connection.Unhurried) :
    Maintains leisurely AllUnhurried (onTop t : Task α) := by
  intro held hall
  by_cases hhand : AtHand held
  · obtain ⟨wrap, m, rest, hwrap, rfl⟩ := atHand_cases hhand
    obtain ⟨htop, hrest⟩ := (allUnhurried_wrap hwrap).mp hall
    have hsafe := safe_onTopLeisurely hstays hwrap hrest (ht ⟨m.connection, []⟩ htop)
    apply hsafe.mono
    intro b held' h
    obtain ⟨s, rfl, hs⟩ := h
    exact (allUnhurried_wrap hwrap).mpr ⟨hs, hrest⟩
  · have hsafe : (onTop t : Task α).Safe leisurely held fun _ held' => AllUnhurried held' ∧ ¬AtHand held' := by
      refine (onTop_spares t).safe (fun held' => AllUnhurried held' ∧ ¬AtHand held') (fun h _ => .inr h.1.gentle) ?_
        ⟨hall, hhand⟩
      intro β q held b held' h hq hb
      obtain ⟨p, p', _, _, hb⟩ := hb
      obtain ⟨hsame, hspare⟩ := hq.2 h.2 hb
      exact ⟨h.1.of_out hsame, hspare⟩
    exact hsafe.mono fun _ _ h => h.1

theorem leisurely_basics : Basics fun {α : Type} (w : Task α) => Maintains leisurely AllUnhurried w where
  toComposes := maintains_composes
  closing := leisurely_onTop Connection.close_stays fun _ hs =>
    Connection.patient_of_preserves Connection.unhurried_basics.closing hs
  tidying := leisurely_onTop tidy_stays fun _ hs =>
    Connection.patient_of_preserves (tidy_composes Connection.unhurried_basics) hs
  killing := leisurely_onTop Connection.stays_basics.killing fun _ hs =>
    Connection.patient_of_preserves Connection.unhurried_basics.killing hs
  trying idleTime deadline := leisurely_onTop (isAlive_stays idleTime deadline) fun _ hs =>
    isAlive_patient hs idleTime deadline
  looking _ := leisurely_move trivial
  checkingIn := leisurely_move trivial
  lettingGo := leisurely_move trivial
  detaching _ := leisurely_move trivial

/-- The newest thing held is a connection that has been lent. Nothing has a deadline, and nothing is to come on the
new connection unless it may have been tried out. -/
structure Handed (liveness : Option Duration) (held : List Holding) : Prop where
  unhurried : AllUnhurried held
  newest : ∃ m rest, held = .borrowed m :: rest ∧ (liveness = none → m.connection.pending = [])

theorem isHealthy_hands (hall : AllUnhurried (.borrowed m :: rest)) (hpending : m.connection.pending = []) :
    (isHealthy a deadline liveness).Safe leisurely (.borrowed m :: rest) fun _ held => Handed liveness held := by
  have hsame : Handed liveness (.borrowed m :: rest) := ⟨hall, m, rest, rfl, fun _ => hpending⟩
  unfold isHealthy
  apply Safe.andThen
  refine ⟨.inr hall.gentle, fun current held' hb => ?_⟩
  obtain ⟨p, p', _, _, now, hcurrent⟩ := hb
  obtain rfl : .borrowed m :: rest = held' := congrArg (Grip.held ∘ Prod.snd) hcurrent
  cases current with
  | false => exact hsame
  | true =>
    cases liveness with
    | none => exact hsame
    | some idleTime =>
      obtain ⟨htop, hrest⟩ := (allUnhurried_wrap (.inl rfl)).mp hall
      have htried := safe_onTopLeisurely (isAlive_stays idleTime deadline) (.inl rfl) hrest
        (isAlive_patient (s := ⟨m.connection, []⟩) htop idleTime deadline)
      apply htried.mono
      intro alive held' h
      obtain ⟨s, rfl, hs⟩ := h
      exact ⟨(allUnhurried_wrap (.inl rfl)).mpr ⟨hs, hrest⟩, _, rest, rfl, nofun⟩

theorem reuse_hands (hall : AllUnhurried held) : (reuse a deadline liveness).Safe leisurely held fun found held' =>
    if found then Handed liveness held' else AllUnhurried held' := by
  unfold reuse
  refine safe_iterate (fun _ held => AllUnhurried held) hall fun _ held hall => ?_
  apply Safe.andThen
  refine ⟨.inr hall.gentle, fun found held₁ hb => ?_⟩
  obtain ⟨p, p', htidy, hp, now, htake⟩ := hb
  simp only [Move.apply] at htake
  split at htake
  · next m _ hfound =>
    cases htake
    obtain ⟨_, _, hmem, _⟩ := mem_of_takeIdle hfound
    have hm : m ∈ p.idleMembers := hmem m List.mem_cons_self
    have htaken : AllUnhurried (.borrowed m :: held) := (allUnhurried_wrap (.inl rfl)).mpr ⟨hp m hm, hall⟩
    have hpending : m.connection.pending = [] := (htidy m hm).pending
    apply Safe.andThen
    apply (isHealthy_hands htaken hpending).mono
    intro healthy held' hhanded
    cases healthy with
    | true => exact hhanded
    | false =>
      have hclosed := leisurely_basics.closeAndRelease (leisurely_move trivial) _ hhanded.unhurried
      exact Safe.andThen (hclosed.mono fun _ _ h => h)
  · cases htake
    exact hall

section

variable (hneat : Opening.Neat opener) (hopener : Opening.Unhurried opener)

include hneat hopener

theorem openReserved_hands {generation : Nat} (hall : AllUnhurried held)
    (hplace : Grip.beneath held = .place a generation :: rest) :
    (openReserved opener a deadline).run.Safe leisurely held fun r held' =>
      match r with
      | .ok _ => Handed liveness held'
      | .error _ => AllUnhurried held' := by
  have hgives := (hneat a deadline).both (hopener a deadline) fun hb => hb
  have hopened : ((opener a deadline).run.via Query.transfer).Safe leisurely held fun r held' =>
      (AllUnhurried held' ∧ Grip.beneath held' = .place a generation :: rest) ∧
        (∀ c, r = .ok c → c.Idle) ∧ ∀ c, r = .ok c → c.Unhurried := by
    refine safe_opening (fun held => AllUnhurried held ∧ Grip.beneath held = .place a generation :: rest)
      (fun _ _ h => .inr h.1.gentle) ?_ hgives ⟨hall, hplace⟩
    intro β q held b held' h hb
    obtain ⟨p, p', _, _, hb⟩ := hb
    exact ⟨h.1.of_out (out_of_transfer hb), (Grip.beneath_of_transfer hb).trans h.2⟩
  apply safe_openReserved AllUnhurried (fun _ _ h => h) (leisurely_basics.deactivate a)
  apply hopened.mono
  intro r held' h
  obtain ⟨⟨hall, hplace⟩, hidle, hunhurried⟩ := h
  cases r with
  | error e => exact leisurely_move (k := .letGo) trivial held' hall
  | ok c =>
    have hout : out rest = out held' := by
      have hbeneath := out_beneath held'
      rw [hplace] at hbeneath
      exact hbeneath
    have hrest : AllUnhurried rest := hall.of_out hout
    refine ⟨.inr hall.gentle, fun _ held₂ hb => ?_⟩
    obtain ⟨p, p', _, _, now, hfulfil⟩ := hb
    obtain rfl := congrArg (Grip.held ∘ Prod.snd) hfulfil
    have hheld : (Grip.fulfil c p held').held = _ := Grip.held_fulfil hplace c p
    show Handed liveness (Grip.fulfil c p held').held
    rw [hheld]
    exact ⟨(allUnhurried_wrap (.inl rfl)).mpr ⟨hunhurried c rfl, hrest⟩, _, rest, rfl, fun _ => (hidle c rfl).pending⟩

theorem acquire_hands (hall : AllUnhurried held) :
    (acquire opener a deadline liveness).run.Safe leisurely held fun r held' =>
      match r with
      | .ok _ => Handed liveness held'
      | .error _ => AllUnhurried held' := by
  refine safe_acquire AllUnhurried hall (fun _ _ h => h) (leisurely_move (k := .enter) trivial)
    (fun t ht => (reuse_hands ht).mono fun found u hu => ?_) (fun t ht => ?_) fun t seen ht => ?_
  · cases found <;> exact hu
  · refine ⟨.inr ht.gentle, fun room u hb => ?_⟩
    obtain ⟨p, p', _, _, now, hreserve⟩ := hb
    have hplace := Grip.held_of_reserve hreserve
    cases room with
    | false =>
      obtain rfl : u = t := hplace
      exact ht
    | true =>
      obtain ⟨generation, rfl⟩ : ∃ generation, u = .place a generation :: t := hplace
      exact openReserved_hands hneat hopener ht rfl
  · exact leisurely_aside (fun hb => by cases hb.2; rfl) t ht

theorem acquire_leisurely (a : Address) (deadline : Deadline) (liveness : Option Duration) :
    Maintains leisurely AllUnhurried (acquire opener a deadline liveness).run := by
  intro held hall
  apply (acquire_hands hneat hopener hall).mono
  intro r held' h
  cases r with
  | ok => exact h.unhurried
  | error e => exact h

theorem call_leisurely (k : Call) : Maintains leisurely AllUnhurried (k.work opener) :=
  leisurely_basics.call (acquire_leisurely hneat hopener) (leisurely_move trivial) (leisurely_move trivial)
    (leisurely_move trivial) k

end

end Pool

namespace Routing.Cluster

open Work
open Connection (Session)
open Pool (AllUnhurried Handed allUnhurried_wrap leisurely leisurely_aside leisurely_basics leisurely_move
  safe_onTopLeisurely)

variable {c : Cluster} (hneat : Opening.Neat c.opener) (hopener : Opening.Unhurried c.opener)

include hneat hopener

/-- The deadline for asking a router is gone when the router has been asked, and until then an answer is due. -/
theorem askRouter_leisurely (router : Address) (q : Inquiry) :
    Maintains leisurely AllUnhurried (c.askRouter router q).run := by
  have hlimit (d : Deadline) : (Connection.change fun x => { x with deadline := d } : Connection.Task Unit).Asks
      Connection.Query.Stays := Connection.asks_edit fun _ _ => rfl
  intro held hall
  unfold askRouter
  refine Safe.orFail ((Pool.acquire_hands hneat hopener hall).mono fun r _ hr => ?_)
  cases r with
  | error e => exact hr
  | ok =>
    obtain ⟨hall, m, rest, rfl, hpending⟩ := hr
    obtain ⟨_, hrest⟩ := (allUnhurried_wrap (.inl rfl)).mp hall
    have hset : (Connection.change fun x => { x with deadline := q.deadline } : Connection.Task Unit).Safe
        Connection.patient ⟨m.connection, []⟩ fun _ s => s.connection.pending = [] :=
      Session.safe_edit fun _ => hpending rfl
    refine Safe.orFail (Safe.map ((safe_onTopLeisurely (hlimit _) (.inl rfl) hrest hset).mono ?_))
    rintro _ _ ⟨s, rfl, hs⟩
    -- Nothing was due when the connection was lent, so what is waited for from here on is the answer of the router.
    have hunreset : s.connection.Unreset := by
      intro x hx
      rw [hs] at hx
      cases hx
    have hroute := Connection.patient_of_expecting
      (Connection.route_expects (s := ⟨s.connection, []⟩) c.context q.bookmarks q.database q.user hunreset)
    refine Safe.orFail (Safe.map ((safe_onTopLeisurely (Connection.route_stays _ _ _ _) (.inl rfl) hrest
      hroute).mono ?_))
    rintro answer _ ⟨u, rfl, _⟩
    have hclear : (Connection.change fun x => { x with deadline := .never } : Connection.Task Unit).Safe
        Connection.patient ⟨u.connection, []⟩ fun _ s => s.connection.Unhurried := Session.safe_edit fun _ => rfl
    refine Safe.orFail (Safe.map ((safe_onTopLeisurely (hlimit _) (.inl rfl) hrest hclear).mono ?_))
    rintro _ _ ⟨v, rfl, hv⟩
    have hall := (allUnhurried_wrap (m := { m with connection := v.connection }) (.inl rfl)).mpr ⟨hv, hrest⟩
    exact Safe.orFail (Safe.map ((leisurely_basics.release _ hall).mono fun _ _ h => h))

theorem leisurely_parts : c.Parts fun {α : Type} (w : Pool.Task α) => Maintains leisurely AllUnhurried w where
  toBasics := leisurely_basics
  acquiring := Pool.acquire_leisurely hneat hopener
  asking := askRouter_leisurely hneat hopener
  timing := leisurely_aside fun hb => by cases hb; rfl
  discarding _ := leisurely_move trivial
  awaiting := leisurely_aside fun hb => by cases hb.2; rfl
  drawing := leisurely_aside fun hb => by cases hb; rfl
  consulting {β k} hk := by
    have heases : k.Eases := by
      cases k with
      | fulfil d => exact hk.elim
      | _ => exact trivial
    exact leisurely_move heases

theorem acquire_hands {mode : AccessMode} {q : Inquiry} {liveness : Option Duration} {held : List Holding}
    (hall : AllUnhurried held) : (c.acquire mode q liveness).run.Safe leisurely held fun r held' =>
      match r with
      | .ok _ => Handed liveness held'
      | .error _ => AllUnhurried held' := by
  have h := leisurely_parts hneat hopener
  unfold acquire
  refine Safe.orFail ((h.ensureFresh _ q _ hall).mono fun r held hall => ?_)
  cases r with
  | error e => exact hall
  | ok =>
    refine safe_iterateOrFail (fun _ held => AllUnhurried held) hall fun _ held hall => ?_
    refine Safe.orFail (Safe.map ((h.drawing _ hall).mono fun choice held hall => ?_))
    have hselect := h.consulting (m := .select (roleFor mode) q.database choice) trivial
    refine Safe.orFail (Safe.map ((hselect _ hall).mono fun selected held hall => ?_))
    cases selected with
    | none => exact hall
    | some a =>
      refine Safe.orElse (Safe.orFail ((Pool.acquire_hands hneat hopener hall).mono fun r held hr => ?_))
      cases r with
      | ok => exact hr
      | error e =>
        dsimp only
        split
        · exact Safe.orFail (Safe.map ((h.giveUp a _ hr).mono fun _ _ h => h))
        · exact hr

end Routing.Cluster

namespace Pool

open Work
open Routing (Cluster)

/-- Where work can be dropped: nothing is under way, or it waits for an answer. -/
def Droppable : Task α → Prop
  | .done _ => True
  | .ask q _ => ¬q.AtOnce
  | .loop .. => False

/-- What somebody can do next who leaves no deadline behind. Deadlines may be set and taken off again as long as
everything goes its way; whoever is dropped meanwhile leaves one only where an answer is due. -/
inductive Party.Considerate (opener : Opener) : Party × Pool → Party × Pool → Prop where
  | call {held : List Holding} {p : Pool} (k : Call) :
      Considerate opener (⟨.done (), held⟩, p) (⟨k.work opener, held⟩, p)
  | inquire {held : List Holding} {p : Pool} (resolver : Resolver) (context : Entries Value) (k : Cluster.Call) :
      Considerate opener (⟨.done (), held⟩, p) (⟨k.work ⟨opener, resolver, context⟩, held⟩, p)
  | goOn {w w' : Task Unit} {held held' : List Holding} {p p' : Pool}
      (h : Work.Step Grip.surroundings (w, ⟨p, held⟩) (w', ⟨p', held'⟩)) :
      Considerate opener (⟨w, held⟩, p) (⟨w', held'⟩, p')
  /-- A connection is used in some way, and no deadline is left. -/
  | use {m : Member} {held : List Holding} {p : Pool} (c : Connection) (hc : c.address = m.connection.address)
      (hunhurried : c.Unhurried) :
      Considerate opener (⟨.done (), .borrowed m :: held⟩, p)
        (⟨.done (), .borrowed { m with connection := c } :: held⟩, p)
  /-- A connection is used in some way, and its handle is dropped meanwhile. -/
  | leave {m : Member} {held : List Holding} {p : Pool} (c : Connection) (hc : c.address = m.connection.address)
      (hgentle : c.Gentle) :
      Considerate opener (⟨.done (), .borrowed m :: held⟩, p)
        (⟨letGoAll 1, .borrowed { m with connection := c } :: held⟩, p)
  | quit {w : Task Unit} {held : List Holding} {p : Pool} (h : Droppable w) :
      Considerate opener (⟨w, held⟩, p) (⟨letGoAll held.length, held⟩, p)

/-- Somebody comes, or one of those who leave no deadline behind does something. -/
inductive Crowd.Considerate (opener : Opener) : Crowd → Crowd → Prop where
  | join {p : Pool} {parties : List Party} : Considerate opener ⟨p, parties⟩ ⟨p, {} :: parties⟩
  | turn {before after : List Party} {x x' : Party} {p p' : Pool} (h : Party.Considerate opener (x, p) (x', p')) :
      Considerate opener ⟨p, before ++ x :: after⟩ ⟨p', before ++ x' :: after⟩

def Crowd.Behaves (opener : Opener) : Crowd → Crowd → Prop := Relation.ReflTransGen (Crowd.Considerate opener)

/-- No deadline is on a connection that waits, and whatever is under way leaves none. -/
structure Crowd.Leisurely (c : Crowd) : Prop where
  tidy : c.pool.Tidy
  unhurried : c.pool.Unhurried
  safe : ∀ x ∈ c.parties, x.work.Safe leisurely x.held fun _ held => AllUnhurried held

variable {x x' : Party} {c c' : Crowd} {v v' : Venture α}

/-- Wherever work can be dropped, an answer is due on whatever has a deadline. -/
theorem gentle_of_safe {w : Task Unit} (hw : w.Safe leisurely held fun _ held => AllUnhurried held)
    (hdroppable : Droppable w) : AllGentle held := by
  cases w with
  | done => exact AllUnhurried.gentle hw
  | ask q next => exact hw.1.resolve_left hdroppable
  | loop => exact hdroppable.elim

theorem letGoAll_leisurely (n : Nat) (hn : held.length ≤ n) (hgentle : AllGentle held) :
    (letGoAll n).Safe leisurely held fun _ held' => AllUnhurried held' := by
  refine (safe_letGoAllOf (R := leisurely) (J := AllGentle) ?_ (fun h => .inr h) ?_ n hn hgentle).mono ?_
  · rintro held b held' ⟨p, p', _, _, hb⟩
    exact ⟨p, p', hb⟩
  · exact fun h hsub c hc => h c (List.filterMap_subset Holding.out? hsub hc)
  · rintro _ _ rfl
    exact allUnhurried_nil

namespace Party.Considerate

theorem change (h : Considerate opener (x, p) (x', p')) : Change p p' := by
  cases h with
  | goOn hstep =>
    cases hstep with
    | answer hb => exact Grip.change_of_answers hb
    | round => exact .slots rfl rfl rfl
  | call | inquire | use | leave | quit => exact .slots rfl rfl rfl

theorem keeps (h : Considerate opener (x, p) (x', p')) (hneat : Opening.Neat opener)
    (hopener : Opening.Unhurried opener) (htidy : p.Tidy) (hp : p.Unhurried)
    (hsafe : x.work.Safe leisurely x.held fun _ held => AllUnhurried held) :
    p'.Unhurried ∧ x'.work.Safe leisurely x'.held fun _ held => AllUnhurried held := by
  cases h with
  | call k => exact ⟨hp, call_leisurely hneat hopener k _ hsafe⟩
  | inquire resolver context k => exact ⟨hp, (Cluster.leisurely_parts hneat hopener).call k _ hsafe⟩
  | @goOn w w' held held' _ _ hstep =>
    cases hstep with
    | answer hb => exact ⟨unhurried_of_answer hp hsafe.1 hb, hsafe.2 _ _ ⟨p, p', htidy, hp, hb⟩⟩
    | round => exact ⟨hp, hsafe.round⟩
  | use c _ hunhurried =>
    obtain ⟨_, hrest⟩ := (allUnhurried_wrap (.inl rfl)).mp hsafe
    exact ⟨hp, (allUnhurried_wrap (.inl rfl)).mpr ⟨hunhurried, hrest⟩⟩
  | leave c _ hgentle =>
    obtain ⟨_, hrest⟩ := (allUnhurried_wrap (.inl rfl)).mp hsafe
    refine ⟨hp, Safe.andThen ⟨.inr ((allGentle_wrap (.inl rfl)).mpr ⟨hgentle, hrest.gentle⟩), ?_⟩⟩
    rintro _ _ ⟨_, _, _, _, _, hletGo⟩
    cases hletGo
    exact hrest
  | quit hdroppable =>
    exact ⟨hp, letGoAll_leisurely _ (Nat.le_refl _) (gentle_of_safe hsafe hdroppable)⟩

end Party.Considerate

section

variable (hneat : Opening.Neat opener) (hopener : Opening.Unhurried opener)

include hneat hopener

theorem Crowd.Considerate.keeps (h : Crowd.Considerate opener c c') (hc : c.Leisurely) : c'.Leisurely := by
  cases h with
  | join =>
    refine ⟨hc.tidy, hc.unhurried, fun x hx => ?_⟩
    rcases List.mem_cons.mp hx with rfl | hx
    · exact allUnhurried_nil
    · exact hc.safe x hx
  | turn hx =>
    obtain ⟨hunhurried, hsafe⟩ := hx.keeps hneat hopener hc.tidy hc.unhurried (hc.safe _ (by simp))
    exact ⟨hx.change.tidy hc.tidy, hunhurried, Crowd.forall_turn hc.safe hsafe⟩

theorem Crowd.Behaves.keeps (h : Crowd.Behaves opener c c') (hc : c.Leisurely) : c'.Leisurely := by
  induction h with
  | refl => exact hc
  | tail _ hstep ih => exact hstep.keeps hneat hopener ih

theorem Venture.Step.leisurely {post : α → List Holding → Prop} (h : Venture.Step (Crowd.Considerate opener) v v')
    (hc : v.crowd.Leisurely) (hsafe : v.work.Safe leisurely v.held post) :
    v'.crowd.Leisurely ∧ v'.work.Safe leisurely v'.held post := by
  cases h with
  | others h => exact ⟨h.keeps hneat hopener hc, hsafe⟩
  | own h =>
    cases h with
    | answer hb =>
      have hpool := unhurried_of_answer hc.unhurried hsafe.1 hb
      exact ⟨⟨(Grip.change_of_answers hb).tidy hc.tidy, hpool, hc.safe⟩,
        hsafe.2 _ _ ⟨_, _, hc.tidy, hc.unhurried, hb⟩⟩
    | round => exact ⟨hc, hsafe.round⟩

theorem Venture.Reaches.leisurely {post : α → List Holding → Prop}
    (h : Venture.Reaches (Crowd.Considerate opener) v v') (hc : v.crowd.Leisurely)
    (hsafe : v.work.Safe leisurely v.held post) :
    v'.crowd.Leisurely ∧ v'.work.Safe leisurely v'.held post := by
  induction h with
  | refl => exact ⟨hc, hsafe⟩
  | tail _ hstep ih => exact hstep.leisurely hneat hopener ih.1 ih.2

/-- Work that hands a connection out among those who leave no deadline behind hands it out without one. -/
theorem hands_unhurried {post : Except Error Unit → List Holding → Prop} {v v' : Venture (Except Error Unit)}
    (h : Venture.Reaches (Crowd.Considerate opener) v v') (hc : v.crowd.Leisurely)
    (hwork : v.work.Safe leisurely v.held post) (hpost : ∀ held, post (.ok ()) held → Handed liveness held)
    (hdone : v'.work = .done (.ok ())) :
    ∃ m rest, v'.held = .borrowed m :: rest ∧ m.connection.deadline = .never := by
  have hhanded := (h.leisurely hneat hopener hc hwork).2
  rw [hdone] at hhanded
  obtain ⟨hall, m, rest, hheld, _⟩ := hpost v'.held hhanded
  rw [hheld] at hall
  exact ⟨m, rest, hheld, ((allUnhurried_wrap (.inl rfl)).mp hall).1⟩

end

/-- Nobody is there yet. -/
theorem start_leisurely (limit : Option Nat) (directory : Option Routing.Directory) :
    Crowd.Leisurely ⟨{ limit := limit, directory := directory }, []⟩ where
  tidy := fun _ hm => absurd hm List.not_mem_nil
  unhurried := fun _ hm => absurd hm List.not_mem_nil
  safe := fun _ hx => absurd hx List.not_mem_nil

/-- The deadlines that a pool sets itself do not stay: while those who borrow leave none behind, no connection that
waits has one, and none that is lent, whichever way it is acquired, by whatever deadline and whether or not it is
tried out. Trying out, asking a router and opening may be dropped wherever they wait. -/
theorem lent_unhurried (opener : Opener) (hneat : Opening.Neat opener) (hopener : Opening.Unhurried opener)
    (limit : Option Nat) (directory : Option Routing.Directory) (crowd : Crowd)
    (hcrowd : Crowd.Behaves opener ⟨{ limit := limit, directory := directory }, []⟩ crowd) (held : List Holding)
    (hheld : AllUnhurried held) :
    (∀ m ∈ crowd.pool.idleMembers, m.connection.deadline = .never) ∧
    (∀ a deadline liveness v,
      Venture.Reaches (Crowd.Considerate opener) ⟨crowd, held, (acquire opener a deadline liveness).run⟩ v →
      v.work = .done (.ok ()) → ∃ m rest, v.held = .borrowed m :: rest ∧ m.connection.deadline = .never) ∧
    ∀ resolver context mode q liveness v,
      Venture.Reaches (Crowd.Considerate opener)
        ⟨crowd, held, (Cluster.acquire ⟨opener, resolver, context⟩ mode q liveness).run⟩ v →
      v.work = .done (.ok ()) → ∃ m rest, v.held = .borrowed m :: rest ∧ m.connection.deadline = .never := by
  have hleisurely : crowd.Leisurely := hcrowd.keeps hneat hopener (start_leisurely limit directory)
  refine ⟨hleisurely.unhurried, fun a deadline liveness v hv hdone => ?_,
    fun resolver context mode q liveness v hv hdone => ?_⟩
  · exact hands_unhurried hneat hopener hv hleisurely (acquire_hands hneat hopener hheld) (fun _ h => h) hdone
  · exact hands_unhurried hneat hopener hv hleisurely (Cluster.acquire_hands hneat hopener hheld) (fun _ h => h) hdone

theorem prompt_unhurried : Opening.Unhurried prompt := by
  rintro a deadline c ⟨⟩
  exact rfl

def Crowd.alone (x : Task Unit × Grip) : Crowd := ⟨x.2.pool, [⟨x.1, x.2.held⟩]⟩

def lentOut : Pool := { slots := [{ address := default, inUse := 1 }] }

theorem acquires_first : Leads Grip.surroundings ((Call.acquire default .never none).work prompt, ⟨{}, []⟩)
    (.done (), ⟨lentOut, [.borrowed ⟨readyFor default, 0⟩]⟩) := by
  refine .head .round ?_
  refine .head (.answer (b := some 0) ⟨.start, rfl⟩) ?_
  refine .head .round ?_
  refine .head (.answer (b := false) ⟨.start, rfl⟩) ?_
  refine .head (.answer (b := true) ⟨.start, rfl⟩) ?_
  refine .head (.answer ⟨.start, rfl⟩) ?_
  exact .refl

/-- A connection that came back is lent again. -/
theorem stocked_lent_unhurried : ∃ v : Venture (Except Error Unit),
    Venture.Reaches (Crowd.Considerate prompt) ⟨stocked, [], (acquire prompt default .never none).run⟩ v ∧
    v.work = .done (.ok ()) ∧ ∃ m rest, v.held = .borrowed m :: rest ∧ m.connection.deadline = .never := by
  have hone {x x' : Party} {p p' : Pool} (h : Party.Considerate prompt (x, p) (x', p')) :
      Crowd.Considerate prompt ⟨p, [x]⟩ ⟨p', [x']⟩ := @Crowd.Considerate.turn _ [] [] _ _ _ _ h
  have hfirst := acquires_first.lift Crowd.alone fun _ _ h => hone (.goOn h)
  have hcrowd : Crowd.Behaves prompt ⟨{}, []⟩ stocked := by
    refine .head .join (.head (hone (.call (.acquire default .never none))) (hfirst.trans ?_))
    refine .head (hone (.quit trivial)) (.head (hone (.goOn (.answer ⟨.start, rfl⟩))) ?_)
    exact .refl
  have hrun : ∃ v : Venture (Except Error Unit),
      Venture.Reaches (Crowd.Considerate prompt) ⟨stocked, [], (acquire prompt default .never none).run⟩ v ∧
      v.work = .done (.ok ()) := by
    refine ⟨?v, ?run, ?done⟩
    case run =>
      refine .head (.own .round) ?_
      refine .head (.own (.answer (b := some 1) ⟨.start, rfl⟩)) ?_
      refine .head (.own .round) ?_
      refine .head (.own (.answer (b := true) ⟨.start, rfl⟩)) ?_
      refine .head (.own (.answer (b := true) ⟨.start, rfl⟩)) ?_
      exact .refl
    case done => rfl
  obtain ⟨v, hrun, hdone⟩ := hrun
  have hlent := (lent_unhurried prompt prompt_neat prompt_unhurried none none stocked hcrowd [] allUnhurried_nil).2.1
    default .never none v hrun hdone
  exact ⟨v, hrun, hdone, hlent⟩

/-- Where connections are opened over the network, none that waits has a deadline, and none that is acquired for an
address or for a query, whatever the configuration and whatever servers and name services say. -/
theorem reached_unhurried (config : ConnectionConfig) (limit : Option Nat) (directory : Option Routing.Directory)
    (hrun : Crowd.Behaves (Opening.reach config) ⟨{ limit := limit, directory := directory }, []⟩ c) :
    (∀ m ∈ c.pool.idleMembers, m.connection.deadline = .never) ∧
    (∀ v, Venture.Reaches (Crowd.Considerate (Opening.reach config))
        ⟨c, [], (acquire (Opening.reach config) a deadline liveness).run⟩ v →
      v.work = .done (.ok ()) → ∃ m rest, v.held = .borrowed m :: rest ∧ m.connection.deadline = .never) ∧
    ∀ resolver context mode q v, Venture.Reaches (Crowd.Considerate (Opening.reach config))
        ⟨c, [], (Cluster.acquire ⟨Opening.reach config, resolver, context⟩ mode q liveness).run⟩ v →
      v.work = .done (.ok ()) → ∃ m rest, v.held = .borrowed m :: rest ∧ m.connection.deadline = .never := by
  have hneat := Opening.reach_neat config
  have hopener := Opening.reach_unhurried config
  have hleisurely : c.Leisurely := hrun.keeps hneat hopener (start_leisurely limit directory)
  refine ⟨hleisurely.unhurried, fun v hv hdone => ?_, fun resolver context mode q v hv hdone => ?_⟩
  · exact hands_unhurried hneat hopener hv hleisurely (acquire_hands hneat hopener allUnhurried_nil)
      (fun _ h => h) hdone
  · exact hands_unhurried hneat hopener hv hleisurely (Cluster.acquire_hands hneat hopener allUnhurried_nil)
      (fun _ h => h) hdone

def hurried : Connection := { readyFor default with deadline := .after .start (.ofMillis 50) }

/-- A pool in which such a connection waits, and whoever has used it. -/
def stockedInHurry : Crowd :=
  ⟨{ slots := [{ address := default, idle := [⟨hurried, 0⟩] }], changes := 1 }, [{}]⟩

theorem reaches_stockedInHurry : Crowd.Reaches prompt ⟨{}, []⟩ stockedInHurry := by
  have hone {x x' : Party} {p p' : Pool} (h : Party.Step prompt (x, p) (x', p')) :
      Crowd.Step prompt ⟨p, [x]⟩ ⟨p', [x']⟩ := .first h
  have hfirst := acquires_first.lift Crowd.alone fun _ _ h => hone (.goOn h)
  refine .head .join (.head (.first (.call (.acquire default .never none))) (hfirst.trans ?_))
  refine .head (.first (.use hurried rfl)) ?_
  refine .head (.first .quit) (.head (.first (.goOn (.answer ⟨.start, rfl⟩))) ?_)
  exact .refl

/-- Not every connection that waited in the pool and is handed out is without a deadline. -/
theorem not_all_lent_unhurried : ¬∀ (opener : Opener) (limit : Option Nat) (directory : Option Routing.Directory)
    (crowd : Crowd), Crowd.Reaches opener ⟨{ limit := limit, directory := directory }, []⟩ crowd →
    ∀ (a : Address) (deadline : Deadline) (liveness : Option Duration) (e : Errand),
    Errand.Reaches opener ⟨crowd, (acquire opener a deadline liveness).run, {}⟩ e →
    e.work = .done (.ok ()) → ∀ c, e.loan.taken = some c →
    ∀ m rest, e.loan.held = .borrowed m :: rest → m.connection.deadline = .never := by
  intro h
  have hrun : ∃ e, Errand.Reaches prompt ⟨stockedInHurry, (acquire prompt default .never none).run, {}⟩ e ∧
      e.work = .done (.ok ()) ∧ e.loan.taken = some hurried ∧ e.loan.held = [.borrowed ⟨hurried, 0⟩] := by
    refine ⟨?e, ?run, ?done, ?taken, ?held⟩
    case run =>
      refine .head .round ?_
      refine .head (.answer (b := some 1) ⟨.start, rfl⟩) ?_
      refine .head .round ?_
      refine .head (.answer (b := true) ⟨.start, rfl⟩) ?_
      refine .head (.answer (b := true) ⟨.start, rfl⟩) ?_
      exact .refl
    case done => rfl
    case taken => rfl
    case held => rfl
  obtain ⟨e, hrun, hdone, htaken, hheld⟩ := hrun
  have hnever : hurried.deadline = .never := h prompt none none stockedInHurry reaches_stockedInHurry default .never
    none e hrun hdone hurried htaken ⟨hurried, 0⟩ [] hheld
  exact absurd hnever (by decide)

end Pool
end BoltClient
