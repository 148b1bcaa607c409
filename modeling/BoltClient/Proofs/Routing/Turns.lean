import BoltClient.Proofs.Routing.Serving

/-!
Servers taken in turn. The turns of a pool are counted together, whichever role and database they are for; a
selection takes the server whose place is the number of turns before it. So servers of a role come round once each
as long as the selections are for that role alone, and otherwise exactly if the turns in between leave them different
remainders.
-/

namespace BoltClient

namespace Routing

variable {selector : Selector} {d : Directory}

/-- In turn, the server whose place is the number of turns so far is taken, and one more turn is over. Nobody takes
no turn. -/
theorem Selector.select_inTurn (hpolicy : selector.policy = .roundRobin) (count : Address → Nat) (choice : Nat)
    (addresses : List Address) : selector.select count choice addresses
      = (addresses[selector.turn.toNat % addresses.length]?,
        if addresses = [] then selector else { selector with turn := selector.turn + 1 }) := by
  have hcandidates : selector.candidates count addresses
      = (addresses[selector.turn.toNat % addresses.length]?).toList := by
    unfold candidates
    rw [hpolicy]
  unfold select
  dsimp only
  rw [hcandidates, hpolicy]
  cases addresses with
  | nil => rfl
  | cons a rest =>
    have hplace : selector.turn.toNat % (a :: rest).length < (a :: rest).length := Nat.mod_lt _ (by simp)
    rw [List.getElem?_eq_getElem hplace]
    simp [Nat.mod_one]

theorem Directory.select_inTurn (hpolicy : d.selector.policy = .roundRobin) (role : Role)
    (database : Option String) (count : Address → Nat) (choice : Nat) :
    (d.select role database count choice).1
        = (d.serving role database)[d.selector.turn.toNat % (d.serving role database).length]? ∧
      (d.select role database count choice).2.selector
        = if d.serving role database = [] then d.selector else { d.selector with turn := d.selector.turn + 1 } := by
  unfold Directory.select Directory.serving
  cases d.table? database with
  | none => exact ⟨rfl, rfl⟩
  | some t =>
    dsimp only [Option.map_some, Option.getD_some]
    rw [Selector.select_inTurn hpolicy]
    exact ⟨rfl, rfl⟩

theorem Directory.selector_heedAll (d : Directory) (a : Address) (fs : List Feedback) :
    (fs.foldl (Directory.heed a) d).selector = d.selector := by
  induction fs generalizing d with
  | nil => rfl
  | cons f rest ih =>
    rw [List.foldl_cons, ih]
    cases f <;> rfl

end Routing

namespace Pool

open Routing (Directory Role Selector)

variable {p q : Pool} {g g' : Grip} {m : Member} {β : Type}

def selector? (p : Pool) : Option Selector := p.directory.map (·.selector)

theorem selector?_of_map {f : Directory → Directory} (h : q.directory = p.directory.map f)
    (hf : ∀ d, (f d).selector = d.selector) : q.selector? = p.selector? := by
  unfold selector?
  rw [h, Option.map_map]
  congr 1
  funext d
  exact hf d

theorem selector?_checkIn (p : Pool) (m : Member) (now : Instant) : (p.checkIn m now).2.selector? = p.selector? :=
  selector?_of_map (directory_checkIn now) fun d => d.selector_heedAll m.connection.address m.connection.feedback

theorem selector?_letGo (p : Pool) (now : Instant) (x : Holding) : (p.letGo now x).selector? = p.selector? := by
  cases x with
  | borrowed m => exact selector?_checkIn p _ now
  | place a generation => exact congrArg (Option.map _) (directory_abandon p a generation)
  | parting | loose | wire | turn => rfl

theorem selector?_letGoHeld (now : Instant) (p : Pool) (held : List Holding) :
    (Grip.letGo now p held).pool.selector? = p.selector? := by
  induction held with
  | nil => rfl
  | cons x held ih =>
    have hone : (p.letGo now x).selector? = p.selector? := selector?_letGo p now x
    cases x with
    | wire link => exact ih
    | borrowed | parting | loose | place | turn => exact hone

def Query.Unselecting : {β : Type} → Query β → Prop
  | _, .move (.select ..) => False
  | _, _ => True

theorem selector?_move {m : Move β} (hm : (Query.move m).Unselecting) (now : Instant) (g : Grip) :
    (m.apply now g).2.pool.selector? = g.pool.selector? := by
  cases m with
  | select => exact hm.elim
  | enter | announce | serves | strangers | markAllStale | shut => rfl
  | isFresh role database => exact selector?_of_map rfl fun d => (d.purge now).selector_ensure database now
  | routers database => exact selector?_of_map rfl fun d => d.selector_ensure database now
  | store requested t =>
    refine selector?_of_map rfl fun d => (Directory.selector_store _ requested t now).trans ?_
    split
    · rfl
    · exact d.selector_store t.database t now
  | discard a => exact selector?_of_map rfl fun _ => rfl
  | discardWriter a database => exact selector?_of_map rfl fun _ => rfl
  | detach a => exact congrArg (Option.map _) directory_detach
  | letGo => exact selector?_letGoHeld now g.pool g.held
  | fulfil c => exact congrArg (Option.map _) (directory_fulfilHeld c g.pool g.held)
  | takeIdle a =>
    simp only [Move.apply]
    cases htake : g.pool.takeIdle a with
    | none => rfl
    | some r => exact congrArg (Option.map _) (directory_takeIdle htake)
  | isCurrent a | part =>
    simp only [Move.apply]
    split <;> rfl
  | reserve a =>
    have hreserve := directory_reserve g.pool a
    simp only [Move.apply]
    generalize g.pool.reserve a = r at hreserve ⊢
    obtain ⟨_ | generation, q⟩ := r
    · exact congrArg (Option.map _) hreserve
    · exact congrArg (Option.map _) hreserve
  | checkIn =>
    simp only [Move.apply]
    split
    · exact selector?_checkIn g.pool _ now
    · exact selector?_checkIn g.pool _ now
    · rfl

/-- Only a selection has a hand in whose turn it is. -/
theorem selector?_answer {ask : Query β} {b : β} (hask : ask.Unselecting) (hb : g.Answers ask b g') :
    g'.pool.selector? = g.pool.selector? := by
  cases ask with
  | move m =>
    obtain ⟨now, happly⟩ := hb
    have hmove := selector?_move hask now g
    rw [happly] at hmove
    exact hmove
  | edit f =>
    obtain ⟨_, _, _, rfl⟩ := hb
    rfl
  | transfer | draw =>
    obtain rfl : g' = _ := hb
    rfl
  | waitForChange | waitForTurn =>
    obtain ⟨_, rfl⟩ := hb
    rfl

def turns (p : Pool) : Nat := (p.selector?.map (·.turn.toNat)).getD 0

structure Pick where
  database : Option String
  role : Role
  /-- The turns taken before. -/
  turn : Nat
  address : Option Address
  deriving DecidableEq

/-- From one pool to another some selections are made, and whatever else anybody at work with the pool asks. The
tables list the same servers at every selection. -/
inductive Course (servers : Option String → Role → List Address) : Pool → List Pick → Pool → Prop where
  | done (p : Pool) : Course servers p [] p
  | picked {p q r : Pool} {held held' : List Holding} {database : Option String} {role : Role} {choice : Nat}
      {a : Option Address} {picks : List Pick} (hservers : p.serving role database = servers database role)
      (hb : Grip.Answers ⟨p, held⟩ (.move (.select role database choice)) a ⟨q, held'⟩)
      (hrest : Course servers q picks r) : Course servers p (⟨database, role, p.turns, a⟩ :: picks) r
  | other {p q r : Pool} {held held' : List Holding} {β : Type} {ask : Query β} {b : β} {picks : List Pick}
      (hask : ask.Unselecting) (hb : Grip.Answers ⟨p, held⟩ ask b ⟨q, held'⟩) (hrest : Course servers q picks r) :
      Course servers p picks r

/-- Selections that follow the count of the turns. -/
structure InTurn (servers : Option String → Role → List Address) (start : Nat) (picks : List Pick) : Prop where
  first : ∀ x ∈ picks.head?, x.turn = start
  next : picks.IsChain fun x y => y.turn = x.turn + if servers x.database x.role = [] then 0 else 1
  address : ∀ x ∈ picks, x.address = (servers x.database x.role)[x.turn % (servers x.database x.role).length]?

section

variable {servers : Option String → Role → List Address} {picks window : List Pick} {database : Option String}
  {role : Role} {choice : Nat} {a : Option Address} {s : Selector} {held held' : List Holding}

theorem selected_inTurn (hs : p.selector? = some s) (hpolicy : s.policy = .roundRobin)
    (hb : Grip.Answers ⟨p, held⟩ (.move (.select role database choice)) a ⟨q, held'⟩) :
    a = (p.serving role database)[s.turn.toNat % (p.serving role database).length]? ∧
      q.selector? = some (if p.serving role database = [] then s else { s with turn := s.turn + 1 }) := by
  obtain ⟨d, hd, rfl⟩ := Option.map_eq_some_iff.mp hs
  obtain ⟨now, happly⟩ := hb
  simp only [Move.apply, hd] at happly
  obtain ⟨rfl, hgrip⟩ := Prod.mk.inj happly
  obtain ⟨rfl, rfl⟩ := Grip.mk.inj hgrip
  obtain ⟨haddress, hselector⟩ := d.select_inTurn hpolicy role database p.inUse choice
  have hserving : p.serving role database = d.serving role database := by
    unfold Pool.serving
    rw [hd]
    rfl
  rw [hserving]
  exact ⟨haddress, congrArg some hselector⟩

/-- One selection after another: whatever is asked in between, the turns go on from where they were. -/
theorem Course.inTurn (h : Course servers p picks q) (hs : p.selector? = some s) (hpolicy : s.policy = .roundRobin)
    (hbelow : s.turn.toNat + picks.length < 2 ^ 64) : InTurn servers s.turn.toNat picks := by
  induction h generalizing s with
  | done p => exact ⟨nofun, .nil, nofun⟩
  | other hask hb _ ih =>
    have hsame := selector?_answer hask hb
    exact ih (hsame.trans hs) hpolicy hbelow
  | @picked p q r held held' database role choice a picks hservers hb _ ih =>
    obtain ⟨haddress, hselector⟩ := selected_inTurn hs hpolicy hb
    rw [hservers] at haddress hselector
    rw [List.length_cons] at hbelow
    have hturns : p.turns = s.turn.toNat := by
      unfold turns
      rw [hs]
      rfl
    -- the count does not wrap around, so the next turn is one more
    have hnext : (if servers database role = [] then s else { s with turn := s.turn + 1 }).turn.toNat
        = s.turn.toNat + if servers database role = [] then 0 else 1 := by
      split
      · rfl
      · have hone : (1 : UInt64).toNat = 1 := rfl
        rw [UInt64.toNat_add, hone, Nat.mod_eq_of_lt (by omega)]
    have hrest : InTurn servers _ picks := ih hselector (by split <;> exact hpolicy) (by rw [hnext]; split <;> omega)
    refine ⟨?_, ?_, ?_⟩
    · intro x hx
      cases hx
      exact hturns
    · rw [List.isChain_cons]
      refine ⟨fun y hy => ?_, hrest.next⟩
      rw [hrest.first y hy, hnext, hturns]
    · intro x hx
      rcases List.mem_cons.mp hx with rfl | hx
      · dsimp only
        rw [hturns]
        exact haddress
      · exact hrest.address x hx

/-- Selections for one role and none in between take consecutive turns. -/
theorem consecutive_turns (hsome : servers database role ≠ [])
    (hall : ∀ x ∈ window, x.database = database ∧ x.role = role)
    (hchain : window.IsChain fun x y => y.turn = x.turn + if servers x.database x.role = [] then 0 else 1) :
    ∃ start, window.map (·.turn) = List.range' start window.length := by
  induction window with
  | nil => exact ⟨0, rfl⟩
  | cons x rest ih =>
    obtain ⟨hfirst, hchain⟩ := List.isChain_cons.mp hchain
    obtain ⟨start, hrest⟩ := ih (fun y hy => hall y (List.mem_cons_of_mem x hy)) hchain
    refine ⟨x.turn, ?_⟩
    rw [List.map_cons, List.length_cons, List.range'_succ]
    cases rest with
    | nil => rfl
    | cons y rest =>
      obtain ⟨hdatabase, hrole⟩ := hall x List.mem_cons_self
      have hnext : y.turn = x.turn + 1 := by
        rw [hfirst y rfl, hdatabase, hrole, if_neg hsome]
      rw [List.map_cons, List.length_cons, List.range'_succ] at hrest
      obtain ⟨hstart, hrest⟩ := List.cons.inj hrest
      rw [List.map_cons, List.length_cons, List.range'_succ, hrest, ← hstart, hnext]

/-- As many consecutive numbers as a modulus leave different remainders. -/
theorem nodup_remainders (start n : Nat) : ((List.range' start n).map (· % n)).Nodup := by
  refine List.Nodup.map_on (fun x hx y hy hmod => ?_) List.nodup_range'
  obtain ⟨i, hi, rfl⟩ := List.mem_range'.mp hx
  obtain ⟨j, hj, rfl⟩ := List.mem_range'.mp hy
  rw [one_mul, one_mul] at hmod ⊢
  have hplaces : i ≡ j [MOD n] := Nat.ModEq.add_left_cancel' start hmod
  rw [Nat.ModEq.eq_of_lt_of_lt hplaces hi hj]

/-- As many selections of a role as it has servers, and none in between, leave different remainders. -/
theorem InTurn.nodup_of_consecutive {start : Nat} (h : InTurn servers start picks) (hwindow : window <:+: picks)
    (hall : ∀ x ∈ window, x.database = database ∧ x.role = role)
    (hlength : window.length = (servers database role).length) : (window.map (·.turn % window.length)).Nodup := by
  cases hservers : servers database role with
  | nil =>
    rw [hservers] at hlength
    rw [List.eq_nil_of_length_eq_zero hlength]
    exact List.nodup_nil
  | cons a rest =>
    have hsome : servers database role ≠ [] := by
      rw [hservers]
      exact List.cons_ne_nil a rest
    have hchain := List.IsChain.infix h.next hwindow
    obtain ⟨first, hturns⟩ := consecutive_turns hsome hall hchain
    have hremainders := nodup_remainders first window.length
    rw [← hturns, List.map_map] at hremainders
    exact hremainders

/-- Each selection of a role takes the server whose place is the remainder of its turn. -/
theorem InTurn.addresses {start : Nat} (h : InTurn servers start picks) (hpicked : ∀ x ∈ window, x ∈ picks)
    (hall : ∀ x ∈ window, x.database = database ∧ x.role = role)
    (hlength : window.length = (servers database role).length) :
    window.map (·.address) = (window.map (·.turn % window.length)).map ((servers database role)[·]?) := by
  rw [List.map_map]
  refine List.map_congr_left fun x hx => ?_
  obtain ⟨hdatabase, hrole⟩ := hall x hx
  rw [h.address x (hpicked x hx), hdatabase, hrole, ← hlength]
  rfl

/-- As many different places as there are in a list are all its places. -/
theorem perm_of_places {α : Type} {places : List Nat} {l : List α} (hlength : places.length = l.length)
    (hbelow : ∀ i ∈ places, i < l.length) (hnodup : places.Nodup) :
    (places.map (l[·]?)).Perm (l.map some) := by
  have hsubset : places ⊆ List.range l.length := fun i hi => List.mem_range.mpr (hbelow i hi)
  have hperm : places.Perm (List.range l.length) :=
    (List.subperm_of_subset hnodup hsubset).perm_of_length_le (by rw [List.length_range, hlength])
  have hall : (List.range l.length).map (l[·]?) = l.map some := by
    refine List.ext_getElem (by simp) fun i hi _ => ?_
    simp
  rw [← hall]
  exact hperm.map _

def picksFor (database : Option String) (role : Role) (picks : List Pick) : List Pick :=
  picks.filter fun x => x.database = database ∧ x.role = role

/-- As many selections of a role as it has servers, one after another, take every server once exactly if the turns
before them leave different remainders. They do if nobody selects anything else in between. -/
theorem each_once_iff (h : Course servers p picks q) (hs : p.selector? = some s) (hpolicy : s.policy = .roundRobin)
    (hbelow : s.turn.toNat + picks.length < 2 ^ 64) (hnodup : (servers database role).Nodup)
    (hwindow : window <:+: picksFor database role picks) (hlength : window.length = (servers database role).length) :
    ((window.map (·.address)).Perm ((servers database role).map some)
        ↔ (window.map (·.turn % window.length)).Nodup) ∧
      (window <:+: picks → (window.map (·.address)).Perm ((servers database role).map some)) := by
  have hturns : InTurn servers s.turn.toNat picks := h.inTurn hs hpolicy hbelow
  have hpicked : ∀ x ∈ window, x ∈ picks := fun x hx => (List.mem_filter.mp (hwindow.subset hx)).1
  have hall : ∀ x ∈ window, x.database = database ∧ x.role = role :=
    fun x hx => of_decide_eq_true (List.mem_filter.mp (hwindow.subset hx)).2
  have haddresses := hturns.addresses hpicked hall hlength
  have honce : (window.map (·.turn % window.length)).Nodup →
      (window.map (·.address)).Perm ((servers database role).map some) := by
    intro hdifferent
    rw [haddresses]
    refine perm_of_places (by rw [List.length_map, hlength]) (fun i hi => ?_) hdifferent
    obtain ⟨x, hx, rfl⟩ := List.mem_map.mp hi
    rw [← hlength]
    exact Nat.mod_lt _ (List.length_pos_of_mem hx)
  refine ⟨⟨fun hperm => ?_, honce⟩, fun hnothing => honce (hturns.nodup_of_consecutive hnothing hall hlength)⟩
  -- no server is listed twice, so none is taken twice
  have hservers : ((servers database role).map some).Nodup := hnodup.map (Option.some_injective _)
  have htaken := hperm.nodup_iff.mpr hservers
  rw [haddresses] at htaken
  exact htaken.of_map

end

/-- Two servers to read from, and one of them to write to. -/
def twoReaders (turn : UInt64) : Pool where
  directory := some {
    firstRouter := ⟨"s1", 7687⟩
    tables := [(none, .ofServers none [⟨"s1", 7687⟩] [⟨"s1", 7687⟩, ⟨"s2", 7687⟩] [⟨"s1", 7687⟩] (.ofSeconds 300) .start)]
    selector := ⟨.roundRobin, turn⟩ }

def fourPicks : List Pick :=
  [⟨none, .read, 0, some ⟨"s1", 7687⟩⟩, ⟨none, .write, 1, some ⟨"s1", 7687⟩⟩, ⟨none, .read, 2, some ⟨"s1", 7687⟩⟩,
    ⟨none, .read, 3, some ⟨"s2", 7687⟩⟩]

theorem course_fourPicks :
    Course (fun database role => (twoReaders 0).serving role database) (twoReaders 0) fourPicks (twoReaders 4) := by
  have hselect (turn : UInt64) (role : Role) (a : Option Address)
      (happly : (Move.select role none 0).apply .start ⟨twoReaders turn, []⟩ = (a, ⟨twoReaders (turn + 1), []⟩)) :
      Grip.Answers ⟨twoReaders turn, []⟩ (.move (.select role none 0)) a ⟨twoReaders (turn + 1), []⟩ :=
    ⟨.start, happly⟩
  refine .picked rfl (hselect 0 .read _ rfl) (.picked rfl (hselect 1 .write _ rfl) ?_)
  exact .picked rfl (hselect 2 .read _ rfl) (.picked rfl (hselect 3 .read _ rfl) (.done _))

/-- The last two reads, with nothing in between, take both servers. -/
theorem last_two_once :
    ((fourPicks.drop 2).map (·.address)).Perm [some ⟨"s1", 7687⟩, some ⟨"s2", 7687⟩] := by
  have hwindow : fourPicks.drop 2 <:+: picksFor none .read fourPicks :=
    ⟨[⟨none, .read, 0, some ⟨"s1", 7687⟩⟩], [], rfl⟩
  have hnothing : fourPicks.drop 2 <:+: fourPicks := ⟨fourPicks.take 2, [], rfl⟩
  exact (each_once_iff course_fourPicks rfl rfl (by decide) (by decide) hwindow rfl).2 hnothing

/-- With a write in between, two reads take the same server. -/
theorem not_each_once : ¬ ∀ (servers : Option String → Role → List Address) (p q : Pool) (picks window : List Pick)
    (s : Selector) (database : Option String) (role : Role), Course servers p picks q → p.selector? = some s →
    s.policy = .roundRobin → s.turn.toNat + picks.length < 2 ^ 64 → (servers database role).Nodup →
    window <:+: picksFor database role picks → window.length = (servers database role).length →
    (window.map (·.address)).Perm ((servers database role).map some) := by
  intro hall
  have hreads := hall _ _ _ _ [⟨none, .read, 0, some ⟨"s1", 7687⟩⟩, ⟨none, .read, 2, some ⟨"s1", 7687⟩⟩] _ none .read
    course_fourPicks rfl rfl (by decide) (by decide) ⟨[], [⟨none, .read, 3, some ⟨"s2", 7687⟩⟩], rfl⟩ rfl
  have hsecond := hreads.symm.subset (show some ⟨"s2", 7687⟩ ∈ _ by decide)
  exact absurd hsecond (by decide)

end Pool
end BoltClient
