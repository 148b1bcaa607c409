import BoltClient.Proofs.Pool.Lending
import BoltClient.Proofs.Routing.Composing
import BoltClient.Proofs.Routing.WriteFailure
import BoltClient.Proofs.Work.Passage

namespace BoltClient

namespace Routing

/-- One change to the tables: a server is taken out, or a selection takes a turn. -/
inductive Directory.Edit (d : Directory) : Directory → Prop where
  | discard (a : Address) : Edit d (d.discard a)
  | discardWriter (a : Address) (database : Option String) : Edit d (d.discardWriter a database)
  | select (role : Role) (database : Option String) (count : Address → Nat) (choice : Nat) :
      Edit d (d.select role database count choice).2

abbrev Directory.Edits : Directory → Directory → Prop := Relation.ReflTransGen Directory.Edit

variable {d d' : Directory}

theorem Directory.table?_discard (d : Directory) (a : Address) (key : Option String) :
    (d.discard a).table? key = (d.table? key).map (·.discard a) := by
  unfold Directory.table? Directory.discard
  induction d.tables with
  | nil => rfl
  | cons entry rest ih =>
    obtain ⟨k, t⟩ := entry
    rw [List.map_cons, List.lookup_cons, List.lookup_cons]
    by_cases hkey : key = k
    · rw [hkey, beq_self_eq_true]
      rfl
    · rw [beq_false_of_ne hkey]
      exact ih

theorem Directory.edits_heed (d : Directory) (a : Address) (f : Feedback) : d.Edits (d.heed a f) := by
  cases f with
  | deactivate => exact .single (.discard a)
  | writeFailure database => exact .single (.discardWriter a database)
  | invalidateAll => exact .refl

theorem Directory.edits_heedAll (d : Directory) (a : Address) (fs : List Feedback) :
    d.Edits (fs.foldl (Directory.heed a) d) := by
  induction fs generalizing d with
  | nil => exact .refl
  | cons f rest ih => exact (d.edits_heed a f).trans (ih _)

theorem Directory.Edits.firstRouter (h : d.Edits d') : d'.firstRouter = d.firstRouter := by
  induction h with
  | refl => rfl
  | tail _ hedit ih =>
    refine Eq.trans ?_ ih
    cases hedit with
    | discard | discardWriter => rfl
    | select =>
      unfold Directory.select
      split <;> rfl

/-- No change is one of policy. -/
theorem Directory.Edits.policy (h : d.Edits d') : d'.selector.policy = d.selector.policy := by
  induction h with
  | refl => rfl
  | tail _ hedit ih =>
    refine Eq.trans ?_ ih
    cases hedit with
    | discard | discardWriter => rfl
    | select =>
      unfold Directory.select Selector.select
      split
      · rfl
      · dsimp only
        split <;> rfl

end Routing

namespace Pool

open Work
open Routing (Directory)

/-- From one pool to another nothing but such changes befalls the tables. -/
def EditsTables (p q : Pool) : Prop := ∀ d, p.directory = some d → ∃ d', q.directory = some d' ∧ d.Edits d'

/-- A move that neither starts nor renews a table, nor throws one away. -/
def Move.Plain : {α : Type} → Move α → Prop
  | _, .isFresh .. | _, .routers _ | _, .store .. => False
  | _, _ => True

def Query.Plain : {α : Type} → Query α → Prop
  | _, .move m => m.Plain
  | _, _ => True

variable {α β : Type} {p q r : Pool} {a : Address} {m : Member} {g g' : Grip}

theorem EditsTables.of_eq (h : q.directory = p.directory) : EditsTables p q := fun d hd => ⟨d, h.trans hd, .refl⟩

theorem EditsTables.trans (h : EditsTables p q) (h' : EditsTables q r) : EditsTables p r := by
  intro d hd
  obtain ⟨d', hd', hedits⟩ := h d hd
  obtain ⟨d'', hd'', hedits'⟩ := h' d' hd'
  exact ⟨d'', hd'', hedits.trans hedits'⟩

theorem EditsTables.of_map {f : Directory → Directory} (h : q.directory = p.directory.map f)
    (hf : ∀ d, Directory.Edits d (f d)) : EditsTables p q := by
  intro d hd
  rw [hd] at h
  exact ⟨f d, h, hf d⟩

theorem directory_ensure (p : Pool) (a : Address) : (p.ensure a).directory = p.directory := by
  unfold ensure
  split <;> rfl

theorem directory_takeIdle (h : p.takeIdle a = some (m, q)) : q.directory = p.directory := by
  unfold takeIdle at h
  split at h
  · cases h
    rfl
  · cases h

theorem directory_reserve (p : Pool) (a : Address) : (p.reserve a).2.directory = p.directory := by
  have hensure := directory_ensure p a
  unfold reserve
  dsimp only
  split
  · exact hensure
  · split <;> exact hensure

theorem directory_abandon (p : Pool) (a : Address) (generation : Nat) :
    (p.abandon a generation).directory = p.directory := by
  unfold abandon
  dsimp only
  split
  · split <;> rfl
  · rfl

theorem directory_fulfilHeld (c : Connection) (p : Pool) (held : List Holding) :
    (Grip.fulfil c p held).pool.directory = p.directory := by
  induction held with
  | nil => rfl
  | cons x held ih =>
    cases x with
    | wire link => exact ih
    | place a generation => exact directory_ensure p a
    | borrowed | parting | loose | turn => rfl

theorem editsTables_checkIn (p : Pool) (m : Member) (now : Instant) : EditsTables p (p.checkIn m now).2 :=
  .of_map (directory_checkIn now) fun d => d.edits_heedAll m.connection.address m.connection.feedback

theorem editsTables_letGo (p : Pool) (now : Instant) (x : Holding) : EditsTables p (p.letGo now x) := by
  cases x with
  | borrowed m => exact editsTables_checkIn p _ now
  | place a generation => exact .of_eq (directory_abandon p a generation)
  | parting | loose | wire | turn => exact .of_eq rfl

theorem editsTables_letGoHeld (now : Instant) (p : Pool) (held : List Holding) :
    EditsTables p (Grip.letGo now p held).pool := by
  induction held with
  | nil => exact .of_eq rfl
  | cons x held ih =>
    have hone : EditsTables p (p.letGo now x) := editsTables_letGo p now x
    cases x with
    | wire link => exact ih
    | borrowed | parting | loose | place | turn => exact hone

theorem editsTables_move {m : Move β} (hm : m.Plain) (now : Instant) (g : Grip) :
    EditsTables g.pool (m.apply now g).2.pool := by
  cases m with
  | enter | announce | serves | strangers | markAllStale | shut => exact .of_eq rfl
  | isFresh | routers | store => exact hm.elim
  | discard a => exact .of_map rfl fun d => .single (.discard a)
  | discardWriter a key => exact .of_map rfl fun d => .single (.discardWriter a key)
  | detach a => exact .of_eq directory_detach
  | letGo => exact editsTables_letGoHeld now g.pool g.held
  | fulfil c => exact .of_eq (directory_fulfilHeld c g.pool g.held)
  | takeIdle a =>
    simp only [Move.apply]
    cases htake : g.pool.takeIdle a with
    | none => exact .of_eq rfl
    | some r => exact .of_eq (directory_takeIdle htake)
  | isCurrent a | part =>
    simp only [Move.apply]
    split <;> exact .of_eq rfl
  | reserve a =>
    have hreserve := directory_reserve g.pool a
    simp only [Move.apply]
    generalize g.pool.reserve a = r at hreserve ⊢
    obtain ⟨_ | generation, q⟩ := r
    · exact .of_eq hreserve
    · exact .of_eq hreserve
  | checkIn =>
    simp only [Move.apply]
    split
    · exact editsTables_checkIn g.pool _ now
    · exact editsTables_checkIn g.pool _ now
    · exact .of_eq rfl
  | select role key choice =>
    simp only [Move.apply]
    cases hdirectory : g.pool.directory with
    | none => exact .of_eq rfl
    | some d =>
      intro d₀ hd₀
      rw [hdirectory] at hd₀
      cases hd₀
      exact ⟨_, rfl, .single (.select role key g.pool.inUse choice)⟩

theorem editsTables_answer {q : Query β} {b : β} (hq : q.Plain) (hb : g.Answers q b g') :
    EditsTables g.pool g'.pool := by
  cases q with
  | move m =>
    obtain ⟨now, happly⟩ := hb
    have hedits : EditsTables g.pool (m.apply now g).2.pool := editsTables_move hq now g
    rw [happly] at hedits
    exact hedits
  | edit f =>
    obtain ⟨_, _, _, rfl⟩ := hb
    exact .of_eq rfl
  | transfer | draw =>
    obtain rfl : g' = _ := hb
    exact .of_eq rfl
  | waitForChange | waitForTurn =>
    obtain ⟨_, rfl⟩ := hb
    exact .of_eq rfl

theorem editsTables_of_plain {w : Task α} {b : α} (h : w.Asks Query.Plain)
    (hrun : Runs Grip.surroundings w g b g') : EditsTables g.pool g'.pool := by
  refine h.leads (fun s => EditsTables g.pool s.pool) ?_ (.of_eq rfl) hrun
  intro _ q s b t hs hq hb
  exact hs.trans (editsTables_answer hq hb)

theorem plain_basics : Basics fun {α : Type} (w : Task α) => w.Asks Query.Plain :=
  asks_basics (fun {_ t} _ => onTop_asks_all (fun _ => trivial) (fun _ => trivial) t) (fun _ => trivial) trivial
    trivial fun _ => trivial

theorem openReserved_plain (opener : Opener) (a : Address) (deadline : Deadline) :
    (openReserved opener a deadline).run.Asks Query.Plain := by
  unfold openReserved
  refine Asks.orElse (Asks.orFail ?_ fun c => ?_) fun e => ?_
  · exact Asks.via (p := fun _ => True) (fun _ => trivial) (asks_of_all (fun _ => trivial) _)
  · exact Asks.map (asks_move (m := .fulfil c) trivial)
  · refine Asks.orFail (Asks.map plain_basics.lettingGo) fun _ => ?_
    split
    · exact Asks.orFail (Asks.map (plain_basics.deactivate a)) fun _ => asks_throw _
    · exact asks_throw _

theorem acquire_plain (opener : Opener) (a : Address) (deadline : Deadline) (liveness : Option Duration) :
    (acquire opener a deadline liveness).run.Asks Query.Plain := by
  unfold acquire
  refine asks_iterateOrFail _ fun _ => Asks.orFail (Asks.map (asks_move (m := .enter) trivial)) fun open? => ?_
  split
  · exact asks_throw _
  · have hreuse : (reuse a deadline liveness).Asks Query.Plain :=
      plain_basics.reuse a deadline liveness (asks_move trivial) (asks_move trivial)
    refine Asks.orFail (Asks.map hreuse) fun found => ?_
    split
    · exact asks_ok _
    · refine Asks.orFail (Asks.map (asks_move (m := .reserve a) trivial)) fun room => ?_
      split
      · exact Asks.orFail (openReserved_plain opener a deadline) fun _ => asks_ok _
      · refine Asks.orFail (Asks.map (asks_query trivial)) fun again => ?_
        split
        · exact asks_ok _
        · exact asks_throw _

end Pool

namespace Routing.Cluster

open Work
open Pool (Query asks_move onTop_asks_all)

theorem plain_basics (c : Cluster) : c.Basics fun {α : Type} (w : Pool.Task α) => w.Asks Query.Plain where
  toBasics := Pool.plain_basics
  acquiring := Pool.acquire_plain c.opener
  asking := askRouter_composes Pool.plain_basics (Pool.acquire_plain c.opener)
    (fun _ => onTop_asks_all (fun _ => trivial) (fun _ => trivial) _)
    fun _ _ _ => onTop_asks_all (fun _ => trivial) (fun _ => trivial) _
  timing := asks_query trivial
  discarding _ := asks_move trivial

end Routing.Cluster
end BoltClient
