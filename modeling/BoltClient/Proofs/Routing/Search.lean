import BoltClient.Proofs.Routing.Blame
import BoltClient.Proofs.Routing.Eviction
import BoltClient.Proofs.Routing.Renewal
import BoltClient.Proofs.Work.Course

namespace BoltClient

namespace Pool

open Work

/-- A move with which nobody begins to take hold of a connection. -/
def Move.Beside : {α : Type} → Move α → Prop
  | _, .enter => False
  | _, _ => True

def Query.Beside : {α : Type} → Query α → Prop
  | _, .move m => m.Beside
  | _, _ => True

theorem beside_basics : Basics fun {α : Type} (w : Task α) => w.Asks Query.Beside :=
  asks_basics (fun {_ t} _ => onTop_asks_all (fun _ => trivial) (fun _ => trivial) t) (fun _ => trivial) trivial
    trivial fun _ => trivial

def Proper (p : Pool) : Prop := ∃ d, p.directory = some d ∧ d.Proper

def Avoids (p : Pool) (a : Address) : Prop := ∃ d, p.directory = some d ∧ d.Avoids a

variable {S α : Type} {R : Surroundings Query S} {grip : S → Grip} {s t : S} {p q : Pool} {a : Address}

theorem EditsTables.proper (h : EditsTables p q) (hp : p.Proper) : q.Proper := by
  obtain ⟨d, hd, hproper⟩ := hp
  obtain ⟨d', hd', hedits⟩ := h d hd
  exact ⟨d', hd', hedits.proper hproper⟩

theorem EditsTables.avoids (h : EditsTables p q) (hp : p.Avoids a) : q.Avoids a := by
  obtain ⟨d, hd, havoids⟩ := hp
  obtain ⟨d', hd', hedits⟩ := h d hd
  exact ⟨d', hd', hedits.avoids havoids⟩

theorem Alone.runs (h : Alone R grip) {w : Task α} {b : α} (hrun : Runs R w s b t) :
    Runs Grip.surroundings w (grip s) b (grip t) := hrun.seen grip h

theorem Alone.edits (h : Alone R grip) {w : Task α} {b : α} (hw : w.Asks Query.Plain) (hrun : Runs R w s b t) :
    EditsTables (grip s).pool (grip t).pool := editsTables_of_plain hw (h.runs hrun)

end Pool

namespace Routing

open Work
open Pool (Alone EditsTables Grip Query)

/-- An error that another router need not know of: a server is gone, or it has reported a failure that may be its
own. -/
def Passable (e : Error) : Prop :=
  e.isUnavailable = true ∨ ∃ failure, e.failure? = some failure ∧ failure.isFatalInDiscovery = false

/-- An answer that gives a table, with routers and with readers. -/
def Gives (q : Inquiry) (t : Table) (answer : Except Error (List Row)) : Prop :=
  ∃ row rest now, answer = .ok (row :: rest) ∧ Table.ofRow row q.database now = .ok t ∧ t.routers ≠ [] ∧
    t.readers ≠ []

/-- An answer after which others are asked: an error that can be passed over, no row, or a table without routers
or without readers. -/
def InVain (q : Inquiry) (answer : Except Error (List Row)) : Prop :=
  (∃ e, answer = .error e ∧ Passable e) ∨ answer = .ok [] ∨
    ∃ row rest now t, answer = .ok (row :: rest) ∧ Table.ofRow row q.database now = .ok t ∧
      (t.routers = [] ∨ t.readers = [])

/-- An answer that ends the search with an error: one that cannot be passed over, or that of a row that makes no
table. -/
def Breaks (q : Inquiry) (e : Error) (answer : Except Error (List Row)) : Prop :=
  (answer = .error e ∧ ¬Passable e) ∨
    ∃ row rest now, answer = .ok (row :: rest) ∧ Table.ofRow row q.database now = .error e

/-- What is made of an answer is what it means. -/
def Decides (q : Inquiry) (answer : Except Error (List Row)) : Except Error (Option Table) → Prop
  | .ok none => InVain q answer
  | .ok (some t) => Gives q t answer
  | .error e => Breaks q e answer

theorem Table.ofRow_later {row : Row} {requested : Option String} {now : Instant} {t : Table}
    (h : ofRow row requested now = .ok t) (later : Instant) :
    ofRow row requested later = .ok { t with updated := later } := by
  unfold ofRow ofListings at h ⊢
  cases hlocated : located row.listings with
  | ok all =>
    rw [hlocated] at h
    cases h
    rfl
  | error fault =>
    rw [hlocated] at h
    cases h

/-- An answer in vain means nothing else, whenever it comes. -/
theorem InVain.decides {q : Inquiry} {answer : Except Error (List Row)} {outcome : Except Error (Option Table)}
    (hvain : InVain q answer) (h : Decides q answer outcome) : outcome = .ok none := by
  rcases outcome with e | _ | t
  · obtain ⟨rfl, hnot⟩ | ⟨row, rest, now, rfl, hrow⟩ := h
    · obtain ⟨e', heq, hpassable⟩ | heq | ⟨_, _, _, _, heq, _⟩ := hvain
      · cases heq
        exact absurd hpassable hnot
      · cases heq
      · cases heq
    · obtain ⟨_, heq, _⟩ | heq | ⟨_, _, earlier, t, heq, hrow', _⟩ := hvain
      · cases heq
      · cases heq
      · cases heq
        rw [Table.ofRow_later hrow' now] at hrow
        cases hrow
  · rfl
  · obtain ⟨row, rest, now, rfl, hrow, hrouters, hreaders⟩ := h
    obtain ⟨_, heq, _⟩ | heq | ⟨_, _, earlier, t', heq, hrow', hnone⟩ := hvain
    · cases heq
    · cases heq
    · cases heq
      rw [Table.ofRow_later hrow' now] at hrow
      cases hrow
      exact absurd hnone (not_or.mpr ⟨hrouters, hreaders⟩)

theorem isFinal_iff {e : Error} : Cluster.isFinal e = true ↔ ¬Passable e := by
  unfold Cluster.isFinal Passable
  cases e <;> simp [Error.failure?, Error.isUnavailable]

/-- Who is asked for the table of a database, and in which order. The first router of all comes first if no writer was
listed at the last update, and last otherwise; the others come as the table lists them. -/
structure Directory.AsksIn (d : Directory) (database : Option String) (now : Instant) (plan : List Address) :
    Prop where
  once : plan.Nodup
  seed : d.firstRouter ∈ plan
  others : plan.filter (· ≠ d.firstRouter) = (d.table database now).routers.filter (· ≠ d.firstRouter)
  seedFirst : (d.table database now).withoutWriters = true → plan.head? = some d.firstRouter
  seedLast : (d.table database now).withoutWriters = false → plan.getLast? = some d.firstRouter

theorem Directory.Proper.asksIn_routers {d : Directory} (h : d.Proper) (database : Option String) (now : Instant) :
    d.AsksIn database now (d.routers database now) := by
  have htable : (d.table database now).Proper := by
    unfold Directory.table
    cases hfound : d.table? database with
    | none => exact Table.proper_ofServers _ _ _ _ _ _
    | some t => exact h.table hfound
  have hothers : ((d.table database now).routers.filter (· ≠ d.firstRouter)).Nodup := (htable .route).filter _
  have hseed : d.firstRouter ∉ (d.table database now).routers.filter (· ≠ d.firstRouter) := by simp
  unfold Directory.routers
  dsimp only
  cases hwithout : (d.table database now).withoutWriters with
  | true =>
    refine ⟨List.nodup_cons.mpr ⟨hseed, hothers⟩, List.mem_cons_self, ?_, fun _ => rfl, fun h => ?_⟩
    · simp [List.filter_filter]
    · cases hwithout.symm.trans h
  | false =>
    refine ⟨?_, by simp, ?_, fun h => ?_, fun _ => ?_⟩
    · exact List.nodup_append.mpr ⟨hothers, List.nodup_singleton _, by simp⟩
    · simp [List.filter_filter]
    · cases hwithout.symm.trans h
    · simp

theorem Directory.AsksIn.eq_append {d : Directory} {database : Option String} {now : Instant} {plan : List Address}
    (h : d.AsksIn database now plan) (hwriters : (d.table database now).withoutWriters = false) :
    plan = (d.table database now).routers.filter (· ≠ d.firstRouter) ++ [d.firstRouter] := by
  obtain ⟨others, rfl⟩ := List.getLast?_eq_some_iff.mp (h.seedLast hwriters)
  have hseed : d.firstRouter ∉ others := fun hmem =>
    List.disjoint_of_nodup_append h.once hmem (List.mem_singleton_self _)
  have hothers : others.filter (· ≠ d.firstRouter) = others :=
    List.filter_eq_self.mpr fun a ha => decide_eq_true fun heq => hseed (heq ▸ ha)
  rw [← h.others, List.filter_append, hothers]
  simp

/-- A router and the address at which it is asked, with what has come back. -/
abbrev Asking (S : Type) := Turn (Address × Address) (Except Error (List Row)) S

namespace Cluster

variable {S : Type} {R : Surroundings Query S} {grip : S → Grip} {c : Cluster} {q : Inquiry} {s s' : S}
  {router a : Address}

def asking (c : Cluster) (q : Inquiry) (x : Address × Address) : Pool.Task (Except Error (List Row)) :=
  (c.askRouter x.2 q).run

/-- Asking once is one turn. -/
theorem course_asking {result : Except Error (List Row)} (hrun : Runs R (c.askRouter a q).run s result s') :
    Course R Query.Beside (c.asking q) (.done result, s') ((c.askRouter a q).run, s)
      [⟨(router, a), s, result, s'⟩] := by
  have hone : Course R Query.Beside (c.asking q) (.done result, s') (c.asking q (router, a), s)
      [⟨(router, a), s, result, s'⟩] := .one hrun
  exact hone

/-- An error that can be passed over counts for no rows. -/
theorem rows_run (router : Address) {r : Except Error (List Row)}
    (hrun : Runs R (tryCatch (c.askRouter a q) fun e => if isFinal e then throw e else pure []).run s r s') :
    ∃ x : Asking S, x.subject = (router, a) ∧ x.before = s ∧
      Course R Query.Beside (c.asking q) (.done r, s')
        ((tryCatch (c.askRouter a q) fun e => if isFinal e then throw e else pure []).run, s) [x] ∧
      (x.result = r ∧ (∀ e, r = .error e → ¬Passable e) ∨ r = .ok [] ∧ InVain q x.result) := by
  obtain ⟨rows, rfl, hask⟩ | ⟨e, u, hask, hhandler⟩ := hrun.of_orElse
  · exact ⟨⟨(router, a), s, .ok rows, s'⟩, rfl, rfl, .succeeded (course_asking hask), .inl ⟨rfl, nofun⟩⟩
  · refine ⟨⟨(router, a), s, .error e, u⟩, rfl, rfl, .caught (course_asking hask) (.rest (.only ?_ hhandler)), ?_⟩
    · split
      · exact asks_throw e
      · exact asks_ok []
    · split at hhandler
      · next hfinal =>
        obtain ⟨rfl, _⟩ := hhandler.of_done
        refine .inl ⟨rfl, fun e' heq => ?_⟩
        cases heq
        exact isFinal_iff.mp hfinal
      · next hpassable =>
        obtain ⟨rfl, _⟩ := hhandler.of_done
        exact .inr ⟨rfl, .inl ⟨e, rfl, not_not.mp fun h => hpassable (isFinal_iff.mpr h)⟩⟩

/-- One address is asked, and its answer decides. -/
theorem fetchTable_run (router : Address) {r : Except Error (Option Table)} (hrun : Runs R (c.fetchTable a q).run s r s') :
    ∃ x : Asking S, x.subject = (router, a) ∧ x.before = s ∧
      Course R Query.Beside (c.asking q) (.done r, s') ((c.fetchTable a q).run, s) [x] ∧
      Decides q x.result r := by
  unfold fetchTable at hrun ⊢
  obtain ⟨rows, u, htry, hrest⟩ | ⟨e, rfl, htry⟩ := hrun.of_orFail
  · obtain ⟨x, hsubject, hbefore, hcourse, hresult⟩ := rows_run router htry
    cases rows with
    | nil =>
      obtain ⟨rfl, rfl⟩ := hrest.of_done
      refine ⟨x, hsubject, hbefore, hcourse.orFail (.rest .refl), ?_⟩
      exact hresult.elim (fun h => .inr (.inl h.1)) And.right
    | cons row rest =>
      obtain ⟨hresult, _⟩ := hresult.resolve_right fun h => nomatch h.1
      have hbeside : (do
          let now ← Pool.ask (.transfer .now)
          let t ← ExceptT.mk (pure (Table.ofRow row q.database now))
          pure (if t.routers.isEmpty || t.readers.isEmpty then none else some t) :
          Pool.Attempt (Option Table)).run.Asks Query.Beside :=
        .orFail (.map (asks_query trivial)) fun _ => .orFail (asks_pure _) fun _ => asks_ok _
      refine ⟨x, hsubject, hbefore, hcourse.orFail (.gap hbeside hrest), ?_⟩
      obtain ⟨now, v, _, hread⟩ := hrest.of_lift
      obtain ⟨t, w, hrow, hend⟩ | ⟨e, rfl, hfailed⟩ := hread.of_orFail
      · have htable : Table.ofRow row q.database now = .ok t := hrow.of_done.1.symm
        obtain ⟨rfl, _⟩ := hend.of_done
        by_cases huseless : (t.routers.isEmpty || t.readers.isEmpty) = true
        · rw [if_pos huseless]
          refine .inr (.inr ⟨row, rest, now, t, hresult, htable, ?_⟩)
          simpa using huseless
        · rw [if_neg huseless]
          refine ⟨row, rest, now, hresult, htable, ?_⟩
          simpa using huseless
      · exact .inr ⟨row, rest, now, hresult, hfailed.of_done.1.symm⟩
  · obtain ⟨x, hsubject, hbefore, hcourse, hresult⟩ := rows_run router htry
    obtain ⟨hresult, hnot⟩ := hresult.resolve_right fun h => nomatch h.1
    exact ⟨x, hsubject, hbefore, hcourse.failed, .inl ⟨hresult, hnot e rfl⟩⟩

/-- How far a search goes. Everybody is asked while the answers are in vain; the first answer that is not decides. -/
inductive Ended (q : Inquiry) (todo : List (Address × Address)) :
    List (Asking S) → Except Error (Option Table) → Prop where
  | vain {asked : List (Asking S)} (hall : asked.map (·.subject) = todo)
      (hvain : ∀ x ∈ asked, InVain q x.result) : Ended q todo asked (.ok none)
  | last (asked : List (Asking S)) {x : Asking S} {outcome : Except Error (Option Table)}
      (horder : (asked ++ [x]).map (·.subject) <+: todo) (hvain : ∀ y ∈ asked, InVain q y.result)
      (hdecides : Decides q x.result outcome) (hnone : outcome ≠ .ok none) : Ended q todo (asked ++ [x]) outcome

/-- What is reported of a search, and what is done last: a table that was found is taken over. -/
def Closes (R : Surroundings Query S) (q : Inquiry) (s s' : S) (r : Except Error Bool) :
    Except Error (Option Table) → Prop
  | .ok none => r = .ok false ∧ s' = s
  | .ok (some t) => r = .ok true ∧ R.Answers s (.move (.store q.database t)) () s'
  | .error e => r = .error e ∧ s' = s

variable {todo more : List (Address × Address)} {asked : List (Asking S)} {outcome : Except Error (Option Table)}

theorem Ended.order (h : Ended q todo asked outcome) : asked.map (·.subject) <+: todo := by
  cases h with
  | vain hall => rw [hall]
  | last _ horder => exact horder

theorem Ended.atOnce {x : Asking S} (horder : [x].map (·.subject) <+: todo) (hdecides : Decides q x.result outcome)
    (hnone : outcome ≠ .ok none) : Ended q todo [x] outcome :=
  .last [] horder (List.forall_mem_nil _) hdecides hnone

/-- What decides is an answer. -/
theorem Ended.decided (h : Ended q todo asked outcome) (hnone : outcome ≠ .ok none) :
    ∃ x ∈ asked, Decides q x.result outcome := by
  cases h with
  | vain => exact absurd rfl hnone
  | @last first x _ _ _ hdecides => exact ⟨x, List.mem_concat_self, hdecides⟩

/-- Whoever comes later is not asked any more. -/
theorem Ended.early (h : Ended q todo asked outcome) (hnone : outcome ≠ .ok none) :
    Ended q (todo ++ more) asked outcome := by
  cases h with
  | vain => exact absurd rfl hnone
  | last _ horder hvain hdecides => exact .last _ (horder.trans (List.prefix_append _ _)) hvain hdecides hnone

/-- Whoever is asked first in vain is asked, and then the others. -/
theorem Ended.after {first : List (Asking S)} (hall : first.map (·.subject) = more)
    (hvain : ∀ x ∈ first, InVain q x.result) (h : Ended q todo asked outcome) :
    Ended q (more ++ todo) (first ++ asked) outcome := by
  have hboth {rest : List (Asking S)} (hrest : ∀ x ∈ rest, InVain q x.result) :
      ∀ x ∈ first ++ rest, InVain q x.result := fun x hx => (List.mem_append.mp hx).elim (hvain x) (hrest x)
  cases h with
  | vain hall' hvain' => exact .vain (by rw [List.map_append, hall, hall']) (hboth hvain')
  | @last rest x _ horder hvain' hdecides hnone =>
    rw [← List.append_assoc]
    refine .last _ ?_ (hboth hvain') hdecides hnone
    rw [List.append_assoc, List.map_append, hall]
    exact (List.prefix_append_right_inj _).mpr horder

variable (hR : Alone R grip)

include hR

/-- The addresses of one router are asked one after the other. -/
theorem candidates_run (router : Address) {candidates : List Address} {r : Except Error Bool}
    (hrun : Runs R (c.renewFromCandidates q candidates).run s r s') : ∃ (asked : List (Asking S))
    (outcome : Except Error (Option Table)) (w : S),
      Course R Query.Beside (c.asking q) (.done r, s') ((c.renewFromCandidates q candidates).run, s) asked ∧
      Ended q (candidates.map (router, ·)) asked outcome ∧ Closes R q w s' r outcome ∧
      EditsTables (grip s).pool (grip w).pool ∧ ∀ x ∈ asked, EditsTables (grip s).pool (grip x.before).pool := by
  induction candidates generalizing s with
  | nil =>
    obtain ⟨rfl, rfl⟩ := hrun.of_done
    exact ⟨[], .ok none, s', .rest .refl, .vain rfl (List.forall_mem_nil _), ⟨rfl, rfl⟩, .of_eq rfl,
      List.forall_mem_nil _⟩
  | cons a rest ih =>
    have hone {x : Asking S} (hsubject : x.subject = (router, a)) :
        [x].map (·.subject) <+: (a :: rest).map (router, ·) := by
      simp [hsubject]
    unfold renewFromCandidates at hrun ⊢
    obtain ⟨found, u, hfetch, hrest⟩ | ⟨e, rfl, hfetch⟩ := hrun.of_orFail
    · have hedits := hR.edits (c.plain_basics.fetchTable a q) hfetch
      obtain ⟨x, hsubject, rfl, hcourse, hdecides⟩ := fetchTable_run router hfetch
      have hfirst : EditsTables (grip x.before).pool (grip x.before).pool := .of_eq rfl
      cases found with
      | none =>
        obtain ⟨asked, outcome, w, hmore, hended, hcloses, hlater, hduring⟩ := ih hrest
        refine ⟨x :: asked, outcome, w, hcourse.orFail hmore, ?_, hcloses, hedits.trans hlater, ?_⟩
        · have hvain : InVain q x.result := hdecides
          have hasked : [x].map (·.subject) = [(router, a)] := by rw [← hsubject]; rfl
          exact .after hasked (List.forall_mem_singleton.mpr hvain) hended
        · intro y hy
          rcases List.mem_cons.mp hy with rfl | hy
          · exact hfirst
          · exact hedits.trans (hduring y hy)
      | some t =>
        obtain ⟨_, v, hstore, hend⟩ := hrest.of_lift
        obtain ⟨rfl, rfl⟩ := hend.of_done
        refine ⟨[x], .ok (some t), u, hcourse.orFail (.gap ?_ hrest), ?_, ⟨rfl, hstore.of_query⟩, hedits, ?_⟩
        · exact .orFail (.map (asks_query trivial)) fun _ => asks_ok _
        · exact .atOnce (hone hsubject) hdecides (by simp)
        · simpa using hfirst
    · have hedits := hR.edits (c.plain_basics.fetchTable a q) hfetch
      obtain ⟨x, hsubject, rfl, hcourse, hdecides⟩ := fetchTable_run router hfetch
      refine ⟨[x], .error e, s', hcourse.failed, ?_, ⟨rfl, rfl⟩, hedits, ?_⟩
      · exact .atOnce (hone hsubject) hdecides (by simp)
      · simpa using EditsTables.of_eq rfl

omit hR

/-- The addresses of several routers, each with its router. -/
def everyone (c : Cluster) (routers : List Address) : List (Address × Address) :=
  routers.flatMap fun router => (c.resolver.expand router).map (router, ·)

/-- What becomes of the tables in the course of a search. Servers are taken out of them, and a router whose turn is
over without a table is in none of them while others are asked. -/
structure Searched (grip : S → Grip) (c : Cluster) (q : Inquiry) (routers : List Address) (s s' : S)
    (asked : List (Asking S)) (outcome : Except Error (Option Table)) : Prop where
  ended : Ended q (c.everyone routers) asked outcome
  edits : EditsTables (grip s).pool (grip s').pool
  during : ∀ x ∈ asked, EditsTables (grip s).pool (grip x.before).pool
  evicted : ∀ x ∈ asked, ∀ a, routers.idxOf a < routers.idxOf x.subject.1 →
    (grip x.before).pool.Avoids a ∧ (grip s').pool.Avoids a
  exhausted : outcome = .ok none → ∀ a ∈ routers, (grip s').pool.Avoids a

variable {first : List (Asking S)} {candidates routers : List Address} {u w : S}

theorem router_of_order (horder : asked.map (·.subject) <+: candidates.map (router, ·)) {x : Asking S}
    (hx : x ∈ asked) : x.subject.1 = router := by
  obtain ⟨a, _, ha⟩ := List.mem_map.mp (horder.subset (List.mem_map_of_mem hx))
  rw [← ha]

/-- The first router decides. -/
theorem Searched.stop (h : Ended q ((c.resolver.expand router).map (router, ·)) asked outcome)
    (hnone : outcome ≠ .ok none) (hedits : EditsTables (grip s).pool (grip w).pool)
    (hduring : ∀ x ∈ asked, EditsTables (grip s).pool (grip x.before).pool) :
    Searched grip c q (router :: routers) s w asked outcome := by
  refine ⟨?_, hedits, hduring, fun x hx a hearlier => ?_, fun hvain => absurd hvain hnone⟩
  · rw [everyone, List.flatMap_cons]
    exact h.early hnone
  · rw [router_of_order h.order hx, List.idxOf_cons_self] at hearlier
    exact absurd hearlier (Nat.not_lt_zero _)

/-- The first router gives nothing and is given up, and the search goes on among the others. -/
theorem Searched.next (hall : first.map (·.subject) = (c.resolver.expand router).map (router, ·))
    (hvain : ∀ x ∈ first, InVain q x.result) (hedits : EditsTables (grip s).pool (grip u).pool)
    (hduring : ∀ x ∈ first, EditsTables (grip s).pool (grip x.before).pool)
    (hgone : (grip u).pool.Avoids router) (h : Searched grip c q routers u w asked outcome) :
    Searched grip c q (router :: routers) s w (first ++ asked) outcome where
  ended := by
    rw [everyone, List.flatMap_cons]
    exact .after hall hvain h.ended
  edits := hedits.trans h.edits
  during x hx := (List.mem_append.mp hx).elim (hduring x) fun hx => hedits.trans (h.during x hx)
  evicted x hx a hearlier := by
    by_cases hfirst : router = x.subject.1
    · rw [← hfirst, List.idxOf_cons_self] at hearlier
      exact absurd hearlier (Nat.not_lt_zero _)
    · have hx : x ∈ asked := by
        refine (List.mem_append.mp hx).resolve_left fun hx => hfirst ?_
        exact (router_of_order (by rw [hall]) hx).symm
      by_cases ha : router = a
      · exact ha ▸ ⟨(h.during x hx).avoids hgone, h.edits.avoids hgone⟩
      · rw [List.idxOf_cons_ne _ ha, List.idxOf_cons_ne _ hfirst] at hearlier
        exact h.evicted x hx a (Nat.lt_of_succ_lt_succ hearlier)
  exhausted hnone a ha := by
    rcases List.mem_cons.mp ha with rfl | ha
    · exact h.edits.avoids hgone
    · exact h.exhausted hnone a ha

theorem deactivate_beside (a : Address) : (deactivate a).Asks Query.Beside :=
  .andThen (Pool.asks_move trivial) fun _ => Pool.beside_basics.deactivate a

/-- Whoever is given up is taken out of the tables first. -/
theorem avoids_of_giveUp (hR : Alone R grip) (hproper : (grip s).pool.Proper)
    (hrun : Runs R (deactivate router) s () s') : (grip s').pool.Avoids router := by
  unfold deactivate at hrun
  obtain ⟨_, u, hdiscard, hclose⟩ := Runs.of_bind hrun
  obtain ⟨now, happly⟩ := hR hdiscard.of_query
  have hu : (grip u).pool.Avoids router := by
    obtain ⟨d, hd, hproper⟩ := hproper
    have hu : (grip s).change (·.discard router) = grip u := congrArg Prod.snd happly
    rw [← hu]
    exact ⟨d.discard router, congrArg (Option.map _) hd, hproper.avoids_discard router⟩
  exact (hR.edits (Pool.plain_basics.deactivate router) hclose).avoids hu

/-- Routers that have given nothing are taken out before the next is asked. -/
theorem routers_run (hR : Alone R grip) {routers : List Address} {r : Except Error Bool}
    (hproper : (grip s).pool.Proper) (hrun : Runs R (c.renewFrom q routers).run s r s') :
    ∃ (asked : List (Asking S)) (outcome : Except Error (Option Table)) (w : S),
      Course R Query.Beside (c.asking q) (.done r, s') ((c.renewFrom q routers).run, s) asked ∧
      Searched grip c q routers s w asked outcome ∧ Closes R q w s' r outcome := by
  induction routers generalizing s with
  | nil =>
    obtain ⟨rfl, rfl⟩ := hrun.of_done
    refine ⟨[], .ok none, s', .rest .refl, ⟨.vain rfl (List.forall_mem_nil _), .of_eq rfl, ?_, ?_, ?_⟩, rfl, rfl⟩
    · exact List.forall_mem_nil _
    · exact List.forall_mem_nil _
    · exact fun _ => List.forall_mem_nil _
  | cons router rest ih =>
    unfold renewFrom at hrun ⊢
    obtain ⟨renewed, u, hasked, hrest⟩ | ⟨e, rfl, hasked⟩ := hrun.of_orFail
    · obtain ⟨first, outcome, w, hcourse, hended, hcloses, hedits, hduring⟩ := candidates_run hR router hasked
      rcases outcome with e | _ | t
      · cases hcloses.1
      · obtain ⟨heq, rfl⟩ := hcloses
        cases heq
        obtain ⟨_, v, hgone, hnext⟩ := hrest.of_lift
        have hgoing := hR.edits (c.plain_basics.giveUp router) hgone
        have hproper' := hedits.proper hproper
        obtain ⟨asked, outcome, w', hmore, hsearched, hcloses⟩ := ih (hgoing.proper hproper') hnext
        refine ⟨first ++ asked, outcome, w', hcourse.orFail (.lifted (.gap (deactivate_beside router) hgone) hmore), ?_,
          hcloses⟩
        cases hended with
        | vain hall hvain =>
          exact .next hall hvain (hedits.trans hgoing) hduring (avoids_of_giveUp hR hproper' hgone) hsearched
        | last _ _ _ _ hnone => exact absurd rfl hnone
      · obtain ⟨heq, hstore⟩ := hcloses
        cases heq
        obtain ⟨rfl, rfl⟩ := hrest.of_done
        refine ⟨first, .ok (some t), w, ?_, .stop hended (by simp) hedits hduring, rfl, hstore⟩
        rw [← List.append_nil first]
        exact hcourse.orFail (.gap (asks_ok true) hrest)
    · obtain ⟨first, outcome, w, hcourse, hended, hcloses, hedits, hduring⟩ := candidates_run hR router hasked
      rcases outcome with e' | _ | t
      · obtain ⟨heq, rfl⟩ := hcloses
        cases heq
        exact ⟨first, .error e, s', hcourse.failed, .stop hended (by simp) hedits hduring, rfl, rfl⟩
      · cases hcloses.1
      · cases hcloses.1

/-- What is reported of a renewal, and what is done last. -/
def Concludes (R : Surroundings Query S) (q : Inquiry) (s s' : S) (r : Except Error Unit) :
    Except Error (Option Table) → Prop
  | .ok none => r = .error noTable ∧ s' = s
  | .ok (some t) => r = .ok () ∧ R.Answers s (.move (.store q.database t)) () s'
  | .error e => r = .error e ∧ s' = s

theorem renew_run (hR : Alone R grip) {d : Directory} {r : Except Error Unit}
    (hd : (grip s).pool.directory = some d) (hproper : d.Proper) (hrun : Runs R (c.renew q).run s r s') :
    ∃ (now : Instant) (asked : List (Asking S)) (outcome : Except Error (Option Table)) (u w : S),
      Course R Query.Beside (c.asking q) (.done r, s') ((c.renew q).run, s) asked ∧
      (grip u).pool.directory = some (d.ensure q.database now) ∧
      Searched grip c q (d.routers q.database now) u w asked outcome ∧ Concludes R q w s' r outcome := by
  unfold renew at hrun ⊢
  obtain ⟨routers, u, hlook, hrest⟩ := hrun.of_lift
  obtain ⟨now, happly⟩ := hR hlook.of_query
  have hrouters : d.routers q.database now = routers := by
    have hlooked : _ = routers := congrArg Prod.fst happly
    simp only [Pool.Move.apply, Grip.look, Grip.change, Pool.changeTables, hd, Option.map_some,
      Option.getD_some, Directory.routers_ensure] at hlooked
    exact hlooked
  have hensured : (grip u).pool.directory = some (d.ensure q.database now) := by
    have hu : (grip s).change (·.ensure q.database now) = grip u := congrArg Prod.snd happly
    rw [← hu]
    exact congrArg (Option.map _) hd
  have hu : (grip u).pool.Proper := ⟨_, hensured, hproper.ensure q.database now⟩
  subst hrouters
  have hlooking : Course R Query.Beside (c.asking q) (.done (d.routers q.database now), u)
      (Pool.move (.routers q.database), s) [] := .gap (asks_query trivial) hlook
  have hconcluding (renewed : Bool) :
      (if !renewed then throw noTable else pure PUnit.unit : Pool.Attempt PUnit).run.Asks Query.Beside := by
    split
    · exact asks_throw _
    · exact asks_ok _
  obtain ⟨renewed, v, hasked, hend⟩ | ⟨e, rfl, hasked⟩ := hrest.of_orFail
  · obtain ⟨asked, outcome, w, hcourse, hsearched, hcloses⟩ := routers_run hR hu hasked
    refine ⟨now, asked, outcome, u, w, ?_, hensured, hsearched, ?_⟩
    · refine .lifted hlooking ?_
      rw [← List.append_nil asked]
      exact hcourse.orFail (.gap (hconcluding renewed) hend)
    · rcases outcome with e | _ | table
      · cases hcloses.1
      · obtain ⟨heq, rfl⟩ := hcloses
        cases heq
        exact hend.of_done
      · obtain ⟨heq, hstore⟩ := hcloses
        cases heq
        obtain ⟨rfl, rfl⟩ := hend.of_done
        exact ⟨rfl, hstore⟩
  · obtain ⟨asked, outcome, w, hcourse, hsearched, hcloses⟩ := routers_run hR hu hasked
    refine ⟨now, asked, outcome, u, w, .lifted hlooking hcourse.failed, hensured, hsearched, ?_⟩
    rcases outcome with e' | _ | table
    · obtain ⟨heq, rfl⟩ := hcloses
      cases heq
      exact ⟨rfl, rfl⟩
    · cases hcloses.1
    · cases hcloses.1

/-- A row makes a table or an error of another kind. -/
theorem ofRow_ne {row : Row} {requested : Option String} {now : Instant} {detail : String} :
    Table.ofRow row requested now ≠ .error (.routing detail) := by
  unfold Table.ofRow Table.ofListings
  split <;> exact nofun

/-- How a renewal goes, as long as nobody else has a hand in the pool. The routers are asked in order, each at all its
addresses, and none twice; it ends with the first answer that gives a table or cannot be passed over. Whoever has given
nothing is in no table any more when the next router is asked and when the search is over. Nothing but that is
reported as the want of a router, unless it comes from opening a connection. -/
theorem renew_asks_in_order (c : Cluster) (q : Inquiry) (hR : Alone R grip) (d : Directory) (r : Except Error Unit)
    (hd : (grip s).pool.directory = some d) (hproper : d.Proper) (hrun : Runs R (c.renew q).run s r s') :
    ∃ (now : Instant) (plan : List Address) (asked : List (Asking S)) (outcome : Except Error (Option Table)) (w : S),
      d.AsksIn q.database now plan ∧
      Course R Query.Beside (c.asking q) (.done r, s') ((c.renew q).run, s) asked ∧
      Ended q (c.everyone plan) asked outcome ∧ Concludes R q w s' r outcome ∧
      (∀ x ∈ asked, ∀ a, plan.idxOf a < plan.idxOf x.subject.1 →
        (grip x.before).pool.Avoids a ∧ (grip w).pool.Avoids a) ∧
      (outcome = .ok none → ∀ a ∈ plan, (grip w).pool.Avoids a) ∧
      ((∀ a deadline u v, ¬Runs R ((c.opener a deadline).run.via Query.transfer) u (.error noTable) v) →
        (r = .error noTable ↔ asked.map (·.subject) = c.everyone plan ∧ ∀ x ∈ asked, InVain q x.result)) := by
  obtain ⟨now, asked, outcome, u, w, hcourse, _, hsearched, hconcludes⟩ := renew_run hR hd hproper hrun
  refine ⟨now, d.routers q.database now, asked, outcome, w, hproper.asksIn_routers _ _, hcourse, hsearched.ended,
    hconcludes, hsearched.evicted, hsearched.exhausted, fun hopener => ⟨?_, ?_⟩⟩
  · rintro rfl
    rcases outcome with e | _ | table
    · cases hconcludes.1
      obtain ⟨x, hx, ⟨hanswer, _⟩ | ⟨_, _, _, _, hrow⟩⟩ := hsearched.ended.decided (by simp)
      · have hasked := hcourse.runs hx
        rw [hanswer] at hasked
        exact absurd hasked (askRouter_spares hR hopener x.subject.2 q)
      · exact absurd hrow ofRow_ne
    · cases hsearched.ended with
      | vain hall hvain => exact ⟨hall, hvain⟩
      | last _ _ _ _ hnone => exact absurd rfl hnone
    · cases hconcludes.1
  · rintro ⟨_, hvain⟩
    have hnone : outcome = .ok none := by
      by_contra hnone
      obtain ⟨x, hx, hdecides⟩ := hsearched.ended.decided hnone
      exact hnone ((hvain x hx).decides hdecides)
    rw [hnone] at hconcludes
    exact hconcludes.1

def gone : Address := ⟨"gone", Address.defaultPort⟩

def there : Address := ⟨"there", Address.defaultPort⟩

/-- A cluster of which one server cannot be reached. -/
def halfGone : Cluster where
  opener a _ := if a = gone then throw (.unavailable "Couldn't connect") else pure (Pool.readyFor a)
  resolver := .plain
  context := []

/-- The table of one database, with two servers. -/
def twofold : Directory where
  firstRouter := default
  tables := [(some "d", .ofServers (some "d") [gone, there] [there] [gone, there] (.ofSeconds 300) .start)]
  selector := default

theorem twofold_proper : twofold.Proper := by
  intro entry hentry
  obtain rfl := List.mem_singleton.mp hentry
  exact Table.proper_ofServers _ _ _ _ _ _

/-- What is left when the router that cannot be reached has been given up. -/
def withoutGone : Pool := { directory := some (twofold.discard gone), changes := 1 }

/-- Opening fails, and the place is free again. -/
theorem gone_refuses : Runs Grip.surroundings (Pool.acquire halfGone.opener gone .never none).run
    ⟨{ directory := some twofold }, []⟩ (.error (.unavailable "Couldn't connect"))
    ⟨{ directory := some twofold, changes := 1 }, []⟩ := by
  let reserved : Pool := { directory := some twofold, slots := [{ address := gone, reservations := 1 }] }
  let free : Pool := { directory := some twofold, slots := [{ address := gone }], changes := 1 }
  refine .head .round ?_
  refine .head (.answer (b := some 0) ⟨.start, rfl⟩) ?_
  refine .head .round ?_
  refine .head (.answer (b := false) ⟨.start, rfl⟩) ?_
  refine .head (.answer (b := true) (t := ⟨reserved, [.place gone 0]⟩) ⟨.start, rfl⟩) ?_
  refine .head (.answer (b := ()) (t := ⟨free, []⟩) ⟨.start, rfl⟩) ?_
  exact .head (.answer (b := 0) (t := ⟨{ directory := some twofold, changes := 1 }, []⟩) ⟨.start, rfl⟩) .refl

theorem gone_is_given_up : Runs Grip.surroundings (deactivate gone)
    ⟨{ directory := some twofold, changes := 1 }, []⟩ () ⟨withoutGone, []⟩ := by
  refine .head (.answer (b := ()) (t := ⟨withoutGone, []⟩) ⟨.start, rfl⟩) ?_
  exact .head (.answer (b := 0) (t := ⟨withoutGone, []⟩) ⟨.start, rfl⟩) .refl

theorem gone_is_asked : Leads Grip.surroundings
    ((halfGone.renewFrom wantedInquiry [gone, there, default]).run, ⟨{ directory := some twofold }, []⟩)
    ((halfGone.renewFrom wantedInquiry [there, default]).run, ⟨withoutGone, []⟩) := by
  refine Relation.ReflTransGen.trans (((((Leads.bind gone_refuses _).bind _).bind _).bind _).bind _) ?_
  exact Leads.bind (Leads.bind gone_is_given_up _) _

def rowOfThere : Row := ⟨300, [⟨.route, ["there"]⟩, ⟨.read, ["there"]⟩], none⟩

def entriesOfThere : Entries Value :=
  let listing (role : String) : Value := .map [("role", .text role), ("addresses", .list [.text "there"])]
  [("ttl", .int 300), ("servers", .list [listing "ROUTE", listing "READ"])]

def messageOfThere : List UInt8 :=
  (PackStream.encode (.struct 0x70 [.map [("rt", .map entriesOfThere)]])).toOption.getD []

def answerOfThere : List UInt8 := [0, 80] ++ messageOfThere ++ [0, 0]

theorem nextResponse_answerOfThere : Wire.nextResponse ((default : Chunk.Reader).feed answerOfThere)
    = (.ok (some (.success [("rt", .map entriesOfThere)])), default) := by
  have hfirst : Chunk.first? answerOfThere = some (messageOfThere, [0, 0]) := by cbv
  have hlength : messageOfThere.length = 80 := by cbv
  have hdecode : PackStream.decode messageOfThere = .ok (.struct 0x70 [.map [("rt", .map entriesOfThere)]]) := by cbv
  exact Wire.nextResponse_of_chunk hfirst (List.ne_nil_of_length_pos (by omega)) (by rw [hlength]; decide) hdecode rfl

def toThere : Connection := { Pool.readyFor there with routed := true }

/-- ROUTE is queued. -/
def queuedForThere : Connection := (toThere.queue (.route [] [] (.context (some "d") none)) .plain {}).2

def askingThere : Connection := { toThere with pending := [.ofRequest .route .plain {}] }

def toldByThere : Connection :=
  { toThere with answered := #[(Exchange.succeed (.ofRequest .route .plain {}) ⟨[("rt", .map entriesOfThere)]⟩).1] }

theorem there_tells : Leads Connection.Session.anyNetwork
    ((Connection.route [] [] (some "d") none).run, ⟨toThere, []⟩)
    (.done (.ok [rowOfThere]), ⟨toldByThere, answerOfThere⟩) := by
  have hsend : Leads Connection.Session.anyNetwork (Connection.sendAll.run, ⟨queuedForThere, []⟩)
      (.done (.ok ()), ⟨askingThere, []⟩) :=
    Connection.leads_sendAll .start ⟨rfl, rfl, rfl⟩ rfl (Chunk.Writer.size_endMessage _)
  have hnext : Leads Connection.Session.anyNetwork (Connection.nextAnswer.run, ⟨askingThere, []⟩)
      (.done (.ok (.success [("rt", .map entriesOfThere)])), ⟨askingThere, answerOfThere⟩) :=
    Connection.leads_nextAnswer_reading rfl Wire.nextResponse_default nextResponse_answerOfThere
  have htakes : Connection.TakesIn ⟨askingThere, []⟩ ⟨toldByThere, answerOfThere⟩ :=
    ⟨rfl, _, Connection.leads_fetchOne .start ⟨rfl, rfl, rfl⟩ rfl hnext rfl⟩
  have hrows : (Connection.routeRow (toldByThere.exchange? 0), toldByThere) = (.ok [rowOfThere], toldByThere) := by cbv
  obtain ⟨counts, hfetch⟩ := Connection.leads_fetchAll (.single htakes) rfl
  refine .head (.answer (b := .v5_2) (t := ⟨toThere, []⟩) ⟨.start, rfl, rfl⟩) ?_
  refine .head (.answer (b := .ok 0) (t := ⟨queuedForThere, []⟩) ⟨.start, rfl, rfl⟩) ?_
  refine Relation.ReflTransGen.trans (Leads.bind hsend _) ?_
  refine Relation.ReflTransGen.trans (Leads.bind hfetch _) ?_
  exact .head (.answer (Connection.Session.answers_edit .start hrows)) .refl

/-- The pool while the connection to the other router is out. -/
def thereLent : Pool := { withoutGone with slots := [{ address := there, inUse := 1 }] }

theorem there_lends : Runs Grip.surroundings (Pool.acquire halfGone.opener there .never none).run
    ⟨withoutGone, []⟩ (.ok ()) ⟨thereLent, [.borrowed ⟨toThere, 0⟩]⟩ := by
  let reserved : Pool := { withoutGone with slots := [{ address := there, reservations := 1 }] }
  refine .head .round ?_
  refine .head (.answer (b := some 1) ⟨.start, rfl⟩) ?_
  refine .head .round ?_
  refine .head (.answer (b := false) ⟨.start, rfl⟩) ?_
  refine .head (.answer (b := true) (t := ⟨reserved, [.place there 0]⟩) ⟨.start, rfl⟩) ?_
  exact .head (.answer (b := ()) (t := ⟨thereLent, [.borrowed ⟨toThere, 0⟩]⟩) ⟨.start, rfl⟩) .refl

/-- What is left when the other router has given the table. -/
def retold : Pool where
  directory := some ((twofold.discard gone).store (some "d")
    (.ofServers (some "d") [there] [there] [] (.ofSeconds 300) .start) .start)
  slots := [{ address := there, idle := [⟨toldByThere, 0⟩] }]
  changes := 2

theorem there_is_asked : Runs Grip.surroundings (halfGone.renewFrom wantedInquiry [there, default]).run
    ⟨withoutGone, []⟩ (.ok true) ⟨retold, []⟩ := by
  let kept : Pool := { retold with directory := withoutGone.directory }
  have hasked : Leads Grip.surroundings
      ((Pool.onTop (Connection.route [] [] (some "d") none).run : Pool.Task _), ⟨thereLent, [.borrowed ⟨toThere, 0⟩]⟩)
      (.done (.ok [rowOfThere]), ⟨thereLent, [.borrowed ⟨toldByThere, 0⟩]⟩) :=
    Pool.leads_onTop (m := ⟨toThere, 0⟩) (.inl rfl) (Connection.route_stays [] [] (some "d") none) there_tells
  have hkept : Pool.Move.checkIn.apply .start ⟨thereLent, [.borrowed ⟨toldByThere, 0⟩]⟩ = (0, ⟨kept, []⟩) := by cbv
  refine Relation.ReflTransGen.trans (((((Leads.bind there_lends _).bind _).bind _).bind _).bind _) ?_
  refine .head (.answer (b := ()) (t := ⟨thereLent, [.borrowed ⟨toThere, 0⟩]⟩) ⟨.start, _, rfl, rfl⟩) ?_
  refine Relation.ReflTransGen.trans ((((((hasked.bind _).bind _).bind _).bind _).bind _).bind _) ?_
  refine .head (.answer (b := ()) (t := ⟨thereLent, [.borrowed ⟨toldByThere, 0⟩]⟩) ⟨.start, _, rfl, rfl⟩) ?_
  -- the connection stays in the pool, and the table is taken over
  refine .head (.answer (b := toldByThere) (t := ⟨thereLent, [.borrowed ⟨toldByThere, 0⟩]⟩) ⟨.start, _, rfl, rfl⟩) ?_
  refine .head (.answer (b := 0) ⟨.start, hkept⟩) ?_
  refine .head (.answer (b := .start) rfl) ?_
  exact .head (.answer (b := ()) (t := ⟨retold, []⟩) ⟨.start, rfl⟩) .refl

theorem renew_succeeds : Runs Grip.surroundings (halfGone.renew wantedInquiry).run
    ⟨{ directory := some twofold }, []⟩ (.ok ()) ⟨retold, []⟩ := by
  refine .head (.answer (b := [gone, there, default]) ⟨.start, rfl⟩) ?_
  exact Leads.bind (gone_is_asked.trans there_is_asked) _

theorem renew_asks_in_order_twofold : ∃ asked found w,
    Runs Grip.surroundings (halfGone.renew wantedInquiry).run ⟨{ directory := some twofold }, []⟩ (.ok ())
      ⟨retold, []⟩ ∧
    retold.directory.map (fun d => (d.table (some "d") .start).routers) = some [there] ∧
    Course Grip.surroundings Query.Beside (halfGone.asking wantedInquiry) (.done (.ok ()), ⟨retold, []⟩)
      ((halfGone.renew wantedInquiry).run, ⟨{ directory := some twofold }, []⟩) asked ∧
    Ended wantedInquiry [(gone, gone), (there, there), (default, default)] asked (.ok (some found)) ∧
    Grip.surroundings.Answers w (.move (.store (some "d") found)) () ⟨retold, []⟩ := by
  have halone : Alone Grip.surroundings id := fun hb => hb
  obtain ⟨now, plan, asked, outcome, w, hplan, hcourse, hended, hconcludes, _⟩ :=
    renew_asks_in_order halfGone wantedInquiry halone twofold (.ok ()) rfl twofold_proper renew_succeeds
  obtain rfl : plan = [gone, there, default] := hplan.eq_append rfl
  rcases outcome with e | _ | found
  · cases hconcludes.1
  · cases hconcludes.1
  · exact ⟨asked, found, w, renew_succeeds, by cbv, hcourse, hended, hconcludes.2⟩

end Cluster
end Routing
end BoltClient
