import BoltClient.Proofs.Routing.Edits

namespace BoltClient

namespace Routing

/-- A table is as it was, but some servers may have been taken out. -/
structure Table.Thins (t t' : Table) : Prop where
  database : t'.database = t.database
  initialRouters : t'.initialRouters = t.initialRouters
  withoutWriters : t'.withoutWriters = t.withoutWriters
  updated : t'.updated = t.updated
  ttl : t'.ttl = t.ttl
  addresses : ∀ role, (t'.addresses role).Sublist (t.addresses role)

/-- Every table is there as it was, but some servers may have been taken out. At most the table of one database
is new, and it lists no other server than the first router. -/
structure Directory.Thins (database : Option String) (d d' : Directory) : Prop where
  firstRouter : d'.firstRouter = d.firstRouter
  kept : ∀ key t, d.table? key = some t → ∃ t', d'.table? key = some t' ∧ t.Thins t'
  added : ∀ key t', d.table? key = none → d'.table? key = some t' →
    key = database ∧ ∀ role, ∀ a ∈ t'.addresses role, a = d.firstRouter

variable {t t' t'' : Table} {d d' d'' : Directory} {database key : Option String}

theorem Table.Thins.refl (t : Table) : t.Thins t := ⟨rfl, rfl, rfl, rfl, rfl, fun _ => .refl _⟩

theorem Table.Thins.trans (h : t.Thins t') (h' : t'.Thins t'') : t.Thins t'' where
  database := h'.database.trans h.database
  initialRouters := h'.initialRouters.trans h.initialRouters
  withoutWriters := h'.withoutWriters.trans h.withoutWriters
  updated := h'.updated.trans h.updated
  ttl := h'.ttl.trans h.ttl
  addresses role := (h'.addresses role).trans (h.addresses role)

theorem Table.thins_discard (t : Table) (a : Address) : t.Thins (t.discard a) :=
  ⟨rfl, rfl, rfl, rfl, rfl, fun role => by cases role <;> exact List.erase_sublist⟩

theorem Table.thins_discardWriter (t : Table) (a : Address) : t.Thins (t.discardWriter a) := by
  refine ⟨rfl, rfl, rfl, rfl, rfl, fun role => ?_⟩
  cases role with
  | route | read => exact .refl _
  | write => exact List.erase_sublist

theorem Table.addresses_update (t newer : Table) (now : Instant) (role : Role) :
    (t.update newer now).addresses role = newer.addresses role := by
  cases role <;> rfl

theorem Directory.Thins.refl (database : Option String) (d : Directory) : d.Thins database d :=
  ⟨rfl, fun _ t ht => ⟨t, ht, .refl t⟩, fun _ _ hnone hsome => by rw [hnone] at hsome; cases hsome⟩

theorem Directory.Thins.trans (h : d.Thins database d') (h' : d'.Thins database d'') :
    d.Thins database d'' := by
  refine ⟨h'.firstRouter.trans h.firstRouter, fun key t ht => ?_, fun key t'' hnone ht'' => ?_⟩
  · obtain ⟨t', ht', hthins⟩ := h.kept key t ht
    obtain ⟨t'', ht'', hthins'⟩ := h'.kept key t' ht'
    exact ⟨t'', ht'', hthins.trans hthins'⟩
  · cases ht' : d'.table? key with
    | none =>
      obtain ⟨hkey, honly⟩ := h'.added key t'' ht' ht''
      rw [h.firstRouter] at honly
      exact ⟨hkey, honly⟩
    | some t' =>
      obtain ⟨hkey, honly⟩ := h.added key t' hnone ht'
      obtain ⟨u, hu, hthins⟩ := h'.kept key t' ht'
      rw [ht''] at hu
      cases hu
      exact ⟨hkey, fun role a ha => honly role a ((hthins.addresses role).subset ha)⟩

/-- Servers are taken out of the tables one by one. -/
theorem Directory.thins_of_map {f : Option String → Table → Table} (hfirst : d'.firstRouter = d.firstRouter)
    (htables : ∀ key, d'.table? key = (d.table? key).map (f key)) (hf : ∀ key t, Table.Thins t (f key t)) :
    d.Thins database d' := by
  refine ⟨hfirst, fun key t ht => ⟨f key t, ?_, hf key t⟩, fun key t' hnone ht' => ?_⟩
  · rw [htables, ht]
    rfl
  · rw [htables, hnone] at ht'
    cases ht'

/-- One change takes servers out of the tables that are there, each under its own name. -/
theorem Directory.Edit.tables (h : d.Edit d') : ∃ f : Option String → Table → Table,
    (∀ key, d'.table? key = (d.table? key).map (f key)) ∧ ∀ key t, Table.Thins t (f key t) := by
  cases h with
  | discard a => exact ⟨_, d.table?_discard a, fun _ t => t.thins_discard a⟩
  | discardWriter a key =>
    refine ⟨fun k t => if k = key then t.discardWriter a else t, fun _ => table?_modify _, fun k t => ?_⟩
    dsimp only
    split
    · exact t.thins_discardWriter a
    · exact .refl t
  | select role key count choice =>
    refine ⟨fun _ t => t, fun k => ?_, fun _ t => .refl t⟩
    unfold Directory.select
    split <;> exact Option.map_id'.symm

theorem Directory.Edit.thins (h : d.Edit d') : d.Thins database d' := by
  obtain ⟨f, htables, hf⟩ := h.tables
  exact thins_of_map (Edits.firstRouter (.single h)) htables hf

theorem Directory.Edits.thins (h : d.Edits d') : d.Thins database d' := by
  induction h with
  | refl => exact .refl database d
  | tail _ hedit ih => exact ih.trans hedit.thins

theorem Directory.table?_ensure (d : Directory) (database : Option String) (now : Instant)
    (key : Option String) :
    (d.ensure database now).table? key = if key = database then some (d.table database now) else d.table? key := by
  unfold Directory.ensure Directory.table
  cases hfound : d.table? database with
  | some t =>
    dsimp only
    split
    · next hkey => rw [hkey, hfound]; rfl
    · rfl
  | none =>
    dsimp only
    unfold Directory.table? at hfound ⊢
    rw [List.lookup_append]
    by_cases hkey : key = database
    · rw [if_pos hkey, hkey, hfound, List.lookup_cons, beq_self_eq_true]
      rfl
    · rw [if_neg hkey, List.lookup_cons, beq_false_of_ne hkey, List.lookup_nil, Option.or_none]

theorem Directory.firstRouter_ensure (d : Directory) (database : Option String) (now : Instant) :
    (d.ensure database now).firstRouter = d.firstRouter := by
  unfold Directory.ensure
  split <;> rfl

/-- A table that is started lists no other server than the first router. -/
theorem Directory.thins_ensure (d : Directory) (database : Option String) (now : Instant) :
    d.Thins database (d.ensure database now) := by
  refine ⟨d.firstRouter_ensure database now, fun key t ht => ⟨t, ?_, .refl t⟩, fun key t' hnone ht' => ?_⟩
  · rw [table?_ensure]
    split
    · next hkey => rw [table, ← hkey, ht]; rfl
    · exact ht
  · rw [table?_ensure] at ht'
    split at ht'
    · next hkey =>
      rw [table, ← hkey, hnone] at ht'
      cases ht'
      refine ⟨hkey, fun role a ha => ?_⟩
      cases role with
      | route => exact List.mem_singleton.mp (by simpa [firstTable, Table.ofRouters, Table.ofServers,
          Table.addresses] using ha)
      | read | write => simp [firstTable, Table.ofRouters, Table.ofServers, Table.addresses] at ha
    · rw [hnone] at ht'
      cases ht'

end Routing

namespace Pool

open Work
open Routing (Directory)

/-- From one pool to another the tables are only thinned. -/
def KeepsTables (database : Option String) (p q : Pool) : Prop :=
  ∀ d, p.directory = some d → ∃ d', q.directory = some d' ∧ d.Thins database d'

variable {α β : Type} {p q r : Pool} {database : Option String} {g g' : Grip}

theorem KeepsTables.of_eq (h : q.directory = p.directory) : KeepsTables database p q :=
  fun d hd => ⟨d, h.trans hd, .refl database d⟩

theorem KeepsTables.trans (h : KeepsTables database p q) (h' : KeepsTables database q r) :
    KeepsTables database p r := by
  intro d hd
  obtain ⟨d', hd', hthins⟩ := h d hd
  obtain ⟨d'', hd'', hthins'⟩ := h' d' hd'
  exact ⟨d'', hd'', hthins.trans hthins'⟩

theorem KeepsTables.of_map {f : Directory → Directory} (h : q.directory = p.directory.map f)
    (hf : ∀ d, Directory.Thins database d (f d)) : KeepsTables database p q := by
  intro d hd
  rw [hd] at h
  exact ⟨f d, h, hf d⟩

theorem EditsTables.keeps (h : EditsTables p q) : KeepsTables database p q := by
  intro d hd
  obtain ⟨d', hd', hedits⟩ := h d hd
  exact ⟨d', hd', hedits.thins⟩

theorem keepsTables_answer {q : Query β} {b : β} (hq : q.Plain) (hb : g.Answers q b g') :
    KeepsTables database g.pool g'.pool := (editsTables_answer hq hb).keeps

theorem keepsTables_of_plain {w : Task α} {b : α} (h : w.Asks Query.Plain)
    (hrun : Runs Grip.surroundings w g b g') : KeepsTables database g.pool g'.pool :=
  (editsTables_of_plain h hrun).keeps

end Pool

namespace Routing.Cluster

open Work
open Pool (Grip KeepsTables Query keepsTables_answer keepsTables_of_plain)

variable {c : Cluster} {q : Inquiry} {g g' : Grip}

/-- Candidates that give no table cost the tables nothing but servers. -/
theorem candidates_keep {candidates : List Address} {r : Except Error Bool} (hr : r ≠ .ok true)
    (hrun : Runs Grip.surroundings (c.renewFromCandidates q candidates).run g r g') :
    KeepsTables q.database g.pool g'.pool := by
  induction candidates generalizing g with
  | nil =>
    obtain ⟨_, rfl⟩ := hrun.of_done
    exact .of_eq rfl
  | cons a rest ih =>
    unfold renewFromCandidates at hrun
    rcases hrun.of_orFail with ⟨found, u, hfetch, hrest⟩ | ⟨e, _, hfetch⟩
    · have hkeeps : KeepsTables q.database g.pool u.pool := keepsTables_of_plain (c.plain_basics.fetchTable a q) hfetch
      cases found with
      | none => exact hkeeps.trans (ih hrest)
      | some t =>
        obtain ⟨_, _, _, hdone⟩ := hrest.of_lift
        exact absurd hdone.of_done.1 hr
    · exact keepsTables_of_plain (c.plain_basics.fetchTable a q) hfetch

theorem routers_keep {routers : List Address} {r : Except Error Bool} (hr : r ≠ .ok true)
    (hrun : Runs Grip.surroundings (c.renewFrom q routers).run g r g') :
    KeepsTables q.database g.pool g'.pool := by
  induction routers generalizing g with
  | nil =>
    obtain ⟨_, rfl⟩ := hrun.of_done
    exact .of_eq rfl
  | cons router rest ih =>
    unfold renewFrom at hrun
    rcases hrun.of_orFail with ⟨renewed, u, hcandidates, hrest⟩ | ⟨e, _, hcandidates⟩
    · cases renewed with
      | true => exact absurd hrest.of_done.1 hr
      | false =>
        have hasked := candidates_keep (by simp) hcandidates
        obtain ⟨_, v, hgone, hnext⟩ := hrest.of_lift
        exact hasked.trans ((keepsTables_of_plain (c.plain_basics.giveUp router) hgone).trans (ih hnext))
    · exact candidates_keep (by simp) hcandidates

/-- Looking up the routers may start the table that is asked for, and does nothing else. -/
theorem keepsTables_routers {database : Option String} {routers : List Address}
    (h : g.Answers (.move (.routers database)) routers g') : KeepsTables database g.pool g'.pool := by
  obtain ⟨now, happly⟩ := h
  obtain rfl : (g.change (·.ensure database now)) = g' := congrArg Prod.snd happly
  exact .of_map rfl fun d => d.thins_ensure database now

theorem renew_keeps {e : Error} (hrun : Runs Grip.surroundings (c.renew q).run g (.error e) g') :
    KeepsTables q.database g.pool g'.pool := by
  unfold renew at hrun
  obtain ⟨routers, u, hlook, hrest⟩ := hrun.of_lift
  have hstart : KeepsTables q.database g.pool u.pool := keepsTables_routers hlook.of_query
  rcases hrest.of_orFail with ⟨renewed, v, hasked, hend⟩ | ⟨_, _, hasked⟩
  · cases renewed with
    | true => cases hend.of_done.1
    | false =>
      obtain ⟨_, rfl⟩ := hend.of_done
      exact hstart.trans (routers_keep (by simp) hasked)
  · exact hstart.trans (routers_keep (by simp) hasked)

/-- Work in turn is done between the moment when it is somebody's turn and the moment when it is over. -/
theorem of_inTurn {S α : Type} {R : Surroundings Query S} {w : Pool.Attempt α} {r : Except Error α} {s t : S}
    (hrun : Runs R (inTurn w).run s r t) : ∃ u v, R.Answers s .waitForTurn () u ∧
      Passes R ((inTurn w).run, s) (.done r, t) w.run u r v ∧ R.Answers v (.move .letGo) () t := by
  unfold inTurn at hrun ⊢
  obtain ⟨_, u, hturn, hrest⟩ := hrun.of_lift
  obtain ⟨outcome, v, hwork, hlast⟩ := hrest.of_lift
  obtain ⟨_, _, hletGo, hend⟩ := hlast.of_lift
  obtain ⟨rfl, rfl⟩ := hend.of_done
  exact ⟨u, v, hturn.of_query, .inRestLifted hturn (.lifted hwork hlast), hletGo.of_query⟩

/-- When the tables cannot be renewed, every table is there as it was but for servers that were taken out. Only
the table that was asked for may be new, and then it lists no other server than the first router. -/
theorem failed_update_thins (c : Cluster) (q : Inquiry) (p : Pool) (held : List Holding) (d : Directory)
    (e : Error) (g : Grip) (hd : p.directory = some d)
    (hrun : Runs Grip.surroundings (c.update q).run ⟨p, held⟩ (.error e) g) :
    ∃ d', g.pool.directory = some d' ∧ d.Thins q.database d' := by
  obtain ⟨g₁, g₂, hturn, hrenew, hletGo⟩ := of_inTurn hrun
  have hwaited : KeepsTables q.database p g₁.pool := by
    obtain ⟨_, rfl⟩ := hturn
    exact .of_eq rfl
  have hgone : KeepsTables q.database g₂.pool g.pool := keepsTables_answer (q := .move .letGo) trivial hletGo
  exact (hwaited.trans ((renew_keeps hrenew.runs).trans hgone)) d hd

def anyCluster : Cluster := ⟨Pool.prompt, .plain, []⟩

def given (database : Option String) : Table :=
  .ofServers database [default] [default] [⟨"other", Address.defaultPort⟩] (.ofSeconds 300) .start

def known : Directory := ⟨default, [(some "d", given (some "d"))], default⟩

def homeInquiry : Inquiry := ⟨none, none, [], .never⟩

theorem update_fails : ∃ g, Runs Grip.surroundings (anyCluster.update homeInquiry).run
    ⟨{ directory := some known, closed := true }, []⟩ (.error noTable) g := by
  refine ⟨?_, .head (.answer (b := ()) ⟨rfl, rfl⟩) ?_⟩
  rotate_left
  refine .head (.answer (b := [default]) ⟨.start, rfl⟩) ?_
  refine .head .round ?_
  refine .head (.answer (b := none) ⟨.start, rfl⟩) ?_
  -- the router is taken out of the tables and given up
  refine .head (.answer (b := ()) ⟨.start, rfl⟩) ?_
  refine .head (.answer (b := 0) ⟨.start, rfl⟩) ?_
  refine .head (.answer (b := ()) ⟨.start, rfl⟩) ?_
  exact .refl

theorem failed_update_thins_known : ∃ g d', Runs Grip.surroundings (anyCluster.update homeInquiry).run
    ⟨{ directory := some known, closed := true }, []⟩ (.error noTable) g ∧
    g.pool.directory = some d' ∧ known.Thins none d' := by
  obtain ⟨g, hrun⟩ := update_fails
  obtain ⟨d', hd', hthins⟩ := failed_update_thins anyCluster homeInquiry _ [] known noTable g rfl hrun
  exact ⟨g, d', hrun, hd', hthins⟩

end Routing.Cluster
end BoltClient
