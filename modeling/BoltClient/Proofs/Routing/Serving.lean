import BoltClient.Proofs.Routing.Search

namespace BoltClient

namespace Routing

variable {d d' : Directory} {role : Role} {database : Option String}

def Directory.serving (d : Directory) (role : Role) (database : Option String) : List Address :=
  ((d.table? database).map (·.addresses role)).getD []

theorem Directory.Edits.serving (h : d.Edits d') : (d'.serving role database).Sublist (d.serving role database) := by
  induction h with
  | refl => exact .refl _
  | @tail e e' _ hedit ih =>
    obtain ⟨f, htables, hf⟩ := hedit.tables
    refine List.Sublist.trans ?_ ih
    unfold Directory.serving
    rw [htables]
    cases e.table? database with
    | none => exact .refl _
    | some t => exact (hf database t).addresses role

theorem Directory.Avoids.serving {a : Address} (h : d.Avoids a) : a ∉ d.serving role database := by
  unfold Directory.serving
  cases hfound : d.table? database with
  | none => exact List.not_mem_nil
  | some t => exact h _ (Directory.mem_of_table? hfound) role

/-- Among addresses some have the least count. -/
theorem leastOf_ne_nil (count : Address → Nat) {addresses : List Address} (h : addresses ≠ []) :
    leastOf count addresses ≠ [] := by
  obtain ⟨a, ha⟩ := List.exists_mem_of_ne_nil _ h
  obtain ⟨least, hleast, hmin⟩ := Finset.exists_min_image addresses.toFinset count ⟨a, List.mem_toFinset.mpr ha⟩
  refine List.ne_nil_of_mem (a := least) (List.mem_filter.mpr ⟨List.mem_toFinset.mp hleast, ?_⟩)
  exact List.all_eq_true.mpr fun b hb => decide_eq_true (hmin b (List.mem_toFinset.mpr hb))

/-- Whatever is drawn, somebody with the least count is selected, if there is anybody. -/
theorem Selector.select_least {selector : Selector} (hpolicy : selector.policy = .leastConnected)
    (count : Address → Nat) (choice : Nat) (addresses : List Address) :
    match (selector.select count choice addresses).1 with
    | none => addresses = []
    | some a => a ∈ addresses ∧ ∀ b ∈ addresses, count a ≤ count b := by
  unfold Selector.select Selector.candidates
  simp only [hpolicy]
  cases hfound : (leastOf count addresses)[choice % (leastOf count addresses).length]? with
  | none =>
    by_contra hsome
    have hpos := List.length_pos_of_ne_nil (leastOf_ne_nil count hsome)
    have hlt := Nat.mod_lt choice hpos
    rw [List.getElem?_eq_getElem hlt] at hfound
    cases hfound
  | some a =>
    obtain ⟨ha, hleast⟩ := List.mem_filter.mp (List.mem_of_getElem? hfound)
    exact ⟨ha, fun b hb => of_decide_eq_true (List.all_eq_true.mp hleast b hb)⟩

theorem Directory.serving_select (d : Directory) (role : Role) (database : Option String) (count : Address → Nat)
    (choice : Nat) : (d.select role database count choice).2.serving role database = d.serving role database := by
  unfold Directory.select
  split <;> rfl

theorem Directory.select_least (hpolicy : d.selector.policy = .leastConnected) (role : Role)
    (database : Option String) (count : Address → Nat) (choice : Nat) :
    match (d.select role database count choice).1 with
    | none => d.serving role database = []
    | some a => a ∈ d.serving role database ∧ ∀ b ∈ d.serving role database, count a ≤ count b := by
  unfold Directory.select Directory.serving
  cases d.table? database with
  | none => rfl
  | some t => exact d.selector.select_least hpolicy count choice (t.addresses role)

end Routing

namespace Pool

open Routing (Role)

variable {p q : Pool} {role : Role} {database : Option String} {a : Address}
  {g g' : Grip}

def serving (p : Pool) (role : Role) (database : Option String) : List Address :=
  (p.directory.map (·.serving role database)).getD []

/-- A server of a role, and none of the others has fewer connections in use. -/
def Least (p : Pool) (role : Role) (database : Option String) (a : Address) : Prop :=
  a ∈ p.serving role database ∧ ∀ b ∈ p.serving role database, p.inUse a ≤ p.inUse b

/-- The tables of a pool name nobody twice, and servers are selected by the connections that are in use. -/
def Balanced (p : Pool) : Prop :=
  ∃ d, p.directory = some d ∧ d.Proper ∧ d.selector.policy = .leastConnected

theorem EditsTables.balanced (h : EditsTables p q) (hp : p.Balanced) : q.Balanced := by
  obtain ⟨d, hd, hproper, hpolicy⟩ := hp
  obtain ⟨d', hd', hedits⟩ := h d hd
  exact ⟨d', hd', hedits.proper hproper, hedits.policy.trans hpolicy⟩

theorem Balanced.proper (h : p.Balanced) : p.Proper := by
  obtain ⟨d, hd, hproper, _⟩ := h
  exact ⟨d, hd, hproper⟩

/-- As servers are taken out of the tables, nobody comes to serve. -/
theorem EditsTables.serving (h : EditsTables p q) (hp : p.Balanced) (role : Role) (database : Option String) :
    (q.serving role database).Sublist (p.serving role database) := by
  obtain ⟨d, hd, _⟩ := hp
  obtain ⟨d', hd', hedits⟩ := h d hd
  unfold Pool.serving
  rw [hd, hd']
  exact hedits.serving

theorem Avoids.serving (h : p.Avoids a) : a ∉ p.serving role database := by
  obtain ⟨d, hd, havoids⟩ := h
  unfold Pool.serving
  rw [hd]
  exact havoids.serving

/-- Whatever is drawn, a server is selected that has the fewest connections in use, if any server is left. -/
theorem Balanced.selected {choice : Nat} {found : Option Address} (h : g.pool.Balanced)
    (hb : g.Answers (.move (.select role database choice)) found g') :
    (found = none → g'.pool.serving role database = []) ∧
      ∀ a, found = some a → g'.pool.Least role database a := by
  obtain ⟨d, hd, _, hpolicy⟩ := h
  obtain ⟨now, happly⟩ := hb
  simp only [Move.apply, hd] at happly
  obtain ⟨rfl, rfl⟩ := Prod.mk.inj happly
  have hserving : Pool.serving { g.pool with directory := some (d.select role database g.pool.inUse choice).2 } role
      database = d.serving role database := d.serving_select role database g.pool.inUse choice
  have hleast := d.select_least hpolicy role database g.pool.inUse choice
  refine ⟨fun hnone => ?_, fun a hsome => ?_⟩
  · rw [hnone] at hleast
    exact hserving.trans hleast
  · rw [hsome] at hleast
    unfold Least
    rw [hserving]
    exact hleast

end Pool

namespace Routing

open Work
open Pool (Alone Grip Query)

variable {d : Directory} {t : Table} {q : Inquiry}

theorem Gives.proper {answer : Except Error (List Row)} (h : Gives q t answer) : t.Proper := by
  obtain ⟨row, _, now, _, htable, _⟩ := h
  unfold Table.ofRow Table.ofListings at htable
  split at htable
  · cases htable
    exact Table.proper_ofServers _ _ _ _ _ _
  · cases htable

theorem Directory.selector_ensure (d : Directory) (database : Option String) (now : Instant) :
    (d.ensure database now).selector = d.selector := by
  unfold Directory.ensure
  split <;> rfl

theorem Directory.selector_store (d : Directory) (database : Option String) (t : Table) (now : Instant) :
    (d.store database t now).selector = d.selector := d.selector_ensure database now

namespace Cluster

variable {S : Type} {R : Surroundings Query S} {grip : S → Grip} {c : Cluster} {s s' : S} {role : Role}

theorem balanced_of_look (hR : Alone R grip) {fresh : Bool} (hs : (grip s).pool.Balanced)
    (hlook : R.Answers s (.move (.isFresh role q.database)) fresh s') : (grip s').pool.Balanced := by
  obtain ⟨d, hd, hproper, hpolicy⟩ := hs
  obtain ⟨now, happly⟩ := hR hlook
  have hlooked : (grip s).change (fun d => (d.purge now).ensure q.database now) = grip s' := congrArg Prod.snd happly
  rw [← hlooked]
  refine ⟨_, congrArg (Option.map _) hd, (hproper.purge now).ensure q.database now, ?_⟩
  rw [Directory.selector_ensure]
  exact hpolicy

theorem balanced_of_store (hR : Alone R grip) (ht : t.Proper) (hs : (grip s).pool.Balanced)
    (hstore : R.Answers s (.move (.store q.database t)) () s') : (grip s').pool.Balanced := by
  obtain ⟨d, hd, hproper, hpolicy⟩ := hs
  obtain ⟨now, happly⟩ := hR hstore
  have hstored : (grip s).change (fun d =>
      (if t.database = q.database then d else d.store t.database t now).store q.database t now) = grip s' :=
    congrArg Prod.snd happly
  rw [← hstored]
  refine ⟨_, congrArg (Option.map _) hd, ?_, ?_⟩
  · refine Directory.Proper.store ?_ ht q.database now
    split
    · exact hproper
    · exact hproper.store ht t.database now
  · rw [Directory.selector_store]
    split
    · exact hpolicy
    · rw [Directory.selector_store]
      exact hpolicy

theorem balanced_of_renew (hR : Alone R grip) {r : Except Error Unit} (hs : (grip s).pool.Balanced)
    (hrun : Runs R (c.renew q).run s r s') : (grip s').pool.Balanced := by
  obtain ⟨d, hd, hproper, hpolicy⟩ := hs
  obtain ⟨now, asked, outcome, u, w, _, hu, hsearched, hconcludes⟩ := renew_run hR hd hproper hrun
  have hstarted : (grip u).pool.Balanced :=
    ⟨_, hu, hproper.ensure q.database now, (d.selector_ensure q.database now ▸ hpolicy)⟩
  have hasked := hsearched.edits.balanced hstarted
  rcases outcome with e | _ | t
  · exact hconcludes.2 ▸ hasked
  · exact hconcludes.2 ▸ hasked
  · obtain ⟨x, _, hdecides⟩ := hsearched.ended.decided (by simp)
    have hgives : Gives q t x.result := hdecides
    exact balanced_of_store hR hgives.proper hasked hconcludes.2

/-- However the tables are renewed, they name nobody twice, and servers are selected as before. -/
theorem balanced_of_ensureFresh (hR : Alone R grip) {r : Except Error Bool} (hs : (grip s).pool.Balanced)
    (hrun : Runs R (c.ensureFresh role q).run s r s') : (grip s').pool.Balanced := by
  have hplain {β : Type} {x y : S} {ask : Query β} {b : β} (hb : R.Answers x ask b y) (h : ask.Plain)
      (hx : (grip x).pool.Balanced) : (grip y).pool.Balanced := (Pool.editsTables_answer h (hR hb)).balanced hx
  obtain ⟨u, fresh, v, w, hturn, hlook, hletGo, hcase⟩ := of_ensureFresh hrun
  have hv : (grip v).pool.Balanced := balanced_of_look hR (hplain hturn trivial hs) hlook
  refine hplain hletGo trivial ?_
  cases fresh with
  | true => exact hcase.2 ▸ hv
  | false =>
    obtain ⟨outcome, z, hrenew, houtcome⟩ := hcase
    have hz : (grip z).pool.Balanced := balanced_of_renew hR hv hrenew.runs
    cases outcome with
    | ok =>
      obtain ⟨_, hdrop⟩ := houtcome
      exact (hR.edits (c.plain_basics.dropStrangers (Pool.asks_move trivial)) hdrop).balanced hz
    | error e =>
      rcases houtcome with ⟨_, rfl | hserves⟩ | ⟨_, _, _, hserves⟩
      · exact hz
      · exact hplain hserves trivial hz
      · exact hplain hserves trivial hz

end Cluster
end Routing

end BoltClient
