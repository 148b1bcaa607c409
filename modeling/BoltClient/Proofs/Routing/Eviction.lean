import BoltClient.Proofs.Routing.Listing
import BoltClient.Proofs.Routing.Thinning

namespace BoltClient

namespace Routing

def Table.Proper (t : Table) : Prop := ∀ role, (t.addresses role).Nodup

/-- No table names an address twice in one role. -/
def Directory.Proper (d : Directory) : Prop := ∀ entry ∈ d.tables, entry.2.Proper

def Directory.Avoids (d : Directory) (a : Address) : Prop := ∀ entry ∈ d.tables, ∀ role, a ∉ entry.2.addresses role

/-- An address has been taken out of some roles of a table, and that is all. -/
structure Table.Loses (a : Address) (lost : Role → Prop) (t t' : Table) : Prop where
  gone : ∀ role, lost role → a ∉ t'.addresses role
  kept : ∀ role, ¬lost role → t'.addresses role = t.addresses role
  others : ∀ role, (t'.addresses role).filter (· ≠ a) = (t.addresses role).filter (· ≠ a)
  database : t'.database = t.database
  initialRouters : t'.initialRouters = t.initialRouters
  withoutWriters : t'.withoutWriters = t.withoutWriters
  updated : t'.updated = t.updated
  ttl : t'.ttl = t.ttl

/-- An address has been taken out of some roles of the tables of some databases. No table is gone and none is
new. -/
structure Directory.Loses (a : Address) (lost : Option String → Role → Prop) (d d' : Directory) : Prop where
  tables : ∀ key, Option.Rel (Table.Loses a (lost key)) (d.table? key) (d'.table? key)
  firstRouter : d'.firstRouter = d.firstRouter
  selector : d'.selector = d.selector

variable {t newer : Table} {d d' : Directory} {a b : Address} {database key : Option String} {now : Instant}

theorem Table.addresses_discard (t : Table) (a : Address) (role : Role) :
    (t.discard a).addresses role = (t.addresses role).erase a := by
  cases role <;> rfl

theorem Table.addresses_discardWriter (t : Table) (a : Address) (role : Role) :
    (t.discardWriter a).addresses role = if role = .write then (t.addresses role).erase a else t.addresses role := by
  cases role <;> rfl

theorem Table.proper_ofServers (database : Option String) (routers readers writers : List Address)
    (ttl : Duration) (now : Instant) : (ofServers database routers readers writers ttl now).Proper := by
  intro role
  cases role <;> exact (onceInOrder_eraseDups _).nodup

/-- Where servers are taken out nothing comes to be named twice. -/
theorem Table.Thins.proper {t' : Table} (h : t.Thins t') (ht : t.Proper) : t'.Proper :=
  fun role => (ht role).sublist (h.addresses role)

theorem filter_erase_of_nodup {l : List Address} (h : l.Nodup) :
    (l.erase a).filter (· ≠ a) = l.filter (· ≠ a) := by
  rw [h.erase_eq_filter, List.filter_filter]
  refine List.filter_congr fun b _ => ?_
  by_cases hb : b = a <;> simp [hb]

theorem Table.Proper.loses_discard (h : t.Proper) (a : Address) : t.Loses a (fun _ => True) (t.discard a) := by
  refine ⟨fun role _ => ?_, fun _ hkept => absurd trivial hkept, fun role => ?_, rfl, rfl, rfl, rfl, rfl⟩
  · rw [addresses_discard]
    exact (h role).not_mem_erase
  · rw [addresses_discard]
    exact filter_erase_of_nodup (h role)

theorem Table.Proper.loses_discardWriter (h : t.Proper) (a : Address) :
    t.Loses a (· = .write) (t.discardWriter a) := by
  refine ⟨fun role hrole => ?_, fun role hrole => ?_, fun role => ?_, rfl, rfl, rfl, rfl, rfl⟩
  · rw [addresses_discardWriter, if_pos hrole]
    exact (h role).not_mem_erase
  · rw [addresses_discardWriter, if_neg hrole]
  · rw [addresses_discardWriter]
    split
    · exact filter_erase_of_nodup (h role)
    · rfl

theorem Table.loses_nothing (t : Table) (a : Address) {lost : Role → Prop} (h : ∀ role, ¬lost role) :
    t.Loses a lost t :=
  ⟨fun role hlost => absurd hlost (h role), fun _ _ => rfl, fun _ => rfl, rfl, rfl, rfl, rfl, rfl⟩

theorem Directory.mem_of_table? (h : d.table? key = some t) : (key, t) ∈ d.tables := by
  unfold table? at h
  obtain ⟨before, after, htables, _⟩ := List.lookup_eq_some_iff.mp h
  simp [htables]

theorem Directory.Proper.table (h : d.Proper) (ht : d.table? key = some t) : t.Proper := h _ (mem_of_table? ht)

/-- What is done to each table alone is done under each name. -/
theorem Directory.loses_of_map {lost : Option String → Role → Prop} {f : Option String → Table → Table}
    (hfirst : d'.firstRouter = d.firstRouter) (hselector : d'.selector = d.selector)
    (htables : ∀ key, d'.table? key = (d.table? key).map (f key))
    (hf : ∀ key t, d.table? key = some t → t.Loses a (lost key) (f key t)) : d.Loses a lost d' := by
  refine ⟨fun key => ?_, hfirst, hselector⟩
  rw [htables]
  cases ht : d.table? key with
  | none => exact .none
  | some t => exact .some (hf key t ht)

theorem Directory.Proper.loses_discard (h : d.Proper) (a : Address) :
    d.Loses a (fun _ _ => True) (d.discard a) :=
  loses_of_map rfl rfl (d.table?_discard a) fun _ _ ht => (h.table ht).loses_discard a

theorem Directory.Proper.loses_discardWriter (h : d.Proper) (a : Address) (database : Option String) :
    d.Loses a (fun key role => key = database ∧ role = .write) (d.discardWriter a database) := by
  refine loses_of_map (f := fun key t => if key = database then t.discardWriter a else t) rfl rfl
    (fun _ => table?_modify _) fun key t ht => ?_
  by_cases hkey : key = database
  · simpa [hkey] using (h.table ht).loses_discardWriter a
  · rw [if_neg hkey]
    exact t.loses_nothing a fun _ hlost => hkey hlost.1

theorem Directory.Proper.avoids_discard (h : d.Proper) (a : Address) : (d.discard a).Avoids a := by
  intro entry' hentry' role
  obtain ⟨⟨k, t⟩, hentry, rfl⟩ := List.mem_map.mp hentry'
  rw [Table.addresses_discard]
  exact (h _ hentry role).not_mem_erase

/-- Every table that is there was there before, but for servers that were taken out. -/
theorem Directory.Edits.entries (h : d.Edits d') :
    ∀ entry' ∈ d'.tables, ∃ entry ∈ d.tables, entry.2.Thins entry'.2 := by
  induction h with
  | refl => exact fun entry hentry => ⟨entry, hentry, .refl _⟩
  | tail _ hedit ih =>
    have hback {e : Directory} (htables : e.tables = d.tables) : ∀ entry' ∈ e.tables, ∃ entry ∈ d.tables,
        entry.2.Thins entry'.2 := fun entry hentry => ⟨entry, htables ▸ hentry, .refl _⟩
    intro entry'' hentry''
    cases hedit with
    | discard a =>
      obtain ⟨entry', hentry', rfl⟩ := List.mem_map.mp hentry''
      obtain ⟨entry, hentry, hthins⟩ := ih entry' hentry'
      exact ⟨entry, hentry, hthins.trans (entry'.2.thins_discard a)⟩
    | discardWriter a database =>
      obtain ⟨entry', hentry', rfl⟩ := List.mem_map.mp hentry''
      obtain ⟨entry, hentry, hthins⟩ := ih entry' hentry'
      refine ⟨entry, hentry, hthins.trans ?_⟩
      dsimp only
      split
      · exact entry'.2.thins_discardWriter a
      · exact .refl _
    | select role database count choice =>
      unfold select at hentry''
      split at hentry'' <;> exact ih entry'' hentry''

theorem Directory.Edits.proper (h : d.Edits d') (hd : d.Proper) : d'.Proper := by
  intro entry' hentry'
  obtain ⟨entry, hentry, hthins⟩ := h.entries entry' hentry'
  exact hthins.proper (hd entry hentry)

/-- Who has been taken out does not come back. -/
theorem Directory.Edits.avoids (h : d.Edits d') (hd : d.Avoids a) : d'.Avoids a := by
  intro entry' hentry' role ha
  obtain ⟨entry, hentry, hthins⟩ := h.entries entry' hentry'
  exact hd entry hentry role ((hthins.addresses role).subset ha)

theorem Directory.Proper.purge (h : d.Proper) (now : Instant) : (d.purge now).Proper :=
  fun entry hentry => h entry (List.mem_filter.mp hentry).1

theorem Directory.Proper.ensure (h : d.Proper) (database : Option String) (now : Instant) :
    (d.ensure database now).Proper := by
  unfold Directory.ensure
  split
  · exact h
  · intro entry hentry
    rcases List.mem_append.mp hentry with hold | hnew
    · exact h entry hold
    · obtain rfl := List.mem_singleton.mp hnew
      exact Table.proper_ofServers _ _ _ _ _ _

theorem Directory.Proper.store (h : d.Proper) (hnewer : newer.Proper) (database : Option String) (now : Instant) :
    (d.store database newer now).Proper := by
  intro entry' hentry'
  obtain ⟨⟨k, t⟩, hentry, rfl⟩ := List.mem_map.mp hentry'
  intro role
  dsimp only
  split
  · rw [Table.addresses_update]
    exact hnewer role
  · exact h.ensure database now _ hentry role

/-- Whoever is given up goes from all roles of all tables; whoever does not take writes for a database goes from the
writers of its table. Everybody else keeps their roles and their order, and every table keeps its times. -/
theorem Directory.taken_out_and_no_more (d : Directory) (hproper : d.Proper) (a : Address)
    (database : Option String) : d.Loses a (fun _ _ => True) (d.discard a) ∧
      d.Loses a (fun key role => key = database ∧ role = .write) (d.discardWriter a database) :=
  ⟨hproper.loses_discard a, hproper.loses_discardWriter a database⟩

def shared : Directory :=
  ⟨default, [(some "d", Cluster.given (some "d")), (none, Cluster.given none)], default⟩

theorem shared_proper : shared.Proper := by
  intro entry hentry
  simp only [shared, List.mem_cons, List.not_mem_nil, or_false] at hentry
  rcases hentry with rfl | rfl <;> exact Table.proper_ofServers _ _ _ _ _ _

theorem taken_out_of_shared :
    (shared.Loses default (fun _ _ => True) (shared.discard default) ∧
      shared.Loses ⟨"other", 7687⟩ (fun key role => key = none ∧ role = .write)
        (shared.discardWriter ⟨"other", 7687⟩ none)) ∧
    (shared.discard default).tables.map (fun (_, t) => t.readers) = [[], []] ∧
    (shared.discardWriter ⟨"other", 7687⟩ none).tables.map (fun (_, t) => t.writers) = [[⟨"other", 7687⟩], []] :=
  ⟨⟨(Directory.taken_out_and_no_more shared shared_proper default none).1,
    (Directory.taken_out_and_no_more shared shared_proper ⟨"other", 7687⟩ none).2⟩, by decide, by decide⟩

end Routing
end BoltClient
