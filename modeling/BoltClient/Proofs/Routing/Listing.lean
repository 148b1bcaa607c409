import BoltClient.Routing.Table
import Mathlib

namespace BoltClient

/-- What is left of a list when everything is named once, where it first comes. -/
structure OnceInOrder {α : Type} [BEq α] (all once : List α) : Prop where
  same : ∀ a, a ∈ once ↔ a ∈ all
  inOrder : once.Pairwise fun a b => all.idxOf a < all.idxOf b

section

variable {α β ε : Type}

/-- Leaving some out does not change which of the others comes first. -/
theorem idxOf_lt_of_filter [BEq α] [LawfulBEq α] {p : α → Bool} {a b : α} (ha : p a = true) (hb : p b = true)
    {l : List α} (h : (l.filter p).idxOf a < (l.filter p).idxOf b) : l.idxOf a < l.idxOf b := by
  induction l with
  | nil => exact h
  | cons first rest ih =>
    rw [List.filter_cons] at h
    by_cases hfirst : p first = true
    · rw [if_pos hfirst] at h
      by_cases heq : first = b
      · subst heq
        rw [List.idxOf_cons_self] at h
        exact absurd h (Nat.not_lt_zero _)
      · rw [List.idxOf_cons_ne _ heq] at h ⊢
        by_cases heq' : first = a
        · subst heq'
          rw [List.idxOf_cons_self]
          exact Nat.succ_pos _
        · rw [List.idxOf_cons_ne _ heq'] at h ⊢
          exact Nat.succ_lt_succ (ih (Nat.lt_of_succ_lt_succ h))
    · have hother {c : α} (hc : p c = true) : first ≠ c := fun heq => hfirst (heq ▸ hc)
      rw [if_neg hfirst] at h
      rw [List.idxOf_cons_ne _ (hother ha), List.idxOf_cons_ne _ (hother hb)]
      exact Nat.succ_lt_succ (ih h)

theorem onceInOrder_eraseDups [BEq α] [LawfulBEq α] : ∀ all : List α, OnceInOrder all all.eraseDups
  | [] => ⟨fun _ => by simp, by simp⟩
  | first :: rest => by
    have hrest := onceInOrder_eraseDups (rest.filter fun b => !b == first)
    have hother {b : α} (hb : b ∈ (rest.filter fun b => !b == first).eraseDups) : b ≠ first := by
      rw [hrest.same] at hb
      simpa using (List.mem_filter.mp hb).2
    rw [List.eraseDups_cons]
    refine ⟨fun a => ?_, List.pairwise_cons.mpr ⟨fun b hb => ?_, ?_⟩⟩
    · by_cases ha : a = first <;> simp [ha]
    · rw [List.idxOf_cons_self, List.idxOf_cons_ne _ (hother hb).symm]
      exact Nat.succ_pos _
    · refine hrest.inOrder.imp_of_mem fun {a b} ha hb hlt => ?_
      rw [List.idxOf_cons_ne _ (hother ha).symm, List.idxOf_cons_ne _ (hother hb).symm]
      exact Nat.succ_lt_succ (idxOf_lt_of_filter (by simp [hother ha]) (by simp [hother hb]) hlt)
termination_by all => all.length
decreasing_by
  exact Nat.lt_succ_of_le (List.length_filter_le _ _)

/-- Nothing comes before itself. -/
theorem OnceInOrder.nodup [BEq α] {all once : List α} (h : OnceInOrder all once) : once.Nodup := by
  refine h.inOrder.imp fun {a b} hlt heq => ?_
  rw [heq] at hlt
  exact Nat.lt_irrefl _ hlt

theorem except_bind_eq_ok {w : Except ε α} {f : α → Except ε β} {b : β} :
    (w >>= f) = .ok b ↔ ∃ a, w = .ok a ∧ f a = .ok b := by
  cases w <;> simp [bind, Except.bind]

theorem OnceInOrder.eq_nil_iff [BEq α] {all once : List α} (h : OnceInOrder all once) : once = [] ↔ all = [] := by
  simp only [List.eq_nil_iff_forall_not_mem, h.same]

/-- Going through a list works where every step does. -/
theorem mapM_ok_iff {f : α → Except ε β} {l : List α} {results : List β} :
    l.mapM f = .ok results ↔ List.Forall₂ (fun a b => f a = .ok b) l results := by
  induction l generalizing results with
  | nil => cases results <;> simp [pure, Except.pure]
  | cons a rest ih =>
    rw [List.mapM_cons]
    cases hfirst : f a with
    | error e => cases results <;> simp [bind, Except.bind, hfirst]
    | ok b =>
      cases hrest : rest.mapM f with
      | error e => cases results <;> simp [bind, Except.bind, ← ih, hfirst, hrest]
      | ok bs => cases results <;> simp [bind, Except.bind, pure, Except.pure, ← ih, hfirst, hrest]

end

namespace Entries

variable {α : Type} {key : String} {value : α} {entries pairs : Entries α}

theorem get?_eq_some_iff (h : entries.keys.Nodup) : entries.get? key = some value ↔ (key, value) ∈ entries := by
  induction entries with
  | nil => simp [get?]
  | cons entry rest ih =>
    obtain ⟨k, v⟩ := entry
    obtain ⟨hnew, hrest⟩ : k ∉ keys rest ∧ (keys rest).Nodup := List.nodup_cons.mp h
    rw [get?, List.mem_cons]
    split
    · next hk =>
      subst hk
      have hnot : (k, value) ∉ rest := fun hmem => hnew (List.mem_map_of_mem hmem)
      simp [hnot, eq_comm]
    · next hk =>
      rw [ih hrest]
      simp [Ne.symm hk]

theorem keys_zip_sublist (fields : List String) (values : List α) : (keys (fields.zip values)).Sublist fields := by
  induction fields generalizing values with
  | nil => exact .refl _
  | cons field rest ih =>
    cases values with
    | nil => exact List.nil_sublist _
    | cons value values => exact (ih values).cons_cons field

/-- What is found does not depend on the order. -/
theorem get?_of_perm (hperm : pairs.Perm entries) (h : pairs.keys.Nodup) (key : String) :
    pairs.get? key = entries.get? key := by
  have hkeys : entries.keys.Nodup := (hperm.map Prod.fst).nodup_iff.mp h
  refine Option.ext fun value => ?_
  rw [get?_eq_some_iff h, get?_eq_some_iff hkeys, hperm.mem_iff]

end Entries

namespace Routing

variable {row : Entries Value} {info : Row} {role : Role} {name : String}

theorem Role.ofName?_eq_some_iff : Role.ofName? name = some role ↔ name = role.name := by
  refine ⟨fun h => ?_, ?_⟩
  · have hfound := List.find?_some h
    exact (of_decide_eq_true hfound).symm
  · rintro rfl
    cases role <;> rfl

def listedIn (name : String) (entry : Value) : List String :=
  match entry.asMap? with
  | some entry =>
    if entry.text? "role" = some name then Value.textItems ((entry.list? "addresses").getD []) else []
  | none => []

/-- The texts that a row lists under a name, over all its entries. -/
def listed (row : Entries Value) (name : String) : List String :=
  ((row.list? "servers").getD []).flatMap (listedIn name)

def spelled (texts : List String) : List Address :=
  texts.filterMap fun s => (Address.ofText s Address.defaultPort).toOption

namespace Row

theorem need_eq_ok {α : Type} {part : Option α} {reason : String} {a : α} :
    need part reason = .ok a ↔ part = some a := by
  cases part <;> simp [need]

/-- An entry counts for the role that it names. -/
theorem listedIn_of_ok {entry : Value} {found : Option Listing} (h : listing? entry = .ok found) (role : Role) :
    listedIn role.name entry = (found.toList.filter (·.role = role)).flatMap (·.addresses) := by
  unfold listing? at h
  simp only [except_bind_eq_ok, need_eq_ok, mapM_ok_iff] at h
  obtain ⟨parts, hparts, named, hnamed, items, hitems, texts, htexts, hfound⟩ := h
  have hspelled : Value.textItems items = texts := by
    clear hitems hfound
    induction htexts with
    | nil => rfl
    | cons hfirst _ ih => rw [Value.textItems, List.filterMap_cons, hfirst, ← ih]; rfl
  cases hfound
  unfold listedIn
  simp only [hparts, hnamed, hitems, Option.getD_some, hspelled, Option.some.injEq]
  by_cases hrole : named = role.name
  · rw [if_pos hrole, Role.ofName?_eq_some_iff.mpr hrole]
    simp
  · rw [if_neg hrole]
    cases hother : Role.ofName? named with
    | none => rfl
    | some other =>
      have hne : other ≠ role := by
        rintro rfl
        exact hrole (Role.ofName?_eq_some_iff.mp hother)
      simp [hne]

/-- A row that is accepted lists for each role what its entries list under the name of the role. -/
theorem addresses_of_ok (h : ofEntries row = .ok info) (role : Role) : info.addresses role = listed row role.name := by
  unfold ofEntries at h
  simp only [except_bind_eq_ok, need_eq_ok, mapM_ok_iff] at h
  obtain ⟨ttl, _, servers, hservers, found, hfound, hinfo⟩ := h
  cases hinfo
  unfold addresses listed
  rw [hservers, Option.getD_some]
  clear hservers
  induction hfound with
  | nil => rfl
  | @cons entry first _ _ hfirst _ ih =>
    rw [List.flatMap_cons, listedIn_of_ok hfirst, ← ih]
    cases first with
    | none => rfl
    | some l => by_cases hrole : l.role = role <;> simp [hrole]

theorem ttl_of_ok (h : ofEntries row = .ok info) : row.int? "ttl" = some info.ttl := by
  unfold ofEntries at h
  simp only [except_bind_eq_ok, need_eq_ok] at h
  obtain ⟨ttl, httl, _, _, _, _, hinfo⟩ := h
  cases hinfo
  exact httl

/-- The columns of a record make the same row in whichever order they come. -/
theorem ofRecord_eq_ofEntries {fields : List String} {values : List Value} (hfields : fields.Nodup)
    (hperm : (fields.zip values).Perm row) : ofRecord fields values = ofEntries row := by
  have hkeys : (Entries.keys (fields.zip values)).Nodup := hfields.sublist (Entries.keys_zip_sublist fields values)
  unfold ofRecord
  rw [Entries.ofPairs_of_nodup hkeys]
  unfold ofEntries Entries.int? Entries.list? Entries.text?
  simp only [Entries.get?_of_perm hperm hkeys]

end Row

namespace Table

variable {listings : List Listing} {requested : Option String} {now : Instant} {t : Table}

/-- The texts of the servers with a role. -/
theorem texts_inRole (listings : List Listing) (role : Role) :
    ((listings.flatMap fun l => l.addresses.map (l.role, ·)).filter (·.1 = role)).map (·.2)
      = (listings.filter (·.role = role)).flatMap (·.addresses) := by
  induction listings with
  | nil => rfl
  | cons l rest ih =>
    rw [List.flatMap_cons, List.filter_append, List.map_append, ih]
    by_cases hrole : l.role = role <;> simp [List.filter_map, Function.comp_def, hrole]

/-- Where every text spells an address, each role gets the addresses that its own texts spell. -/
theorem located_of_spelled {texts : List (Role × String)}
    (h : ∀ x ∈ texts, ∃ a, Address.ofText x.2 Address.defaultPort = .ok a) :
    ∃ all, (texts.mapM fun (role, s) => return (role, ← Address.ofText s Address.defaultPort)) = .ok all ∧
      ∀ role, inRole all role = spelled ((texts.filter (·.1 = role)).map (·.2)) := by
  induction texts with
  | nil => exact ⟨[], rfl, fun _ => rfl⟩
  | cons x rest ih =>
    obtain ⟨role, s⟩ := x
    obtain ⟨a, ha⟩ := h _ List.mem_cons_self
    obtain ⟨all, hall, hroles⟩ := ih fun y hy => h y (List.mem_cons_of_mem _ hy)
    refine ⟨(role, a) :: all, ?_, fun other => ?_⟩
    · rw [List.mapM_cons]
      dsimp only at ha ⊢
      rw [ha, hall]
      rfl
    · have hother := hroles other
      unfold inRole spelled at hother ⊢
      by_cases hrole : role = other <;> simp [hrole, hother, ha, Except.toOption]

/-- The table of a row whose texts all spell addresses. -/
theorem ofRow_of_spelled {info : Row}
    (h : ∀ role, ∀ s ∈ info.addresses role, ∃ a, Address.ofText s Address.defaultPort = .ok a) :
    ofRow info requested now = .ok (ofServers (info.database <|> requested) (spelled (info.addresses .route))
      (spelled (info.addresses .read)) (spelled (info.addresses .write)) (ttlOfSeconds info.ttl) now) := by
  have hspelled : ∀ x ∈ info.listings.flatMap fun l => l.addresses.map (l.role, ·),
      ∃ a, Address.ofText x.2 Address.defaultPort = .ok a := by
    intro x hx
    obtain ⟨l, hl, hx⟩ := List.mem_flatMap.mp hx
    obtain ⟨s, hs, rfl⟩ := List.mem_map.mp hx
    exact h l.role s (List.mem_flatMap.mpr ⟨l, List.mem_filter.mpr ⟨hl, decide_eq_true rfl⟩, hs⟩)
  obtain ⟨all, hall, hroles⟩ := located_of_spelled hspelled
  have hlocated : located info.listings = .ok all := hall
  unfold ofRow ofListings
  rw [hlocated]
  simp only [hroles, texts_inRole]
  rfl

/-- A row that is accepted and in which every text under the name of a role spells an address gives a table. Each
role has the addresses that the row lists for it, once and in the order in which they first come, and nobody else; a
time below none is none; and the table is without writers if it lists none. The same row comes from the columns of a
record, in whichever order they are. -/
theorem row_gives_table {row : Entries Value} {info : Row} (requested : Option String) (now : Instant)
    (haccepted : Row.ofEntries row = .ok info)
    (hspelled : ∀ role : Role, ∀ s ∈ listed row role.name, ∃ a, Address.ofText s Address.defaultPort = .ok a) :
    (∃ t ttl, Table.ofRow info requested now = .ok t ∧
      (∀ role : Role, OnceInOrder (spelled (listed row role.name)) (t.addresses role)) ∧
      row.int? "ttl" = some ttl ∧ t.ttl = .ofSeconds (max ttl.toInt 0).toNat ∧
      (t.withoutWriters = true ↔ t.addresses .write = [])) ∧
    ∀ (fields : List String) (values : List Value), fields.Nodup → (fields.zip values).Perm row →
      Row.ofRecord fields values = .ok info := by
  simp only [← Row.addresses_of_ok haccepted] at hspelled ⊢
  refine ⟨⟨_, info.ttl, ofRow_of_spelled hspelled, ?_, Row.ttl_of_ok haccepted, ?_, ?_⟩, ?_⟩
  · intro role
    cases role <;> exact onceInOrder_eraseDups _
  · have hnone : info.ttl.toInt.toNat = (max info.ttl.toInt 0).toNat := by omega
    unfold ofServers ttlOfSeconds
    rw [hnone]
  · have hempty := (onceInOrder_eraseDups (spelled (info.addresses .write))).eq_nil_iff
    exact List.isEmpty_iff.trans hempty.symm
  · intro fields values hfields hperm
    rw [Row.ofRecord_eq_ofEntries hfields hperm, haccepted]

def entryOf (role : String) (addresses : List String) : Value :=
  .map [("addresses", .ofTexts addresses), ("role", .text role)]

def mixedServers : Value :=
  .list [entryOf "READ" ["b", "a:1"], entryOf "WITNESS" ["nowhere:"], entryOf "ROUTE" ["a:1"],
    entryOf "READ" ["c", "b:7687"]]

def mixedInfo : Row :=
  ⟨-5, [⟨.read, ["b", "a:1"]⟩, ⟨.route, ["a:1"]⟩, ⟨.read, ["c", "b:7687"]⟩], none⟩

theorem mixed_accepted : Row.ofEntries [("ttl", .int (-5)), ("servers", mixedServers)] = .ok mixedInfo := by
  rfl

theorem row_gives_table_mixed : (∃ t, Table.ofRow mixedInfo none .start = .ok t ∧ t.withoutWriters = true) ∧
    Row.ofRecord ["servers", "ttl"] [mixedServers, .int (-5)] = .ok mixedInfo := by
  obtain ⟨⟨t, _, hgiven, hroles, _, _, hwithout⟩, hrecord⟩ := row_gives_table none .start mixed_accepted (by
    intro role s hs
    rw [← Row.addresses_of_ok mixed_accepted] at hs
    have hall : (mixedInfo.addresses role).all fun s => (Address.ofText s Address.defaultPort).toBool := by
      cases role <;> rfl
    cases haddress : Address.ofText s Address.defaultPort with
    | ok a => exact ⟨a, rfl⟩
    | error f =>
      have hgood := List.all_eq_true.mp hall s hs
      rw [haddress] at hgood
      cases hgood)
  exact ⟨⟨t, hgiven, hwithout.mpr ((hroles .write).eq_nil_iff.mpr rfl)⟩, hrecord _ _ (by decide) (.swap ..)⟩

end Table
end Routing
end BoltClient
