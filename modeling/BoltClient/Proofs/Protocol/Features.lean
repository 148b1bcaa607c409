import BoltClient.Protocol.Requests

namespace BoltClient

namespace Entries

variable {α : Type} {key name : String} {v? : Option α} {settings more : List (String × Option α)}

/-- The entries of settings: one for each setting that has a value. -/
def given (settings : List (String × Option α)) : Entries α := settings.filterMap fun s => s.2.map (s.1, ·)

theorem given_nil : given ([] : List (String × Option α)) = [] := rfl

theorem given_cons (name : String) (v? : Option α) (settings : List (String × Option α)) :
    given ((name, v?) :: settings) = (v?.map (name, ·)).toList ++ given settings := by
  cases v? <;> rfl

theorem given_append (settings more : List (String × Option α)) :
    given (settings ++ more) = given settings ++ given more := List.filterMap_append

theorem keys_given (settings : List (String × Option α)) : (given settings).keys.Sublist (settings.map Prod.fst) := by
  induction settings with
  | nil => exact .slnil
  | cons s rest ih =>
    obtain ⟨name, _ | v⟩ := s
    · exact ih.cons name
    · exact ih.cons_cons name

/-- A name is among the entries only if its setting has a value. -/
theorem exists_of_mem_keys_given (h : key ∈ (given settings).keys) : ∃ v, (key, some v) ∈ settings := by
  obtain ⟨⟨_, v⟩, hentry, rfl⟩ := List.mem_map.mp h
  obtain ⟨⟨name, v?⟩, hs, hvalue⟩ := List.mem_filterMap.mp hentry
  obtain ⟨w, rfl, hpair⟩ := Option.map_eq_some_iff.mp hvalue
  cases hpair
  exact ⟨v, hs⟩

/-- What is found under the name of a setting is the value of the setting, if there is one. -/
theorem get?_given (hnames : (settings.map Prod.fst).Nodup) (h : (name, v?) ∈ settings) :
    (given settings).get? name = v? := by
  induction settings with
  | nil => cases h
  | cons s rest ih =>
    obtain ⟨hnew, hrest⟩ := List.nodup_cons.mp hnames
    rcases List.mem_cons.mp h with rfl | hlisted
    · have hlater : get? name (given rest) = none :=
        get?_eq_none_iff.mpr fun hmem => hnew ((keys_given rest).subset hmem)
      cases v? with
      | none => exact hlater
      | some v => exact if_pos rfl
    · obtain ⟨other, _ | v⟩ := s
      · exact ih hrest hlisted
      · have hne : other ≠ name := fun heq => hnew (heq ▸ List.mem_map.mpr ⟨_, hlisted, rfl⟩)
        exact (if_neg hne).trans (ih hrest hlisted)

/-- Settings of other names are added behind. -/
theorem putAll_given (hnames : ((settings ++ more).map Prod.fst).Nodup) :
    (given settings).putAll (given more) = given (settings ++ more) := by
  rw [putAll_of_nodup, given_append]
  rw [← given_append]
  exact hnames.sublist (keys_given _)

end Entries

def TransactionExtra.settings (x : TransactionExtra) : List (String × Option Value) :=
  [("mode", match x.mode with
      | .read => some (.text "r")
      | .write => none),
    ("db", x.database.map .text),
    ("imp_user", x.impersonatedUser.map .text),
    ("bookmarks", if x.bookmarks.isEmpty then none else some (.ofTexts x.bookmarks)),
    ("tx_metadata", if x.metadata.isEmpty then none else some (.map x.metadata)),
    ("tx_timeout", x.timeout.map fun t => .int (Int64.ofNat (timeoutMillis t)))]

def Notification.Filter.settings (f : Filter) : List (String × Option Value) :=
  [("notifications_minimum_severity", f.severity.map fun s => .text s.name),
    ("notifications_disabled_categories", f.disabled.map fun cs => .ofTexts (cs.map Category.name))]

/-- What a server can be told about a client. Credentials and a realm that are empty are not told. -/
def AuthToken.settings (a : AuthToken) : List (String × Option Value) :=
  [("scheme", some (.text a.scheme)),
    ("principal", a.principal.map .text),
    ("credentials", (a.credentials.filter (· ≠ "")).map .text),
    ("realm", (a.realm.filter (· ≠ "")).map .text),
    ("parameters", if a.parameters.isEmpty then Option.none else some (.map a.parameters))]

theorem entry_unless (b : Bool) (name : String) (v : Value) :
    (if b then ([] : Entries Value) else [(name, v)]) = ((if b then none else some v).map (name, ·)).toList := by
  cases b <;> rfl

theorem TransactionExtra.entries_eq (x : TransactionExtra) : x.entries = Entries.given x.settings := by
  unfold entries settings
  simp only [Entries.given_cons, Entries.given_nil, entry_unless, Option.map_map, Function.comp_def,
    List.append_assoc, List.append_nil]
  cases x.mode <;> rfl

theorem Notification.Filter.entries_eq (f : Filter) : f.entries = Entries.given f.settings := by
  unfold entries settings
  simp only [Entries.given_cons, Entries.given_nil, Option.map_map, Function.comp_def, List.append_nil]

theorem AuthToken.entries_eq (a : AuthToken) : a.entries = Entries.given a.settings := by
  have htold (name : String) (s? : Option String) :
      nonempty name s? = ((s?.filter (· ≠ "")).map fun s => (name, Value.text s)).toList := by
    unfold nonempty
    cases s?.filter (· ≠ "") <;> rfl
  unfold entries settings
  simp only [Entries.given_cons, Entries.given_nil, entry_unless, htold, Option.map_map, Function.comp_def,
    Option.map_some, Option.toList_some, List.append_assoc, List.append_nil, List.cons_append, List.nil_append]

def Request.extra (r : Request) : Entries Value :=
  match r.fields.getLast? with
  | some (.map entries) => entries
  | _ => []

def Capabilities.has (caps : Capabilities) : Message.Kind → Bool
  | .route => caps.routeMessage
  | .logon => caps.logon
  | _ => true

/-- Whether a version knows a name in the map of a request. The names of the auth map belong to HELLO until there is
LOGON. -/
def Capabilities.knows (caps : Capabilities) (kind : Message.Kind) (name : String) : Bool :=
  if name = "routing" then caps.routingInHello
  else if name = "patch_bolt" then caps.utcPatch
  else if name = "imp_user" then caps.impersonation
  else if name ∈ ["notifications_minimum_severity", "notifications_disabled_categories"] then caps.notificationFilters
  else if kind = .hello ∧ name ∈ ["scheme", "principal", "credentials", "realm", "parameters"] then !caps.logon
  else if kind = .route then caps.routeDatabaseContext
  else true

/-- A request that does not go beyond what a version can do. -/
structure Request.Fits (r : Request) (caps : Capabilities) : Prop where
  has : caps.has r.kind = true
  knows : ∀ name ∈ r.extra.keys, caps.knows r.kind name = true

def Capabilities.KnowsAll (caps : Capabilities) (kind : Message.Kind) (settings : List (String × Option Value)) : Prop :=
  ∀ s ∈ settings, s.2 ≠ none → caps.knows kind s.1 = true

theorem Request.Fits.of_given {r : Request} {caps : Capabilities} {settings : List (String × Option Value)}
    (hhas : caps.has r.kind = true) (hextra : r.extra = Entries.given settings)
    (hknows : caps.KnowsAll r.kind settings) : r.Fits caps := by
  refine ⟨hhas, fun name hname => ?_⟩
  rw [hextra] at hname
  obtain ⟨v, hset⟩ := Entries.exists_of_mem_keys_given hname
  exact hknows _ hset (Option.some_ne_none v)

namespace Protocol

variable {v : Version} {filter : Notification.Filter} {user : Option String} {extra : TransactionExtra}
  {config : ConnectionConfig} {kind : Message.Kind}

def FilterUnknown (v : Version) (filter : Notification.Filter) : Prop :=
  filter.isSet = true ∧ v.capabilities.notificationFilters = false

def UserUnknown (v : Version) (user : Option String) : Prop :=
  user ≠ none ∧ v.capabilities.impersonation = false

/-- Refused as a mistake in the configuration under a condition, and done well otherwise. -/
def RefusedIf {α : Type} (refused : Prop) (well : α → Prop) (result : Except Error α) : Prop :=
  (refused → ∃ detail, result = .error (.configuration detail)) ∧ (¬ refused → ∃ x, result = .ok x ∧ well x)

theorem RefusedIf.of_ok {α : Type} {well : α → Prop} {x : α} (h : well x) : RefusedIf False well (.ok x) :=
  ⟨False.elim, fun _ => ⟨x, rfl, h⟩⟩

/-- One step after another is refused if either is, and the first refusal is the last. -/
theorem RefusedIf.bind {α β : Type} {p q : Prop} {well : α → Prop} {well' : β → Prop} {result : Except Error α}
    {f : α → Except Error β} (h : RefusedIf p well result)
    (hnext : ¬ p → ∀ x, well x → RefusedIf q well' (f x)) : RefusedIf (p ∨ q) well' (result >>= f) := by
  by_cases hp : p
  · obtain ⟨detail, rfl⟩ := h.1 hp
    exact ⟨fun _ => ⟨detail, rfl⟩, fun hneither => absurd (.inl hp) hneither⟩
  · obtain ⟨x, rfl, hx⟩ := h.2 hp
    obtain ⟨hrefused, hdone⟩ := hnext hp x hx
    exact ⟨fun heither => hrefused (heither.resolve_left hp), fun hneither => hdone fun hq => hneither (.inr hq)⟩

theorem checkFilter_refused (v : Version) (filter : Notification.Filter) :
    RefusedIf (FilterUnknown v filter) (fun _ => True) (checkFilter v filter) := by
  unfold RefusedIf FilterUnknown checkFilter
  constructor
  · rintro ⟨hset, hnot⟩
    rw [hset, hnot]
    exact ⟨_, rfl⟩
  · intro hfine
    refine ⟨(), if_neg ?_, trivial⟩
    simpa using hfine

theorem checkUser_refused (v : Version) (user : Option String) :
    RefusedIf (UserUnknown v user) (fun _ => True) (checkUser v user) := by
  unfold RefusedIf UserUnknown checkUser
  cases user with
  | none => exact ⟨fun h => absurd rfl h.1, fun _ => ⟨(), rfl, trivial⟩⟩
  | some name =>
    constructor
    · rintro ⟨_, hnot⟩
      dsimp only
      rw [hnot]
      exact ⟨_, rfl⟩
    · intro hfine
      refine ⟨(), if_pos ?_, trivial⟩
      simpa using hfine

def greetingSettings (v : Version) (config : ConnectionConfig) : List (String × Option Value) :=
  [("user_agent", some (.text config.userAgent)),
    ("routing", if v.capabilities.routingInHello then config.routingEntries.map .map else none),
    ("patch_bolt", if v.capabilities.utcPatch then some (.ofTexts ["utc"]) else none)] ++ config.filter.settings

/-- No name comes twice in HELLO, with the auth map or without. -/
theorem nodup_greeting (v : Version) (config : ConnectionConfig) :
    ((greetingSettings v config ++ config.auth.settings).map Prod.fst).Nodup := by
  change ["user_agent", "routing", "patch_bolt", "notifications_minimum_severity", "notifications_disabled_categories",
    "scheme", "principal", "credentials", "realm", "parameters"].Nodup
  decide

/-- Nor in the extra map of RUN and BEGIN. -/
theorem nodup_extra (extra : TransactionExtra) (filter : Notification.Filter) :
    ((extra.settings ++ filter.settings).map Prod.fst).Nodup := by
  change ["mode", "db", "imp_user", "bookmarks", "tx_metadata", "tx_timeout", "notifications_minimum_severity",
    "notifications_disabled_categories"].Nodup
  decide

theorem extra_greeting (v : Version) (config : ConnectionConfig) :
    (greeting v config).extra = Entries.given (greetingSettings v config) := by
  have hnames : ((greetingSettings v config).map Prod.fst).Nodup :=
    (nodup_greeting v config).sublist ((List.sublist_append_left _ _).map _)
  unfold greetingSettings at hnames ⊢
  rw [← Entries.putAll_given hnames]
  unfold greeting Notification.Filter.addTo
  rw [Notification.Filter.entries_eq]
  congr 1
  -- before the filter come at most three entries, each under a name that is new
  cases v.capabilities.routingInHello <;> cases v.capabilities.utcPatch <;> cases config.routingEntries <;> rfl

theorem extra_withAuth (v : Version) (config : ConnectionConfig) :
    ((greeting v config).withAuth config.auth.entries).extra
      = Entries.given (greetingSettings v config ++ config.auth.settings) := by
  unfold Hello.withAuth
  rw [extra_greeting, AuthToken.entries_eq]
  exact Entries.putAll_given (nodup_greeting v config)

theorem knowsAll_filter (hfilter : ¬ FilterUnknown v filter) (kind : Message.Kind) :
    v.capabilities.KnowsAll kind filter.settings := by
  have hknown (hset : filter.isSet = true) : v.capabilities.notificationFilters = true :=
    eq_true_of_ne_false fun hnot => hfilter ⟨hset, hnot⟩
  refine List.forall_mem_cons.mpr ⟨fun hsome => hknown ?_, List.forall_mem_singleton.mpr fun hsome => hknown ?_⟩
  · unfold Notification.Filter.isSet
    rw [Option.isSome_iff_ne_none.mpr (mt Option.map_eq_none_iff.mpr hsome)]
    rfl
  · unfold Notification.Filter.isSet
    rw [Option.isSome_iff_ne_none.mpr (mt Option.map_eq_none_iff.mpr hsome)]
    exact Bool.or_true _

/-- Nothing in a greeting is unknown to the version, unless the filter is. -/
theorem knowsAll_greeting (hfilter : ¬ FilterUnknown v config.filter) :
    v.capabilities.KnowsAll .hello (greetingSettings v config) := by
  have hgiven {b : Bool} {v? : Option Value} (hsome : (if b then v? else none) ≠ none) : b = true :=
    Decidable.byContradiction fun hnot => hsome (if_neg hnot)
  refine List.forall_mem_append.mpr ⟨?_, knowsAll_filter hfilter .hello⟩
  simp only [List.forall_mem_cons]
  exact ⟨fun _ => rfl, hgiven, hgiven, List.forall_mem_nil _⟩

/-- A user is named only where the version knows of other users. -/
theorem impersonation_of_some (huser : ¬ UserUnknown v user) (hsome : user.map Value.text ≠ none) :
    v.capabilities.impersonation = true :=
  eq_true_of_ne_false fun hnot => huser ⟨mt Option.map_eq_none_iff.mpr hsome, hnot⟩

/-- Nor is anything in an extra map, unless the user is. -/
theorem knowsAll_extra (huser : ¬ UserUnknown v extra.impersonatedUser) (hkind : kind = .run ∨ kind = .begin) :
    v.capabilities.KnowsAll kind extra.settings := by
  have hknown := @impersonation_of_some v extra.impersonatedUser huser
  unfold Capabilities.KnowsAll TransactionExtra.settings
  simp only [List.forall_mem_cons]
  rcases hkind with rfl | rfl
  · exact ⟨fun _ => rfl, fun _ => rfl, hknown, fun _ => rfl, fun _ => rfl, fun _ => rfl, List.forall_mem_nil _⟩
  · exact ⟨fun _ => rfl, fun _ => rfl, hknown, fun _ => rfl, fun _ => rfl, fun _ => rfl, List.forall_mem_nil _⟩

/-- An auth map goes into LOGON, or into HELLO where there is no LOGON. -/
theorem knowsAll_auth (auth : AuthToken) (hkind : kind = .logon ∨ kind = .hello ∧ v.capabilities.logon = false) :
    v.capabilities.KnowsAll kind auth.settings := by
  unfold Capabilities.KnowsAll AuthToken.settings
  simp only [List.forall_mem_cons]
  rcases hkind with rfl | ⟨rfl, hlogon⟩
  · exact ⟨fun _ => rfl, fun _ => rfl, fun _ => rfl, fun _ => rfl, fun _ => rfl, List.forall_mem_nil _⟩
  · have hknown : (!v.capabilities.logon) = true := congrArg not hlogon
    exact ⟨fun _ => hknown, fun _ => hknown, fun _ => hknown, fun _ => hknown, fun _ => hknown, List.forall_mem_nil _⟩

/-- The credentials go with one request. -/
def CarriedOnce (credentials : String) (requests : List Request) : Prop :=
  ∃ before r after, requests = before ++ r :: after ∧ r.extra.get? "credentials" = some (.text credentials) ∧
    ∀ other ∈ before ++ after, "credentials" ∉ other.extra.keys

theorem notMem_greeting (v : Version) (config : ConnectionConfig) :
    "credentials" ∉ (greeting v config).extra.keys := by
  rw [extra_greeting]
  intro hmem
  have hname := (Entries.keys_given _).subset hmem
  change "credentials" ∈ ["user_agent", "routing", "patch_bolt", "notifications_minimum_severity",
    "notifications_disabled_categories"] at hname
  exact absurd hname (by decide)

theorem mem_credentials {s : String} (auth : AuthToken) (hcredentials : auth.credentials = some s) (hs : s ≠ "") :
    ("credentials", some (.text s)) ∈ auth.settings := by
  have htold : auth.credentials.filter (· ≠ "") = some s := by
    rw [hcredentials]
    exact if_pos (decide_eq_true hs)
  unfold AuthToken.settings
  rw [htold]
  exact List.mem_cons_of_mem _ (List.mem_cons_of_mem _ List.mem_cons_self)

/-- A login is refused for its filter only. What it sends is known to the version, and the credentials go once. -/
theorem hello_refused (v : Version) (config : ConnectionConfig) :
    RefusedIf (FilterUnknown v config.filter)
      (fun requests => (∀ r ∈ requests, r.Fits v.capabilities) ∧
        ∀ s, config.auth.credentials = some s → s ≠ "" → CarriedOnce s requests)
      (hello v config) := by
  rw [← or_false (FilterUnknown v config.filter)]
  refine (checkFilter_refused v config.filter).bind fun hknown _ _ => ?_
  dsimp only
  cases hlogon : v.capabilities.logon with
  | true =>
    have hgreeting : (Request.hello (greeting v config)).Fits v.capabilities :=
      .of_given rfl (extra_greeting v config) (knowsAll_greeting hknown)
    have hauth : (Request.logon config.auth.entries).Fits v.capabilities :=
      .of_given hlogon config.auth.entries_eq (knowsAll_auth config.auth (.inl rfl))
    refine .of_ok ⟨List.forall_mem_cons.mpr ⟨hgreeting, List.forall_mem_singleton.mpr hauth⟩, fun s hsome hs => ?_⟩
    refine ⟨[.hello (greeting v config)], .logon config.auth.entries, [], rfl, ?_, ?_⟩
    · have hnames := (nodup_greeting v config).sublist ((List.sublist_append_right _ _).map _)
      change config.auth.entries.get? "credentials" = _
      rw [AuthToken.entries_eq]
      exact Entries.get?_given hnames (mem_credentials config.auth hsome hs)
    · exact List.forall_mem_singleton.mpr (notMem_greeting v config)
  | false =>
    have hgreeting : (Request.hello ((greeting v config).withAuth config.auth.entries)).Fits v.capabilities :=
      .of_given rfl (extra_withAuth v config) (List.forall_mem_append.mpr
        ⟨knowsAll_greeting hknown, knowsAll_auth config.auth (.inr ⟨rfl, hlogon⟩)⟩)
    refine .of_ok ⟨List.forall_mem_singleton.mpr hgreeting, fun s hsome hs => ?_⟩
    refine ⟨[], _, [], rfl, ?_, nofun⟩
    change ((greeting v config).withAuth config.auth.entries).extra.get? "credentials" = _
    rw [extra_withAuth]
    exact Entries.get?_given (nodup_greeting v config)
      (List.mem_append_right _ (mem_credentials config.auth hsome hs))

/-- Every setting of a transaction and a filter stands in an extra map, with its value and once. -/
structure Carries (entries : Entries Value) (extra : TransactionExtra) (filter : Notification.Filter) : Prop where
  settings : ∀ s ∈ extra.settings ++ filter.settings, entries.get? s.1 = s.2
  once : entries.keys.Nodup

theorem extraEntries_refused (v : Version) (extra : TransactionExtra) (filter : Notification.Filter) :
    RefusedIf (UserUnknown v extra.impersonatedUser ∨ FilterUnknown v filter)
      (fun entries => entries = Entries.given (extra.settings ++ filter.settings) ∧ Carries entries extra filter ∧
        ∀ kind, kind = .run ∨ kind = .begin → v.capabilities.KnowsAll kind (extra.settings ++ filter.settings))
      (extraEntries v extra filter) := by
  refine (checkUser_refused v extra.impersonatedUser).bind fun huser _ _ => ?_
  rw [← or_false (FilterUnknown v filter)]
  refine (checkFilter_refused v filter).bind fun hfilter _ _ => .of_ok ?_
  have hnames := nodup_extra extra filter
  have hall : filter.addTo extra.entries = Entries.given (extra.settings ++ filter.settings) := by
    unfold Notification.Filter.addTo
    rw [Notification.Filter.entries_eq, TransactionExtra.entries_eq, Entries.putAll_given hnames]
  rw [hall]
  refine ⟨rfl, ⟨fun s hs => Entries.get?_given hnames hs, hnames.sublist (Entries.keys_given _)⟩, fun kind hkind => ?_⟩
  exact List.forall_mem_append.mpr ⟨knowsAll_extra huser hkind, knowsAll_filter hfilter kind⟩

theorem run_refused (v : Version) (query : String) (parameters : Entries Value) (extra : TransactionExtra)
    (filter : Notification.Filter) :
    RefusedIf (UserUnknown v extra.impersonatedUser ∨ FilterUnknown v filter)
      (fun r => r.Fits v.capabilities ∧ ∃ entries, r = .run query parameters entries ∧ Carries entries extra filter)
      (run v query parameters extra filter) := by
  rw [← or_false (UserUnknown v extra.impersonatedUser ∨ FilterUnknown v filter)]
  refine (extraEntries_refused v extra filter).bind fun _ entries hentries => .of_ok ?_
  obtain ⟨hgiven, hcarries, hknows⟩ := hentries
  exact ⟨.of_given rfl hgiven (hknows .run (.inl rfl)), entries, rfl, hcarries⟩

theorem begin_refused (v : Version) (extra : TransactionExtra) (filter : Notification.Filter) :
    RefusedIf (UserUnknown v extra.impersonatedUser ∨ FilterUnknown v filter)
      (fun r => r.Fits v.capabilities ∧ ∃ entries, r = .begin entries ∧ Carries entries extra filter)
      (begin v extra filter) := by
  rw [← or_false (UserUnknown v extra.impersonatedUser ∨ FilterUnknown v filter)]
  refine (extraEntries_refused v extra filter).bind fun _ entries hentries => .of_ok ?_
  obtain ⟨hgiven, hcarries, hknows⟩ := hentries
  exact ⟨.of_given rfl hgiven (hknows .begin (.inr rfl)), entries, rfl, hcarries⟩

/-- ROUTE names the database as its version wants it. -/
theorem fits_route (hroute : v.capabilities.routeMessage = true) (huser : ¬ UserUnknown v user)
    (context : Entries Value) (bookmarks : List String) (database : Option String) :
    (Request.route context bookmarks
      (if v.capabilities.routeDatabaseContext then .context database user else .name database)).Fits v.capabilities := by
  cases hcontext : v.capabilities.routeDatabaseContext with
  | true =>
    have hextra : (Request.route context bookmarks (.context database user)).extra
        = Entries.given [("db", database.map Value.text), ("imp_user", user.map Value.text)] := by
      cases database <;> cases user <;> rfl
    refine .of_given hroute hextra ?_
    exact List.forall_mem_cons.mpr ⟨fun _ => hcontext, List.forall_mem_singleton.mpr (impersonation_of_some huser)⟩
  | false =>
    have hextra : (Request.route context bookmarks (.name database)).extra = Entries.given [] := by
      cases database <;> rfl
    exact .of_given hroute hextra nofun

/-- A routing table is refused for the user only. -/
theorem route_refused (v : Version) (context : Entries Value) (bookmarks : List String)
    (database user : Option String) :
    RefusedIf (UserUnknown v user) (fun x => ∀ r ∈ x.requests, r.Fits v.capabilities)
      (route v context bookmarks database user) := by
  rw [← or_false (UserUnknown v user)]
  refine (checkUser_refused v user).bind fun huser _ _ => ?_
  dsimp only
  cases hroute : v.capabilities.routeMessage with
  | true => exact .of_ok (List.forall_mem_singleton.mpr (fits_route hroute huser context bookmarks database))
  | false =>
    let extra : TransactionExtra := { mode := .read, database := some systemDatabase, bookmarks := bookmarks }
    have hrun (query : String) (parameters : Entries Value) :
        (Request.run query parameters extra.entries).Fits v.capabilities :=
      .of_given rfl extra.entries_eq (knowsAll_extra (fun h => h.1 rfl) (.inl rfl))
    have hbatch : (Request.pull (-1) (-1)).extra = Entries.given [("n", some (.int (-1)))] := rfl
    have hpull : (Request.pull (-1) (-1)).Fits v.capabilities :=
      .of_given rfl hbatch (List.forall_mem_singleton.mpr fun _ => rfl)
    exact .of_ok (List.forall_mem_cons.mpr ⟨hrun _ _, List.forall_mem_singleton.mpr hpull⟩)

/-- Whatever is set: a login, a query, a transaction and a routing table are refused for a filter or a user that the
version does not know, and for nothing else. Otherwise no request goes beyond the version, what is set is sent, and
the credentials go with one request of the login. -/
theorem requests_fit_version (v : Version) (config : ConnectionConfig) (query : String) (parameters : Entries Value)
    (extra : TransactionExtra) (filter : Notification.Filter) (context : Entries Value) (bookmarks : List String)
    (database user : Option String) :
    RefusedIf (FilterUnknown v config.filter)
      (fun requests => (∀ r ∈ requests, r.Fits v.capabilities) ∧
        ∀ s, config.auth.credentials = some s → s ≠ "" → CarriedOnce s requests)
      (hello v config) ∧
    RefusedIf (UserUnknown v extra.impersonatedUser ∨ FilterUnknown v filter)
      (fun r => r.Fits v.capabilities ∧ ∃ entries, r = .run query parameters entries ∧ Carries entries extra filter)
      (run v query parameters extra filter) ∧
    RefusedIf (UserUnknown v extra.impersonatedUser ∨ FilterUnknown v filter)
      (fun r => r.Fits v.capabilities ∧ ∃ entries, r = .begin entries ∧ Carries entries extra filter)
      (begin v extra filter) ∧
    RefusedIf (UserUnknown v user) (fun x => ∀ r ∈ x.requests, r.Fits v.capabilities)
      (route v context bookmarks database user) :=
  ⟨hello_refused v config, run_refused v query parameters extra filter, begin_refused v extra filter,
    route_refused v context bookmarks database user⟩

/-- A client with a password, and a filter that only the next version knows. -/
theorem requests_fit_v5_1 :
    (∃ requests, hello .v5_1 { auth := .basic "neo4j" "secret" } = .ok requests ∧ CarriedOnce "secret" requests) ∧
      ∃ detail, begin .v5_1 {} { severity := some .off } = .error (.configuration detail) := by
  obtain ⟨⟨_, hhello⟩, _, ⟨hbegin, _⟩, _⟩ := requests_fit_version .v5_1 { auth := .basic "neo4j" "secret" } "" [] {}
    { severity := some .off } [] [] none none
  obtain ⟨requests, hsent, _, honce⟩ := hhello fun hunknown => absurd hunknown.1 (by decide)
  exact ⟨⟨requests, hsent, honce "secret" rfl (by decide)⟩, hbegin (.inr ⟨rfl, by decide⟩)⟩

end Protocol
end BoltClient
