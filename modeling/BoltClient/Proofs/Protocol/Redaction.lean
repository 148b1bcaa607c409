import BoltClient.Protocol.Requests

namespace BoltClient

namespace Entries

variable {α : Type} {entries front back pairs : Entries α} {key other : String}

theorem put_put (key : String) (v w : α) (entries : Entries α) :
    (entries.put key v).put key w = entries.put key w := by
  induction entries with
  | nil => simp [put]
  | cons entry rest ih =>
    obtain ⟨k, u⟩ := entry
    by_cases hk : k = key
    · simp [put, hk]
    · simp [put, hk, ih]

/-- A value that is replaced in its place does not mind what is put under another name. -/
theorem put_comm (hkey : key ∈ entries.keys) (hother : other ≠ key) (v w : α) :
    (entries.put other v).put key w = (entries.put key w).put other v := by
  induction entries with
  | nil => cases hkey
  | cons entry rest ih =>
    obtain ⟨k, u⟩ := entry
    by_cases hk : k = key
    · subst hk
      simp [put, hother.symm]
    · have hrest : key ∈ keys rest := by simpa [keys, Ne.symm hk] using hkey
      by_cases ho : k = other
      · simp [put, ho, hother]
      · simp [put, hk, ho, ih hrest]

theorem mem_keys_put {v : α} :
    other ∈ (entries.put key v).keys ↔ other = key ∨ other ∈ entries.keys := by
  rw [keys_put]
  split
  · next hkey => exact ⟨.inr, fun h => h.elim (· ▸ hkey) id⟩
  · rw [List.mem_append, List.mem_singleton]
    exact Or.comm

theorem mem_keys_putAll (hkey : key ∈ entries.keys) : key ∈ (entries.putAll pairs).keys := by
  induction pairs generalizing entries with
  | nil => exact hkey
  | cons pair rest ih => exact ih (mem_keys_put.mpr (.inr hkey))

theorem put_putAll (hkey : key ∈ entries.keys) (hpairs : key ∉ keys pairs) (w : α) :
    (entries.putAll pairs).put key w = (entries.put key w).putAll pairs := by
  induction pairs generalizing entries with
  | nil => rfl
  | cons pair rest ih =>
    obtain ⟨k, v⟩ := pair
    obtain ⟨hne, hrest⟩ : key ≠ k ∧ key ∉ keys rest := by simpa [keys] using hpairs
    have hnext : (entries.put k v).putAll rest = entries.putAll ((k, v) :: rest) := rfl
    rw [← hnext, ih (mem_keys_put.mpr (.inr hkey)) hrest, put_comm hkey hne.symm]
    rfl

theorem putAll_append (entries : Entries α) (pairs more : List (String × α)) :
    entries.putAll (pairs ++ more) = (entries.putAll pairs).putAll more := List.foldl_append

/-- Where pairs name a key once, what is put under it afterwards might as well have come with them. -/
theorem put_putAll_middle (hback : key ∉ keys back) (v w : α) :
    (entries.putAll (front ++ (key, v) :: back)).put key w
      = entries.putAll (front ++ (key, w) :: back) := by
  rw [putAll_append, putAll_append]
  have hthere : key ∈ ((entries.putAll front).put key v).keys := mem_keys_put.mpr (.inl rfl)
  refine (put_putAll hthere hback w).trans ?_
  rw [put_put]
  rfl

theorem put_middle (hfront : key ∉ keys front) (v w : α) :
    put key w (front ++ (key, v) :: back) = front ++ (key, w) :: back := by
  induction front with
  | nil => simp [put]
  | cons entry rest ih =>
    obtain ⟨k, u⟩ := entry
    obtain ⟨hne, hrest⟩ : key ≠ k ∧ key ∉ keys rest := by simpa [keys] using hfront
    simp [put, hne.symm, ih hrest]

end Entries

def secretName : String := "credentials"

namespace AuthToken

variable (a : AuthToken) {s : String}

def front : Entries Value :=
  ("scheme", .text a.scheme) :: (a.principal.map fun p => ("principal", Value.text p)).toList

def back : Entries Value :=
  nonempty "realm" a.realm ++ if a.parameters.isEmpty then [] else [("parameters", .map a.parameters)]

theorem entries_of_credentials (hcredentials : a.credentials = some s) (hs : s ≠ "") :
    a.entries = a.front ++ (secretName, .text s) :: a.back := by
  have hsecret : nonempty "credentials" a.credentials = [(secretName, .text s)] := by
    simp [nonempty, hcredentials, hs, secretName]
  unfold entries front back
  rw [hsecret]
  simp

theorem notMem_front : secretName ∉ Entries.keys a.front := by
  cases h : a.principal <;> simp [front, h, Entries.keys, secretName]

theorem notMem_back : secretName ∉ Entries.keys a.back := by
  unfold back nonempty
  cases a.realm.filter (· ≠ "") with
  | none => split <;> simp [Entries.keys, secretName]
  | some realm => split <;> simp [Entries.keys, secretName]

end AuthToken

namespace ConnectionConfig

def withCredentials (c : ConnectionConfig) (credentials : Option String) : ConnectionConfig :=
  { c with auth := { c.auth with credentials := credentials } }

end ConnectionConfig

namespace Protocol

/-- What a login leaves in the logs, a line for each request. -/
def loginLines (v : Version) (c : ConnectionConfig) : Except Error (List String) :=
  List.map Request.text <$> hello v c

theorem redact_of_mem {entries : Entries Value} (h : secretName ∈ entries.keys) :
    Request.redact entries = entries.put secretName (.text Request.redacted) := by
  have hsome : (entries.get? secretName).isSome = true := by
    rw [Option.isSome_iff_ne_none]
    exact fun hnone => Entries.get?_eq_none_iff.mp hnone h
  exact if_pos hsome

/-- The text of a request whose only field is a map that holds a secret. -/
theorem fieldText_of_mem {entries : Entries Value} (h : secretName ∈ entries.keys) :
    Request.fieldText (.map entries) = (entries.put secretName (.text Request.redacted)).toText :=
  congrArg Entries.toText (redact_of_mem h)

section

variable (a : AuthToken) {s : String} (hcredentials : a.credentials = some s) (hs : s ≠ "")

include hcredentials hs in
/-- In the line of LOGON the mark stands where the credentials are. -/
theorem text_logon : (Request.logon a.entries).text
    = "LOGON " ++ Entries.toText (a.front ++ (secretName, .text Request.redacted) :: a.back) := by
  have hfield : Request.fieldText (.map a.entries)
      = Entries.toText (a.front ++ (secretName, .text Request.redacted) :: a.back) := by
    rw [a.entries_of_credentials hcredentials hs, fieldText_of_mem (by simp [Entries.keys]),
      Entries.put_middle a.notMem_front]
  unfold Request.text Request.fields
  rw [List.map_singleton, hfield]
  rfl

include hcredentials hs in
/-- In the line of HELLO too, wherever the entries of the greeting have put it. -/
theorem text_hello (h : Hello) : (Request.hello (h.withAuth a.entries)).text = "HELLO " ++
    Entries.toText (h.extra.putAll (a.front ++ (secretName, .text Request.redacted) :: a.back)) := by
  have hthere : secretName ∈ (h.withAuth a.entries).extra.keys := by
    unfold Hello.withAuth
    rw [a.entries_of_credentials hcredentials hs, Entries.putAll_append]
    have hnext : (h.extra.putAll a.front).putAll ((secretName, .text s) :: a.back)
        = ((h.extra.putAll a.front).put secretName (.text s)).putAll a.back := rfl
    rw [hnext]
    exact Entries.mem_keys_putAll (Entries.mem_keys_put.mpr (.inl rfl))
  have hfield : Request.fieldText (.map (h.withAuth a.entries).extra) = Entries.toText
      (h.extra.putAll (a.front ++ (secretName, .text Request.redacted) :: a.back)) := by
    rw [fieldText_of_mem hthere]
    unfold Hello.withAuth
    rw [a.entries_of_credentials hcredentials hs, Entries.put_putAll_middle a.notMem_back]
  unfold Request.text Request.fields
  rw [List.map_singleton, hfield]
  rfl

end

theorem loginLines_eq (v : Version) (c : ConnectionConfig) :
    loginLines v c = (checkFilter v c.filter).map fun _ =>
      if v.capabilities.logon then [(Request.hello (greeting v c)).text, (Request.logon c.auth.entries).text]
      else [(Request.hello ((greeting v c).withAuth c.auth.entries)).text] := by
  unfold loginLines hello
  cases checkFilter v c.filter with
  | error e => rfl
  | ok => cases v.capabilities.logon <;> rfl

/-- The lines do not depend on what the credentials are, as long as there are any. -/
theorem loginLines_eq_redacted (v : Version) {c : ConnectionConfig} {s : String}
    (hcredentials : c.auth.credentials = some s) (hs : s ≠ "") :
    loginLines v c = loginLines v (c.withCredentials (some Request.redacted)) := by
  have hmark : Request.redacted ≠ "" := by decide
  let marked := c.withCredentials (some Request.redacted)
  have hlogon : (Request.logon c.auth.entries).text = (Request.logon marked.auth.entries).text :=
    (text_logon c.auth hcredentials hs).trans (text_logon marked.auth rfl hmark).symm
  -- the greeting says who the client is only through the entries that are merged into it
  have hhello : (Request.hello ((greeting v c).withAuth c.auth.entries)).text
      = (Request.hello ((greeting v marked).withAuth marked.auth.entries)).text :=
    (text_hello c.auth hcredentials hs (greeting v c)).trans
      (text_hello marked.auth rfl hmark (greeting v marked)).symm
  rw [loginLines_eq, loginLines_eq, hlogon, hhello]
  rfl

/-- Two clients that have credentials and differ in them only leave the same lines when they log in. -/
theorem login_lines_hide_credentials (v : Version) (c d : ConnectionConfig) (s t : String)
    (hc : c.auth.credentials = some s) (hd : d.auth.credentials = some t) (hs : s ≠ "") (ht : t ≠ "")
    (hsame : c.withCredentials none = d.withCredentials none) : loginLines v c = loginLines v d := by
  have hmarked : c.withCredentials (some Request.redacted) = d.withCredentials (some Request.redacted) :=
    congrArg (·.withCredentials (some Request.redacted)) hsame
  rw [loginLines_eq_redacted v hc hs, hmarked, ← loginLines_eq_redacted v hd ht]

/-- A client whose parameters and routing context use the name of the secret for something else. -/
def namesake (password : String) : ConnectionConfig where
  auth := { AuthToken.basicIn "neo4j" password "native" with parameters := [("credentials", .text "none")] }
  routingContext := some [("credentials", "region")]

theorem namesake_leaves_same_lines :
    loginLines .v5_0 (namesake "secret") = loginLines .v5_0 (namesake "another") ∧
    loginLines .v5_1 (namesake "secret") = loginLines .v5_1 (namesake "another") :=
  ⟨login_lines_hide_credentials .v5_0 (namesake "secret") (namesake "another") "secret" "another"
      rfl rfl (by decide) (by decide) rfl,
    login_lines_hide_credentials .v5_1 (namesake "secret") (namesake "another") "secret" "another"
      rfl rfl (by decide) (by decide) rfl⟩

/-- What is no secret is shown, also under its name. -/
example : (loginLines .v5_1 (namesake "secret")).toOption = some
    ["HELLO \x7b\"user_agent\": \"bolt-driver-core/0.1.0\", \"routing\": \x7b\"credentials\": \"region\"\x7d\x7d",
      "LOGON \x7b\"scheme\": \"basic\", \"principal\": \"neo4j\", \"credentials\": \"*******\", "
        ++ "\"realm\": \"native\", \"parameters\": \x7b\"credentials\": \"none\"\x7d\x7d"] := by
  cbv

end Protocol
end BoltClient
