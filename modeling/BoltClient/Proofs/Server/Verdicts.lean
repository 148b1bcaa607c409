import BoltClient.Proofs.Connection.Recording
import BoltClient.Proofs.Text.Dotted

namespace BoltClient

namespace Server

variable {code first name category title : String} {classification : Classification} {e : Error}

/-- What may be tried again is passing trouble, or a write that the wrong server was asked for. -/
theorem ErrorKind.ofCode_retryable (h : (ErrorKind.ofCode classification code).isRetryable = true) :
    classification = .transient ∨ code = "Neo.ClientError.Cluster.NotALeader" ∨
      code = "Neo.ClientError.General.ForbiddenOnReadOnlyDatabase" := by
  cases classification with
  | transient => exact .inl rfl
  | database => cases h
  | unknown => cases h
  | client =>
    refine .inr ?_
    unfold ofCode at h
    dsimp only at h
    by_contra hneither
    obtain ⟨hleader, hreadOnly⟩ := not_or.mp hneither
    rw [if_neg hleader, if_neg hreadOnly] at h
    split_ifs at h <;> cases h

/-- An expired authorization is known by its code alone. -/
theorem ErrorKind.code_of_authorizationExpired (h : ErrorKind.ofCode classification code = .authorizationExpired) :
    code = Error.authorizationExpiredCode := by
  unfold ofCode at h
  split at h
  · split_ifs at h
  · split_ifs at h with _ hcode
    exact hcode
  · cases h
  · cases h

namespace Error

theorem classify_transient (h : classify code name = .transient) :
    code = authorizationExpiredCode ∨ name = "TransientError" := by
  unfold classify Classification.ofName at h
  split_ifs at h with hcode _ _ hname
  · exact .inl hcode
  · exact .inr hname

theorem ofCode_of_parts (h : code.splitOn "." = [first, name, category, title]) (message? : Option String) :
    ofCode (some code) message?
      = ⟨renamed code, message?.getD unknownMessage, classify code name, category, title,
          .ofCode (classify code name) (renamed code)⟩ := by
  unfold ofCode
  dsimp only [Option.getD_some]
  rw [h]

theorem ofCode_of_not_parts (h : ∀ first name category title, code.splitOn "." ≠ [first, name, category, title])
    (message? : Option String) :
    ofCode (some code) message?
      = ⟨code, message?.getD unknownMessage, .database, "General", "UnknownError", .database⟩ := by
  unfold ofCode
  dsimp only [Option.getD_some]
  split
  · next hparts => exact absurd hparts (h _ _ _ _)
  · rfl

/-- A code that is rewritten names passing trouble, and its new code the client; neither changes what is made of it. -/
theorem rewritten (h : code = terminatedCode ∨ code = lockClientStoppedCode) :
    (∃ title, code.splitOn "." = ["Neo", "TransientError", "Transaction", title] ∧
      (renamed code).splitOn "." = ["Neo", "ClientError", "Transaction", title]) ∧
    renamed (renamed code) = renamed code ∧
      classify (renamed code) "ClientError" = classify code "TransientError" := by
  rcases h with rfl | rfl
  · refine ⟨⟨"Terminated", ?_, ?_⟩, by decide, by decide⟩
    · rw [Text.splitOn_dot]
      decide
    · rw [Text.splitOn_dot]
      decide
  · refine ⟨⟨"LockClientStopped", ?_, ?_⟩, by decide, by decide⟩
    · rw [Text.splitOn_dot]
      decide
    · rw [Text.splitOn_dot]
      decide

theorem splitOn_authorizationExpired :
    authorizationExpiredCode.splitOn "." = ["Neo", "ClientError", "Security", "AuthorizationExpired"] := by
  rw [Text.splitOn_dot]
  decide

/-- An error comes of its code and its message once more: the new code of a rewritten one means the same. -/
theorem ofCode_again (code? message? : Option String) :
    ofCode (some (ofCode code? message?).code) (some (ofCode code? message?).message) = ofCode code? message? := by
  have hgiven : ofCode code? message? = ofCode (some (code?.getD unknownCode)) message? := rfl
  rw [hgiven]
  generalize code?.getD unknownCode = code
  by_cases hparts : ∃ first name category title, code.splitOn "." = [first, name, category, title]
  · obtain ⟨first, name, category, title, hparts⟩ := hparts
    rw [ofCode_of_parts hparts]
    dsimp only
    -- the parts of the rewritten codes are known; any other code is left as it is
    by_cases hrewritten : code = terminatedCode ∨ code = lockClientStoppedCode
    · obtain ⟨⟨ending, hold, hnew⟩, hrenamed, hclassified⟩ := rewritten hrewritten
      rw [hold] at hparts
      cases hparts
      rw [ofCode_of_parts hnew, hrenamed, hclassified]
      rfl
    have hsame : renamed code = code := by
      obtain ⟨hterminated, hstopped⟩ := not_or.mp hrewritten
      unfold renamed
      rw [if_neg hterminated, if_neg hstopped]
    rw [hsame, ofCode_of_parts hparts, hsame]
    rfl
  · have hnot : ∀ first name category title, code.splitOn "." ≠ [first, name, category, title] :=
      fun first name category title h => hparts ⟨first, name, category, title, h⟩
    rw [ofCode_of_not_parts hnot]
    dsimp only
    rw [ofCode_of_not_parts hnot]
    rfl

/-- The kind of an error that comes of its own code is the kind of that code, if the code has its four parts. -/
theorem kind_of_again (h : ofCode (some e.code) (some e.message) = e) :
    (∃ first name category title, e.code.splitOn "." = [first, name, category, title] ∧
      e.kind = .ofCode (classify e.code name) e.code) ∨
    e.kind = .database ∧ e.code ≠ authorizationExpiredCode := by
  by_cases hparts : ∃ first name category title, e.code.splitOn "." = [first, name, category, title]
  · obtain ⟨first, name, category, title, hparts⟩ := hparts
    rw [ofCode_of_parts hparts] at h
    have hsame : renamed e.code = e.code := congrArg code h
    have hkind := congrArg kind h
    rw [hsame] at hkind
    exact .inl ⟨first, name, category, title, hparts, hkind.symm⟩
  · rw [ofCode_of_not_parts fun first name category title h => hparts ⟨first, name, category, title, h⟩] at h
    refine .inr ⟨(congrArg kind h).symm, fun hcode => hparts ?_⟩
    exact ⟨_, _, _, _, hcode ▸ splitOn_authorizationExpired⟩

/-- Every connection must log in anew exactly if the authorization has expired. -/
theorem invalidatesAll_iff (h : ofCode (some e.code) (some e.message) = e) :
    e.invalidatesAll = true ↔ e.kind = .authorizationExpired := by
  have hinvalidates : e.invalidatesAll = true ↔ e.code = authorizationExpiredCode := decide_eq_true_iff
  rw [hinvalidates]
  rcases kind_of_again h with ⟨first, name, category, title, _, hkind⟩ | ⟨hkind, hcode⟩
  · constructor
    · intro hcode
      rw [hkind, hcode]
      rfl
    · intro hexpired
      exact ErrorKind.code_of_authorizationExpired (hkind.symm.trans hexpired)
  · rw [hkind]
    exact ⟨fun h => absurd h hcode, nofun⟩

/-- The code of an error that may be tried again. -/
theorem code_of_retryable (h : ofCode (some e.code) (some e.message) = e) (hretryable : e.isRetryable = true) :
    (∃ first category title, e.code.splitOn "." = [first, "TransientError", category, title]) ∨
      e.code ∈ [authorizationExpiredCode, "Neo.ClientError.Cluster.NotALeader",
        "Neo.ClientError.General.ForbiddenOnReadOnlyDatabase"] := by
  unfold isRetryable at hretryable
  rcases kind_of_again h with ⟨first, name, category, title, hparts, hkind⟩ | ⟨hkind, _⟩
  · rw [hkind] at hretryable
    rcases ErrorKind.ofCode_retryable hretryable with htransient | hcode
    · rcases classify_transient htransient with hcode | rfl
      · rw [hcode]
        exact .inr List.mem_cons_self
      · exact .inl ⟨first, category, title, hparts⟩
    · refine .inr (List.mem_cons_of_mem _ ?_)
      simpa using hcode
  · rw [hkind] at hretryable
    cases hretryable

/-- The codes that end a search blame the client. -/
theorem client_of_fatal (h : e.isFatalInDiscovery = true) : "Neo.ClientError.".toList <+: e.code.toList := by
  unfold isFatalInDiscovery at h
  rcases Bool.or_eq_true_iff.mp h with hmem | hsecurity
  · have hall : ∀ code ∈ fatalCodes, "Neo.ClientError.".toList <+: code.toList := by decide
    exact hall _ (of_decide_eq_true hmem)
  · have hsecure : "Neo.ClientError.Security.".toList <+: e.code.toList :=
      String.startsWith_string_iff.mp (Bool.and_eq_true_iff.mp hsecurity).1
    have hshort : "Neo.ClientError.".toList <+: "Neo.ClientError.Security.".toList := by decide
    exact hshort.trans hsecure

theorem splitOn_of_client (h : "Neo.ClientError.".toList <+: code.toList) :
    ∃ rest, code.splitOn "." = "Neo" :: "ClientError" :: rest := by
  obtain ⟨rest, hcode⟩ := h
  have hfirst : code.toList = "Neo".toList ++ '.' :: ("ClientError".toList ++ '.' :: rest) := hcode.symm
  refine ⟨(String.ofList rest).splitOn ".", ?_⟩
  rw [Text.splitOn_dot_of_part (by decide) hfirst, Text.splitOn_dot_of_part (by decide) String.toList_ofList]

/-- Nothing that may be tried again ends a search. -/
theorem not_fatal_of_retryable (h : ofCode (some e.code) (some e.message) = e) (hretryable : e.isRetryable = true) :
    e.isFatalInDiscovery = false := by
  apply Bool.eq_false_iff.mpr
  intro hfatal
  rcases code_of_retryable h hretryable with ⟨first, category, title, hparts⟩ | hcode
  · obtain ⟨rest, hclient⟩ := splitOn_of_client (client_of_fatal hfatal)
    rw [hclient] at hparts
    have hname := (List.cons.inj (List.cons.inj hparts).2).1
    exact absurd hname (by decide)
  · have hlisted : ∀ code ∈ [authorizationExpiredCode, "Neo.ClientError.Cluster.NotALeader",
        "Neo.ClientError.General.ForbiddenOnReadOnlyDatabase"], code ∉ fatalCodes ∧
          ("Neo.ClientError.Security.".toList <+: code.toList → code = authorizationExpiredCode) := by decide
    obtain ⟨hunlisted, hsecure⟩ := hlisted _ hcode
    unfold isFatalInDiscovery at hfatal
    rcases Bool.or_eq_true_iff.mp hfatal with hmem | hsecurity
    · exact hunlisted (of_decide_eq_true hmem)
    · obtain ⟨hsecret, hvalid⟩ := Bool.and_eq_true_iff.mp hsecurity
      have hexpired := hsecure (String.startsWith_string_iff.mp hsecret)
      unfold invalidatesAll at hvalid
      rw [hexpired] at hvalid
      exact absurd hvalid (by decide)

theorem isRetryable_ofServer (e : Error) : (BoltClient.Error.ofServer e).isRetryable = e.isRetryable := by
  unfold BoltClient.Error.ofServer
  split
  · next hkind => exact (congrArg ErrorKind.isRetryable hkind).symm
  · next hkind => exact (congrArg ErrorKind.isRetryable hkind).symm
  · rfl

/-- A failure is noted down once at most. A server that takes no writes or cannot be used is noted for a failure that
may be tried again. -/
theorem feedbackOf_bounded (database : Option String) (e : Error) :
    (Connection.feedbackOf database e).length ≤ 1 ∧
      ∀ note ∈ Connection.feedbackOf database e, note ≠ .invalidateAll → e.isRetryable = true := by
  unfold Connection.feedbackOf isRetryable
  split
  · next hkind => exact ⟨Nat.le_refl 1, fun _ _ _ => by rw [hkind]; rfl⟩
  · next hkind => exact ⟨Nat.le_refl 1, fun _ _ _ => by rw [hkind]; rfl⟩
  · next hkind => exact ⟨Nat.le_refl 1, fun _ _ _ => by rw [hkind]; rfl⟩
  · split
    · exact ⟨Nat.le_refl 1, fun note hnote hother => absurd (List.mem_singleton.mp hnote) hother⟩
    · exact ⟨Nat.zero_le 1, nofun⟩

/-- What is read off an error fits together, whatever code and message a server sends or leaves out. -/
theorem verdicts_agree (code? message? : Option String) :
    let e := ofCode code? message?
    ofCode (some e.code) (some e.message) = e ∧
    ¬ (e.isRetryable = true ∧ e.isFatalInDiscovery = true) ∧
    (BoltClient.Error.ofServer e).isRetryable = e.isRetryable ∧
    (e.invalidatesAll = true ↔ e.kind = .authorizationExpired) ∧
    (e.invalidatesAll = true → e.isRetryable = true ∧ e.isFatalInDiscovery = false) ∧
    ∀ (c : Connection) (x : Exchange) (rest : List Exchange) (metadata : Entries Value), c.pending = x :: rest →
      Connection.failureError x.purpose ⟨metadata⟩ = e →
        ∃ told, (c.receive (.failure metadata)).2.2.feedback = c.feedback ++ told ∧ told.length ≤ 1 ∧
          ∀ note ∈ told, note ≠ .invalidateAll → e.isRetryable = true := by
  intro e
  have hagain : ofCode (some e.code) (some e.message) = e := ofCode_again code? message?
  refine ⟨hagain, ?_, isRetryable_ofServer e, invalidatesAll_iff hagain, ?_, ?_⟩
  · rintro ⟨hretryable, hfatal⟩
    exact absurd hfatal (Bool.eq_false_iff.mp (not_fatal_of_retryable hagain hretryable))
  · intro hinvalidates
    have hretryable : e.isRetryable = true := by
      unfold isRetryable
      rw [(invalidatesAll_iff hagain).mp hinvalidates]
      rfl
    exact ⟨hretryable, not_fatal_of_retryable hagain hretryable⟩
  · intro c x rest metadata hpending he
    refine ⟨_, Connection.feedback_receive hpending (.failure metadata), ?_⟩
    dsimp only
    rw [he]
    split
    · exact ⟨Nat.zero_le 1, nofun⟩
    · exact feedbackOf_bounded c.lastDatabase e

def queryWaiting : Connection :=
  { Connection.ofLink ⟨0⟩ default none .v5_2 none .start with pending := [.ofRequest .run .plain {}] }

def unavailableCode : String := "Neo.TransientError.General.DatabaseUnavailable"

/-- A server without its database may be tried again, ends no search, and is noted down once. -/
theorem verdicts_agree_unavailable :
    (ofCode (some unavailableCode) none).isRetryable = true ∧
      (ofCode (some unavailableCode) none).isFatalInDiscovery = false ∧
      (queryWaiting.receive (.failure [("code", .text unavailableCode)])).2.2.feedback = [.deactivate] := by
  obtain ⟨_, hexclusive, _, _, _, hnoted⟩ := verdicts_agree (some unavailableCode) none
  obtain ⟨told, hfeedback, hfew, _⟩ := hnoted queryWaiting _ [] [("code", .text unavailableCode)] rfl rfl
  have hparts : unavailableCode.splitOn "." = ["Neo", "TransientError", "General", "DatabaseUnavailable"] := by
    rw [Text.splitOn_dot]
    decide
  have hkind : (ofCode (some unavailableCode) none).kind = .databaseUnavailable := by
    rw [ofCode_of_parts hparts]
    decide
  have hretryable : (ofCode (some unavailableCode) none).isRetryable = true := congrArg ErrorKind.isRetryable hkind
  have hnote : Connection.feedbackOf none (ofCode (some unavailableCode) none) = [.deactivate] := by
    unfold Connection.feedbackOf
    rw [hkind]
  have hdeactivate : .deactivate ∈ told := by
    have hreceived := Connection.feedback_receive (c := queryWaiting) rfl (.failure [("code", .text unavailableCode)])
    obtain rfl := List.append_cancel_left (hfeedback.symm.trans hreceived)
    change .deactivate ∈ Connection.feedbackOf none (ofCode (some unavailableCode) none)
    rw [hnote]
    exact List.mem_singleton_self _
  refine ⟨hretryable, Bool.eq_false_iff.mpr fun hfatal => hexclusive ⟨hretryable, hfatal⟩, ?_⟩
  obtain ⟨note, rfl⟩ := List.length_eq_one_iff.mp (Nat.le_antisymm hfew (List.length_pos_of_mem hdeactivate))
  rw [hfeedback, List.mem_singleton.mp hdeactivate]
  rfl

end Error
end Server
end BoltClient
