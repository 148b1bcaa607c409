import BoltClient.Proofs.Connection.Pipelining
import BoltClient.Proofs.Connection.Recording

namespace BoltClient

namespace Stage.Queueing

variable {q : Queueing} {c : Connection} {watch : Watch} {e : Error}

/-- The database that is remembered is the one that a request names, if the version has the request. -/
theorem database_eq (q : Queueing) (c : Connection) :
    match q.request c.version with
    | .ok _ => q.database c = (q.database? c.version).getD c.lastDatabase
    | .error _ => q.database? c.version = none := by
  have hextra (r : Entries Value → Request) (extra : TransactionExtra) (filter : Notification.Filter) :
      match r <$> Protocol.extraEntries c.version extra filter with
      | .ok _ => extra.database = ((Protocol.extraEntries c.version extra filter).toOption.map
          fun _ => extra.database).getD c.lastDatabase
      | .error _ => ((Protocol.extraEntries c.version extra filter).toOption.map fun _ => extra.database) = none := by
    cases Protocol.extraEntries c.version extra filter <;> rfl
  cases q with
  | run query parameters extra filter => exact hextra (.run query parameters) extra filter
  | begin extra filter => exact hextra .begin extra filter
  | pull | discard | commit | rollback | other => rfl

/-- A request is refused if the version does not have it or a size in it cannot be written. -/
theorem refused_iff (q : Queueing) (watch : Watch) (c : Connection) : (∃ e, (q.apply watch c).1 = .error e) ↔
    ∀ r, q.request c.version = .ok r → ¬ r.toStruct.value.Fits := by
  rw [apply_eq]
  cases hrequest : q.request c.version with
  | error e => exact iff_of_true ⟨e, rfl⟩ nofun
  | ok r =>
    have hqueue := Connection.queue_of? { c with lastDatabase := q.database c } r q.purpose watch
    have hfits := Accepted.isSome_of?_iff r q.purpose watch
    dsimp only
    generalize Accepted.of? r q.purpose watch = accepted at hqueue hfits
    cases accepted with
    | some a =>
      refine iff_of_false ?_ fun hnot => hnot r rfl (hfits.mp rfl)
      rw [hqueue]
      exact nofun
    | none =>
      obtain ⟨e, he⟩ := hqueue
      refine iff_of_true ⟨e, by rw [he]⟩ ?_
      rintro _ ⟨⟩ hr
      cases hfits.mpr hr

/-- Of a request that is refused nothing is left but the database that it names. -/
theorem apply_of_error (h : (q.apply watch c).1 = .error e) :
    (q.apply watch c).2 = { c with lastDatabase := (q.database? c.version).getD c.lastDatabase } := by
  have hdatabase := database_eq q c
  rw [apply_eq] at h ⊢
  cases hrequest : q.request c.version with
  | error e =>
    rw [hrequest] at hdatabase
    dsimp only at hdatabase ⊢
    rw [hdatabase]
    rfl
  | ok r =>
    rw [hrequest] at h hdatabase
    dsimp only at h hdatabase ⊢
    have hqueue := Connection.queue_of? { c with lastDatabase := q.database c } r q.purpose watch
    generalize Accepted.of? r q.purpose watch = accepted at hqueue
    cases accepted with
    | some a =>
      rw [hqueue] at h
      cases h
    | none =>
      obtain ⟨_, hrefused⟩ := hqueue
      rw [hrefused, hdatabase]

end Stage.Queueing

namespace Connection

open Stage (Queueing)

/-- A request is refused if the version does not have it or a size in it cannot be written. The connection is then
as before, but for the database that is remembered: that is the one which the request names, if the version has it. -/
theorem refused_leaves_database (q : Queueing) (watch : Watch) (c : Connection) :
    ((∃ e, (q.apply watch c).1 = .error e) ↔ ∀ r, q.request c.version = .ok r → ¬ r.toStruct.value.Fits) ∧
    ∀ e, (q.apply watch c).1 = .error e →
      (q.apply watch c).2 = { c with lastDatabase := (q.database? c.version).getD c.lastDatabase } ∧
      ((q.apply watch c).2 = c ↔ ∀ name, q.database? c.version = some name → name = c.lastDatabase) := by
  refine ⟨q.refused_iff watch c, fun e h => ⟨q.apply_of_error h, ?_⟩⟩
  rw [q.apply_of_error h]
  constructor
  · intro hsame name hname
    have hlast := congrArg lastDatabase hsame
    rw [hname] at hlast
    exact hlast
  · intro hsame
    have hlast : (q.database? c.version).getD c.lastDatabase = c.lastDatabase := by
      cases hname : q.database? c.version with
      | none => rfl
      | some name => exact hsame name hname
    rw [hlast]

/-- What can be written has parameters that can be written. -/
theorem parameter_fits {query : String} {parameters extra : Entries Value}
    (h : (Request.run query parameters extra).toStruct.value.Fits) : ∀ entry ∈ parameters, entry.2.Fits := by
  have hfields : Value.EverywhereIn Value.SizeFits [.text query, .map parameters, .map extra] := h.2
  exact Value.everywhereUnder_iff.mp hfields.2.1.2

def unnamed : Connection := ofLink ⟨0⟩ default none .v5_2 none .start

/-- A query with a structure of too many fields. -/
def unwritable (database : Option String) : Queueing :=
  .run "RETURN $p" [("p", .struct 1 (List.replicate 0x10000 .null))] { database := database } {}

theorem refused_unwritable (database : Option String) :
    ∃ e, ((unwritable database).apply {} unnamed).1 = .error e := by
  refine ((unwritable database).refused_iff {} unnamed).mpr ?_
  rintro _ ⟨⟩ hfits
  have hparameter := parameter_fits hfits _ (List.mem_singleton_self _)
  have hfew : (List.replicate 0x10000 Value.null).length ≤ Value.maxFields := hparameter.1
  rw [List.length_replicate] at hfew
  exact absurd hfew (by decide)

/-- A query that cannot be written and names no database leaves a connection as it is that remembers none. -/
theorem unwritable_unnamed_leaves_nothing : ∃ e, ((unwritable none).apply {} unnamed).1 = .error e ∧
    ((unwritable none).apply {} unnamed).2 = unnamed := by
  obtain ⟨e, he⟩ := refused_unwritable none
  refine ⟨e, he, (((refused_leaves_database _ _ _).2 e he).2).mpr ?_⟩
  rintro _ ⟨⟩
  rfl

/-- A query that cannot be written takes the place of the last one in what is remembered. -/
theorem not_all_refused_leave_nothing : ¬ ∀ (q : Queueing) (watch : Watch) (c : Connection) (e : Error),
    (q.apply watch c).1 = .error e → (q.apply watch c).2 = c := by
  intro hall
  obtain ⟨e, he⟩ := refused_unwritable (some "d")
  have hlast := congrArg lastDatabase (hall _ _ _ e he)
  rw [(unwritable (some "d")).apply_of_error he] at hlast
  cases hlast

end Connection
end BoltClient
