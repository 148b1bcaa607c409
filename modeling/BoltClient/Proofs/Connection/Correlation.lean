import BoltClient.Connection.Answer

/-!
Which answer belongs to which exchange. The summaries among the answers divide them into sections, and
each section belongs to one exchange, in the order in which the exchanges were begun.
-/

namespace BoltClient

namespace Response

def summaries (told : List Response) : List Response := told.filter isSummary

def records : Response → List (List Value)
  | record values => [values]
  | _ => []

def summary? (r : Response) : Option Response := if r.isSummary then some r else none

/-- The records of a section: those between the summary before it and its own. Sections are numbered from
zero. -/
def recordsOf : Nat → List Response → List (List Value)
  | _, [] => []
  | 0, r :: told => if r.isSummary then [] else r.records ++ recordsOf 0 told
  | i + 1, r :: told => if r.isSummary then recordsOf i told else recordsOf (i + 1) told

theorem summaries_append (told : List Response) (r : Response) :
    summaries (told ++ [r]) = summaries told ++ r.summary?.toList := by
  unfold summaries summary?
  rw [List.filter_append]
  cases h : r.isSummary <;> simp [h]

theorem recordsOf_append (i : Nat) (told : List Response) (r : Response) :
    recordsOf i (told ++ [r])
      = recordsOf i told ++ if i = (summaries told).length then r.records else [] := by
  induction told generalizing i with
  | nil =>
    cases i with
    | zero => cases r <;> rfl
    | succ i => cases r <;> rfl
  | cons x told ih =>
    cases hx : x.isSummary with
    | true =>
      have hlen : (summaries (x :: told)).length = (summaries told).length + 1 := by
        simp [summaries, hx]
      cases i with
      | zero => simp [recordsOf, hx, hlen]
      | succ i => simp [recordsOf, hx, hlen, ih]
    | false =>
      have hlen : (summaries (x :: told)).length = (summaries told).length := by
        simp [summaries, hx]
      cases i with
      | zero => simp [recordsOf, hx, hlen, ih]
      | succ i => simp [recordsOf, hx, hlen, ih]

end Response

namespace Exchange

/-- An exchange for which records have come in and perhaps a summary. RESET takes no records, and of its
summary only a success is kept. -/
def after (x : Exchange) (records : List (List Value)) (summary? : Option Response) : Exchange :=
  if x.purpose = .reset then
    match summary? with
    | none | some (.record _) => x
    | some (.success metadata) => { x with success := some ⟨metadata⟩, complete := true }
    | some (.failure _) | some .ignored => { x with complete := true }
  else
    match summary? with
    | none | some (.record _) => { x with records := x.records ++ records.toArray }
    | some (.success metadata) =>
      { x with records := x.records ++ records.toArray, success := some ⟨metadata⟩, complete := true }
    | some (.failure metadata) =>
      { x with records := x.records ++ records.toArray, failure := some ⟨metadata⟩, complete := true }
    | some .ignored => { x with records := x.records ++ records.toArray, ignored := true, complete := true }

theorem after_purpose (x : Exchange) (records : List (List Value)) (summary? : Option Response) :
    (x.after records summary?).purpose = x.purpose := by
  unfold after
  split <;> split <;> rfl

@[simp] theorem after_nothing (x : Exchange) : x.after [] none = x := by
  simp [after]

theorem after_after (x : Exchange) (records : List (List Value)) (r : Response) :
    (x.after records none).after r.records r.summary? = x.after (records ++ r.records) r.summary? := by
  unfold after
  by_cases hpurpose : x.purpose = .reset
  · simp [hpurpose]
  · cases r <;> simp [hpurpose, Response.records, Response.summary?, Response.isSummary]

end Exchange

namespace Connection

variable {c₀ c d : Connection} {x : Exchange} {rest begun : List Exchange} {told : List Response}

theorem getElem?_concat {α : Type} (l : List α) (a : α) (i : Nat) :
    (l ++ [a])[i]? = if i = l.length then some a else l[i]? := by
  grind

theorem getElem?_middle {α : Type} (l l' : List α) (a b : α) (i : Nat) :
    (l ++ a :: l')[i]? = if i = l.length then some a else (l ++ b :: l')[i]? := by
  grind

theorem exchange?_eq_append (c : Connection) (n : Nat) :
    c.exchange? n = (c.answered.toList ++ c.pending)[n]? := by
  unfold exchange?
  rw [List.getElem?_append, Array.length_toList, Array.getElem?_toList]

theorem exchange?_pending (c : Connection) (i : Nat) :
    c.exchange? (c.answered.size + i) = c.pending[i]? := by
  unfold exchange?
  rw [if_neg (by omega), Nat.add_sub_cancel_left]

@[simp] theorem hear_answered (c : Connection) (notices : List Notice) :
    (c.hear notices).answered = c.answered := rfl

@[simp] theorem hear_pending (c : Connection) (notices : List Notice) :
    (c.hear notices).pending = c.pending := rfl

@[simp] theorem takeGreeting_answered (c : Connection) (s : Success) :
    (c.takeGreeting s).answered = c.answered := by
  unfold takeGreeting takeHints
  dsimp only
  split
  · split
    · split
      · split <;> rfl
      · rfl
    · rfl
  · rfl

/-- What an answer does to the exchanges: it goes to the oldest that has no summary. -/
theorem receive_books (hpending : c.pending = x :: rest) (r : Response) :
    (c.receive r).2.2.answered.size = c.answered.size + r.summary?.toList.length ∧
    (c.receive r).2.2.answered.toList ++ (c.receive r).2.2.pending
      = c.answered.toList ++ x.after r.records r.summary? :: rest := by
  unfold receive
  rw [hpending]
  cases r with
  | record values =>
    by_cases hpurpose : x.purpose = .reset
    · simp [hpurpose, hpending, Response.summary?, Response.isSummary, Exchange.after]
    · simp [hpurpose, Response.records, Response.summary?, Response.isSummary, Exchange.after,
        Exchange.addRecord]
  | success metadata =>
    by_cases hinit : x.purpose = .init
    · simp [hinit, conclude, Response.records, Response.summary?, Response.isSummary, Exchange.after,
        Exchange.succeed]
    · by_cases hpurpose : x.purpose = .reset
      · simp [hpurpose, conclude, Response.summary?, Response.isSummary, Exchange.after, Exchange.succeed]
      · simp [hinit, hpurpose, conclude, Response.records, Response.summary?, Response.isSummary,
          Exchange.after, Exchange.succeed]
  | ignored =>
    by_cases hpurpose : x.purpose = .reset
    · simp [hpurpose, conclude, Response.summary?, Response.isSummary, Exchange.after, Exchange.finish]
    · simp [hpurpose, conclude, Response.records, Response.summary?, Response.isSummary, Exchange.after,
        Exchange.ignore]
  | failure metadata =>
    unfold failHead
    by_cases hpurpose : x.purpose = .reset
    · simp [hpurpose, conclude, Response.summary?, Response.isSummary, Exchange.after, Exchange.finish]
    · simp [hpurpose, conclude, Response.records, Response.summary?, Response.isSummary, Exchange.after,
        Exchange.fail]

/-- From one connection to another: exchanges were begun, and answers came in for them in order. -/
structure Correlated (c₀ c : Connection) (begun : List Exchange) (told : List Response) : Prop where
  /-- What was over before is left alone. -/
  past : ∀ n < c₀.answered.size, c.exchange? n = c₀.exchange? n
  /-- The records and the summary of a section are those of the exchange of its number. -/
  inOrder : ∀ i, c.exchange? (c₀.answered.size + i) = ((c₀.pending ++ begun)[i]?).map fun x =>
    x.after (Response.recordsOf i told) (Response.summaries told)[i]?
  /-- Every summary ends an exchange. -/
  concluded : c.answered.size = c₀.answered.size + (Response.summaries told).length
  /-- What is pending is what was begun and has no summary. -/
  pending : c.pending.length + (Response.summaries told).length = c₀.pending.length + begun.length
  /-- No record came in without an exchange for it. -/
  spare : ∀ i, c₀.pending.length + begun.length ≤ i → Response.recordsOf i told = []

theorem Correlated.refl (c : Connection) : Correlated c c [] [] where
  past _ _ := rfl
  inOrder i := by
    simp [exchange?_pending, Response.recordsOf, Response.summaries]
  concluded := rfl
  pending := by simp [Response.summaries]
  spare _ _ := by simp [Response.recordsOf]

/-- A change that leaves the exchanges alone. -/
theorem Correlated.congr (h : Correlated c₀ c begun told) (hanswered : d.answered = c.answered)
    (hpending : d.pending = c.pending) : Correlated c₀ d begun told := by
  have hexchange (n : Nat) : d.exchange? n = c.exchange? n := by
    rw [exchange?, exchange?, hanswered, hpending]
  constructor
  · intro n hn
    rw [hexchange, h.past n hn]
  · intro i
    rw [hexchange, h.inOrder i]
  · rw [hanswered, h.concluded]
  · rw [hpending, h.pending]
  · exact h.spare

/-- An exchange is begun. -/
theorem Correlated.begin (h : Correlated c₀ c begun told) (hanswered : d.answered = c.answered)
    (hpending : d.pending = c.pending ++ [x]) : Correlated c₀ d (begun ++ [x]) told := by
  have hconcluded := h.concluded
  have hcount := h.pending
  have hexchange (n : Nat) : d.exchange? n
      = if n = c.answered.size + c.pending.length then some x else c.exchange? n := by
    rw [exchange?_eq_append, exchange?_eq_append, hanswered, hpending, ← List.append_assoc,
      getElem?_concat, List.length_append, Array.length_toList]
  constructor
  · intro n hn
    rw [hexchange, if_neg (by omega), h.past n hn]
  · intro i
    rw [hexchange, h.inOrder i, ← List.append_assoc, getElem?_concat, List.length_append]
    by_cases hi : i = c₀.pending.length + begun.length
    · have hnone : (Response.summaries told)[i]? = none := by
        rw [List.getElem?_eq_none_iff]
        omega
      rw [if_pos (by omega), if_pos hi, h.spare i (by omega), hnone, Option.map_some,
        Exchange.after_nothing]
    · rw [if_neg (by omega), if_neg hi]
  · rw [hanswered, h.concluded]
  · rw [hpending, List.length_append, List.length_append, List.length_singleton]
    omega
  · intro i hi
    rw [List.length_append, List.length_singleton] at hi
    exact h.spare i (by omega)

/-- An answer comes in. -/
theorem Correlated.receive (h : Correlated c₀ c begun told) (hpending : c.pending = x :: rest)
    (r : Response) : Correlated c₀ (c.receive r).2.2 begun (told ++ [r]) := by
  obtain ⟨hsize, hbooks⟩ := receive_books hpending r
  have hconcluded := h.concluded
  have hcount := h.pending
  have hlength : (Response.summaries (told ++ [r])).length
      = (Response.summaries told).length + r.summary?.toList.length := by
    rw [Response.summaries_append, List.length_append]
  rw [hpending, List.length_cons] at hcount
  have hexchange (n : Nat) : (c.receive r).2.2.exchange? n = if n = c.answered.size
      then some (x.after r.records r.summary?) else c.exchange? n := by
    rw [exchange?_eq_append, exchange?_eq_append, hbooks, hpending, getElem?_middle,
      Array.length_toList]
  have hlast : c.exchange? c.answered.size = some x := by
    rw [← Nat.add_zero c.answered.size, exchange?_pending, hpending]
    rfl
  constructor
  · intro n hn
    rw [hexchange, if_neg (by omega), h.past n hn]
  · intro i
    rw [hexchange, Response.recordsOf_append, Response.summaries_append]
    by_cases hi : i = (Response.summaries told).length
    · have horder := h.inOrder i
      have hnone : (Response.summaries told)[i]? = none := by
        rw [List.getElem?_eq_none_iff]
        omega
      have hsome : (Response.summaries told ++ r.summary?.toList)[i]? = r.summary? := by
        rw [hi, List.getElem?_append_right (Nat.le_refl _), Nat.sub_self]
        cases r.summary? <;> rfl
      rw [if_pos (by omega), if_pos hi, hsome]
      rw [hnone, show c₀.answered.size + i = c.answered.size by omega, hlast] at horder
      obtain ⟨y, hy, hxy⟩ := Option.map_eq_some_iff.mp horder.symm
      rw [hy, Option.map_some, ← hxy, Exchange.after_after]
    · have hsame : (Response.summaries told ++ r.summary?.toList)[i]? = (Response.summaries told)[i]? := by
        cases r.summary? with
        | none => rw [Option.toList_none, List.append_nil]
        | some s => rw [Option.toList_some, getElem?_concat, if_neg hi]
      rw [if_neg (by omega), if_neg hi, List.append_nil, hsame, h.inOrder i]
  · rw [hsize, hlength]
    omega
  · have hlen := congrArg List.length hbooks
    rw [List.length_append, List.length_append, List.length_cons, Array.length_toList,
      Array.length_toList] at hlen
    rw [hlength]
    omega
  · intro i hi
    rw [Response.recordsOf_append, h.spare i hi, if_neg (by omega), List.append_nil]

end Connection
end BoltClient
