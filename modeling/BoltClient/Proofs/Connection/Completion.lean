import BoltClient.Proofs.Connection.Abandoned
import BoltClient.Proofs.Connection.Probe
import BoltClient.Proofs.Connection.Restoring

namespace BoltClient

/-- With its summary an exchange is complete. -/
theorem Exchange.complete_after (x : Exchange) (records : List (List Value)) {r : Response}
    (h : r.isSummary = true) : (x.after records (some r)).complete = true := by
  unfold after
  cases r with
  | record => cases h
  | success | failure | ignored => split <;> rfl

namespace Connection

open Work Session

variable {c₀ c d : Connection} {x : Exchange} {rest begun : List Exchange} {told : List Response}
  {s : Session} {trouble : Trouble}

/-- The exchange of a number among those that were pending has got its own summary, and is complete. -/
def Concluded (c₀ d : Connection) (told : List Response) (i : Nat) : Prop :=
  ∃ x summary, c₀.pending[i]? = some x ∧ (Response.summaries told)[i]? = some summary ∧
    d.exchange? (c₀.answered.size + i) = some (x.after (Response.recordsOf i told) (some summary)) ∧
    (x.after (Response.recordsOf i told) (some summary)).complete = true

/-- These answers were taken out of what was read, and each went where it belongs. The exchanges that have left
the queue are complete. -/
structure Fetched (c₀ : Connection) (told : List Response) (s : Session) : Prop where
  heard : told <+: Wire.answers (c₀.inbox.feed s.heard)
  books : Correlated c₀ s.connection [] told
  each : ∀ i, i + s.connection.pending.length < c₀.pending.length → Concluded c₀ s.connection told i

/-- The last answer was one that no RESET should get, and it was for a RESET that was pending. -/
def Strayed (c₀ : Connection) (told : List Response) : Prop :=
  ∃ before a x, told = before ++ [a] ∧ a.isStray = true ∧
    c₀.pending[(Response.summaries before).length]? = some x ∧ x.purpose = .reset

def IfEndsWell {α : Type} (post : Session → Prop) (r : Except Error α) (t : Session) : Prop :=
  match r with
  | .ok _ => post t
  | .error _ => True

/-- Exchanges that were pending have been answered, and the connection works unless it was closed over an
answer that strayed. -/
def Fetching (c₀ : Connection) (s : Session) : Prop :=
  ∃ told, (Tracks c₀ [] told s ∧ Works s.connection) ∨
    (told <+: Wire.answers (c₀.inbox.feed s.heard) ∧ Correlated c₀ s.connection [] told ∧
      s.connection.closed = true ∧ Strayed c₀ told)

theorem Correlated.concluded_of_lt (h : Correlated c₀ d [] told) {i : Nat}
    (hi : i + d.pending.length < c₀.pending.length) : Concluded c₀ d told i := by
  have hcount := h.pending
  rw [List.length_nil] at hcount
  have hsummary : (Response.summaries told)[i]? = some (Response.summaries told)[i] :=
    List.getElem?_eq_getElem (by omega)
  have hx : c₀.pending[i]? = some c₀.pending[i] := List.getElem?_eq_getElem (by omega)
  have his : (Response.summaries told)[i].isSummary = true :=
    (List.mem_filter.mp (List.getElem_mem _)).2
  refine ⟨_, _, hx, hsummary, h.concludes ?_ hsummary, Exchange.complete_after _ _ his⟩
  rw [List.append_nil, hx]

theorem Correlated.fetched (h : Correlated c₀ s.connection [] told)
    (hheard : told <+: Wire.answers (c₀.inbox.feed s.heard)) : Fetched c₀ told s :=
  ⟨hheard, h, fun _ hi => h.concluded_of_lt hi⟩

/-- The exchange in front is the one whose number is that of the summaries so far. -/
theorem Correlated.exists_front (h : Correlated c₀ c begun told) (hpending : c.pending = x :: rest) :
    ∃ y, (c₀.pending ++ begun)[(Response.summaries told).length]? = some y ∧ y.purpose = x.purpose := by
  have horder := h.inOrder (Response.summaries told).length
  rw [← h.concluded, ← Nat.add_zero c.answered.size, exchange?_pending, hpending] at horder
  obtain ⟨y, hy, hx⟩ := Option.map_eq_some_iff.mp horder.symm
  exact ⟨y, hy, by rw [← hx, Exchange.after_purpose]⟩

/-- Trouble without an error comes of an answer that no RESET should get. -/
theorem stray_receive (hpending : c.pending = x :: rest) {r : Response}
    (h : (c.receive r).2.1 = some trouble) (hnone : trouble.error = none) :
    x.purpose = .reset ∧ trouble.remedy = .close ∧ r.isStray = true := by
  obtain ⟨_, hreset, hother⟩ := trouble_receive hpending h
  by_cases hx : x.purpose = .reset
  · refine ⟨hx, (hreset hx).1, ?_⟩
    unfold receive at h
    rw [hpending] at h
    cases r with
    | record | ignored => rfl
    | success => cases h
    | failure metadata =>
      simp only [failHead, hx, if_true] at h
      cases h
      cases hnone
  · obtain ⟨_, f, herror⟩ := hother hx
    rw [hnone] at herror
    cases herror

theorem close_closes (s : Session) :
    close.Safe anyNetwork s fun _ t => t.connection.closed = true ∨ t = s := by
  unfold close
  refine Safe.andThen (safe_edit fun _ => ?_)
  have hhangUp (t : Session) : hangUp.Safe anyNetwork t fun _ u => u.connection.closed = true ∨ u = s :=
    (hangUp_ends t).mono fun _ _ hu => .inl hu.2
  have hcases := beginClose_cases s.connection
  generalize s.connection.beginClose = began at hcases
  obtain ⟨todo, d⟩ := began
  match todo with
  | none =>
    obtain ⟨_, rfl⟩ := hcases
    exact .inr rfl
  | some false => exact hhangUp _
  | some true => exact Safe.andThen ((safe_anyNetwork _).mono fun _ t _ => hhangUp t)

/-- A connection that strays is closed, and nothing else happens; where it is about to part already, it goes on
as it is. -/
theorem close_fetching (htracks : Tracks c₀ [] told s) (hworks : Works s.connection)
    (hstrayed : Strayed c₀ told) : close.Safe anyNetwork s fun _ t => Fetching c₀ t := by
  have hready : Ready False s.connection := ⟨hworks, False.elim⟩
  have hstill := (unguarded (close_still s)).both (close_ends hready) fun hb => hb
  refine ((close_closes s).both hstill fun hb => hb).mono fun _ t ht => ?_
  obtain ⟨hclosed | rfl, ⟨hheard, hundelivered⟩, hpending, _⟩ := ht
  · refine ⟨told, .inr ⟨?_, htracks.correlated.congr hundelivered.answered hpending, hclosed, hstrayed⟩⟩
    rw [hheard]
    exact htracks.hears.heard
  · exact ⟨told, .inl ⟨htracks, hworks⟩⟩

/-- Trouble that has an error is not passed over; trouble without one closes the connection. -/
theorem settle_fetching (htracks : Tracks c₀ [] told s) (hworks : Works s.connection)
    (h : trouble.error = none → trouble.remedy = .close ∧ Strayed c₀ told) :
    (settle trouble).run.Safe anyNetwork s (IfEndsWell (Fetching c₀)) := by
  have hgive (t : Session) (ht : trouble.error = none → Fetching c₀ t) :
      (giveError trouble).run.Safe anyNetwork t (IfEndsWell (Fetching c₀)) := by
    unfold giveError
    split
    · exact safe_throw trivial
    · next hnone => exact safe_ok (ht hnone)
  have hthen {w : Attempt Unit}
      (hw : w.run.Safe anyNetwork s fun _ t => trouble.error = none → Fetching c₀ t) :
      (w >>= fun _ => giveError trouble).run.Safe anyNetwork s (IfEndsWell (Fetching c₀)) := by
    refine Safe.orFail (hw.mono fun r t ht => ?_)
    cases r with
    | error e => exact trivial
    | ok => exact hgive t ht
  have hother {w : Attempt Unit} (hremedy : trouble.remedy ≠ .close) :
      (w >>= fun _ => giveError trouble).run.Safe anyNetwork s (IfEndsWell (Fetching c₀)) :=
    hthen ((safe_anyNetwork _).mono fun _ _ _ hnone => absurd (h hnone).1 hremedy)
  unfold settle
  split
  · next hreset => exact hother (by rw [hreset]; decide)
  · next hkill => exact hother (by rw [hkill]; decide)
  · by_cases hnone : trouble.error = none
    · have hclose := close_fetching htracks hworks (h hnone).2
      exact hthen (safe_taskAmid (hclose.mono fun _ _ ht _ => ht))
    · exact hthen ((safe_anyNetwork _).mono fun _ _ _ h => absurd h hnone)

theorem fetchMessage_fetches (htracks : Tracks c₀ [] told s) (hworks : Works s.connection) :
    fetchMessage.run.Safe anyNetwork s (IfEndsWell (Fetching c₀)) := by
  unfold fetchMessage
  have hfetch := @fetchOne_takes s c₀ told [] 0 hworks htracks
  refine Safe.orFail (hfetch.mono fun r t ht => ?_)
  match r with
  | .error e => exact trivial
  | .ok (counts, trouble) =>
    obtain ⟨_, hnone, rfl⟩ | ⟨a, d, hsome, htakes, hreceived⟩ := ht
    · cases hnone
      exact safe_ok ⟨told, .inl ⟨htracks, hworks⟩⟩
    obtain ⟨x, rest, hpending⟩ := List.exists_cons_of_ne_nil hsome
    have htold := htakes.tracks htracks hpending
    have hready := htakes.works
    have hnext : d.pending = x :: rest := htakes.books.pending.trans hpending
    rw [hreceived] at htold hready
    cases trouble with
    | none => exact safe_ok ⟨_, .inl ⟨htold, hready⟩⟩
    | some trouble =>
      -- only trouble without an error lets the loop go on
      have hleft (hnone : trouble.error = none) : trouble.remedy = .close ∧ Strayed c₀ (told ++ [a]) := by
        obtain ⟨hreset, hclose, ha⟩ := stray_receive hnext (by rw [hreceived]) hnone
        obtain ⟨y, hy, hpurpose⟩ := htracks.correlated.exists_front hpending
        rw [List.append_nil] at hy
        exact ⟨hclose, told, a, y, rfl, ha, hy, hpurpose.trans hreset⟩
      refine Safe.orFail ((settle_fetching htold hready hleft).mono fun r u hu => ?_)
      cases r with
      | error e => exact trivial
      | ok => exact safe_ok hu

theorem fetchAll_fetches (hworks : Works c) : fetchAll.run.Safe anyNetwork ⟨c, []⟩
    (IfEndsWell fun t => ∃ told, Fetched c told t ∧
      (t.connection.pending = [] ∨ t.connection.closed = true ∧ Strayed c told)) := by
  unfold fetchAll
  refine safe_iterateOrFail (fun _ t => Fetching c t) ⟨[], .inl ⟨.start c, hworks⟩⟩ fun _ t ht => ?_
  refine Safe.orFail (safe_editAmid fun _ => ?_)
  dsimp only
  obtain ⟨told, ⟨htracks, hready⟩ | ⟨hheard, hbooks, hclosed, hstrayed⟩⟩ := ht
  · split
    · next hquiet =>
      have hnone : t.connection.pending = [] := by simpa [isQuiet, hready.closed] using hquiet
      exact safe_ok ⟨told, htracks.correlated.fetched htracks.hears.heard, .inl hnone⟩
    · refine Safe.orFail ((fetchMessage_fetches htracks hready).mono fun r u hu => ?_)
      cases r with
      | error e => exact trivial
      | ok counts => exact safe_ok hu
  · split
    · exact safe_ok ⟨told, hbooks.fetched hheard, .inr ⟨hclosed, hstrayed⟩⟩
    · next hbusy => exact absurd (by simp [isQuiet, hclosed]) hbusy

/-- On a connection that is closed, or on which nothing is pending, nothing happens; another that does not
work is refused. -/
theorem fetchAll_of_not_works (h : ¬Works c) : fetchAll.run.Safe anyNetwork ⟨c, []⟩
    (IfEndsWell fun t => c.isQuiet = true ∧ t = ⟨c, []⟩) := by
  unfold fetchAll
  refine safe_iterateOrFail (fun _ t => t = ⟨c, []⟩) rfl fun _ t ht => ?_
  subst ht
  refine Safe.orFail (safe_editAmid fun _ => ?_)
  dsimp only
  split
  · next hquiet => exact safe_ok ⟨hquiet, rfl⟩
  · refine Safe.orFail ((fetchMessage_refuses h).mono fun r u hu => ?_)
    obtain ⟨what, rfl⟩ := hu
    exact trivial

/-- If taking in answers ends well, each exchange that has left the queue is complete, with its own summary.
Either that is every exchange that was pending, or the connection was closed before and is as it was, or it has
closed itself over an answer to a RESET that no RESET should get. -/
theorem fetchAll_completes (c : Connection) (t : Session) (counts : Counts)
    (hends : Leads anyNetwork (fetchAll.run, ⟨c, []⟩) (.done (.ok counts), t)) :
    ∃ told, Fetched c told t ∧
      ((t.connection.pending = [] ∧ ∀ i < c.pending.length, Concluded c t.connection told i) ∨
        (c.closed = true ∧ t = ⟨c, []⟩) ∨
        (c.closed = false ∧ t.connection.closed = true ∧ Strayed c told)) := by
  have hall {told : List Response} (hfetched : Fetched c told t) (hnone : t.connection.pending = []) :
      t.connection.pending = [] ∧ ∀ i < c.pending.length, Concluded c t.connection told i :=
    ⟨hnone, fun i hi => hfetched.each i (by rw [hnone]; exact hi)⟩
  by_cases hworks : Works c
  · obtain ⟨told, hfetched, hnone | ⟨hclosed, hstrayed⟩⟩ := (fetchAll_fetches hworks).leads hends
    · exact ⟨told, hfetched, .inl (hall hfetched hnone)⟩
    · exact ⟨told, hfetched, .inr (.inr ⟨hworks.closed, hclosed, hstrayed⟩)⟩
  · obtain ⟨hquiet, rfl⟩ := (fetchAll_of_not_works hworks).leads hends
    have hfetched : Fetched c [] ⟨c, []⟩ := (Correlated.refl c).fetched List.nil_prefix
    refine ⟨[], hfetched, ?_⟩
    rcases Bool.or_eq_true _ _ ▸ hquiet with hclosed | hnone
    · exact .inr (.inl ⟨hclosed, rfl⟩)
    · exact .inl (hall hfetched (List.isEmpty_iff.mp hnone))

theorem run_completed : ∃ t told, Fetched (asking Wire.successBytes) told t ∧ t.connection.pending = [] ∧
    Concluded (asking Wire.successBytes) t.connection told 0 := by
  let fed : Connection := { asking Wire.successBytes with inbox := (default : Chunk.Reader).feed Wire.successBytes }
  let answered : Connection := (fed.receive (.success [])).2.2
  have hrun := Wire.nextResponse_feed_of_some Wire.nextResponse_success Wire.successBytes
  have htakes : TakesIn ⟨asking Wire.successBytes, []⟩ ⟨answered, []⟩ :=
    ⟨rfl, _, leads_fetchOne .start ⟨rfl, rfl, rfl⟩ rfl (leads_nextAnswer hrun) rfl⟩
  obtain ⟨counts, hends⟩ := leads_fetchAll (.single htakes) rfl
  obtain ⟨told, hfetched, ⟨hnone, hall⟩ | ⟨hclosed, _⟩ | ⟨_, hclosed, _⟩⟩ := fetchAll_completes _ _ _ hends
  · exact ⟨_, told, hfetched, hnone, hall 0 (by decide)⟩
  · cases hclosed
  · cases hclosed

/-- Not everything is complete whenever taking in answers ends well: on a connection that was killed nothing is
taken in, and a commit goes on waiting. -/
theorem not_all_completed : ¬∀ (c : Connection) (t : Session) (counts : Counts),
    Leads anyNetwork (fetchAll.run, ⟨c, []⟩) (.done (.ok counts), t) →
    t.connection.pending = [] ∧ ∀ i < c.pending.length, ∃ x,
      t.connection.exchange? (c.answered.size + i) = some x ∧ x.complete = true := by
  intro h
  have hends : Leads anyNetwork (fetchAll.run, ⟨committing.kill, []⟩)
      (.done (.ok ⟨0, 0⟩), ⟨committing.kill, []⟩) := by
    refine .head .round ?_
    refine .head (.answer (b := true) ⟨.start, rfl, rfl⟩) ?_
    exact .refl
  cases (h committing.kill _ _ hends).1

end Connection
end BoltClient
