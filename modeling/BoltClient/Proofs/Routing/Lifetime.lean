import BoltClient.Proofs.Routing.Thinning

/-!
How long a table is good for, and how long it is kept. Both end at a moment that is told by adding lengths of time
to the moment of the last update, and a moment that cannot be told never comes. A table is over before it is thrown
away, and only an update undoes either.
-/

namespace BoltClient

namespace Instant

variable {t : Instant} {d : Duration}

theorem plus?_of_le (h : t.nanos + d.nanos ≤ last.nanos) : t.plus? d = some (t.plus d) := if_pos h

theorem plus?_of_lt (h : last.nanos < t.nanos + d.nanos) : t.plus? d = none := if_neg (Nat.not_le.mpr h)

theorem lt_of_plus?_eq_none (h : t.plus? d = none) : last.nanos < t.nanos + d.nanos := by
  by_contra hle
  rw [plus?_of_le (Nat.not_lt.mp hle)] at h
  cases h

end Instant

namespace Routing

namespace Table

variable {seconds : Int64} {sent now later : Instant} {t t' : Table}

/-- A table whose lists are good for so many seconds from a moment on. They come from a server, or the table took
them over from a newer one; since then servers have at most been taken out of it. -/
inductive Sent (seconds : Int64) : Instant → Table → Prop where
  | listed {database : Option String} {listings : List Listing} {now : Instant} {t : Table}
      (h : ofListings database listings seconds now = .ok t) : Sent seconds now t
  | takenOver {t newer : Table} {sent now : Instant} (h : Sent seconds sent newer) :
      Sent seconds now (t.update newer now)
  | thinned {t t' : Table} {sent : Instant} (h : Sent seconds sent t) (hthins : t.Thins t') : Sent seconds sent t'

theorem Sent.dated (h : Sent seconds sent t) : t.updated = sent ∧ t.ttl = ttlOfSeconds seconds := by
  induction h with
  | @listed database listings now t h =>
    unfold ofListings at h
    cases hlocated : located listings with
    | ok all =>
      rw [hlocated] at h
      cases h
      exact ⟨rfl, rfl⟩
    | error f =>
      rw [hlocated] at h
      cases h
  | takenOver _ ih => exact ⟨rfl, ih.2⟩
  | thinned _ hthins ih => exact ⟨hthins.updated.trans ih.1, hthins.ttl.trans ih.2⟩

/-- The time of a table and some more is over once the whole sum has passed, if that moment can be told; where it
can be told, so can the one without more. -/
theorem isOver_iff (t : Table) (more : Duration) (now : Instant) : t.isOver more now = true ↔
    t.updated.nanos + t.ttl.nanos + more.nanos ≤ now.nanos ∧
      t.updated.nanos + t.ttl.nanos + more.nanos ≤ Instant.last.nanos := by
  unfold isOver validUntil
  by_cases hend : t.updated.nanos + t.ttl.nanos ≤ Instant.last.nanos
  · rw [Instant.plus?_of_le hend, Option.bind_some]
    by_cases hmore : (t.updated.plus t.ttl).nanos + more.nanos ≤ Instant.last.nanos
    · rw [Instant.plus?_of_le hmore]
      exact decide_eq_true_iff.trans ⟨fun hpast => ⟨hpast, hmore⟩, fun h => h.1⟩
    · rw [Instant.plus?_of_lt (Nat.not_le.mp hmore)]
      exact ⟨nofun, fun h => absurd h.2 hmore⟩
  · rw [Instant.plus?_of_lt (Nat.not_le.mp hend), Option.bind_none]
    exact ⟨nofun, fun h => absurd h.2 (by omega)⟩

/-- What is over stays over, whoever is taken out of the table. -/
theorem isOver_later {more : Duration} (hthins : t.Thins t') (hlater : now ≤ later)
    (h : t.isOver more now = true) : t'.isOver more later = true := by
  rw [isOver_iff] at h ⊢
  rw [hthins.updated, hthins.ttl]
  exact ⟨h.1.trans hlater, h.2⟩

/-- A table whose time and some more is over is over. -/
theorem isOver_less {more : Duration} (h : t.isOver more now = true) : t.isOver .zero now = true := by
  rw [isOver_iff] at h ⊢
  have hzero : Duration.zero.nanos = 0 := rfl
  omega

theorem not_isFresh_of_isOver (h : t.isOver .zero now = true) (role : Role) : t.isFresh role now = false := by
  unfold isFresh
  rw [h]
  rfl

/-- Whatever time a server sent with the lists of a table, however many servers have been taken out of it, and
however far ahead its end lies: what is thrown away is fresh for nobody and stays to be thrown away; nothing is
thrown away before its time and half a minute have passed; what is over does not become fresh again; what came
without time is never fresh; and a table whose end cannot be told is fresh as long as it has servers, and is never
thrown away. -/
theorem ends_in_order (seconds : Int64) (sent now later : Instant) (t t' : Table) (h : Sent seconds sent t)
    (hsent : sent ≤ Instant.last) (hnow : sent ≤ now) (hlater : now ≤ later) (hthins : t.Thins t') :
    (t.shouldBePurged now = true → (∀ role, t.isFresh role now = false) ∧ t'.shouldBePurged later = true) ∧
    (now < (sent.plus (.ofSeconds seconds.toInt.toNat)).plus (.ofSeconds 30) → t.shouldBePurged now = false) ∧
    (t.isOver .zero now = true → ∀ role, t'.isFresh role later = false) ∧
    (seconds ≤ 0 → ∀ role, t.isFresh role now = false) ∧
    (sent.plus? (.ofSeconds seconds.toInt.toNat) = none → t.shouldBePurged now = false ∧
      ∀ role, t.isFresh role now = (!t.routers.isEmpty && !(t.addresses role).isEmpty)) := by
  obtain ⟨hupdated, httl⟩ := h.dated
  refine ⟨fun hpurged => ⟨?_, ?_⟩, fun hearly => ?_, fun hover => ?_, fun hnone => ?_, fun hfar => ?_⟩
  · exact not_isFresh_of_isOver (isOver_less hpurged)
  · exact isOver_later hthins hlater hpurged
  · apply Bool.eq_false_iff.mpr
    intro hpurged
    have hpast := ((isOver_iff t grace now).mp hpurged).1
    rw [hupdated, httl] at hpast
    exact absurd hpast (Nat.not_le.mpr hearly)
  · exact not_isFresh_of_isOver (isOver_later hthins hlater hover)
  · have hzero : (ttlOfSeconds seconds).nanos = 0 := by
      have hle : seconds.toInt ≤ 0 := Int64.le_iff_toInt_le.mp hnone
      have hnat : seconds.toInt.toNat = 0 := by omega
      unfold ttlOfSeconds Duration.ofSeconds
      rw [hnat, Nat.zero_mul]
    apply not_isFresh_of_isOver
    rw [isOver_iff, hupdated, httl, hzero]
    exact ⟨hnow, hsent⟩
  · have hlast := Instant.lt_of_plus?_eq_none hfar
    have hnever (more : Duration) : t.isOver more now = false := by
      apply Bool.eq_false_iff.mpr
      intro hover
      have htold := ((isOver_iff t more now).mp hover).2
      rw [hupdated, httl] at htold
      unfold ttlOfSeconds at htold
      omega
    refine ⟨hnever grace, fun role => ?_⟩
    unfold isFresh
    rw [hnever]
    rfl

def listedBriefly (sent : Instant) : Table :=
  ofServers (some "movies") [⟨"r1", 7687⟩] [⟨"r2", 7687⟩] [⟨"r1", 7687⟩] (.ofSeconds 10) sent

theorem sent_listedBriefly (sent : Instant) : Sent 10 sent (listedBriefly sent) := by
  have hlisted : ofListings (some "movies") [⟨.route, ["r1"]⟩, ⟨.read, ["r2:7687"]⟩, ⟨.write, ["r1"]⟩] 10 sent
      = .ok (listedBriefly sent) := rfl
  exact .listed hlisted

/-- A moment so late that ten seconds can be added and half a minute more cannot. -/
def lateMoment : Instant := ⟨Instant.last.nanos - (Duration.ofSeconds 20).nanos⟩

theorem ends_in_order_briefly :
    ((listedBriefly .start).shouldBePurged ⟨(Duration.ofSeconds 40).nanos⟩ = true ∧
      (listedBriefly .start).isFresh .read ⟨(Duration.ofSeconds 40).nanos⟩ = false) ∧
    (listedBriefly lateMoment).isOver .zero Instant.last = true ∧
      ((listedBriefly lateMoment).discard ⟨"r1", 7687⟩).isFresh .read Instant.last = false := by
  have hpurged : (listedBriefly .start).shouldBePurged ⟨(Duration.ofSeconds 40).nanos⟩ = true := by decide
  have hover : (listedBriefly lateMoment).isOver .zero Instant.last = true := by decide
  have hearly := ends_in_order 10 .start ⟨(Duration.ofSeconds 40).nanos⟩ ⟨(Duration.ofSeconds 40).nanos⟩ _ _
    (sent_listedBriefly .start) (by decide) (by decide) (by decide) (.refl _)
  have hlate := ends_in_order 10 lateMoment Instant.last Instant.last _ _
    (sent_listedBriefly lateMoment) (by decide) (by decide) (by decide) (thins_discard _ ⟨"r1", 7687⟩)
  exact ⟨⟨hpurged, (hearly.1 hpurged).1 .read⟩, hover, hlate.2.2.1 hover .read⟩

/-- At the end of time the late table is over, but will not be thrown away. -/
example : (listedBriefly lateMoment).shouldBePurged Instant.last = false := by decide

end Table
end Routing
end BoltClient
