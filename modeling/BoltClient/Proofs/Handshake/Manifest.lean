import BoltClient.Handshake.Offer
import BoltClient.Proofs.Handshake.Varint

/-!
What a server can say before the first message: a reply of four bytes, and behind a reply that announces it a
manifest. Where such a beginning ends can be told from the beginning itself. Of the versions that a manifest
offers the newest is chosen, in whatever order they are offered.
-/

namespace BoltClient.Handshake

namespace Reply

def Announces (r : Reply) : Prop := r.third = 1 ∧ r.fourth = 0xFF

def Names (r : Reply) (v : Version) : Prop := r.third = v.minor ∧ r.fourth = v.major

variable {r : Reply} {v : Version}

theorem bytes_ofBytes {b : List UInt8} (h : b.length = 4) : (ofBytes b).bytes = b := by
  match b with
  | [_, _, _, _] => rfl

/-- Bytes that are too few are the beginning of a reply. -/
theorem exists_prefix {b : List UInt8} (h : b.length ≤ 4) : ∃ r : Reply, b <+: r.bytes := by
  have hlength : (b ++ List.replicate (4 - b.length) 0).length = 4 := by
    rw [List.length_append, List.length_replicate]
    omega
  refine ⟨ofBytes (b ++ List.replicate (4 - b.length) 0), ?_⟩
  rw [bytes_ofBytes hlength]
  exact List.prefix_append _ _

theorem names_of_ofNumbers {major minor : UInt8} (h : Version.ofNumbers? major minor = some v) :
    v.major = major ∧ v.minor = minor := by
  unfold Version.ofNumbers? at h
  simpa using List.find?_some h

theorem answer_eq_manifest_iff : r.answer = .ok .manifest ↔ r.Announces := by
  obtain ⟨first, second, third, fourth⟩ := r
  unfold answer Announces bytes
  constructor
  · intro h
    split at h
    · cases h
    · split at h
      · next hfourth =>
        split at h
        · next hthird => exact ⟨hthird, hfourth⟩
        · cases h
      · split at h <;> cases h
  · rintro ⟨rfl, rfl⟩
    simp

theorem answer_eq_version_iff : r.answer = .ok (.version v) ↔ r.Names v := by
  obtain ⟨first, second, third, fourth⟩ := r
  unfold answer Names bytes
  constructor
  · intro h
    split at h
    · cases h
    · split at h
      · split at h <;> cases h
      · split at h
        · next w hw =>
          cases h
          obtain ⟨hmajor, hminor⟩ := names_of_ofNumbers hw
          exact ⟨hminor.symm, hmajor.symm⟩
        · cases h
  · rintro ⟨rfl, rfl⟩
    cases v <;> simp [Version.major, Version.minor, Version.ofNumbers?, Version.all]

theorem length_flatMap_bytes (rs : List Reply) : (rs.flatMap bytes).length = 4 * rs.length := by
  induction rs with
  | nil => rfl
  | cons r rs ih =>
    simp only [List.flatMap_cons, List.length_append, List.length_cons, ih, bytes, List.length_nil]
    omega

/-- Any bytes can be taken in fours. -/
theorem exists_flatMap_bytes {b : List UInt8} {n : Nat} (h : b.length = 4 * n) :
    ∃ rs : List Reply, rs.length = n ∧ rs.flatMap bytes = b := by
  induction n generalizing b with
  | zero => exact ⟨[], rfl, (List.length_eq_zero_iff.mp h).symm⟩
  | succ n ih =>
    have hfour : (b.take 4).length = 4 := by
      rw [List.length_take]
      omega
    have hrest : (b.drop 4).length = 4 * n := by
      rw [List.length_drop]
      omega
    obtain ⟨rs, hlength, hbytes⟩ := ih hrest
    refine ⟨ofBytes (b.take 4) :: rs, by rw [List.length_cons, hlength], ?_⟩
    rw [List.flatMap_cons, bytes_ofBytes hfour, hbytes, List.take_append_drop]

theorem exists_flatMap_prefix {b : List UInt8} {n : Nat} (h : 4 * n ≤ b.length) :
    ∃ (rs : List Reply) (rest : List UInt8), rs.length = n ∧ b = rs.flatMap bytes ++ rest := by
  have htake : (b.take (4 * n)).length = 4 * n := by
    rw [List.length_take]
    omega
  obtain ⟨rs, hsize, hrs⟩ := exists_flatMap_bytes htake
  exact ⟨rs, b.drop (4 * n), hsize, by rw [hrs, List.take_append_drop]⟩

theorem append_prefix_iff {s : Reply} {b c : List UInt8} :
    r.bytes ++ b <+: s.bytes ++ c ↔ r = s ∧ b <+: c := by
  obtain ⟨_, _, _, _⟩ := r
  obtain ⟨_, _, _, _⟩ := s
  simp [bytes, and_assoc]

end Reply

/-- What follows a reply that announces it: how many offerings there are, the offerings, and what else the
server can do. -/
structure Manifest where
  count : List UInt8
  offerings : List Reply
  capabilities : List UInt8

namespace Manifest

def bytes (m : Manifest) : List UInt8 := m.count ++ (m.offerings.flatMap Reply.bytes ++ m.capabilities)

/-- Both numbers are spelled out, and there are as many offerings as the first says, and not too many. -/
structure Formed (m : Manifest) : Prop where
  count : Varint.Spelled m.count
  size : m.offerings.length = Varint.value m.count % 2 ^ 64
  few : m.offerings.length ≤ 256
  capabilities : Varint.Spelled m.capabilities

structure Accepted (m : Manifest) : Prop extends Formed m where
  count_length : m.count.length ≤ 10
  capabilities_length : m.capabilities.length ≤ 10

/-- A number that is not too large can be how a manifest begins, and behind it any bytes that are not too many. -/
theorem exists_formed {count b : List UInt8} (hcount : Varint.Spelled count)
    (hfew : Varint.value count % 2 ^ 64 ≤ 256) (hb : b.length ≤ 4 * (Varint.value count % 2 ^ 64)) :
    ∃ m : Manifest, m.Formed ∧ count ++ b <+: m.bytes := by
  obtain ⟨pad, hpad⟩ := Nat.exists_eq_add_of_le hb
  have hlength : (b ++ List.replicate pad 0).length = 4 * (Varint.value count % 2 ^ 64) := by
    rw [List.length_append, List.length_replicate, hpad]
  obtain ⟨rs, hsize, hbytes⟩ := Reply.exists_flatMap_bytes hlength
  refine ⟨⟨count, rs, [0]⟩, ⟨hcount, hsize, hsize ▸ hfew, .last (by decide)⟩, ?_⟩
  unfold bytes
  rw [hbytes, List.append_assoc, ← List.append_assoc]
  exact List.prefix_append _ _

/-- A number at the beginning of a manifest is its first. -/
theorem Formed.count_eq {m : Manifest} {count b : List UInt8} (hm : m.Formed) (hcount : Varint.Spelled count)
    (h : count ++ b <+: m.bytes) : count = m.count := by
  have hleft : count <+: m.bytes := (List.prefix_append count b).trans h
  rcases List.prefix_or_prefix_of_prefix hleft (List.prefix_append m.count _) with hle | hle
  · exact hcount.eq_of_prefix hm.count hle
  · exact (hm.count.eq_of_prefix hcount hle).symm

/-- No manifest is the beginning of another. -/
theorem Formed.bytes_eq_of_prefix {m m' : Manifest} (hm : m.Formed) (hm' : m'.Formed)
    (h : m.bytes <+: m'.bytes) : m.bytes = m'.bytes := by
  have hcount : m.count = m'.count := hm'.count_eq hm.count h
  obtain ⟨count, offerings, capabilities⟩ := m
  obtain ⟨count', offerings', capabilities'⟩ := m'
  unfold bytes at h ⊢
  dsimp only at hcount h ⊢
  subst hcount
  -- With the same number in front the offerings take the same room, and then the last numbers are compared.
  have hrest := (List.prefix_append_right_inj count).mp h
  have hsize : offerings.length = offerings'.length := hm.size.trans hm'.size.symm
  have hlength : (offerings.flatMap Reply.bytes).length = (offerings'.flatMap Reply.bytes).length := by
    rw [Reply.length_flatMap_bytes, Reply.length_flatMap_bytes, hsize]
  have hofferings : offerings.flatMap Reply.bytes = offerings'.flatMap Reply.bytes := by
    have hleft := (List.prefix_append (offerings.flatMap Reply.bytes) capabilities).trans hrest
    have hprefix := List.prefix_of_prefix_length_le hleft (List.prefix_append _ capabilities')
      (Nat.le_of_eq hlength)
    exact hprefix.eq_of_length hlength
  rw [hofferings] at hrest ⊢
  have hcapabilities : capabilities = capabilities' :=
    hm.capabilities.eq_of_prefix hm'.capabilities ((List.prefix_append_right_inj _).mp hrest)
  rw [hcapabilities]

end Manifest

/-- All that is said after a reply that announces a manifest. It is over with a number that is too large. -/
inductive IsManifest : List UInt8 → Prop where
  | whole (m : Manifest) (hm : m.Formed) : IsManifest m.bytes
  | tooMany (count : List UInt8) (hcount : Varint.Spelled count)
      (hmany : 256 < Varint.value count % 2 ^ 64) : IsManifest count

/-- Any number can be how a manifest begins. -/
theorem IsManifest.exists_prefix {count : List UInt8} (hcount : Varint.Spelled count) :
    ∃ h, IsManifest h ∧ count <+: h := by
  by_cases hfew : Varint.value count % 2 ^ 64 ≤ 256
  · obtain ⟨m, hm, hprefix⟩ := Manifest.exists_formed (b := []) hcount hfew (Nat.zero_le _)
    exact ⟨m.bytes, .whole m hm, (List.prefix_append count []).trans hprefix⟩
  · exact ⟨count, .tooMany count hcount (by omega), List.prefix_refl _⟩

theorem IsManifest.eq_of_prefix {b c : List UInt8} (hb : IsManifest b) (hc : IsManifest c) (h : b <+: c) :
    b = c := by
  cases hb with
  | whole m hm =>
    cases hc with
    | whole m' hm' => exact hm.bytes_eq_of_prefix hm' h
    | tooMany _ hcount hmany =>
      obtain rfl := hm.count.eq_of_prefix hcount ((List.prefix_append m.count _).trans h)
      have hfew := hm.few
      rw [hm.size] at hfew
      omega
  | tooMany _ hcount hmany =>
    cases hc with
    | whole m' hm' =>
      rw [← List.append_nil b] at h
      obtain rfl := hm'.count_eq hcount h
      have hfew := hm'.few
      rw [hm'.size] at hfew
      omega
    | tooMany _ hcount' _ => exact hcount.eq_of_prefix hcount' h

/-- All that a server says before the first message. -/
inductive IsHandshake : List UInt8 → Prop where
  | plain (r : Reply) (h : ¬r.Announces) : IsHandshake r.bytes
  | manifest (r : Reply) (h : r.Announces) {b : List UInt8} (hb : IsManifest b) : IsHandshake (r.bytes ++ b)

/-- Any reply can be how a server begins. -/
theorem IsHandshake.exists_prefix (r : Reply) : ∃ h, IsHandshake h ∧ r.bytes <+: h := by
  by_cases hr : r.Announces
  · obtain ⟨h, hmanifest, _⟩ := IsManifest.exists_prefix (.last (show (0 : UInt8) < 0x80 by decide))
    exact ⟨r.bytes ++ h, .manifest r hr hmanifest, List.prefix_append _ _⟩
  · exact ⟨r.bytes, .plain r hr, List.prefix_refl _⟩

/-- Where it ends does not depend on what comes after it. -/
theorem IsHandshake.eq_of_prefix {b c : List UInt8} (hb : IsHandshake b) (hc : IsHandshake c) (h : b <+: c) :
    b = c := by
  cases hb with
  | plain r hr =>
    rw [← List.append_nil r.bytes] at h
    cases hc with
    | plain s hs =>
      rw [← List.append_nil s.bytes] at h
      obtain ⟨rfl, _⟩ := Reply.append_prefix_iff.mp h
      rfl
    | manifest s hs =>
      obtain ⟨rfl, _⟩ := Reply.append_prefix_iff.mp h
      exact absurd hs hr
  | manifest r hr hm =>
    cases hc with
    | plain s hs =>
      rw [← List.append_nil s.bytes] at h
      obtain ⟨rfl, _⟩ := Reply.append_prefix_iff.mp h
      exact absurd hr hs
    | manifest s hs hm' =>
      obtain ⟨rfl, hmanifest⟩ := Reply.append_prefix_iff.mp h
      rw [hm.eq_of_prefix hm' hmanifest]

/-- A version is among those that an offering stands for. -/
def Offering.Includes (o : Offering) (v : Version) : Prop :=
  v.major = o.major ∧ v.minor ≤ o.minor ∧ o.minor.toNat ≤ v.minor.toNat + o.range.toNat

theorem Offering.covers_iff {o : Offering} {v : Version} : o.covers v = true ↔ o.Includes v := by
  unfold covers Includes
  simp only [Bool.and_eq_true, decide_eq_true_eq, and_assoc, Nat.sub_le_iff_le_add]

structure Newest (offerings : List Offering) (v : Version) : Prop where
  offered : ∃ o ∈ offerings, o.Includes v
  newest : ∀ w : Version, (∃ o ∈ offerings, o.Includes w) → w.isNewer v = false

theorem Version.eq_of_not_newer {v w : Version} (h : v.isNewer w = false) (h' : w.isNewer v = false) : v = w := by
  revert h h'
  cases v <;> cases w <;> decide

theorem Newest.unique {offerings : List Offering} {v w : Version} (h : Newest offerings v)
    (h' : Newest offerings w) : v = w :=
  Version.eq_of_not_newer (h'.newest v h.offered) (h.newest w h'.offered)

theorem newest_of_chooseVersion {offerings : List Offering} {v : Version}
    (h : chooseVersion? offerings = some v) : Newest offerings v := by
  have hoffered (w : Version) : offerings.any (·.covers w) = true ↔ ∃ o ∈ offerings, o.Includes w := by
    simp only [List.any_eq_true, Offering.covers_iff]
  have hsorted : Version.all.Pairwise fun v w => w.isNewer v = false := by decide
  obtain ⟨hv, before, after, hall, hbefore⟩ := List.find?_eq_some_iff_append.mp h
  refine ⟨(hoffered v).mp hv, fun w hw => ?_⟩
  have hmem := w.mem_all
  rw [hall] at hmem hsorted
  rcases List.mem_append.mp hmem with hmem | hmem
  · have hnot := hbefore w hmem
    rw [(hoffered w).mpr hw] at hnot
    cases hnot
  · rcases List.mem_cons.mp hmem with rfl | hmem
    · cases w <;> rfl
    · exact (List.pairwise_cons.mp (List.pairwise_append.mp hsorted).2.1).1 w hmem

theorem chooseVersion_eq_some_iff {offerings : List Offering} {v : Version} :
    chooseVersion? offerings = some v ↔ Newest offerings v := by
  refine ⟨newest_of_chooseVersion, fun h => ?_⟩
  obtain ⟨o, ho, hincludes⟩ := h.offered
  cases hchoice : chooseVersion? offerings with
  | some w => rw [(newest_of_chooseVersion hchoice).unique h]
  | none =>
    have hnone := List.find?_eq_none.mp hchoice v v.mem_all
    exact absurd (List.any_eq_true.mpr ⟨o, ho, Offering.covers_iff.mpr hincludes⟩) hnone

end BoltClient.Handshake
