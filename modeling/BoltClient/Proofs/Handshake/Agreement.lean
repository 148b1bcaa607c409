import BoltClient.Proofs.Handshake.Manifest
import BoltClient.Proofs.Handshake.Reading

namespace BoltClient.Opening

open Work Handshake
open Varint (Spelled)

def answerTo (v : Version) : List UInt8 := [0, 0, v.minor, v.major, 0]

/-- What a server says and what it is told when a version is agreed on. -/
inductive Agrees (v : Version) : List UInt8 → List (List UInt8) → Prop where
  | named (r : Reply) (h : r.Names v) : Agrees v r.bytes [request]
  | offered (r : Reply) (h : r.Announces) (m : Manifest) (hm : m.Accepted)
      (hv : Newest (m.offerings.map .ofReply) v) : Agrees v (r.bytes ++ m.bytes) [request, answerTo v]

namespace Setting

variable {p t : Peer} {s : Setting} {b rest : List UInt8}

def offering (s : Setting) : Attempt Offering := do
  let b ← s.receive 4
  return .ofReply (.ofBytes b)

theorem offerings_read (l : List Nat) {rs : List Reply} (hlength : rs.length = l.length)
    (hbytes : p.rest = rs.flatMap Reply.bytes ++ rest) :
    s.Gives p (l.mapM fun _ => s.offering) (.ok (rs.map .ofReply)) { p with rest := rest } := by
  induction l generalizing rs p with
  | nil =>
    obtain rfl := List.length_eq_zero_iff.mp hlength
    rw [List.flatMap_nil, List.nil_append] at hbytes
    rw [List.mapM_nil, ← hbytes]
    exact gives_pure
  | cons n l ih =>
    cases rs with
    | nil => cases hlength
    | cons r rs =>
      rw [List.flatMap_cons, List.append_assoc] at hbytes
      have hone : s.Gives p s.offering (.ok (.ofReply r)) { p with rest := rs.flatMap Reply.bytes ++ rest } :=
        (receive_all hbytes rfl).andThen gives_pure
      rw [List.mapM_cons]
      exact hone.andThen ((ih (Nat.succ.inj hlength) rfl).andThen gives_pure)

theorem offerings_short (l : List Nat) (hlength : p.rest.length < 4 * l.length) :
    ∃ e, s.Gives p (l.mapM fun _ => s.offering) (.error e) { p with rest := [] } := by
  induction l generalizing p with
  | nil => cases hlength
  | cons n l ih =>
    rw [List.mapM_cons]
    rw [List.length_cons] at hlength
    by_cases hfour : p.rest.length < 4
    · have hone : s.Gives p s.offering (.error (s.endError 4 p.rest p.ending)) { p with rest := [] } :=
        (receive_short hfour).orFail
      exact ⟨_, hone.orFail⟩
    · have htake : (p.rest.take 4).length = 4 := by
        rw [List.length_take]
        omega
      have hone : s.Gives p s.offering _ { p with rest := p.rest.drop 4 } :=
        (receive_all (List.take_append_drop 4 p.rest).symm htake).andThen gives_pure
      have hdrop : (p.rest.drop 4).length < 4 * l.length := by
        rw [List.length_drop]
        omega
      obtain ⟨e, hrest⟩ := ih (p := { p with rest := p.rest.drop 4 }) hdrop
      exact ⟨e, hone.andThen hrest.orFail⟩

def choose (s : Setting) (offerings : List Offering) : Attempt Version :=
  match chooseVersion? offerings with
  | some v => do
    s.send (v.bytes ++ Varint.encode 0)
    return v
  | none => do
    s.send [0, 0, 0, 0, 0]
    throw s.noVersion

theorem choose_gives (s : Setting) (p : Peer) (offerings : List Offering) : ∃ r t,
    s.Gives p (s.choose offerings) r t ∧ t.rest = p.rest ∧
    (∀ v, r = .ok v → Newest offerings v ∧ t.written = p.written ++ [answerTo v]) ∧
    ∀ v, Newest offerings v → p.outcome p.written.length = .done → r = .ok v := by
  have hfew (v : Version) : v.bytes ++ Varint.encode 0 = answerTo v := by
    rw [Varint.encode]
    rfl
  unfold choose
  cases hchoice : chooseVersion? offerings with
  | none =>
    have hnone (v : Version) (hv : Newest offerings v) : False := by
      rw [chooseVersion_eq_some_iff.mpr hv] at hchoice
      cases hchoice
    by_cases hdone : p.outcome p.written.length = .done
    · exact ⟨_, _, (send_done hdone _).andThen gives_throw, rfl, nofun, fun v hv => (hnone v hv).elim⟩
    · exact ⟨_, _, (send_fails hdone _).orFail, rfl, nofun, fun v hv => (hnone v hv).elim⟩
  | some v =>
    have hnewest := chooseVersion_eq_some_iff.mp hchoice
    dsimp only
    rw [hfew]
    by_cases hdone : p.outcome p.written.length = .done
    · refine ⟨_, _, (send_done hdone _).andThen gives_pure, rfl, ?_, ?_⟩
      · rintro w ⟨⟩
        exact ⟨hnewest, rfl⟩
      · intro w hw _
        rw [hw.unique hnewest]
    · exact ⟨_, _, (send_fails hdone _).orFail, rfl, nofun, fun w hw h => absurd h hdone⟩

def tooMany (s : Setting) (count : Nat) : Error :=
  .protocol ("Bolt handshake manifest from " ++ s.address.text ++ " lists " ++ toString count ++ " offerings")

def agreeOnOfferings (s : Setting) (count : Nat) : Attempt Version := do
  if maxOfferings < count then throw (s.tooMany count)
  let offerings ← (List.range count).mapM fun _ => s.offering
  let _ ← s.receiveNumber
  s.choose offerings

theorem agreeOnManifest_eq (s : Setting) :
    s.agreeOnManifest = s.receiveNumber >>= fun count => s.agreeOnOfferings count.toNat := rfl

theorem toNat_ofNat_value (b : List UInt8) : (UInt64.ofNat (Varint.value b)).toNat = Varint.value b % 2 ^ 64 := by
  simp

theorem offerings_refused {n : Nat} (hmany : maxOfferings < n) :
    s.Gives p (s.agreeOnOfferings n) (.error (s.tooMany n)) p := by
  unfold agreeOnOfferings
  rw [if_pos hmany]
  exact gives_throw.orFail

theorem offerings_cut {n : Nat} (hfew : n ≤ maxOfferings) (hcut : p.rest.length < 4 * n) :
    ∃ e, s.Gives p (s.agreeOnOfferings n) (.error e) { p with rest := [] } := by
  obtain ⟨e, hofferings⟩ := offerings_short (s := s) (p := p) (List.range n) (by rwa [List.length_range])
  unfold agreeOnOfferings
  rw [if_neg (Nat.not_lt.mpr hfew)]
  exact ⟨e, hofferings.orFail⟩

/-- The offerings are read to their end, and there is more to come. -/
theorem offerings_done {rs : List Reply} {r : Except Error Version} (hfew : rs.length ≤ maxOfferings)
    (hbytes : p.rest = rs.flatMap Reply.bytes ++ rest)
    (hmore : s.Gives { p with rest := rest }
      (s.receiveNumber >>= fun _ => s.choose (rs.map .ofReply)) r t) :
    s.Gives p (s.agreeOnOfferings rs.length) r t := by
  unfold agreeOnOfferings
  rw [if_neg (Nat.not_lt.mpr hfew)]
  have hofferings : s.Gives p _ _ _ := offerings_read (List.range rs.length) (by simp) hbytes
  exact hofferings.andThen hmore

/-- Of the offerings and what comes after them, no more is read than belongs to a manifest. -/
theorem offerings_give (s : Setting) (p : Peer) {count : List UInt8} (hcount : Spelled count)
    (hshort : count.length ≤ 10) :
    ∃ r b t, s.Gives p (s.agreeOnOfferings (Varint.value count % 2 ^ 64)) r t ∧ p.rest = b ++ t.rest ∧
      (∃ h, IsManifest h ∧ count ++ b <+: h) ∧
      ∀ v, r = .ok v → ∃ m : Manifest, m.Accepted ∧ count ++ b = m.bytes ∧
        Newest (m.offerings.map .ofReply) v ∧ t.written = p.written ++ [answerTo v] := by
  by_cases hmany : maxOfferings < Varint.value count % 2 ^ 64
  · exact ⟨_, [], p, offerings_refused hmany, rfl, ⟨count, .tooMany count hcount hmany, by simp⟩, nofun⟩
  have hfew := Nat.not_lt.mp hmany
  by_cases hcut : p.rest.length < 4 * (Varint.value count % 2 ^ 64)
  · obtain ⟨e, hgives⟩ := offerings_cut (s := s) hfew hcut
    obtain ⟨m, hm, hprefix⟩ := Manifest.exists_formed hcount hfew (Nat.le_of_lt hcut)
    exact ⟨_, p.rest, { p with rest := [] }, hgives, by simp, ⟨_, .whole m hm, hprefix⟩, nofun⟩
  obtain ⟨rs, after, hsize, hsplit⟩ := Reply.exists_flatMap_prefix (Nat.not_lt.mp hcut)
  rw [← hsize] at hfew ⊢
  rcases number_gives s { p with rest := after } with ⟨capabilities, rest, hafter, hspelled, hlength, hnumber⟩ |
    ⟨e, b, rest, more, hafter, hspelled, hnumber⟩
  · obtain rfl : after = capabilities ++ rest := hafter
    have hm : Manifest.Accepted ⟨count, rs, capabilities⟩ :=
      ⟨⟨hcount, hsize, hfew, hspelled⟩, hshort, hlength⟩
    obtain ⟨r, t, hchoice, hrest, hok, _⟩ := choose_gives s { p with rest := rest } (rs.map .ofReply)
    refine ⟨r, rs.flatMap Reply.bytes ++ capabilities, t, offerings_done hfew hsplit (hnumber.andThen hchoice), ?_,
      ⟨_, .whole _ hm.toFormed, List.prefix_refl _⟩, fun v hv => ⟨_, hm, rfl, hok v hv⟩⟩
    rw [hsplit, hrest, List.append_assoc]
  · -- What was read of the second number could still be spelled to its end, so it belongs to a manifest.
    obtain rfl : after = b ++ rest := hafter
    have hm : Manifest.Formed ⟨count, rs, b ++ more⟩ := ⟨hcount, hsize, hfew, hspelled⟩
    refine ⟨.error e, rs.flatMap Reply.bytes ++ b, { p with rest := rest },
      offerings_done hfew hsplit hnumber.orFail, ?_, ⟨_, .whole _ hm, more, ?_⟩, nofun⟩
    · rw [hsplit, List.append_assoc]
    · simp [Manifest.bytes]

/-- Of what follows a reply that announces a manifest, no more is read than a manifest. -/
theorem manifest_gives (s : Setting) (p : Peer) : ∃ r b t, s.Gives p s.agreeOnManifest r t ∧
    p.rest = b ++ t.rest ∧ (∃ h, IsManifest h ∧ b <+: h) ∧
    ∀ v, r = .ok v → ∃ m : Manifest, m.Accepted ∧ b = m.bytes ∧
      Newest (m.offerings.map .ofReply) v ∧ t.written = p.written ++ [answerTo v] := by
  rw [agreeOnManifest_eq]
  rcases number_gives s p with ⟨count, rest, hbytes, hcount, hshort, hnumber⟩ |
    ⟨e, b, rest, more, hbytes, hspelled, hnumber⟩
  · obtain ⟨r, b, t, hgives, hrest, hprefix, hok⟩ := offerings_give s { p with rest := rest } hcount hshort
    rw [← toNat_ofNat_value] at hgives
    refine ⟨r, count ++ b, t, hnumber.andThen hgives, ?_, hprefix, hok⟩
    rw [hbytes, List.append_assoc, ← hrest]
  · obtain ⟨h, hmanifest, hprefix⟩ := IsManifest.exists_prefix hspelled
    exact ⟨.error e, b, { p with rest := rest }, hnumber.orFail, hbytes,
      ⟨h, hmanifest, (List.prefix_append b more).trans hprefix⟩, nofun⟩

/-- A manifest that offers a version leads to the newest. -/
theorem manifest_accepts {m : Manifest} {v : Version} (hm : m.Accepted)
    (hv : Newest (m.offerings.map .ofReply) v) (hbytes : p.rest = m.bytes ++ rest)
    (hdone : p.outcome p.written.length = .done) : ∃ t, s.Gives p s.agreeOnManifest (.ok v) t := by
  rw [Manifest.bytes, List.append_assoc, List.append_assoc] at hbytes
  have hcount : s.Gives p s.receiveNumber _ _ := number_read hm.count hm.count_length hbytes
  have hcapabilities : s.Gives { p with rest := m.capabilities ++ rest } s.receiveNumber _ _ :=
    number_read hm.capabilities hm.capabilities_length rfl
  obtain ⟨r, t, hchoice, _, _, hnewest⟩ := choose_gives s { p with rest := rest } (m.offerings.map .ofReply)
  obtain rfl := hnewest v hv hdone
  rw [agreeOnManifest_eq]
  refine ⟨t, hcount.andThen ?_⟩
  rw [toNat_ofNat_value, ← hm.size]
  exact offerings_done hm.few rfl (hcapabilities.andThen hchoice)

def replied (s : Setting) (r : Reply) : Attempt Version :=
  match r.answer with
  | .ok (.version v) => return v
  | .ok .manifest => s.agreeOnManifest
  | .error .looksLikeHttp =>
    throw (.unavailable ("Cannot connect to Bolt service on " ++ s.address.text
      ++ " (looks like HTTP)"))
  | .error (.unsupportedManifest _) => throw (.protocol "Unsupported Bolt handshake manifest version")
  | .error _ => throw s.noVersion

theorem agree_eq (s : Setting) :
    s.agree = s.send request >>= fun _ => s.receive 4 >>= fun b => s.replied (.ofBytes b) := rfl

/-- After a reply, either no more is read, or a manifest. -/
theorem replied_gives (s : Setting) (r : Reply) (p : Peer) (hsent : p.written = [request]) :
    ∃ result b t, s.Gives p (s.replied r) result t ∧ p.rest = b ++ t.rest ∧
      (∃ h, IsHandshake h ∧ r.bytes ++ b <+: h) ∧
      ∀ v, result = .ok v → Agrees v (r.bytes ++ b) t.written := by
  obtain ⟨h, hhandshake, hprefix⟩ := IsHandshake.exists_prefix r
  rw [← List.append_nil r.bytes] at hprefix
  unfold replied
  cases hanswer : r.answer with
  | ok answer =>
    cases answer with
    | version v =>
      refine ⟨_, [], p, gives_pure, rfl, ⟨h, hhandshake, hprefix⟩, ?_⟩
      rintro w ⟨⟩
      rw [List.append_nil, hsent]
      exact .named r (Reply.answer_eq_version_iff.mp hanswer)
    | manifest =>
      have hannounces := Reply.answer_eq_manifest_iff.mp hanswer
      obtain ⟨result, b, t, hgives, hrest, ⟨h, hmanifest, hprefix⟩, hok⟩ := manifest_gives s p
      refine ⟨result, b, t, hgives, hrest, ⟨_, .manifest r hannounces hmanifest, ?_⟩, fun v hv => ?_⟩
      · exact (List.prefix_append_right_inj _).mpr hprefix
      · obtain ⟨m, hm, rfl, hnewest, hwritten⟩ := hok v hv
        rw [hwritten, hsent]
        exact .offered r hannounces m hm hnewest
  | error e =>
    cases e with
    | _ => exact ⟨_, [], p, gives_throw, rfl, ⟨h, hhandshake, hprefix⟩, nofun⟩

/-- Whatever the server says there is one end, and no more is read than a handshake. -/
theorem agree_gives (s : Setting) (p : Peer) (hnew : p.written = []) :
    ∃ result b t, s.Gives p s.agree result t ∧ p.rest = b ++ t.rest ∧
      (∃ h, IsHandshake h ∧ b <+: h) ∧ ∀ v, result = .ok v → Agrees v b t.written := by
  rw [agree_eq]
  by_cases hdone : p.outcome p.written.length = .done
  · have hsend : s.Gives p (s.send request) _ _ := send_done hdone request
    by_cases hshort : p.rest.length < 4
    · obtain ⟨r, hreply⟩ := Reply.exists_prefix (Nat.le_of_lt hshort)
      obtain ⟨h, hhandshake, hprefix⟩ := IsHandshake.exists_prefix r
      have hreceive : s.Gives { p with written := p.written ++ [request] } (s.receive 4) _ _ := receive_short hshort
      exact ⟨_, p.rest, _, hsend.andThen hreceive.orFail, by simp, ⟨h, hhandshake, hreply.trans hprefix⟩, nofun⟩
    · obtain ⟨rs, rest, hone, hbytes⟩ := Reply.exists_flatMap_prefix (n := 1) (Nat.not_lt.mp hshort)
      obtain ⟨r, rfl⟩ := List.length_eq_one_iff.mp hone
      rw [List.flatMap_singleton] at hbytes
      have hreceive : s.Gives { p with written := p.written ++ [request] } (s.receive 4) (.ok r.bytes) _ :=
        receive_all hbytes rfl
      obtain ⟨result, b, t, hgives, hrest, hhandshake, hok⟩ :=
        replied_gives s r { p with written := p.written ++ [request], rest := rest } (by simp [hnew])
      refine ⟨result, r.bytes ++ b, t, hsend.andThen (hreceive.andThen hgives), ?_, hhandshake, hok⟩
      rw [hbytes, List.append_assoc, ← hrest]
  · obtain ⟨h, hhandshake, _⟩ := IsHandshake.exists_prefix ⟨0, 0, 0, 0⟩
    exact ⟨_, [], _, (send_fails hdone request).orFail, rfl, ⟨h, hhandshake, List.nil_prefix⟩, nofun⟩

/-- A server that agrees to a version is heard. -/
theorem agree_accepts {v : Version} {heard later : List UInt8} {told : List (List UInt8)}
    (hagrees : Agrees v heard told) (hbytes : p.rest = heard ++ later) (hdone : ∀ n, p.outcome n = .done) :
    ∃ t, s.Gives p s.agree (.ok v) t := by
  have hsend : s.Gives p (s.send request) _ _ := send_done (hdone _) request
  have hreply {r : Reply} {after : List UInt8} (h : p.rest = r.bytes ++ after) :
      s.Gives { p with written := p.written ++ [request] } (s.receive 4) (.ok r.bytes)
        { p with written := p.written ++ [request], rest := after } := receive_all h rfl
  rw [agree_eq]
  cases hagrees with
  | named r hr =>
    have hreplied (q : Peer) : s.Gives q (s.replied r) (.ok v) q := by
      unfold replied
      rw [Reply.answer_eq_version_iff.mpr hr]
      exact gives_pure
    exact ⟨_, hsend.andThen ((hreply hbytes).andThen (hreplied _))⟩
  | offered r hr m hm hv =>
    rw [List.append_assoc] at hbytes
    have hreplied : s.replied r = s.agreeOnManifest := by
      unfold replied
      rw [Reply.answer_eq_manifest_iff.mpr hr]
    obtain ⟨t, hgives⟩ := manifest_accepts (s := s)
      (p := { p with written := p.written ++ [request], rest := m.bytes ++ later }) hm hv rfl (hdone _)
    rw [← hreplied] at hgives
    exact ⟨t, hsend.andThen ((hreply hbytes).andThen hgives)⟩

/-- Every run comes to an end, and all to the same. -/
structure Settles (s : Setting) (start : Peer) (result : Except Error Version) (consumed : List UInt8)
    (written : List (List UInt8)) : Prop where
  terminates : Acc (fun y x => Step s.peer x y) (s.agree.run, start)
  ends : ∀ w t, Leads s.peer (s.agree.run, start) (w, t) → (∀ x, ¬Step s.peer (w, t) x) →
    w = .done result ∧ start.rest = consumed ++ t.rest ∧ t.written = written

theorem Gives.settles {start : Peer} {result : Except Error Version} (h : s.Gives start s.agree result t)
    (hrest : start.rest = b ++ t.rest) : s.Settles start result b t.written := by
  refine ⟨Ends.acc h, fun w u hleads hstop => ?_⟩
  obtain ⟨_, rfl, rfl, rfl⟩ := (Ends.leads h hleads).stops hstop
  exact ⟨rfl, hrest, rfl⟩

/-- Whatever a server says, the result, the bytes that are read and the bytes that are written do not depend on
how its bytes are cut. Nothing behind the handshake is read. A version is the result if and only if the server
agrees to it. -/
theorem agree_whatever_the_cut (s : Setting) (stream : List UInt8) (ending : Input)
    (final : ∀ b, ending ≠ .bytes b) (outcome : Nat → Output) :
    ∃ result consumed written,
      s.Settles ⟨stream, ending, final, outcome, []⟩ result consumed written ∧
      (∃ h, IsHandshake h ∧ consumed <+: h) ∧
      (∀ h, IsHandshake h → h <+: stream → consumed <+: h) ∧
      (∀ v, result = .ok v → Agrees v consumed written) ∧
      ((∀ n, outcome n = .done) →
        ∀ v, result = .ok v ↔ ∃ heard told, Agrees v heard told ∧ heard <+: stream) := by
  obtain ⟨result, consumed, t, hgives, hrest, ⟨h, hhandshake, hprefix⟩, hok⟩ :=
    agree_gives s ⟨stream, ending, final, outcome, []⟩ rfl
  have hconsumed : consumed <+: stream := ⟨t.rest, hrest.symm⟩
  refine ⟨result, consumed, t.written, hgives.settles hrest, ⟨h, hhandshake, hprefix⟩, ?_, hok, ?_⟩
  · intro h' hhandshake' hprefix'
    -- If the handshake were over before what was read, it would be the beginning of another one.
    rcases List.prefix_or_prefix_of_prefix hconsumed hprefix' with hle | hle
    · exact hle
    · rwa [hhandshake'.eq_of_prefix hhandshake (hle.trans hprefix)]
  · intro hdone v
    refine ⟨fun hv => ⟨consumed, t.written, hok v hv, hconsumed⟩, ?_⟩
    rintro ⟨heard, told, hagrees, later, hbytes⟩
    obtain ⟨t', haccepts⟩ := agree_accepts (s := s) (p := ⟨stream, ending, final, outcome, []⟩)
      hagrees hbytes.symm hdone
    exact (hgives.unique haccepts).1

/-- A manifest that offers 5.0 to 5.2, and a message behind it that is left alone. -/
theorem newest_of_a_manifest : ∃ consumed written,
    Settles ⟨⟨0⟩, default, .never⟩
      ⟨[0, 0, 1, 0xFF, 1, 0, 2, 2, 5, 0, 0, 2, 0xB0, 0x70, 0, 0], .ended, nofun, fun _ => .done, []⟩
      (.ok .v5_2) consumed written ∧
    consumed <+: [0, 0, 1, 0xFF, 1, 0, 2, 2, 5, 0] ∧ Agrees .v5_2 consumed written := by
  obtain ⟨result, consumed, written, hsettles, _, hwithin, hok, hiff⟩ :=
    agree_whatever_the_cut ⟨⟨0⟩, default, .never⟩ [0, 0, 1, 0xFF, 1, 0, 2, 2, 5, 0, 0, 2, 0xB0, 0x70, 0, 0]
      .ended nofun fun _ => .done
  have hannounces : Reply.Announces ⟨0, 0, 1, 0xFF⟩ := ⟨rfl, rfl⟩
  have hm : Manifest.Accepted ⟨[1], [⟨0, 2, 2, 5⟩], [0]⟩ :=
    ⟨⟨.last (by decide), by decide, by decide, .last (by decide)⟩, by decide, by decide⟩
  have hv : Newest ([⟨0, 2, 2, 5⟩].map .ofReply) .v5_2 := chooseVersion_eq_some_iff.mp (by decide)
  have hagrees := Agrees.offered _ hannounces _ hm hv
  obtain rfl := (hiff (fun _ => rfl) .v5_2).mpr ⟨_, _, hagrees, by decide⟩
  have hhandshake := IsHandshake.manifest _ hannounces (.whole _ hm.toFormed)
  exact ⟨consumed, written, hsettles, hwithin _ hhandshake (by decide), hok .v5_2 rfl⟩

end Setting

end BoltClient.Opening
