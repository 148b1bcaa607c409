import BoltClient.Connection.Opening
import BoltClient.Proofs.Handshake.Varint
import BoltClient.Proofs.Work.Ending

namespace BoltClient.Opening

open Work Handshake

/-- A server that says the same whatever it hears, and what has become of it. -/
structure Peer where
  /-- What has not been read yet. -/
  rest : List UInt8
  /-- What comes of reading when nothing is left. -/
  ending : Input
  final : ∀ b, ending ≠ .bytes b
  /-- What comes of each write. -/
  outcome : Nat → Output
  written : List (List UInt8) := []

namespace Setting

/-- A read gives any number of the bytes that are left, up to the limit. Nothing but reading and writing on the
link is answered. -/
def Answers (s : Setting) (p : Peer) : {β : Type} → Transfer β → β → Peer → Prop
  | _, .read link limit _, input, p' => link = s.link ∧
    ((p.rest = [] ∧ input = p.ending ∧ p' = p) ∨
      ∃ piece rest, piece ≠ [] ∧ (∀ n, limit = some n → piece.length ≤ n) ∧ p.rest = piece ++ rest ∧
        input = .bytes piece ∧ p' = { p with rest := rest })
  | _, .write link bytes _, output, p' => link = s.link ∧ output = p.outcome p.written.length ∧
    p' = { p with written := p.written ++ [bytes] }
  | _, _, _, _ => False

def peer (s : Setting) : Surroundings Transfer Peer where
  Answers p q b p' := s.Answers p q b p'
  Allows _ _ := True

/-- Work comes to one end only, however the bytes are cut. -/
def Gives {α : Type} (s : Setting) (p : Peer) (w : Attempt α) (r : Except Error α) (t : Peer) : Prop :=
  w.run.Ends s.peer (fun r' t' => r' = r ∧ t' = t) p

variable {α β : Type} {s : Setting} {p t u : Peer} {w : Attempt α} {f : α → Attempt β} {a : α} {e : Error}
  {r : Except Error β} {b rest : List UInt8} {size : Nat}

theorem gives_pure : s.Gives p (pure a) (.ok a) p := .done ⟨rfl, rfl⟩

theorem gives_throw : s.Gives p (throw e : Attempt α) (.error e) p := .done ⟨rfl, rfl⟩

theorem Gives.andThen (h : s.Gives p w (.ok a) t) (hf : s.Gives t (f a) r u) : s.Gives p (w >>= f) r u := by
  refine Ends.orFail (Ends.mono h fun r' t' ht => ?_)
  obtain ⟨rfl, rfl⟩ := ht
  exact hf

theorem Gives.orFail (h : s.Gives p w (.error e) t) : s.Gives p (w >>= f) (.error e) t := by
  refine Ends.orFail (Ends.mono h fun r' t' ht => ?_)
  obtain ⟨rfl, rfl⟩ := ht
  exact ⟨rfl, rfl⟩

theorem Gives.unique {r r' : Except Error α} (h : s.Gives p w r t) (h' : s.Gives p w r' u) : r = r' ∧ t = u := by
  obtain ⟨_, _, ⟨rfl, rfl⟩, rfl, rfl⟩ := Ends.meet h h'
  exact ⟨rfl, rfl⟩

theorem send_done (h : p.outcome p.written.length = .done) (bytes : List UInt8) :
    s.Gives p (s.send bytes) (.ok ()) { p with written := p.written ++ [bytes] } := by
  unfold send
  refine Ends.orFail (.ask ⟨_, _, rfl, rfl, rfl⟩ ?_)
  rintro output t ⟨_, rfl, rfl⟩
  rw [h]
  exact .done (.done ⟨rfl, rfl⟩)

def writeError (s : Setting) : Output → Error
  | .failed detail => .serviceUnavailable ("Failed to write handshake to " ++ s.address.text) (some detail)
  | .done | .late => s.timedOut

theorem send_fails (h : p.outcome p.written.length ≠ .done) (bytes : List UInt8) :
    s.Gives p (s.send bytes) (.error (s.writeError (p.outcome p.written.length)))
      { p with written := p.written ++ [bytes] } := by
  unfold send
  refine Ends.orFail (.ask ⟨_, _, rfl, rfl, rfl⟩ ?_)
  rintro output t ⟨_, rfl, rfl⟩
  refine .done ?_
  dsimp only
  generalize p.outcome p.written.length = output at h ⊢
  cases output with
  | done => exact absurd rfl h
  | failed | late => exact .done ⟨rfl, rfl⟩

/-- A read gives what comes at the end, or some of the bytes that are left. -/
theorem ends_read {n : Nat} {d : Deadline} {post : Except Error Input → Peer → Prop} (hn : 0 < n)
    (hend : p.rest = [] → post (.ok p.ending) p)
    (hsome : ∀ piece rest, piece ≠ [] → piece.length ≤ n → p.rest = piece ++ rest →
      post (.ok (.bytes piece)) { p with rest := rest }) :
    (ask (.read s.link (some n) d)).run.Ends s.peer post p := by
  refine .ask ?_ ?_
  · cases hrest : p.rest with
    | nil => exact ⟨p.ending, p, rfl, .inl ⟨hrest, rfl, rfl⟩⟩
    | cons x rest =>
      refine ⟨.bytes [x], { p with rest := rest }, rfl, .inr ⟨[x], rest, by simp, ?_, hrest, rfl, rfl⟩⟩
      rintro _ ⟨⟩
      exact hn
  · rintro input t ⟨_, ⟨hrest, rfl, rfl⟩ | ⟨piece, rest, hpiece, hlimit, hrest, rfl, rfl⟩⟩
    · exact .done (hend hrest)
    · exact .done (hsome piece rest hpiece (hlimit n rfl) hrest)

/-- However bytes are cut, they are put together again, and what comes after them is left alone. -/
theorem receive_all (hbytes : p.rest = b ++ rest) (hsize : b.length = size) :
    s.Gives p (s.receive size) (.ok b) { p with rest := rest } := by
  unfold receive
  refine ends_iterateOrFail
    (fun got t => ∃ more, got ++ more = b ∧ t = { p with rest := more ++ rest })
    (fun _ t => t.rest.length) ⟨b, rfl, by rw [← hbytes]⟩ ?_
  rintro got t ⟨more, rfl, rfl⟩
  rw [List.length_append] at hsize
  split
  · next hle =>
    have hmore : more = [] := List.length_eq_zero_iff.mp (by omega)
    subst hmore
    exact .done ⟨by simp, by simp⟩
  · next hlt =>
    refine Ends.orFail (ends_read (by omega) (fun hrest => ?_) fun piece tail hpiece hle hrest => ?_)
    · have hmore : more = [] := (List.append_eq_nil_iff.mp hrest).1
      subst hmore
      rw [List.length_nil] at hsize
      omega
    · -- The limit of the read keeps the piece within what is still missing.
      have hprefix : piece <+: more :=
        List.prefix_of_prefix_length_le ⟨tail, hrest.symm⟩ (List.prefix_append _ rest) (by omega)
      obtain ⟨more, rfl⟩ := hprefix
      have htail : more ++ rest = tail := by
        rw [List.append_assoc] at hrest
        exact List.append_cancel_left hrest
      have hpos := List.length_pos_iff.mpr hpiece
      refine .done ⟨⟨more, by rw [List.append_assoc], by rw [htail]⟩, ?_⟩
      dsimp only
      rw [← htail]
      simp only [List.length_append]
      omega

def endError (s : Setting) (size : Nat) (got : List UInt8) : Input → Error
  | .ended => s.cutShort size got
  | .failed detail =>
    .serviceUnavailable ("Failed to read handshake response from " ++ s.address.text) (some detail)
  | .late | .bytes _ => s.timedOut

/-- When there are not enough bytes all are read. -/
theorem receive_short (hsize : p.rest.length < size) :
    s.Gives p (s.receive size) (.error (s.endError size p.rest p.ending)) { p with rest := [] } := by
  unfold receive
  refine ends_iterateOrFail (fun got t => ∃ more, got ++ more = p.rest ∧ t = { p with rest := more })
    (fun _ t => t.rest.length) ⟨p.rest, rfl, rfl⟩ ?_
  rintro got t ⟨more, hgot, rfl⟩
  have hlength := congrArg List.length hgot
  rw [List.length_append] at hlength
  split
  · omega
  · refine Ends.orFail (ends_read (by omega) (fun hrest => ?_) fun piece tail hpiece _ hrest => ?_)
    · obtain rfl : more = [] := hrest
      rw [List.append_nil] at hgot
      subst hgot
      dsimp only
      split
      · next b hending => exact absurd hending (p.final b)
      · next hending => exact .done ⟨by rw [hending]; rfl, rfl⟩
      · next hending => exact .done ⟨by rw [hending]; rfl, rfl⟩
      · next hending => exact .done ⟨by rw [hending]; rfl, rfl⟩
    · obtain rfl : more = piece ++ tail := hrest
      have hpos := List.length_pos_iff.mpr hpiece
      refine .done ⟨⟨tail, by rw [List.append_assoc, hgot], rfl⟩, ?_⟩
      simp only [List.length_append]
      omega

open Varint (Spelled Continues Holds)

def numberFrom (s : Setting) (d : Varint.Decoder) : Attempt UInt64 :=
  iterateOrFail (fun (d : Varint.Decoder) => do
    let b ← s.receive 1
    match d.push (b.headD 0) with
    | (.error e, _) => throw (.protocol e.message)
    | (.ok (some n), _) => return .inr n
    | (.ok none, d) => return .inl d) d

theorem receiveNumber_eq (s : Setting) : s.receiveNumber = s.numberFrom default := rfl

/-- One byte is read and given to the decoder. -/
theorem ends_numberFrom {d : Varint.Decoder} {x : UInt8} {post : Except Error UInt64 → Peer → Prop}
    (hbytes : p.rest = x :: rest)
    (h : match d.push x with
      | (.error e, _) => post (.error (.protocol e.message)) { p with rest := rest }
      | (.ok (some n), _) => post (.ok n) { p with rest := rest }
      | (.ok none, d') => (s.numberFrom d').run.Ends s.peer post { p with rest := rest }) :
    (s.numberFrom d).run.Ends s.peer post p := by
  have hone : s.Gives p (s.receive 1) (.ok [x]) { p with rest := rest } := receive_all hbytes rfl
  refine Ends.iterateOrFail (Ends.orFail (Ends.mono hone fun r t ht => ?_))
  obtain ⟨rfl, rfl⟩ := ht
  dsimp only [List.headD_cons]
  split at h
  · exact .done h
  · exact .done h
  · exact .done h

/-- Bytes after which a number goes on are taken in. -/
theorem ends_groups {groups : List UInt8} {d : Varint.Decoder} {k n : Nat}
    {post : Except Error UInt64 → Peer → Prop} (hgroups : Continues groups) (hholds : Holds d k n)
    (hroom : k + groups.length ≤ 10) (hbytes : p.rest = groups ++ rest)
    (h : ∀ d', Holds d' (k + groups.length) (n + 0x80 ^ k * Varint.value groups) →
      (s.numberFrom d').run.Ends s.peer post { p with rest := rest }) :
    (s.numberFrom d).run.Ends s.peer post p := by
  -- On the groups, with the decoder that holds those before them.
  induction groups generalizing p d k n with
  | nil =>
    rw [List.nil_append] at hbytes
    subst hbytes
    exact h d hholds
  | cons x groups ih =>
    obtain ⟨hx, hgroups⟩ := List.forall_mem_cons.mp hgroups
    rw [List.length_cons] at hroom h
    obtain ⟨d', hpush, hholds'⟩ := hholds.push (show k < 10 by omega) x
    refine ends_numberFrom hbytes ?_
    rw [hpush, if_neg hx]
    refine ih hgroups hholds' (by omega) rfl fun d'' hholds'' => h d'' ?_
    have hvalue : n + 0x80 ^ k * (x.toNat % 0x80) + 0x80 ^ (k + 1) * Varint.value groups
        = n + 0x80 ^ k * Varint.value (x :: groups) := by
      rw [Varint.value, Nat.mul_add, Nat.pow_succ, Nat.mul_assoc, Nat.add_assoc]
    rwa [hvalue, Nat.add_assoc, Nat.add_comm 1] at hholds''

/-- A number of up to ten bytes is read to its end. -/
theorem number_read (hspelled : Spelled b) (hlength : b.length ≤ 10) (hbytes : p.rest = b ++ rest) :
    s.Gives p s.receiveNumber (.ok (UInt64.ofNat (Varint.value b))) { p with rest := rest } := by
  obtain ⟨groups, x, rfl, hgroups, hx⟩ := hspelled.exists_last
  rw [List.length_append, List.length_singleton] at hlength
  rw [List.append_assoc] at hbytes
  rw [receiveNumber_eq]
  refine ends_groups hgroups Varint.holds_default (by omega) hbytes fun d hholds => ?_
  obtain ⟨d', hpush, hholds'⟩ := hholds.push (by omega) x
  refine ends_numberFrom rfl ?_
  rw [hpush, if_pos hx]
  refine ⟨?_, rfl⟩
  rw [hholds'.value, Varint.value_concat]
  simp

/-- Of a number that is cut off everything is read. -/
theorem number_cut (hall : Continues p.rest) (hlength : p.rest.length ≤ 10) :
    s.Gives p s.receiveNumber (.error (s.endError 1 [] p.ending)) { p with rest := [] } := by
  rw [receiveNumber_eq]
  refine ends_groups hall Varint.holds_default (by omega) (List.append_nil _).symm fun d _ => ?_
  have hshort : s.Gives { p with rest := [] } (s.receive 1) _ _ := receive_short (by simp)
  refine Ends.iterateOrFail (Ends.orFail (Ends.mono hshort fun r t ht => ?_))
  obtain ⟨rfl, rfl⟩ := ht
  exact ⟨rfl, rfl⟩

/-- Of a number that is too long eleven bytes are read. -/
theorem number_long {groups : List UInt8} {x : UInt8} (hgroups : Continues groups)
    (hlength : groups.length = 10) (hbytes : p.rest = groups ++ x :: rest) :
    s.Gives p s.receiveNumber (.error (.protocol (Handshake.Error.badData "varint too long").message))
      { p with rest := rest } := by
  rw [receiveNumber_eq]
  refine ends_groups hgroups Varint.holds_default (by omega) hbytes fun d hholds => ?_
  rw [hlength] at hholds
  refine ends_numberFrom rfl ?_
  rw [hholds.full x]
  exact ⟨rfl, rfl⟩

/-- Whatever comes, a number is read, or an error comes of no more bytes than a number has. -/
theorem number_gives (s : Setting) (p : Peer) :
    (∃ b rest, p.rest = b ++ rest ∧ Spelled b ∧ b.length ≤ 10 ∧
      s.Gives p s.receiveNumber (.ok (UInt64.ofNat (Varint.value b))) { p with rest := rest }) ∨
    ∃ e b rest more, p.rest = b ++ rest ∧ Spelled (b ++ more) ∧
      s.Gives p s.receiveNumber (.error e) { p with rest := rest } := by
  rcases Varint.spelled_or 10 p.rest with ⟨b, rest, hbytes, hspelled, hlength⟩ | ⟨hall, hlength⟩ |
    ⟨groups, x, rest, hbytes, hgroups, hlength⟩
  · exact .inl ⟨b, rest, hbytes, hspelled, hlength, number_read hspelled hlength hbytes⟩
  · exact .inr ⟨_, p.rest, [], [0], by simp, hall.spelled (by decide), number_cut hall hlength⟩
  · obtain ⟨more, hspelled⟩ := hgroups.exists_spelled x
    exact .inr ⟨_, groups ++ [x], rest, more, by simp [hbytes], hspelled,
      number_long hgroups hlength hbytes⟩

end Setting

end BoltClient.Opening
