import BoltClient.PackStream.Decoder
import BoltClient.Proofs.PackStream.Grammar
import BoltClient.Proofs.PackStream.Spelling

namespace BoltClient.PackStream.Reader

variable {α β : Type} {a : α} {b : β} {x y : List UInt8} {r : Reader α} {f : α → Reader β} {e : Error}

/-- The reader reads these bytes and no more, and the value comes of it. -/
def Yields (r : Reader α) (x : List UInt8) (a : α) : Prop :=
  ∀ rest, r.run.run (x ++ rest) = (.ok a, rest)

/-- The reader fails on bytes that begin with these. -/
def Refuses (r : Reader α) (x : List UInt8) (e : Error) : Prop :=
  ∀ rest, (r.run.run (x ++ rest)).1 = .error e

theorem yields_pure (a : α) : Yields (pure a) [] a := fun _ => rfl

theorem Yields.bind (hr : r.Yields x a) (hf : (f a).Yields y b) : (r >>= f).Yields (x ++ y) b := by
  intro rest
  rw [run_bind, List.append_assoc, hr]
  exact hf rest

theorem Yields.refuses (hr : r.Yields x a) (hf : (f a).Refuses y e) : (r >>= f).Refuses (x ++ y) e := by
  intro rest
  rw [run_bind, List.append_assoc, hr]
  exact hf rest

/-- After an error nothing else is read. -/
theorem run_bind_of_error {bytes : List UInt8} (h : (r.run.run bytes).1 = .error e) (f : α → Reader β) :
    ((r >>= f).run.run bytes).1 = .error e := by
  rw [run_bind]
  generalize r.run.run bytes = outcome at h
  obtain ⟨_, _⟩ := outcome
  cases h
  rfl

theorem Refuses.bind (hr : r.Refuses x e) (f : α → Reader β) : (r >>= f).Refuses x e :=
  fun rest => run_bind_of_error (hr rest) f

theorem Refuses.append (hr : r.Refuses x e) (y : List UInt8) : r.Refuses (x ++ y) e := by
  intro rest
  rw [List.append_assoc]
  exact hr _

theorem Yields.thenPure (hr : r.Yields x a) (hf : f a = pure b) : (r >>= f).Yields x b := by
  have h := hr.bind (f := f) (y := []) (b := b) (by rw [hf]; exact yields_pure b)
  rwa [List.append_nil] at h

/-- The reader yields a value where there is room for it, and refuses to go deeper where there is not. -/
def Reads (r : Reader α) (deep : Prop) (x : List UInt8) (a : α) : Prop :=
  (¬deep → r.Yields x a) ∧ (deep → r.Refuses x (.tooDeep maxNesting))

theorem Yields.reads (hr : r.Yields x a) : r.Reads False x a := ⟨fun _ => hr, False.elim⟩

theorem Reads.bind {p q : Prop} (hr : r.Reads p x a) (hf : (f a).Reads q y b) :
    (r >>= f).Reads (p ∨ q) (x ++ y) b := by
  refine ⟨fun hdeep => ?_, fun hdeep => ?_⟩
  · rw [not_or] at hdeep
    exact (hr.1 hdeep.1).bind (hf.1 hdeep.2)
  · by_cases hp : p
    · exact ((hr.2 hp).bind f).append y
    · exact (hr.1 hp).refuses (hf.2 (hdeep.resolve_left hp))

theorem Reads.thenPure {p : Prop} (hr : r.Reads p x a) (hf : f a = pure b) : (r >>= f).Reads p x b :=
  ⟨fun hdeep => (hr.1 hdeep).thenPure hf, fun hdeep => (hr.2 hdeep).bind f⟩

theorem Reads.of_iff {p q : Prop} (hr : r.Reads p x a) (h : p ↔ q) : r.Reads q x a :=
  ⟨fun hdeep => hr.1 (mt h.mp hdeep), fun hdeep => hr.2 (h.mpr hdeep)⟩

theorem Reads.required {p : Prop} {item : Reader (Option Value)} {v : Value}
    (h : item.Reads p x (some v)) : item.required.Reads p x v := by
  unfold Reader.required
  exact h.thenPure rfl

theorem yields_byte (u : UInt8) : byte.Yields [u] u := fun _ => rfl

theorem yields_take {n : Nat} (h : x.length = n) : (take n).Yields x x := by
  intro rest
  change take n (x ++ rest) = _
  simp [take, split_eq, ← h]

theorem yields_number {width n : Nat} (h : n < Bytes.bound width) :
    (number width).Yields (Bytes.ofNat width n) n :=
  (yields_take (Bytes.length_ofNat width n)).thenPure (by rw [Bytes.toNat_ofNat_of_lt h])

theorem yields_size (kind : Sized) {width n : Nat} (h : n < Bytes.bound width) (hn : n < 0x80000000) :
    (size kind (.inNext width)).Yields (Bytes.ofNat width n) n :=
  (yields_number h).thenPure (if_pos hn)

theorem yields_text (s : String) : (text (Text.Utf8.encode s).length).Yields (Text.Utf8.encode s) s :=
  (yields_take rfl).thenPure (by rw [Text.Utf8.decode_encode])

theorem ofByte?_tiny {kind : Sized} {tiny : UInt8} (h : kind.tiny = some tiny) :
    ∀ n < 16, Marker.ofByte? (tiny ||| UInt8.ofNat n) = some (.sized kind (.inMarker n)) := by
  cases kind <;> cases h <;> decide

theorem ofByte?_first (kind : Sized) :
    Marker.ofByte? kind.first = some (.sized kind (.inNext 1)) ∧
    Marker.ofByte? (kind.first + 1) = some (.sized kind (.inNext 2)) ∧
    (kind ≠ .struct → Marker.ofByte? (kind.first + 2) = some (.sized kind (.inNext 4))) := by
  cases kind <;> decide

/-- An announcement is a marker of its kind, and then the size is read from the rest of it. -/
theorem exists_marker_of_announces {kind : Sized} {n : Nat} {h : List UInt8} (hh : Announces kind n h) :
    ∃ m s where?, h = m :: s ∧ Marker.ofByte? m = some (.sized kind where?) ∧
      (size kind where?).Yields s n := by
  obtain ⟨hfirst, hsecond, hthird⟩ := ofByte?_first kind
  cases hh with
  | tiny hknown hsmall => exact ⟨_, [], _, rfl, ofByte?_tiny hknown n hsmall, yields_pure n⟩
  | one hsmall =>
    exact ⟨_, _, _, rfl, hfirst, yields_size kind (by simpa [Bytes.bound] using hsmall) (by omega)⟩
  | two hsmall =>
    exact ⟨_, _, _, rfl, hsecond, yields_size kind (by simpa [Bytes.bound] using hsmall) (by omega)⟩
  | four hknown hsmall =>
    refine ⟨_, _, _, rfl, hthird hknown, yields_size kind ?_ hsmall⟩
    simp only [Bytes.bound]
    omega

/-- The writer of headers takes the shortest announcement. -/
theorem announces_of_header {kind : Sized} {n : Nat} {h : List UInt8} (hh : header kind n = .ok h) :
    Announces kind n h := by
  have wide (hw : header.wide kind n = .ok h) : Announces kind n h := by
    unfold header.wide at hw
    split_ifs at hw with h1 h2 h3 <;> cases hw
    · exact .one h2
    · exact .two h3
    · have hlimit : kind.limit < 0x80000000 ∧ (kind = .struct → kind.limit < 0x10000) := by
        cases kind <;> decide
      exact .four (fun hstruct => by have := hlimit.2 hstruct; omega) (by omega)
  unfold header at hh
  split at hh
  · next tiny htiny =>
    split_ifs at hh with hn
    · cases hh
      exact .tiny htiny hn
    · exact wide hh
  · exact wide hh

/-- The first reading of bytes gives what the reader of values makes of them. -/
theorem decode_ofBytes {bytes rest : List UInt8} {outcome : Except Error Value}
    (h : value.run.run bytes = (outcome, rest)) :
    (Decoder.ofBytes bytes).decode = (outcome, ⟨bytes.length - rest.length, rest⟩) := by
  simp [Decoder.decode, Decoder.ofBytes, h]

end BoltClient.PackStream.Reader
