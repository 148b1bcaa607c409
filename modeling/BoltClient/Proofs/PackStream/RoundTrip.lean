import BoltClient.Proofs.PackStream.Reading

namespace BoltClient.PackStream

open Value Reader

def Reader.Container.sized? : Container → Option (Sized × Nat)
  | .list n => some (.list, n)
  | .map n => some (.map, n)
  | .struct n => some (.struct, n)
  | .listStream | .mapStream => none

section

variable {inside : Option (Reader (Option Value))} {kind : Sized} {n : Nat} {h : List UInt8}

/-- Behind the header of a container its contents are read. -/
theorem run_itemWith_header {c : Container} (hc : c.sized? = some (kind, n)) (hh : Announces kind n h)
    (rest : List UInt8) : (itemWith inside).run.run (h ++ rest)
      = (itemWith.container inside c).run.run rest := by
  obtain ⟨m, s, whence, rfl, hm, hs⟩ := exists_marker_of_announces hh
  unfold itemWith
  rw [run_bind, List.cons_append, ← List.singleton_append, yields_byte]
  cases c with
  | listStream | mapStream => cases hc
  | list k | map k | struct k =>
    cases hc
    simp only [hm]
    rw [run_bind, hs]

theorem yields_bytes {b : List UInt8} (hh : Announces .bytes b.length h) :
    (itemWith inside).Yields (h ++ b) (some (.bytes b)) := by
  obtain ⟨m, s, whence, rfl, hm, hs⟩ := exists_marker_of_announces hh
  refine (yields_byte m).bind (y := s ++ b) ?_
  simp only [hm]
  exact hs.bind ((yields_take rfl).thenPure rfl)

theorem yields_spelledText {s : String} (hs : SpellsText s h) :
    (itemWith inside).Yields h (some (.text s)) := by
  obtain ⟨hh⟩ := hs
  obtain ⟨m, s, whence, rfl, hm, hs⟩ := exists_marker_of_announces hh
  refine (yields_byte m).bind (y := s ++ _) ?_
  simp only [hm]
  exact hs.bind ((yields_text _).thenPure rfl)

theorem yields_float (bits : UInt64) :
    (itemWith inside).Yields (0xC1 :: Bytes.ofNat 8 bits.toNat) (some (.float bits)) := by
  refine (yields_byte 0xC1).bind (y := Bytes.ofNat 8 bits.toNat) ?_
  have hm : Marker.ofByte? 0xC1 = some .float := by decide
  simp only [hm]
  have hlt : bits.toNat < Bytes.bound 8 := bits.toNat_lt
  exact (yields_number hlt).thenPure (by rw [UInt64.ofNat_toNat])

/-- An integer of some width behind its marker. -/
theorem yields_wideInt {m : UInt8} {width : Nat} {i : Int64} (hm : Marker.ofByte? m = some (.int width))
    (low : -(Bytes.bound width) ≤ 2 * i.toInt) (high : 2 * i.toInt < Bytes.bound width) :
    (itemWith inside).Yields (m :: Bytes.ofInt width i.toInt) (some (.int i)) := by
  refine (yields_byte m).bind (y := Bytes.ofInt width i.toInt) ?_
  simp only [hm]
  refine (yields_take (Bytes.length_ofInt width i.toInt)).thenPure ?_
  rw [Bytes.toInt_ofInt low high, Int64.ofInt_toInt]

/-- A byte at either end of the range is an integer by itself. -/
theorem ofByte?_tinyInt {i : Int64} (low : -16 ≤ i.toInt) (high : i.toInt < 0x80) :
    Marker.ofByte? (UInt8.ofNat (i.toInt % 256).toNat) = some (.tinyInt i) := by
  have hnat : ((i.toInt % 256).toNat : Int) = i.toInt % 256 := by omega
  have hrange : UInt8.ofNat (i.toInt % 256).toNat < 0x80
      ∨ 0xF0 ≤ UInt8.ofNat (i.toInt % 256).toNat := by
    simp only [UInt8.lt_iff_toNat_lt, UInt8.le_iff_toNat_le, UInt8.toNat_ofNat', UInt8.reduceToNat]
    omega
  have hvalue : (UInt8.ofNat (i.toInt % 256).toNat).toInt8.toInt64 = i := by
    apply Int64.toInt_inj.mp
    rw [Int8.toInt_toInt64, UInt8.toInt8_ofNat', Int8.toInt_ofNat', hnat]
    change (i.toInt % (256 : Nat)).bmod 256 = _
    rw [Int.emod_bmod, Int.bmod_def]
    split_ifs <;> omega
  unfold Marker.ofByte?
  rw [if_pos (by simpa using hrange), hvalue]

theorem yields_spelledInt {i : Int64} (hi : SpellsInt i h) :
    (itemWith inside).Yields h (some (.int i)) := by
  cases hi with
  | tiny low high =>
    have hbyte : Bytes.ofInt 1 i.toInt = [UInt8.ofNat (i.toInt % 256).toNat] := by
      simp [Bytes.ofInt, Bytes.ofNat, Bytes.bound]
    rw [hbyte]
    refine (yields_byte _).thenPure ?_
    rw [ofByte?_tinyInt low high]
  | wide known low high =>
    refine yields_wideInt ?_ low high
    simp only [List.mem_cons, Prod.mk.injEq, List.not_mem_nil, or_false] at known
    obtain ⟨rfl, rfl⟩ | ⟨rfl, rfl⟩ | ⟨rfl, rfl⟩ | ⟨rfl, rfl⟩ := known <;> decide

end

theorem spellsText_of_encodeText {s : String} {x : List UInt8} (hs : encodeText s = .ok x) :
    SpellsText s x := by
  rw [encodeText_eq_joined] at hs
  obtain ⟨_, _, hh, hcontent, rfl⟩ := joined_eq_ok_iff.mp hs
  cases hcontent
  exact .utf8 (announces_of_header hh)

theorem spellsInt_encodeInt (i : Int64) : SpellsInt i (encodeInt i) := by
  have hlow := i.le_toInt
  have hhigh := i.toInt_lt
  unfold encodeInt
  dsimp only
  split_ifs with h1 h2 h3 h4
  · exact .tiny h1.1 h1.2
  · exact .wide (by decide) (by simp only [Bytes.bound]; omega) (by simp only [Bytes.bound]; omega)
  · exact .wide (by decide) (by simp only [Bytes.bound]; omega) (by simp only [Bytes.bound]; omega)
  · exact .wide (by decide) (by simp only [Bytes.bound]; omega) (by simp only [Bytes.bound]; omega)
  · exact .wide (by decide) (by simp only [Bytes.bound]; omega) (by simp only [Bytes.bound]; omega)

section

variable {room : Nat} {x : List UInt8} {v : Value}

theorem exists_item_eq_itemWith (room : Nat) : ∃ inside, item room = itemWith inside := by
  cases room with
  | zero => exact ⟨none, rfl⟩
  | succ room => exact ⟨some (item room), rfl⟩

/-- What is not a container needs no room. -/
theorem reads_plain (h : ∀ inside, (itemWith inside).Yields x (some v)) :
    (item room).Reads (room < 0) x (some v) := by
  obtain ⟨inside, hitem⟩ := exists_item_eq_itemWith room
  rw [hitem]
  exact (h inside).reads.of_iff (by simp)

/-- A container needs one level more than its contents. -/
theorem reads_container {c : Container} {kind : Sized} {n levels : Nat} {h : List UInt8}
    (hc : c.sized? = some (kind, n)) (hh : Announces kind n h)
    (hcontents : ∀ room, (contents (item room) c).Reads (room < levels) x v) :
    (item room).Reads (room < levels + 1) (h ++ x) (some v) := by
  have hrun (inside : Option (Reader (Option Value))) (rest : List UInt8) :
      (itemWith inside).run.run (h ++ x ++ rest)
        = (itemWith.container inside c).run.run (x ++ rest) := by
    rw [List.append_assoc, run_itemWith_header hc hh]
  cases room with
  | zero =>
    refine ⟨fun hdeep => absurd levels.succ_pos hdeep, fun _ rest => ?_⟩
    change ((itemWith none).run.run _).1 = _
    rw [hrun]
    rfl
  | succ room =>
    have hread : (itemWith.container (some (item room)) c).Reads (room < levels) x (some v) :=
      (hcontents room).thenPure rfl
    refine ⟨fun hdeep rest => ?_, fun hdeep rest => ?_⟩
    · change (itemWith (some (item room))).run.run _ = _
      rw [hrun]
      exact hread.1 (by omega) rest
    · change ((itemWith (some (item room))).run.run _).1 = _
      rw [hrun]
      exact hread.2 (by omega) rest

theorem yields_key {s : String} (hs : SpellsText s x) : (key (item room)).Yields x s := by
  obtain ⟨inside, hitem⟩ := exists_item_eq_itemWith room
  rw [hitem]
  unfold key required
  exact Yields.thenPure ((yields_spelledText hs).thenPure rfl) rfl

end

mutual

/-- A value comes back from its bytes where there is room for its levels. -/
theorem reads_value (v : Value) (hkeys : v.Keyed) {x : List UInt8} (hx : spell v = .ok x) (room : Nat) :
    (item room).Reads (room < v.height) x (some v) := by
  cases v with
  | null =>
    cases hx
    exact reads_plain fun _ => (yields_byte _).thenPure rfl
  | bool b =>
    cases hx
    refine reads_plain fun _ => (yields_byte _).thenPure ?_
    cases b <;> rfl
  | int i =>
    cases hx
    exact reads_plain fun _ => yields_spelledInt (spellsInt_encodeInt i)
  | float bits =>
    cases hx
    exact reads_plain fun _ => yields_float bits
  | bytes b =>
    obtain ⟨h, _, hh, hb, rfl⟩ := joined_eq_ok_iff.mp hx
    cases hb
    exact reads_plain fun _ => yields_bytes (announces_of_header hh)
  | text s => exact reads_plain fun _ => yields_spelledText (spellsText_of_encodeText hx)
  | list xs =>
    obtain ⟨h, y, hh, hy, rfl⟩ := joined_eq_ok_iff.mp hx
    exact reads_container (c := .list xs.length) rfl (announces_of_header hh) fun room =>
      (reads_values xs hkeys.2 hy room []).thenPure rfl
  | map es =>
    obtain ⟨h, y, hh, hy, rfl⟩ := joined_eq_ok_iff.mp hx
    refine reads_container (c := .map es.length) rfl (announces_of_header hh) fun room =>
      (reads_entries es hkeys.2 hy room []).thenPure ?_
    have hdistinct : (Entries.keys es).Nodup := hkeys.1
    rw [List.reverse_nil, List.nil_append, Entries.ofPairs_of_nodup hdistinct]
  | struct tag fields =>
    obtain ⟨h, _, hh, hinner, rfl⟩ := joined_eq_ok_iff.mp hx
    obtain ⟨_, y, htag, hy, rfl⟩ := joined_eq_ok_iff.mp hinner
    cases htag
    refine reads_container (c := .struct fields.length) rfl (announces_of_header hh) fun room => ?_
    have hfields := (reads_values fields hkeys.2 hy room []).thenPure
      (f := fun fields => pure (Value.struct tag fields)) rfl
    exact ((yields_byte tag).reads.bind hfields).of_iff (by simp)

theorem reads_values (xs : List Value) (hkeys : EverywhereIn NamesDiffer xs) {x : List UInt8}
    (hx : spellAll xs = .ok x) (room : Nat) (done : List Value) :
    (times (required (item room)) done xs.length).Reads (room < heightOfAll xs) x
      (done.reverse ++ xs) := by
  cases xs with
  | nil =>
    cases hx
    rw [List.append_nil]
    exact (yields_pure _).reads.of_iff (by simp [heightOfAll])
  | cons v xs =>
    obtain ⟨y, z, hy, hz, rfl⟩ := joined_eq_ok_iff.mp hx
    have hfirst := (reads_value v hkeys.1 hy room).required
    have hrest := reads_values xs hkeys.2 hz room (v :: done)
    rw [List.reverse_cons, List.append_assoc, List.singleton_append] at hrest
    exact (hfirst.bind hrest).of_iff (by rw [heightOfAll]; omega)

theorem reads_entries (es : List (String × Value)) (hkeys : EverywhereUnder NamesDiffer es)
    {x : List UInt8} (hx : spellEntries es = .ok x) (room : Nat) (done : List (String × Value)) :
    (times (entry (item room)) done es.length).Reads (room < heightOfEntries es) x
      (done.reverse ++ es) := by
  cases es with
  | nil =>
    cases hx
    rw [List.append_nil]
    exact (yields_pure _).reads.of_iff (by simp [heightOfEntries])
  | cons named es =>
    obtain ⟨name, v⟩ := named
    obtain ⟨y, _, hy, hinner, rfl⟩ := joined_eq_ok_iff.mp hx
    obtain ⟨z, w, hz, hw, rfl⟩ := joined_eq_ok_iff.mp hinner
    have hvalue := (reads_value v hkeys.1 hz room).required
    have hpair := hvalue.thenPure (f := fun v => pure (name, v)) rfl
    have hentry : (entry (item room)).Reads (room < v.height) (y ++ z) (name, v) := by
      unfold entry
      exact ((yields_key (spellsText_of_encodeText hy)).reads.bind hpair).of_iff (by simp)
    have hrest := reads_entries es hkeys.2 hw room ((name, v) :: done)
    rw [List.reverse_cons, List.append_assoc, List.singleton_append] at hrest
    rw [← List.append_assoc]
    exact (hentry.bind hrest).of_iff (by rw [heightOfEntries]; omega)

end

/-- A value can be written exactly when its sizes are within the limits. What was written is read back up
to its last byte, unless it is nested too deep. -/
theorem decode_of_encode (v : Value) (hkeys : v.Keyed) :
    ((∃ b, encode v = .ok b) ↔ v.Fits) ∧
    ∀ b rest, encode v = .ok b →
      (v.height ≤ 256 → (Decoder.ofBytes (b ++ rest)).decode = (.ok v, ⟨b.length, rest⟩)) ∧
      (256 < v.height → (Decoder.ofBytes (b ++ rest)).decode.1 = .error (.tooDeep 256)) := by
  rw [encode_eq_spell]
  refine ⟨exists_spell_iff v, fun b rest hb => ?_⟩
  have hread := (reads_value v hkeys hb maxNesting).required
  refine ⟨fun hheight => ?_, fun hheight => ?_⟩
  · have hrun := hread.1 (Nat.not_lt.mpr hheight) rest
    unfold Decoder.decode Decoder.ofBytes value
    simp only [hrun, List.length_append, Nat.zero_add, Nat.add_sub_cancel]
  · have hrun := hread.2 hheight rest
    unfold Decoder.decode Decoder.ofBytes value
    exact hrun

theorem nested_map_comes_back :
    let v : Value := .map [("a", .list [.int (-200), .bool true]), ("b", .map [])]
    let b : List UInt8 := [0xA2, 0x81, 0x61, 0x92, 0xC9, 0xFF, 0x38, 0xC3, 0x81, 0x62, 0xA0]
    v.Keyed ∧ v.Fits ∧ (Decoder.ofBytes (b ++ [0xDF])).decode = (.ok v, ⟨11, [0xDF]⟩) := by
  intro v b
  have hkeys : v.Keyed := by
    simp [v, Keyed, Everywhere, EverywhereIn, EverywhereUnder, NamesDiffer, Entries.keys]
  have hencode : encode v = .ok b := by rfl
  have h := decode_of_encode v hkeys
  exact ⟨hkeys, h.1.mp ⟨b, hencode⟩, (h.2 b [0xDF] hencode).1 (by decide)⟩

end BoltClient.PackStream
