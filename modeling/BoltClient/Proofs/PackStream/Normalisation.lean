import BoltClient.Proofs.PackStream.Recognition

namespace BoltClient.PackStream

open Value

namespace Phrase

def Everywhere (p : Value → Prop) : Phrase → Prop
  | value v => v.Everywhere p
  | values vs => EverywhereIn p vs
  | entries es => EverywhereUnder p es

def height : Phrase → Nat
  | value v => v.height
  | values vs => heightOfAll vs
  | entries es => heightOfEntries es

/-- How many parts stand in a row. A value stands alone. -/
def count : Phrase → Nat
  | value _ => 0
  | values vs => vs.length
  | entries es => es.length

/-- Every size in a phrase can be written. -/
def Fits (phrase : Phrase) : Prop :=
  phrase.Everywhere SizeFits ∧
    match phrase with
    | entries es => ∀ entry ∈ es, TextFits entry.1
    | _ => True

end Phrase

section

variable {room n : Nat} {x head : List UInt8} {p : Value → Prop} {es : List (String × Value)}

/-- What holds of the values under names holds of those that are left where names come twice. -/
theorem everywhereUnder_putAll (h : EverywhereUnder p es) : EverywhereUnder p (Entries.putAll [] es) := by
  rw [everywhereUnder_iff] at h ⊢
  exact fun entry hentry => h entry (Entries.mem_of_mem_putAll_nil hentry)

theorem heightOfEntries_putAll_le (h : heightOfEntries es ≤ n) :
    heightOfEntries (Entries.putAll [] es) ≤ n := by
  rw [heightOfEntries_le_iff] at h ⊢
  exact fun entry hentry => h entry (Entries.mem_of_mem_putAll_nil hentry)

theorem Derives.keyed {phrase : Phrase} (h : Derives room x phrase) : phrase.Everywhere NamesDiffer := by
  induction h with
  | null | bool | int | float | bytes | text | noValue | noEntry => trivial
  | list _ _ ih | listStream _ ih | struct _ _ _ ih => exact ⟨trivial, ih⟩
  | @map _ _ _ es _ _ ih | @mapStream _ _ es _ ih =>
    exact ⟨Entries.nodup_keys_putAll es List.nodup_nil, everywhereUnder_putAll ih⟩
  | andValue _ _ ihFirst ihOthers | andEntry _ _ _ ihFirst ihOthers => exact ⟨ihFirst, ihOthers⟩

theorem Derives.height_le {phrase : Phrase} (h : Derives room x phrase) : phrase.height ≤ room := by
  induction h with
  | null | bool | int | float | bytes | text | noValue | noEntry => exact Nat.zero_le _
  | list _ _ ih | listStream _ ih | struct _ _ _ ih => exact Nat.succ_le_succ ih
  | map _ _ ih | mapStream _ ih => exact Nat.succ_le_succ (heightOfEntries_putAll_le ih)
  | andValue _ _ ihFirst ihOthers | andEntry _ _ _ ihFirst ihOthers =>
    exact Nat.max_le.mpr ⟨ihFirst, ihOthers⟩

/-- Every part of a row takes at least one byte. -/
theorem Derives.count_le {phrase : Phrase} (h : Derives room x phrase) : phrase.count ≤ x.length := by
  induction h with
  | andValue first _ _ ihOthers | andEntry _ first _ _ ihOthers =>
    have hfirst := List.length_pos_iff.mpr first.ne_nil
    simp only [Phrase.count, List.length_cons, List.length_append] at ihOthers ⊢
    omega
  | _ => exact Nat.zero_le _

theorem Announces.le_maxFields (h : Announces .struct n head) : n ≤ maxFields := by
  unfold maxFields
  cases h with
  | tiny _ small | one small | two small => omega
  | four known => exact absurd rfl known

theorem SpellsText.textFits {s : String} (h : SpellsText s x) (hx : x.length ≤ maxEntries) : TextFits s := by
  obtain ⟨_⟩ := h
  rw [List.length_append] at hx
  unfold TextFits
  omega

theorem fits_putAll (h : (Phrase.entries es).Fits) (hcount : es.length ≤ maxEntries) :
    (Value.map (Entries.putAll [] es)).Fits := by
  have hlength := Entries.length_putAll_le es []
  refine ⟨⟨Nat.le_trans hlength (by simpa using hcount), fun entry hentry => ?_⟩, everywhereUnder_putAll h.1⟩
  exact h.2 entry (Entries.mem_of_mem_putAll_nil hentry)

/-- A phrase that takes no more bytes than the limit has no size above it. -/
theorem Derives.fits {phrase : Phrase} (h : Derives room x phrase) (hx : x.length ≤ maxEntries) :
    phrase.Fits := by
  induction h with
  | null | bool | int | float | noValue => exact ⟨trivial, trivial⟩
  | bytes =>
    rw [List.length_append] at hx
    exact ⟨Nat.le_trans (Nat.le_add_left ..) hx, trivial⟩
  | text spells => exact ⟨spells.textFits hx, trivial⟩
  | list _ inside ih =>
    -- there are no more parts than bytes
    have hcount := inside.count_le
    rw [List.length_append] at hx
    exact ⟨⟨Nat.le_trans hcount (by omega), (ih (by omega)).1⟩, trivial⟩
  | listStream inside ih =>
    have hcount := inside.count_le
    simp only [List.length_cons, List.length_append] at hx
    exact ⟨⟨Nat.le_trans hcount (by omega), (ih (by omega)).1⟩, trivial⟩
  | struct tag size inside ih =>
    simp only [List.length_cons, List.length_append] at hx
    exact ⟨⟨size.le_maxFields, (ih (by omega)).1⟩, trivial⟩
  | map _ inside ih =>
    rw [List.length_append] at hx
    exact ⟨fits_putAll (ih (by omega)) (Nat.le_trans inside.count_le (by omega)), trivial⟩
  | mapStream inside ih =>
    simp only [List.length_cons, List.length_append] at hx
    exact ⟨fits_putAll (ih (by omega)) (Nat.le_trans inside.count_le (by omega)), trivial⟩
  | andValue _ _ ihFirst ihOthers =>
    rw [List.length_append] at hx
    exact ⟨⟨(ihFirst (by omega)).1, (ihOthers (by omega)).1⟩, trivial⟩
  | noEntry => exact ⟨trivial, by simp⟩
  | andEntry key _ _ ihFirst ihOthers =>
    simp only [List.length_append] at hx
    have hothers := ihOthers (by omega)
    refine ⟨⟨(ihFirst (by omega)).1, hothers.1⟩, ?_⟩
    exact List.forall_mem_cons.mpr ⟨key.textFits (by omega), hothers.2⟩

end

def normalise (bytes : List UInt8) : Except Error (List UInt8) := decode bytes >>= encode

theorem decode_eq_ok_iff {bytes : List UInt8} {v : Value} :
    decode bytes = .ok v ↔ ∃ x rest, bytes = x ++ rest ∧ Derives maxNesting x (.value v) := by
  constructor
  · intro h
    have hrun : Reader.value.run.run bytes = (.ok v, (Reader.value.run.run bytes).2) := Prod.ext h rfl
    obtain ⟨x, hx⟩ := run_value_iff.mp hrun
    exact ⟨x, _, hx⟩
  · rintro ⟨x, rest, hx⟩
    exact congrArg Prod.fst (run_value_iff.mpr ⟨x, hx⟩)

/-- What is read from bytes can be written, and comes back from what is written. -/
theorem exists_encode_of_decoded {bytes : List UInt8} {v : Value} (hshort : bytes.length < 0x80000000)
    (hdecode : decode bytes = .ok v) :
    ∃ b, encode v = .ok b ∧ (Decoder.ofBytes b).decode = (.ok v, ⟨b.length, []⟩) := by
  obtain ⟨x, rest, rfl, hx⟩ := decode_eq_ok_iff.mp hdecode
  have hlength : x.length ≤ maxEntries := by
    rw [List.length_append] at hshort
    unfold maxEntries
    omega
  obtain ⟨hwritten, hback⟩ := decode_of_encode v hx.keyed
  obtain ⟨b, hb⟩ := hwritten.mpr (hx.fits hlength).1
  have hread := (hback b [] hb).1 hx.height_le
  rw [List.append_nil] at hread
  exact ⟨b, hb, hread⟩

/-- What is read from bytes can be written, and what is written is read as the same value up to its last
byte. It is the normal form of the bytes and of itself, and of exactly those bytes that are read as this
value. -/
theorem normal_form_comes_back (bytes : List UInt8) (v : Value) (hshort : bytes.length < 0x80000000)
    (hdecode : decode bytes = .ok v) :
    ∃ b, encode v = .ok b ∧ (Decoder.ofBytes b).decode = (.ok v, ⟨b.length, []⟩) ∧
      normalise bytes = .ok b ∧ normalise b = .ok b ∧
      ∀ other, other.length < 0x80000000 → (normalise other = .ok b ↔ decode other = .ok v) := by
  obtain ⟨b, hencode, hback⟩ := exists_encode_of_decoded hshort hdecode
  have hread : decode b = .ok v := congrArg Prod.fst hback
  have hnormal {x : List UInt8} (hx : decode x = .ok v) : normalise x = .ok b := by
    unfold normalise
    rw [hx]
    exact hencode
  refine ⟨b, hencode, hback, hnormal hdecode, hnormal hread, fun other hother => ⟨fun h => ?_, hnormal⟩⟩
  -- other bytes with this normal form are read as what the normal form is read as
  unfold normalise at h
  cases hv : decode other with
  | error e =>
    rw [hv] at h
    cases h
  | ok v' =>
    rw [hv] at h
    obtain ⟨b', hencode', hback'⟩ := exists_encode_of_decoded hother hv
    cases hencode'.symm.trans h
    rw [hback] at hback'
    cases hback'
    rfl

/-- A stream of pairs in which an integer takes more bytes than it needs and a name comes twice, with a byte
behind it. -/
theorem streamed_map_is_normalised :
    let bytes : List UInt8 := [0xDB, 0x81, 0x61, 0xC9, 0x00, 0x07, 0x81, 0x61, 0xC3, 0xDF, 0x01]
    let b : List UInt8 := [0xA1, 0x81, 0x61, 0xC3]
    decode bytes = .ok (.map [("a", .bool true)]) ∧ normalise bytes = .ok b ∧ normalise b = .ok b := by
  intro bytes b
  have ha : SpellsText "a" [0x81, 0x61] := .utf8 (.tiny rfl (by decide))
  have hint : Derives 255 [0xC9, 0x00, 0x07] (.value (.int 7)) :=
    .int (.wide (by decide : ((0xC9 : UInt8), 2) ∈ _) (by decide) (by decide))
  have hentries := Derives.andEntry ha hint (.andEntry ha (.bool true) .noEntry)
  have hdecode : decode bytes = .ok (.map [("a", .bool true)]) :=
    decode_eq_ok_iff.mpr ⟨_, [0x01], rfl, .mapStream hentries⟩
  obtain ⟨b', hencode, -, hbytes, hnormal, -⟩ := normal_form_comes_back bytes _ (by decide) hdecode
  cases hencode
  exact ⟨hdecode, hbytes, hnormal⟩

end BoltClient.PackStream
