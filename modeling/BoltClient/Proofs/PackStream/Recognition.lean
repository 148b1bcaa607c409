import BoltClient.Proofs.PackStream.Finding
import BoltClient.Proofs.PackStream.Parsing

namespace BoltClient.PackStream

open Reader

def Marker.Stands (b : UInt8) : Marker → Prop
  | .null => b = 0xC0
  | .bool v => b = if v then 0xC3 else 0xC2
  | .tinyInt i => (-16 ≤ i.toInt ∧ i.toInt < 128) ∧ b = UInt8.ofNat (i.toInt % 256).toNat
  | .int width => (b, width) ∈ [((0xC8 : UInt8), 1), (0xC9, 2), (0xCA, 4), (0xCB, 8)]
  | .float => b = 0xC1
  | .sized kind (.inMarker n) => n < 16 ∧ kind.tiny.map (· ||| UInt8.ofNat n) = some b
  | .sized kind (.inNext width) =>
    (b, width) ∈ [(kind.first, 1), (kind.first + 1, 2), (kind.first + 2, 4)] ∧
      (width = 4 → kind ≠ .struct)
  | .listStream => b = 0xD7
  | .mapStream => b = 0xDB
  | .endOfStream => b = 0xDF

instance (b : UInt8) (m : Marker) : Decidable (m.Stands b) :=
  match m with
  | .null | .float | .listStream | .mapStream | .endOfStream => inferInstanceAs (Decidable (_ = _))
  | .bool _ => inferInstanceAs (Decidable (_ = _))
  | .tinyInt _ => inferInstanceAs (Decidable (_ ∧ _))
  | .int _ => inferInstanceAs (Decidable (_ ∈ _))
  | .sized _ (.inMarker _) => inferInstanceAs (Decidable (_ ∧ _))
  | .sized _ (.inNext _) => inferInstanceAs (Decidable (_ ∧ _))

theorem Marker.stands_of_ofByte? {b : UInt8} {m : Marker} (h : ofByte? b = some m) : m.Stands b := by
  have hall : ∀ n < 256, ∀ m ∈ ofByte? (UInt8.ofNat n), m.Stands (UInt8.ofNat n) := by
    decide +kernel
  have hb := hall b.toNat b.toNat_lt
  rw [UInt8.ofNat_toNat] at hb
  exact hb m h

section

variable {b : UInt8} {kind : Sized} {i : Int64} {width : Nat}

theorem finds_size {s : Size} (h : (Marker.sized kind s).Stands b) :
    (size kind s).Finds fun x n => Announces kind n (b :: x) := by
  cases s with
  | inMarker n =>
    obtain ⟨hsmall, hmap⟩ := h
    obtain ⟨base, hknown, rfl⟩ := Option.map_eq_some_iff.mp hmap
    exact finds_pure (.tiny hknown hsmall)
  | inNext width =>
    obtain ⟨hform, hfour⟩ := h
    refine (finds_number width).bind fun x n hx => ?_
    obtain ⟨rfl, hbound⟩ := hx
    by_cases hn : n < 0x80000000
    · rw [if_pos hn]
      apply finds_pure
      rw [List.append_nil]
      simp only [List.mem_cons, Prod.mk.injEq, List.not_mem_nil, or_false] at hform
      obtain ⟨rfl, rfl⟩ | ⟨rfl, rfl⟩ | ⟨rfl, rfl⟩ := hform
      · exact .one hbound
      · exact .two hbound
      · exact .four (hfour rfl) hn
    · rw [if_neg hn]
      exact finds_throw _

theorem spellsInt_of_tinyInt (h : (Marker.tinyInt i).Stands b) : SpellsInt i [b] := by
  obtain ⟨⟨hlow, hhigh⟩, rfl⟩ := h
  have hbyte : Bytes.ofInt 1 i.toInt = [UInt8.ofNat (i.toInt % 256).toNat] := by
    simp [Bytes.ofInt, Bytes.ofNat, Bytes.bound]
  rw [← hbyte]
  exact .tiny hlow hhigh

theorem finds_int (h : (Marker.int width).Stands b) :
    (take width).Finds fun x taken => SpellsInt (Int64.ofInt (Bytes.toInt taken)) (b :: x) := by
  refine (finds_take width).mono fun x taken hx => ?_
  obtain ⟨rfl, rfl⟩ := hx
  have hbound : Bytes.bound x.length ≤ 2 ^ 64 := by
    have hwidth : x.length ∈ [1, 2, 4, 8] := by
      simp only [Marker.Stands, List.mem_cons, Prod.mk.injEq, List.not_mem_nil, or_false] at h ⊢
      tauto
    generalize x.length = width at hwidth
    revert width
    decide
  obtain ⟨hlow, hhigh⟩ := Bytes.toInt_range x
  have hvalue : (Int64.ofInt (Bytes.toInt x)).toInt = Bytes.toInt x :=
    Int64.toInt_ofInt_of_le (by omega) (by omega)
  rw [← hvalue] at hlow hhigh
  have hwide := SpellsInt.wide h hlow hhigh
  rwa [hvalue, Bytes.ofInt_toInt] at hwide

end

section

variable {room : Nat}

/-- An item is a value that is spelled, or the end of a stream. -/
def Reader.IsItem (room : Nat) (x : List UInt8) : Option Value → Prop
  | some v => Derives room x (.value v)
  | none => x = [0xDF]

/-- A name and its value stand in front of entries, or the end of a stream stands there. -/
def Reader.IsEntry (room : Nat) (x : List UInt8) (named : String × Value) : Prop :=
  ∃ y z, x = y ++ z ∧ SpellsText named.1 y ∧ Derives room z (.value named.2)

/-- What a container of this kind is spelled by, behind its announcement. -/
def Reader.Container.IsIn (room : Nat) (x : List UInt8) (v : Value) : Container → Prop
  | .list n => ∃ vs, v = .list vs ∧ vs.length = n ∧ Derives room x (.values vs)
  | .map n => ∃ es, v = .map (Entries.putAll [] es) ∧ es.length = n ∧ Derives room x (.entries es)
  | .struct n => ∃ tag vs y, v = .struct tag vs ∧ x = tag :: y ∧ vs.length = n ∧
      Derives room y (.values vs)
  | .listStream => ∃ vs y, v = .list vs ∧ x = y ++ [0xDF] ∧ Derives room y (.values vs)
  | .mapStream => ∃ es y, v = .map (Entries.putAll [] es) ∧ x = y ++ [0xDF] ∧
      Derives room y (.entries es)

variable {one : Reader (Option Value)}

theorem finds_required (h : one.Finds (IsItem room)) :
    (required one).Finds fun x v => Derives room x (.value v) := by
  refine h.bind fun x a ha => ?_
  cases a with
  | none => exact finds_throw _
  | some v => exact finds_pure (by simpa [IsItem] using ha)

/-- A text among the values is spelled as a text. -/
theorem Derives.spellsText {x : List UInt8} {s : String} (h : Derives room x (.value (.text s))) :
    SpellsText s x := by
  cases h with
  | text spells => exact spells

theorem finds_key (h : one.Finds (IsItem room)) :
    (key one).Finds fun x name => SpellsText name x := by
  refine (finds_required h).bind fun x v hv => ?_
  cases v with
  | text s => exact finds_pure (by simpa using hv.spellsText)
  | _ => exact finds_throw _

theorem finds_entry (h : one.Finds (IsItem room)) : (entry one).Finds (IsEntry room) := by
  refine (finds_key h).bind fun y name hname => ?_
  exact (finds_required h).thenPure fun z v hv => ⟨y, z, rfl, hname, hv⟩

theorem finds_entryOrEnd (h : one.Finds (IsItem room)) :
    (entryOrEnd one).Finds fun x named? => named?.elim (x = [0xDF]) (IsEntry room x) := by
  refine h.bind fun y a ha => ?_
  cases a with
  | none => exact finds_pure (by simpa [IsItem] using ha)
  | some v =>
    cases v with
    | text name =>
      refine (finds_required h).thenPure fun z v hv => ?_
      exact ⟨y, z, rfl, Derives.spellsText ha, hv⟩
    | _ => exact finds_throw _

theorem finds_contents (h : one.Finds (IsItem room)) (c : Container) :
    (contents one c).Finds fun x v => c.IsIn room x v := by
  let Values (x : List UInt8) (vs : List Value) := Derives room x (.values vs)
  let Names (x : List UInt8) (es : List (String × Value)) := Derives room x (.entries es)
  have andEntry {x y named es} (hnamed : IsEntry room x named) (hes : Names y es) :
      Names (x ++ y) (named :: es) := by
    obtain ⟨_, _, rfl, hname, hvalue⟩ := hnamed
    exact .andEntry hname hvalue hes
  have hvalues (n : Nat) : (times (required one) [] n).Finds fun x vs => vs.length = n ∧ Values x vs :=
    (finds_times Values (finds_required h) .noValue .andValue n []).mono fun x vs hx => by simpa using hx
  cases c with
  | list n => exact (hvalues n).thenPure fun x vs hx => ⟨vs, rfl, hx⟩
  | map n =>
    refine (finds_times Names (finds_entry h) .noEntry andEntry n []).thenPure fun x es hx => ?_
    obtain ⟨_, rfl, hlen, hrow⟩ := hx
    exact ⟨es, congrArg _ (Entries.ofPairs_eq_putAll es), hlen, hrow⟩
  | struct n =>
    refine finds_byte.bind fun x tag hx => (hvalues n).thenPure fun y vs hy => ?_
    subst hx
    exact ⟨tag, vs, y, rfl, rfl, hy⟩
  | listStream =>
    have hitem : one.Finds fun x a => a.elim (x = [0xDF]) fun v => Derives room x (.value v) :=
      h.mono fun x a ha => by cases a <;> exact ha
    refine (finds_untilNone Values hitem .noValue .andValue []).thenPure fun x vs hx => ?_
    obtain ⟨_, y, rfl, rfl, hrow⟩ := hx
    exact ⟨vs, y, rfl, rfl, hrow⟩
  | mapStream =>
    refine (finds_untilNone Names (finds_entryOrEnd h) .noEntry andEntry []).thenPure fun x es hx => ?_
    obtain ⟨_, y, rfl, rfl, hrow⟩ := hx
    exact ⟨es, y, congrArg _ (Entries.ofPairs_eq_putAll es), rfl, hrow⟩

/-- What the reader of an item gives is spelled, as soon as this holds of what stands in containers. -/
theorem finds_itemWith {inside : Option (Reader (Option Value))}
    (h : ∀ one ∈ inside, ∃ below, room = below + 1 ∧ one.Finds (IsItem below)) :
    (itemWith inside).Finds (IsItem room) := by
  have container (head : List UInt8) (c : Container)
      (hc : ∀ below x v, c.IsIn below x v → Derives (below + 1) (head ++ x) (.value v)) :
      (itemWith.container inside c).Finds fun x => IsItem room (head ++ x) := by
    cases inside with
    | none => exact finds_throw _
    | some one =>
      obtain ⟨below, rfl, hone⟩ := h one rfl
      exact (finds_contents hone c).thenPure fun x v hx => hc below x v hx
  refine finds_byte.bind fun x b hx => ?_
  subst hx
  cases hm : Marker.ofByte? b with
  | none => exact finds_throw _
  | some m =>
    have hb := Marker.stands_of_ofByte? hm
    cases m with
    | null => exact finds_pure (by cases hb; exact .null)
    | bool v => exact finds_pure (by cases hb; exact .bool v)
    | tinyInt i => exact finds_pure (Derives.int (spellsInt_of_tinyInt hb))
    | int width => exact (finds_int hb).thenPure fun x taken hx => Derives.int hx
    | float =>
      refine (finds_number 8).thenPure fun x n hx => ?_
      obtain ⟨rfl, hn⟩ := hx
      cases hb
      have hbits : (UInt64.ofNat n).toNat = n := UInt64.toNat_ofNat_of_lt hn
      have hfloat : Derives room _ (.value (.float (UInt64.ofNat n))) := .float _
      rwa [hbits] at hfloat
    | listStream =>
      cases hb
      refine container [0xD7] .listStream fun below x v hx => ?_
      obtain ⟨vs, y, rfl, rfl, hvs⟩ := hx
      exact .listStream hvs
    | mapStream =>
      cases hb
      refine container [0xDB] .mapStream fun below x v hx => ?_
      obtain ⟨es, y, rfl, rfl, hes⟩ := hx
      exact .mapStream hes
    | endOfStream => exact finds_pure (by cases hb; rfl)
    | sized kind s =>
      cases kind with
      | bytes =>
        refine (finds_size hb).bind fun x n hn => (finds_take n).thenPure fun y taken hy => ?_
        obtain ⟨rfl, rfl⟩ := hy
        exact .bytes hn
      | text =>
        refine (finds_size hb).bind fun x n hn => (finds_text n).thenPure fun y t hy => ?_
        obtain ⟨rfl, rfl⟩ := hy
        exact .text (.utf8 hn)
      | list =>
        refine (finds_size hb).bind fun x n hn => container (b :: x) (.list n) fun below y v hy => ?_
        obtain ⟨vs, rfl, rfl, hvs⟩ := hy
        exact .list hn hvs
      | map =>
        refine (finds_size hb).bind fun x n hn => container (b :: x) (.map n) fun below y v hy => ?_
        obtain ⟨es, rfl, rfl, hes⟩ := hy
        exact .map hn hes
      | struct =>
        refine (finds_size hb).bind fun x n hn => container (b :: x) (.struct n) fun below y v hy => ?_
        obtain ⟨tag, vs, y, rfl, rfl, rfl, hvs⟩ := hy
        exact .struct tag hn hvs

theorem finds_item (room : Nat) : (item room).Finds (IsItem room) := by
  induction room with
  | zero =>
    have hflat : (itemWith none).Finds (IsItem 0) := finds_itemWith (by simp)
    exact hflat
  | succ room ih =>
    have hnested : (itemWith (some (item room))).Finds (IsItem (room + 1)) :=
      finds_itemWith (by simpa using ih)
    exact hnested

end

/-- A value is read from the front of bytes exactly when a spelling of it stands there. -/
theorem run_value_iff {bytes rest : List UInt8} {v : Value} :
    Reader.value.run.run bytes = (.ok v, rest)
      ↔ ∃ x, bytes = x ++ rest ∧ Derives maxNesting x (.value v) := by
  constructor
  · exact finds_required (finds_item maxNesting) bytes v rest
  · rintro ⟨x, rfl, hx⟩
    exact yields_required hx.comes rest

/-- The first reading of bytes gives a value and takes `n` bytes exactly when these `n` bytes spell the
value, and there is at most one such value and one such `n`. -/
theorem decode_iff_derives (bytes : List UInt8) :
    (∀ v n, ((Decoder.ofBytes bytes).decode.1 = .ok v ∧ (Decoder.ofBytes bytes).decode.2.position = n)
      ↔ n ≤ bytes.length ∧ Derives 256 (bytes.take n) (.value v)) ∧
    ∀ v n v' n', n ≤ bytes.length ∧ Derives 256 (bytes.take n) (.value v) →
      n' ≤ bytes.length ∧ Derives 256 (bytes.take n') (.value v') → v = v' ∧ n = n' := by
  have hiff (v : Value) (n : Nat) : ((Decoder.ofBytes bytes).decode.1 = .ok v ∧
      (Decoder.ofBytes bytes).decode.2.position = n)
      ↔ n ≤ bytes.length ∧ Derives 256 (bytes.take n) (.value v) := by
    rcases hrun : Reader.value.run.run bytes with ⟨outcome, rest⟩
    have hdecode : (Decoder.ofBytes bytes).decode
        = (outcome, ⟨bytes.length - rest.length, rest⟩) := by
      simp [Decoder.decode, Decoder.ofBytes, hrun]
    rw [hdecode]
    constructor
    · rintro ⟨rfl, rfl⟩
      obtain ⟨x, rfl, hx⟩ := run_value_iff.mp hrun
      simpa [maxNesting] using hx
    · rintro ⟨hn, hx⟩
      have hvalue := run_value_iff.mpr ⟨_, (List.take_append_drop n bytes).symm, hx⟩
      rw [hrun] at hvalue
      cases hvalue
      refine ⟨rfl, ?_⟩
      simp only [List.length_drop]
      omega
  refine ⟨hiff, fun v n v' n' h h' => ?_⟩
  obtain ⟨hv, hn⟩ := (hiff v n).mpr h
  obtain ⟨hv', hn'⟩ := (hiff v' n').mpr h'
  rw [hv] at hv'
  exact ⟨Except.ok.inj hv', hn.symm.trans hn'⟩

/-- A stream with an integer and a list wider than needed, a name that comes twice, and a byte behind. -/
theorem streamed_map_derives :
    let bytes : List UInt8 :=
      [0xDB, 0x81, 0x61, 0xC9, 0x00, 0x07, 0x81, 0x62, 0xD5, 0x00, 0x00, 0x81, 0x61, 0xC3, 0xDF, 0x01]
    let v : Value := .map [("a", .bool true), ("b", .list [])]
    ((Decoder.ofBytes bytes).decode.1 = .ok v ∧ (Decoder.ofBytes bytes).decode.2.position = 15) ∧
      ∀ v' n', n' ≤ bytes.length ∧ Derives 256 (bytes.take n') (.value v') → v = v' ∧ 15 = n' := by
  intro bytes v
  have ha : SpellsText "a" [0x81, 0x61] := .utf8 (.tiny rfl (by decide))
  have hb : SpellsText "b" [0x81, 0x62] := .utf8 (.tiny rfl (by decide))
  have hint : Derives 255 [0xC9, 0x00, 0x07] (.value (.int 7)) :=
    .int (.wide (by decide : ((0xC9 : UInt8), 2) ∈ _) (by decide) (by decide))
  have hlist : Derives 255 [0xD5, 0x00, 0x00] (.value (.list [])) := .list (.two (by decide)) .noValue
  have hspelled : 15 ≤ bytes.length ∧ Derives 256 (bytes.take 15) (.value v) :=
    ⟨by decide, .mapStream
      (.andEntry ha hint (.andEntry hb hlist (.andEntry ha (.bool true) .noEntry)))⟩
  obtain ⟨hiff, hunique⟩ := decode_iff_derives bytes
  exact ⟨(hiff v 15).mpr hspelled, fun v' n' h => hunique v 15 v' n' hspelled h⟩

end BoltClient.PackStream
