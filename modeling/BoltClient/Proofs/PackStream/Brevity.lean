import BoltClient.Proofs.PackStream.Recognition

namespace BoltClient.PackStream

open Reader

/-- The bytes of the shortest announcement of `n` parts. -/
def headerNeed (kind : Sized) (n : Nat) : Nat :=
  if kind.tiny.isSome ∧ n < 16 then 1
  else if n < 0x100 then 2
  else if n < 0x10000 then 3
  else 5

def textNeed (s : String) : Nat :=
  headerNeed .text (Text.Utf8.encode s).length + (Text.Utf8.encode s).length

mutual

def need : Value → Nat
  | .null | .bool _ => 1
  | .int i => (encodeInt i).length
  | .float _ => 9
  | .bytes b => headerNeed .bytes b.length + b.length
  | .text s => textNeed s
  | .list xs => headerNeed .list xs.length + needOfAll xs
  | .map es => headerNeed .map es.length + needOfEntries es
  | .struct _ fields => headerNeed .struct fields.length + (1 + needOfAll fields)

def needOfAll : List Value → Nat
  | [] => 0
  | x :: xs => need x + needOfAll xs

def needOfEntries : List (String × Value) → Nat
  | [] => 0
  | (name, x) :: rest => textNeed name + (need x + needOfEntries rest)

end

section

variable {kind : Sized} {n m : Nat} {x h : List UInt8}

theorem length_header (hh : header kind n = .ok h) : h.length = headerNeed kind n := by
  have wide (hw : header.wide kind n = .ok h) :
      h.length = if n < 0x100 then 2 else if n < 0x10000 then 3 else 5 := by
    unfold header.wide at hw
    split_ifs at hw ⊢ <;> cases hw <;> simp
  unfold header at hh
  unfold headerNeed
  split at hh
  · next tiny htiny =>
    split_ifs at hh with hn
    · cases hh
      simp [htiny, hn]
    · simp [htiny, hn, wide hh]
  · next hnone => simp [hnone, wide hh]

theorem Announces.headerNeed_le (ha : Announces kind n x) : headerNeed kind n ≤ x.length := by
  unfold headerNeed
  cases ha with
  | tiny known small => simp [known, small]
  | one small | two small | four _ small =>
    simp only [List.length_cons, Bytes.length_ofNat]
    split_ifs <;> omega

theorem headerNeed_mono (hmn : m ≤ n) : headerNeed kind m ≤ headerNeed kind n := by
  unfold headerNeed
  cases kind.tiny.isSome <;> simp only [Bool.false_eq_true, true_and, false_and, if_false] <;>
    split_ifs <;> omega

theorem SpellsInt.length_encodeInt_le {i : Int64} (hi : SpellsInt i x) :
    (encodeInt i).length ≤ x.length := by
  unfold encodeInt
  cases hi with
  | tiny low high => simp [low, high]
  | wide known low high =>
    simp only [List.mem_cons, Prod.mk.injEq, List.not_mem_nil, or_false] at known
    obtain ⟨rfl, rfl⟩ | ⟨rfl, rfl⟩ | ⟨rfl, rfl⟩ | ⟨rfl, rfl⟩ := known
    all_goals
      simp only [Bytes.bound] at low high
      dsimp only
      split_ifs <;> simp only [List.length_cons, Bytes.length_ofInt] <;> omega

end

theorem length_encodeText {s : String} {b : List UInt8} (h : encodeText s = .ok b) :
    b.length = textNeed s := by
  rw [encodeText_eq_joined] at h
  obtain ⟨_, _, hh, hcontent, rfl⟩ := joined_eq_ok_iff.mp h
  cases hcontent
  rw [List.length_append, length_header hh, textNeed]

mutual

theorem length_spell (v : Value) {b : List UInt8} (h : spell v = .ok b) : b.length = need v := by
  cases v with
  | null | bool | int =>
    cases h
    rfl
  | float bits =>
    cases h
    simp [need]
  | bytes content =>
    obtain ⟨_, _, hh, hcontent, rfl⟩ := joined_eq_ok_iff.mp h
    cases hcontent
    rw [List.length_append, length_header hh, need]
  | text s => rw [length_encodeText h, need]
  | list xs =>
    obtain ⟨_, _, hh, hxs, rfl⟩ := joined_eq_ok_iff.mp h
    rw [List.length_append, length_header hh, length_spellAll xs hxs, need]
  | map es =>
    obtain ⟨_, _, hh, hes, rfl⟩ := joined_eq_ok_iff.mp h
    rw [List.length_append, length_header hh, length_spellEntries es hes, need]
  | struct tag fields =>
    obtain ⟨_, _, hh, hinner, rfl⟩ := joined_eq_ok_iff.mp h
    obtain ⟨_, _, htag, hfields, rfl⟩ := joined_eq_ok_iff.mp hinner
    cases htag
    rw [List.length_append, List.length_append, length_header hh, length_spellAll fields hfields, need,
      List.length_singleton]

theorem length_spellAll (xs : List Value) {b : List UInt8} (h : spellAll xs = .ok b) :
    b.length = needOfAll xs := by
  cases xs with
  | nil =>
    cases h
    rfl
  | cons x xs =>
    obtain ⟨_, _, hx, hxs, rfl⟩ := joined_eq_ok_iff.mp h
    rw [List.length_append, length_spell x hx, length_spellAll xs hxs, needOfAll]

theorem length_spellEntries (es : List (String × Value)) {b : List UInt8} (h : spellEntries es = .ok b) :
    b.length = needOfEntries es := by
  cases es with
  | nil =>
    cases h
    rfl
  | cons named rest =>
    obtain ⟨name, x⟩ := named
    obtain ⟨_, _, hname, hinner, rfl⟩ := joined_eq_ok_iff.mp h
    obtain ⟨_, _, hx, hrest, rfl⟩ := joined_eq_ok_iff.mp hinner
    rw [List.length_append, List.length_append, length_encodeText hname, length_spell x hx,
      length_spellEntries rest hrest, needOfEntries]

end

theorem needOfEntries_put_le (name : String) (v : Value) (es : List (String × Value)) :
    needOfEntries (Entries.put name v es) ≤ needOfEntries es + (textNeed name + need v) := by
  induction es with
  | nil => simp [Entries.put, needOfEntries]
  | cons first rest ih =>
    obtain ⟨k, w⟩ := first
    rw [Entries.put]
    split
    · next hk =>
      subst hk
      simp only [needOfEntries]
      omega
    · simp only [needOfEntries]
      omega

theorem needOfEntries_putAll_le (pairs es : List (String × Value)) :
    needOfEntries (Entries.putAll es pairs) ≤ needOfEntries es + needOfEntries pairs := by
  induction pairs generalizing es with
  | nil => exact Nat.le_refl _
  | cons pair rest ih =>
    obtain ⟨name, v⟩ := pair
    have hput := needOfEntries_put_le name v es
    have hrest := ih (Entries.put name v es)
    rw [needOfEntries]
    exact Nat.le_trans hrest (by omega)

/-- A map needs no more than the pairs that it was put together from. -/
theorem need_map_putAll_le (es : List (String × Value)) :
    need (.map (Entries.putAll [] es)) ≤ headerNeed .map es.length + needOfEntries es := by
  have hlength := Entries.length_putAll_le es []
  have hentries := needOfEntries_putAll_le es []
  rw [List.length_nil, Nat.zero_add] at hlength
  rw [needOfEntries, Nat.zero_add] at hentries
  rw [need]
  exact Nat.add_le_add (headerNeed_mono hlength) hentries

namespace Reader

/-- The bytes begin with the marker of a list or map of unknown length. -/
def OpensStream (bytes : List UInt8) : Prop := bytes.head? = some 0xD7 ∨ bytes.head? = some 0xDB

instance (bytes : List UInt8) : Decidable (OpensStream bytes) := inferInstanceAs (Decidable (_ ∨ _))

/-- The same where no stream is opened, and an error where one is. -/
def unlessStream {α : Type} (one : Reader α) : Reader α := fun bytes =>
  if OpensStream bytes then (.error (.unknownMarker (bytes.headD 0)), bytes.tail) else one bytes

/-- A value or the end of a stream, read in the same way, that stops wherever a stream is opened. -/
def sizedItem : Nat → Reader (Option Value)
  | 0 => unlessStream (itemWith none)
  | room + 1 => unlessStream (itemWith (some (sizedItem room)))

def sizedValue : Reader Value := required (sizedItem maxNesting)

theorem finds_unlessStream {α : Type} {P : List UInt8 → α → Prop} {f : UInt8 → Reader α}
    (h : ∀ b, ¬OpensStream [b] → (f b).Finds fun x => P (b :: x)) :
    (unlessStream (byte >>= f)).Finds P := by
  intro bytes a rest hrun
  change (if OpensStream bytes then _ else (byte >>= f).run.run bytes) = _ at hrun
  split_ifs at hrun with hopens
  · cases hrun
  · rw [run_bind] at hrun
    cases bytes with
    | nil => cases hrun
    | cons b tail =>
      obtain ⟨x, rfl, hx⟩ := h b hopens tail a rest hrun
      exact ⟨b :: x, rfl, hx⟩

end Reader

/-- No list or map of unknown length is opened when a value is read from the bytes: to stop where one is
opened makes no difference. -/
def OpensNoStream (bytes : List UInt8) : Prop := sizedValue.run.run bytes = value.run.run bytes

def Enough (x : List UInt8) : Option Value → Prop
  | some v => need v ≤ x.length
  | none => True

section

variable {one : Reader (Option Value)}

theorem enough_required (h : one.Finds Enough) : (required one).Finds fun x v => need v ≤ x.length := by
  refine h.bind fun x a ha => ?_
  cases a with
  | none => exact finds_throw _
  | some v => exact finds_pure (by simpa [Enough] using ha)

theorem enough_key (h : one.Finds Enough) : (key one).Finds fun x name => textNeed name ≤ x.length := by
  refine (enough_required h).bind fun x v hv => ?_
  cases v with
  | text s => exact finds_pure (by simpa [need] using hv)
  | _ => exact finds_throw _

theorem enough_entry (h : one.Finds Enough) :
    (entry one).Finds fun x named => textNeed named.1 + need named.2 ≤ x.length := by
  refine (enough_key h).bind fun x name hname => (enough_required h).thenPure fun y v hv => ?_
  rw [List.length_append]
  exact Nat.add_le_add hname hv

theorem enough_values (h : one.Finds Enough) (n : Nat) :
    (times (required one) [] n).Finds fun x vs => vs.length = n ∧ needOfAll vs ≤ x.length := by
  refine (finds_times (fun x vs => needOfAll vs ≤ x.length) (enough_required h) (Nat.le_refl _)
    (fun hv hvs => ?_) n []).mono fun x vs hx => by simpa using hx
  rw [needOfAll, List.length_append]
  exact Nat.add_le_add hv hvs

theorem enough_entries (h : one.Finds Enough) (n : Nat) :
    (times (entry one) [] n).Finds fun x es => es.length = n ∧ needOfEntries es ≤ x.length := by
  refine (finds_times (fun x es => needOfEntries es ≤ x.length) (enough_entry h) (Nat.le_refl _)
    (fun hnamed hes => ?_) n []).mono fun x es hx => by simpa using hx
  rw [needOfEntries, List.length_append]
  omega

/-- What is inside a container of known length leaves enough for its announcement. -/
theorem enough_contents (h : one.Finds Enough) {c : Container} {kind : Sized} {n : Nat}
    (hc : c.sized? = some (kind, n)) :
    (contents one c).Finds fun x v => need v ≤ headerNeed kind n + x.length := by
  cases c with
  | listStream | mapStream => cases hc
  | list n =>
    cases hc
    refine (enough_values h n).thenPure fun x vs hx => ?_
    obtain ⟨rfl, hvs⟩ := hx
    rw [need]
    exact Nat.add_le_add_left hvs _
  | map n =>
    cases hc
    refine (enough_entries h n).thenPure fun x es hx => ?_
    obtain ⟨rfl, hes⟩ := hx
    rw [Entries.ofPairs_eq_putAll]
    exact Nat.le_trans (need_map_putAll_le es) (Nat.add_le_add_left hes _)
  | struct n =>
    cases hc
    refine finds_byte.bind fun x tag hx => (enough_values h n).thenPure fun y vs hy => ?_
    obtain ⟨rfl, hvs⟩ := hy
    subst hx
    rw [need, List.length_append]
    exact Nat.add_le_add_left (Nat.add_le_add_left hvs 1) _

theorem enough_unlessStream {inside : Option (Reader (Option Value))}
    (h : ∀ one ∈ inside, one.Finds Enough) : (unlessStream (itemWith inside)).Finds Enough := by
  have container {c : Container} {kind : Sized} {n : Nat} (hc : c.sized? = some (kind, n))
      {head : List UInt8} (hhead : Announces kind n head) :
      (itemWith.container inside c).Finds fun x => Enough (head ++ x) := by
    cases inside with
    | none => exact finds_throw _
    | some one =>
      refine (enough_contents (h one rfl) hc).thenPure fun x v hx => ?_
      have hneeded := hhead.headerNeed_le
      simp only [Enough, List.length_append]
      omega
  refine finds_unlessStream fun b hopens => ?_
  cases hm : Marker.ofByte? b with
  | none => exact finds_throw _
  | some m =>
    have hb := Marker.stands_of_ofByte? hm
    cases m with
    | null | bool | endOfStream => exact finds_pure (by simp [Enough, need])
    | tinyInt i => exact finds_pure (spellsInt_of_tinyInt hb).length_encodeInt_le
    | int width => exact (finds_int hb).thenPure fun x taken hx => hx.length_encodeInt_le
    | float =>
      refine (finds_number 8).thenPure fun x n hx => ?_
      obtain ⟨rfl, -⟩ := hx
      simp [Enough, need]
    -- a stream would have been opened
    | listStream => exact absurd (.inl (congrArg some hb)) hopens
    | mapStream => exact absurd (.inr (congrArg some hb)) hopens
    | sized kind s =>
      cases kind with
      | bytes =>
        refine (finds_size hb).bind fun x n hn => (finds_take n).thenPure fun y taken hy => ?_
        obtain ⟨rfl, rfl⟩ := hy
        have hneeded := hn.headerNeed_le
        simp only [Enough, need, List.length_cons, List.length_append] at hneeded ⊢
        omega
      | text =>
        refine (finds_size hb).bind fun x n hn => (finds_text n).thenPure fun y t hy => ?_
        obtain ⟨rfl, rfl⟩ := hy
        have hneeded := hn.headerNeed_le
        simp only [Enough, need, textNeed, List.length_cons, List.length_append] at hneeded ⊢
        omega
      | list => exact (finds_size hb).bind fun x n hn => container (c := .list n) rfl hn
      | map => exact (finds_size hb).bind fun x n hn => container (c := .map n) rfl hn
      | struct => exact (finds_size hb).bind fun x n hn => container (c := .struct n) rfl hn

end

theorem enough_sizedItem (room : Nat) : (sizedItem room).Finds Enough := by
  induction room with
  | zero =>
    have hflat : (unlessStream (itemWith none)).Finds Enough := enough_unlessStream (by simp)
    exact hflat
  | succ room ih =>
    have hnested : (unlessStream (itemWith (some (sizedItem room)))).Finds Enough :=
      enough_unlessStream (by simpa using ih)
    exact hnested

/-- Of all bytes that are read as a value and open no stream, the written ones are the fewest. -/
theorem length_encode_le (v : Value) (b s : List UInt8) (hencode : encode v = .ok b)
    (hdecode : (Decoder.ofBytes s).decode = (.ok v, ⟨s.length, []⟩)) (hsized : OpensNoStream s) :
    b.length ≤ s.length := by
  have hvalue : value.run.run s = (.ok v, []) := by
    rcases hrun : value.run.run s with ⟨outcome, rest⟩
    rw [decode_ofBytes hrun, Prod.mk.injEq, Decoder.mk.injEq] at hdecode
    obtain ⟨rfl, -, rfl⟩ := hdecode
    rfl
  obtain ⟨x, hx, hneeded⟩ := enough_required (enough_sizedItem maxNesting) s v [] (hsized.trans hvalue)
  rw [encode_eq_spell] at hencode
  rw [length_spell v hencode, hx, List.append_nil]
  exact hneeded

/-- A map of two pairs with one name, the size of the map and the integers in more bytes than they need. -/
theorem length_encode_le_wide_map :
    let s : List UInt8 := [0xD8, 0x02, 0x81, 0x61, 0xC8, 0x07, 0x81, 0x61, 0xC9, 0x00, 0x07]
    let v : Value := .map [("a", .int 7)]
    let b : List UInt8 := [0xA1, 0x81, 0x61, 0x07]
    encode v = .ok b ∧ (Decoder.ofBytes s).decode = (.ok v, ⟨11, []⟩) ∧ OpensNoStream s ∧
      b.length ≤ s.length := by
  intro s v b
  have hencode : encode v = .ok b := by rfl
  have ha : SpellsText "a" [0x81, 0x61] := .utf8 (.tiny rfl (by decide))
  have hone : Derives 255 [0xC8, 0x07] (.value (.int 7)) :=
    .int (.wide (by decide : ((0xC8 : UInt8), 1) ∈ _) (by decide) (by decide))
  have htwo : Derives 255 [0xC9, 0x00, 0x07] (.value (.int 7)) :=
    .int (.wide (by decide : ((0xC9 : UInt8), 2) ∈ _) (by decide) (by decide))
  have hentries := Derives.andEntry ha hone (.andEntry ha htwo .noEntry)
  have hmap : Derives 256 s (.value v) :=
    @Derives.map 255 [0xD8, 0x02] _ [("a", .int 7), ("a", .int 7)] (.one (by decide)) hentries
  have hdecode : (Decoder.ofBytes s).decode = (.ok v, ⟨11, []⟩) :=
    decode_ofBytes (run_value_iff.mpr ⟨s, rfl, hmap⟩)
  have hsized : OpensNoStream s := by rfl
  exact ⟨hencode, hdecode, hsized, length_encode_le v b s hencode hdecode hsized⟩

end BoltClient.PackStream
