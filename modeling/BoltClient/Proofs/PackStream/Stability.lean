import BoltClient.Proofs.PackStream.Finding

namespace BoltClient.PackStream

namespace Reader

variable {α β : Type} {r : Reader α} {f : α → Reader β} {one : Reader (Option Value)}

/-- More bytes behind those read change nothing: not what was read, and no error but the one of bytes that
end too early. -/
structure Firm (r : Reader α) : Prop where
  found : ∀ bytes a rest, r.run.run bytes = (.ok a, rest) →
    ∀ more, r.run.run (bytes ++ more) = (.ok a, rest ++ more)
  failed : ∀ bytes e rest, r.run.run bytes = (.error e, rest) → e ≠ .unexpectedEnd →
    ∀ more, (r.run.run (bytes ++ more)).1 = .error e

theorem firm_pure (a : α) : Firm (pure a) where
  found := by
    intro bytes _ rest hrun more
    cases hrun
    rfl
  failed := by
    intro bytes e rest hrun
    cases hrun

theorem firm_throw (e : Error) : Firm (throw e : Reader α) where
  found := by
    intro bytes a rest hrun
    cases hrun
  failed := by
    intro bytes _ rest hrun _ more
    cases hrun
    rfl

theorem Firm.bind (hr : r.Firm) (hf : ∀ a, (f a).Firm) : (r >>= f).Firm where
  found := by
    intro bytes b rest hrun more
    rw [run_bind] at hrun ⊢
    split at hrun
    · next a middle hfirst =>
      rw [hr.found bytes a middle hfirst more]
      exact (hf a).found middle b rest hrun more
    · cases hrun
  failed := by
    intro bytes e rest hrun he more
    rw [run_bind] at hrun
    split at hrun
    · next a middle hfirst =>
      rw [run_bind, hr.found bytes a middle hfirst more]
      exact (hf a).failed middle e rest hrun he more
    · next e' middle hfirst =>
      cases hrun
      exact run_bind_of_error (hr.failed bytes e rest hfirst he more) f

theorem Firm.thenPure {g : α → β} (hr : r.Firm) : Firm (r >>= fun a => pure (g a)) :=
  hr.bind fun a => firm_pure (g a)

/-- A reader that needed bytes from behind the cut runs out of bytes at the cut. -/
theorem Firm.cut (hr : r.Firm) {front back rest : List UInt8} {a : α}
    (hrun : r.run.run (front ++ back) = (.ok a, rest)) (hneeded : rest.length < back.length) :
    (r.run.run front).1 = .error .unexpectedEnd := by
  rcases hfront : r.run.run front with ⟨outcome, left⟩
  -- whatever the front alone gives, all the bytes give
  cases outcome with
  | ok a' =>
    have hall := hr.found front a' left hfront back
    rw [hrun] at hall
    cases hall
    rw [List.length_append] at hneeded
    omega
  | error e =>
    by_cases he : e = .unexpectedEnd
    · rw [he]
    · have hall := hr.failed front e left hfront he back
      rw [hrun] at hall
      cases hall

theorem firm_byte : byte.Firm where
  found := by
    intro bytes b rest hrun more
    cases bytes with
    | nil => cases hrun
    | cons b bytes =>
      cases hrun
      rfl
  failed := by
    intro bytes e rest hrun he
    cases bytes with
    | nil =>
      cases hrun
      exact absurd rfl he
    | cons b bytes => cases hrun

theorem firm_take (n : Nat) : (take n).Firm where
  found := by
    intro bytes taken rest hrun more
    obtain ⟨x, rfl, rfl, rfl⟩ := finds_take n bytes taken rest hrun
    rw [List.append_assoc]
    exact yields_take rfl (rest ++ more)
  failed := by
    intro bytes e rest hrun he
    change take n bytes = _ at hrun
    rw [take] at hrun
    split at hrun <;> cases hrun
    exact absurd rfl he

theorem firm_number (width : Nat) : (number width).Firm := (firm_take width).thenPure

theorem firm_size (kind : Sized) (s : Size) : (size kind s).Firm := by
  cases s with
  | inMarker n => exact firm_pure n
  | inNext width =>
    refine (firm_number width).bind fun n => ?_
    split
    · exact firm_pure n
    · exact firm_throw _

theorem firm_text (n : Nat) : (text n).Firm := by
  refine (firm_take n).bind fun content => ?_
  split
  · exact firm_pure _
  · exact firm_throw _

theorem Firm.times (hr : r.Firm) (done : List α) (n : Nat) : (times r done n).Firm := by
  induction n generalizing done with
  | zero => exact firm_pure _
  | succ n ih => exact hr.bind fun a => ih (a :: done)

/-- Both runs read the same parts up to the end of the stream, so they are followed side by side. -/
theorem Firm.untilNone {part : Reader (Option α)} (hpart : part.Firm) (done : List α) :
    Firm (untilNone part done) where
  found := by
    intro bytes as rest hrun more
    change Reader.untilNone part done bytes = _ at hrun
    change Reader.untilNone part done (bytes ++ more) = _
    fun_induction Reader.untilNone part done bytes with
    | case1 | case4 => cases hrun
    | case2 done bytes rest' hnone =>
      cases hrun
      have hmore : part (bytes ++ more) = _ := hpart.found _ _ _ hnone more
      rw [Reader.untilNone, hmore]
    | case3 done bytes a rest' hsome hshorter ih =>
      have hmore : part (bytes ++ more) = _ := hpart.found _ _ _ hsome more
      have hstill : (rest' ++ more).length < (bytes ++ more).length := by simpa using hshorter
      rw [Reader.untilNone, hmore]
      simp only [if_pos hstill]
      exact ih hrun
  failed := by
    intro bytes e rest hrun he more
    change Reader.untilNone part done bytes = _ at hrun
    change (Reader.untilNone part done (bytes ++ more)).1 = _
    fun_induction Reader.untilNone part done bytes with
    | case1 done bytes e' rest' herror =>
      cases hrun
      have hmore : (part (bytes ++ more)).1 = _ := hpart.failed _ _ _ herror he more
      rw [Reader.untilNone]
      generalize part (bytes ++ more) = outcome at hmore ⊢
      obtain ⟨_, _⟩ := outcome
      cases hmore
      rfl
    | case2 => cases hrun
    | case3 done bytes a rest' hsome hshorter ih =>
      have hmore : part (bytes ++ more) = _ := hpart.found _ _ _ hsome more
      have hstill : (rest' ++ more).length < (bytes ++ more).length := by simpa using hshorter
      rw [Reader.untilNone, hmore]
      simp only [if_pos hstill]
      exact ih hrun
    | case4 =>
      cases hrun
      exact absurd rfl he

theorem Firm.required (h : one.Firm) : (required one).Firm := by
  refine h.bind fun a => ?_
  cases a with
  | none => exact firm_throw _
  | some v => exact firm_pure v

theorem Firm.key (h : one.Firm) : (key one).Firm := by
  refine h.required.bind fun v => ?_
  cases v with
  | text s => exact firm_pure s
  | _ => exact firm_throw _

theorem Firm.entry (h : one.Firm) : (entry one).Firm :=
  h.key.bind fun _ => h.required.thenPure

theorem Firm.entryOrEnd (h : one.Firm) : (entryOrEnd one).Firm := by
  refine h.bind fun a => ?_
  cases a with
  | none => exact firm_pure _
  | some v =>
    cases v with
    | text name => exact h.required.thenPure
    | _ => exact firm_throw _

theorem Firm.contents (h : one.Firm) (c : Container) : (contents one c).Firm := by
  cases c with
  | list n => exact (h.required.times [] n).thenPure
  | map n => exact (h.entry.times [] n).thenPure
  | struct n => exact firm_byte.bind fun _ => (h.required.times [] n).thenPure
  | listStream => exact (h.untilNone []).thenPure
  | mapStream => exact (h.entryOrEnd.untilNone []).thenPure

theorem firm_itemWith {inside : Option (Reader (Option Value))} (h : ∀ one ∈ inside, one.Firm) :
    (itemWith inside).Firm := by
  have container (c : Container) : (itemWith.container inside c).Firm := by
    cases inside with
    | none => exact firm_throw _
    | some one => exact ((h one rfl).contents c).thenPure
  refine firm_byte.bind fun b => ?_
  cases Marker.ofByte? b with
  | none => exact firm_throw _
  | some m =>
    cases m with
    | null | bool | tinyInt | endOfStream => exact firm_pure _
    | int width => exact (firm_take width).thenPure
    | float => exact (firm_number 8).thenPure
    | listStream => exact container .listStream
    | mapStream => exact container .mapStream
    | sized kind s =>
      cases kind with
      | bytes => exact (firm_size _ s).bind fun n => (firm_take n).thenPure
      | text => exact (firm_size _ s).bind fun n => (firm_text n).thenPure
      | list => exact (firm_size _ s).bind fun n => container (.list n)
      | map => exact (firm_size _ s).bind fun n => container (.map n)
      | struct => exact (firm_size _ s).bind fun n => container (.struct n)

theorem firm_item (room : Nat) : (item room).Firm := by
  induction room with
  | zero =>
    have hflat : (itemWith none).Firm := firm_itemWith (by simp)
    exact hflat
  | succ room ih =>
    have hnested : (itemWith (some (item room))).Firm := firm_itemWith (by simpa using ih)
    exact hnested

theorem firm_value : value.Firm := (firm_item maxNesting).required

end Reader

/-- A first reading that gives a value needs all the bytes it took and none of those behind them. A first
reading that fails, unless for want of bytes, fails in the same way whatever is put behind the bytes. -/
theorem decode_firm (bytes : List UInt8) :
    (∀ v n, (Decoder.ofBytes bytes).decode.1 = .ok v → (Decoder.ofBytes bytes).decode.2.position = n →
      (∀ m < n, (Decoder.ofBytes (bytes.take m)).decode.1 = .error .unexpectedEnd) ∧
      ∀ more, (Decoder.ofBytes (bytes ++ more)).decode.1 = .ok v ∧
        (Decoder.ofBytes (bytes ++ more)).decode.2.position = n) ∧
    ∀ e, (Decoder.ofBytes bytes).decode.1 = .error e → e ≠ .unexpectedEnd →
      ∀ more, (Decoder.ofBytes (bytes ++ more)).decode.1 = .error e := by
  rcases hrun : Reader.value.run.run bytes with ⟨outcome, rest⟩
  rw [Reader.decode_ofBytes hrun]
  refine ⟨?_, ?_⟩
  · rintro v n rfl rfl
    refine ⟨fun m hm => ?_, fun more => ?_⟩
    · change m < bytes.length - rest.length at hm
      have hsplit := hrun
      rw [← List.take_append_drop m bytes] at hsplit
      exact Reader.firm_value.cut hsplit (by rw [List.length_drop]; omega)
    · rw [Reader.decode_ofBytes (Reader.firm_value.found bytes v rest hrun more)]
      refine ⟨rfl, ?_⟩
      simp only [List.length_append]
      omega
  · rintro e rfl he more
    exact Reader.firm_value.failed bytes e rest hrun he more

/-- A list of a name that is cut short, and a list whose item begins with no marker. -/
theorem list_cut_short_and_bad_list_firm :
    (∀ m < 4, (Decoder.ofBytes ([0x91, 0xD0, 0x01, 0x61, 0xDF].take m)).decode.1
      = .error .unexpectedEnd) ∧
    (Decoder.ofBytes ([0x91, 0xD0, 0x01, 0x61, 0xDF] ++ [0x07])).decode.1 = .ok (.list [.text "a"]) ∧
    (Decoder.ofBytes ([0x92, 0xC4] ++ [0x07, 0x07])).decode.1 = .error (.unknownMarker 0xC4) := by
  obtain ⟨haccepted, -⟩ := decode_firm [0x91, 0xD0, 0x01, 0x61, 0xDF]
  obtain ⟨-, hrefused⟩ := decode_firm [0x92, 0xC4]
  obtain ⟨hshort, hlonger⟩ := haccepted (.list [.text "a"]) 4 rfl rfl
  exact ⟨hshort, (hlonger [0x07]).1, hrefused (.unknownMarker 0xC4) rfl (by decide) [0x07, 0x07]⟩

end BoltClient.PackStream
