import BoltClient.Address.Basic
import Mathlib.Data.List.Infix

/-!
Which texts spell an address, and which of them come back when their address is written and read again. A host
with a colon in it is written in brackets and any other as it is. So a host in which a bracket would be closed too
early, and one without a colon that is empty or begins like something else, are not read as they were written.
-/

namespace BoltClient

namespace Text

variable {c : Char} {s rest : List Char}

theorem isBlank_of_isDigit (h : c.isDigit = true) : isBlank c = false := by
  simp only [Char.isDigit, Bool.and_eq_true, decide_eq_true_eq] at h
  have hlow : 48 ≤ c.toNat := UInt32.le_iff_toNat_le.mp h.1
  have hhigh : c.toNat ≤ 57 := UInt32.le_iff_toNat_le.mp h.2
  unfold isBlank
  dsimp only
  simp only [Bool.or_eq_false_iff, Bool.and_eq_false_imp, decide_eq_true_eq, decide_eq_false_iff_not]
  omega

theorem trimFront_of_head (h : ∀ c ∈ s.head?, isBlank c = false) : trimFront s = s := by
  cases s with
  | nil => rfl
  | cons c s => exact List.dropWhile_cons_of_neg (ne_true_of_eq_false (h c rfl))

theorem head_of_trimFront (hc : c ∈ (trimFront s).head?) : isBlank c = false := by
  have hfirst := List.head?_dropWhile_not isBlank s
  rw [← trimFront, Option.mem_def.mp hc] at hfirst
  exact hfirst

theorem trimFront_append (hc : isBlank c = false) : trimFront (s ++ c :: rest) = trimFront s ++ c :: rest := by
  have hrest : trimFront (c :: rest) = c :: rest := trimFront_of_head (by simpa using hc)
  unfold trimFront at hrest ⊢
  rw [List.dropWhile_append, hrest]
  split
  · next hempty => rw [List.isEmpty_iff.mp hempty, List.nil_append]
  · rfl

/-- Nothing is taken from the end of a text that does not end in white space. -/
theorem trim_concat (hc : isBlank c = false) : trim (s ++ [c]) = trimFront s ++ [c] := by
  have hlast : trimFront (trimFront s ++ [c]).reverse = (trimFront s ++ [c]).reverse := by
    rw [List.reverse_append]
    exact trimFront_of_head (by simpa using hc)
  rw [trim, trimFront_append hc, hlast, List.reverse_reverse]

theorem head_of_trim (hc : c ∈ (trim s).head?) : isBlank c = false := by
  have hprefix : trim s <+: trimFront s := by
    have hsuffix : trimFront (trimFront s).reverse <:+ (trimFront s).reverse := List.dropWhile_suffix _
    rw [← List.reverse_prefix, List.reverse_reverse] at hsuffix
    exact hsuffix
  obtain ⟨more, hmore⟩ := hprefix
  refine head_of_trimFront (s := s) ?_
  rw [← hmore, List.head?_append, Option.mem_def.mp hc]
  rfl

end Text

namespace Address

open Text (isBlank trim trimFront)

variable {c : Char} {s t host tail digits : List Char} {standard port : UInt16} {a : Address}

theorem cut?_eq_some_iff : cut? c s = some (host, tail) ↔ s = host ++ c :: tail ∧ c ∉ host := by
  induction s generalizing host with
  | nil => simp [cut?]
  | cons d s ih =>
    unfold cut?
    split
    · next hd =>
      subst hd
      cases host with
      | nil => simp [eq_comm]
      | cons e host => simp; grind
    · next hd =>
      cases host with
      | nil => simp [hd]
      | cons e host => simp [Option.map_eq_some_iff, ih]; grind

theorem unbracket_of_notMem (h : ']' ∉ host) : unbracket host = host := by
  unfold unbracket
  split
  · next inner =>
    refine if_neg fun hlast => h ?_
    exact List.mem_cons_of_mem _ (List.mem_of_getLast? hlast)
  · rfl

theorem unbracket_of_head (h : host.head? ≠ some '[') : unbracket host = host := by
  unfold unbracket
  split
  · exact absurd rfl h
  · rfl

/-- A port is read as it is written. -/
theorem port?_toDigits (port : UInt16) : port? (Nat.toDigits 10 port.toNat) = some port := by
  have hdigits : ∀ c ∈ Nat.toDigits 10 port.toNat, c.isDigit = true := fun c hc =>
    Nat.isDigit_of_mem_toDigits (by decide) (by decide) hc
  have hvalue : ofDigits (Nat.toDigits 10 port.toNat) = port.toNat :=
    Nat.ofDigitChars_toDigits (by decide) (by decide)
  have hsome : (Nat.toDigits 10 port.toNat).isEmpty = false := by simp [Nat.toDigits_ne_nil]
  have hbelow : port.toNat < 0x10000 := port.toNat_lt
  unfold port?
  split
  · next digits heq =>
    rw [heq] at hdigits
    exact absurd (hdigits '+' List.mem_cons_self) (by decide)
  · simp [hsome, hvalue, hbelow, List.all_eq_true.mpr hdigits]

theorem colon_notMem_of_port? (h : port? digits = some port) : ':' ∉ digits := by
  intro hmem
  unfold port? at h
  simp only [Option.ite_none_right_eq_some, Bool.and_eq_true, List.all_eq_true] at h
  obtain ⟨⟨⟨_, hall⟩, _⟩, _⟩ := h
  split at hall
  · exact absurd (hall ':' (by simpa using hmem)) (by decide)
  · exact absurd (hall ':' hmem) (by decide)

/-- A text without white space at its ends spells an address. -/
inductive Spells (standard : UInt16) : List Char → Address → Prop where
  | bracketed {host : List Char} (hclose : ']' ∉ host) :
      Spells standard ('[' :: host ++ [']']) ⟨String.ofList host, standard⟩
  | bracketedPort {host digits : List Char} {port : UInt16} (hclose : ']' ∉ host)
      (hport : port? digits = some port) :
      Spells standard ('[' :: host ++ ']' :: ':' :: digits) ⟨String.ofList host, port⟩
  | bare {host : List Char} (hsome : host ≠ []) (hopen : host.head? ≠ some '[') (hcolons : host.count ':' ≠ 1) :
      Spells standard host ⟨String.ofList host, standard⟩
  | barePort {host digits : List Char} {port : UInt16} (hsome : host ≠ []) (hopen : host.head? ≠ some '[')
      (hcolon : ':' ∉ host) (hport : port? digits = some port) :
      Spells standard (host ++ ':' :: digits) ⟨String.ofList host, port⟩

theorem ofHost_of_notMem (h : ']' ∉ host) : ofHost host port = ⟨String.ofList host, port⟩ := by
  rw [ofHost, unbracket_of_notMem h]

theorem ofHost_of_head (h : host.head? ≠ some '[') : ofHost host port = ⟨String.ofList host, port⟩ := by
  rw [ofHost, unbracket_of_head h]

theorem withPort_eq_ok_iff : ofTrimmed.withPort s host digits = .ok a ↔
    ∃ port, port? digits = some port ∧ a = ofHost host port := by
  unfold ofTrimmed.withPort
  cases port? digits with
  | none => simp
  | some port => simp [eq_comm]

theorem head_ne_of_forall (h : ∀ inner, s = '[' :: inner → False) : s.head? ≠ some '[' := by
  intro hhead
  obtain ⟨inner, hs⟩ := List.head?_eq_some_iff.mp hhead
  exact h inner hs

theorem count_colon (hcolon : ':' ∉ host) (hport : port? digits = some port) :
    (host ++ ':' :: digits).count ':' = 1 := by
  rw [List.count_append, List.count_cons_self, List.count_eq_zero.mpr hcolon,
    List.count_eq_zero.mpr (colon_notMem_of_port? hport)]

theorem spells_of_ofTrimmed : ofTrimmed s standard = .ok a → Spells standard s a := by
  fun_cases ofTrimmed s standard with
  | case1 | case2 | case5 => exact nofun
  | case3 inner host hcut =>
    obtain ⟨rfl, hclose⟩ := cut?_eq_some_iff.mp hcut
    rw [ofHost_of_notMem hclose]
    rintro ⟨⟩
    exact .bracketed hclose
  | case4 inner host digits hcut =>
    obtain ⟨rfl, hclose⟩ := cut?_eq_some_iff.mp hcut
    intro h
    obtain ⟨port, hport, rfl⟩ := withPort_eq_ok_iff.mp h
    rw [ofHost_of_notMem hclose]
    exact .bracketedPort hclose hport
  | case6 _ hcount c host digits hcut _ hfirst =>
    obtain ⟨rfl, hcolon⟩ := cut?_eq_some_iff.mp hcut
    have hopen : (c :: host).head? ≠ some '[' := head_ne_of_forall (s := c :: host ++ ':' :: digits) hfirst
    rw [if_pos hcount, hcut]
    intro h
    obtain ⟨port, hport, rfl⟩ := withPort_eq_ok_iff.mp h
    rw [ofHost_of_head hopen]
    exact .barePort (List.cons_ne_nil c host) hopen hcolon hport
  | case7 _ hcount _ _ hcut =>
    rw [if_pos hcount]
    intro h
    split at h
    · next c host digits hsome => exact (hcut c host digits hsome).elim
    · cases h
  | case8 _ hcount hsome hfirst =>
    have hopen := head_ne_of_forall hfirst
    rw [if_neg hcount, ofHost_of_head hopen]
    rintro ⟨⟩
    exact .bare hsome hopen hcount

theorem Spells.ofTrimmed (h : Spells standard s a) : ofTrimmed s standard = .ok a := by
  cases h with
  | @bracketed host hclose =>
    have hcut : cut? ']' (host ++ [']']) = some (host, []) := cut?_eq_some_iff.mpr ⟨rfl, hclose⟩
    rw [List.cons_append, Address.ofTrimmed, hcut]
    exact congrArg Except.ok (ofHost_of_notMem hclose)
  | @bracketedPort host digits port hclose hport =>
    have hcut : cut? ']' (host ++ ']' :: ':' :: digits) = some (host, ':' :: digits) :=
      cut?_eq_some_iff.mpr ⟨rfl, hclose⟩
    rw [List.cons_append, Address.ofTrimmed, hcut]
    exact withPort_eq_ok_iff.mpr ⟨port, hport, (ofHost_of_notMem hclose).symm⟩
  | bare hsome hopen hcount =>
    unfold Address.ofTrimmed
    split
    · exact absurd rfl hsome
    · exact absurd rfl hopen
    · rw [if_neg hcount, ofHost_of_head hopen]
  | @barePort host digits port hsome hopen hcolon hport =>
    obtain ⟨c, host, rfl⟩ := List.exists_cons_of_ne_nil hsome
    have hcut : cut? ':' (c :: host ++ ':' :: digits) = some (c :: host, digits) :=
      cut?_eq_some_iff.mpr ⟨rfl, hcolon⟩
    unfold Address.ofTrimmed
    split
    · next heq => cases heq
    · next inner heq =>
      refine absurd ?_ hopen
      rw [List.cons_append] at heq
      rw [List.head?_cons, (List.cons.inj heq).1]
    · rw [if_pos (count_colon hcolon hport), hcut]
      exact withPort_eq_ok_iff.mpr ⟨port, hport, (ofHost_of_head hopen).symm⟩

theorem ofTrimmed_eq_ok_iff : ofTrimmed s standard = .ok a ↔ Spells standard s a :=
  ⟨spells_of_ofTrimmed, Spells.ofTrimmed⟩

def written (host : List Char) : List Char := if ':' ∈ host then '[' :: host ++ [']'] else host

theorem toList_text (a : Address) :
    a.text.toList = written a.host.toList ++ ':' :: Nat.toDigits 10 a.port.toNat := by
  have hhost : (if a.isIPv6 then "[" ++ a.host ++ "]" else a.host).toList = written a.host.toList := by
    unfold isIPv6 written
    by_cases hcolon : ':' ∈ a.host.toList <;> simp [hcolon]
  rw [text, String.toList_append, String.toList_append, hhost, Nat.toString_eq_repr, Nat.toList_repr]
  simp

/-- White space that a host begins with is lost, unless a bracket stands before it. -/
theorem trim_text (a : Address) :
    trim a.text.toList = trimFront (written a.host.toList) ++ ':' :: Nat.toDigits 10 a.port.toNat := by
  obtain ⟨front, last, hdigits⟩ : ∃ front last, Nat.toDigits 10 a.port.toNat = front ++ [last] :=
    (List.eq_nil_or_concat' _).resolve_left Nat.toDigits_ne_nil
  have hlast : last.isDigit = true :=
    Nat.isDigit_of_mem_toDigits (b := 10) (n := a.port.toNat) (by decide) (by decide) (by simp [hdigits])
  rw [toList_text, hdigits, ← List.cons_append, ← List.append_assoc,
    Text.trim_concat (Text.isBlank_of_isDigit hlast), Text.trimFront_append (by decide), List.append_assoc]

/-- A host that is read as it is written. -/
def Legible (host : List Char) : Prop :=
  if ':' ∈ host then ']' ∉ host else ∃ c ∈ host.head?, c ≠ '[' ∧ isBlank c = false

/-- A bracket is closed at the end of the host. -/
theorem Spells.closed (h : Spells standard s a) (hopen : s.head? = some '[') :
    ']' ∉ a.host.toList ∧ '[' :: a.host.toList ++ [']'] <+: s := by
  cases h with
  | bracketed hclose =>
    rw [String.toList_ofList]
    exact ⟨hclose, List.prefix_refl _⟩
  | @bracketedPort host digits port hclose hport =>
    rw [String.toList_ofList]
    exact ⟨hclose, ⟨':' :: digits, by simp⟩⟩
  | bare _ hhead => exact absurd hopen hhead
  | barePort hsome hhead =>
    rw [List.head?_append_of_ne_nil _ hsome] at hopen
    exact absurd hopen hhead

/-- Without a bracket in front a text is a host, or a host without a colon and its port. -/
theorem Spells.unbracketed (h : Spells standard s a) (hopen : s.head? ≠ some '[') : a.host.toList ≠ [] ∧
    (s = a.host.toList ∧ s.count ':' ≠ 1 ∨
      ':' ∉ a.host.toList ∧ ∃ digits, s = a.host.toList ++ ':' :: digits) := by
  cases h with
  | bracketed | bracketedPort => exact absurd rfl hopen
  | bare hsome _ hcount =>
    rw [String.toList_ofList]
    exact ⟨hsome, .inl ⟨rfl, hcount⟩⟩
  | @barePort host digits _ hsome _ hcolon =>
    rw [String.toList_ofList]
    exact ⟨hsome, .inr ⟨hcolon, digits, rfl⟩⟩

/-- An address without a colon in its host is read as the host that is left when white space in front is gone. -/
theorem spells_hostPort_iff (hcolon : ':' ∉ a.host.toList) :
    Spells standard (trimFront a.host.toList ++ ':' :: Nat.toDigits 10 a.port.toNat) a ↔
      ∃ c ∈ a.host.toList.head?, c ≠ '[' ∧ isBlank c = false := by
  generalize hhost : a.host.toList = host at hcolon ⊢
  have htrim : ':' ∉ trimFront host := fun h => hcolon ((List.dropWhile_sublist _).subset h)
  constructor
  · intro h
    by_cases hopen : (trimFront host ++ ':' :: Nat.toDigits 10 a.port.toNat).head? = some '['
    · -- the bracket would be closed behind the whole host, where a colon already stands before
      have hclosed := (h.closed hopen).2
      rw [hhost] at hclosed
      have hfront : trimFront host ++ [':'] <+: trimFront host ++ ':' :: Nat.toDigits 10 a.port.toNat :=
        ⟨Nat.toDigits 10 a.port.toNat, by simp⟩
      have hlength : (trimFront host).length ≤ host.length := (List.dropWhile_sublist _).length_le
      have hmem : ':' ∈ '[' :: host ++ [']'] :=
        (List.prefix_of_prefix_length_le hfront hclosed (by simp; omega)).subset (by simp)
      simp [hcolon] at hmem
    · obtain ⟨hsome, ⟨hall, _⟩ | ⟨_, digits, hall⟩⟩ := h.unbracketed hopen
      · rw [hhost] at hall
        exact absurd (hall ▸ by simp) hcolon
      · rw [hhost] at hsome hall
        have hcut := cut?_eq_some_iff.mpr ⟨hall, hcolon⟩
        rw [cut?_eq_some_iff.mpr ⟨rfl, htrim⟩] at hcut
        have hsame : trimFront host = host := congrArg Prod.fst (Option.some.inj hcut)
        obtain ⟨c, rest, rfl⟩ := List.exists_cons_of_ne_nil hsome
        rw [hsame] at hopen
        refine ⟨c, rfl, fun hc => hopen (congrArg some hc), Text.head_of_trimFront (s := c :: rest) ?_⟩
        rw [hsame]
        rfl
  · rintro ⟨c, hc, hopen, hblank⟩
    obtain ⟨rest, rfl⟩ := List.head?_eq_some_iff.mp (Option.mem_def.mp hc)
    have hsame : trimFront (c :: rest) = c :: rest := Text.trimFront_of_head (by simpa using hblank)
    have hspells : Spells standard (c :: rest ++ ':' :: Nat.toDigits 10 a.port.toNat)
        ⟨String.ofList (c :: rest), a.port⟩ :=
      .barePort (List.cons_ne_nil c rest) (by simpa using hopen) hcolon (port?_toDigits a.port)
    rw [← hhost, String.ofList_toList] at hspells
    rw [hsame, ← hhost]
    exact hspells

/-- An address with a colon in its host is read as what stands before the first closing bracket. -/
theorem spells_bracketed_iff :
    Spells standard ('[' :: a.host.toList ++ ']' :: ':' :: Nat.toDigits 10 a.port.toNat) a ↔
      ']' ∉ a.host.toList := by
  refine ⟨fun h => (h.closed rfl).1, fun hclose => ?_⟩
  have hspells : Spells standard _ _ := .bracketedPort hclose (port?_toDigits a.port)
  rw [String.ofList_toList] at hspells
  exact hspells

theorem ofText_text_iff (a : Address) (standard : UInt16) :
    ofText a.text standard = .ok a ↔ Legible a.host.toList := by
  rw [ofText, trim_text, ofTrimmed_eq_ok_iff]
  unfold Legible written
  by_cases hcolon : ':' ∈ a.host.toList
  · have htrim : trimFront ('[' :: a.host.toList ++ [']']) = '[' :: a.host.toList ++ [']'] :=
      Text.trimFront_of_head (by rintro _ ⟨⟩; rfl)
    rw [if_pos hcolon, if_pos hcolon, htrim, List.append_assoc]
    exact spells_bracketed_iff
  · rw [if_neg hcolon, if_neg hcolon]
    exact spells_hostPort_iff hcolon

/-- A text whose address comes back. What stands in brackets has a colon in it or begins like a name, and without
brackets a host with colons has no closing one in it. -/
structure Clear (s : List Char) : Prop where
  inBrackets : ∀ host tail, s = '[' :: host ++ ']' :: tail → ']' ∉ host →
    ':' ∈ host ∨ ∃ c ∈ host.head?, c ≠ '[' ∧ isBlank c = false
  bare : s.head? ≠ some '[' → 1 < s.count ':' → ']' ∉ s

theorem clear_bracketed_iff (hclose : ']' ∉ host) (tail : List Char) :
    Clear ('[' :: host ++ ']' :: tail) ↔ Legible host := by
  have honly : Clear ('[' :: host ++ ']' :: tail) ↔
      (':' ∈ host ∨ ∃ c ∈ host.head?, c ≠ '[' ∧ isBlank c = false) := by
    refine ⟨fun h => h.inBrackets host tail rfl hclose,
      fun h => ⟨fun host' tail' heq hclose' => ?_, fun hhead => ?_⟩⟩
    · have hinner : host ++ ']' :: tail = host' ++ ']' :: tail' := (List.cons.inj heq).2
      have hcut := cut?_eq_some_iff.mpr ⟨hinner, hclose'⟩
      rw [cut?_eq_some_iff.mpr ⟨rfl, hclose⟩] at hcut
      cases hcut
      exact h
    · exact absurd rfl hhead
  rw [honly, Legible]
  by_cases hcolon : ':' ∈ host
  · rw [if_pos hcolon]
    exact iff_of_true (.inl hcolon) hclose
  · rw [if_neg hcolon]
    exact or_iff_right hcolon

theorem clear_unbracketed_iff (hopen : s.head? ≠ some '[') : Clear s ↔ (1 < s.count ':' → ']' ∉ s) := by
  refine ⟨fun h => h.bare hopen, fun h => ⟨fun host tail heq => ?_, fun _ => h⟩⟩
  rw [heq] at hopen
  exact absurd rfl hopen

/-- Without a bracket or white space in front, a host is read as it is written unless it is written in brackets. -/
theorem legible_of_head (hsome : host ≠ []) (hopen : host.head? ≠ some '[')
    (hblank : ∀ c ∈ host.head?, isBlank c = false) : Legible host ↔ (':' ∈ host → ']' ∉ host) := by
  unfold Legible
  split
  · next hcolon => exact ⟨fun h _ => h, fun h => h hcolon⟩
  · next hcolon =>
    obtain ⟨c, rest, rfl⟩ := List.exists_cons_of_ne_nil hsome
    exact iff_of_true ⟨c, rfl, fun hc => hopen (congrArg some hc), hblank c rfl⟩ fun h => absurd h hcolon

theorem Spells.legible_iff (h : Spells standard (trim s) a) : Legible a.host.toList ↔ Clear (trim s) := by
  generalize htext : trim s = t at h
  have hblank (c : Char) (hc : c ∈ t.head?) : isBlank c = false := Text.head_of_trim (htext ▸ hc)
  cases h with
  | bracketed hclose =>
    rw [String.toList_ofList]
    exact (clear_bracketed_iff hclose []).symm
  | @bracketedPort host digits port hclose hport =>
    rw [String.toList_ofList]
    exact (clear_bracketed_iff hclose (':' :: digits)).symm
  | bare hsome hopen hcount =>
    have hmany : ':' ∈ t ↔ 1 < t.count ':' := by
      rw [← List.count_pos_iff]
      omega
    rw [String.toList_ofList, clear_unbracketed_iff hopen, legible_of_head hsome hopen hblank, hmany]
  | @barePort host digits port hsome hopen hcolon hport =>
    have hhead : (host ++ ':' :: digits).head? = host.head? := List.head?_append_of_ne_nil _ hsome
    have hone := count_colon hcolon hport
    rw [String.toList_ofList, legible_of_head hsome hopen (hhead ▸ hblank),
      clear_unbracketed_iff (hhead ▸ hopen)]
    exact iff_of_true (fun h => absurd h hcolon) fun h => absurd hone (Nat.ne_of_gt h)

/-- The address of a text comes back when it is written and read again, whatever the standard port, exactly when
the text is clear. -/
theorem comes_back_iff (s : String) (p q : UInt16) (a : Address) (h : ofText s p = .ok a) :
    ofText a.text q = .ok a ↔ Clear (trim s.toList) := by
  have hspells : Spells p (trim s.toList) a := ofTrimmed_eq_ok_iff.mp h
  rw [ofText_text_iff, hspells.legible_iff]

/-- An IPv6 address in brackets, with a port and white space around it. -/
theorem bracketed_comes_back : ofText " [fe80::1]:9000 " 7687 = .ok ⟨"fe80::1", 9000⟩ ∧
    ofText (text ⟨"fe80::1", 9000⟩) 7688 = .ok ⟨"fe80::1", 9000⟩ := by
  have h : ofText " [fe80::1]:9000 " 7687 = .ok ⟨"fe80::1", 9000⟩ := by decide
  refine ⟨h, (comes_back_iff _ _ _ _ h).mpr ?_⟩
  have htext : trim " [fe80::1]:9000 ".toList = '[' :: "fe80::1".toList ++ ']' :: ":9000".toList := by decide
  rw [htext, clear_bracketed_iff (by decide), Legible, if_pos (by decide)]
  decide

/-- Empty brackets are an address, but nothing is left of them when it is written. -/
theorem not_all_come_back : ¬ ∀ (s : String) (p q : UInt16) (a : Address), ofText s p = .ok a →
    ofText a.text q = .ok a := by
  intro hall
  have hagain := hall "[]:7687" 7687 7687 ⟨"", 7687⟩ (by decide)
  exact absurd hagain (by decide)

end Address
end BoltClient
