import Mathlib.Data.String.Basic

namespace BoltClient.Text

open String

/-- Cut into parts, a text with `l` before the part `m` that is being read, and `r` still to be read. -/
theorem splitOnAux_dot (l m r : List Char) (parts : List String) :
    (ofList (l ++ m ++ r)).splitOnAux "." ⟨utf8Len l⟩ ⟨utf8Len l + utf8Len m⟩ 0 parts
      = parts.reverse ++ (List.splitOnPPrepend (· == '.') r m.reverse).map ofList := by
  have hdot : Pos.Raw.get "." 0 = '.' := by decide
  have hnext : Pos.Raw.next "." 0 = ⟨1⟩ := by decide
  have hlast : Pos.Raw.atEnd "." ⟨1⟩ = true := by decide
  induction r generalizing l m parts with
  | nil =>
    have hpart := extract_of_valid l m []
    rw [← utf8Len_append] at hpart
    rw [splitOnAux.eq_def, ← utf8Len_append, if_pos ((atEnd_of_valid _ _).mpr rfl), hpart]
    simp
  | cons c r ih =>
    have hpart := extract_of_valid l m (c :: r)
    have hmore : ¬ Pos.Raw.atEnd (ofList (l ++ m ++ c :: r)) ⟨utf8Len (l ++ m)⟩ = true := by
      rw [atEnd_of_valid]
      exact List.cons_ne_nil c r
    rw [← utf8Len_append] at hpart
    rw [splitOnAux.eq_def, ← utf8Len_append, if_neg hmore, get_of_valid, List.headD_cons, hdot,
      List.splitOnPPrepend_cons_eq_if]
    -- a separator of one character is met whole or not at all, so nothing is ever taken back
    by_cases hc : (c == '.') = true
    · obtain rfl : c = '.' := eq_of_beq hc
      have hback : Pos.Raw.unoffsetBy ⟨utf8Len (l ++ m) + '.'.utf8Size⟩ ⟨1⟩ = ⟨utf8Len (l ++ m)⟩ := rfl
      have hrest := ih (l ++ m ++ ['.']) [] (ofList m :: parts)
      rw [if_pos hc, if_pos hc, hnext, next_of_valid]
      dsimp only
      rw [if_pos hlast, hback, hpart]
      rw [List.append_nil, List.append_assoc (l ++ m), List.singleton_append, utf8Len_append (l ++ m), utf8Len_nil,
        Nat.add_zero, List.reverse_cons, List.append_assoc parts.reverse] at hrest
      rw [List.splitOnP_eq_splitOnPPrepend, List.reverse_reverse]
      exact hrest
    · have hback : (⟨utf8Len (l ++ m)⟩ : Pos.Raw).unoffsetBy 0 = ⟨utf8Len (l ++ m)⟩ := rfl
      have hrest := ih l (m ++ [c]) parts
      rw [if_neg hc, if_neg hc, hback, next_of_valid]
      simpa [Nat.add_assoc, -ofList_append] using hrest

/-- The parts of a text are those of its characters. -/
theorem splitOn_dot (s : String) : s.splitOn "." = (s.toList.splitOn '.').map ofList := by
  have hall := splitOnAux_dot [] [] s.toList []
  rw [List.nil_append, List.nil_append, ofList_toList] at hall
  rw [splitOn, if_neg (by decide), List.splitOn_eq_splitOnP, List.splitOnP_eq_splitOnPPrepend]
  exact hall

/-- A text begins with the parts that it is known to begin with, if a dot comes after them. -/
theorem splitOn_dot_of_part {first : String} {rest : List Char} {s : String} (hfirst : '.' ∉ first.toList)
    (hs : s.toList = first.toList ++ '.' :: rest) : s.splitOn "." = first :: (ofList rest).splitOn "." := by
  rw [splitOn_dot, splitOn_dot, hs, List.splitOn_append_cons_self_of_not_mem hfirst, toList_ofList, List.map_cons,
    ofList_toList]

end BoltClient.Text
