import BoltClient.Proofs.PackStream.RoundTrip

namespace BoltClient.PackStream

open Reader

section

variable {α : Type} {one : Reader (Option α)} {a : α} {done as : List α} {x y : List UInt8}

theorem Reader.Yields.untilNone_nil (h : one.Yields x none) :
    Yields (untilNone one done) x done.reverse := by
  intro rest
  change untilNone one done (x ++ rest) = _
  have hone : one (x ++ rest) = (.ok none, rest) := h rest
  rw [untilNone, hone]

theorem Reader.Yields.untilNone_cons (h : one.Yields x (some a)) (hx : x ≠ [])
    (others : Yields (untilNone one (a :: done)) y as) : Yields (untilNone one done) (x ++ y) as := by
  intro rest
  change untilNone one done (x ++ y ++ rest) = _
  have hone : one (x ++ (y ++ rest)) = (.ok (some a), y ++ rest) := h _
  have hshorter : (y ++ rest).length < (x ++ (y ++ rest)).length := by
    simp [List.length_pos_iff.mpr hx]
  rw [List.append_assoc, untilNone, hone]
  simp only [if_pos hshorter]
  exact others rest

end

section

variable {room n : Nat} {x y head : List UInt8} {kind : Sized} {c : Container} {v : Value}
  {name : String}

theorem yields_container (hc : c.sized? = some (kind, n)) (hh : Announces kind n head)
    (inside : (contents (item room) c).Yields x v) :
    (item (room + 1)).Yields (head ++ x) (some v) := by
  intro rest
  change (itemWith (some (item room))).run.run (head ++ x ++ rest) = _
  rw [List.append_assoc, run_itemWith_header hc hh]
  exact inside.thenPure (f := fun v => pure (some v)) rfl rest

theorem yields_listStream (inside : (contents (item room) .listStream).Yields x v) :
    (item (room + 1)).Yields (0xD7 :: x) (some v) :=
  (yields_byte 0xD7).bind (y := x) (inside.thenPure rfl)

theorem yields_mapStream (inside : (contents (item room) .mapStream).Yields x v) :
    (item (room + 1)).Yields (0xDB :: x) (some v) :=
  (yields_byte 0xDB).bind (y := x) (inside.thenPure rfl)

theorem yields_end (room : Nat) : (item room).Yields [0xDF] none := by
  obtain ⟨inside, hitem⟩ := exists_item_eq_itemWith room
  rw [hitem]
  exact (yields_byte 0xDF).thenPure rfl

theorem yields_required (h : (item room).Yields x (some v)) : (required (item room)).Yields x v :=
  h.thenPure rfl

theorem yields_entry (key : SpellsText name x) (h : (item room).Yields y (some v)) :
    (entry (item room)).Yields (x ++ y) (name, v) :=
  (yields_key key).bind ((yields_required h).thenPure rfl)

theorem yields_entryOrEnd (key : SpellsText name x) (h : (item room).Yields y (some v)) :
    (entryOrEnd (item room)).Yields (x ++ y) (some (name, v)) := by
  obtain ⟨inside, hitem⟩ := exists_item_eq_itemWith room
  have hname : (item room).Yields x (some (.text name)) := by
    rw [hitem]
    exact yields_spelledText key
  exact hname.bind ((yields_required h).thenPure rfl)

/-- The readers of a phrase yield it. A row of parts is read with its length known and up to the end of a
stream. -/
def Phrase.Comes (room : Nat) (x : List UInt8) : Phrase → Prop
  | .value v => (item room).Yields x (some v)
  | .values vs => ∀ done,
    (times (required (item room)) done vs.length).Yields x (done.reverse ++ vs) ∧
      Yields (untilNone (item room) done) (x ++ [0xDF]) (done.reverse ++ vs)
  | .entries es => ∀ done,
    (times (entry (item room)) done es.length).Yields x (done.reverse ++ es) ∧
      Yields (untilNone (entryOrEnd (item room)) done) (x ++ [0xDF]) (done.reverse ++ es)

theorem Derives.comes {p : Phrase} (h : Derives room x p) : p.Comes room x := by
  have plain {room v x} (h : ∀ inside, (itemWith inside).Yields x (some v)) :
      (item room).Yields x (some v) := by
    obtain ⟨inside, hitem⟩ := exists_item_eq_itemWith room
    rw [hitem]
    exact h inside
  induction h with
  | null => exact plain fun _ => (yields_byte _).thenPure rfl
  | bool b => exact plain fun _ => (yields_byte _).thenPure (by cases b <;> rfl)
  | int spells => exact plain fun _ => yields_spelledInt spells
  | float bits => exact plain fun _ => yields_float bits
  | bytes size => exact plain fun _ => yields_bytes size
  | text spells => exact plain fun _ => yields_spelledText spells
  | @list _ _ _ vs size _ ih =>
    exact yields_container (c := .list vs.length) rfl size ((ih []).1.thenPure rfl)
  | listStream _ ih => exact yields_listStream ((ih []).2.thenPure rfl)
  | @map _ _ _ es size _ ih =>
    refine yields_container (c := .map es.length) rfl size ((ih []).1.thenPure ?_)
    rw [Entries.ofPairs_eq_putAll]
    rfl
  | mapStream _ ih =>
    refine yields_mapStream ((ih []).2.thenPure ?_)
    rw [Entries.ofPairs_eq_putAll]
    rfl
  | @struct _ _ _ vs tag size _ ih =>
    exact yields_container (c := .struct vs.length) rfl size
      ((yields_byte tag).bind ((ih []).1.thenPure rfl))
  | noValue =>
    intro done
    rw [List.append_nil]
    exact ⟨yields_pure _, (yields_end _).untilNone_nil⟩
  | @andValue room x y v vs first _ ihFirst ihOthers =>
    intro done
    have hothers := ihOthers (v :: done)
    rw [List.reverse_cons, List.append_assoc, List.singleton_append] at hothers
    rw [List.append_assoc]
    exact ⟨(yields_required ihFirst).bind hothers.1, ihFirst.untilNone_cons first.ne_nil hothers.2⟩
  | noEntry =>
    intro done
    rw [List.append_nil]
    refine ⟨yields_pure _, Reader.Yields.untilNone_nil ?_⟩
    exact (yields_end _).thenPure rfl
  | @andEntry room x y z name v es key first _ ihFirst ihOthers =>
    intro done
    have hothers := ihOthers ((name, v) :: done)
    rw [List.reverse_cons, List.append_assoc, List.singleton_append] at hothers
    rw [List.append_assoc (x ++ y)]
    have hsome : x ++ y ≠ [] := by simp [key.ne_nil]
    exact ⟨(yields_entry key ihFirst).bind hothers.1,
      (yields_entryOrEnd key ihFirst).untilNone_cons hsome hothers.2⟩

end

end BoltClient.PackStream
