import BoltClient.Bytes
import BoltClient.PackStream.Marker
import BoltClient.Text.Utf8
import BoltClient.Value.Basic

namespace BoltClient.PackStream

/-- The bytes announce `n` parts of a kind. -/
inductive Announces (kind : Sized) (n : Nat) : List UInt8 → Prop
  | tiny {base : UInt8} (known : kind.tiny = some base) (small : n < 16) :
      Announces kind n [base ||| UInt8.ofNat n]
  | one (small : n < 0x100) : Announces kind n (kind.first :: Bytes.ofNat 1 n)
  | two (small : n < 0x10000) : Announces kind n ((kind.first + 1) :: Bytes.ofNat 2 n)
  | four (known : kind ≠ .struct) (small : n < 0x80000000) :
      Announces kind n ((kind.first + 2) :: Bytes.ofNat 4 n)

/-- The bytes spell an integer: in two's complement, of any sufficient width, behind the width's marker. -/
inductive SpellsInt (i : Int64) : List UInt8 → Prop
  | tiny (low : -16 ≤ i.toInt) (high : i.toInt < 128) : SpellsInt i (Bytes.ofInt 1 i.toInt)
  | wide {marker : UInt8} {width : Nat}
      (known : (marker, width) ∈ [(0xC8, 1), (0xC9, 2), (0xCA, 4), (0xCB, 8)])
      (low : -Bytes.bound width ≤ 2 * i.toInt) (high : 2 * i.toInt < Bytes.bound width) :
      SpellsInt i (marker :: Bytes.ofInt width i.toInt)

inductive SpellsText (s : String) : List UInt8 → Prop
  | utf8 {head : List UInt8} (size : Announces .text (Text.Utf8.encode s).length head) :
      SpellsText s (head ++ Text.Utf8.encode s)

/-- What stands in a row of bytes: a value, or the parts of a container. -/
inductive Phrase where
  | value (v : Value)
  | values (vs : List Value)
  | entries (es : List (String × Value))

/-- The bytes spell a phrase in which containers are nested at most `room` deep. A name that comes again
in a map replaces the value under it. -/
inductive Derives : Nat → List UInt8 → Phrase → Prop
  | null {room} : Derives room [0xC0] (.value .null)
  | bool {room} (b : Bool) : Derives room [if b then 0xC3 else 0xC2] (.value (.bool b))
  | int {room i x} (spells : SpellsInt i x) : Derives room x (.value (.int i))
  | float {room} (bits : UInt64) :
      Derives room (0xC1 :: Bytes.ofNat 8 bits.toNat) (.value (.float bits))
  | bytes {room head} {b : List UInt8} (size : Announces .bytes b.length head) :
      Derives room (head ++ b) (.value (.bytes b))
  | text {room s x} (spells : SpellsText s x) : Derives room x (.value (.text s))
  | list {room head x vs} (size : Announces .list vs.length head)
      (inside : Derives room x (.values vs)) : Derives (room + 1) (head ++ x) (.value (.list vs))
  | listStream {room x vs} (inside : Derives room x (.values vs)) :
      Derives (room + 1) (0xD7 :: (x ++ [0xDF])) (.value (.list vs))
  | map {room head x es} (size : Announces .map es.length head)
      (inside : Derives room x (.entries es)) :
      Derives (room + 1) (head ++ x) (.value (.map (Entries.putAll [] es)))
  | mapStream {room x es} (inside : Derives room x (.entries es)) :
      Derives (room + 1) (0xDB :: (x ++ [0xDF])) (.value (.map (Entries.putAll [] es)))
  | struct {room head x vs} (tag : UInt8) (size : Announces .struct vs.length head)
      (inside : Derives room x (.values vs)) :
      Derives (room + 1) (head ++ tag :: x) (.value (.struct tag vs))
  | noValue {room} : Derives room [] (.values [])
  | andValue {room x y v vs} (first : Derives room x (.value v)) (others : Derives room y (.values vs)) :
      Derives room (x ++ y) (.values (v :: vs))
  | noEntry {room} : Derives room [] (.entries [])
  | andEntry {room x y z name v es} (key : SpellsText name x) (first : Derives room y (.value v))
      (others : Derives room z (.entries es)) :
      Derives room (x ++ y ++ z) (.entries ((name, v) :: es))

variable {kind : Sized} {n room : Nat} {x : List UInt8} {v : Value} {s : String}

theorem Announces.ne_nil (h : Announces kind n x) : x ≠ [] := by
  cases h <;> simp

theorem SpellsText.ne_nil (h : SpellsText s x) : x ≠ [] := by
  obtain ⟨hsize⟩ := h
  simp [hsize.ne_nil]

theorem SpellsInt.ne_nil {i : Int64} (h : SpellsInt i x) : x ≠ [] := by
  cases h <;> simp [Bytes.ofInt, Bytes.ofNat]

theorem Derives.ne_nil (h : Derives room x (.value v)) : x ≠ [] := by
  cases h with
  | null | bool | float | listStream | mapStream => simp
  | int hspells => exact hspells.ne_nil
  | text hspells => exact hspells.ne_nil
  | bytes hsize | list hsize | map hsize | struct _ hsize => simp [hsize.ne_nil]

end BoltClient.PackStream
