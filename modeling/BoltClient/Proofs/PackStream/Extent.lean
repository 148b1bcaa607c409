import BoltClient.PackStream.Encoder

namespace BoltClient

namespace Value

mutual

/-- The levels of containers, one inside the other. An empty container is one level. -/
def height : Value → Nat
  | list xs => heightOfAll xs + 1
  | map es => heightOfEntries es + 1
  | struct _ fields => heightOfAll fields + 1
  | _ => 0

def heightOfAll : List Value → Nat
  | [] => 0
  | x :: xs => max (height x) (heightOfAll xs)

def heightOfEntries : List (String × Value) → Nat
  | [] => 0
  | (_, x) :: rest => max (height x) (heightOfEntries rest)

end

mutual

/-- A value and all values inside it have a property. -/
def Everywhere (p : Value → Prop) : Value → Prop
  | list xs => p (list xs) ∧ EverywhereIn p xs
  | map es => p (map es) ∧ EverywhereUnder p es
  | struct tag fields => p (struct tag fields) ∧ EverywhereIn p fields
  | v => p v

def EverywhereIn (p : Value → Prop) : List Value → Prop
  | [] => True
  | x :: xs => Everywhere p x ∧ EverywhereIn p xs

def EverywhereUnder (p : Value → Prop) : List (String × Value) → Prop
  | [] => True
  | (_, x) :: rest => Everywhere p x ∧ EverywhereUnder p rest

end

/-- The most entries that a text, bytes, a list or a map can be written with. -/
def maxEntries : Nat := 0x7FFFFFFF

/-- The most fields that a structure can be written with. -/
def maxFields : Nat := 0xFFFF

def TextFits (s : String) : Prop := (Text.Utf8.encode s).length ≤ maxEntries

/-- A value's own size, without the sizes of the values inside it, can be written. -/
def SizeFits : Value → Prop
  | bytes b => b.length ≤ maxEntries
  | text s => TextFits s
  | list xs => xs.length ≤ maxEntries
  | map es => es.length ≤ maxEntries ∧ ∀ entry ∈ es, TextFits entry.1
  | struct _ fields => fields.length ≤ maxFields
  | _ => True

def Fits : Value → Prop := Everywhere SizeFits

def NamesDiffer : Value → Prop
  | map es => (Entries.keys es).Nodup
  | _ => True

/-- No map in a value has a name twice. -/
def Keyed : Value → Prop := Everywhere NamesDiffer

theorem everywhereUnder_iff {p : Value → Prop} {es : List (String × Value)} :
    EverywhereUnder p es ↔ ∀ entry ∈ es, Everywhere p entry.2 := by
  induction es with
  | nil => simp [EverywhereUnder]
  | cons entry rest ih => simp [EverywhereUnder, ih]

theorem heightOfEntries_le_iff {es : List (String × Value)} {n : Nat} :
    heightOfEntries es ≤ n ↔ ∀ entry ∈ es, height entry.2 ≤ n := by
  induction es with
  | nil => simp [heightOfEntries]
  | cons entry rest ih => simp only [heightOfEntries, Nat.max_le, List.forall_mem_cons, ih]

end Value
end BoltClient
