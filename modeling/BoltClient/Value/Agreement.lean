import BoltClient.Value.Basic

/-!
When two values are the same for a reader: maps agree whatever the order of their entries, and floats
compare as numbers, so no NaN agrees with anything and the two zeros agree.
-/

namespace BoltClient.Value

/-- Whether the bits of a float spell no number. -/
def isNaN (bits : UInt64) : Bool := 0x7FF0000000000000 < bits &&& 0x7FFFFFFFFFFFFFFF

/-- Equality of floats as numbers. -/
def floatsAgree (a b : UInt64) : Bool :=
  !isNaN a && !isNaN b && (a == b || (a ||| b) <<< 1 == 0)

mutual

def agrees : Value → Value → Bool
  | null, null => true
  | bool a, bool b => a == b
  | int a, int b => a == b
  | float a, float b => floatsAgree a b
  | bytes a, bytes b => a == b
  | text a, text b => a == b
  | list xs, list ys => allAgree xs ys
  | map es, map fs => es.length == fs.length && allWithin es fs
  | struct t xs, struct u ys => t == u && allAgree xs ys
  | _, _ => false

/-- Item by item. -/
def allAgree : List Value → List Value → Bool
  | [], [] => true
  | x :: xs, y :: ys => agrees x y && allAgree xs ys
  | _, _ => false

/-- Every entry has one of its name in the other map that agrees with it. -/
def allWithin : List (String × Value) → Entries Value → Bool
  | [], _ => true
  | (key, value) :: rest, others =>
    (match others.get? key with
      | some other => agrees value other
      | none => false) && allWithin rest others

end

end BoltClient.Value
