/-!
Text carried as UTF-8 bytes. Reading succeeds on exactly the bytes of some text, and otherwise tells
where the first fault lies and how many bytes it spans.
-/

namespace BoltClient.Text.Utf8

/-- The first place where bytes stop being text. `length` counts the bytes that belong to no character,
and is absent when the bytes end inside a character that is sound so far. -/
structure Fault where
  index : Nat
  length : Option Nat
  deriving DecidableEq, Repr

/-- Bytes that may follow a first byte. -/
def isTail (b : UInt8) : Bool := 0x80 ≤ b && b ≤ 0xBF

/-- Second bytes that a first byte of a three- or four-byte character allows: no character is spelled
longer than needed, none is a surrogate, and none lies beyond the last code point. -/
def allowsSecond (first second : UInt8) : Bool :=
  if first = 0xE0 then 0xA0 ≤ second && second ≤ 0xBF
  else if first = 0xED then 0x80 ≤ second && second ≤ 0x9F
  else if first = 0xF0 then 0x90 ≤ second && second ≤ 0xBF
  else if first = 0xF4 then 0x80 ≤ second && second ≤ 0x8F
  else isTail second

/-- Checks the later bytes of a character: `seen` of its `width` bytes are sound. -/
def checkTail (seen width : Nat) : List UInt8 → Except (Option Nat) Nat
  | [] => if seen = width then .ok width else .error none
  | b :: rest =>
    if seen = width then .ok width
    else if isTail b then checkTail (seen + 1) width rest
    else .error (some seen)

/-- The number of bytes of the character at the front, or the length of the fault there. -/
def charLength : List UInt8 → Except (Option Nat) Nat
  | [] => .ok 0
  | a :: rest =>
    if a < 0x80 then .ok 1
    else if 0xC2 ≤ a && a ≤ 0xDF then checkTail 1 2 rest
    else if 0xE0 ≤ a && a ≤ 0xF4 then
      match rest with
      | [] => .error none
      | b :: rest =>
        if allowsSecond a b then checkTail 2 (if a < 0xF0 then 3 else 4) rest else .error (some 1)
    else .error (some 1)

/-- The first fault of bytes that start at `index`, if they have one. -/
def firstFault (index : Nat) (bytes : List UInt8) : Option Fault :=
  match bytes with
  | [] => none
  | a :: rest =>
    match charLength (a :: rest) with
    | .error length => some ⟨index, length⟩
    | .ok n => firstFault (index + max n 1) (rest.drop (n - 1))
  termination_by bytes.length
  decreasing_by simp only [List.length_drop, List.length_cons]; omega

def Fault.message (fault : Fault) : String :=
  match fault.length with
  | some n => s!"invalid utf-8 sequence of {n} bytes from index {fault.index}"
  | none => s!"incomplete utf-8 byte sequence from index {fault.index}"

def encode (s : String) : List UInt8 := s.toUTF8.data.toList

def decode (bytes : List UInt8) : Except Fault String :=
  match String.fromUTF8? bytes.toByteArray with
  | some s => .ok s
  | none => .error ((firstFault 0 bytes).getD ⟨bytes.length, none⟩)

theorem toByteArray_encode (s : String) : (encode s).toByteArray = s.toByteArray := by
  ext1
  simp [encode, List.data_toByteArray]

theorem decode_encode (s : String) : decode (encode s) = .ok s := by
  have h : String.fromUTF8? s.toByteArray = some s := by
    unfold String.fromUTF8?
    rw [dif_pos s.isValidUTF8]
    rfl
  simp [decode, toByteArray_encode, h]

theorem encode_of_decode {bytes : List UInt8} {s : String} (h : decode bytes = .ok s) :
    encode s = bytes := by
  unfold decode at h
  split at h
  · next t ht =>
    unfold String.fromUTF8? at ht
    split at ht
    · next hv =>
      simp only [Option.some.injEq] at ht
      simp only [Except.ok.injEq] at h
      subst h ht
      simp [encode, String.fromUTF8, List.data_toByteArray]
    · cases ht
  · cases h

end BoltClient.Text.Utf8
