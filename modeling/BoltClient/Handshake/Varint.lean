import BoltClient.Handshake.Error

namespace BoltClient.Handshake.Varint

def encode (n : Nat) : List UInt8 :=
  if n < 0x80 then [UInt8.ofNat n]
  else UInt8.ofNat (0x80 + n % 0x80) :: encode (n / 0x80)

/-- A number under way: the groups so far and the place of the next one. -/
structure Decoder where
  value : UInt64 := 0
  shift : Nat := 0
  deriving DecidableEq, Repr, Inhabited

/-- Adds a byte; the last byte of a number gives it. The value has sixty-four bits, so there is a place
for ten groups, and of the tenth only the lowest bit counts. -/
def Decoder.push (d : Decoder) (b : UInt8) : Except Error (Option UInt64) × Decoder :=
  if 64 ≤ d.shift then (.error (.badData "varint too long"), d)
  else
    let value := d.value ||| (UInt64.ofNat (b.toNat % 0x80) <<< UInt64.ofNat d.shift)
    (.ok (if b < 0x80 then some value else none), ⟨value, d.shift + 7⟩)

end BoltClient.Handshake.Varint
