namespace BoltClient.PackStream

/-- The kinds of value that come with a size. -/
inductive Sized where
  | bytes
  | text
  | list
  | map
  | struct
  deriving DecidableEq, Repr

/-- Where the size of a value stands: in the marker, or in the next `width` bytes. -/
inductive Size where
  | inMarker (n : Nat)
  | inNext (width : Nat)
  deriving DecidableEq, Repr

/-- What a marker announces. -/
inductive Marker where
  | null
  | bool (b : Bool)
  | tinyInt (i : Int64)
  | int (width : Nat)
  | float
  | sized (kind : Sized) (size : Size)
  | listStream
  | mapStream
  | endOfStream
  deriving DecidableEq, Repr

namespace Sized

def name : Sized → String
  | bytes => "bytes"
  | text => "string"
  | list => "list"
  | map => "map"
  | struct => "structure"

/-- The marker that the size is added to when it is below sixteen. Byte strings have none. -/
def tiny : Sized → Option UInt8
  | bytes => none
  | text => some 0x80
  | list => some 0x90
  | map => some 0xA0
  | struct => some 0xB0

/-- The marker before a size of one byte; two more follow it, for two and for four bytes. -/
def first : Sized → UInt8
  | bytes => 0xCC
  | text => 0xD0
  | list => 0xD4
  | map => 0xD8
  | struct => 0xDC

/-- The greatest size that can be written. Sizes of four bytes are signed, and structures have none. -/
def limit : Sized → Nat
  | struct => 0xFFFF
  | _ => 0x7FFFFFFF

end Sized

namespace Marker

/-- What a byte announces, if it is a marker. -/
def ofByte? (b : UInt8) : Option Marker :=
  let low := b.toNat % 16
  if b < 0x80 || 0xF0 ≤ b then some (tinyInt b.toInt8.toInt64)
  else match b &&& 0xF0 with
  | 0x80 => some (sized .text (.inMarker low))
  | 0x90 => some (sized .list (.inMarker low))
  | 0xA0 => some (sized .map (.inMarker low))
  | 0xB0 => some (sized .struct (.inMarker low))
  | _ => match b with
    | 0xC0 => some null
    | 0xC1 => some float
    | 0xC2 => some (bool false)
    | 0xC3 => some (bool true)
    | 0xC8 => some (int 1)
    | 0xC9 => some (int 2)
    | 0xCA => some (int 4)
    | 0xCB => some (int 8)
    | 0xCC => some (sized .bytes (.inNext 1))
    | 0xCD => some (sized .bytes (.inNext 2))
    | 0xCE => some (sized .bytes (.inNext 4))
    | 0xD0 => some (sized .text (.inNext 1))
    | 0xD1 => some (sized .text (.inNext 2))
    | 0xD2 => some (sized .text (.inNext 4))
    | 0xD4 => some (sized .list (.inNext 1))
    | 0xD5 => some (sized .list (.inNext 2))
    | 0xD6 => some (sized .list (.inNext 4))
    | 0xD7 => some listStream
    | 0xD8 => some (sized .map (.inNext 1))
    | 0xD9 => some (sized .map (.inNext 2))
    | 0xDA => some (sized .map (.inNext 4))
    | 0xDB => some mapStream
    | 0xDC => some (sized .struct (.inNext 1))
    | 0xDD => some (sized .struct (.inNext 2))
    | 0xDF => some endOfStream
    | _ => none

end Marker

end BoltClient.PackStream
