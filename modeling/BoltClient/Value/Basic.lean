import BoltClient.Entries

namespace BoltClient

/-- A value of the wire format. A float is kept as its sixty-four bits, so that every NaN stays what it
is; a map keeps the order of its entries. -/
inductive Value where
  | null
  | bool (b : Bool)
  | int (i : Int64)
  | float (bits : UInt64)
  | bytes (b : List UInt8)
  | text (s : String)
  | list (items : List Value)
  | map (entries : List (String × Value))
  | struct (tag : UInt8) (fields : List Value)
  deriving Inhabited, BEq

/-- A signature byte with fields; what the signature means is up to the reader. -/
structure Struct where
  tag : UInt8
  fields : List Value

namespace Struct

def value (s : Struct) : Value := .struct s.tag s.fields

end Struct

namespace Value

/-- The name of a value's kind, as it stands in messages. -/
def kindName : Value → String
  | null => "Null"
  | bool _ => "Boolean"
  | int _ => "Integer"
  | float _ => "Float"
  | bytes _ => "Bytes"
  | text _ => "String"
  | list _ => "List"
  | map _ => "Map"
  | struct .. => "Structure"

def isNull : Value → Bool
  | null => true
  | _ => false

def asBool? : Value → Option Bool
  | bool b => some b
  | _ => none

def asInt? : Value → Option Int64
  | int i => some i
  | _ => none

/-- The bits of a float; an integer widens to the nearest float. -/
def asFloat? : Value → Option UInt64
  | float bits => some bits
  | int i => some i.toFloat.toBits
  | _ => none

def asText? : Value → Option String
  | text s => some s
  | _ => none

def asBytes? : Value → Option (List UInt8)
  | bytes b => some b
  | _ => none

def asList? : Value → Option (List Value)
  | list items => some items
  | _ => none

def asMap? : Value → Option (Entries Value)
  | map entries => some entries
  | _ => none

def asStruct? : Value → Option Struct
  | struct tag fields => some ⟨tag, fields⟩
  | _ => none

def ofTexts (texts : List String) : Value := list (texts.map text)

/-- Null stands for an absent text. -/
def ofText? : Option String → Value
  | some s => text s
  | none => null

/-- The texts among the items of a list. -/
def textItems (items : List Value) : List String := items.filterMap asText?

end Value

/-- The text under a name, if it is a text. -/
def Entries.text? (entries : Entries Value) (key : String) : Option String :=
  (entries.get? key).bind Value.asText?

/-- The integer under a name, if it is one. -/
def Entries.int? (entries : Entries Value) (key : String) : Option Int64 :=
  (entries.get? key).bind Value.asInt?

/-- The truth value under a name, if it is one. -/
def Entries.bool? (entries : Entries Value) (key : String) : Option Bool :=
  (entries.get? key).bind Value.asBool?

/-- The list under a name, if it is one. -/
def Entries.list? (entries : Entries Value) (key : String) : Option (List Value) :=
  (entries.get? key).bind Value.asList?

/-- The map under a name, if it is one. -/
def Entries.map? (entries : Entries Value) (key : String) : Option (Entries Value) :=
  (entries.get? key).bind Value.asMap?

end BoltClient
