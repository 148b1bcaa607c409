import BoltClient.Bytes

namespace BoltClient.PackStream

inductive Error where
  /-- The bytes end inside a value. -/
  | unexpectedEnd
  | unknownMarker (marker : UInt8)
  /-- The end of a stream outside of a stream. -/
  | strayEnd
  | badText (detail : String)
  | keyNotText
  | tooLarge (what : String) (count : Nat)
  /-- A value that is sound but has not the shape its reader needs. -/
  | badStructure (reason : String)
  | tooDeep (limit : Nat)
  deriving DecidableEq, Repr

namespace Error

def name : Error → String
  | unexpectedEnd => "UnexpectedEof"
  | unknownMarker _ => "UnknownMarker"
  | strayEnd => "UnexpectedEndOfStream"
  | badText _ => "InvalidUtf8"
  | keyNotText => "InvalidMapKey"
  | tooLarge .. => "ValueTooLarge"
  | badStructure _ => "InvalidStructure"
  | tooDeep _ => "NestingTooDeep"

def message : Error → String
  | unexpectedEnd => "Unexpected end of PackStream data"
  | unknownMarker marker => "Unknown PackStream marker: 0x" ++ Bytes.hex marker
  | strayEnd => "End-of-stream marker outside of a list or map stream"
  | badText detail => "Invalid UTF-8 in string: " ++ detail
  | keyNotText => "Map keys must be strings"
  | tooLarge what count => s!"{what} too large: {count} entries"
  | badStructure reason => "Invalid structure: " ++ reason
  | tooDeep limit => s!"PackStream value nested deeper than {limit} levels"

end Error
end BoltClient.PackStream
