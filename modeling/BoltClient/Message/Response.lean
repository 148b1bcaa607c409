import BoltClient.Message.Kind
import BoltClient.PackStream.Error
import BoltClient.Value.Text

namespace BoltClient

/-- An answer. -/
inductive Response where
  | success (metadata : Entries Value)
  | record (values : List Value)
  | failure (metadata : Entries Value)
  | ignored

/-- What a server tells about a request that went well. -/
structure Success where
  metadata : Entries Value

/-- What a server tells about a request that failed. -/
structure Failure where
  metadata : Entries Value

namespace Success

def server? (s : Success) : Option String := s.metadata.text? "server"

def connectionId? (s : Success) : Option String := s.metadata.text? "connection_id"

def hints? (s : Success) : Option (Entries Value) := s.metadata.map? "hints"

def fields? (s : Success) : Option (List String) := (s.metadata.list? "fields").map Value.textItems

def hasMore (s : Success) : Bool := (s.metadata.bool? "has_more").getD false

def bookmark? (s : Success) : Option String := s.metadata.text? "bookmark"

def database? (s : Success) : Option String := s.metadata.text? "db"

def queryId? (s : Success) : Option Int64 := s.metadata.int? "qid"

def routingRow? (s : Success) : Option (Entries Value) := s.metadata.map? "rt"

end Success

namespace Failure

def ofCode (code message : String) : Failure := ⟨[("code", .text code), ("message", .text message)]⟩

def code? (f : Failure) : Option String := f.metadata.text? "code"

def message? (f : Failure) : Option String := f.metadata.text? "message"

def text (f : Failure) : String :=
  f.code?.getD "<no code>" ++ ": " ++ f.message?.getD "<no message>"

end Failure

namespace Response

def kind : Response → Message.ReplyKind
  | success _ => .success
  | record _ => .record
  | failure _ => .failure
  | ignored => .ignored

/-- Whether an answer ends a request; only records do not. -/
def isSummary : Response → Bool
  | record _ => false
  | _ => true

/-- The text of an answer for logs. Records are only counted. -/
def text : Response → String
  | success metadata => "SUCCESS " ++ metadata.toText
  | record values => s!"RECORD [{values.length} values]"
  | failure metadata => "FAILURE " ++ metadata.toText
  | ignored => "IGNORED"

/-- The metadata in the first field; without fields there is none. -/
def metadataOf : List Value → Except PackStream.Error (Entries Value)
  | [] => .ok []
  | .map entries :: _ => .ok entries
  | other :: _ =>
    .error (.badStructure ("Expected metadata map, received " ++ other.kindName))

/-- The record in the first field; without fields it is empty. -/
def recordOf : List Value → Except PackStream.Error (List Value)
  | [] => .ok []
  | .list values :: _ => .ok values
  | _ :: _ => .error (.badStructure "RECORD fields must be list")

def ofStruct (s : Struct) : Except PackStream.Error Response :=
  match Message.ReplyKind.ofTag? s.tag with
  | some .success => success <$> metadataOf s.fields
  | some .record => record <$> recordOf s.fields
  | some .failure => failure <$> metadataOf s.fields
  | some .ignored => .ok ignored
  | none => .error (.badStructure ("Unknown response message tag: 0x" ++ Bytes.hex s.tag))

end Response
end BoltClient
