import BoltClient.Message.Kind
import BoltClient.Value.Text

namespace BoltClient

/-- How ROUTE names the database. -/
inductive RouteDatabase where
  | name (name : Option String)
  | context (database user : Option String)

/-- The extra map of HELLO. -/
structure Hello where
  extra : Entries Value

/-- A request. -/
inductive Request where
  | hello (hello : Hello)
  | logon (auth : Entries Value)
  | goodbye
  | reset
  | run (query : String) (parameters extra : Entries Value)
  | begin (extra : Entries Value)
  | commit
  | rollback
  /-- Records of a query; `-1` stands for all records and for the last query. -/
  | pull (n qid : Int64)
  | discard (n qid : Int64)
  | route (routing : Entries Value) (bookmarks : List String) (database : RouteDatabase)

namespace RouteDatabase

/-- The third field of ROUTE. -/
def value : RouteDatabase → Value
  | .name n => .ofText? n
  | .context database user =>
    .map <| (database.map fun d => ("db", Value.text d)).toList
      ++ (user.map fun u => ("imp_user", Value.text u)).toList

end RouteDatabase

namespace Hello

/-- The client gives its own name first. -/
def ofUserAgent (agent : String) : Hello := ⟨[("user_agent", .text agent)]⟩

def withEntry (h : Hello) (key : String) (v : Value) : Hello := ⟨h.extra.put key v⟩

def withAuth (h : Hello) (auth : Entries Value) : Hello := ⟨h.extra.putAll auth⟩

def withRouting (h : Hello) (routing : Entries Value) : Hello := h.withEntry "routing" (.map routing)

/-- Asks for changes to the protocol. -/
def withPatches (h : Hello) (patches : List String) : Hello :=
  h.withEntry "patch_bolt" (.ofTexts patches)

end Hello

namespace Request

def kind : Request → Message.Kind
  | hello _ => .hello
  | logon _ => .logon
  | goodbye => .goodbye
  | reset => .reset
  | run .. => .run
  | begin _ => .begin
  | commit => .commit
  | rollback => .rollback
  | pull .. => .pull
  | discard .. => .discard
  | route .. => .route

def name (r : Request) : String := r.kind.name

/-- The map of PULL and DISCARD. -/
def batch (n qid : Int64) : Entries Value :=
  ("n", .int n) :: if qid = -1 then [] else [("qid", .int qid)]

def fields : Request → List Value
  | hello h => [.map h.extra]
  | logon auth => [.map auth]
  | goodbye | reset | commit | rollback => []
  | run query parameters extra => [.text query, .map parameters, .map extra]
  | begin extra => [.map extra]
  | pull n qid | discard n qid => [.map (batch n qid)]
  | route routing bookmarks database => [.map routing, .ofTexts bookmarks, database.value]

def toStruct (r : Request) : Struct := ⟨r.kind.tag, r.fields⟩

/-- What stands in logs instead of credentials. -/
def redacted : String := "*******"

/-- Entries whose credentials, if there are any, cannot be read. -/
def redact (entries : Entries Value) : Entries Value :=
  if (entries.get? "credentials").isSome then entries.put "credentials" (.text redacted) else entries

/-- The text of a field for logs. -/
def fieldText : Value → String
  | .map entries => (redact entries).toText
  | other => other.toText

/-- The text of a request for logs: its name and its fields. -/
def text (r : Request) : String := " ".intercalate (r.name :: r.fields.map fieldText)

/-- A request spelled out for a developer. The requests that log in still hide their credentials. -/
def inspect : Request → String
  | r@(hello _) | r@(logon _) => r.text
  | r => " ".intercalate (r.name :: r.fields.map Value.toText)

end Request
end BoltClient
