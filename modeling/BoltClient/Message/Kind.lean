namespace BoltClient.Message

/-- What a client can ask for. -/
inductive Kind where
  | hello
  | logon
  | goodbye
  | reset
  | run
  | begin
  | commit
  | rollback
  | discard
  | pull
  | route
  deriving DecidableEq, Repr

/-- What a server can answer. -/
inductive ReplyKind where
  | success
  | record
  | ignored
  | failure
  deriving DecidableEq, Repr

namespace Kind

def all : List Kind :=
  [hello, logon, goodbye, reset, run, begin, commit, rollback, discard, pull, route]

def name : Kind → String
  | hello => "HELLO"
  | logon => "LOGON"
  | goodbye => "GOODBYE"
  | reset => "RESET"
  | run => "RUN"
  | begin => "BEGIN"
  | commit => "COMMIT"
  | rollback => "ROLLBACK"
  | discard => "DISCARD"
  | pull => "PULL"
  | route => "ROUTE"

def tag : Kind → UInt8
  | hello => 0x01
  | logon => 0x6A
  | goodbye => 0x02
  | reset => 0x0F
  | run => 0x10
  | begin => 0x11
  | commit => 0x12
  | rollback => 0x13
  | discard => 0x2F
  | pull => 0x3F
  | route => 0x66

def ofName? (name : String) : Option Kind := all.find? (·.name = name)

end Kind

namespace ReplyKind

def all : List ReplyKind := [success, record, ignored, failure]

def name : ReplyKind → String
  | success => "SUCCESS"
  | record => "RECORD"
  | ignored => "IGNORED"
  | failure => "FAILURE"

def tag : ReplyKind → UInt8
  | success => 0x70
  | record => 0x71
  | ignored => 0x7E
  | failure => 0x7F

/-- The kind that a signature stands for, if it is one. -/
def ofTag? (tag : UInt8) : Option ReplyKind := all.find? (·.tag = tag)

end ReplyKind

/-- The name of the message that a signature stands for, in either direction. -/
def nameOfTag? (tag : UInt8) : Option String :=
  match Kind.all.find? (·.tag = tag) with
  | some kind => some kind.name
  | none => (ReplyKind.ofTag? tag).map ReplyKind.name

end BoltClient.Message
