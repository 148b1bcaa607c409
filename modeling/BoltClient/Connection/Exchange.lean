import BoltClient.Message.Response

namespace BoltClient

/-- What a request is for. This decides what its failure does to the connection. -/
inductive Purpose where
  | plain
  /-- HELLO: a failure ends the connection. -/
  | init
  /-- LOGON: a failure ends the connection. -/
  | logon
  /-- RESET: anything but success ends the connection. -/
  | reset
  /-- COMMIT: if the connection is lost before the answer, nobody knows the outcome. -/
  | commit
  deriving DecidableEq, Repr, Inhabited

/-- The parts of an answer that somebody wants to hear of as they come. -/
structure Watch where
  records : Bool := false
  success : Bool := false
  failure : Bool := false
  ignored : Bool := false
  summary : Bool := false
  deriving DecidableEq, Repr, Inhabited

/-- What somebody who watches hears. -/
inductive Notice where
  | record (values : List Value)
  | success (metadata : Entries Value)
  | failure (metadata : Entries Value)
  | ignored
  /-- The answer is at its end, and no more of the result can be asked for. -/
  | summary

/-- A request with its answer so far. -/
structure Exchange where
  request : Message.Kind
  purpose : Purpose
  watch : Watch
  records : Array (List Value) := #[]
  success : Option Success := none
  failure : Option Failure := none
  ignored : Bool := false
  complete : Bool := false

namespace Exchange

def ofRequest (request : Message.Kind) (purpose : Purpose) (watch : Watch) : Exchange :=
  { request, purpose, watch }

/-- A notice for whoever asked for it. -/
def tell (wanted : Bool) (notice : Notice) : List Notice := if wanted then [notice] else []

def addRecord (x : Exchange) (values : List Value) : Exchange × List Notice :=
  ({ x with records := x.records.push values }, tell x.watch.records (.record values))

/-- The request went well. While there is more of the result, the summary is not told. -/
def succeed (x : Exchange) (s : Success) : Exchange × List Notice :=
  ({ x with success := some s, complete := true },
    tell x.watch.success (.success s.metadata) ++ tell (x.watch.summary && !s.hasMore) .summary)

def fail (x : Exchange) (f : Failure) : Exchange × List Notice :=
  ({ x with failure := some f, complete := true },
    tell x.watch.failure (.failure f.metadata) ++ tell x.watch.summary .summary)

/-- The request was passed over, because an earlier one failed. -/
def ignore (x : Exchange) : Exchange × List Notice :=
  ({ x with ignored := true, complete := true },
    tell x.watch.ignored .ignored ++ tell x.watch.summary .summary)

/-- The answer is over and nobody is told. -/
def finish (x : Exchange) : Exchange := { x with complete := true }

/-- The names of the columns, if they were told. -/
def columns (x : Exchange) : List String := (x.success.bind Success.fields?).getD []

def hasMore (x : Exchange) : Bool := (x.success.map Success.hasMore).getD false

end Exchange
end BoltClient
