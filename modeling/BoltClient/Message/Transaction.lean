import BoltClient.Time.Duration
import BoltClient.Value.Basic

namespace BoltClient

/-- What a transaction does with the data. -/
inductive AccessMode where
  | write
  | read
  deriving DecidableEq, Repr, Inhabited

namespace AccessMode

def letter : AccessMode → String
  | read => "r"
  | write => "w"

def name : AccessMode → String
  | read => "READ"
  | write => "WRITE"

end AccessMode

/-- Whole milliseconds of a timeout. Half a millisecond goes to the even neighbour; zero means no timeout
to a server, so only no time at all becomes zero; and the number stays a 64-bit one. -/
def timeoutMillis (timeout : Duration) : Nat :=
  let whole := timeout.nanos / Duration.nanosPerMilli
  let rest := timeout.nanos % Duration.nanosPerMilli
  let rounded :=
    if 500000 < rest || (rest = 500000 && whole % 2 = 1) then whole + 1 else whole
  let nonzero := if rounded = 0 ∧ 0 < timeout.nanos then 1 else rounded
  min nonzero 0x7FFFFFFFFFFFFFFF

structure TransactionExtra where
  mode : AccessMode := .write
  database : Option String := none
  impersonatedUser : Option String := none
  bookmarks : List String := []
  metadata : Entries Value := []
  timeout : Option Duration := none

namespace TransactionExtra

/-- The extra map; what is left at its default is left out. -/
def entries (x : TransactionExtra) : Entries Value :=
  (match x.mode with
    | .read => [("mode", .text "r")]
    | .write => [])
  ++ (x.database.map fun db => ("db", Value.text db)).toList
  ++ (x.impersonatedUser.map fun user => ("imp_user", Value.text user)).toList
  ++ (if x.bookmarks.isEmpty then [] else [("bookmarks", .ofTexts x.bookmarks)])
  ++ (if x.metadata.isEmpty then [] else [("tx_metadata", .map x.metadata)])
  ++ (x.timeout.map fun t => ("tx_timeout", Value.int (Int64.ofNat (timeoutMillis t)))).toList

end TransactionExtra
end BoltClient
