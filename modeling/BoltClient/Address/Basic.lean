import BoltClient.Error
import BoltClient.Text.Blank

namespace BoltClient

structure Address where
  host : String
  port : UInt16
  deriving DecidableEq, Repr

namespace Address

def defaultPort : UInt16 := 7687

instance : Inhabited Address := ⟨⟨"localhost", defaultPort⟩⟩

def unbracket (host : List Char) : List Char :=
  match host with
  | '[' :: inner => if inner.getLast? = some ']' then inner.dropLast else host
  | _ => host

/-- A host, in brackets or not, and a port. -/
def ofHost (host : List Char) (port : UInt16) : Address := ⟨String.ofList (unbracket host), port⟩

def isIPv6 (a : Address) : Bool := a.host.toList.contains ':'

def text (a : Address) : String :=
  (if a.isIPv6 then "[" ++ a.host ++ "]" else a.host) ++ ":" ++ toString a.port.toNat

/-- Why a text is not an address. -/
inductive Fault where
  | empty
  | malformed (s : String)
  | badPort (s : String)
  deriving DecidableEq, Repr

namespace Fault

def message : Fault → String
  | empty => "Empty server address"
  | malformed s => "Invalid server address: " ++ s
  | badPort s => "Invalid port in address: " ++ s

/-- A wrong address is a mistake in the configuration. -/
def toError (f : Fault) : Error := .configuration f.message

end Fault

/-- The number that decimal digits spell. -/
def ofDigits (digits : List Char) : Nat := digits.foldl (fun n c => 10 * n + (c.toNat - 48)) 0

/-- The port that a text spells: decimal digits, after a plus sign if there is one. -/
def port? (s : List Char) : Option UInt16 :=
  let digits := match s with
    | '+' :: digits => digits
    | _ => s
  if !digits.isEmpty && digits.all Char.isDigit && ofDigits digits < 0x10000 then
    some (UInt16.ofNat (ofDigits digits))
  else none

/-- What stands before the first `c` and what stands behind it. -/
def cut? (c : Char) : List Char → Option (List Char × List Char)
  | [] => none
  | d :: rest => if d = c then some ([], rest) else (cut? c rest).map fun (a, b) => (d :: a, b)

/-- The address that a text without blanks at its ends spells. -/
def ofTrimmed (s : List Char) (standard : UInt16) : Except Fault Address :=
  match s with
  | [] => .error .empty
  | '[' :: inner =>
    match cut? ']' inner with
    | none => .error (.malformed (String.ofList s))
    | some (host, []) => .ok (ofHost host standard)
    | some (host, ':' :: port) => withPort host port
    | some _ => .error (.malformed (String.ofList s))
  | _ =>
    if s.count ':' = 1 then
      match cut? ':' s with
      | some (c :: host, port) => withPort (c :: host) port
      | _ => .error (.malformed (String.ofList s))
    else .ok (ofHost s standard)
where
  /-- The address of a host and a written port. -/
  withPort (host port : List Char) : Except Fault Address :=
    match port? port with
    | some port => .ok (ofHost host port)
    | none => .error (.badPort (String.ofList s))

/-- The address that a text spells: a host, with `:` and a port if not the standard one; an IPv6 address
needs brackets only before a port. -/
def ofText (s : String) (standard : UInt16) : Except Fault Address :=
  ofTrimmed (Text.trim s.toList) standard

/-- By host, and by port where the hosts are the same. -/
def le (a b : Address) : Bool := a.host < b.host || (a.host = b.host && a.port ≤ b.port)

/-- Leaves out what equals its neighbour. -/
def mergeEqual : List Address → List Address
  | a :: b :: rest => if a = b then mergeEqual (b :: rest) else a :: mergeEqual (b :: rest)
  | rest => rest

/-- In order, each once. -/
def sorted (addresses : List Address) : List Address := mergeEqual (addresses.mergeSort le)

end Address
end BoltClient
