import BoltClient.Address.Basic

namespace BoltClient.Routing

inductive Policy where
  /-- One with the fewest connections in use. -/
  | leastConnected
  /-- Each in turn. -/
  | roundRobin
  deriving DecidableEq, Repr, Inhabited

def Policy.name : Policy → String
  | leastConnected => "LeastConnected"
  | roundRobin => "RoundRobin"

/-- The addresses with the least count. -/
def leastOf (count : Address → Nat) (addresses : List Address) : List Address :=
  addresses.filter fun a => addresses.all fun b => count a ≤ count b

/-- A policy and the number of turns taken so far. -/
structure Selector where
  policy : Policy
  turn : UInt64 := 0
  deriving DecidableEq, Repr, Inhabited

namespace Selector

/-- The candidates among addresses: one of them is used next. -/
def candidates (s : Selector) (count : Address → Nat) (addresses : List Address) : List Address :=
  match s.policy with
  | .leastConnected => leastOf count addresses
  | .roundRobin => (addresses[s.turn.toNat % addresses.length]?).toList

/-- Takes a turn, if there is anything to select. Among several candidates `choice` decides. -/
def select (s : Selector) (count : Address → Nat) (choice : Nat) (addresses : List Address) :
    Option Address × Selector :=
  let candidates := s.candidates count addresses
  let taken := match s.policy, addresses with
    | .roundRobin, _ :: _ => { s with turn := s.turn + 1 }
    | _, _ => s
  (candidates[choice % candidates.length]?, taken)

end Selector
end BoltClient.Routing
