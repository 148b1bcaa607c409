import BoltClient.Address.Endpoint

namespace BoltClient

structure Resolver where
  /-- The addresses that are tried for an address, before any name service is asked. -/
  expand : Address → List Address

namespace Resolver

/-- Every address stands for itself. -/
def plain : Resolver := ⟨fun a => [a]⟩

/-- A mapping that a user gives; what comes twice is tried once. -/
def ofMapping (mapping : Address → List Address) : Resolver := ⟨fun a => (mapping a).eraseDups⟩

/-- Addresses in a table stand for those given there, all others for themselves. -/
def ofTable (table : List (Address × List Address)) : Resolver :=
  ofMapping fun a => (table.lookup a).getD [a]

/-- The endpoints that a name service has for all that is tried, each once. The first error counts only if there
are none. -/
def resolveBy (lookup : Address → Except Error (List Endpoint)) (r : Resolver) (a : Address) :
    Except Error (List Endpoint) :=
  let answers := (r.expand a).map lookup
  let endpoints := (answers.flatMap fun answer => answer.toOption.getD []).eraseDups
  match endpoints, answers.filterMap failure? with
  | [], e :: _ => .error e
  | endpoints, _ => .ok endpoints
where
  failure? {α : Type} : Except Error α → Option Error
    | .ok _ => none
    | .error e => some e

end Resolver
end BoltClient
