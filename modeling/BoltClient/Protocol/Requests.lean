import BoltClient.Config.Connection
import BoltClient.Handshake.Version
import BoltClient.Message.Transaction

namespace BoltClient.Protocol

/-- Where routing tables come from when a procedure gives them. -/
def systemDatabase : String := "system"

/-- The query for the routing table of the home database. -/
def routingQuery : String := "CALL dbms.routing.getRoutingTable($context)"

/-- The query for the routing table of a named database. -/
def routingQueryForDatabase : String := "CALL dbms.routing.getRoutingTable($context, $database)"

/-- A filter can be asked for only where servers know filters. -/
def checkFilter (v : Version) (filter : Notification.Filter) : Except Error Unit :=
  if filter.isSet && !v.capabilities.notificationFilters then
    .error (.configuration
      ("Notification filtering is not supported for the Bolt Protocol " ++ v.text))
  else .ok ()

/-- Another user can be named only where servers know impersonation. -/
def checkUser (v : Version) : Option String → Except Error Unit
  | none => .ok ()
  | some user =>
    if v.capabilities.impersonation then .ok ()
    else .error (.configuration
      ("Impersonation is not supported in Bolt Protocol " ++ v.text ++ ". Trying to impersonate "
        ++ Text.quote user ++ "."))

/-- HELLO before it says who the client is. -/
def greeting (v : Version) (config : ConnectionConfig) : Hello :=
  let hello := Hello.ofUserAgent config.userAgent
  let hello := match v.capabilities.routingInHello, config.routingEntries with
    | true, some routing => hello.withRouting routing
    | _, _ => hello
  let hello := if v.capabilities.utcPatch then hello.withPatches ["utc"] else hello
  ⟨config.filter.addTo hello.extra⟩

/-- The requests that log in: HELLO with the auth map, or HELLO and LOGON. -/
def hello (v : Version) (config : ConnectionConfig) : Except Error (List Request) := do
  checkFilter v config.filter
  let greeting := greeting v config
  if v.capabilities.logon then return [.hello greeting, .logon config.auth.entries]
  else return [.hello (greeting.withAuth config.auth.entries)]

/-- The extra map of RUN and BEGIN. -/
def extraEntries (v : Version) (extra : TransactionExtra) (filter : Notification.Filter) :
    Except Error (Entries Value) := do
  checkUser v extra.impersonatedUser
  checkFilter v filter
  return filter.addTo extra.entries

/-- RUN, on its own or inside a transaction. -/
def run (v : Version) (query : String) (parameters : Entries Value) (extra : TransactionExtra)
    (filter : Notification.Filter) : Except Error Request :=
  return .run query parameters (← extraEntries v extra filter)

def begin (v : Version) (extra : TransactionExtra) (filter : Notification.Filter) :
    Except Error Request :=
  return .begin (← extraEntries v extra filter)

/-- How a routing table is asked for. -/
inductive RouteRequest where
  | message (route : Request)
  /-- A query whose only record is the routing table. -/
  | procedure (run pull : Request)

/-- The requests in the order in which they are sent. -/
def RouteRequest.requests : RouteRequest → List Request
  | message route => [route]
  | procedure run pull => [run, pull]

/-- The query for a routing table and its parameters. -/
def routingCall (context : Entries Value) : Option String → String × Entries Value
  | none => (routingQuery, [("context", .map context)])
  | some db => (routingQueryForDatabase, [("context", .map context), ("database", .text db)])

def route (v : Version) (context : Entries Value) (bookmarks : List String)
    (database user : Option String) : Except Error RouteRequest := do
  checkUser v user
  if v.capabilities.routeMessage then
    let database := if v.capabilities.routeDatabaseContext then RouteDatabase.context database user
      else RouteDatabase.name database
    return .message (.route context bookmarks database)
  else
    let (query, parameters) := routingCall context database
    let extra : TransactionExtra :=
      { mode := .read, database := some systemDatabase, bookmarks := bookmarks }
    return .procedure (.run query parameters extra.entries) (.pull (-1) (-1))

end BoltClient.Protocol
