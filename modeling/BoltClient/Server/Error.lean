import BoltClient.Message.Response

namespace BoltClient.Server

/-- Whose trouble it is. -/
inductive Classification where
  | client
  | transient
  | database
  | unknown
  deriving DecidableEq, Repr

/-- What kind of trouble it is. -/
inductive ErrorKind where
  | constraint
  | cypherSyntax
  | cypherType
  | forbidden
  | forbiddenOnReadOnlyDatabase
  | notALeader
  | auth
  | tokenExpired
  | authorizationExpired
  | databaseUnavailable
  | client
  | transient
  | database
  | unknown
  deriving DecidableEq, Repr

def Classification.name : Classification → String
  | client => "Client"
  | transient => "Transient"
  | database => "Database"
  | unknown => "Unknown"

/-- The classification that the second part of a code names. -/
def Classification.ofName (name : String) : Classification :=
  if name = "ClientError" then client
  else if name = "TransientError" then transient
  else if name = "DatabaseError" then database
  else unknown

namespace ErrorKind

def name : ErrorKind → String
  | constraint => "Constraint"
  | cypherSyntax => "CypherSyntax"
  | cypherType => "CypherType"
  | forbidden => "Forbidden"
  | forbiddenOnReadOnlyDatabase => "ForbiddenOnReadOnlyDatabase"
  | notALeader => "NotALeader"
  | auth => "Auth"
  | tokenExpired => "TokenExpired"
  | authorizationExpired => "AuthorizationExpired"
  | databaseUnavailable => "DatabaseUnavailable"
  | client => "Client"
  | transient => "Transient"
  | database => "Database"
  | unknown => "Unknown"

def constraintCodes : List String :=
  ["Neo.ClientError.Schema.ConstraintValidationFailed", "Neo.ClientError.Schema.ConstraintViolation",
    "Neo.ClientError.Statement.ConstraintVerificationFailed",
    "Neo.ClientError.Statement.ConstraintViolation"]

def cypherSyntaxCodes : List String :=
  ["Neo.ClientError.Statement.InvalidSyntax", "Neo.ClientError.Statement.SyntaxError"]

def cypherTypeCodes : List String :=
  ["Neo.ClientError.Procedure.TypeError", "Neo.ClientError.Statement.InvalidType",
    "Neo.ClientError.Statement.TypeError"]

def forbiddenCodes : List String :=
  ["Neo.ClientError.General.ReadOnly", "Neo.ClientError.Schema.ForbiddenOnConstraintIndex",
    "Neo.ClientError.Schema.IndexBelongsToConstraint", "Neo.ClientError.Security.Forbidden",
    "Neo.ClientError.Transaction.ForbiddenDueToTransactionType"]

def authCodes : List String :=
  ["Neo.ClientError.Security.AuthorizationFailed", "Neo.ClientError.Security.Unauthorized"]

/-- The kind of a code within its classification. -/
def ofCode (classification : Classification) (code : String) : ErrorKind :=
  match classification with
  | .client =>
    if code ∈ constraintCodes then constraint
    else if code ∈ cypherSyntaxCodes then cypherSyntax
    else if code ∈ cypherTypeCodes then cypherType
    else if code = "Neo.ClientError.General.ForbiddenOnReadOnlyDatabase" then
      forbiddenOnReadOnlyDatabase
    else if code ∈ forbiddenCodes then forbidden
    else if code ∈ authCodes then auth
    else if code = "Neo.ClientError.Security.TokenExpired" then tokenExpired
    else if code = "Neo.ClientError.Cluster.NotALeader" then notALeader
    else client
  | .transient =>
    if code = "Neo.TransientError.General.DatabaseUnavailable" then databaseUnavailable
    else if code = "Neo.ClientError.Security.AuthorizationExpired" then authorizationExpired
    else transient
  | .database => database
  | .unknown => unknown

/-- Whether the same may go well later, or at another server. -/
def isRetryable : ErrorKind → Bool
  | transient | databaseUnavailable | authorizationExpired | notALeader
  | forbiddenOnReadOnlyDatabase => true
  | _ => false

end ErrorKind

/-- A failure, understood. -/
structure Error where
  code : String
  message : String
  classification : Classification
  category : String
  title : String
  kind : ErrorKind
  deriving DecidableEq, Repr

namespace Error

/-- The code where a server gives none. -/
def unknownCode : String := "Neo.DatabaseError.General.UnknownError"

/-- The message where a server gives none. -/
def unknownMessage : String := "An unknown error occurred"

def authorizationExpiredCode : String := "Neo.ClientError.Security.AuthorizationExpired"

def terminatedCode : String := "Neo.TransientError.Transaction.Terminated"

def lockClientStoppedCode : String := "Neo.TransientError.Transaction.LockClientStopped"

/-- The code that a code stands for. -/
def renamed (code : String) : String :=
  if code = terminatedCode then "Neo.ClientError.Transaction.Terminated"
  else if code = lockClientStoppedCode then "Neo.ClientError.Transaction.LockClientStopped"
  else code

/-- The classification of a code whose second part is given. -/
def classify (code name : String) : Classification :=
  if code = authorizationExpiredCode then .transient
  else if code = terminatedCode ∨ code = lockClientStoppedCode then .client
  else Classification.ofName name

/-- The error of a code and a message, either of which may be missing. -/
def ofCode (code? message? : Option String) : Error :=
  let code := code?.getD unknownCode
  let message := message?.getD unknownMessage
  match code.splitOn "." with
  | [_, name, category, title] =>
    let classification := classify code name
    let code := renamed code
    ⟨code, message, classification, category, title, .ofCode classification code⟩
  | _ => ⟨code, message, .database, "General", "UnknownError", .database⟩

def ofFailure (f : Failure) : Error := ofCode f.code? f.message?

def isRetryable (e : Error) : Bool := e.kind.isRetryable

/-- Whether every connection must log in anew. -/
def invalidatesAll (e : Error) : Bool := e.code = authorizationExpiredCode

def isSecurity (e : Error) : Bool := "Neo.ClientError.Security.".isPrefixOf e.code

/-- Codes that end the search for a routing table, whatever other servers might say. -/
def fatalCodes : List String :=
  ["Neo.ClientError.Database.DatabaseNotFound", "Neo.ClientError.Transaction.InvalidBookmark",
    "Neo.ClientError.Transaction.InvalidBookmarkMixture", "Neo.ClientError.Statement.TypeError",
    "Neo.ClientError.Statement.ArgumentError", "Neo.ClientError.Request.Invalid"]

/-- Whether no other server need be asked. -/
def isFatalInDiscovery (e : Error) : Bool :=
  e.code ∈ fatalCodes || (e.isSecurity && !e.invalidatesAll)

def text (e : Error) : String :=
  "\x7bcode: " ++ e.code ++ "\x7d \x7bmessage: " ++ e.message ++ "\x7d"

end Error
end BoltClient.Server
