import QueryFlux.Core.Query

/-!
# Sessions of the Snowflake frontend

A session keeps the database, schema, role and warehouse it was opened with. A `USE` statement that
is recognised changes them and is answered at once; any other query is handed on with a session
context made from them.

A token of the SQL tokenizer is its type and text; the tokenizer itself is a parameter. Requests of
one session come one after the other, and the session does not expire.
-/

namespace QueryFlux.Snowflake

open Core

/-! ## Tokens -/

inductive TokenType
  | quotedIdentifier | var | dot | keyword | other
  deriving DecidableEq

structure Token where
  tokenType : TokenType
  text : String
  deriving DecidableEq

/-- The tokenizer, which may refuse a text. -/
abbrev Tokenize := List Char → Option (List Token)

inductive SnowflakeUseTarget
  | warehouse | role | database | schema
  deriving DecidableEq

/-! ## Recognising a statement -/

/-- The rest behind the keyword, which starts with a blank or is empty. -/
def stripUseKeyword (sLower s keyword : List Char) : Option (List Char) :=
  if sLower = keyword then some (s.drop keyword.length)
  else if keyword.isPrefixOf sLower && (sLower.drop keyword.length).head?.any isWhitespace then
    some (s.drop keyword.length)
  else none

def useKeywords : List (String × SnowflakeUseTarget) :=
  [("use warehouse", .warehouse), ("use role", .role), ("use schema", .schema),
    ("use database", .database), ("use", .database)]

def isUseIdentifier (token : Token) : Bool :=
  if token.tokenType = .quotedIdentifier then !token.text.isEmpty
  else (token.tokenType = .var || token.tokenType = .keyword) &&
    token.text.toList.head?.any (fun c => c.isAlpha || c = '_') &&
    token.text.toList.all (fun c => c.isAlphanum || c = '_' || c = '$')

def useNames (target : SnowflakeUseTarget) : List Token → Option (List String)
  | [name] => if isUseIdentifier name then some [name.text] else none
  | [database, dot, schema] =>
    if target = .schema && dot.tokenType = .dot && isUseIdentifier database &&
      isUseIdentifier schema then some [database.text, schema.text] else none
  | _ => none

/-- The text is compared as it stands, then the names are tokenized. -/
def tryParseSnowflakeUse (tokenize : Tokenize) (sql : List Char) :
    Option (SnowflakeUseTarget × List String) := do
  let s := trimEndMatches (· = ';') (trim sql)
  let sLower := toLowercase s
  let (target, rest) ← useKeywords.findSome? fun (keyword, target) =>
    (stripUseKeyword sLower s keyword.toList).map fun rest => (target, rest)
  let names ← useNames target (← tokenize rest)
  return (target, names)

/-! ## Sessions -/

structure SnowflakeSession where
  authCtx : AuthContext
  group : String
  database : Option String
  schema : Option String
  role : Option String
  warehouse : Option String
  password : Option String

variable (session : SnowflakeSession)

def SnowflakeSession.setNamespace (database schema : Option String) : SnowflakeSession :=
  { session with database := database <|> session.database, schema := schema }

def SnowflakeSession.setRole (role : Option String) : SnowflakeSession :=
  { session with role := role }

def SnowflakeSession.setWarehouse (warehouse : Option String) : SnowflakeSession :=
  { session with warehouse := warehouse }

structure LoginRequest where
  databaseName : Option String
  schemaName : Option String
  roleName : Option String
  warehouse : Option String
  password : String

def loginSession (authCtx : AuthContext) (group : String) (login : LoginRequest) :
    SnowflakeSession where
  authCtx := authCtx
  group := group
  database := login.databaseName
  schema := login.schemaName
  role := login.roleName.filter (· ≠ "")
  warehouse := login.warehouse.filter (· ≠ "")
  password := if login.password = "" then none else some login.password

structure QueryBody where
  sqlText : Option String
  params : List QueryParam

structure ExecParams where
  sql : String
  params : List QueryParam
  sessionCtx : SessionContext
  protocol : FrontendProtocol
  group : String
  authCtx : AuthContext

inductive Reply
  | error (code message : String)
  -- the statement was executed, with the names the response shows
  | ok (database schema : String)
  | run (exec : ExecParams)

def sessionExtra : String → Option String
  | "snowflake.role" => session.role
  | "snowflake.warehouse" => session.warehouse
  | "snowflake.schema" => session.schema.filter (· ≠ "")
  | "snowflake.passthrough_username" => session.password.map fun _ => session.authCtx.user
  | "snowflake.passthrough_password" => session.password
  | _ => none

def sessionContext : SessionContext where
  user := some session.authCtx.user
  database := sessionExtra session "snowflake.schema"
  catalog := session.database
  tags := fun _ => none
  extra := sessionExtra session
  agentContext := none

def applyUse (target : SnowflakeUseTarget) (names : List String) : SnowflakeSession :=
  match target with
  | .warehouse => session.setWarehouse names.getLast?
  | .role => session.setRole names.getLast?
  | .database => session.setNamespace names.getLast? none
  | .schema => session.setNamespace names.dropLast.getLast? names.getLast?

variable {session}

/-- A `USE` statement is answered here, all others are executed. -/
def queryRequest (tokenize : Tokenize) (session : SnowflakeSession) (body : Option QueryBody) :
    SnowflakeSession × Reply :=
  match body with
  | none => (session, .error "390000" "Invalid request body")
  | some body =>
    match body.sqlText.filter (fun s => trim s.toList ≠ []) with
    | none => (session, .error "390000" "Missing or empty sqlText")
    | some sql =>
      match tryParseSnowflakeUse tokenize sql.toList with
      | some (target, names) =>
        let session := applyUse session target names
        (session, .ok (session.database.getD "") (session.schema.getD ""))
      | none =>
        (session, .run {
          sql := sql
          params := body.params
          sessionCtx := sessionContext session
          protocol := .snowflakeHttp
          group := session.group
          authCtx := session.authCtx })

def afterRequests (tokenize : Tokenize) : SnowflakeSession → List (Option QueryBody) →
    SnowflakeSession
  | session, [] => session
  | session, r :: rs => afterRequests tokenize (queryRequest tokenize session r).1 rs

end QueryFlux.Snowflake
