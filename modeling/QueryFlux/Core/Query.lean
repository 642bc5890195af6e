import QueryFlux.Core.Text

/-!
# Queries, sessions and identities

The vocabulary every stage of the proxy shares: frontend protocols, engines and SQL dialects, the
session a frontend extracts from a request and the identity an authentication provider returns
for its credentials. The two users are kept apart: `SessionContext.user` is what the client
declared, `AuthContext.user` what was verified.

A hash map that is only looked up, inserted into and filtered is a function to `Option`.
-/

namespace QueryFlux.Core

/-- A JSON value, with numbers as their text. -/
inductive Json
  | null
  | bool (b : Bool)
  | number (text : String)
  | string (s : String)
  | array (items : List Json)
  | object (members : List (String × Json))

/-! ## Dialects and engines -/

inductive SqlDialect
  | trino | athena | duckDb | starRocks | clickHouse | mySql | postgres | sqlite | snowflake
  | bigQuery | databricks | msSql | redshift | exasol | generic
  -- any other dialect name sqlglot reads and writes
  | sqlglot (name : String)
  deriving DecidableEq

def SqlDialect.isCompatibleWith (src tgt : SqlDialect) : Bool :=
  src == tgt ||
    match src, tgt with
    | .mySql, .starRocks | .starRocks, .mySql => true
    | _, _ => false

inductive FrontendProtocol
  | trinoHttp | postgresWire | mySqlWire | clickHouseHttp | flightSql | snowflakeHttp
  | snowflakeSqlApi | mcp
  deriving DecidableEq

def FrontendProtocol.defaultDialect : FrontendProtocol → SqlDialect
  | trinoHttp => .trino
  | postgresWire => .postgres
  | mySqlWire => .mySql
  | clickHouseHttp => .clickHouse
  | flightSql | mcp => .generic
  | snowflakeHttp | snowflakeSqlApi => .snowflake

inductive EngineType
  | trino | duckDb | duckDbHttp | starRocks | clickHouse | athena | adbc | postgres | mySql
  | sqlite | snowflake | bigQuery | databricks | msSql | redshift | exasol | singleStore
  -- no engine at all: never dispatched, or served from the result cache
  | undispatched | cache
  deriving DecidableEq

/-- The lowercased variant name, as policies see the engine. -/
def EngineType.engineName : EngineType → String
  | trino => "trino"
  | duckDb => "duckdb"
  | duckDbHttp => "duckdbhttp"
  | starRocks => "starrocks"
  | clickHouse => "clickhouse"
  | athena => "athena"
  | adbc => "adbc"
  | postgres => "postgres"
  | mySql => "mysql"
  | sqlite => "sqlite"
  | snowflake => "snowflake"
  | bigQuery => "bigquery"
  | databricks => "databricks"
  | msSql => "mssql"
  | redshift => "redshift"
  | exasol => "exasol"
  | singleStore => "singlestore"
  | undispatched => "undispatched"
  | cache => "cache"

/-! ## Sessions -/

inductive QueryParam
  | text (s : String)
  | numeric (s : String)
  | boolean (b : Bool)
  | date (s : String)
  | timestamp (s : String)
  | time (s : String)
  | null
  deriving DecidableEq

abbrev QueryTags := String → Option (Option String)

/-- Tags of the session win over those of the group. -/
def mergeTags (base overrideTags : QueryTags) : QueryTags := fun k => overrideTags k <|> base k

inductive QueryIntent
  | schemaExploration | aggregation | lookup | mutation | unknown
  deriving DecidableEq

def QueryIntent.fromHeader (s : String) : QueryIntent :=
  match String.ofList (toLowercase s.toList) with
  | "schema_exploration" => .schemaExploration
  | "aggregation" => .aggregation
  | "lookup" => .lookup
  | "mutation" => .mutation
  | _ => .unknown

structure AgentContext where
  agentId : String
  conversationId : String
  stepIndex : Option Nat
  toolCallId : Option String
  queryIntent : QueryIntent
  deriving DecidableEq

/-- `str::parse::<u32>`: an optional `+`, then decimal digits, within range. -/
def parseU32 (s : String) : Option Nat :=
  let digits := match s.toList with
    | '+' :: cs => cs
    | cs => cs
  if digits ≠ [] ∧ digits.all Char.isDigit then
    let n := digits.foldl (fun n c => n * 10 + (c.toNat - '0'.toNat)) 0
    if n < 2 ^ 32 then some n else none
  else none

/-- Agent identity from headers or session parameters; the header form of a key wins. -/
def AgentContext.fromHeaders (headers : String → Option String) : Option AgentContext := do
  let agentId ← headers "x-agent-id" <|> headers "agent_id"
  let conversationId ← headers "x-conversation-id" <|> headers "conversation_id"
  return {
    agentId
    conversationId
    stepIndex := (headers "x-step-index" <|> headers "step_index").bind parseU32
    toolCallId := headers "x-tool-call-id" <|> headers "tool_call_id"
    queryIntent := ((headers "x-query-intent" <|> headers "query_intent").map
      QueryIntent.fromHeader).getD .unknown }

/-- What a frontend extracts from a request or connection. Nothing in it is verified. -/
structure SessionContext where
  user : Option String
  database : Option String
  catalog : Option String
  tags : QueryTags
  extra : String → Option String
  agentContext : Option AgentContext

def SessionContext.resolvedAgentContext (s : SessionContext) : Option AgentContext :=
  s.agentContext <|> AgentContext.fromHeaders s.extra

def SessionContext.withoutAuthHeaders (s : SessionContext) : SessionContext :=
  { s with extra := fun k =>
      if k = "authorization" ∨ k = "proxy-authorization" then none else s.extra k }

variable (session : SessionContext)

/-- A `dialect` entry of the session names the source dialect; otherwise the protocol implies
it. -/
def resolveSrcDialect (protocol : FrontendProtocol) : SqlDialect :=
  match session.extra "dialect" with
  | some name => .sqlglot name
  | none => protocol.defaultDialect

/-- Only an MCP client that declares no dialect skips translation. -/
def shouldAttemptTranslation (protocol : FrontendProtocol) : Bool :=
  protocol != .mcp || (session.extra "dialect").isSome

/-! ## Schemas and credentials -/

structure SchemaContext where
  catalog : Option String
  database : Option String
  tables : String → Option (List (String × String))

def SchemaContext.empty : SchemaContext := ⟨none, none, fun _ => none⟩

structure Credentials where
  username : Option String
  password : Option String
  bearerToken : Option String
  deriving DecidableEq

structure AuthContext where
  user : String
  groups : List String
  roles : List String
  rawToken : Option String
  rawPassword : Option String
  attributes : String → Option Json

inductive QueryCredentials
  | serviceAccount
  | passthrough
  | impersonate (user : String)
  | bearer (token : String)
  deriving DecidableEq

def insertIfAbsent (m : String → Option String) (key v : String) : String → Option String :=
  fun k => if k = key then m k <|> some v else m k

/-- For a `passthrough` cluster, the client's own credential goes into the session: a bearer
header when the frontend captured none, and the verified password of the user. -/
def enrichSessionForPassthrough (credentials : QueryCredentials) (auth : AuthContext) :
    SessionContext :=
  if credentials ≠ .passthrough then session
  else
    let extra := match auth.rawToken with
      | some token => insertIfAbsent session.extra "authorization" ("Bearer " ++ token)
      | none => session.extra
    let extra := match auth.rawPassword with
      | some password =>
        insertIfAbsent (insertIfAbsent extra "passthrough_username" auth.user)
          "passthrough_password" password
      | none => extra
    { session with extra }

@[simp] theorem enrichSessionForPassthrough_user (credentials : QueryCredentials)
    (auth : AuthContext) :
    (enrichSessionForPassthrough session credentials auth).user = session.user := by
  unfold enrichSessionForPassthrough
  split <;> rfl

end QueryFlux.Core
