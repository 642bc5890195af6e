import QueryFlux.Auth.Provider
import QueryFlux.Lib.LastWrite

/-!
# Connection pools of an ADBC cluster

A cluster has a base pool with the options of its configuration. A query that comes with a token or
a password of its own, or whose session asks for another role, warehouse or schema than the
configuration has, runs on a pool of its scope (`PoolScopeKey`); its options are the `dbKwargs` of
the configuration followed by those of the scope. The driver takes the options in order, and the
last value given for an option counts.
-/

namespace QueryFlux.Snowflake

open Core Lib

/-! ## Options and keys -/

inductive OptionDatabase
  | uri | username | password
  | other (key : String)
  deriving DecidableEq

abbrev Options := List (OptionDatabase × String)

structure AdbcConfig where
  driver : String
  uri : String
  username : Option String
  password : Option String
  -- as PKCS#8
  privateKeyPem : Option String
  privateKeyPassphrase : Option String
  dbKwargs : List (String × String)
  -- `dbKwargs` are the members of a JSON object
  distinct : (dbKwargs.map Prod.fst).Nodup

/-- What distinguishes the connection pools of one cluster. -/
structure PoolScopeKey where
  token : Option String
  passthrough : Option (String × String)
  role : Option String
  warehouse : Option String
  schema : Option String
  deriving DecidableEq

def PoolScopeKey.isEmpty (key : PoolScopeKey) : Bool :=
  key.token.isNone && key.passthrough.isNone && key.role.isNone && key.warehouse.isNone &&
    key.schema.isNone

def variantFieldToDbKwarg (driver key : String) : Option String :=
  match driver, key with
  | "snowflake", "warehouse" => some "adbc.snowflake.sql.warehouse"
  | "snowflake", "role" => some "adbc.snowflake.sql.role"
  | "snowflake", "database" => some "adbc.snowflake.sql.db"
  | "snowflake", "schema" => some "adbc.snowflake.sql.schema"
  | "databricks", "httpPath" => some "http_path"
  | "bigquery", "project" => some "project_id"
  | "redshift", "workgroup" => some "workgroup"
  | _, _ => none

def dbKwarg (dbKwargs : List (String × String)) (key : String) : Option String :=
  (dbKwargs.find? (·.1 = key)).map Prod.snd

/-- The value the session asks for, where it is another one than the configuration has. -/
def overridden (driver : String) (baseDbKwargs : List (String × String)) (session : SessionContext)
    (field : String) : Option String := do
  let requested ← session.extra ("snowflake." ++ field)
  let mappedKey ← variantFieldToDbKwarg driver field
  if dbKwarg baseDbKwargs mappedKey ≠ some requested then some requested else none

def passthroughOf (session : SessionContext) : Option (String × String) := do
  let username ← session.extra "snowflake.passthrough_username"
  let password ← session.extra "snowflake.passthrough_password"
  return (username, password)

def scopeKey (driver : String) (baseDbKwargs : List (String × String)) (session : SessionContext)
    (credentials : QueryCredentials) : PoolScopeKey where
  token := match credentials with
    | .bearer token => some token
    | _ => none
  passthrough := if credentials = .passthrough then passthroughOf session else none
  role := overridden driver baseDbKwargs session "role"
  warehouse := overridden driver baseDbKwargs session "warehouse"
  schema := overridden driver baseDbKwargs session "schema"

/-! ## Keys -/

def computeScopedPoolKey (driver : String) (baseDbKwargs : List (String × String))
    (session : SessionContext) (credentials : QueryCredentials) : Option PoolScopeKey :=
  let key := scopeKey driver baseDbKwargs session credentials
  if key.isEmpty then none else some key

/-! ## Options of a pool -/

def oauthTokenOptions (driver token : String) : Except String Options :=
  match driver with
  | "snowflake" => .ok
      [(.other "adbc.snowflake.sql.auth_type", "auth_oauth"),
        (.other "adbc.snowflake.sql.client_option.auth_token", token)]
  | other => .error ("ADBC driver '" ++ other ++
      "' has no tokenExchange connection-option wiring in this release")

def jwtAuthOptions (driver privateKeyPem : String) (passphrase : Option String) :
    Except String Options :=
  match driver with
  | "snowflake" => .ok
      ([(.other "adbc.snowflake.sql.auth_type", "auth_jwt")] ++
        (passphrase.map fun pass =>
          (.other "adbc.snowflake.sql.client_option.jwt_private_key_pkcs8_password",
            pass)).toList ++
        [(.other "adbc.snowflake.sql.client_option.jwt_private_key_pkcs8_value", privateKeyPem)])
  | other => .error ("ADBC driver '" ++ other ++
      "' has no keyPair connection-option wiring in this release")

def fieldOption (driver field : String) (value : Option String) : Options :=
  match value, variantFieldToDbKwarg driver field with
  | some value, some mapped => [(.other mapped, value)]
  | _, _ => []

def passthroughOptions : Option (String × String) → Options
  | some (username, password) =>
    [(.other "adbc.snowflake.sql.auth_type", "auth_snowflake"), (.username, username),
      (.password, password)]
  | none => []

def scopedPoolOptions (driver : String) (key : PoolScopeKey) : Except String Options := do
  let tokenOptions ← match key.token with
    | some token => oauthTokenOptions driver token
    | none => .ok []
  return tokenOptions ++ passthroughOptions key.passthrough ++ fieldOption driver "role" key.role ++
    fieldOption driver "warehouse" key.warehouse ++ fieldOption driver "schema" key.schema

namespace AdbcConfig

def kwargOptions (config : AdbcConfig) : Options :=
  config.dbKwargs.map fun (k, v) => (.other k, v)

def baseOptions (config : AdbcConfig) : Except String Options := do
  let auth ← match config.privateKeyPem with
    | some pem => jwtAuthOptions config.driver pem config.privateKeyPassphrase
    | none => .ok (config.password.map fun p => (.password, p)).toList
  return [(.uri, config.uri)] ++ (config.username.map fun u => (.username, u)).toList ++ auth ++
    config.kwargOptions

/-- A later option overrides an earlier one with the same key. -/
def scopedOptions (config : AdbcConfig) (key : PoolScopeKey) : Except String Options := do
  let opts ← scopedPoolOptions config.driver key
  return [(.uri, config.uri)] ++ config.kwargOptions ++ opts

end AdbcConfig

inductive PoolId
  | base
  | scoped (key : PoolScopeKey)
  deriving DecidableEq

def noPassthrough : String :=
  "ADBC passthrough requires a verified username/password captured at " ++
    "Snowflake login — none was available for this session"

namespace AdbcConfig

def poolOptions (config : AdbcConfig) : PoolId → Except String Options
  | .base => config.baseOptions
  | .scoped key => config.scopedOptions key

/-- The pool `execute_as_arrow` takes. Without its own credential a `passthrough` query gets
none. -/
def poolFor (config : AdbcConfig) (session : SessionContext) (credentials : QueryCredentials) :
    Except String PoolId :=
  match computeScopedPoolKey config.driver config.dbKwargs session credentials with
  | some key =>
    if credentials = .passthrough ∧ key.passthrough = none then .error noPassthrough
    else .ok (.scoped key)
  | none => if credentials = .passthrough then .error noPassthrough else .ok .base

end AdbcConfig

def queryAuthSupported (driver : String) : Auth.QueryAuthConfig → Bool
  | .serviceAccount => true
  | .tokenExchange _ | .passthrough => driver = "snowflake"
  | .impersonate => false

structure SnowflakeCluster where
  config : AdbcConfig
  queryAuth : Option Auth.QueryAuthConfig
  snowflake : config.driver = "snowflake"
  supported : ∀ mode, queryAuth = some mode → queryAuthSupported config.driver mode = true

end QueryFlux.Snowflake
