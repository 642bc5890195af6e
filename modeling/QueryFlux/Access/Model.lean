import QueryFlux.Core.Query

/-!
# Data-level access control: requests and decisions

The neutral vocabulary between the guard and a policy engine: who asks, which operation, on which
resources, and the verdict with its row filters and column masks. A decision leaves a read as it
is exactly when it is `Clean`: everything allowed, no filter, no mask.
-/

namespace QueryFlux.Access

open Core

/-! ## Requests -/

structure Identity where
  user : String
  groups : List String
  roles : List String
  attributes : String → Option Json

/-- The namespaced name of what a statement does, such as `table.select`. -/
structure Operation where
  name : String
  deriving DecidableEq

namespace Operation

def supported : List String :=
  ["table.select", "table.insert", "table.update", "table.delete", "table.merge",
    "table.truncate", "table.create", "table.drop", "table.alter", "view.create", "view.drop",
    "view.alter", "schema.create", "schema.drop", "catalog.create", "catalog.drop",
    "session.set", "session.use", "role.create", "role.drop", "role.grant", "role.revoke",
    "role.set", "grant.grant", "grant.revoke", "function.create", "function.drop",
    "procedure.create", "procedure.drop", "procedure.call"]

def tableSelect : Operation := ⟨"table.select"⟩

def isRead (o : Operation) : Bool := o.name == "table.select"

/-- Creating with `OR REPLACE` also drops; the operation that this comes under. -/
def dropCounterpart (o : Operation) : Option Operation :=
  match splitOnce '.' o.name.toList with
  | some (kind, verb) =>
    if verb = "create".toList then some ⟨String.ofList kind ++ ".drop"⟩ else none
  | none => none

end Operation

/-- The columns a statement reads of a table; `all` where they are not known. -/
inductive Columns
  | all
  | named (columns : List String)
  deriving DecidableEq

inductive ResourceKind
  | table | view | schema | catalog | session | role | function | procedure
  deriving DecidableEq

structure AccessResource where
  kind : ResourceKind
  catalog : Option String
  schema : Option String
  table : String
  columns : Columns
  value : Option String
  deriving DecidableEq

structure RequestContext where
  clusterGroup : String
  engine : String
  queryId : String
  -- an allowlisted part of the client's session
  sessionParams : String → Option String

structure GrantDetail where
  privileges : List String
  grantees : List String
  withGrantOption : Bool
  deriving DecidableEq

structure AccessRequest where
  grant : Option GrantDetail
  identity : Identity
  operation : Operation
  resources : List AccessResource
  context : RequestContext

/-! ## Decisions -/

inductive MaskType
  | null | redact | showLast4 | showFirst4 | constant | dateShowYear | hash | custom
  deriving DecidableEq

/-- A condition in SQL, or in the structured form that is not implemented. -/
structure RowFilter where
  expression : Option String
  ucast : Option Json

structure ColumnMask where
  column : String
  maskType : MaskType
  value : Option String
  expression : Option String
  deriving DecidableEq

/-- The verdict on one resource, filed under its `schema.table`. -/
structure ResourceDecision where
  table : String
  allow : Bool
  reason : Option String
  rowFilters : List RowFilter
  columnMasks : List ColumnMask

structure AccessDecision where
  resources : List ResourceDecision

namespace AccessDecision

def allowAll : AccessDecision := ⟨[]⟩

def isAllowed (d : AccessDecision) : Bool := d.resources.all (·.allow)

def firstDenied (d : AccessDecision) : Option (String × String) :=
  (d.resources.find? (!·.allow)).map fun r => (r.table, r.reason.getD "access denied")

def rowFilters (d : AccessDecision) : List (String × String) :=
  d.resources.flatMap fun r => r.rowFilters.filterMap fun f => f.expression.map (r.table, ·)

def columnMasks (d : AccessDecision) : List (String × ColumnMask) :=
  d.resources.flatMap fun r => r.columnMasks.map (r.table, ·)

def hasUcastFilter (d : AccessDecision) : Bool :=
  d.resources.any fun r => r.rowFilters.any (·.ucast.isSome)

/-- The statement goes on as it is. -/
def Clean (d : AccessDecision) : Bool :=
  d.isAllowed && !d.hasUcastFilter && d.rowFilters.isEmpty && d.columnMasks.isEmpty

theorem clean_iff {d : AccessDecision} : d.Clean = true ↔
    d.isAllowed = true ∧ d.hasUcastFilter = false ∧ d.rowFilters = [] ∧ d.columnMasks = [] := by
  simp [Clean, and_assoc]

end AccessDecision

/-! ## Masks as SQL -/

inductive MaskRenderError
  | missingCustomExpression (column : String)
  | missingConstantValue (column : String)
  deriving DecidableEq

-- the `Debug` form of a string, for the characters a column name can hold
def debugQuoted (s : String) : String :=
  let escape : Char → List Char
    | '"' => ['\\', '"']
    | '\\' => ['\\', '\\']
    | '\n' => ['\\', 'n']
    | '\t' => ['\\', 't']
    | c => [c]
  "\"" ++ String.ofList (s.toList.flatMap escape) ++ "\""

def MaskRenderError.message : MaskRenderError → String
  | missingCustomExpression c => "CUSTOM mask for column " ++ debugQuoted c ++ " has no expression"
  | missingConstantValue c => "CONSTANT mask for column " ++ debugQuoted c ++ " has no value"

/-- The expression that stands for the column in a rewritten scan. -/
def renderMask (mask : ColumnMask) (c : String) (src : SqlDialect) :
    Except MaskRenderError String :=
  match mask.maskType with
  | .null => .ok "NULL"
  | .constant =>
    match mask.value with
    | some v =>
      let doubled := v.toList.flatMap fun q => if q = '\'' then ['\'', '\''] else [q]
      .ok ("'" ++ String.ofList doubled ++ "'")
    | none => .error (.missingConstantValue mask.column)
  | .redact =>
    match src with
    -- their three-argument form replaces only the first match
    | .postgres | .duckDb => .ok ("regexp_replace(" ++ c ++ ", '[A-Za-z0-9]', 'x', 'g')")
    | _ => .ok ("regexp_replace(" ++ c ++ ", '[A-Za-z0-9]', 'x')")
  | .showLast4 =>
    .ok ("CASE WHEN " ++ c ++ " IS NULL THEN NULL ELSE '****' || substr(" ++ c ++ ", -4) END")
  | .showFirst4 =>
    .ok ("CASE WHEN " ++ c ++ " IS NULL THEN NULL ELSE substr(" ++ c ++ ", 1, 4) || '****' END")
  | .dateShowYear => .ok ("date_trunc('year', " ++ c ++ ")")
  | .hash =>
    match src with
    | .trino | .athena => .ok ("to_hex(sha256(to_utf8(cast(" ++ c ++ " as varchar))))")
    | .snowflake => .ok ("sha2(cast(" ++ c ++ " as varchar), 256)")
    | .clickHouse | .starRocks => .ok ("hex(sha256(cast(" ++ c ++ " as varchar)))")
    | _ => .ok ("sha256(cast(" ++ c ++ " as varchar))")
  | .custom =>
    match mask.expression with
    | some e => .ok e
    | none => .error (.missingCustomExpression mask.column)

end QueryFlux.Access
