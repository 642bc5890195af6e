import QueryFlux.Guardrails.Chain
import QueryFlux.Sql.Statement

/-!
# The access-control guard

`OpaAccessGuard.check` decides a statement by asking the policy connection of its cluster group:
once for each operation its write targets come under, and once for the tables it reads. What the
SQL parsers find in a statement is the parameter `SqlAnalysis`; everything the guard makes of it
is modelled.

What is asked about a statement is fixed beforehand, by its text, dialect, schema and group
(`ConnectionRuntime.planStatement`); the answers decide whether it goes on as it is, rewritten, or
not at all.
-/

namespace QueryFlux.Access

open Core Sql Lib Guardrails

/-! ## What the parsers find -/

/-- The kinds of parsed statements the guard tells apart. -/
inductive StatementKind
  | select | union | intersect | except | subquery
  | insert | update | delete | merge
  | createTable | dropTable | alterTable | createView | dropView | alterView
  | createSchema | dropSchema | dropNamespace | createDatabase | dropDatabase
  | truncate | truncateTable
  | other
  deriving DecidableEq

/-- A table the statement reads, or an object it writes or names. -/
structure ExtractedResource where
  catalog : Option String
  schema : Option String
  kind : ResourceKind
  table : String
  columns : Columns
  isWriteTarget : Bool
  value : Option String
  deriving DecidableEq

structure ExtractedStatement where
  resources : List ExtractedResource
  -- the statement reads tables besides naming its target
  embedsReads : Bool
  replaces : Bool
  -- the operation of the targets, when the statement kind does not tell it
  writeOperation : Option String
  grant : Option GrantDetail
  nestedWrites : Bool
  deriving DecidableEq

/-- What the rewrite puts on the scans of one name. -/
structure TablePolicy where
  table : String
  rowFilters : List String
  maskedColumns : List (String × String)
  deriving DecidableEq

/-- The SQL parsers: statement kinds, resources, and the two rewrites. -/
structure SqlAnalysis where
  statements : SqlDialect → String → Option (List StatementKind)
  isReadLikeFallback : String → Bool
  extractResources : SqlDialect → SchemaContext → String → Except String ExtractedStatement
  rewriteTableScans : SqlDialect → SchemaContext → String → List TablePolicy → Except String String
  applyWriteFilters : SqlDialect → String → List String → Except String String

def classifyOperation (sa : SqlAnalysis) (stmts : Option (List StatementKind)) (sql : String) :
    Operation :=
  match stmts.bind List.head? with
  | some .select | some .union | some .intersect | some .except | some .subquery => .tableSelect
  | some .insert => ⟨"table.insert"⟩
  | some .update => ⟨"table.update"⟩
  | some .delete => ⟨"table.delete"⟩
  | some .merge => ⟨"table.merge"⟩
  | some .createTable => ⟨"table.create"⟩
  | some .dropTable => ⟨"table.drop"⟩
  | some .alterTable => ⟨"table.alter"⟩
  | some .createView => ⟨"view.create"⟩
  | some .dropView => ⟨"view.drop"⟩
  | some .alterView => ⟨"view.alter"⟩
  | some .createSchema => ⟨"schema.create"⟩
  | some .dropSchema | some .dropNamespace => ⟨"schema.drop"⟩
  | some .createDatabase => ⟨"catalog.create"⟩
  | some .dropDatabase => ⟨"catalog.drop"⟩
  | some .truncate | some .truncateTable => ⟨"table.truncate"⟩
  | some .other => ⟨"statement.other"⟩
  | none => if sa.isReadLikeFallback sql then .tableSelect else ⟨"statement.other"⟩

/-- A `CREATE OR REPLACE` has to be allowed as a drop too. -/
def writeOperations (operation : Operation) (replaces : Bool) : List Operation :=
  if operation.isRead then []
  else operation :: (if replaces then operation.dropCounterpart.toList else [])

/-! ## Connections and groups -/

inductive OnMissingSchema
  | evaluate | deny
  deriving DecidableEq

/-- A policy connection. Validation rejects an operation the guard does not know. -/
structure ConnectionRuntime where
  operations : List Operation
  sessionParamKeys : List String
  onMissingSchema : OnMissingSchema
  supported : ∀ o ∈ operations, o.name ∈ Operation.supported

namespace ConnectionRuntime

variable (conn : ConnectionRuntime)

def evaluates (op : Operation) : Bool := conn.operations.any (· == op)

def evaluatesAnything : Bool := Operation.supported.any fun o => conn.evaluates ⟨o⟩

variable {conn} in
theorem evaluatesAnything_of_evaluates {op : Operation} (h : conn.evaluates op = true) :
    conn.evaluatesAnything = true := by
  have hmem : op ∈ conn.operations := by simpa [evaluates] using h
  exact List.any_eq_true.2 ⟨op.name, conn.supported op hmem, h⟩

end ConnectionRuntime

/-- What a cluster group sets instead of the guard's defaults. -/
structure GroupOverride where
  enabled : Option Bool
  connection : Option String
  deriving DecidableEq

structure OpaAccessGuard where
  enabled : Bool
  defaultConnection : Option String
  groups : String → Option GroupOverride
  connections : String → Option ConnectionRuntime

namespace OpaAccessGuard

variable (g : OpaAccessGuard)

def enabledForGroup (group : String) : Bool := ((g.groups group).bind (·.enabled)).getD g.enabled

def connectionNameForGroup (group : String) : Option String :=
  (g.groups group).bind (·.connection) <|> g.defaultConnection

def connectionForGroup (group : String) : Option (String × ConnectionRuntime) :=
  (g.connectionNameForGroup group).bind fun name => (g.connections name).map (name, ·)

def appliesToGroup (group : String) : Bool :=
  g.enabledForGroup group && (g.connectionForGroup group).any (·.2.evaluatesAnything)

end OpaAccessGuard

/-! ## Requests and answers -/

def deny (reason code : String) : GuardResult := .deny reason (some code)

def denyFirst (d : AccessDecision) : GuardResult :=
  let (table, reason) := d.firstDenied.getD ("", "access denied")
  deny ("access denied for " ++ table ++ ": " ++ reason) "ACCESS_DENIED"

def denyUcast : GuardResult :=
  deny "access control: structured (ucast) row filters are not implemented"
    "ACCESS_UCAST_UNIMPLEMENTED"

namespace ConnectionRuntime

variable (conn : ConnectionRuntime) (name : String) (sa : SqlAnalysis) (ctx : GuardContext)

def buildRequest (operation : Operation) (tables : List ExtractedResource)
    (grant : Option GrantDetail) : AccessRequest where
  grant := grant
  identity := ⟨ctx.user.getD "anonymous", ctx.groups, ctx.roles, ctx.attributes⟩
  operation := operation
  resources := tables.map fun r => ⟨r.kind, r.catalog, r.schema, r.table, r.columns, r.value⟩
  context := {
    clusterGroup := ctx.clusterGroup
    engine := ctx.engineType.engineName
    queryId := ""
    sessionParams := fun k => if k ∈ conn.sessionParamKeys then ctx.sessionExtra k else none }

def rewrite (policies : List TablePolicy) (writeFilters : Option (List String)) : GuardResult :=
  let scans := sa.rewriteTableScans ctx.dialect (ctx.schema.getD .empty) ctx.sql policies
  let rewritten := scans.bind fun sql =>
    match writeFilters with
    | some filters => sa.applyWriteFilters ctx.dialect sql filters
    | none => .ok sql
  match rewritten with
  | .ok sql => .rewrite sql
  | .error e =>
    deny ("access control: could not apply row filters/masks: " ++ e) "ACCESS_REWRITE_FAILED"

/-- The entry of a table, appended if there is none. -/
def updatePolicy (table : String) (f : TablePolicy → TablePolicy) :
    List TablePolicy → List TablePolicy
  | [] => [f ⟨table, [], []⟩]
  | p :: ps => if p.table = table then f p :: ps else p :: updatePolicy table f ps

def addFilters (policies : List TablePolicy) : List (String × String) → List TablePolicy
  | [] => policies
  | (table, expr) :: filters =>
    addFilters
      (updatePolicy table (fun p => { p with rowFilters := p.rowFilters ++ [expr] }) policies)
      filters

def addMasks (dialect : SqlDialect) (policies : List TablePolicy) :
    List (String × ColumnMask) → Except MaskRenderError (List TablePolicy)
  | [] => .ok policies
  | (table, mask) :: masks =>
    match renderMask mask mask.column dialect with
    | .error e => .error e
    | .ok rendered =>
      addMasks dialect
        (updatePolicy table
          (fun p => { p with maskedColumns := p.maskedColumns ++ [(mask.column, rendered)] })
          policies)
        masks

/-- The answer about the tables read: deny, let pass, or rewrite with filters and masks. -/
def finishReads (writeFilters : Option (List String)) (decision : AccessDecision) : GuardResult :=
  if !decision.isAllowed then denyFirst decision
  else if decision.hasUcastFilter then denyUcast
  else
    match addMasks ctx.dialect (addFilters [] decision.rowFilters) decision.columnMasks with
    | .error e => deny ("access control: " ++ e.message) "ACCESS_MASK_RENDER_FAILED"
    | .ok policies =>
      if policies.isEmpty && writeFilters.isNone then .allow
      else rewrite sa ctx policies writeFilters

/-- Ask for each operation of the write targets in turn, then for the tables read. `scope` holds
the row filters the write has to respect so far. -/
def checkOperations (targets reads : List ExtractedResource) (grant : Option GrantDetail)
    (checkReads : Bool) : List Operation → Option (List String) → Asking GuardResult
  | [], scope =>
    if checkReads then
      .ask (.access name (conn.buildRequest ctx .tableSelect reads none)) fun decision =>
        .done (finishReads sa ctx scope decision)
    else if scope.isNone then .done .allow
    else .done (rewrite sa ctx [] scope)
  | op :: ops, scope =>
    .ask (.access name (conn.buildRequest ctx op targets grant)) fun decision =>
      if !decision.isAllowed then .done (denyFirst decision)
      else if decision.hasUcastFilter then .done denyUcast
      else if !decision.columnMasks.isEmpty then
        .done (deny ("access control: the policy returned column masks for " ++ op.name ++
          ", which apply to reads only") "ACCESS_REWRITE_UNSUPPORTED_FOR_WRITE")
      else if decision.rowFilters.isEmpty then
        checkOperations targets reads grant checkReads ops scope
      else if op.name = "table.update" ∨ op.name = "table.delete" ∨ op.name = "table.merge" then
        checkOperations targets reads grant checkReads ops
          (some (decision.rowFilters.map Prod.snd))
      else
        .done (deny ("access control: the policy returned row filters for " ++ op.name ++
          ", which are only supported for table.select, table.update, table.delete and " ++
          "table.merge") "ACCESS_REWRITE_UNSUPPORTED_FOR_WRITE")

/-! ## One statement -/

/-- What to ask about a statement, fixed before the first answer. -/
structure Plan where
  targets : List ExtractedResource
  reads : List ExtractedResource
  grant : Option GrantDetail
  checkReads : Bool
  writeOps : List Operation

def planExtracted (operation : Operation) (statement : ExtractedStatement) :
    Except GuardResult Plan :=
  if statement.nestedWrites then
    .error (deny ("access control: a data-modifying statement nested inside a query is not " ++
      "supported") "ACCESS_UNSUPPORTED_STATEMENT")
  else
    let statementOp := (statement.writeOperation.map Operation.mk).getD operation
    let targets := statement.resources.filter (·.isWriteTarget)
    let reads := statement.resources.filter (!·.isWriteTarget)
    let checkReads := conn.evaluates .tableSelect && !reads.isEmpty &&
      (operation.isRead || statement.embedsReads)
    let writeOps := (writeOperations statementOp statement.replaces).filter conn.evaluates
    if !writeOps.isEmpty && targets.isEmpty then
      .error (deny ("access control: could not identify the target of " ++ statementOp.name)
        "ACCESS_ANALYSIS_FAILED")
    -- no base tables, or nothing this connection evaluates
    else if !checkReads && writeOps.isEmpty then .error .allow
    else if checkReads && conn.onMissingSchema == .deny && reads.any (·.columns == .all) then
      .error (deny
        "access control: table columns could not be resolved (onMissingSchema=deny)"
        "ACCESS_SCHEMA_UNRESOLVED")
    else .ok ⟨targets, reads, statement.grant, checkReads, writeOps⟩

/-- The verdict on a statement that is not an `EXPLAIN`, or what to ask about it. -/
def planStatement : Except GuardResult Plan :=
  match runsSqlItDoesNotShow ctx.sql (conn.evaluates ⟨"procedure.call"⟩),
    conn.evaluatesAnything with
  | some kind, true =>
    .error (deny ("access control: " ++ kind ++ " statements are not supported")
      "ACCESS_UNSUPPORTED_STATEMENT")
  | _, _ =>
    let stmts := sa.statements ctx.dialect ctx.sql
    if stmts.any (1 < ·.length) then
      .error (deny "access control: multi-statement queries are not supported"
        "ACCESS_MULTI_STATEMENT")
    else if !conn.evaluatesAnything then .error .allow
    else
      match sa.extractResources ctx.dialect (ctx.schema.getD .empty) ctx.sql with
      | .error e =>
        .error (deny ("access control: could not analyze query: " ++ e) "ACCESS_ANALYSIS_FAILED")
      | .ok statement => conn.planExtracted (classifyOperation sa stmts ctx.sql) statement

def checkStatement : Asking GuardResult :=
  match conn.planStatement sa ctx with
  | .error verdict => .done verdict
  | .ok p => conn.checkOperations name sa ctx p.targets p.reads p.grant p.checkReads p.writeOps none

end ConnectionRuntime

-- the verdict on an explained statement, with the text before it put back
def behindExplain (before : List Char) : GuardResult → GuardResult
  | .rewrite sql => .rewrite (String.ofList before ++ sql)
  | verdict => verdict

/-- The access-control guard's verdict on a query. An `EXPLAIN` is checked, and rewritten, as the
statement it explains. -/
def OpaAccessGuard.check (g : OpaAccessGuard) (sa : SqlAnalysis) (ctx : GuardContext) :
    Asking GuardResult :=
  if !g.enabledForGroup ctx.clusterGroup then .done .allow
  else
    match g.connectionForGroup ctx.clusterGroup with
    | none => .done .allow
    | some (name, conn) =>
      match h : explainSplit ctx.sql with
      | .notExplain => conn.checkStatement name sa ctx
      | .inner offset =>
        (g.check sa { ctx with sql := String.ofList (ctx.sql.toList.drop offset) }).map
          (behindExplain (ctx.sql.toList.take offset))
      | .unrecognized =>
        .done (if conn.evaluatesAnything then
            deny "access control: could not analyze the EXPLAIN statement" "ACCESS_ANALYSIS_FAILED"
          else .allow)
termination_by ctx.sql.length
decreasing_by
  rw [String.length_ofList]
  exact explainSplit_inner h

end QueryFlux.Access
