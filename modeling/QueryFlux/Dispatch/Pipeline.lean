import QueryFlux.Access.Verdict

/-!
# The query pipeline

A query on its way from a frontend to an engine: the access-control stage on the client's SQL,
dialect translation, the read-only invariant after a rewrite, backend credentials, parameter
interpolation, the plan guards, and in front of all that the result cache. `dispatchQuery` is the
path of asynchronous engines, `executeToSink` the path of synchronous ones and of cacheable
queries; both hand a `Submission` to the engine or end before it.

Capacity, parsers, translator, catalog, credential resolver and cache contents are parameters of
the environment; access-control policies and guards are asked.
-/

namespace QueryFlux.Dispatch

open Core Access Guardrails Lib

/-! ## Configuration and requests -/

structure Adapter where
  isAsync : Bool
  engineType : EngineType
  translationTargetDialect : SqlDialect
  supportsNativeParams : Bool
  deriving DecidableEq

structure GroupCacheConfig where
  ttlSecs : Nat
  maxEntrySizeMb : Option Nat
  deriving DecidableEq

structure LiveConfig where
  authorizes : AuthContext → String → Bool
  accessControlGuard : Option OpaAccessGuard
  guardChain : Option GuardChain
  groupGuardChains : String → Option GuardChain
  groupCacheSettings : String → Option GroupCacheConfig
  groupTranslationScripts : String → List String
  groupDefaultTags : String → QueryTags
  adapters : String → Option Adapter
  -- the group's member clusters and their config, as canonical bytes
  groupConfigFingerprint : String → List UInt8

structure SqlglotFailure where
  error : String
  rejectPassthrough : Bool
  deriving DecidableEq

structure TranslationService where
  enabled : Bool
  -- strict mode, or error-on-unsupported
  strict : Bool
  pythonScripts : List String
  translate : String → SqlDialect → SqlDialect → SchemaContext → List String → Bool →
    Except SqlglotFailure String
  resolveSchemaContext : SqlDialect → String → Option String → Option String → SchemaContext

inductive CacheLookup
  | hit | miss | failed
  deriving DecidableEq

/-- What the cache key is made from: the hashed input is an encoding of these. -/
structure CacheKey where
  sql : String
  group : String
  scope : List UInt8
  catalog : Option String
  database : Option String
  user : String
  params : List QueryParam
  deriving DecidableEq

/-- The services behind a frontend, by what they answer. -/
structure AppState where
  sql : SqlAnalysis
  isReadLike : SqlDialect → String → Bool
  isCacheable : SqlDialect → String → Bool
  interpolate : SqlDialect → String → List QueryParam → Except String String
  translation : TranslationService
  extractCacheHint : String → SessionContext → Option GroupCacheConfig
  resolveCredentials : AuthContext → String → Except String QueryCredentials
  -- the cluster a query of the group gets a slot on, once it has waited for one
  acquireWaiting : String → Except String String
  -- the same without waiting: none when the query is queued instead
  acquireNow : String → Except String (Option String)
  tryStreamCached : CacheKey → CacheLookup

structure Request where
  sql : String
  params : List QueryParam
  session : SessionContext
  protocol : FrontendProtocol
  group : String
  auth : AuthContext

/-- What the engine is given. -/
structure Submission where
  cluster : String
  sql : String
  session : SessionContext
  credentials : QueryCredentials
  tags : QueryTags
  params : List QueryParam

/-! ## Access control -/

inductive AccessStageOutcome
  | allowed
  | rewritten (sql : String)
  | denied (reason : String)
  deriving DecidableEq

def stageOutcome : GuardResult → AccessStageOutcome
  | .deny reason _ => .denied reason
  | .rewrite sql => .rewritten sql
  | .allow | .warn _ => .allowed

def stageContext (sql : String) (dialect : SqlDialect) (engineType : EngineType) (group : String)
    (auth : AuthContext) (session : SessionContext) (schema : SchemaContext) (tags : QueryTags) :
    GuardContext where
  sql := sql
  originalSql := none
  dialect := dialect
  engineType := engineType
  clusterGroup := group
  user := session.user
  groups := auth.groups
  roles := auth.roles
  attributes := auth.attributes
  agentContext := none
  queryTags := tags
  sessionExtra := session.extra
  schema := some schema

def runAccessControlStage (sa : SqlAnalysis) (guard : OpaAccessGuard) (ctx : GuardContext) :
    Asking AccessStageOutcome :=
  (guard.check sa ctx).map stageOutcome

def trinoPreparedStatementHeader : String := "x-trino-prepared-statement"

/-- Drop session data that would let the engine run SQL the guard never saw. -/
def dropUncheckedSessionSql (session : SessionContext) : SessionContext :=
  { session with
    extra := fun k =>
      if eqIgnoreAsciiCase k.toList trinoPreparedStatementHeader.toList then none
      else session.extra k }

section
variable (live : LiveConfig) (state : AppState) (r : Request)

def effectiveTags : QueryTags := mergeTags (live.groupDefaultTags r.group) r.session.tags

def srcDialect : SqlDialect := resolveSrcDialect r.session r.protocol

def schemaContext : SchemaContext :=
  if shouldAttemptTranslation r.session r.protocol || live.accessControlGuard.isSome then
    state.translation.resolveSchemaContext (srcDialect r) r.sql r.session.catalog
      r.session.database
  else .empty

/-- Statements prepared in the session are not checked, so they are removed. -/
def checkedSession (session : SessionContext) : SessionContext :=
  if live.accessControlGuard.any (·.appliesToGroup r.group) then dropUncheckedSessionSql session
  else session

/-- The access-control stage for the engine the query is going to, when the guard is enabled for
the group. -/
def accessStage (engineType : EngineType) (session : SessionContext) (schema : SchemaContext) :
    Asking AccessStageOutcome :=
  match live.accessControlGuard with
  | none => .done .allowed
  | some guard =>
    if guard.enabledForGroup r.group then
      runAccessControlStage state.sql guard
        (stageContext r.sql (srcDialect r) engineType r.group r.auth session schema
          (effectiveTags live r))
    else .done .allowed

end

/-- Translation to the target dialect. A failure that is neither strict nor final passes the text
through. -/
def TranslationService.maybeTranslate (t : TranslationService) (sql : String)
    (src tgt : SqlDialect) (schema : SchemaContext) (groupFixups : List String) :
    Except String String :=
  let combined := t.pythonScripts ++ groupFixups
  if src.isCompatibleWith tgt && combined.isEmpty then .ok sql
  else
    let result :=
      if t.enabled then t.translate sql src tgt schema combined t.strict
      else .error ⟨"required translation unavailable: sqlglot is not installed or could not be " ++
        "imported", false⟩
    match result with
    | .ok translated => .ok translated
    | .error failure =>
      if t.strict || failure.rejectPassthrough then .error failure.error else .ok sql

/-! ## The engine path -/

inductive PipelineError
  | denied (reason : String)
  | failed (message : String)
  | syncEngineRequired
  | queued
  deriving DecidableEq

def invariantViolated : String :=
  "access-control invariant violated: statement kind changed from read to non-read after " ++
    "rewrite/translation"

section
variable (live : LiveConfig) (state : AppState) (r : Request)

def engineSql (adapter : Adapter) (schema : SchemaContext) (accessControlled : String)
    (rewrote : Bool) : Except PipelineError String :=
  let translated :=
    if shouldAttemptTranslation r.session r.protocol then
      state.translation.maybeTranslate accessControlled (srcDialect r)
        adapter.translationTargetDialect schema (live.groupTranslationScripts r.group)
    else .ok accessControlled
  match translated with
  | .error e => .error (.failed e)
  | .ok sql =>
    -- a rewrite or translation must not turn a read into a write
    if rewrote && state.isReadLike (srcDialect r) r.sql &&
        !state.isReadLike adapter.translationTargetDialect sql then
      .error (.denied invariantViolated)
    else .ok sql

structure SyncQuerySetup where
  adapter : Adapter
  submission : Submission
  rewrote : Bool
  -- the translation before parameters were filled in, when it changed the text
  translatedSql : Option String

/-- Credentials, passthrough enrichment and parameter interpolation. -/
def finishSetup (cluster : String) (adapter : Adapter) (schema : SchemaContext)
    (session : SessionContext) (accessControlled : String) (rewrote : Bool) :
    Except PipelineError SyncQuerySetup :=
  match engineSql live state r adapter schema accessControlled rewrote with
  | .error e => .error e
  | .ok translated =>
    match state.resolveCredentials r.auth cluster with
    | .error e => .error (.failed e)
    | .ok credentials =>
      let interpolated :=
        if !r.params.isEmpty && !adapter.supportsNativeParams then
          (state.interpolate adapter.translationTargetDialect translated r.params).map (·, [])
        else .ok (translated, r.params)
      match interpolated with
      | .error e => .error (.failed e)
      | .ok (sql, params) =>
        .ok {
          adapter := adapter
          submission := {
            cluster := cluster
            sql := sql
            session := enrichSessionForPassthrough session credentials r.auth
            credentials := credentials
            tags := effectiveTags live r
            params := params }
          rewrote := rewrote
          translatedSql := if translated ≠ accessControlled then some translated else none }

variable {live state r} in
/-- What a setup that succeeds hands on: whether access control rewrote the query, the credentials
of the request's identity, and its session with what they add to it. -/
theorem submission_of_finishSetup {cluster : String} {adapter : Adapter} {schema : SchemaContext}
    {session : SessionContext} {sql : String} {rewrote : Bool} {setup : SyncQuerySetup}
    (h : finishSetup live state r cluster adapter schema session sql rewrote = .ok setup) :
    setup.rewrote = rewrote ∧
      state.resolveCredentials r.auth setup.submission.cluster = .ok setup.submission.credentials ∧
      setup.submission.session =
        enrichSessionForPassthrough session setup.submission.credentials r.auth := by
  unfold finishSetup at h
  split at h
  · cases h
  · split at h
    · cases h
    · rename_i credentials hcredentials
      dsimp only at h
      split at h
      · cases h
      · cases h
        exact ⟨rfl, hcredentials, rfl⟩

def setupAfterStage (cluster : String) (adapter : Adapter) :
    AccessStageOutcome → Except PipelineError SyncQuerySetup
  | .allowed =>
    finishSetup live state r cluster adapter (schemaContext live state r)
      (checkedSession live r r.session) r.sql false
  | .rewritten sql =>
    finishSetup live state r cluster adapter (schemaContext live state r)
      (checkedSession live r r.session) sql true
  | .denied reason => .error (.denied reason)

def engineStage (adapter : Adapter) : Asking AccessStageOutcome :=
  accessStage live state r adapter.engineType (checkedSession live r r.session)
    (schemaContext live state r)

/-- A cluster is picked first, because policies are asked about its engine. -/
def setupSyncQuery : Asking (Except PipelineError SyncQuerySetup) :=
  match state.acquireWaiting r.group with
  | .error e => .done (.error (.failed e))
  | .ok cluster =>
    match live.adapters cluster with
    | none => .done (.error (.failed ("No adapter for " ++ r.group ++ "/" ++ cluster)))
    | some adapter =>
      (engineStage live state r adapter).map (setupAfterStage live state r cluster adapter)

variable {live state r} in
theorem setupSyncQuery_eq {cluster : String} {adapter : Adapter}
    (hcluster : state.acquireWaiting r.group = .ok cluster)
    (hadapter : live.adapters cluster = some adapter) :
    setupSyncQuery live state r =
      (engineStage live state r adapter).map (setupAfterStage live state r cluster adapter) := by
  rw [setupSyncQuery, hcluster]
  simp only [hadapter]

def chains : List GuardChain :=
  live.guardChain.toList ++ (live.groupGuardChains r.group).toList

def syncGuardContext (setup : SyncQuerySetup) : GuardContext where
  sql := setup.translatedSql.getD setup.submission.sql
  originalSql := some r.sql
  dialect := setup.adapter.translationTargetDialect
  engineType := setup.adapter.engineType
  clusterGroup := r.group
  user := setup.submission.session.user
  groups := r.auth.groups
  roles := r.auth.roles
  attributes := r.auth.attributes
  agentContext := setup.submission.session.resolvedAgentContext
  queryTags := setup.submission.tags
  sessionExtra := setup.submission.session.extra
  schema := none

def executeToSinkInner : Asking (Except PipelineError SyncQuerySetup) :=
  (setupSyncQuery live state r).bind fun
    | .error e => .done (.error e)
    | .ok setup =>
      (runChains (syncGuardContext r setup) [] (chains live r)).map fun
        | .error reason => .error (.failed reason)
        | .ok _ => .ok setup

variable {live state r} in
theorem setupSyncQuery_ok {setup : SyncQuerySetup} {answer : (q : Question) → Answer q}
    (h : (executeToSinkInner live state r).run answer = .ok setup) :
    ∃ cluster adapter, setupAfterStage live state r cluster adapter
      ((engineStage live state r adapter).run answer) = .ok setup := by
  have hsetup : (setupSyncQuery live state r).run answer = .ok setup := by
    rw [executeToSinkInner, Asks.run_bind] at h
    cases hrun : (setupSyncQuery live state r).run answer with
    | error => rw [hrun] at h; cases h
    | ok =>
      rw [hrun] at h
      rw [Asks.run_map] at h
      split at h
      · cases h
      · exact h
  unfold setupSyncQuery at hsetup
  split at hsetup
  · cases hsetup
  · rename_i cluster hcluster
    split at hsetup
    · cases hsetup
    · rename_i adapter hadapter
      rw [Asks.run_map] at hsetup
      exact ⟨cluster, adapter, hsetup⟩

/-! ## The cache -/

def fixupsCanRun : Bool :=
  shouldAttemptTranslation r.session r.protocol &&
    (!(live.groupTranslationScripts r.group).isEmpty || !state.translation.pythonScripts.isEmpty)

def effectiveCache : Option GroupCacheConfig :=
  live.groupCacheSettings r.group <|> state.extractCacheHint r.sql r.session

def requestKey : CacheKey where
  sql := r.sql
  group := r.group
  scope := live.groupConfigFingerprint r.group
  catalog := r.session.catalog
  database := r.session.database
  user := r.auth.user
  params := r.params

def cacheKey : Option CacheKey :=
  if (effectiveCache live state r).isSome && !fixupsCanRun live state r &&
      state.isCacheable (srcDialect r) r.sql then
    some (requestKey live r)
  else none

/-- The guards of a lookup see an engine that stands in for the cluster. -/
def cacheGuardContext : GuardContext where
  sql := r.sql
  originalSql := none
  dialect := .generic
  engineType := .cache
  clusterGroup := r.group
  user := r.session.user
  groups := r.auth.groups
  roles := r.auth.roles
  attributes := r.auth.attributes
  agentContext := r.session.resolvedAgentContext
  queryTags := effectiveTags live r
  sessionExtra := r.session.extra
  schema := none

def runPlanGuards : Asking (Except String (List GuardAction)) :=
  runChains (cacheGuardContext live r) [] (chains live r)

/-- The access-control stage of the cache path: the engine is not known yet. -/
def cacheStage : Asking AccessStageOutcome :=
  accessStage live state r .cache r.session
    (state.translation.resolveSchemaContext (srcDialect r) r.sql r.session.catalog
      r.session.database)

inductive SinkOutcome
  | failed (message : String)
  | replayed (key : CacheKey)
  -- the engine path; its result is stored under the key, if there is one
  | executed (storedUnder : Option CacheKey) (setup : Except PipelineError SyncQuerySetup)

def executeUncached (storedUnder : Option CacheKey) : Asking SinkOutcome :=
  (executeToSinkInner live state r).map (.executed storedUnder)

/-- A replay needs the guards of the lookup; a miss goes the engine path, which asks again. -/
def executeToSink : Asking SinkOutcome :=
  if !live.authorizes r.auth r.group then
    .done (.failed ("user '" ++ r.auth.user ++
      "' is not authorized to run queries on cluster group '" ++ r.group ++ "'"))
  else
    match cacheKey live state r with
    | none => executeUncached live state r none
    | some key =>
      (cacheStage live state r).bind fun
        -- a forced miss, and nothing is stored either
        | .denied _ | .rewritten _ => executeUncached live state r none
        | .allowed =>
          (runPlanGuards live r).bind fun
            | .error reason => .done (.failed reason)
            | .ok _ =>
              match state.tryStreamCached key with
              | .hit => .done (.replayed key)
              | .miss | .failed => executeUncached live state r (some key)

def asyncGuardContext (adapter : Adapter) (session : SessionContext) (sql : String) :
    GuardContext where
  sql := sql
  originalSql := some r.sql
  dialect := adapter.translationTargetDialect
  engineType := adapter.engineType
  clusterGroup := r.group
  user := session.user
  groups := r.auth.groups
  roles := r.auth.roles
  attributes := r.auth.attributes
  agentContext := r.session.resolvedAgentContext
  queryTags := effectiveTags live r
  sessionExtra := session.extra
  schema := none

/-- Translation, interpolation and the plan guards, once access control has spoken. -/
def submitAsync (cluster : String) (adapter : Adapter) (schema : SchemaContext)
    (credentials : QueryCredentials) (session : SessionContext) (accessControlled : String)
    (rewrote : Bool) : Asking (Except PipelineError Submission) :=
  match engineSql live state r adapter schema accessControlled rewrote with
  | .error e => .done (.error e)
  | .ok translated =>
    let interpolated :=
      if !r.params.isEmpty then
        (state.interpolate adapter.translationTargetDialect translated r.params).map (·, [])
      else .ok (translated, r.params)
    match interpolated with
    | .error e => .done (.error (.failed e))
    | .ok (sql, params) =>
      (runChains (asyncGuardContext live r adapter session sql) [] (chains live r)).map fun
        | .error reason => .error (.failed reason)
        | .ok _ => .ok ⟨cluster, sql, session, credentials, effectiveTags live r, params⟩

def dispatchQuery : Asking (Except PipelineError Submission) :=
  if !live.authorizes r.auth r.group then
    .done (.error (.denied ("user '" ++ r.auth.user ++
      "' is not authorized to run queries on cluster group '" ++ r.group ++ "'")))
  else
    match state.acquireNow r.group with
    | .error e => .done (.error (.failed e))
    | .ok none => .done (.error .queued)
    | .ok (some cluster) =>
      match state.resolveCredentials r.auth cluster with
      | .error e => .done (.error (.failed e))
      | .ok credentials =>
        let enriched := enrichSessionForPassthrough r.session credentials r.auth
        match live.adapters cluster with
        | none => .done (.error (.failed ("No adapter for " ++ r.group ++ "/" ++ cluster)))
        | some adapter =>
          if !adapter.isAsync then .done (.error .syncEngineRequired)
          else
            let schema := schemaContext live state r
            let session := checkedSession live r enriched
            (accessStage live state r adapter.engineType session schema).bind fun
              | .allowed =>
                submitAsync live state r cluster adapter schema credentials session r.sql false
              | .rewritten sql =>
                submitAsync live state r cluster adapter schema credentials session sql true
              | .denied reason => .done (.error (.denied reason))

end

def LiveConfig.plain (adapter : Adapter) : LiveConfig where
  authorizes := fun _ _ => true
  accessControlGuard := none
  guardChain := none
  groupGuardChains := fun _ => none
  groupCacheSettings := fun _ => none
  groupTranslationScripts := fun _ => []
  groupDefaultTags := fun _ _ => none
  adapters := fun _ => some adapter
  groupConfigFingerprint := fun _ => []

/-- Capacity at once, nothing cached, and no translator: texts pass through. -/
def AppState.plain (sql : SqlAnalysis) : AppState where
  sql := sql
  isReadLike := fun _ _ => true
  isCacheable := fun _ _ => true
  interpolate := fun _ text _ => .ok text
  translation := ⟨false, false, [], fun text _ _ _ _ _ => .ok text, fun _ _ _ _ => .empty⟩
  extractCacheHint := fun _ _ => none
  resolveCredentials := fun _ _ => .ok .serviceAccount
  acquireWaiting := fun _ => .ok "cluster-1"
  acquireNow := fun _ => .ok (some "cluster-1")
  tryStreamCached := fun _ => .miss

theorem AppState.plain_maybeTranslate (sa : SqlAnalysis) (sql : String) (src tgt : SqlDialect)
    (schema : SchemaContext) (fixups : List String) :
    (AppState.plain sa).translation.maybeTranslate sql src tgt schema fixups = .ok sql := by
  unfold TranslationService.maybeTranslate
  simp [AppState.plain]

end QueryFlux.Dispatch
