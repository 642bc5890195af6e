import QueryFlux.Dispatch.Pipeline

/-!
# Replaying and storing results under access control

Before a cached result is replayed, access control and the plan guards judge the request once more,
but not as the engine path does: the engine is the stand-in `cache`, the session still has its
prepared statements, and the guards see the client's text in the generic dialect. Whether the
result of a miss is stored is decided there too, before the engine path judges the query for real.

So a replayed request is one the engine path would have let through unchanged, and a rewritten
query's result is never stored, exactly under policies and guards that are `StandInFaithful`: what
they accept of the stand-in they accept of the engine (`cacheSafe_iff_standInFaithful`).
-/

namespace QueryFlux.Cache

open Core Access Dispatch Guardrails Lib

/-! ## A lookup that is safe -/

section
variable (live : LiveConfig) (state : AppState) (r : Request)
variable (answer : (q : Question) → Answer q)

/-- On the engine path, access control allows the request without rewriting it, and the plan
guards let its engine form pass. -/
structure AllowedUnchanged : Prop where
  stage : ∀ cluster adapter, state.acquireWaiting r.group = .ok cluster →
    live.adapters cluster = some adapter → (engineStage live state r adapter).run answer = .allowed
  guards : ∀ cluster adapter setup, state.acquireWaiting r.group = .ok cluster →
    live.adapters cluster = some adapter →
    setupAfterStage live state r cluster adapter .allowed = .ok setup →
    Passes answer (syncGuardContext r setup) (chains live r)

/-- A replay is of a request the engine path allows unchanged, and what is stored was not
rewritten by access control. -/
structure CacheSafe : Prop where
  replay : ∀ key, (executeToSink live state r).run answer = .replayed key →
    AllowedUnchanged live state r answer
  store : ∀ key setup, (executeToSink live state r).run answer = .executed (some key) (.ok setup) →
    setup.rewrote = false

variable {live state r answer}

theorem AllowedUnchanged.executeToSinkInner_run (h : AllowedUnchanged live state r answer)
    {cluster : String} {adapter : Adapter} (hcluster : state.acquireWaiting r.group = .ok cluster)
    (hadapter : live.adapters cluster = some adapter) :
    (executeToSinkInner live state r).run answer =
      setupAfterStage live state r cluster adapter .allowed := by
  rw [executeToSinkInner, Asks.run_bind, setupSyncQuery_eq hcluster hadapter, Asks.run_map,
    h.stage cluster adapter hcluster hadapter]
  cases hsetup : setupAfterStage live state r cluster adapter .allowed with
  | error => rfl
  | ok setup =>
    have hpass := h.guards cluster adapter setup hcluster hadapter hsetup
    rw [← runChains_isOk_iff answer (syncGuardContext r setup) (chains live r) []] at hpass
    rw [Asks.run_map]
    cases hrun : (runChains (syncGuardContext r setup) [] (chains live r)).run answer with
    | error => rw [hrun] at hpass; cases hpass
    | ok => rfl

variable (live state r answer) in
/-- The request gets as far as the lookup, with this key. -/
structure ReachesLookup (key : CacheKey) : Prop where
  key : cacheKey live state r = some key
  stage : (cacheStage live state r).run answer = .allowed
  guards : Passes answer (cacheGuardContext live r) (chains live r)

variable (live state r answer) in
theorem executeToSink_cases :
    (∃ message, (executeToSink live state r).run answer = .failed message) ∨
      (executeToSink live state r).run answer =
        .executed none ((executeToSinkInner live state r).run answer) ∨
      ∃ key, ReachesLookup live state r answer key ∧
        ((executeToSink live state r).run answer = .replayed key ∨
          (executeToSink live state r).run answer =
            .executed (some key) ((executeToSinkInner live state r).run answer)) := by
  unfold executeToSink
  split
  · exact .inl ⟨_, rfl⟩
  · split
    · exact .inr (.inl (Asks.run_map ..))
    · rename_i key hkey
      rw [Asks.run_bind]
      cases hstage : (cacheStage live state r).run answer with
      | denied | rewritten => exact .inr (.inl (Asks.run_map ..))
      | allowed =>
        rw [Asks.run_bind]
        cases hguards : (runPlanGuards live r).run answer with
        | error => exact .inl ⟨_, rfl⟩
        | ok =>
          have hpasses : Passes answer (cacheGuardContext live r) (chains live r) := by
            rw [← runChains_isOk_iff answer _ _ [], ← runPlanGuards, hguards]
            rfl
          refine .inr (.inr ⟨key, ⟨hkey, hstage, hpasses⟩, ?_⟩)
          dsimp only
          split
          · exact .inl rfl
          · exact .inr (Asks.run_map ..)
          · exact .inr (Asks.run_map ..)

theorem ReachesLookup.replayed {key : CacheKey} (h : ReachesLookup live state r answer key)
    (hauthorized : live.authorizes r.auth r.group = true)
    (hhit : state.tryStreamCached key = .hit) :
    (executeToSink live state r).run answer = .replayed key := by
  have hguards : ((runPlanGuards live r).run answer).isOk = true :=
    (runChains_isOk_iff answer _ _ []).2 h.guards
  unfold executeToSink
  simp only [hauthorized, Bool.not_true, Bool.false_eq_true, if_false, h.key, Asks.run_bind,
    h.stage]
  cases hrun : (runPlanGuards live r).run answer with
  | error => rw [hrun] at hguards; cases hguards
  | ok => simp [hhit]

theorem ReachesLookup.executed {key : CacheKey} (h : ReachesLookup live state r answer key)
    (hauthorized : live.authorizes r.auth r.group = true)
    (hmiss : state.tryStreamCached key = .miss) :
    (executeToSink live state r).run answer =
      .executed (some key) ((executeToSinkInner live state r).run answer) := by
  have hguards : ((runPlanGuards live r).run answer).isOk = true :=
    (runChains_isOk_iff answer _ _ []).2 h.guards
  unfold executeToSink
  simp only [hauthorized, Bool.not_true, Bool.false_eq_true, if_false, h.key, Asks.run_bind,
    h.stage]
  cases hrun : (runPlanGuards live r).run answer with
  | error => rw [hrun] at hguards; cases hguards
  | ok => simp [hmiss, executeUncached]

end

def requestFor (conn : ConnectionRuntime) (group : String) (auth : AuthContext)
    (session : SessionContext) (engineType : EngineType) (op : Operation)
    (tables : List ExtractedResource) (grant : Option GrantDetail) : AccessRequest :=
  conn.buildRequest (stageContext "" .generic engineType group auth session .empty fun _ => none)
    op tables grant

/-- What a policy or guard accepts of the stand-in it accepts of the engine. -/
structure StandInFaithful (answer : (q : Question) → Answer q) : Prop where
  /-- A decision that is clean for the engine `cache` and the session as sent is clean for every
  engine and the session without prepared statements. -/
  decisions : ∀ (conn : ConnectionRuntime) (name group : String) (auth : AuthContext)
    (session : SessionContext) (engineType : EngineType) (op : Operation)
    (tables : List ExtractedResource) (grant : Option GrantDetail),
    conn.Askable op tables grant →
    (answer (.access name (requestFor conn group auth session .cache op tables grant))).Clean =
      true →
    (answer (.access name (requestFor conn group auth (dropUncheckedSessionSql session) engineType
      op tables grant))).Clean = true
  /-- A guard that lets the client's text pass in the generic dialect, for a query the cache path
  allows, lets every engine form of that query pass. -/
  guards : ∀ (live : LiveConfig) (state : AppState) (r : Request) (cluster : String)
    (adapter : Adapter) (setup : SyncQuerySetup) (g : Guard), g.layer = .plan →
    (cacheKey live state r).isSome → (cacheStage live state r).run answer = .allowed →
    setupAfterStage live state r cluster adapter .allowed = .ok setup →
    (answer (.guard g (cacheGuardContext live r))).passes = true →
    (answer (.guard g (syncGuardContext r setup))).passes = true

section
variable {live : LiveConfig} {state : AppState} {r : Request}
variable {answer : (q : Question) → Answer q}

theorem stageOutcome_check_eq_allowed_iff {guard : OpaAccessGuard} {sa : SqlAnalysis}
    {ctx : GuardContext} :
    (runAccessControlStage sa guard ctx).run answer = .allowed ↔
      (guard.check sa ctx).run answer = .allow := by
  rw [runAccessControlStage, Asks.run_map]
  cases hres : (guard.check sa ctx).run answer with
  | warn reason => exact absurd hres (guard.check_ne_warn sa ctx reason)
  | _ => simp [stageOutcome]

theorem checkedSession_eq_drop {guard : OpaAccessGuard} {name : String} {conn : ConnectionRuntime}
    {op : Operation} (hguard : live.accessControlGuard = some guard)
    (hon : guard.enabledForGroup r.group = true)
    (hconn : guard.connectionForGroup r.group = some (name, conn))
    (hop : conn.evaluates op = true) :
    checkedSession live r r.session = dropUncheckedSessionSql r.session := by
  have hany := ConnectionRuntime.evaluatesAnything_of_evaluates hop
  have happlies : guard.appliesToGroup r.group = true := by
    rw [OpaAccessGuard.appliesToGroup, hon]
    exact (Option.any_eq_true _ _).2 ⟨_, hconn, hany⟩
  simp [checkedSession, hguard, happlies]

theorem engineStage_allowed (hfaithful : StandInFaithful answer)
    (h : (cacheStage live state r).run answer = .allowed) (adapter : Adapter) :
    (engineStage live state r adapter).run answer = .allowed := by
  unfold cacheStage accessStage at h
  unfold engineStage accessStage
  cases hguard : live.accessControlGuard with
  | none => rfl
  | some guard =>
    simp only [hguard] at h ⊢
    split_ifs with hon
    · rw [if_pos hon, stageOutcome_check_eq_allowed_iff] at h
      rw [stageOutcome_check_eq_allowed_iff]
      refine guard.check_eq_allow_of_clean state.sql h rfl rfl ?_ rfl ?_
      · simp [stageContext, schemaContext, hguard]
      · intro name conn op tables grant hconn hask hclean
        rw [checkedSession_eq_drop hguard hon hconn hask.evaluates]
        exact hfaithful.decisions conn name r.group r.auth r.session adapter.engineType op tables
          grant hask hclean
    · rfl

/-- The direction that every request uses. -/
theorem cacheSafe_of_standInFaithful (hfaithful : StandInFaithful answer) :
    CacheSafe live state r answer := by
  constructor
  · intro key hreplayed
    rcases executeToSink_cases live state r answer with
      ⟨_, h⟩ | h | ⟨key', hreach, -⟩
    · rw [h] at hreplayed; cases hreplayed
    · rw [h] at hreplayed; cases hreplayed
    · refine ⟨fun _ adapter _ _ => engineStage_allowed hfaithful hreach.stage adapter, ?_⟩
      intro cluster adapter setup _ _ hsetup chain hchain g hg hplan
      exact hfaithful.guards live state r cluster adapter setup g hplan
        (Option.isSome_of_eq_some hreach.key) hreach.stage hsetup
        (hreach.guards chain hchain g hg hplan)
  · intro key setup hexecuted
    rcases executeToSink_cases live state r answer with
      ⟨_, h⟩ | h | ⟨key', hreach, h | h⟩
    · rw [h] at hexecuted; cases hexecuted
    · rw [h] at hexecuted; cases hexecuted
    · rw [h] at hexecuted; cases hexecuted
    · rw [h] at hexecuted
      obtain ⟨-, hinner⟩ := SinkOutcome.executed.inj hexecuted
      obtain ⟨cluster, adapter, hsetup⟩ := setupSyncQuery_ok hinner
      rw [engineStage_allowed hfaithful hreach.stage adapter] at hsetup
      exact (submission_of_finishSetup hsetup).1

end

/-! ## Why the condition is needed -/

section
variable {name : String} {conn : ConnectionRuntime} {op : Operation}
variable {tables : List ExtractedResource} {grant : Option GrantDetail}
variable {answer : (q : Question) → Answer q}

def oneConnection (name : String) (conn : ConnectionRuntime) : OpaAccessGuard where
  enabled := true
  defaultConnection := some name
  groups := fun _ => none
  connections := fun n => if n = name then some conn else none

theorem oneConnection_connectionForGroup (group : String) :
    (oneConnection name conn).connectionForGroup group = some (name, conn) := by
  simp [OpaAccessGuard.connectionForGroup, OpaAccessGuard.connectionNameForGroup, oneConnection]

def asTargets (write : Bool) (tables : List ExtractedResource) : List ExtractedResource :=
  tables.map fun t => { t with isWriteTarget := write }

theorem buildRequest_asTargets (write : Bool) (ctx : GuardContext) :
    conn.buildRequest ctx op (asTargets write tables) grant =
      conn.buildRequest ctx op tables grant := by
  simp [ConnectionRuntime.buildRequest, asTargets, Function.comp_def]

def statementOn (op : Operation) (tables : List ExtractedResource) (grant : Option GrantDetail) :
    ExtractedStatement :=
  if op = .tableSelect then ⟨asTargets false tables, true, false, none, none, false⟩
  else ⟨asTargets true tables, true, false, some op.name, grant, false⟩

def analysisOn (op : Operation) (tables : List ExtractedResource) (grant : Option GrantDetail) :
    SqlAnalysis :=
  { ordersSql with extractResources := fun _ _ _ => .ok (statementOn op tables grant) }

theorem filter_asTargets (write : Bool) (tables : List ExtractedResource) :
    (asTargets write tables).filter (·.isWriteTarget) =
        (if write then asTargets write tables else []) ∧
      (asTargets write tables).filter (!·.isWriteTarget) =
        if write then [] else asTargets write tables := by
  cases write <;> simp [asTargets]

theorem asTargets_ne_nil (write : Bool) (h : tables ≠ []) : asTargets write tables ≠ [] := by
  simpa [asTargets] using h

theorem planExtracted_read (hask : conn.Askable .tableSelect tables grant) :
    conn.planExtracted .tableSelect (statementOn .tableSelect tables grant) =
      .ok ⟨[], asTargets false tables, none, true, []⟩ := by
  have hfilter := filter_asTargets false tables
  have hne := List.isEmpty_eq_false_iff.2 (asTargets_ne_nil false hask.tables_ne_nil)
  have hcolumns : (conn.onMissingSchema == .deny &&
      (asTargets false tables).any (·.columns == .all)) = false := by
    rw [Bool.and_eq_false_iff]
    by_cases hdeny : conn.onMissingSchema = .deny
    · right
      simpa [asTargets] using hask.columns_known rfl hdeny
    · left
      simpa using hdeny
  have hread : Operation.tableSelect.isRead = true := rfl
  simp [ConnectionRuntime.planExtracted, statementOn, hfilter, hne, hask.evaluates,
    writeOperations, hread, hcolumns]

theorem planExtracted_write (hask : conn.Askable op tables grant) (hwrite : op ≠ .tableSelect) :
    conn.planExtracted .tableSelect (statementOn op tables grant) =
      .ok ⟨asTargets true tables, [], grant, false, [op]⟩ := by
  have hfilter := filter_asTargets true tables
  have hne := List.isEmpty_eq_false_iff.2 (asTargets_ne_nil true hask.tables_ne_nil)
  have hread : op.isRead = false := by
    rw [Operation.isRead, beq_eq_false_iff_ne]
    intro hname
    exact hwrite (congrArg Operation.mk hname)
  simp [ConnectionRuntime.planExtracted, statementOn, hwrite, hfilter, hne, hask.evaluates,
    writeOperations, hread]

theorem planStatement_on (hask : conn.Askable op tables grant) {ctx : GuardContext}
    (hsql : ctx.sql = "SELECT 1") :
    conn.planStatement (analysisOn op tables grant) ctx = .ok
      (if op = .tableSelect then ⟨[], asTargets false tables, none, true, []⟩
        else ⟨asTargets true tables, [], grant, false, [op]⟩) := by
  have hshown (b : Bool) : Sql.runsSqlItDoesNotShow ctx.sql b = none := by
    rw [hsql]
    cases b <;> decide +kernel
  have hany := ConnectionRuntime.evaluatesAnything_of_evaluates hask.evaluates
  have hplan : conn.planStatement (analysisOn op tables grant) ctx =
      conn.planExtracted .tableSelect (statementOn op tables grant) := by
    rw [ConnectionRuntime.planStatement, hshown, hany]
    rfl
  rw [hplan]
  split_ifs with hread
  · subst hread
    exact planExtracted_read hask
  · exact planExtracted_write hask hread

theorem check_on_eq_allow_iff (hask : conn.Askable op tables grant) {ctx : GuardContext}
    (hsql : ctx.sql = "SELECT 1") :
    ((oneConnection name conn).check (analysisOn op tables grant) ctx).run answer = .allow ↔
      (answer (.access name (conn.buildRequest ctx op tables grant))).Clean = true := by
  have hsplit : Sql.explainSplit ctx.sql = .notExplain := by
    rw [hsql]
    decide +kernel
  rw [OpaAccessGuard.check_of_notExplain _ rfl (oneConnection_connectionForGroup _) hsplit,
    ConnectionRuntime.checkStatement_eq_allow_iff, planStatement_on hask hsql]
  by_cases hread : op = .tableSelect
  · subst hread
    have hgrant := hask.grant_read rfl
    subst hgrant
    rw [if_pos rfl, ← buildRequest_asTargets false ctx]
    exact ⟨fun h => h.reads rfl, fun h => ⟨by simp, fun _ => h⟩⟩
  · rw [if_neg hread, ← buildRequest_asTargets true ctx]
    exact ⟨fun h => h.writes op (.head _), fun h => ⟨by simpa using h, by simp⟩⟩

def onEngine (engineType : EngineType) (name : String) (conn : ConnectionRuntime) : LiveConfig :=
  { LiveConfig.plain ⟨false, engineType, .trino, true⟩ with
    accessControlGuard := some (oneConnection name conn)
    groupCacheSettings := fun _ => some ⟨60, none⟩ }

theorem decisions_of_cacheSafe (h : ∀ live state r, CacheSafe live state r answer)
    (group : String) (auth : AuthContext) (session : SessionContext) (engineType : EngineType)
    (hask : conn.Askable op tables grant)
    (hclean : (answer (.access name
      (requestFor conn group auth session .cache op tables grant))).Clean = true) :
    (answer (.access name (requestFor conn group auth (dropUncheckedSessionSql session) engineType
      op tables grant))).Clean = true := by
  let live := onEngine engineType name conn
  let state : AppState :=
    { AppState.plain (analysisOn op tables grant) with tryStreamCached := fun _ => .hit }
  let r : Request := ⟨"SELECT 1", [], session, .trinoHttp, group, auth⟩
  have hkey : (cacheKey live state r).isSome := by
    simp [cacheKey, effectiveCache, fixupsCanRun, live, state, onEngine, LiveConfig.plain,
      AppState.plain]
  obtain ⟨key, hkey⟩ := Option.isSome_iff_exists.1 hkey
  have hstage : (cacheStage live state r).run answer = .allowed :=
    stageOutcome_check_eq_allowed_iff.2 ((check_on_eq_allow_iff hask rfl).2 hclean)
  have hreach : ReachesLookup live state r answer key := ⟨hkey, hstage, by
    simp [Passes, chains, live, onEngine, LiveConfig.plain]⟩
  have hallowed := (h live state r).replay key (hreach.replayed rfl rfl)
  have hengine : (engineStage live state r _).run answer = .allowed := hallowed.stage _ _ rfl rfl
  rw [engineStage, checkedSession_eq_drop rfl rfl (oneConnection_connectionForGroup group)
    hask.evaluates] at hengine
  have hcheck := stageOutcome_check_eq_allowed_iff.1 hengine
  have hdecision := (check_on_eq_allow_iff hask rfl).1 hcheck
  exact hdecision

theorem guards_of_cacheSafe (h : ∀ live state r, CacheSafe live state r answer)
    (live : LiveConfig) (state : AppState) (r : Request) (cluster : String) (adapter : Adapter)
    (setup : SyncQuerySetup) (g : Guard) (hplan : g.layer = .plan)
    (hkey : (cacheKey live state r).isSome)
    (hstage : (cacheStage live state r).run answer = .allowed)
    (hsetup : setupAfterStage live state r cluster adapter .allowed = .ok setup)
    (hpasses : (answer (.guard g (cacheGuardContext live r))).passes = true) :
    (answer (.guard g (syncGuardContext r setup))).passes = true := by
  let live' : LiveConfig :=
    { live with
      authorizes := fun _ _ => true
      guardChain := some [g]
      groupGuardChains := fun _ => none
      adapters := fun _ => some adapter }
  let state' : AppState :=
    { state with
      acquireWaiting := fun _ => .ok cluster
      tryStreamCached := fun _ => .hit }
  have hchains : chains live' r = [[g]] := rfl
  obtain ⟨key, hkey⟩ := Option.isSome_iff_exists.1 hkey
  have hreach : ReachesLookup live' state' r answer key := by
    refine ⟨hkey, hstage, fun chain hchain g' hg' _ => ?_⟩
    obtain rfl : chain = [g] := by simpa [hchains] using hchain
    obtain rfl : g' = g := by simpa using hg'
    exact hpasses
  have hallowed := (h live' state' r).replay key (hreach.replayed rfl rfl)
  have hguards := hallowed.guards cluster adapter setup rfl rfl hsetup
  exact hguards [g] (by simp [hchains]) g (by simp) hplan

/-- Replaying and storing are safe for all configurations exactly when policies and guards accept of
the engine what they accept of its stand-in. -/
theorem cacheSafe_iff_standInFaithful (answer : (q : Question) → Answer q) :
    (∀ live state r, CacheSafe live state r answer) ↔ StandInFaithful answer := by
  constructor
  · intro h
    exact ⟨fun conn name group auth session engineType op tables grant hask hclean =>
      decisions_of_cacheSafe h group auth session engineType hask hclean, guards_of_cacheSafe h⟩
  · intro h live state r
    exact cacheSafe_of_standInFaithful h

end

/-! ## A policy that names its engine -/

def regionPolicy : (q : Question) → Answer q
  | .access _ request =>
    if request.context.engine = "trino" then
      AccessDecision.mk [⟨"orders", true, none, [⟨some "region = 'eu'", none⟩], []⟩]
    else AccessDecision.allowAll
  | .guard .. => GuardResult.allow

def regionConfig : LiveConfig :=
  { LiveConfig.plain ⟨false, .trino, .trino, true⟩ with
    accessControlGuard := some readGuard
    groupCacheSettings := fun _ => some ⟨60, none⟩ }

def regionState (lookup : CacheLookup) : AppState :=
  { AppState.plain ordersSql with tryStreamCached := fun _ => lookup }

def regionRequest : Request :=
  ⟨"SELECT * FROM orders", [], ⟨some "bob", none, none, fun _ => none, fun _ => none, none⟩,
    .trinoHttp, "default", ⟨"bob", [], [], none, none, fun _ => none⟩⟩

def regionKey : CacheKey := ⟨"SELECT * FROM orders", "default", [], none, none, "bob", []⟩

theorem regionRequest_reachesLookup (lookup : CacheLookup) :
    ReachesLookup regionConfig (regionState lookup) regionRequest regionPolicy regionKey := by
  refine ⟨rfl, ?_, by simp [Passes, chains, regionConfig, LiveConfig.plain]⟩
  have hcheck := check_readGuard (stageContext regionRequest.sql .trino .cache "default"
    regionRequest.auth regionRequest.session .empty (effectiveTags regionConfig regionRequest)) rfl
  refine stageOutcome_check_eq_allowed_iff.2 ?_
  exact (congrArg (Asks.run regionPolicy) hcheck).trans rfl

theorem regionRequest_engineStage (lookup : CacheLookup) :
    (engineStage regionConfig (regionState lookup) regionRequest
      ⟨false, .trino, .trino, true⟩).run regionPolicy =
        .rewritten "SELECT * FROM orders WHERE region = 'eu'" := by
  have hcheck := check_readGuard (stageContext regionRequest.sql .trino .trino "default"
    regionRequest.auth (checkedSession regionConfig regionRequest regionRequest.session) .empty
    (effectiveTags regionConfig regionRequest)) rfl
  have hrun : (readGuard.check ordersSql _).run regionPolicy =
      .rewrite "SELECT * FROM orders WHERE region = 'eu'" :=
    (congrArg (Asks.run regionPolicy) hcheck).trans (by decide +kernel)
  exact (Asks.run_map ..).trans (congrArg stageOutcome hrun)

/-- A miss stores the restricted rows under the key of the unrestricted query; a hit replays what
is there although the engine path would have restricted the query. -/
theorem restricted_result_stored_and_replayed :
    (∃ setup, (executeToSink regionConfig (regionState .miss) regionRequest).run regionPolicy =
        .executed (some regionKey) (.ok setup) ∧ setup.rewrote = true) ∧
      (executeToSink regionConfig (regionState .hit) regionRequest).run regionPolicy =
        .replayed regionKey ∧
      ¬ AllowedUnchanged regionConfig (regionState .hit) regionRequest regionPolicy := by
  refine ⟨?_, (regionRequest_reachesLookup .hit).replayed rfl rfl, fun h => ?_⟩
  · rw [(regionRequest_reachesLookup .miss).executed rfl rfl, executeToSinkInner, Asks.run_bind,
      setupSyncQuery_eq rfl rfl, Asks.run_map, regionRequest_engineStage]
    exact ⟨_, rfl, rfl⟩
  · have hallowed := h.stage "cluster-1" _ rfl rfl
    rw [regionRequest_engineStage] at hallowed
    cases hallowed

end QueryFlux.Cache
