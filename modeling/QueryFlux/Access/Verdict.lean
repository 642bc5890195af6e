import QueryFlux.Access.Guard

/-!
# What a verdict of the access-control guard rests on

The guard puts its questions for the user, engine and session of the context it is given
(`OpaAccessGuard.check_all`), and lets a statement through unchanged exactly when every decision
it asks for is clean (`checkOperations_eq_allow_iff`). So when one context's decisions are clean
wherever another's are, what is allowed in the other context is allowed in the first
(`OpaAccessGuard.check_eq_allow_of_clean`).
-/

namespace QueryFlux.Access

open Core Sql Lib Guardrails

/-! ## When a statement is let pass -/

namespace ConnectionRuntime

variable (conn : ConnectionRuntime) (name : String) (sa : SqlAnalysis) (ctx : GuardContext)
variable {answer : (q : Question) → Answer q}

theorem updatePolicy_ne_nil (table : String) (f : TablePolicy → TablePolicy)
    (ps : List TablePolicy) : updatePolicy table f ps ≠ [] := by
  cases ps with
  | nil => simp [updatePolicy]
  | cons =>
    rw [updatePolicy]
    split <;> simp

theorem addFilters_eq_nil_iff {ps : List TablePolicy} {filters : List (String × String)} :
    addFilters ps filters = [] ↔ ps = [] ∧ filters = [] := by
  induction filters generalizing ps with
  | nil => simp [addFilters]
  | cons _ _ ih =>
    rw [addFilters, ih]
    simp [updatePolicy_ne_nil]

theorem addMasks_eq_nil_iff {dialect : SqlDialect} {ps : List TablePolicy}
    {masks : List (String × ColumnMask)} :
    addMasks dialect ps masks = .ok [] ↔ ps = [] ∧ masks = [] := by
  induction masks generalizing ps with
  | nil => simp [addMasks]
  | cons e _ ih =>
    rw [addMasks]
    cases renderMask e.2 e.2.column dialect with
    | error => simp
    | ok =>
      simp only [ih]
      simp [updatePolicy_ne_nil]

theorem rewrite_ne_allow (policies : List TablePolicy) (filters : Option (List String)) :
    rewrite sa ctx policies filters ≠ .allow := by
  unfold rewrite
  simp only
  split <;> simp [deny]

theorem finishReads_eq_allow_iff {scope : Option (List String)} {d : AccessDecision} :
    finishReads sa ctx scope d = .allow ↔ d.Clean = true ∧ scope = none := by
  rw [AccessDecision.clean_iff, finishReads]
  cases hallowed : d.isAllowed with
  | false => simp [denyFirst, deny]
  | true =>
    cases hucast : d.hasUcastFilter with
    | true => simp [denyUcast, deny]
    | false =>
      have hnil : addMasks ctx.dialect (addFilters [] d.rowFilters) d.columnMasks = .ok [] ↔
          d.rowFilters = [] ∧ d.columnMasks = [] := by
        rw [addMasks_eq_nil_iff, addFilters_eq_nil_iff]
        simp
      cases hmasks : addMasks ctx.dialect (addFilters [] d.rowFilters) d.columnMasks with
      | error =>
        rw [hmasks] at hnil
        simp [deny]
        tauto
      | ok policies =>
        cases policies with
        | nil => cases scope <;> simp_all [rewrite_ne_allow]
        | cons => simp_all [rewrite_ne_allow]

theorem checkOperations_scope_ne_allow (targets reads : List ExtractedResource)
    (grant : Option GrantDetail) (checkReads : Bool) (ops : List Operation)
    (filters : List String) :
    (conn.checkOperations name sa ctx targets reads grant checkReads ops (some filters)).run answer
      ≠ .allow := by
  induction ops generalizing filters with
  | nil =>
    cases checkReads with
    | true => simp [checkOperations, finishReads_eq_allow_iff]
    | false => simp [checkOperations, rewrite_ne_allow]
  | cons =>
    rw [checkOperations, Asks.run_ask]
    split_ifs <;> simp_all [denyFirst, denyUcast, deny]

/-- No planned question gets an answer that denies, filters or masks. -/
structure AllClean (answer : (q : Question) → Answer q) (p : Plan) : Prop where
  writes : ∀ op ∈ p.writeOps,
    (answer (.access name (conn.buildRequest ctx op p.targets p.grant))).Clean = true
  reads : p.checkReads = true →
    (answer (.access name (conn.buildRequest ctx .tableSelect p.reads none))).Clean = true

theorem allClean_cons_iff {targets reads : List ExtractedResource} {grant : Option GrantDetail}
    {checkReads : Bool} {op : Operation} {ops : List Operation} :
    conn.AllClean name ctx answer ⟨targets, reads, grant, checkReads, op :: ops⟩ ↔
      (answer (.access name (conn.buildRequest ctx op targets grant))).Clean = true ∧
        conn.AllClean name ctx answer ⟨targets, reads, grant, checkReads, ops⟩ := by
  constructor
  · intro h
    exact ⟨h.writes op (.head _),
      fun o ho => h.writes o (.tail _ ho), h.reads⟩
  · rintro ⟨hop, h⟩
    exact ⟨List.forall_mem_cons.2 ⟨hop, h.writes⟩, h.reads⟩

theorem checkOperations_eq_allow_iff (targets reads : List ExtractedResource)
    (grant : Option GrantDetail) (checkReads : Bool) (ops : List Operation) :
    (conn.checkOperations name sa ctx targets reads grant checkReads ops none).run answer = .allow ↔
      conn.AllClean name ctx answer ⟨targets, reads, grant, checkReads, ops⟩ := by
  induction ops with
  | nil =>
    cases checkReads with
    | true =>
      simp only [checkOperations, if_true, Asks.run_ask, Asks.run_done, finishReads_eq_allow_iff]
      exact ⟨fun h => ⟨by simp, fun _ => h.1⟩, fun h => ⟨h.reads rfl, trivial⟩⟩
    | false =>
      simp only [checkOperations, Bool.false_eq_true, if_false, Option.isNone_none, if_true,
        Asks.run_done, true_iff]
      exact ⟨by simp, by simp⟩
  | cons op _ ih =>
    rw [checkOperations, Asks.run_ask, allClean_cons_iff, ← ih]
    generalize answer (.access name (conn.buildRequest ctx op targets grant)) = d
    by_cases hclean : AccessDecision.Clean d = true
    · obtain ⟨hallowed, hucast, hfilters, hmasks⟩ := AccessDecision.clean_iff.1 hclean
      simp [hclean, hallowed, hucast, hfilters, hmasks]
    · -- only filters of an update, delete or merge are carried on, and they end in a rewrite
      refine iff_of_false ?_ fun h => hclean h.1
      rw [AccessDecision.clean_iff] at hclean
      split_ifs <;> simp_all [denyFirst, denyUcast, deny, checkOperations_scope_ne_allow]

theorem planStatement_congr {ctx₁ ctx₂ : GuardContext} (hsql : ctx₁.sql = ctx₂.sql)
    (hdialect : ctx₁.dialect = ctx₂.dialect) (hschema : ctx₁.schema = ctx₂.schema) :
    conn.planStatement sa ctx₁ = conn.planStatement sa ctx₂ := by
  unfold planStatement
  rw [hsql, hdialect, hschema]

theorem checkStatement_eq_allow_iff :
    (conn.checkStatement name sa ctx).run answer = .allow ↔
      match conn.planStatement sa ctx with
      | .error verdict => verdict = .allow
      | .ok p => conn.AllClean name ctx answer p := by
  rw [checkStatement]
  cases conn.planStatement sa ctx with
  | error => rfl
  | ok => exact conn.checkOperations_eq_allow_iff ..

/-- A request the guard can come to make: it names something, and an operation the connection
evaluates; a read carries no grant, and columns that are known if they have to be. -/
structure Askable (op : Operation) (tables : List ExtractedResource) (grant : Option GrantDetail) :
    Prop where
  evaluates : conn.evaluates op = true
  tables_ne_nil : tables ≠ []
  grant_read : op = .tableSelect → grant = none
  columns_known : op = .tableSelect → conn.onMissingSchema = .deny → ∀ t ∈ tables, t.columns ≠ .all

theorem dropCounterpart_ne_tableSelect (operation : Operation) :
    operation.dropCounterpart ≠ some .tableSelect := by
  unfold Operation.dropCounterpart
  split
  · split
    · rename_i kind _ _ _
      intro h
      have hname : String.ofList kind ++ ".drop" = "table.select" :=
        congrArg Operation.name (Option.some.inj h)
      have hlast := congrArg (fun s => s.toList.getLast?) hname
      simp at hlast
    · simp
  · simp

theorem tableSelect_notMem_writeOperations (operation : Operation) (replaces : Bool) :
    Operation.tableSelect ∉ writeOperations operation replaces := by
  unfold writeOperations
  split
  · exact List.not_mem_nil
  · rename_i hread
    rw [List.mem_cons, not_or]
    constructor
    · rintro rfl
      exact hread rfl
    · split
      · rw [Option.mem_toList]
        exact dropCounterpart_ne_tableSelect operation
      · exact List.not_mem_nil

theorem askable_of_planExtracted {operation : Operation} {statement : ExtractedStatement}
    {p : Plan} (h : conn.planExtracted operation statement = .ok p) :
    (∀ op ∈ p.writeOps, conn.Askable op p.targets p.grant) ∧
      (p.checkReads = true → conn.Askable .tableSelect p.reads none) := by
  unfold planExtracted at h
  simp only at h
  split_ifs at h with hnested htargets hnothing hschema
  cases h
  constructor
  · intro op hop
    obtain ⟨hmem, heval⟩ := List.mem_filter.1 hop
    have hwrite : op ≠ .tableSelect := by
      rintro rfl
      exact tableSelect_notMem_writeOperations _ _ hmem
    refine ⟨heval, fun hnil => htargets ?_, fun hread => absurd hread hwrite,
      fun hread => absurd hread hwrite⟩
    have hne := List.isEmpty_eq_false_iff.2 (List.ne_nil_of_mem hop)
    exact Bool.and_eq_true_iff.2 ⟨Bool.not_eq_true' _ ▸ hne, List.isEmpty_iff.2 hnil⟩
  · intro hreads
    refine ⟨?_, ?_, fun _ => rfl, fun _ hdeny t ht hall => hschema ?_⟩
    · simp only [Bool.and_eq_true] at hreads
      exact hreads.1.1
    · simp only [Bool.and_eq_true, Bool.not_eq_true', List.isEmpty_eq_false_iff] at hreads
      exact hreads.1.2
    · rw [Bool.and_eq_true, Bool.and_eq_true]
      exact ⟨⟨hreads, beq_iff_eq.2 hdeny⟩, List.any_eq_true.2 ⟨t, ht, beq_iff_eq.2 hall⟩⟩

theorem askable_of_planStatement {p : Plan} (h : conn.planStatement sa ctx = .ok p) :
    (∀ op ∈ p.writeOps, conn.Askable op p.targets p.grant) ∧
      (p.checkReads = true → conn.Askable .tableSelect p.reads none) := by
  unfold planStatement at h
  split at h
  · cases h
  · simp only at h
    split_ifs at h
    split at h
    · cases h
    · exact conn.askable_of_planExtracted h

/-! ## Which questions are asked -/

theorem checkOperations_all {P : Question → Prop}
    (h : ∀ op tables grant, P (.access name (conn.buildRequest ctx op tables grant)))
    (targets reads : List ExtractedResource) (grant : Option GrantDetail) (checkReads : Bool)
    (ops : List Operation) (scope : Option (List String)) :
    (conn.checkOperations name sa ctx targets reads grant checkReads ops scope).All P := by
  induction ops generalizing scope with
  | nil =>
    rw [checkOperations]
    split_ifs
    · exact .ask (h _ _ _) fun _ => .done trivial
    · exact .done trivial
    · exact .done trivial
  | cons _ _ ih =>
    refine .ask (h _ _ _) fun decision => ?_
    split_ifs
    · exact .done trivial
    · exact .done trivial
    · exact .done trivial
    · exact ih _
    · exact ih _
    · exact .done trivial

theorem checkStatement_all {P : Question → Prop}
    (h : ∀ op tables grant, P (.access name (conn.buildRequest ctx op tables grant))) :
    (conn.checkStatement name sa ctx).All P := by
  rw [checkStatement]
  cases conn.planStatement sa ctx with
  | error => exact .done trivial
  | ok => exact conn.checkOperations_all name sa ctx h ..

theorem rewrite_ne_warn (policies : List TablePolicy) (filters : Option (List String))
    (reason : String) : rewrite sa ctx policies filters ≠ .warn reason := by
  unfold rewrite
  simp only
  split <;> simp [deny]

theorem finishReads_ne_warn (scope : Option (List String)) (d : AccessDecision) (reason : String) :
    finishReads sa ctx scope d ≠ .warn reason := by
  unfold finishReads
  split_ifs
  · simp [denyFirst, deny]
  · simp [denyUcast, deny]
  · split
    · simp [deny]
    · split_ifs
      · simp
      · apply rewrite_ne_warn

theorem checkOperations_ne_warn (targets reads : List ExtractedResource)
    (grant : Option GrantDetail) (checkReads : Bool) (ops : List Operation)
    (scope : Option (List String)) (reason : String) :
    (conn.checkOperations name sa ctx targets reads grant checkReads ops scope).run answer ≠
      .warn reason := by
  induction ops generalizing scope with
  | nil =>
    rw [checkOperations]
    split_ifs
    · apply finishReads_ne_warn
    · simp
    · apply rewrite_ne_warn
  | cons _ _ ih =>
    rw [checkOperations, Asks.run_ask]
    split_ifs
    · simp [denyFirst, deny]
    · simp [denyUcast, deny]
    · simp [deny]
    · exact ih _
    · exact ih _
    · simp [deny]

theorem planStatement_ne_warn (reason : String) :
    conn.planStatement sa ctx ≠ .error (.warn reason) := by
  unfold planStatement
  split
  · simp [deny]
  · simp only
    split_ifs
    · simp [deny]
    · simp
    · split
      · simp [deny]
      · unfold planExtracted
        simp only
        split_ifs <;> simp [deny]

theorem checkStatement_ne_warn (reason : String) :
    (conn.checkStatement name sa ctx).run answer ≠ .warn reason := by
  have hplan := conn.planStatement_ne_warn sa ctx reason
  rw [checkStatement]
  split
  · rename_i verdict hverdict
    rintro rfl
    exact hplan hverdict
  · apply checkOperations_ne_warn

end ConnectionRuntime

namespace OpaAccessGuard

variable (g : OpaAccessGuard) (sa : SqlAnalysis) {answer : (q : Question) → Answer q}

theorem behindExplain_eq_allow_iff {before : List Char} {r : GuardResult} :
    behindExplain before r = .allow ↔ r = .allow := by
  cases r <;> simp [behindExplain]

section
variable {g : OpaAccessGuard} {ctx : GuardContext} {name : String} {conn : ConnectionRuntime}

theorem check_of_disabled (h : g.enabledForGroup ctx.clusterGroup = false) :
    g.check sa ctx = .done .allow := by
  rw [check]
  simp [h]

theorem check_of_unconnected (h : g.connectionForGroup ctx.clusterGroup = none) :
    g.check sa ctx = .done .allow := by
  rw [check]
  simp [h]

section
variable (hon : g.enabledForGroup ctx.clusterGroup = true)
include hon

section
variable (hconn : g.connectionForGroup ctx.clusterGroup = some (name, conn))
include hconn

theorem check_of_notExplain (hsplit : explainSplit ctx.sql = .notExplain) :
    g.check sa ctx = conn.checkStatement name sa ctx := by
  rw [check]
  simp only [hon, hconn, Bool.not_true, Bool.false_eq_true, if_false]
  split <;> simp_all

theorem check_of_inner {offset : Nat} (hsplit : explainSplit ctx.sql = .inner offset) :
    g.check sa ctx =
      (g.check sa { ctx with sql := String.ofList (ctx.sql.toList.drop offset) }).map
        (behindExplain (ctx.sql.toList.take offset)) := by
  rw [check]
  simp only [hon, hconn, Bool.not_true, Bool.false_eq_true, if_false]
  split <;> simp_all

theorem check_of_unrecognized (hsplit : explainSplit ctx.sql = .unrecognized) :
    g.check sa ctx = .done (if conn.evaluatesAnything then
        deny "access control: could not analyze the EXPLAIN statement" "ACCESS_ANALYSIS_FAILED"
      else .allow) := by
  rw [check]
  simp only [hon, hconn, Bool.not_true, Bool.false_eq_true, if_false]
  split <;> simp_all

end

end

end

theorem check_all {P : Question → Prop} {ctx : GuardContext}
    (h : ∀ name conn op tables grant,
      P (.access name (ConnectionRuntime.buildRequest conn ctx op tables grant))) :
    (g.check sa ctx).All P := by
  fun_induction check g sa ctx with
  | case1 | case2 | case5 => exact .done trivial
  | case3 ctx _ name conn => exact conn.checkStatement_all name sa ctx (h name conn)
  | case4 _ _ _ _ _ _ _ ih => exact (ih h).map fun _ _ => trivial

/-- What is allowed unchanged in one context is allowed unchanged in another one that shows the
same statement, when the decisions of the second are clean wherever those of the first are. -/
theorem check_eq_allow_of_clean {ctx₁ ctx₂ : GuardContext}
    (h : (g.check sa ctx₁).run answer = .allow) (hsql : ctx₁.sql = ctx₂.sql)
    (hdialect : ctx₁.dialect = ctx₂.dialect) (hschema : ctx₁.schema = ctx₂.schema)
    (hgroup : ctx₁.clusterGroup = ctx₂.clusterGroup)
    (hclean : ∀ name conn op tables grant,
      g.connectionForGroup ctx₁.clusterGroup = some (name, conn) →
      ConnectionRuntime.Askable conn op tables grant →
      (answer (.access name (conn.buildRequest ctx₁ op tables grant))).Clean = true →
      (answer (.access name (conn.buildRequest ctx₂ op tables grant))).Clean = true) :
    (g.check sa ctx₂).run answer = .allow := by
  fun_induction check g sa ctx₁ generalizing ctx₂ with
  | case1 _ hoff =>
    have hoff₂ : g.enabledForGroup ctx₂.clusterGroup = false := by simpa [hgroup] using hoff
    rw [check_of_disabled sa hoff₂, Asks.run_done]
  | case2 _ _ hnone =>
    rw [check_of_unconnected sa (hgroup ▸ hnone), Asks.run_done]
  | case3 _ hon _ conn hconn hsplit =>
    have hon₂ : g.enabledForGroup ctx₂.clusterGroup = true := by simpa [hgroup] using hon
    rw [check_of_notExplain sa hon₂ (hgroup ▸ hconn) (hsql ▸ hsplit)]
    rw [ConnectionRuntime.checkStatement_eq_allow_iff] at h ⊢
    rw [conn.planStatement_congr sa hsql hdialect hschema] at h
    split at h
    · exact h
    · rename_i p hp
      obtain ⟨hwrites, hreads⟩ := conn.askable_of_planStatement sa ctx₂ hp
      exact ⟨fun op hop => hclean _ _ _ _ _ hconn (hwrites op hop) (h.writes op hop),
        fun hr => hclean _ _ _ _ _ hconn (hreads hr) (h.reads hr)⟩
  | case4 _ hon _ _ hconn _ hsplit ih =>
    have hon₂ : g.enabledForGroup ctx₂.clusterGroup = true := by simpa [hgroup] using hon
    rw [check_of_inner sa hon₂ (hgroup ▸ hconn) (hsql ▸ hsplit), Asks.run_map,
      behindExplain_eq_allow_iff]
    rw [Asks.run_map, behindExplain_eq_allow_iff] at h
    refine ih h ?_ hdialect hschema hgroup hclean
    rw [hsql]
  | case5 _ hon _ _ hconn hsplit =>
    have hon₂ : g.enabledForGroup ctx₂.clusterGroup = true := by simpa [hgroup] using hon
    rw [check_of_unrecognized sa hon₂ (hgroup ▸ hconn) (hsql ▸ hsplit)]
    exact h

theorem check_ne_warn (ctx : GuardContext) (reason : String) :
    (g.check sa ctx).run answer ≠ .warn reason := by
  fun_induction check g sa ctx with
  | case1 => simp
  | case2 => simp
  | case3 ctx _ name conn => exact conn.checkStatement_ne_warn name sa ctx reason
  | case4 ctx _ _ _ _ offset _ ih =>
    rw [Asks.run_map]
    revert ih
    cases (g.check sa { ctx with sql := String.ofList (ctx.sql.toList.drop offset) }).run answer <;>
      simp [behindExplain]
  | case5 => split_ifs <;> simp [deny]

end OpaAccessGuard

/-! ## A policy on one table -/

def selectOnly : ConnectionRuntime where
  operations := [.tableSelect]
  sessionParamKeys := []
  onMissingSchema := .evaluate
  supported := by decide

def readGuard : OpaAccessGuard where
  enabled := true
  defaultConnection := some "opa"
  groups := fun _ => none
  connections := fun name => if name = "opa" then some selectOnly else none

def ordersTable : ExtractedResource := ⟨none, none, .table, "orders", .all, false, none⟩

def ordersSql : SqlAnalysis where
  statements := fun _ _ => some [.select]
  isReadLikeFallback := fun _ => true
  extractResources := fun _ _ _ => .ok ⟨[ordersTable], true, false, none, none, false⟩
  rewriteTableScans := fun _ _ sql policies =>
    .ok (sql ++ " WHERE " ++ " AND ".intercalate (policies.flatMap (·.rowFilters)))
  applyWriteFilters := fun _ sql _ => .ok sql

theorem planStatement_orders {ctx : GuardContext} (hsql : ctx.sql = "SELECT * FROM orders") :
    selectOnly.planStatement ordersSql ctx =
      .ok ⟨[], [ordersTable], none, true, []⟩ := by
  have hshown : runsSqlItDoesNotShow ctx.sql (selectOnly.evaluates ⟨"procedure.call"⟩) =
      none := by
    rw [hsql]
    decide +kernel
  have hany : selectOnly.evaluatesAnything = true := by decide +kernel
  rw [ConnectionRuntime.planStatement, hshown, hany]
  rfl

theorem check_readGuard (ctx : GuardContext) (hsql : ctx.sql = "SELECT * FROM orders") :
    readGuard.check ordersSql ctx =
      .ask (.access "opa" (selectOnly.buildRequest ctx .tableSelect [ordersTable] none))
        fun decision => .done (ConnectionRuntime.finishReads ordersSql ctx none decision) := by
  have hsplit : explainSplit ctx.sql = .notExplain := by
    rw [hsql]
    decide +kernel
  have hcheck : readGuard.check ordersSql ctx =
      selectOnly.checkStatement "opa" ordersSql ctx :=
    OpaAccessGuard.check_of_notExplain _ rfl rfl hsplit
  rw [hcheck, ConnectionRuntime.checkStatement, planStatement_orders hsql]
  rfl

end QueryFlux.Access
