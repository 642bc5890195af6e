import QueryFlux.Dispatch.Pipeline

/-!
# The SQL the plan guards judge

`setup_sync_query` hands the SQL for the engine on as a `SqlParseCache`: the text with its parse.
Parameters the engine cannot take are filled in by changing the parse; the new cache holds the
changed statements and the text generated from them. Before that, the translation is noted in
`translated_sql` if it changed the text.

`execute_to_sink_inner` gives the guards the parse of the final text, but `translated_sql` for the
text, if there is one. `guards_judge_what_runs_iff` says when the two and the text the engine gets
are one; a translated query with parameters filled in is judged with its placeholders
(`translated_filled_in_unseen`).
-/

namespace QueryFlux.Dispatch

open Core Access Guardrails Lib

/-! ## The pipeline on one parse -/

/-- The parser, and the printer that fills parameters in. -/
structure Polyglot (E : Type) where
  parse : SqlDialect → String → Option (List E)
  -- placeholders replaced by literals; fails unless their number is that of the parameters
  substitute : List E → List QueryParam → Except String (List E)
  generate : SqlDialect → List E → Except String String

structure SqlParseCache (E : Type) where
  sql : String
  dialect : SqlDialect
  statements : Option (List E)

section
variable {E : Type} (pg : Polyglot E)

def SqlParseCache.new (sql : String) (dialect : SqlDialect) : SqlParseCache E :=
  ⟨sql, dialect, pg.parse dialect sql⟩

def interpolateStatements (statements : List E) (params : List QueryParam) (dialect : SqlDialect) :
    Except String (String × List E) :=
  match pg.substitute statements params with
  | .error e => .error e
  | .ok rewritten => (pg.generate dialect rewritten).map (·, rewritten)

def interpolateParams (dialect : SqlDialect) (sql : String) (params : List QueryParam) :
    Except String String :=
  if params.isEmpty then .ok sql
  else
    match pg.parse dialect sql with
    | none => .error "SQL parse error"
    | some statements => (interpolateStatements pg statements params dialect).map (·.1)

/-- The result's cache holds the changed statements: it never parses. -/
def SqlParseCache.interpolate (cache : SqlParseCache E) (params : List QueryParam) :
    Except String (SqlParseCache E) :=
  if params.isEmpty then .ok (.new pg cache.sql cache.dialect)
  else
    match cache.statements with
    | none =>
      (interpolateParams pg cache.dialect cache.sql params).map
        (SqlParseCache.new pg · cache.dialect)
    | some statements =>
      (interpolateStatements pg statements params cache.dialect).map fun (sql, statements) =>
        ⟨sql, cache.dialect, some statements⟩

theorem SqlParseCache.interpolate_sql (sql : String) (dialect : SqlDialect)
    (params : List QueryParam) :
    ((SqlParseCache.new pg sql dialect).interpolate pg params).map (·.sql) =
      interpolateParams pg dialect sql params := by
  unfold SqlParseCache.interpolate interpolateParams
  split
  · rfl
  · simp only [SqlParseCache.new]
    split
    · rfl
    · cases interpolateStatements pg _ params dialect <;> rfl

end

/-- A setup, with the parse its guards were shown and the texts on the way. -/
structure ParsedSetup (E : Type) where
  setup : SyncQuerySetup
  sqlParse : SqlParseCache E
  -- the SQL before translation, and before parameters were filled in
  accessControlled : String
  translated : String

section
variable {E : Type} (pg : Polyglot E) (live : LiveConfig) (state : AppState) (r : Request)

def finishParsed (cluster : String) (adapter : Adapter) (schema : SchemaContext)
    (session : SessionContext) (accessControlled : String) (rewrote : Bool) :
    Except PipelineError (ParsedSetup E) :=
  match engineSql live state r adapter schema accessControlled rewrote with
  | .error e => .error e
  | .ok translated =>
    let engineParse := SqlParseCache.new pg translated adapter.translationTargetDialect
    match state.resolveCredentials r.auth cluster with
    | .error e => .error (.failed e)
    | .ok credentials =>
      let interpolated :=
        if !r.params.isEmpty && !adapter.supportsNativeParams then
          (engineParse.interpolate pg r.params).map (·, [])
        else .ok (engineParse, r.params)
      match interpolated with
      | .error e => .error (.failed e)
      | .ok (engineParse, params) =>
        .ok {
          setup := {
            adapter := adapter
            submission := {
              cluster := cluster
              sql := engineParse.sql
              session := enrichSessionForPassthrough session credentials r.auth
              credentials := credentials
              tags := effectiveTags live r
              params := params }
            rewrote := rewrote
            translatedSql := if translated ≠ accessControlled then some translated else none }
          sqlParse := engineParse
          accessControlled := accessControlled
          translated := translated }

def parsedAfterStage (cluster : String) (adapter : Adapter) :
    AccessStageOutcome → Except PipelineError (ParsedSetup E)
  | .allowed =>
    finishParsed pg live state r cluster adapter (schemaContext live state r)
      (checkedSession live r r.session) r.sql false
  | .rewritten sql =>
    finishParsed pg live state r cluster adapter (schemaContext live state r)
      (checkedSession live r r.session) sql true
  | .denied reason => .error (.denied reason)

def setupParsed : Asking (Except PipelineError (ParsedSetup E)) :=
  match state.acquireWaiting r.group with
  | .error e => .done (.error (.failed e))
  | .ok cluster =>
    match live.adapters cluster with
    | none => .done (.error (.failed ("No adapter for " ++ r.group ++ "/" ++ cluster)))
    | some adapter =>
      (engineStage live state r adapter).map (parsedAfterStage pg live state r cluster adapter)

def withPolyglot : AppState := { state with interpolate := interpolateParams pg }

theorem finishParsed_setup (cluster : String) (adapter : Adapter) (schema : SchemaContext)
    (session : SessionContext) (accessControlled : String) (rewrote : Bool) :
    (finishParsed pg live state r cluster adapter schema session accessControlled rewrote).map
        (·.setup) =
      finishSetup live (withPolyglot pg state) r cluster adapter schema session accessControlled
        rewrote := by
  unfold finishParsed finishSetup
  have hengine : engineSql live (withPolyglot pg state) r adapter schema accessControlled rewrote =
      engineSql live state r adapter schema accessControlled rewrote := rfl
  rw [hengine]
  cases engineSql live state r adapter schema accessControlled rewrote with
  | error => rfl
  | ok translated =>
    dsimp only [withPolyglot]
    cases state.resolveCredentials r.auth cluster with
    | error => rfl
    | ok =>
      rw [← SqlParseCache.interpolate_sql]
      by_cases hfill : (!r.params.isEmpty && !adapter.supportsNativeParams) = true
      · rw [if_pos hfill, if_pos hfill]
        cases SqlParseCache.interpolate pg (.new pg translated adapter.translationTargetDialect)
          r.params <;> rfl
      · rw [if_neg hfill, if_neg hfill]
        rfl

theorem setupParsed_setup (answer : (q : Question) → Answer q) :
    ((setupParsed pg live state r).run answer).map (·.setup) =
      (setupSyncQuery live (withPolyglot pg state) r).run answer := by
  unfold setupParsed setupSyncQuery
  change _ = (match state.acquireWaiting r.group with
    | .error e => _
    | .ok cluster => _ : Asking (Except PipelineError SyncQuerySetup)).run answer
  cases state.acquireWaiting r.group with
  | error => rfl
  | ok cluster =>
    dsimp only
    cases live.adapters cluster with
    | none => rfl
    | some adapter =>
      rw [Asks.run_map, Asks.run_map]
      have hstage : engineStage live (withPolyglot pg state) r adapter =
          engineStage live state r adapter := rfl
      rw [hstage]
      cases (engineStage live state r adapter).run answer with
      | allowed | rewritten => exact finishParsed_setup ..
      | denied => rfl

end

section
variable {E : Type} (pg : Polyglot E) (r : Request)

def fillsIn (adapter : Adapter) : Bool := !r.params.isEmpty && !adapter.supportsNativeParams

/-! ## What the guards see -/

/-- How the texts of a setup hang together. -/
structure Wired (p : ParsedSetup E) : Prop where
  translated : p.setup.translatedSql =
    if p.translated ≠ p.accessControlled then some p.translated else none
  submitted : p.setup.submission.sql = p.sqlParse.sql
  asIs : fillsIn r p.setup.adapter = false →
    p.sqlParse = .new pg p.translated p.setup.adapter.translationTargetDialect
  filledIn : fillsIn r p.setup.adapter = true →
    (SqlParseCache.new pg p.translated p.setup.adapter.translationTargetDialect).interpolate pg
      r.params = .ok p.sqlParse

variable {pg r} {live : LiveConfig} {state : AppState} {p : ParsedSetup E}

theorem Wired.of_finishParsed {cluster : String} {adapter : Adapter} {schema : SchemaContext}
    {session : SessionContext} {accessControlled : String} {rewrote : Bool}
    (h : finishParsed pg live state r cluster adapter schema session accessControlled rewrote =
      .ok p) : Wired pg r p := by
  unfold finishParsed at h
  cases hengine : engineSql live state r adapter schema accessControlled rewrote with
  | error =>
    rw [hengine] at h
    cases h
  | ok translated =>
    rw [hengine] at h
    cases hcredentials : state.resolveCredentials r.auth cluster with
    | error =>
      rw [hcredentials] at h
      cases h
    | ok =>
      rw [hcredentials] at h
      dsimp only at h
      by_cases hfill : (!r.params.isEmpty && !adapter.supportsNativeParams) = true
      · rw [if_pos hfill] at h
        cases hcache : SqlParseCache.interpolate pg
            (.new pg translated adapter.translationTargetDialect) r.params with
        | error e =>
          rw [hcache] at h
          cases h
        | ok cache =>
          rw [hcache] at h
          cases h
          exact ⟨rfl, rfl, fun hno => absurd (hfill.symm.trans hno) (by decide),
            fun _ => hcache⟩
      · rw [if_neg hfill] at h
        cases h
        exact ⟨rfl, rfl, fun _ => rfl, fun hyes => absurd hyes hfill⟩

/-- The texts of a setup that succeeds. -/
theorem Wired.of_setupParsed {answer : (q : Question) → Answer q}
    (h : (setupParsed pg live state r).run answer = .ok p) : Wired pg r p := by
  unfold setupParsed at h
  split at h
  · cases h
  · split at h
    · cases h
    · rw [Asks.run_map] at h
      unfold parsedAfterStage at h
      split at h
      · exact .of_finishParsed h
      · exact .of_finishParsed h
      · cases h

/-- The guards are given the text the engine gets, and the parse of this text. -/
def JudgesWhatRuns (pg : Polyglot E) (r : Request) (p : ParsedSetup E) : Prop :=
  (syncGuardContext r p.setup).sql = p.setup.submission.sql ∧
    p.sqlParse = .new pg p.setup.submission.sql p.setup.adapter.translationTargetDialect

def FilledInParses (pg : Polyglot E) (r : Request) (dialect : SqlDialect) (sql : String) : Prop :=
  ∀ statements text filledIn, pg.parse dialect sql = some statements →
    interpolateStatements pg statements r.params dialect = .ok (text, filledIn) →
    pg.parse dialect text = some filledIn

/-- No parameters are filled in; or they are filled in a text that translation did not change (or
they leave it as it is), and what is generated from the filled-in statements parses to them. -/
def FilledInSeen (pg : Polyglot E) (r : Request) (p : ParsedSetup E) : Prop :=
  let dialect := p.setup.adapter.translationTargetDialect
  fillsIn r p.setup.adapter = false ∨
    (p.translated = p.accessControlled ∨
      interpolateParams pg dialect p.translated r.params = .ok p.translated) ∧
    FilledInParses pg r dialect p.translated

theorem interpolate_eq_ok_iff {sql : String} {dialect : SqlDialect} {params : List QueryParam}
    (hparams : params.isEmpty = false) {cache : SqlParseCache E} :
    (SqlParseCache.new pg sql dialect).interpolate pg params = .ok cache ↔
      ∃ statements text filledIn, pg.parse dialect sql = some statements ∧
        interpolateStatements pg statements params dialect = .ok (text, filledIn) ∧
        cache = ⟨text, dialect, some filledIn⟩ := by
  unfold SqlParseCache.interpolate interpolateParams
  simp only [SqlParseCache.new, hparams]
  cases pg.parse dialect sql with
  | none => simp [Except.map]
  | some statements =>
    simp only [Bool.false_eq_true, if_false]
    cases hfilled : interpolateStatements pg statements params dialect with
    | error => simp [Except.map, hfilled]
    | ok filled =>
      obtain ⟨text, filledIn⟩ := filled
      constructor
      · intro h
        cases h
        exact ⟨statements, text, filledIn, rfl, hfilled, rfl⟩
      · rintro ⟨statements', text', filledIn', hstatements, hfilled', rfl⟩
        cases hstatements
        cases hfilled.symm.trans hfilled'
        rfl

theorem Wired.judges_asIs (h : Wired pg r p) (hfill : fillsIn r p.setup.adapter = false) :
    JudgesWhatRuns pg r p := by
  have hparse := h.asIs hfill
  have hsql : p.setup.submission.sql = p.translated := by rw [h.submitted, hparse]; rfl
  refine ⟨?_, by rw [hsql, hparse]⟩
  change p.setup.translatedSql.getD p.setup.submission.sql = _
  rw [h.translated, hsql]
  split <;> rfl

theorem Wired.text_eq_iff (h : Wired pg r p) (hfill : fillsIn r p.setup.adapter = true) :
    (syncGuardContext r p.setup).sql = p.setup.submission.sql ↔
      p.translated = p.accessControlled ∨ interpolateParams pg
        p.setup.adapter.translationTargetDialect p.translated r.params = .ok p.translated := by
  have htext := SqlParseCache.interpolate_sql pg p.translated
    p.setup.adapter.translationTargetDialect r.params
  rw [h.filledIn hfill] at htext
  change p.setup.translatedSql.getD p.setup.submission.sql = _ ↔ _
  rw [← htext, h.translated, h.submitted]
  by_cases heq : p.translated = p.accessControlled
  · simp [heq]
  · simp [heq, Except.map, eq_comm]

theorem Wired.parse_eq_iff (h : Wired pg r p) (hfill : fillsIn r p.setup.adapter = true) :
    p.sqlParse = .new pg p.setup.submission.sql p.setup.adapter.translationTargetDialect ↔
      FilledInParses pg r p.setup.adapter.translationTargetDialect p.translated := by
  have hparams : r.params.isEmpty = false := by
    simpa using (Bool.and_eq_true_iff.1 hfill).1
  obtain ⟨statements, text, filledIn, hparse, hfilled, hcache⟩ :=
    (interpolate_eq_ok_iff hparams).1 (h.filledIn hfill)
  rw [h.submitted, hcache]
  constructor
  · intro heq statements' text' filledIn' hparse' hfilled'
    obtain rfl : statements = statements' := Option.some.inj (hparse.symm.trans hparse')
    cases hfilled.symm.trans hfilled'
    exact (congrArg SqlParseCache.statements heq).symm
  · intro hparses
    rw [SqlParseCache.new, hparses statements text filledIn hparse hfilled]

/-- The guards judge the text that runs exactly when they see its parameters filled in. -/
theorem guards_judge_what_runs_iff {answer : (q : Question) → Answer q}
    (h : (setupParsed pg live state r).run answer = .ok p) :
    JudgesWhatRuns pg r p ↔ FilledInSeen pg r p := by
  have hwired := Wired.of_setupParsed h
  cases hfill : fillsIn r p.setup.adapter with
  | false => exact ⟨fun _ => .inl hfill, fun _ => hwired.judges_asIs hfill⟩
  | true =>
    rw [JudgesWhatRuns, hwired.text_eq_iff hfill, hwired.parse_eq_iff hfill, FilledInSeen, hfill]
    simp

end

inductive OneQuery
  | placeholder | seven
  deriving DecidableEq

def oneQuery : Polyglot OneQuery where
  parse := fun _ sql =>
    if sql = "SELECT IF(a = ?, 1, 0) FROM t" then some [.placeholder]
    else if sql = "SELECT IF(a = 7, 1, 0) FROM t" then some [.seven]
    else none
  substitute := fun statements params =>
    if statements = [.placeholder] ∧ params = [.numeric "7"] then .ok [.seven]
    else .error "Parameter count mismatch"
  generate := fun _ statements =>
    if statements = [.seven] then .ok "SELECT IF(a = 7, 1, 0) FROM t"
    else .ok "SELECT IF(a = ?, 1, 0) FROM t"

def oneQueryState : AppState :=
  { AppState.plain ordersSql with
    translation := {
      enabled := true
      strict := false
      pythonScripts := []
      translate := fun _ _ _ _ _ _ => .ok "SELECT IF(a = ?, 1, 0) FROM t"
      resolveSchemaContext := fun _ _ _ _ => .empty } }

def oneQueryRequest (sql : String) : Request :=
  ⟨sql, [.numeric "7"], ⟨some "bob", none, none, fun _ => none, fun _ => none, none⟩,
    .snowflakeHttp, "default", ⟨"bob", [], [], none, none, fun _ => none⟩⟩

/-- The engine text was translated, so the guards still see the placeholder. -/
theorem translated_filled_in_unseen :
    ∃ p, (∀ answer, (setupParsed oneQuery (.plain ⟨false, .trino, .trino, false⟩) oneQueryState
        (oneQueryRequest "SELECT IFF(a = ?, 1, 0) FROM t")).run answer = .ok p) ∧
      (syncGuardContext (oneQueryRequest "SELECT IFF(a = ?, 1, 0) FROM t") p.setup).sql =
        "SELECT IF(a = ?, 1, 0) FROM t" ∧
      p.setup.submission.sql = "SELECT IF(a = 7, 1, 0) FROM t" := by
  refine ⟨_, fun _ => rfl, ?_, ?_⟩
  · decide +kernel
  · decide +kernel

theorem oneQuery_filledInParses (sql : String) :
    FilledInParses oneQuery (oneQueryRequest sql) .trino "SELECT IF(a = ?, 1, 0) FROM t" := by
  intro statements text filledIn hparse hfilled
  have hplaceholder : oneQuery.parse .trino "SELECT IF(a = ?, 1, 0) FROM t" =
      some [.placeholder] := rfl
  have hseven : interpolateStatements oneQuery [.placeholder] [.numeric "7"] .trino =
      .ok ("SELECT IF(a = 7, 1, 0) FROM t", [.seven]) := rfl
  obtain rfl := Option.some.inj (hplaceholder.symm.trans hparse)
  cases hseven.symm.trans hfilled
  decide +kernel

/-- The same query in a text that translation leaves as it is. -/
theorem untranslated_filled_in_seen :
    ∃ p, (∀ answer, (setupParsed oneQuery (.plain ⟨false, .trino, .trino, false⟩) oneQueryState
        (oneQueryRequest "SELECT IF(a = ?, 1, 0) FROM t")).run answer = .ok p) ∧
      p.setup.submission.sql = "SELECT IF(a = 7, 1, 0) FROM t" ∧
      JudgesWhatRuns oneQuery (oneQueryRequest "SELECT IF(a = ?, 1, 0) FROM t") p := by
  have hsetup : ∃ p, (∀ answer, (setupParsed oneQuery (.plain ⟨false, .trino, .trino, false⟩)
        oneQueryState (oneQueryRequest "SELECT IF(a = ?, 1, 0) FROM t")).run answer = .ok p) ∧
      p.setup.submission.sql = "SELECT IF(a = 7, 1, 0) FROM t" ∧
      p.translated = p.accessControlled ∧ p.translated = "SELECT IF(a = ?, 1, 0) FROM t" ∧
      p.setup.adapter.translationTargetDialect = .trino :=
    ⟨_, fun _ => rfl, by decide +kernel, rfl, rfl, rfl⟩
  obtain ⟨p, hrun, hsql, hsame, htranslated, htarget⟩ := hsetup
  have answer (q : Question) : Answer q := by
    cases q with
    | access => exact AccessDecision.allowAll
    | guard => exact .allow
  refine ⟨p, hrun, hsql, (guards_judge_what_runs_iff (hrun answer)).2 (.inr ⟨.inl hsame, ?_⟩)⟩
  rw [htarget, htranslated]
  exact oneQuery_filledInParses _

end QueryFlux.Dispatch
