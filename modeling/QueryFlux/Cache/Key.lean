import QueryFlux.Cache.Replay
import QueryFlux.Lib.Framing

/-!
# What the cache key distinguishes

The key is a hash of a byte string, the tagged and framed fields of `CacheKey`. The framing loses
nothing (`hashedInput_injective`), so two requests to one group share a key exactly when they agree
in the fields that are hashed. The pipeline reads more than those: the rest of the session, the
identity behind the user name, and the protocol, which implies the source dialect. Two requests
with one key are one engine query, whatever the deployment, exactly when they agree in these too
(`missSubmission_eq_iff`).
-/

namespace QueryFlux.Cache

open Core Access Dispatch Guardrails Lib

def asBytes (s : String) : List UInt8 := s.toUTF8.data.toList

theorem asBytes_injective : Function.Injective asBytes := by
  intro s t h
  apply String.toByteArray_inj.1
  exact ByteArray.ext (Array.toList_inj.1 h)

/-! ## What is hashed -/

/-- Shorter than the largest length a `u64` counts. -/
def Framable (s : String) : Prop := (asBytes s).length < 2 ^ 64

instance (s : String) : Decidable (Framable s) := inferInstanceAs (Decidable (_ < _))

def hashField (tag : Char) (value : List UInt8) : List UInt8 := tag.toUInt8 :: lengthFramed value

def hashOptional (tag : Char) : Option String → List UInt8
  | some value => tag.toUInt8 :: 1 :: lengthFramed (asBytes value)
  | none => [tag.toUInt8, 0]

def hashParam : QueryParam → List UInt8
  | .text v => hashField 't' (asBytes v)
  | .numeric v => hashField 'n' (asBytes v)
  | .boolean v => hashField 'b' [if v then 1 else 0]
  | .date v => hashField 'd' (asBytes v)
  | .timestamp v => hashField 's' (asBytes v)
  | .time v => hashField 'm' (asBytes v)
  | .null => hashField '0' []

def hashScope (scope : List UInt8) : List UInt8 :=
  if scope.isEmpty then [] else hashField 'N' scope

/-- The bytes given to the hash: tagged fields, each with its length in front. -/
def hashedInput (key : CacheKey) : List UInt8 :=
  asBytes "queryflux:result-cache:v1\x00" ++ (hashField 'S' (asBytes key.sql) ++
    (hashField 'G' (asBytes key.group) ++ (hashField 'U' (asBytes key.user) ++
      (hashOptional 'C' key.catalog ++ (hashOptional 'D' key.database ++
        ('P'.toUInt8 :: countFramed hashParam key.params ++ hashScope key.scope))))))

theorem selfDelimiting_hashField (tag : Char) :
    SelfDelimiting Framable fun s => hashField tag (asBytes s) :=
  (selfDelimiting_lengthFramed.comap asBytes_injective).cons tag.toUInt8

theorem selfDelimiting_hashOptional (tag : Char) :
    SelfDelimiting (fun value => ∀ s ∈ value, Framable s) (hashOptional tag) := by
  intro a b s t ha hb heq
  cases a with
  | none =>
    cases b with
    | none => exact ⟨rfl, by simpa [hashOptional] using heq⟩
    | some => simp [hashOptional] at heq
  | some x =>
    cases b with
    | none => simp [hashOptional] at heq
    | some y =>
      have hbody : lengthFramed (asBytes x) ++ s = lengthFramed (asBytes y) ++ t := by
        simpa [hashOptional] using heq
      obtain ⟨hxy, hst⟩ := selfDelimiting_lengthFramed (ha x rfl) (hb y rfl) hbody
      exact ⟨by rw [asBytes_injective hxy], hst⟩

def paramField : QueryParam → Char × List UInt8
  | .text v => ('t', asBytes v)
  | .numeric v => ('n', asBytes v)
  | .boolean v => ('b', [if v then 1 else 0])
  | .date v => ('d', asBytes v)
  | .timestamp v => ('s', asBytes v)
  | .time v => ('m', asBytes v)
  | .null => ('0', [])

theorem hashParam_eq (p : QueryParam) :
    hashParam p = hashField (paramField p).1 (paramField p).2 := by
  cases p <;> rfl

theorem paramField_injective {p q : QueryParam}
    (htag : (paramField p).1.toUInt8 = (paramField q).1.toUInt8)
    (hvalue : (paramField p).2 = (paramField q).2) : p = q := by
  cases p <;> cases q <;> simp only [paramField] at htag hvalue
  case boolean.boolean b c => revert hvalue; cases b <;> cases c <;> decide
  case null.null => rfl
  all_goals first
    | exact absurd htag (by decide)
    | exact congrArg _ (asBytes_injective hvalue)

def ParamFramable (p : QueryParam) : Prop := (paramField p).2.length < 2 ^ 64

instance (p : QueryParam) : Decidable (ParamFramable p) := inferInstanceAs (Decidable (_ < _))

theorem selfDelimiting_hashParam : SelfDelimiting ParamFramable hashParam := by
  intro p q s t hp hq heq
  rw [hashParam_eq, hashParam_eq] at heq
  obtain ⟨htag, hrest⟩ := List.cons.inj heq
  obtain ⟨hvalue, hst⟩ := selfDelimiting_lengthFramed hp hq hrest
  exact ⟨paramField_injective htag hvalue, hst⟩

structure KeyFramable (key : CacheKey) : Prop where
  sql : Framable key.sql
  group : Framable key.group
  user : Framable key.user
  catalog : ∀ s ∈ key.catalog, Framable s
  database : ∀ s ∈ key.database, Framable s
  params : key.params.length < 2 ^ 64 ∧ ∀ p ∈ key.params, ParamFramable p

/-- The framing separates the fields, up to the scope. -/
theorem fields_of_hashedInput_eq {k₁ k₂ : CacheKey} (h₁ : KeyFramable k₁) (h₂ : KeyFramable k₂)
    (heq : hashedInput k₁ = hashedInput k₂) :
    { k₁ with scope := k₂.scope } = k₂ ∧ hashScope k₁.scope = hashScope k₂.scope := by
  have hfields := List.append_cancel_left heq
  obtain ⟨hsql, hfields⟩ := selfDelimiting_hashField 'S' h₁.sql h₂.sql hfields
  obtain ⟨hgroup, hfields⟩ := selfDelimiting_hashField 'G' h₁.group h₂.group hfields
  obtain ⟨huser, hfields⟩ := selfDelimiting_hashField 'U' h₁.user h₂.user hfields
  obtain ⟨hcatalog, hfields⟩ := selfDelimiting_hashOptional 'C' h₁.catalog h₂.catalog hfields
  obtain ⟨hdatabase, hfields⟩ := selfDelimiting_hashOptional 'D' h₁.database h₂.database hfields
  obtain ⟨hparams, hscope⟩ :=
    selfDelimiting_hashParam.countFramed h₁.params h₂.params (List.cons.inj hfields).2
  refine ⟨?_, hscope⟩
  cases k₁
  cases k₂
  simp_all

/-- Different keys are hashed from different bytes. -/
theorem hashedInput_injective {k₁ k₂ : CacheKey} (h₁ : KeyFramable k₁) (h₂ : KeyFramable k₂)
    (hs₁ : k₁.scope.length < 2 ^ 64) (hs₂ : k₂.scope.length < 2 ^ 64)
    (heq : hashedInput k₁ = hashedInput k₂) : k₁ = k₂ := by
  obtain ⟨hkey, hscope⟩ := fields_of_hashedInput_eq h₁ h₂ heq
  have hsame : k₁.scope = k₂.scope := by
    unfold hashScope at hscope
    by_cases he₁ : k₁.scope.isEmpty = true <;> by_cases he₂ : k₂.scope.isEmpty = true
    · rw [List.isEmpty_iff.1 he₁, List.isEmpty_iff.1 he₂]
    · rw [if_pos he₁, if_neg he₂] at hscope
      cases hscope
    · rw [if_neg he₁, if_pos he₂] at hscope
      cases hscope
    · rw [if_neg he₁, if_neg he₂] at hscope
      exact selfDelimiting_lengthFramed.injective hs₁ hs₂ (List.cons.inj hscope).2
  rw [← hkey, ← hsame]

def keyIn (catalog : Option String) : CacheKey :=
  ⟨"SELECT ?", "default", [1], catalog, none, "alice", [.text ""]⟩

theorem keyIn_framable {catalog : Option String} (h : ∀ s ∈ catalog, Framable s) :
    KeyFramable (keyIn catalog) where
  sql := by change Framable "SELECT ?"; decide +kernel
  group := by change Framable "default"; decide +kernel
  user := by change Framable "alice"; decide +kernel
  catalog := h
  database := by rintro s ⟨⟩
  params := by
    refine ⟨by change 1 < 2 ^ 64; decide, fun p hp => ?_⟩
    rw [List.mem_singleton.1 hp]
    decide +kernel

/-- No catalog and an empty one are told apart. -/
theorem hashedInput_keyIn :
    keyIn (some "") = { keyIn none with catalog := some "" } ∧
      hashedInput (keyIn none) ≠ hashedInput (keyIn (some "")) := by
  have hnone : KeyFramable (keyIn none) := keyIn_framable (by rintro s ⟨⟩)
  have hempty : KeyFramable (keyIn (some "")) := keyIn_framable (by rintro s ⟨⟩; decide +kernel)
  have hscope : [(1 : UInt8)].length < 2 ^ 64 := by decide
  refine ⟨hashedInput_injective hempty hempty hscope hscope rfl, fun heq => ?_⟩
  cases hashedInput_injective hnone hempty hscope hscope heq

/-! ## What is run on a miss -/

/-- The query submitted to the engine if the cache has no entry. -/
def missSubmission (live : LiveConfig) (state : AppState) (r : Request)
    (answer : (q : Question) → Answer q) : Option Submission :=
  match (executeToSink live state r).run answer with
  | .executed (some _) (.ok setup) => some setup.submission
  | _ => none

/-- The requests have the same key wherever they go. -/
structure SameKeyFields (r₁ r₂ : Request) : Prop where
  sql : r₁.sql = r₂.sql
  user : r₁.auth.user = r₂.auth.user
  catalog : r₁.session.catalog = r₂.session.catalog
  database : r₁.session.database = r₂.session.database
  params : r₁.params = r₂.params

variable {r₂ r₁ : Request}

theorem sameKeyFields_iff (hgroup : r₁.group = r₂.group) (live : LiveConfig)
    (h₁ : KeyFramable (requestKey live r₁)) (h₂ : KeyFramable (requestKey live r₂)) :
    hashedInput (requestKey live r₁) = hashedInput (requestKey live r₂) ↔ SameKeyFields r₁ r₂ := by
  constructor
  · intro heq
    have hkey := (fields_of_hashedInput_eq h₁ h₂ heq).1
    simp only [requestKey, CacheKey.mk.injEq] at hkey
    obtain ⟨hsql, _, _, hcatalog, hdatabase, huser, hparams⟩ := hkey
    exact ⟨hsql, huser, hcatalog, hdatabase, hparams⟩
  · intro h
    simp only [requestKey, h.sql, hgroup, h.user, h.catalog, h.database, h.params]

/-- The requests agree in everything else the pipeline reads: the session, the verified identity,
and of the protocol the dialect it implies and whether it is MCP, unless the session names a
dialect. -/
structure SameQueryInputs (r₁ r₂ : Request) : Prop where
  session : r₁.session = r₂.session
  auth : r₁.auth = r₂.auth
  protocol : r₁.session.extra "dialect" = none →
    r₁.protocol.defaultDialect = r₂.protocol.defaultDialect ∧
      (r₁.protocol = .mcp ↔ r₂.protocol = .mcp)

theorem SameQueryInputs.srcDialect_eq (h : SameQueryInputs r₁ r₂) :
    srcDialect r₁ = srcDialect r₂ := by
  unfold srcDialect resolveSrcDialect
  rw [← h.session]
  cases hdialect : r₁.session.extra "dialect" with
  | none => exact (h.protocol hdialect).1
  | some => rfl

theorem SameQueryInputs.attempt_eq (h : SameQueryInputs r₁ r₂) :
    shouldAttemptTranslation r₁.session r₁.protocol =
      shouldAttemptTranslation r₂.session r₂.protocol := by
  unfold shouldAttemptTranslation
  rw [← h.session]
  cases hdialect : r₁.session.extra "dialect" with
  | none =>
    have hmcp := (h.protocol hdialect).2
    by_cases hp : r₁.protocol = .mcp
    · rw [hp, hmcp.1 hp]
    · rw [bne_iff_ne.2 hp, bne_iff_ne.2 fun hq => hp (hmcp.2 hq)]
  | some => simp

section
variable {r : Request} {p q : FrontendProtocol}
  (hdialect : srcDialect { r with protocol := p } = srcDialect { r with protocol := q })
  (hattempt : shouldAttemptTranslation r.session p = shouldAttemptTranslation r.session q)
  (live : LiveConfig) (state : AppState)
include hdialect

theorem accessStage_congr (engineType : EngineType) (session : SessionContext)
    (schema : SchemaContext) :
    accessStage live state { r with protocol := p } engineType session schema =
      accessStage live state { r with protocol := q } engineType session schema := by
  unfold accessStage
  rw [hdialect]
  rfl

theorem cacheStage_congr :
    cacheStage live state { r with protocol := p } =
      cacheStage live state { r with protocol := q } := by
  unfold cacheStage
  rw [accessStage_congr hdialect, hdialect]

include hattempt

theorem schemaContext_congr :
    schemaContext live state { r with protocol := p } =
      schemaContext live state { r with protocol := q } := by
  unfold schemaContext
  simp only [hattempt, hdialect]

theorem engineStage_congr (adapter : Adapter) :
    engineStage live state { r with protocol := p } adapter =
      engineStage live state { r with protocol := q } adapter := by
  unfold engineStage
  rw [accessStage_congr hdialect, schemaContext_congr hdialect hattempt]
  rfl

theorem finishSetup_congr (cluster : String) (adapter : Adapter) (schema : SchemaContext)
    (session : SessionContext) (sql : String) (rewrote : Bool) :
    finishSetup live state { r with protocol := p } cluster adapter schema session sql rewrote =
      finishSetup live state { r with protocol := q } cluster adapter schema session sql
        rewrote := by
  have hsql : engineSql live state { r with protocol := p } adapter schema sql rewrote =
      engineSql live state { r with protocol := q } adapter schema sql rewrote := by
    unfold engineSql
    simp only [hattempt, hdialect]
  unfold finishSetup
  rw [hsql]
  rfl

theorem setupAfterStage_congr (cluster : String) (adapter : Adapter) :
    setupAfterStage live state { r with protocol := p } cluster adapter =
      setupAfterStage live state { r with protocol := q } cluster adapter := by
  funext outcome
  cases outcome with
  | denied => rfl
  | allowed | rewritten =>
    simp only [setupAfterStage, finishSetup_congr hdialect hattempt,
      schemaContext_congr hdialect hattempt]
    rfl

theorem executeToSinkInner_congr :
    executeToSinkInner live state { r with protocol := p } =
      executeToSinkInner live state { r with protocol := q } := by
  have hsetup : setupSyncQuery live state { r with protocol := p } =
      setupSyncQuery live state { r with protocol := q } := by
    simp only [setupSyncQuery, engineStage_congr hdialect hattempt,
      setupAfterStage_congr hdialect hattempt]
  unfold executeToSinkInner
  rw [hsetup]
  rfl

theorem executeToSink_congr :
    executeToSink live state { r with protocol := p } =
      executeToSink live state { r with protocol := q } := by
  have hkey : cacheKey live state { r with protocol := p } =
      cacheKey live state { r with protocol := q } := by
    simp only [cacheKey, effectiveCache, fixupsCanRun, hattempt, hdialect]
    rfl
  simp only [executeToSink, hkey, cacheStage_congr hdialect, executeUncached,
    executeToSinkInner_congr hdialect hattempt]
  rfl

end

theorem missSubmission_congr (hgroup : r₁.group = r₂.group) (hkey : SameKeyFields r₁ r₂)
    (h : SameQueryInputs r₁ r₂) (live : LiveConfig) (state : AppState)
    (answer : (q : Question) → Answer q) :
    missSubmission live state r₁ answer = missSubmission live state r₂ answer := by
  have hr₂ : r₂ = { r₁ with protocol := r₂.protocol } := by
    rw [hkey.sql, hkey.params, h.session, h.auth, hgroup]
  have hdialect := h.srcDialect_eq
  have hattempt := h.attempt_eq
  rw [hr₂] at hdialect hattempt
  have hrun : executeToSink live state r₁ = executeToSink live state r₂ := by
    rw [hr₂]
    exact executeToSink_congr (r := r₁) (p := r₁.protocol) hdialect hattempt live state
  rw [missSubmission, hrun, missSubmission]

def probeConfig (tgt : SqlDialect) : LiveConfig :=
  { LiveConfig.plain ⟨false, .trino, tgt, true⟩ with
    groupCacheSettings := fun _ => some ⟨60, none⟩ }

def probeState (translate : SqlDialect → String → String)
    (resolve : AuthContext → QueryCredentials) : AppState :=
  { AppState.plain ordersSql with
    translation := {
      enabled := true
      strict := false
      pythonScripts := []
      translate := fun text src _ _ _ _ => .ok (translate src text)
      resolveSchemaContext := fun _ _ _ _ => .empty }
    resolveCredentials := fun auth _ => .ok (resolve auth) }

theorem missSubmission_probe {r : Request} {tgt : SqlDialect}
    (htgt : (srcDialect r).isCompatibleWith tgt = false)
    (translate : SqlDialect → String → String) (resolve : AuthContext → QueryCredentials)
    (answer : (q : Question) → Answer q) :
    missSubmission (probeConfig tgt) (probeState translate resolve) r answer =
      some {
        cluster := "cluster-1"
        sql := if shouldAttemptTranslation r.session r.protocol
          then translate (srcDialect r) r.sql else r.sql
        session := enrichSessionForPassthrough r.session (resolve r.auth) r.auth
        credentials := resolve r.auth
        tags := effectiveTags (probeConfig tgt) r
        params := r.params } := by
  have hreaches : ReachesLookup (probeConfig tgt) (probeState translate resolve) r answer
      (requestKey (probeConfig tgt) r) := by
    refine ⟨?_, rfl, by simp [Passes, chains, probeConfig, LiveConfig.plain]⟩
    simp [cacheKey, effectiveCache, fixupsCanRun, probeConfig, probeState, AppState.plain,
      LiveConfig.plain]
  have hallowed : AllowedUnchanged (probeConfig tgt) (probeState translate resolve) r answer :=
    ⟨fun _ _ _ _ => rfl, fun _ _ _ _ _ _ =>
      by simp [Passes, chains, probeConfig, LiveConfig.plain]⟩
  have hsql (schema : SchemaContext) : engineSql (probeConfig tgt) (probeState translate resolve)
      r ⟨false, .trino, tgt, true⟩ schema r.sql false =
        .ok (if shouldAttemptTranslation r.session r.protocol
          then translate (srcDialect r) r.sql else r.sql) := by
    by_cases h : shouldAttemptTranslation r.session r.protocol = true <;>
      simp [engineSql, TranslationService.maybeTranslate, probeState, htgt, h]
  rw [missSubmission, hreaches.executed rfl rfl, hallowed.executeToSinkInner_run rfl rfl,
    setupAfterStage, finishSetup, hsql]
  simp [probeState, checkedSession, probeConfig, LiveConfig.plain]

theorem exists_incompatible (a b : SqlDialect) :
    ∃ tgt, a.isCompatibleWith tgt = false ∧ b.isCompatibleWith tgt = false := by
  cases a <;> cases b <;> first
    | exact ⟨.trino, rfl, rfl⟩
    | exact ⟨.athena, rfl, rfl⟩
    | exact ⟨.duckDb, rfl, rfl⟩

section
variable {r₁ r₂ : Request} {tgt : SqlDialect} {answer : (q : Question) → Answer q}
  (h₁ : (srcDialect r₁).isCompatibleWith tgt = false)
  (h₂ : (srcDialect r₂).isCompatibleWith tgt = false)
  (h : ∀ translate resolve,
    missSubmission (probeConfig tgt) (probeState translate resolve) r₁ answer =
      missSubmission (probeConfig tgt) (probeState translate resolve) r₂ answer)
include h₁ h₂ h

theorem session_eq_of_probe : r₁.session = r₂.session := by
  have hprobe := h (fun _ text => text) fun _ => .serviceAccount
  rw [missSubmission_probe h₁, missSubmission_probe h₂] at hprobe
  simp only [Option.some.injEq, Submission.mk.injEq] at hprobe
  simpa [enrichSessionForPassthrough] using hprobe.2.2.1

open Classical in
theorem auth_eq_of_probe : r₁.auth = r₂.auth := by
  have hprobe := h (fun _ text => text) fun auth =>
    if auth = r₁.auth then .serviceAccount else .passthrough
  rw [missSubmission_probe h₁, missSubmission_probe h₂] at hprobe
  simp only [Option.some.injEq, Submission.mk.injEq, if_true] at hprobe
  by_contra hne
  have hcredentials := hprobe.2.2.2.1
  rw [if_neg fun heq => hne heq.symm] at hcredentials
  cases hcredentials

theorem translation_eq_of_probe (hsql : r₁.sql = r₂.sql) :
    shouldAttemptTranslation r₁.session r₁.protocol =
        shouldAttemptTranslation r₂.session r₂.protocol ∧
      (shouldAttemptTranslation r₁.session r₁.protocol = true →
        srcDialect r₁ = srcDialect r₂) := by
  have htext (translate : SqlDialect → String → String) :
      (if shouldAttemptTranslation r₁.session r₁.protocol then translate (srcDialect r₁) r₁.sql
        else r₁.sql) =
      if shouldAttemptTranslation r₂.session r₂.protocol then translate (srcDialect r₂) r₁.sql
        else r₁.sql := by
    have hprobe := h translate fun _ => .serviceAccount
    rw [missSubmission_probe h₁, missSubmission_probe h₂, ← hsql] at hprobe
    exact congrArg Submission.sql (Option.some.inj hprobe)
  have hlonger : r₁.sql ++ "x" ≠ r₁.sql := fun heq => by
    have := congrArg String.length heq
    simp at this
  cases ha₁ : shouldAttemptTranslation r₁.session r₁.protocol <;>
    cases ha₂ : shouldAttemptTranslation r₂.session r₂.protocol <;>
    simp only [ha₁, ha₂, Bool.false_eq_true, if_false, if_true] at htext
  · exact ⟨rfl, fun hfalse => absurd hfalse (by decide)⟩
  · exact absurd (htext fun _ text => text ++ "x").symm hlonger
  · exact absurd (htext fun _ text => text ++ "x") hlonger
  · refine ⟨rfl, fun _ => ?_⟩
    have hdialect := htext fun dialect _ => if dialect = srcDialect r₁ then "1" else "2"
    rw [if_pos rfl] at hdialect
    by_contra hne
    rw [if_neg fun heq => hne heq.symm] at hdialect
    exact absurd hdialect (by decide)

theorem sameQueryInputs_of_probe (hsql : r₁.sql = r₂.sql) : SameQueryInputs r₁ r₂ := by
  have hsession := session_eq_of_probe h₁ h₂ h
  refine ⟨hsession, auth_eq_of_probe h₁ h₂ h, fun hnone => ?_⟩
  obtain ⟨hattempt, hdialect⟩ := translation_eq_of_probe h₁ h₂ h hsql
  simp only [shouldAttemptTranslation, srcDialect, resolveSrcDialect, ← hsession, hnone,
    Option.isSome_none, Bool.or_false, bne_iff_ne] at hattempt hdialect
  have hmcp : r₁.protocol = .mcp ↔ r₂.protocol = .mcp := by
    rw [← bne_eq_false_iff_eq, ← bne_eq_false_iff_eq (a := r₂.protocol), hattempt]
  refine ⟨?_, hmcp⟩
  by_cases hp : r₁.protocol = .mcp
  · rw [hp, hmcp.1 hp]
  · exact hdialect hp

end

/-- One key means one query for all configurations exactly when requests that agree in the key's
fields agree in all else that shapes the query. -/
theorem missSubmission_eq_iff (r₁ r₂ : Request) (hgroup : r₁.group = r₂.group)
    (h₁ : ∀ live, KeyFramable (requestKey live r₁))
    (h₂ : ∀ live, KeyFramable (requestKey live r₂)) :
    (∀ live state answer, hashedInput (requestKey live r₁) = hashedInput (requestKey live r₂) →
      missSubmission live state r₁ answer = missSubmission live state r₂ answer) ↔
    (SameKeyFields r₁ r₂ → SameQueryInputs r₁ r₂) := by
  constructor
  · intro h hkey
    obtain ⟨tgt, htgt₁, htgt₂⟩ := exists_incompatible (srcDialect r₁) (srcDialect r₂)
    have hhash := (sameKeyFields_iff hgroup _ (h₁ (probeConfig tgt)) (h₂ _)).2 hkey
    exact sameQueryInputs_of_probe htgt₁ htgt₂
      (fun translate resolve => h _ (probeState translate resolve) regionPolicy hhash) hkey.sql
  · intro h live state answer heq
    have hkey := (sameKeyFields_iff hgroup live (h₁ live) (h₂ live)).1 heq
    exact missSubmission_congr hgroup hkey (h hkey) live state answer

def totalOver (protocol : FrontendProtocol) : Request :=
  ⟨"SELECT \"total\" FROM orders", [],
    ⟨some "alice", none, none, fun _ => none, fun _ => none, none⟩, protocol, "default",
    ⟨"alice", [], [], none, none, fun _ => none⟩⟩

theorem totalOver_framable (protocol : FrontendProtocol) (live : LiveConfig) :
    KeyFramable (requestKey live (totalOver protocol)) where
  sql := by change Framable "SELECT \"total\" FROM orders"; decide +kernel
  group := by change Framable "default"; decide +kernel
  user := by change Framable "alice"; decide +kernel
  catalog := by rintro s ⟨⟩
  database := by rintro s ⟨⟩
  params := ⟨Nat.two_pow_pos 64, by rintro p ⟨⟩⟩

/-- In MySQL's dialect double quotes enclose a string, in Trino's a column name. -/
def quoteTranslation (src : SqlDialect) (sql : String) : String :=
  if src = .mySql ∧ sql = "SELECT \"total\" FROM orders" then "SELECT 'total' FROM orders" else sql

/-- The two Snowflake frontends have one dialect. -/
theorem snowflake_protocols_one_query :
    hashedInput (requestKey (probeConfig .trino) (totalOver .snowflakeHttp)) =
        hashedInput (requestKey (probeConfig .trino) (totalOver .snowflakeSqlApi)) ∧
      missSubmission (probeConfig .trino) (probeState quoteTranslation fun _ => .serviceAccount)
        (totalOver .snowflakeHttp) regionPolicy =
      missSubmission (probeConfig .trino) (probeState quoteTranslation fun _ => .serviceAccount)
        (totalOver .snowflakeSqlApi) regionPolicy := by
  refine ⟨rfl, ?_⟩
  refine (missSubmission_eq_iff (totalOver .snowflakeHttp) (totalOver .snowflakeSqlApi) rfl
    (totalOver_framable _) (totalOver_framable _)).2 (fun _ => ?_) _ _ _ rfl
  exact ⟨rfl, rfl, fun _ => ⟨rfl, by decide⟩⟩

/-- The key leaves out the frontend, hence the dialect: the engine runs two different texts. -/
theorem one_key_two_queries :
    hashedInput (requestKey (probeConfig .trino) (totalOver .mySqlWire)) =
        hashedInput (requestKey (probeConfig .trino) (totalOver .trinoHttp)) ∧
      (missSubmission (probeConfig .trino) (probeState quoteTranslation fun _ => .serviceAccount)
        (totalOver .mySqlWire) regionPolicy).map (·.sql) = some "SELECT 'total' FROM orders" ∧
      (missSubmission (probeConfig .trino) (probeState quoteTranslation fun _ => .serviceAccount)
        (totalOver .trinoHttp) regionPolicy).map (·.sql) =
          some "SELECT \"total\" FROM orders" := by
  refine ⟨rfl, ?_, ?_⟩ <;> decide +kernel

end QueryFlux.Cache
