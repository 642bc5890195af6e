import QueryFlux.Core.Query

/-!
# Compound routers

A compound router compiles its configured conditions when it is built, and leaves out those it
cannot compile: protocols it has no name for, MCP among them, and regexes that are not valid. A
router that combines with AND and routes a query has tested the compiled conditions only
(`matches_all_iff`); what is left out holds for the query just where it asks for MCP and the query
came that way (`conditions_hold_iff`).
-/

namespace QueryFlux.Routing

open Core

/-! ## Conditions -/

inductive CompoundCombineMode
  | all | any

inductive CompoundCondition
  | protocol (protocol : String)
  | header (headerName headerValue : String)
  | user (username : String)
  | clientTag (tag : String)
  | queryRegex (regex : String)

/-- Compiled regexes are of type `ρ`. -/
inductive CompiledCondition (ρ : Type)
  | protocol (expected : FrontendProtocol)
  | header (name value : String)
  | user (username : String)
  | clientTag (tag : String)
  | queryRegex (re : ρ)

def protocolFromConfig : String → Option FrontendProtocol
  | "trinoHttp" => some .trinoHttp
  | "postgresWire" => some .postgresWire
  | "mysqlWire" => some .mySqlWire
  | "clickhouseHttp" => some .clickHouseHttp
  | "flightSql" => some .flightSql
  | "snowflakeHttp" => some .snowflakeHttp
  | "snowflakeSqlApi" => some .snowflakeSqlApi
  | _ => none

def clientTagsContain (session : SessionContext) (tag : String) : Bool :=
  match session.extra "x-trino-client-tags" with
  | none => false
  | some raw => ((raw.toList.splitOn ',').map trim).any (· == tag.toList)

/-- The text operations of the libraries: `str::to_lowercase`, `Regex::new` and `is_match`. -/
structure TextLib (ρ : Type) where
  toLowercase : String → String
  newRegex : String → Option ρ
  isMatch : ρ → String → Bool

structure RoutedQuery where
  sql : String
  session : SessionContext
  frontendProtocol : FrontendProtocol
  authCtx : Option AuthContext

structure CompoundRouter (ρ : Type) where
  combine : CompoundCombineMode
  conditions : List (CompiledCondition ρ)
  target : String

section
variable {ρ : Type} (lib : TextLib ρ)

def headerEquals (session : SessionContext) (headerName expectedValue : String) : Bool :=
  session.extra (lib.toLowercase headerName) == some expectedValue

/-! ## Compiling -/

/-- A protocol that is not known or a pattern that is no regular expression is dropped. -/
def CompoundCondition.compile : CompoundCondition → Option (CompiledCondition ρ)
  | protocol p => (protocolFromConfig p).map .protocol
  | header name value => some (.header name value)
  | user username => some (.user username)
  | clientTag tag => some (.clientTag tag)
  | queryRegex regex => (lib.newRegex regex).map .queryRegex

def CompoundRouter.new (combine : CompoundCombineMode) (conditions : List CompoundCondition)
    (targetGroup : String) : CompoundRouter ρ :=
  ⟨combine, conditions.filterMap (·.compile lib), targetGroup⟩

def evalOne (q : RoutedQuery) : CompiledCondition ρ → Bool
  | .protocol expected => q.frontendProtocol == expected
  | .header name value => headerEquals lib q.session name value
  | .user username => (q.authCtx.map (·.user) <|> q.session.user) == some username
  | .clientTag tag => clientTagsContain q.session tag
  | .queryRegex re => lib.isMatch re q.sql

/-- A router without conditions matches nothing. -/
def CompoundRouter.matches (router : CompoundRouter ρ) (q : RoutedQuery) : Bool :=
  !router.conditions.isEmpty &&
    match router.combine with
    | .all => router.conditions.all (evalOne lib q)
    | .any => router.conditions.any (evalOne lib q)

def CompoundRouter.route (router : CompoundRouter ρ) (q : RoutedQuery) : Option String :=
  if router.matches lib q then some router.target else none

def configName : FrontendProtocol → String
  | .trinoHttp => "trinoHttp"
  | .postgresWire => "postgresWire"
  | .mySqlWire => "mysqlWire"
  | .clickHouseHttp => "clickhouseHttp"
  | .flightSql => "flightSql"
  | .snowflakeHttp => "snowflakeHttp"
  | .snowflakeSqlApi => "snowflakeSqlApi"
  | .mcp => "mcp"

/-! ## What a condition says -/

/-- The condition as it is written in the configuration. -/
def CompoundCondition.Holds (q : RoutedQuery) : CompoundCondition → Prop
  | protocol p => configName q.frontendProtocol = p
  | header name value => q.session.extra (lib.toLowercase name) = some value
  | user username => (q.authCtx.map (·.user) <|> q.session.user) = some username
  | clientTag tag => clientTagsContain q.session tag = true
  | queryRegex regex => ∃ re ∈ lib.newRegex regex, lib.isMatch re q.sql = true

variable {p : FrontendProtocol}

theorem protocolFromConfig_eq_some {name : String} (h : protocolFromConfig name = some p) :
    name = configName p := by
  unfold protocolFromConfig at h
  split at h <;> cases h <;> rfl

theorem protocolFromConfig_configName (h : p ≠ .mcp) :
    protocolFromConfig (configName p) = some p := by
  cases p
  case mcp => exact absurd rfl h
  all_goals rfl

theorem configName_injective {p' : FrontendProtocol} (h : configName p = configName p') :
    p = p' := by
  revert h
  cases p <;> cases p' <;> decide

variable {lib} {q : RoutedQuery} {c : CompoundCondition} {conditions : List CompoundCondition}

theorem evalOne_iff_holds {k : CompiledCondition ρ} (h : c.compile lib = some k) :
    evalOne lib q k = true ↔ c.Holds lib q := by
  cases c with
  | protocol name =>
    obtain ⟨p, hp, rfl⟩ := Option.map_eq_some_iff.1 h
    rw [protocolFromConfig_eq_some hp]
    exact beq_iff_eq.trans ⟨congrArg configName, configName_injective⟩
  | header => cases h; exact beq_iff_eq
  | user => cases h; exact beq_iff_eq
  | clientTag => cases h; exact Iff.rfl
  | queryRegex regex =>
    obtain ⟨re, hre, rfl⟩ := Option.map_eq_some_iff.1 h
    exact ⟨fun hm => ⟨re, hre, hm⟩, fun ⟨re', hre', hm⟩ => by cases hre.symm.trans hre'; exact hm⟩

theorem holds_iff_of_dropped (h : c.compile lib = none) :
    c.Holds lib q ↔ c = .protocol "mcp" ∧ q.frontendProtocol = .mcp := by
  cases c with
  | protocol name =>
    have hname : protocolFromConfig name = none := Option.map_eq_none_iff.1 h
    constructor
    · rintro rfl
      have hmcp : q.frontendProtocol = .mcp := by
        by_contra hne
        rw [protocolFromConfig_configName hne] at hname
        cases hname
      exact ⟨by rw [hmcp]; rfl, hmcp⟩
    · rintro ⟨hc, hp⟩
      cases hc
      rw [CompoundCondition.Holds, hp]
      rfl
  | queryRegex regex =>
    have hnone : lib.newRegex regex = none := Option.map_eq_none_iff.1 h
    refine ⟨fun ⟨re, hre, _⟩ => ?_, fun ⟨hc, _⟩ => nomatch hc⟩
    rw [hnone] at hre
    cases hre
  | header | user | clientTag => cases h

/-- Only compiled conditions are looked at, and there must be one. -/
theorem matches_all_iff (group : String) :
    (CompoundRouter.new lib .all conditions group).matches lib q = true ↔
      (∃ c ∈ conditions, c.compile lib ≠ none) ∧
        ∀ c ∈ conditions, c.compile lib ≠ none → c.Holds lib q := by
  simp only [CompoundRouter.matches, CompoundRouter.new, Bool.and_eq_true, Bool.not_eq_true',
    List.isEmpty_eq_false_iff_exists_mem, List.mem_filterMap, List.all_eq_true]
  refine and_congr ?_ ?_
  · simp only [Option.ne_none_iff_exists']
    exact ⟨fun ⟨k, c, hc, hk⟩ => ⟨c, hc, k, hk⟩, fun ⟨c, hc, k, hk⟩ => ⟨k, c, hc, hk⟩⟩
  · constructor
    · intro h c hc hne
      obtain ⟨k, hk⟩ := Option.ne_none_iff_exists'.1 hne
      exact (evalOne_iff_holds hk).1 (h k ⟨c, hc, hk⟩)
    · rintro h k ⟨c, hc, hk⟩
      exact (evalOne_iff_holds hk).2 (h c hc (by rw [hk]; simp))

/-- If the query is routed, all configured conditions hold if and only if none was dropped, except
that `mcp` is not known and may hold. -/
theorem conditions_hold_iff (lib : TextLib ρ) (conditions : List CompoundCondition)
    (group : String) (q : RoutedQuery)
    (h : (CompoundRouter.new lib .all conditions group).route lib q = some group) :
    (∀ c ∈ conditions, c.Holds lib q) ↔
      ∀ c ∈ conditions, c.compile lib = none →
        c = .protocol "mcp" ∧ q.frontendProtocol = .mcp := by
  have hmatches : (CompoundRouter.new lib .all conditions group).matches lib q = true := by
    by_contra hne
    rw [CompoundRouter.route, if_neg hne] at h
    cases h
  have hcompiled := ((matches_all_iff group).1 hmatches).2
  constructor
  · intro hall c hc hnone
    exact (holds_iff_of_dropped hnone).1 (hall c hc)
  · intro hdropped c hc
    by_cases hnone : c.compile lib = none
    · exact (holds_iff_of_dropped hnone).2 (hdropped c hc hnone)
    · exact hcompiled c hc hnone

end

def findText : TextLib String where
  toLowercase s := String.ofList (Core.toLowercase s.toList)
  newRegex s := if s.toList.contains '(' then none else some s
  isMatch re sql := (afterText re.toList sql.toList).isSome

def aliceOver (protocol : FrontendProtocol) : RoutedQuery :=
  ⟨"SELECT 1", ⟨some "alice", none, none, fun _ => none, fun _ => none, none⟩, protocol, none⟩

/-- All three are compiled. -/
theorem compiled_conditions_hold :
    [CompoundCondition.protocol "trinoHttp", .user "alice", .queryRegex "SELECT"].Forall fun c =>
      c.Holds findText (aliceOver .trinoHttp) := by
  rw [List.forall_iff_forall_mem]
  refine (conditions_hold_iff findText _ "g" (aliceOver .trinoHttp) (by decide +kernel)).2 ?_
  simp only [List.forall_mem_cons]
  exact ⟨nofun, nofun, nofun, nofun⟩

/-- Alice's query over Trino's protocol is routed by a rule for MCP, and by one whose regex does
not compile. -/
theorem dropped_condition_routed :
    (CompoundRouter.new findText .all [.protocol "mcp", .user "alice"] "g").route findText
        (aliceOver .trinoHttp) = some "g" ∧
      ¬ (CompoundCondition.protocol "mcp").Holds findText (aliceOver .trinoHttp) ∧
      (CompoundRouter.new findText .all [.queryRegex "(", .user "alice"] "g").route findText
        (aliceOver .trinoHttp) = some "g" ∧
      ¬ (CompoundCondition.queryRegex "(").Holds findText (aliceOver .trinoHttp) := by
  refine ⟨by decide +kernel, ?_, by decide +kernel, ?_⟩
  · rw [holds_iff_of_dropped rfl]
    rintro ⟨-, hp⟩
    cases hp
  · rw [holds_iff_of_dropped (by decide +kernel)]
    rintro ⟨hc, -⟩
    cases hc

end QueryFlux.Routing
