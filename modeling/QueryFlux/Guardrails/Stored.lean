import QueryFlux.Guardrails.Blocked
import QueryFlux.Routing.Slices

/-!
# Guards from the stored settings

The guard chains are built from a JSON value that the admin interface stored. Each item of a list
of specs becomes one guard; where the spec cannot be used the guard is a `misconfigured` one, which
denies every query. The readers of the single fields give nothing for a value of another type, and
so do the readers of the lists around the specs.

A query goes through exactly if the guard of every spec that applies to its group lets it pass
(`letsThrough_iff`), so a spec without a usable kind, built-in name, script or URL denies every
query it applies to. Nothing else that is malformed does (`stored_closed_iff`):
`malformed_let_through` lists settings whose lists are no lists, and specs that lose their maximum
or one of their tables.
-/

namespace QueryFlux.Guardrails

open Core Lib

/-! ## Guards from settings -/

inductive FailBehavior
  | allow | deny
  deriving DecidableEq

/-- A guard as it is built; one that cannot be denies everything. -/
inductive BuiltGuard
  | readOnly
  | rowLimit (maxRows : Option Nat)
  | requirePredicate (appliesTo : List String)
  | pythonScript (script : String) (timeoutMs : Option Nat)
  | httpWebhook (url : String) (timeoutMs : Option Nat) (retryCount : Nat)
      (failBehavior : FailBehavior) (headers : List (String × String))
  | misconfigured (guardName reason : String)
  deriving DecidableEq

namespace BuiltGuard

def name : BuiltGuard → String
  | readOnly => "read_only"
  | rowLimit _ => "row_limit"
  | requirePredicate _ => "require_predicate"
  | pythonScript .. => "python_script"
  | httpWebhook .. => "http_webhook"
  | misconfigured guardName _ => guardName

def guard (g : BuiltGuard) (id : Nat) : Guard := ⟨id, g.name, .plan⟩

def check (parse : SqlDialect → String → Option (List Sql.Expression))
    (upper : List Char → List Char) (outside : BuiltGuard → GuardContext → GuardResult) :
    BuiltGuard → GuardContext → GuardResult
  | readOnly => readOnlyGuard parse upper
  | rowLimit maxRows => rowLimitGuard parse upper maxRows
  | requirePredicate appliesTo => requirePredicateGuard parse upper appliesTo
  | misconfigured _ reason => fun _ => .deny reason (some "GUARD_CONFIG_ERROR")
  | g => outside g

end BuiltGuard

/-- The fields of a stored guard; those of the wrong type are as good as absent. -/
structure DbGuardSpec where
  kind : String
  name : Option String
  maxRows : Option Nat
  appliesTo : Option (List String)
  scriptId : Option Int
  script : Option String
  url : Option String
  timeoutMs : Option Nat
  retryCount : Option Nat
  failBehavior : Option String
  headers : Option (List (String × String))

def asU64 : Json → Option Nat
  | .number text => parseU64 text.toList
  | _ => none

def scriptIdOf (item : Json) : Option Int :=
  (item.get "script_id").bind fun
    | .number text => Routing.asI64 text
    | _ => none

def parseSpec (item : Json) : Option DbGuardSpec :=
  (item.strAt "kind").map fun kind =>
    { kind
      name := item.strAt "name"
      maxRows := (item.get "max_rows").bind asU64
      appliesTo := ((item.get "applies_to").bind Json.asArray).map (·.filterMap Json.asStr)
      scriptId := scriptIdOf item
      script := item.strAt "script"
      url := item.strAt "url"
      timeoutMs := (item.get "timeout_ms").bind asU64
      retryCount := ((item.get "retry_count").bind asU64).filter (· < 2 ^ 32)
      failBehavior := item.strAt "fail_behavior"
      headers := ((item.get "headers").bind Json.asObject).map
        (·.filterMap fun m => m.2.asStr.map (m.1, ·)) }

def resolveBuiltInGuard (name : Option String) (maxRows : Option Nat)
    (appliesTo : Option (List String)) : BuiltGuard :=
  match name with
  | some "read_only" => .readOnly
  | some "row_limit" => .rowLimit maxRows
  | some "require_predicate" => .requirePredicate (appliesTo.getD [])
  | some other => .misconfigured "built_in" ("unsupported built_in guard name \"" ++ other ++ "\"")
  | none => .misconfigured "built_in" "built_in guard is missing required field \"name\""

/-- The stored scripts, and the scheme of a URL or why it is none. -/
structure Surroundings where
  guardScriptBodies : Int → Option String
  urlScheme : String → Except String String

namespace Surroundings

variable (env : Surroundings)

def resolvePythonGuardScript (inlineScript : Option String) (scriptId : Option Int)
    (timeoutMs : Option Nat) : BuiltGuard :=
  match inlineScript.filter (trim ·.toList ≠ []), scriptId with
  | some script, _ => .pythonScript script timeoutMs
  | none, some scriptId =>
    match env.guardScriptBodies scriptId with
    | some script => .pythonScript script timeoutMs
    | none => .misconfigured "python_script"
        ("python_script guard references missing guard script id " ++ toString scriptId)
  | none, none => .misconfigured "python_script"
      "python_script guard requires either script or script_id"

def makeHttpWebhookGuard (url : String) (timeoutMs : Option Nat) (retryCount : Nat)
    (failBehavior : FailBehavior) (headers : List (String × String)) : BuiltGuard :=
  let raw := String.ofList (trim url.toList)
  if raw = "" then
    .misconfigured "http_webhook" "http_webhook guard is missing required field \"url\""
  else
    match env.urlScheme raw with
    | .ok other =>
      if other = "http" ∨ other = "https" then
        .httpWebhook raw timeoutMs retryCount failBehavior headers
      else
        .misconfigured "http_webhook"
          ("http_webhook url must use http or https scheme, got \"" ++ other ++ "\"")
    | .error e =>
      .misconfigured "http_webhook" ("http_webhook url is not a valid URL: " ++ e)

def guardOfSpec (spec : DbGuardSpec) : BuiltGuard :=
  match spec.kind with
  | "built_in" => resolveBuiltInGuard spec.name spec.maxRows spec.appliesTo
  | "http_webhook" =>
    env.makeHttpWebhookGuard (spec.url.getD "") spec.timeoutMs (spec.retryCount.getD 0)
      (if spec.failBehavior = some "allow" then .allow else .deny) (spec.headers.getD [])
  | "python_script" => env.resolvePythonGuardScript spec.script spec.scriptId spec.timeoutMs
  | other => .misconfigured "guard" ("unsupported guard kind \"" ++ other ++ "\"")

def guardOf (item : Json) : BuiltGuard :=
  match parseSpec item with
  | some spec => env.guardOfSpec spec
  | none => .misconfigured "guard" "guard spec is not a valid object with a \"kind\" field"

def buildChainFromDbSpecs (specs : Json) : Option (List BuiltGuard) :=
  (specs.asArray.map (·.map env.guardOf)).filter (!·.isEmpty)

/-- The chain of all groups and those of single ones. -/
structure Chains where
  global : Option (List BuiltGuard)
  groups : List (String × List BuiltGuard)

def buildGuardChainsFromDbValue (v : Json) : Chains :=
  match v.asObject with
  | none => ⟨none, []⟩
  | some _ =>
    { global := env.buildChainFromDbSpecs ((v.get "global").getD (.array []))
      groups := (((v.get "groups").bind Json.asObject).map
        (·.filterMap fun m => (env.buildChainFromDbSpecs m.2).map (m.1, ·))).getD [] }

end Surroundings

namespace Surroundings.Chains

variable (c : Chains) (group : String)

def ofGroup : Option (List BuiltGuard) := (c.groups.find? (·.1 = group)).map Prod.snd

def guards : List BuiltGuard := c.global.getD [] ++ (c.ofGroup group).getD []

def numbered (first : Nat) (gs : List BuiltGuard) : GuardChain :=
  gs.mapIdx fun i g => g.guard (first + i)

def chains : List GuardChain :=
  (c.global.map (numbered 0)).toList ++
    ((c.ofGroup group).map (numbered (c.global.getD []).length)).toList

def answer (check : BuiltGuard → GuardContext → GuardResult)
    (access : String → Access.AccessRequest → Access.AccessDecision) : (q : Question) → Answer q
  | .access connection request => access connection request
  | .guard g ctx => (c.guards group)[g.id]?.elim .allow (check · ctx)

variable {c group} {check : BuiltGuard → GuardContext → GuardResult}
  {access : String → Access.AccessRequest → Access.AccessDecision} {ctx : GuardContext}

variable {g : BuiltGuard}

theorem answer_guard {i : Nat} (h : (c.guards group)[i]? = some g) :
    c.answer group check access (.guard (g.guard i) ctx) = check g ctx := by
  rw [answer, BuiltGuard.guard, h]
  rfl

theorem guard_mem_numbered {first i : Nat} {gs : List BuiltGuard} (h : gs[i]? = some g) :
    g.guard (first + i) ∈ numbered first gs := by
  obtain ⟨hi, rfl⟩ := List.getElem?_eq_some_iff.1 h
  exact List.mem_mapIdx.2 ⟨i, hi, rfl⟩

theorem mem_chains (h : g ∈ c.guards group) :
    ∃ i, (c.guards group)[i]? = some g ∧ ∃ chain ∈ c.chains group, g.guard i ∈ chain := by
  rcases List.mem_append.1 h with h | h
  · obtain ⟨i, hi⟩ := List.mem_iff_getElem?.1 h
    cases hglobal : c.global with
    | none => rw [hglobal] at h; cases h
    | some gs =>
      rw [hglobal] at hi
      refine ⟨i, ?_, numbered 0 gs, by simp [chains, hglobal], ?_⟩
      · rw [guards, hglobal, List.getElem?_append_left (List.getElem?_eq_some_iff.1 hi).1]
        exact hi
      · exact Nat.zero_add i ▸ guard_mem_numbered hi
  · obtain ⟨i, hi⟩ := List.mem_iff_getElem?.1 h
    cases hgroup : c.ofGroup group with
    | none => rw [hgroup] at h; cases h
    | some gs =>
      rw [hgroup] at hi
      refine ⟨(c.global.getD []).length + i, ?_, numbered (c.global.getD []).length gs,
        by simp [chains, hgroup], guard_mem_numbered hi⟩
      rw [guards, hgroup, List.getElem?_append_right (Nat.le_add_right _ _),
        Nat.add_sub_cancel_left]
      exact hi

theorem guard_of_mem_numbered {first : Nat} {gs : List BuiltGuard} {guard : Guard}
    (h : guard ∈ numbered first gs) :
    ∃ (i : Nat) (g : BuiltGuard), gs[i]? = some g ∧ guard = g.guard (first + i) := by
  obtain ⟨i, hi, rfl⟩ := List.mem_mapIdx.1 h
  exact ⟨i, gs[i], List.getElem?_eq_getElem hi, rfl⟩

theorem guard_of_mem_chains {chain : GuardChain} {guard : Guard} (hchain : chain ∈ c.chains group)
    (h : guard ∈ chain) :
    ∃ (i : Nat) (g : BuiltGuard), (c.guards group)[i]? = some g ∧ guard = g.guard i := by
  rcases List.mem_append.1 hchain with hchain | hchain
  · obtain ⟨gs, hglobal, rfl⟩ := Option.map_eq_some_iff.1 (Option.mem_toList.1 hchain)
    obtain ⟨i, g, hi, rfl⟩ := guard_of_mem_numbered h
    refine ⟨i, g, ?_, by rw [Nat.zero_add]⟩
    rw [guards, hglobal, Option.getD_some,
      List.getElem?_append_left (List.getElem?_eq_some_iff.1 hi).1]
    exact hi
  · obtain ⟨gs, hgroup, rfl⟩ := Option.map_eq_some_iff.1 (Option.mem_toList.1 hchain)
    obtain ⟨i, g, hi, rfl⟩ := guard_of_mem_numbered h
    refine ⟨(c.global.getD []).length + i, g, ?_, rfl⟩
    rw [guards, hgroup, Option.getD_some, List.getElem?_append_right (Nat.le_add_right _ _),
      Nat.add_sub_cancel_left]
    exact hi

/-- A query passes the chains of its group exactly when each guard in them lets it pass. -/
theorem passes_chains_iff : Passes (c.answer group check access) ctx (c.chains group) ↔
    ∀ g ∈ c.guards group, (check g ctx).passes = true := by
  constructor
  · intro h g hg
    obtain ⟨i, hi, chain, hchain, hmem⟩ := mem_chains hg
    have hanswer := h chain hchain _ hmem rfl
    rwa [answer_guard hi] at hanswer
  · intro h chain hchain guard hmem _
    obtain ⟨i, g, hi, rfl⟩ := guard_of_mem_chains hchain hmem
    rw [answer_guard hi]
    exact h g (List.mem_of_getElem? hi)

end Surroundings.Chains

/-! ## The specs of a group -/

/-- The item is a spec in the global list or in the list of the group. -/
inductive AppliesTo (v : Json) (group : String) (item : Json) : Prop
  | global {items : List Json} (h : v.get "global" = some (.array items)) (hmem : item ∈ items)
  | group {groups : Json} {items : List Json} (h : v.get "groups" = some groups)
      (hgroup : groups.get group = some (.array items)) (hmem : item ∈ items)

/-- The reasons why no guard can be built from an item. -/
inductive Unusable (env : Surroundings) (item : Json) : Prop
  -- no object, or no text as its kind
  | noKind (h : item.strAt "kind" = none)
  | kind {kind : String} (h : item.strAt "kind" = some kind)
      (hkind : kind ∉ ["built_in", "http_webhook", "python_script"])
  | name (h : item.strAt "kind" = some "built_in")
      (hname : ∀ name ∈ item.strAt "name", name ∉ ["read_only", "row_limit", "require_predicate"])
  | script (h : item.strAt "kind" = some "python_script")
      (hscript : ∀ script ∈ item.strAt "script", trim script.toList = [])
      (hid : ∀ id ∈ scriptIdOf item, env.guardScriptBodies id = none)
  | url (h : item.strAt "kind" = some "http_webhook")
      (hurl : ∀ url ∈ item.strAt "url", trim url.toList = [] ∨
        ∀ scheme, env.urlScheme (String.ofList (trim url.toList)) = .ok scheme →
          scheme ≠ "http" ∧ scheme ≠ "https")

variable {env : Surroundings} {v item : Json} {group : String}

theorem guard_mem_built (env : Surroundings) {items : List Json} (hmem : item ∈ items) :
    ∃ gs, env.buildChainFromDbSpecs (.array items) = some gs ∧ env.guardOf item ∈ gs := by
  refine ⟨items.map env.guardOf, ?_, List.mem_map_of_mem hmem⟩
  cases items with
  | nil => cases hmem
  | cons => rfl

theorem find?_filterMap_of_get {β : Type} {f : Json → Option β} {k : String} {w : Json} {b : β}
    {members : Members} (h : (Json.object members).get k = some w) (hf : f w = some b) :
    ((members.filterMap fun m => (f m.2).map (m.1, ·)).find? (·.1 = k)).map Prod.snd = some b := by
  induction members with
  | nil => cases h
  | cons m _ ih =>
    rw [Json.get_object_cons] at h
    split at h
    · rename_i hk
      cases h
      rw [List.filterMap_cons_some (b := (m.1, b)) (by rw [hf]; rfl),
        List.find?_cons_of_pos (by simpa using hk)]
      rfl
    · rename_i hk
      cases hm : f m.2 with
      | none =>
        rw [List.filterMap_cons_none (by rw [hm]; rfl)]
        exact ih h
      | some b' =>
        rw [List.filterMap_cons_some (b := (m.1, b')) (by rw [hm]; rfl),
          List.find?_cons_of_neg (by simpa using hk)]
        exact ih h

theorem get_of_find?_filterMap {β : Type} {f : Json → Option β} {k : String} {b : β}
    {members : Members} (hkeys : (members.map Prod.fst).Nodup)
    (h : ((members.filterMap fun m => (f m.2).map (m.1, ·)).find? (·.1 = k)).map Prod.snd =
      some b) : ∃ w, (Json.object members).get k = some w ∧ f w = some b := by
  obtain ⟨found, hfound, rfl⟩ := Option.map_eq_some_iff.1 h
  obtain ⟨m, hm, hf⟩ := List.mem_filterMap.1 (List.mem_of_find?_eq_some hfound)
  obtain ⟨b, hb, rfl⟩ := Option.map_eq_some_iff.1 hf
  have hk : m.1 = k := by simpa using List.find?_some hfound
  refine ⟨m.2, (Json.get_object_eq_some_iff hkeys).2 ?_, hb⟩
  rw [← hk]
  exact hm

theorem AppliesTo.isObject (h : AppliesTo v group item) : ∃ ms, v = .object ms := by
  rcases h with ⟨h, -⟩ | ⟨h, -, -⟩ <;> cases v <;> first | cases h | exact ⟨_, rfl⟩

theorem AppliesTo.guard_mem (h : AppliesTo v group item) :
    env.guardOf item ∈ (env.buildGuardChainsFromDbValue v).guards group := by
  obtain ⟨ms, rfl⟩ := h.isObject
  apply List.mem_append.2
  cases h with
  | global h hmem =>
    left
    obtain ⟨gs, hgs, hg⟩ := guard_mem_built env hmem
    have hglobal : (env.buildGuardChainsFromDbValue (.object ms)).global = some gs := by
      simp [Surroundings.buildGuardChainsFromDbValue, Json.asObject, h, hgs]
    rw [hglobal]
    exact hg
  | @group groups items h hgroup hmem =>
    right
    obtain ⟨gs, hgs, hg⟩ := guard_mem_built env hmem
    cases groups with
    | object =>
      have hfound : (env.buildGuardChainsFromDbValue (.object ms)).ofGroup group = some gs := by
        simp only [Surroundings.Chains.ofGroup, Surroundings.buildGuardChainsFromDbValue,
          Json.asObject, h, Option.bind_some, Option.map_some, Option.getD_some]
        exact find?_filterMap_of_get hgroup hgs
      rw [hfound]
      exact hg
    | _ => cases hgroup

theorem item_of_built {specs : Json} {g : BuiltGuard} {gs : List BuiltGuard}
    (h : env.buildChainFromDbSpecs specs = some gs) (hg : g ∈ gs) :
    ∃ items, specs = .array items ∧ ∃ item ∈ items, g = env.guardOf item := by
  unfold Surroundings.buildChainFromDbSpecs at h
  obtain ⟨hsome, -⟩ := Option.filter_eq_some_iff.1 h
  obtain ⟨items, hitems, rfl⟩ := Option.map_eq_some_iff.1 hsome
  obtain ⟨item, hitem, rfl⟩ := List.mem_map.1 hg
  cases specs with
  | array =>
    obtain rfl := Option.some.inj hitems
    exact ⟨_, rfl, item, hitem, rfl⟩
  | _ => cases hitems

theorem appliesTo_of_global {ms : Members} {g : BuiltGuard} {gs : List BuiltGuard}
    (hglobal : (env.buildGuardChainsFromDbValue (.object ms)).global = some gs) (h : g ∈ gs) :
    ∃ item, AppliesTo (.object ms) group item ∧ g = env.guardOf item := by
  simp only [Surroundings.buildGuardChainsFromDbValue, Json.asObject] at hglobal
  obtain ⟨items, hspecs, item, hitem, rfl⟩ := item_of_built hglobal h
  refine ⟨item, ?_, rfl⟩
  cases hget : (Json.object ms).get "global" with
  | none =>
    rw [hget] at hspecs
    cases hspecs
    cases hitem
  | some specs =>
    rw [hget, Option.getD_some] at hspecs
    exact .global (hspecs ▸ hget) hitem

theorem appliesTo_of_ofGroup {ms : Members} {g : BuiltGuard} {gs : List BuiltGuard}
    (hkeys : ∀ members, (Json.object ms).get "groups" = some (.object members) →
      (members.map Prod.fst).Nodup)
    (hgroup : (env.buildGuardChainsFromDbValue (.object ms)).ofGroup group = some gs)
    (h : g ∈ gs) : ∃ item, AppliesTo (.object ms) group item ∧ g = env.guardOf item := by
  simp only [Surroundings.Chains.ofGroup, Surroundings.buildGuardChainsFromDbValue,
    Json.asObject] at hgroup
  cases hget : (Json.object ms).get "groups" with
  | none =>
    rw [hget] at hgroup
    cases hgroup
  | some groups =>
    cases groups with
    | object members =>
      simp only [hget, Option.bind_some] at hgroup
      obtain ⟨specs, hspecs, hbuilt⟩ := get_of_find?_filterMap (hkeys members hget) hgroup
      obtain ⟨items, rfl, item, hitem, rfl⟩ := item_of_built hbuilt h
      exact ⟨item, .group hget hspecs hitem, rfl⟩
    | _ =>
      rw [hget] at hgroup
      cases hgroup

theorem appliesTo_of_guard_mem {g : BuiltGuard}
    (hkeys : ∀ members, v.get "groups" = some (.object members) → (members.map Prod.fst).Nodup)
    (h : g ∈ (env.buildGuardChainsFromDbValue v).guards group) :
    ∃ item, AppliesTo v group item ∧ g = env.guardOf item := by
  cases v with
  | object ms =>
    rcases List.mem_append.1 h with h | h
    · cases hglobal : (env.buildGuardChainsFromDbValue (.object ms)).global with
      | none =>
        rw [hglobal] at h
        cases h
      | some gs =>
        rw [hglobal, Option.getD_some] at h
        exact appliesTo_of_global hglobal h
    · cases hgroup : (env.buildGuardChainsFromDbValue (.object ms)).ofGroup group with
      | none =>
        rw [hgroup] at h
        cases h
      | some gs =>
        rw [hgroup, Option.getD_some] at h
        exact appliesTo_of_ofGroup hkeys hgroup h
  | _ => cases h

/-! ## Specs that cannot be used -/

theorem resolveBuiltInGuard_misconfigured_iff {name : Option String} {maxRows : Option Nat}
    {appliesTo : Option (List String)} :
    (∃ guardName reason, resolveBuiltInGuard name maxRows appliesTo =
      .misconfigured guardName reason) ↔
      ∀ n ∈ name, n ∉ ["read_only", "row_limit", "require_predicate"] := by
  unfold resolveBuiltInGuard
  split
  · simp
  · simp
  · simp
  · rename_i other hread hlimit hpredicate
    simp only [BuiltGuard.misconfigured.injEq, exists_and_left, exists_eq', and_true, true_iff]
    rintro n ⟨⟩
    simp only [List.mem_cons, List.not_mem_nil, or_false, not_or]
    exact ⟨hread, hlimit, hpredicate⟩
  · simp

theorem resolvePythonGuardScript_misconfigured_iff {script : Option String} {id : Option Int}
    {timeoutMs : Option Nat} :
    (∃ guardName reason, env.resolvePythonGuardScript script id timeoutMs =
      .misconfigured guardName reason) ↔
      (∀ s ∈ script, trim s.toList = []) ∧ ∀ n ∈ id, env.guardScriptBodies n = none := by
  have hblank : script.filter (trim ·.toList ≠ []) = none ↔ ∀ s ∈ script, trim s.toList = [] := by
    simp [Option.filter_eq_none_iff]
  unfold Surroundings.resolvePythonGuardScript
  cases hscript : script.filter (trim ·.toList ≠ []) with
  | some text =>
    have hused : ¬∀ s ∈ script, trim s.toList = [] := by
      rw [← hblank, hscript]
      simp
    simp only [reduceCtorEq, exists_const, false_iff, not_and]
    exact fun hscripts => absurd hscripts hused
  | none =>
    have hunused := hblank.1 hscript
    cases id with
    | none => simpa using hunused
    | some n =>
      cases hbody : env.guardScriptBodies n with
      | none => simpa [hbody] using hunused
      | some body => simp [hbody]

theorem makeHttpWebhookGuard_misconfigured_iff {url : String} {timeoutMs : Option Nat}
    {retryCount : Nat} {failBehavior : FailBehavior} {headers : List (String × String)} :
    (∃ guardName reason, env.makeHttpWebhookGuard url timeoutMs retryCount failBehavior headers =
      .misconfigured guardName reason) ↔
      (trim url.toList = [] ∨ ∀ scheme,
        env.urlScheme (String.ofList (trim url.toList)) = .ok scheme →
          scheme ≠ "http" ∧ scheme ≠ "https") := by
  unfold Surroundings.makeHttpWebhookGuard
  dsimp only
  by_cases hraw : trim url.toList = []
  · simp [hraw]
  · have hne : String.ofList (trim url.toList) ≠ "" := by
      intro hempty
      apply hraw
      rw [← String.toList_ofList (l := trim url.toList), hempty]
      rfl
    rw [if_neg hne]
    cases hscheme : env.urlScheme (String.ofList (trim url.toList)) with
    | error e => simp
    | ok scheme =>
      by_cases hhttp : scheme = "http" ∨ scheme = "https"
      · simp only [if_pos hhttp, reduceCtorEq, exists_const, false_iff, not_or]
        refine ⟨hraw, fun h => ?_⟩
        exact absurd hhttp (not_or.2 (h scheme rfl))
      · simp only [if_neg hhttp, BuiltGuard.misconfigured.injEq, exists_and_left, exists_eq',
          and_true, true_iff]
        refine .inr ?_
        rintro other ⟨⟩
        exact not_or.1 hhttp

theorem guardOf_eq (env : Surroundings) {kind : String} (h : item.strAt "kind" = some kind) :
    ∃ spec, env.guardOf item = env.guardOfSpec spec ∧ spec.kind = kind ∧
      spec.name = item.strAt "name" ∧ spec.script = item.strAt "script" ∧
      spec.scriptId = scriptIdOf item ∧ spec.url = item.strAt "url" := by
  rw [Surroundings.guardOf, parseSpec, h]
  exact ⟨_, rfl, rfl, rfl, rfl, rfl, rfl⟩

/-- A spec that cannot be built denies. -/
theorem Unusable.misconfigured (h : Unusable env item) :
    ∃ guardName reason, env.guardOf item = .misconfigured guardName reason := by
  cases h with
  | noKind h =>
    rw [Surroundings.guardOf, parseSpec, h]
    exact ⟨_, _, rfl⟩
  | kind h hkind =>
    obtain ⟨spec, hguard, rfl, -⟩ := guardOf_eq env h
    rw [hguard, Surroundings.guardOfSpec]
    split
    · rename_i he; rw [he] at hkind; exact absurd (by simp) hkind
    · rename_i he; rw [he] at hkind; exact absurd (by simp) hkind
    · rename_i he; rw [he] at hkind; exact absurd (by simp) hkind
    · exact ⟨_, _, rfl⟩
  | name h hname =>
    obtain ⟨spec, hguard, hkind, hn, -⟩ := guardOf_eq env h
    rw [hguard, Surroundings.guardOfSpec, hkind]
    exact resolveBuiltInGuard_misconfigured_iff.2 (hn ▸ hname)
  | script h hscript hid =>
    obtain ⟨spec, hguard, hkind, -, hs, hi, -⟩ := guardOf_eq env h
    rw [hguard, Surroundings.guardOfSpec, hkind]
    exact resolvePythonGuardScript_misconfigured_iff.2 ⟨hs ▸ hscript, hi ▸ hid⟩
  | url h hurl =>
    obtain ⟨spec, hguard, hkind, -, -, -, hu⟩ := guardOf_eq env h
    rw [hguard, Surroundings.guardOfSpec, hkind]
    refine makeHttpWebhookGuard_misconfigured_iff.2 ?_
    rw [hu]
    cases hs : item.strAt "url" with
    | none => exact .inl rfl
    | some url => exact hurl url hs

theorem unusable_of_misconfigured {guardName reason : String}
    (h : env.guardOf item = .misconfigured guardName reason) : Unusable env item := by
  cases hitem : item.strAt "kind" with
  | none => exact .noKind hitem
  | some kind =>
    obtain ⟨spec, hguard, hkind, hn, hs, hi, hu⟩ := guardOf_eq env hitem
    rw [hguard, Surroundings.guardOfSpec, hkind] at h
    by_cases hbuiltIn : kind = "built_in"
    · subst hbuiltIn
      have hname := resolveBuiltInGuard_misconfigured_iff.1 ⟨_, _, h⟩
      rw [hn] at hname
      exact .name hitem hname
    · by_cases hwebhook : kind = "http_webhook"
      · subst hwebhook
        have hurl := makeHttpWebhookGuard_misconfigured_iff.1 ⟨_, _, h⟩
        refine .url hitem fun url hs => ?_
        rw [hu, hs] at hurl
        exact hurl
      · by_cases hpython : kind = "python_script"
        · subst hpython
          obtain ⟨hscript, hid⟩ := resolvePythonGuardScript_misconfigured_iff.1 ⟨_, _, h⟩
          rw [hs] at hscript
          rw [hi] at hid
          exact .script hitem hscript hid
        · exact .kind hitem (by simp [hbuiltIn, hwebhook, hpython])

/-! ## What is denied -/

section
variable (parse : SqlDialect → String → Option (List Sql.Expression))
  (upper : List Char → List Char) (outside : BuiltGuard → GuardContext → GuardResult)
  (access : String → Access.AccessRequest → Access.AccessDecision)

def Surroundings.letsThrough (env : Surroundings) (v : Json) (ctx : GuardContext) : Bool :=
  let c := env.buildGuardChainsFromDbValue v
  ((runChains ctx [] (c.chains ctx.clusterGroup)).run
    (c.answer ctx.clusterGroup (BuiltGuard.check parse upper outside) access)).isOk

variable {parse upper outside access} {ctx : GuardContext}

theorem letsThrough_iff : env.letsThrough parse upper outside access v ctx = true ↔
    ∀ g ∈ (env.buildGuardChainsFromDbValue v).guards ctx.clusterGroup,
      (g.check parse upper outside ctx).passes = true :=
  (runChains_isOk_iff _ _ _ _).trans Surroundings.Chains.passes_chains_iff

end

/-- Every query of the group is denied, whatever the parser makes of it and whatever scripts,
webhooks and policy engines answer. -/
def Surroundings.Closed (env : Surroundings) (v : Json) (group : String) : Prop :=
  ∀ (parse : SqlDialect → String → Option (List Sql.Expression)) (upper : List Char → List Char)
    (outside : BuiltGuard → GuardContext → GuardResult)
    (access : String → Access.AccessRequest → Access.AccessDecision) (ctx : GuardContext),
    ctx.clusterGroup = group → env.letsThrough parse upper outside access v ctx = false

/-- A query no usable guard has to stop: it reads, with a WHERE and a LIMIT of 0. -/
def harmless : Sql.Expression :=
  .select { selectFrom [] with
    whereClause := some (.other []), limit := some (.literal (.number "0")) }

theorem harmless_passes {g : BuiltGuard}
    (h : ∀ guardName reason, g ≠ .misconfigured guardName reason) (ctx : GuardContext) :
    (g.check (fun _ _ => some [harmless]) asciiUpper (fun _ _ => .allow) ctx).passes = true := by
  cases g with
  | readOnly | requirePredicate | pythonScript | httpWebhook => rfl
  | rowLimit maxRows =>
    have hread : harmless.isReadStmt = true := rfl
    have hlimit : topLevelLimit harmless = some 0 := by decide +kernel
    cases maxRows with
    | none | some max =>
      simp [BuiltGuard.check, rowLimitGuard, checkRowLimit, hread, hlimit, GuardResult.passes]
  | misconfigured guardName reason => exact absurd rfl (h guardName reason)

/-- The stored settings deny every query of a group exactly when a spec without a usable kind, name,
script or URL applies to it; nothing else that is malformed in them closes anything. -/
theorem stored_closed_iff (env : Surroundings) (v : Json) (group : String)
    (hkeys : ∀ members, v.get "groups" = some (.object members) → (members.map Prod.fst).Nodup) :
    env.Closed v group ↔ ∃ item, AppliesTo v group item ∧ Unusable env item := by
  constructor
  · intro hclosed
    by_contra hnone
    have hdenied := hclosed (fun _ _ => some [harmless]) asciiUpper (fun _ _ => .allow)
      (fun _ _ => .allowAll) { plainContext "" with clusterGroup := group } rfl
    rw [← Bool.not_eq_true] at hdenied
    apply hdenied
    rw [letsThrough_iff]
    intro g hg
    obtain ⟨item, happlies, rfl⟩ := appliesTo_of_guard_mem hkeys hg
    refine harmless_passes (fun guardName reason hguard => hnone ?_) _
    exact ⟨item, happlies, unusable_of_misconfigured hguard⟩
  · rintro ⟨item, happlies, hitem⟩ parse upper outside access ctx rfl
    rw [← Bool.not_eq_true]
    intro hthrough
    have hpasses := letsThrough_iff.1 hthrough _ happlies.guard_mem
    obtain ⟨guardName, reason, hguard⟩ := hitem.misconfigured
    rw [hguard] at hpasses
    cases hpasses

def builtInSpec (name : String) (more : Members) : Json :=
  .object ([("kind", .string "built_in"), ("name", .string name)] ++ more)

def noSurroundings : Surroundings where
  guardScriptBodies _ := none
  urlScheme _ := .error "relative URL without a base"

def storedLetsThrough (stmt : Sql.Expression) (v : Json) : Bool :=
  noSurroundings.letsThrough (fun _ _ => some [stmt]) asciiUpper
    (fun _ _ => .deny "no answer" none) (fun _ _ => .allowAll) v (plainContext "")

/-- A group with a guard of unknown name is closed, another group is not. -/
theorem misspelled_name_closes :
    let v := Json.object [("global", .string "none"), ("groups", .object
      [("default", .array [builtInSpec "read_only" [], builtInSpec "readonly" []])])]
    noSurroundings.Closed v "default" ∧ ¬noSurroundings.Closed v "adhoc" := by
  intro v
  have hkeys : ∀ members, v.get "groups" = some (.object members) →
      (members.map Prod.fst).Nodup := by
    rintro members ⟨⟩
    decide
  constructor
  · exact (stored_closed_iff _ v _ hkeys).2 ⟨builtInSpec "readonly" [],
      .group rfl rfl (.tail _ (.head _)), .name rfl (by rintro name ⟨⟩; decide)⟩
  · intro hclosed
    obtain ⟨item, happlies, -⟩ := (stored_closed_iff _ v _ hkeys).1 hclosed
    rcases happlies with ⟨hglobal, -⟩ | ⟨hgroups, hgroup, -⟩
    · cases hglobal
    · cases hgroups
      cases hgroup

def orders : Sql.Expression := .table none "orders"

/-- A list of specs that is no list or stands elsewhere, a maximum in quotes, a table that is no
text; each beside a setting of the right form, which stops the query. -/
theorem malformed_let_through :
    (∀ v ∈ [.array [builtInSpec "read_only" []], .object [("global", builtInSpec "read_only" [])],
        .object [("groups", .array [builtInSpec "read_only" []])],
        .object [("groups", .object [("default", builtInSpec "read_only" [])])]],
      storedLetsThrough (deleteFrom "t") v = true) ∧
    storedLetsThrough (deleteFrom "t")
      (.object [("global", .array [builtInSpec "read_only" []])]) = false ∧
    (∀ p ∈ [(Json.string "1000", true), (.number "1000", false)],
      storedLetsThrough
        (.select { selectFrom [orders] with limit := some (.literal (.number "5000")) })
        (.object [("global", .array [builtInSpec "row_limit" [("max_rows", p.1)]])]) = p.2) ∧
    (∀ p ∈ [([Json.string "audit", .array [.string "orders"]], true),
        ([.string "audit", .string "orders"], false)],
      storedLetsThrough (.select (selectFrom [orders]))
        (.object [("global", .array
          [builtInSpec "require_predicate" [("applies_to", .array p.1)]])]) = p.2) := by
  decide +kernel

end QueryFlux.Guardrails
