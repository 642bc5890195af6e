import Mathlib.Data.Set.List
import QueryFlux.Lib.Lists
import QueryFlux.Lib.Results
import QueryFlux.Routing.Slices

/-!
# Routers in canonical form

`Router` is a router of one of the built-in types, and `Router.toJson` how it is written. What
`resolveRoutersForStorage` makes of a router of these types is of this form
(`exists_router_of_resolve`). The pattern of a regex rule is kept as it came, whatever its JSON
type; `Router.stored` is the router with the patterns that are stored.
-/

namespace QueryFlux.Routing

open Core Lib List

/-! ## Routers of the built-in types -/

/-- A map from header values, users or tags to groups. -/
structure GroupMap where
  entries : List (String × String)
  distinct : Keyed Prod.fst entries

namespace GroupMap

def members (m : GroupMap) : Members := m.entries.map fun e => (e.1, .string e.2)

def kept (m : GroupMap) : List (String × String) := m.entries.filter (·.2 ≠ "")

def renamed (ρ : String → String) (m : GroupMap) : GroupMap where
  entries := m.kept.map fun e => (e.1, ρ e.2)
  distinct := by
    rw [Keyed, List.map_map]
    exact m.distinct.filter _

def insert (m : GroupMap) (k name : String) : GroupMap where
  entries := upsert Prod.fst (k, name) (fun e => (e.1, name)) m.entries
  distinct := m.distinct.upsert (by intro e; rfl)

theorem insertMember_members (m : GroupMap) (k name : String) :
    insertMember m.members k (.string name) = (m.insert k name).members := by
  have hkey : hasKey Prod.fst m.members k = hasKey Prod.fst m.entries k := by
    simp [hasKey, members, Function.comp_def]
  simp only [insertMember, insert, upsert, hkey]
  simp only [members]
  split
  · rw [map_map, map_map]
    refine map_congr_left fun e _ => ?_
    dsimp only [Function.comp]
    split <;> rfl
  · rw [map_append, map_singleton]

end GroupMap

inductive RegexRule
  | route (regex : Json) (targetGroup : String)
  | deny (regex : Json) (error : Option String)

namespace RegexRule

def toJson : RegexRule → Json
  | route regex targetGroup => routeRule regex targetGroup
  | deny regex error => denyRule regex error

def kept : RegexRule → Bool
  | route _ targetGroup => targetGroup ≠ ""
  | deny _ _ => true

def renamed (ρ : String → String) : RegexRule → RegexRule
  | route regex targetGroup => route regex (ρ targetGroup)
  | deny regex error => deny regex error

def regex : RegexRule → Json
  | route regex _ | deny regex _ => regex

/-- A pattern that is no string is stored as the empty one. -/
def stored : RegexRule → RegexRule
  | route regex targetGroup => route (.string (regex.asStr.getD "")) targetGroup
  | deny regex error => deny (.string (regex.asStr.getD "")) error

end RegexRule

structure TagRule where
  tags : Json
  targetGroup : String

namespace TagRule

def toJson (r : TagRule) : Json := tagRule r.tags r.targetGroup

def kept (r : TagRule) : Bool := r.targetGroup ≠ ""

def renamed (ρ : String → String) (r : TagRule) : TagRule := ⟨r.tags, ρ r.targetGroup⟩

end TagRule

theorem nodup_protoCamelSnake : (protoCamelSnake.map Prod.fst).Nodup := by decide

def protocolMap (groups : String × String → Option String) : GroupMap where
  entries := protoCamelSnake.filterMap fun p => (groups p).map fun name => (p.1, name)
  distinct := by
    have hkeys : (protoCamelSnake.filterMap fun p => (groups p).map fun name => (p.1, name)).map
        Prod.fst = (protoCamelSnake.filter fun p => (groups p).isSome).map Prod.fst := by
      induction protoCamelSnake with
      | nil => rfl
      | cons p _ ih => cases h : groups p <;> simp [h, ih]
    rw [Keyed, hkeys]
    exact nodup_protoCamelSnake.sublist (List.filter_sublist.map _)

inductive Router
  | protocolBased (groups : String × String → Option String)
  | header (headerName : String) (headerValueToGroup : GroupMap)
  | userGroup (userToGroup : GroupMap)
  | clientTags (tagToGroup : GroupMap)
  | queryRegex (rules : List RegexRule)
  | tags (rules : List TagRule)
  | compound (combine conditions : Json) (targetGroup : String)
  | pythonScript (script : String) (scriptFile : Option String)

namespace Router

def toJson : Router → Json
  | protocolBased groups =>
    .object (("type", .string "protocolBased") :: (protocolMap groups).members)
  | header headerName m => .object [("type", .string "header"), ("headerName", .string headerName),
      ("headerValueToGroup", .object m.members)]
  | userGroup m => .object [("type", .string "userGroup"), ("userToGroup", .object m.members)]
  | clientTags m => .object [("type", .string "clientTags"), ("tagToGroup", .object m.members)]
  | queryRegex rules => .object [("type", .string "queryRegex"),
      ("rules", .array (rules.map RegexRule.toJson))]
  | tags rules => .object [("type", .string "tags"), ("rules", .array (rules.map TagRule.toJson))]
  | compound combine conditions targetGroup => .object [("type", .string "compound"),
      ("combine", combine), ("conditions", conditions), ("targetGroup", .string targetGroup)]
  | pythonScript script scriptFile => .object [("type", .string "pythonScript"),
      ("script", .string script), ("scriptFile", (scriptFile.map Json.string).getD .null)]

/-- The router with its groups renamed, without the rules that have no group. -/
def renamed (ρ : String → String) : Router → Router
  | protocolBased groups => protocolBased fun p => ((groups p).filter (· ≠ "")).map ρ
  | header headerName m => header headerName (m.renamed ρ)
  | userGroup m => userGroup (m.renamed ρ)
  | clientTags m => clientTags (m.renamed ρ)
  | queryRegex rules => queryRegex ((rules.filter RegexRule.kept).map (RegexRule.renamed ρ))
  | tags rules => tags ((rules.filter TagRule.kept).map (TagRule.renamed ρ))
  | compound combine conditions targetGroup => compound combine conditions (ρ targetGroup)
  | pythonScript script scriptFile => pythonScript script scriptFile

def stored : Router → Router
  | queryRegex rules => queryRegex (rules.map RegexRule.stored)
  | r => r

def HasStringPatterns : Router → Prop
  | queryRegex rules => ∀ r ∈ rules, r.kept = true → r.regex.asStr.isSome = true
  | _ => True

end Router

/-- The regex rules that deny or have a group have strings as patterns. -/
def hasStringPatterns (v : Json) : Bool :=
  v.strAt "type" ≠ some "queryRegex" ||
    (((v.get "rules").bind Json.asArray).getD []).all fun rule =>
      !isDeny rule && targetName rule = "" || (rule.strAt "regex").isSome

/-- The types that are taken apart; all others are stored as they are. -/
def builtInTypes : List String :=
  ["protocolBased", "header", "userGroup", "clientTags", "queryRegex", "tags", "compound",
    "pythonScript"]

/-! ## What is resolved for storage -/

variable {idToName : IdToName}

theorem exists_groupMap_of_resolveMap {entries out : Members} (m : GroupMap)
    (h : resolveMap idToName entries m.members = .ok out) : ∃ m' : GroupMap, out = m'.members := by
  induction entries generalizing m with
  | nil => exact ⟨m, (Except.ok.inj h).symm⟩
  | cons _ _ ih =>
    obtain ⟨name, -, h⟩ := exists_of_bind_eq_ok h
    split at h
    · exact ih m h
    · rw [m.insertMember_members] at h
      exact ih _ h

theorem exists_groupMap_of_resolveMap_nil {entries out : Members}
    (h : resolveMap idToName entries [] = .ok out) : ∃ m : GroupMap, out = m.members :=
  exists_groupMap_of_resolveMap ⟨[], nodup_nil⟩ h

theorem resolveProtocols_eq_ok {v : Json} {ps : List (String × String)} {out ms : Members}
    (hps : (ps.map Prod.fst).Nodup) (hout : ∀ p ∈ ps, p.1 ∉ out.map Prod.fst)
    (h : resolveProtocols v idToName ps out = .ok ms) : ms = out ++ ps.filterMap fun p =>
      (optionalProtoOut v p.1 p.2 idToName).toOption.join.map fun name =>
        (p.1, .string name) := by
  induction ps generalizing out with
  | nil =>
    cases h
    simp
  | cons p ps ih =>
    obtain ⟨val, hval, h⟩ := exists_of_bind_eq_ok h
    obtain ⟨hp, hps⟩ := nodup_cons.1 hps
    have hrest : ∀ q ∈ ps, q.1 ∉ out.map Prod.fst := fun q hq =>
      hout q (.tail _ hq)
    cases val with
    | none =>
      rw [ih hps hrest h]
      simp [hval, Except.toOption]
    | some name =>
      have hinsert := insertMember_eq_append (hout p (.head _)) (.string name)
      simp only [Option.elim_some, hinsert] at h
      rw [ih hps ?_ h]
      · simp [hval, Except.toOption]
      · intro q hq hmem
        rw [map_append, mem_append] at hmem
        rcases hmem with hmem | hmem
        · exact hrest q hq hmem
        · refine hp (mem_map.2 ⟨q, hq, ?_⟩)
          simpa using hmem

theorem exists_rule_of_resolveRegexRule {rule out : Json}
    (h : resolveRegexRule idToName rule = .ok out) : ∃ r : RegexRule, out = r.toJson := by
  unfold resolveRegexRule at h
  split at h
  · cases h
    exact ⟨.deny _ (rule.strAt "error"), rfl⟩
  · obtain ⟨name, -, h⟩ := exists_of_bind_eq_ok h
    cases h
    exact ⟨.route _ name, rfl⟩

theorem exists_rule_of_resolveTagRule {rule out : Json}
    (h : resolveTagRule idToName rule = .ok out) :
    ∃ r : TagRule, out = r.toJson := by
  obtain ⟨name, -, h⟩ := exists_of_bind_eq_ok h
  exact ⟨⟨_, name⟩, (Except.ok.inj h).symm⟩

theorem exists_map_of_mapM {α β γ ε : Type} {f : α → Except ε β} {g : γ → β} {xs : List α}
    {ys : List β} (h : xs.mapM f = .ok ys)
    (hg : ∀ x ∈ xs, ∀ y, f x = .ok y → ∃ c, y = g c) : ∃ cs, ys = List.map g cs := by
  have hmem : ys ∈ Set.range (map g) := by
    rw [Set.range_list_map]
    intro y hy
    obtain ⟨x, hx, hxy⟩ := forall₂_mem_right (mapM_eq_ok_iff.1 h) hy
    obtain ⟨c, hc⟩ := hg x hx y hxy
    exact ⟨c, hc.symm⟩
  obtain ⟨cs, hcs⟩ := hmem
  exact ⟨cs, hcs.symm⟩

theorem exists_router_of_resolve {v out : Json} {t : String}
    (h : resolveOneRouterForStorage v idToName = .ok out) (htype : v.strAt "type" = some t)
    (ht : t ∈ builtInTypes) : ∃ r : Router, out = r.toJson := by
  simp only [builtInTypes, mem_cons, not_mem_nil, or_false] at ht
  rcases ht with rfl | rfl | rfl | rfl | rfl | rfl | rfl | rfl <;>
    simp only [resolveOneRouterForStorage, htype] at h
  · obtain ⟨ms, hms, h⟩ := exists_of_bind_eq_ok h
    cases h
    rw [resolveProtocols_eq_ok nodup_protoCamelSnake (by decide) hms]
    refine ⟨.protocolBased fun p => (optionalProtoOut v p.1 p.2 idToName).toOption.join, ?_⟩
    simp [Router.toJson, protocolMap, GroupMap.members, map_filterMap, Function.comp_def]
  · obtain ⟨ms, hms, h⟩ := exists_of_bind_eq_ok h
    cases h
    obtain ⟨m, rfl⟩ := exists_groupMap_of_resolveMap_nil hms
    exact ⟨.header _ m, rfl⟩
  · obtain ⟨ms, hms, h⟩ := exists_of_bind_eq_ok h
    cases h
    obtain ⟨m, rfl⟩ := exists_groupMap_of_resolveMap_nil hms
    exact ⟨.userGroup m, rfl⟩
  · obtain ⟨ms, hms, h⟩ := exists_of_bind_eq_ok h
    cases h
    obtain ⟨m, rfl⟩ := exists_groupMap_of_resolveMap_nil hms
    exact ⟨.clientTags m, rfl⟩
  · obtain ⟨rules, hrules, h⟩ := exists_of_bind_eq_ok h
    cases h
    obtain ⟨rs, rfl⟩ := exists_map_of_mapM hrules fun _ _ _ => exists_rule_of_resolveRegexRule
    exact ⟨.queryRegex rs, rfl⟩
  · obtain ⟨rules, hrules, h⟩ := exists_of_bind_eq_ok h
    cases h
    obtain ⟨rs, rfl⟩ := exists_map_of_mapM hrules fun _ _ _ => exists_rule_of_resolveTagRule
    exact ⟨.tags rs, rfl⟩
  · obtain ⟨name, -, h⟩ := exists_of_bind_eq_ok h
    exact ⟨.compound _ _ name, (Except.ok.inj h).symm⟩
  · exact ⟨.pythonScript _ _, (Except.ok.inj h).symm⟩

theorem exists_routers_of_resolve {raw routers : List Json}
    (h : resolveRoutersForStorage raw idToName = .ok routers)
    (htype : ∀ v ∈ raw, ∃ t ∈ builtInTypes, v.strAt "type" = some t) :
    ∃ rs : List Router, routers = rs.map Router.toJson := by
  refine exists_map_of_mapM h fun v hv out hresolve => ?_
  obtain ⟨t, ht, hvt⟩ := htype v hv
  exact exists_router_of_resolve hresolve hvt ht

end QueryFlux.Routing
