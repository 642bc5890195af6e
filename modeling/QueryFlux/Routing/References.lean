import Mathlib
import QueryFlux.Routing.Canonical

/-!
# Group references of stored routers

The admin API gets stored routers with the ids of their groups beside the names
(`enrichOneRouterForApi`), and what it is sent back is resolved to names again. A stored router is
resolved to itself, also with the ids (`Stored`), and its group names are collected from where it
has them. An id decides only where the name is missing: a name that is `null` is the empty name
(`null_target_ignores_id`).
-/

namespace QueryFlux.Routing

open Core Lib List

/-! ## Ids for the API, and names -/

section Enrich

variable (nameToId : NameToId)

def idJson (id : Int) : Json := .number (toString id)

def enrichProtocols (v : Json) : List (String × String) → Members → Members
  | [], out => out
  | (camel, snake) :: rest, out =>
    let id := match field v camel snake with
      | some (.string s) => if s = "" then none else nameToId s
      | _ => none
    enrichProtocols v rest
      (id.elim out fun id => insertMember out (camel ++ "GroupId") (idJson id))

def groupIds : Members → Members → Members
  | [], ids => ids
  | (k, v) :: rest, ids =>
    groupIds rest ((v.asStr.bind nameToId).elim ids fun id => insertMember ids k (idJson id))

def enrichMap (v : Json) (camel snake idKey : String) (out : Members) : Members :=
  match mapField v camel snake with
  | none => out
  | some obj =>
    let ids := groupIds nameToId obj []
    if ids.isEmpty then out else insertMember out idKey (.object ids)

def enrichTarget (v : Json) (out : Members) : Members :=
  match field v "targetGroup" "target_group" with
  | some (.string s) =>
    (nameToId s).elim out fun id => insertMember out "targetGroupId" (idJson id)
  | _ => out

def enrichRule (rule : Json) : Json := .object (enrichTarget nameToId rule (rule.asObject.getD []))

def enrichRules (v : Json) (out : Members) : Members :=
  match (v.get "rules").bind Json.asArray with
  | none => out
  | some rules => insertMember out "rules" (.array (rules.map (enrichRule nameToId)))

/-- Wherever a group is named its id is put beside the name. -/
def enrichOneRouterForApi (v : Json) : Json :=
  let out := v.asObject.getD []
  match v.strAt "type" with
  | none => v
  | some "protocolBased" => .object (enrichProtocols nameToId v protoCamelSnake out)
  | some "header" => .object (enrichMap nameToId v "headerValueToGroup" "header_value_to_group"
      "headerValueToGroupId" out)
  | some "userGroup" =>
    .object (enrichMap nameToId v "userToGroup" "user_to_group" "userToGroupId" out)
  | some "clientTags" =>
    .object (enrichMap nameToId v "tagToGroup" "tag_to_group" "tagToGroupId" out)
  | some "queryRegex" | some "tags" => .object (enrichRules nameToId v out)
  | some "compound" => .object (enrichTarget nameToId v out)
  | some _ => .object out

end Enrich

def pushStrGroup (seen : List String) (v : Json) : List String :=
  match v.asStr with
  | some s => if s = "" then seen else s :: seen
  | none => seen

def collectedFrom (v : Json) : List Json :=
  match v.strAt "type" with
  | some "protocolBased" => protoCamelSnake.filterMap fun p => field v p.1 p.2
  | some "header" =>
    ((mapField v "headerValueToGroup" "header_value_to_group").getD []).map Prod.snd
  | some "userGroup" => ((mapField v "userToGroup" "user_to_group").getD []).map Prod.snd
  | some "clientTags" => ((mapField v "tagToGroup" "tag_to_group").getD []).map Prod.snd
  | some "queryRegex" => (((v.get "rules").bind Json.asArray).getD []).filterMap
      (field · "targetGroup" "target_group")
  | some "tags" => (((v.get "rules" <|> v.get "tag_rules").bind Json.asArray).getD []).filterMap
      (field · "targetGroup" "target_group")
  | some "compound" => (field v "targetGroup" "target_group").toList
  | _ => []

/-- All groups that a router names, in order and each once. -/
def collectGroupNamesFromRouterJson (v : Json) : List String :=
  (((collectedFrom v).foldl pushStrGroup []).dedup).mergeSort (fun a b => decide (a ≤ b))

theorem mem_collectGroupNames {v : Json} {s : String} :
    s ∈ collectGroupNamesFromRouterJson v ↔ s ≠ "" ∧ .string s ∈ collectedFrom v := by
  have hfold (vs : List Json) (seen : List String) :
      s ∈ vs.foldl pushStrGroup seen ↔ s ∈ seen ∨ s ≠ "" ∧ .string s ∈ vs := by
    induction vs generalizing seen with
    | nil => simp
    | cons v vs ih =>
      rw [foldl_cons, ih, pushStrGroup]
      cases v <;> grind [Json.asStr]
  rw [collectGroupNamesFromRouterJson, (mergeSort_perm _ _).mem_iff, mem_dedup, hfold]
  simp

theorem get_insertMember (ms : Members) (k k' : String) (v : Json) :
    (Json.object (insertMember ms k v)).get k' =
      if k = k' then some v else (Json.object ms).get k' := by
  simp only [Json.get, insertMember]
  rw [find?_upsert (by intro x _; rfl)]
  split_ifs with h
  · subst h
    cases ms.find? (·.1 = k) <;> rfl
  · rfl

/-- The names of a map: distinct keys, and no name is empty. -/
structure Named (m : Members) : Prop where
  keyed : Keyed Prod.fst m
  names : ∀ e ∈ m, ∃ s, s ≠ "" ∧ e.2 = .string s

def protocolMembers (names : String × String → Option String) (ps : List (String × String)) :
    Members := ps.filterMap fun p => (names p).map fun name => (p.1, .string name)

def storedProtocols (names : String × String → Option String) : Members :=
  ("type", .string "protocolBased") :: protocolMembers names protoCamelSnake

inductive StoredRule : Json → Prop
  | route (regex : Json) (name : String) :
    StoredRule (.object [("regex", regex), ("targetGroup", .string name)])
  | deny (regex : Json) (error : Option String) :
    StoredRule (.object ([("regex", regex), ("action", .string "deny")] ++
      (error.map fun err => ("error", .string err)).toList))

inductive StoredTagRule : Json → Prop
  | mk (tags : Json) (name : String) :
    StoredTagRule (.object [("tags", tags), ("targetGroup", .string name)])

/-- The outcomes of `resolveOneRouterForStorage` for routers of the built-in types. -/
inductive Stored : Json → Prop
  | protocolBased (names : String × String → Option String)
    (h : ∀ p ∈ protoCamelSnake, names p ≠ some "") : Stored (.object (storedProtocols names))
  | header (name : String) {m : Members} (h : Named m) : Stored (.object
      [("type", .string "header"), ("headerName", .string name), ("headerValueToGroup", .object m)])
  | userGroup {m : Members} (h : Named m) :
    Stored (.object [("type", .string "userGroup"), ("userToGroup", .object m)])
  | clientTags {m : Members} (h : Named m) :
    Stored (.object [("type", .string "clientTags"), ("tagToGroup", .object m)])
  | queryRegex {rules : List Json} (h : ∀ rule ∈ rules, StoredRule rule) :
    Stored (.object [("type", .string "queryRegex"), ("rules", .array rules)])
  | tags {rules : List Json} (h : ∀ rule ∈ rules, StoredTagRule rule) :
    Stored (.object [("type", .string "tags"), ("rules", .array rules)])
  | compound (combine conditions : Json) (name : String) : Stored (.object
      [("type", .string "compound"), ("combine", combine), ("conditions", conditions),
        ("targetGroup", .string name)])
  | pythonScript (script : String) (scriptFile : Option String) : Stored (.object
      [("type", .string "pythonScript"), ("script", .string script),
        ("scriptFile", (scriptFile.map Json.string).getD .null)])

variable {idToName : IdToName} {v out : Json}

theorem Named.insert {m : Members} (h : Named m) (k : String) {s : String} (hs : s ≠ "") :
    Named (insertMember m k (.string s)) where
  keyed := h.keyed.upsert fun _ => rfl
  names := by
    intro e he
    unfold insertMember upsert at he
    split_ifs at he
    · obtain ⟨x, hx, rfl⟩ := mem_map.1 he
      split_ifs
      exacts [⟨s, hs, rfl⟩, h.names x hx]
    · rcases mem_append.1 he with he | he
      · exact h.names e he
      · exact ⟨s, hs, by rw [mem_singleton.1 he]⟩

theorem named_of_resolveMap {entries m m' : Members} (h : resolveMap idToName entries m = .ok m')
    (hm : Named m) : Named m' := by
  induction entries generalizing m with
  | nil => cases h; exact hm
  | cons e entries ih =>
    obtain ⟨name, -, h⟩ := exists_of_bind_eq_ok h
    split_ifs at h with hname
    · exact ih h hm
    · exact ih h (hm.insert e.1 hname)

theorem resolveMap_of_named {m m' : Members} (h : Named (m ++ m')) :
    resolveMap idToName m' m = .ok (m ++ m') := by
  induction m' generalizing m with
  | nil => rw [append_nil]; rfl
  | cons e m' ih =>
    obtain ⟨k, v⟩ := e
    obtain ⟨s, hs, rfl⟩ := h.names (k, v) (mem_append_right _ (.head _))
    have hnew : k ∉ m.map Prod.fst := by
      have hkeyed := h.keyed
      rw [Keyed, map_append, map_cons, nodup_append] at hkeyed
      exact fun hmem => hkeyed.2.2 k hmem k (.head _) rfl
    rw [append_cons] at h ⊢
    have hrest := ih h
    rw [← insertMember_eq_append hnew] at hrest ⊢
    exact (congrArg (resolveMap idToName m') (if_neg hs)).trans hrest

theorem stored_of_resolve (h : resolveOneRouterForStorage v idToName = .ok out) :
    Stored out ∨ out = v ∧ ∀ t ∈ builtInTypes, v.strAt "type" ≠ some t := by
  have hnil : Named [] := ⟨nodup_nil, forall_mem_nil _⟩
  unfold resolveOneRouterForStorage at h
  split at h
  · obtain ⟨ms, hms, h⟩ := exists_of_bind_eq_ok h
    cases h
    rw [resolveProtocols_eq_ok nodup_protoCamelSnake (by decide) hms]
    refine .inl (.protocolBased
      (fun p => (optionalProtoOut v p.1 p.2 idToName).toOption.join) fun p _ => ?_)
    unfold optionalProtoOut
    split
    · simp [Except.toOption]
    · rename_i raw _
      cases groupValueToName raw idToName with
      | error => simp [Except.toOption, bind, Except.bind]
      | ok name => by_cases hname : name = "" <;>
          simp [Except.toOption, bind, Except.bind, pure, Except.pure, hname]
  · obtain ⟨m, hm, h⟩ := exists_of_bind_eq_ok h
    cases h
    exact .inl (.header _ (named_of_resolveMap hm hnil))
  · obtain ⟨m, hm, h⟩ := exists_of_bind_eq_ok h
    cases h
    exact .inl (.userGroup (named_of_resolveMap hm hnil))
  · obtain ⟨m, hm, h⟩ := exists_of_bind_eq_ok h
    cases h
    exact .inl (.clientTags (named_of_resolveMap hm hnil))
  · obtain ⟨rules, hrules, h⟩ := exists_of_bind_eq_ok h
    cases h
    refine .inl (.queryRegex fun rule hrule => ?_)
    obtain ⟨raw, -, hraw⟩ := forall₂_mem_right (mapM_eq_ok_iff.1 hrules) hrule
    unfold resolveRegexRule at hraw
    split_ifs at hraw
    · cases hraw
      exact .deny _ _
    · obtain ⟨name, -, hraw⟩ := exists_of_bind_eq_ok hraw
      cases hraw
      exact .route _ name
  · obtain ⟨rules, hrules, h⟩ := exists_of_bind_eq_ok h
    cases h
    refine .inl (.tags fun rule hrule => ?_)
    obtain ⟨raw, -, hraw⟩ := forall₂_mem_right (mapM_eq_ok_iff.1 hrules) hrule
    obtain ⟨name, -, hraw⟩ := exists_of_bind_eq_ok hraw
    cases hraw
    exact .mk _ name
  · obtain ⟨name, -, h⟩ := exists_of_bind_eq_ok h
    cases h
    exact .inl (.compound _ _ name)
  · cases h
    exact .inl (.pythonScript _ _)
  · cases h
    refine .inr ⟨rfl, ?_⟩
    simp_all [builtInTypes]

/-! ## Resolving a stored router -/

variable {ms : Members} {nameToId : NameToId} {ps : List (String × String)}

theorem get_enrichMap {camel snake idKey k : String} (hk : idKey ≠ k) :
    (Json.object (enrichMap nameToId v camel snake idKey ms)).get k =
      (Json.object ms).get k := by
  unfold enrichMap
  split
  · rfl
  · dsimp only
    split_ifs
    · rfl
    · rw [get_insertMember, if_neg hk]

theorem get_enrichTarget {k : String} (hk : "targetGroupId" ≠ k) :
    (Json.object (enrichTarget nameToId v ms)).get k = (Json.object ms).get k := by
  unfold enrichTarget
  split
  · rename_i s _
    cases nameToId s with
    | none => rfl
    | some id => rw [Option.elim_some, get_insertMember, if_neg hk]
  · rfl

theorem get_enrichProtocols {k : String} (hk : ∀ p ∈ ps, p.1 ++ "GroupId" ≠ k) :
    (Json.object (enrichProtocols nameToId v ps ms)).get k = (Json.object ms).get k := by
  induction ps generalizing ms with
  | nil => rfl
  | cons p ps ih =>
    rw [enrichProtocols, ih fun q hq => hk q (.tail _ hq)]
    generalize (match field v p.1 p.2 with
      | some (.string s) => if s = "" then none else nameToId s
      | _ => none) = id
    cases id with
    | none => rfl
    | some id => rw [Option.elim_some, get_insertMember, if_neg (hk p (.head _))]

theorem resolveRegexRule_enrich {rule : Json} (h : StoredRule rule) (nameToId : NameToId) :
    resolveRegexRule idToName (enrichRule nameToId rule) = .ok rule := by
  cases h with
  | route regex name =>
    simp [enrichRule, resolveRegexRule, isDeny, Json.strAt, get_enrichTarget, targetOf, field,
      groupValueToName]
    decide
  | deny regex error =>
    have hdeny : eqIgnoreAsciiCase ['d', 'e', 'n', 'y'] ['d', 'e', 'n', 'y'] = true := by decide
    cases error <;>
      simp [enrichRule, enrichTarget, resolveRegexRule, isDeny, Json.strAt, field, hdeny]

theorem resolveTagRule_enrich {rule : Json} (h : StoredTagRule rule) (nameToId : NameToId) :
    resolveTagRule idToName (enrichRule nameToId rule) = .ok rule := by
  cases h with
  | mk tags name =>
    simp [enrichRule, resolveTagRule, get_enrichTarget, targetOf, field, groupValueToName]

theorem keys_protocolMembers (names : String × String → Option String)
    (ps : List (String × String)) :
    ((protocolMembers names ps).map Prod.fst).Sublist (ps.map Prod.fst) := by
  induction ps with
  | nil => exact .slnil
  | cons p ps ih =>
    rw [protocolMembers, filterMap_cons]
    cases names p with
    | none => exact ih.cons p.1
    | some name => exact ih.cons_cons p.1

theorem get_protocolMembers (names : String × String → Option String)
    (hps : (ps.map Prod.fst).Nodup) {p : String × String} (hp : p ∈ ps) :
    (Json.object (protocolMembers names ps)).get p.1 = (names p).map Json.string := by
  induction ps with
  | nil => cases hp
  | cons q ps ih =>
    obtain ⟨hq, hps⟩ := nodup_cons.1 hps
    have hnone : (Json.object (protocolMembers names ps)).get q.1 = none :=
      Json.get_object_eq_none_iff.2 fun hmem => hq ((keys_protocolMembers names ps).subset hmem)
    rw [protocolMembers, filterMap_cons, ← protocolMembers]
    rcases mem_cons.1 hp with rfl | hp
    · cases hn : names p with
      | none => exact hnone
      | some name => simp
    · have hne : q.1 ≠ p.1 := fun heq => hq (heq ▸ mem_map_of_mem hp)
      cases hn : names q with
      | none => exact ih hps hp
      | some name => simpa [hne] using ih hps hp

theorem resolveProtocols_of_ok {names : String × String → Option String}
    (hps : (ps.map Prod.fst).Nodup) (hms : ∀ p ∈ ps, p.1 ∉ ms.map Prod.fst)
    (h : ∀ p ∈ ps, optionalProtoOut v p.1 p.2 idToName = .ok (names p)) :
    resolveProtocols v idToName ps ms = .ok (ms ++ protocolMembers names ps) := by
  have hok : ∃ out, resolveProtocols v idToName ps ms = .ok out := by
    clear hps hms
    induction ps generalizing ms with
    | nil => exact ⟨ms, rfl⟩
    | cons p ps ih =>
      rw [resolveProtocols, h p (.head _)]
      exact ih fun q hq => h q (.tail _ hq)
  obtain ⟨out, hout⟩ := hok
  rw [hout, resolveProtocols_eq_ok hps hms hout, protocolMembers]
  congr 2
  refine filterMap_congr fun p hp => ?_
  rw [h p hp]
  rfl

/-- The router has what a stored `protocolBased` router has, but for the ids of groups. -/
def ReadsProtocols (v : Json) (names : String × String → Option String) : Prop :=
  ∀ k, (∀ p ∈ protoCamelSnake, p.1 ++ "GroupId" ≠ k) →
    v.get k = (Json.object (storedProtocols names)).get k

section Protocols

variable {names : String × String → Option String} (h : ReadsProtocols v names)
include h

theorem type_protocols : v.strAt "type" = some "protocolBased" := by
  rw [Json.strAt, h "type" (by decide)]
  rfl

theorem field_protocols {p : String × String} (hp : p ∈ protoCamelSnake) :
    v.get p.1 = (names p).map Json.string ∧ field v p.1 p.2 = (names p).map Json.string := by
  have hids : ∀ p ∈ protoCamelSnake, ∀ q ∈ protoCamelSnake,
      q.1 ++ "GroupId" ≠ p.1 ∧ q.1 ++ "GroupId" ≠ p.2 := by decide
  have hspelling : ∀ p ∈ protoCamelSnake, "type" ≠ p.1 ∧
      (p.2 = p.1 ∨ "type" ≠ p.2 ∧ p.2 ∉ protoCamelSnake.map Prod.fst) := by decide
  obtain ⟨htype, hsnake⟩ := hspelling p hp
  have hcamel : v.get p.1 = (names p).map Json.string := by
    rw [h p.1 fun q hq => (hids p hp q hq).1, storedProtocols, Json.get_object_cons, if_neg htype,
      get_protocolMembers names nodup_protoCamelSnake hp]
  refine ⟨hcamel, ?_⟩
  rw [field, hcamel]
  cases hn : names p with
  | some name => rfl
  | none =>
    rcases hsnake with heq | ⟨htype, hother⟩
    · rw [heq, hcamel, hn]
      rfl
    · rw [h p.2 fun q hq => (hids p hp q hq).2, storedProtocols, Json.get_object_cons,
        if_neg htype, Json.get_object_eq_none_iff.2 fun hmem =>
          hother ((keys_protocolMembers names _).subset hmem)]
      rfl

theorem resolve_protocols (hnames : ∀ p ∈ protoCamelSnake, names p ≠ some "") :
    resolveOneRouterForStorage v idToName = .ok (.object (storedProtocols names)) := by
  have hok : ∀ p ∈ protoCamelSnake, optionalProtoOut v p.1 p.2 idToName = .ok (names p) := by
    intro p hp
    rw [optionalProtoOut, (field_protocols h hp).2]
    cases hn : names p with
    | none => rfl
    | some name =>
      have hname : name ≠ "" := by
        rintro rfl
        exact hnames p hp hn
      exact congrArg Except.ok (if_neg hname)
  rw [resolveOneRouterForStorage, type_protocols h]
  exact congrArg (Except.map Json.object)
    (resolveProtocols_of_ok nodup_protoCamelSnake (by decide) hok)

end Protocols

theorem readsProtocols_enrich (names : String × String → Option String) (nameToId : NameToId) :
    ReadsProtocols (enrichOneRouterForApi nameToId (.object (storedProtocols names))) names :=
  fun _ hk => get_enrichProtocols hk

/-- Ids beside the names change nothing. -/
theorem resolve_enrich (h : Stored out) (nameToId : NameToId) :
    resolveOneRouterForStorage (enrichOneRouterForApi nameToId out) idToName = .ok out := by
  cases h with
  | protocolBased names hnames =>
    exact resolve_protocols (readsProtocols_enrich names nameToId) hnames
  | header name hm =>
    simp [enrichOneRouterForApi, resolveOneRouterForStorage, Json.strAt, field, mapField,
      get_enrichMap, resolveMap_of_named (m := []) hm]
  | userGroup hm =>
    simp [enrichOneRouterForApi, resolveOneRouterForStorage, Json.strAt, field, mapField,
      get_enrichMap, resolveMap_of_named (m := []) hm]
  | clientTags hm =>
    simp [enrichOneRouterForApi, resolveOneRouterForStorage, Json.strAt, field, mapField,
      get_enrichMap, resolveMap_of_named (m := []) hm]
  | @queryRegex rules hrules =>
    have hresolve : (rules.map (enrichRule nameToId)).mapM (resolveRegexRule idToName) =
        .ok rules := by
      rw [mapM_eq_ok_iff, forall₂_map_left_iff, forall₂_same]
      exact fun rule hrule => resolveRegexRule_enrich (hrules rule hrule) nameToId
    simp [enrichOneRouterForApi, resolveOneRouterForStorage, Json.strAt, enrichRules,
      get_insertMember, hresolve]
  | @tags rules hrules =>
    have hresolve : (rules.map (enrichRule nameToId)).mapM (resolveTagRule idToName) =
        .ok rules := by
      rw [mapM_eq_ok_iff, forall₂_map_left_iff, forall₂_same]
      exact fun rule hrule => resolveTagRule_enrich (hrules rule hrule) nameToId
    simp [enrichOneRouterForApi, resolveOneRouterForStorage, Json.strAt, enrichRules,
      get_insertMember, hresolve]
  | compound combine conditions name =>
    simp [enrichOneRouterForApi, resolveOneRouterForStorage, Json.strAt, field, get_enrichTarget,
      targetOf, groupValueToName]
  | pythonScript script scriptFile =>
    cases scriptFile <;>
      simp [enrichOneRouterForApi, resolveOneRouterForStorage, Json.strAt, field]

theorem enrichRule_none (ms : Members) : enrichRule (fun _ => none) (.object ms) = .object ms := by
  unfold enrichRule enrichTarget
  split <;> rfl

theorem resolve_stored (h : Stored out) : resolveOneRouterForStorage out idToName = .ok out := by
  cases h with
  | protocolBased names hnames => exact resolve_protocols (fun _ _ => rfl) hnames
  | header name hm | userGroup hm | clientTags hm =>
    simp [resolveOneRouterForStorage, Json.strAt, field, mapField, resolveMap_of_named (m := []) hm]
  | @queryRegex rules hrules =>
    have hresolve : rules.mapM (resolveRegexRule idToName) = .ok rules := by
      rw [mapM_eq_ok_iff, forall₂_same]
      intro rule hrule
      have henrich : resolveRegexRule idToName (enrichRule (fun _ => none) rule) = .ok rule :=
        resolveRegexRule_enrich (hrules rule hrule) _
      cases hrules rule hrule <;> rwa [enrichRule_none] at henrich
    simp [resolveOneRouterForStorage, Json.strAt, hresolve]
  | @tags rules hrules =>
    have hresolve : rules.mapM (resolveTagRule idToName) = .ok rules := by
      rw [mapM_eq_ok_iff, forall₂_same]
      intro rule hrule
      have henrich : resolveTagRule idToName (enrichRule (fun _ => none) rule) = .ok rule :=
        resolveTagRule_enrich (hrules rule hrule) _
      cases hrules rule hrule
      rwa [enrichRule_none] at henrich
    simp [resolveOneRouterForStorage, Json.strAt, hresolve]
  | compound combine conditions name =>
    simp [resolveOneRouterForStorage, Json.strAt, field, targetOf, groupValueToName]
  | pythonScript script scriptFile =>
    cases scriptFile <;> simp [resolveOneRouterForStorage, Json.strAt, field]

/-! ## Target names -/

/-- What a stored router has at the places of its targets. -/
def targets (r : Json) : List Json :=
  match r.strAt "type" with
  | some "protocolBased" => protoCamelSnake.filterMap fun p => r.get p.1
  | some "header" => (((r.get "headerValueToGroup").bind Json.asObject).getD []).map Prod.snd
  | some "userGroup" => (((r.get "userToGroup").bind Json.asObject).getD []).map Prod.snd
  | some "clientTags" => (((r.get "tagToGroup").bind Json.asObject).getD []).map Prod.snd
  | some "queryRegex" | some "tags" =>
    (((r.get "rules").bind Json.asArray).getD []).filterMap (·.get "targetGroup")
  | some "compound" => (r.get "targetGroup").toList
  | _ => []

theorem collectedFrom_enrich (h : Stored out) (nameToId : NameToId) :
    collectedFrom (enrichOneRouterForApi nameToId out) = targets out := by
  cases h with
  | protocolBased names hnames =>
    have henrich := readsProtocols_enrich names nameToId
    have hself : ReadsProtocols (.object (storedProtocols names)) names := fun _ _ => rfl
    simp only [collectedFrom, targets, type_protocols henrich, type_protocols hself]
    refine filterMap_congr fun p hp => ?_
    rw [(field_protocols henrich hp).2, (field_protocols hself hp).1]
  | header name hm | userGroup hm | clientTags hm =>
    simp [enrichOneRouterForApi, collectedFrom, targets, Json.strAt, field, mapField, get_enrichMap]
  | @queryRegex rules hrules =>
    have hfield : ∀ rule ∈ rules,
        field (enrichRule nameToId rule) "targetGroup" "target_group" = rule.get "targetGroup" := by
      intro rule hrule
      rw [field, enrichRule, get_enrichTarget (by decide), get_enrichTarget (by decide)]
      rcases hrules rule hrule with _ | ⟨_, _ | _⟩ <;> simp
    simp [enrichOneRouterForApi, collectedFrom, targets, Json.strAt, enrichRules, get_insertMember,
      filterMap_map]
    exact filterMap_congr hfield
  | @tags rules hrules =>
    have hfield : ∀ rule ∈ rules,
        field (enrichRule nameToId rule) "targetGroup" "target_group" = rule.get "targetGroup" := by
      intro rule hrule
      rw [field, enrichRule, get_enrichTarget (by decide), get_enrichTarget (by decide)]
      cases hrules rule hrule
      simp
    simp [enrichOneRouterForApi, collectedFrom, targets, Json.strAt, enrichRules, get_insertMember,
      filterMap_map]
    exact filterMap_congr hfield
  | compound combine conditions name =>
    simp [enrichOneRouterForApi, collectedFrom, targets, Json.strAt, field, get_enrichTarget]
  | pythonScript script scriptFile =>
    simp [enrichOneRouterForApi, collectedFrom, targets, Json.strAt]

/-! ## Groups by id -/

/-- The router or rule has the id of the group, and a group name that is null or missing. -/
structure HasId (idToName : IdToName) (v : Json) (name : String) : Prop where
  target : ∀ target ∈ field v "targetGroup" "target_group", target = .null
  id : ∃ n id, v.get "targetGroupId" = some (.number n) ∧ asI64 n = some id ∧
    idToName id = some name

theorem HasId.resolve {name : String} (h : HasId idToName v name) :
    groupValueToName (targetOf v) idToName =
      .ok (if field v "targetGroup" "target_group" = none then name else "") := by
  obtain ⟨n, id, hget, hn, hname⟩ := h.id
  cases hfield : field v "targetGroup" "target_group" with
  | none => simp [targetOf, hfield, hget, groupValueToName, hn, hname]
  | some target =>
    obtain rfl := h.target target hfield
    simp [targetOf, hfield, groupValueToName]

/-- The stored target is this group. -/
def ResolvesTo (result : Except String Json) (name : String) : Prop :=
  ∃ out, result = .ok out ∧ out.get "targetGroup" = some (.string name)

theorem resolvesTo_iff {out : Json} {name name' : String}
    (h : out.get "targetGroup" = some (.string name')) :
    ResolvesTo (.ok out) name ↔ name' = name := by
  simp [ResolvesTo, h]

/-- A stored router is what it resolves to, with ids and without, and has the names collected from
it; resolving is idempotent; and an id decides if and only if the name of the group is missing, and
not null, or the group has no name. -/
theorem stored_references_resolve (idToName : IdToName) (nameToId : NameToId) :
    (∀ v out t, v.strAt "type" = some t → t ∈ builtInTypes →
      resolveOneRouterForStorage v idToName = .ok out →
      resolveOneRouterForStorage (enrichOneRouterForApi nameToId out) idToName = .ok out ∧
      ∀ s, s ∈ collectGroupNamesFromRouterJson (enrichOneRouterForApi nameToId out) ↔
        s ≠ "" ∧ .string s ∈ targets out) ∧
    (∀ v out, resolveOneRouterForStorage v idToName = .ok out →
      resolveOneRouterForStorage out idToName = .ok out) ∧
    ∀ v name, HasId idToName v name →
      (v.strAt "type" = some "compound" →
        (ResolvesTo (resolveOneRouterForStorage v idToName) name ↔
          field v "targetGroup" "target_group" = none ∨ name = "")) ∧
      (isDeny v = false → (ResolvesTo (resolveRegexRule idToName v) name ↔
        field v "targetGroup" "target_group" = none ∨ name = "")) ∧
      (ResolvesTo (resolveTagRule idToName v) name ↔
        field v "targetGroup" "target_group" = none ∨ name = "") := by
  refine ⟨?_, ?_, ?_⟩
  · intro v out t htype ht h
    rcases stored_of_resolve h with hstored | ⟨-, hnot⟩
    · refine ⟨resolve_enrich hstored nameToId, fun s => ?_⟩
      rw [mem_collectGroupNames, collectedFrom_enrich hstored]
    · exact absurd htype (hnot t ht)
  · intro v out h
    rcases stored_of_resolve h with hstored | ⟨rfl, -⟩
    · exact resolve_stored hstored
    · exact h
  · intro v name h
    have hname : (if field v "targetGroup" "target_group" = none then name else "") = name ↔
        field v "targetGroup" "target_group" = none ∨ name = "" := by
      split_ifs with hnone
      · exact iff_of_true rfl (.inl hnone)
      · rw [or_iff_right hnone, eq_comm]
    refine ⟨fun htype => ?_, fun hroute => ?_, ?_⟩
    · rw [resolveOneRouterForStorage, htype, h.resolve]
      exact (resolvesTo_iff rfl).trans hname
    · rw [resolveRegexRule, if_neg (by simp [hroute]), h.resolve]
      exact (resolvesTo_iff rfl).trans hname
    · rw [resolveTagRule, h.resolve]
      exact (resolvesTo_iff rfl).trans hname

def oneGroup : IdToName := fun id => if id = 5 then some "etl" else none

def compoundById (target : Members) : Json :=
  .object ([("type", .string "compound"), ("targetGroupId", idJson 5)] ++ target)

/-- A router that names its group, and one that has only the id. -/
theorem named_resolves_again :
    (∃ out, resolveOneRouterForStorage (compoundById [("targetGroup", .string "etl")]) oneGroup =
        .ok out ∧
      resolveOneRouterForStorage (enrichOneRouterForApi (fun _ => some 5) out) oneGroup = .ok out ∧
      "etl" ∈ collectGroupNamesFromRouterJson (enrichOneRouterForApi (fun _ => some 5) out) ∧
      resolveOneRouterForStorage out oneGroup = .ok out) ∧
    ResolvesTo (resolveOneRouterForStorage (compoundById []) oneGroup) "etl" := by
  obtain ⟨hstored, hagain, hid⟩ := stored_references_resolve oneGroup fun _ => some 5
  constructor
  · obtain ⟨hresolve, hnames⟩ := hstored (compoundById [("targetGroup", .string "etl")]) _
      "compound" rfl (by decide) rfl
    exact ⟨_, rfl, hresolve, (hnames "etl").2 ⟨by decide, .head _⟩,
      hagain (compoundById [("targetGroup", .string "etl")]) _ rfl⟩
  · have hhas : HasId oneGroup (compoundById []) "etl" := by
      refine ⟨nofun, toString (5 : Int), 5, rfl, ?_, rfl⟩
      have hparse : (toString (5 : Int)).toInt? = some 5 := Int.toInt?_repr 5
      rw [asI64, hparse]
      decide
    exact ((hid _ _ hhas).1 rfl).2 (.inl rfl)

/-- A target that is null is there, and names no group. -/
theorem null_target_ignores_id :
    ∃ out, resolveOneRouterForStorage (compoundById [("targetGroup", .null)]) oneGroup = .ok out ∧
      out.get "targetGroup" = some (.string "") :=
  ⟨_, rfl, rfl⟩

end QueryFlux.Routing
