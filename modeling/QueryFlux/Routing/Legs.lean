import QueryFlux.Routing.Canonical

/-!
# A router and its slices

`Router.legs` are the slices of a router with the names of the groups instead of their ids. Saving a
router in canonical form gives slices that refer to these names (`refers_of_expand`). From rows that
are loaded from these slices, the router is merged again, with the names the groups have by then
(`mergeChunk_eq_ok`).
-/

namespace QueryFlux.Routing

open Core Lib List

/-- The definition of a slice and the name of its group. -/
abbrev Leg := Json × Option String

/-! ## The slices -/

def GroupMap.legs (leg : String → Json) (m : GroupMap) : List Leg :=
  m.kept.map fun e => (leg e.1, some e.2)

def RegexRule.leg : RegexRule → Leg
  | route regex targetGroup => (regexLeg (regex.asStr.getD ""), some targetGroup)
  | deny regex error => (denyLeg (regex.asStr.getD "") error, none)

def TagRule.leg (r : TagRule) : Leg := (tagsRuleLeg r.tags, some r.targetGroup)

def Router.legs : Router → List Leg
  | protocolBased groups => (protocolMap groups).legs protoLeg
  | header headerName m => m.legs (headerLeg headerName)
  | userGroup m => m.legs userLeg
  | clientTags m => m.legs tagLeg
  | queryRegex rules => (rules.filter RegexRule.kept).map RegexRule.leg
  | tags rules => (rules.filter TagRule.kept).map TagRule.leg
  | compound combine conditions targetGroup =>
    [(compoundLeg combine conditions, some targetGroup)]
  | pythonScript script scriptFile => [((pythonScript script scriptFile).toJson, none)]

/-! ## Saving -/

section Saving

/-- The slice has the definition, and the id of the group in place of its name. -/
def Refers (nameToId : NameToId) (leg : Leg) (slice : Slice) : Prop :=
  slice.1 = leg.1 ∧ Option.Rel (fun name id => nameToId name = some id) leg.2 slice.2

variable {nameToId : NameToId}

theorem of_lookupGroupId_eq_ok {name : String} {id : Int}
    (h : lookupGroupId name nameToId = .ok id) : nameToId name = some id := by
  unfold lookupGroupId at h
  split at h
  · rename_i hlookup
    rw [hlookup, Except.ok.inj h]
  · cases h

variable {s : Option Slice} {slices : List Slice}

theorem refers_of_lookupGroupId {definition : Json} {name : String}
    (h : (do let id ← lookupGroupId name nameToId
             return some (definition, some id)) = Except.ok s) :
    Option.Rel (Refers nameToId) (some (definition, some name)) s := by
  obtain ⟨id, hid, h⟩ := exists_of_bind_eq_ok h
  cases h
  exact .some ⟨rfl, .some (of_lookupGroupId_eq_ok hid)⟩

theorem refers_of_pushed {α β : Type} {slice : β → Except String (Option Slice)} {f : α → β}
    {leg : α → Option Leg} {xs : List α}
    (hleg : ∀ x ∈ xs, ∀ s, slice (f x) = .ok s → Option.Rel (Refers nameToId) (leg x) s)
    (h : pushed slice (xs.map f) = .ok slices) :
    List.Forall₂ (Refers nameToId) (xs.filterMap leg) slices := by
  obtain ⟨ss, hss, hreturn⟩ := exists_of_bind_eq_ok h
  obtain rfl := Except.ok.inj hreturn
  rw [mapM_eq_ok_iff, forall₂_map_left_iff] at hss
  clear h hreturn
  induction hss with
  | nil => exact .nil
  | @cons x s xs ss hs _ ih =>
    have hrel := hleg x (.head _) s hs
    have htail := ih fun y hy => hleg y (.tail _ hy)
    cases hhead : leg x with
    | none =>
      rw [hhead] at hrel
      cases hrel
      simpa [hhead] using htail
    | some =>
      rw [hhead] at hrel
      cases hrel with
      | some hl => simpa [hhead] using Forall₂.cons hl htail

theorem refers_of_pushed_members {leg : String → Json} {notString : String} {m : GroupMap}
    (h : pushed (entrySlice leg notString nameToId) m.members = .ok slices) :
    List.Forall₂ (Refers nameToId) (m.legs leg) slices := by
  rw [GroupMap.legs, GroupMap.kept, ← filterMap_eq_map, filterMap_filter]
  refine refers_of_pushed (fun e _ s hs => ?_) h
  simp only [entrySlice, Json.asStr] at hs
  by_cases hempty : e.2 = ""
  · rw [if_pos hempty] at hs
    cases hs
    simp [hempty]
  · rw [if_neg hempty] at hs
    simpa [hempty] using refers_of_lookupGroupId hs

theorem refers_of_targetSlice {definition rule : Json}
    (h : targetSlice nameToId definition rule = .ok s) : Option.Rel (Refers nameToId)
      (if targetName rule ≠ "" then some (definition, some (targetName rule)) else none) s := by
  unfold targetSlice at h
  split_ifs at h with hempty
  · cases h
    rw [if_neg (not_not.2 hempty)]
    exact .none
  · rw [if_pos hempty]
    exact refers_of_lookupGroupId h

theorem targetName_routeRule (regex : Json) (targetGroup : String) :
    targetName (routeRule regex targetGroup) = targetGroup := by
  simp [targetName, field, routeRule]

theorem targetName_tagRule (tags : Json) (targetGroup : String) :
    targetName (tagRule tags targetGroup) = targetGroup := by
  simp [targetName, field, tagRule]

theorem isDeny_routeRule (regex : Json) (targetGroup : String) :
    isDeny (routeRule regex targetGroup) = false := by
  simp [isDeny, routeRule, Json.strAt]
  decide

theorem isDeny_denyRule (regex : Json) (error : Option String) :
    isDeny (denyRule regex error) = true := by
  simp [isDeny, denyRule, Json.strAt]
  decide

theorem strAt_error_denyRule (regex : Json) (error : Option String) :
    (denyRule regex error).strAt "error" = error := by
  cases error <;> simp [denyRule, Json.strAt]

theorem RegexRule.refers_of_slice (r : RegexRule) (h : regexRuleSlice nameToId r.toJson = .ok s) :
    Option.Rel (Refers nameToId) (if r.kept then some r.leg else none) s := by
  cases r with
  | route =>
    rw [regexRuleSlice, toJson, if_neg (by rw [isDeny_routeRule]; decide)] at h
    have href := refers_of_targetSlice h
    rw [targetName_routeRule] at href
    simpa [kept, leg, regexOf, routeRule, Json.strAt] using href
  | deny =>
    rw [regexRuleSlice, toJson, if_pos (isDeny_denyRule _ _), strAt_error_denyRule] at h
    cases h
    exact .some ⟨rfl, .none⟩

theorem TagRule.refers_of_slice (r : TagRule) (h : tagsRuleSlice nameToId r.toJson = .ok s) :
    Option.Rel (Refers nameToId) (if r.kept then some r.leg else none) s := by
  have href := refers_of_targetSlice h
  rw [toJson, targetName_tagRule] at href
  simpa [kept, leg, tagRule] using href

theorem protoCamelSnake_apart : ∀ p ∈ protoCamelSnake, p.1 ≠ "type" ∧ p.2 ≠ "type" ∧
    ∀ q ∈ protoCamelSnake, q.1 = p.1 ∨ q.1 = p.2 → q = p := by decide

variable (groups : String × String → Option String)

theorem mem_keys_protocolBased {k : String}
    (hk : k ∈ (("type", Json.string "protocolBased") :: (protocolMap groups).members).map
      Prod.fst) :
    k = "type" ∨ ∃ p ∈ protoCamelSnake, p.1 = k ∧ groups p ≠ none := by
  simp only [GroupMap.members, protocolMap, map_cons, mem_cons, mem_map,
    mem_filterMap, Option.map_eq_some_iff] at hk
  rcases hk with rfl | ⟨-, ⟨-, ⟨p, hp, name, hname, rfl⟩, rfl⟩, rfl⟩
  · exact .inl rfl
  · exact .inr ⟨p, hp, rfl, by simp [hname]⟩

theorem nodup_keys_protocolBased :
    ((("type", Json.string "protocolBased") :: (protocolMap groups).members).map
      Prod.fst).Nodup := by
  have hkeys : (protocolMap groups).members.map Prod.fst =
      (protocolMap groups).entries.map Prod.fst := by
    simp [GroupMap.members]
  rw [map_cons, nodup_cons, hkeys]
  refine ⟨fun hmem => ?_, (protocolMap groups).distinct⟩
  simp only [protocolMap, mem_map, mem_filterMap, Option.map_eq_some_iff] at hmem
  obtain ⟨-, ⟨p, hp, name, -, rfl⟩, htype⟩ := hmem
  exact (protoCamelSnake_apart p hp).1 htype

theorem field_protocolBased {p : String × String} (hp : p ∈ protoCamelSnake) :
    field (Router.protocolBased groups).toJson p.1 p.2 = (groups p).map Json.string := by
  obtain ⟨hcamel, hsnake, hapart⟩ := protoCamelSnake_apart p hp
  cases hgroup : groups p with
  | none =>
    have hnone : ∀ k, k = p.1 ∨ k = p.2 → (Router.protocolBased groups).toJson.get k = none := by
      intro k hk
      refine Json.get_object_eq_none_iff.2 fun hmem => ?_
      rcases mem_keys_protocolBased groups hmem with rfl | ⟨q, hq, rfl, hsome⟩
      · exact hk.elim (fun h => hcamel h.symm) fun h => hsnake h.symm
      · exact hsome (hapart q hq hk ▸ hgroup)
    rw [field, hnone _ (.inl rfl), hnone _ (.inr rfl)]
    rfl
  | some name =>
    have hmem : (p.1, Json.string name) ∈
        ("type", Json.string "protocolBased") :: (protocolMap groups).members := by
      refine .tail _ (mem_map.2 ⟨(p.1, name), ?_, rfl⟩)
      exact mem_filterMap.2 ⟨p, hp, by simp [hgroup]⟩
    rw [field, Router.toJson,
      (Json.get_object_eq_some_iff (nodup_keys_protocolBased groups)).2 hmem]
    rfl

theorem refers_of_pushed_protocols
    (h : pushed (protocolSlice (Router.protocolBased groups).toJson nameToId) protoCamelSnake =
      .ok slices) : List.Forall₂ (Refers nameToId) ((protocolMap groups).legs protoLeg) slices := by
  rw [GroupMap.legs, GroupMap.kept, ← filterMap_eq_map, filterMap_filter, protocolMap,
    filterMap_filterMap]
  refine refers_of_pushed (f := id) (fun p hp s hs => ?_) (by rwa [map_id])
  rw [protocolSlice, id, field_protocolBased groups hp] at hs
  cases hgroup : groups p with
  | none =>
    rw [hgroup] at hs
    cases hs
    exact .none
  | some name =>
    rw [hgroup] at hs
    simp only [Option.map_some, Option.bind_some, Json.asStr] at hs
    by_cases hempty : name = ""
    · rw [if_pos hempty] at hs
      cases hs
      simp [hempty]
    · rw [if_neg hempty] at hs
      simpa [hempty] using refers_of_lookupGroupId hs

variable {groups}

theorem refers_of_expand {r : Router}
    (h : expandRouterForPersistence r.toJson nameToId = .ok slices) :
    List.Forall₂ (Refers nameToId) r.legs slices := by
  cases r with
  | protocolBased groups =>
    exact refers_of_pushed_protocols groups h
  | header | userGroup | clientTags => exact refers_of_pushed_members h
  | queryRegex | tags =>
    rw [Router.legs, ← filterMap_eq_map, filterMap_filter]
    exact refers_of_pushed (fun r _ s hs => r.refers_of_slice hs) h
  | compound combine conditions targetGroup =>
    have htarget : targetName (Router.compound combine conditions targetGroup).toJson =
        targetGroup := by
      simp [targetName, field, Router.toJson]
    have htype : (Router.compound combine conditions targetGroup).toJson.strAt "type" =
        some "compound" := by
      simp [Router.toJson, Json.strAt]
    simp only [expandRouterForPersistence, htype, htarget] at h
    split at h
    · cases h
    · obtain ⟨id, hid, h⟩ := exists_of_bind_eq_ok h
      cases h
      exact .cons ⟨rfl, .some (of_lookupGroupId_eq_ok hid)⟩ .nil
  | pythonScript =>
    cases h
    exact .cons ⟨rfl, .none⟩ .nil

end Saving

/-! ## Loading -/

section Loading

/-- The row has the definition of the leg, and the id of a group that has its new name by now. -/
def Loads (ρ : String → String) (idToName : IdToName) (leg : Leg) (row : RoutingRuleRow) : Prop :=
  Json.Same leg.1 row.definition ∧
    Option.Rel (fun name id => idToName id = some (ρ name)) leg.2 row.targetGroupId

variable {ρ : String → String} {idToName : IdToName} {row first : RoutingRuleRow}
  {rest chunk : List RoutingRuleRow}

theorem Loads.groupOf {definition : Json} {name : String}
    (h : Loads ρ idToName (definition, some name) row) (legType : String) :
    Routing.groupOf legType row idToName = .ok (ρ name) := by
  obtain ⟨-, hgroup⟩ := h
  generalize hgid : row.targetGroupId = gid at hgroup
  cases hgroup with
  | some hname => simp only [Routing.groupOf, hgid, nameForId, hname]

theorem Loads.isNone_eq_false {definition : Json} {name : String}
    (h : Loads ρ idToName (definition, some name) row) : row.targetGroupId.isNone = false := by
  obtain ⟨-, hgroup⟩ := h
  generalize row.targetGroupId = gid at hgroup
  cases hgroup with
  | some => rfl

variable {leg : String → Json} {m : GroupMap} {d : Json}

theorem mergeLegs_eq_ok {legType key : String} {es : List (String × String)} {m : Members}
    (hkeys : (m.map Prod.fst ++ es.map Prod.fst).Nodup)
    (h : List.Forall₂ (Loads ρ idToName) (es.map fun e => (leg e.1, some e.2)) chunk)
    (hleg : ∀ k d, Json.Same (leg k) d → d.strAt key = some k) :
    mergeLegs legType key idToName chunk m =
      .ok (m ++ es.map fun e => (e.1, .string (ρ e.2))) := by
  induction es generalizing m chunk with
  | nil =>
    cases h
    simp [mergeLegs]
  | cons e _ ih =>
    cases h with
    | cons hrow hrest =>
      have hfresh : e.1 ∉ m.map Prod.fst := fun hmem =>
        (nodup_append.1 hkeys).2.2 _ hmem _ (.head _) rfl
      have hstep := ih (m := m ++ [(e.1, .string (ρ e.2))]) (by simpa using hkeys) hrest
      simp only [mergeLegs, hleg e.1 _ hrow.1, hrow.groupOf, insertMember_eq_append hfresh]
      exact hstep.trans (by simp)

theorem GroupMap.mergeLegs_legs {legType key : String}
    (h : List.Forall₂ (Loads ρ idToName) (m.legs leg) chunk)
    (hleg : ∀ k d, Json.Same (leg k) d → d.strAt key = some k) :
    mergeLegs legType key idToName chunk [] = .ok (m.renamed ρ).members := by
  have hkeys : (([] : Members).map Prod.fst ++ m.kept.map Prod.fst).Nodup := m.distinct.filter _
  rw [mergeLegs_eq_ok hkeys h hleg]
  simp [renamed, members]

theorem strAt_first {legs : List Leg} {k s : String}
    (h : List.Forall₂ (Loads ρ idToName) legs (first :: rest))
    (hlegs : ∀ leg ∈ legs, ∀ d, Json.Same leg.1 d → d.strAt k = some s) :
    first.definition.strAt k = some s := by
  obtain ⟨leg, hleg, hloads⟩ := forall₂_mem_right h (.head _)
  exact hlegs leg hleg _ hloads.1

theorem GroupMap.strAt_first {k s : String}
    (h : List.Forall₂ (Loads ρ idToName) (m.legs leg) (first :: rest))
    (hleg : ∀ value d, Json.Same (leg value) d → d.strAt k = some s) :
    first.definition.strAt k = some s := by
  refine Routing.strAt_first h fun l hl d hd => ?_
  obtain ⟨e, -, rfl⟩ := mem_map.1 hl
  exact hleg e.1 d hd

theorem mergeRegexRule_eq_ok (r : RegexRule) (h : Loads ρ idToName r.leg row) :
    mergeRegexRule idToName row = .ok (r.stored.renamed ρ).toJson := by
  cases r with
  | route regex =>
    have hregex : row.definition.strAt "regex" = some (regex.asStr.getD "") :=
      h.1.strAt_of_mem (by simp) (by simp)
    have haction : row.definition.get "action" = none := h.1.get_of_not_mem (by simp)
    have hdeny : isDeny row.definition = false := by
      rw [isDeny, Json.strAt, haction]
      decide
    rw [mergeRegexRule, hdeny, h.groupOf, regexOf, hregex]
    rfl
  | deny regex error =>
    have hkeys : ((([("type", Json.string "_qfRegexLeg"), ("regex", .string (regex.asStr.getD "")),
        ("action", .string "deny")] ++
        (error.map fun err => ("error", Json.string err)).toList)).map Prod.fst).Nodup := by
      cases error <;> simp
    have hregex : row.definition.strAt "regex" = some (regex.asStr.getD "") :=
      h.1.strAt_of_mem hkeys (by simp)
    have haction : row.definition.strAt "action" = some "deny" :=
      h.1.strAt_of_mem hkeys (by simp)
    have herror : row.definition.strAt "error" = error := by
      cases error with
      | none => rw [Json.strAt, h.1.get_of_not_mem (by simp)]; rfl
      | some => exact h.1.strAt_of_mem hkeys (by simp)
    have hdeny : isDeny row.definition = true := by
      rw [isDeny, haction]
      decide
    rw [mergeRegexRule, hdeny, regexOf, hregex, herror]
    rfl

theorem mergeTagsRule_eq_ok (r : TagRule) (h : Loads ρ idToName r.leg row) :
    ∃ v, mergeTagsRule idToName row = .ok v ∧ Json.Same (r.renamed ρ).toJson v := by
  obtain ⟨tags, hget, hsame⟩ := h.1.get_of_mem (k := "tags") (v := r.tags) (by simp) (by simp)
  refine ⟨tagRule tags (ρ r.targetGroup), ?_, ?_⟩
  · rw [mergeTagsRule, h.groupOf, hget]
    rfl
  · exact .object (.cons _ hsame (.cons _ (.refl _) .nil)) (.refl _)

theorem exists_mapM_eq_ok {α : Type} {R : α → RoutingRuleRow → Prop} {toJson : α → Json}
    {merge : RoutingRuleRow → Except String Json} {xs : List α}
    (hmerge : ∀ x row, R x row → ∃ v, merge row = .ok v ∧ Json.Same (toJson x) v)
    (h : List.Forall₂ R xs chunk) :
    ∃ vs, chunk.mapM merge = .ok vs ∧ Json.SameItems (xs.map toJson) vs := by
  induction h with
  | nil => exact ⟨[], rfl, .nil⟩
  | cons hrow _ ih =>
    obtain ⟨v, hv, hsame⟩ := hmerge _ _ hrow
    obtain ⟨vs, hvs, hitems⟩ := ih
    refine ⟨v :: vs, ?_, .cons hsame hitems⟩
    rw [mapM_cons, hv, hvs]
    rfl

theorem members_protocolMap_renamed (groups : String × String → Option String) :
    (protocolMap fun p => ((groups p).filter (· ≠ "")).map ρ).members =
      (protocolMap groups).kept.map fun e => (e.1, .string (ρ e.2)) := by
  simp only [GroupMap.members, GroupMap.kept, protocolMap]
  induction protoCamelSnake with
  | nil => rfl
  | cons p _ ih =>
    cases hgroup : groups p with
    | none => simpa [hgroup] using ih
    | some name => by_cases hempty : name = "" <;> simpa [hgroup, hempty] using ih

theorem isLegacyFullRouter_eq_false {t : String} (htype : first.definition.strAt "type" = some t)
    (ht : "_qf".toList.isPrefixOf t.toList = true) :
    isLegacyFullRouter first.definition first.targetGroupId = false := by
  rw [isLegacyFullRouter, htype, Option.any_some, ht, Bool.not_true, Bool.and_false]

theorem mergeChunk_protocolBased {groups : String × String → Option String}
    (h : List.Forall₂ (Loads ρ idToName) (Router.protocolBased groups).legs (first :: rest)) :
    mergeChunk first rest idToName = .ok ((Router.protocolBased groups).renamed ρ).toJson := by
  have htype : first.definition.strAt "type" = some "_qfProtoLeg" :=
    GroupMap.strAt_first h fun _ _ hd => hd.strAt_of_mem (by simp) (by simp)
  have hkeys : (([("type", Json.string "protocolBased")] : Members).map Prod.fst ++
      (protocolMap groups).kept.map Prod.fst).Nodup := by
    have hkeys := nodup_keys_protocolBased groups
    rw [map_cons, GroupMap.members, map_map] at hkeys
    exact hkeys.sublist ((filter_sublist.map _).cons_cons _)
  have hmerge : mergeLegs "_qfProtoLeg" "protocol" idToName (first :: rest) _ = _ :=
    mergeLegs_eq_ok hkeys h fun _ _ hd => hd.strAt_of_mem (by simp) (by simp)
  simp only [mergeChunk, isLegacyFullRouter_eq_false htype (by decide), htype, mergeProtoChunk,
    hmerge, Router.renamed, Router.toJson, members_protocolMap_renamed]
  rw [Bool.and_false]
  rfl

theorem mergeChunk_header {headerName : String}
    (h : List.Forall₂ (Loads ρ idToName) (Router.header headerName m).legs (first :: rest)) :
    mergeChunk first rest idToName = .ok ((Router.header headerName m).renamed ρ).toJson := by
  have htype : first.definition.strAt "type" = some "_qfHeaderLeg" :=
    GroupMap.strAt_first h fun _ _ hd => hd.strAt_of_mem (by simp) (by simp)
  have hname : first.definition.strAt "headerName" = some headerName :=
    GroupMap.strAt_first h fun _ _ hd => hd.strAt_of_mem (by simp) (by simp)
  have hmerge : mergeLegs "_qfHeaderLeg" "headerValue" idToName (first :: rest) [] = _ :=
    GroupMap.mergeLegs_legs h fun _ _ hd => hd.strAt_of_mem (by simp) (by simp)
  simp only [mergeChunk, isLegacyFullRouter_eq_false htype (by decide), htype, mergeHeaderChunk,
    hmerge, head?_cons, Option.bind_some, hname]
  rw [Bool.and_false]
  rfl

theorem mergeChunk_userGroup
    (h : List.Forall₂ (Loads ρ idToName) (Router.userGroup m).legs (first :: rest)) :
    mergeChunk first rest idToName = .ok ((Router.userGroup m).renamed ρ).toJson := by
  have htype : first.definition.strAt "type" = some "_qfUserLeg" :=
    GroupMap.strAt_first h fun _ _ hd => hd.strAt_of_mem (by simp) (by simp)
  have hmerge : mergeLegs "_qfUserLeg" "username" idToName (first :: rest) [] = _ :=
    GroupMap.mergeLegs_legs h fun _ _ hd => hd.strAt_of_mem (by simp) (by simp)
  simp only [mergeChunk, isLegacyFullRouter_eq_false htype (by decide), htype, mergeUserChunk,
    hmerge]
  rw [Bool.and_false]
  rfl

theorem mergeChunk_clientTags
    (h : List.Forall₂ (Loads ρ idToName) (Router.clientTags m).legs (first :: rest)) :
    mergeChunk first rest idToName = .ok ((Router.clientTags m).renamed ρ).toJson := by
  have htype : first.definition.strAt "type" = some "_qfTagLeg" :=
    GroupMap.strAt_first h fun _ _ hd => hd.strAt_of_mem (by simp) (by simp)
  have hmerge : mergeLegs "_qfTagLeg" "tag" idToName (first :: rest) [] = _ :=
    GroupMap.mergeLegs_legs h fun _ _ hd => hd.strAt_of_mem (by simp) (by simp)
  simp only [mergeChunk, isLegacyFullRouter_eq_false htype (by decide), htype, mergeTagChunk,
    hmerge]
  rw [Bool.and_false]
  rfl

theorem RegexRule.filter_kept_stored (rules : List RegexRule) :
    (rules.map stored).filter kept = (rules.filter kept).map stored := by
  have hkept : kept ∘ stored = kept := by
    funext r
    cases r <;> rfl
  rw [filter_map, hkept]

theorem mergeChunk_queryRegex {rules : List RegexRule}
    (h : List.Forall₂ (Loads ρ idToName) (Router.queryRegex rules).legs (first :: rest)) :
    mergeChunk first rest idToName =
      .ok ((Router.queryRegex rules).stored.renamed ρ).toJson := by
  have htype : first.definition.strAt "type" = some "_qfRegexLeg" := by
    refine strAt_first h fun leg hleg d hd => ?_
    obtain ⟨r, -, rfl⟩ := mem_map.1 hleg
    cases r with
    | route => exact hd.strAt_of_mem (by simp) (by simp)
    | deny _ error => exact hd.strAt_of_mem (by cases error <;> simp) (by simp)
  have hrules : (first :: rest).mapM (mergeRegexRule idToName) =
      .ok ((rules.filter RegexRule.kept).map fun r => (r.stored.renamed ρ).toJson) := by
    rw [mapM_eq_ok_iff, forall₂_map_right_iff]
    refine Forall₂.flip ((forall₂_map_left_iff.1 h).imp ?_)
    intro r row hrow
    exact mergeRegexRule_eq_ok r hrow
  simp only [mergeChunk, isLegacyFullRouter_eq_false htype (by decide), htype, mergeRegexChunk,
    hrules, Router.stored, Router.renamed, Router.toJson, map_map, RegexRule.filter_kept_stored]
  rw [Bool.and_false]
  rfl

theorem mergeChunk_tags {rules : List TagRule}
    (h : List.Forall₂ (Loads ρ idToName) (Router.tags rules).legs (first :: rest)) :
    ∃ v, mergeChunk first rest idToName = .ok v ∧
      Json.Same ((Router.tags rules).renamed ρ).toJson v := by
  have htype : first.definition.strAt "type" = some "_qfTagsRuleLeg" := by
    refine strAt_first h fun leg hleg d hd => ?_
    obtain ⟨r, -, rfl⟩ := mem_map.1 hleg
    exact hd.strAt_of_mem (by simp) (by simp)
  have hrules := forall₂_map_left_iff.1 h
  obtain ⟨vs, hvs, hsame⟩ := exists_mapM_eq_ok (fun r _ hrow => mergeTagsRule_eq_ok r hrow) hrules
  refine ⟨.object [("type", .string "tags"), ("rules", .array vs)], ?_, ?_⟩
  · simp only [mergeChunk, isLegacyFullRouter_eq_false htype (by decide), htype,
      mergeTagsRulesChunk, hvs]
    rw [Bool.and_false]
    rfl
  · rw [Router.renamed, Router.toJson, map_map]
    exact .object (.cons _ (.refl _) (.cons _ (.array hsame) .nil)) (.refl _)

theorem mergeChunk_compound {combine conditions : Json} {targetGroup : String}
    (h : List.Forall₂ (Loads ρ idToName)
      (Router.compound combine conditions targetGroup).legs (first :: rest)) :
    ∃ v, mergeChunk first rest idToName = .ok v ∧
      Json.Same ((Router.compound combine conditions targetGroup).renamed ρ).toJson v := by
  cases h with
  | cons hfirst =>
    have htype : first.definition.strAt "type" = some "compound" :=
      hfirst.1.strAt_of_mem (by simp) (by simp)
    have hlegacy : isLegacyFullRouter first.definition first.targetGroupId = false := by
      rw [isLegacyFullRouter, hfirst.isNone_eq_false, Bool.false_and]
    have hgroup := hfirst.groupOf "compound router row"
    have hsame := hfirst.1
    generalize hd : first.definition = d at hsame
    cases hsame with
    | object hmembers hperm =>
      rename_i ns ns'
      have hfresh : "targetGroup" ∉ ns'.map Prod.fst := by
        rw [← (hperm.map Prod.fst).mem_iff, hmembers.map_fst]
        simp
      have hobject : first.definition.asObject = some ns' := by
        rw [hd]
        rfl
      refine ⟨.object (ns' ++ [("targetGroup", .string (ρ targetGroup))]), ?_, ?_⟩
      · simp only [mergeChunk, hlegacy, htype, mergeCompoundChunk, hgroup, hobject,
          insertMember_eq_append hfresh]
        rw [Bool.and_false]
        rfl
      · exact .object (hmembers.append (.cons "targetGroup" (.refl _) .nil))
          (hperm.append_right _)

theorem mergeChunk_pythonScript {script : String} {scriptFile : Option String}
    (h : List.Forall₂ (Loads ρ idToName) (Router.pythonScript script scriptFile).legs
      (first :: rest)) :
    mergeChunk first rest idToName = .ok first.definition ∧
      Json.Same (Router.pythonScript script scriptFile).toJson first.definition := by
  cases h with
  | cons hfirst =>
    have htype : first.definition.strAt "type" = some "pythonScript" :=
      hfirst.1.strAt_of_mem (by simp) (by simp)
    refine ⟨?_, hfirst.1⟩
    simp [mergeChunk, htype]

theorem mergeChunk_eq_ok {r : Router}
    (h : List.Forall₂ (Loads ρ idToName) r.legs (first :: rest)) :
    ∃ v, mergeChunk first rest idToName = .ok v ∧ Json.Same (r.stored.renamed ρ).toJson v := by
  cases r with
  | protocolBased => exact ⟨_, mergeChunk_protocolBased h, .refl _⟩
  | header => exact ⟨_, mergeChunk_header h, .refl _⟩
  | userGroup => exact ⟨_, mergeChunk_userGroup h, .refl _⟩
  | clientTags => exact ⟨_, mergeChunk_clientTags h, .refl _⟩
  | queryRegex => exact ⟨_, mergeChunk_queryRegex h, .refl _⟩
  | tags => exact mergeChunk_tags h
  | compound => exact mergeChunk_compound h
  | pythonScript =>
    obtain ⟨hmerge, hsame⟩ := mergeChunk_pythonScript h
    exact ⟨_, hmerge, hsame⟩

end Loading

end QueryFlux.Routing
