import QueryFlux.Routing.Legs

/-!
# Loading what was saved

`replaceRoutingConfig` numbers the rows of all routers in one sequence, and the rows of a router
with its index. A query of the table gives the rows in some order, with the members of a definition
in some order (`ReadBack`). Sorted, they are the rows as they were numbered; the indices change from
one router to the next, so the chunks are those of the routers; and each chunk is merged to its
router with the patterns that were stored (`load_stored`).

A pattern of a regex rule that is no string is stored as the empty pattern, which matches every
query (`pattern_becomes_empty`). So the routers come back as they were saved exactly when the
patterns of the rules that have a group, or deny, are strings (`load_replaceRoutingConfig_iff`).
-/

namespace QueryFlux.Routing

open Core Lib List

/-! ## The rows -/

structure RoutingRuleRow.Same (r r' : RoutingRuleRow) : Prop where
  sortOrder : r'.sortOrder = r.sortOrder
  routerLogicalIndex : r'.routerLogicalIndex = r.routerLogicalIndex
  sliceIndex : r'.sliceIndex = r.sliceIndex
  targetGroupId : r'.targetGroupId = r.targetGroupId
  definition : Json.Same r.definition r'.definition

theorem RoutingRuleRow.same_refl (r : RoutingRuleRow) : r.Same r := ⟨rfl, rfl, rfl, rfl, .refl _⟩

/-- What is read: the same rows in any order, with the members of an object in any order. -/
def ReadBack (rows rows' : List RoutingRuleRow) : Prop :=
  ∃ stored, List.Forall₂ RoutingRuleRow.Same rows stored ∧ stored.Perm rows'

structure RowOf (logicalIdx : Nat) (slice : Slice) (row : RoutingRuleRow) : Prop where
  routerLogicalIndex : row.routerLogicalIndex = toI32 logicalIdx
  slice : (row.definition, row.targetGroupId) = slice

/-- Sort keys rise within these bounds. -/
def Numbered (low high : Int) (rows : List RoutingRuleRow) : Prop :=
  rows.Pairwise (·.sortOrder < ·.sortOrder) ∧
    ∀ r ∈ rows, low ≤ r.sortOrder ∧ r.sortOrder < high

variable {rows stored : List RoutingRuleRow} {logicalIdx : Nat} {nameToId : NameToId}
  {ρ : String → String} {idToName : IdToName}

theorem Numbered.append {low mid high : Int} {rows' : List RoutingRuleRow}
    (h : Numbered low mid rows) (h' : Numbered mid high rows') (hmid : low ≤ mid ∧ mid ≤ high) :
    Numbered low high (rows ++ rows') := by
  refine ⟨pairwise_append.2 ⟨h.1, h'.1, ?_⟩, ?_⟩
  · intro r hr r' hr'
    have := (h.2 r hr).2
    have := (h'.2 r' hr').1
    omega
  · intro r hr
    rcases mem_append.1 hr with hr | hr
    · have := h.2 r hr
      omega
    · have := h'.2 r hr
      omega

theorem insertSlices_eq_ok {sliceIdx : Nat} {sortKey next : Int} {slices : List Slice}
    (h : insertSlices logicalIdx sliceIdx sortKey slices = .ok (rows, next)) :
    List.Forall₂ (RowOf logicalIdx) slices rows ∧ sortKey ≤ next ∧ Numbered sortKey next rows := by
  induction slices generalizing sliceIdx sortKey rows with
  | nil =>
    cases h
    exact ⟨.nil, le_refl _, .nil, by simp⟩
  | cons slice _ ih =>
    rw [insertSlices] at h
    split at h
    · obtain ⟨⟨rest, next'⟩, hrest, h⟩ := exists_of_bind_eq_ok h
      cases h
      obtain ⟨hrows, hle, hnumbered⟩ := ih hrest
      have hhead : Numbered sortKey (sortKey + 1)
          [⟨sortKey, toI32 logicalIdx, toI32 sliceIdx, slice.2, slice.1⟩] :=
        ⟨pairwise_singleton _ _, by simp⟩
      exact ⟨.cons ⟨rfl, rfl⟩ hrows, by omega, hhead.append hnumbered ⟨by omega, hle⟩⟩
    · cases h

theorem numbered_of_insertRouters {sortKey : Int} {routers : List Json}
    (h : insertRouters nameToId logicalIdx sortKey routers = .ok rows) :
    ∃ high, sortKey ≤ high ∧ Numbered sortKey high rows := by
  induction routers generalizing logicalIdx sortKey rows with
  | nil =>
    cases h
    exact ⟨sortKey, le_refl _, .nil, by simp⟩
  | cons _ _ ih =>
    obtain ⟨slices, -, h⟩ := exists_of_bind_eq_ok h
    split at h
    · cases h
    · obtain ⟨⟨rows₁, next⟩, hslices, h⟩ := exists_of_bind_eq_ok h
      obtain ⟨rows₂, hrest, h⟩ := exists_of_bind_eq_ok h
      cases h
      obtain ⟨-, hle, hnumbered⟩ := insertSlices_eq_ok hslices
      obtain ⟨high, hhigh, hnumbered'⟩ := ih hrest
      exact ⟨high, le_trans hle hhigh, hnumbered.append hnumbered' ⟨hle, hhigh⟩⟩

theorem insertionSort_eq_of_perm {text : Json → String}
    (hstored : stored.Pairwise (·.sortOrder < ·.sortOrder)) (hperm : stored.Perm rows) :
    (rows.insertionSort fun a b => sortKey text a ≤ sortKey text b) = stored := by
  let le (a b : RoutingRuleRow) : Prop := sortKey text a ≤ sortKey text b
  have hsorted : stored.Pairwise le := by
    refine hstored.imp fun {a b} hlt => le_of_lt ?_
    exact Prod.Lex.lt_iff.2 (.inl hlt)
  have hkeyed : Keyed RoutingRuleRow.sortOrder stored :=
    pairwise_map.2 (hstored.imp fun hlt => ne_of_lt hlt)
  refine Perm.eq_of_pairwise ?_ (pairwise_insertionSort le rows) hsorted
    ((perm_insertionSort le rows).trans hperm.symm)
  intro a b ha hb hab hba
  have ha : a ∈ stored := hperm.mem_iff.2 ((mem_insertionSort le).1 ha)
  have hkey : sortKey text a = sortKey text b := le_antisymm hab hba
  exact hkeyed.eq_of_mem ha hb (congrArg Prod.fst hkey)

theorem head?_chunks (rows : List RoutingRuleRow) :
    (chunks rows).head?.map Prod.fst = rows.head? := by
  cases rows with
  | nil => rfl
  | cons =>
    rw [chunks]
    split
    · rfl
    · split <;> rfl

theorem chunks_append {first : RoutingRuleRow} {rest more : List RoutingRuleRow}
    (hrest : ∀ r ∈ rest, r.routerLogicalIndex = first.routerLogicalIndex)
    (hmore : ∀ r ∈ more.head?, r.routerLogicalIndex ≠ first.routerLogicalIndex) :
    chunks (first :: rest ++ more) = (first, rest) :: chunks more := by
  induction rest generalizing first with
  | nil =>
    rw [singleton_append, chunks]
    have hhead := head?_chunks more
    split
    · rename_i hnil
      rw [hnil]
    · rename_i next rest chunks' hcons
      rw [hcons] at hhead ⊢
      rw [if_neg (hmore next hhead.symm)]
  | cons r rest ih =>
    have hr := hrest r (.head _)
    have hchunks : chunks (r :: rest ++ more) = (r, rest) :: chunks more :=
      ih (fun r' hr' => (hrest r' (.tail _ hr')).trans hr.symm)
        (fun r' hr' => hr ▸ hmore r' hr')
    rw [cons_append, chunks, hchunks]
    exact if_pos hr

theorem toI32_succ_ne (n : Nat) : toI32 (n + 1) ≠ toI32 n := by
  unfold toI32
  omega

/-! ## Loading the routers -/

section
variable (hgroups : ∀ name id, nameToId name = some id → idToName id = some (ρ name))
include hgroups

theorem loads_of_refers {leg : Leg} {slice : Slice} {row row' : RoutingRuleRow}
    (hslice : Refers nameToId leg slice) (hrow : RowOf logicalIdx slice row)
    (hsame : row.Same row') :
    Loads ρ idToName leg row' := by
  obtain rfl := hrow.slice
  obtain ⟨hdefinition, hgroup⟩ := hslice
  refine ⟨hdefinition ▸ hsame.definition, ?_⟩
  rw [hsame.targetGroupId]
  generalize row.targetGroupId = gid at hgroup
  generalize leg.2 = name at hgroup
  cases hgroup with
  | none => exact .none
  | some hid => exact .some (hgroups _ _ hid)

theorem loads_of_insertSlices {legs : List Leg} {slices : List Slice} {rows' : List RoutingRuleRow}
    (hslices : List.Forall₂ (Refers nameToId) legs slices)
    (hrows : List.Forall₂ (RowOf logicalIdx) slices rows)
    (hsame : List.Forall₂ RoutingRuleRow.Same rows rows') :
    List.Forall₂ (Loads ρ idToName) legs rows' ∧
      ∀ r ∈ rows', r.routerLogicalIndex = toI32 logicalIdx := by
  induction hslices generalizing rows rows' with
  | nil =>
    cases hrows
    cases hsame
    exact ⟨.nil, by simp⟩
  | cons hslice _ ih =>
    cases hrows with
    | cons hrow hrows =>
      cases hsame with
      | cons hsame₁ hsame =>
        obtain ⟨hloads, hindex⟩ := ih hrows hsame
        refine ⟨.cons (loads_of_refers hgroups hslice hrow hsame₁) hloads, ?_⟩
        intro r hr
        rcases mem_cons.1 hr with rfl | hr
        · exact hsame₁.routerLogicalIndex.trans hrow.routerLogicalIndex
        · exact hindex r hr

theorem load_insertRouters {rs : List Router} {sortKey : Int}
    (h : insertRouters nameToId logicalIdx sortKey (rs.map Router.toJson) = .ok rows)
    (hsame : List.Forall₂ RoutingRuleRow.Same rows stored) :
    (∀ r ∈ stored.head?, r.routerLogicalIndex = toI32 logicalIdx) ∧
      ∃ loaded, ((chunks stored).mapM fun chunk => mergeChunk chunk.1 chunk.2 idToName) =
        .ok loaded ∧ Json.SameItems (rs.map fun r => (r.stored.renamed ρ).toJson) loaded := by
  induction rs generalizing logicalIdx sortKey rows stored with
  | nil =>
    cases h
    cases hsame
    exact ⟨by simp, [], rfl, .nil⟩
  | cons r _ ih =>
    obtain ⟨slices, hexpand, h⟩ := exists_of_bind_eq_ok h
    split at h
    · cases h
    · rename_i hslices
      obtain ⟨⟨rows₁, next⟩, hinsert, h⟩ := exists_of_bind_eq_ok h
      obtain ⟨rows₂, hrest, h⟩ := exists_of_bind_eq_ok h
      cases h
      obtain ⟨stored₁, stored₂, hsame₁, hsame₂, rfl⟩ := exists_of_forall₂_append hsame
      obtain ⟨hindex, loaded, hloaded, hitems⟩ := ih hrest hsame₂
      obtain ⟨hrows, -, -⟩ := insertSlices_eq_ok hinsert
      obtain ⟨hloads, hindex₁⟩ := loads_of_insertSlices hgroups
        (refers_of_expand (of_mapError_eq_ok hexpand)) hrows hsame₁
      cases stored₁ with
      | nil =>
        cases hsame₁
        cases hrows
        exact absurd rfl hslices
      | cons first =>
        obtain ⟨v, hmerge, hv⟩ := mergeChunk_eq_ok hloads
        have hfirst := hindex₁ first (.head _)
        refine ⟨by simpa using hfirst, v :: loaded, ?_, .cons hv hitems⟩
        rw [chunks_append, mapM_cons, hmerge, hloaded]
        · rfl
        · intro r hr
          rw [hindex₁ r (.tail _ hr), hfirst]
        · intro r hr
          rw [hindex r hr, hfirst]
          exact toI32_succ_ne _

end

theorem map_sortOrder_of_same (h : List.Forall₂ RoutingRuleRow.Same rows stored) :
    stored.map RoutingRuleRow.sortOrder = rows.map RoutingRuleRow.sortOrder := by
  induction h with
  | nil => rfl
  | cons hrow _ ih => rw [map_cons, map_cons, hrow.sortOrder, ih]

/-- Saved routers are loaded as they are stored, with the new names. -/
theorem load_stored {rs : List Router} {rows' : List RoutingRuleRow} (text : Json → String)
    (hsave : replaceRoutingConfig nameToId (rs.map Router.toJson) = .ok rows)
    (hread : ReadBack rows rows')
    (hgroups : ∀ name id, nameToId name = some id → idToName id = some (ρ name)) :
    ∃ loaded, collapseRowsToRouters text rows' idToName = .ok loaded ∧
      Json.SameItems (rs.map fun r => (r.stored.renamed ρ).toJson) loaded := by
  obtain ⟨stored, hsame, hperm⟩ := hread
  obtain ⟨-, loaded, hloaded, hitems⟩ := load_insertRouters hgroups hsave hsame
  obtain ⟨high, -, hnumbered, -⟩ := numbered_of_insertRouters hsave
  have hsorted : stored.Pairwise (·.sortOrder < ·.sortOrder) := by
    rw [← pairwise_map (f := RoutingRuleRow.sortOrder), map_sortOrder_of_same hsame,
      pairwise_map]
    exact hnumbered
  refine ⟨loaded, ?_, hitems⟩
  rw [collapseRowsToRouters, insertionSort_eq_of_perm hsorted hperm]
  exact hloaded

/-! ## Patterns that are strings -/

theorem RegexRule.stored_eq {r : RegexRule} (h : r.regex.asStr.isSome = true) : r.stored = r := by
  cases r with
  | route regex | deny regex =>
    cases regex with
    | string => rfl
    | _ => cases h

theorem Router.renamed_stored {r : Router} (h : r.HasStringPatterns) :
    r.stored.renamed ρ = r.renamed ρ := by
  cases r with
  | queryRegex rules =>
    rw [stored, renamed, renamed, RegexRule.filter_kept_stored, map_map]
    congr 1
    refine map_congr_left fun r hr => ?_
    obtain ⟨hr, hkept⟩ := mem_filter.1 hr
    rw [Function.comp_apply, RegexRule.stored_eq (h r hr hkept)]
  | _ => rfl

theorem RegexRule.get_regex {r : RegexRule} {v : Json} (h : Json.Same (r.renamed ρ).toJson v) :
    ∃ w, v.get "regex" = some w ∧ Json.Same r.regex w := by
  cases r with
  | route => exact Json.Same.get_of_mem h (by simp) (.head _)
  | deny _ error => exact Json.Same.get_of_mem h (by cases error <;> simp) (.head _)

-- two rules that the same value stands for have the same pattern
theorem RegexRule.isSome_of_same {r : RegexRule} {v : Json}
    (h : Json.Same (r.renamed ρ).toJson v) (hstored : Json.Same (r.stored.renamed ρ).toJson v) :
    r.regex.asStr.isSome = true := by
  obtain ⟨w, hget, hsame⟩ := get_regex h
  obtain ⟨w', hget', hsame'⟩ := get_regex hstored
  cases hget.symm.trans hget'
  have hstring : ∃ text, w = .string text := by
    cases r <;> cases hsame' <;> exact ⟨_, rfl⟩
  obtain ⟨text, rfl⟩ := hstring
  generalize r.regex = regex at hsame ⊢
  cases hsame
  rfl

theorem RegexRule.isSome_of_sameItems {rules : List RegexRule} {items : List Json}
    (h : Json.SameItems (rules.map fun r => (r.renamed ρ).toJson) items)
    (hstored : Json.SameItems (rules.map fun r => (r.stored.renamed ρ).toJson) items) :
    ∀ r ∈ rules, r.regex.asStr.isSome = true := by
  induction rules generalizing items with
  | nil => exact fun _ hr => absurd hr not_mem_nil
  | cons r rules ih =>
    cases h with
    | cons hrule hrest =>
      cases hstored with
      | cons hrule' hrest' =>
        exact forall_mem_cons.2 ⟨isSome_of_same hrule hrule', ih hrest hrest'⟩

theorem Router.hasStringPatterns_of_same {r : Router} {v : Json}
    (h : Json.Same (r.renamed ρ).toJson v) (hstored : Json.Same (r.stored.renamed ρ).toJson v) :
    r.HasStringPatterns := by
  cases r with
  | queryRegex rules =>
    obtain ⟨w, hget, hitems⟩ := Json.Same.get_of_mem h (k := "rules") (by simp) (.tail _ (.head _))
    obtain ⟨w', hget', hitems'⟩ :=
      Json.Same.get_of_mem hstored (k := "rules") (by simp) (.tail _ (.head _))
    cases hget.symm.trans hget'
    rw [RegexRule.filter_kept_stored, map_map] at hitems'
    rw [map_map] at hitems hitems'
    cases hitems with
    | array hitems =>
      cases hitems' with
      | array hitems' =>
        intro r hr hkept
        exact RegexRule.isSome_of_sameItems hitems hitems' r (mem_filter.2 ⟨hr, hkept⟩)
  | _ => trivial

theorem hasStringPatterns_of_sameItems {rs : List Router} {items : List Json}
    (h : Json.SameItems (rs.map fun r => (r.renamed ρ).toJson) items)
    (hstored : Json.SameItems (rs.map fun r => (r.stored.renamed ρ).toJson) items) :
    ∀ r ∈ rs, r.HasStringPatterns := by
  induction rs generalizing items with
  | nil => exact fun _ hr => absurd hr not_mem_nil
  | cons r rs ih =>
    cases h with
    | cons hrouter hrest =>
      cases hstored with
      | cons hrouter' hrest' =>
        exact forall_mem_cons.2
          ⟨Router.hasStringPatterns_of_same hrouter hrouter', ih hrest hrest'⟩

theorem RegexRule.hasStringPattern_toJson (r : RegexRule) :
    (!isDeny r.toJson && targetName r.toJson = "" || (r.toJson.strAt "regex").isSome) = true ↔
      (r.kept = true → r.regex.asStr.isSome = true) := by
  cases r with
  | route regex targetGroup =>
    have hregex : (routeRule regex targetGroup).strAt "regex" = regex.asStr := rfl
    rw [toJson, isDeny_routeRule, targetName_routeRule, hregex]
    by_cases hempty : targetGroup = ""
    · simp [kept, hempty]
    · simp [kept, hempty, RegexRule.regex]
  | deny regex error =>
    have hregex : (denyRule regex error).strAt "regex" = regex.asStr := rfl
    rw [toJson, isDeny_denyRule, hregex]
    simp [kept, RegexRule.regex]

theorem Router.hasStringPatterns_toJson (r : Router) :
    hasStringPatterns r.toJson = true ↔ r.HasStringPatterns := by
  cases r with
  | queryRegex rules =>
    have htype : (queryRegex rules).toJson.strAt "type" = some "queryRegex" := rfl
    have hrules : (((queryRegex rules).toJson.get "rules").bind Json.asArray).getD [] =
        rules.map RegexRule.toJson := rfl
    rw [hasStringPatterns, htype, hrules]
    simp only [ne_eq, not_true_eq_false, decide_false, Bool.false_or, all_map, all_eq_true,
      Function.comp_apply, RegexRule.hasStringPattern_toJson]
    rfl
  | _ => exact iff_of_true rfl trivial

/-- Routers that are saved in canonical form are loaded as they were, with every group under its new
name and without the rules that have no group, exactly when the patterns of the rules that remain
are strings. -/
theorem load_replaceRoutingConfig_iff {raw routers : List Json} {rows rows' : List RoutingRuleRow}
    {idToName idToName' : IdToName} {nameToId : NameToId} {ρ : String → String}
    (text : Json → String) (hresolve : resolveRoutersForStorage raw idToName = .ok routers)
    (htype : ∀ v ∈ raw, ∃ t ∈ builtInTypes, v.strAt "type" = some t)
    (hsave : replaceRoutingConfig nameToId routers = .ok rows) (hread : ReadBack rows rows')
    (hgroups : ∀ name id, nameToId name = some id → idToName' id = some (ρ name)) :
    ∃ rs : List Router, routers = rs.map Router.toJson ∧
      ((∃ loaded, collapseRowsToRouters text rows' idToName' = .ok loaded ∧
          Json.SameItems (rs.map fun r => (r.renamed ρ).toJson) loaded) ↔
        ∀ v ∈ routers, hasStringPatterns v = true) := by
  obtain ⟨rs, rfl⟩ := exists_routers_of_resolve hresolve htype
  obtain ⟨loaded, hloaded, hitems⟩ := load_stored text hsave hread hgroups
  rw [forall_mem_map]
  simp only [Router.hasStringPatterns_toJson]
  refine ⟨rs, rfl, ?_, fun hstrings => ⟨loaded, hloaded, ?_⟩⟩
  · rintro ⟨loaded', hloaded', hsame⟩
    cases hloaded.symm.trans hloaded'
    exact hasStringPatterns_of_sameItems hsame hitems
  · have hrenamed : (rs.map fun r => (r.stored.renamed ρ).toJson) =
        rs.map fun r => (r.renamed ρ).toJson :=
      map_congr_left fun r hr => by rw [Router.renamed_stored (hstrings r hr)]
    exact hrenamed ▸ hitems

/-! ## Sample routers -/

def sampleNameToId : NameToId
  | "etl" => some 1
  | "adhoc" => some 2
  | _ => none

def sampleNames : IdToName
  | 1 => some "etl"
  | 2 => some "adhoc"
  | _ => none

def sampleIdToName : IdToName
  | 1 => some "adhoc"
  | 2 => some "etl"
  | _ => none

def sampleRouters : List Json :=
  [.object [("type", .string "queryRegex"), ("rules", .array [
      denyRule (.string "^drop") (some "no"), routeRule (.string "^insert") "etl",
      routeRule (.string "^call") "", routeRule (.string ".") "adhoc"])],
    .object [("type", .string "userGroup"),
      ("userToGroup", .object [("ann", .string "adhoc"), ("bob", .string "etl")])]]

def sampleRows : List RoutingRuleRow :=
  [⟨0, 0, 0, none, denyLeg "^drop" (some "no")⟩, ⟨1, 0, 1, some 1, regexLeg "^insert"⟩,
    ⟨2, 0, 2, some 2, regexLeg "."⟩, ⟨3, 1, 0, some 2, userLeg "ann"⟩,
    ⟨4, 1, 1, some 1, userLeg "bob"⟩]

/-- The groups swap their names before the routers are loaded. -/
theorem load_sampleRouters :
    ∃ rs : List Router, sampleRouters = rs.map Router.toJson ∧
      ∃ loaded, collapseRowsToRouters (fun _ => "") sampleRows.reverse sampleIdToName =
        .ok loaded ∧
        Json.SameItems (rs.map fun r => (r.renamed fun name =>
          if name = "etl" then "adhoc" else "etl").toJson) loaded := by
  have hresolve : resolveRoutersForStorage sampleRouters sampleNames = .ok sampleRouters := rfl
  have hsave : replaceRoutingConfig sampleNameToId sampleRouters = .ok sampleRows := rfl
  have hread : ReadBack sampleRows sampleRows.reverse :=
    ⟨sampleRows, forall₂_same.2 fun r _ => r.same_refl, (reverse_perm _).symm⟩
  have htype : ∀ v ∈ sampleRouters, ∃ t ∈ builtInTypes, v.strAt "type" = some t := by
    intro v hv
    simp only [sampleRouters, mem_cons, not_mem_nil, or_false] at hv
    rcases hv with rfl | rfl
    · exact ⟨"queryRegex", by decide, rfl⟩
    · exact ⟨"userGroup", by decide, rfl⟩
  have hgroups : ∀ name id, sampleNameToId name = some id → sampleIdToName id =
      some (if name = "etl" then "adhoc" else "etl") := by
    intro name id h
    unfold sampleNameToId at h
    split at h
    · cases h
      rfl
    · cases h
      rfl
    · cases h
  obtain ⟨rs, hrs, hiff⟩ :=
    load_replaceRoutingConfig_iff (fun _ => "") hresolve htype hsave hread hgroups
  exact ⟨rs, hrs, hiff.2 (by decide)⟩

def regexRouter (regex : Json) : Json :=
  .object [("type", .string "queryRegex"), ("rules", .array [
    .object [("regex", regex), ("targetGroup", .string "etl")]])]

/-- A pattern that is a number is stored as the empty string. -/
theorem pattern_becomes_empty :
    resolveRoutersForStorage [regexRouter (.number "5")] sampleNames =
        .ok [regexRouter (.number "5")] ∧
      replaceRoutingConfig sampleNameToId [regexRouter (.number "5")] =
        .ok [⟨0, 0, 0, some 1, regexLeg ""⟩] ∧
      collapseRowsToRouters (fun _ => "") [⟨0, 0, 0, some 1, regexLeg ""⟩] sampleNames =
        .ok [regexRouter (.string "")] ∧
      ¬Json.Same (regexRouter (.number "5")) (regexRouter (.string "")) := by
  refine ⟨rfl, rfl, rfl, fun h => ?_⟩
  obtain ⟨v, hget, hrules⟩ := h.get_of_mem (k := "rules") (v := .array _) (by simp)
    (.tail _ (.head _))
  cases hget
  cases hrules with
  | array hitems =>
    cases hitems with
    | cons hrule =>
      obtain ⟨v, hget, hregex⟩ := hrule.get_of_mem (k := "regex") (v := .number "5") (by simp)
        (.head _)
      cases hget
      cases hregex

end QueryFlux.Routing
