import QueryFlux.Access.Scans
import QueryFlux.Access.Verdict
import QueryFlux.Lib.Results

/-!
# Are all base tables checked?

A base table that is named, unqualified, like a CTE of some other part of the statement is left
out by the extraction and by the rewrite alike. Apart from these, and from tables named like a
stage, every base table is submitted, is replaced when a filter or mask concerns it, and keeps the
statement out of the guard's branch for statements without tables (`covered_iff`).
-/

namespace QueryFlux.Access

open Core Sql Guardrails Lib List

/-- How an engine compares identifiers: it may distinguish cases, and an empty name is no other. -/
structure Comparison (lower : String → String) where
  same : String → String → Bool
  lower_eq : ∀ {a b}, same a b = true → lower a = lower b
  eq_empty : ∀ {a}, same a "" = true → a = ""

/-- The references that denote no CTE where they stand. -/
def baseTables {lower : String → String} (cmp : Comparison lower) (tree : Query TableRef) :
    List TableRef :=
  (tree.baseTables TableRef.bareName cmp.same).filter (·.name ≠ "")

/-! ## What is submitted -/

section
variable {lower : String → String}

theorem qualifiedTable_isBare (q : Option (Qualification lower)) (t : TableRef) :
    (qualifiedTable lower q t).isBare = t.isBare := by
  cases q with
  | none => rfl
  | some q =>
    have hempty (s : String) : (q.recase s == "") = (s == "") := by
      rw [Bool.eq_iff_iff, beq_iff_eq, beq_iff_eq, q.recase_eq_empty]
    simp [qualifiedTable, Qualification.table, TableRef.isBare, hempty]

theorem isReported_qualifiedTable (q : Option (Qualification lower)) (ctes : List String)
    (t : TableRef) :
    isReported lower ctes (qualifiedTable lower q t) = isReported lower ctes t := by
  have hbare := qualifiedTable_isBare q t
  cases q with
  | none => rfl
  | some q =>
    have hempty : (q.recase t.name == "") = (t.name == "") := by
      rw [Bool.eq_iff_iff, beq_iff_eq, beq_iff_eq, q.recase_eq_empty]
    simp only [isReported, takenForCte, hbare]
    simp [qualifiedTable, Qualification.table, hempty, q.isStage_recase, q.lower_recase]

variable {q : Option (Qualification lower)} {t : TableRef} {policies : List TablePolicy}
  {p : TablePolicy}

theorem mem_readsAmong_iff {ctes : List String} {tables : List TableRef} {r : ExtractedResource} :
    r ∈ readsAmong lower q ctes tables ↔
      ∃ t ∈ tables, isReported lower ctes t = true ∧
        resourceOf lower q (qualifiedTable lower q t) = r := by
  simp only [readsAmong, mem_eraseDups, mem_map, mem_filter]
  constructor
  · rintro ⟨_, ⟨⟨t, ht, rfl⟩, hreported⟩, rfl⟩
    exact ⟨t, ht, by rwa [isReported_qualifiedTable] at hreported, rfl⟩
  · rintro ⟨t, ht, hreported, rfl⟩
    exact ⟨_, ⟨⟨t, ht, rfl⟩, by rwa [isReported_qualifiedTable]⟩, rfl⟩

/-- One resource for each table that is not a common table expression or a stage. -/
theorem mem_extractResources_iff {tree : Query TableRef} {r : ExtractedResource} :
    r ∈ (extractResources lower q tree).resources ↔
      ∃ t ∈ tree.tables, isReported lower (cteNames lower tree) t = true ∧
        resourceOf lower q (qualifiedTable lower q t) = r := mem_readsAmong_iff

/-! ## What is replaced -/

/-- The policy is for this table, as far as the reference tells: for its qualified name, for its
bare name, or, when the reference gives no schema, for the name in some schema. -/
def Concerns (lower : String → String) (p : TablePolicy) (t : TableRef) : Prop :=
  lower p.table = lower t.qualified ∨ lower p.table = lower t.name ∨
    t.db = "" ∧ afterLastDot (lower p.table) = lower t.name

def RestrictedBy (lower : String → String) (p : TablePolicy) (t : TableRef) (scan : Scan) :
    Prop :=
  ∃ projection, scan = .restricted t t.scanAlias projection (p.rowFilters.filter nonBlank) ∧
    (p.maskedColumns ≠ [] →
      ∃ cols : List String, projection = some (cols.map fun c => (c, maskFor lower p c)))

theorem exactPolicy_eq_some {key : String} (h : exactPolicy lower policies key = some p) :
    p ∈ policies ∧ lower p.table = key := by
  have hmem := mem_of_find?_eq_some h
  have hkey := find?_some h
  exact ⟨mem_reverse.1 hmem, by simpa using hkey⟩

theorem exactPolicy_eq_none {key : String} (h : exactPolicy lower policies key = none)
    (hp : p ∈ policies) : lower p.table ≠ key := by
  have hnone := find?_eq_none.1 h p (mem_reverse.2 hp)
  simpa using hnone

theorem afterLastDot_eq_self {s : String} (h : '.' ∉ s.toList) : afterLastDot s = s := by
  have hall : s.toList.rtakeWhile (· != '.') = s.toList := by
    rw [rtakeWhile_eq_self_iff]
    intro c hc
    rw [bne_iff_ne]
    rintro rfl
    exact h hc
  rw [afterLastDot, hall, String.ofList_toList]

/-- The policy of a scan is one for its own name. Only if there is none it is one that stands for
the name, and then there is no other such policy. -/
theorem findPolicy_cases (h : findPolicy lower policies t = .ok (some p)) :
    p ∈ policies ∧ (lower p.table = lower t.qualified ∨
      (∀ p' ∈ policies, lower p'.table ≠ lower t.qualified) ∧
        ((t.db ≠ "" ∧ lower p.table = lower t.name) ∨
          (t.db = "" ∧ qualifiedByBare lower policies (lower t.name) = [p]))) := by
  unfold findPolicy at h
  by_cases hdb : t.db = ""
  · have hqualified : t.qualified = t.name := if_pos hdb
    rw [hqualified]
    simp only [hdb, ne_eq, not_true_eq_false, if_false] at h
    cases hexact : exactPolicy lower policies (lower t.name) with
    | some p' =>
      rw [hexact] at h
      obtain rfl : p' = p := by simpa using h
      obtain ⟨hmem, hkey⟩ := exactPolicy_eq_some hexact
      exact ⟨hmem, .inl hkey⟩
    | none =>
      rw [hexact] at h
      dsimp only at h
      split at h
      · simp at h
      · rename_i p' hcands
        obtain rfl : p' = p := by simpa using h
        have hmem : p' ∈ qualifiedByBare lower policies (lower t.name) := by simp [hcands]
        exact ⟨(mem_filter.1 hmem).1,
          .inr ⟨fun _ => exactPolicy_eq_none hexact, .inr ⟨hdb, hcands⟩⟩⟩
      · cases h
  · simp only [ne_eq, hdb, not_false_eq_true, if_true, Except.ok.injEq] at h
    cases hexact : exactPolicy lower policies (lower t.qualified) with
    | some p' =>
      rw [hexact] at h
      obtain rfl : p' = p := by simpa using h
      obtain ⟨hmem, hkey⟩ := exactPolicy_eq_some hexact
      exact ⟨hmem, .inl hkey⟩
    | none =>
      rw [hexact] at h
      obtain ⟨hmem, hkey⟩ := exactPolicy_eq_some (by simpa using h)
      exact ⟨hmem, .inr ⟨fun _ => exactPolicy_eq_none hexact, .inl ⟨hdb, hkey⟩⟩⟩

theorem findPolicy_eq_some (h : findPolicy lower policies t = .ok (some p)) :
    p ∈ policies ∧ Concerns lower p t := by
  obtain ⟨hp, hcase⟩ := findPolicy_cases h
  refine ⟨hp, ?_⟩
  rcases hcase with hqualified | ⟨-, ⟨-, hbare⟩ | ⟨hdb, hcands⟩⟩
  · exact .inl hqualified
  · exact .inr (.inl hbare)
  · have hmem : p ∈ qualifiedByBare lower policies (lower t.name) := by simp [hcands]
    have hlast := (mem_filter.1 hmem).2
    rw [Bool.and_eq_true, beq_iff_eq] at hlast
    exact .inr (.inr ⟨hdb, hlast.2⟩)

theorem findPolicy_eq_none (h : findPolicy lower policies t = .ok none) (hp : p ∈ policies) :
    ¬ Concerns lower p t := by
  unfold findPolicy at h
  by_cases hdb : t.db = ""
  · simp only [hdb, ne_eq, not_true_eq_false, if_false] at h
    cases hexact : exactPolicy lower policies (lower t.name) with
    | some => simp [hexact] at h
    | none =>
      rw [hexact] at h
      dsimp only at h
      have hkey := exactPolicy_eq_none hexact hp
      have hcands : qualifiedByBare lower policies (lower t.name) = [] := by
        split at h
        · assumption
        · cases h
        · cases h
      rintro (hq | hq | ⟨-, hlast⟩)
      · exact hkey (by rwa [TableRef.qualified, if_pos hdb] at hq)
      · exact hkey hq
      · by_cases hdot : '.' ∈ (lower p.table).toList
        · have hmem : p ∈ qualifiedByBare lower policies (lower t.name) :=
            mem_filter.2 ⟨hp, by simp [hdot, hlast]⟩
          rw [hcands] at hmem
          cases hmem
        · exact hkey (by rwa [afterLastDot_eq_self hdot] at hlast)
  · simp only [ne_eq, hdb, not_false_eq_true, if_true, Except.ok.injEq] at h
    obtain ⟨hqualified, hname⟩ : exactPolicy lower policies (lower t.qualified) = none ∧
        exactPolicy lower policies (lower t.name) = none := by simpa using h
    rintro (hq | hq | ⟨hq, -⟩)
    · exact exactPolicy_eq_none hqualified hp hq
    · exact exactPolicy_eq_none hname hp hq
    · exact hdb hq

section
variable {schema : List (String × List String)} {parseError : String → Option String}
  {policies : List TablePolicy} {ctes : List String}

theorem restrictedBy_of_restrict {clauses : SelectClauses} {sole : Bool} {p : TablePolicy}
    {t : TableRef} {scan : Scan}
    (h : restrict lower schema parseError clauses sole p t = .ok scan) :
    RestrictedBy lower p t scan := by
  unfold restrict at h
  dsimp only at h
  split at h
  · cases h
  · rename_i projection hprojection
    split at h
    · cases h
    · refine ⟨projection, by simpa using h.symm, fun hmasks => ?_⟩
      rw [if_neg (by simpa using hmasks)] at hprojection
      split at hprojection
      · cases hprojection
      · cases hprojection
      · exact ⟨_, (Except.ok.inj hprojection).symm⟩

/-- A reference that is not taken for a CTE is replaced as soon as some policy concerns it. -/
theorem restrictedBy_of_rewriteScan {clauses : SelectClauses} {n : Nat} {t : TableRef}
    {scan : Scan} (h : rewriteScan lower schema parseError policies ctes clauses n t = .ok scan)
    (hname : t.name ≠ "") (htaken : takenForCte lower ctes t = false)
    (hconcerned : ∃ p ∈ policies, Concerns lower p t) :
    ∃ p ∈ policies, Concerns lower p t ∧ RestrictedBy lower p t scan := by
  rw [rewriteScan, if_neg (by simp [hname, htaken])] at h
  split at h
  · cases h
  · rename_i hfind
    obtain ⟨p, hp, hconcerns⟩ := hconcerned
    exact absurd hconcerns (findPolicy_eq_none hfind hp)
  · rename_i p hfind
    obtain ⟨hp, hconcerns⟩ := findPolicy_eq_some hfind
    exact ⟨p, hp, hconcerns, restrictedBy_of_restrict h⟩

/-! The rewritten statement has its references in the places of the original's. -/

variable (lower schema parseError policies ctes) in
def RewrittenTo (t : TableRef) (scan : Scan) : Prop :=
  ∃ clauses n, rewriteScan lower schema parseError policies ctes clauses n t = .ok scan

mutual

theorem rewriteQuery_tables : ∀ {q : Query TableRef} {out : Query Scan},
    rewriteQuery lower schema parseError policies ctes q = .ok out →
    List.Forall₂ (RewrittenTo lower schema parseError policies ctes) q.tables out.tables
  | .select clauses sources, out, h => by
    obtain ⟨sources', hsources, rfl⟩ := exists_of_map_eq_ok h
    exact rewriteSources_tables hsources
  | .setOperation left right, out, h => by
    obtain ⟨left', hleft, h⟩ := exists_of_bind_eq_ok h
    obtain ⟨right', hright, rfl⟩ := exists_of_map_eq_ok h
    exact List.rel_append (rewriteQuery_tables hleft) (rewriteQuery_tables hright)
  | .withCtes recursive defs body, out, h => by
    obtain ⟨defs', hdefs, h⟩ := exists_of_bind_eq_ok h
    obtain ⟨body', hbody, rfl⟩ := exists_of_map_eq_ok h
    exact List.rel_append (rewriteCtes_tables hdefs) (rewriteQuery_tables hbody)

theorem rewriteCtes_tables : ∀ {defs : Ctes TableRef} {out : Ctes Scan},
    rewriteCtes lower schema parseError policies ctes defs = .ok out →
    List.Forall₂ (RewrittenTo lower schema parseError policies ctes) defs.tables out.tables
  | .nil, out, h => by
    cases h
    exact .nil
  | .cons name definition rest, out, h => by
    obtain ⟨definition', hdefinition, h⟩ := exists_of_bind_eq_ok h
    obtain ⟨rest', hrest, rfl⟩ := exists_of_map_eq_ok h
    exact List.rel_append (rewriteQuery_tables hdefinition) (rewriteCtes_tables hrest)

theorem rewriteSources_tables : ∀ {sources : Sources TableRef} {clauses : SelectClauses} {n : Nat}
    {out : Sources Scan},
    rewriteSources lower schema parseError policies ctes clauses n sources = .ok out →
    List.Forall₂ (RewrittenTo lower schema parseError policies ctes) sources.tables out.tables
  | .nil, clauses, n, out, h => by
    cases h
    exact .nil
  | .table t rest, clauses, n, out, h => by
    obtain ⟨scan, hscan, h⟩ := exists_of_bind_eq_ok h
    obtain ⟨rest', hrest, rfl⟩ := exists_of_map_eq_ok h
    exact .cons ⟨clauses, n, hscan⟩ (rewriteSources_tables hrest)
  | .subquery q rest, clauses, n, out, h => by
    obtain ⟨q', hq, h⟩ := exists_of_bind_eq_ok h
    obtain ⟨rest', hrest, rfl⟩ := exists_of_map_eq_ok h
    exact List.rel_append (rewriteQuery_tables hq) (rewriteSources_tables hrest)

end

end

theorem planExtracted_ne_allow {conn : ConnectionRuntime}
    (hselect : conn.evaluates .tableSelect = true) {tree : Query TableRef}
    (hne : (extractResources lower q tree).resources ≠ []) :
    conn.planExtracted .tableSelect (extractResources lower q tree) ≠ .error .allow := by
  have hread : ∀ r ∈ (extractResources lower q tree).resources, r.isWriteTarget = false := by
    intro r hr
    obtain ⟨t, -, -, rfl⟩ := mem_extractResources_iff.1 hr
    rfl
  have hreads : (extractResources lower q tree).resources.filter (!·.isWriteTarget) =
      (extractResources lower q tree).resources :=
    filter_eq_self.2 fun r hr => by simp [hread r hr]
  have hsome : (extractResources lower q tree).resources.isEmpty = false := by
    simpa using hne
  unfold ConnectionRuntime.planExtracted
  have hwrites : writeOperations .tableSelect (extractResources lower q tree).replaces = [] := rfl
  have hop : ((extractResources lower q tree).writeOperation.map Operation.mk).getD
      .tableSelect = .tableSelect := rfl
  have hnested : (extractResources lower q tree).nestedWrites = false := rfl
  have hisRead : Operation.tableSelect.isRead = true := rfl
  simp only [hreads, hop, hwrites, hnested, hsome, hselect, hisRead, filter_nil,
    isEmpty_nil, Bool.not_true, Bool.not_false, Bool.true_and, Bool.and_true, Bool.true_or,
    Bool.false_and, Bool.false_eq_true, if_false]
  split <;> simp [deny]

theorem planStatement_ne_allow {conn : ConnectionRuntime} {sa : SqlAnalysis} {ctx : GuardContext}
    (hselect : conn.evaluates .tableSelect = true)
    (hkind : classifyOperation sa (sa.statements ctx.dialect ctx.sql) ctx.sql = .tableSelect)
    {tree : Query TableRef}
    (hextract : sa.extractResources ctx.dialect (ctx.schema.getD .empty) ctx.sql =
      .ok (extractResources lower q tree)) (hne : (extractResources lower q tree).resources ≠ []) :
    conn.planStatement sa ctx ≠ .error .allow := by
  have hany := ConnectionRuntime.evaluatesAnything_of_evaluates hselect
  have hplan := planExtracted_ne_allow hselect hne
  unfold ConnectionRuntime.planStatement
  simp only [hany, hextract, hkind, Bool.not_true, Bool.false_eq_true, if_false]
  split
  · simp [deny]
  · split
    · simp [deny]
    · exact hplan

variable (cmp : Comparison lower) (tree : Query TableRef)

/-- Every base table is submitted to the policy, is replaced by a restricted scan when a policy
concerns it, and keeps the guard from allowing the statement unasked. -/
structure Covered : Prop where
  extracted : ∀ q, ∀ t ∈ baseTables cmp tree,
    resourceOf lower q (qualifiedTable lower q t) ∈ (extractResources lower q tree).resources
  replaced : ∀ schema parseError policies out,
    rewriteTableScans lower schema parseError policies tree = .ok out →
    List.Forall₂ (fun (ref : TableRef × Bool) scan =>
        ref.2 = false → ref.1.name ≠ "" → (∃ p ∈ policies, Concerns lower p ref.1) →
        ∃ p ∈ policies, Concerns lower p ref.1 ∧ RestrictedBy lower p ref.1 scan)
      (tree.resolve TableRef.bareName cmp.same []) out.tables
  asked : baseTables cmp tree ≠ [] → ∀ (conn : ConnectionRuntime) (sa : SqlAnalysis)
    (ctx : GuardContext) (q : Option (Qualification lower)),
    conn.evaluates .tableSelect = true →
    classifyOperation sa (sa.statements ctx.dialect ctx.sql) ctx.sql = .tableSelect →
    sa.extractResources ctx.dialect (ctx.schema.getD .empty) ctx.sql =
      .ok (extractResources lower q tree) →
    conn.planStatement sa ctx ≠ .error .allow

/-- No base table is named like a stage, or referred to without catalog and schema by a name that
some WITH clause of the statement gives away. -/
def NoneHidden : Prop :=
  ∀ t ∈ baseTables cmp tree,
    isStage t.name = false ∧ (t.isBare = true → lower t.name ∉ cteNames lower tree)

variable {cmp tree}

theorem NoneHidden.takenForCte_eq_false (h : NoneHidden cmp tree) (ht : t ∈ baseTables cmp tree) :
    takenForCte lower (cteNames lower tree) t = false := by
  rw [takenForCte, Bool.and_eq_false_imp]
  intro hbare
  simpa using (h t ht).2 hbare

theorem isReported_iff (hname : t.name ≠ "") : isReported lower (cteNames lower tree) t = true ↔
      isStage t.name = false ∧ (t.isBare = true → lower t.name ∉ cteNames lower tree) := by
  cases hbare : t.isBare <;> simp [isReported, takenForCte, hname, hbare]

theorem isReported_congr {t' : TableRef} (h : resourceOf lower none t = resourceOf lower none t')
    (ctes : List String) : isReported lower ctes t = isReported lower ctes t' := by
  have hcatalog : t.catalog = t'.catalog := orNone_injective (congrArg ExtractedResource.catalog h)
  have hdb : t.db = t'.db := orNone_injective (congrArg ExtractedResource.schema h)
  have hname : t.name = t'.name := congrArg ExtractedResource.table h
  simp only [isReported, takenForCte, TableRef.isBare, hcatalog, hdb, hname]

theorem NoneHidden.extracted (h : NoneHidden cmp tree) (q : Option (Qualification lower))
    (ht : t ∈ baseTables cmp tree) :
    resourceOf lower q (qualifiedTable lower q t) ∈ (extractResources lower q tree).resources := by
  obtain ⟨hbase, hname⟩ := mem_filter.1 ht
  exact mem_extractResources_iff.2 ⟨t, Query.mem_tables_of_mem_baseTables hbase,
    (isReported_iff (by simpa using hname)).2 (h t ht), rfl⟩

theorem forall₂_of_map_left {α β γ : Type} {R : β → γ → Prop} {S : α → γ → Prop} {f : α → β}
    {l : List α} {l' : List γ} (h : List.Forall₂ R (l.map f) l')
    (himp : ∀ a ∈ l, ∀ c, R (f a) c → S a c) : List.Forall₂ S l l' := by
  induction l generalizing l' with
  | nil =>
    cases h
    exact .nil
  | cons a _ ih =>
    cases h with
    | cons hhead htail =>
      exact .cons (himp a (by simp) _ hhead) (ih htail fun b hb => himp b (by simp [hb]))

theorem NoneHidden.replaced (h : NoneHidden cmp tree) {schema : List (String × List String)}
    {parseError : String → Option String} {out : Query Scan}
    (hout : rewriteTableScans lower schema parseError policies tree = .ok out) :
    List.Forall₂ (fun (ref : TableRef × Bool) scan =>
        ref.2 = false → ref.1.name ≠ "" → (∃ p ∈ policies, Concerns lower p ref.1) →
        ∃ p ∈ policies, Concerns lower p ref.1 ∧ RestrictedBy lower p ref.1 scan)
      (tree.resolve TableRef.bareName cmp.same []) out.tables := by
  have hscans := rewriteQuery_tables hout
  rw [← tree.resolve_tables []] at hscans
  refine forall₂_of_map_left hscans ?_
  rintro ⟨t, isCte⟩ hmem scan ⟨clauses, n, hscan⟩ hbase hname hconcerned
  have ht : t ∈ baseTables cmp tree := by
    refine mem_filter.2 ⟨mem_map.2 ⟨_, mem_filter.2 ⟨hmem, ?_⟩, rfl⟩, ?_⟩
    · exact congrArg (!·) hbase
    · simpa using hname
  exact restrictedBy_of_rewriteScan hscan hname (h.takenForCte_eq_false ht) hconcerned

/-- All base tables are submitted, rewritten and kept from the branch for statements without tables,
exactly when none of them has the name of a CTE or a stage. -/
theorem covered_iff (cmp : Comparison lower) (tree : Query TableRef) :
    Covered cmp tree ↔ NoneHidden cmp tree := by
  constructor
  · intro h t ht
    obtain ⟨t', -, hreported, hsame⟩ := mem_extractResources_iff.1 (h.extracted none t ht)
    obtain ⟨-, hname⟩ := mem_filter.1 ht
    have hcongr : isReported lower (cteNames lower tree) t' = _ := isReported_congr hsame _
    rw [hcongr] at hreported
    exact (isReported_iff (by simpa using hname)).1 hreported
  · intro h
    refine ⟨fun q t ht => h.extracted q ht, fun _ _ _ _ hout => h.replaced hout, ?_⟩
    intro hbase conn sa ctx q hselect hkind hextract
    obtain ⟨t, ht⟩ := exists_mem_of_ne_nil _ hbase
    exact planStatement_ne_allow hselect hkind hextract (ne_nil_of_mem (h.extracted q ht))

end

def asciiLower (s : String) : String := String.ofList (toAsciiLowercase s.toList)

def exactNames : Comparison asciiLower where
  same := fun a b => a == b
  lower_eq := fun h => by rw [eq_of_beq h]
  eq_empty := fun h => eq_of_beq h

def ordersRef : TableRef := ⟨"", "", "orders", ""⟩

def shadowingSql : String :=
  "SELECT * FROM orders WHERE id IN (WITH orders AS (SELECT 1 AS id) SELECT id FROM orders)"

def shadowingTree : Query TableRef :=
  .select ⟨[.star], [⟨"", "id"⟩]⟩ (.table ordersRef (.subquery
    (.withCtes false (.cons "orders" (.select ⟨[.expression], []⟩ .nil) .nil)
      (.select ⟨[.expression], [⟨"", "id"⟩]⟩ (.table ordersRef .nil))) .nil))

def shadowingAnalysis : SqlAnalysis :=
  { ordersSql with
    extractResources := fun _ _ _ => .ok (extractResources asciiLower none shadowingTree) }

/-- The statement reads `orders`, but the table is not found in it, a filter on the table is not
put in, and the guard allows the statement without asking. -/
theorem shadowed_table_unchecked :
    ordersRef ∈ baseTables exactNames shadowingTree ∧
      (extractResources asciiLower none shadowingTree).resources = [] ∧
      (rewriteTableScans asciiLower [] (fun _ => none) [⟨"orders", ["region = 'eu'"], []⟩]
        shadowingTree).toOption.map (·.tables) = some [.table ordersRef, .table ordersRef] ∧
      ∀ ctx : GuardContext, ctx.sql = shadowingSql →
        readGuard.check shadowingAnalysis ctx = .done .allow := by
  refine ⟨by decide +kernel, by decide +kernel, by decide +kernel, fun ctx hsql => ?_⟩
  have hsplit : explainSplit ctx.sql = .notExplain := by
    rw [hsql]
    decide +kernel
  have hshown : runsSqlItDoesNotShow ctx.sql (selectOnly.evaluates ⟨"procedure.call"⟩) = none := by
    rw [hsql]
    decide +kernel
  have hplan : selectOnly.planStatement shadowingAnalysis ctx = .error .allow := by
    have hany : selectOnly.evaluatesAnything = true := by decide +kernel
    rw [ConnectionRuntime.planStatement, hshown, hany]
    rfl
  have hcheck : readGuard.check shadowingAnalysis ctx =
      selectOnly.checkStatement "opa" shadowingAnalysis ctx :=
    OpaAccessGuard.check_of_notExplain _ rfl rfl hsplit
  rw [hcheck, ConnectionRuntime.checkStatement, hplan]

end QueryFlux.Access
