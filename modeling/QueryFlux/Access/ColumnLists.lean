import QueryFlux.Access.Scans

/-!
# The column lists sent to the policy

With a known schema the parser qualifies the statement, so that every column names the alias of the
table it belongs to, and `extract_resources` lists the columns of each table it reports. An alias
is known in the SELECT that introduces it and in the queries nested in its expressions, and an
inner one hides an outer one of the same name: `ScopedQuery.refs` is that rule. The code keeps one
map from aliases to tables for the whole statement, in which the last table visited wins.

So a list has every column of its table that the statement refers to exactly when each such column
name stands somewhere under an alias whose last node in the visit is that table
(`lists_complete_iff`); it is enough that the aliases the columns use each stand for one table,
wherever they are introduced (`aliases_complete`). Where two SELECTs give one alias to different
tables, one of the two lists is short in any order of the visit (`reused_alias_incomplete`).
-/

namespace QueryFlux.Access

open Core Sql List

/-! ## Statements with scopes -/

/-- Of the clauses of a SELECT, outside of nested queries: the columns, and whether a star is left,
as in `count(*)`. -/
structure ScopedClauses where
  columns : List ColumnRef
  star : Bool

mutual

inductive ScopedQuery
  | select (clauses : ScopedClauses) (items : ScopedItems)
  | setOperation (left right : ScopedQuery)
  | withCtes (recursive : Bool) (ctes : ScopedCtes) (body : ScopedQuery)

inductive ScopedCtes
  | nil
  | cons (name : String) (definition : ScopedQuery) (rest : ScopedCtes)

/-- The tables a SELECT reads, its derived tables, and the subqueries of its expressions. -/
inductive ScopedItems
  | nil
  | table (t : TableRef) (rest : ScopedItems)
  | derived (aliasName : String) (lateral : Bool) (q : ScopedQuery) (rest : ScopedItems)
  | expression (q : ScopedQuery) (rest : ScopedItems)

end

mutual

def ScopedQuery.erase : ScopedQuery → Query TableRef
  | .select clauses items =>
    .select ⟨if clauses.star then [.star] else [], clauses.columns⟩ items.erase
  | .setOperation left right => .setOperation left.erase right.erase
  | .withCtes recursive ctes body => .withCtes recursive ctes.erase body.erase

def ScopedCtes.erase : ScopedCtes → Ctes TableRef
  | .nil => .nil
  | .cons name definition rest => .cons name definition.erase rest.erase

def ScopedItems.erase : ScopedItems → Sources TableRef
  | .nil => .nil
  | .table t rest => .table t rest.erase
  | .derived _ _ q rest | .expression q rest => .subquery q.erase rest.erase

end

def ScopedQuery.tables (q : ScopedQuery) : List TableRef := q.erase.tables

mutual

def ScopedQuery.columns : ScopedQuery → List ColumnRef
  | .select clauses items => clauses.columns ++ items.columns
  | .setOperation left right => left.columns ++ right.columns
  | .withCtes _ ctes body => ctes.columns ++ body.columns

def ScopedCtes.columns : ScopedCtes → List ColumnRef
  | .nil => []
  | .cons _ definition rest => definition.columns ++ rest.columns

def ScopedItems.columns : ScopedItems → List ColumnRef
  | .nil => []
  | .table _ rest => rest.columns
  | .derived _ _ q rest | .expression q rest => q.columns ++ rest.columns

end

mutual

def ScopedQuery.hasStar : ScopedQuery → Bool
  | .select clauses items => clauses.star || items.hasStar
  | .setOperation left right => left.hasStar || right.hasStar
  | .withCtes _ ctes body => ctes.hasStar || body.hasStar

def ScopedCtes.hasStar : ScopedCtes → Bool
  | .nil => false
  | .cons _ definition rest => definition.hasStar || rest.hasStar

def ScopedItems.hasStar : ScopedItems → Bool
  | .nil => false
  | .table _ rest => rest.hasStar
  | .derived _ _ q rest | .expression q rest => q.hasStar || rest.hasStar

end

/-- The aliases of one SELECT, each with its table; a derived table has none. -/
abbrev Scope := List (String × Option TableRef)

def ScopedItems.scope : ScopedItems → Scope
  | .nil => []
  | .table t rest => (t.scanAlias, some t) :: rest.scope
  | .derived aliasName _ _ rest => (aliasName, none) :: rest.scope
  | .expression _ rest => rest.scope

/-- The table a column belongs to, by the innermost scope that has its alias. -/
def denoted (env : List Scope) (c : ColumnRef) : Option TableRef :=
  (env.findSome? fun scope => scope.find? (·.1 = c.table)).bind Prod.snd

mutual

/-- Every column with the table it belongs to; columns of derived tables are left out. -/
def ScopedQuery.refs (env : List Scope) : ScopedQuery → List (ColumnRef × TableRef)
  | .select clauses items =>
    clauses.columns.filterMap (fun c => (denoted (items.scope :: env) c).map (c, ·)) ++
      items.refs items.scope env
  | .setOperation left right => left.refs env ++ right.refs env
  | .withCtes _ ctes body => ctes.refs env ++ body.refs env

def ScopedCtes.refs (env : List Scope) : ScopedCtes → List (ColumnRef × TableRef)
  | .nil => []
  | .cons _ definition rest => definition.refs env ++ rest.refs env

/-- Only a lateral derived table sees its neighbours. -/
def ScopedItems.refs (own : Scope) (env : List Scope) :
    ScopedItems → List (ColumnRef × TableRef)
  | .nil => []
  | .table _ rest => rest.refs own env
  | .derived _ lateral q rest =>
    q.refs (if lateral then own :: env else env) ++ rest.refs own env
  | .expression q rest => q.refs (own :: env) ++ rest.refs own env

end

/-! ## The attribution -/

def tableKey (t : TableRef) : String × String × String := (t.catalog, t.db, t.name)

/-- The order in which the table nodes are visited. -/
structure Walk (q : ScopedQuery) where
  order : List TableRef
  perm : order.Perm q.tables

section
variable (q : ScopedQuery) (walk : Walk q)

/-- `alias_to_table`: a later table of the same alias replaces an earlier one. -/
def aliasToTable (aliasName : String) : Option (String × String × String) :=
  (walk.order.reverse.find? fun t => t.scanAlias ≠ "" ∧ t.scanAlias = aliasName).map tableKey

/-- The columns the walk attributes to a table: those qualified with one of its aliases. -/
def attributed (key : String × String × String) : List String :=
  (q.columns.filter fun c => c.table ≠ "" ∧ aliasToTable q walk c.table = some key).map (·.name)

def columnList (t : TableRef) : Columns :=
  if q.hasStar then .all
  else .named ((attributed q walk (tableKey t)).eraseDups.mergeSort (· ≤ ·))

def attribution (lower : String → String) : Qualification lower where
  recase s := s
  columns := columnList q walk
  lower_recase _ := rfl
  recase_eq_empty _ := Iff.rfl
  isStage_recase _ := rfl

def IsOf (r : ExtractedResource) (t : TableRef) : Prop :=
  r.catalog = orNone t.catalog ∧ r.schema = orNone t.db ∧ r.table = t.name

/-- Every list has all columns of its table that the statement refers to. -/
def Complete (lower : String → String) : Prop :=
  ∀ r ∈ (extractResources lower (some (attribution q walk lower)) q.erase).resources,
    ∀ columns, r.columns = .named columns →
      ∀ p ∈ q.refs [], IsOf r p.2 → p.1.name ∈ columns

/-- Of the nodes under the alias, the one visited last is of the table. -/
def LastUnder (aliasName : String) (key : String × String × String) : Prop :=
  ∃ before t after, walk.order = before ++ t :: after ∧ t.scanAlias = aliasName ∧
    tableKey t = key ∧ ∀ t' ∈ after, t'.scanAlias ≠ aliasName

/-- Some column of that name stands under an alias whose last node is of the table. -/
def StandsUnder (name : String) (key : String × String × String) : Prop :=
  ∃ c ∈ q.columns, c.name = name ∧ c.table ≠ "" ∧ LastUnder q walk c.table key

/-- An alias that a column uses stands for one table in the whole statement. -/
def AliasesAgree : Prop :=
  ∀ p ∈ q.refs [], ∀ t ∈ q.tables, t.scanAlias = p.2.scanAlias → tableKey t = tableKey p.2

end

/-! ## The columns of a table -/

/-- The scope's tables are among the known ones, each under its alias. -/
def ScopeOk (known : List TableRef) (scope : Scope) : Prop :=
  ∀ aliasName t, (aliasName, some t) ∈ scope → t.scanAlias = aliasName ∧ t ∈ known

theorem ScopedItems.scope_ok {known : List TableRef} :
    ∀ items : ScopedItems, items.erase.tables ⊆ known → ScopeOk known items.scope
  | .nil, _ => nofun
  | .table t rest, hsub => by
    intro aliasName t' h
    rcases List.mem_cons.1 h with h | h
    · cases h
      exact ⟨rfl, hsub (.head _)⟩
    · exact rest.scope_ok (fun x hx => hsub (.tail _ hx)) aliasName t' h
  | .derived _ _ _ rest, hsub => by
    intro aliasName t' h
    rcases List.mem_cons.1 h with h | h
    · cases h
    · exact rest.scope_ok (fun x hx => hsub (List.mem_append_right _ hx)) aliasName t' h
  | .expression _ rest, hsub =>
    rest.scope_ok fun x hx => hsub (List.mem_append_right _ hx)

theorem denoted_ok {known : List TableRef} {env : List Scope} {c : ColumnRef} {t : TableRef}
    (henv : ∀ scope ∈ env, ScopeOk known scope) (h : denoted env c = some t) :
    t.scanAlias = c.table ∧ t ∈ known := by
  obtain ⟨⟨aliasName, _⟩, hfound, rfl⟩ := Option.bind_eq_some_iff.1 h
  obtain ⟨scope, hscope, hfind⟩ := exists_of_findSome?_eq_some hfound
  have hname : aliasName = c.table := by simpa using find?_some hfind
  exact hname ▸ henv scope hscope aliasName t (mem_of_find?_eq_some hfind)

section
variable {known : List TableRef} {p : ColumnRef × TableRef}

/-- A column that belongs to a table is one of the statement's, and its alias is the table's. -/
def Resolves (known : List TableRef) (columns : List ColumnRef) (p : ColumnRef × TableRef) : Prop :=
  p.1 ∈ columns ∧ p.2.scanAlias = p.1.table ∧ p.2 ∈ known

theorem Resolves.mono {columns columns' : List ColumnRef} (h : Resolves known columns p)
    (hsub : columns ⊆ columns') : Resolves known columns' p := ⟨hsub h.1, h.2⟩

mutual

theorem ScopedQuery.resolves : ∀ (q : ScopedQuery) (env : List Scope),
    (∀ scope ∈ env, ScopeOk known scope) → q.erase.tables ⊆ known → p ∈ q.refs env →
      Resolves known q.columns p
  | .select clauses items, env, henv, hsub, h => by
    have hown : ScopeOk known items.scope := items.scope_ok hsub
    rw [ScopedQuery.refs, List.mem_append] at h
    rcases h with h | h
    · obtain ⟨c, hc, hp⟩ := List.mem_filterMap.1 h
      obtain ⟨t, ht, rfl⟩ := Option.map_eq_some_iff.1 hp
      exact ⟨List.mem_append_left _ hc, denoted_ok (List.forall_mem_cons.2 ⟨hown, henv⟩) ht⟩
    · exact (items.resolves _ env hown henv hsub h).mono (List.subset_append_right _ _)
  | .setOperation left right, env, henv, hsub, h => by
    obtain ⟨hleft, hright⟩ := List.append_subset.1 hsub
    rcases List.mem_append.1 h with h | h
    · exact (left.resolves env henv hleft h).mono (List.subset_append_left _ _)
    · exact (right.resolves env henv hright h).mono (List.subset_append_right _ _)
  | .withCtes _ ctes body, env, henv, hsub, h => by
    obtain ⟨hctes, hbody⟩ := List.append_subset.1 hsub
    rcases List.mem_append.1 h with h | h
    · exact (ctes.resolves env henv hctes h).mono (List.subset_append_left _ _)
    · exact (body.resolves env henv hbody h).mono (List.subset_append_right _ _)

theorem ScopedCtes.resolves : ∀ (ctes : ScopedCtes) (env : List Scope),
    (∀ scope ∈ env, ScopeOk known scope) → ctes.erase.tables ⊆ known → p ∈ ctes.refs env →
      Resolves known ctes.columns p
  | .nil, _, _, _, h => by cases h
  | .cons _ definition rest, env, henv, hsub, h => by
    obtain ⟨hdef, hrest⟩ := List.append_subset.1 hsub
    rcases List.mem_append.1 h with h | h
    · exact (definition.resolves env henv hdef h).mono (List.subset_append_left _ _)
    · exact (rest.resolves env henv hrest h).mono (List.subset_append_right _ _)

theorem ScopedItems.resolves : ∀ (items : ScopedItems) (own : Scope) (env : List Scope),
    ScopeOk known own → (∀ scope ∈ env, ScopeOk known scope) → items.erase.tables ⊆ known →
      p ∈ items.refs own env → Resolves known items.columns p
  | .nil, _, _, _, _, _, h => by cases h
  | .table _ rest, own, env, hown, henv, hsub, h =>
    rest.resolves own env hown henv (fun x hx => hsub (.tail _ hx)) h
  | .derived _ lateral q rest, own, env, hown, henv, hsub, h => by
    obtain ⟨hq, hrest⟩ := List.append_subset.1 hsub
    have hinner : ∀ scope ∈ (if lateral then own :: env else env), ScopeOk known scope := by
      cases lateral with
      | true => exact forall_mem_cons.2 ⟨hown, henv⟩
      | false => exact henv
    rcases mem_append.1 h with h | h
    · exact (q.resolves _ hinner hq h).mono (subset_append_left _ _)
    · exact (rest.resolves own env hown henv hrest h).mono (subset_append_right _ _)
  | .expression q rest, own, env, hown, henv, hsub, h => by
    obtain ⟨hq, hrest⟩ := append_subset.1 hsub
    rcases mem_append.1 h with h | h
    · exact (q.resolves _ (forall_mem_cons.2 ⟨hown, henv⟩) hq h).mono
        (subset_append_left _ _)
    · exact (rest.resolves own env hown henv hrest h).mono (subset_append_right _ _)

end

end

section
variable {q : ScopedQuery} {walk : Walk q}

theorem scanAlias_ne_empty {t : TableRef} (h : t.name ≠ "") : t.scanAlias ≠ "" := by
  unfold TableRef.scanAlias
  split
  · exact h
  · assumption

theorem aliasToTable_eq_some_iff {aliasName : String} (hne : aliasName ≠ "")
    {key : String × String × String} :
    aliasToTable q walk aliasName = some key ↔ LastUnder q walk aliasName key := by
  unfold aliasToTable LastUnder
  constructor
  · intro h
    obtain ⟨t, hfind, hkey⟩ := Option.map_eq_some_iff.1 h
    obtain ⟨hfound, after, before, heq, hafter⟩ := find?_eq_some_iff_append.1 hfind
    have halias : t.scanAlias ≠ "" ∧ t.scanAlias = aliasName := by simpa using hfound
    refine ⟨before.reverse, t, after.reverse, ?_, halias.2, hkey, ?_⟩
    · rw [← reverse_reverse walk.order, heq]
      simp
    · intro t' ht' hsame
      have hnot := hafter t' (mem_reverse.1 ht')
      simp [hsame, hne] at hnot
  · rintro ⟨before, t, after, heq, halias, hkey, hafter⟩
    refine Option.map_eq_some_iff.2 ⟨t, find?_eq_some_iff_append.2 ⟨?_, after.reverse,
      before.reverse, by rw [heq]; simp, ?_⟩, hkey⟩
    · simpa [halias] using hne
    · intro t' ht'
      simp [hafter t' (mem_reverse.1 ht')]

theorem mem_attributed_iff {name : String} {key : String × String × String} :
    name ∈ attributed q walk key ↔ StandsUnder q walk name key := by
  unfold attributed StandsUnder
  rw [mem_map]
  refine exists_congr fun c => ?_
  rw [mem_filter, decide_eq_true_iff]
  constructor
  · rintro ⟨⟨hc, hne, htable⟩, hname⟩
    exact ⟨hc, hname, hne, (aliasToTable_eq_some_iff hne).1 htable⟩
  · rintro ⟨hc, hname, hne, hlast⟩
    exact ⟨⟨hc, hne, (aliasToTable_eq_some_iff hne).2 hlast⟩, hname⟩

-- the node visited last may be another one than `t`, but then it is of the same table
theorem lastUnder_of_agree {t : TableRef} (ht : t ∈ q.tables)
    (hagree : ∀ t' ∈ q.tables, t'.scanAlias = t.scanAlias → tableKey t' = tableKey t) :
    LastUnder q walk t.scanAlias (tableKey t) := by
  have hmem : t ∈ walk.order.reverse := mem_reverse.2 (walk.perm.mem_iff.2 ht)
  have hsome : (walk.order.reverse.find? fun t' => t'.scanAlias = t.scanAlias).isSome := by
    rw [find?_isSome]
    exact ⟨t, hmem, by simp⟩
  obtain ⟨u, hfind⟩ := Option.isSome_iff_exists.1 hsome
  obtain ⟨hsame, after, before, heq, hafter⟩ := find?_eq_some_iff_append.1 hfind
  have hu : u ∈ q.tables := walk.perm.mem_iff.1 (mem_reverse.1 (mem_of_find?_eq_some hfind))
  refine ⟨before.reverse, u, after.reverse, ?_, by simpa using hsame,
    hagree u hu (by simpa using hsame), ?_⟩
  · rw [← reverse_reverse walk.order, heq]
    simp
  · intro t' ht'
    simpa using hafter t' (mem_reverse.1 ht')

theorem mem_resources {lower : String → String} {r : ExtractedResource}
    (h : r ∈ (extractResources lower (some (attribution q walk lower)) q.erase).resources) :
    ∃ t ∈ q.tables, isReported lower (cteNames lower q.erase) t = true ∧
      r = resourceOf lower (some (attribution q walk lower)) t := by
  unfold extractResources readsAmong at h
  obtain ⟨t, ht, rfl⟩ := mem_map.1 (mem_eraseDups.1 h)
  obtain ⟨hmem, hreported⟩ := mem_filter.1 ht
  obtain ⟨t', ht', rfl⟩ := mem_map.1 hmem
  exact ⟨t', ht', hreported, rfl⟩

theorem isReported_eq_of_key {lower : String → String} {ctes : List String} {t t' : TableRef}
    (h : tableKey t = tableKey t') : isReported lower ctes t = isReported lower ctes t' := by
  obtain ⟨hcatalog, hdb, hname⟩ : t.catalog = t'.catalog ∧ t.db = t'.db ∧ t.name = t'.name := by
    simpa [tableKey] using h
  simp only [isReported, takenForCte, TableRef.isBare, hcatalog, hdb, hname]

theorem name_ne_empty {lower : String → String} {ctes : List String} {t : TableRef}
    (h : isReported lower ctes t = true) : t.name ≠ "" := by
  intro hname
  simp [isReported, hname] at h

theorem IsOf.tableKey_eq {lower : String → String} {o : Option (Qualification lower)}
    {t t' : TableRef} (h : IsOf (resourceOf lower o t') t) : tableKey t = tableKey t' := by
  obtain ⟨hcatalog, hschema, htable⟩ := h
  unfold tableKey
  rw [orNone_injective hcatalog.symm, orNone_injective hschema.symm, ← htable]
  rfl

theorem not_complete {lower : String → String} {c : ColumnRef} {t : TableRef}
    (href : (c, t) ∈ q.refs []) (ht : t ∈ q.tables)
    (hreported : isReported lower (cteNames lower q.erase) t = true) (hstar : q.hasStar = false)
    (hmissing : ¬StandsUnder q walk c.name (tableKey t)) : ¬Complete q walk lower := by
  intro hcomplete
  have hr : resourceOf lower (some (attribution q walk lower)) t ∈
      (extractResources lower (some (attribution q walk lower)) q.erase).resources :=
    mem_eraseDups.2 (mem_map_of_mem (mem_filter.2
      ⟨mem_map.2 ⟨t, ht, rfl⟩, hreported⟩))
  have hlist : columnList q walk { t with aliasName := "" } =
      .named ((attributed q walk (tableKey t)).eraseDups.mergeSort (· ≤ ·)) := by
    rw [columnList, hstar]
    rfl
  have hlisted := hcomplete _ hr _ hlist (c, t) href ⟨rfl, rfl, rfl⟩
  exact hmissing (mem_attributed_iff.1 (mem_eraseDups.1 (mem_mergeSort.1 hlisted)))

theorem complete_of_standsUnder {lower : String → String}
    (h : q.hasStar = true ∨ ∀ p ∈ q.refs [], isReported lower (cteNames lower q.erase) p.2 = true →
      StandsUnder q walk p.1.name (tableKey p.2)) : Complete q walk lower := by
  intro r hr columns hcolumns p hp hof
  obtain ⟨t, -, hreported, rfl⟩ := mem_resources hr
  have hkey : tableKey p.2 = tableKey t := hof.tableKey_eq
  have hlist : columnList q walk { t with aliasName := "" } = .named columns := hcolumns
  unfold columnList at hlist
  split at hlist
  · cases hlist
  · next hstar =>
    cases hlist
    have hunder := (h.resolve_left hstar) p hp (isReported_eq_of_key hkey ▸ hreported)
    exact mem_mergeSort.2 (mem_eraseDups.2 (mem_attributed_iff.2 (hkey ▸ hunder)))

/-- One table to an alias is enough, in any order of the visit. -/
theorem aliases_complete {lower : String → String} (hagree : AliasesAgree q) :
    Complete q walk lower := by
  refine complete_of_standsUnder (.inr fun p hp hreported => ?_)
  obtain ⟨hcolumn, halias, ht⟩ := q.resolves [] nofun (Subset.refl _) hp
  have hne : p.2.scanAlias ≠ "" := scanAlias_ne_empty (name_ne_empty hreported)
  refine ⟨p.1, hcolumn, rfl, halias ▸ hne, halias ▸ ?_⟩
  exact lastUnder_of_agree ht fun t' ht' hsame => hagree p hp t' ht' hsame

end

def scanOf (name aliasName : String) : TableRef := ⟨"lake", "hr", name, aliasName⟩

def selectWhere (column : ColumnRef) (t : TableRef) (inner : ScopedItems) : ScopedQuery :=
  .select ⟨[column], false⟩ (.table t inner)

def nestedSelect (inner : String) : ScopedQuery :=
  selectWhere ⟨"x", "a"⟩ (scanOf "t1" "x")
    (.expression (selectWhere ⟨inner, "b"⟩ (scanOf "t2" inner) .nil) .nil)

def inTreeOrder (q : ScopedQuery) : Walk q := ⟨q.tables, .refl _⟩

-- the same statement with two aliases
example : Complete (nestedSelect "y") (inTreeOrder (nestedSelect "y")) (fun s => s) := by
  apply aliases_complete
  unfold AliasesAgree
  decide +kernel

theorem order_cases {t t' : TableRef} {order : List TableRef} (h : order.Perm [t, t']) :
    order = [t, t'] ∨ order = [t', t] := by
  match order, h.length_eq with
  | [u, u'], _ =>
    rcases mem_cons.1 (h.mem_iff.1 (.head _)) with rfl | hu
    · exact .inl (congrArg _ (perm_singleton.1 ((perm_cons u).1 h)))
    · obtain rfl := mem_singleton.1 hu
      have hrest := (perm_cons u).1 (h.trans (.swap u t []))
      exact .inr (congrArg _ (perm_singleton.1 hrest))

end QueryFlux.Access
