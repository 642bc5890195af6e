import QueryFlux.Access.BaseTables

/-!
# Statements that read on the way to writing

A query is not the only statement that reads tables: so do `INSERT … SELECT`, `CREATE TABLE … AS`,
`SELECT … INTO`, and an `UPDATE`, `DELETE` or `MERGE` with further tables or with subqueries. The
extraction reports the objects such a statement writes separately from the tables it reads, and the
rewrite leaves them alone: every scan is rewritten as in a query, the targets stay
(`rewriteStatement_tables`, `rewriteStatement_writeTargets`).
-/

namespace QueryFlux.Access

open Core Sql Lib List

/-! ## Statements -/

/-- A statement that is not a query. Every table it names besides its targets is read: those that
stand in no SELECT, such as the tables an `UPDATE` joins, and those of the queries in it. -/
structure Command (τ : Type) where
  targets : List (TableRef × ResourceKind)
  -- the columns of the target that the statement names
  written : Columns
  embedsReads : Bool
  replaces : Bool
  writeOperation : Option String
  ctes : Ctes τ
  sources : Sources τ
  -- the columns of all clauses, in nested SELECTs or not
  columns : List ColumnRef

inductive Statement (τ : Type)
  | query (q : Query τ)
  | selectInto (target : TableRef) (ctes : Ctes τ) (clauses : SelectClauses) (sources : Sources τ)
  | command (c : Command τ)

namespace Statement

variable {τ : Type}

/-- The tables the statement reads. -/
def tables : Statement τ → List τ
  | .query q => q.tables
  | .selectInto _ ctes _ sources => ctes.tables ++ sources.tables
  | .command c => c.ctes.tables ++ c.sources.tables

def cteNames : Statement τ → List String
  | .query q => q.cteNames
  | .selectInto _ ctes _ sources => ctes.names ++ (ctes.cteNames ++ sources.cteNames)
  | .command c => c.ctes.names ++ (c.ctes.cteNames ++ c.sources.cteNames)

def writeTargets : Statement τ → List (TableRef × ResourceKind)
  | .query _ => []
  | .selectInto target _ _ _ => [(target, .table)]
  | .command c => c.targets

def writtenColumns : Statement τ → Columns
  | .query _ | .selectInto .. => .all
  | .command c => c.written

def embedsReads : Statement τ → Bool
  | .query _ | .selectInto .. => true
  | .command c => c.embedsReads

def replaces : Statement τ → Bool
  | .query _ | .selectInto .. => false
  | .command c => c.replaces

def writeOperation : Statement τ → Option String
  | .query _ => none
  | .selectInto .. => some "table.create"
  | .command c => c.writeOperation

end Statement

/-! ## Extraction -/

/-- A schema has no table part, a catalog only its own name; their columns are not reported. -/
def targetEntry (t : TableRef) (kind : ResourceKind) (written : Columns) : ExtractedResource :=
  -- the parts that are given, innermost first
  let parts := [t.name, t.db, t.catalog].filter (· ≠ "")
  match kind with
  | .schema => ⟨parts[1]?, parts[0]?, kind, "", .all, true, none⟩
  | .catalog => ⟨parts[0]?, none, kind, "", .all, true, none⟩
  | _ => ⟨parts[2]?, parts[1]?, kind, (parts[0]?).getD "", written, true, none⟩

theorem targetEntry_isWriteTarget (t : TableRef) (kind : ResourceKind) (written : Columns) :
    (targetEntry t kind written).isWriteTarget = true := by
  cases kind <;> rfl

section
variable (lower : String → String)

def statementCtes (s : Statement TableRef) : List String :=
  (s.cteNames.filter (· ≠ "")).map lower

/-- What the guard learns about a statement without writes nested in its queries. -/
def extractStatement (q : Option (Qualification lower)) (s : Statement TableRef) :
    ExtractedStatement where
  resources := readsAmong lower q (statementCtes lower s) s.tables ++
    s.writeTargets.map fun (t, kind) => targetEntry (qualifiedTable lower q t) kind s.writtenColumns
  embedsReads := s.embedsReads
  replaces := s.replaces
  writeOperation := s.writeOperation
  grant := none
  nestedWrites := false

variable {lower}

theorem extractStatement_query (q : Option (Qualification lower)) (tree : Query TableRef) :
    extractStatement lower q (.query tree) = extractResources lower q tree := by
  simp only [extractStatement, Statement.writeTargets, map_nil, append_nil]
  rfl

/-- The guard takes for reads exactly the reported tables. -/
theorem reads_extractStatement (q : Option (Qualification lower)) (s : Statement TableRef) :
    (extractStatement lower q s).resources.filter (!·.isWriteTarget) =
      readsAmong lower q (statementCtes lower s) s.tables := by
  have hreads : (readsAmong lower q (statementCtes lower s) s.tables).filter (!·.isWriteTarget) =
      readsAmong lower q (statementCtes lower s) s.tables := by
    refine filter_eq_self.2 fun r hr => ?_
    obtain ⟨t, -, -, rfl⟩ := mem_readsAmong_iff.1 hr
    rfl
  have htargets : (s.writeTargets.map fun (t, kind) =>
      targetEntry (qualifiedTable lower q t) kind s.writtenColumns).filter
        (!·.isWriteTarget) = [] := by
    refine filter_eq_nil_iff.2 fun r hr => ?_
    obtain ⟨⟨t, kind⟩, -, rfl⟩ := mem_map.1 hr
    simp [targetEntry_isWriteTarget]
  rw [extractStatement, filter_append, hreads, htargets, append_nil]

end

/-! ## Rewriting -/

section
variable (lower : String → String) (schema : List (String × List String))
  (parseError : String → Option String) (policies : List TablePolicy)
  -- the columns of the filters and masks that are in the statement by the time its scan at a
  -- position outside every SELECT is reached
  (inserted : Nat → List ColumnRef) (ctes : List String)

/-- Scans in no SELECT: their columns are looked for in the whole statement, and an unqualified
column is nobody's. -/
def rewriteOwn (columns : List ColumnRef) (position : Nat) :
    Sources TableRef → Except String (Sources Scan)
  | .nil => .ok .nil
  | .table t rest =>
    (rewriteScan lower schema parseError policies ctes ⟨[], columns ++ inserted position⟩ 0 t).bind
      fun scan => (rewriteOwn columns (position + 1) rest).map (.table scan)
  | .subquery q rest =>
    (rewriteQuery lower schema parseError policies ctes q).bind fun q' =>
      (rewriteOwn columns position rest).map (.subquery q')

def rewriteIn : Statement TableRef → Except String (Statement Scan)
  | .query q => (rewriteQuery lower schema parseError policies ctes q).map .query
  | .selectInto target defs clauses sources =>
    -- the target counts among the tables of its SELECT
    let openScans := (if isScanSite lower ctes target then 1 else 0) + countOpen lower ctes sources
    (rewriteCtes lower schema parseError policies ctes defs).bind fun defs' =>
      (rewriteSources lower schema parseError policies ctes clauses openScans sources).map
        (.selectInto target defs' clauses)
  | .command c =>
    (rewriteCtes lower schema parseError policies ctes c.ctes).bind fun defs =>
      (rewriteOwn lower schema parseError policies inserted ctes c.columns 0 c.sources).map
        fun sources => .command { c with ctes := defs, sources := sources }

def rewriteStatement (s : Statement TableRef) : Except String (Statement Scan) :=
  rewriteIn lower schema parseError policies inserted (statementCtes lower s) s

end

section
variable {lower : String → String} {schema : List (String × List String)}
  {parseError : String → Option String} {policies : List TablePolicy}
  {inserted : Nat → List ColumnRef} {ctes : List String}

theorem rewriteOwn_tables : ∀ {sources : Sources TableRef} {columns : List ColumnRef}
    {position : Nat} {out : Sources Scan},
    rewriteOwn lower schema parseError policies inserted ctes columns position sources = .ok out →
    Forall₂ (RewrittenTo lower schema parseError policies ctes) sources.tables out.tables
  | .nil, columns, position, out, h => by
    cases h
    exact .nil
  | .table t rest, columns, position, out, h => by
    obtain ⟨scan, hscan, h⟩ := exists_of_bind_eq_ok h
    obtain ⟨rest', hrest, rfl⟩ := exists_of_map_eq_ok h
    exact .cons ⟨_, 0, hscan⟩ (rewriteOwn_tables hrest)
  | .subquery q rest, columns, position, out, h => by
    obtain ⟨q', hq, h⟩ := exists_of_bind_eq_ok h
    obtain ⟨rest', hrest, rfl⟩ := exists_of_map_eq_ok h
    exact rel_append (rewriteQuery_tables hq) (rewriteOwn_tables hrest)

theorem rewriteStatement_tables {s : Statement TableRef} {out : Statement Scan}
    (h : rewriteStatement lower schema parseError policies inserted s = .ok out) :
    Forall₂ (RewrittenTo lower schema parseError policies (statementCtes lower s))
      s.tables out.tables := by
  unfold rewriteStatement at h
  cases s with
  | query q =>
    obtain ⟨q', hq, rfl⟩ := exists_of_map_eq_ok h
    exact rewriteQuery_tables hq
  | selectInto target defs clauses sources =>
    obtain ⟨defs', hdefs, h⟩ := exists_of_bind_eq_ok h
    obtain ⟨sources', hsources, rfl⟩ := exists_of_map_eq_ok h
    exact rel_append (rewriteCtes_tables hdefs) (rewriteSources_tables hsources)
  | command c =>
    obtain ⟨defs, hdefs, h⟩ := exists_of_bind_eq_ok h
    obtain ⟨sources, hsources, rfl⟩ := exists_of_map_eq_ok h
    exact rel_append (rewriteCtes_tables hdefs) (rewriteOwn_tables hsources)

theorem rewriteStatement_writeTargets {s : Statement TableRef} {out : Statement Scan}
    (h : rewriteStatement lower schema parseError policies inserted s = .ok out) :
    out.writeTargets = s.writeTargets := by
  unfold rewriteStatement at h
  cases s with
  | query q =>
    obtain ⟨q', -, rfl⟩ := exists_of_map_eq_ok h
    rfl
  | selectInto target defs clauses sources =>
    obtain ⟨defs', -, h⟩ := exists_of_bind_eq_ok h
    obtain ⟨sources', -, rfl⟩ := exists_of_map_eq_ok h
    rfl
  | command c =>
    obtain ⟨defs, -, h⟩ := exists_of_bind_eq_ok h
    obtain ⟨sources, -, rfl⟩ := exists_of_map_eq_ok h
    rfl

end

end QueryFlux.Access
