import Mathlib.Data.List.DropRight
import QueryFlux.Access.Guard
import QueryFlux.Sql.Query

/-!
# The tables of a query: extraction and rewriting

What the guard learns about a SELECT statement, and how filters and masks get into it. Both walk
the parsed tree for its table references and leave out those whose name is the name of a common
table expression. Which names these are is collected once for the whole statement (`cteNames`),
not looked up in the scope of the reference.

`lower` is the parser's lower case; nothing depends on what it does to letters.
-/

namespace QueryFlux.Access

open Core Sql

/-! ## Table references -/

/-- A table node of the parsed tree. A part that is not given is empty; a table function has no
name. -/
structure TableRef where
  catalog : String
  db : String
  name : String
  aliasName : String
  deriving DecidableEq

namespace TableRef

variable (t : TableRef)

def isBare : Bool := t.catalog == "" && t.db == ""

def bareName : Option String := if t.isBare then some t.name else none

def qualified : String := if t.db = "" then t.name else t.db ++ "." ++ t.name

def scanAlias : String := if t.aliasName = "" then t.name else t.aliasName

end TableRef

def isStage (name : String) : Bool := name.toList.head? == some '@'

def afterLastDot (s : String) : String :=
  String.ofList (s.toList.rtakeWhile (· != '.'))

def orNone (s : String) : Option String := if s = "" then none else some s

theorem orNone_injective {s s' : String} (h : orNone s = orNone s') : s = s' := by
  unfold orNone at h
  split at h <;> split at h <;> simp_all

section
variable (lower : String → String)

def cteNames (tree : Query TableRef) : List String := (tree.cteNames.filter (· ≠ "")).map lower

/-- An unqualified reference whose name some CTE of the statement has, in scope or not. -/
def takenForCte (ctes : List String) (t : TableRef) : Bool :=
  t.isBare && ctes.contains (lower t.name)

/-! ## Extraction -/

/-- What qualifying the tree against a known schema adds: identifiers in the dialect's case, and
the columns of each table. -/
structure Qualification where
  recase : String → String
  columns : TableRef → Columns
  lower_recase : ∀ s, lower (recase s) = lower s
  recase_eq_empty : ∀ s, recase s = "" ↔ s = ""
  isStage_recase : ∀ s, isStage (recase s) = isStage s

variable {lower} in
def Qualification.table (q : Qualification lower) (t : TableRef) : TableRef :=
  ⟨q.recase t.catalog, q.recase t.db, q.recase t.name, t.aliasName⟩

def qualifiedTable (q : Option (Qualification lower)) (t : TableRef) : TableRef :=
  q.elim t (·.table t)

def isReported (ctes : List String) (t : TableRef) : Bool :=
  !(t.name == "" || isStage t.name) && !takenForCte lower ctes t

/-- The entry for a table the statement reads. -/
def resourceOf (q : Option (Qualification lower)) (t : TableRef) : ExtractedResource where
  catalog := orNone t.catalog
  schema := orNone t.db
  kind := .table
  table := t.name
  -- bare columns are not attributed without a schema
  columns := q.elim .all fun q => q.columns { t with aliasName := "" }
  isWriteTarget := false
  value := none

def readsAmong (q : Option (Qualification lower)) (ctes : List String) (tables : List TableRef) :
    List ExtractedResource :=
  (((tables.map (qualifiedTable lower q)).filter (isReported lower ctes)).map
    (resourceOf lower q)).eraseDups

def extractResources (q : Option (Qualification lower)) (tree : Query TableRef) :
    ExtractedStatement where
  resources := readsAmong lower q (cteNames lower tree) tree.tables
  embedsReads := true
  replaces := false
  writeOperation := none
  grant := none
  nestedWrites := false

/-! ## Policies -/

section
variable (policies : List TablePolicy)

-- later policies of one name replace earlier ones
def exactPolicy (key : String) : Option TablePolicy :=
  policies.reverse.find? (lower ·.table == key)

def qualifiedByBare (name : String) : List TablePolicy :=
  policies.filter fun p =>
    (lower p.table).toList.contains '.' && afterLastDot (lower p.table) == name

/-- By the qualified name, then by the bare one; a scan without a schema also takes the only policy
of its name in some schema. -/
def findPolicy (t : TableRef) : Except String (Option TablePolicy) :=
  let name := lower t.name
  if t.db ≠ "" then
    .ok (exactPolicy lower policies (lower t.qualified) <|> exactPolicy lower policies name)
  else
    match exactPolicy lower policies name with
    | some p => .ok (some p)
    | none =>
      match qualifiedByBare lower policies name with
      | [] => .ok none
      | [p] => .ok (some p)
      | candidates =>
        -- which schema the scan resolves to is not known
        .error ("ambiguous policy for unqualified table '" ++ t.name ++ "': " ++
          ", ".intercalate ((candidates.map (·.table)).mergeSort (· ≤ ·)))

end

/-- A star of the enclosing SELECT takes in this scan. -/
def starSelects (clauses : SelectClauses) (t : TableRef) : Bool :=
  clauses.projections.any fun
    | .star => true
    | .tableStar table =>
      lower table == "" || lower table == lower t.aliasName || lower table == lower t.name
    | .expression => false

def addName (names : List String) (name : String) : List String :=
  if name = "" ∨ names.any (lower · == lower name) then names else names ++ [name]

/-- The columns a masked scan has to select: those of the schema, or else the masked ones and those
the enclosing SELECT names. `sole` says that unqualified columns are this scan's. -/
def colListFor (schema : List (String × List String)) (clauses : SelectClauses) (sole : Bool)
    (p : TablePolicy) (t : TableRef) : Option (List String) :=
  let cand := [lower p.table, lower (afterLastDot p.table)]
  match schema.find? fun (tname, _) =>
      cand.contains (lower tname) || cand.contains (lower (afterLastDot tname)) with
  | some (_, cols) => some cols
  | none =>
    if starSelects lower clauses t then none
    else
      let masked := (p.maskedColumns.map (lower ·.1)).foldl (addName lower) []
      let isOwn (c : ColumnRef) : Bool :=
        c.name != "" && c.name != "*" &&
          (if lower c.table ≠ "" then
            lower c.table == lower t.scanAlias || cand.contains (lower c.table)
          else sole)
      let names := ((clauses.columns.filter isOwn).map (·.name)).foldl (addName lower) masked
      if names.isEmpty then none else some names

def maskFor (p : TablePolicy) (column : String) : Option String :=
  (p.maskedColumns.reverse.find? (lower ·.1 == lower column)).map Prod.snd

/-! ## Rewriting -/

inductive Scan
  | table (t : TableRef)
  -- the subquery that selects the columns, masked or as they are (all of them if none are given),
  -- of the rows of the table that pass the filters
  | restricted (t : TableRef) (scanAlias : String)
      (projection : Option (List (String × Option String))) (filters : List String)
  deriving DecidableEq

def nonBlank (filter : String) : Bool := filter.toList.any (!isWhitespace ·)

section
-- the columns of known tables, what the parser says about an expression it rejects, the names of
-- the common table expressions
variable (schema : List (String × List String)) (parseError : String → Option String)
  (policies : List TablePolicy) (ctes : List String)

def restrict (clauses : SelectClauses) (sole : Bool) (p : TablePolicy) (t : TableRef) :
    Except String Scan :=
  let filters := p.rowFilters.filter nonBlank
  let projection : Except String (Option (List (String × Option String))) :=
    if p.maskedColumns.isEmpty then .ok none
    else
      match colListFor lower schema clauses sole p t with
      | none | some [] =>
        .error ("cannot enumerate columns for masked table '" ++ p.table ++ "'")
      | some cols => .ok (some (cols.map fun c => (c, maskFor lower p c)))
  match projection with
  | .error e => .error e
  | .ok projection =>
    match ((projection.getD []).filterMap Prod.snd ++ filters).findSome? parseError with
    | some e => .error e
    | none => .ok (.restricted t t.scanAlias projection filters)

/-- A reference is replaced as soon as a policy is found for it. -/
def rewriteScan (clauses : SelectClauses) (openScans : Nat) (t : TableRef) :
    Except String Scan :=
  if t.name = "" ∨ takenForCte lower ctes t then .ok (.table t)
  else
    match findPolicy lower policies t with
    | .error e => .error e
    | .ok none => .ok (.table t)
    | .ok (some p) => restrict lower schema parseError clauses (openScans == 1) p t

def isScanSite (t : TableRef) : Bool := t.name != "" && !takenForCte lower ctes t

/-- The tables of a SELECT that are not yet replaced: columns without a table are a scan's own only
if it is the only one. -/
def countOpen : Sources TableRef → Nat
  | .nil => 0
  | .table t rest => (if isScanSite lower ctes t then 1 else 0) + countOpen rest
  | .subquery _ rest => countOpen rest

def stillOpen (openScans : Nat) : Scan → Nat
  | .table _ => openScans
  | .restricted .. => openScans - 1

mutual

/-- Scans are rewritten in tree order, each under the clauses of its own SELECT. -/
def rewriteQuery : Query TableRef → Except String (Query Scan)
  | .select clauses sources =>
    (rewriteSources clauses (countOpen lower ctes sources) sources).map (.select clauses)
  | .setOperation left right =>
    (rewriteQuery left).bind fun left' => (rewriteQuery right).map (.setOperation left')
  | .withCtes recursive defs body =>
    (rewriteCtes defs).bind fun defs' => (rewriteQuery body).map (.withCtes recursive defs')

def rewriteCtes : Ctes TableRef → Except String (Ctes Scan)
  | .nil => .ok .nil
  | .cons name definition rest =>
    (rewriteQuery definition).bind fun definition' =>
      (rewriteCtes rest).map (.cons name definition')

def rewriteSources (clauses : SelectClauses) (openScans : Nat) :
    Sources TableRef → Except String (Sources Scan)
  | .nil => .ok .nil
  | .table t rest =>
    (rewriteScan lower schema parseError policies ctes clauses openScans t).bind fun scan =>
      (rewriteSources clauses (stillOpen openScans scan) rest).map (.table scan)
  | .subquery q rest =>
    (rewriteQuery q).bind fun q' => (rewriteSources clauses openScans rest).map (.subquery q')

end

end

def rewriteTableScans (schema : List (String × List String)) (parseError : String → Option String)
    (policies : List TablePolicy) (tree : Query TableRef) : Except String (Query Scan) :=
  rewriteQuery lower schema parseError policies (cteNames lower tree) tree

end

end QueryFlux.Access
