import QueryFlux.Core.Text

/-!
# Queries and the scope of their names

A SELECT statement as the parser returns it, down to what access control reads of it: the table
references, the nested queries, the WITH clauses, and of each SELECT's clauses the columns and
stars. The table references are of any type, so that a query whose references have been replaced
is a tree of the same shape.

`Query.resolve` is lexical scoping: the name of a common table expression is known in the query its
WITH belongs to and in the definitions after its own, in a recursive WITH in all of them.
`Query.cteNames` is the set of all such names in the statement, wherever they are known.
-/

/-! ## Queries -/

namespace QueryFlux.Sql

structure ColumnRef where
  table : String
  name : String
  deriving DecidableEq

inductive Projection
  | star
  | tableStar (table : String)
  | expression
  deriving DecidableEq

/-- The SELECT list, and the columns of all clauses that are not in a nested SELECT. -/
structure SelectClauses where
  projections : List Projection
  columns : List ColumnRef
  deriving DecidableEq

mutual

inductive Query (τ : Type)
  | select (clauses : SelectClauses) (sources : Sources τ)
  | setOperation (left right : Query τ)
  | withCtes (recursive : Bool) (ctes : Ctes τ) (body : Query τ)

inductive Ctes (τ : Type)
  | nil
  | cons (name : String) (definition : Query τ) (rest : Ctes τ)

/-- The tables a SELECT reads, by FROM and JOIN, and the queries nested in it: derived tables and
the subqueries of its expressions. -/
inductive Sources (τ : Type)
  | nil
  | table (t : τ) (rest : Sources τ)
  | subquery (q : Query τ) (rest : Sources τ)

end

/-! ## Tables and names -/

variable {τ : Type}

mutual

def Query.tables : Query τ → List τ
  | .select _ sources => sources.tables
  | .setOperation left right => left.tables ++ right.tables
  | .withCtes _ ctes body => ctes.tables ++ body.tables

def Ctes.tables : Ctes τ → List τ
  | .nil => []
  | .cons _ definition rest => definition.tables ++ rest.tables

def Sources.tables : Sources τ → List τ
  | .nil => []
  | .table t rest => t :: rest.tables
  | .subquery q rest => q.tables ++ rest.tables

end

def Ctes.names : Ctes τ → List String
  | .nil => []
  | .cons name _ rest => name :: rest.names

mutual

def Query.cteNames : Query τ → List String
  | .select _ sources => sources.cteNames
  | .setOperation left right => left.cteNames ++ right.cteNames
  | .withCtes _ ctes body => ctes.names ++ (ctes.cteNames ++ body.cteNames)

def Ctes.cteNames : Ctes τ → List String
  | .nil => []
  | .cons _ definition rest => definition.cteNames ++ rest.cteNames

def Sources.cteNames : Sources τ → List String
  | .nil => []
  | .table _ rest => rest.cteNames
  | .subquery q rest => q.cteNames ++ rest.cteNames

end

section
-- the name of an unqualified reference, and when the engine takes two names for one

/-! ## Resolving -/

variable (bareName : τ → Option String) (same : String → String → Bool)

/-- With the names in `env` in scope, the reference denotes one of them. -/
def denotesCte (env : List String) (t : τ) : Bool :=
  (bareName t).any fun name => env.any (same name)

mutual

/-- Every table reference, with whether it denotes a common table expression. -/
def Query.resolve (env : List String) : Query τ → List (τ × Bool)
  | .select _ sources => sources.resolve env
  | .setOperation left right => left.resolve env ++ right.resolve env
  | .withCtes recursive ctes body =>
    ctes.resolve recursive (if recursive then ctes.names ++ env else env) ++
      body.resolve (ctes.names ++ env)

def Ctes.resolve (recursive : Bool) (env : List String) : Ctes τ → List (τ × Bool)
  | .nil => []
  | .cons name definition rest =>
    definition.resolve env ++ rest.resolve recursive (if recursive then env else name :: env)

def Sources.resolve (env : List String) : Sources τ → List (τ × Bool)
  | .nil => []
  | .table t rest => (t, denotesCte bareName same env t) :: rest.resolve env
  | .subquery q rest => q.resolve env ++ rest.resolve env

end

def Query.baseTables (q : Query τ) : List τ :=
  ((q.resolve bareName same []).filter (!·.2)).map Prod.fst

variable {bareName same}

mutual

theorem Query.resolve_tables (env : List String) :
    ∀ q : Query τ, (q.resolve bareName same env).map Prod.fst = q.tables
  | .select _ sources => sources.resolve_tables env
  | .setOperation left right => by
    rw [Query.resolve, List.map_append, left.resolve_tables, right.resolve_tables, Query.tables]
  | .withCtes _ ctes body => by
    rw [Query.resolve, List.map_append, ctes.resolve_tables, body.resolve_tables, Query.tables]

theorem Ctes.resolve_tables (recursive : Bool) (env : List String) :
    ∀ ctes : Ctes τ, (ctes.resolve bareName same recursive env).map Prod.fst = ctes.tables
  | .nil => rfl
  | .cons _ definition rest => by
    rw [Ctes.resolve, List.map_append, definition.resolve_tables, rest.resolve_tables, Ctes.tables]

theorem Sources.resolve_tables (env : List String) :
    ∀ sources : Sources τ, (sources.resolve bareName same env).map Prod.fst = sources.tables
  | .nil => rfl
  | .table t rest => by rw [Sources.resolve, List.map_cons, rest.resolve_tables, Sources.tables]
  | .subquery q rest => by
    rw [Sources.resolve, List.map_append, q.resolve_tables, rest.resolve_tables, Sources.tables]

end

theorem Query.mem_tables_of_mem_baseTables {q : Query τ} {t : τ}
    (h : t ∈ q.baseTables bareName same) : t ∈ q.tables := by
  obtain ⟨⟨t', isCte⟩, hmem, rfl⟩ := List.mem_map.1 h
  rw [← q.resolve_tables []]
  exact List.mem_map_of_mem (List.mem_of_mem_filter hmem)

end

end QueryFlux.Sql
