import QueryFlux.Sql.Statement

/-!
# Parsed statements

The tree of a parsed statement as far as the guards look into it, and which statements count as
reads. A node that no guard tells apart is `other` with its children. `upper` is the upper case of
`str::to_uppercase`; nothing depends on what it does to letters.
-/

namespace QueryFlux.Sql

open Core

inductive Literal
  | number (text : String)
  | string (text : String)
  deriving DecidableEq

/-- The clauses of a SELECT; `others` are those no guard looks into. -/
structure Select (ε : Type) where
  ctes : List ε
  expressions : List ε
  into : Option ε
  fromClause : Option (List ε)
  joins : List ε
  whereClause : Option ε
  limit : Option ε
  others : List ε

inductive SetOperator
  | union | intersect | except
  deriving DecidableEq

inductive ChangeKind
  | insert | update | delete | merge | truncate | copy | create | drop | alter | grant
  deriving DecidableEq

inductive Expression
  | select (s : Select Expression)
  | setOperation (op : SetOperator) (ctes : List Expression) (left right : Expression)
      (limit : Option Expression)
  -- a query in parentheses, with the clauses behind them
  | subquery (this : Expression) (limit : Option Expression)
  -- also an `EXPLAIN`; with `ANALYZE` it runs the statement
  | describe (analyze : Bool) (target : Option Expression)
  | showing
  -- a statement the parser keeps as text
  | command (text : String)
  | change (kind : ChangeKind) (children : List Expression)
  | table (schema : Option String) (name : String)
  | aliased (this : Expression)
  | literal (l : Literal)
  | other (children : List Expression)

namespace Expression

/-- By the root alone. -/
def isReadStmt : Expression → Bool
  | select _ | setOperation .. | subquery .. | describe .. | showing | command _ => true
  | _ => false

/-- The nodes below; a statement that is only explained is not among them. -/
def children : Expression → List Expression
  | select s => s.ctes ++ s.expressions ++ s.into.toList ++ (s.fromClause.getD []) ++ s.joins ++
      s.whereClause.toList ++ s.limit.toList ++ s.others
  | setOperation _ ctes left right limit => ctes ++ left :: right :: limit.toList
  | subquery this limit => this :: limit.toList
  | describe analyze target => if analyze then target.toList else []
  | aliased this => [this]
  | change _ children | other children => children
  | showing | command _ | table .. | literal _ => []

inductive Node : Expression → Expression → Prop
  | root {e : Expression} : Node e e
  | child {e c n : Expression} : c ∈ e.children → Node c n → Node e n

/-- The node itself writes or defines data; `commandWrites` says it of the text of a command. -/
def changesData (commandWrites : String → Bool) : Expression → Bool
  | change .. => true
  | select s => s.into.isSome
  | command text => commandWrites text
  | _ => false

end Expression

/-! ## Without a parser -/

def readWords : List String :=
  ["SELECT", "WITH", "SHOW", "DESCRIBE", "EXPLAIN", "DESC ", "DESC\t"]

def isReadLikeFallback (upper : List Char → List Char) (sql : String) : Bool :=
  let trimmed := upper (stripLeadingSqlComments sql.toList)
  readWords.any fun word => word.toList.isPrefixOf trimmed

end QueryFlux.Sql
