import Mathlib.Data.List.Infix
import QueryFlux.Guardrails.Chain
import QueryFlux.Sql.Expression

/-!
# The built-in guards

`read_only`, `row_limit` and `require_predicate` look at the parsed statements of a query, and at
its text when it does not parse. `parse` is the parser, with the statements of the shared parse or
of one of its own. `upper` is the upper case of `str::to_uppercase`.
-/

namespace QueryFlux.Guardrails

open Core Sql

/-! ## read_only -/

variable (parse : SqlDialect → String → Option (List Expression))
  (upper : List Char → List Char)

def readOnlyViolation : GuardResult :=
  .deny "write operations are not permitted" (some "READ_ONLY_VIOLATION")

def checkReadOnly : List Expression → GuardResult
  | [] => .allow
  | stmt :: stmts => if !stmt.isReadStmt then readOnlyViolation else checkReadOnly stmts

/-- A text that cannot be parsed is judged by its first word. -/
def readOnlyGuard (ctx : GuardContext) : GuardResult :=
  match parse ctx.dialect ctx.sql with
  | some stmts => checkReadOnly stmts
  | none => if isReadLikeFallback upper ctx.sql then .allow else readOnlyViolation

/-! ## row_limit -/

def decimalValue (digits : List Char) : Nat :=
  digits.foldl (fun n c => 10 * n + (c.toNat - '0'.toNat)) 0

def parseU64 (s : List Char) : Option Nat :=
  let digits := if s.head? = some '+' then s.tail else s
  if digits ≠ [] ∧ digits.all Char.isDigit ∧ decimalValue digits < 2 ^ 64 then
    some (decimalValue digits)
  else none

def literalToU64 : Expression → Option Nat
  | .literal (.number s) => parseU64 s.toList
  | _ => none

def topLevelLimit : Expression → Option Nat
  | .select s => s.limit.bind literalToU64
  | .setOperation _ _ _ _ limit => limit.bind literalToU64
  | _ => none

def extractLimitValueStr (upperSql : List Char) : Option Nat :=
  (afterText " LIMIT ".toList upperSql).bind fun after =>
    parseU64 ((trimStart after).takeWhile Char.isDigit)

def noLimit : GuardResult := .warn "query has no LIMIT clause; result set may be large"

def limitExceeded (limit max : Nat) : GuardResult :=
  .deny ("LIMIT " ++ toString limit ++ " exceeds maximum allowed " ++ toString max)
    (some "ROW_LIMIT_EXCEEDED")

/-- The first statement without a limit that can be read ends the check with a warning. -/
def checkRowLimit (maxRows : Option Nat) : List Expression → GuardResult
  | [] => .allow
  | stmt :: stmts =>
    if !stmt.isReadStmt then checkRowLimit maxRows stmts
    else
      match topLevelLimit stmt, maxRows with
      | none, _ => noLimit
      | some limit, some max =>
        if max < limit then limitExceeded limit max else checkRowLimit maxRows stmts
      | some _, none => checkRowLimit maxRows stmts

def rowLimitFallback (maxRows : Option Nat) (upperSql : List Char) : GuardResult :=
  if " LIMIT ".toList <:+: upperSql then
    match maxRows, extractLimitValueStr upperSql with
    | some max, some limit => if max < limit then limitExceeded limit max else .allow
    | _, _ => .allow
  else noLimit

def rowLimitGuard (maxRows : Option Nat) (ctx : GuardContext) : GuardResult :=
  match parse ctx.dialect ctx.sql with
  | some stmts => checkRowLimit maxRows stmts
  | none => rowLimitFallback maxRows (upper ctx.sql.toList)

/-- The parts behind the first, each found somewhere after the one before. -/
def globRest (haystack : List Char) : List (List Char) → Bool
  | [] => true
  | part :: parts =>
    if part = [] then globRest haystack parts
    else
      match afterText part haystack with
      | some after => globRest after parts
      | none => false

/-! ## require_predicate -/

def simpleGlobMatch (haystack pattern : List Char) : Bool :=
  if '*' ∈ pattern then
    match pattern.splitOn '*' with
    | [] => true
    | first :: parts =>
      first.isPrefixOf haystack && globRest (haystack.drop first.length) parts
  else decide (pattern <:+: haystack)

def tableNameMatchesAnyStr (upperSql : List Char) (patterns : List String) : Bool :=
  patterns.any fun p => simpleGlobMatch upperSql (upper p.toList)

def fullName (schema : Option String) (name : String) : String :=
  match schema with
  | some s => s ++ "." ++ name
  | none => name

def fromExprMatches (patterns : List String) : Expression → Bool
  | .table schema name =>
    patterns.any fun p => simpleGlobMatch (upper (fullName schema name).toList) (upper p.toList)
  | .aliased this => fromExprMatches patterns this
  | _ => false

/-- A SELECT, or an arm of a set operation, reads a matching table without a WHERE clause. -/
def selectLacksWhere (patterns : List String) : Expression → Bool
  | .select s =>
    if s.whereClause.isSome then false
    else patterns.isEmpty || s.fromClause.any (·.any (fromExprMatches upper patterns))
  | .setOperation _ _ left right _ =>
    selectLacksWhere patterns left || selectLacksWhere patterns right
  | _ => false

def missingPredicate : GuardResult :=
  .deny "query must include a WHERE predicate" (some "MISSING_PREDICATE")

def checkPredicate (appliesTo : List String) : List Expression → GuardResult
  | [] => .allow
  | stmt :: stmts =>
    if selectLacksWhere upper appliesTo stmt then missingPredicate
    else checkPredicate appliesTo stmts

def predicateFallback (appliesTo : List String) (upperSql : List Char) : GuardResult :=
  if !"SELECT".toList.isPrefixOf (trimStart upperSql) then .allow
  else if (appliesTo.isEmpty || tableNameMatchesAnyStr upper upperSql appliesTo) ∧
      ¬" WHERE ".toList <:+: upperSql then missingPredicate
  else .allow

def requirePredicateGuard (appliesTo : List String) (ctx : GuardContext) : GuardResult :=
  match parse ctx.dialect ctx.sql with
  | some stmts => checkPredicate upper appliesTo stmts
  | none => predicateFallback upper appliesTo (upper ctx.sql.toList)

end QueryFlux.Guardrails
