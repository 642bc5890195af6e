import QueryFlux.Core.Text

/-!
# Statement heads

What the access-control guard reads off a statement's text without a parser: the first word after
comments, whether the statement runs SQL it does not show, and where the statement inside an
`EXPLAIN` starts. The text it finds inside an `EXPLAIN` is a proper suffix
(`explainSplit_inner`), so checking `EXPLAIN EXPLAIN …` comes to an end.
-/

namespace QueryFlux.Sql

open Core

/-! ## Leading comments -/

/-- Where `stripLeadingSqlComments` is: before a statement, in a `--` comment, or in a `/* … */`
comment together with the text that is returned when the comment is never closed. -/
inductive Trivia
  | start
  | line
  | block (unclosed : List Char)

def skipTrivia : Trivia → List Char → List Char
  | .start, '-' :: '-' :: rest => skipTrivia .line rest
  | .start, '/' :: '*' :: rest => skipTrivia (.block ('/' :: '*' :: rest)) rest
  | .start, c :: cs => if isWhitespace c then skipTrivia .start cs else c :: cs
  | .line, '\n' :: rest => skipTrivia .start rest
  | .line, _ :: rest => skipTrivia .line rest
  | .block _, '*' :: '/' :: rest => skipTrivia .start rest
  | .block unclosed, _ :: rest => skipTrivia (.block unclosed) rest
  | .block unclosed, [] => unclosed
  | .start, [] => []
  | .line, [] => []

def stripLeadingSqlComments (sql : List Char) : List Char := skipTrivia .start sql

/-- The text an unclosed comment gives back counts against the length of the rest. -/
def Trivia.bound : Trivia → List Char → Nat
  | .start, s => s.length
  | .line, s => s.length
  | .block unclosed, s => max unclosed.length s.length

theorem length_skipTrivia_le (t : Trivia) (s : List Char) :
    (skipTrivia t s).length ≤ t.bound s := by
  fun_induction skipTrivia t s <;> simp_all [Trivia.bound] <;> omega

theorem length_stripLeadingSqlComments_le (s : List Char) :
    (stripLeadingSqlComments s).length ≤ s.length :=
  length_skipTrivia_le .start s

/-! ## Words -/

def isWordChar (c : Char) : Bool := c.isAlphanum || c == '_'

def wordAt (s : List Char) : List Char := s.takeWhile isWordChar

theorem length_wordAt_le (s : List Char) : (wordAt s).length ≤ s.length :=
  (List.takeWhile_prefix _).length_le

def statementStarters : List String :=
  ["select", "with", "insert", "update", "delete", "merge", "create", "values", "table", "copy",
    "call"]

def explainModifiers : List String :=
  ["analyze", "analyse", "verbose", "plan", "for", "ast", "syntax", "pipeline", "estimate",
    "extended", "formatted", "logical", "distributed", "io", "validate", "local"]

-- Words that may follow `BEGIN` when it starts a transaction and not a procedural block.
def beginTransactionWords : List String :=
  ["transaction", "work", "tran", "isolation", "read", "deferrable", "not", "name", "deferred",
    "immediate", "exclusive", "distributed"]

/-- The first word, in lower case. -/
def headWord (s : List Char) : String := String.ofList (toAsciiLowercase (wordAt s))

/-! ## What the guard looks for -/

/-- The kind of statement, if `sql` runs SQL that is not its own text. A `CALL` is left to the
policy when procedure calls are evaluated. -/
def runsSqlItDoesNotShow (sql : String) (evaluatesCall : Bool) : Option String :=
  let s := stripLeadingSqlComments sql.toList
  match headWord s with
  | "execute" | "exec" => some "EXECUTE"
  | "prepare" => some "PREPARE"
  | "do" => some "DO"
  | "declare" => some "procedural block"
  | "begin" =>
    let rest := stripLeadingSqlComments (s.drop (wordAt s).length)
    let restIsEmpty := (stripLeadingSqlComments (rest.dropWhile (· == ';'))).isEmpty
    if !restIsEmpty && !beginTransactionWords.contains (headWord rest) then
      some "procedural block"
    else none
  | "call" => if evaluatesCall then none else some "CALL"
  | _ => none

/-- How an `EXPLAIN` wraps the statement it explains; `inner` gives the number of characters
before that statement. -/
inductive ExplainSplit
  | notExplain
  | inner (offset : Nat)
  | unrecognized
  deriving DecidableEq

theorem length_drop_wordAt_lt {s : List Char} (h : wordAt s ≠ []) :
    (s.drop (wordAt s).length).length < s.length := by
  have hpos := List.length_pos_iff.2 h
  have hword := length_wordAt_le s
  rw [List.length_drop]
  omega

theorem wordAt_ne_nil_of_modifier {s : List Char} (h : explainModifiers.contains (headWord s)) :
    wordAt s ≠ [] := by
  intro hnil
  rw [headWord, hnil] at h
  exact absurd h (by decide)

/-- The explained statement, after option words and parenthesised option lists; `none` when it
cannot be located. -/
def explainedStatement (s : List Char) : Option (List Char) :=
  let rest := stripLeadingSqlComments s
  if rest.head? = some '(' then
    -- `EXPLAIN (SELECT …)` is a parenthesised query, `EXPLAIN (ANALYZE, …)` an option list
    if statementStarters.contains (headWord (trimStart rest.tail)) then some rest
    else
      match hc : afterFirst ')' rest with
      | some after => explainedStatement after
      | none => none
  else if statementStarters.contains (headWord rest) then some rest
  else if hm : explainModifiers.contains (headWord rest) then
    explainedStatement (rest.drop (wordAt rest).length)
  else none
termination_by s.length
decreasing_by
  · exact Nat.lt_of_lt_of_le (length_afterFirst hc) (length_stripLeadingSqlComments_le s)
  · exact Nat.lt_of_lt_of_le (length_drop_wordAt_lt (wordAt_ne_nil_of_modifier hm))
      (length_stripLeadingSqlComments_le s)

def explainSplit (sql : String) : ExplainSplit :=
  let first := stripLeadingSqlComments sql.toList
  let head := wordAt first
  if eqIgnoreAsciiCase head "explain".toList then
    match explainedStatement (first.drop head.length) with
    | some inner => .inner (sql.length - inner.length)
    | none => .unrecognized
  else .notExplain

theorem length_explainedStatement_le {s r : List Char} (h : explainedStatement s = some r) :
    r.length ≤ s.length := by
  fun_induction explainedStatement s with
  | case1 s | case4 s =>
    obtain rfl := Option.some.inj h
    exact length_stripLeadingSqlComments_le s
  | case2 s rest _ _ _ hc ih =>
    have hafter := length_afterFirst hc
    have hrest : rest.length ≤ s.length := length_stripLeadingSqlComments_le s
    have := ih h
    omega
  | case3 => cases h
  | case5 s rest _ _ _ ih =>
    have hrest : rest.length ≤ s.length := length_stripLeadingSqlComments_le s
    have := ih h
    rw [List.length_drop] at this
    omega
  | case6 => cases h

theorem explainSplit_inner {sql : String} {offset : Nat} (h : explainSplit sql = .inner offset) :
    (sql.toList.drop offset).length < sql.length := by
  unfold explainSplit at h
  simp only at h
  split at h
  · rename_i hhead
    split at h
    · rename_i inner hinner
      obtain rfl := ExplainSplit.inner.inj h
      have hle := length_explainedStatement_le hinner
      have hfirst := length_stripLeadingSqlComments_le sql.toList
      have hword : wordAt (stripLeadingSqlComments sql.toList) ≠ [] := by
        intro hnil
        rw [hnil] at hhead
        exact absurd hhead (by decide)
      have hlt := length_drop_wordAt_lt hword
      rw [String.length_toList] at hfirst
      rw [List.length_drop, String.length_toList]
      omega
    · cases h
  · cases h

end QueryFlux.Sql
