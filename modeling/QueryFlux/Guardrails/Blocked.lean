import QueryFlux.Guardrails.BuiltIn
import QueryFlux.Sql.LeadingTrivia

/-!
# What the built-in guards block

`read_only` goes by the root of each statement: a write inside a read, such as a DELETE in a WITH
clause, passes (`writes_let_through`), a write that is a statement of its own does not
(`read_only_denies_iff`). `row_limit` stops at the first statement whose limit it cannot read, and
reads neither limits in parentheses nor limits of `2 ^ 64` and more (`limits_let_through`); it
denies exactly where it can read those up to an excessive one (`limit_denied_iff`).
`require_predicate` denies exactly the statements with an unfiltered arm outside of parentheses that
reads a matching table in its FROM list (`unfiltered_denied_iff`).
-/

namespace QueryFlux.Guardrails

open Core Sql List

variable {parse : SqlDialect → String → Option (List Expression)}
  {upper : List Char → List Char} {ctx : GuardContext}

/-! ## `read_only` -/

section ReadOnly

theorem checkReadOnly_eq_violation_iff {stmts : List Expression} :
    checkReadOnly stmts = readOnlyViolation ↔ ∃ stmt ∈ stmts, stmt.isReadStmt = false := by
  induction stmts with
  | nil => simp [checkReadOnly, readOnlyViolation]
  | cons stmt _ ih =>
    rw [checkReadOnly]
    cases hread : stmt.isReadStmt with
    | false => simp [hread]
    | true => simp [hread, ih]

/-- Somewhere in the statement something is changed. -/
def Writes (commandWrites : String → Bool) (stmt : Expression) : Prop :=
  ∃ n, stmt.Node n ∧ n.changesData commandWrites = true

/-- A query, a set operation, a query in parentheses, a DESCRIBE or EXPLAIN, a SHOW, or a statement
that is kept as text. -/
inductive ReadAtRoot : Expression → Prop
  | select (s : Select Expression) : ReadAtRoot (.select s)
  | setOperation (op : SetOperator) (ctes : List Expression) (left right : Expression)
      (limit : Option Expression) : ReadAtRoot (.setOperation op ctes left right limit)
  | subquery (this : Expression) (limit : Option Expression) : ReadAtRoot (.subquery this limit)
  | describe (analyze : Bool) (target : Option Expression) : ReadAtRoot (.describe analyze target)
  | showing : ReadAtRoot .showing
  | command (text : String) : ReadAtRoot (.command text)

theorem isReadStmt_iff {stmt : Expression} : stmt.isReadStmt = true ↔ ReadAtRoot stmt := by
  constructor
  · intro h
    cases stmt with
    | select | setOperation | subquery | describe | showing | command => constructor
    | change | table | aliased | literal | other => cases h
  · intro h
    cases h <;> rfl

/-- Behind white space and closed comments the text starts, in upper case, with one of the words. -/
def StartsAsRead (upper : List Char → List Char) (sql : List Char) : Prop :=
  ∃ g c rest, Gap closesOnce g ∧ sql = g ++ c :: rest ∧ isWhitespace c = false ∧
    NoComment false (c :: rest) ∧ ∃ w ∈ readWords, w.toList <+: upper (c :: rest)

theorem not_prefix_of_head {t : List Char} (ht : t.head? ∈ [none, some '/']) :
    ∀ w ∈ readWords, ¬w.toList <+: t := by
  intro w hw hprefix
  have hhead : ∀ w ∈ readWords, w.toList.head? ∉ [none, some '/'] := by decide
  obtain ⟨rest, rfl⟩ := hprefix
  cases hword : w.toList with
  | nil =>
    apply hhead w hw
    rw [hword]
    exact .head _
  | cons c =>
    rw [hword] at ht
    apply hhead w hw
    rw [hword]
    exact ht

theorem isReadLikeFallback_iff {sql : String}
    (hupper : ∀ s : List Char, s.head? ∈ [none, some '/'] → (upper s).head? = s.head?) :
    isReadLikeFallback upper sql = true ↔ StartsAsRead upper sql.toList := by
  unfold isReadLikeFallback
  simp only [any_eq_true, isPrefixOf_iff_prefix]
  have hstuck : ∀ s : List Char, s.head? ∈ [none, some '/'] →
      ¬∃ w ∈ readWords, w.toList <+: upper s := by
    rintro s hs ⟨w, hw, hprefix⟩
    refine not_prefix_of_head ?_ w hw hprefix
    rw [hupper s hs]
    exact hs
  constructor
  · intro hread
    obtain ⟨g, q, hsql, hg, hq⟩ := exists_gap_stuck sql.toList
    rw [hsql, strip_gap (fun _ hbody => hbody) rfl hg] at hread
    cases hq with
    | nil => exact absurd hread (hstuck _ (.head _))
    | @text c rest hspace hno =>
      rw [strip_eq_self (by rintro d ⟨⟩; exact hspace) hno.line hno.block] at hread
      exact ⟨g, c, rest, hg, hsql, hspace, hno, hread⟩
    | @line rest hend =>
      have hstrip : stripLeadingSqlComments ('-' :: '-' :: rest) = [] := skipTrivia_line_open hend
      rw [hstrip] at hread
      exact absurd hread (hstuck _ (.head _))
    | @block rest hclose =>
      have hstrip : stripLeadingSqlComments ('/' :: '*' :: rest) = '/' :: '*' :: rest :=
        skipTrivia_block_open hclose _
      rw [hstrip] at hread
      exact absurd hread (hstuck _ (.tail _ (.head _)))
  · rintro ⟨g, c, rest, hg, hsql, hspace, hno, hread⟩
    rw [hsql, strip_gap (fun _ hbody => hbody) rfl hg,
      strip_eq_self (by rintro d ⟨⟩; exact hspace) hno.line hno.block]
    exact hread

variable (parse upper) in
/-- A parsed batch is denied exactly when some statement in it is not a read at its root, and a text
that does not parse exactly when it does not start as a read. -/
theorem read_only_denies_iff (ctx : GuardContext)
    (hupper : ∀ s : List Char, s.head? ∈ [none, some '/'] → (upper s).head? = s.head?) :
    readOnlyGuard parse upper ctx = readOnlyViolation ↔
      (∀ stmts, parse ctx.dialect ctx.sql = some stmts → ∃ stmt ∈ stmts, ¬ReadAtRoot stmt) ∧
      (parse ctx.dialect ctx.sql = none → ¬StartsAsRead upper ctx.sql.toList) := by
  unfold readOnlyGuard
  cases hstmts : parse ctx.dialect ctx.sql with
  | none =>
    simp only [reduceCtorEq, IsEmpty.forall_iff, forall_const, true_and,
      ← isReadLikeFallback_iff hupper]
    cases isReadLikeFallback upper ctx.sql with
    | false => simp
    | true => simp [readOnlyViolation]
  | some stmts =>
    simp only [reduceCtorEq, IsEmpty.forall_iff, and_true, Option.some.injEq, forall_eq',
      checkReadOnly_eq_violation_iff, ← isReadStmt_iff, Bool.not_eq_true]

def plainContext (sql : String) : GuardContext where
  sql := sql
  originalSql := none
  dialect := .postgres
  engineType := .postgres
  clusterGroup := "default"
  user := none
  groups := []
  roles := []
  attributes := fun _ => none
  agentContext := none
  queryTags := fun _ => none
  sessionExtra := fun _ => none
  schema := none

def asciiUpper (s : List Char) : List Char := s.map Char.toUpper

def selectFrom (tables : List Expression) : Select Expression where
  ctes := []
  expressions := []
  into := none
  fromClause := some tables
  joins := []
  whereClause := none
  limit := none
  others := []

def deleteFrom (name : String) : Expression := .change .delete [.table none name]

/-- The second statement of a text is looked at too. -/
theorem second_statement_denied :
    Writes (fun _ => false) (deleteFrom "t") ∧
    readOnlyGuard (fun _ _ => some [.showing, deleteFrom "t"]) asciiUpper
      (plainContext "SHOW TABLES; DELETE FROM t") = readOnlyViolation := by
  have hupper : ∀ s : List Char, s.head? ∈ [none, some '/'] →
      (asciiUpper s).head? = s.head? := by
    intro s hs
    rw [asciiUpper, head?_map]
    obtain hnone | hslash := mem_cons.1 hs
    · rw [hnone]
      rfl
    · rw [mem_singleton.1 hslash]
      rfl
  refine ⟨⟨_, .root, rfl⟩, (read_only_denies_iff _ asciiUpper _ hupper).2 ⟨?_, nofun⟩⟩
  rintro stmts ⟨⟩
  exact ⟨deleteFrom "t", .tail _ (.head _), nofun⟩

/-- Writes below the root of a statement, in a command kept as text, and behind the first word of a
text that does not parse are let through. -/
theorem writes_let_through :
    (∀ stmt ∈ [Expression.select { selectFrom [.table none "d"] with ctes := [deleteFrom "t"] },
        .select { selectFrom [.table none "t"] with into := some (.table none "copy") },
        .describe true (some (deleteFrom "t")), .command "CALL purge()"],
      Writes (· == "CALL purge()") stmt ∧
      readOnlyGuard (fun _ _ => some [stmt]) asciiUpper (plainContext "") = .allow) ∧
    readOnlyGuard (fun _ _ => none) asciiUpper (plainContext "SELECT 1; DELETE FROM t ?!") =
      .allow := by
  refine ⟨?_, by decide +kernel⟩
  intro stmt hstmt
  simp only [mem_cons, not_mem_nil, or_false] at hstmt
  obtain rfl | rfl | rfl | rfl := hstmt
  · exact ⟨⟨deleteFrom "t", .child (.head _) .root, rfl⟩, rfl⟩
  · exact ⟨⟨_, .root, rfl⟩, rfl⟩
  · exact ⟨⟨deleteFrom "t", .child (.head _) .root, rfl⟩, rfl⟩
  · exact ⟨⟨_, .root, rfl⟩, rfl⟩

end ReadOnly

/-! ## `row_limit` -/

section RowLimit

def topLimit : Expression → Option Expression
  | .select s => s.limit
  | .setOperation _ _ _ _ limit => limit
  | .subquery this limit => limit <|> topLimit this
  | _ => none

/-- A decimal integer of any size, as far as a parser writes it with digits and a plus sign. -/
def integerLiteral : Expression → Option Nat
  | .literal (.number s) =>
    let digits := if s.toList.head? = some '+' then s.toList.tail else s.toList
    if digits ≠ [] ∧ digits.all Char.isDigit then some (decimalValue digits) else none
  | _ => none

def LimitedTo (stmt : Expression) (n : Nat) : Prop :=
  (topLimit stmt).bind integerLiteral = some n

/-- A limit the guard can read: an integer below 2^64, not in parentheses. -/
structure PlainLimit (stmt : Expression) (n : Nat) : Prop where
  limited : LimitedTo stmt n
  noParens : ∀ this limit, stmt ≠ .subquery this limit
  fits : n < 2 ^ 64

theorem literalToU64_eq_some_iff {e : Expression} {n : Nat} :
    literalToU64 e = some n ↔ integerLiteral e = some n ∧ n < 2 ^ 64 := by
  cases e with
  | literal l =>
    cases l with
    | number s =>
      simp only [literalToU64, parseU64, integerLiteral]
      generalize (if s.toList.head? = some '+' then s.toList.tail else s.toList) = digits
      by_cases hdigits : digits ≠ [] ∧ digits.all Char.isDigit = true
      · rw [if_pos hdigits]
        by_cases hfits : decimalValue digits < 2 ^ 64
        · rw [if_pos ⟨hdigits.1, hdigits.2, hfits⟩]
          constructor
          · rintro ⟨⟩
            exact ⟨rfl, hfits⟩
          · exact And.left
        · rw [if_neg fun h => hfits h.2.2]
          constructor
          · intro h
            cases h
          · rintro ⟨⟨⟩, hn⟩
            exact absurd hn hfits
      · rw [if_neg fun h => hdigits ⟨h.1, h.2.1⟩, if_neg hdigits]
        simp
    | string => simp [literalToU64, integerLiteral]
  | _ => simp [literalToU64, integerLiteral]

variable {stmt : Expression}

/-- The limits that the guard reads. -/
theorem topLevelLimit_eq_some_iff {n : Nat} : topLevelLimit stmt = some n ↔ PlainLimit stmt n := by
  have hclause : ∀ limit : Option Expression, limit.bind literalToU64 = some n ↔
      limit.bind integerLiteral = some n ∧ n < 2 ^ 64 := by
    intro limit
    cases limit with
    | none => simp
    | some e => exact literalToU64_eq_some_iff
  constructor
  · intro h
    cases stmt with
    | select s => exact ⟨((hclause s.limit).1 h).1, nofun, ((hclause s.limit).1 h).2⟩
    | setOperation _ _ _ _ limit => exact ⟨((hclause limit).1 h).1, nofun, ((hclause limit).1 h).2⟩
    | _ => cases h
  · rintro ⟨hlimited, hparens, hfits⟩
    cases stmt with
    | select s => exact (hclause s.limit).2 ⟨hlimited, hfits⟩
    | setOperation _ _ _ _ limit => exact (hclause limit).2 ⟨hlimited, hfits⟩
    | subquery this limit => exact absurd rfl (hparens this limit)
    | _ => cases hlimited

theorem checkRowLimit_skip {maxRows : Option Nat} {stmts : List Expression}
    (h : stmt.isReadStmt = false) :
    checkRowLimit maxRows (stmt :: stmts) = checkRowLimit maxRows stmts := by
  simp [checkRowLimit, h]

theorem checkRowLimit_read {max limit : Nat} {stmts : List Expression} (h : stmt.isReadStmt = true)
    (hlimit : topLevelLimit stmt = some limit) : checkRowLimit (some max) (stmt :: stmts) =
      if max < limit then limitExceeded limit max else checkRowLimit (some max) stmts := by
  simp [checkRowLimit, h, hlimit]

theorem checkRowLimit_of_excessive {max limit : Nat} {before : List Expression}
    (after : List Expression) (hread : stmt.isReadStmt = true)
    (hlimit : topLevelLimit stmt = some limit) (hmax : max < limit)
    (hbefore : ∀ s ∈ before, s.isReadStmt = true → (topLevelLimit s).isSome = true) :
    ∃ n, max < n ∧ checkRowLimit (some max) (before ++ stmt :: after) = limitExceeded n max := by
  induction before with
  | nil =>
    refine ⟨limit, hmax, ?_⟩
    rw [nil_append, checkRowLimit_read hread hlimit, if_pos hmax]
  | cons s _ ih =>
    rw [forall_mem_cons] at hbefore
    obtain ⟨n, hn, hrest⟩ := ih hbefore.2
    rw [cons_append]
    cases hs : s.isReadStmt with
    | false =>
      rw [checkRowLimit_skip hs]
      exact ⟨n, hn, hrest⟩
    | true =>
      obtain ⟨m, hm⟩ := Option.isSome_iff_exists.1 (hbefore.1 hs)
      rw [checkRowLimit_read hs hm]
      by_cases hover : max < m
      · exact ⟨m, hover, if_pos hover⟩
      · rw [if_neg hover]
        exact ⟨n, hn, hrest⟩

theorem excessive_of_checkRowLimit {max : Nat} {stmts : List Expression} {reason : String}
    {code : Option String} (h : checkRowLimit (some max) stmts = .deny reason code) :
    ∃ before stmt after limit, stmts = before ++ stmt :: after ∧ stmt.isReadStmt = true ∧
      topLevelLimit stmt = some limit ∧ max < limit ∧
      ∀ s ∈ before, s.isReadStmt = true → (topLevelLimit s).isSome = true := by
  induction stmts with
  | nil => cases h
  | cons s rest ih =>
    cases hs : s.isReadStmt with
    | false =>
      rw [checkRowLimit_skip hs] at h
      obtain ⟨before, stmt, after, limit, rfl, hread, hlimit, hmax, hbefore⟩ := ih h
      refine ⟨s :: before, stmt, after, limit, rfl, hread, hlimit, hmax, ?_⟩
      rw [forall_mem_cons]
      exact ⟨fun hread => absurd hread (by simp [hs]), hbefore⟩
    | true =>
      cases hm : topLevelLimit s with
      | none =>
        simp only [checkRowLimit, hs, hm] at h
        cases h
      | some m =>
        rw [checkRowLimit_read hs hm] at h
        by_cases hover : max < m
        · exact ⟨[], s, rest, m, rfl, hs, hm, hover, nofun⟩
        · rw [if_neg hover] at h
          obtain ⟨before, stmt, after, limit, rfl, hread, hlimit, hmax, hbefore⟩ := ih h
          refine ⟨s :: before, stmt, after, limit, rfl, hread, hlimit, hmax, ?_⟩
          rw [forall_mem_cons]
          exact ⟨fun _ => by simp [hm], hbefore⟩

variable (parse upper) in
/-- A parsed batch is denied exactly when it has a read with an excessive limit that the guard can
read, and the guard can read the limit of every read statement before it. -/
theorem limit_denied_iff (ctx : GuardContext) (max : Nat) (stmts : List Expression)
    (hparse : parse ctx.dialect ctx.sql = some stmts) :
    (∃ reason code, rowLimitGuard parse upper (some max) ctx = .deny reason code) ↔
      ∃ before stmt after n, stmts = before ++ stmt :: after ∧ stmt.isReadStmt = true ∧
        PlainLimit stmt n ∧ max < n ∧
        ∀ s ∈ before, s.isReadStmt = true → ∃ m, PlainLimit s m := by
  have hguard : rowLimitGuard parse upper (some max) ctx = checkRowLimit (some max) stmts := by
    rw [rowLimitGuard, hparse]
  rw [hguard]
  simp only [← topLevelLimit_eq_some_iff, ← Option.isSome_iff_exists]
  constructor
  · rintro ⟨reason, code, h⟩
    exact excessive_of_checkRowLimit h
  · rintro ⟨before, stmt, after, n, rfl, hread, hlimit, hmax, hbefore⟩
    obtain ⟨limit, -, hcheck⟩ := checkRowLimit_of_excessive after hread hlimit hmax hbefore
    exact ⟨_, _, hcheck⟩

def limited (limit : String) : Expression :=
  .select { selectFrom [.table none "t"] with limit := some (.literal (.number limit)) }

/-- The statement with too high a limit comes last. -/
theorem second_limit_denied :
    ∃ reason code,
      rowLimitGuard (fun _ _ => some [limited "10", deleteFrom "t", limited "5000"]) asciiUpper
        (some 1000) (plainContext "") = .deny reason code := by
  have hplain : ∀ text n, integerLiteral (.literal (.number text)) = some n → n < 2 ^ 64 →
      PlainLimit (limited text) n := by
    intro text n hn hfits
    exact ⟨hn, nofun, hfits⟩
  refine (limit_denied_iff _ asciiUpper _ 1000 _ rfl).2 ⟨[limited "10", deleteFrom "t"],
    limited "5000", [], 5000, rfl, rfl, hplain _ _ (by decide +kernel) (by decide), by decide, ?_⟩
  intro s hs hread
  obtain rfl | hs := mem_cons.1 hs
  · exact ⟨10, hplain _ _ (by decide +kernel) (by decide)⟩
  · obtain rfl := mem_singleton.1 hs
    cases hread

/-- A limit behind a statement without one, in parentheses, or of `2 ^ 64` only gives a warning. -/
theorem limits_let_through :
    (LimitedTo (limited "5000") 5000 ∧
      rowLimitGuard (fun _ _ => some [.showing, limited "5000"]) asciiUpper (some 1000)
        (plainContext "") = noLimit) ∧
    (LimitedTo (.subquery (limited "5000") none) 5000 ∧
      rowLimitGuard (fun _ _ => some [.subquery (limited "5000") none]) asciiUpper (some 1000)
        (plainContext "") = noLimit) ∧
    (LimitedTo (limited "18446744073709551616") (2 ^ 64) ∧
      rowLimitGuard (fun _ _ => some [limited "18446744073709551616"]) asciiUpper (some 1000)
        (plainContext "") = noLimit) := by
  unfold LimitedTo
  refine ⟨⟨by decide +kernel, by decide +kernel⟩, ⟨by decide +kernel, by decide +kernel⟩,
    by decide +kernel, by decide +kernel⟩

end RowLimit

/-! ## `require_predicate` -/

section Predicate

/-- A SELECT of a query: the query itself or an arm of its set operations, and, with `parens`, in
parentheses. -/
inductive Arm (parens : Bool) : Expression → Select Expression → Prop
  | select {s : Select Expression} : Arm parens (.select s) s
  | left {op : SetOperator} {ctes : List Expression} {left right : Expression}
      {limit : Option Expression} {s : Select Expression} :
      Arm parens left s → Arm parens (.setOperation op ctes left right limit) s
  | right {op : SetOperator} {ctes : List Expression} {left right : Expression}
      {limit : Option Expression} {s : Select Expression} :
      Arm parens right s → Arm parens (.setOperation op ctes left right limit) s
  | inside {this : Expression} {limit : Option Expression} {s : Select Expression} :
      parens = true → Arm parens this s → Arm parens (.subquery this limit) s

inductive IsTable (schema : Option String) (name : String) : Expression → Prop
  | table : IsTable schema name (.table schema name)
  | aliased {this : Expression} : IsTable schema name this → IsTable schema name (.aliased this)

variable (upper) in
def MatchesPattern (patterns : List String) (item : Expression) : Prop :=
  ∃ schema name, IsTable schema name item ∧ ∃ p ∈ patterns,
    simpleGlobMatch (upper (fullName schema name).toList) (upper p.toList) = true

variable (upper) in
/-- No WHERE, and a table of the FROM, or of a join, that a pattern names. -/
def Unfiltered (joins : Bool) (patterns : List String) (s : Select Expression) : Prop :=
  s.whereClause = none ∧ (patterns = [] ∨
    ∃ item ∈ s.fromClause.getD [] ++ (if joins then s.joins else []),
      MatchesPattern upper patterns item)

variable {patterns : List String}

theorem fromExprMatches_iff : ∀ {item : Expression},
    fromExprMatches upper patterns item = true ↔ MatchesPattern upper patterns item
  | .table schema name => by
    rw [fromExprMatches, List.any_eq_true]
    constructor
    · intro h
      exact ⟨schema, name, .table, h⟩
    · rintro ⟨schema', name', htable, h⟩
      cases htable
      exact h
  | .aliased this => by
    rw [fromExprMatches, fromExprMatches_iff]
    constructor
    · rintro ⟨schema, name, htable, h⟩
      exact ⟨schema, name, .aliased htable, h⟩
    · rintro ⟨schema, name, htable, h⟩
      cases htable with
      | aliased htable => exact ⟨schema, name, htable, h⟩
  | .select _ | .setOperation .. | .subquery .. | .describe .. | .showing | .command _
  | .change .. | .literal _ | .other _ => by
    constructor
    · nofun
    · nofun

theorem selectLacksWhere_select_iff {s : Select Expression} :
    selectLacksWhere upper patterns (.select s) = true ↔ Unfiltered upper false patterns s := by
  rw [selectLacksWhere, Unfiltered]
  cases s.whereClause with
  | some => simp
  | none =>
    cases s.fromClause with
    | none => simp
    | some => simp [fromExprMatches_iff]

theorem selectLacksWhere_iff : ∀ {stmt : Expression},
    selectLacksWhere upper patterns stmt = true ↔
      ∃ s, Arm false stmt s ∧ Unfiltered upper false patterns s
  | .select s => by
    rw [selectLacksWhere_select_iff]
    constructor
    · intro h
      exact ⟨s, .select, h⟩
    · rintro ⟨s', harm, h⟩
      cases harm
      exact h
  | .setOperation _ _ left right _ => by
    rw [selectLacksWhere, Bool.or_eq_true, selectLacksWhere_iff, selectLacksWhere_iff]
    constructor
    · rintro (⟨s, harm, h⟩ | ⟨s, harm, h⟩)
      · exact ⟨s, .left harm, h⟩
      · exact ⟨s, .right harm, h⟩
    · rintro ⟨s, harm, h⟩
      cases harm with
      | left harm => exact .inl ⟨s, harm, h⟩
      | right harm => exact .inr ⟨s, harm, h⟩
  | .subquery .. => by
    constructor
    · nofun
    · rintro ⟨s, harm, h⟩
      cases harm with
      | inside hparens => cases hparens
  | .describe .. | .showing | .command _ | .change .. | .table .. | .aliased _ | .literal _
  | .other _ => by
    constructor
    · nofun
    · nofun

theorem checkPredicate_eq_missing_iff {stmts : List Expression} :
    checkPredicate upper patterns stmts = missingPredicate ↔
      ∃ stmt ∈ stmts, selectLacksWhere upper patterns stmt = true := by
  induction stmts with
  | nil => simp [checkPredicate, missingPredicate]
  | cons stmt _ ih =>
    rw [checkPredicate]
    cases hlacks : selectLacksWhere upper patterns stmt with
    | true => simp [hlacks]
    | false => simp [hlacks, ih]

variable (parse upper) in
/-- A parsed batch is denied exactly when some arm of a statement, outside of parentheses, has no
WHERE and a matching table in its FROM list. -/
theorem unfiltered_denied_iff (ctx : GuardContext) (patterns : List String)
    (stmts : List Expression) (hparse : parse ctx.dialect ctx.sql = some stmts) :
    requirePredicateGuard parse upper patterns ctx = missingPredicate ↔
      ∃ stmt ∈ stmts, ∃ s, Arm false stmt s ∧ Unfiltered upper false patterns s := by
  unfold requirePredicateGuard
  rw [hparse]
  simp only [checkPredicate_eq_missing_iff, selectLacksWhere_iff]

def ordersTable : Expression := .table (some "hr") "orders"

/-- The second arm of a union reads a table that a pattern names. -/
theorem unfiltered_union_denied :
    requirePredicateGuard (fun _ _ => some [.setOperation .union []
        (.select (selectFrom [.table none "region"]))
        (.select (selectFrom [.aliased ordersTable])) none]) asciiUpper ["HR.*"]
      (plainContext "") = missingPredicate := by
  refine (unfiltered_denied_iff _ asciiUpper _ ["HR.*"] _ rfl).2
    ⟨_, mem_singleton.2 rfl, _, .right .select, rfl, .inr ?_⟩
  exact ⟨_, mem_singleton.2 rfl, _, _, .aliased .table, _, mem_singleton.2 rfl,
    by decide +kernel⟩

/-- A SELECT in parentheses and a matching table that is joined are let through. -/
theorem unfiltered_let_through :
    [Expression.subquery (.select (selectFrom [ordersTable])) none,
        .select { selectFrom [.table none "region"] with joins := [ordersTable] }].Forall
          fun stmt =>
      (∃ s, Arm true stmt s ∧ Unfiltered asciiUpper true ["hr.orders"] s) ∧
      requirePredicateGuard (fun _ _ => some [stmt]) asciiUpper ["hr.orders"]
        (plainContext "") = .allow := by
  have hmatch : MatchesPattern asciiUpper ["hr.orders"] ordersTable :=
    ⟨_, _, .table, _, mem_singleton.2 rfl, by decide +kernel⟩
  rw [forall_iff_forall_mem]
  intro stmt hstmt
  simp only [mem_cons, not_mem_nil, or_false] at hstmt
  obtain rfl | rfl := hstmt
  · refine ⟨⟨_, .inside rfl .select, rfl, .inr ⟨ordersTable, ?_, hmatch⟩⟩, rfl⟩
    exact mem_singleton.2 rfl
  · refine ⟨⟨_, .select, rfl, .inr ⟨ordersTable, ?_, hmatch⟩⟩, by decide +kernel⟩
    exact .tail _ (mem_singleton.2 rfl)

end Predicate

end QueryFlux.Guardrails
