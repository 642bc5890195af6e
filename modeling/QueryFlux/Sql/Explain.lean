import Mathlib.Data.Bool.AllAny
import QueryFlux.Sql.Statement

/-!
# Where the explained statement starts

The lexical structure of an `EXPLAIN`: comments and white space, the word, then option keywords and
parenthesised option lists, then the statement. `explainSplit` looks for the `)` of an option list
in the raw text, for the first word of a parenthesised query behind white space only, and knows
neither nested nor `#` comments. Where, as far as it reads, an option list has no other `)`, a
parenthesised query starts with its first word and all comments are plain, it finds the statement or
says that it does not recognise it (`explainSplit_finds_statement`). Otherwise it may take a text
inside a literal for the statement (`split_inside_literal`).
-/

namespace QueryFlux.Sql

open Core List

/-! ## Texts -/

/-- The inside of a block comment in a dialect where they nest, `depth` comments deep. -/
def isNestedBody : Nat → List Char → Bool
  | depth, '/' :: '*' :: rest => isNestedBody (depth + 1) rest
  | 0, '*' :: '/' :: _ => false
  | depth + 1, '*' :: '/' :: rest => isNestedBody depth rest
  | depth, _ :: rest => isNestedBody depth rest
  | depth, [] => depth == 0

def CommentBody (nested : Bool) (body : List Char) : Prop :=
  if nested then isNestedBody 0 body = true else ¬['*', '/'] <:+: body

/-- The comments of a dialect: the inside of its block comments, and whether `#` starts a line
comment as `--` does. -/
structure Comments where
  block : List Char → Prop
  hash : Bool

def sqlComments (nested hash : Bool) : Comments := ⟨CommentBody nested, hash⟩

/-- White space and comments. -/
inductive Gap (comments : Comments) : List Char → Prop
  | nil : Gap comments []
  | space {c : Char} {s : List Char} :
      isWhitespace c = true → Gap comments s → Gap comments (c :: s)
  | line {body s : List Char} :
      '\n' ∉ body → Gap comments s → Gap comments ('-' :: '-' :: (body ++ '\n' :: s))
  | hash {body s : List Char} : comments.hash = true →
      '\n' ∉ body → Gap comments s → Gap comments ('#' :: (body ++ '\n' :: s))
  | block {body s : List Char} :
      comments.block body → Gap comments s → Gap comments ('/' :: '*' :: (body ++ '*' :: '/' :: s))

structure NoComment (hash : Bool) (s : List Char) : Prop where
  line : ¬['-', '-'] <+: s
  block : ¬['/', '*'] <+: s
  noHash : hash = true → s.head? ≠ some '#'

/-- Text with its comments and literals closed and its parentheses balanced. -/
inductive Balanced (comments : Comments) : List Char → Prop
  | nil : Balanced comments []
  | char {c : Char} {s : List Char} : c ∉ ['(', ')', '\x27', '\x22'] →
      NoComment comments.hash (c :: s) → Balanced comments s → Balanced comments (c :: s)
  | gap {g s : List Char} : Gap comments g → Balanced comments s → Balanced comments (g ++ s)
  | literal {q : Char} {body s : List Char} : q ∈ ['\x27', '\x22'] → q ∉ body →
      Balanced comments s → Balanced comments (q :: (body ++ q :: s))
  | parens {body s : List Char} : Balanced comments body →
      Balanced comments s → Balanced comments ('(' :: (body ++ ')' :: s))

inductive OpensQuery (comments : Comments) : List Char → Prop
  | word {s : List Char} : headWord s ∈ statementStarters → OpensQuery comments s
  | gap {g s : List Char} : Gap comments g → OpensQuery comments s → OpensQuery comments (g ++ s)
  | paren {s : List Char} : OpensQuery comments s → OpensQuery comments ('(' :: s)

/-- The words that are options of `EXPLAIN`, none of which starts a statement. -/
structure OptionKeywords where
  isOption : String → Prop
  modifiers : ∀ w ∈ explainModifiers, isOption w
  starters : ∀ w ∈ statementStarters, ¬isOption w

structure IsStatement (keywords : OptionKeywords) (comments : Comments) (s : List Char) :
    Prop where
  noSpace : ∀ c ∈ s.head?, isWhitespace c = false
  noComment : NoComment comments.hash s
  query : s.head? = some '(' → OpensQuery comments s
  noOption : wordAt s ≠ [] → ¬keywords.isOption (headWord s)

def IsOptionList (comments : Comments) (body : List Char) : Prop :=
  Balanced comments body ∧ ¬OpensQuery comments body

def WordEnds (s : List Char) : Prop := ∀ c ∈ s.head?, isWordChar c = false

structure IsOption (keywords : OptionKeywords) (w s : List Char) : Prop where
  ne_nil : w ≠ []
  word : ∀ c ∈ w, isWordChar c = true
  option : keywords.isOption (headWord w)
  ends : WordEnds s

/-- Option keywords and option lists, then the statement `stmt`. -/
inductive Wraps (keywords : OptionKeywords) (comments : Comments) (stmt : List Char) :
    List Char → Prop
  | statement {g : List Char} :
      Gap comments g → IsStatement keywords comments stmt → Wraps keywords comments stmt (g ++ stmt)
  | option {g w s : List Char} : Gap comments g → IsOption keywords w s →
      Wraps keywords comments stmt s → Wraps keywords comments stmt (g ++ (w ++ s))
  | list {g body s : List Char} : Gap comments g → IsOptionList comments body →
      Wraps keywords comments stmt s → Wraps keywords comments stmt (g ++ '(' :: (body ++ ')' :: s))

/-- The text is `EXPLAIN`, options, and the statement. -/
inductive Explains (keywords : OptionKeywords) (comments : Comments) (stmt : List Char) :
    List Char → Prop
  | mk {g e s : List Char} : Gap comments g → eqIgnoreAsciiCase e "explain".toList = true →
      WordEnds s → Wraps keywords comments stmt s → Explains keywords comments stmt (g ++ (e ++ s))

/-- Comments the guard skips as a whole: no `#` comments, and no block comment in another. -/
def plainComments (nested : Bool) : Comments where
  block body := CommentBody nested body ∧ (nested = true → ¬['/', '*'] <:+: body)
  hash := false

/-- The text is plain as far as the guard reads it: comments that do not nest, option lists with no
`)` inside and a query whose first word is right behind its parenthesis. Behind an option that is
none of the guard's modifiers nothing is asked. -/
inductive PlainWraps (keywords : OptionKeywords) (nested hash : Bool) (stmt : List Char) :
    List Char → Prop
  | statement {g : List Char} : Gap (plainComments nested) g →
      IsStatement keywords (sqlComments nested hash) stmt →
      (stmt.head? = some '(' → headWord (trimStart stmt.tail) ∈ statementStarters) →
      PlainWraps keywords nested hash stmt (g ++ stmt)
  | option {g w s : List Char} : Gap (plainComments nested) g → IsOption keywords w s →
      PlainWraps keywords nested hash stmt s → PlainWraps keywords nested hash stmt (g ++ (w ++ s))
  | unknown {g w s : List Char} : Gap (plainComments nested) g → IsOption keywords w s →
      headWord w ∉ explainModifiers → Wraps keywords (sqlComments nested hash) stmt s →
      PlainWraps keywords nested hash stmt (g ++ (w ++ s))
  | list {g body s : List Char} : Gap (plainComments nested) g →
      IsOptionList (sqlComments nested hash) body → ')' ∉ body →
      PlainWraps keywords nested hash stmt s →
      PlainWraps keywords nested hash stmt (g ++ '(' :: (body ++ ')' :: s))

inductive PlainExplains (keywords : OptionKeywords) (nested hash : Bool) (stmt : List Char) :
    List Char → Prop
  | mk {g e s : List Char} : Gap (plainComments nested) g →
      eqIgnoreAsciiCase e "explain".toList = true → WordEnds s →
      PlainWraps keywords nested hash stmt s →
      PlainExplains keywords nested hash stmt (g ++ (e ++ s))

/-! ## White space and comments -/

section Gaps

variable {body s : List Char} {c : Char}

theorem not_infix_of_cons {p : List Char} (h : ¬p <:+: c :: body) : ¬p <:+: body :=
  fun hin => h (hin.trans (suffix_cons c body).isInfix)

theorem not_prefix_of_not_infix {p : List Char} (h : ¬p <:+: s) : ¬p <+: s :=
  fun hp => h hp.isInfix

theorem no_close_of_isNestedBody (h : isNestedBody 0 body = true) (hopen : ¬['/', '*'] <:+: body) :
    ¬['*', '/'] <:+: body := by
  induction body with
  | nil => simp
  | cons c body ih =>
    have hclose : ¬['*', '/'] <+: c :: body := by
      rintro ⟨rest, hrest⟩
      rw [← hrest] at h
      simp [isNestedBody] at h
    have hstart := not_prefix_of_not_infix hopen
    have hnext : isNestedBody 0 (c :: body) = isNestedBody 0 body := by
      rw [isNestedBody]
      · rintro rest rfl rfl
        exact hstart ⟨rest, rfl⟩
      · rintro rest - rfl rfl
        exact hclose ⟨rest, rfl⟩
      · nofun
    rw [infix_cons_iff, not_or]
    exact ⟨hclose, ih (hnext ▸ h) (not_infix_of_cons hopen)⟩

theorem skipTrivia_line_cons (h : c ≠ '\n') (s : List Char) :
    skipTrivia .line (c :: s) = skipTrivia .line s := by
  conv => lhs; unfold skipTrivia
  split <;> simp_all

theorem skipTrivia_block_cons (h : ¬['*', '/'] <+: c :: s) (unclosed : List Char) :
    skipTrivia (.block unclosed) (c :: s) = skipTrivia (.block unclosed) s := by
  conv => lhs; unfold skipTrivia
  split <;> simp_all

theorem skipTrivia_start_cons (hline : ¬['-', '-'] <+: c :: s) (hblock : ¬['/', '*'] <+: c :: s) :
    skipTrivia .start (c :: s) = if isWhitespace c then skipTrivia .start s else c :: s := by
  conv => lhs; unfold skipTrivia
  split <;> simp_all

theorem skipTrivia_line (h : '\n' ∉ body) (s : List Char) :
    skipTrivia .line (body ++ '\n' :: s) = skipTrivia .start s := by
  induction body with
  | nil => rfl
  | cons _ _ ih =>
    rw [mem_cons, not_or] at h
    rw [cons_append, skipTrivia_line_cons (Ne.symm h.1), ih h.2]

theorem skipTrivia_block (h : ¬['*', '/'] <:+: body) (unclosed s : List Char) :
    skipTrivia (.block unclosed) (body ++ '*' :: '/' :: s) = skipTrivia .start s := by
  induction body with
  | nil => rfl
  | cons c body ih =>
    -- the first `*/` is not across the end of the body either
    have hclose : ¬['*', '/'] <+: c :: (body ++ '*' :: '/' :: s) := by
      rintro ⟨rest, hrest⟩
      obtain ⟨rfl, hslash⟩ := cons.inj hrest
      cases body with
      | nil => cases hslash
      | cons _ body =>
        obtain ⟨rfl, -⟩ := cons.inj hslash
        exact not_prefix_of_not_infix h ⟨body, rfl⟩
    rw [cons_append, skipTrivia_block_cons hclose, ih (not_infix_of_cons h)]

variable {comments : Comments} (hcomment : ∀ body, comments.block body → ¬['*', '/'] <:+: body)
  (hhash : comments.hash = false)

include hcomment hhash in
/-- Comments in front are skipped. -/
theorem strip_gap {g : List Char} (h : Gap comments g) (s : List Char) :
    stripLeadingSqlComments (g ++ s) = stripLeadingSqlComments s := by
  unfold stripLeadingSqlComments
  induction h with
  | nil => rfl
  | space hc _ ih =>
    rw [cons_append, skipTrivia_start_cons, if_pos hc, ih]
    · rintro ⟨rest, hrest⟩
      rw [← (cons.inj hrest).1] at hc
      exact absurd hc (by decide)
    · rintro ⟨rest, hrest⟩
      rw [← (cons.inj hrest).1] at hc
      exact absurd hc (by decide)
  | line hbody _ ih =>
    rw [cons_append, cons_append, append_assoc, cons_append]
    exact (skipTrivia_line hbody _).trans ih
  | hash hdialect =>
    rw [hhash] at hdialect
    cases hdialect
  | block hbody _ ih =>
    rw [cons_append, cons_append, append_assoc, cons_append, cons_append]
    exact (skipTrivia_block (hcomment _ hbody) _ _).trans ih

theorem strip_eq_self (hspace : ∀ c ∈ s.head?, isWhitespace c = false)
    (hline : ¬['-', '-'] <+: s) (hblock : ¬['/', '*'] <+: s) : stripLeadingSqlComments s = s := by
  unfold stripLeadingSqlComments
  cases s with
  | nil => rfl
  | cons c =>
    rw [skipTrivia_start_cons hline hblock, if_neg (by simp [hspace c rfl])]

end Gaps

/-! ## Words -/

section Words

variable {c : Char}

theorem isWordChar_bounds (h : isWordChar c = true) : 48 ≤ c.toNat ∧ c.toNat ≤ 122 := by
  rcases Bool.or_eq_true_iff.1 h with halnum | hunder
  · unfold Char.isAlphanum Char.isAlpha Char.isUpper Char.isLower Char.isDigit at halnum
    simp only [Bool.or_eq_true, Bool.and_eq_true, decide_eq_true_eq,
      UInt32.le_iff_toNat_le] at halnum
    rcases halnum with (⟨hlow, hhigh⟩ | ⟨hlow, hhigh⟩) | ⟨hlow, hhigh⟩
    all_goals exact ⟨Nat.le_trans (by decide) hlow, Nat.le_trans hhigh (by decide)⟩
  · rw [beq_iff_eq.1 hunder]
    decide

theorem isWhitespace_of_isWordChar (h : isWordChar c = true) : isWhitespace c = false := by
  obtain ⟨hlow, hhigh⟩ := isWordChar_bounds h
  rw [Bool.eq_false_iff]
  intro hc
  simp only [isWhitespace, Bool.or_eq_true, Bool.and_eq_true, decide_eq_true_eq, beq_iff_eq] at hc
  omega

theorem isWordChar_of_toLower (h : isWordChar c.toLower = true) : isWordChar c = true := by
  by_cases hupper : c.isUpper = true
  · unfold isWordChar Char.isAlphanum Char.isAlpha
    rw [hupper]
    rfl
  · have hsame : c.toLower = c := by
      unfold Char.toLower
      split_ifs with hc
      · exact absurd (decide_eq_true hc) hupper
      · rfl
    rwa [hsame] at h

variable {w s : List Char}

theorem strip_word (hne : w ≠ []) (hw : ∀ c ∈ w, isWordChar c = true) :
    stripLeadingSqlComments (w ++ s) = w ++ s := by
  cases w with
  | nil => exact absurd rfl hne
  | cons c =>
    have hc := hw c (.head _)
    apply strip_eq_self
    · intro d hd
      obtain rfl : c = d := Option.some.inj hd
      exact isWhitespace_of_isWordChar hc
    · rintro ⟨t, ht⟩
      rw [← (cons.inj ht).1] at hc
      exact absurd hc (by decide)
    · rintro ⟨t, ht⟩
      rw [← (cons.inj ht).1] at hc
      exact absurd hc (by decide)

theorem wordAt_append (hw : ∀ c ∈ w, isWordChar c = true) (hend : WordEnds s) :
    wordAt (w ++ s) = w := by
  have hs : s.takeWhile isWordChar = [] := by
    cases s with
    | nil => rfl
    | cons c => rw [takeWhile_cons_of_neg (by simp [hend c rfl])]
  rw [wordAt, takeWhile_append_of_pos hw, hs, append_nil]

theorem headWord_append (hw : ∀ c ∈ w, isWordChar c = true) (hend : WordEnds s) :
    headWord (w ++ s) = headWord w := by
  have hself : wordAt w = w := by
    have hnil := wordAt_append hw (s := []) nofun
    rwa [append_nil] at hnil
  rw [headWord, headWord, wordAt_append hw hend, hself]

theorem headWord_trimStart_append (hspace : isWhitespace c = false) (hc : isWordChar c = false)
    (body s : List Char) : headWord (trimStart (body ++ c :: s)) = headWord (trimStart body) := by
  have htrim : trimStart (body ++ c :: s) = trimStart body ++ c :: s := by
    induction body with
    | nil => exact dropWhile_cons_of_neg (by simp [hspace])
    | cons d _ ih =>
      unfold trimStart at ih ⊢
      by_cases hd : isWhitespace d = true
      · rw [cons_append, dropWhile_cons_of_pos hd, dropWhile_cons_of_pos hd, ih]
      · rw [cons_append, dropWhile_cons_of_neg hd, dropWhile_cons_of_neg hd,
          cons_append]
  have hword : ∀ b : List Char, wordAt (b ++ c :: s) = wordAt b := by
    intro b
    unfold wordAt
    induction b with
    | nil => exact takeWhile_cons_of_neg (by simp [hc])
    | cons d _ ih =>
      by_cases hd : isWordChar d = true
      · rw [cons_append, takeWhile_cons_of_pos hd, takeWhile_cons_of_pos hd, ih]
      · rw [cons_append, takeWhile_cons_of_neg hd, takeWhile_cons_of_neg hd]
  rw [headWord, headWord, htrim, hword]

end Words

/-! ## The statement is found -/

section Found

variable {keywords : OptionKeywords} {nested hash : Bool} {stmt : List Char}

theorem plain_comment {body : List Char} (h : (plainComments nested).block body) :
    ¬['*', '/'] <:+: body := by
  obtain ⟨hbody, hopen⟩ := h
  cases nested with
  | false => exact hbody
  | true => exact no_close_of_isNestedBody hbody (hopen rfl)

theorem explainedStatement_gap {g : List Char} (hg : Gap (plainComments nested) g)
    (s : List Char) : explainedStatement (g ++ s) = explainedStatement s := by
  have hstrip := strip_gap (fun _ => plain_comment) rfl hg s
  rw [explainedStatement, hstrip]
  conv => rhs; rw [explainedStatement]

theorem gap_takeWhile (comments : Comments) (s : List Char) :
    Gap comments (s.takeWhile isWhitespace) := by
  induction s with
  | nil => exact .nil
  | cons c _ ih =>
    by_cases hc : isWhitespace c = true
    · rw [takeWhile_cons_of_pos hc]
      exact .space hc ih
    · rw [takeWhile_cons_of_neg hc]
      exact .nil

theorem headWord_of_not_query {comments : Comments} {body : List Char}
    (h : ¬OpensQuery comments body) : headWord (trimStart body) ∉ statementStarters := by
  intro hmem
  apply h
  rw [← takeWhile_append_dropWhile (p := isWhitespace) (l := body)]
  exact .gap (gap_takeWhile comments body) (.word hmem)

/-- At an option keyword the guard goes on behind it, or gives up. -/
theorem explainedStatement_option {w s : List Char} (h : IsOption keywords w s) :
    explainedStatement (w ++ s) =
      if headWord w ∈ explainModifiers then explainedStatement s else none := by
  have hstarter : headWord w ∉ statementStarters := fun hmem =>
    keywords.starters _ hmem h.option
  have hparen : (w ++ s).head? ≠ some '(' := by
    have hword := h.word
    cases w with
    | nil => exact absurd rfl h.ne_nil
    | cons c =>
      intro hc
      obtain rfl : c = '(' := Option.some.inj hc
      exact absurd (hword _ (.head _)) (by decide)
  rw [explainedStatement, strip_word h.ne_nil h.word]
  simp only [hparen, if_false, headWord_append h.word h.ends, wordAt_append h.word h.ends,
    drop_left]
  by_cases hmodifier : headWord w ∈ explainModifiers
  · simp [hstarter, hmodifier]
  · simp [hstarter, hmodifier]

/-- An option list without a `)` inside is skipped as a whole. -/
theorem explainedStatement_list {comments : Comments} {body s : List Char}
    (hbody : IsOptionList comments body) (hclose : ')' ∉ body) :
    explainedStatement ('(' :: (body ++ ')' :: s)) = explainedStatement s := by
  have hstarter := headWord_of_not_query hbody.2
  have hstrip : stripLeadingSqlComments ('(' :: (body ++ ')' :: s)) =
      '(' :: (body ++ ')' :: s) := by
    apply strip_eq_self
    · intro c hc
      obtain rfl : '(' = c := Option.some.inj hc
      decide
    · simp
    · simp
  have hafter : afterFirst ')' ('(' :: (body ++ ')' :: s)) = some s := by
    rw [← cons_append]
    apply afterFirst_append
    simp [hclose]
  have hhead := headWord_trimStart_append (c := ')') (by decide) (by decide) body s
  conv => lhs; rw [explainedStatement, hstrip]
  simp only [head?_cons, if_true, tail_cons, hhead]
  rw [if_neg (by simpa using hstarter)]
  split
  · rename_i after hsome
    rw [hafter] at hsome
    rw [Option.some.inj hsome]
  · rename_i hnone
    rw [hafter] at hnone
    cases hnone

theorem explainedStatement_statement {comments : Comments}
    (hstmt : IsStatement keywords comments stmt)
    (hquery : stmt.head? = some '(' → headWord (trimStart stmt.tail) ∈ statementStarters) :
    explainedStatement stmt = some stmt ∨ explainedStatement stmt = none := by
  rw [explainedStatement, strip_eq_self hstmt.noSpace hstmt.noComment.line hstmt.noComment.block]
  by_cases hparen : stmt.head? = some '('
  · simp [hparen, hquery hparen]
  · simp only [hparen, if_false]
    by_cases hstarter : headWord stmt ∈ statementStarters
    · simp [hstarter]
    · have hmodifier : headWord stmt ∉ explainModifiers := by
        intro hmem
        have hne := wordAt_ne_nil_of_modifier (contains_iff_mem.2 hmem)
        exact hstmt.noOption hne (keywords.modifiers _ hmem)
      simp [hstarter, hmodifier]

theorem Gap.of_plain {g : List Char} (h : Gap (plainComments nested) g) :
    Gap (sqlComments nested hash) g := by
  induction h with
  | nil => exact .nil
  | space hc _ ih => exact .space hc ih
  | line hbody _ ih => exact .line hbody ih
  | hash hdialect => cases hdialect
  | block hbody _ ih => exact .block hbody.1 ih

theorem PlainWraps.wraps {s : List Char} (h : PlainWraps keywords nested hash stmt s) :
    Wraps keywords (sqlComments nested hash) stmt s := by
  induction h with
  | statement hg hstmt => exact .statement hg.of_plain hstmt
  | option hg hoption _ ih => exact .option hg.of_plain hoption ih
  | unknown hg hoption _ hs => exact .option hg.of_plain hoption hs
  | list hg hbody _ _ ih => exact .list hg.of_plain hbody ih

theorem PlainExplains.explains {s : List Char} (h : PlainExplains keywords nested hash stmt s) :
    Explains keywords (sqlComments nested hash) stmt s := by
  cases h with
  | mk hg he hend hs => exact .mk hg.of_plain he hend hs.wraps

theorem explainedStatement_of_wraps {s : List Char} (h : PlainWraps keywords nested hash stmt s) :
    explainedStatement s = some stmt ∨ explainedStatement s = none := by
  induction h with
  | statement hg hstmt hquery =>
    rw [explainedStatement_gap hg]
    exact explainedStatement_statement hstmt hquery
  | option hg hoption _ ih =>
    rw [explainedStatement_gap hg, explainedStatement_option hoption]
    split
    · exact ih
    · exact .inr rfl
  | unknown hg hoption hunknown =>
    rw [explainedStatement_gap hg, explainedStatement_option hoption, if_neg hunknown]
    exact .inr rfl
  | list hg hbody hclose _ ih =>
    rw [explainedStatement_gap hg, explainedStatement_list hbody hclose]
    exact ih

theorem eqIgnoreAsciiCase_explain {e : List Char}
    (h : eqIgnoreAsciiCase e "explain".toList = true) :
    e ≠ [] ∧ ∀ c ∈ e, isWordChar c = true := by
  have hlower : toAsciiLowercase e = "explain".toList := beq_iff_eq.1 h
  have hword : ∀ c ∈ "explain".toList, isWordChar c = true := all_eq_true.1 (by decide)
  constructor
  · rintro rfl
    cases hlower
  · intro c hc
    apply isWordChar_of_toLower
    apply hword
    rw [← hlower]
    exact mem_map_of_mem hc

end Found

/-! ## Two texts -/

section Texts

def guardKeywords : OptionKeywords where
  isOption w := w ∈ explainModifiers
  modifiers _ h := h
  starters := by decide

variable {comments : Comments} {s : List Char}

theorem balanced_append {t : List Char}
    (hs : ∀ c ∈ s, c ∉ ['(', ')', '\x27', '\x22', '-', '/', '#']) (ht : Balanced comments t) :
    Balanced comments (s ++ t) := by
  induction s with
  | nil => exact ht
  | cons c _ ih =>
    have hc := hs c (.head _)
    simp only [mem_cons, not_mem_nil, or_false, not_or] at hc
    refine .char ?_ ⟨?_, ?_, ?_⟩ (ih fun d hd => hs d (.tail _ hd))
    · simp [hc]
    · rintro ⟨t, ht⟩
      exact hc.2.2.2.2.1 (cons.inj ht).1.symm
    · rintro ⟨t, ht⟩
      exact hc.2.2.2.2.2.1 (cons.inj ht).1.symm
    · rintro - hhash
      exact hc.2.2.2.2.2.2 (Option.some.inj hhash)

theorem balanced_of_plain (hs : ∀ c ∈ s, c ∉ ['(', ')', '\x27', '\x22', '-', '/', '#']) :
    Balanced comments s := by
  have hnil := balanced_append hs (Balanced.nil : Balanced comments [])
  rwa [append_nil] at hnil

theorem headWord_of_query (h : OpensQuery comments s)
    (hhead : ∃ c ∈ s.head?, isWordChar c = true) : headWord s ∈ statementStarters := by
  induction h with
  | word h => exact h
  | gap hg _ ih =>
    obtain ⟨c, hc, hword⟩ := hhead
    cases hg with
    | nil => exact ih ⟨c, hc, hword⟩
    | space hspace =>
      cases hc
      rw [isWhitespace_of_isWordChar hword] at hspace
      cases hspace
    | line | hash | block =>
      cases hc
      cases hword
  | paren =>
    obtain ⟨c, hc, hword⟩ := hhead
    cases hc
    cases hword

theorem isStatement_delete : IsStatement guardKeywords comments "DELETE FROM t".toList where
  noSpace := by
    intro c hc
    cases hc
    decide
  noComment := ⟨by decide, by decide, fun _ => by decide⟩
  query := by
    nofun
  noOption := by
    intro _ h
    have hnot : headWord "DELETE FROM t".toList ∉ explainModifiers := by decide +kernel
    exact hnot h

theorem gap_space : Gap comments [' '] := .space (by decide) .nil

theorem wordEnds_space : WordEnds (' ' :: s) := by
  intro c hc
  cases hc
  decide

theorem isOptionList_of_word {body : List Char} (hbalanced : Balanced comments body)
    (hhead : ∃ c ∈ body.head?, isWordChar c = true) (hword : headWord body ∉ statementStarters) :
    IsOptionList comments body :=
  ⟨hbalanced, fun hquery => hword (headWord_of_query hquery hhead)⟩

end Texts

end QueryFlux.Sql
