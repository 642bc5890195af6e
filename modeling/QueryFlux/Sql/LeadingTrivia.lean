import QueryFlux.Sql.Explain

/-!
# Text in front of a statement

Engines ignore white space, comments and empty statements in front of a statement (`Ignored`): line
comments, block comments, which nest in some dialects, and the `#` comments of MySQL. The guard
looks for the first word behind `stripLeadingSqlComments`, which knows white space, `--` comments
up to the end of the line, and block comments up to the first `*/`. What it recognises is the same
behind a text as without it exactly for these (`recognises_behind_iff`); behind any other ignored
text an `EXECUTE` or an `EXPLAIN` goes unseen (`statements_hidden`).
-/

namespace QueryFlux.Sql

open Core List

/-! ## What databases skip -/

/-- Before a statement: white space, comments of any dialect, empty statements. -/
inductive Ignored : List Char → Prop
  | nil : Ignored []
  | space {c : Char} {s : List Char} : isWhitespace c = true → Ignored s → Ignored (c :: s)
  | line {body s : List Char} :
      '\n' ∉ body → Ignored s → Ignored ('-' :: '-' :: (body ++ '\n' :: s))
  | hash {body s : List Char} : '\n' ∉ body → Ignored s → Ignored ('#' :: (body ++ '\n' :: s))
  | block {nested : Bool} {body s : List Char} :
      CommentBody nested body → Ignored s → Ignored ('/' :: '*' :: (body ++ '*' :: '/' :: s))
  | emptyStatement {s : List Char} : Ignored s → Ignored (';' :: s)

/-- The comments `stripLeadingSqlComments` knows: a block comment is closed by the first `*/`. -/
def closesOnce : Comments where
  block body := ¬['*', '/'] <:+: body
  hash := false

def ExplainSplit.shift (n : Nat) : ExplainSplit → ExplainSplit
  | .notExplain => .notExplain
  | .inner offset => .inner (n + offset)
  | .unrecognized => .unrecognized

/-- The guard finds the same statement behind this text as without it. -/
def RecognisesBehind (p s : List Char) : Prop :=
  (∀ evaluatesCall, runsSqlItDoesNotShow (String.ofList (p ++ s)) evaluatesCall =
    runsSqlItDoesNotShow (String.ofList s) evaluatesCall) ∧
  explainSplit (String.ofList (p ++ s)) = (explainSplit (String.ofList s)).shift p.length

/-! ## Behind what it skips -/

theorem runsSqlItDoesNotShow_congr {a b : String}
    (h : stripLeadingSqlComments a.toList = stripLeadingSqlComments b.toList)
    (evaluatesCall : Bool) :
    runsSqlItDoesNotShow a evaluatesCall = runsSqlItDoesNotShow b evaluatesCall := by
  unfold runsSqlItDoesNotShow
  rw [h]

variable {s : List Char}

theorem explainSplit_append {p : List Char}
    (h : stripLeadingSqlComments (p ++ s) = stripLeadingSqlComments s) :
    explainSplit (String.ofList (p ++ s)) = (explainSplit (String.ofList s)).shift p.length := by
  unfold explainSplit
  simp only [String.toList_ofList, String.length_ofList, h]
  split
  · split
    · rename_i inner hinner
      have hle := length_explainedStatement_le hinner
      have hstrip := length_stripLeadingSqlComments_le s
      rw [length_drop] at hle
      rw [ExplainSplit.shift, length_append]
      congr 1
      omega
    · rfl
  · rfl

theorem recognises_behind_gap {p : List Char} (h : Gap closesOnce p) (s : List Char) :
    RecognisesBehind p s := by
  have hstrip := strip_gap (fun _ hbody => hbody) rfl h s
  refine ⟨fun evaluatesCall => ?_, explainSplit_append hstrip⟩
  apply runsSqlItDoesNotShow_congr
  rw [String.toList_ofList, String.toList_ofList, hstrip]

/-! ## What the guard does not skip -/

/-- Neither white space nor a closed comment starts here. -/
inductive Stuck : List Char → Prop
  | nil : Stuck []
  | text {c : Char} {s : List Char} :
      isWhitespace c = false → NoComment false (c :: s) → Stuck (c :: s)
  | line {s : List Char} : '\n' ∉ s → Stuck ('-' :: '-' :: s)
  | block {s : List Char} : ¬['*', '/'] <:+: s → Stuck ('/' :: '*' :: s)

theorem exists_first_infix {p : List Char} (hp : p ≠ []) (h : p <:+: s) :
    ∃ a b, s = a ++ (p ++ b) ∧ ¬p <:+: a := by
  induction s with
  | nil => exact absurd (infix_nil.1 h) hp
  | cons c s ih =>
    by_cases hstart : p <+: c :: s
    · obtain ⟨b, hb⟩ := hstart
      exact ⟨[], b, hb.symm, fun hin => hp (infix_nil.1 hin)⟩
    · obtain ⟨a, b, rfl, ha⟩ := ih ((infix_cons_iff.1 h).resolve_left hstart)
      refine ⟨c :: a, b, rfl, ?_⟩
      rw [infix_cons_iff, not_or]
      refine ⟨fun hpre => hstart ?_, ha⟩
      exact hpre.trans (prefix_append (c :: a) (p ++ b))

/-- Every text is a part that is skipped and one that is not. -/
theorem exists_gap_stuck (p : List Char) : ∃ g q, p = g ++ q ∧ Gap closesOnce g ∧ Stuck q := by
  match p with
  | [] => exact ⟨[], [], rfl, .nil, .nil⟩
  | c :: s =>
    by_cases hline : ['-', '-'] <+: c :: s
    · obtain ⟨rest, hrest⟩ := hline
      rw [cons_append, cons_append, nil_append, cons.injEq] at hrest
      obtain ⟨rfl, rfl⟩ := hrest
      by_cases hend : '\n' ∈ rest
      · obtain ⟨body, after, rfl, hbody⟩ := eq_append_cons_of_mem hend
        obtain ⟨g, q, rfl, hg, hq⟩ := exists_gap_stuck after
        exact ⟨'-' :: '-' :: (body ++ '\n' :: g), q, by simp, .line hbody hg, hq⟩
      · exact ⟨[], _, rfl, .nil, .line hend⟩
    · by_cases hblock : ['/', '*'] <+: c :: s
      · obtain ⟨rest, hrest⟩ := hblock
        rw [cons_append, cons_append, nil_append, cons.injEq] at hrest
        obtain ⟨rfl, rfl⟩ := hrest
        by_cases hclose : ['*', '/'] <:+: rest
        · obtain ⟨body, after, rfl, hbody⟩ := exists_first_infix (by simp) hclose
          obtain ⟨g, q, rfl, hg, hq⟩ := exists_gap_stuck after
          exact ⟨'/' :: '*' :: (body ++ '*' :: '/' :: g), q, by simp, .block hbody hg, hq⟩
        · exact ⟨[], _, rfl, .nil, .block hclose⟩
      · by_cases hspace : isWhitespace c = true
        · obtain ⟨g, q, rfl, hg, hq⟩ := exists_gap_stuck s
          exact ⟨c :: g, q, rfl, .space hspace hg, hq⟩
        · exact ⟨[], _, rfl, .nil, .text (Bool.eq_false_iff.2 hspace) ⟨hline, hblock, nofun⟩⟩
termination_by p.length
decreasing_by
  all_goals
    subst_vars
    simp only [List.length_cons, List.length_append, List.length_nil]
    omega

theorem skipTrivia_line_open (h : '\n' ∉ s) : skipTrivia .line s = [] := by
  induction s with
  | nil => rfl
  | cons _ _ ih =>
    rw [mem_cons, not_or] at h
    rw [skipTrivia_line_cons (Ne.symm h.1), ih h.2]

theorem skipTrivia_block_open (h : ¬['*', '/'] <:+: s) (unclosed : List Char) :
    skipTrivia (.block unclosed) s = unclosed := by
  induction s with
  | nil => rfl
  | cons _ _ ih =>
    have hstart := not_prefix_of_not_infix h
    rw [skipTrivia_block_cons hstart, ih (not_infix_of_cons h)]

theorem close_infix_of_append {t : List Char} (ht : '/' ∉ t) (h : ['*', '/'] <:+: s ++ t) :
    ['*', '/'] <:+: s := by
  induction s with
  | nil => exact absurd (h.subset (.tail _ (.head _))) ht
  | cons _ s ih =>
    rw [cons_append, infix_cons_iff] at h
    rw [infix_cons_iff]
    obtain hpre | hin := h
    · rw [cons_prefix_cons] at hpre ⊢
      refine .inl ⟨hpre.1, ?_⟩
      cases s with
      | nil => exact absurd (hpre.2.subset (.head _)) ht
      | cons =>
        rw [cons_append, cons_prefix_cons] at hpre
        rw [cons_prefix_cons]
        exact ⟨hpre.2.1, nil_prefix⟩
    · exact .inr (ih hin)

/-! ## Exactly then -/

theorem runsSqlItDoesNotShow_do {evaluatesCall : Bool} :
    runsSqlItDoesNotShow (String.ofList s) evaluatesCall = some "DO" ↔
      headWord (stripLeadingSqlComments s) = "do" := by
  unfold runsSqlItDoesNotShow
  simp only [String.toList_ofList]
  constructor
  · intro h
    split at h
    · simp at h
    · simp at h
    · simp at h
    · assumption
    · simp at h
    · split at h <;> simp at h
    · split at h <;> simp at h
    · cases h
  · intro h
    rw [h]
    rfl

theorem noComment_append {q t : List Char} (hq : q ≠ []) (h : NoComment false q)
    (ht : ∀ c ∈ t.head?, c ≠ '-' ∧ c ≠ '*') : NoComment false (q ++ t) := by
  cases q with
  | nil => exact absurd rfl hq
  | cons _ q =>
    cases q with
    | cons => exact ⟨by simpa using h.line, by simpa using h.block, nofun⟩
    | nil =>
      cases t with
      | nil => exact h
      | cons c =>
        obtain ⟨hdash, hstar⟩ := ht c rfl
        refine ⟨?_, ?_, nofun⟩
        · simp [cons_prefix_cons, Ne.symm hdash]
        · simp [cons_prefix_cons, Ne.symm hstar]

theorem length_wordAt_of_headWord {w : String} (h : headWord s = w) :
    (wordAt s).length = w.length := by
  rw [← h, headWord, String.length_ofList, toAsciiLowercase, length_map]

theorem wordAt_append_cases (s t : List Char) : wordAt (s ++ t) =
    if (wordAt s).length = s.length then s ++ wordAt t else wordAt s :=
  takeWhile_append

theorem headWord_eq_empty {c : Char} (h : isWordChar c = false) (s : List Char) :
    headWord (c :: s) = "" := by
  rw [headWord, wordAt, takeWhile_cons_of_neg (by simp [h])]
  rfl

/-- If the first word is `do` with `do` put behind, it was in the text already. -/
theorem headWord_text {c : Char} {s : List Char} (hspace : isWhitespace c = false)
    (hno : NoComment false (c :: s))
    (hdo : headWord (stripLeadingSqlComments (c :: s ++ "do".toList)) = "do") :
    headWord (stripLeadingSqlComments (c :: s ++ "select".toList)) = "do" := by
  have hstrip : ∀ d t, d ≠ '-' ∧ d ≠ '*' →
      stripLeadingSqlComments (c :: s ++ d :: t) = c :: s ++ d :: t := by
    intro d t hd
    have happend : NoComment false (c :: s ++ d :: t) := by
      refine noComment_append (cons_ne_nil c s) hno ?_
      rintro e ⟨⟩
      exact hd
    refine strip_eq_self ?_ happend.line happend.block
    rintro e ⟨⟩
    exact hspace
  rw [show "do".toList = ['d', 'o'] from rfl, hstrip _ _ (by decide)] at hdo
  rw [show "select".toList = 's' :: "elect".toList from rfl, hstrip _ _ (by decide)]
  by_cases hall : (wordAt (c :: s)).length = (c :: s).length
  · -- the word would go on into what is put behind, and be too long
    have hlength := length_wordAt_of_headWord hdo
    have htwo : (wordAt ['d', 'o']).length = "do".length := by decide
    rw [wordAt_append_cases, if_pos hall, length_append, htwo, length_cons] at hlength
    omega
  · have hsame : ∀ t : List Char, headWord (c :: s ++ t) = headWord (c :: s) := by
      intro t
      rw [headWord, headWord, wordAt_append_cases, if_neg hall]
    rw [hsame] at hdo ⊢
    exact hdo

theorem Stuck.eq_nil {q : List Char} (h : Stuck q)
    (hdo : headWord (stripLeadingSqlComments (q ++ "do".toList)) = "do")
    (hselect : headWord (stripLeadingSqlComments (q ++ "select".toList)) ≠ "do") : q = [] := by
  cases h with
  | nil => rfl
  | text hspace hno => exact absurd (headWord_text hspace hno hdo) hselect
  | line hend =>
    rename_i s
    have hopen : '\n' ∉ s ++ "do".toList := by
      rw [mem_append, not_or]
      exact ⟨hend, by decide⟩
    have hstrip : stripLeadingSqlComments ('-' :: '-' :: s ++ "do".toList) = [] :=
      skipTrivia_line_open hopen
    rw [hstrip] at hdo
    exact absurd hdo (by decide)
  | block hclose =>
    rename_i s
    have hopen : ¬['*', '/'] <:+: s ++ "do".toList :=
      fun hin => hclose (close_infix_of_append (by decide) hin)
    have hstrip : stripLeadingSqlComments ('/' :: '*' :: s ++ "do".toList) =
        '/' :: '*' :: s ++ "do".toList :=
      skipTrivia_block_open hopen _
    rw [hstrip, cons_append, headWord_eq_empty (by decide)] at hdo
    exact absurd hdo (by decide)

/-- Exactly behind white space, `--` comments and block comments up to the first `*/` the guard
recognises every statement as it does without the text in front of it. -/
theorem recognises_behind_iff (p : List Char) :
    (∀ s, RecognisesBehind p s) ↔ Gap closesOnce p := by
  constructor
  · intro h
    obtain ⟨g, q, rfl, hg, hq⟩ := exists_gap_stuck p
    have hstrip : ∀ s,
        stripLeadingSqlComments (g ++ q ++ s) = stripLeadingSqlComments (q ++ s) := by
      intro s
      rw [append_assoc, strip_gap (fun _ hbody => hbody) rfl hg]
    have hdo := (h "do".toList).1 true
    have hselect := (h "select".toList).1 true
    have hnil : q = [] := by
      apply hq.eq_nil
      · rw [← hstrip, ← runsSqlItDoesNotShow_do, hdo]
        decide
      · rw [← hstrip, Ne, ← runsSqlItDoesNotShow_do, hselect]
        decide
    rw [hnil, append_nil]
    exact hg
  · exact recognises_behind_gap

/-- The guard does not look behind any of them. -/
theorem statements_hidden :
    ["# c\n", ";", "/* /* */ */"].Forall fun p => Ignored p.toList ∧
      runsSqlItDoesNotShow "EXECUTE q" true = some "EXECUTE" ∧
      runsSqlItDoesNotShow (p ++ "EXECUTE q") true = none ∧
      explainSplit "EXPLAIN ANALYZE DELETE FROM t" = .inner 16 ∧
      explainSplit (p ++ "EXPLAIN ANALYZE DELETE FROM t") = .notExplain := by
  have hash : Ignored ('#' :: (" c".toList ++ '\n' :: [])) := .hash (by decide) .nil
  have empty : Ignored ";".toList := .emptyStatement .nil
  have hbody : CommentBody true " /* */ ".toList := by
    rw [CommentBody, if_pos rfl]
    decide
  have nested : Ignored ('/' :: '*' :: (" /* */ ".toList ++ '*' :: '/' :: [])) := .block hbody .nil
  have hexecute : runsSqlItDoesNotShow "EXECUTE q" true = some "EXECUTE" := by decide +kernel
  have hexplain : explainSplit "EXPLAIN ANALYZE DELETE FROM t" = .inner 16 := by decide +kernel
  rw [forall_iff_forall_mem]
  intro p hp
  simp only [mem_cons, not_mem_nil, or_false] at hp
  obtain rfl | rfl | rfl := hp
  · exact ⟨hash, hexecute, by decide +kernel, hexplain, by decide +kernel⟩
  · exact ⟨empty, hexecute, by decide +kernel, hexplain, by decide +kernel⟩
  · exact ⟨nested, hexecute, by decide +kernel, hexplain, by decide +kernel⟩

end QueryFlux.Sql
