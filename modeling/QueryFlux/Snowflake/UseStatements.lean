import QueryFlux.Core.Trim
import QueryFlux.Snowflake.Session
import QueryFlux.Sql.Statement

/-!
# Which `USE` statements are recognised

`try_parse_snowflake_use` compares the start of the text with `use role` and the like and leaves
what follows to the tokenizer. So it recognises exactly the statements with only white space in
front of `USE`, one space before the second word, white space behind it, and no semicolon left
behind the last identifier once those at the end of the text are cut off (`use_recognised_iff`).
With another gap between the words the text is tried as `USE` with a database, and is not one. A
statement that is not recognised is run on a connection that sessions share (`use_dispatched`).
-/

namespace QueryFlux.Snowflake

open Core Sql

/-! ## Statements as they are written -/

def useWord : SnowflakeUseTarget → String
  | .warehouse => "warehouse"
  | .role => "role"
  | .schema => "schema"
  | .database => "database"

def useKeyword : SnowflakeUseTarget → String
  | .warehouse => "use warehouse"
  | .role => "use role"
  | .schema => "use schema"
  | .database => "use database"

/-- A quoted identifier, or an unquoted one of letters, digits, underscores and dollar signs. -/
def Identifier (token : Token) : Prop :=
  token.tokenType = .quotedIdentifier ∧ token.text ≠ "" ∨
    (token.tokenType = .var ∨ token.tokenType = .keyword) ∧
      (∃ c ∈ token.text.toList.head?, c.isAlpha = true ∨ c = '_') ∧
      ∀ c ∈ token.text.toList, c.isAlphanum = true ∨ c = '_' ∨ c = '$'

/-- One identifier, or for a schema two with a dot, with their names. -/
inductive Identifiers : SnowflakeUseTarget → List Token → List String → Prop
  | one {target : SnowflakeUseTarget} {token : Token} (h : Identifier token) :
    Identifiers target [token] [token.text]
  | two {database schema : Token} (h : Identifier database) (h' : Identifier schema) :
    Identifiers .schema [database, ⟨.dot, "."⟩, schema] [database.text, schema.text]

theorem Identifiers.exists_eq_cons {target : SnowflakeUseTarget} {tokens : List Token}
    {names : List String} (h : Identifiers target tokens names) :
    ∃ token rest, tokens = token :: rest := by
  cases h with
  | one | two => exact ⟨_, _, rfl⟩

/-- White space, comments and a number of semicolons. A line comment goes on to the next line
break; one that goes on to the end of the text leaves the layout open. -/
inductive Layout : Nat → Bool → List Char → Prop
  | nil : Layout 0 false []
  | space {n : Nat} {unclosed : Bool} {c : Char} {t : List Char} (hc : isWhitespace c = true)
    (h : Layout n unclosed t) : Layout n unclosed (c :: t)
  | semicolon {n : Nat} {unclosed : Bool} {t : List Char} (h : Layout n unclosed t) :
    Layout (n + 1) unclosed (';' :: t)
  | block {n : Nat} {unclosed : Bool} {body t : List Char} (hbody : ¬['*', '/'] <:+: body)
    (h : Layout n unclosed t) :
    Layout n unclosed ('/' :: '*' :: body ++ ['*', '/'] ++ t)
  | line {n : Nat} {unclosed : Bool} {c : Char} {body t : List Char} (hc : c = '-' ∨ c = '/')
    (hbody : '\n' ∉ body) (h : Layout n unclosed t) :
    Layout n unclosed ([c, c] ++ body ++ '\n' :: t)
  | lastLine {c : Char} {body : List Char} (hc : c = '-' ∨ c = '/') (hbody : '\n' ∉ body) :
    Layout 0 true ([c, c] ++ body)

def semicolonToken : Token := ⟨.other, ";"⟩

/-- A statement as it is written: what stands in front, the two words in any case with the gap
between them, the text up to the last identifier, and what stands behind that. The tokenizer reads
the identifiers, and one token for each semicolon behind them; before the second word it reads
tokens for that word too. -/
structure UseStatement (tokenize : Tokenize) where
  target : SnowflakeUseTarget
  names : List String
  wordTokens : List Token
  tokens : List Token
  lead : List Char
  use : List Char
  gap : List Char
  word : List Char
  rest : List Char
  tail : List Char
  lead_layout : Layout 0 false lead
  use_eq : toLowercase use = "use".toList
  gap_layout : Layout 0 false gap ∧ gap ≠ []
  word_eq : toLowercase word = (useWord target).toList
  rest_last : rest ≠ [] ∧ ∀ c ∈ rest.getLast?, isWhitespace c = false ∧ c ≠ ';'
  tail_layout : ∃ n unclosed, Layout n unclosed tail
  identifiers : Identifiers target tokens names
  wordTokens_ne_nil : wordTokens ≠ []
  tokenize_rest : ∀ n unclosed t, Layout n unclosed t →
    tokenize (rest ++ t) = some (tokens ++ List.replicate n semicolonToken)
  tokenize_word : ∀ n unclosed t, Layout n unclosed t →
    tokenize (gap ++ (word ++ (rest ++ t))) =
      some (wordTokens ++ (tokens ++ List.replicate n semicolonToken))

/-- A text without the white space at its end, and then without the semicolons at its end. -/
def withoutEnd (t : List Char) : List Char :=
  trimEndMatches (· = ';') (trimEndMatches isWhitespace t)

variable {tokenize : Tokenize}

namespace UseStatement

def core (s : UseStatement tokenize) : List Char := s.use ++ (s.gap ++ (s.word ++ s.rest))

def text (s : UseStatement tokenize) : List Char := s.lead ++ (s.core ++ s.tail)

/-- White space in front, one space between the words, white space behind them, and no semicolon
in what is left of the tail. -/
structure Plain (s : UseStatement tokenize) : Prop where
  lead : ∀ c ∈ s.lead, isWhitespace c = true
  gap : s.gap = [' ']
  rest : s.rest.head?.any isWhitespace = true
  tail : ∃ unclosed, Layout 0 unclosed (withoutEnd s.tail)

end UseStatement

/-! ## Layout -/

section
variable {n : Nat} {unclosed : Bool} {t : List Char}

theorem Layout.trimStart (h : Layout n unclosed t) : Layout n unclosed (trimStart t) := by
  induction h with
  | nil => exact .nil
  | @space _ _ c t hc _ ih =>
    have hstart : Core.trimStart (c :: t) = Core.trimStart t :=
      trimStart_append (a := [c]) (List.forall_mem_singleton.2 hc) t
    exact hstart ▸ ih
  | semicolon h => exact .semicolon h
  | block hbody h => exact .block hbody h
  | line hc hbody h =>
    rcases hc with rfl | rfl
    · exact .line (.inl rfl) hbody h
    · exact .line (.inr rfl) hbody h
  | lastLine hc hbody =>
    rcases hc with rfl | rfl
    · exact .lastLine (.inl rfl) hbody
    · exact .lastLine (.inr rfl) hbody

theorem isLower_eq_false_of_isWhitespace {c : Char} (h : isWhitespace c = true) :
    c.isLower = false := by
  by_contra hlower
  unfold Char.isLower at hlower
  rw [Bool.not_eq_false, Bool.and_eq_true, decide_eq_true_iff, decide_eq_true_iff] at hlower
  have hrange : 97 ≤ c.toNat ∧ c.toNat ≤ 122 := hlower
  simp only [isWhitespace, Bool.or_eq_true, Bool.and_eq_true, decide_eq_true_eq, beq_iff_eq] at h
  omega

/-- No keyword starts like a layout. -/
theorem Layout.isLower_lowerChar (h : Layout n unclosed t) :
    ∀ c ∈ t.head?, (lowerChar c).isLower = false := by
  cases h with
  | nil => nofun
  | space hc =>
    rintro c ⟨⟩
    exact isLower_eq_false_of_isWhitespace ((isWhitespace_lowerChar _).trans hc)
  | semicolon =>
    rintro c ⟨⟩
    rfl
  | block =>
    rintro c ⟨⟩
    rfl
  | line hc | lastLine hc =>
    rcases hc with rfl | rfl
    · rintro c ⟨⟩
      rfl
    · rintro c ⟨⟩
      rfl

theorem Layout.tail {c : Char} {s : List Char} (h : Layout n unclosed s) (hs : s = c :: t)
    (hc : isWhitespace c = true) : Layout n unclosed t := by
  cases h with
  | nil => cases hs
  | space _ h => exact (List.cons.inj hs).2 ▸ h
  | semicolon | block =>
    rw [← (List.cons.inj hs).1] at hc
    cases hc
  | line hd | lastLine hd =>
    rw [← (List.cons.inj hs).1] at hc
    rcases hd with rfl | rfl <;> cases hc

theorem withoutEnd_append {a : List Char} (h : ∀ c ∈ a.getLast?, isWhitespace c = false ∧ c ≠ ';')
    (b : List Char) : withoutEnd (a ++ b) = a ++ withoutEnd b := by
  rw [withoutEnd, trimEndMatches_append_of_last fun c hc => (h c hc).1,
    trimEndMatches_append_of_last fun c hc => decide_eq_false (h c hc).2]
  rfl

theorem not_mem_withoutEnd {c : Char} {body : List Char} (h : c ∉ body) :
    c ∉ withoutEnd body := by
  obtain ⟨back, hback, -⟩ := exists_trimEndMatches isWhitespace body
  obtain ⟨back', hback', -⟩ := exists_trimEndMatches (· = ';') (trimEndMatches isWhitespace body)
  intro hmem
  apply h
  rw [hback, hback']
  exact List.mem_append_left _ (List.mem_append_left _ hmem)

theorem dash_or_slash {c : Char} (h : c = '-' ∨ c = '/') :
    ∀ d ∈ [c, c].getLast?, isWhitespace d = false ∧ d ≠ ';' := by
  rcases h with rfl | rfl
  · rintro d ⟨⟩
    exact ⟨rfl, by decide⟩
  · rintro d ⟨⟩
    exact ⟨rfl, by decide⟩

/-- If only white space follows a line comment the comment itself is cut. -/
theorem withoutEnd_line {c : Char} (hc : c = '-' ∨ c = '/') (body t : List Char) :
    withoutEnd ([c, c] ++ body ++ '\n' :: t) = [c, c] ++ withoutEnd body ∨
      withoutEnd ([c, c] ++ body ++ '\n' :: t) = [c, c] ++ body ++ '\n' :: withoutEnd t := by
  have hlast : ∀ d ∈ ([c, c] ++ body ++ ['\n']).getLast?, decide (d = ';') = false := by
    intro d hd
    rw [List.getLast?_append_of_ne_nil _ (List.cons_ne_nil _ _)] at hd
    cases hd
    rfl
  by_cases hempty : trimEndMatches isWhitespace ('\n' :: t) = []
  · left
    rw [← withoutEnd_append (dash_or_slash hc), withoutEnd, trimEndMatches_append_eq_ite,
      if_pos hempty, withoutEnd]
  · right
    have hne : trimEndMatches isWhitespace t ≠ [] := by
      intro hnil
      rw [← List.singleton_append, trimEndMatches_append_eq_ite, if_pos hnil] at hempty
      exact hempty (by decide)
    have hspace : trimEndMatches isWhitespace ([c, c] ++ body ++ '\n' :: t) =
        [c, c] ++ body ++ ['\n'] ++ trimEndMatches isWhitespace t := by
      rw [List.append_cons, trimEndMatches_append_eq_ite, if_neg hne]
    rw [withoutEnd, hspace, trimEndMatches_append_of_last hlast, ← List.append_cons]
    rfl

/-- Cutting off the end of a layout leaves a layout, with perhaps fewer semicolons. -/
theorem Layout.withoutEnd (h : Layout n unclosed t) :
    ∃ m unclosed', Layout m unclosed' (withoutEnd t) := by
  induction h with
  | nil => exact ⟨0, false, .nil⟩
  | @space _ _ c t hc _ ih =>
    obtain ⟨m, unclosed', ih⟩ := ih
    have hne : ∀ d ∈ [c].getLast?, decide (d = ';') = false := by
      intro d hd
      obtain rfl : c = d := Option.some.inj hd
      refine decide_eq_false fun heq => ?_
      rw [heq] at hc
      cases hc
    rw [Snowflake.withoutEnd, ← List.singleton_append, trimEndMatches_append_eq_ite]
    split_ifs with hempty
    · have hall := trimEndMatches_append (p := isWhitespace) [] (List.forall_mem_singleton.2 hc)
      rw [List.nil_append] at hall
      exact ⟨0, false, hall ▸ .nil⟩
    · rw [trimEndMatches_append_of_last hne]
      exact ⟨m, unclosed', .space hc ih⟩
  | @semicolon _ _ t _ ih =>
    obtain ⟨m, unclosed', ih⟩ := ih
    have hspace : ∀ d ∈ [';'].getLast?, isWhitespace d = false := by
      rintro d ⟨⟩
      rfl
    rw [Snowflake.withoutEnd, ← List.singleton_append, trimEndMatches_append_of_last hspace,
      trimEndMatches_append_eq_ite]
    split_ifs with hempty
    · exact ⟨0, false, .nil⟩
    · exact ⟨m + 1, unclosed', .semicolon ih⟩
  | @block _ _ body _ hbody _ ih =>
    obtain ⟨m, unclosed', ih⟩ := ih
    refine ⟨m, unclosed', ?_⟩
    rw [withoutEnd_append]
    · exact .block hbody ih
    · intro d hd
      rw [List.getLast?_append_of_ne_nil _ (List.cons_ne_nil _ _)] at hd
      cases hd
      exact ⟨rfl, by decide⟩
  | @line _ _ c body t hc hbody _ ih =>
    obtain ⟨m, unclosed', ih⟩ := ih
    rcases withoutEnd_line hc body t with hcut | hkept
    · exact ⟨0, true, hcut ▸ .lastLine hc (not_mem_withoutEnd hbody)⟩
    · exact ⟨m, unclosed', hkept ▸ .line hc hbody ih⟩
  | lastLine hc hbody =>
    rw [withoutEnd_append (dash_or_slash hc)]
    exact ⟨0, true, .lastLine hc (not_mem_withoutEnd hbody)⟩

end

/-! ## The tokens behind the words -/

theorem isUseIdentifier_of_identifier {token : Token} (h : Identifier token) :
    isUseIdentifier token = true := by
  rcases h with ⟨htype, htext⟩ | ⟨htype, ⟨c, hc, hfirst⟩, hall⟩
  · simpa [isUseIdentifier, htype] using htext
  · have hother : token.tokenType ≠ .quotedIdentifier := by
      rcases htype with h | h <;> rw [h] <;> decide
    rw [isUseIdentifier, if_neg hother, Option.mem_def.1 hc]
    simpa [htype, hfirst, or_assoc] using hall

theorem useNames_of_identifiers {target : SnowflakeUseTarget} {tokens : List Token}
    {names : List String} (h : Identifiers target tokens names) :
    useNames target tokens = some names := by
  cases h with
  | one h => exact if_pos (isUseIdentifier_of_identifier h)
  | two h h' =>
    simp [useNames, isUseIdentifier_of_identifier h, isUseIdentifier_of_identifier h']

theorem useNames_append_semicolons {target : SnowflakeUseTarget} {tokens : List Token}
    {names : List String} (h : Identifiers target tokens names) (m : Nat) :
    useNames target (tokens ++ List.replicate (m + 1) semicolonToken) = none := by
  cases h with
  | one =>
    match m with
    | 0 => rfl
    | 1 =>
      -- two semicolons stand where a dot and a schema would
      simp [useNames, List.replicate, semicolonToken]
    | m + 2 => rfl
  | two => rfl

theorem useNames_database {first second : Token} {tokens : List Token} :
    useNames .database (first :: second :: tokens) = none := by
  match tokens with
  | [] => rfl
  | [_] => simp [useNames]
  | _ :: _ :: _ => rfl

/-! ## The words -/

theorem isPrefixOf_of_stripUseKeyword {sLower s keyword : List Char}
    (h : stripUseKeyword sLower s keyword ≠ none) :
    ∃ x, sLower = keyword ++ x ∧ (x = [] ∨ x.head?.any isWhitespace = true) := by
  unfold stripUseKeyword at h
  split_ifs at h with heq hstart
  · exact ⟨[], by rw [heq, List.append_nil], .inl rfl⟩
  · obtain ⟨hstart, hspace⟩ := (Bool.and_eq_true _ _).mp hstart
    obtain ⟨x, rfl⟩ := List.isPrefixOf_iff_prefix.1 hstart
    rw [List.drop_left] at hspace
    exact ⟨x, rfl, .inr hspace⟩
  · exact absurd rfl h

theorem stripUseKeyword_append (keyword s : List Char) {x : List Char}
    (h : x.head?.any isWhitespace = true) :
    stripUseKeyword (keyword ++ x) s keyword = some (s.drop keyword.length) := by
  rw [stripUseKeyword]
  split
  · rfl
  · rw [List.drop_left, h, Bool.and_true, if_pos (by simp)]

theorem findSome?_useKeywords (target : SnowflakeUseTarget) (s : List Char) {x : List Char}
    (h : x.head?.any isWhitespace = true) :
    (useKeywords.findSome? fun (keyword, target') =>
      (stripUseKeyword ((useKeyword target).toList ++ x) s keyword.toList).map
        fun rest => (target', rest)) =
      some (target, s.drop (useKeyword target).toList.length) := by
  have hown := stripUseKeyword_append (useKeyword target).toList s h
  have hother : ∀ t, t ≠ target →
      stripUseKeyword ((useKeyword target).toList ++ x) s (useKeyword t).toList = none := by
    intro t ht
    cases t <;> cases target <;> first | exact absurd rfl ht | rfl
  have hkeywords : useKeywords = [(useKeyword .warehouse, .warehouse), (useKeyword .role, .role),
    (useKeyword .schema, .schema), (useKeyword .database, .database), ("use", .database)] := rfl
  rw [hkeywords]
  cases target <;> simp [hown, hother]

theorem useKeyword_eq (target : SnowflakeUseTarget) :
    (useKeyword target).toList = "use".toList ++ ' ' :: (useWord target).toList := by
  cases target <;> rfl

/-- Only one target's word starts the text that starts with this target's word. -/
theorem useWord_append_cancel {target target' : SnowflakeUseTarget} {x y : List Char}
    (h : (useWord target).toList ++ x = (useWord target').toList ++ y) :
    target = target' ∧ x = y := by
  have htarget : target = target' := by
    cases target <;> cases target'
    all_goals first | rfl | exact absurd (List.head_eq_of_cons_eq h) (by decide)
  subst htarget
  exact ⟨rfl, List.append_cancel_left h⟩

theorem exists_useWord_eq_cons (target : SnowflakeUseTarget) :
    ∃ l letters, (useWord target).toList = l :: letters ∧ l.isLower = true := by
  cases target <;> exact ⟨_, _, rfl, rfl⟩

namespace UseStatement

variable {s : UseStatement tokenize}

theorem head?_core (y : List Char) : ∀ c ∈ (s.core ++ y).head?, isWhitespace c = false := by
  intro c hc
  have huse := s.use_eq
  rw [core] at hc
  cases hs : s.use with
  | nil => rw [hs] at huse; cases huse
  | cons d cs =>
    rw [hs] at huse hc
    cases hc
    have hlower : lowerChar c = 'u' := (List.cons.inj huse).1
    rw [← isWhitespace_lowerChar, hlower]
    rfl

theorem trimmed_eq : trimEndMatches (· = ';') (trim s.text) =
    trimStart s.lead ++ (s.core ++ withoutEnd s.tail) := by
  have hstart : trimStart s.text = trimStart s.lead ++ (s.core ++ s.tail) := by
    rw [text, trimStart, List.dropWhile_append]
    split_ifs with hnil
    · rw [trimStart, List.isEmpty_iff.1 hnil, List.nil_append]
      exact trimStart_eq_self (head?_core _)
    · rfl
  have hlast : ∀ c ∈ (trimStart s.lead ++ s.core).getLast?, isWhitespace c = false ∧ c ≠ ';' := by
    have hcore : trimStart s.lead ++ s.core =
        (trimStart s.lead ++ (s.use ++ (s.gap ++ s.word))) ++ s.rest := by
      simp [core]
    rw [hcore, List.getLast?_append_of_ne_nil _ s.rest_last.1]
    exact s.rest_last.2
  rw [trim, hstart, ← List.append_assoc]
  exact (withoutEnd_append hlast _).trans (List.append_assoc _ _ _)

theorem toLowercase_core (t : List Char) : toLowercase (s.core ++ t) =
    "use".toList ++ (toLowercase s.gap ++ ((useWord s.target).toList ++
      toLowercase (s.rest ++ t))) := by
  simp only [core, toLowercase_append, s.use_eq, s.word_eq, List.append_assoc]

-- a comment in front hides every keyword
theorem stripUseKeyword_of_lead (hlead : trimStart s.lead ≠ []) (keyword t : List Char) :
    stripUseKeyword (toLowercase (trimStart s.lead ++ t)) (trimStart s.lead ++ t)
      ('u' :: keyword) = none := by
  by_contra hne
  obtain ⟨x, hx, -⟩ := isPrefixOf_of_stripUseKeyword hne
  obtain ⟨c, cs, hcs⟩ := List.exists_cons_of_ne_nil hlead
  have hc := s.lead_layout.trimStart.isLower_lowerChar c (by rw [hcs]; rfl)
  rw [hcs] at hx
  have hhead : lowerChar c = 'u' := List.head_eq_of_cons_eq hx
  rw [hhead] at hc
  cases hc

theorem gap_of_toLowercase {x y : List Char} {target : SnowflakeUseTarget}
    (h : toLowercase s.gap ++ x = ' ' :: ((useWord target).toList ++ y)) : s.gap = [' '] := by
  obtain ⟨c, g, hg⟩ := List.exists_cons_of_ne_nil s.gap_layout.2
  rw [hg] at h
  have hc : c = ' ' := eq_of_lowerChar_eq (by decide) (List.head_eq_of_cons_eq h)
  subst hc
  have hrest : toLowercase g ++ x = (useWord target).toList ++ y := List.tail_eq_of_cons_eq h
  cases g with
  | nil => exact hg
  | cons d g =>
    -- what follows the space is layout, and no word starts like that
    have hd := (s.gap_layout.1.tail hg rfl).isLower_lowerChar d rfl
    obtain ⟨l, letters, hword, hl⟩ := exists_useWord_eq_cons target
    rw [hword] at hrest
    have hdl : lowerChar d = l := List.head_eq_of_cons_eq hrest
    rw [hdl, hl] at hd
    cases hd

theorem plain_of_stripUseKeyword {target : SnowflakeUseTarget} {t : List Char}
    (h : stripUseKeyword (toLowercase (s.core ++ t)) (s.core ++ t) (useKeyword target).toList ≠
      none) : s.gap = [' '] ∧ s.rest.head?.any isWhitespace = true := by
  obtain ⟨x, hx, hspace⟩ := isPrefixOf_of_stripUseKeyword h
  rw [toLowercase_core, useKeyword_eq, List.append_assoc] at hx
  have hgap := gap_of_toLowercase (List.append_cancel_left hx)
  refine ⟨hgap, ?_⟩
  rw [hgap] at hx
  obtain ⟨-, hrest⟩ := useWord_append_cancel
    (List.tail_eq_of_cons_eq (List.append_cancel_left hx))
  obtain ⟨c, cs, hcs⟩ := List.exists_cons_of_ne_nil s.rest_last.1
  rw [hcs] at hrest ⊢
  rcases hspace with rfl | hspace
  · cases hrest
  · rw [← hrest] at hspace
    exact (isWhitespace_lowerChar c).symm.trans hspace

end UseStatement

section
variable {s : UseStatement tokenize}

open UseStatement

theorem tryParse_of_lead (hlead : trimStart s.lead ≠ []) :
    tryParseSnowflakeUse tokenize s.text = none := by
  have hnone := fun keyword => stripUseKeyword_of_lead hlead keyword (s.core ++ withoutEnd s.tail)
  have hfound : (useKeywords.findSome? fun (keyword, target) =>
      (stripUseKeyword (toLowercase (trimStart s.lead ++ (s.core ++ withoutEnd s.tail)))
        (trimStart s.lead ++ (s.core ++ withoutEnd s.tail)) keyword.toList).map
          fun rest => (target, rest)) = none := by
    refine List.findSome?_eq_none_iff.2 fun keyword hkeyword => ?_
    simp only [useKeywords, List.mem_cons, List.not_mem_nil, or_false] at hkeyword
    rcases hkeyword with rfl | rfl | rfl | rfl | rfl
    all_goals exact Option.map_eq_none_iff.2 (hnone _)
  simp only [tryParseSnowflakeUse, trimmed_eq, hfound]
  rfl

/-- A bare `USE` takes everything behind it for the name. -/
theorem stripUseKeyword_use :
    stripUseKeyword (toLowercase (s.core ++ withoutEnd s.tail))
      (s.core ++ withoutEnd s.tail) "use".toList = none ∨
    stripUseKeyword (toLowercase (s.core ++ withoutEnd s.tail))
      (s.core ++ withoutEnd s.tail) "use".toList =
        some (s.gap ++ (s.word ++ (s.rest ++ withoutEnd s.tail))) := by
  have hdrop : (s.core ++ withoutEnd s.tail).drop 3 =
      s.gap ++ (s.word ++ (s.rest ++ withoutEnd s.tail)) := by
    have hlength : s.use.length = 3 := by
      have hmap := congrArg List.length s.use_eq
      rwa [toLowercase_eq_map, List.length_map] at hmap
    rw [core, List.append_assoc, ← hlength, List.drop_left]
    simp
  unfold stripUseKeyword
  split_ifs
  · exact .inr (congrArg some hdrop)
  · exact .inr (congrArg some hdrop)
  · exact .inl rfl

theorem tryParse_of_words (hlead : trimStart s.lead = [])
    (hwords : ¬(s.gap = [' '] ∧ s.rest.head?.any isWhitespace = true)) :
    tryParseSnowflakeUse tokenize s.text = none := by
  obtain ⟨n, unclosed, htail⟩ := s.tail_layout
  obtain ⟨m, unclosed', hend⟩ := htail.withoutEnd
  have hnone : ∀ target, stripUseKeyword (toLowercase (s.core ++ withoutEnd s.tail))
      (s.core ++ withoutEnd s.tail) (useKeyword target).toList = none := by
    intro target
    by_contra hne
    exact hwords (plain_of_stripUseKeyword hne)
  have hkeywords : useKeywords = [(useKeyword .warehouse, .warehouse), (useKeyword .role, .role),
    (useKeyword .schema, .schema), (useKeyword .database, .database), ("use", .database)] := rfl
  simp only [tryParseSnowflakeUse, trimmed_eq, hlead, List.nil_append, hkeywords,
    List.findSome?_cons, hnone, Option.map_none, List.findSome?_nil]
  rcases stripUseKeyword_use (s := s) with hbare | hbare
  · rw [hbare]
    rfl
  · rw [hbare]
    obtain ⟨first, wordRest, hword⟩ := List.exists_cons_of_ne_nil s.wordTokens_ne_nil
    have htokens := s.tokenize_word m unclosed' _ hend
    have hmore : ∃ second more, wordRest ++ (s.tokens ++ List.replicate m semicolonToken) =
        second :: more := by
      cases wordRest with
      | nil =>
        obtain ⟨token, tokens, htoken⟩ := s.identifiers.exists_eq_cons
        exact ⟨token, _, by rw [htoken]; rfl⟩
      | cons => exact ⟨_, _, rfl⟩
    obtain ⟨second, more, hmore⟩ := hmore
    rw [hword, List.cons_append, hmore] at htokens
    simp [htokens, useNames_database]

theorem tryParse_of_layout (hlead : trimStart s.lead = []) (hgap : s.gap = [' '])
    (hrest : s.rest.head?.any isWhitespace = true) {m : Nat} {unclosed : Bool}
    (hend : Layout m unclosed (withoutEnd s.tail)) :
    tryParseSnowflakeUse tokenize s.text =
      (useNames s.target (s.tokens ++ List.replicate m semicolonToken)).map (s.target, ·) := by
  have hwords : toLowercase (s.use ++ (s.gap ++ s.word)) = (useKeyword s.target).toList := by
    rw [toLowercase_append, toLowercase_append, s.use_eq, s.word_eq, hgap, useKeyword_eq]
    rfl
  have hcore : s.core ++ withoutEnd s.tail =
      (s.use ++ (s.gap ++ s.word)) ++ (s.rest ++ withoutEnd s.tail) := by
    simp [core]
  have hlower : toLowercase (s.core ++ withoutEnd s.tail) =
      (useKeyword s.target).toList ++ toLowercase (s.rest ++ withoutEnd s.tail) := by
    rw [hcore, toLowercase_append, hwords]
  have hdrop : (s.core ++ withoutEnd s.tail).drop (useKeyword s.target).toList.length =
      s.rest ++ withoutEnd s.tail := by
    rw [hcore, ← hwords, toLowercase_eq_map, List.length_map, List.drop_left]
  have hhead : (toLowercase (s.rest ++ withoutEnd s.tail)).head?.any isWhitespace = true := by
    obtain ⟨c, cs, hcs⟩ := List.exists_cons_of_ne_nil s.rest_last.1
    rw [hcs] at hrest ⊢
    exact (isWhitespace_lowerChar c).trans hrest
  have hfound := findSome?_useKeywords s.target (s.core ++ withoutEnd s.tail) hhead
  rw [hdrop] at hfound
  simp only [tryParseSnowflakeUse, trimmed_eq, hlead, List.nil_append, hlower, hfound]
  have htokens := s.tokenize_rest m unclosed _ hend
  simp only [Option.bind_eq_bind, Option.bind_some, htokens]
  cases useNames s.target (s.tokens ++ List.replicate m semicolonToken) <;> rfl

theorem trimStart_eq_nil_iff {t : List Char} :
    trimStart t = [] ↔ ∀ c ∈ t, isWhitespace c = true := List.dropWhile_eq_nil_iff

/-- Exactly the plain statements are recognised. -/
theorem tryParse_eq_some_iff :
    tryParseSnowflakeUse tokenize s.text = some (s.target, s.names) ↔ s.Plain := by
  obtain ⟨n, unclosed, htail⟩ := s.tail_layout
  obtain ⟨m, unclosed', hend⟩ := htail.withoutEnd
  constructor
  · intro h
    by_cases hlead : trimStart s.lead = []
    · by_cases hwords : s.gap = [' '] ∧ s.rest.head?.any isWhitespace = true
      · refine ⟨trimStart_eq_nil_iff.1 hlead, hwords.1, hwords.2, unclosed', ?_⟩
        rw [tryParse_of_layout hlead hwords.1 hwords.2 hend] at h
        cases m with
        | zero => exact hend
        | succ m =>
          rw [useNames_append_semicolons s.identifiers] at h
          cases h
      · rw [tryParse_of_words hlead hwords] at h
        cases h
    · rw [tryParse_of_lead hlead] at h
      cases h
  · rintro ⟨hlead, hgap, hrest, unclosed, htail⟩
    rw [tryParse_of_layout (trimStart_eq_nil_iff.2 hlead) hgap hrest htail,
      List.replicate_zero, List.append_nil, useNames_of_identifiers s.identifiers]
    rfl

theorem queryRequest_of_tryParse {target : SnowflakeUseTarget} {names : List String}
    {sql : List Char} (h : tryParseSnowflakeUse tokenize sql = some (target, names))
    (hne : trim sql ≠ []) (session : SnowflakeSession) (params : List QueryParam) :
    ∃ database schema, (queryRequest tokenize session
      (some ⟨some (String.ofList sql), params⟩)).2 = .ok database schema := by
  have hfilter : (some (String.ofList sql)).filter (fun sql => trim sql.toList ≠ []) =
      some (String.ofList sql) := by
    simp [Option.filter, hne]
  simp only [queryRequest, hfilter, String.toList_ofList, h]
  exact ⟨_, _, rfl⟩

end

/-- A statement that changes the session is recognised, and answered without being run, exactly
when it is written plainly. -/
theorem use_recognised_iff (s : UseStatement tokenize) :
    (tryParseSnowflakeUse tokenize s.text = some (s.target, s.names) ∧
      ∀ session params, ∃ database schema,
        (queryRequest tokenize session (some ⟨some (String.ofList s.text), params⟩)).2 =
          .ok database schema) ↔ s.Plain := by
  constructor
  · rintro ⟨hparse, -⟩
    exact tryParse_eq_some_iff.1 hparse
  · intro h
    have hparse := tryParse_eq_some_iff.2 h
    refine ⟨hparse, queryRequest_of_tryParse hparse ?_⟩
    intro hnil
    have htrim := s.trimmed_eq
    rw [hnil] at htrim
    have huse := s.use_eq
    rw [(List.append_eq_nil_iff.1 (List.append_eq_nil_iff.1
      (List.append_eq_nil_iff.1 htrim.symm).2).1).1] at huse
    cases huse

/-! ## A tokenizer of words -/

/-- Inside a comment, or outside of one; the second character of a comment's start or end is
skipped. -/
inductive LexMode
  | code | line | block
  | skip (next : LexMode)

def flush (word : List Char) : List Token :=
  if word = [] then [] else [⟨.var, String.ofList word.reverse⟩]

/-- Words of letters and digits, and any other character for itself. -/
def lexFrom : LexMode → List Char → List Char → List Token
  | _, word, [] => flush word
  | .skip next, word, _ :: cs => lexFrom next word cs
  | .line, word, c :: cs => lexFrom (if c = '\n' then .code else .line) word cs
  | .block, word, c :: cs =>
    lexFrom (if c = '*' && cs.head? = some '/' then .skip .code else .block) word cs
  | .code, word, c :: cs =>
    if isWhitespace c then flush word ++ lexFrom .code [] cs
    else if (c = '-' || c = '/') && cs.head? = some c then
      flush word ++ lexFrom (.skip .line) [] cs
    else if c = '/' && cs.head? = some '*' then flush word ++ lexFrom (.skip .block) [] cs
    else if c.isAlphanum then lexFrom .code (c :: word) cs
    else flush word ++ ⟨.other, String.ofList [c]⟩ :: lexFrom .code [] cs

def lexed : Tokenize := fun cs => some (lexFrom .code [] cs)

theorem lexFrom_line {body : List Char} (h : '\n' ∉ body) (word t : List Char) :
    lexFrom .line word (body ++ '\n' :: t) = lexFrom .code word t := by
  induction body with
  | nil => rfl
  | cons c body ih =>
    obtain ⟨hc, hbody⟩ : '\n' ≠ c ∧ '\n' ∉ body := by rwa [List.mem_cons, not_or] at h
    rw [List.cons_append, lexFrom, if_neg (Ne.symm hc)]
    exact ih hbody

theorem lexFrom_lastLine {body : List Char} (h : '\n' ∉ body) (word : List Char) :
    lexFrom .line word body = flush word := by
  induction body with
  | nil => rfl
  | cons c body ih =>
    obtain ⟨hc, hbody⟩ : '\n' ≠ c ∧ '\n' ∉ body := by rwa [List.mem_cons, not_or] at h
    rw [lexFrom, if_neg (Ne.symm hc)]
    exact ih hbody

theorem lexFrom_block {body : List Char} (h : ¬['*', '/'] <:+: body) (word t : List Char) :
    lexFrom .block word (body ++ (['*', '/'] ++ t)) = lexFrom .code word t := by
  induction body with
  | nil => rfl
  | cons c body ih =>
    have hopen : ¬(c = '*' ∧ (body ++ (['*', '/'] ++ t)).head? = some '/') := by
      rintro ⟨rfl, hhead⟩
      cases body with
      | nil => cases hhead
      | cons d body =>
        cases hhead
        exact h ⟨[], body, rfl⟩
    have hstep : (c = '*' && (body ++ (['*', '/'] ++ t)).head? = some '/') = false := by
      simpa using hopen
    rw [List.cons_append, lexFrom, hstep]
    exact ih fun hin => h (hin.trans (List.suffix_cons c body).isInfix)

theorem lexFrom_layout {n : Nat} {unclosed : Bool} {t : List Char} (h : Layout n unclosed t)
    (word : List Char) :
    lexFrom .code word t = flush word ++ List.replicate n semicolonToken := by
  induction h generalizing word with
  | nil => exact (List.append_nil _).symm
  | space hc _ ih =>
    rw [lexFrom, if_pos hc, ih]
    rfl
  | semicolon _ ih =>
    have hlex : ∀ t, lexFrom .code word (';' :: t) =
        flush word ++ semicolonToken :: lexFrom .code [] t := fun t => rfl
    rw [hlex, ih]
    rfl
  | @block _ _ body t hbody _ ih =>
    have hlex : ∀ t, lexFrom .code word ('/' :: '*' :: t) = flush word ++ lexFrom .block [] t :=
      fun t => rfl
    rw [List.cons_append, List.cons_append, List.cons_append, List.cons_append, hlex,
      List.append_assoc, lexFrom_block hbody, ih]
    rfl
  | @line _ _ c body t hc hbody _ ih =>
    have hlex : ∀ t, lexFrom .code word (c :: c :: t) = flush word ++ lexFrom .line [] t := by
      rcases hc with rfl | rfl <;> exact fun t => rfl
    calc lexFrom .code word ([c, c] ++ body ++ '\n' :: t)
        = flush word ++ lexFrom .line [] (body ++ '\n' :: t) := by
          rw [List.append_assoc]
          exact hlex _
      _ = flush word ++ List.replicate _ semicolonToken := by
          rw [lexFrom_line hbody, ih]
          rfl
  | @lastLine c body hc hbody =>
    have hlex : ∀ t, lexFrom .code word (c :: c :: t) = flush word ++ lexFrom .line [] t := by
      rcases hc with rfl | rfl <;> exact fun t => rfl
    calc lexFrom .code word ([c, c] ++ body) = flush word ++ lexFrom .line [] body := hlex body
      _ = flush word ++ List.replicate 0 semicolonToken := by
          rw [lexFrom_lastLine hbody]
          rfl

theorem lexFrom_append_of_layout {t : List Char} (h : Layout 0 false t) (cs : List Char) :
    lexFrom .code [] (t ++ cs) = lexFrom .code [] cs := by
  generalize hn : 0 = n at h
  generalize hu : false = unclosed at h
  induction h with
  | nil => rfl
  | space hc _ ih =>
    rw [List.cons_append, lexFrom, if_pos hc, ih hn hu]
    rfl
  | semicolon => cases hn
  | @block _ _ body t hbody _ ih =>
    calc lexFrom .code [] ('/' :: '*' :: body ++ ['*', '/'] ++ t ++ cs)
        = lexFrom .block [] (body ++ (['*', '/'] ++ (t ++ cs))) := by
          simp only [List.cons_append, List.append_assoc]
          rfl
      _ = lexFrom .code [] cs := by rw [lexFrom_block hbody, ih hn hu]
  | @line _ _ c body t hc hbody _ ih =>
    have hlex : ∀ t, lexFrom .code [] (c :: c :: t) = lexFrom .line [] t := by
      rcases hc with rfl | rfl <;> exact fun t => rfl
    calc lexFrom .code [] ([c, c] ++ body ++ '\n' :: t ++ cs)
        = lexFrom .line [] (body ++ '\n' :: (t ++ cs)) := by
          rw [List.append_assoc, List.append_assoc]
          exact hlex _
      _ = lexFrom .code [] cs := by rw [lexFrom_line hbody, ih hn hu]
  | lastLine => cases hu

/-- `USE ROLE x` with any layout in front, between the words and at the end. -/
def useRole (lead gap tail : List Char) (hlead : Layout 0 false lead)
    (hgap : Layout 0 false gap ∧ gap ≠ []) (htail : ∃ n unclosed, Layout n unclosed tail) :
    UseStatement lexed where
  target := .role
  names := ["x"]
  wordTokens := [⟨.var, "ROLE"⟩]
  tokens := [⟨.var, "x"⟩]
  lead := lead
  use := "USE".toList
  gap := gap
  word := "ROLE".toList
  rest := " x".toList
  tail := tail
  lead_layout := hlead
  use_eq := rfl
  gap_layout := hgap
  word_eq := rfl
  rest_last := by
    refine ⟨by decide, ?_⟩
    rintro c ⟨⟩
    exact ⟨rfl, by decide⟩
  tail_layout := htail
  identifiers := .one (.inr ⟨.inl rfl, ⟨'x', rfl, .inl rfl⟩,
    show ∀ c ∈ ['x'], _ from List.forall_mem_singleton.2 (.inl rfl)⟩)
  wordTokens_ne_nil := List.cons_ne_nil _ _
  tokenize_rest n unclosed t ht := congrArg some (lexFrom_layout ht ['x'])
  tokenize_word n unclosed t ht := by
    have hword : lexFrom .code [] ("ROLE".toList ++ (" x".toList ++ t)) =
        ⟨.var, "ROLE"⟩ :: lexFrom .code ['x'] t := rfl
    have hlex := lexFrom_append_of_layout hgap.1 ("ROLE".toList ++ (" x".toList ++ t))
    rw [hword, lexFrom_layout ht] at hlex
    exact congrArg some hlex

def commentTail : List Char := " -- c".toList

theorem layout_commentTail : Layout 0 true commentTail := by
  have hline : Layout 0 true (['-', '-'] ++ " c".toList) := .lastLine (.inl rfl) (by decide)
  exact .space rfl hline

def commentedUse : UseStatement lexed :=
  useRole [] [' '] commentTail .nil ⟨.space rfl .nil, by decide⟩ ⟨0, true, layout_commentTail⟩

-- a comment behind the last identifier does no harm
example : commentedUse.text = "USE ROLE x -- c".toList ∧
    tryParseSnowflakeUse lexed commentedUse.text = some (.role, ["x"]) := by
  have hplain : commentedUse.Plain := ⟨nofun, rfl, rfl, true, layout_commentTail⟩
  exact ⟨rfl, tryParse_eq_some_iff.2 hplain⟩

/-- Each is a `USE ROLE` to the tokenizer. -/
theorem use_dispatched :
    ["USE  ROLE x", "USE\nROLE x", "USE /* c */ ROLE x", "/* c */ USE ROLE x", "USE ROLE/* c */x",
        "USE ROLE x; -- c"].Forall fun sql =>
      (lexed sql.toList).map (·.filter (·.text ≠ ";")) =
          some [⟨.var, "USE"⟩, ⟨.var, "ROLE"⟩, ⟨.var, "x"⟩] ∧
        tryParseSnowflakeUse lexed sql.toList = none := by
  decide +kernel

end QueryFlux.Snowflake
