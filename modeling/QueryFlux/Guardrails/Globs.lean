import QueryFlux.Core.Slices
import QueryFlux.Guardrails.BuiltIn

/-!
# The language of a glob

`simple_glob_match` searches the parts between the stars one after another, each at its first place
behind the one before. No place is lost that way, and every slice is at a character
(`globMatchAt_eq`); but the last part may stand anywhere too, so a pattern that matches only the
start of a haystack is taken to match it (`glob_language_iff`).
-/

namespace QueryFlux.Guardrails

open Core Lib List

/-- Each star stands for any text, every other character for itself. -/
inductive Matches : List Char → List Char → Prop
  | nil : Matches [] []
  | star {p h : List Char} (any : List Char) : Matches p h → Matches ('*' :: p) (any ++ h)
  | char {p h : List Char} {c : Char} : c ≠ '*' → Matches p h → Matches (c :: p) (c :: h)

/-- The loop over the parts behind the first; a slice inside a character panics (none). -/
def globLoopAt (haystack : List Char) : Nat → List (List Char) → Option Bool
  | _, [] => some true
  | pos, part :: parts =>
    if part = [] then globLoopAt haystack pos parts
    else do
      let rest ← sliceFrom pos haystack
      match findText part rest with
      | some found => globLoopAt haystack (pos + (found + utf8Len part)) parts
      | none => return false

/-- `simple_glob_match` with a star in the pattern, with its byte offsets. -/
def globMatchAt (haystack pattern : List Char) : Option Bool :=
  match pattern.splitOn '*' with
  | [] => some true
  | first :: parts =>
    if first = [] then globLoopAt haystack 0 parts
    else if first.isPrefixOf haystack then globLoopAt haystack (utf8Len first) parts
    else some false

variable {part rest haystack pattern : List Char} {parts : List (List Char)}

theorem findText_eq_none_iff : findText part rest = none ↔ afterText part rest = none := by
  induction rest with
  | nil => simp [findText, afterText]
  | cons c rest ih =>
    rw [findText, afterText]
    split_ifs <;> simp [ih]

theorem afterText_of_findText {n : Nat} (h : findText part rest = some n) :
    ∃ front after, rest = front ++ (part ++ after) ∧ n = utf8Len front ∧
      afterText part rest = some after := by
  induction rest generalizing n with
  | nil =>
    rw [findText] at h
    split_ifs at h with hp
    cases h
    exact ⟨[], [], by simp [hp], rfl, by simp [afterText, hp]⟩
  | cons c rest ih =>
    rw [findText] at h
    rw [afterText]
    split_ifs at h ⊢ with hp
    · cases h
      obtain ⟨after, hafter⟩ := isPrefixOf_iff_prefix.1 hp
      exact ⟨[], after, hafter.symm, rfl, by simp [← hafter]⟩
    · obtain ⟨m, hm, rfl⟩ := Option.map_eq_some_iff.1 h
      obtain ⟨front, after, rfl, rfl, hafter⟩ := ih hm
      exact ⟨c :: front, after, rfl, by simp, hafter⟩

theorem globLoopAt_eq {front : List Char} (h : haystack = front ++ rest) :
    globLoopAt haystack (utf8Len front) parts = some (globRest rest parts) := by
  induction parts generalizing front rest with
  | nil => rfl
  | cons part parts ih =>
    rw [globLoopAt, globRest]
    split_ifs
    · exact ih h
    · have hslice : sliceFrom (utf8Len front) haystack = some rest := by
        rw [h, sliceFrom, splitAtByte_append]
        rfl
      rw [hslice]
      cases hfind : findText part rest with
      | none => simp [hfind, findText_eq_none_iff.1 hfind]
      | some n =>
        obtain ⟨between, after, hrest, rfl, hafter⟩ := afterText_of_findText hfind
        have hnext := @ih after (front ++ (between ++ part)) (by simp [h, hrest])
        simpa [hfind, hafter] using hnext

theorem globMatchAt_eq (h : '*' ∈ pattern) :
    globMatchAt haystack pattern = some (simpleGlobMatch haystack pattern) := by
  rw [globMatchAt, simpleGlobMatch, if_pos h]
  cases pattern.splitOn '*' with
  | nil => rfl
  | cons first parts =>
    dsimp only
    split_ifs with hnil hpre
    · subst hnil
      have hstart : haystack = [] ++ haystack := rfl
      simpa using globLoopAt_eq hstart
    · obtain ⟨rest, rfl⟩ := isPrefixOf_iff_prefix.1 hpre
      rw [globLoopAt_eq rfl]
      simp
    · simp [hpre]

/-! ## Parts in a text -/

/-- The parts stand in the text one after another, with any text between and behind them. -/
def Spread : List (List Char) → List Char → Prop
  | [], _ => True
  | part :: parts, h => ∃ front after, h = front ++ (part ++ after) ∧ Spread parts after

theorem Spread.append (h : Spread parts rest) (front : List Char) :
    Spread parts (front ++ rest) := by
  cases parts with
  | nil => trivial
  | cons part parts =>
    obtain ⟨a, after, rfl, hrest⟩ := h
    exact ⟨front ++ a, after, by simp, hrest⟩

theorem afterText_eq_some {after : List Char} (h : afterText part rest = some after) :
    ∃ front, rest = front ++ (part ++ after) := by
  cases hfind : findText part rest with
  | none => simp [findText_eq_none_iff.1 hfind] at h
  | some n =>
    obtain ⟨front, after', hrest, -, hafter⟩ := afterText_of_findText hfind
    cases h.symm.trans hafter
    exact ⟨front, hrest⟩

theorem afterText_append (after : List Char) : afterText part (part ++ after) = some after := by
  cases part with
  | nil => cases after <;> simp [afterText]
  | cons c part => simp [afterText]

/-- What stands behind the first place of a part ends with what stands behind any other. -/
theorem exists_afterText (front after : List Char) : ∃ more,
    afterText part (front ++ (part ++ after)) = some (more ++ after) := by
  induction front with
  | nil => exact ⟨[], afterText_append after⟩
  | cons c front ih =>
    rw [cons_append, afterText]
    split_ifs with hp
    · refine ⟨(c :: (front ++ part)).drop part.length, congrArg some ?_⟩
      rw [← drop_append_of_le_length (by simp; omega)]
      simp
    · exact ih

theorem globRest_iff : globRest rest parts = true ↔ Spread parts rest := by
  induction parts generalizing rest with
  | nil => simp [globRest, Spread]
  | cons part parts ih =>
    rw [globRest]
    split_ifs with hnil
    · subst hnil
      rw [ih]
      constructor
      · intro h
        exact ⟨[], rest, rfl, h⟩
      · rintro ⟨front, after, rfl, h⟩
        exact h.append front
    · constructor
      · intro h
        split at h
        · rename_i after hafter
          obtain ⟨front, rfl⟩ := afterText_eq_some hafter
          exact ⟨front, after, rfl, ih.1 h⟩
        · cases h
      · rintro ⟨front, after, rfl, h⟩
        obtain ⟨more, hmore⟩ := exists_afterText front after
        rw [hmore]
        exact ih.2 (h.append more)

/-! ## The language -/

theorem matches_star_iff : Matches ('*' :: pattern) haystack ↔
    ∃ any h, haystack = any ++ h ∧ Matches pattern h := by
  constructor
  · rintro (_ | ⟨any, h⟩ | ⟨hc, h⟩)
    · exact ⟨any, _, rfl, h⟩
    · exact absurd rfl hc
  · rintro ⟨any, h, rfl, hm⟩
    exact .star any hm

theorem matches_char_iff {c : Char} (hc : c ≠ '*') : Matches (c :: pattern) haystack ↔
    ∃ h, haystack = c :: h ∧ Matches pattern h := by
  constructor
  · rintro (_ | ⟨any, h⟩ | ⟨-, h⟩)
    · exact absurd rfl hc
    · exact ⟨_, rfl, h⟩
  · rintro ⟨h, rfl, hm⟩
    exact .char hc hm

/-- Some start of the text matches. -/
def MatchesStart (pattern haystack : List Char) : Prop :=
  ∃ start, start <+: haystack ∧ Matches pattern start

theorem matchesStart_star_iff : MatchesStart ('*' :: pattern) haystack ↔
    ∃ any h, haystack = any ++ h ∧ MatchesStart pattern h := by
  constructor
  · rintro ⟨start, ⟨more, rfl⟩, hstart⟩
    obtain ⟨any, h, rfl, hm⟩ := matches_star_iff.1 hstart
    exact ⟨any, h ++ more, append_assoc _ _ _, h, prefix_append _ _, hm⟩
  · rintro ⟨any, h, rfl, start, hpre, hm⟩
    exact ⟨any ++ start, (prefix_append_right_inj any).2 hpre, .star any hm⟩

theorem matchesStart_char_iff {c : Char} (hc : c ≠ '*') :
    MatchesStart (c :: pattern) haystack ↔ ∃ h, haystack = c :: h ∧ MatchesStart pattern h := by
  constructor
  · rintro ⟨start, ⟨more, rfl⟩, hstart⟩
    obtain ⟨h, rfl, hm⟩ := (matches_char_iff hc).1 hstart
    exact ⟨h ++ more, rfl, h, prefix_append _ _, hm⟩
  · rintro ⟨h, rfl, start, hpre, hm⟩
    exact ⟨c :: start, (prefix_cons_inj c).2 hpre, .char hc hm⟩

theorem matchesStart_iff {first : List Char} (hparts : pattern.splitOn '*' = first :: parts) :
    MatchesStart pattern haystack ↔ ∃ rest, haystack = first ++ rest ∧ Spread parts rest := by
  induction pattern generalizing haystack first parts with
  | nil =>
    cases hparts
    exact ⟨fun _ => ⟨haystack, rfl, trivial⟩, fun _ => ⟨[], nil_prefix, .nil⟩⟩
  | cons c pattern ih =>
    obtain ⟨f, ps, hsplit⟩ := exists_cons_of_ne_nil (splitOn_ne_nil '*' pattern)
    rw [splitOn_cons_eq_if_modifyHead, hsplit] at hparts
    by_cases hc : c = '*'
    · subst hc
      obtain ⟨rfl, rfl⟩ := hparts
      simp only [matchesStart_star_iff, ih hsplit, nil_append, exists_eq_left', Spread]
      constructor
      · rintro ⟨any, _, rfl, after, rfl, h⟩
        exact ⟨any, after, rfl, h⟩
      · rintro ⟨any, after, rfl, h⟩
        exact ⟨any, _, rfl, after, rfl, h⟩
    · simp only [beq_iff_eq, hc, if_false, modifyHead_cons, cons.injEq] at hparts
      obtain ⟨rfl, rfl⟩ := hparts
      simp only [matchesStart_char_iff hc, ih hsplit]
      constructor
      · rintro ⟨_, rfl, rest, rfl, h⟩
        exact ⟨rest, rfl, h⟩
      · rintro ⟨rest, rfl, h⟩
        exact ⟨_, rfl, rest, rfl, h⟩

/-- The loop over the pieces between the stars. -/
theorem simpleGlobMatch_iff (hstar : '*' ∈ pattern) :
    simpleGlobMatch haystack pattern = true ↔ MatchesStart pattern haystack := by
  obtain ⟨first, parts, hparts⟩ := exists_cons_of_ne_nil (splitOn_ne_nil '*' pattern)
  rw [matchesStart_iff hparts, simpleGlobMatch, if_pos hstar, hparts]
  simp only [Bool.and_eq_true, isPrefixOf_iff_prefix, globRest_iff]
  constructor
  · rintro ⟨⟨rest, rfl⟩, h⟩
    exact ⟨rest, rfl, by simpa using h⟩
  · rintro ⟨rest, rfl, h⟩
    exact ⟨⟨rest, rfl⟩, by simpa using h⟩

/-- The code decides the language of the glob if and only if a pattern that matches the start of the
haystack matches all of it; and it never slices inside a character. -/
theorem glob_language_iff (haystack : List Char) {pattern : List Char} (hstar : '*' ∈ pattern) :
    ((simpleGlobMatch haystack pattern = true ↔ Matches pattern haystack) ↔
      (MatchesStart pattern haystack → Matches pattern haystack)) ∧
    globMatchAt haystack pattern = some (simpleGlobMatch haystack pattern) := by
  refine ⟨?_, globMatchAt_eq hstar⟩
  rw [simpleGlobMatch_iff hstar]
  constructor
  · exact Iff.mp
  · intro h
    exact ⟨h, fun hm => ⟨haystack, prefix_refl _, hm⟩⟩

/-- The last part stands at the end. -/
theorem orders_matched :
    (simpleGlobMatch "O_24".toList "O*4".toList = true ↔ Matches "O*4".toList "O_24".toList) ∧
      globMatchAt "O_24".toList "O*4".toList = some true :=
  ⟨(glob_language_iff "O_24".toList (by decide)).1.2 fun _ =>
      .char (by decide) (.star ['_', '2'] (.char (by decide) .nil)),
    (glob_language_iff "O_24".toList (by decide)).2⟩

theorem Matches.getLast? (h : Matches pattern haystack) {c : Char} (hc : c ≠ '*')
    (hlast : pattern.getLast? = some c) : haystack.getLast? = some c := by
  induction h with
  | nil => cases hlast
  | @star p h any _ ih =>
    cases p with
    | nil => exact absurd (by simpa using hlast.symm) hc
    | cons => simp [getLast?_append, ih hlast]
  | @char p h d _ hm ih =>
    cases p with
    | nil =>
      cases hm
      exact hlast
    | cons =>
      have := ih hlast
      cases h with
      | nil => cases this
      | cons => exact this

/-- The text goes on behind the last part. -/
theorem glob_not_anchored : simpleGlobMatch "ABC".toList "A*B".toList = true ∧
    ¬Matches "A*B".toList "ABC".toList := by
  refine ⟨by decide, fun h => ?_⟩
  have hlast : "ABC".toList.getLast? = some 'B' := h.getLast? (by decide) (by decide)
  exact absurd hlast (by decide)

end QueryFlux.Guardrails
