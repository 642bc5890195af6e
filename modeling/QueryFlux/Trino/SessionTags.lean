import QueryFlux.Core.Trim

/-!
# SET SESSION query_tags

`try_parse_set_session_tags` splits the statement at white space into at most four pieces to find
its first two words. The second word is among the first three pieces only if at most two characters
are between it and the first (`set_session_recognised_iff`); with more of them the statement is not
recognised, and goes to the cluster (`three_spaces_missed`).
-/

namespace QueryFlux.Trino

open Core List

/-! ## The parser -/

def isAsciiWhitespace (c : Char) : Bool := [' ', '\t', '\n', '\x0c', '\r'].contains c

/-- `str::splitn` at a character. -/
def splitN (p : Char → Bool) : Nat → List Char → List (List Char)
  | 0, _ => []
  | 1, s => [s]
  | n + 1, s =>
    match s.dropWhile (!p ·) with
    | [] => [s]
    | _ :: rest => s.takeWhile (!p ·) :: splitN p n rest

-- the words in front are ASCII: a byte offset behind one of them is its number of characters
def afterProperty (rest : List Char) : Option (List Char) :=
  if "query_tags".toList.isPrefixOf (toLowercase rest) then some (rest.drop 10)
  else if "query_tag".toList.isPrefixOf (toLowercase rest) then some (rest.drop 9)
  else none

def assignedValue (rest : List Char) : Option (List Char) :=
  match trimStart rest with
  | '=' :: value => some (trimStart value)
  | _ => none

/-- Without the surrounding single quotes, if there are two. -/
def unquote (value : List Char) : List Char :=
  match value with
  | '\'' :: inner => if inner.getLast? = some '\'' then inner.dropLast else value
  | _ => value

def tagsAssigned (rest : List Char) : Option (String × List Char) := do
  let rest ← afterProperty rest
  let value ← assignedValue rest
  return ("query_tags", unquote value)

/-- The property that is set, and its value without quotes. -/
def tryParseSetSessionTags (sql : List Char) : Option (String × List Char) :=
  let s := trim (trimEndMatches (· = ';') (trim sql))
  match splitN isAsciiWhitespace 4 s with
  | [] => none
  | w1 :: words =>
    if eqIgnoreAsciiCase w1 "set".toList then
      match words.find? (· ≠ []) with
      | none => none
      | some w2 =>
        if eqIgnoreAsciiCase w2 "session".toList then
          tagsAssigned (trimStart ((trimStart (s.drop w1.length)).drop w2.length))
        else none
    else none

/-- A statement that sets a session property, as it is without what is trimmed: the words in any
case, with ASCII white space between them. -/
structure SetSession where
  set : List Char
  gap : List Char
  session : List Char
  gap' : List Char
  property : List Char
  rest : List Char
  set_eq : eqIgnoreAsciiCase set "set".toList = true
  session_eq : eqIgnoreAsciiCase session "session".toList = true
  gap_ne : gap ≠ []
  gap'_ne : gap' ≠ []
  spaces : ∀ c ∈ gap ++ gap', isAsciiWhitespace c = true
  -- the name ends at white space, at the equals sign or with the statement
  property_ne : property ≠ []
  property_name : ∀ c ∈ property, isWhitespace c = false ∧ c ≠ '='
  property_ends : ∀ c ∈ rest.head?, isWhitespace c = true ∨ c = '='

def SetSession.text (x : SetSession) : List Char :=
  x.set ++ (x.gap ++ (x.session ++ (x.gap' ++ (x.property ++ x.rest))))

def statement (sql : List Char) : List Char := trim (trimEndMatches (· = ';') (trim sql))

def tagProperties : List (List Char) := ["query_tags".toList, "query_tag".toList]

/-! ## Words and pieces -/

theorem isWhitespace_of_ascii {c : Char} (h : isAsciiWhitespace c = true) :
    isWhitespace c = true := by
  have hall : ∀ c ∈ [' ', '\t', '\n', '\x0c', '\r'], isWhitespace c = true :=
    all_iff_forall_prop.1 (by decide)
  exact hall c (by simpa [isAsciiWhitespace] using h)

theorem not_isWhitespace_of_word {w word : List Char} (h : eqIgnoreAsciiCase w word = true)
    (hword : ∀ c ∈ toAsciiLowercase word, isWhitespace c = false) :
    w.length = word.length ∧ ∀ c ∈ w, isWhitespace c = false := by
  have heq : toAsciiLowercase w = toAsciiLowercase word := by simpa [eqIgnoreAsciiCase] using h
  refine ⟨by simpa [toAsciiLowercase] using congrArg length heq, fun c hc => ?_⟩
  have hlower := hword c.toLower (heq ▸ mem_map_of_mem hc)
  obtain hself | ⟨hupper, -⟩ := toNat_toLower c
  · rwa [hself] at hlower
  · simp only [isWhitespace, Bool.or_eq_false_iff, Bool.and_eq_false_iff, decide_eq_false_iff_not,
      beq_eq_false_iff_ne]
    omega

theorem splitN_append {w : List Char} {c : Char} (n : Nat) (rest : List Char)
    (hw : ∀ c ∈ w, isWhitespace c = false) (hc : isAsciiWhitespace c = true) :
    splitN isAsciiWhitespace (n + 2) (w ++ c :: rest) =
      w :: splitN isAsciiWhitespace (n + 1) rest := by
  have hpos : ∀ d ∈ w, (!isAsciiWhitespace d) = true := by
    intro d hd
    rw [Bool.not_eq_true', Bool.eq_false_iff]
    intro h
    have := isWhitespace_of_ascii h
    simp [hw d hd] at this
  rw [splitN.eq_def]
  simp [dropWhile_append_of_pos hpos, takeWhile_append_of_pos hpos, hc]

theorem trimStart_append_eq {a s : List Char} (ha : ∀ c ∈ a, isWhitespace c = true)
    (hs : ∀ c ∈ s.head?, isWhitespace c = false) : trimStart (a ++ s) = s := by
  rw [trimStart_append ha, trimStart_eq_self hs]

/-- The word is the property's name, or the name is longer. -/
theorem property_cases {property rest word : List Char}
    (hends : ∀ c ∈ rest.head?, isWhitespace c = true ∨ c = '=')
    (hword : ∀ c ∈ word, isWhitespace c = false ∧ c ≠ '=')
    (h : word.isPrefixOf (toLowercase (property ++ rest)) = true) :
    toLowercase property = word ∨ word.length < property.length := by
  induction property generalizing word with
  | nil =>
    cases word with
    | nil => exact .inl rfl
    | cons c word =>
      cases rest with
      | nil => cases h
      | cons r rest =>
        obtain ⟨hws, heq⟩ := hword c (.head _)
        have hc : c = lowerChar r := by
          simp only [nil_append, toLowercase_eq_map, map_cons, isPrefixOf,
            Bool.and_eq_true, beq_iff_eq] at h
          exact h.1
        obtain hr | rfl := hends r rfl
        · rw [hc, isWhitespace_lowerChar, hr] at hws
          cases hws
        · exact absurd hc heq
  | cons p property ih =>
    cases word with
    | nil => exact .inr (Nat.succ_pos _)
    | cons c word =>
      rw [cons_append, toLowercase_eq_map, map_cons, isPrefixOf, Bool.and_eq_true,
        beq_iff_eq] at h
      obtain ⟨hc, h⟩ := h
      obtain heq | hlt := ih (fun d hd => hword d (.tail _ hd)) h
      · exact .inl (by rw [hc, ← heq]; rfl)
      · exact .inr (Nat.succ_lt_succ hlt)

theorem head?_word {w : List Char} (hne : w ≠ []) (hw : ∀ c ∈ w, isWhitespace c = false)
    (y : List Char) : ∀ c ∈ (w ++ y).head?, isWhitespace c = false := by
  obtain ⟨d, w, rfl⟩ := exists_cons_of_ne_nil hne
  intro c hc
  cases hc
  exact hw d (.head _)

/-! ## The layout of a statement -/

namespace SetSession

variable (x : SetSession)

theorem set_plain : x.set.length = 3 ∧ ∀ c ∈ x.set, isWhitespace c = false :=
  not_isWhitespace_of_word x.set_eq (all_iff_forall_prop.1 (by decide))

theorem session_plain : x.session.length = 7 ∧ ∀ c ∈ x.session, isWhitespace c = false :=
  not_isWhitespace_of_word x.session_eq (all_iff_forall_prop.1 (by decide))

theorem gaps : (∀ c ∈ x.gap, isWhitespace c = true) ∧ ∀ c ∈ x.gap', isWhitespace c = true :=
  ⟨fun c hc => isWhitespace_of_ascii (x.spaces c (mem_append_left _ hc)),
    fun c hc => isWhitespace_of_ascii (x.spaces c (mem_append_right _ hc))⟩

/-- What is behind the two words. -/
theorem rest_eq :
    trimStart ((trimStart (x.text.drop x.set.length)).drop x.session.length) =
      x.property ++ x.rest := by
  have hne : x.session ≠ [] := fun hnil => by simpa [hnil] using x.session_plain.1
  rw [text, drop_left, trimStart_append_eq x.gaps.1 (head?_word hne x.session_plain.2 _),
    drop_left, trimStart_append_eq x.gaps.2]
  exact head?_word x.property_ne (fun c hc => (x.property_name c hc).1) _

/-- Behind the first word, the first piece that is not empty: the second word, or all that is
behind the third character of the gap. -/
theorem pieces_eq : ∃ words, splitN isAsciiWhitespace 4 x.text = x.set :: words ∧
    words.find? (· ≠ []) = some (if x.gap.length ≤ 2 then x.session
      else x.gap.drop 3 ++ (x.session ++ (x.gap' ++ (x.property ++ x.rest)))) := by
  obtain ⟨c, gap, hgap⟩ := exists_cons_of_ne_nil x.gap_ne
  obtain ⟨d, gap', hgap'⟩ := exists_cons_of_ne_nil x.gap'_ne
  have hspaces := x.spaces
  simp only [hgap, hgap', cons_append, forall_mem_cons] at hspaces
  have hd : isAsciiWhitespace d = true := hspaces.2 d (by simp)
  have hne : x.session ≠ [] := fun hnil => by simpa [hnil] using x.session_plain.1
  have hsession (n : Nat) := splitN_append n (gap' ++ (x.property ++ x.rest)) x.session_plain.2 hd
  have hempty (n : Nat) {e : Char} (he : e ∈ x.gap) (s : List Char) :
      splitN isAsciiWhitespace (n + 2) (e :: s) = [] :: splitN isAsciiWhitespace (n + 1) s :=
    splitN_append n s (forall_mem_nil _) (x.spaces e (mem_append_left _ he))
  refine ⟨_, by rw [text, hgap, cons_append, splitN_append 2 _ x.set_plain.2 hspaces.1], ?_⟩
  rw [hgap', cons_append]
  match gap, hgap with
  | [], hgap => simp [hgap, hsession, hne]
  | [e], hgap => simp [hgap, hempty 1 (e := e) (by simp [hgap]), hsession, hne]
  | e :: f :: gap, hgap =>
    simp [hgap, hempty 1 (e := e) (by simp [hgap]), hempty 0 (e := f) (by simp [hgap]), splitN, hne]

/-- The second word is found if and only if at most two characters are in front of it. -/
theorem tryParse_eq {sql : List Char} (hsql : statement sql = x.text) :
    tryParseSetSessionTags sql =
      if x.gap.length ≤ 2 then tagsAssigned (x.property ++ x.rest) else none := by
  obtain ⟨words, hpieces, hfind⟩ := x.pieces_eq
  unfold statement at hsql
  simp only [tryParseSetSessionTags, hsql, hpieces, x.set_eq, if_true, hfind]
  split_ifs with hgap hfound hlong
  · rw [x.rest_eq]
  · exact absurd x.session_eq hfound
  · -- the rest of the statement is longer than the word
    have hlength := (not_isWhitespace_of_word hlong (all_iff_forall_prop.1 (by decide))).1
    have hproperty := length_pos_iff.2 x.property_ne
    have hsession := x.session_plain.1
    simp only [length_append, hsession] at hlength
    have hword : "session".toList.length = 7 := rfl
    omega
  · rfl

/-- What is trimmed around the statement. -/
theorem statement_eq {lead ws semicolons ws' : List Char}
    (hlast : ∀ c ∈ x.rest.getLast?, isWhitespace c = false ∧ c ≠ ';') (hrest : x.rest ≠ [])
    (hlead : ∀ c ∈ lead, isWhitespace c = true) (hws : ∀ c ∈ ws, isWhitespace c = true)
    (hsemi : ∀ c ∈ semicolons, c = ';') (hws' : ∀ c ∈ ws', isWhitespace c = true) :
    statement (lead ++ (x.text ++ (ws ++ semicolons ++ ws'))) = x.text := by
  have hset : x.set ≠ [] := fun hnil => by simpa [hnil] using x.set_plain.1
  have hhead : ∀ y, ∀ c ∈ (x.text ++ y).head?, isWhitespace c = false := by
    intro y
    rw [text, append_assoc]
    exact head?_word hset x.set_plain.2 _
  have hlast : ∀ c ∈ x.text.getLast?, isWhitespace c = false ∧ c ≠ ';' := by
    simpa [text, getLast?_append, hrest] using hlast
  obtain ⟨back, hback, heq⟩ := exists_trimEnd_semicolons hlead hhead hlast hws hsemi hws'
  rw [statement, heq, trim, trimStart_eq_self (hhead back), trimEndMatches_append _ hback]
  exact trimEndMatches_eq_self fun c hc => (hlast c hc).1

theorem afterProperty_tag (h : toLowercase x.property ∈ tagProperties) :
    afterProperty (x.property ++ x.rest) = some x.rest := by
  have hlen : (toLowercase x.property).length = x.property.length := by simp [toLowercase]
  have hself : (toLowercase x.property).isPrefixOf (toLowercase (x.property ++ x.rest)) = true := by
    rw [toLowercase_append, isPrefixOf_iff_prefix]
    exact prefix_append _ _
  obtain h | h : toLowercase x.property = "query_tags".toList ∨
      toLowercase x.property = "query_tag".toList := by simpa only [tagProperties, mem_cons,
    not_mem_nil, or_false] using h
  · rw [h] at hself hlen
    rw [afterProperty, if_pos hself]
    exact congrArg some (drop_left' hlen.symm)
  · rw [h] at hself hlen
    have hother : ¬"query_tags".toList.isPrefixOf (toLowercase (x.property ++ x.rest)) = true := by
      intro hpre
      obtain heq | hlt := property_cases x.property_ends (all_iff_forall_prop.1 (by decide)) hpre
      · rw [h] at heq
        exact absurd heq (by decide)
      · rw [← hlen] at hlt
        exact absurd hlt (by decide)
    rw [afterProperty, if_neg hother, if_pos hself]
    exact congrArg some (drop_left' hlen.symm)

/-- What is left of a longer name. -/
theorem afterProperty_other (h : toLowercase x.property ∉ tagProperties) {rest : List Char}
    (hrest : afterProperty (x.property ++ x.rest) = some rest) : ∃ c ∈ x.property,
      rest.head? = some c := by
  have hlonger {word : List Char} (hmem : word ∈ tagProperties)
      (hword : ∀ c ∈ word, isWhitespace c = false ∧ c ≠ '=')
      (hpre : word.isPrefixOf (toLowercase (x.property ++ x.rest)) = true) :
      ∃ c ∈ x.property, ((x.property ++ x.rest).drop word.length).head? = some c := by
    obtain heq | hlt := property_cases x.property_ends hword hpre
    · exact absurd (heq ▸ hmem) h
    · refine ⟨_, getElem_mem hlt, ?_⟩
      rw [head?_drop, getElem?_append_left hlt, getElem?_eq_getElem hlt]
  unfold afterProperty at hrest
  split_ifs at hrest with h1 h2
  · cases hrest
    exact hlonger (.head _) (all_iff_forall_prop.1 (by decide)) h1
  · cases hrest
    exact hlonger (.tail _ (.head _)) (all_iff_forall_prop.1 (by decide)) h2

theorem tagsAssigned_other (h : toLowercase x.property ∉ tagProperties) :
    tagsAssigned (x.property ++ x.rest) = none := by
  unfold tagsAssigned
  cases hrest : afterProperty (x.property ++ x.rest) with
  | none => rfl
  | some rest =>
    obtain ⟨c, hc, hhead⟩ := x.afterProperty_other h hrest
    obtain ⟨hws, hne⟩ := x.property_name c hc
    obtain ⟨rest, rfl⟩ : ∃ tail, rest = c :: tail := by simpa [head?_eq_some_iff] using hhead
    have hnone : assignedValue (c :: rest) = none := by
      rw [assignedValue, trimStart_eq_self (by rintro d ⟨⟩; exact hws)]
      split
      · rename_i heq
        cases heq
        exact absurd rfl hne
      · rfl
    simp [hnone]

theorem tagsAssigned_tag (h : toLowercase x.property ∈ tagProperties) {a b v : List Char}
    (ha : ∀ c ∈ a, isWhitespace c = true) (hb : ∀ c ∈ b, isWhitespace c = true)
    (hrest : x.rest = a ++ '=' :: (b ++ '\'' :: (v ++ ['\'']))) :
    tagsAssigned (x.property ++ x.rest) = some ("query_tags", v) := by
  have hvalue : assignedValue x.rest = some ('\'' :: (v ++ ['\''])) := by
    rw [hrest, assignedValue, trimStart_append_eq ha (by rintro c ⟨⟩; rfl)]
    exact congrArg some (trimStart_append_eq hb (by rintro c ⟨⟩; rfl))
  simp [tagsAssigned, x.afterProperty_tag h, hvalue, unquote]

end SetSession

/-- A quoted value assigned to one of the two properties is returned, in every layout, if and only
if at most two characters are between SET and SESSION; no other property is taken for them. -/
theorem set_session_recognised_iff (x : SetSession) :
    (toLowercase x.property ∈ tagProperties →
      ∀ lead ws semicolons ws' a b v : List Char,
        (∀ c ∈ lead ++ ws ++ ws' ++ a ++ b, isWhitespace c = true) → (∀ c ∈ semicolons, c = ';') →
        x.rest = a ++ '=' :: (b ++ '\'' :: (v ++ ['\''])) →
        (tryParseSetSessionTags (lead ++ (x.text ++ (ws ++ semicolons ++ ws'))) =
          some ("query_tags", v) ↔ x.gap.length ≤ 2)) ∧
    (toLowercase x.property ∉ tagProperties →
      ∀ sql, statement sql = x.text → tryParseSetSessionTags sql = none) := by
  refine ⟨fun hproperty lead ws semicolons ws' a b v hspaces hsemi hrest => ?_,
    fun hproperty sql hsql => ?_⟩
  · simp only [forall_mem_append] at hspaces
    obtain ⟨⟨⟨⟨hlead, hws⟩, hws'⟩, ha⟩, hb⟩ := hspaces
    have hsql : statement (lead ++ (x.text ++ (ws ++ semicolons ++ ws'))) = x.text := by
      refine x.statement_eq ?_ (by simp [hrest]) hlead hws hsemi hws'
      have hlast : x.rest.getLast? = some '\'' := by
        have happend : x.rest = (a ++ '=' :: (b ++ '\'' :: v)) ++ ['\''] := by simp [hrest]
        rw [happend, getLast?_concat]
      rintro c hc
      cases hlast.symm.trans hc
      exact ⟨rfl, by decide⟩
    rw [x.tryParse_eq hsql, x.tagsAssigned_tag hproperty ha hb hrest]
    split_ifs with hgap
    · exact iff_of_true rfl hgap
    · exact iff_of_false nofun hgap
  · rw [x.tryParse_eq hsql, x.tagsAssigned_other hproperty]
    exact ite_self none

def twoSpaces : SetSession where
  set := "Set".toList
  gap := " \t".toList
  session := "SESSION".toList
  gap' := "   ".toList
  property := "Query_Tags".toList
  rest := " = 'team:eng'".toList
  set_eq := by decide
  session_eq := by decide
  gap_ne := by decide
  gap'_ne := by decide
  spaces := all_iff_forall_prop.1 (by decide)
  property_ne := by decide
  property_name := all_iff_forall_prop.1 (by decide)
  property_ends := fun c hc => .inl (Option.some.inj hc ▸ rfl)

/-- Blanks and a tab between the words. -/
theorem two_spaces_recognised :
    tryParseSetSessionTags "  Set \tSESSION   Query_Tags = 'team:eng' ; ".toList =
      some ("query_tags", "team:eng".toList) :=
  ((set_session_recognised_iff twoSpaces).1 (by decide) "  ".toList " ".toList ";".toList
    " ".toList " ".toList " ".toList "team:eng".toList (all_iff_forall_prop.1 (by decide))
    (all_iff_forall_prop.1 (by decide)) (by decide)).2 (by decide)

/-- The third space ends the third piece, and the rest of the statement is the fourth. -/
theorem three_spaces_missed :
    tryParseSetSessionTags "SET   SESSION query_tags = 'team:eng'".toList = none ∧
      tryParseSetSessionTags "SET SESSION query_tags = 'team:eng'".toList =
        some ("query_tags", "team:eng".toList) := by
  decide

end QueryFlux.Trino
