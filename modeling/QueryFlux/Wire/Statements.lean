import QueryFlux.Core.Slices

/-!
# The statements the MySQL frontend answers itself

`SET`, `USE` and a few probes that MySQL clients send are recognised in the text of the statement
and never reach an engine. A `SET` of one variable is remembered in the session under the
variable's name in lower case.

A text is a list of characters. Where the source slices it by bytes behind a word of ASCII letters
the characters are counted instead.
-/

namespace QueryFlux.Wire

open Core

/-! ## Comments -/

def splitCommentEnd : List Char → Option (List Char × List Char)
  | [] => none
  | '*' :: '/' :: rest => some ([], rest)
  | c :: rest => (splitCommentEnd rest).map fun (a, b) => (c :: a, b)

theorem length_splitCommentEnd {s a b : List Char} (h : splitCommentEnd s = some (a, b)) :
    b.length < s.length := by
  fun_induction splitCommentEnd s generalizing a with
  | case1 => cases h
  | case2 =>
    cases h
    exact Nat.lt_succ_of_lt (Nat.lt_succ_self _)
  | case3 _ _ _ ih =>
    obtain ⟨⟨a', b'⟩, hs, he⟩ := Option.map_eq_some_iff.1 h
    cases he
    exact Nat.lt_succ_of_lt (ih hs)

theorem length_trim_le (s : List Char) : (trim s).length ≤ s.length := by
  have hstart : (trimStart s).length ≤ s.length := (List.dropWhile_suffix _).length_le
  have hend : ((trimStart s).reverse.dropWhile isWhitespace).length ≤
      (trimStart s).reverse.length := (List.dropWhile_suffix _).length_le
  rw [List.length_reverse] at hend
  rw [trim, trimEndMatches, List.length_reverse]
  exact Nat.le_trans hend hstart

/-- What a comment at the start of the text leaves: `inl` the body of a conditional comment, `inr`
the text behind the comment, none if the comment has no end. -/
def skipComment (t : List Char) : Option (List Char ⊕ List Char) :=
  let plain := (splitCommentEnd t).map fun (_, after) => .inr (trim after)
  match t with
  | '/' :: '*' :: '!' :: inner =>
    match splitCommentEnd inner with
    | some (beforeClose, afterClose) =>
      let body := trim (beforeClose.dropWhile Char.isDigit)
      some (if body ≠ [] then .inl body else .inr (trim afterClose))
    | none => plain
  | _ => plain

theorem length_skipComment {t rest : List Char} (h : skipComment t = some (.inr rest)) :
    rest.length < t.length := by
  have hplain (h : (splitCommentEnd t).map (fun p => (.inr (trim p.2) : List Char ⊕ List Char)) =
      some (.inr rest)) : rest.length < t.length := by
    obtain ⟨⟨a, b⟩, hs, he⟩ := Option.map_eq_some_iff.1 h
    rw [← Sum.inr.inj he]
    exact Nat.lt_of_le_of_lt (length_trim_le b) (length_splitCommentEnd hs)
  unfold skipComment at h
  split at h
  · rename_i inner
    split at h
    · rename_i beforeClose afterClose hs
      dsimp only at h
      split at h
      · cases h
      · rw [← Sum.inr.inj (Option.some.inj h)]
        have hlt := length_splitCommentEnd hs
        have hle := length_trim_le afterClose
        simp only [List.length_cons]
        omega
    · exact hplain h
  · exact hplain h

/-- Comments in front of the text, from a trimmed text on. -/
def stripComments (t : List Char) : List Char :=
  if "/*".toList.isPrefixOf t then
    match _h : skipComment t with
    | none => t
    | some (.inl body) => body
    | some (.inr rest) => stripComments rest
  else t
termination_by t.length
decreasing_by exact length_skipComment _h

def stripMysqlConditionalComment (sql : List Char) : List Char := stripComments (trim sql)

theorem stripComments_of_not_comment {t : List Char} (hpre : "/*".toList.isPrefixOf t = false) :
    stripComments t = t := by
  rw [stripComments, hpre]
  rfl

theorem stripMysqlConditionalComment_of_not_comment {sql : List Char}
    (h : "/*".toList.isPrefixOf (trim sql) = false) :
    stripMysqlConditionalComment sql = trim sql :=
  stripComments_of_not_comment h

/-- Byte `n` of the text's encoding starts a character, or is its end. -/
def isCharBoundary : Nat → List Char → Bool
  | 0, _ => true
  | _ + 1, [] => false
  | n + 1, c :: cs => c.utf8Size ≤ n + 1 && isCharBoundary (n + 1 - c.utf8Size) cs

/-- The text behind `word`, if it starts with it in any case. The slice of the source panics,
`none` here, if it ends inside a character. -/
def stripPrefixCi (word s : List Char) : Option (Option (List Char)) :=
  if utf8Len s < word.length then some none
  else if !isCharBoundary word.length s then none
  else if eqIgnoreAsciiCase (s.take word.length) word then some (some (s.drop word.length))
  else some none

/-! ## Statements that set something -/

def insideQuotes (s : List Char) : Option (List Char) :=
  match s with
  | q :: rest =>
    if (q = '\x27' ∨ q = '\x22') ∧ rest.getLast? = some q then some rest.dropLast else none
  | [] => none

def queryTagsValue (rest : List Char) : Option (List Char) := do
  let rest := trimStart rest
  let rest := if "session".toList.isPrefixOf (toAsciiLowercase rest) then trimStart (rest.drop 7)
    else rest
  let rest ←
    if "query_tags".toList.isPrefixOf (toAsciiLowercase rest) then some (rest.drop 10)
    else if "query_tag".toList.isPrefixOf (toAsciiLowercase rest) then some (rest.drop 9)
    else none
  match trimStart rest with
  | '=' :: value =>
    let value := trimStart value
    some ((insideQuotes value).getD value)
  | _ => none

def tryParseSetQueryTags (sql : List Char) : Option (Option (List Char)) :=
  (stripPrefixCi "SET".toList (trim (trimEndMatches (· == ';') (trim sql)))).map
    fun rest => rest.bind queryTagsValue

def dropAts : List Char → List Char
  | '@' :: '@' :: rest => dropAts rest
  | s => s

/-- A comma outside quotes. -/
def hasBareComma : Option Char → List Char → Bool
  | _, [] => false
  | some q, c :: cs => hasBareComma (if c = q then none else some q) cs
  | none, c :: cs =>
    c == ',' || hasBareComma (if c = '\x27' ∨ c = '\x22' then some c else none) cs

def startsWithSet (lower : List Char) : Bool :=
  "set ".toList.isPrefixOf lower || "set\t".toList.isPrefixOf lower

def assignment (s : List Char) : Option (List Char) :=
  let lower := toLowercase s
  if "set session ".toList.isPrefixOf lower || "set session\t".toList.isPrefixOf lower then
    some (s.drop 12)
  else if startsWithSet lower then some (s.drop 4)
  else none

def dropQualifiers (s : List Char) : List Char :=
  let s := dropAts (trim s)
  let s := if "session.".toList.isPrefixOf (toLowercase s) then s.drop 8 else s
  s.dropWhile (· == '@')

/-- One assignment, of a session variable. -/
def tryParseSetKv (sql : List Char) : Option (String × String) := do
  let rest ← (assignment (trimEndMatches (· == ';') (trim sql))).map dropQualifiers
  let (left, right) ← splitOnce '=' rest
  if hasBareComma none rest then none
  else
    let key := toLowercase (trim left)
    if key.isEmpty then none
    else
      let raw := trim right
      some (String.ofList key, String.ofList ((insideQuotes raw).getD raw))

def tryParseUse (sql : List Char) : Option (List Char) :=
  let s := trimEndMatches (· == ';') (trim sql)
  let lower := toLowercase s
  let rest :=
    if lower == "use".toList then some []
    else if "use ".toList.isPrefixOf lower || "use\t".toList.isPrefixOf lower then some (s.drop 4)
    else none
  rest.map fun rest => trimEndMatches (· == '\x60') ((trim rest).dropWhile (· == '\x60'))

/-! ## Statements that are answered here -/

def containsText (part s : List Char) : Bool := s.tails.any part.isPrefixOf

def isSelectDatabase (lower : List Char) : Bool :=
  let compact := (trimEndMatches (· == ';') (trim lower)).filter (!isWhitespace ·)
  "selectdatabase()".toList.isPrefixOf compact && !containsText "from".toList compact

def localShows : List String :=
  ["show warnings", "show variables", "show session variables", "show global variables",
    "show status", "show session status", "show global status"]

/-- The probes answered from constants and the session, except for a `SELECT` list of metadata
expressions. -/
def isProbe (lower : List Char) : Bool :=
  (containsText "@@version".toList lower && !lower.contains ',') || isSelectDatabase lower ||
    localShows.any fun probe => probe.toList.isPrefixOf lower

end QueryFlux.Wire
