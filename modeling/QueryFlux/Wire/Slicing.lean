import QueryFlux.Core.Tags
import QueryFlux.Wire.LocalAnswers

/-!
# The slices of statement recognition

The functions that recognise a statement of the MySQL frontend, with every slice the source takes at
its byte offset. The offsets come from the length of a word the text starts with, from a search in
the text or from its tokens, and a slice that is not at a character panics (none). Only
`strip_prefix_ci` slices before it has looked at the text, and the tags of a `SET query_tags` are
read by `parse_query_tags`: the other functions return on every text (`recognition_returns_iff`).
-/

namespace QueryFlux.Wire.Slicing

open Core

/-! ## Conditional comments -/

/-- None where the slice would panic. -/
def skipComment (t : List Char) : Option (Option (List Char ⊕ List Char)) :=
  let plain := (splitCommentEnd t).map fun (_, after) => .inr (trim after)
  match t with
  | '/' :: '*' :: '!' :: inner =>
    match splitCommentEnd inner with
    | some (beforeClose, afterClose) =>
      (sliceFrom (utf8Len (beforeClose.takeWhile Char.isDigit)) beforeClose).map fun rest =>
        let body := trim rest
        some (if body ≠ [] then .inl body else .inr (trim afterClose))
    | none => some plain
  | _ => some plain

theorem skipComment_eq (t : List Char) : skipComment t = some (Wire.skipComment t) := by
  have hslice (p : Char → Bool) (s : List Char) :
      sliceFrom (utf8Len (s.takeWhile p)) s = some (s.dropWhile p) := by
    have h := splitAtByte_append (s.takeWhile p) (s.dropWhile p)
    rw [List.takeWhile_append_dropWhile] at h
    rw [sliceFrom, h]
    rfl
  unfold skipComment Wire.skipComment
  split
  · split
    · rename_i hend
      simp [hslice, hend]
    · rename_i hend
      simp [hend]
  · simp

def stripComments (t : List Char) : Option (List Char) :=
  if "/*".toList.isPrefixOf t then
    match _h : skipComment t with
    | none => none
    | some none => some t
    | some (some (.inl body)) => some body
    | some (some (.inr rest)) => stripComments rest
  else some t
termination_by t.length
decreasing_by exact length_skipComment (Option.some.inj ((skipComment_eq t).symm.trans _h))

def stripMysqlConditionalComment (sql : List Char) : Option (List Char) := stripComments (trim sql)

theorem isSome_stripComments (t : List Char) : (stripComments t).isSome := by
  fun_induction stripComments t with
  | case1 t hstart hnone => rw [skipComment_eq] at hnone; cases hnone
  | case4 t hstart rest hrest ih => exact ih
  | case2 | case3 | case5 => rfl

section
variable {α β : Type*}

/-- The `?` of a function that returns an `Option`, and may panic. -/
def andThen (x : Option (Option α)) (f : α → Option (Option β)) : Option (Option β) :=
  x.bind fun found => (found.map f).getD (some none)

theorem isSome_bind {x : Option α} {f : α → Option β} (hx : x.isSome) (hf : ∀ a, (f a).isSome) :
    (x.bind f).isSome := by
  obtain ⟨a, rfl⟩ := Option.isSome_iff_exists.1 hx
  exact hf a

theorem isSome_andThen {x : Option (Option α)} {f : α → Option (Option β)} (hx : x.isSome)
    (hf : ∀ a, (f a).isSome) : (andThen x f).isSome := by
  rcases x with _ | _ | a
  · cases hx
  · rfl
  · exact hf a

end

def assignedText (rest : List Char) : Option (List Char) :=
  match trimStart rest with
  | '=' :: value =>
    let value := trimStart value
    some ((insideQuotes value).getD value)
  | _ => none

def queryTagsValue (rest : List Char) : Option (Option (List Char)) :=
  let rest := trimStart rest
  (if "session".toList.isPrefixOf (toAsciiLowercase rest) then (sliceFrom 7 rest).map trimStart
    else some rest).bind fun rest =>
  andThen
    (if "query_tags".toList.isPrefixOf (toAsciiLowercase rest) then (sliceFrom 10 rest).map some
    else if "query_tag".toList.isPrefixOf (toAsciiLowercase rest) then (sliceFrom 9 rest).map some
    else some none) fun rest => some (assignedText rest)

theorem lowercases_toAsciiLowercase : Lowercases toAsciiLowercase := by
  refine lowercases_map (fun _ _ => rfl) fun c hc => .inr ?_
  rcases toNat_toLower c with h | h
  · rwa [h]
  · omega

theorem queryTagsValue_eq (rest : List Char) :
    queryTagsValue rest = some (Wire.queryTagsValue rest) := by
  have hslice {w rest : List Char} (hw : PlainWord w)
      (h : w.isPrefixOf (toAsciiLowercase rest) = true) :=
    lowercases_toAsciiLowercase.sliceFrom_eq hw h
  have hsession (rest : List Char) :
      (if "session".toList.isPrefixOf (toAsciiLowercase rest) then (sliceFrom 7 rest).map trimStart
        else some rest) =
      some (if "session".toList.isPrefixOf (toAsciiLowercase rest) then trimStart (rest.drop 7)
        else rest) := by
    split_ifs with h
    · exact congrArg (Option.map trimStart) (hslice (by decide) h)
    · rfl
  unfold queryTagsValue Wire.queryTagsValue andThen
  simp only [hsession, Option.bind_some]
  generalize (if "session".toList.isPrefixOf (toAsciiLowercase (trimStart rest)) then
    trimStart ((trimStart rest).drop 7) else trimStart rest) = rest
  split_ifs with htags htag
  · rw [show sliceFrom 10 rest = some (rest.drop 10) from hslice (by decide) htags]
    rfl
  · rw [show sliceFrom 9 rest = some (rest.drop 9) from hslice (by decide) htag]
    rfl
  · rfl

section
variable (isAlphanumeric : Char → Bool) (parse : List Char → Option Json)

def tryParseSetQueryTags (sql : List Char) : Option (Option (List TagEntry)) :=
  andThen (stripPrefixCi "SET".toList (trim (trimEndMatches (· == ';') (trim sql)))) fun rest =>
  andThen (queryTagsValue rest) fun value =>
  (parseQueryTags isAlphanumeric parse value).map fun (tags, _) => some tags

end

section
variable (lower : List Char → List Char)

/-- What is behind one of the words, which are all of `n` bytes. -/
def afterWords (words : List String) (n : Nat) (s : List Char) : Option (Option (List Char)) :=
  if words.any (·.toList.isPrefixOf (lower s)) then (sliceFrom n s).map some else some none

variable {lower} in
theorem isSome_afterWords (hlower : Lowercases lower) {words : List String} {n : Nat}
    (hwords : ∀ w ∈ words, PlainWord w.toList ∧ w.toList.length = n) (s : List Char) :
    (afterWords lower words n s).isSome := by
  unfold afterWords
  split_ifs with h
  · obtain ⟨w, hw, hstart⟩ := List.any_eq_true.1 h
    obtain ⟨hplain, rfl⟩ := hwords w hw
    rw [hlower.sliceFrom_eq hplain hstart]
    rfl
  · rfl

def tryParseUse (sql : List Char) : Option (Option (List Char)) :=
  let s := trimEndMatches (· == ';') (trim sql)
  andThen
    (if lower s = "use".toList then some (some []) else afterWords lower ["use ", "use\t"] 4 s)
    fun rest => some (some (trimEndMatches (· == '\x60') ((trim rest).dropWhile (· == '\x60'))))

def assignment (s : List Char) : Option (Option (List Char)) :=
  (afterWords lower ["set session ", "set session\t"] 12 s).bind fun rest =>
  if rest.isSome then some rest else afterWords lower ["set ", "set\t"] 4 s

def isQuotedBy (q : Char) (s : List Char) : Bool := s.head? == some q && s.getLast? == some q

def unquoted (s : List Char) : Option (List Char) :=
  if 2 ≤ utf8Len s ∧ (isQuotedBy '\x27' s || isQuotedBy '\x22' s) then
    (sliceTo (utf8Len s - 1) s).bind (sliceFrom 1)
  else some s

def tryParseSetKv (sql : List Char) : Option (Option (String × String)) :=
  andThen (assignment lower (trimEndMatches (· == ';') (trim sql))) fun rest =>
  let rest := dropAts (trim rest)
  (if "session.".toList.isPrefixOf (lower rest) then sliceFrom 8 rest else some rest).bind
  fun rest =>
  let rest := rest.dropWhile (· == '@')
  andThen (some (findText ['='] rest)) fun eqPos =>
  if hasBareComma none rest then some none
  else
    (sliceTo eqPos rest).bind fun left =>
    let key := lower (trim left)
    if key.isEmpty then some none
    else
      (sliceFrom (eqPos + 1) rest).bind fun right =>
      (unquoted (trim right)).map fun value => some (String.ofList key, String.ofList value)

end

/-! ## Metadata -/

/-- The words of the text with the offsets of their starts; `word` is what has been read of a word
that ends before byte `pos`. -/
def tokens (pos : Nat) (word : List Char) : List Char → List (List Char × Nat)
  | [] => if word = [] then [] else [(word, pos - utf8Len word)]
  | c :: cs =>
    if isWhitespace c then
      (if word = [] then [] else [(word, pos - utf8Len word)]) ++ tokens (pos + c.utf8Size) [] cs
    else tokens (pos + c.utf8Size) (word ++ [c]) cs

def stripFromDual (body : List Char) : Option (List Char) :=
  let tail := trimEndMatches isWhitespace body
  match (tokens 0 [] tail).reverse with
  | (last, _) :: (prev, start) :: _ =>
    if last = "dual".toList ∧ prev = "from".toList then
      (sliceTo start tail).map (trimEndMatches isWhitespace)
    else some body
  | _ => some body

section
variable (lower : List Char → List Char) (session : SessionContext)

def metadataColumn (part : List Char) : Option (Option (String × Option String)) :=
  let pos := rfindText " as ".toList part
  (pos.elim (some part) fun pos => sliceFrom (pos + 4) part).bind fun label =>
  (pos.elim (some part) fun pos => sliceTo pos part).map fun expr =>
  (mysqlSyntheticValue session (lower (trim expr))).map (String.ofList (trim label), ·)

def metadataColumns : List (List Char) → Option (Option (List (String × Option String)))
  | [] => some (some [])
  | part :: parts =>
    andThen (metadataColumn lower session part) fun column =>
    (metadataColumns parts).map (·.map (column :: ·))

def tryParseMysqlMetadataSelect (sql : List Char) :
    Option (Option (List (String × Option String))) :=
  let trimmed := trimEndMatches (· == ';') (trim sql)
  if "select".toList.isPrefixOf trimmed then
    (stripFromDual (trimStart (trimmed.drop 6))).bind fun rest =>
    if (splitWhitespace rest).any (· == "from".toList) then some none
    else
      ((findText " limit ".toList rest).elim (some rest) fun i => sliceTo i rest).bind fun main =>
      metadataColumns lower session ((main.splitOn ',').map trim)
  else some none

end

theorem isSome_unquoted (s : List Char) : (unquoted s).isSome := by
  unfold unquoted
  split_ifs with h
  · obtain ⟨hlen, hquotes⟩ := h
    obtain ⟨q, hq, hhead, hlast⟩ :
        ∃ q : Char, q.utf8Size = 1 ∧ s.head? = some q ∧ s.getLast? = some q := by
      simp only [isQuotedBy, Bool.or_eq_true, Bool.and_eq_true, beq_iff_eq] at hquotes
      rcases hquotes with h | h
      exacts [⟨_, rfl, h⟩, ⟨_, rfl, h⟩]
    obtain ⟨t, rfl⟩ := List.head?_eq_some_iff.1 hhead
    rcases t.eq_nil_or_concat' with rfl | ⟨m, c, rfl⟩
    · simp [hq] at hlen
    · have hc : c = q := by simpa [List.getLast?_cons, List.getLast?_append] using hlast
      have hto : sliceTo (utf8Len (q :: (m ++ [c])) - 1) (q :: (m ++ [c])) = some (q :: m) := by
        have hlen : utf8Len (q :: (m ++ [c])) - 1 = utf8Len (q :: m) := by
          simp [hc, hq, ← Nat.add_assoc]
        rw [sliceTo, hlen, ← List.cons_append, splitAtByte_append]
        rfl
      have hfrom := splitAtByte_append [q] m
      rw [utf8Len_cons, hq] at hfrom
      rw [hto, Option.bind_some, sliceFrom, Option.isSome_map]
      exact Option.isSome_iff_exists.2 ⟨_, hfrom⟩
  · rfl

section
variable {lower : List Char → List Char} (hlower : Lowercases lower) (sql : List Char)
include hlower

theorem isSome_tryParseUse : (tryParseUse lower sql).isSome := by
  refine isSome_andThen ?_ fun _ => rfl
  split_ifs
  · rfl
  · exact isSome_afterWords hlower (by decide) _

theorem isSome_assignment (s : List Char) : (assignment lower s).isSome := by
  refine isSome_bind (isSome_afterWords hlower (by decide) s) fun rest => ?_
  split_ifs
  · rfl
  · exact isSome_afterWords hlower (by decide) s

theorem isSome_tryParseSetKv : (tryParseSetKv lower sql).isSome := by
  refine isSome_andThen (isSome_assignment hlower _) fun rest => isSome_bind ?_ fun rest => ?_
  · split_ifs with h
    · rw [show sliceFrom 8 _ = _ from hlower.sliceFrom_eq (by decide) h]
      rfl
    · rfl
  · generalize rest.dropWhile (· == '@') = rest
    dsimp only
    cases hpos : findText ['='] rest with
    | none => rfl
    | some eqPos =>
      obtain ⟨left, right, hleft, hright⟩ := (occursAt_of_findText hpos).exists_slices
      have hright : sliceFrom (eqPos + 1) rest = some right := hright
      simp only [andThen, Option.bind_some, Option.map_some, Option.getD_some, hleft, hright]
      split_ifs
      · rfl
      · rfl
      · rw [Option.isSome_map]
        exact isSome_unquoted _

end

theorem occursAt_of_mem_tokens (front word s : List Char) :
    ∀ t ∈ tokens (utf8Len (front ++ word)) word s, OccursAt t.1 (front ++ (word ++ s)) t.2 := by
  have hword (word s : List Char) (front : List Char) :
      ∀ t ∈ (if word = [] then [] else [(word, utf8Len (front ++ word) - utf8Len word)]),
        OccursAt t.1 (front ++ (word ++ s)) t.2 := by
    intro t ht
    split_ifs at ht with hempty
    · cases ht
    · rw [List.mem_singleton.1 ht]
      exact ⟨front, s, rfl, by simp⟩
  induction s generalizing front word with
  | nil => exact hword word [] front
  | cons c s ih =>
    rw [tokens]
    by_cases hc : isWhitespace c = true
    · rw [if_pos hc, List.forall_mem_append]
      refine ⟨hword word (c :: s) front, ?_⟩
      simpa [← Nat.add_assoc] using ih (front ++ word ++ [c]) []
    · rw [if_neg hc]
      simpa [← Nat.add_assoc] using ih front (word ++ [c])

theorem isSome_stripFromDual (body : List Char) : (stripFromDual body).isSome := by
  unfold stripFromDual
  dsimp only
  split
  · rename_i last n prev start others htokens
    split_ifs
    · have hmem : (prev, start) ∈ tokens 0 [] (trimEndMatches isWhitespace body) := by
        rw [← List.mem_reverse, htokens]
        exact .tail _ (.head _)
      obtain ⟨a, b, ha, -⟩ := (occursAt_of_mem_tokens [] [] _ _ hmem).exists_slices
      rw [Option.isSome_map]
      exact Option.isSome_iff_exists.2 ⟨a, ha⟩
    · rfl
  · rfl

section
variable (lower : List Char → List Char) (session : SessionContext)

theorem isSome_metadataColumn (part : List Char) : (metadataColumn lower session part).isSome := by
  unfold metadataColumn
  cases hpos : rfindText " as ".toList part with
  | none => rfl
  | some pos =>
    obtain ⟨a, b, ha, hb⟩ := (occursAt_of_rfindText hpos).exists_slices
    have hb : sliceFrom (pos + 4) part = some b := hb
    simp [ha, hb]

theorem isSome_metadataColumns (parts : List (List Char)) :
    (metadataColumns lower session parts).isSome := by
  induction parts with
  | nil => rfl
  | cons part parts ih =>
    refine isSome_andThen (isSome_metadataColumn lower session part) fun column => ?_
    rwa [Option.isSome_map]

theorem isSome_tryParseMysqlMetadataSelect (sql : List Char) :
    (tryParseMysqlMetadataSelect lower session sql).isSome := by
  unfold tryParseMysqlMetadataSelect
  dsimp only
  split_ifs
  · refine isSome_bind (isSome_stripFromDual _) fun rest => ?_
    split_ifs
    · rfl
    · refine isSome_bind ?_ fun main => isSome_metadataColumns lower session _
      cases hpos : findText " limit ".toList rest with
      | none => rfl
      | some i =>
        obtain ⟨a, -, ha, -⟩ := (occursAt_of_findText hpos).exists_slices
        exact Option.isSome_iff_exists.2 ⟨a, ha⟩
  · rfl

end

/-! ## When recognition returns -/

/-- The text `strip_prefix_ci` looks at is shorter than `SET`, or its byte 3 is at a character. -/
def SetSliceInside (sql : List Char) : Prop :=
  let s := trim (trimEndMatches (· == ';') (trim sql))
  utf8Len s < 3 ∨ isCharBoundary 3 s = true

theorem isSome_tryParseSetQueryTags_iff (isAlphanumeric : Char → Bool)
    (parse : List Char → Option Json) (sql : List Char) :
    (tryParseSetQueryTags isAlphanumeric parse sql).isSome ↔ SetSliceInside sql ∧
      ∀ value, Wire.tryParseSetQueryTags sql = some (some value) →
        CutsInside isAlphanumeric (tagEntries parse value) := by
  have hslice : (stripPrefixCi "SET".toList (trim (trimEndMatches (· == ';') (trim sql)))).isSome ↔
      SetSliceInside sql := by
    unfold stripPrefixCi
    split_ifs with hlen hinside heq
    · exact iff_of_true rfl (.inl hlen)
    · exact iff_of_false Bool.false_ne_true (not_or.2 ⟨hlen, by simpa using hinside⟩)
    · exact iff_of_true rfl (.inr (by simpa using hinside))
    · exact iff_of_true rfl (.inr (by simpa using hinside))
  rw [← hslice]
  unfold tryParseSetQueryTags Wire.tryParseSetQueryTags
  rcases stripPrefixCi "SET".toList _ with _ | _ | rest
  · simp [andThen]
  · simp [andThen]
  · simp only [andThen, queryTagsValue_eq]
    cases hvalue : Wire.queryTagsValue rest <;> simp [hvalue, isSome_parseQueryTags_iff]

/-- Every function but `try_parse_set_query_tags` returns on every text; that one returns if the
slice of `strip_prefix_ci` is at a character, and so is the cut of every over-long key it comes to
among the tags. -/
theorem recognition_returns_iff (isAlphanumeric : Char → Bool) (parse : List Char → Option Json)
    (lower : List Char → List Char) (hlower : Lowercases lower) (session : SessionContext)
    (sql : List Char) :
    (stripMysqlConditionalComment sql).isSome ∧ (tryParseSetKv lower sql).isSome ∧
      (tryParseUse lower sql).isSome ∧
      (tryParseMysqlMetadataSelect lower session sql).isSome ∧
      ((tryParseSetQueryTags isAlphanumeric parse sql).isSome ↔ SetSliceInside sql ∧
        ∀ value, Wire.tryParseSetQueryTags sql = some (some value) →
          CutsInside isAlphanumeric (tagEntries parse value)) :=
  ⟨isSome_stripComments _, isSome_tryParseSetKv hlower sql, isSome_tryParseUse hlower sql,
    isSome_tryParseMysqlMetadataSelect lower session sql,
    isSome_tryParseSetQueryTags_iff isAlphanumeric parse sql⟩

/-- No key is long enough to be cut. -/
theorem set_query_tags_returns :
    (tryParseSetQueryTags Char.isAlphanum (fun _ => none) "SET query_tags = 'a:é'".toList).isSome
    := by
  refine (recognition_returns_iff _ _ toAsciiLowercase lowercases_toAsciiLowercase
    (handshakeSession "" none) _).2.2.2.2.2 ⟨.inr (by decide), fun value h => ?_⟩
  have hvalue : Wire.tryParseSetQueryTags "SET query_tags = 'a:é'".toList =
      some (some "a:é".toList) := by
    decide
  cases hvalue.symm.trans h
  have hentries : tagEntries (fun _ => none) "a:é".toList = [("a", some "é")] := by decide
  intro before e after heq hcut
  have hmem : e ∈ tagEntries (fun _ => none) "a:é".toList := by rw [heq]; simp
  rw [hentries, List.mem_singleton] at hmem
  subst hmem
  exact absurd hcut.1 (by decide)

/-- Two characters of two bytes each, and a key that is cut in its last character. -/
theorem recognition_panics :
    tryParseSetQueryTags Char.isAlphanum (fun _ => none) "éé".toList = none ∧
      tryParseSetQueryTags Char.isAlphanum (fun _ => none)
        ("SET query_tags = ".toList ++ List.replicate 127 'a' ++ ['é']) = none := by
  decide +kernel

end QueryFlux.Wire.Slicing
