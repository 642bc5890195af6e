import Mathlib.Data.Finset.Card
import Mathlib.Data.List.Perm.Basic
import QueryFlux.Core.JsonText
import QueryFlux.Core.Slices
import QueryFlux.Core.Trim
import QueryFlux.Lib.Rows

/-!
# Query tags

`parse_query_tags` reads tags from a JSON object or from a list `key:value,key`, and
`validate_tags` keeps those that meet the limits. The letters of a key are those of Unicode, and the
warning for an over-long key cuts it at byte 128, which panics inside a character. Unless one of
these happens before 20 tags are kept, the tags are valid (`Harmless`); and valid tags survive being
written as JSON (`query_tags_valid_iff_and_stored`).
-/

namespace QueryFlux.Core

open Lib List

abbrev TagEntry := String × Option String

section
-- `char::is_alphanumeric`, and the JSON parser
variable (isAlphanumeric : Char → Bool) (parse : List Char → Option Json)

def warned (warning : String) (result : List TagEntry × List String) :
    List TagEntry × List String := (result.1, warning :: result.2)

def isKeyChar (c : Char) : Bool := isAlphanumeric c || c == '_' || c == '-'

/-- The tags with the warnings; none if the slice of an over-long key panics. -/
def validateTags (tags : List TagEntry) : List TagEntry → Option (List TagEntry × List String)
  | [] => some (tags, [])
  | (key, val) :: entries =>
    if 20 ≤ tags.length then
      some (tags, ["query_tags: max 20 tags exceeded, remaining tags dropped"])
    else if key = "" then validateTags tags entries
    else if 128 < utf8Len key.toList then
      (splitAtByte 128 key.toList).bind fun (start, _) =>
        (validateTags tags entries).map
          (warned ("query_tags: key '" ++ String.ofList start ++ "...' exceeds 128 chars, dropped"))
    else if !key.toList.all (isKeyChar isAlphanumeric) then
      (validateTags tags entries).map
        (warned ("query_tags: key '" ++ key ++ "' contains invalid characters, dropped"))
    else if val.any fun v => 128 < utf8Len v.toList then
      (validateTags tags entries).map
        (warned ("query_tags: value for key '" ++ key ++ "' exceeds 128 chars, dropped"))
    else validateTags (upsert Prod.fst (key, val) (fun _ => (key, val)) tags) entries

def tagValue : Json → Option String
  | .null => none
  | .string s => some s
  | other => some other.toText

/-- The entries of a header value: a JSON object if it is one, or pairs between commas. -/
def tagEntries (raw : List Char) : List TagEntry :=
  let raw := trim raw
  if raw = [] then []
  else match if raw.head? = some '\x7b' then parse raw else none with
  | some (.object members) => members.map fun (k, v) => (k, tagValue v)
  | _ => (raw.splitOn ',').map fun part =>
    match splitOnce ':' (trim part) with
    | some (k, v) => (String.ofList (trim k), some (String.ofList (trim v)))
    | none => (String.ofList (trim part), none)

def parseQueryTags (raw : List Char) : Option (List TagEntry × List String) :=
  validateTags isAlphanumeric [] (tagEntries parse raw)

end

def tagMember (e : TagEntry) : String × Json := (e.1, (e.2.map Json.string).getD .null)

def tagsToJson (tags : List TagEntry) : Json := .object (tags.map tagMember)

theorem toNat_lt_of_isKeyChar {c : Char} (h : isKeyChar Char.isAlphanum c = true) :
    c.toNat < 128 := by
  unfold isKeyChar Char.isAlphanum Char.isAlpha Char.isUpper Char.isLower Char.isDigit at h
  simp only [Bool.or_eq_true, Bool.and_eq_true, decide_eq_true_eq, beq_iff_eq,
    UInt32.le_iff_toNat_le, ge_iff_le] at h
  change c.val.toNat < 128
  rcases h with ((((_ | _) | _) | rfl) | rfl)
  all_goals grind

structure ValidTag (e : TagEntry) : Prop where
  nonempty : e.1 ≠ ""
  key : utf8Len e.1.toList ≤ 128
  chars : ∀ c ∈ e.1.toList, isKeyChar Char.isAlphanum c
  value : ∀ v ∈ e.2, utf8Len v.toList ≤ 128

instance (e : TagEntry) : Decidable (ValidTag e) :=
  decidable_of_iff (e.1 ≠ "" ∧ utf8Len e.1.toList ≤ 128 ∧
    e.1.toList.all (isKeyChar Char.isAlphanum) = true ∧ ∀ v ∈ e.2, utf8Len v.toList ≤ 128)
    ⟨fun h => ⟨h.1, h.2.1, all_eq_true.1 h.2.2.1, h.2.2.2⟩,
      fun h => ⟨h.nonempty, h.key, all_eq_true.2 h.chars, h.value⟩⟩

/-- At most twenty entries, each key once, every entry within the limits. -/
structure ValidTags (tags : List TagEntry) : Prop where
  length : tags.length ≤ 20
  keyed : Keyed Prod.fst tags
  valid : ∀ e ∈ tags, ValidTag e

theorem ValidTags.perm {tags tags' : List TagEntry} (h : ValidTags tags) (hp : tags'.Perm tags) :
    ValidTags tags' where
  length := hp.length_eq ▸ h.length
  keyed := (hp.map Prod.fst).nodup_iff.2 h.keyed
  valid e he := h.valid e (hp.mem_iff.1 he)

theorem keys_upsert (tags : List TagEntry) (e : TagEntry) :
    (upsert Prod.fst e (fun _ => e) tags).map Prod.fst =
      if hasKey Prod.fst tags e.1 then tags.map Prod.fst else tags.map Prod.fst ++ [e.1] := by
  unfold Lib.upsert
  split_ifs with hkey
  · rw [map_map]
    refine map_congr_left fun x _ => ?_
    by_cases hx : x.1 = e.1 <;> simp [hx]
  · rw [map_append]
    rfl

theorem mem_keys_upsert {tags : List TagEntry} {e : TagEntry} {k : String} :
    k ∈ (upsert Prod.fst e (fun _ => e) tags).map Prod.fst ↔ k ∈ tags.map Prod.fst ∨ k = e.1 := by
  rw [keys_upsert]
  split_ifs with hkey
  · obtain ⟨x, hx, hxe⟩ := hasKey_iff.1 hkey
    refine ⟨.inl, fun h => h.elim id ?_⟩
    rintro rfl
    exact hxe ▸ mem_map_of_mem hx
  · rw [mem_append, mem_singleton]

theorem keyed_upsert {tags : List TagEntry} (h : Keyed Prod.fst tags) (e : TagEntry) :
    Keyed Prod.fst (upsert Prod.fst e (fun _ => e) tags) := by
  rw [Keyed, keys_upsert]
  split_ifs with hkey
  · exact h
  · have hconcat := h.concat hkey
    rwa [Keyed, map_append] at hconcat

theorem ValidTags.upsert {tags : List TagEntry} {e : TagEntry} (h : ValidTags tags)
    (hlen : tags.length < 20) (he : ValidTag e) :
    ValidTags (upsert Prod.fst e (fun _ => e) tags) := by
  refine ⟨?_, keyed_upsert h.keyed e, fun x hx => ?_⟩
  · unfold Lib.upsert
    split_ifs
    · rw [length_map]
      exact h.length
    · rwa [length_append]
  · unfold Lib.upsert at hx
    split_ifs at hx
    · obtain ⟨y, hy, rfl⟩ := mem_map.1 hx
      split_ifs
      exacts [he, h.valid y hy]
    · obtain hx | rfl := (mem_append.1 hx).imp_right mem_singleton.1
      exacts [h.valid x hx, he]

/-! ## Entries that go wrong -/

section
variable (isAlphanumeric : Char → Bool)

/-- The entry passes the tests of a key and of a value. -/
def Kept (e : TagEntry) : Prop :=
  e.1 ≠ "" ∧ utf8Len e.1.toList ≤ 128 ∧ (∀ c ∈ e.1.toList, isKeyChar isAlphanumeric c) ∧
    ∀ v ∈ e.2, utf8Len v.toList ≤ 128

instance (e : TagEntry) : Decidable (Kept isAlphanumeric e) :=
  decidable_of_iff (e.1 ≠ "" ∧ utf8Len e.1.toList ≤ 128 ∧
    e.1.toList.all (isKeyChar isAlphanumeric) = true ∧ ∀ v ∈ e.2, utf8Len v.toList ≤ 128)
    (by rw [Kept, all_eq_true])

/-- The key is cut inside a character. -/
def BadCut (e : TagEntry) : Prop := 128 < utf8Len e.1.toList ∧ splitAtByte 128 e.1.toList = none

/-- A key that panics where it is cut, or that is kept though a character of it is not of ASCII. -/
def Harmful (e : TagEntry) : Prop :=
  BadCut e ∨ Kept isAlphanumeric e ∧ ∃ c ∈ e.1.toList, 128 ≤ c.toNat

/-- A bad entry stands behind counted ones that make up 20 tags, with the given ones. -/
def Spared (bad : TagEntry → Prop) (counted : TagEntry → Bool) (tags entries : List TagEntry) :
    Prop :=
  ∀ before e after, entries = before ++ e :: after → bad e →
    20 ≤ ((tags ++ before.filter counted).map Prod.fst).toFinset.card

/-- No harmful entry is come to before 20 valid tags. -/
def Harmless (entries : List TagEntry) : Prop :=
  Spared (Harmful isAlphanumeric) (fun e => ValidTag e) [] entries

/-- No key is cut inside a character before 20 tags are kept. -/
def CutsInside (entries : List TagEntry) : Prop :=
  Spared BadCut (fun e => Kept isAlphanumeric e) [] entries

variable {isAlphanumeric} {tags : List TagEntry} {e : TagEntry} {bad : TagEntry → Prop}
  {counted : TagEntry → Bool}

theorem spared_nil : Spared bad counted tags [] := by
  intro before e after heq
  cases before <;> cases heq

theorem spared_cons {entries : List TagEntry} :
    Spared bad counted tags (e :: entries) ↔
      (bad e → 20 ≤ (tags.map Prod.fst).toFinset.card) ∧
        Spared bad counted (tags ++ [e].filter counted) entries := by
  have hfilter (before : List TagEntry) : tags ++ (e :: before).filter counted =
      tags ++ [e].filter counted ++ before.filter counted := by
    rw [append_assoc, ← filter_append, singleton_append]
  constructor
  · intro h
    refine ⟨fun he => ?_, fun before e' after heq he' => ?_⟩
    · have hnone := h [] e entries rfl he
      rwa [filter_nil, append_nil] at hnone
    · rw [← hfilter]
      exact h (e :: before) e' after (by rw [heq]; rfl) he'
  · rintro ⟨hhead, htail⟩ before e' after heq he'
    cases before with
    | nil =>
      obtain ⟨rfl, rfl⟩ := cons.inj heq
      rw [filter_nil, append_nil]
      exact hhead he'
    | cons d before =>
      obtain ⟨rfl, rfl⟩ := cons.inj heq
      rw [hfilter]
      exact htail before e' after rfl he'

theorem spared_congr {tags' entries : List TagEntry}
    (h : ∀ k, k ∈ tags.map Prod.fst ↔ k ∈ tags'.map Prod.fst) :
    Spared bad counted tags entries ↔ Spared bad counted tags' entries := by
  have hcard (before : List TagEntry) :
      ((tags ++ before.filter counted).map Prod.fst).toFinset =
        ((tags' ++ before.filter counted).map Prod.fst).toFinset := by
    ext k
    simp only [mem_toFinset, map_append, mem_append, h]
  simp only [Spared, hcard]

/-- With 20 tags nothing is come to any more. -/
theorem spared_of_full {entries : List TagEntry} (h : 20 ≤ (tags.map Prod.fst).toFinset.card) :
    Spared bad counted tags entries := by
  intro before e after _ _
  refine h.trans (Finset.card_le_card fun k hk => ?_)
  rw [mem_toFinset] at hk ⊢
  rw [map_append]
  exact mem_append_left _ hk

/-- A counted entry is added to the tags. -/
theorem spared_upsert {entries : List TagEntry} (hbad : ¬ bad e) (hcounted : counted e = true) :
    Spared bad counted tags (e :: entries) ↔
      Spared bad counted (upsert Prod.fst e (fun _ => e) tags) entries := by
  rw [spared_cons, and_iff_right fun he => absurd he hbad]
  refine spared_congr fun k => ?_
  rw [mem_keys_upsert]
  simp [hcounted]

theorem spared_drop {entries : List TagEntry} (hbad : ¬ bad e) (hcounted : ¬ counted e = true) :
    Spared bad counted tags (e :: entries) ↔ Spared bad counted tags entries := by
  rw [spared_cons, and_iff_right fun he => absurd he hbad, filter_cons_of_neg hcounted, filter_nil,
    append_nil]

theorem not_spared {entries : List TagEntry} (hbad : bad e)
    (hlen : (tags.map Prod.fst).toFinset.card < 20) :
    ¬ Spared bad counted tags (e :: entries) := by
  intro h
  exact absurd ((spared_cons.1 h).1 hbad) (Nat.not_le.2 hlen)

theorem any_value_eq_false (h : ∀ v ∈ e.2, utf8Len v.toList ≤ 128) :
    ¬ (e.2.any fun v => 128 < utf8Len v.toList) = true := by
  cases hv : e.2 with
  | none => simp
  | some v => simpa using h v hv

theorem exists_kept_iff {result : Option (List TagEntry × List String)} :
    (∃ tags warnings, result = some (tags, warnings) ∧ ValidTags tags) ↔
      ∃ tags ∈ result.map Prod.fst, ValidTags tags := by
  simp

theorem validateTags_keep (hlen : tags.length < 20) (h : Kept isAlphanumeric e)
    (entries : List TagEntry) : validateTags isAlphanumeric tags (e :: entries) =
      validateTags isAlphanumeric (upsert Prod.fst e (fun _ => e) tags) entries := by
  obtain ⟨hempty, hkey, hchars, hvalue⟩ := h
  have hall : e.1.toList.all (isKeyChar isAlphanumeric) := all_eq_true.2 hchars
  rw [validateTags, if_neg (Nat.not_le.2 hlen), if_neg hempty, if_neg (Nat.not_lt.2 hkey), hall,
    if_neg (by decide), if_neg (any_value_eq_false hvalue)]

theorem validateTags_cut (hlen : tags.length < 20) (h : BadCut e) (entries : List TagEntry) :
    validateTags isAlphanumeric tags (e :: entries) = none := by
  have hne : e.1 ≠ "" := by
    intro heq
    have hlong := h.1
    rw [heq] at hlong
    exact absurd hlong (by decide)
  rw [validateTags, if_neg (Nat.not_le.2 hlen), if_neg hne, if_pos h.1, h.2]
  rfl

/-- An entry that is neither kept nor cut inside a character is dropped. -/
theorem validateTags_drop (hlen : tags.length < 20) (hcut : ¬ BadCut e)
    (hkept : ¬ Kept isAlphanumeric e) (entries : List TagEntry) :
    (validateTags isAlphanumeric tags (e :: entries)).map Prod.fst =
      (validateTags isAlphanumeric tags entries).map Prod.fst := by
  have hwarned (w : String) :
      ((validateTags isAlphanumeric tags entries).map (warned w)).map Prod.fst =
        (validateTags isAlphanumeric tags entries).map Prod.fst := by
    rw [Option.map_map]
    rfl
  rw [validateTags, if_neg (Nat.not_le.2 hlen)]
  split_ifs with hempty hlong hchars hval
  · rfl
  · obtain ⟨cut, hsplit⟩ := Option.ne_none_iff_exists'.1 fun hnone => hcut ⟨hlong, hnone⟩
    rw [hsplit]
    exact hwarned _
  · exact hwarned _
  · exact hwarned _
  · rw [Bool.not_eq_true', Bool.not_eq_false, all_eq_true] at hchars
    refine absurd ⟨hempty, Nat.le_of_not_lt hlong, hchars, fun v hv => ?_⟩ hkept
    rw [Option.mem_def.1 hv] at hval
    simpa using hval

theorem validateTags_full (hlen : ¬ tags.length < 20) (entries : List TagEntry) :
    ∃ warnings, validateTags isAlphanumeric tags entries = some (tags, warnings) := by
  cases entries with
  | nil => exact ⟨[], rfl⟩
  | cons => exact ⟨_, if_pos (Nat.le_of_not_lt hlen)⟩

theorem card_keys (h : Keyed Prod.fst tags) :
    (tags.map Prod.fst).toFinset.card = tags.length := by
  rw [toFinset_card_of_nodup h, length_map]

theorem isSome_validateTags_iff {entries : List TagEntry} (h : Keyed Prod.fst tags) :
    (validateTags isAlphanumeric tags entries).isSome ↔
      Spared BadCut (fun e => Kept isAlphanumeric e) tags entries := by
  induction entries generalizing tags with
  | nil => exact iff_of_true rfl spared_nil
  | cons e entries ih =>
    by_cases hlen : tags.length < 20
    · by_cases hcut : BadCut e
      · rw [validateTags_cut hlen hcut]
        exact iff_of_false nofun (not_spared hcut ((card_keys h).trans_lt hlen))
      · by_cases hkept : Kept isAlphanumeric e
        · rw [validateTags_keep hlen hkept, ih (keyed_upsert h e),
            spared_upsert hcut (decide_eq_true hkept)]
        · rw [← Option.isSome_map, validateTags_drop hlen hcut hkept, Option.isSome_map, ih h,
            spared_drop hcut (by simpa using hkept)]
    · obtain ⟨warnings, hfull⟩ : ∃ warnings,
          validateTags isAlphanumeric tags (e :: entries) = some (tags, warnings) :=
        validateTags_full hlen _
      rw [hfull]
      refine iff_of_true rfl (spared_of_full ?_)
      rw [card_keys h]
      exact Nat.le_of_not_lt hlen

theorem isSome_parseQueryTags_iff {parse : List Char → Option Json} {raw : List Char} :
    (parseQueryTags isAlphanumeric parse raw).isSome ↔
      CutsInside isAlphanumeric (tagEntries parse raw) :=
  isSome_validateTags_iff nodup_nil

theorem validateTags_keys {entries tags' : List TagEntry} {warnings : List String}
    (h : validateTags isAlphanumeric tags entries = some (tags', warnings)) {k : String}
    (hk : k ∈ tags.map Prod.fst) : k ∈ tags'.map Prod.fst := by
  induction entries generalizing tags warnings with
  | nil =>
    cases h
    exact hk
  | cons e entries ih =>
    have hwarned {w : String}
        (h : (validateTags isAlphanumeric tags entries).map (warned w) = some (tags', warnings)) :
        k ∈ tags'.map Prod.fst := by
      obtain ⟨⟨tags'', warnings'⟩, hrest, heq⟩ := Option.map_eq_some_iff.1 h
      cases heq
      exact ih hrest hk
    rw [validateTags] at h
    split_ifs at h
    · cases h
      exact hk
    · exact ih h hk
    · obtain ⟨cut, -, hrest⟩ := Option.bind_eq_some_iff.1 h
      exact hwarned hrest
    · exact hwarned h
    · exact hwarned h
    · exact ih h (mem_keys_upsert.2 (.inl hk))

variable (halnum : ∀ c, c.toNat < 128 → isAlphanumeric c = c.isAlphanum)
include halnum

theorem isKeyChar_of_ascii {c : Char} (h : isKeyChar Char.isAlphanum c = true) :
    isKeyChar isAlphanumeric c = true := by
  rw [isKeyChar, halnum c (toNat_lt_of_isKeyChar h)]
  exact h

theorem kept_of_validTag (h : ValidTag e) : Kept isAlphanumeric e :=
  ⟨h.nonempty, h.key, fun c hc => isKeyChar_of_ascii halnum (h.chars c hc), h.value⟩

theorem validTag_of_kept (h : Kept isAlphanumeric e) (hharm : ¬ Harmful isAlphanumeric e) :
    ValidTag e := by
  obtain ⟨hempty, hkey, hchars, hvalue⟩ := h
  refine ⟨hempty, hkey, fun c hc => ?_, hvalue⟩
  have hascii : c.toNat < 128 :=
    Nat.lt_of_not_le fun hle => hharm (.inr ⟨⟨hempty, hkey, hchars, hvalue⟩, c, hc, hle⟩)
  have hchar := hchars c hc
  rwa [isKeyChar, halnum c hascii] at hchar

/-- The tags are valid if and only if no harmful entry is come to. -/
theorem validateTags_valid_iff {entries : List TagEntry} (h : ValidTags tags) :
    (∃ tags' warnings, validateTags isAlphanumeric tags entries = some (tags', warnings) ∧
      ValidTags tags') ↔
      Spared (Harmful isAlphanumeric) (fun e => ValidTag e) tags entries := by
  induction entries generalizing tags with
  | nil => exact iff_of_true ⟨tags, [], rfl, h⟩ spared_nil
  | cons e entries ih =>
    by_cases hlen : tags.length < 20
    · by_cases hharm : Harmful isAlphanumeric e
      · -- the entry panics, or it is kept to the end
        refine iff_of_false ?_ (not_spared hharm ((card_keys h.keyed).trans_lt hlen))
        rintro ⟨tags', warnings, hrun, hvalid⟩
        rcases hharm with hcut | ⟨hkept, c, hc, hle⟩
        · rw [validateTags_cut hlen hcut] at hrun
          cases hrun
        · rw [validateTags_keep hlen hkept] at hrun
          have hmem := validateTags_keys hrun (mem_keys_upsert.2 (.inr rfl))
          obtain ⟨e', he', hkey'⟩ := mem_map.1 hmem
          have hascii := (hvalid.valid e' he').chars c (hkey' ▸ hc)
          exact absurd (toNat_lt_of_isKeyChar hascii) (Nat.not_lt.2 hle)
      · by_cases hvalid : ValidTag e
        · rw [validateTags_keep hlen (kept_of_validTag halnum hvalid), ih (h.upsert hlen hvalid),
            spared_upsert hharm (decide_eq_true hvalid)]
        · have hkept : ¬ Kept isAlphanumeric e := fun hkept =>
            hvalid (validTag_of_kept halnum hkept hharm)
          rw [exists_kept_iff, validateTags_drop hlen (fun hcut => hharm (.inl hcut)) hkept,
            ← exists_kept_iff, ih h, spared_drop hharm (by simpa using hvalid)]
    · obtain ⟨warnings, hfull⟩ : ∃ warnings,
          validateTags isAlphanumeric tags (e :: entries) = some (tags, warnings) :=
        validateTags_full hlen _
      refine iff_of_true ⟨tags, warnings, hfull, h⟩ (spared_of_full ?_)
      rw [card_keys h.keyed]
      exact Nat.le_of_not_lt hlen

theorem validateTags_of_valid {tags entries : List TagEntry} (h : ValidTags (tags ++ entries)) :
    validateTags isAlphanumeric tags entries = some (tags ++ entries, []) := by
  induction entries generalizing tags with
  | nil => rw [append_nil, validateTags]
  | cons e entries ih =>
    have he := h.valid e (mem_append_right _ (.head _))
    have hlen : tags.length < 20 := by
      have := h.length
      simp at this
      omega
    have hfresh : ¬hasKey Prod.fst tags e.1 = true := by
      have hkeyed := h.keyed
      rw [Keyed, map_append, map_cons, nodup_append] at hkeyed
      exact not_hasKey_iff.2 fun hmem => hkeyed.2.2 _ hmem _ (.head _) rfl
    rw [append_cons] at h ⊢
    rw [validateTags_keep hlen (kept_of_validTag halnum he), upsert, if_neg hfresh, ih h]

end

/-! ## Tags as JSON -/

theorem getLast?_membersText (members : List (String × Json)) :
    (Json.membersText members).getLast? = some '}' := by
  have hmore (members : List (String × Json)) :
      (Json.moreMembers members).getLast? = some '}' := by
    induction members with
    | nil => rw [Json.moreMembers]; rfl
    | cons m members ih => simp [Json.moreMembers, getLast?_cons, getLast?_append, ih]
  cases members with
  | nil => rw [Json.membersText]; rfl
  | cons m members =>
    simp [Json.membersText, getLast?_cons, getLast?_append, hmore]

/-- The entries of a text that is a JSON object. -/
theorem tagEntries_object {parse : List Char → Option Json}
    {members members' : List (String × Json)}
    (hparse : parse (Json.object members).text = some (.object members')) :
    tagEntries parse (Json.object members).text = members'.map fun (k, v) => (k, tagValue v) := by
  have htrim : trim (Json.object members).text = (Json.object members).text := by
    rw [trim, trimStart_eq_self, trimEndMatches_eq_self]
    · simp only [Json.text, getLast?_cons, getLast?_membersText, Option.mem_some_iff]
      rintro _ rfl
      decide
    · simp only [Json.text, head?_cons, Option.mem_some_iff]
      rintro _ rfl
      decide
  rw [tagEntries, htrim, if_neg (by simp [Json.text]), if_pos (by simp [Json.text]), hparse]

/-- `parse_query_tags` returns valid tags if and only if no harmful entry is come to; and valid tags
written as JSON are read back, in whatever order the parser gives the members. -/
theorem query_tags_valid_iff_and_stored (isAlphanumeric : Char → Bool)
    (halnum : ∀ c, c.toNat < 128 → isAlphanumeric c = c.isAlphanum)
    (parse : List Char → Option Json) :
    (∀ raw, (∃ tags warnings, parseQueryTags isAlphanumeric parse raw = some (tags, warnings) ∧
      ValidTags tags) ↔ Harmless isAlphanumeric (tagEntries parse raw)) ∧
    ∀ tags, ValidTags tags → ∀ members, members.Perm (tags.map tagMember) →
      parse (tagsToJson tags).text = some (.object members) →
      ∃ tags', parseQueryTags isAlphanumeric parse (tagsToJson tags).text = some (tags', []) ∧
        tags'.Perm tags := by
  refine ⟨fun raw => ?_, ?_⟩
  · exact validateTags_valid_iff halnum ⟨Nat.zero_le _, nodup_nil, forall_mem_nil _⟩
  · intro tags h members hmembers hparse
    have hentries : (tagEntries parse (tagsToJson tags).text).Perm tags := by
      rw [tagsToJson, tagEntries_object hparse]
      refine (hmembers.map _).trans (.of_eq ?_)
      rw [map_map]
      refine map_id'' ?_ tags
      rintro ⟨k, _ | v⟩ <;> rfl
    have hvalid : ValidTags ([] ++ tagEntries parse (tagsToJson tags).text) := h.perm hentries
    exact ⟨_, validateTags_of_valid halnum hvalid, hentries⟩

/-- The letters of ASCII and `é`, on which it is `char::is_alphanumeric`. -/
def accentedAlphanumeric (c : Char) : Bool := c.isAlphanum || c == 'é'

/-- A parser that knows one text. -/
def parseOnly (known : Json) (text : List Char) : Option Json :=
  if text = known.text then some known else none

def sampleTags : List TagEntry := [("team", some "eng"), ("batch", none)]

/-- An accented key is dropped with a warning, and two tags come back as they were stored. -/
theorem query_tags_stored_sample :
    (∃ tags warnings,
      parseQueryTags accentedAlphanumeric (parseOnly .null) "team:eng,é!:1,batch".toList =
        some (tags, warnings) ∧ ValidTags tags) ∧
    ∃ tags', parseQueryTags accentedAlphanumeric (parseOnly (tagsToJson sampleTags))
        (tagsToJson sampleTags).text = some (tags', []) ∧ tags'.Perm sampleTags := by
  have halnum (c : Char) (hc : c.toNat < 128) : accentedAlphanumeric c = c.isAlphanum := by
    have hne : c ≠ 'é' := by rintro rfl; exact absurd hc (by decide)
    simp [accentedAlphanumeric, hne]
  have hvalid : ValidTags sampleTags := by
    refine ⟨by decide, by unfold Keyed; decide, ?_⟩
    rw [sampleTags, forall_mem_cons, forall_mem_singleton]
    exact ⟨⟨by decide, by decide, all_iff_forall_prop.1 (by decide), by decide⟩,
      by decide, by decide, all_iff_forall_prop.1 (by decide), by decide⟩
  have htest : (tagEntries (parseOnly .null) "team:eng,é!:1,batch".toList).all (fun e =>
      utf8Len e.1.toList ≤ 128 && (e.1.toList.all (·.toNat < 128) ||
        !e.1.toList.all (isKeyChar accentedAlphanumeric))) = true := by
    decide +kernel
  refine ⟨((query_tags_valid_iff_and_stored _ halnum (parseOnly .null)).1 _).2 ?_,
    (query_tags_valid_iff_and_stored _ halnum (parseOnly (tagsToJson sampleTags))).2 _ hvalid _
      (.refl _) (if_pos rfl)⟩
  intro before e after heq he
  have hentry := all_eq_true.1 htest e (by rw [heq]; simp)
  simp only [Bool.and_eq_true, Bool.or_eq_true, decide_eq_true_eq, Bool.not_eq_true',
    all_eq_true, all_eq_false] at hentry
  rcases he with ⟨hlong, -⟩ | ⟨⟨-, -, hchars, -⟩, c, hc, hle⟩
  · exact absurd hentry.1 (Nat.not_le.2 hlong)
  · obtain hascii | ⟨d, hd, hother⟩ := hentry.2
    · exact absurd (hascii c hc) (Nat.not_lt.2 hle)
    · exact absurd (hchars d hd) hother

/-- An accented letter is let through, and a key whose byte 128 is inside a character panics. -/
theorem accented_key_kept_or_panics :
    parseQueryTags accentedAlphanumeric (parseOnly .null) "é:1".toList =
        some ([("é", some "1")], []) ∧
      parseQueryTags accentedAlphanumeric (parseOnly .null) (List.replicate 127 'a' ++ ['é']) =
        none := by
  decide +kernel

end QueryFlux.Core
