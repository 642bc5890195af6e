import Mathlib.Data.List.Dedup
import Mathlib.Data.List.Perm.Basic
import Mathlib.Data.List.Sort
import QueryFlux.Lib.LastWrite
import QueryFlux.Routing.Json

/-!
# Bindings of placeholders

The bindings of a query are an object with the members `"1"`, `"2"`, and so on. `bindings_to_params`
reads the members into a map by their numbers and returns its values. It does not look at the
numbers again, so a gap moves the later bindings forward; and a value goes through a text in which
`NULL` and the empty text stand for a null. Each placeholder gets its binding exactly if the numbers
are those from one on and no text is one of these two (`bindingsToParams_faithful_iff`).
-/

namespace QueryFlux.Snowflake

open Core Lib List

/-! ## Parameters -/

def safeNumericFrom (hasDot hasExp afterExp : Bool) : List Char → Bool
  | [] => !afterExp
  | b :: bs =>
    if b.isDigit then safeNumericFrom hasDot hasExp false bs
    else if b = '.' && !hasDot && !hasExp then safeNumericFrom true hasExp afterExp bs
    else if (b = 'e' || b = 'E') && !hasExp then safeNumericFrom hasDot true true bs
    else if (b = '+' || b = '-') && afterExp then safeNumericFrom hasDot hasExp false bs
    else false

/-- What may be written into the statement as a number. -/
def isSafeNumeric (value : String) : Bool :=
  let digits := match value.toList with
    | '+' :: rest | '-' :: rest => rest
    | rest => rest
  !digits.isEmpty && safeNumericFrom false false false digits

section
-- `str::to_uppercase`
variable (upper : String → String)

def bindingToParam (sfType value : String) : QueryParam :=
  if value = "NULL" ∨ value = "" then .null
  else
    match upper sfType with
    | "FIXED" | "REAL" => if isSafeNumeric value then .numeric value else .null
    | "BOOLEAN" => .boolean (["TRUE", "1", "YES", "ON"].contains (upper value))
    | "DATE" => .date value
    | "TIMESTAMP_NTZ" | "TIMESTAMP_LTZ" | "TIMESTAMP_TZ" | "TIMESTAMP" => .timestamp value
    | "TIME" => .time value
    | _ => .text value

def bindingType (entry : Json) : String := (entry.strAt "type").getD "TEXT"

def bindingValue (entry : Json) : String := (entry.strAt "value").getD "NULL"

def entryParam (entry : Json) : QueryParam :=
  bindingToParam upper (bindingType entry) (bindingValue entry)

/-- The values of a `BTreeMap` with these inserts: one for each key, in the order of the keys. -/
def orderedValues {ν : Type} (inserts : List (Nat × ν)) : List ν :=
  ((inserts.map Prod.fst).dedup.insertionSort (· ≤ ·)).filterMap (lastWrite inserts)

/-- Keys that are no index are skipped. -/
def indexed (obj : Members) : List (Nat × Json) :=
  obj.filterMap fun m => (parseU32 m.1).map fun idx => (idx, m.2)

def bindingsToParams (bindings : Option Json) : List QueryParam :=
  match bindings.bind Json.asObject with
  | none => []
  | some obj => (orderedValues (indexed obj)).map (entryParam upper)

/-! ## Faithful bindings -/

/-- The keys are one to some number, each once. -/
def Covers (obj : Members) : Prop :=
  ∃ n, (obj.map fun m => parseU32 m.1).Perm ((List.range' 1 n).map some)

/-- The parameter stands for the binding: a null for a null, a text for the same text, and nothing
that has a value is a null. -/
def Represents (entry : Json) (p : QueryParam) : Prop :=
  match entry.get "value" with
  | none | some .null => p = .null
  | some (.string s) =>
    if upper (bindingType entry) = "TEXT" then p = .text s
    else p = bindingToParam upper (bindingType entry) s
  | some _ => p ≠ .null

/-- The binding has a text or a null, and a text of type `TEXT` is not taken for a null. -/
def Plain (entry : Json) : Prop :=
  match entry.get "value" with
  | none | some .null => True
  | some (.string s) => upper (bindingType entry) = "TEXT" → s ≠ "NULL" ∧ s ≠ ""
  | some _ => False

/-- Every binding has its parameter, at its index. -/
structure Faithful (obj : Members) : Prop where
  covers : Covers obj
  length : (bindingsToParams upper (some (.object obj))).length = obj.length
  represents : ∀ key entry i, (key, entry) ∈ obj → parseU32 key = some i →
    ∃ p, (bindingsToParams upper (some (.object obj)))[i - 1]? = some p ∧ Represents upper entry p

theorem orderedValues_of_perm {ν : Type} {inserts : List (Nat × ν)} {n : Nat}
    (h : (inserts.map Prod.fst).Perm (List.range' 1 n)) :
    orderedValues inserts = (List.range' 1 n).filterMap (lastWrite inserts) := by
  have hnodup : (inserts.map Prod.fst).Nodup := h.nodup_iff.2 (nodup_range' 1)
  have hsorted : (inserts.map Prod.fst).insertionSort (· ≤ ·) = range' 1 n := by
    refine Perm.eq_of_pairwise (fun a b _ _ hab hba => le_antisymm hab hba)
      (pairwise_insertionSort _ _) ?_ ((perm_insertionSort _ _).trans h)
    exact (pairwise_lt_range' 1).imp le_of_lt
  rw [orderedValues, hnodup.dedup, hsorted]

theorem getElem?_orderedValues {ν : Type} {inserts : List (Nat × ν)} {n : Nat}
    (h : (inserts.map Prod.fst).Perm (List.range' 1 n)) :
    (orderedValues inserts).length = n ∧
      ∀ i v, (i, v) ∈ inserts → (orderedValues inserts)[i - 1]? = some v := by
  have hnodup : (inserts.map Prod.fst).Nodup := h.nodup_iff.2 (nodup_range' 1)
  have hwrite : ∀ i v, (i, v) ∈ inserts → lastWrite inserts i = some v := by
    intro i v hmem
    rw [← find?_eq_lastWrite hnodup, Option.map_eq_some_iff]
    exact ⟨(i, v), (Keyed.find?_eq_some_iff hnodup).2 ⟨hmem, rfl⟩, rfl⟩
  have hsome : ∀ i ∈ range' 1 n, (lastWrite inserts i).isSome = true := by
    intro i hi
    obtain ⟨⟨k, v⟩, hmem, rfl⟩ := mem_map.1 (h.mem_iff.2 hi)
    rw [hwrite k v hmem]
    rfl
  have hmap : (orderedValues inserts).map some = (range' 1 n).map (lastWrite inserts) := by
    rw [orderedValues_of_perm h]
    refine map_filterMap_some_eq_filter_map_isSome.trans (filter_eq_self.2 ?_)
    exact forall_mem_map.2 hsome
  refine ⟨by simpa using congrArg length hmap, fun i v hmem => ?_⟩
  have hi := mem_range'_1.1 (h.mem_iff.1 (mem_map_of_mem (f := Prod.fst) hmem))
  have hrange : (range' 1 n)[i - 1]? = some i := by
    rw [getElem?_range' (by omega)]
    congr 1
    omega
  have hget := congrArg (·[i - 1]?) hmap
  simp only [getElem?_map, hrange, Option.map_some, hwrite i v hmem] at hget
  obtain ⟨v', hv', heq⟩ := Option.map_eq_some_iff.1 hget
  rw [hv', Option.some.inj heq]

theorem indexed_map_fst (obj : Members) :
    ((indexed obj).map Prod.fst).map some =
      (obj.map fun m => parseU32 m.1).filter Option.isSome := by
  induction obj with
  | nil => rfl
  | cons m obj ih =>
    cases hm : parseU32 m.1 <;> simp_all [indexed]

variable {upper} {obj : Members}

theorem Covers.getElem? (h : Covers obj) :
    (bindingsToParams upper (some (.object obj))).length = obj.length ∧
      ∀ key entry i, (key, entry) ∈ obj → parseU32 key = some i →
        (bindingsToParams upper (some (.object obj)))[i - 1]? = some (entryParam upper entry) := by
  obtain ⟨n, hperm⟩ := h
  have hall : (obj.map fun m => parseU32 m.1).filter Option.isSome =
      obj.map fun m => parseU32 m.1 := by
    refine filter_eq_self.2 fun x hx => ?_
    obtain ⟨i, -, rfl⟩ := mem_map.1 (hperm.mem_iff.1 hx)
    rfl
  have hkeys : ((indexed obj).map Prod.fst).Perm (range' 1 n) := by
    refine (map_perm_map_iff (Option.some_injective _)).1 ?_
    rw [indexed_map_fst, hall]
    exact hperm
  obtain ⟨hlength, hget⟩ := getElem?_orderedValues hkeys
  refine ⟨?_, fun key entry i hmem hkey => ?_⟩
  · have hn : obj.length = n := by simpa using hperm.length_eq
    rw [hn, ← hlength]
    exact length_map _
  · have hindexed : (i, entry) ∈ indexed obj :=
      mem_filterMap.2 ⟨(key, entry), hmem, by rw [hkey]; rfl⟩
    change ((orderedValues (indexed obj)).map _)[i - 1]? = _
    rw [getElem?_map, hget i entry hindexed]
    rfl

/-- The bindings that keep their value. -/
theorem represents_entryParam_iff (entry : Json) :
    Represents upper entry (entryParam upper entry) ↔ Plain upper entry := by
  unfold Represents Plain entryParam bindingValue Json.strAt
  split
  · simp_all [bindingToParam]
  · simp_all [bindingToParam]
  · rename_i s hs
    by_cases htext : upper (bindingType entry) = "TEXT"
    · have hvalue : ((some (Json.string s)).bind Json.asStr).getD "NULL" = s := rfl
      rw [if_pos htext, hs, hvalue, bindingToParam, htext]
      by_cases hnull : s = "NULL" ∨ s = ""
      · rw [if_pos hnull]
        exact ⟨fun h => (by cases h), fun h => absurd hnull (not_or.2 (h rfl))⟩
      · rw [if_neg hnull]
        exact ⟨fun _ _ => not_or.1 hnull, fun _ => rfl⟩
    · simp [hs, htext]
  · rename_i v hnull hstring hv
    simp [hv, bindingToParam]

/-- The parameters are faithful if and only if the keys are, and each binding has a text or a null
that is taken for one. -/
theorem bindingsToParams_faithful_iff (upper : String → String) (obj : Members) :
    Faithful upper obj ↔ Covers obj ∧ ∀ m ∈ obj, Plain upper m.2 := by
  constructor
  · intro h
    refine ⟨h.covers, fun m hm => ?_⟩
    obtain ⟨n, hperm⟩ := h.covers
    obtain ⟨i, -, hi⟩ := mem_map.1 (hperm.mem_iff.1 (mem_map_of_mem hm))
    obtain ⟨p, hp, hrep⟩ := h.represents m.1 m.2 i hm hi.symm
    rw [h.covers.getElem?.2 m.1 m.2 i hm hi.symm] at hp
    cases hp
    exact (represents_entryParam_iff m.2).1 hrep
  · rintro ⟨hcovers, hplain⟩
    refine ⟨hcovers, hcovers.getElem?.1, fun key entry i hmem hi => ?_⟩
    exact ⟨_, hcovers.getElem?.2 key entry i hmem hi,
      (represents_entryParam_iff entry).2 (hplain _ hmem)⟩

end

def textBinding (value : String) : Json :=
  .object [("type", .string "TEXT"), ("value", .string value)]

/-- The keys are not in order. -/
theorem two_bindings_faithful :
    Faithful id [("2", textBinding "b"), ("1", textBinding "a")] :=
  (bindingsToParams_faithful_iff id _).2 ⟨⟨2, by decide +kernel⟩, by
    simp only [forall_mem_cons]
    exact ⟨fun _ => by decide, fun _ => by decide, nofun⟩⟩

/-- The empty text and the text `NULL` become nulls, and a binding moves to the place of one that
is missing. -/
theorem bindings_lost :
    bindingsToParams id (some (.object [("1", textBinding ""), ("2", textBinding "NULL")])) =
        [.null, .null] ∧
      bindingsToParams id (some (.object [("1", textBinding "a"), ("3", textBinding "c")])) =
        [.text "a", .text "c"] := by
  decide +kernel

end QueryFlux.Snowflake
