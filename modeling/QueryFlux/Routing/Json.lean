import QueryFlux.Core.Query
import QueryFlux.Lib.Rows

/-!
# Reading and writing JSON objects

Access to the members of a JSON value, and `Json.Same`: two values are the same up to the order of
members. A JSON column gives back the same value in this sense.
-/

namespace QueryFlux.Core

open Lib

abbrev Members := List (String × Json)

/-! ## Members -/

def insertMember (ms : Members) (k : String) (v : Json) : Members :=
  upsert Prod.fst (k, v) (fun m => (m.1, v)) ms

theorem insertMember_eq_append {ms : Members} {k : String} (h : k ∉ ms.map Prod.fst) (v : Json) :
    insertMember ms k v = ms ++ [(k, v)] :=
  if_neg (not_hasKey_iff.2 h)

namespace Json

def get (v : Json) (k : String) : Option Json :=
  match v with
  | object ms => (ms.find? (·.1 = k)).map Prod.snd
  | _ => none

@[simp] theorem get_object_nil (k : String) : (object []).get k = none := rfl

@[simp] theorem get_object_cons (k k' : String) (v : Json) (ms : Members) :
    (object ((k', v) :: ms)).get k = if k' = k then some v else (object ms).get k := by
  by_cases h : k' = k <;> simp [get, h]

@[simp] def asStr : Json → Option String
  | string s => some s
  | _ => none

@[simp] def asArray : Json → Option (List Json)
  | array items => some items
  | _ => none

@[simp] def asObject : Json → Option Members
  | object ms => some ms
  | _ => none

def strAt (v : Json) (k : String) : Option String := (v.get k).bind asStr

theorem get_object_eq_some_iff {ms : Members} (h : (ms.map Prod.fst).Nodup) {k : String}
    {v : Json} : (object ms).get k = some v ↔ (k, v) ∈ ms := by
  simp only [get, Option.map_eq_some_iff, Prod.exists]
  constructor
  · rintro ⟨k', v', hfind, rfl⟩
    have hk : k' = k := by simpa using List.find?_some hfind
    exact hk ▸ List.mem_of_find?_eq_some hfind
  · intro hmem
    cases hfind : ms.find? (·.1 = k) with
    | none =>
      rw [List.find?_eq_none] at hfind
      exact absurd (decide_eq_true rfl) (hfind _ hmem)
    | some m =>
      have hk : m.1 = k := by simpa using List.find?_some hfind
      have hm := Keyed.eq_of_mem h (List.mem_of_find?_eq_some hfind) hmem hk
      exact ⟨m.1, m.2, rfl, by rw [hm]⟩

theorem get_object_eq_none_iff {ms : Members} {k : String} :
    (object ms).get k = none ↔ k ∉ ms.map Prod.fst := by
  simp only [get, Option.map_eq_none_iff, List.find?_eq_none, decide_eq_true_eq, List.mem_map,
    not_exists, not_and]

/-! ## Equality up to the order of members -/

mutual

inductive Same : Json → Json → Prop
  | null : Same null null
  | bool (b : Bool) : Same (bool b) (bool b)
  | number (text : String) : Same (number text) (number text)
  | string (s : String) : Same (string s) (string s)
  | array {xs ys : List Json} (h : SameItems xs ys) : Same (array xs) (array ys)
  | object {ms ns ns' : List (String × Json)} (h : SameMembers ms ns) (hperm : ns.Perm ns') :
    Same (object ms) (object ns')

inductive SameItems : List Json → List Json → Prop
  | nil : SameItems [] []
  | cons {x y : Json} {xs ys : List Json} (h : Same x y) (hrest : SameItems xs ys) :
    SameItems (x :: xs) (y :: ys)

inductive SameMembers : List (String × Json) → List (String × Json) → Prop
  | nil : SameMembers [] []
  | cons {v w : Json} {ms ns : List (String × Json)} (k : String) (h : Same v w)
    (hrest : SameMembers ms ns) : SameMembers ((k, v) :: ms) ((k, w) :: ns)

end

mutual

theorem Same.refl : ∀ v : Json, Same v v
  | .null => .null
  | .bool b => .bool b
  | .number text => .number text
  | .string s => .string s
  | .array items => .array (SameItems.refl items)
  | .object members => .object (SameMembers.refl members) (List.Perm.refl _)

theorem SameItems.refl : ∀ items : List Json, SameItems items items
  | [] => .nil
  | v :: items => .cons (Same.refl v) (SameItems.refl items)

theorem SameMembers.refl : ∀ members : List (String × Json), SameMembers members members
  | [] => .nil
  | (k, v) :: members => .cons k (Same.refl v) (SameMembers.refl members)

end

variable {v w : Json} {ms ns : Members} {k : String}

theorem SameMembers.map_fst (h : SameMembers ms ns) : ns.map Prod.fst = ms.map Prod.fst := by
  induction ms generalizing ns with
  | nil =>
    cases h
    rfl
  | cons _ _ ih =>
    cases h with
    | cons _ _ hrest => rw [List.map_cons, List.map_cons, ih hrest]

theorem SameMembers.exists_mem (h : SameMembers ms ns) (hv : (k, v) ∈ ms) :
    ∃ w, (k, w) ∈ ns ∧ Same v w := by
  induction ms generalizing ns with
  | nil => cases hv
  | cons _ _ ih =>
    cases h with
    | cons _ hsame hrest =>
      rcases List.mem_cons.1 hv with heq | hv
      · cases heq
        exact ⟨_, .head _, hsame⟩
      · obtain ⟨w, hw, hvw⟩ := ih hrest hv
        exact ⟨w, .tail _ hw, hvw⟩

theorem SameMembers.append {ms' ns' : Members} (h : SameMembers ms ns) (h' : SameMembers ms' ns') :
    SameMembers (ms ++ ms') (ns ++ ns') := by
  induction ms generalizing ns with
  | nil =>
    cases h
    exact h'
  | cons _ _ ih =>
    cases h with
    | cons k hv hrest => exact .cons k hv (ih hrest)

theorem Same.get_of_mem (h : Same (.object ms) w) (hms : (ms.map Prod.fst).Nodup)
    (hv : (k, v) ∈ ms) : ∃ v', w.get k = some v' ∧ Same v v' := by
  cases h with
  | object hmembers hperm =>
    obtain ⟨v', hmem, hsame⟩ := hmembers.exists_mem hv
    refine ⟨v', (get_object_eq_some_iff ?_).2 (hperm.mem_iff.1 hmem), hsame⟩
    rw [← (hperm.map Prod.fst).nodup_iff, hmembers.map_fst]
    exact hms

theorem Same.strAt_of_mem {s : String} (h : Same (.object ms) w) (hms : (ms.map Prod.fst).Nodup)
    (hv : (k, .string s) ∈ ms) : w.strAt k = some s := by
  obtain ⟨v', hget, hsame⟩ := h.get_of_mem hms hv
  cases hsame
  rw [strAt, hget]
  rfl

theorem Same.get_of_not_mem (h : Same (.object ms) w) (hk : k ∉ ms.map Prod.fst) :
    w.get k = none := by
  cases h with
  | object hmembers hperm =>
    rw [get_object_eq_none_iff, ← (hperm.map Prod.fst).mem_iff, hmembers.map_fst]
    exact hk

end Json

end QueryFlux.Core
