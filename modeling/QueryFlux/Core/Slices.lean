import Mathlib.Data.List.Forall2
import QueryFlux.Core.Text

/-!
# Slices of UTF-8 text

A text is sliced at byte offsets, and a slice panics if an offset is inside a character or behind
the end. `splitAtByte` gives both parts of a text, or none for a panic. The offsets a search returns
are those of characters (`OccursAt`), and so are those behind a word of ASCII letters that the text
in lower case starts with (`Lowercases.sliceFrom_eq`).
-/

namespace QueryFlux.Core

open List

/-! ## Byte offsets -/

def utf8Len (s : List Char) : Nat := (s.map Char.utf8Size).sum

@[simp] theorem utf8Len_nil : utf8Len [] = 0 := rfl

@[simp] theorem utf8Len_cons (c : Char) (s : List Char) :
    utf8Len (c :: s) = c.utf8Size + utf8Len s := by simp [utf8Len]

@[simp] theorem utf8Len_append (a b : List Char) : utf8Len (a ++ b) = utf8Len a + utf8Len b := by
  simp [utf8Len]

/-- Cut at a byte offset; a cut inside a character panics. -/
def splitAtByte : Nat → List Char → Option (List Char × List Char)
  | 0, s => some ([], s)
  | _ + 1, [] => none
  | n + 1, c :: cs =>
    if c.utf8Size ≤ n + 1 then
      (splitAtByte (n + 1 - c.utf8Size) cs).map fun (a, b) => (c :: a, b)
    else none

def sliceFrom (n : Nat) (s : List Char) : Option (List Char) := (splitAtByte n s).map Prod.snd

def sliceTo (n : Nat) (s : List Char) : Option (List Char) := (splitAtByte n s).map Prod.fst

theorem splitAtByte_append (a b : List Char) : splitAtByte (utf8Len a) (a ++ b) = some (a, b) := by
  induction a with
  | nil => cases b <;> rfl
  | cons c a ih =>
    have hpos := c.utf8Size_pos
    obtain ⟨n, hn⟩ := Nat.exists_eq_add_one.2 (Nat.add_pos_left hpos (utf8Len a))
    have hrest : n + 1 - c.utf8Size = utf8Len a := by omega
    rw [utf8Len_cons, hn, cons_append, splitAtByte, if_pos (by omega), hrest, ih]
    rfl

theorem utf8Size_of_ascii {c : Char} (h : c.toNat < 128) : c.utf8Size = 1 := by
  rw [Char.utf8Size_eq_one_iff, UInt32.le_iff_toNat_le]
  exact Nat.le_of_lt_succ h

variable {s : List Char}

def findText (part : List Char) : List Char → Option Nat
  | [] => if part = [] then some 0 else none
  | c :: cs =>
    if part.isPrefixOf (c :: cs) then some 0 else (findText part cs).map (c.utf8Size + ·)

def rfindText (part : List Char) : List Char → Option Nat
  | [] => if part = [] then some 0 else none
  | c :: cs =>
    match rfindText part cs with
    | some n => some (c.utf8Size + n)
    | none => if part.isPrefixOf (c :: cs) then some 0 else none

/-! ## Texts in lower case -/

/-- The part is in the text, and starts at byte `n`. -/
def OccursAt (part s : List Char) (n : Nat) : Prop :=
  ∃ a b, s = a ++ (part ++ b) ∧ utf8Len a = n

section
variable {part s : List Char} {n : Nat}

theorem OccursAt.zero (h : part.isPrefixOf s = true) : OccursAt part s 0 := by
  obtain ⟨b, hb⟩ := isPrefixOf_iff_prefix.1 h
  exact ⟨[], b, hb.symm, rfl⟩

theorem OccursAt.cons (h : OccursAt part s n) (c : Char) :
    OccursAt part (c :: s) (c.utf8Size + n) := by
  obtain ⟨a, b, rfl, rfl⟩ := h
  exact ⟨c :: a, b, rfl, utf8Len_cons c a⟩

theorem OccursAt.exists_slices (h : OccursAt part s n) :
    ∃ a b, sliceTo n s = some a ∧ sliceFrom (n + utf8Len part) s = some b := by
  obtain ⟨a, b, rfl, rfl⟩ := h
  refine ⟨a, b, by rw [sliceTo, splitAtByte_append]; rfl, ?_⟩
  rw [sliceFrom, ← utf8Len_append, ← append_assoc, splitAtByte_append]
  rfl

theorem occursAt_of_findText (h : findText part s = some n) : OccursAt part s n := by
  fun_induction findText part s generalizing n with
  | case1 hp => cases h; subst hp; exact .zero rfl
  | case2 => cases h
  | case3 c cs hp => cases h; exact .zero hp
  | case4 c cs hp ih =>
    obtain ⟨m, hm, rfl⟩ := Option.map_eq_some_iff.1 h
    exact (ih hm).cons c

theorem occursAt_of_rfindText (h : rfindText part s = some n) : OccursAt part s n := by
  fun_induction rfindText part s generalizing n with
  | case1 hp => cases h; subst hp; exact .zero rfl
  | case2 => cases h
  | case3 c cs m hm ih => cases h; exact (ih hm).cons c
  | case4 c cs hm hp => cases h; exact .zero hp
  | case5 => cases h

end

/-- What `to_lowercase` writes for a character. Outside ASCII only the Kelvin sign and `İ` become
ASCII letters, the latter with a combining dot behind it. -/
def LowerOf (c : Char) (lower : List Char) : Prop :=
  if c.toNat < 128 then lower = [c.toLower]
  else lower = ['k'] ∨ lower = ['i', '\u0307'] ∨ lower ≠ [] ∧ ∀ d ∈ lower, 128 ≤ d.toNat

/-- Lower case goes character by character. -/
def Lowercases (lower : List Char → List Char) : Prop :=
  ∀ s, ∃ parts, List.Forall₂ LowerOf s parts ∧ lower s = parts.flatten

theorem exists_of_lower_start {w : List Char} {parts : List (List Char)}
    (hparts : List.Forall₂ LowerOf s parts) (hw : ∀ c ∈ w, c.toNat < 128 ∧ c ≠ 'k')
    (hlast : w.getLast? ≠ some 'i') (h : w <+: parts.flatten) :
    ∃ a b, s = a ++ b ∧ utf8Len a = w.length ∧ a.length = w.length := by
  induction hparts generalizing w with
  | nil => exact ⟨[], [], rfl, by simp [prefix_nil.1 h]⟩
  | @cons c part s parts hpart hparts ih =>
    cases w with
    | nil => exact ⟨[], c :: s, rfl, rfl, rfl⟩
    | cons d w =>
      obtain ⟨⟨hd, hk⟩, hrest⟩ := forall_mem_cons.1 hw
      unfold LowerOf at hpart
      split_ifs at hpart with hc
      · subst hpart
        rw [flatten_cons, singleton_append, cons_prefix_cons] at h
        have hlast' : w.getLast? ≠ some 'i' := by
          intro hi
          rw [getLast?_cons, hi] at hlast
          exact hlast rfl
        obtain ⟨a, b, rfl, hbytes, hchars⟩ := ih hrest hlast' h.2
        refine ⟨c :: a, b, rfl, ?_, by rw [length_cons, length_cons, hchars]⟩
        rw [utf8Len_cons, utf8Size_of_ascii hc, hbytes, length_cons, Nat.add_comm]
      · exfalso
        rcases hpart with rfl | rfl | ⟨hne, hpart⟩
        · exact hk (cons_prefix_cons.1 h).1
        · obtain ⟨rfl, hdot⟩ := cons_prefix_cons.1 h
          cases w with
          | nil => exact hlast rfl
          | cons e w =>
            obtain ⟨rfl, -⟩ := cons_prefix_cons.1 hdot
            exact absurd (hrest _ (.head _)).1 (by decide)
        · cases part with
          | nil => exact hne rfl
          | cons e part =>
            obtain ⟨rfl, -⟩ := cons_prefix_cons.1 h
            exact Nat.not_le.2 hd (hpart d (.head _))

/-- The word is ASCII in lower case, and no character outside ASCII has a letter of it as its lower
case. -/
def PlainWord (w : List Char) : Prop :=
  (∀ c ∈ w, c.toNat < 128 ∧ c ≠ 'k') ∧ w.getLast? ≠ some 'i'

instance : DecidablePred PlainWord := fun w =>
  have := decidableBAll (fun c : Char => c.toNat < 128 ∧ c ≠ 'k') w
  instDecidableAnd

theorem Lowercases.sliceFrom_eq {lower : List Char → List Char} (hlower : Lowercases lower)
    {w : List Char} (hw : PlainWord w) (h : w.isPrefixOf (lower s) = true) :
    sliceFrom w.length s = some (s.drop w.length) := by
  obtain ⟨parts, hparts, hs⟩ := hlower s
  rw [hs, isPrefixOf_iff_prefix] at h
  obtain ⟨a, b, rfl, hbytes, hchars⟩ := exists_of_lower_start hparts hw.1 hw.2 h
  rw [sliceFrom, ← hbytes, splitAtByte_append, hbytes, ← hchars, drop_left]
  rfl

theorem lowercases_map {lower : Char → Char}
    (hascii : ∀ c, c.toNat < 128 → lower c = c.toLower)
    (hother : ∀ c, 128 ≤ c.toNat → lower c = 'k' ∨ 128 ≤ (lower c).toNat) :
    Lowercases (List.map lower) := by
  intro s
  refine ⟨s.map fun c => [lower c], ?_, by rw [← flatMap_def, map_eq_flatMap]⟩
  rw [forall₂_map_right_iff, forall₂_same]
  intro c _
  unfold LowerOf
  split_ifs with hc
  · rw [hascii c hc]
  · rcases hother c (Nat.le_of_not_lt hc) with h | h
    · exact .inl (by rw [h])
    · exact .inr (.inr ⟨by simp, by simpa using h⟩)

end QueryFlux.Core
