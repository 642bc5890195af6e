import Mathlib.Data.List.TakeWhile
import QueryFlux.Core.Text

/-!
# Trimmed text and lower case

What `trim` and `trimEndMatches` leave is a part of the text, and neither its first nor its last
character can be trimmed again. Lower case changes letters into letters only, so that it moves past
trimming and leaves white space and punctuation in place.
-/

namespace QueryFlux.Core

open List

/-! ## Trimming -/

theorem trimStart_append {a : List Char} (h : ∀ c ∈ a, isWhitespace c = true) (s : List Char) :
    trimStart (a ++ s) = trimStart s :=
  dropWhile_append_of_pos h

variable {s : List Char} {p : Char → Bool}

theorem trimStart_eq_self (h : ∀ c ∈ s.head?, isWhitespace c = false) : trimStart s = s := by
  cases s with
  | nil => rfl
  | cons c => rw [trimStart, dropWhile_cons, h c rfl, if_neg Bool.false_ne_true]

theorem exists_trimEndMatches (p : Char → Bool) (s : List Char) :
    ∃ back, s = trimEndMatches p s ++ back ∧ ∀ c ∈ back, p c = true := by
  refine ⟨(s.reverse.takeWhile p).reverse, ?_, fun c hc => ?_⟩
  · rw [trimEndMatches, ← reverse_append, takeWhile_append_dropWhile,
      reverse_reverse]
  · exact mem_takeWhile_imp (mem_reverse.1 hc)

theorem trimEndMatches_eq_self (h : ∀ c ∈ s.getLast?, p c = false) : trimEndMatches p s = s := by
  rw [trimEndMatches, reverse_eq_iff]
  cases hr : s.reverse with
  | nil => rfl
  | cons c =>
    have hc : c ∈ s.getLast? := by rw [← head?_reverse, hr]; rfl
    rw [dropWhile_cons, h c hc, if_neg Bool.false_ne_true]

theorem trimEndMatches_append_eq_ite (a b : List Char) : trimEndMatches p (a ++ b) =
    if trimEndMatches p b = [] then trimEndMatches p a else a ++ trimEndMatches p b := by
  simp only [trimEndMatches, reverse_append, dropWhile_append, reverse_eq_nil_iff,
    List.isEmpty_iff]
  split_ifs
  · rfl
  · rw [reverse_append, reverse_reverse]

theorem trimEndMatches_append_of_last {a : List Char} (h : ∀ c ∈ a.getLast?, p c = false)
    (b : List Char) : trimEndMatches p (a ++ b) = a ++ trimEndMatches p b := by
  rw [trimEndMatches_append_eq_ite]
  split_ifs with hb
  · rw [trimEndMatches_eq_self h, hb, append_nil]
  · rfl

theorem trimEndMatches_append (s : List Char) {b : List Char} (h : ∀ c ∈ b, p c = true) :
    trimEndMatches p (s ++ b) = trimEndMatches p s := by
  rw [trimEndMatches, reverse_append, dropWhile_append_of_pos fun c hc =>
    h c (mem_reverse.1 hc), trimEndMatches]

/-- White space and semicolons behind a statement are trimmed, up to white space in front of the
semicolons. -/
theorem exists_trimEnd_semicolons {lead core ws semicolons ws' : List Char}
    (hlead : ∀ c ∈ lead, isWhitespace c = true)
    (hhead : ∀ y, ∀ c ∈ (core ++ y).head?, isWhitespace c = false)
    (hlast : ∀ c ∈ core.getLast?, isWhitespace c = false ∧ c ≠ ';')
    (hws : ∀ c ∈ ws, isWhitespace c = true) (hsemi : ∀ c ∈ semicolons, c = ';')
    (hws' : ∀ c ∈ ws', isWhitespace c = true) : ∃ rest, (∀ c ∈ rest, isWhitespace c = true) ∧
      trimEndMatches (· = ';') (trim (lead ++ (core ++ (ws ++ semicolons ++ ws')))) =
        core ++ rest := by
  have htrim : trim (lead ++ (core ++ (ws ++ semicolons ++ ws'))) =
      trimEndMatches isWhitespace (core ++ ws ++ semicolons) := by
    rw [trim, trimStart_append hlead, trimStart_eq_self (hhead _), ← append_assoc,
      ← append_assoc, trimEndMatches_append _ hws']
  cases semicolons with
  | nil =>
    refine ⟨[], forall_mem_nil _, ?_⟩
    rw [htrim, append_nil, trimEndMatches_append _ hws,
      trimEndMatches_eq_self fun c hc => (hlast c hc).1, append_nil]
    exact trimEndMatches_eq_self fun c hc => decide_eq_false (hlast c hc).2
  | cons d ds =>
    refine ⟨ws, hws, ?_⟩
    have hsemicolon : ∀ c ∈ (core ++ ws ++ d :: ds).getLast?, isWhitespace c = false := by
      intro c hc
      rw [getLast?_append_of_ne_nil _ (cons_ne_nil d ds)] at hc
      rw [hsemi c (mem_of_getLast? hc)]
      rfl
    rw [htrim, trimEndMatches_eq_self hsemicolon,
      trimEndMatches_append _ fun c hc => decide_eq_true (hsemi c hc)]
    refine trimEndMatches_eq_self fun c hc => decide_eq_false ?_
    by_cases hnil : ws = []
    · rw [hnil, append_nil] at hc
      exact (hlast c hc).2
    · rw [getLast?_append_of_ne_nil _ hnil] at hc
      rintro rfl
      exact absurd (hws _ (mem_of_getLast? hc)) (by decide)

/-! ## Lower case -/

variable (s)

def lowerChar (c : Char) : Char := if c.toNat = 0x212A then 'k' else c.toLower

theorem toLowercase_eq_map : toLowercase s = s.map lowerChar := rfl

theorem toLowercase_append (a b : List Char) :
    toLowercase (a ++ b) = toLowercase a ++ toLowercase b :=
  map_append

theorem toNat_toLower (c : Char) : c.toLower = c ∨
    (65 ≤ c.toNat ∧ c.toNat ≤ 90) ∧ c.toLower.toNat = c.toNat + 32 := by
  unfold Char.toLower
  split_ifs with h
  · have hupper : 65 ≤ c.toNat ∧ c.toNat ≤ 90 := h
    refine .inr ⟨hupper, ?_⟩
    have hadd : (c.val + ('a'.val - 'A'.val)).toNat = (c.toNat + 32) % 2 ^ 32 := rfl
    change (c.val + ('a'.val - 'A'.val)).toNat = c.toNat + 32
    omega
  · exact .inl rfl

theorem lowerChar_cases (c : Char) : lowerChar c = c ∨
    (c.toNat = 0x212A ∨ 65 ≤ c.toNat ∧ c.toNat ≤ 90) ∧
      97 ≤ (lowerChar c).toNat ∧ (lowerChar c).toNat ≤ 122 := by
  unfold lowerChar
  split_ifs with h
  · exact .inr ⟨.inl h, by decide, by decide⟩
  · obtain h | ⟨hupper, h⟩ := toNat_toLower c
    · exact .inl h
    · exact .inr ⟨.inr hupper, by omega, by omega⟩

theorem isWhitespace_lowerChar (c : Char) : isWhitespace (lowerChar c) = isWhitespace c := by
  obtain h | ⟨hc, hl⟩ := lowerChar_cases c
  · rw [h]
  · have hleft : isWhitespace (lowerChar c) = false := by
      simp only [isWhitespace, Bool.or_eq_false_iff, Bool.and_eq_false_iff, decide_eq_false_iff_not,
        beq_eq_false_iff_ne]
      omega
    have hright : isWhitespace c = false := by
      simp only [isWhitespace, Bool.or_eq_false_iff, Bool.and_eq_false_iff, decide_eq_false_iff_not,
        beq_eq_false_iff_ne]
      omega
    rw [hleft, hright]

theorem eq_of_lowerChar_eq {c d : Char} (h : d.toNat < 97 ∨ 122 < d.toNat)
    (hd : lowerChar c = d) : c = d := by
  obtain hc | ⟨-, hl⟩ := lowerChar_cases c
  · exact hc.symm.trans hd
  · rw [hd] at hl
    omega

end QueryFlux.Core
