import QueryFlux.Snowflake.Bindings

/-!
# Numeric bindings

`is_safe_numeric` reads a value with three flags. It accepts every numeric literal of SQL, but also
values without a digit before the exponent, such as the name `e5`, and values without a digit in the
exponent, such as `1e+`. The accepted values without these defects are the literals
(`numeric_binding_iff`).
-/

namespace QueryFlux.Snowflake

open Core

/-! ## Numeric literals -/

def unsigned : List Char → List Char
  | '+' :: s | '-' :: s => s
  | s => s

def isExponentMark (c : Char) : Bool := c == 'e' || c == 'E'

def mantissa (s : List Char) : List Char := s.takeWhile (!isExponentMark ·)

/-- The exponent with its mark. -/
def exponent (s : List Char) : List Char := s.dropWhile (!isExponentMark ·)

/-- Digits with at most one point, and an exponent of digits. -/
structure NumericLiteral (s : List Char) : Prop where
  mantissa : ∀ c ∈ mantissa (unsigned s), c.isDigit ∨ c = '.'
  point : (Snowflake.mantissa (unsigned s)).count '.' ≤ 1
  digit : (Snowflake.mantissa (unsigned s)).any Char.isDigit
  exponent : exponent (unsigned s) = [] ∨ unsigned (Snowflake.exponent (unsigned s)).tail ≠ [] ∧
    ∀ c ∈ unsigned (Snowflake.exponent (unsigned s)).tail, c.isDigit

/-- There is a digit in the mantissa, and in the exponent if there is one. -/
def HasDigits (s : List Char) : Prop :=
  (mantissa (unsigned s)).any Char.isDigit ∧
    (exponent (unsigned s) = [] ∨ (exponent (unsigned s)).any Char.isDigit)

variable {s : List Char} {hasDot : Bool}

theorem safeNumericFrom_digits :
    safeNumericFrom hasDot true false s ↔ ∀ c ∈ s, c.isDigit := by
  induction s with
  | nil => simp [safeNumericFrom]
  | cons c s ih => by_cases hc : c.isDigit <;> simp [safeNumericFrom, hc, ih]

theorem safeNumericFrom_exponent :
    safeNumericFrom hasDot true true s ↔ s ≠ [] ∧ ∀ c ∈ unsigned s, c.isDigit := by
  cases s with
  | nil => simp [safeNumericFrom]
  | cons c s =>
    by_cases hsign : c = '+' ∨ c = '-'
    · rcases hsign with rfl | rfl <;> simp [safeNumericFrom, unsigned, safeNumericFrom_digits]
    · obtain ⟨hplus, hminus⟩ := not_or.1 hsign
      have hunsigned : unsigned (c :: s) = c :: s := by simp_all [unsigned]
      by_cases hc : c.isDigit <;>
        simp [safeNumericFrom, hunsigned, hc, hplus, hminus, safeNumericFrom_digits]

theorem safeNumericFrom_iff :
    safeNumericFrom hasDot false false s ↔ (∀ c ∈ mantissa s, c.isDigit ∨ c = '.') ∧
      (mantissa s).count '.' + hasDot.toNat ≤ 1 ∧
      (exponent s = [] ∨ (exponent s).tail ≠ [] ∧
        ∀ c ∈ unsigned (exponent s).tail, c.isDigit) := by
  induction s generalizing hasDot with
  | nil => cases hasDot <;> simp [safeNumericFrom, mantissa, exponent]
  | cons c s ih =>
    by_cases hmark : isExponentMark c
    · have he : c = 'e' ∨ c = 'E' := by simpa [isExponentMark] using hmark
      rcases he with rfl | rfl <;>
        simp [safeNumericFrom, mantissa, exponent, isExponentMark, safeNumericFrom_exponent,
          Bool.toNat_le]
    · have he : c ≠ 'e' ∧ c ≠ 'E' := by simpa [isExponentMark] using hmark
      by_cases hc : c.isDigit
      · have hdot : c ≠ '.' := by rintro rfl; cases hc
        simp [safeNumericFrom, hc, ih, mantissa, exponent, hmark, hdot]
      · by_cases hdot : c = '.'
        · subst hdot
          cases hasDot <;> simp [safeNumericFrom, ih, mantissa, exponent, hmark]
        · simp [safeNumericFrom, hc, hdot, he, mantissa, hmark]

theorem any_unsigned (s : List Char) : (unsigned s).any Char.isDigit = s.any Char.isDigit := by
  unfold unsigned
  split <;> simp

theorem unsigned_exponent_ne_nil_iff (h : ∀ c ∈ unsigned (exponent s).tail, c.isDigit) :
    unsigned (exponent s).tail ≠ [] ↔ (exponent s).any Char.isDigit := by
  cases hx : exponent s with
  | nil => simp [unsigned]
  | cons e t =>
    have he : e = 'e' ∨ e = 'E' := by
      have hhead := List.head?_dropWhile_not (!isExponentMark ·) s
      rw [← exponent, hx] at hhead
      simpa [isExponentMark, or_iff_not_imp_left] using hhead
    have hdigit : e.isDigit = false := by rcases he with rfl | rfl <;> rfl
    rw [hx] at h
    rw [List.any_cons, hdigit, Bool.false_or, ← any_unsigned, List.tail_cons]
    cases hu : unsigned t with
    | nil => simp
    | cons c u => simp [h c (by simp [hu])]

theorem numericLiteral_iff {value : String} : NumericLiteral value.toList ↔
    isSafeNumeric value ∧ HasDigits value.toList := by
  have hread : isSafeNumeric value = (!(unsigned value.toList).isEmpty &&
      safeNumericFrom false false false (unsigned value.toList)) := rfl
  rw [hread, Bool.and_eq_true, safeNumericFrom_iff]
  constructor
  · rintro ⟨hm, hpoint, hdigit, hexp⟩
    refine ⟨⟨?_, hm, hpoint, ?_⟩, hdigit, ?_⟩
    · cases hs : unsigned value.toList with
      | nil => simp [mantissa, hs] at hdigit
      | cons => rfl
    · exact hexp.imp_right fun h => ⟨fun hnil => h.1 (by rw [hnil]; rfl), h.2⟩
    · exact hexp.imp_right fun h => (unsigned_exponent_ne_nil_iff h.2).1 h.1
  · rintro ⟨⟨-, hm, hpoint, hexp⟩, hdigit, hexp'⟩
    refine ⟨hm, hpoint, hdigit, ?_⟩
    rcases hexp with h | ⟨-, hdigits⟩
    · exact .inl h
    · exact hexp'.imp_right fun h => ⟨(unsigned_exponent_ne_nil_iff hdigits).2 h, hdigits⟩

/-! ## Bindings -/

/-- A numeric literal is a binding that is passed on as a number and has digits where they are
needed. -/
theorem numeric_binding_iff (upper : String → String) {sfType : String}
    (htype : upper sfType = "FIXED" ∨ upper sfType = "REAL") (value : String) :
    NumericLiteral value.toList ↔
      bindingToParam upper sfType value = .numeric value ∧ HasDigits value.toList := by
  have hparam : bindingToParam upper sfType value = .numeric value ↔ isSafeNumeric value := by
    rw [bindingToParam]
    split
    · rename_i hnull
      rcases hnull with rfl | rfl <;> decide
    · rcases htype with htype | htype <;> simp [htype]
  rw [numericLiteral_iff, hparam]

instance (s : List Char) : Decidable (HasDigits s) := inferInstanceAs (Decidable (_ ∧ _))

/-- Sign, point and exponent. -/
theorem numeric_binding_literal : NumericLiteral "-12.5e+3".toList :=
  (numeric_binding_iff id (.inl rfl) "-12.5e+3").2 (by decide)

/-- There is no digit in the mantissa or in the exponent. -/
theorem names_taken_for_numbers : ["e5", "1e+", "."].Forall fun value =>
    bindingToParam id "FIXED" value = .numeric value ∧ ¬NumericLiteral value.toList := by
  simp only [List.Forall, numericLiteral_iff]
  decide

end QueryFlux.Snowflake
