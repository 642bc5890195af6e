import Mathlib.Algebra.GroupWithZero.Nat
import Mathlib.Data.List.Basic
import Mathlib.Tactic.Common

/-!
# Self-delimiting encodings

A code is self-delimiting when a reader knows where the encoding of a value ends: two messages
that start with encodings of two values agree only if the values do, and then in the rest as well.
Codes that are put one after the other keep the property, so an input that is hashed field by
field determines its fields. Lengths are fixed-width little-endian numbers and determine what they
count only below the width's bound; hence the predicate that says which values are encoded.
-/

/-! ## Codes that end by themselves -/

namespace QueryFlux.Lib

variable {α β γ : Type*}

/-- On the values in `ok`, the end of a `code` can be told from what follows it. -/
def SelfDelimiting (ok : α → Prop) (code : α → List γ) : Prop :=
  ∀ ⦃a b : α⦄ ⦃s t : List γ⦄, ok a → ok b → code a ++ s = code b ++ t → a = b ∧ s = t

namespace SelfDelimiting

variable {ok : α → Prop} {code : α → List γ} {ok' : β → Prop} {code' : β → List γ}

/-- No two values have the same code. -/
theorem injective (h : SelfDelimiting ok code) {a b : α} (ha : ok a) (hb : ok b)
    (heq : code a = code b) : a = b :=
  (h (s := []) (t := []) ha hb (by rw [heq])).1

theorem comap (h : SelfDelimiting ok' code') {f : α → β} (hf : Function.Injective f) :
    SelfDelimiting (fun a => ok' (f a)) fun a => code' (f a) := by
  intro a b s t ha hb heq
  obtain ⟨hab, hst⟩ := h ha hb heq
  exact ⟨hf hab, hst⟩

theorem cons (h : SelfDelimiting ok code) (tag : γ) :
    SelfDelimiting ok fun a => tag :: code a := by
  intro a b s t ha hb heq
  exact h ha hb (List.cons.inj heq).2

/-- Equal codes of lists of one length are codes of the same list. -/
theorem flatMap (h : SelfDelimiting ok code) {as bs : List α} {s t : List γ}
    (ha : ∀ a ∈ as, ok a) (hb : ∀ b ∈ bs, ok b) (hlength : as.length = bs.length)
    (heq : as.flatMap code ++ s = bs.flatMap code ++ t) : as = bs ∧ s = t := by
  induction as generalizing bs with
  | nil =>
    obtain rfl := List.length_eq_zero_iff.1 hlength.symm
    exact ⟨rfl, heq⟩
  | cons a _ ih =>
    obtain ⟨b, bs, rfl⟩ := List.exists_cons_of_length_eq_add_one hlength.symm
    simp only [List.flatMap_cons, List.append_assoc] at heq
    obtain ⟨rfl, hrest⟩ := h (ha a (by simp)) (hb b (by simp)) heq
    obtain ⟨rfl, hst⟩ := ih (fun x hx => ha x (by simp [hx])) (fun x hx => hb x (by simp [hx]))
      (by simpa using hlength) hrest
    exact ⟨rfl, hst⟩

end SelfDelimiting

/-! ## Lengths in front -/

/-- The `width` low bytes of a number, least significant first. -/
def leBytes : Nat → Nat → List UInt8
  | 0, _ => []
  | width + 1, n => UInt8.ofNat n :: leBytes width (n / 256)

@[simp] theorem length_leBytes (width n : Nat) : (leBytes width n).length = width := by
  induction width generalizing n with
  | zero => rfl
  | succ _ ih => rw [leBytes, List.length_cons, ih]

/-- A number in a fixed number of bytes. -/
theorem selfDelimiting_leBytes (width : Nat) :
    SelfDelimiting (fun n => n < 256 ^ width) (leBytes width) := by
  induction width with
  | zero =>
    intro n m s t hn hm heq
    simp only [Nat.pow_zero, Nat.lt_one_iff] at hn hm
    exact ⟨hn.trans hm.symm, heq⟩
  | succ width ih =>
    intro n m s t hn hm heq
    obtain ⟨hbyte, hrest⟩ := List.cons.inj heq
    have hdiv : ∀ k, k < 256 ^ (width + 1) → k / 256 < 256 ^ width := fun k hk =>
      Nat.div_lt_of_lt_mul (by rwa [Nat.pow_succ, Nat.mul_comm] at hk)
    obtain ⟨hquotient, hst⟩ := ih (hdiv n hn) (hdiv m hm) hrest
    have hmod : n % 256 = m % 256 := by
      have := congrArg UInt8.toNat hbyte
      simpa using this
    exact ⟨by omega, hst⟩

def lengthFramed (bytes : List UInt8) : List UInt8 := leBytes 8 bytes.length ++ bytes

theorem selfDelimiting_lengthFramed :
    SelfDelimiting (fun bytes => bytes.length < 2 ^ 64) lengthFramed := by
  intro a b s t ha hb heq
  obtain ⟨hlength, hrest⟩ := selfDelimiting_leBytes 8 ha hb heq
  exact List.append_inj hrest hlength

def countFramed (code : α → List UInt8) (items : List α) : List UInt8 :=
  leBytes 8 items.length ++ items.flatMap code

/-- A list behind the number of its elements. -/
theorem SelfDelimiting.countFramed {ok : α → Prop} {code : α → List UInt8}
    (h : SelfDelimiting ok code) :
    SelfDelimiting (fun items => items.length < 2 ^ 64 ∧ ∀ a ∈ items, ok a)
      (countFramed code) := by
  rintro as bs s t ⟨ha, hoka⟩ ⟨hb, hokb⟩ heq
  obtain ⟨hlength, hrest⟩ := selfDelimiting_leBytes 8 ha hb heq
  exact h.flatMap hoka hokb hlength hrest

end QueryFlux.Lib
