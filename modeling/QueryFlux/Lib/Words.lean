import Mathlib.Algebra.BigOperators.Group.List.Basic
import Mathlib.Algebra.Order.Ring.Nat
import Mathlib.Data.BitVec

/-!
# Sums of machine words

A sum in `w` bits is the sum of the numbers up to `2 ^ w`, and that sum while it is less.
-/

namespace QueryFlux.Lib

variable {w : Nat}

theorem toNat_sum_mod (l : List (BitVec w)) :
    l.sum.toNat = (l.map BitVec.toNat).sum % 2 ^ w := by
  induction l with
  | nil => simp
  | cons a l ih =>
    simp only [List.map_cons, List.sum_cons]
    rw [BitVec.toNat_add, ih, Nat.add_mod_mod]

theorem toNat_sum {l : List (BitVec w)} (h : (l.map BitVec.toNat).sum < 2 ^ w) :
    l.sum.toNat = (l.map BitVec.toNat).sum := by
  rw [toNat_sum_mod, Nat.mod_eq_of_lt h]

def saturatingSub (a b : BitVec w) : BitVec w := if b ≤ a then a - b else 0

theorem toNat_saturatingSub (a b : BitVec w) : (saturatingSub a b).toNat = a.toNat - b.toNat := by
  unfold saturatingSub
  split_ifs with h
  · rw [BitVec.toNat_sub_of_le h]
  · rw [BitVec.not_le, BitVec.lt_def] at h
    simp
    omega

end QueryFlux.Lib
