import Mathlib.Algebra.GroupWithZero.Nat
import Mathlib.Data.List.DropRight

/-!
# The end of a list in order

A predicate rises along a list if it stays true once it is true; then the elements that meet it
are the end of the list. A window of the last elements that meet a rising predicate can be kept up
to date by looking at the kept elements and the new one alone (`rtake_filter_concat`).
-/

namespace QueryFlux.Lib

open List

variable {α : Type*} {p q : α → Bool} {l l' : List α}

/-- Once the property holds it holds of all later elements. -/
def Rising (p : α → Bool) (l : List α) : Prop := l.Pairwise fun x y => p x = true → p y = true

namespace Rising

theorem sublist (h : Rising p l) (hl : l'.Sublist l) : Rising p l' := List.Pairwise.sublist hl h

theorem dropWhile_eq_filter (h : Rising p l) : l.dropWhile (fun x => !p x) = l.filter p := by
  induction l with
  | nil => rfl
  | cons x l ih =>
    obtain ⟨hx, hl⟩ := pairwise_cons.1 h
    by_cases hp : p x = true
    · have hall : l.filter p = l := filter_eq_self.2 fun y hy => hx y hy hp
      simp [hp, hall]
    · simp [hp, ih hl]

theorem filter_append (h : Rising p (l ++ l')) :
    l.filter p = [] ∨ l'.filter p = l' := by
  by_cases hl : l.filter p = []
  · exact .inl hl
  · right
    obtain ⟨x, hx⟩ := exists_mem_of_ne_nil _ hl
    obtain ⟨hxl, hpx⟩ := mem_filter.1 hx
    rw [filter_eq_self]
    intro y hy
    exact (pairwise_append.1 h).2.2 x hxl y hy hpx

end Rising

theorem rtake_append_of_le {n : Nat} (h : n ≤ l'.length) : (l ++ l').rtake n = l'.rtake n := by
  simp only [rtake, length_append]
  rw [drop_append, drop_eq_nil_of_le (by omega), nil_append]
  congr 1
  omega

/-- The newest elements can be taken before or after the filter, with one to spare. -/
theorem rtake_append_filter (hq : Rising q l) (n : Nat) :
    ((l.rtake (n + 1)).filter q).rtake n = (l.filter q).rtake n := by
  have hl : l = l.take (l.length - (n + 1)) ++ l.rtake (n + 1) := (take_append_drop _ _).symm
  rcases (hl ▸ hq : Rising q (l.take (l.length - (n + 1)) ++ l.rtake (n + 1))).filter_append with
    hempty | hall
  · conv_rhs => rw [hl, filter_append, hempty, nil_append]
  · conv_rhs => rw [hl, filter_append, hall]
    rw [hall]
    by_cases hlen : n + 1 ≤ l.length
    · refine (rtake_append_of_le ?_).symm
      rw [rtake, length_drop]
      omega
    · have htake : l.take (l.length - (n + 1)) = [] := by
        rw [Nat.sub_eq_zero_of_le (by omega), take_zero]
      rw [htake, filter_nil, nil_append]

/-- The last `n` elements that meet `q`, found among the last `n` that met the weaker `p` before
the new element came. -/
theorem rtake_filter_concat {x : α} (hp : ∀ y ∈ l, q y = true → p y = true) (hq : Rising q l)
    (hx : q x = true) (n : Nat) :
    (((l.filter p).rtake n ++ [x]).filter q).rtake n = ((l ++ [x]).filter q).rtake n := by
  cases n with
  | zero => simp
  | succ n =>
    have hsub : (l.filter p).filter q = l.filter q := by
      rw [filter_filter]
      refine filter_congr fun y hy => ?_
      cases hqy : q y with
      | false => rfl
      | true => rw [hp y hy hqy]; rfl
    simp only [filter_append, filter_singleton, hx, cond_true]
    rw [rtake_concat_succ, rtake_concat_succ,
      rtake_append_filter (hq.sublist filter_sublist) n, hsub]

end QueryFlux.Lib
