import Mathlib.Algebra.GroupWithZero.Nat
import Mathlib.Algebra.BigOperators.Group.Finset.Piecewise
import Mathlib.Algebra.Order.BigOperators.Group.Finset
import Mathlib.Data.List.Basic

/-!
# Lists read and written at one place

Reading a list after `set`, updating the first element that meets a test, and sums over a
list or a range of which one summand changes.
-/

namespace QueryFlux.Lib

open List

/-! ## Positions and sums -/

variable {α β : Type*} {i : Nat} {xs : List α} {R : α → β → Prop} {ys : List β}

theorem mem_append_singleton {a x : α} : x ∈ xs ++ [a] ↔ x ∈ xs ∨ x = a := by simp

theorem getD_set (xs : List α) (i j : Nat) (v d : α) :
    (xs.set i v).getD j d = if i = j ∧ i < xs.length then v else xs.getD j d := by
  by_cases hij : i = j
  · subst hij
    by_cases hi : i < xs.length <;> simp [hi]
  · simp [hij]

theorem getD_set_ne (xs : List α) {j : Nat} (h : i ≠ j) (v d : α) :
    (xs.set i v).getD j d = xs.getD j d := by
  rw [getD_set, if_neg (fun hc => h hc.1)]

theorem getElem?_eq_getD (h : i < xs.length) (d : α) : xs[i]? = some (xs.getD i d) := by
  rw [getD_eq_getElem?_getD, getElem?_eq_getElem h]
  rfl

theorem set_getD_self (xs : List α) (i : Nat) (d : α) : xs.set i (xs.getD i d) = xs := by
  induction xs generalizing i with
  | nil => rfl
  | cons _ _ ih =>
    cases i with
    | zero => rfl
    | succ => rw [set_cons_succ, getD_cons_succ, ih]

theorem sum_range_le_add {n d : Nat} {f g : Nat → Nat} (hoff : ∀ j, j ≠ i → g j ≤ f j)
    (hi : g i ≤ f i + d) : ((List.range n).map g).sum ≤ ((List.range n).map f).sum + d := by
  have hpoint : ∀ j ∈ Finset.range n, g j ≤ f j + if j = i then d else 0 := by
    intro j _
    by_cases hj : j = i
    · subst hj; simpa using hi
    · simpa [hj] using hoff j hj
  calc ((range n).map g).sum = ∑ j ∈ Finset.range n, g j := rfl
    _ ≤ ∑ j ∈ Finset.range n, (f j + if j = i then d else 0) := Finset.sum_le_sum hpoint
    _ = ∑ j ∈ Finset.range n, f j + ∑ j ∈ Finset.range n, (if j = i then d else 0) :=
      Finset.sum_add_distrib
    _ ≤ ∑ j ∈ Finset.range n, f j + d := by
      rw [Finset.sum_ite_eq']
      split <;> omega
    _ = ((range n).map f).sum + d := rfl

theorem add_le_sum_range {n d : Nat} {f g : Nat → Nat} (hoff : ∀ j, j ≠ i → f j ≤ g j)
    (hi : f i + d ≤ g i) (hn : i < n) :
    ((List.range n).map f).sum + d ≤ ((List.range n).map g).sum := by
  have hpoint : ∀ j ∈ Finset.range n, (f j + if j = i then d else 0) ≤ g j := by
    intro j _
    by_cases hj : j = i
    · subst hj; simpa using hi
    · simpa [hj] using hoff j hj
  have hmem : i ∈ Finset.range n := Finset.mem_range.2 hn
  calc ((range n).map f).sum + d = ∑ j ∈ Finset.range n, f j + d := rfl
    _ = ∑ j ∈ Finset.range n, f j + ∑ j ∈ Finset.range n, (if j = i then d else 0) := by
      rw [Finset.sum_ite_eq', if_pos hmem]
    _ = ∑ j ∈ Finset.range n, (f j + if j = i then d else 0) := Finset.sum_add_distrib.symm
    _ ≤ ∑ j ∈ Finset.range n, g j := Finset.sum_le_sum hpoint
    _ = ((range n).map g).sum := rfl

/-- One element changes, and the sum changes by the difference. -/
theorem sum_map_set {l : List α} {x : α} (h : l[i]? = some x) (y : α) (f : α → Nat) :
    ((l.set i y).map f).sum + f x = (l.map f).sum + f y := by
  induction l generalizing i with
  | nil => cases h
  | cons _ _ ih =>
    cases i with
    | zero =>
      cases h
      simp only [set_cons_zero, map_cons, sum_cons]
      omega
    | succ =>
      have hrest := ih h
      simp only [set_cons_succ, map_cons, sum_cons]
      omega

theorem sum_map_le {l : List α} {f g : α → Nat} (h : ∀ x ∈ l, f x ≤ g x) :
    (l.map f).sum ≤ (l.map g).sum := by
  induction l with
  | nil => simp
  | cons x _ ih =>
    have hx := h x (.head _)
    have hl := ih fun y hy => h y (.tail _ hy)
    simp only [map_cons, sum_cons]
    omega

theorem sum_map_filterMap (l : List α) (f : α → Option β) (g : β → Nat) :
    ((l.filterMap f).map g).sum = (l.map fun x => (f x).elim 0 g).sum := by
  induction l with
  | nil => rfl
  | cons x _ ih =>
    rw [filterMap_cons, map_cons, sum_cons, ← ih]
    cases f x with
    | none => simp
    | some => simp

theorem min?_getD_le {l : List Nat} {n : Nat} (h : ∀ x ∈ l, x ≤ n) : l.min?.getD 0 ≤ n := by
  cases hmin : l.min? with
  | none => exact Nat.zero_le _
  | some m => exact h m (min?_mem hmin)

theorem sum_map_eq_sum_range (l : List α) (f : α → Nat) :
    (l.map f).sum = ((List.range l.length).map fun i => (l[i]?.map f).getD 0).sum := by
  induction l with
  | nil => rfl
  | cons _ _ ih =>
    rw [length_cons, range_succ_eq_map, map_cons, map_cons, map_map,
      sum_cons, sum_cons, ih]
    rfl

/-! ## The first element that can be changed -/

section UpdateFirst

variable {α : Type*} {q : α → Bool} {f : α → Option α}

/-- Replace the first element that meets `q` by what `f` gives for it; `none` when there is
no such element or `f` refuses it. -/
def updateFirst (q : α → Bool) (f : α → Option α) : List α → Option (List α)
  | [] => none
  | x :: xs => if q x then (f x).map (· :: xs) else (updateFirst q f xs).map (x :: ·)

theorem updateFirst_eq_some : ∀ {xs ys : List α}, updateFirst q f xs = some ys →
    ∃ l x y r, xs = l ++ x :: r ∧ ys = l ++ y :: r ∧ q x = true ∧ f x = some y := by
  intro xs
  induction xs with
  | nil => intro ys h; cases h
  | cons x xs ih =>
    intro ys h
    unfold updateFirst at h
    split_ifs at h with hq
    · obtain ⟨y, hy, rfl⟩ := Option.map_eq_some_iff.1 h
      exact ⟨[], x, y, xs, rfl, rfl, hq, hy⟩
    · obtain ⟨zs, hz, rfl⟩ := Option.map_eq_some_iff.1 h
      obtain ⟨l, a, b, r, rfl, rfl, hq, hb⟩ := ih hz
      exact ⟨x :: l, a, b, r, rfl, rfl, hq, hb⟩

theorem updateFirst_forall₂ {R : α → α → Prop} (hrefl : ∀ x, R x x) {xs ys : List α}
    (h : updateFirst q f xs = some ys)
    (hstep : ∀ x y, x ∈ xs → q x = true → f x = some y → R x y) : List.Forall₂ R xs ys := by
  obtain ⟨l, x, y, r, rfl, rfl, hq, hy⟩ := updateFirst_eq_some h
  refine rel_append (forall₂_same.2 fun a _ => hrefl a) ?_
  exact .cons (hstep x y (by simp) hq hy) (forall₂_same.2 fun a _ => hrefl a)

end UpdateFirst

theorem forall₂_mem_right (h : List.Forall₂ R xs ys) {y : β} (hy : y ∈ ys) : ∃ x ∈ xs, R x y := by
  induction h with
  | nil => cases hy
  | cons hxy _ ih =>
    rcases mem_cons.1 hy with rfl | hy
    · exact ⟨_, .head _, hxy⟩
    · obtain ⟨x, hx, hR⟩ := ih hy
      exact ⟨x, .tail _ hx, hR⟩

theorem exists_of_forall₂_append {xs' : List α} (h : List.Forall₂ R (xs ++ xs') ys) :
    ∃ zs zs', List.Forall₂ R xs zs ∧ List.Forall₂ R xs' zs' ∧ ys = zs ++ zs' := by
  induction xs generalizing ys with
  | nil => exact ⟨[], ys, .nil, h, rfl⟩
  | cons _ _ ih =>
    cases h with
    | cons hx h =>
      obtain ⟨zs, zs', hzs, hzs', rfl⟩ := ih h
      exact ⟨_ :: zs, zs', .cons hx hzs, hzs', rfl⟩

theorem sum_map_le_of_forall₂ {f : α → Nat} {g : β → Nat}
    (h : List.Forall₂ (fun x y => g y ≤ f x) xs ys) : (ys.map g).sum ≤ (xs.map f).sum := by
  induction h with
  | nil => simp
  | cons =>
    simp only [map_cons, sum_cons]
    omega

end QueryFlux.Lib
