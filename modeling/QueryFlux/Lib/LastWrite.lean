import Mathlib.Data.List.Nodup
import Mathlib.Logic.Basic

/-!
# Writes of which the last one counts

A list of writes, each of a value under a key. `lastWrite ws k` is the value that was written last
under `k`: what a map has in the end that the writes are applied to in order.
-/

namespace QueryFlux.Lib

variable {κ ν : Type*} [DecidableEq κ]

/-- The value of the last pair with the key. -/
def lastWrite : List (κ × ν) → κ → Option ν
  | [], _ => none
  | w :: ws, k => lastWrite ws k <|> if w.1 = k then some w.2 else none

@[simp] theorem lastWrite_nil (k : κ) : lastWrite ([] : List (κ × ν)) k = none := rfl

/-- Later writes win. -/
theorem lastWrite_append (ws ws' : List (κ × ν)) (k : κ) :
    lastWrite (ws ++ ws') k = (lastWrite ws' k <|> lastWrite ws k) := by
  induction ws with
  | nil =>
    rw [List.nil_append, lastWrite_nil]
    cases lastWrite ws' k with
    | none => rfl
    | some => rfl
  | cons _ _ ih =>
    rw [List.cons_append, lastWrite, ih, lastWrite]
    cases lastWrite ws' k with
    | none => rfl
    | some => rfl

variable {ws : List (κ × ν)}

theorem lastWrite_eq_none {k : κ} (h : ∀ w ∈ ws, w.1 ≠ k) : lastWrite ws k = none := by
  induction ws with
  | nil => rfl
  | cons w _ ih =>
    rw [lastWrite, ih fun x hx => h x (.tail _ hx),
      if_neg (h w (.head _))]
    rfl

theorem mem_of_lastWrite {k : κ} {v : ν} (h : lastWrite ws k = some v) : (k, v) ∈ ws := by
  induction ws with
  | nil => cases h
  | cons w ws ih =>
    rw [lastWrite] at h
    cases hrest : lastWrite ws k with
    | none =>
      rw [hrest] at h
      by_cases hw : w.1 = k
      · have hv : w.2 = v := by simpa [hw] using h
        rw [← hw, ← hv]
        exact .head _
      · simp [hw] at h
    | some v' =>
      rw [hrest] at h
      obtain rfl : v' = v := Option.some.inj h
      exact .tail _ (ih hrest)

theorem lastWrite_map {μ : Type*} [DecidableEq μ] {f : κ → μ} (hf : Function.Injective f)
    (ws : List (κ × ν)) (k : κ) :
    lastWrite (ws.map fun w => (f w.1, w.2)) (f k) = lastWrite ws k := by
  induction ws with
  | nil => rfl
  | cons _ _ ih =>
    rw [List.map_cons, lastWrite, ih, lastWrite]
    simp only [hf.eq_iff]

theorem find?_eq_lastWrite (h : (ws.map Prod.fst).Nodup) (k : κ) :
    (ws.find? (·.1 = k)).map Prod.snd = lastWrite ws k := by
  induction ws with
  | nil => rfl
  | cons w ws ih =>
    rw [List.map_cons, List.nodup_cons] at h
    rw [lastWrite, ← ih h.2]
    by_cases hw : w.1 = k
    · have hnone : ws.find? (·.1 = k) = none := by
        rw [List.find?_eq_none]
        intro x hx hxk
        have hkey : x.1 = w.1 := by rw [hw]; simpa using hxk
        exact h.1 (List.mem_map.2 ⟨x, hx, hkey⟩)
      rw [hnone, List.find?_cons_of_pos (by simpa using hw), if_pos hw]
      rfl
    · rw [List.find?_cons_of_neg (by simpa using hw), if_neg hw]
      cases ws.find? (·.1 = k) with
      | none => rfl
      | some => rfl

end QueryFlux.Lib
