import Mathlib.Algebra.GroupWithZero.Nat
import Mathlib.Data.List.Nodup

/-!
# Rows with a primary key

A table is a list of rows of which no two have the same key. `inserted` is what an insert that
does nothing on a conflict adds, `upsert` an insert that updates the row in conflict. Adding what
does not conflict, deleting rows and updating other columns keep the table keyed.
-/

namespace QueryFlux.Lib

open List

/-! ## Tables with a key -/

variable {ρ κ : Type*} [DecidableEq κ] (key : ρ → κ)

def Keyed (rows : List ρ) : Prop := (rows.map key).Nodup

def hasKey (rows : List ρ) (k : κ) : Bool := rows.any (key · == k)

/-- The rows among those offered that do not conflict with a row already there. -/
def inserted (rows : List ρ) : List ρ → List ρ
  | [] => []
  | r :: offered =>
    if hasKey key rows (key r) then inserted rows offered
    else r :: inserted (rows ++ [r]) offered

/-- Change the row with the key, or append one. -/
def upsert (r : ρ) (update : ρ → ρ) (rows : List ρ) : List ρ :=
  if hasKey key rows (key r) then rows.map fun x => if key x = key r then update x else x
  else rows ++ [r]

variable {key}

variable {rows : List ρ}

theorem hasKey_iff {k : κ} : hasKey key rows k = true ↔ ∃ r ∈ rows, key r = k := by
  simp [hasKey]

theorem not_hasKey_iff {k : κ} : ¬hasKey key rows k = true ↔ k ∉ rows.map key := by
  simp [hasKey]

theorem inserted_sublist (rows offered : List ρ) :
    (inserted key rows offered).Sublist offered := by
  induction offered generalizing rows with
  | nil => exact Sublist.refl _
  | cons r _ ih =>
    rw [inserted]
    split
    · exact (ih _).cons r
    · exact (ih _).cons_cons r

theorem hasKey_append (rows rows' : List ρ) (k : κ) :
    hasKey key (rows ++ rows') k = (hasKey key rows k || hasKey key rows' k) := by
  simp [hasKey]

theorem hasKey_filter_ne (rows : List ρ) (k k' : κ) :
    hasKey key (rows.filter (key · != k)) k' = (hasKey key rows k' && k' != k) := by
  rw [Bool.eq_iff_iff, Bool.and_eq_true, hasKey_iff, hasKey_iff, bne_iff_ne]
  simp only [mem_filter, bne_iff_ne]
  constructor
  · rintro ⟨r, ⟨hr, hne⟩, rfl⟩
    exact ⟨⟨r, hr, rfl⟩, hne⟩
  · rintro ⟨⟨r, hr, rfl⟩, hne⟩
    exact ⟨r, ⟨hr, hne⟩, rfl⟩

/-! ## Lookups -/

/-- Only the row with the key is affected. -/
theorem find?_upsert {r : ρ} {update : ρ → ρ}
    (hupdate : ∀ x, key x = key r → key (update x) = key x) (rows : List ρ) (k : κ) :
    (upsert key r update rows).find? (key · = k) =
      if key r = k then some (((rows.find? (key · = k)).map update).getD r)
      else rows.find? (key · = k) := by
  unfold upsert
  split
  · rename_i hkey
    obtain ⟨y, hy, hyr⟩ := hasKey_iff.1 hkey
    rw [find?_map]
    have hkeys : ∀ x, key (if key x = key r then update x else x) = key x := by
      intro x
      split_ifs with hx
      · exact hupdate x hx
      · rfl
    simp only [Function.comp_def, hkeys]
    by_cases hk : key r = k
    · subst hk
      cases hfind : rows.find? (key · = key r) with
      | none =>
        rw [find?_eq_none] at hfind
        exact absurd (decide_eq_true hyr) (hfind y hy)
      | some x =>
        have hx : key x = key r := by simpa using find?_some hfind
        simp [hx]
    · rw [if_neg hk]
      cases hfind : rows.find? (key · = k) with
      | none => rfl
      | some x =>
        have hx : key x = k := by simpa using find?_some hfind
        have hne : key x ≠ key r := fun h => hk (h.symm.trans hx)
        simp [hne]
  · rename_i hkey
    have hnone : rows.find? (key · = key r) = none := by
      rw [find?_eq_none]
      intro x hx hxr
      exact hkey (hasKey_iff.2 ⟨x, hx, of_decide_eq_true hxr⟩)
    rw [find?_append]
    by_cases hk : key r = k
    · subst hk
      rw [if_pos rfl, hnone]
      simp
    · simp [hk]

namespace Keyed

variable {rows : List ρ}

omit [DecidableEq κ] in
theorem filter (h : Keyed key rows) (p : ρ → Bool) : Keyed key (rows.filter p) :=
  Nodup.sublist (filter_sublist.map key) h

variable {r : ρ}

theorem concat (h : Keyed key rows) (hr : ¬hasKey key rows (key r) = true) :
    Keyed key (rows ++ [r]) := by
  rw [Keyed, map_append, map_singleton, nodup_append]
  refine ⟨h, nodup_singleton _, ?_⟩
  rintro k hk _ hr' rfl
  exact not_hasKey_iff.1 hr (mem_singleton.1 hr' ▸ hk)

theorem upsert (h : Keyed key rows) {update : ρ → ρ} (hupdate : ∀ x, key (update x) = key x) :
    Keyed key (Lib.upsert key r update rows) := by
  unfold Lib.upsert
  split_ifs with hr
  · have hkeys : (rows.map fun x => if key x = key r then update x else x).map key =
        rows.map key := by
      rw [map_map]
      refine map_congr_left fun x _ => ?_
      dsimp only [Function.comp]
      split
      · exact hupdate x
      · rfl
    rwa [Keyed, hkeys]
  · exact h.concat hr

section
variable (h : Keyed key rows)
include h

omit [DecidableEq κ] in
theorem eq_of_mem {r' : ρ} (hr : r ∈ rows) (hr' : r' ∈ rows) (hkey : key r = key r') :
    r = r' := List.inj_on_of_nodup_map h hr hr' hkey

theorem perm_cons_filter {k : κ} (hfind : rows.find? (key · == k) = some r) :
    rows.Perm (r :: rows.filter (key · != k)) := by
  induction rows with
  | nil => cases hfind
  | cons x rows ih =>
    obtain ⟨hx, hrows⟩ := nodup_cons.1 h
    by_cases hk : key x = k
    · rw [find?_cons_of_pos (by simpa using hk)] at hfind
      cases hfind
      have hothers : rows.filter (key · != k) = rows := by
        rw [filter_eq_self]
        intro y hy
        have hne : key y ≠ k := fun hyk => hx (mem_map.2 ⟨y, hy, hyk.trans hk.symm⟩)
        simpa using hne
      rw [filter_cons_of_neg (by simpa using hk), hothers]
    · rw [find?_cons_of_neg (by simpa using hk)] at hfind
      rw [filter_cons_of_pos (by simpa using hk)]
      exact ((ih hrows hfind).cons x).trans (Perm.swap r x _)

/-- Inserting with `ON CONFLICT DO NOTHING` keeps keys distinct. -/
theorem append_inserted (offered : List ρ) : Keyed key (rows ++ inserted key rows offered) := by
  induction offered generalizing rows with
  | nil => rwa [inserted, append_nil]
  | cons _ _ ih =>
    rw [inserted]
    split_ifs with hr
    · exact ih h
    · have := ih (h.concat hr)
      rwa [append_assoc, singleton_append] at this

theorem find?_eq_some_iff {k : κ} : rows.find? (key · = k) = some r ↔ r ∈ rows ∧ key r = k := by
  constructor
  · intro hfind
    exact ⟨mem_of_find?_eq_some hfind, by simpa using find?_some hfind⟩
  · rintro ⟨hr, rfl⟩
    cases hfind : rows.find? (key · = key r) with
    | none => exact absurd (decide_eq_true rfl) (find?_eq_none.1 hfind r hr)
    | some x =>
      have hx : key x = key r := by simpa using find?_some hfind
      rw [h.eq_of_mem (mem_of_find?_eq_some hfind) hr hx]

theorem find?_eq_of_perm {rows' : List ρ} (hperm : rows.Perm rows') (k : κ) :
    rows'.find? (key · = k) = rows.find? (key · = k) := by
  have h' : Keyed key rows' := (hperm.map key).nodup_iff.1 h
  apply Option.ext
  intro r
  rw [h.find?_eq_some_iff, h'.find?_eq_some_iff, hperm.mem_iff]

theorem filter_keys_of_sublist {picked : List ρ} (hsub : picked.Sublist rows) :
    (rows.filter fun r => (picked.map key).contains (key r)) = picked := by
  induction hsub with
  | slnil => rfl
  | cons x hsub ih =>
    rename_i l l'
    obtain ⟨hx, hrest⟩ := nodup_cons.1 h
    have hnot : key x ∉ l.map key := fun hmem => hx ((hsub.map key).subset hmem)
    rw [filter_cons_of_neg (by simpa using hnot)]
    exact ih hrest
  | cons_cons x _ ih =>
    obtain ⟨hx, hrest⟩ := nodup_cons.1 h
    rw [filter_cons_of_pos (by simp)]
    congr 1
    rw [← ih hrest]
    apply filter_congr
    intro y hy
    have hne : key y ≠ key x := fun hyx => hx (hyx ▸ mem_map_of_mem hy)
    rw [ih hrest]
    simp [hne]

end

omit [DecidableEq κ] in
theorem map (h : Keyed key rows) {f : ρ → ρ} (hf : ∀ r, key (f r) = key r) :
    Keyed key (rows.map f) := by
  have hkeys : (rows.map f).map key = rows.map key := by
    rw [map_map]
    exact map_congr_left fun r _ => hf r
  rwa [Keyed, hkeys]

end Keyed

end QueryFlux.Lib
