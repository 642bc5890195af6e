import QueryFlux.Lib.Lists
import QueryFlux.Quota.Allocate

/-!
# What one allocator pass does to a holder

Whatever the targets are, a pass keeps the ceiling of an active holder or raises it, never
leaves a grant above its ceiling, and clears both for a holder past its lease
(`Growth.Sound`). Increases are paid out of free capacity, so the capacity committed after a
pass is at most what was committed before it, or what leases leave of the limit
(`allocate_committed_le`).
-/

namespace QueryFlux.Quota

open QueryFlux.Lib List

/-! ## Targets -/

variable {ι : Type}

theorem foldl_set_length {α β : Type*} (f : α → Nat) (g : α → β) :
    ∀ (l : List α) (t : List β), (l.foldl (fun t a => t.set (f a) (g a)) t).length = t.length := by
  intro l
  induction l with
  | nil => intro t; rfl
  | cons _ _ ih => intro t; rw [foldl_cons, ih, length_set]

theorem foldl_set_getD {α : Type*} (f g : α → Nat) {i : Nat} :
    ∀ (l : List α) (t : List Nat), (∀ a ∈ l, f a ≠ i) →
      (l.foldl (fun t a => t.set (f a) (g a)) t).getD i 0 = t.getD i 0 := by
  intro l
  induction l with
  | nil => intro t _; rfl
  | cons a _ ih =>
    intro t h
    rw [foldl_cons, ih _ fun b hb => h b (.tail _ hb),
      getD_set_ne _ (h a (.head _))]

theorem replicate_zero_getD (n i : Nat) : (List.replicate n 0).getD i 0 = 0 := by
  rw [getD_eq_getElem?_getD, getElem?_replicate]
  split <;> rfl

theorem targets_length (max : Nat) (holders : List (HolderState ι)) (policy : AllocatorPolicy) :
    (targets max holders policy).length = holders.length := by
  unfold targets
  dsimp only
  split
  · rw [foldl_set_length, length_replicate]
  · rw [length_replicate]

/-- A silent holder has no target. -/
theorem targets_inactive {max : Nat} {holders : List (HolderState ι)} {policy : AllocatorPolicy}
    {i : Nat} {h : HolderState ι} (hi : holders[i]? = some h) (hact : h.active policy = false) :
    (targets max holders policy).getD i 0 = 0 := by
  unfold targets
  dsimp only
  split
  · rw [foldl_set_getD]
    · exact replicate_zero_getD _ _
    · rintro ⟨j, k⟩ hjk rfl
      have hj := fst_mem_of_mem_zipIdx hjk
      simp [getD_eq_getElem?_getD, hi, hact] at hj
  · exact replicate_zero_getD _ _

/-! ## One increase -/

section Grow

variable {holders : List (HolderState ι)} {policy : AllocatorPolicy} {target : List Nat}

@[simp] theorem grow_granted_length (st : Growth) (i : Nat) :
    (grow holders policy target st i).granted.length = st.granted.length := by
  simp [grow]

@[simp] theorem grow_ceiling_length (st : Growth) (i : Nat) :
    (grow holders policy target st i).ceiling.length = st.ceiling.length := by
  simp [grow]

theorem grow_ceiling_ge (st : Growth) (i j : Nat) :
    st.ceiling.getD j 0 ≤ (grow holders policy target st i).ceiling.getD j 0 := by
  simp only [grow, getD_set]
  split
  · rename_i h
    rw [h.1]
    exact Nat.le_max_left _ _
  · exact Nat.le_refl _

theorem grow_other (holders : List (HolderState ι)) (policy : AllocatorPolicy)
    (target : List Nat) (st : Growth) {i j : Nat} (h : i ≠ j) :
    (grow holders policy target st i).granted.getD j 0 = st.granted.getD j 0 ∧
      (grow holders policy target st i).ceiling.getD j 0 = st.ceiling.getD j 0 := by
  exact ⟨getD_set_ne _ h _ _, getD_set_ne _ h _ _⟩

theorem grow_fits {st : Growth} (hlen : st.granted.length = st.ceiling.length) (i : Nat)
    (hfit : ∀ j, st.granted.getD j 0 ≤ st.ceiling.getD j 0) (j : Nat) :
    (grow holders policy target st i).granted.getD j 0 ≤
      (grow holders policy target st i).ceiling.getD j 0 := by
  simp only [grow, getD_set, hlen]
  split
  · exact Nat.le_max_right _ _
  · exact hfit j

theorem commitOf_mono {c c' : List Nat} {i : Nat} (h : c.getD i 0 ≤ c'.getD i 0) :
    commitOf holders policy c i ≤ commitOf holders policy c' i := by
  unfold commitOf
  split
  · split
    · exact Nat.max_le.2 ⟨h.trans (Nat.le_max_left _ _), Nat.le_max_right _ _⟩
    · exact Nat.le_refl _
  · exact Nat.le_refl _

theorem commitOf_grow_le {st : Growth} {i : Nat}
    (hfit : st.granted.getD i 0 ≤ st.ceiling.getD i 0) :
    commitOf holders policy (grow holders policy target st i).ceiling i ≤
      commitOf holders policy st.ceiling i +
        min (target.getD i 0 - commitOf holders policy st.ceiling i) st.free := by
  simp only [grow]
  unfold commitOf
  cases hh : holders[i]? with
  | none => simp
  | some h =>
    simp only
    by_cases hact : h.active policy
    · simp only [hact, if_true, getD_set]
      split
      · simp only [Nat.max_def, Nat.min_def]
        split_ifs <;> omega
      · omega
    · simp only [hact, Bool.false_eq_true, if_false]
      omega

/-- What an increase commits is taken from what is free. -/
theorem grow_paid {st : Growth} {i : Nat} (hfit : st.granted.getD i 0 ≤ st.ceiling.getD i 0) :
    committed holders policy (grow holders policy target st i).ceiling +
        (grow holders policy target st i).free ≤
      committed holders policy st.ceiling + st.free := by
  have hsum : committed holders policy (grow holders policy target st i).ceiling ≤
      committed holders policy st.ceiling +
        min (target.getD i 0 - commitOf holders policy st.ceiling i) st.free := by
    refine sum_range_le_add (i := i) (fun j hj => ?_) (commitOf_grow_le hfit)
    exact commitOf_mono (Nat.le_of_eq (grow_other _ _ _ st (Ne.symm hj)).2)
  have hfree : (grow holders policy target st i).free =
      st.free - min (target.getD i 0 - commitOf holders policy st.ceiling i) st.free := rfl
  omega

end Grow

/-! ## All increases -/

/-- What the increases keep: nobody's ceiling falls, a grant fits its ceiling, and what is committed
is paid for. -/
structure Growth.Sound (holders : List (HolderState ι)) (policy : AllocatorPolicy)
    (start st : Growth) : Prop where
  granted_length : st.granted.length = holders.length
  ceiling_length : st.ceiling.length = holders.length
  mono : ∀ i, start.ceiling.getD i 0 ≤ st.ceiling.getD i 0
  fits : ∀ i, st.granted.getD i 0 ≤ st.ceiling.getD i 0
  paid : committed holders policy st.ceiling + st.free ≤
    committed holders policy start.ceiling + start.free
  cleared : ∀ i h, holders[i]? = some h → h.active policy = false →
    st.granted.getD i 0 = 0 ∧ st.ceiling.getD i 0 = 0

namespace Growth.Sound

variable {holders : List (HolderState ι)} {policy : AllocatorPolicy} {target : List Nat}
  {start st : Growth}

theorem grow (hs : Growth.Sound holders policy start st) {i : Nat}
    (hact : ∀ h, holders[i]? = some h → h.active policy = true) :
    Growth.Sound holders policy start (Quota.grow holders policy target st i) where
  granted_length := by rw [grow_granted_length, hs.granted_length]
  ceiling_length := by rw [grow_ceiling_length, hs.ceiling_length]
  mono j := (hs.mono j).trans (grow_ceiling_ge st i j)
  fits := grow_fits (hs.granted_length.trans hs.ceiling_length.symm) i hs.fits
  paid := (grow_paid (hs.fits i)).trans hs.paid
  cleared j h hj hidle := by
    have hij : i ≠ j := by
      rintro rfl
      rw [hact h hj] at hidle
      cases hidle
    obtain ⟨hg, hc⟩ := grow_other holders policy target st hij
    rw [hg, hc]
    exact hs.cleared j h hj hidle

theorem foldl (hs : Growth.Sound holders policy start st) :
    ∀ (is : List Nat), (∀ i ∈ is, ∀ h, holders[i]? = some h → h.active policy = true) →
      Growth.Sound holders policy start (is.foldl (Quota.grow holders policy target) st) := by
  intro is
  induction is generalizing st with
  | nil => intro _; exact hs
  | cons i _ ih =>
    intro hact
    exact ih (hs.grow (hact i (.head _))) fun j hj => hact j (.tail _ hj)

end Growth.Sound

/-! ## Decreases -/

section Lowered

variable {holders : List (HolderState ι)} {policy : AllocatorPolicy} {target : List Nat}

theorem lowered_getD (policy : AllocatorPolicy) (hlen : target.length = holders.length)
    {i : Nat} {h : HolderState ι} (hi : holders[i]? = some h) :
    ((List.zipWith (lowered policy) holders target).map Prod.fst).getD i 0 =
        (lowered policy h (target.getD i 0)).1 ∧
      ((List.zipWith (lowered policy) holders target).map Prod.snd).getD i 0 =
        (lowered policy h (target.getD i 0)).2 := by
  obtain ⟨hlt, rfl⟩ := List.getElem?_eq_some_iff.1 hi
  have ht : i < target.length := by omega
  simp [List.getD_eq_getElem?_getD, hlt, ht]

theorem lowered_fits {h : HolderState ι} (hfit : h.granted ≤ h.ceiling) (t : Nat) :
    (lowered policy h t).1 ≤ (lowered policy h t).2 := by
  simp only [lowered]
  split_ifs
  · exact (Nat.le_of_lt ‹_›).trans hfit
  · exact hfit
  · exact Nat.le_refl _

theorem lowered_fits_getD (hlen : target.length = holders.length)
    (hfit : ∀ h ∈ holders, h.granted ≤ h.ceiling) (i : Nat) :
    ((List.zipWith (lowered policy) holders target).map Prod.fst).getD i 0 ≤
      ((List.zipWith (lowered policy) holders target).map Prod.snd).getD i 0 := by
  cases hi : holders[i]? with
  | some h =>
    obtain ⟨hg, hc⟩ := lowered_getD policy hlen hi
    rw [hg, hc]
    exact lowered_fits (hfit h (mem_of_getElem? hi)) _
  | none =>
    have hlt : holders.length ≤ i := getElem?_eq_none_iff.1 hi
    have hnone : ((zipWith (lowered policy) holders target).map Prod.fst)[i]? = none :=
      getElem?_eq_none (by simpa [hlen] using hlt)
    rw [getD_eq_getElem?_getD, hnone]
    exact Nat.zero_le _

theorem committed_lowered (hlen : target.length = holders.length) :
    committed holders policy ((List.zipWith (lowered policy) holders target).map Prod.snd) =
      (holders.map fun h => h.commit policy).sum := by
  rw [sum_map_eq_sum_range]
  unfold committed
  congr 1
  refine map_congr_left fun i hi => ?_
  have hlt : i < holders.length := mem_range.1 hi
  have hget : holders[i]? = some holders[i] := getElem?_eq_getElem hlt
  obtain ⟨-, hc⟩ := lowered_getD policy hlen hget
  simp only [commitOf, hget, Option.map_some, Option.getD_some, HolderState.commit, hc, lowered]
  split <;> rfl

end Lowered

/-! ## Writing the changes -/

section Changed

variable [DecidableEq ι]

/-- Grant and ceiling of the holder once the changes are written. -/
def newGrant (changed : List (Allocation ι)) (h : HolderState ι) : Nat × Nat :=
  match changed.find? fun c => c.instanceId = h.instanceId with
  | some c => (c.granted, c.ceiling)
  | none => (h.granted, h.ceiling)

theorem find?_changedOf_none {id : ι} :
    ∀ {hs : List (HolderState ι)} {gs cs : List Nat}, id ∉ hs.map (·.instanceId) →
      (changedOf hs gs cs).find? (fun c => c.instanceId = id) = none := by
  intro hs
  induction hs with
  | nil => intro gs cs _; simp [changedOf]
  | cons _ _ ih =>
    intro gs cs hid
    simp only [map_cons, mem_cons, not_or] at hid
    cases gs with
    | nil => simp [changedOf]
    | cons =>
      cases cs with
      | nil => simp [changedOf]
      | cons =>
        simp only [changedOf]
        split
        · rw [find?_cons_of_neg (by simpa using Ne.symm hid.1)]
          exact ih hid.2
        · exact ih hid.2

/-- The written changes give each holder its own grant and ceiling. -/
theorem newGrant_changedOf :
    ∀ {hs : List (HolderState ι)} {gs cs : List Nat}, (hs.map (·.instanceId)).Nodup →
      gs.length = hs.length → cs.length = hs.length →
      ∀ {i : Nat} {h : HolderState ι}, hs[i]? = some h →
        newGrant (changedOf hs gs cs) h = (gs.getD i 0, cs.getD i 0) := by
  intro hs
  induction hs with
  | nil => intro gs cs _ _ _ i h hi; simp at hi
  | cons a _ ih =>
    intro gs cs hnd hg hc i h hi
    obtain ⟨g, gs, rfl⟩ := exists_cons_of_length_eq_add_one hg
    obtain ⟨c, cs, rfl⟩ := exists_cons_of_length_eq_add_one hc
    simp only [map_cons, nodup_cons] at hnd
    simp only [length_cons, Nat.add_right_cancel_iff] at hg hc
    cases i with
    | zero =>
      simp only [getElem?_cons_zero, Option.some.injEq] at hi
      subst hi
      simp only [changedOf, getD_cons_zero, newGrant]
      by_cases hd : g ≠ a.granted ∨ c ≠ a.ceiling
      · rw [if_pos hd, find?_cons_of_pos (by simp)]
      · rw [if_neg hd, find?_changedOf_none hnd.1]
        simp only [not_or, not_not] at hd
        simp [hd.1, hd.2]
    | succ =>
      have hne : a.instanceId ≠ h.instanceId := by
        intro he
        exact hnd.1 (mem_map.2 ⟨h, mem_of_getElem? hi, he.symm⟩)
      have hrec := ih hnd.2 hg hc hi
      simp only [getD_cons_succ, ← hrec, newGrant, changedOf]
      by_cases hd : g ≠ a.granted ∨ c ≠ a.ceiling
      · rw [if_pos hd, find?_cons_of_neg (by simpa using hne)]
      · rw [if_neg hd]

def granted (changed : List (Allocation ι)) (h : HolderState ι) : HolderState ι :=
  { h with granted := (newGrant changed h).1, ceiling := (newGrant changed h).2 }

theorem commit_granted_active {policy : AllocatorPolicy} (changed : List (Allocation ι))
    {h : HolderState ι} (hact : h.active policy = true) :
    (granted changed h).commit policy = Max.max (newGrant changed h).2 h.running :=
  if_pos hact

theorem commit_granted_inactive {policy : AllocatorPolicy} (changed : List (Allocation ι))
    {h : HolderState ι} (hact : h.active policy = false) :
    (granted changed h).commit policy = h.running :=
  if_neg (ne_true_of_eq_false hact)

end Changed

variable [LinearOrder ι]

/-- Decreases and increases together. -/
theorem settle_sound (max leased : Nat) {holders : List (HolderState ι)}
    {policy : AllocatorPolicy} {target : List Nat} (hlen : target.length = holders.length)
    (hidle : ∀ i h, holders[i]? = some h → h.active policy = false → target.getD i 0 = 0)
    (hfit : ∀ h ∈ holders, h.granted ≤ h.ceiling) :
    let ceiling := (List.zipWith (lowered policy) holders target).map Prod.snd
    Growth.Sound holders policy
      ⟨max - leased - committed holders policy ceiling,
        (List.zipWith (lowered policy) holders target).map Prod.fst, ceiling⟩
      (settle max leased holders policy target) := by
  intro ceiling
  refine Growth.Sound.foldl ⟨?_, ?_, fun _ => Nat.le_refl _, ?_, Nat.le_refl _, ?_⟩ _ ?_
  · simp [hlen]
  · simp [ceiling, hlen]
  · exact lowered_fits_getD hlen hfit
  · intro i h hi hact
    obtain ⟨hg, hc⟩ := lowered_getD policy hlen hi
    simp only [ceiling, hg, hc, lowered, hact, Bool.false_eq_true, if_false, and_self]
  · -- a growing holder has a target, so it is active
    intro i hi h hh
    rw [mem_insertionSort, mem_filter] at hi
    by_contra hact
    have hlt := of_decide_eq_true hi.2
    rw [hidle i h hh (by simpa using hact)] at hlt
    exact Nat.not_lt_zero _ hlt

section Pass

variable {max leased : Nat} {holders : List (HolderState ι)} {policy : AllocatorPolicy}
  (hnd : (holders.map (·.instanceId)).Nodup) (hfit : ∀ h ∈ holders, h.granted ≤ h.ceiling)

include hnd hfit in
theorem allocate_holder {h : HolderState ι} (hh : h ∈ holders) :
    let h' := granted (allocate max leased holders policy).changed h
    (h.active policy = true → h.ceiling ≤ h'.ceiling) ∧ h'.granted ≤ h'.ceiling ∧
      (h.active policy = false → h'.granted = 0 ∧ h'.ceiling = 0) := by
  obtain ⟨i, hi⟩ := mem_iff_getElem?.1 hh
  have hlen := targets_length max holders policy
  have hs := settle_sound max leased hlen (fun i h => targets_inactive) hfit
  have hnew := newGrant_changedOf hnd hs.granted_length hs.ceiling_length hi
  simp only [granted, allocate, hnew]
  refine ⟨fun hact => ?_, hs.fits i, fun hact => hs.cleared i h hi hact⟩
  have hm := hs.mono i
  simp only [(lowered_getD policy hlen hi).2, lowered, hact, if_true] at hm
  exact hm

include hnd hfit in
theorem allocate_committed :
    (allocate max leased holders policy).quotaCommitted =
      (holders.map fun h =>
        (granted (allocate max leased holders policy).changed h).commit policy).sum := by
  have hs := settle_sound max leased (targets_length max holders policy)
    (fun i h => targets_inactive) hfit
  rw [sum_map_eq_sum_range]
  simp only [allocate, committed]
  congr 1
  refine map_congr_left fun i hi => ?_
  have hlt : i < holders.length := mem_range.1 hi
  have hget : holders[i]? = some holders[i] := getElem?_eq_getElem hlt
  have hnew := newGrant_changedOf hnd hs.granted_length hs.ceiling_length hget
  simp only [commitOf, hget, Option.map_some, Option.getD_some, HolderState.commit, granted, hnew,
    HolderState.active]
  rfl

include hfit in
/-- What is committed after a pass is no more than before, or than the leases leave. -/
theorem allocate_committed_le :
    (allocate max leased holders policy).quotaCommitted ≤
      Max.max (holders.map fun h => h.commit policy).sum (max - leased) := by
  have hlen := targets_length max holders policy
  have hs := settle_sound max leased hlen (fun i h => targets_inactive) hfit
  have hpaid := hs.paid
  simp only [committed_lowered hlen] at hpaid
  show committed holders policy _ ≤ _
  omega

end Pass

end QueryFlux.Quota
