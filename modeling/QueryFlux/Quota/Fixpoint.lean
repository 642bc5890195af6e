import QueryFlux.Quota.Pass

/-!
# A second pass changes nothing

A pass leaves every grant at its target, or it has used up the free capacity (`Growth.Filled`). In
the second case the capacity is committed, so a second pass on the same reports has none to give,
and a holder below its target has nothing committed beyond its grant that could cover an increase.
So the second pass keeps every grant and ceiling, and with them the sums (`allocate_fixpoint`). The
code computes this in `u64`, as long as the sums of the commits fit (`allocate64_fixpoint`); one
that wraps leaves capacity free that is not (`wrapped_sum_changes_again`).
-/

namespace QueryFlux.Quota

open QueryFlux.Lib List

variable {ι : Type}

/-! ## One increase -/

section Grow

variable {holders : List (HolderState ι)} {policy : AllocatorPolicy} {target : List Nat}
  {st : Growth} {i : Nat}

variable {h : HolderState ι}

theorem commitOf_active (hi : holders[i]? = some h) (hact : h.active policy = true) (c : List Nat) :
    commitOf holders policy c i = Nat.max (c.getD i 0) h.running := by
  simp [commitOf, hi, hact]

theorem grow_granted_self (hlt : i < st.granted.length) :
    (grow holders policy target st i).granted.getD i 0 =
      max (min (commitOf holders policy st.ceiling i +
        min (target.getD i 0 - commitOf holders policy st.ceiling i) st.free) (target.getD i 0))
        (st.granted.getD i 0) := by
  simp [grow, hlt]

theorem grow_ceiling_self (hg : i < st.granted.length) (hc : i < st.ceiling.length) :
    (grow holders policy target st i).ceiling.getD i 0 =
      max (st.ceiling.getD i 0) ((grow holders policy target st i).granted.getD i 0) := by
  rw [grow_granted_self hg]
  simp [grow, hc]

theorem grow_free_le (holders : List (HolderState ι)) (policy : AllocatorPolicy)
    (target : List Nat) (st : Growth) (i : Nat) :
    (grow holders policy target st i).free ≤ st.free := Nat.sub_le _ _

theorem grow_le_target (hlt : i < st.granted.length)
    (hle : ∀ j, st.granted.getD j 0 ≤ target.getD j 0) (j : Nat) :
    (grow holders policy target st i).granted.getD j 0 ≤ target.getD j 0 := by
  by_cases hij : i = j
  · subst hij
    rw [grow_granted_self hlt]
    have := hle i
    omega
  · rw [(grow_other holders policy target st hij).1]
    exact hle j

theorem grow_spent (hi : holders[i]? = some h) (hact : h.active policy = true)
    (hg : i < st.granted.length) (hc : i < st.ceiling.length) :
    committed holders policy st.ceiling + st.free ≤
      committed holders policy (grow holders policy target st i).ceiling +
        (grow holders policy target st i).free := by
  have hgain : commitOf holders policy st.ceiling i +
      min (target.getD i 0 - commitOf holders policy st.ceiling i) st.free ≤
      commitOf holders policy (grow holders policy target st i).ceiling i := by
    rw [commitOf_active hi hact (grow holders policy target st i).ceiling,
      grow_ceiling_self hg hc, grow_granted_self hg, commitOf_active hi hact]
    simp only [Nat.max_def, Nat.min_def]
    split_ifs <;> omega
  have hlt : i < holders.length := (List.getElem?_eq_some_iff.1 hi).1
  have hsum : committed holders policy st.ceiling +
      min (target.getD i 0 - commitOf holders policy st.ceiling i) st.free ≤
      committed holders policy (grow holders policy target st i).ceiling := by
    refine add_le_sum_range (fun j hj => ?_) hgain hlt
    exact commitOf_mono (Nat.le_of_eq (grow_other _ _ _ st (Ne.symm hj)).2.symm)
  have hfree : (grow holders policy target st i).free =
      st.free - min (target.getD i 0 - commitOf holders policy st.ceiling i) st.free := rfl
  omega

theorem grow_short (hi : holders[i]? = some h) (hact : h.active policy = true)
    (hg : i < st.granted.length) (hc : i < st.ceiling.length)
    (hshort : (grow holders policy target st i).granted.getD i 0 < target.getD i 0) :
    (grow holders policy target st i).free = 0 ∧
      commitOf holders policy (grow holders policy target st i).ceiling i =
        (grow holders policy target st i).granted.getD i 0 ∧
      (grow holders policy target st i).granted.getD i 0 ≤
        (grow holders policy target st i).ceiling.getD i 0 := by
  have hfree : (grow holders policy target st i).free =
      st.free - min (target.getD i 0 - commitOf holders policy st.ceiling i) st.free := rfl
  have hceiling : st.ceiling.getD i 0 ≤ commitOf holders policy st.ceiling i := by
    rw [commitOf_active hi hact]
    exact Nat.le_max_left _ _
  have hrunning : h.running ≤ commitOf holders policy st.ceiling i := by
    rw [commitOf_active hi hact]
    exact Nat.le_max_right _ _
  have hself : (grow holders policy target st i).granted.getD i 0 = _ := grow_granted_self hg
  refine ⟨by omega, ?_, ?_⟩
  · rw [commitOf_active hi hact, grow_ceiling_self hg hc]
    apply Nat.le_antisymm
    · exact Nat.max_le.2 ⟨Nat.max_le.2 ⟨by omega, Nat.le_refl _⟩, by omega⟩
    · exact (Nat.le_max_right _ _).trans (Nat.le_max_left _ _)
  · rw [grow_ceiling_self hg hc]
    exact Nat.le_max_right _ _

end Grow

structure Growth.Filled (holders : List (HolderState ι)) (policy : AllocatorPolicy)
    (target : List Nat) (done : List Nat) (start st : Growth) : Prop where
  granted_length : st.granted.length = holders.length
  ceiling_length : st.ceiling.length = holders.length
  le_target : ∀ j, st.granted.getD j 0 ≤ target.getD j 0
  spent : committed holders policy start.ceiling + start.free ≤
    committed holders policy st.ceiling + st.free
  full : ∀ j ∈ done, st.granted.getD j 0 < target.getD j 0 → st.free = 0 ∧
    commitOf holders policy st.ceiling j = st.granted.getD j 0 ∧
    st.granted.getD j 0 ≤ st.ceiling.getD j 0
  untouched : ∀ j, j ∉ done → st.granted.getD j 0 = start.granted.getD j 0 ∧
    st.ceiling.getD j 0 = start.ceiling.getD j 0

namespace Growth.Filled

variable {holders : List (HolderState ι)} {policy : AllocatorPolicy} {target done : List Nat}
  {start st : Growth}

theorem grow (hf : Growth.Filled holders policy target done start st) {i : Nat}
    {h : HolderState ι} (hi : holders[i]? = some h) (hact : h.active policy = true) :
    Growth.Filled holders policy target (i :: done) start
      (Quota.grow holders policy target st i) := by
  have hlt : i < holders.length := (List.getElem?_eq_some_iff.1 hi).1
  have hg : i < st.granted.length := by rw [hf.granted_length]; exact hlt
  have hc : i < st.ceiling.length := by rw [hf.ceiling_length]; exact hlt
  refine ⟨?_, ?_, grow_le_target hg hf.le_target, ?_, ?_, ?_⟩
  · rw [grow_granted_length, hf.granted_length]
  · rw [grow_ceiling_length, hf.ceiling_length]
  · exact hf.spent.trans (grow_spent hi hact hg hc)
  · intro j hj hshort
    by_cases hij : i = j
    · subst hij
      exact grow_short hi hact hg hc hshort
    · have hj' : j ∈ done := (List.mem_cons.1 hj).resolve_left (Ne.symm hij)
      obtain ⟨hgj, hcj⟩ := grow_other holders policy target st hij
      rw [hgj] at hshort ⊢
      obtain ⟨hfree, hcommit, hfits⟩ := hf.full j hj' hshort
      refine ⟨?_, ?_, by rw [hcj]; exact hfits⟩
      · have := grow_free_le holders policy target st i
        omega
      · rw [← hcommit]
        apply Nat.le_antisymm
        · exact commitOf_mono (Nat.le_of_eq hcj)
        · exact commitOf_mono (Nat.le_of_eq hcj.symm)
  · intro j hj
    obtain ⟨hij, hj'⟩ := not_or.1 (fun h' => hj (List.mem_cons.2 h'))
    obtain ⟨hgj, hcj⟩ := grow_other holders policy target st (Ne.symm hij)
    rw [hgj, hcj]
    exact hf.untouched j hj'

theorem foldl (hf : Growth.Filled holders policy target done start st) (is : List Nat)
    (hact : ∀ i ∈ is, ∃ h, holders[i]? = some h ∧ h.active policy = true) :
    Growth.Filled holders policy target (is.reverse ++ done) start
      (is.foldl (Quota.grow holders policy target) st) := by
  induction is generalizing done st with
  | nil => exact hf
  | cons i _ ih =>
    obtain ⟨h, hi, hactive⟩ := hact i (.head _)
    have hrest := ih (hf.grow hi hactive) fun j hj => hact j (.tail _ hj)
    rw [foldl_cons, reverse_cons, append_assoc, singleton_append]
    exact hrest

end Growth.Filled

section Lowered

variable {policy : AllocatorPolicy}

theorem lowered_le_target (h : HolderState ι) (t : Nat) : (lowered policy h t).1 ≤ t := by
  simp only [lowered]
  split_ifs <;> omega

theorem lowered_active {h : HolderState ι} (hact : h.active policy = true) {t : Nat}
    (hle : h.granted ≤ t) : lowered policy h t = (h.granted, h.ceiling) := by
  simp [lowered, hact, Nat.not_lt.2 hle]

theorem lowered_inactive {h : HolderState ι} (hact : h.active policy = false) (t : Nat) :
    lowered policy h t = (0, 0) := by
  simp [lowered, hact]

end Lowered

section Pass

variable [LinearOrder ι] {max leased : Nat} {holders : List (HolderState ι)}
  {policy : AllocatorPolicy} {target : List Nat}

def settleStart (max leased : Nat) (holders : List (HolderState ι)) (policy : AllocatorPolicy)
    (target : List Nat) : Growth :=
  let pairs := List.zipWith (lowered policy) holders target
  ⟨(max - leased) - committed holders policy (pairs.map Prod.snd), pairs.map Prod.fst,
    pairs.map Prod.snd⟩

/-- The holders below their target, in the order of the increases. -/
def growingOrder (holders : List (HolderState ι)) (target granted : List Nat) : List Nat :=
  ((List.range holders.length).filter fun i => granted.getD i 0 < target.getD i 0).insertionSort
    (growsBefore holders granted)

theorem settle_eq (max leased : Nat) (holders : List (HolderState ι)) (policy : AllocatorPolicy)
    (target : List Nat) :
    settle max leased holders policy target =
      (growingOrder holders target (settleStart max leased holders policy target).granted).foldl
        (grow holders policy target) (settleStart max leased holders policy target) := rfl

theorem mem_growingOrder {granted : List Nat} {i : Nat} :
    i ∈ growingOrder holders target granted ↔
      i < holders.length ∧ granted.getD i 0 < target.getD i 0 := by
  rw [growingOrder, mem_insertionSort, mem_filter, mem_range, decide_eq_true_eq]

omit [LinearOrder ι] in
theorem settleStart_getD (hlen : target.length = holders.length) {i : Nat} {h : HolderState ι}
    (hi : holders[i]? = some h) :
    (settleStart max leased holders policy target).granted.getD i 0 =
        (lowered policy h (target.getD i 0)).1 ∧
      (settleStart max leased holders policy target).ceiling.getD i 0 =
        (lowered policy h (target.getD i 0)).2 := lowered_getD policy hlen hi

omit [LinearOrder ι] in
theorem settleStart_filled (max leased : Nat) (hlen : target.length = holders.length) :
    Growth.Filled holders policy target [] (settleStart max leased holders policy target)
      (settleStart max leased holders policy target) := by
  refine ⟨?_, ?_, ?_, Nat.le_refl _, by simp, fun _ _ => ⟨rfl, rfl⟩⟩
  · simp [settleStart, hlen]
  · simp [settleStart, hlen]
  · intro j
    cases hj : holders[j]? with
    | some h =>
      rw [(settleStart_getD hlen hj).1]
      exact lowered_le_target h _
    | none =>
      have hlt : holders.length ≤ j := getElem?_eq_none_iff.1 hj
      have hnone : (settleStart max leased holders policy target).granted[j]? = none := by
        simpa [settleStart, hlen] using hlt
      rw [getD_eq_getElem?_getD, hnone]
      exact Nat.zero_le _

/-- The turn of this holder would change nothing. -/
structure Settled (holders : List (HolderState ι)) (policy : AllocatorPolicy) (target : List Nat)
    (st : Growth) (i : Nat) (h : HolderState ι) : Prop where
  le_target : st.granted.getD i 0 ≤ target.getD i 0
  full : st.granted.getD i 0 < target.getD i 0 → st.free = 0 ∧
    commitOf holders policy st.ceiling i = st.granted.getD i 0 ∧
    st.granted.getD i 0 ≤ st.ceiling.getD i 0
  cleared : h.active policy = false → st.granted.getD i 0 = 0 ∧ st.ceiling.getD i 0 = 0

theorem settle_settled (max leased : Nat) (hlen : target.length = holders.length)
    (hidle : ∀ i h, holders[i]? = some h → h.active policy = false → target.getD i 0 = 0) :
    max - leased ≤ committed holders policy (settle max leased holders policy target).ceiling +
        (settle max leased holders policy target).free ∧
      ∀ i h, holders[i]? = some h →
        Settled holders policy target (settle max leased holders policy target) i h := by
  have hgrowing : ∀ i ∈ growingOrder holders target
      (settleStart max leased holders policy target).granted,
      ∃ h, holders[i]? = some h ∧ h.active policy = true := by
    intro i hi
    obtain ⟨hlt, hshort⟩ := mem_growingOrder.1 hi
    have hget : holders[i]? = some holders[i] := List.getElem?_eq_getElem hlt
    refine ⟨holders[i], hget, ?_⟩
    by_contra hact
    rw [hidle i _ hget (by simpa using hact)] at hshort
    exact Nat.not_lt_zero _ hshort
  have hfilled := (settleStart_filled max leased hlen).foldl _ hgrowing
  rw [← settle_eq, List.append_nil] at hfilled
  refine ⟨?_, fun i h hi => ⟨hfilled.le_target i, ?_, ?_⟩⟩
  · have hspent := hfilled.spent
    simp only [settleStart] at hspent
    omega
  · intro hshort
    refine hfilled.full i ?_ hshort
    -- a holder that did not grow had its target before
    by_contra hnot
    obtain ⟨hsame, -⟩ := hfilled.untouched i hnot
    rw [hsame] at hshort
    rw [List.mem_reverse] at hnot
    exact hnot (mem_growingOrder.2 ⟨(List.getElem?_eq_some_iff.1 hi).1, hshort⟩)
  · intro hact
    have hnot : i ∉ (growingOrder holders target
        (settleStart max leased holders policy target).granted).reverse := by
      intro hmem
      obtain ⟨h', hi', hact'⟩ := hgrowing i (List.mem_reverse.1 hmem)
      rw [hi] at hi'
      cases hi'
      rw [hact] at hact'
      cases hact'
    obtain ⟨hg, hc⟩ := hfilled.untouched i hnot
    obtain ⟨hg', hc'⟩ := settleStart_getD hlen hi
    rw [hg, hc, hg', hc', lowered_inactive hact]
    exact ⟨rfl, rfl⟩

end Pass

/-! ## The second pass -/

section Again

variable {holders : List (HolderState ι)} {policy : AllocatorPolicy} {target gs cs : List Nat}

variable {st : Growth}

theorem grow_idle {i : Nat} (hfree : st.free = 0)
    (hcommit : commitOf holders policy st.ceiling i = st.granted.getD i 0)
    (hfits : st.granted.getD i 0 ≤ st.ceiling.getD i 0) : grow holders policy target st i = st := by
  have hgranted : max (min (st.granted.getD i 0 +
      min (target.getD i 0 - st.granted.getD i 0) 0) (target.getD i 0)) (st.granted.getD i 0) =
      st.granted.getD i 0 := by omega
  have hceiling : max (st.ceiling.getD i 0) (st.granted.getD i 0) = st.ceiling.getD i 0 :=
    Nat.max_eq_left hfits
  simp only [grow, hcommit, hfree, hgranted, hceiling, set_getD_self, Nat.zero_sub]
  rw [← hfree]

theorem foldl_grow_idle {is : List Nat} (h : ∀ i ∈ is, grow holders policy target st i = st) :
    is.foldl (grow holders policy target) st = st := by
  induction is with
  | nil => rfl
  | cons i _ ih =>
    rw [foldl_cons, h i (.head _)]
    exact ih fun j hj => h j (.tail _ hj)

theorem changedOf_rowsWith (hs : List (HolderState ι)) (gs cs : List Nat) :
    changedOf (rowsWith hs gs cs) gs cs = [] := by
  induction hs generalizing gs cs with
  | nil => cases gs <;> cases cs <;> rfl
  | cons _ _ ih =>
    cases gs with
    | nil => rfl
    | cons =>
      cases cs with
      | nil => rfl
      | cons => simp [rowsWith, changedOf, ih]

theorem commitOf_rowsWith (hg : gs.length = holders.length) (hc : cs.length = holders.length)
    (c : List Nat) (i : Nat) :
    commitOf (rowsWith holders gs cs) policy c i = commitOf holders policy c i := by
  unfold commitOf
  rw [rowsWith_getElem? hg hc]
  cases holders[i]? with
  | none => rfl
  | some => rfl

theorem committed_rowsWith (hg : gs.length = holders.length) (hc : cs.length = holders.length)
    (c : List Nat) :
    committed (rowsWith holders gs cs) policy c = committed holders policy c := by
  unfold committed
  rw [rowsWith_length hg hc]
  congr 1
  apply map_congr_left
  intro i _
  exact commitOf_rowsWith hg hc c i

theorem targets_rowsWith (max : Nat) (hg : gs.length = holders.length)
    (hc : cs.length = holders.length) :
    targets max (rowsWith holders gs cs) policy = targets max holders policy := by
  have hmap : ∀ {α : Type} (f : HolderState ι → α),
      (∀ (h : HolderState ι) (g c : Nat), f { h with granted := g, ceiling := c } = f h) →
      (rowsWith holders gs cs).map f = holders.map f := by
    intro α f hf
    apply ext_getElem?
    intro i
    rw [getElem?_map, getElem?_map, rowsWith_getElem? hg hc]
    cases holders[i]? with
    | none => rfl
    | some h => exact congrArg some (hf h _ _)
  unfold targets
  rw [hmap (fun h => h.active policy) fun _ _ _ => rfl,
    hmap (fun h => h.running + h.waiting) fun _ _ _ => rfl, rowsWith_length hg hc]

theorem settleStart_again {max leased : Nat} (hlen : target.length = holders.length)
    (hg : st.granted.length = holders.length) (hc : st.ceiling.length = holders.length)
    (hsettled : ∀ i h, holders[i]? = some h → Settled holders policy target st i h) :
    settleStart max leased (rowsWith holders st.granted st.ceiling) policy target =
      ⟨(max - leased) - committed holders policy st.ceiling, st.granted, st.ceiling⟩ := by
  have hrow : ∀ i h, holders[i]? = some h →
      lowered policy { h with granted := st.granted.getD i 0, ceiling := st.ceiling.getD i 0 }
        (target.getD i 0) = (st.granted.getD i 0, st.ceiling.getD i 0) := by
    intro i h hi
    have hs := hsettled i h hi
    -- the row after the pass is active if it was before
    have hsame : ∀ g c, ({ h with granted := g, ceiling := c } : HolderState ι).active policy =
        h.active policy := fun _ _ => rfl
    cases hact : h.active policy with
    | true =>
      apply lowered_active ((hsame _ _).trans hact)
      exact hs.le_target
    | false =>
      rw [lowered_inactive ((hsame _ _).trans hact), (hs.cleared hact).1, (hs.cleared hact).2]
  have hpairs : List.zipWith (lowered policy) (rowsWith holders st.granted st.ceiling) target =
      st.granted.zip st.ceiling := by
    apply List.ext_getElem?
    intro i
    rw [List.getElem?_zipWith, rowsWith_getElem? hg hc, List.zip, List.getElem?_zipWith]
    cases hi : holders[i]? with
    | none =>
      have hle : holders.length ≤ i := List.getElem?_eq_none_iff.1 hi
      rw [List.getElem?_eq_none (hg ▸ hle : st.granted.length ≤ i)]
      rfl
    | some h =>
      have hlt : i < holders.length := (List.getElem?_eq_some_iff.1 hi).1
      rw [getElem?_eq_getD (hlen ▸ hlt : i < target.length) 0,
        getElem?_eq_getD (hg ▸ hlt : i < st.granted.length) 0,
        getElem?_eq_getD (hc ▸ hlt : i < st.ceiling.length) 0]
      exact congrArg some (hrow i h hi)
  simp only [settleStart, hpairs, List.map_fst_zip (Nat.le_of_eq (hg.trans hc.symm)),
    List.map_snd_zip (Nat.le_of_eq (hc.trans hg.symm)), committed_rowsWith hg hc]

variable [LinearOrder ι]

theorem settle_again {max leased : Nat} (hlen : target.length = holders.length)
    (hg : st.granted.length = holders.length) (hc : st.ceiling.length = holders.length)
    (hspent : max - leased ≤ committed holders policy st.ceiling + st.free)
    (hsettled : ∀ i h, holders[i]? = some h → Settled holders policy target st i h) :
    settle max leased (rowsWith holders st.granted st.ceiling) policy target =
      ⟨(max - leased) - committed holders policy st.ceiling, st.granted, st.ceiling⟩ := by
  rw [settle_eq, settleStart_again hlen hg hc hsettled]
  apply foldl_grow_idle
  intro i hi
  obtain ⟨hlt, hshort⟩ := mem_growingOrder.1 hi
  rw [rowsWith_length hg hc] at hlt
  obtain ⟨hfree, hcommit, hfits⟩ :=
    (hsettled i holders[i] (getElem?_eq_getElem hlt)).full hshort
  refine grow_idle ?_ ?_ hfits
  · dsimp only
    omega
  · rw [commitOf_rowsWith hg hc]
    exact hcommit

/-- A second pass over the rows of the first changes nothing. -/
theorem allocate_fixpoint (max leased : Nat) (holders : List (HolderState ι))
    (policy : AllocatorPolicy) (hnd : (holders.map (·.instanceId)).Nodup) :
    let a := allocate max leased holders policy
    let after := holders.map (granted a.changed)
    let again := allocate max leased after policy
    (again.changed = [] ∧ again.quotaCommitted = a.quotaCommitted ∧
      again.quotaWanted = a.quotaWanted) ∧
    (∀ i h, after[i]? = some h → h.active policy = true →
      h.granted ≤ (targets max holders policy).getD i 0) ∧
    ((∀ i h, after[i]? = some h → h.active policy = true →
      h.granted = (targets max holders policy).getD i 0) ∨ max ≤ a.quotaCommitted + leased) := by
  intro a after again
  obtain ⟨hg, hc⟩ := settle_targets_length max leased holders policy
  have hlen := targets_length max holders policy
  obtain ⟨hspent, hsettled⟩ := settle_settled max leased hlen fun i h => targets_inactive
  have hafter : after = rowsAfter max leased holders policy := (rowsAfter_eq_map hnd).symm
  have hrow : ∀ i h, after[i]? = some h → ∃ h₀, holders[i]? = some h₀ ∧ h.granted =
      (settle max leased holders policy (targets max holders policy)).granted.getD i 0 := by
    intro i h hi
    rw [hafter, rowsAfter, rowsWith_getElem? hg hc] at hi
    obtain ⟨h₀, hh₀, rfl⟩ := Option.map_eq_some_iff.1 hi
    exact ⟨h₀, hh₀, rfl⟩
  refine ⟨?_, ?_, ?_⟩
  · have hagain : settle max leased after policy (targets max after policy) =
        ⟨(max - leased) - committed holders policy
            (settle max leased holders policy (targets max holders policy)).ceiling,
          (settle max leased holders policy (targets max holders policy)).granted,
          (settle max leased holders policy (targets max holders policy)).ceiling⟩ := by
      rw [hafter, rowsAfter, targets_rowsWith max hg hc]
      exact settle_again hlen hg hc hspent hsettled
    simp only [again, a, allocate, hagain]
    rw [hafter, rowsAfter, changedOf_rowsWith, targets_rowsWith max hg hc,
      committed_rowsWith hg hc]
    exact ⟨rfl, rfl, rfl⟩
  · intro i h hi _
    obtain ⟨h₀, hh₀, hgranted⟩ := hrow i h hi
    rw [hgranted]
    exact (hsettled i h₀ hh₀).le_target
  · by_cases hfull : (settle max leased holders policy (targets max holders policy)).free = 0
    · right
      have hcommitted : a.quotaCommitted = committed holders policy
        (settle max leased holders policy (targets max holders policy)).ceiling := rfl
      omega
    · left
      intro i h hi _
      obtain ⟨h₀, hh₀, hgranted⟩ := hrow i h hi
      have hs := hsettled i h₀ hh₀
      rw [hgranted]
      refine Nat.le_antisymm hs.le_target (Nat.not_lt.1 fun hshort => ?_)
      exact hfull (hs.full hshort).1

end Again

/-! ## In 64 bits

`allocate` adds in natural numbers. The code adds in `u64`: a holder's demand saturates, and the
sums of the commits and of the lease and its margin wrap. -/

section Machine

/-- `running.saturating_add(waiting)`: the waiting queries that still count. -/
def HolderState.saturated (h : HolderState ι) : HolderState ι :=
  { h with waiting := min h.waiting (2 ^ 64 - 1 - h.running) }

/-- `lease_secs + margin_secs`, which wraps. -/
def AllocatorPolicy.wrapped (policy : AllocatorPolicy) : AllocatorPolicy :=
  { policy with leaseSecs := (policy.leaseSecs + policy.marginSecs) % 2 ^ 64, marginSecs := 0 }

def targets64 (max : Nat) (holders : List (HolderState ι)) (policy : AllocatorPolicy) : List Nat :=
  targets max (holders.map HolderState.saturated) policy.wrapped

variable [LinearOrder ι]

def settle64 (max leased : Nat) (holders : List (HolderState ι)) (policy : AllocatorPolicy)
    (target : List Nat) : Growth :=
  let start := settleStart max leased holders policy target
  let free := (max - leased) - committed holders policy start.ceiling % 2 ^ 64
  (growingOrder holders target start.granted).foldl (grow holders policy target)
    { start with free }

/-- `allocate` as the machine computes it. -/
def allocate64 (max leased : Nat) (holders : List (HolderState ι)) (policy : AllocatorPolicy) :
    ClusterAllocation ι :=
  let target := targets64 max holders policy
  let st := settle64 max leased holders policy.wrapped target
  let quotaCommitted := committed holders policy.wrapped st.ceiling % 2 ^ 64
  let deficit := (List.zipWith (· - ·) target st.granted).sum
  { changed := changedOf holders st.granted st.ceiling
    quotaCommitted
    quotaWanted := min deficit (max - policy.reserve max - quotaCommitted) }

variable {max leased : Nat} {holders : List (HolderState ι)} {policy : AllocatorPolicy}

omit [LinearOrder ι] in
theorem commitOf_saturated (c : List Nat) (i : Nat) :
    commitOf (holders.map HolderState.saturated) policy c i = commitOf holders policy c i := by
  unfold commitOf
  rw [getElem?_map]
  cases holders[i]? with
  | none => rfl
  | some => rfl

omit [LinearOrder ι] in
theorem committed_saturated (c : List Nat) :
    committed (holders.map HolderState.saturated) policy c = committed holders policy c := by
  unfold committed
  rw [length_map]
  congr 1
  exact map_congr_left fun i _ => commitOf_saturated c i

omit [LinearOrder ι] in
theorem zipWith_lowered_saturated (target : List Nat) :
    List.zipWith (lowered policy) (holders.map HolderState.saturated) target =
      List.zipWith (lowered policy) holders target := by
  rw [zipWith_map_left]
  rfl

omit [LinearOrder ι] in
theorem changedOf_saturated :
    ∀ (holders : List (HolderState ι)) (gs cs : List Nat),
      changedOf (holders.map HolderState.saturated) gs cs = changedOf holders gs cs := by
  intro holders
  induction holders with
  | nil => intro gs cs; rfl
  | cons h _ ih =>
    intro gs cs
    cases gs with
    | nil => rfl
    | cons g gs =>
      cases cs with
      | nil => rfl
      | cons c cs =>
        simp only [map_cons, changedOf, ih]
        rfl

theorem growsBefore_saturated (granted : List Nat) (i j : Nat) :
    growsBefore (holders.map HolderState.saturated) granted i j ↔
      growsBefore holders granted i j := by
  unfold growsBefore
  rw [getElem?_map, getElem?_map]
  cases holders[i]? with
  | none => simp
  | some =>
    cases holders[j]? with
    | none => simp
    | some => simp [HolderState.saturated]

theorem growingOrder_saturated (target granted : List Nat) :
    growingOrder (holders.map HolderState.saturated) target granted =
      growingOrder holders target granted := by
  unfold growingOrder
  rw [length_map]
  have hrel : growsBefore (holders.map HolderState.saturated) granted =
      growsBefore holders granted := by
    funext i j
    exact propext (growsBefore_saturated granted i j)
  congr

omit [LinearOrder ι] in
theorem grow_saturated (target : List Nat) :
    grow (holders.map HolderState.saturated) policy target = grow holders policy target := by
  funext st i
  unfold grow
  rw [commitOf_saturated]

theorem settle_saturated (target : List Nat) :
    settle max leased (holders.map HolderState.saturated) policy target =
      settle max leased holders policy target := by
  rw [settle_eq, settle_eq, growingOrder_saturated, grow_saturated]
  simp only [settleStart, zipWith_lowered_saturated, committed_saturated]

/-- Where the sums of the commits fit, the machine computes what `allocate` says. -/
theorem allocate64_eq
    (hbefore : (holders.map fun h => h.commit policy.wrapped).sum < 2 ^ 64)
    (hafter : (allocate max leased (holders.map HolderState.saturated)
      policy.wrapped).quotaCommitted < 2 ^ 64) :
    allocate64 max leased holders policy =
      allocate max leased (holders.map HolderState.saturated) policy.wrapped := by
  have hlen : (targets64 max holders policy).length = holders.length := by
    rw [targets64, targets_length, length_map]
  have hsettle : settle64 max leased holders policy.wrapped (targets64 max holders policy) =
      settle max leased holders policy.wrapped (targets64 max holders policy) := by
    have hstart : committed holders policy.wrapped
        (settleStart max leased holders policy.wrapped (targets64 max holders policy)).ceiling <
          2 ^ 64 := by
      rw [settleStart, committed_lowered hlen]
      exact hbefore
    rw [settle_eq, settle64, Nat.mod_eq_of_lt hstart]
    rfl
  have hsum : committed holders policy.wrapped
      (settle max leased holders policy.wrapped (targets64 max holders policy)).ceiling <
        2 ^ 64 := by
    simp only [allocate, settle_saturated, committed_saturated] at hafter
    exact hafter
  simp only [allocate64, allocate, hsettle, Nat.mod_eq_of_lt hsum, settle_saturated,
    committed_saturated, changedOf_saturated]
  rfl

/-- Where the sums of the commits fit, a second pass changes nothing, and the first leaves every
active holder at most at its target, all of them at it unless the capacity is committed. -/
theorem allocate64_fixpoint (max leased : Nat) (holders : List (HolderState ι))
    (policy : AllocatorPolicy) (hnd : (holders.map (·.instanceId)).Nodup)
    (hbefore : (holders.map fun h => h.commit policy.wrapped).sum < 2 ^ 64)
    (hafter : (allocate max leased (holders.map HolderState.saturated)
      policy.wrapped).quotaCommitted < 2 ^ 64) :
    let a := allocate64 max leased holders policy
    let after := holders.map (granted a.changed)
    let again := allocate64 max leased after policy
    (again.changed = [] ∧ again.quotaCommitted = a.quotaCommitted ∧
      again.quotaWanted = a.quotaWanted) ∧
    (∀ i h, after[i]? = some h → h.active policy.wrapped = true →
      h.granted ≤ (targets64 max holders policy).getD i 0) ∧
    ((∀ i h, after[i]? = some h → h.active policy.wrapped = true →
      h.granted = (targets64 max holders policy).getD i 0) ∨
      max ≤ a.quotaCommitted + leased) := by
  intro a after again
  have ha : a = allocate max leased (holders.map HolderState.saturated) policy.wrapped :=
    allocate64_eq hbefore hafter
  have hnd' : ((holders.map HolderState.saturated).map (·.instanceId)).Nodup := by
    rw [map_map]
    exact hnd
  have hrows : after.map HolderState.saturated =
      (holders.map HolderState.saturated).map (granted a.changed) := by
    rw [map_map, map_map]
    rfl
  obtain ⟨hagain, hle, hfull⟩ := allocate_fixpoint max leased (holders.map HolderState.saturated)
    policy.wrapped hnd'
  rw [← ha, ← hrows] at hagain hle hfull
  have hrow : ∀ (i : Nat) (h : HolderState ι), after[i]? = some h →
      (after.map HolderState.saturated)[i]? = some h.saturated := by
    intro i h hi
    rw [getElem?_map, hi]
    rfl
  have heq : again =
      allocate max leased (after.map HolderState.saturated) policy.wrapped := by
    refine allocate64_eq ?_ ?_
    · have hsum : (allocate max leased (holders.map HolderState.saturated)
          policy.wrapped).quotaCommitted = _ := allocate_committed_rowsAfter
      rw [rowsAfter_eq_map hnd', ← ha, ← hrows, map_map] at hsum
      rw [← ha, hsum] at hafter
      exact hafter
    · rw [hagain.2.1, ha]
      exact hafter
  refine ⟨?_, fun i h hi hact => hle i h.saturated (hrow i h hi) hact, ?_⟩
  · rw [heq]
    exact hagain
  · rcases hfull with hall | hcommitted
    · exact .inl fun i h hi hact => hall i h.saturated (hrow i h hi) hact
    · exact .inr hcommitted

/-- Three holders, one of them silent. -/
theorem allocate64_fixpoint_sample :
    (allocate64 10 1 (sampleHolders.map
      (granted (allocate64 10 1 sampleHolders ⟨fun _ => 1, 15, 5⟩).changed))
      ⟨fun _ => 1, 15, 5⟩).changed = [] := by
  have hafter : (allocate 10 1 (sampleHolders.map HolderState.saturated)
      (AllocatorPolicy.wrapped ⟨fun _ => 1, 15, 5⟩)).quotaCommitted < 2 ^ 64 := by decide +kernel
  exact (allocate64_fixpoint 10 1 sampleHolders ⟨fun _ => 1, 15, 5⟩ (by decide) (by decide)
    hafter).1.1

/-- Two holders, one of which reports `2 ^ 64 - 3` running queries. -/
def crowdedHolders : List (HolderState Nat) :=
  [⟨1, 2 ^ 64 - 3, 0, 0, 0, 0⟩, ⟨2, 0, 20, 3, 0, 0⟩]

/-- The sum of the commits wraps to 0 after the pass: the second holder stays below its target with
nothing committed, and the next pass raises it. -/
theorem wrapped_sum_changes_again :
    let policy : AllocatorPolicy := ⟨fun _ => 0, 15, 5⟩
    let a := allocate64 10 0 crowdedHolders policy
    let after := crowdedHolders.map (granted a.changed)
    (crowdedHolders.map (·.instanceId)).Nodup ∧ a.quotaCommitted = 0 ∧
      targets64 10 crowdedHolders policy = [5, 5] ∧ after.map (·.granted) = [5, 3] ∧
      (allocate64 10 0 after policy).changed = [⟨2, 5, 5⟩] := by
  decide +kernel

end Machine

end QueryFlux.Quota
