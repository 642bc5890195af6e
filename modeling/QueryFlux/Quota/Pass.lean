import QueryFlux.Quota.AllocateSpec

/-!
# One pass of the allocator never over-commits

The rows after a pass are those before it with the grants and ceilings the pass computed
(`rowsAfter`); `changed` names the ones that differ. Where no two rows have one instance id, this is
what the `UPDATE` by id writes (`rowsAfter_eq_map`). `never_overcommits` says what a pass makes of
any rows whose grants are within their ceilings.
-/

namespace QueryFlux.Quota

open QueryFlux.Lib List

/-! ## Rows after a pass -/

variable {ι : Type}

def rowsWith : List (HolderState ι) → List Nat → List Nat → List (HolderState ι)
  | h :: hs, g :: gs, c :: cs => { h with granted := g, ceiling := c } :: rowsWith hs gs cs
  | _, _, _ => []

/-- The change to write for a row, if there is one. -/
def reported (h h' : HolderState ι) : Option (Allocation ι) :=
  if h'.granted ≠ h.granted ∨ h'.ceiling ≠ h.ceiling then
    some ⟨h'.instanceId, h'.granted, h'.ceiling⟩
  else none

/-- Only the grant and the ceiling of a row may differ. -/
structure Regranted (h h' : HolderState ι) : Prop where
  instanceId : h'.instanceId = h.instanceId
  running : h'.running = h.running
  waiting : h'.waiting = h.waiting
  silentSecs : h'.silentSecs = h.silentSecs

section RowsWith

variable {hs : List (HolderState ι)} {gs cs : List Nat}

section
variable (hg : gs.length = hs.length)
include hg

theorem rowsWith_length (hc : cs.length = hs.length) : (rowsWith hs gs cs).length = hs.length := by
  induction hs generalizing gs cs with
  | nil => simp [rowsWith]
  | cons _ _ ih =>
    obtain ⟨g, gs, rfl⟩ := exists_cons_of_length_eq_add_one hg
    obtain ⟨c, cs, rfl⟩ := exists_cons_of_length_eq_add_one hc
    simp only [length_cons, Nat.add_right_cancel_iff] at hg hc
    simp [rowsWith, ih hg hc]

theorem rowsWith_getElem? (hc : cs.length = hs.length) (i : Nat) : (rowsWith hs gs cs)[i]? =
      hs[i]?.map fun h => { h with granted := gs.getD i 0, ceiling := cs.getD i 0 } := by
  induction hs generalizing gs cs i with
  | nil => simp [rowsWith]
  | cons _ _ ih =>
    obtain ⟨g, gs, rfl⟩ := exists_cons_of_length_eq_add_one hg
    obtain ⟨c, cs, rfl⟩ := exists_cons_of_length_eq_add_one hc
    simp only [length_cons, Nat.add_right_cancel_iff] at hg hc
    cases i with
    | zero => simp [rowsWith]
    | succ i => simpa [rowsWith] using ih hg hc i

theorem forall₂_rowsWith {R : HolderState ι → HolderState ι → Prop} (hc : cs.length = hs.length)
    (hR : ∀ i h, hs[i]? = some h → R h { h with granted := gs.getD i 0, ceiling := cs.getD i 0 }) :
    List.Forall₂ R hs (rowsWith hs gs cs) := by
  refine forall₂_iff_get.2 ⟨(rowsWith_length hg hc).symm, fun i hi hi' => ?_⟩
  have hrow : hs[i]? = some (hs.get ⟨i, hi⟩) := getElem?_eq_getElem hi
  have hafter := rowsWith_getElem? hg hc i
  rw [hrow, Option.map_some, getElem?_eq_getElem hi', Option.some_inj] at hafter
  rw [get_eq_getElem, get_eq_getElem, hafter]
  exact hR i _ hrow

theorem changedOf_eq (hc : cs.length = hs.length) :
    changedOf hs gs cs = (List.zipWith reported hs (rowsWith hs gs cs)).filterMap id := by
  induction hs generalizing gs cs with
  | nil => simp [changedOf, rowsWith]
  | cons _ _ ih =>
    obtain ⟨g, gs, rfl⟩ := exists_cons_of_length_eq_add_one hg
    obtain ⟨c, cs, rfl⟩ := exists_cons_of_length_eq_add_one hc
    simp only [length_cons, Nat.add_right_cancel_iff] at hg hc
    simp only [changedOf, rowsWith, zipWith_cons_cons, reported]
    split <;> simp [ih hg hc]

end

end RowsWith

/-! ## One pass -/

section Pass

variable [LinearOrder ι]

/-- The rows of all holders after the pass, changed or not. -/
def rowsAfter (max leased : Nat) (holders : List (HolderState ι)) (policy : AllocatorPolicy) :
    List (HolderState ι) :=
  let st := settle max leased holders policy (targets max holders policy)
  rowsWith holders st.granted st.ceiling

variable {max leased : Nat} {holders : List (HolderState ι)} {policy : AllocatorPolicy}

theorem settle_length (max leased : Nat) (holders : List (HolderState ι))
    (policy : AllocatorPolicy) {target : List Nat} (hlen : target.length = holders.length) :
    (settle max leased holders policy target).granted.length = holders.length ∧
      (settle max leased holders policy target).ceiling.length = holders.length := by
  have hfold : ∀ (is : List Nat) (st : Growth), st.granted.length = holders.length →
      st.ceiling.length = holders.length →
      (is.foldl (grow holders policy target) st).granted.length = holders.length ∧
        (is.foldl (grow holders policy target) st).ceiling.length = holders.length := by
    intro is
    induction is with
    | nil => intro st hg hc; exact ⟨hg, hc⟩
    | cons _ _ ih =>
      intro st hg hc
      exact ih _ (by rw [grow_granted_length, hg]) (by rw [grow_ceiling_length, hc])
  apply hfold
  · simp [hlen]
  · simp [hlen]

theorem settle_targets_length (max leased : Nat) (holders : List (HolderState ι))
    (policy : AllocatorPolicy) :
    (settle max leased holders policy (targets max holders policy)).granted.length =
        holders.length ∧
      (settle max leased holders policy (targets max holders policy)).ceiling.length =
        holders.length :=
  settle_length max leased holders policy (targets_length max holders policy)

theorem rowsAfter_eq_map (hnd : (holders.map (·.instanceId)).Nodup) :
    rowsAfter max leased holders policy =
      holders.map (granted (allocate max leased holders policy).changed) := by
  obtain ⟨hg, hc⟩ := settle_targets_length max leased holders policy
  apply ext_getElem?
  intro i
  rw [rowsAfter, rowsWith_getElem? hg hc, getElem?_map]
  cases hi : holders[i]? with
  | none => rfl
  | some =>
    have hnew := newGrant_changedOf hnd hg hc hi
    simp [granted, allocate, hnew]

theorem forall₂_rowsAfter {R : HolderState ι → HolderState ι → Prop}
    (hR : ∀ i h, holders[i]? = some h →
      let st := settle max leased holders policy (targets max holders policy)
      R h { h with granted := st.granted.getD i 0, ceiling := st.ceiling.getD i 0 }) :
    List.Forall₂ R holders (rowsAfter max leased holders policy) := by
  obtain ⟨hg, hc⟩ := settle_targets_length max leased holders policy
  exact forall₂_rowsWith hg hc hR

theorem allocate_changed :
    (allocate max leased holders policy).changed =
      (List.zipWith reported holders (rowsAfter max leased holders policy)).filterMap id := by
  obtain ⟨hg, hc⟩ := settle_targets_length max leased holders policy
  exact changedOf_eq hg hc

/-- The total that is reported is the one over the new rows. -/
theorem allocate_committed_rowsAfter :
    (allocate max leased holders policy).quotaCommitted =
      ((rowsAfter max leased holders policy).map fun h => h.commit policy).sum := by
  obtain ⟨hg, hc⟩ := settle_targets_length max leased holders policy
  rw [sum_map_eq_sum_range, rowsAfter, rowsWith_length hg hc]
  simp only [allocate, committed]
  congr 1
  refine map_congr_left fun i hi => ?_
  have hlt : i < holders.length := mem_range.1 hi
  have hget : holders[i]? = some holders[i] := getElem?_eq_getElem hlt
  simp only [rowsWith_getElem? hg hc, commitOf, hget, Option.map_some, Option.getD_some,
    HolderState.commit, HolderState.active]
  rfl

theorem rowsAfter_fits (max leased : Nat) (policy : AllocatorPolicy)
    (hfit : ∀ h ∈ holders, h.granted ≤ h.ceiling) :
    ∀ h ∈ rowsAfter max leased holders policy, h.granted ≤ h.ceiling := by
  have hs := settle_sound max leased (targets_length max holders policy)
    (fun i h => targets_inactive) hfit
  have hfits : Forall₂ (fun _ h' : HolderState ι => h'.granted ≤ h'.ceiling) holders
      (rowsAfter max leased holders policy) := by
    apply forall₂_rowsAfter
    intro i h _ st
    exact hs.fits i
  intro h' hh'
  obtain ⟨h, -, hfit'⟩ := forall₂_mem_right hfits hh'
  exact hfit'

/-- A pass only changes grants and ceilings. What it leaves committed is no more than before or than
the leases leave, no active holder's ceiling falls, and silent holders keep nothing. -/
theorem never_overcommits (max leased : Nat) (holders : List (HolderState ι))
    (policy : AllocatorPolicy) (hfit : ∀ h ∈ holders, h.granted ≤ h.ceiling) :
    let a := allocate max leased holders policy
    let before := (holders.map fun h => h.commit policy).sum
    ∃ after : List (HolderState ι), List.Forall₂ Regranted holders after ∧
      a.changed = (List.zipWith reported holders after).filterMap id ∧
      ((holders.map (·.instanceId)).Nodup → after = holders.map (granted a.changed)) ∧
      a.quotaCommitted = (after.map fun h => h.commit policy).sum ∧
      a.quotaCommitted ≤ Max.max before (max - leased) ∧
      (∀ h ∈ after, h.granted ≤ h.ceiling) ∧
      List.Forall₂ (fun h h' => h.active policy = true → h.ceiling ≤ h'.ceiling) holders after ∧
      List.Forall₂ (fun h h' => h.active policy = false → h'.granted = 0 ∧ h'.ceiling = 0)
        holders after ∧
      (before + leased ≤ max → a.quotaCommitted + leased ≤ max) := by
  intro a before
  have hlen := targets_length max holders policy
  have hs := settle_sound max leased hlen (fun i h => targets_inactive) hfit
  have hle : a.quotaCommitted ≤ Max.max before (max - leased) := allocate_committed_le hfit
  refine ⟨rowsAfter max leased holders policy, ?_, allocate_changed, rowsAfter_eq_map,
    allocate_committed_rowsAfter, hle, rowsAfter_fits max leased policy hfit, ?_, ?_, ?_⟩
  · apply forall₂_rowsAfter
    intro i h _ st
    exact ⟨rfl, rfl, rfl, rfl⟩
  · apply forall₂_rowsAfter
    intro i h hi st hact
    have hm := hs.mono i
    simp only [(lowered_getD policy hlen hi).2, lowered, hact, if_true] at hm
    exact hm
  · apply forall₂_rowsAfter
    intro i h hi st hact
    exact hs.cleared i h hi hact
  · intro hbefore
    omega

def sampleHolders : List (HolderState Nat) :=
  [⟨1, 2, 0, 6, 6, 0⟩, ⟨2, 1, 5, 1, 1, 0⟩, ⟨3, 1, 0, 2, 2, 60⟩]

/-- Three holders, one of them silent. -/
theorem never_overcommits_sample :
    let a := allocate 10 1 sampleHolders ⟨fun _ => 1, 15, 5⟩
    ∃ after : List (HolderState Nat), List.Forall₂ Regranted sampleHolders after ∧
      a.changed = (List.zipWith reported sampleHolders after).filterMap id ∧
      a.quotaCommitted ≤ 9 := by
  have hfit : ∀ h ∈ sampleHolders, h.granted ≤ h.ceiling := by decide
  obtain ⟨after, hrows, hchanged, -, -, hle, -⟩ :=
    never_overcommits 10 1 sampleHolders ⟨fun _ => 1, 15, 5⟩ hfit
  exact ⟨after, hrows, hchanged, hle⟩

end Pass

end QueryFlux.Quota
