import QueryFlux.Lib.Transition
import QueryFlux.Quota.MaxMin
import QueryFlux.Quota.Pass

/-!
# Is the reserve left to leases?

The targets of a pass add up to at most `max - reserve` (`sum_targets_le`). A holder grows towards
its target only, but it is paid out of all that is free of `max`, the reserve included, and a holder
whose target has dropped counts for its old ceiling until it has confirmed the new grant. So while
quota moves from one holder to another the reserve is handed out (`moving_quota_takes_reserve`).
Where no pass finds a holder above its target and another below its own, the reserve is kept over
any sequence of passes, reports and confirmations (`reserve_kept`).
-/

namespace QueryFlux.Quota

open QueryFlux.Lib List

/-! ## What is shared out -/

variable {ι : Type}

theorem sum_set_le (l : List Nat) (i v : Nat) : (l.set i v).sum ≤ l.sum + v := by
  induction l generalizing i with
  | nil => simp
  | cons _ _ ih =>
    cases i with
    | zero =>
      simp only [set_cons_zero, sum_cons]
      omega
    | succ i =>
      have := ih i
      simp only [set_cons_succ, sum_cons]
      omega

theorem sum_set_add_le (l : List Nat) (i v : Nat) : (l.set i (l.getD i 0 + v)).sum ≤ l.sum + v := by
  induction l generalizing i with
  | nil => simp
  | cons _ _ ih =>
    cases i with
    | zero =>
      simp only [set_cons_zero, sum_cons, getD_cons_zero]
      omega
    | succ i =>
      have := ih i
      simp only [set_cons_succ, sum_cons, getD_cons_succ]
      omega

theorem headroomRound_sum_le (want : List Nat) (ks : List Nat) (r : HeadroomRound) :
    (headroomRound want ks r).extra.sum + (headroomRound want ks r).left ≤
      r.extra.sum + r.left := by
  induction ks generalizing r with
  | nil => exact Nat.le_refl _
  | cons k _ ih =>
    simp only [headroomRound]
    split
    · refine (ih _).trans ?_
      have hset := sum_set_add_le r.extra k 1
      dsimp only
      omega
    · exact ih r

theorem headroomLoop_sum_le (want : List Nat) (fuel left : Nat) (extra : List Nat) :
    (headroomLoop want fuel left extra).sum ≤ extra.sum + left := by
  induction fuel generalizing left extra with
  | zero => simp [headroomLoop]
  | succ _ ih =>
    simp only [headroomLoop]
    split
    · omega
    · have hround := headroomRound_sum_le want (range want.length) ⟨left, extra, false⟩
      dsimp only at hround
      split
      · exact (ih _ _).trans hround
      · omega

theorem foldl_set_sum_le {α : Type} (f g : α → Nat) (l : List α) (t : List Nat) :
    (l.foldl (fun t a => t.set (f a) (g a)) t).sum ≤ t.sum + (l.map g).sum := by
  induction l generalizing t with
  | nil => simp
  | cons a _ ih =>
    rw [foldl_cons]
    have hrest := ih (t.set (f a) (g a))
    have hset := sum_set_le t (f a) (g a)
    simp only [map_cons, sum_cons]
    omega

theorem sum_getD_range_le (l : List Nat) (n : Nat) :
    ((List.range n).map fun k => l.getD k 0).sum ≤ l.sum := by
  induction l generalizing n with
  | nil => simp
  | cons _ _ ih =>
    cases n with
    | zero => simp
    | succ n =>
      have hrest := ih n
      rw [range_succ_eq_map, map_cons, map_map, sum_cons, sum_cons]
      simp only [getD_cons_zero, Function.comp_def, getD_cons_succ]
      omega

theorem sum_map_zipIdx {α : Type} (l : List α) (g : Nat → Nat) :
    (l.zipIdx.map fun ik => g ik.2).sum = ((List.range l.length).map g).sum := by
  rw [range_eq_range', ← zipIdx_map_snd 0 l, map_map]
  rfl

/-- The targets leave the reserve free. -/
theorem sum_targets_le (max : Nat) (holders : List (HolderState ι)) (policy : AllocatorPolicy) :
    (targets max holders policy).sum ≤ max - policy.reserve max := by
  unfold targets
  dsimp only
  generalize (range holders.length).filter
    (fun i => (holders.map fun h => h.active policy).getD i false) = active
  split
  · generalize active.map (fun i => (holders.map fun h => h.running + h.waiting).getD i 0) = demand
    generalize max - policy.reserve max = assignable
    have hfair := (maxMinFair_spec assignable demand).2.2
    generalize maxMinFair assignable demand = fair at hfair ⊢
    have hextra := headroomLoop_sum_le (demand.map fun d => Nat.max (d / 4) 1)
      (assignable - fair.sum) (assignable - fair.sum) (replicate active.length 0)
    generalize headroomLoop (demand.map fun d => Nat.max (d / 4) 1) (assignable - fair.sum)
      (assignable - fair.sum) (replicate active.length 0) = extra at hextra ⊢
    have hset := foldl_set_sum_le (fun ik : Nat × Nat => ik.1)
      (fun ik => fair.getD ik.2 0 + extra.getD ik.2 0) active.zipIdx
      (replicate holders.length 0)
    have hsplit : (active.zipIdx.map fun ik => fair.getD ik.2 0 + extra.getD ik.2 0).sum ≤
        fair.sum + extra.sum := by
      have hfairs := sum_getD_range_le fair active.length
      have hextras := sum_getD_range_le extra active.length
      rw [sum_map_zipIdx active fun k => fair.getD k 0 + extra.getD k 0, sum_map_add]
      omega
    have hzero : ∀ n, (replicate n 0).sum = 0 := by
      intro n
      simp
    rw [hzero] at hset hextra
    omega
  · simp

/-! ## A pass that moves no quota -/

section Pass

variable [LinearOrder ι] {max leased : Nat} {holders : List (HolderState ι)}
  {policy : AllocatorPolicy} {target : List Nat}

omit [LinearOrder ι] in
theorem commitOf_foldl_grow_le (is : List Nat) {st : Growth}
    (hlen : st.granted.length = st.ceiling.length)
    (hfit : ∀ j, st.granted.getD j 0 ≤ st.ceiling.getD j 0) (j : Nat) :
    commitOf holders policy (is.foldl (grow holders policy target) st).ceiling j ≤
      Max.max (commitOf holders policy st.ceiling j) (target.getD j 0) := by
  induction is generalizing st with
  | nil => exact Nat.le_max_left _ _
  | cons i _ ih =>
    rw [foldl_cons]
    have hlen' : (grow holders policy target st i).granted.length =
        (grow holders policy target st i).ceiling.length := by simpa using hlen
    have hrest := ih hlen' (grow_fits hlen i hfit)
    have hone : commitOf holders policy (grow holders policy target st i).ceiling j ≤
        Max.max (commitOf holders policy st.ceiling j) (target.getD j 0) := by
      by_cases hij : i = j
      · subst hij
        have hgrow : commitOf holders policy (grow holders policy target st i).ceiling i ≤ _ :=
          commitOf_grow_le (hfit i)
        omega
      · refine Nat.le_trans ?_ (Nat.le_max_left _ _)
        exact commitOf_mono (Nat.le_of_eq (grow_other _ _ _ st hij).2)
    omega

theorem commitOf_settle_le (max leased : Nat) (hlen : target.length = holders.length)
    (hfit : ∀ h ∈ holders, h.granted ≤ h.ceiling) {i : Nat} {h : HolderState ι}
    (hi : holders[i]? = some h) :
    commitOf holders policy (settle max leased holders policy target).ceiling i ≤
      Max.max (h.commit policy) (target.getD i 0) := by
  have hstart : commitOf holders policy
      ((zipWith (lowered policy) holders target).map Prod.snd) i = h.commit policy := by
    simp only [commitOf, hi, (lowered_getD policy hlen hi).2, HolderState.commit, lowered]
    split <;> rfl
  rw [← hstart]
  apply commitOf_foldl_grow_le
  · simp
  · exact lowered_fits_getD hlen hfit

/-- No holder is above its target while another is below its own: quota does not move from one
holder to another in this pass. -/
def Unmoved (max : Nat) (holders : List (HolderState ι)) (policy : AllocatorPolicy) : Prop :=
  (∀ ht ∈ holders.zip (targets max holders policy), ht.1.commit policy ≤ ht.2) ∨
    ∀ ht ∈ holders.zip (targets max holders policy), ht.2 ≤ ht.1.commit policy

instance (max : Nat) (holders : List (HolderState ι)) (policy : AllocatorPolicy) :
    Decidable (Unmoved max holders policy) := inferInstanceAs (Decidable (_ ∨ _))

omit [LinearOrder ι] in
theorem mem_zip_targets {i : Nat} {h : HolderState ι} (hi : holders[i]? = some h) :
    (h, (targets max holders policy).getD i 0) ∈ holders.zip (targets max holders policy) := by
  have hlt : i < (targets max holders policy).length := by
    rw [targets_length]
    exact (List.getElem?_eq_some_iff.1 hi).1
  apply List.mem_of_getElem? (i := i)
  rw [List.getElem?_zip_eq_some]
  exact ⟨hi, getElem?_eq_getD hlt 0⟩

/-- If no quota moves, what is committed stays within the targets. -/
theorem allocate_committed_le_of_unmoved (leased : Nat)
    (hfit : ∀ h ∈ holders, h.granted ≤ h.ceiling) (hunmoved : Unmoved max holders policy) :
    (allocate max leased holders policy).quotaCommitted ≤
      Max.max (max - policy.reserve max) (holders.map fun h => h.commit policy).sum := by
  have hlen := targets_length max holders policy
  have hcommit : ∀ i, i ∈ range holders.length → ∃ h, holders[i]? = some h ∧
      commitOf holders policy
        (settle max leased holders policy (targets max holders policy)).ceiling i ≤
      Max.max (h.commit policy) ((targets max holders policy).getD i 0) := by
    intro i hi
    have hlt : i < holders.length := mem_range.1 hi
    have hget : holders[i]? = some holders[i] := getElem?_eq_getElem hlt
    exact ⟨_, hget, commitOf_settle_le max leased hlen hfit hget⟩
  rcases hunmoved with hbelow | habove
  · refine Nat.le_trans ?_ (Nat.le_max_left _ _)
    refine Nat.le_trans ?_ (sum_targets_le max holders policy)
    refine Nat.le_trans (sum_map_le fun i hi => ?_)
      (sum_getD_range_le (targets max holders policy) holders.length)
    obtain ⟨h, hget, hle⟩ := hcommit i hi
    have hle' := hbelow _ (mem_zip_targets hget)
    dsimp only at hle'
    omega
  · refine Nat.le_trans ?_ (Nat.le_max_right _ _)
    rw [sum_map_eq_sum_range holders]
    refine sum_map_le fun i hi => ?_
    obtain ⟨h, hget, hle⟩ := hcommit i hi
    have hle' := habove _ (mem_zip_targets hget)
    dsimp only at hle'
    simp only [hget, Option.map_some, Option.getD_some]
    omega

end Pass

/-! ## Runs of the rows -/

inductive RowAct
  | report (i running waiting : Nat)
  | silent (i secs : Nat)
  /-- It has confirmed its grant, and its ceiling drops to it. -/
  | confirm (i : Nat)
  | pass (leased : Nat)
deriving DecidableEq

def changeRow (holders : List (HolderState ι)) (i : Nat)
    (f : HolderState ι → Option (HolderState ι)) : Option (List (HolderState ι)) :=
  (holders[i]?.bind f).map (holders.set i)

section Rows

variable [LinearOrder ι]

/-- One step. What a holder reports as running is within its ceiling. -/
def rowStep (max : Nat) (policy : AllocatorPolicy) (holders : List (HolderState ι)) :
    RowAct → Option (List (HolderState ι))
  | .report i running waiting => changeRow holders i fun h =>
      if running ≤ h.ceiling then
        some { h with running := running, waiting := waiting, silentSecs := 0 }
      else none
  | .silent i secs => changeRow holders i fun h => some { h with silentSecs := secs }
  | .confirm i => changeRow holders i fun h => some { h with ceiling := h.granted }
  | .pass leased => some (rowsAfter max leased holders policy)

def rows (max : Nat) (policy : AllocatorPolicy) : System (List (HolderState ι)) RowAct where
  init holders := ∀ h ∈ holders, h.granted = 0 ∧ h.ceiling = 0 ∧ h.running = 0
  step := rowStep max policy

def unmoved (max : Nat) (policy : AllocatorPolicy) (holders : List (HolderState ι)) :
    RowAct → Prop
  | .pass _ => Unmoved max holders policy
  | _ => True

instance (max : Nat) (policy : AllocatorPolicy) (holders : List (HolderState ι)) (a : RowAct) :
    Decidable (unmoved max policy holders a) :=
  match a with
  | .pass _ => inferInstanceAs (Decidable (Unmoved max holders policy))
  | .report .. => .isTrue trivial
  | .silent .. => .isTrue trivial
  | .confirm _ => .isTrue trivial

/-- What may be in use leaves the reserve free. -/
structure WithinReserve (max : Nat) (policy : AllocatorPolicy) (holders : List (HolderState ι)) :
    Prop where
  fits : ∀ h ∈ holders, h.granted ≤ h.ceiling
  counted : (holders.map fun h => Max.max h.ceiling h.running).sum ≤ max - policy.reserve max

namespace WithinReserve

variable {max : Nat} {policy : AllocatorPolicy} {holders holders' : List (HolderState ι)}

omit [LinearOrder ι] in
theorem of_changeRow (hw : WithinReserve max policy holders) {i : Nat}
    {f : HolderState ι → Option (HolderState ι)}
    (hf : ∀ h h', h.granted ≤ h.ceiling → f h = some h' → h'.granted ≤ h'.ceiling ∧
      Max.max h'.ceiling h'.running ≤ Max.max h.ceiling h.running)
    (hc : changeRow holders i f = some holders') : WithinReserve max policy holders' := by
  obtain ⟨h', hbind, rfl⟩ := Option.map_eq_some_iff.1 hc
  obtain ⟨h, hi, hfh⟩ := Option.bind_eq_some_iff.1 hbind
  obtain ⟨hfit, hle⟩ := hf h h' (hw.fits h (mem_of_getElem? hi)) hfh
  refine ⟨?_, ?_⟩
  · intro x hx
    rcases mem_or_eq_of_mem_set hx with hx | rfl
    · exact hw.fits x hx
    · exact hfit
  · have hsum := sum_map_set hi h' (fun h => Max.max h.ceiling h.running)
    have := hw.counted
    omega

theorem counted_rowsAfter (leased : Nat) (hfit : ∀ h ∈ holders, h.granted ≤ h.ceiling) :
    ((rowsAfter max leased holders policy).map fun h => Max.max h.ceiling h.running).sum =
      (allocate max leased holders policy).quotaCommitted := by
  rw [allocate_committed_rowsAfter]
  congr 1
  apply map_congr_left
  intro h' hh'
  have hs := settle_sound max leased (targets_length max holders policy)
    (fun i h => targets_inactive) hfit
  have hcleared : Forall₂ (fun _ h' : HolderState ι =>
      h'.active policy = false → h'.ceiling = 0) holders
      (rowsAfter max leased holders policy) := by
    apply forall₂_rowsAfter
    intro i h hi st hact
    exact (hs.cleared i h hi hact).2
  obtain ⟨h, -, hzero⟩ := forall₂_mem_right hcleared hh'
  unfold HolderState.commit
  split_ifs with hact
  · rfl
  · rw [hzero (by simpa using hact), Nat.zero_max]

/-- A pass that moves no quota stays within the reserve. -/
theorem pass (hw : WithinReserve max policy holders) (hunmoved : Unmoved max holders policy)
    (leased : Nat) :
    (allocate max leased holders policy).quotaCommitted ≤ max - policy.reserve max := by
  have hle := allocate_committed_le_of_unmoved leased hw.fits hunmoved
  have hcommit : (holders.map fun h => h.commit policy).sum ≤
      (holders.map fun h => Max.max h.ceiling h.running).sum := by
    apply sum_map_le
    intro h _
    unfold HolderState.commit
    split
    · exact Nat.le_refl _
    · exact Nat.le_max_right _ _
  have := hw.counted
  omega

theorem step (hw : WithinReserve max policy holders) {a : RowAct}
    (hok : unmoved max policy holders a) (hs : (rows max policy).step holders a = some holders') :
    WithinReserve max policy holders' := by
  cases a with
  | report =>
    refine hw.of_changeRow ?_ hs
    intro h h' hfit hf
    split at hf
    · cases hf
      exact ⟨hfit, by dsimp only; omega⟩
    · cases hf
  | silent =>
    refine hw.of_changeRow ?_ hs
    intro h h' hfit hf
    cases hf
    exact ⟨hfit, Nat.le_refl _⟩
  | confirm =>
    refine hw.of_changeRow ?_ hs
    intro h h' hfit hf
    cases hf
    exact ⟨Nat.le_refl _, by dsimp only; omega⟩
  | pass leased =>
    cases hs
    refine ⟨rowsAfter_fits max leased policy hw.fits, ?_⟩
    rw [counted_rowsAfter leased hw.fits]
    exact hw.pass hok leased

theorem of_reach (h : (rows max policy).Reach (unmoved max policy) holders) :
    WithinReserve max policy holders := by
  refine h.invariant ?_ ?_
  · intro s hinit
    refine ⟨?_, ?_⟩
    · intro h hh
      obtain ⟨hg, -, -⟩ := hinit h hh
      omega
    · have hzero : (s.map fun h => Max.max h.ceiling h.running).sum ≤ (s.map fun _ => 0).sum := by
        apply sum_map_le
        intro h hh
        obtain ⟨-, hc, hr⟩ := hinit h hh
        rw [hc, hr]
        exact Nat.le_refl _
      have hnil : (s.map fun _ : HolderState ι => 0).sum = 0 := by simp
      omega
  · intro s a s' hw hok hs
    exact hw.step hok hs

end WithinReserve

/-- If no pass takes quota from one holder for another, no pass commits or asks for any of the
reserve. -/
theorem reserve_kept (max : Nat) (policy : AllocatorPolicy) (holders : List (HolderState ι))
    (leased : Nat) (h : (rows max policy).Reach (unmoved max policy) holders)
    (hunmoved : Unmoved max holders policy) :
    let a := allocate max leased holders policy
    a.quotaCommitted + a.quotaWanted ≤ max - policy.reserve max := by
  intro a
  have hcommitted : a.quotaCommitted ≤ max - policy.reserve max :=
    (WithinReserve.of_reach h).pass hunmoved leased
  have hwanted : a.quotaWanted ≤ max - policy.reserve max - a.quotaCommitted := Nat.min_le_right _ _
  omega

def idleHolders : List (HolderState Nat) := [⟨1, 0, 0, 0, 0, 0⟩, ⟨2, 0, 0, 0, 0, 0⟩]

/-- A holder asks, is granted, uses its quota and confirms it. -/
def steady : List RowAct := [.report 0 0 20, .pass 0, .report 0 9 11, .confirm 0]

/-- The second holder asks for nothing. -/
theorem reserve_kept_steady : ∃ holders : List (HolderState Nat),
    (rows 10 ⟨fun _ => 1, 15, 5⟩).Reach (unmoved 10 ⟨fun _ => 1, 15, 5⟩) holders ∧
    0 < (allocate 10 0 holders ⟨fun _ => 1, 15, 5⟩).quotaCommitted ∧
    (allocate 10 0 holders ⟨fun _ => 1, 15, 5⟩).quotaCommitted +
      (allocate 10 0 holders ⟨fun _ => 1, 15, 5⟩).quotaWanted ≤ 10 - 1 := by
  have hinit : (rows 10 ⟨fun _ => 1, 15, 5⟩).init idleHolders := by
    show ∀ h ∈ idleHolders, _
    decide
  obtain ⟨holders, hreach, hunmoved, hpos⟩ : ∃ holders,
      (rows 10 ⟨fun _ => 1, 15, 5⟩).Reach (unmoved 10 ⟨fun _ => 1, 15, 5⟩) holders ∧
      Unmoved 10 holders ⟨fun _ => 1, 15, 5⟩ ∧
      0 < (allocate 10 0 holders ⟨fun _ => 1, 15, 5⟩).quotaCommitted :=
    System.Reach.exists_of_run (.init hinit) steady (by decide +kernel)
  exact ⟨holders, hreach, hpos, reserve_kept 10 _ holders 0 hreach hunmoved⟩

/-- The second holder asks while the first still has its ceiling. -/
def handingOver : List RowAct := [.report 0 0 20, .pass 0, .report 1 0 20]

/-- The old ceiling and the new grant are counted together. -/
theorem moving_quota_takes_reserve : ∃ holders : List (HolderState Nat),
    (rows 10 ⟨fun _ => 1, 15, 5⟩).Reach (fun _ _ => True) holders ∧
    10 - 1 < (allocate 10 0 holders ⟨fun _ => 1, 15, 5⟩).quotaCommitted := by
  have hinit : (rows 10 ⟨fun _ => 1, 15, 5⟩).init idleHolders := by
    show ∀ h ∈ idleHolders, _
    decide
  exact System.Reach.exists_of_run (.init hinit) handingOver (by decide +kernel)

end Rows

end QueryFlux.Quota
