import Mathlib.Algebra.GroupWithZero.Nat
import Mathlib.Data.List.Sort
import Mathlib.Order.Defs.LinearOrder

/-!
# The quota allocator

`allocate` of `quota.rs`, function by function. Vectors are lists, an index that the code
keeps in range is read with `getD`, and a `while` loop takes as fuel the capacity it still
has to give, which every round that does not end the loop lowers.

The reserve is `((max as f64) * reserve_fraction).floor() as u64` in the code. The policy
carries it as an arbitrary function of `max`, so that nothing here depends on how the
product is rounded.
-/

/-! ## Holders and policies -/

namespace QueryFlux.Quota

/-- Allocator settings. `reserve max` is the share of `max` never handed out as quota. -/
structure AllocatorPolicy where
  reserve : Nat → Nat
  leaseSecs : Nat
  marginSecs : Nat

/-- What the allocator reads of a holder: its last report and its grant. -/
structure HolderState (ι : Type) where
  instanceId : ι
  running : Nat
  waiting : Nat
  granted : Nat
  ceiling : Nat
  silentSecs : Nat
deriving DecidableEq

structure Allocation (ι : Type) where
  instanceId : ι
  granted : Nat
  ceiling : Nat
deriving DecidableEq

structure ClusterAllocation (ι : Type) where
  changed : List (Allocation ι)
  quotaCommitted : Nat
  quotaWanted : Nat
deriving DecidableEq

namespace HolderState

variable {ι : Type}

/-- Its lease may still be in force. -/
def active (h : HolderState ι) (policy : AllocatorPolicy) : Bool :=
  h.silentSecs < policy.leaseSecs + policy.marginSecs

/-- Capacity this holder may be using, as the allocator counts it. -/
def commit (h : HolderState ι) (policy : AllocatorPolicy) : Nat :=
  if h.active policy then max h.ceiling h.running else h.running

end HolderState

/-! ## Sharing out -/

/-- Who still wants more after a round is in `still`. -/
structure FairRound where
  left : Nat
  out : List Nat
  still : List Nat

/-- `for &i in &open` of `max_min_fair`. -/
def fairRound (demand : List Nat) (share : Nat) : List Nat → Nat → List Nat → FairRound
  | [], left, out => ⟨left, out, []⟩
  | i :: rest, left, out =>
    if left = 0 then
      let r := fairRound demand share rest left out
      { r with still := i :: r.still }
    else
      let give := min (min (demand.getD i 0 - out.getD i 0) share) left
      let given := out.getD i 0 + give
      let r := fairRound demand share rest (left - give) (out.set i given)
      if given < demand.getD i 0 then { r with still := i :: r.still } else r

/-- `while left > 0 && !open.is_empty()` of `max_min_fair`. -/
def fairLoop (demand : List Nat) : Nat → Nat → List Nat → List Nat → List Nat
  | 0, _, _, out => out
  | fuel + 1, left, opened, out =>
    if left = 0 ∨ opened = [] then out
    else
      let share := max (left / opened.length) 1
      let r := fairRound demand share opened left out
      if r.still.length = opened.length ∧ share = 1 ∧ r.left = 0 then r.out
      else fairLoop demand fuel r.left r.still r.out

/-- Equal shares, capped by demand. -/
def maxMinFair (capacity : Nat) (demand : List Nat) : List Nat :=
  fairLoop demand capacity capacity
    ((List.range demand.length).filter fun i => 0 < demand.getD i 0)
    (List.replicate demand.length 0)

structure HeadroomRound where
  left : Nat
  extra : List Nat
  gave : Bool

/-- `for k in 0..active.len()` of the headroom loop. -/
def headroomRound (want : List Nat) : List Nat → HeadroomRound → HeadroomRound
  | [], r => r
  | k :: rest, r =>
    if 0 < r.left ∧ r.extra.getD k 0 < want.getD k 0 then
      headroomRound want rest ⟨r.left - 1, r.extra.set k (r.extra.getD k 0 + 1), true⟩
    else headroomRound want rest r

/-- One to each in turn, until nobody wants more or nothing is left. -/
def headroomLoop (want : List Nat) : Nat → Nat → List Nat → List Nat
  | 0, _, extra => extra
  | fuel + 1, left, extra =>
    if left = 0 then extra
    else
      let r := headroomRound want (List.range want.length) ⟨left, extra, false⟩
      if r.gave then headroomLoop want fuel r.left r.extra else r.extra

/-! ## Targets, decreases and increases -/

section Allocate

variable {ι : Type}

/-- Step 1 of `allocate`: each active holder's fair share of `max - reserve` by demand, plus
headroom from what is left. Nothing on a cluster too small to split. -/
def targets (max : Nat) (holders : List (HolderState ι)) (policy : AllocatorPolicy) : List Nat :=
  let actives := holders.map fun h => h.active policy
  let demands := holders.map fun h => h.running + h.waiting
  let active := (List.range holders.length).filter fun i => actives.getD i false
  let target := List.replicate holders.length 0
  if active ≠ [] ∧ 2 * active.length ≤ max then
    let assignable := max - policy.reserve max
    let demand := active.map fun i => demands.getD i 0
    let fair := maxMinFair assignable demand
    let left := assignable - fair.sum
    let want := demand.map fun d => Nat.max (d / 4) 1
    let extra := headroomLoop want left left (List.replicate active.length 0)
    active.zipIdx.foldl (fun t ik => t.set ik.1 (fair.getD ik.2 0 + extra.getD ik.2 0)) target
  else target

/-- Step 2 of `allocate` for one holder: its grant and ceiling after decreases. A holder past
its lease can't admit on anything, so both are cleared. -/
def lowered (policy : AllocatorPolicy) (h : HolderState ι) (target : Nat) : Nat × Nat :=
  let granted := if target < h.granted then target else h.granted
  if h.active policy then (granted, h.ceiling) else (0, 0)

def commitOf (holders : List (HolderState ι)) (policy : AllocatorPolicy) (ceiling : List Nat)
    (i : Nat) : Nat :=
  match holders[i]? with
  | some h => if h.active policy then Nat.max (ceiling.getD i 0) h.running else h.running
  | none => 0

/-- What all holders may be using under these ceilings. -/
def committed (holders : List (HolderState ι)) (policy : AllocatorPolicy)
    (ceiling : List Nat) : Nat :=
  ((List.range holders.length).map (commitOf holders policy ceiling)).sum

/-- Grants and ceilings while increases are made, and what is still free. -/
structure Growth where
  free : Nat
  granted : List Nat
  ceiling : List Nat
deriving DecidableEq

/-- One turn of `for i in growing`. What the holder already has committed covers the first
part of the increase; only the rest comes out of free capacity. -/
def grow (holders : List (HolderState ι)) (policy : AllocatorPolicy) (target : List Nat)
    (st : Growth) (i : Nat) : Growth :=
  let current := commitOf holders policy st.ceiling i
  let take := min (target.getD i 0 - current) st.free
  let granted := max (min (current + take) (target.getD i 0)) (st.granted.getD i 0)
  { free := st.free - take
    granted := st.granted.set i granted
    ceiling := st.ceiling.set i (max (st.ceiling.getD i 0) granted) }

/-- Only rows that differ are written. -/
def changedOf : List (HolderState ι) → List Nat → List Nat → List (Allocation ι)
  | h :: hs, g :: gs, c :: cs =>
    if g ≠ h.granted ∨ c ≠ h.ceiling then ⟨h.instanceId, g, c⟩ :: changedOf hs gs cs
    else changedOf hs gs cs
  | _, _, _ => []

variable [LinearOrder ι]

/-- The order of the increases: the smallest grant first, then by id. -/
def growsBefore (holders : List (HolderState ι)) (granted : List Nat) (i j : Nat) : Prop :=
  granted.getD i 0 < granted.getD j 0 ∨
    granted.getD i 0 = granted.getD j 0 ∧
      ∀ a ∈ holders[i]?, ∀ b ∈ holders[j]?, a.instanceId ≤ b.instanceId

instance (holders : List (HolderState ι)) (granted : List Nat) :
    DecidableRel (growsBefore holders granted) := fun _ _ => inferInstanceAs (Decidable (_ ∨ _))

/-- Steps 2 and 3 of `allocate`, for targets already computed. -/
def settle (max leased : Nat) (holders : List (HolderState ι)) (policy : AllocatorPolicy)
    (target : List Nat) : Growth :=
  let pairs := List.zipWith (lowered policy) holders target
  let granted := pairs.map Prod.fst
  let ceiling := pairs.map Prod.snd
  let free := (max - leased) - committed holders policy ceiling
  let growing := (List.range holders.length).filter fun i => granted.getD i 0 < target.getD i 0
  -- `sort_by_key` is stable, as insertion sort is
  (growing.insertionSort (growsBefore holders granted)).foldl (grow holders policy target)
    ⟨free, granted, ceiling⟩

def allocate (max leased : Nat) (holders : List (HolderState ι)) (policy : AllocatorPolicy) :
    ClusterAllocation ι :=
  let target := targets max holders policy
  let st := settle max leased holders policy target
  let quotaCommitted := committed holders policy st.ceiling
  let deficit := (List.zipWith (· - ·) target st.granted).sum
  { changed := changedOf holders st.granted st.ceiling
    quotaCommitted
    quotaWanted := min deficit (max - policy.reserve max - quotaCommitted) }

end Allocate

end QueryFlux.Quota
