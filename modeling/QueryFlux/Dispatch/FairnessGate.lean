import QueryFlux.Lib.Words

/-!
# The queue fairness gate

`should_yield_to_older_queued` sums the free slots of a group's clusters in 64 bits and yields if
older waiters need them all. It decides by the true number of free slots while that number fits; an
unlimited cluster beside another one makes the sum wrap to a small number, and the query then yields
although slots are left (`gate_yields_with_slots_left`). Which sums go wrong is
`gate_right_iff`.
-/

namespace QueryFlux.Dispatch

open Lib

/-! ## The gate -/

structure ClusterStateSnapshot where
  groupName : String
  runningQueries : BitVec 64
  maxRunningQueries : BitVec 64
  canAcceptQuery : Bool

/-- The clusters of the group that can accept a query. -/
def accepting (group : String) (snaps : List ClusterStateSnapshot) : List ClusterStateSnapshot :=
  snaps.filter fun s => s.groupName == group && s.canAcceptQuery

/-- The two reads are those of the cluster states and of the number of older active waiters; the
second is not made without a free slot. -/
def shouldYieldToOlderQueued (allClusterStates : Except String (List ClusterStateSnapshot))
    (group : String) (countActiveQueuedBefore : Except String (BitVec 64)) : Bool :=
  match allClusterStates with
  | .error _ => false
  | .ok snaps =>
    let free := ((accepting group snaps).map fun s =>
      saturatingSub s.maxRunningQueries s.runningQueries).sum
    if free = 0 then false
    else
      match countActiveQueuedBefore with
      | .ok olderWaiters => decide (free ≤ olderWaiters)
      | .error _ => false

/-- The slots of the group that are free, without wrapping around. -/
def freeSlots (group : String) (snaps : List ClusterStateSnapshot) : Nat :=
  ((accepting group snaps).map fun s => s.maxRunningQueries.toNat - s.runningQueries.toNat).sum

/-! ## What the gate decides by -/

theorem toNat_free (group : String) (snaps : List ClusterStateSnapshot) :
    ((accepting group snaps).map fun s =>
      saturatingSub s.maxRunningQueries s.runningQueries).sum.toNat =
        freeSlots group snaps % 2 ^ 64 := by
  have hmap : ((accepting group snaps).map fun s =>
      saturatingSub s.maxRunningQueries s.runningQueries).map BitVec.toNat =
        (accepting group snaps).map fun s =>
          s.maxRunningQueries.toNat - s.runningQueries.toNat := by
    simp [Function.comp_def, toNat_saturatingSub]
  rw [toNat_sum_mod, hmap, freeSlots]

/-- What the code computes, with the sum of 64 bits. -/
theorem yields_iff_wrapped (group : String) (snaps : List ClusterStateSnapshot)
    (olderWaiters : BitVec 64) :
    shouldYieldToOlderQueued (.ok snaps) group (.ok olderWaiters) = true ↔
      0 < freeSlots group snaps % 2 ^ 64 ∧
        freeSlots group snaps % 2 ^ 64 ≤ olderWaiters.toNat := by
  rw [← toNat_free, shouldYieldToOlderQueued]
  generalize ((accepting group snaps).map fun s =>
    saturatingSub s.maxRunningQueries s.runningQueries).sum = free
  split_ifs with hzero
  · simp [hzero]
  · have hpos : 0 < free.toNat := by
      refine Nat.pos_of_ne_zero fun hz => hzero ?_
      rw [← BitVec.toNat_inj, hz]
      rfl
    simp [BitVec.le_def, hpos]

/-- The gate is right if and only if the free slots fit 64 bits, or the sum wraps to 0 or to more
than there are older waiters. -/
theorem gate_right_iff (group : String) (snaps : List ClusterStateSnapshot)
    (olderWaiters : BitVec 64) :
    (shouldYieldToOlderQueued (.ok snaps) group (.ok olderWaiters) = true ↔
      0 < freeSlots group snaps ∧ freeSlots group snaps ≤ olderWaiters.toNat) ↔
    freeSlots group snaps < 2 ^ 64 ∨ freeSlots group snaps % 2 ^ 64 = 0 ∨
      olderWaiters.toNat < freeSlots group snaps % 2 ^ 64 := by
  rw [yields_iff_wrapped]
  by_cases hfits : freeSlots group snaps < 2 ^ 64
  · rw [Nat.mod_eq_of_lt hfits]
    simp only [hfits, true_or, iff_self]
  · -- more slots are free than there can be waiters
    have hwaiters := olderWaiters.isLt
    omega

def idle (limit : BitVec 64) : ClusterStateSnapshot := ⟨"etl", 0, limit, true⟩

/-- An unlimited cluster and one with two slots, and one older waiter. -/
theorem gate_yields_with_slots_left :
    1 < freeSlots "etl" [idle (BitVec.allOnes 64), idle 2] ∧
      shouldYieldToOlderQueued (.ok [idle (BitVec.allOnes 64), idle 2]) "etl" (.ok 1) = true := by
  decide

end QueryFlux.Dispatch
