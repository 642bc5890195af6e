import Mathlib.Logic.Basic

/-!
# Cluster slots and who gives them back

A running query occupies one unit of its cluster's local running counter and, with a capacity
store, a lease of the fleet under the query's id. From the moment the slot is acquired it has one
owner: first the `ClusterSlotGuard` of the function that dispatches the query, which gives it back
through `release` or, if the function ends or is dropped before, through `Drop`; and once the
query is stored as executing, the record, whose terminal paths give it back.

The ledger keeps what matters for this: each slot acquired with the number of times its counter
was decremented for it, the calls made to the capacity store under the query's id, the guard and
the record.
-/

/-! ## The ledger -/

namespace QueryFlux.Slots

/-- A slot that was taken, and how often the counter was decremented for it. -/
structure Slot where
  cluster : String
  decrements : Nat
  deriving DecidableEq

inductive CapacityCall
  -- none when the acquire failed or was not waited for: the lease may have been taken
  | acquire (answer : Option Bool)
  | release
  deriving DecidableEq

structure ClusterSlotGuard where
  cluster : String
  released : Bool
  deriving DecidableEq

structure ExecutingRecord where
  cluster : String
  stored : Bool
  deriving DecidableEq

/-- All slots and calls of the capacity store, newest first, with the guard and the record of the
query. -/
structure Ledger where
  slots : List Slot
  capacity : List CapacityCall
  guard : Option ClusterSlotGuard
  record : Option ExecutingRecord
  failedDeletes : Nat
  deriving DecidableEq

def Ledger.empty : Ledger := ⟨[], [], none, none, 0⟩

/-- A release was issued after the last acquire that the store did not deny. -/
def leaseGivenBack : List CapacityCall → Bool
  | [] => true
  | .release :: _ => true
  | .acquire (some false) :: calls => leaseGivenBack calls
  | .acquire _ :: _ => false

/-- `release_cluster`: decrements the cluster's counter, here for the newest slot of it. -/
def releaseCluster (cluster : String) : List Slot → List Slot
  | [] => []
  | slot :: slots =>
    if slot.cluster = cluster then { slot with decrements := slot.decrements + 1 } :: slots
    else slot :: releaseCluster cluster slots

namespace Ledger

variable (store : Bool)

/-- `release_cluster`, then `release` of the capacity store if there is one. -/
def giveBack (cluster : String) (s : Ledger) : Ledger :=
  { s with
    slots := releaseCluster cluster s.slots
    capacity := if store then .release :: s.capacity else s.capacity }

def newGuard (cluster : String) (s : Ledger) : Ledger :=
  { s with guard := some ⟨cluster, false⟩ }

/-- A guard releases once. -/
def release (s : Ledger) : Ledger :=
  match s.guard with
  | some ⟨cluster, false⟩ => giveBack store cluster { s with guard := some ⟨cluster, true⟩ }
  | _ => s

def releaseLocal (s : Ledger) : Ledger :=
  match s.guard with
  | some ⟨cluster, false⟩ =>
    { s with guard := some ⟨cluster, true⟩, slots := releaseCluster cluster s.slots }
  | _ => s

/-- The slot now belongs to the record. -/
def disarm (s : Ledger) : Ledger :=
  { s with guard := s.guard.map fun g => { g with released := true } }

/-- `Drop`: the task it spawns makes the same two calls as `release`. -/
def dropGuard (s : Ledger) : Ledger := { s.release store with guard := none }

/-- How the record's delete ends: it answers whether it removed the row, or it fails, and may have
removed it. -/
inductive Deletion
  | ok
  | failed (removed : Bool)
  deriving DecidableEq

/-- `end_executing_query`, which every terminal path (final poll, cancel, sweep) calls. -/
def endExecutingQuery (s : Ledger) (deletion : Deletion) : Ledger :=
  match s.record with
  | none => s
  | some record =>
    match deletion with
    | .ok =>
      if record.stored then
        giveBack store record.cluster { s with record := some { record with stored := false } }
      else s
    | .failed removed =>
      giveBack store record.cluster { s with
        record := some { record with stored := record.stored && !removed }
        failedDeletes := s.failedDeletes + 1 }

def recordStored (s : Ledger) : Bool := s.record.any (·.stored)

end Ledger

/-! ## What holds between two calls -/

/-- Every slot was given back, once, and so was the lease. -/
structure Clear (s : Ledger) : Prop where
  slots : ∀ slot ∈ s.slots, slot.decrements = 1
  guard : ∀ g, s.guard = some g → g.released = true
  lease : leaseGivenBack s.capacity = true
  record : s.record = none
  failedDeletes : s.failedDeletes = 0

/-- The newest slot, of `cluster`, is not given back, and all before it are. Without a capacity
store there is no lease to give back. -/
structure Occupied (store : Bool) (cluster : String) (s : Ledger) : Prop where
  slots : ∃ older, s.slots = ⟨cluster, 0⟩ :: older ∧ ∀ slot ∈ older, slot.decrements = 1
  lease : store = false → leaseGivenBack s.capacity = true
  failedDeletes : s.failedDeletes = 0

structure Guarded (store : Bool) (cluster : String) (s : Ledger) : Prop
    extends Occupied store cluster s where
  guard : s.guard = some ⟨cluster, false⟩
  record : s.record = none

structure HandedOver (store : Bool) (cluster : String) (s : Ledger) : Prop
    extends Occupied store cluster s where
  guard : ∀ g, s.guard = some g → g.released = true
  record : s.record = some ⟨cluster, true⟩

/-- When the guard is dropped now, the slots are given back or the record owns the last one. -/
def Settled (store : Bool) (s : Ledger) : Prop :=
  Clear (s.dropGuard store) ∨ ∃ cluster, HandedOver store cluster (s.dropGuard store)

section

variable {store : Bool} {cluster : String} {s : Ledger}

theorem Ledger.release_of_released (h : ∀ g, s.guard = some g → g.released = true) :
    s.release store = s := by
  unfold Ledger.release
  split
  · rename_i hg
    cases h _ hg
  · rfl

theorem Occupied.releaseCluster (h : Occupied store cluster s) :
    ∀ slot ∈ releaseCluster cluster s.slots, slot.decrements = 1 := by
  obtain ⟨older, hslots, holder⟩ := h.slots
  intro slot hslot
  rw [hslots, Slots.releaseCluster, if_pos rfl] at hslot
  rcases List.mem_cons.1 hslot with rfl | hmem
  · rfl
  · exact holder slot hmem

theorem Clear.dropGuard (h : Clear s) : Clear (s.dropGuard store) := by
  rw [Ledger.dropGuard, Ledger.release_of_released h.guard]
  exact ⟨h.slots, by simp, h.lease, h.record, h.failedDeletes⟩

theorem Clear.settled (h : Clear s) : Settled store s := .inl h.dropGuard

theorem HandedOver.settled (h : HandedOver store cluster s) : Settled store s := by
  refine .inr ⟨cluster, ?_⟩
  rw [Ledger.dropGuard, Ledger.release_of_released h.guard]
  exact ⟨⟨h.slots, h.lease, h.failedDeletes⟩, by simp, h.record⟩

section
variable (h : Guarded store cluster s)
include h

theorem Guarded.release : Clear (s.release store) := by
  rw [Ledger.release, h.guard]
  refine ⟨h.releaseCluster, ?_, ?_, h.record, h.failedDeletes⟩
  · intro g hg
    cases hg
    rfl
  · cases store with
    | false => exact h.lease rfl
    | true => rfl

theorem Guarded.releaseLocal (hlease : leaseGivenBack s.capacity = true) :
    Clear s.releaseLocal := by
  rw [Ledger.releaseLocal, h.guard]
  refine ⟨h.releaseCluster, ?_, hlease, h.record, h.failedDeletes⟩
  intro g hg
  cases hg
  rfl

theorem Guarded.dropGuard : Clear (s.dropGuard store) := by
  have hclear := h.release
  exact ⟨hclear.slots, by simp [Ledger.dropGuard], hclear.lease, hclear.record,
    hclear.failedDeletes⟩

theorem Guarded.settled : Settled store s := .inl h.dropGuard

theorem Guarded.disarm :
    HandedOver store cluster { s with record := some ⟨cluster, true⟩ }.disarm := by
  refine ⟨⟨h.slots, h.lease, h.failedDeletes⟩, ?_, rfl⟩
  intro g hg
  simp only [Ledger.disarm, h.guard, Option.map_some] at hg
  cases hg
  rfl

end

theorem Clear.acquire (h : Clear s) (cluster : String) :
    Guarded store cluster
      (Ledger.newGuard cluster { s with slots := ⟨cluster, 0⟩ :: s.slots }) :=
  ⟨⟨⟨s.slots, rfl, h.slots⟩, fun _ => h.lease, h.failedDeletes⟩, rfl, h.record⟩

/-- The record owns the newest slot or was removed. Deletes that fail may each decrement once
more. -/
structure Ending (store : Bool) (s : Ledger) : Prop where
  owner : ∃ record newest older, s.record = some record ∧ s.slots = newest :: older ∧
    newest.cluster = record.cluster ∧
    newest.decrements ≤ s.failedDeletes + (if record.stored then 0 else 1) ∧
    (record.stored = false → 1 ≤ newest.decrements) ∧
    (1 ≤ newest.decrements ∨ store = false → leaseGivenBack s.capacity = true) ∧
    ∀ slot ∈ older, slot.decrements = 1

theorem HandedOver.ending (h : HandedOver store cluster s) : Ending store s := by
  obtain ⟨older, hslots, holder⟩ := h.slots
  refine ⟨⟨cluster, true⟩, ⟨cluster, 0⟩, older, h.record, hslots, rfl, by simp, by simp, ?_,
    holder⟩
  rintro (hdec | hstore)
  · cases hdec
  · exact h.lease hstore

theorem Ending.endExecutingQuery (h : Ending store s) (deletion : Ledger.Deletion) :
    Ending store (s.endExecutingQuery store deletion) := by
  obtain ⟨record, newest, older, hrecord, hslots, hcluster, hle, hpos, hlease, holder⟩ := h.owner
  have hgiven : leaseGivenBack
      (if store then CapacityCall.release :: s.capacity else s.capacity) = true := by
    cases store with
    | false => exact hlease (.inr rfl)
    | true => rfl
  have hreleased : releaseCluster record.cluster s.slots =
      { newest with decrements := newest.decrements + 1 } :: older := by
    rw [hslots, releaseCluster, if_pos hcluster]
  unfold Ledger.endExecutingQuery
  rw [hrecord]
  cases deletion with
  | ok =>
    by_cases hstored : record.stored = true
    · rw [if_pos hstored] at hle
      simp only [if_pos hstored]
      refine ⟨_, _, older, rfl, hreleased, hcluster, ?_, fun _ => ?_, fun _ => hgiven, holder⟩
      · exact Nat.succ_le_succ hle
      · exact Nat.le_add_left ..
    · simp only [if_neg hstored]
      exact h
  | failed removed =>
    refine ⟨_, _, older, rfl, hreleased, hcluster, ?_, fun _ => ?_, fun _ => hgiven, holder⟩
    · -- a delete that failed is one decrement more, whether the row was there or not
      simp only [Ledger.giveBack]
      cases hstored : record.stored <;> cases removed <;> simp [hstored] at hle ⊢ <;> omega
    · exact Nat.le_add_left ..

theorem Ending.foldl (h : Ending store s) (deletions : List Ledger.Deletion) :
    Ending store (deletions.foldl (Ledger.endExecutingQuery store) s) := by
  induction deletions generalizing s with
  | nil => exact h
  | cons deletion _ ih => exact ih (h.endExecutingQuery deletion)

theorem Clear.foldl (h : Clear s) (deletions : List Ledger.Deletion) :
    deletions.foldl (Ledger.endExecutingQuery store) s = s := by
  induction deletions with
  | nil => rfl
  | cons deletion _ ih =>
    have hend : s.endExecutingQuery store deletion = s := by
      unfold Ledger.endExecutingQuery
      rw [h.record]
    rw [List.foldl_cons, hend]
    exact ih

theorem Settled.ended (h : Settled store s) (deletions : List Ledger.Deletion) {t : Ledger}
    (ht : t = deletions.foldl (Ledger.endExecutingQuery store) (s.dropGuard store)) :
    (∀ slot ∈ t.slots, slot.decrements ≤ 1 + t.failedDeletes) ∧
      (t.recordStored = false → (∀ slot ∈ t.slots, 1 ≤ slot.decrements) ∧
        leaseGivenBack t.capacity = true) := by
  rcases h with hclear | ⟨cluster, hhanded⟩
  · rw [hclear.foldl] at ht
    subst ht
    refine ⟨fun slot hslot => ?_, fun _ => ⟨fun slot hslot => ?_, hclear.lease⟩⟩
    · rw [hclear.slots slot hslot]
      exact Nat.le_add_right ..
    · exact Nat.le_of_eq (hclear.slots slot hslot).symm
  · have hending := hhanded.ending.foldl deletions
    rw [← ht] at hending
    obtain ⟨record, newest, older, hrecord, hslots, -, hle, hpos, hlease, holder⟩ := hending.owner
    have hbound : newest.decrements ≤ 1 + t.failedDeletes := by
      split at hle <;> omega
    refine ⟨fun slot hslot => ?_, fun hstored => ?_⟩
    · rw [hslots] at hslot
      rcases List.mem_cons.1 hslot with rfl | hmem
      · exact hbound
      · rw [holder slot hmem]
        exact Nat.le_add_right ..
    · rw [Ledger.recordStored, hrecord] at hstored
      have hnewest := hpos hstored
      refine ⟨fun slot hslot => ?_, hlease (.inl hnewest)⟩
      rw [hslots] at hslot
      rcases List.mem_cons.1 hslot with rfl | hmem
      · exact hnewest
      · exact Nat.le_of_eq (holder slot hmem).symm

end

end QueryFlux.Slots
