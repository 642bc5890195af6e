import QueryFlux.Slots.Dispatch

/-!
# Every acquired slot is given back

Wherever `dispatch_query` and `execute_to_sink` wait, the slots are settled: were the future
dropped there, `Drop` would give back the slot the guard owns, or the record owns it already.
Between two waits the guard passes from owning a slot to having given it back, and the argument
follows the functions statement by statement with two facts, that the guard owns the newest slot
(`Guarded`) and that there is nothing to give back (`Clear`).

The record is taken to be stored exactly when its upsert reports success to the function. The
terminal paths that follow give the slot back once, and once more for each delete of the record
that fails (`slots_given_back`).
-/

namespace QueryFlux.Slots

open Lib

/-! ## The parts of the program -/

section

variable {setup : Setup} {A : Type} {R : A → Ledger → Prop} {cluster : String} {s : Ledger}

abbrev Keeps (setup : Setup) (R : A → Ledger → Prop) (x : Future A) (s : Ledger) : Prop :=
  x.Ensures (slotCalls setup.store false) (Settled setup.store) R s

theorem keeps_statement {q : Call} {k : Future A} (hq : q.isStatement = true)
    (hk : ∀ answer acted, Keeps setup R k (effect setup.store q answer acted s)) :
    Keeps setup R (statement q k) s := by
  refine ⟨fun _ hpos => ?_, fun d acted _ => hk (some d) acted⟩
  cases hpos.1 hq

theorem keeps_await {p : Site} {k : Bool → Future A} (hs : Settled setup.store s)
    (hk : ∀ ok, Keeps setup R (k ok) s) : Keeps setup R (await p k) s :=
  ⟨fun _ _ => hs, fun ok _ _ => hk ok⟩

theorem keeps_release {k : Future A} (hs : Guarded setup.store cluster s)
    (hk : ∀ t, Clear t → Keeps setup R k t) : Keeps setup R (release setup k) s := by
  have hclear := hs.release
  refine keeps_statement rfl fun _ _ => ?_
  split
  · exact keeps_await hclear.settled fun _ => hk _ hclear
  · exact hk _ hclear

end

section

variable {setup : Setup} {A : Type} {R : Except Unit A → Ledger → Prop} {cluster : String}
  {s : Ledger} {p : Site} {k : Future (Except Unit A)}

theorem keeps_orRelease (hs : Guarded setup.store cluster s)
    (hR : ∀ t, Clear t → R (.error ()) t) (hk : Keeps setup R k s) :
    Keeps setup R (orRelease setup p k) s := by
  refine keeps_await hs.settled fun ok => ?_
  cases ok with
  | true => exact hk
  | false => exact keeps_release hs hR

theorem keeps_orReturn (hs : Settled setup.store s) (hR : R (.error ()) s)
    (hk : Keeps setup R k s) : Keeps setup R (orReturn p k) s := by
  refine keeps_await hs fun ok => ?_
  cases ok with
  | true => exact hk
  | false => exact hR

end

section

variable {setup : Setup} {cluster : String} {s : Ledger}

theorem keeps_acquireGlobalCapacity (hs : Guarded setup.store cluster s)
    (hlease : leaseGivenBack s.capacity = true) :
    Keeps setup
      (fun grant t => Guarded setup.store cluster t ∧
        (grant = .denied → leaseGivenBack t.capacity = true))
      (acquireGlobalCapacity setup) s := by
  unfold acquireGlobalCapacity
  split
  case isFalse => exact ⟨hs, fun _ => hlease⟩
  case isTrue hstore =>
    have hlogged (answer : Option Bool) :
        Guarded setup.store cluster { s with capacity := .acquire answer :: s.capacity } :=
      ⟨⟨hs.slots, by simp [hstore], hs.failedDeletes⟩, hs.guard, hs.record⟩
    refine keeps_await hs.settled fun limited => ?_
    cases limited with
    | false => exact ⟨hs, fun _ => hlease⟩
    | true =>
      refine ⟨fun acted _ => ?_, fun answer _ _ => ?_⟩
      · cases acted with
        | false => exact hs.settled
        | true => exact (hlogged none).settled
      · match answer with
        | .ok true => exact ⟨hlogged _, nofun⟩
        | .ok false => exact ⟨hlogged _, fun _ => hlease⟩
        | .error _ => exact ⟨hlogged _, nofun⟩

abbrev Returned (setup : Setup) (_ : Except Unit DispatchOutcome) (s : Ledger) : Prop :=
  Settled setup.store s

theorem keeps_persistQueuedQuery (hs : Clear s) :
    Keeps setup (Returned setup) (persistQueuedQuery setup) s := by
  have hinsert : Keeps setup (Returned setup)
      (orReturn .upsertQueued (.done (.ok .queued))) s :=
    keeps_orReturn hs.settled hs.settled hs.settled
  unfold persistQueuedQuery
  split
  · exact hinsert
  · exact keeps_orReturn hs.settled hs.settled hinsert

theorem keeps_dequeue {A : Type} {R : A → Ledger → Prop} {k : Future A}
    (hs : Settled setup.store s) (hk : Keeps setup R k s) :
    Keeps setup R (dequeue setup k) s := by
  unfold dequeue
  split
  · exact keeps_await hs fun _ => hk
  · exact hk

theorem keeps_releaseError (hs : Guarded setup.store cluster s) :
    Keeps setup (Returned setup) (release setup (.done (.error ()))) s :=
  keeps_release hs fun _ hclear => hclear.settled

theorem keeps_submit (hs : Guarded setup.store cluster s) :
    Keeps setup (Returned setup) (submit setup cluster) s := by
  refine ⟨fun _ _ => hs.settled, fun submission _ _ => ?_⟩
  match submission with
  | .failed => exact keeps_releaseError hs
  | .running =>
    refine keeps_dequeue hs.settled ⟨fun acted hpos => ?_, fun ok acted hpos => ?_⟩
    · cases acted with
      | true => exact nomatch hpos.2 rfl
      | false => exact hs.settled
    · cases ok with
      | true =>
        obtain rfl : acted = true := hpos.2
        exact keeps_statement rfl fun _ _ => hs.disarm.settled
      | false =>
        cases acted with
        | true => exact nomatch hpos.2 rfl
        | false => exact keeps_releaseError hs
  | .completed =>
    refine keeps_dequeue hs.settled (keeps_release hs fun t hclear => ?_)
    exact keeps_await hclear.settled fun _ => hclear.settled

theorem keeps_dispatchHolding (hs : Guarded setup.store cluster s) :
    Keeps setup (Returned setup) (dispatchHolding setup cluster) s := by
  have hR : ∀ t, Clear t → Returned setup (.error ()) t := fun _ hclear => hclear.settled
  refine keeps_await hs.settled fun _ => keeps_orRelease hs hR ?_
  split
  case h_1 => exact keeps_releaseError hs
  case h_2 => exact keeps_releaseError hs
  case h_3 =>
    refine keeps_await hs.settled fun _ => keeps_orRelease hs hR ?_
    refine keeps_await hs.settled fun translated => ?_
    cases translated with
    | false => exact keeps_dequeue hs.settled (keeps_releaseError hs)
    | true =>
      refine keeps_orRelease hs hR (keeps_orReturn hs.settled hs.settled ?_)
      refine keeps_orRelease hs hR ?_
      split
      · exact keeps_submit hs
      · exact hs.settled

theorem keeps_dispatchQuery (hs : Clear s) :
    Keeps setup (Returned setup) (dispatchQuery setup) s := by
  refine keeps_orReturn hs.settled hs.settled (keeps_await hs.settled fun yields => ?_)
  cases yields with
  | true => exact keeps_persistQueuedQuery hs
  | false =>
    refine ⟨fun _ _ => hs.settled, fun acquired _ _ => ?_⟩
    match acquired with
    | .error _ => exact hs.settled
    | .ok none => exact keeps_persistQueuedQuery hs
    | .ok (some cluster) =>
      refine keeps_statement rfl fun _ _ => ?_
      refine (keeps_acquireGlobalCapacity (hs.acquire cluster) hs.lease).bind ?_
      rintro grant t ⟨ht, hdenied⟩
      cases grant with
      | denied =>
        exact keeps_statement rfl fun _ _ =>
          keeps_persistQueuedQuery (ht.releaseLocal (hdenied rfl))
      | unavailable => exact keeps_release ht fun _ hclear => keeps_persistQueuedQuery hclear
      | granted => exact keeps_dispatchHolding ht

/-- What holds of the ledger when a slot was to be acquired: it was, or nothing is left to give
back once the guard is dropped. -/
def Acquired (setup : Setup) : Except Unit String → Ledger → Prop
  | .error _, s => Clear (s.dropGuard setup.store)
  | .ok cluster, s => Guarded setup.store cluster s

theorem keeps_acquireLoop (attempts : Nat) (waited : Bool) (hs : Clear s) :
    Keeps setup (Acquired setup) (acquireLoop setup attempts waited) s := by
  induction attempts generalizing s waited with
  | zero =>
    unfold acquireLoop
    split
    · have hleft : Clear { s with capacity := .release :: s.capacity } :=
        ⟨hs.slots, hs.guard, rfl, hs.record, hs.failedDeletes⟩
      exact keeps_statement rfl fun _ _ => keeps_await hleft.settled fun _ => hleft.dropGuard
    · exact hs.dropGuard
  | succ _ ih =>
    refine keeps_await hs.settled fun yields => ?_
    cases yields with
    | true => exact keeps_await hs.settled fun _ => ih waited hs
    | false =>
      refine ⟨fun _ _ => hs.settled, fun acquired _ _ => ?_⟩
      match acquired with
      | .error _ => exact hs.dropGuard
      | .ok none => exact keeps_await hs.settled fun _ => ih waited hs
      | .ok (some cluster) =>
        refine keeps_statement rfl fun _ _ => ?_
        refine (keeps_acquireGlobalCapacity (hs.acquire cluster) hs.lease).bind ?_
        rintro grant t ⟨ht, hdenied⟩
        cases grant with
        | denied =>
          have hclear := ht.releaseLocal (hdenied rfl)
          refine keeps_statement rfl fun _ _ => keeps_await hclear.settled fun _ => ?_
          exact keeps_statement rfl fun _ _ => ih true hclear.dropGuard
        | unavailable =>
          refine keeps_release ht fun u hclear => keeps_await hclear.settled fun _ => ?_
          exact keeps_statement rfl fun _ _ => ih waited hclear.dropGuard
        | granted =>
          dsimp only
          split
          · exact keeps_release ht fun _ hclear => hclear.dropGuard
          · exact ht

theorem keeps_setupSyncQuery (attempts : Nat) (hs : Clear s) :
    Keeps setup (Acquired setup) (setupSyncQuery setup attempts) s := by
  refine (keeps_acquireLoop attempts false hs).bind fun acquired t ht => ?_
  cases acquired with
  | error => exact ht
  | ok cluster =>
    have hR : ∀ t, Clear t → Acquired setup (.error ()) t := fun _ hclear => hclear.dropGuard
    have hguarded : Guarded setup.store cluster t := ht
    refine keeps_await hguarded.settled fun _ => keeps_await hguarded.settled fun _ => ?_
    refine keeps_orRelease hguarded hR (keeps_orRelease hguarded hR ?_)
    refine keeps_orRelease hguarded hR (keeps_orRelease hguarded hR ?_)
    exact keeps_orReturn hguarded.settled hguarded.dropGuard hguarded

theorem keeps_sinkResult {p : Site} (hs : Settled setup.store s) :
    Keeps setup (fun _ => Settled setup.store) (sinkResult p) s :=
  keeps_await hs fun _ => hs

theorem keeps_executeToSinkInner (attempts : Nat) (hs : Clear s) :
    Keeps setup (fun _ => Settled setup.store) (executeToSinkInner setup attempts) s := by
  refine (keeps_setupSyncQuery attempts hs).bind fun acquired t ht => ?_
  cases acquired with
  | error =>
    have hclear : Clear (t.dropGuard setup.store) := ht
    exact keeps_statement rfl fun _ _ => keeps_sinkResult hclear.settled
  | ok cluster =>
    have hguarded : Guarded setup.store cluster t := ht
    refine keeps_await hguarded.settled fun passed => ?_
    cases passed with
    | false => exact keeps_release hguarded fun _ hclear => keeps_sinkResult hclear.settled
    | true =>
      refine keeps_await hguarded.settled fun translated => ?_
      cases translated with
      | false => exact keeps_sinkResult hguarded.settled
      | true =>
        refine keeps_await hguarded.settled fun ok => ?_
        exact keeps_release hguarded fun _ hclear => hclear.settled

theorem keeps_executeToSink (attempts : Nat) (hs : Clear s) :
    Keeps setup (fun _ => Settled setup.store) (executeToSink setup attempts) s := by
  refine keeps_await hs.settled fun authorized => ?_
  cases authorized with
  | false => exact keeps_sinkResult hs.settled
  | true =>
    refine keeps_await hs.settled fun cacheable => ?_
    cases cacheable with
    | false => exact keeps_executeToSinkInner attempts hs
    | true =>
      refine keeps_await hs.settled fun _ => keeps_await hs.settled fun allowed => ?_
      refine keeps_await hs.settled fun passed => ?_
      split
      · exact keeps_sinkResult hs.settled
      · refine keeps_await hs.settled fun hit => ?_
        split
        · exact keeps_sinkResult hs.settled
        · refine keeps_await hs.settled fun _ => ?_
          refine (keeps_executeToSinkInner attempts hs).bind fun result t ht => ?_
          exact keeps_await ht fun _ => ht

end

/-- The functions that acquire slots; for the second, how many attempts start before the
deadline. -/
inductive Entry
  | dispatchQuery
  | executeToSink (attempts : Nat)

def Entry.run (setup : Setup) : Entry → Future Unit
  | .dispatchQuery => (Slots.dispatchQuery setup).map fun _ => ()
  | .executeToSink attempts => (Slots.executeToSink setup attempts).map fun _ => ()

/-- Both entries leave the ledger settled, however they end. -/
theorem keeps_run (setup : Setup) (entry : Entry) :
    Keeps setup (fun _ => Settled setup.store) (entry.run setup) Ledger.empty := by
  have hempty : Clear Ledger.empty :=
    ⟨by simp [Ledger.empty], by simp [Ledger.empty], rfl, rfl, rfl⟩
  cases entry with
  | dispatchQuery => exact (keeps_dispatchQuery hempty).map fun _ _ h => h
  | executeToSink attempts => exact (keeps_executeToSink attempts hempty).map fun _ _ h => h

/-- The ledger after a run that left `s`, when the guard was dropped and terminal paths have ended
the query with the given deletes of its record. -/
def afterwards (setup : Setup) (s : Ledger) (deletions : List Ledger.Deletion) : Ledger :=
  deletions.foldl (Ledger.endExecutingQuery setup.store) (s.dropGuard setup.store)

/-! ## Every run -/

/-- However a run and the deletes after it end, a slot is given back at most once more than deletes
failed; and when the record is gone every slot and the lease were given back. -/
theorem slots_given_back {setup : Setup} {entry : Entry} {r : Option Unit} {s : Ledger}
    (hrun : (entry.run setup).Runs (slotCalls setup.store false) Ledger.empty r s)
    (deletions : List Ledger.Deletion) :
    (∀ slot ∈ (afterwards setup s deletions).slots,
        slot.decrements ≤ 1 + (afterwards setup s deletions).failedDeletes) ∧
      ((afterwards setup s deletions).recordStored = false →
        (∀ slot ∈ (afterwards setup s deletions).slots, 1 ≤ slot.decrements) ∧
          leaseGivenBack (afterwards setup s deletions).capacity = true) := by
  have hkeeps := Asks.Ensures.holds_of_runs hrun (keeps_run setup entry)
  have hsettled : Settled setup.store s := by
    cases r with
    | none => exact hkeeps.1 rfl
    | some u => exact hkeeps.2 u rfl
  exact hsettled.ended deletions rfl

def oneCluster : Setup := ⟨true, fun _ => some .async, false, true⟩

/-- Every call succeeds and no older query waits; the capacity store grants the lease or denies
it. -/
def smoothly (grants : Bool) : (q : Call) → Option (Answer q) × Bool
  | .newGuard _ | .release | .releaseLocal | .disarm | .dropGuard | .leaveLine => (some (), true)
  | .acquireCluster => (some (.ok (some "trino")), true)
  | .tryAcquire => (some (.ok grants), true)
  | .submitQuery => (some .running, true)
  | .upsertExecuting _ => (some true, true)
  | .site p => (some (p != .shouldYieldToOlderQueued), true)

def dispatchedSmoothly (grants : Bool) : Option Unit × Ledger :=
  (Entry.dispatchQuery.run oneCluster).play (slotCalls true false) (smoothly grants) Ledger.empty

theorem runs_smoothly (grants : Bool) :
    (Entry.dispatchQuery.run oneCluster).Runs (slotCalls oneCluster.store false) Ledger.empty
      (dispatchedSmoothly grants).1 (dispatchedSmoothly grants).2 := by
  refine Asks.runs_play (fun q => ?_) _ _
  cases q <;> exact ⟨by simp [smoothly], by simp [smoothly, upsertPossible]⟩

/-- The query is submitted, and the final poll removes its record. -/
theorem slots_given_back_after_poll :
    (afterwards oneCluster (dispatchedSmoothly true).2 [.ok]).recordStored = false ∧
      (∀ slot ∈ (afterwards oneCluster (dispatchedSmoothly true).2 [.ok]).slots,
        1 ≤ slot.decrements) ∧
      leaseGivenBack (afterwards oneCluster (dispatchedSmoothly true).2 [.ok]).capacity = true := by
  have hremoved :
      (afterwards oneCluster (dispatchedSmoothly true).2 [.ok]).recordStored = false := by
    decide +kernel
  exact ⟨hremoved, (slots_given_back (runs_smoothly true) [.ok]).2 hremoved⟩

/-- A denied acquire is the last one and no release follows it, since the query keeps its place in
line. And when the delete of the record fails, the slot is given back all the same, and once more
by the next terminal path. -/
theorem denied_not_released_and_failed_delete_released_twice :
    (∃ r s, (Entry.dispatchQuery.run oneCluster).Runs (slotCalls oneCluster.store false)
      Ledger.empty r s ∧
      (afterwards oneCluster s []).slots = [⟨"trino", 1⟩] ∧
      (afterwards oneCluster s []).capacity = [.acquire (some false)]) ∧
    ∃ r s, (Entry.dispatchQuery.run oneCluster).Runs (slotCalls oneCluster.store false)
      Ledger.empty r s ∧
      (afterwards oneCluster s [.failed false, .ok]).recordStored = false ∧
      (afterwards oneCluster s [.failed false, .ok]).slots = [⟨"trino", 2⟩] := by
  refine ⟨⟨_, _, runs_smoothly false, ?_⟩, ⟨_, _, runs_smoothly true, ?_⟩⟩
  · decide +kernel
  · decide +kernel

/-- An upsert that stores the record and then fails: the guard gives the slot back, and the
record's terminal path does so again. -/
example :
    (afterwards oneCluster ((Entry.dispatchQuery.run oneCluster).play (slotCalls true true)
      (fun | .upsertExecuting _ => (some false, true) | q => smoothly true q) Ledger.empty).2
      [.ok]).slots = [⟨"trino", 2⟩] := by
  decide +kernel

end QueryFlux.Slots
