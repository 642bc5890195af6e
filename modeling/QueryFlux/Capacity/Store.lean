import Mathlib.Data.List.Dedup
import Mathlib.Data.List.Sort
import QueryFlux.Lib.Rows
import QueryFlux.Lib.Transition

/-!
# The store of capacity leases

The tables the replicas of a fleet share, and the functions on them that run inside the database,
each in one transaction under the advisory locks of the clusters it touches. A query that runs on
a cluster has a lease there. A denied query waits in the cluster's line; when capacity comes free
it is handed to the oldest waiters that are parked, as leases they have yet to claim.

`cluster_capacity_counters.leased` counts the leases of a cluster. Triggers on the table of leases
keep it up to date: inserting leases counts up, and deleting leases counts down and then hands the
free slots to waiters, which inserts leases again.

Names of clusters and queries are ordered as the database's collation orders them. Times are in
milliseconds. A difference that is only looked at when it is positive is a difference of natural
numbers.
-/

namespace QueryFlux.Capacity

open Lib

/-! ## Tables -/

/-- A row of `cluster_capacity_leases`. -/
structure Lease (κ ι ν : Type) where
  queryId : ι
  clusterName : κ
  instanceId : ν
  acquiredAt : Nat
  heartbeatAt : Nat
  claimed : Bool
  deriving DecidableEq

/-- A row of `capacity_waiters`. -/
structure Waiter (κ ι ν : Type) where
  queryId : ι
  clusterName : κ
  instanceId : ν
  parked : Bool
  enqueuedAt : Nat
  refreshedAt : Nat
  deriving DecidableEq

/-- A row of `cluster_capacity_counters`. -/
structure Counter where
  leased : Nat := 0
  quotaCommitted : Nat := 0
  quotaWanted : Nat := 0
  maxRunning : Option Nat := none
  deriving DecidableEq

/-- The slots neither leased nor kept for quotas, under the limit last passed by an acquire. -/
def Counter.free (k : Counter) : Option Nat :=
  k.maxRunning.map fun m => m - k.leased - k.quotaCommitted - k.quotaWanted

structure Store (κ ι ν : Type) where
  now : Nat
  leases : List (Lease κ ι ν)
  waiters : List (Waiter κ ι ν)
  counters : κ → Option Counter
  -- the clusters of the leases the current call has inserted so far
  insertedOn : List κ

def waiterTtl : Nat := 6000

def unclaimedTtl : Nat := 10000

namespace Store

variable {κ ι ν : Type} [LinearOrder κ] [LinearOrder ι]

def empty : Store κ ι ν := ⟨0, [], [], fun _ => none, []⟩

variable (s : Store κ ι ν)

def counter (c : κ) : Counter := (s.counters c).getD {}

def setCounter (c : κ) (k : Option Counter) : Store κ ι ν :=
  { s with counters := Function.update s.counters c k }

def numLeases (c : κ) : Nat := s.leases.countP (·.clusterName == c)

def leaveLine (ids : List ι) : Store κ ι ν :=
  { s with waiters := s.waiters.filter fun w => !ids.contains w.queryId }

/-- The trigger `queryflux_capacity_leases_inserted`. It counts up one cluster after another, and
creates the counter of a cluster that has none. -/
def leasesInserted (new : List (Lease κ ι ν)) (s : Store κ ι ν) : Store κ ι ν :=
  { s with counters := fun c =>
      match new.countP (·.clusterName == c) with
      | 0 => s.counters c
      | n + 1 => some { s.counter c with leased := (s.counter c).leased + (n + 1) } }

/-- `INSERT INTO cluster_capacity_leases … ON CONFLICT (query_id) DO NOTHING`. -/
def insertLeases (offered : List (Lease κ ι ν)) (s : Store κ ι ν) : Store κ ι ν :=
  let new := inserted (·.queryId) s.leases offered
  leasesInserted new { s with
    leases := s.leases ++ new
    insertedOn := s.insertedOn ++ new.map (·.clusterName) }

/-- A waiter counts while its caller keeps asking. -/
def isLive (w : Waiter κ ι ν) : Bool :=
  w.parked && s.now < w.refreshedAt + waiterTtl

/-- `ORDER BY enqueued_at, query_id`. -/
def before (v w : Waiter κ ι ν) : Prop :=
  v.enqueuedAt < w.enqueuedAt ∨ v.enqueuedAt = w.enqueuedAt ∧ v.queryId ≤ w.queryId

instance (v w : Waiter κ ι ν) : Decidable (before v w) := inferInstanceAs (Decidable (_ ∨ _))

def chosen (c : κ) (free : Nat) : List (Waiter κ ι ν) :=
  ((s.waiters.filter fun w => w.clusterName == c && s.isLive w).insertionSort before).take free

def unclaimedLease (now : Nat) (c : κ) (w : Waiter κ ι ν) : Lease κ ι ν :=
  ⟨w.queryId, c, w.instanceId, now, now, false⟩

/-! ## Granting -/

/-- The first in line get the free slots, as leases to be claimed. -/
def grantWaiters (c : κ) (s : Store κ ι ν) : Store κ ι ν :=
  match (s.counters c).bind Counter.free with
  | none | some 0 => s
  | some free =>
    let chosen := s.chosen c free
    (s.leaveLine (chosen.map (·.queryId))).insertLeases (chosen.map (unclaimedLease s.now c))

def countDown (c : κ) (n : Nat) (s : Store κ ι ν) : Store κ ι ν :=
  s.setCounter c ((s.counters c).map fun k => { k with leased := k.leased - n })

def clusterNames (rows : List (Lease κ ι ν)) : List κ :=
  (rows.map (·.clusterName)).dedup.insertionSort (· ≤ ·)

/-- The trigger `queryflux_capacity_leases_deleted`, for the deleted rows. -/
def leasesDeleted (old : List (Lease κ ι ν)) (s : Store κ ι ν) : Store κ ι ν :=
  (clusterNames old).foldl
    (fun s c => grantWaiters c (countDown c (old.countP (·.clusterName == c)) s)) s

def deleteLeases (p : Lease κ ι ν → Bool) (s : Store κ ι ν) : Store κ ι ν :=
  leasesDeleted (s.leases.filter p) { s with leases := s.leases.filter fun l => !p l }

def isStale (l : Lease κ ι ν) : Bool :=
  !l.claimed && l.acquiredAt + unclaimedTtl < s.now

/-- What an acquire drops first: a lease handed to the query on another cluster, and the leases of
the cluster handed to queries that never came back for them. -/
def dropUnclaimed (c : κ) (q : ι) (s : Store κ ι ν) : Store κ ι ν :=
  let s := s.deleteLeases fun l => l.queryId == q && l.clusterName != c && !l.claimed
  s.deleteLeases fun l => l.clusterName == c && s.isStale l

def holdsLease (c : κ) (q : ι) : Bool :=
  s.leases.any fun l => l.queryId == q && l.clusterName == c

def claim (c : κ) (q : ι) (s : Store κ ι ν) : Store κ ι ν :=
  { s with leases := s.leases.map fun l =>
      if l.queryId = q ∧ l.clusterName = c then { l with claimed := true } else l }

def setMax (c : κ) (max : Nat) (s : Store κ ι ν) : Store κ ι ν :=
  s.setCounter c (some { s.counter c with maxRunning := some max })

def since (q : ι) : Nat :=
  ((s.waiters.find? (·.queryId == q)).map (·.enqueuedAt)).getD s.now

def numAhead (c : κ) (q : ι) : Nat :=
  s.waiters.countP fun w =>
    w.clusterName == c && w.queryId != q && w.enqueuedAt < s.since q && s.isLive w

variable {s}

def joinLine (c : κ) (inst : ν) (q : ι) (s : Store κ ι ν) : Store κ ι ν :=
  { s with
    waiters := upsert (·.queryId) ⟨q, c, inst, false, s.since q, s.now⟩
      (fun w => { w with refreshedAt := s.now, clusterName := c, instanceId := inst }) s.waiters }

def acquireNew (c : κ) (inst : ν) (q : ι) (max : Nat) (s : Store κ ι ν) : Bool × Store κ ι ν :=
  let k := s.counter c
  let free := max - k.leased - (k.quotaCommitted + k.quotaWanted)
  let s := s.setMax c max
  -- counting stops at `free`
  if 0 < free ∧ min (s.numAhead c q) free < free then
    if hasKey (·.queryId) s.leases q then (false, s)
    else (true, (s.insertLeases [⟨q, c, inst, s.now, s.now, true⟩]).leaveLine [q])
  else (false, s.joinLine c inst q)

/-- Claim a lease that waits for the query, take a slot that nobody ahead will take, or join the
line. -/
def tryAcquire (c : κ) (inst : ν) (q : ι) (max : Nat) (s : Store κ ι ν) : Bool × Store κ ι ν :=
  let s := s.dropUnclaimed c q
  if s.holdsLease c q then (true, (s.claim c q).leaveLine [q]) else s.acquireNew c inst q max

def park (c : κ) (q : ι) (s : Store κ ι ν) : Bool × Store κ ι ν :=
  let s := { s with waiters := s.waiters.map fun w =>
    if w.queryId = q then { w with parked := true, refreshedAt := s.now } else w }
  let s := match (s.counters c).bind Counter.free with
    | none | some 0 => s
    | some _ => s.grantWaiters c
  (s.holdsLease c q, s)

def release (ids : List ι) (s : Store κ ι ν) : Store κ ι ν :=
  (s.leaveLine ids).deleteLeases fun l => ids.contains l.queryId

def recount (c : κ) (s : Store κ ι ν) : Store κ ι ν :=
  s.setCounter c ((s.counters c).map fun k => { k with leased := s.numLeases c })

/-- The end of an allocation pass: what quotas hold and want of each cluster is written, and what
a shrinking quota gave back goes to waiters. -/
def handOver (quotas : List (κ × Nat × Nat)) (s : Store κ ι ν) : Store κ ι ν :=
  let s := quotas.foldl (fun s (c, committed, wanted) =>
    s.setCounter c
      (some { s.counter c with quotaCommitted := committed, quotaWanted := wanted })) s
  ((quotas.map Prod.fst).insertionSort (· ≤ ·)).foldl (fun s c => s.grantWaiters c) s

/-! ## Calls

`executing` tells which queries are recorded as executing. -/

inductive Call (κ ι ν : Type)
  | tryAcquire (c : κ) (inst : ν) (q : ι) (max : Nat)
  | park (c : κ) (q : ι)
  | release (ids : List ι)
  | recount (c : κ)
  | handOver (quotas : List (κ × Nat × Nat))
  | heartbeat (inst : ν) (executing : ι → Bool)
  -- the statements of `expire_stale`
  | expireHeartbeats (cutoff : Nat)
  | expireUnclaimed
  | expireWaiters
  | releaseAllForInstance (inst : ν) (executing : ι → Bool)
  | publishRunningCount (c : κ)

variable [DecidableEq ν]

def after (s : Store κ ι ν) : Call κ ι ν → Store κ ι ν
  | .tryAcquire c inst q max => (s.tryAcquire c inst q max).2
  | .park c q => (s.park c q).2
  | .release ids => s.release ids
  | .recount c => s.recount c
  | .handOver quotas => s.handOver quotas
  | .heartbeat inst executing =>
    { s with leases := s.leases.map fun l =>
        if l.instanceId = inst ∨ executing l.queryId then { l with heartbeatAt := s.now } else l }
  | .expireHeartbeats cutoff => s.deleteLeases fun l => l.heartbeatAt < cutoff
  | .expireUnclaimed => s.release ((s.leases.filter s.isStale).map (·.queryId))
  | .expireWaiters =>
    { s with waiters := s.waiters.filter fun w => !(w.refreshedAt + 60000 < s.now : Bool) }
  | .releaseAllForInstance inst executing =>
    s.deleteLeases fun l => l.instanceId == inst && !executing l.queryId
  -- the column it sets is not used by any of these functions, but the row is created
  | .publishRunningCount c => s.setCounter c (some (s.counter c))

def call (s : Store κ ι ν) (a : Call κ ι ν) : Store κ ι ν := { s with insertedOn := [] }.after a

inductive Move (κ ι ν : Type)
  | call (a : Call κ ι ν)
  | tick (ms : Nat)

def step (s : Store κ ι ν) : Move κ ι ν → Option (Store κ ι ν)
  | .call a => some (s.call a)
  | .tick ms => some { s with now := s.now + ms, insertedOn := [] }

def system (κ ι ν : Type) [LinearOrder κ] [LinearOrder ι] [DecidableEq ν] :
    System (Store κ ι ν) (Move κ ι ν) where
  init s := s = empty
  step := step

end Store

end QueryFlux.Capacity
