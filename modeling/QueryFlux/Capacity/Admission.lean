import QueryFlux.Capacity.Store

/-!
# Admission on quota

`QuotaAdmission` wraps the store of leases. While quotas are on and a cluster's quota is valid and
not used up, a query is admitted by counting it, without a lease. Otherwise it tries for a lease,
and when it is denied the cluster's `waiting` map remembers it: the store may have put it into the
cluster's line, and may hand it a lease at any later moment.

The state has the wrapped store in it, whose tables other processes use as well (`Move.inner`).
`own` tells the queries of this process. A call of the wrapped store is answered, fails, or takes
effect and its answer is lost. `standing` is the history of each query's calls: what the last one
told it.
-/

namespace QueryFlux.Capacity

open Lib

variable {κ ι ν : Type} [LinearOrder κ] [LinearOrder ι] [DecidableEq ν]

/-- Milliseconds. -/
def waitingTtl : Nat := 5000

def idleTtl : Nat := 60000

/-! ## Local state -/

structure ClusterQuota (ι : Type) where
  quota : Nat := 0
  validUntilMs : Nat := 0
  -- queries running on quota
  running : Nat := 0
  -- queries denied capacity, with when they last asked
  waiting : List (ι × Nat) := []
  lastActive : Option Nat := none

def ClusterQuota.stopWaiting (q : ι) (cq : ClusterQuota ι) : ClusterQuota ι :=
  { cq with waiting := cq.waiting.filter (·.1 != q) }

def ClusterQuota.startWaiting (q : ι) (now : Nat) (cq : ClusterQuota ι) : ClusterQuota ι :=
  { cq with waiting := upsert Prod.fst (q, now) (fun _ => (q, now)) cq.waiting }

def ClusterQuota.admitOnQuota (now : Nat) (cq : ClusterQuota ι) : Option (ClusterQuota ι) :=
  if cq.validUntilMs ≤ now then none
  else if cq.running < cq.quota then some { cq with running := cq.running + 1 }
  else none

/-- A call of the store may fail, or take effect and lose its answer. -/
inductive Reply
  | answered | failed | lost
  deriving DecidableEq

/-- What the last call about a query left behind, as its caller knows. -/
inductive Standing (κ : Type)
  | new
  -- denied by its last try, on this cluster, or the try failed
  | denied (c : κ)
  -- on quota; `clean` if the wrapped store's calls of the try succeeded
  | onQuota (clean : Bool)
  | leased
  | released
  -- released from quota after a try of which a call had failed
  | unclean
  deriving DecidableEq

structure Admission (κ ι ν : Type) where
  inner : Store κ ι ν
  enabled : Bool
  clusters : κ → Option (ClusterQuota ι)
  -- the queries admitted on quota, and their cluster
  onQuota : List (ι × κ)
  standing : ι → Standing κ

/-! ## Calls -/

namespace Admission

def initial : Admission κ ι ν := ⟨.empty, false, fun _ => none, [], fun _ => .new⟩

def setCluster (c : κ) (cq : ClusterQuota ι) (s : Admission κ ι ν) : Admission κ ι ν :=
  { s with clusters := Function.update s.clusters c (some cq) }

def setStanding (q : ι) (x : Standing κ) (s : Admission κ ι ν) : Admission κ ι ν :=
  { s with standing := Function.update s.standing q x }

def innerRelease (q : ι) (reply : Reply) (s : Admission κ ι ν) : Admission κ ι ν :=
  match reply with
  | .failed => s
  | .answered | .lost => { s with inner := s.inner.call (.release [q]) }

/-- The store's answer; without one the query counts as denied. -/
def innerTryAcquire (c : κ) (max : Option Nat) (inst : ν) (q : ι) (reply : Reply)
    (s : Admission κ ι ν) : Bool × Admission κ ι ν :=
  match max, reply with
  | none, _ => (true, s)
  | some _, .failed => (false, s)
  | some max, .answered =>
    (({ s.inner with insertedOn := [] }.tryAcquire c inst q max).1,
      { s with inner := s.inner.call (.tryAcquire c inst q max) })
  | some max, .lost => (false, { s with inner := s.inner.call (.tryAcquire c inst q max) })

/-- A query counted on quota: it leaves the cluster's waiting queries, and if it was one of them
the store is told to drop it. -/
def countOnQuota (c : κ) (cq : ClusterQuota ι) (q : ι) (reply : Reply) (s : Admission κ ι ν) :
    Admission κ ι ν :=
  let s := s.setCluster c (cq.stopWaiting q)
  let s := { s with onQuota := upsert Prod.fst (q, c) (fun _ => (q, c)) s.onQuota }
  if hasKey Prod.fst cq.waiting q then
    (s.innerRelease q reply).setStanding q (.onQuota (reply == .answered))
  else s.setStanding q (.onQuota true)

/-- No quota left: the reserve, one lease per query. -/
def tryReserve (c : κ) (cq : Option (ClusterQuota ι)) (max : Option Nat) (inst : ν) (q : ι)
    (reply : Reply) (s : Admission κ ι ν) : Admission κ ι ν :=
  let (granted, s) := s.innerTryAcquire c max inst q reply
  let s := match cq with
    | none => s
    | some cq =>
      s.setCluster c (if granted then cq.stopWaiting q else cq.startWaiting q s.inner.now)
  s.setStanding q (if granted then .leased else .denied c)

def tryAcquire (c : κ) (max : Option Nat) (inst : ν) (q : ι) (reply : Reply)
    (s : Admission κ ι ν) : Admission κ ι ν :=
  if s.enabled ∧ max.isSome then
    let cq : ClusterQuota ι := { (s.clusters c).getD {} with lastActive := some s.inner.now }
    match cq.admitOnQuota s.inner.now with
    | some cq => s.countOnQuota c cq q reply
    | none => (s.setCluster c cq).tryReserve c (some cq) max inst q reply
  else s.tryReserve c none max inst q reply

def afterRelease : Standing κ → Standing κ
  | .onQuota false => .unclean
  | _ => .released

def release (q : ι) (reply : Reply) (s : Admission κ ι ν) : Admission κ ι ν :=
  match s.onQuota.find? (·.1 == q) with
  | some (_, c) =>
    let s := { s with onQuota := s.onQuota.filter (·.1 != q) }
    let s := match s.clusters c with
      | some cq => s.setCluster c { cq with running := cq.running - 1 }
      | none => s
    s.setStanding q (afterRelease (s.standing q))
  | none =>
    let s := s.innerRelease q reply
    if reply = .answered then s.setStanding q .released else s

/-- A cluster as a report leaves it. Queries that have not asked again for a while no longer wait,
and a cluster that was idle for long is dropped. -/
def swept (now : Nat) (cq : ClusterQuota ι) : Option (ClusterQuota ι) :=
  let waiting := cq.waiting.filter fun w => now - w.2 < waitingTtl
  let lastActive :=
    if 0 < cq.running ∨ waiting ≠ [] ∨ 0 < cq.quota then some now else cq.lastActive
  let idle := lastActive.elim true fun t => idleTtl < now - t
  if idle = true ∧ cq.running = 0 then none
  else some { cq with waiting := waiting, lastActive := lastActive }

def applyGrant (quota expiry : Nat) (c : κ) (s : Admission κ ι ν) : Admission κ ι ν :=
  s.setCluster c { (s.clusters c).getD {} with quota := quota, validUntilMs := expiry }

/-! ## Interleavings -/

inductive Move (κ ι ν : Type)
  | tryAcquire (c : κ) (max : Option Nat) (inst : ν) (q : ι) (reply : Reply)
  | release (q : ι) (reply : Reply)
  -- a call of another process, or one that passes through
  | inner (a : Store.Call κ ι ν)
  | tick (ms : Nat)
  | setPolicy (enabled : Bool)
  -- the parts of `report_now`
  | sweep
  | applyGrant (c : κ) (quota expiry : Nat)
  | noQuotas

section
variable (own : ι → Bool)

/-- A query of this process tries for a lease through this wrapper only. -/
def foreign : Store.Call κ ι ν → Bool
  | .tryAcquire _ _ q _ => !own q
  | _ => true

def step (s : Admission κ ι ν) : Move κ ι ν → Option (Admission κ ι ν)
  | .tryAcquire c max inst q reply =>
    if own q then some (s.tryAcquire c max inst q reply) else none
  | .release q reply => if own q then some (s.release q reply) else none
  | .inner a => if foreign own a then some { s with inner := s.inner.call a } else none
  | .tick ms => some { s with inner := { s.inner with now := s.inner.now + ms } }
  | .setPolicy enabled => some { s with enabled := enabled }
  | .sweep => some { s with clusters := fun c => (s.clusters c).bind (swept s.inner.now) }
  | .applyGrant c quota expiry => some (s.applyGrant quota expiry c)
  | .noQuotas =>
    some { s with
      enabled := false
      clusters := fun c => (s.clusters c).map fun cq => { cq with validUntilMs := 0 } }

def system : System (Admission κ ι ν) (Move κ ι ν) where
  init s := s = initial
  step := step own

end

end Admission

end QueryFlux.Capacity
