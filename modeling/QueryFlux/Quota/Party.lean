import Mathlib.Tactic.Tauto
import QueryFlux.Quota.Allocate

/-!
# One holder and its row

A holder keeps a `ClusterQuota` and sends demand reports; the store keeps one row per holder.
Between the two are the reports sent and not yet processed, and the call the holder waits on.
A call the holder has given up on may still be processed later, so the reports under way and
the pending call are separate.

Times are milliseconds of one clock. A `BIGINT` column keeps at most `i64Max`.
-/

/-! ## Quota of a replica -/

namespace QueryFlux.Quota

def i64Max : Nat := 2 ^ 63 - 1

/-- `to_i64` of the store. -/
def toI64 (v : Nat) : Nat := min v i64Max

def quotaHolderExpirySecs : Nat := 300

structure Settings where
  maxRunningQueries : Nat
  policy : AllocatorPolicy
  max_le : maxRunningQueries ≤ i64Max
  /-- `CapacityConfig::validate` takes a lease of 2 to 300 seconds. -/
  lease_le : policy.leaseSecs ≤ quotaHolderExpirySecs

def Settings.leaseMs (cfg : Settings) : Nat := cfg.policy.leaseSecs * 1000

/-- What a replica knows of its quota for the cluster. -/
structure ClusterQuota where
  quota : Nat := 0
  seq : Nat := 0
  validUntilMs : Nat := 0
  running : Nat := 0
  max : Nat := 0
deriving DecidableEq

structure DemandReport where
  running : Nat
  waiting : Nat
  seenSeq : Nat
  maxRunningQueries : Nat
deriving DecidableEq

structure QuotaGrant where
  quota : Nat
  seq : Nat
deriving DecidableEq

namespace ClusterQuota

variable (cq : ClusterQuota)

/-- A query is admitted while the lease holds and the quota is not used up. -/
def admitOnQuota (now : Nat) : ClusterQuota × Bool :=
  if cq.validUntilMs ≤ now then (cq, false)
  else if cq.running < cq.quota then ({ cq with running := cq.running + 1 }, true)
  else (cq, false)

/-- The quota part of `try_acquire`: the limit is noted, then a slot is taken if there is one.
When there is none the query goes on to a per-query lease. -/
def tryAcquire (max now : Nat) : ClusterQuota :=
  (admitOnQuota { cq with max } now).1

def release : ClusterQuota := { cq with running := cq.running - 1 }

def report (waiting : Nat) : DemandReport :=
  ⟨cq.running, waiting, cq.seq, cq.max⟩

/-- The answer to a report replaces the quota and extends the lease. -/
def applyGrant (g : QuotaGrant) (untilMs : Nat) : ClusterQuota :=
  { cq with quota := g.quota, seq := g.seq, validUntilMs := untilMs }

end ClusterQuota

/-! ## Rows of the database -/

/-- A row of `capacity_holders`, without the `seen_seq` column, which nothing reads. -/
structure HolderRow where
  running : Nat
  waiting : Nat
  maxRunning : Nat
  granted : Nat
  ceiling : Nat
  grantSeq : Nat
  reportedAt : Nat
deriving DecidableEq

namespace HolderRow

/-- The ceiling falls to the grant once the holder has seen it. -/
def reportDemand (row : Option HolderRow) (r : DemandReport) (now : Nat) : HolderRow :=
  let running := toI64 r.running
  let waiting := toI64 r.waiting
  let maxRunning := toI64 r.maxRunningQueries
  match row with
  | none => ⟨running, waiting, maxRunning, 0, 0, 0, now⟩
  | some h =>
    { h with
      running, waiting, maxRunning, reportedAt := now
      ceiling := if toI64 r.seenSeq ≥ h.grantSeq then h.granted else h.ceiling }

def grant (h : HolderRow) : QuotaGrant := ⟨h.granted, h.grantSeq⟩

/-- A row that nobody reported for is deleted after a while. -/
def kept (h : HolderRow) (now : Nat) : Bool := now ≤ h.reportedAt + quotaHolderExpirySecs * 1000

def holderState {ι : Type} (h : HolderRow) (instanceId : ι) (now : Nat) : HolderState ι :=
  ⟨instanceId, h.running, h.waiting, h.granted, h.ceiling, (now - h.reportedAt) / 1000⟩

def update (h : HolderRow) (granted ceiling : Nat) : HolderRow :=
  { h with
    grantSeq := if h.granted ≠ toI64 granted then h.grantSeq + 1 else h.grantSeq
    granted := toI64 granted
    ceiling := toI64 ceiling }

def counted (h : HolderRow) : Nat := max h.ceiling h.running

end HolderRow

/-! ## A replica and its calls -/

structure Sent where
  call : Nat
  report : DemandReport
deriving DecidableEq

structure PendingCall where
  call : Nat
  sentMs : Nat
  answer : Option QuotaGrant
deriving DecidableEq

structure Party (ι : Type) where
  instanceId : ι
  enabled : Bool := false
  cq : ClusterQuota := {}
  /-- Number of reports built so far; reports are numbered by it. -/
  calls : Nat := 0
  sent : List Sent := []
  pending : Option PendingCall := none
  /-- One past the latest report processed: a report below it has been overtaken. -/
  processed : Nat := 0
  row : Option HolderRow := none
deriving DecidableEq

/-- What happens at one replica, its reports in the network included. -/
inductive LocalAct
  | tryAcquire
  | release
  | report (waiting : Nat)
  /-- `report_now` drops a cluster with no quota and no work. -/
  | evictIdle
  | process (call : Nat)
  | lose (call : Nat)
  | answered
  | failed
  /-- The source has no quotas: `Ok(None)`. -/
  | unavailable
  /-- `set_policy`. -/
  | setPolicy (enabled : Bool)
deriving DecidableEq

namespace Party

variable {ι : Type}

def processReport (p : Party ι) (now : Nat) (m : Sent) : Party ι :=
  let row := HolderRow.reportDemand p.row m.report now
  { p with
    row := some row
    sent := p.sent.filter fun x => x.call ≠ m.call
    processed := max p.processed (m.call + 1)
    pending := p.pending.map fun c =>
      if c.call = m.call then { c with answer := some row.grant } else c }

def step (cfg : Settings) (now : Nat) (p : Party ι) : LocalAct → Option (Party ι)
  | .tryAcquire =>
    if p.enabled then some { p with cq := p.cq.tryAcquire cfg.maxRunningQueries now } else none
  | .release => if 0 < p.cq.running then some { p with cq := p.cq.release } else none
  | .report waiting =>
    if p.enabled ∧ p.pending = none then
      some
        { p with
          calls := p.calls + 1
          sent := p.sent ++ [⟨p.calls, p.cq.report waiting⟩]
          pending := some ⟨p.calls, now, none⟩ }
    else none
  | .evictIdle =>
    if p.pending = none ∧ p.cq.running = 0 ∧ p.cq.quota = 0 then some { p with cq := {} } else none
  | .process call => (p.sent.find? fun m => m.call = call).map (p.processReport now)
  | .lose call => some { p with sent := p.sent.filter fun m => m.call ≠ call }
  | .answered =>
    match p.pending with
    | some ⟨_, sentMs, some g⟩ =>
      some { p with cq := p.cq.applyGrant g (sentMs + cfg.leaseMs), pending := none }
    | _ => none
  | .failed => if p.pending = none then none else some { p with pending := none }
  | .unavailable =>
    if p.pending = none then none
    else some { p with enabled := false, cq := { p.cq with validUntilMs := 0 }, pending := none }
  | .setPolicy enabled => some { p with enabled }

/-- The steps of a replica, one constructor for each way to go. -/
inductive Stepped (cfg : Settings) (now : Nat) (p : Party ι) : LocalAct → Party ι → Prop
  | admitted (hv : now < p.cq.validUntilMs) (hq : p.cq.running < p.cq.quota) :
      Stepped cfg now p .tryAcquire
        { p with
          cq := { p.cq with max := cfg.maxRunningQueries, running := p.cq.running + 1 } }
  | denied :
      Stepped cfg now p .tryAcquire { p with cq := { p.cq with max := cfg.maxRunningQueries } }
  | release : Stepped cfg now p .release { p with cq := p.cq.release }
  | report (waiting : Nat) (hp : p.pending = none) :
      Stepped cfg now p (.report waiting)
        { p with
          calls := p.calls + 1
          sent := p.sent ++ [⟨p.calls, p.cq.report waiting⟩]
          pending := some ⟨p.calls, now, none⟩ }
  | evictIdle (hp : p.pending = none) (hr : p.cq.running = 0) :
      Stepped cfg now p .evictIdle { p with cq := {} }
  | process {m : Sent} (hm : m ∈ p.sent) :
      Stepped cfg now p (.process m.call) (p.processReport now m)
  | lose (call : Nat) :
      Stepped cfg now p (.lose call) { p with sent := p.sent.filter fun m => m.call ≠ call }
  | answered {c : PendingCall} {g : QuotaGrant} (hp : p.pending = some c) (ha : c.answer = some g) :
      Stepped cfg now p .answered
        { p with cq := p.cq.applyGrant g (c.sentMs + cfg.leaseMs), pending := none }
  | failed : Stepped cfg now p .failed { p with pending := none }
  | unavailable :
      Stepped cfg now p .unavailable
        { p with enabled := false, cq := { p.cq with validUntilMs := 0 }, pending := none }
  | setPolicy (enabled : Bool) : Stepped cfg now p (.setPolicy enabled) { p with enabled }

theorem stepped {cfg : Settings} {now : Nat} {p p' : Party ι} {act : LocalAct}
    (h : p.step cfg now act = some p') : Stepped cfg now p act p' := by
  cases act with
  | tryAcquire =>
    simp only [step, Option.ite_none_right_eq_some, Option.some.injEq] at h
    obtain ⟨-, rfl⟩ := h
    simp only [ClusterQuota.tryAcquire, ClusterQuota.admitOnQuota]
    split
    · exact .denied
    · rename_i hv
      split
      · exact .admitted (Nat.lt_of_not_le hv) ‹_›
      · exact .denied
  | release =>
    simp only [step, Option.ite_none_right_eq_some, Option.some.injEq] at h
    obtain ⟨-, rfl⟩ := h
    exact .release
  | report waiting =>
    simp only [step, Option.ite_none_right_eq_some, Option.some.injEq] at h
    obtain ⟨⟨-, hp⟩, rfl⟩ := h
    exact .report waiting hp
  | evictIdle =>
    simp only [step, Option.ite_none_right_eq_some, Option.some.injEq] at h
    obtain ⟨⟨hp, hr, -⟩, rfl⟩ := h
    exact .evictIdle hp hr
  | process call =>
    obtain ⟨m, hm, rfl⟩ := Option.map_eq_some_iff.1 h
    obtain rfl : m.call = call := by simpa using List.find?_some hm
    exact .process (List.mem_of_find?_eq_some hm)
  | lose call =>
    cases h
    exact .lose call
  | answered =>
    simp only [step] at h
    split at h
    · rename_i hp
      cases h
      exact .answered hp rfl
    · cases h
  | failed =>
    simp only [step, Option.ite_none_left_eq_some, Option.some.injEq] at h
    obtain ⟨-, rfl⟩ := h
    exact .failed
  | unavailable =>
    simp only [step, Option.ite_none_left_eq_some, Option.some.injEq] at h
    obtain ⟨-, rfl⟩ := h
    exact .unavailable
  | setPolicy enabled =>
    cases h
    exact .setPolicy enabled

def expire (p : Party ι) (now : Nat) : Party ι :=
  { p with row := p.row.filter fun h => h.kept now }

def holderState (p : Party ι) (now : Nat) : Option (HolderState ι) :=
  p.row.map fun h => h.holderState p.instanceId now

def update [DecidableEq ι] (p : Party ι) (changed : List (Allocation ι)) : Party ι :=
  match changed.find? fun c => c.instanceId = p.instanceId with
  | some u => { p with row := p.row.map fun h => h.update u.granted u.ceiling }
  | none => p

def enforcedQuota (p : Party ι) (now : Nat) : Nat :=
  if now < p.cq.validUntilMs then p.cq.quota else 0

def counted (p : Party ι) : Nat := p.row.elim 0 HolderRow.counted

/-- Report `m` has not been overtaken, or it takes nothing off what the row counts: it reports
at least as many running queries and has not seen the latest grant. -/
def harmless (p : Party ι) (m : Sent) : Bool :=
  p.processed ≤ m.call || p.row.all fun h =>
    h.running ≤ toI64 m.report.running && toI64 m.report.seenSeq < h.grantSeq

def live (p : Party ι) (now : Nat) : Bool := now < p.cq.validUntilMs || 0 < p.cq.running

/-- While live, its last report was processed less than `lease_secs + margin_secs` ago, and its
row is not past its expiry while it runs queries. -/
def timely (cfg : Settings) (p : Party ι) (now : Nat) : Bool :=
  !p.live now || p.row.any fun h =>
    (now - h.reportedAt) / 1000 < cfg.policy.leaseSecs + cfg.policy.marginSecs &&
      (p.cq.running = 0 || h.kept now)

theorem timely_iff {cfg : Settings} {p : Party ι} {now : Nat} :
    p.timely cfg now ↔ (p.live now → ∃ h, p.row = some h ∧
      (now - h.reportedAt) / 1000 < cfg.policy.leaseSecs + cfg.policy.marginSecs ∧
      (0 < p.cq.running → h.kept now)) := by
  cases hl : p.live now with
  | false => simp [timely, hl]
  | true =>
    cases hr : p.row with
    | none => simp [timely, hl, hr]
    | some =>
      simp only [timely, hl, hr, Bool.not_true, Bool.false_or, Option.any_some, Bool.and_eq_true,
        decide_eq_true_eq, Bool.or_eq_true, Option.some.injEq, exists_eq_left', true_imp_iff,
        Nat.pos_iff_ne_zero]
      tauto

end Party

end QueryFlux.Quota
