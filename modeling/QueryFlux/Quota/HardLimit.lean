import QueryFlux.Quota.LateReports

/-!
# The hard limit

The allocator keeps `sum(commit) + leased <= maxRunningQueries` if no report makes a row count
more than it did: passes pay for every increase out of free capacity, leases are taken only
from what is not committed, and reports only lower what a row counts. A report that is
processed after its row was cleared for silence does not: its running count comes back on top
of capacity that has been handed out since, and the next pass grants against it.
-/

namespace QueryFlux.Quota

open QueryFlux.Lib

variable {ι : Type} {cfg : Settings}

namespace Party

variable {now : Nat} {p p' : Party ι}

theorem counted_expire_le (p : Party ι) (now : Nat) : (p.expire now).counted ≤ p.counted := by
  cases hr : p.row with
  | none => simp [counted, expire, hr]
  | some h =>
    have hcases : (p.expire now).row = some h ∨ (p.expire now).row = none := by
      cases hk : h.kept now <;> simp [expire, hr, hk]
    rcases hcases with hc | hc
    · simp [counted, hr, hc]
    · simp [counted, hc]

theorem reportDemand_ceiling_le (hw : p.WF cfg now) (r : DemandReport) :
    (HolderRow.reportDemand p.row r now).ceiling ≤ p.counted := by
  cases hr : p.row with
  | none => exact Nat.zero_le _
  | some h =>
    have hle : h.granted ≤ h.ceiling := (hw.row h hr).granted_le
    simp only [HolderRow.reportDemand, counted, hr, Option.elim_some, HolderRow.counted]
    split <;> omega

theorem counted_step_le (hw : p.WF cfg now) {act : LocalAct} (hs : Stepped cfg now p act p')
    (hok : ∀ m ∈ p.sent, act = .process m.call → toI64 m.report.running ≤ p.counted) :
    p'.counted ≤ p.counted := by
  cases hs with
  | @process m hm =>
    rw [counted_processReport]
    exact Nat.max_le.2 ⟨reportDemand_ceiling_le hw m.report, hok m hm rfl⟩
  | _ => exact Nat.le_refl _

theorem counted_update_le [DecidableEq ι] (hw : p.WF cfg now) {changed : List (Allocation ι)}
    {row : HolderRow} (hrow : p.row = some row)
    (hidle : (row.holderState p.instanceId now).active cfg.policy = false →
      (newGrant changed (row.holderState p.instanceId now)).2 = 0) :
    (p.update changed).counted ≤
      (granted changed (row.holderState p.instanceId now)).commit cfg.policy := by
  have hle := toI64_le_self (newGrant changed (row.holderState p.instanceId now)).2
  have hnew : (p.update changed).counted =
      max (toI64 (newGrant changed (row.holderState p.instanceId now)).2) row.running := by
    simp [counted, update_row hw, hrow, HolderRow.counted, HolderRow.update]
  have hrun : (row.holderState p.instanceId now).running = row.running := rfl
  cases hact : (row.holderState p.instanceId now).active cfg.policy with
  | true =>
    rw [commit_granted_active changed hact, hrun]
    omega
  | false =>
    have hzero := hidle hact
    rw [commit_granted_inactive changed hact, hrun]
    omega

theorem commit_le_counted {row : HolderRow} (hrow : p.row = some row) :
    (row.holderState p.instanceId now).commit cfg.policy ≤ p.counted := by
  simp only [counted, hrow, Option.elim_some, HolderRow.counted, HolderState.commit]
  split
  · exact Nat.le_refl _
  · exact Nat.le_max_right _ _

end Party

/-! ## The invariant -/

section Limit

variable [LinearOrder ι]

namespace Sys

variable {s s' : Sys ι} {a : Act ι}

/-- What is counted for the replicas is committed, and that fits beside the leases. -/
structure Limited (cfg : Settings) (s : Sys ι) : Prop extends s.Covered cfg where
  counted : (s.parties.map (·.counted)).sum ≤ s.quotaCommitted
  limit : s.quotaCommitted + s.leased ≤ cfg.maxRunningQueries

theorem reportedMax_le (hw : s.WF cfg) : s.reportedMax ≤ cfg.maxRunningQueries := by
  refine min?_getD_le fun n hn => ?_
  obtain ⟨row, hrow, rfl⟩ := List.mem_map.1 hn
  obtain ⟨q, hq, hr⟩ := List.mem_filterMap.1 hrow
  obtain ⟨p, hp, rfl⟩ := List.mem_map.1 hq
  exact ((hw.party p hp).expire.row row hr).max_le

omit [LinearOrder ι] in
theorem sum_holders (s : Sys ι) (g : HolderState ι → Nat) :
    (s.holders.map g).sum = (s.parties.map fun p =>
      ((p.expire s.now).holderState s.now).elim 0 g).sum := by
  rw [holders, sum_map_filterMap, List.map_map]
  rfl

omit [LinearOrder ι] in
theorem sum_commit_le (s : Sys ι) (cfg : Settings) :
    (s.holders.map fun h => h.commit cfg.policy).sum ≤ (s.parties.map (·.counted)).sum := by
  rw [sum_holders]
  refine sum_map_le fun p _ => ?_
  cases hr : (p.expire s.now).row with
  | none => simp [Party.holderState, hr]
  | some =>
    simp only [Party.holderState, hr, Option.map_some, Option.elim_some]
    exact (Party.commit_le_counted hr).trans (Party.counted_expire_le p s.now)

theorem sum_counted_le (hw : s.WF cfg) :
    ((s.runAllocation cfg).parties.map (·.counted)).sum ≤ (s.allocation cfg).quotaCommitted := by
  have hcommit : (s.allocation cfg).quotaCommitted = (s.holders.map fun h =>
      (granted (s.allocation cfg).changed h).commit cfg.policy).sum :=
    allocate_committed hw.holders_nodup hw.holders_fit
  rw [hcommit, sum_holders, runAllocation_parties, List.map_map]
  refine sum_map_le fun p hp => ?_
  have hwp := (hw.party p hp).expire
  cases hr : (p.expire s.now).row with
  | none =>
    simp [Party.counted, Party.update_row hwp, hr]
  | some =>
    simp only [Function.comp_apply, Party.holderState, hr, Option.map_some, Option.elim_some]
    exact Party.counted_update_le hwp hr fun hidle => ((hw.allocation_row hp hr).2.2 hidle).2

theorem Limited.allocation_le (hl : s.Limited cfg) :
    (s.allocation cfg).quotaCommitted + s.leased ≤ cfg.maxRunningQueries := by
  have hle : (s.allocation cfg).quotaCommitted ≤
      max (s.holders.map fun h => h.commit cfg.policy).sum (s.reportedMax - s.leased) :=
    allocate_committed_le hl.holders_fit
  have hsum := sum_commit_le s cfg
  have hmax := reportedMax_le hl.toWF
  have hcounted := hl.counted
  have hlimit := hl.limit
  omega

/-- A pass keeps the limit. -/
theorem Limited.runAllocation (hl : s.Limited cfg) :
    ((s.runAllocation cfg).parties.map (·.counted)).sum ≤ (s.runAllocation cfg).quotaCommitted ∧
      (s.runAllocation cfg).quotaCommitted + (s.runAllocation cfg).leased ≤
        cfg.maxRunningQueries := by
  have hsum := sum_counted_le hl.toWF
  have hle := hl.allocation_le
  have hfit := cfg.max_le
  have hq : toI64 (s.allocation cfg).quotaCommitted = (s.allocation cfg).quotaCommitted :=
    toI64_of_le (by omega)
  by_cases hnone : s.holders = [] ∧ s.quotaCommitted = 0
  · have hzero : (s.allocation cfg).quotaCommitted = 0 := by
      rw [allocation, hnone.1]
      rfl
    have hs : (s.runAllocation cfg).quotaCommitted = s.quotaCommitted ∧
        (s.runAllocation cfg).leased = s.leased := by
      simp [Sys.runAllocation, hnone]
    rw [hs.1, hs.2]
    exact ⟨by omega, hl.limit⟩
  · have hs : (s.runAllocation cfg).quotaCommitted = (s.allocation cfg).quotaCommitted ∧
        (s.runAllocation cfg).leased = s.leased := by
      simp [Sys.runAllocation, hnone, hq]
    rw [hs.1, hs.2]
    exact ⟨hsum, hle⟩

end Sys

/-- Reports arrive in time and in the order sent, and none reports more running queries than
its row counts. -/
def withinCount (cfg : Settings) (s : Sys ι) (a : Act ι) : Prop :=
  s.timely cfg ∧ s.inOrder a ∧ s.processing (fun p m => toI64 m.report.running ≤ p.counted) a

theorem withinCount.lateHarmless {s : Sys ι} {a : Act ι} (h : withinCount cfg s a) :
    lateHarmless cfg s a :=
  ⟨h.1, Sys.processing_imp
    (fun _ _ hord => Party.harmless_iff.2 (Or.inl (of_decide_eq_true hord))) h.2.1⟩

namespace Sys

variable {s s' : Sys ι} {a : Act ι}

theorem Limited.holder_counted (hl : s.Limited cfg) {id : ι} {act : LocalAct}
    (hs : s.step cfg (.holder id act) = some s') (hok : withinCount cfg s (.holder id act)) :
    (s'.parties.map (·.counted)).sum ≤ (s.parties.map (·.counted)).sum := by
  refine sum_map_le_of_forall₂ ?_
  have hmoved : List.Forall₂ (fun p p' => p ∈ s.parties ∧ Moved cfg s (.holder id act) p p')
      s.parties s'.parties :=
    (List.forall₂_and_left _ _).2 ⟨fun p hp => hp, step_moved hs⟩
  refine hmoved.imp fun p p' ⟨hp, hm⟩ => ?_
  rcases hm with rfl | ⟨act', ha, hst⟩ | ⟨ha, -⟩
  · exact Nat.le_refl _
  · obtain ⟨rfl, rfl⟩ := Act.holder.inj ha
    refine Party.counted_step_le (hl.toWF.party p hp) hst fun m hm hact => ?_
    exact of_decide_eq_true (processing_holder hok.2.2 hp hm hact)
  · cases ha

/-- Every step keeps the limit. -/
theorem Limited.step (hl : s.Limited cfg) (hs : s.step cfg a = some s')
    (hok : withinCount cfg s a) : s'.Limited cfg := by
  have hcov := hl.toCovered.step hs hok.lateHarmless
  have hcounted := hl.counted
  have hlimit := hl.limit
  cases a with
  | tick =>
    cases hs
    exact ⟨hcov, hcounted, hlimit⟩
  | holder =>
    have hsum := hl.holder_counted hs hok
    obtain ⟨ps, -, rfl⟩ := Option.map_eq_some_iff.1 hs
    exact ⟨hcov, hsum.trans hcounted, hlimit⟩
  | runAllocation =>
    cases hs
    exact ⟨hcov, hl.runAllocation.1, hl.runAllocation.2⟩
  | takeLease =>
    simp only [Sys.step, Option.ite_none_right_eq_some, Option.some.injEq] at hs
    obtain ⟨hfree, rfl⟩ := hs
    refine ⟨hcov, hcounted, ?_⟩
    show s.quotaCommitted + (s.leased + 1) ≤ cfg.maxRunningQueries
    omega
  | releaseLease =>
    simp only [Sys.step, Option.ite_none_right_eq_some, Option.some.injEq] at hs
    obtain ⟨-, rfl⟩ := hs
    refine ⟨hcov, hcounted, ?_⟩
    show s.quotaCommitted + (s.leased - 1) ≤ cfg.maxRunningQueries
    omega

theorem Limited.initial (h : s.initial) : s.Limited cfg := by
  refine ⟨Covered.initial h, ?_, ?_⟩
  · obtain ⟨ids, -, rfl⟩ := h
    simp [List.map_map, Function.comp_def, Party.counted]
  · obtain ⟨ids, -, rfl⟩ := h
    exact Nat.zero_le _

theorem limited_of_withinCount (h : (protocol ι cfg).Reach (withinCount cfg) s) : s.Limited cfg :=
  h.invariant (fun _ => Limited.initial) fun _ _ _ hl hok hs => hl.step hs hok

end Sys

/-- The valid quotas or the running queries of the holders, whichever is more for each, and the
leases are together within the limit. -/
theorem hard_limit_of_withinCount {s : Sys ι} (h : (protocol ι cfg).Reach (withinCount cfg) s) :
    (s.parties.map fun p => max (p.enforcedQuota s.now) p.cq.running).sum + s.leased ≤
      cfg.maxRunningQueries := by
  have hl := Sys.limited_of_withinCount h
  have hsum : (s.parties.map fun p => max (p.enforcedQuota s.now) p.cq.running).sum ≤
      (s.parties.map (·.counted)).sum :=
    sum_map_le fun p hp => (hl.covered p hp).le_counted
  have hcounted := hl.counted
  have hlimit := hl.limit
  omega

end Limit

/-! ## Two runs -/

/-- Holder 2 is granted all four slots, runs four queries, ends them, and goes silent with two
reports under way; the first is processed, twenty seconds pass, and holder 1 gets the capacity
and uses it. -/
def silence : List (Act Nat) :=
  turnOn ++ roundTrip 2 0 4 ++ [.runAllocation, .tick 1000] ++ roundTrip 2 1 4 ++
    [.tick 1000, .holder 2 (.report 0), .tick 1000, .holder 2 .failed] ++
    List.replicate 4 (.holder 2 .tryAcquire) ++
    [.tick 1000, .holder 2 (.report 0), .holder 2 .failed] ++
    List.replicate 4 (.holder 2 .release) ++
    [.tick 13000, .holder 2 (.process 2), .tick 20000] ++
    roundTrip 1 0 4 ++ [.runAllocation] ++ roundTrip 1 1 4 ++
    List.replicate 4 (.holder 1 .tryAcquire)

/-- The second report, of four running queries, is then processed; the next pass grants holder
2 two slots against them, and it uses both. -/
def returning : List (Act Nat) :=
  [.tick 1000, .holder 2 (.process 3), .runAllocation] ++ roundTrip 2 4 4 ++
    List.replicate 2 (.holder 2 .tryAcquire)

/-- Six queries run on four slots, with every report in time and in order. -/
theorem stale_report_breaks_limit :
    ∃ s, (protocol Nat fourSlots).Reach (fun s a => s.timely fourSlots ∧ s.inOrder a) s ∧
      decide (fourSlots.maxRunningQueries <
        (s.parties.map fun p => max (p.enforcedQuota s.now) p.cq.running).sum + s.leased) := by
  exact reach_twoHolders (fun s a => s.timely fourSlots && s.inOrder a)
    (fun _ _ h => Bool.and_eq_true_iff.1 h) (silence ++ returning) _ (by decide +kernel)

/-- Up to that report the condition holds and the four slots are in use. -/
theorem hard_limit_silence :
    ∃ s, (protocol Nat fourSlots).Reach (withinCount fourSlots) s ∧
      (s.parties.any fun p => p.cq.running = 4) ∧
      (s.parties.map fun p => max (p.enforcedQuota s.now) p.cq.running).sum + s.leased ≤
        fourSlots.maxRunningQueries := by
  obtain ⟨s, hs, hrun⟩ := reach_twoHolders
    (fun s a => s.timely fourSlots && (s.inOrder a &&
      s.processing (fun p m => toI64 m.report.running ≤ p.counted) a))
    (fun _ _ h => by simpa only [Bool.and_eq_true] using h) silence
    (fun s => s.parties.any fun p => p.cq.running = 4) (by decide +kernel)
  exact ⟨s, hs, hrun, hard_limit_of_withinCount hs⟩

end QueryFlux.Quota
