import QueryFlux.Quota.HardLimit

/-!
# Holders that go silent

What a pass counts for a holder whose reports stop. While its last report is younger than
`lease_secs + margin_secs` the ceiling still counts, and with it everything the holder can have
admitted; after that only the running queries it last reported do; and when the row is five
minutes old nothing does. The holder stops admitting in time, but queries it admitted after its
last report run on, so the count covers them only in the first of the three periods.
-/

namespace QueryFlux.Quota

open QueryFlux.Lib

/-! ## What a pass counts for a replica -/

variable {ι : Type} [LinearOrder ι] {cfg : Settings}

namespace Sys

/-- What the pass counts for the replica. -/
def share (cfg : Settings) (s : Sys ι) (p : Party ι) : Nat :=
  (p.expire s.now).row.elim 0 fun row =>
    (granted (s.allocation cfg).changed (row.holderState p.instanceId s.now)).commit cfg.policy

/-- The grant that the pass leaves in the row of the replica. -/
def grantAfter (cfg : Settings) (s : Sys ι) (p : Party ι) : Nat :=
  (p.expire s.now).row.elim 0 fun row =>
    (newGrant (s.allocation cfg).changed (row.holderState p.instanceId s.now)).1

variable {s : Sys ι} {p : Party ι}

/-- The shares of the replicas add up to what the pass commits. -/
theorem WF.sum_share (hw : s.WF cfg) :
    (s.parties.map (s.share cfg)).sum = (s.allocation cfg).quotaCommitted := by
  have hcommit : (s.allocation cfg).quotaCommitted = (s.holders.map fun h =>
      (granted (s.allocation cfg).changed h).commit cfg.policy).sum :=
    allocate_committed hw.holders_nodup hw.holders_fit
  rw [hcommit, sum_holders]
  congr 1
  refine List.map_congr_left fun p _ => ?_
  unfold share Party.holderState
  cases (p.expire s.now).row <;> rfl

theorem WF.quotaCommitted_eq (hw : s.WF cfg) :
    (s.runAllocation cfg).quotaCommitted = toI64 (s.parties.map (s.share cfg)).sum := by
  rw [hw.sum_share]
  unfold runAllocation
  split_ifs with hnone
  · rw [allocation, hnone.1]
    exact hnone.2
  · rfl

theorem share_none (h : (p.expire s.now).row = none) : s.share cfg p = 0 := by
  rw [share, h]
  rfl

theorem share_silent {row : HolderRow} (h : (p.expire s.now).row = some row)
    (hact : (row.holderState p.instanceId s.now).active cfg.policy = false) :
    s.share cfg p = row.running := by
  rw [share, h, Option.elim_some, commit_granted_inactive _ hact]
  rfl

theorem share_active {row : HolderRow} (h : (p.expire s.now).row = some row)
    (hact : (row.holderState p.instanceId s.now).active cfg.policy = true) :
    s.share cfg p =
      max (newGrant (s.allocation cfg).changed (row.holderState p.instanceId s.now)).2
        row.running := by
  rw [share, h, Option.elim_some, commit_granted_active _ hact]
  rfl

theorem WF.grantAfter_le_share (hw : s.WF cfg) (hp : p ∈ s.parties) :
    s.grantAfter cfg p ≤ s.share cfg p := by
  cases hr : (p.expire s.now).row with
  | none =>
    rw [grantAfter, hr]
    exact Nat.zero_le _
  | some row =>
    obtain ⟨-, hfit, hidle⟩ := hw.allocation_row hp hr
    rw [grantAfter, hr, Option.elim_some]
    cases hact : (row.holderState p.instanceId s.now).active cfg.policy with
    | true =>
      rw [share_active hr hact]
      exact hfit.trans (Nat.le_max_left _ _)
    | false =>
      rw [(hidle hact).1]
      exact Nat.zero_le _

theorem WF.le_share (hw : s.WF cfg) (hp : p ∈ s.parties) (hc : p.Covered cfg s.now)
    (ht : p.timely cfg s.now) :
    max (p.enforcedQuota s.now) p.cq.running ≤ s.share cfg p := by
  by_cases hl : p.live s.now
  · obtain ⟨row, hrow, -⟩ := hc.quota hl
    have hexp := hc.expire_live ht hrow hl
    have hact := Party.active_of_live ht hrow hl
    have hceil : row.ceiling ≤ _ := (hw.allocation_row hp hexp).1 hact
    have hle := hc.le_counted
    simp only [Party.counted, hrow, Option.elim_some, HolderRow.counted] at hle
    rw [share_active hexp hact]
    omega
  · rw [Party.live_iff, not_or] at hl
    have hr : p.cq.running = 0 := Nat.eq_zero_of_not_pos hl.2
    rw [Party.enforcedQuota, if_neg hl.1, hr]
    exact Nat.zero_le _

/-- Whatever of its share each replica uses, a pass that found the rows within the limit leaves it
there. -/
theorem WF.sum_le_limit (hw : s.WF cfg) {used : Party ι → Nat}
    (hused : ∀ p ∈ s.parties, used p ≤ s.share cfg p)
    (hbefore : (s.holders.map fun h => h.commit cfg.policy).sum + s.leased ≤
      cfg.maxRunningQueries) :
    (s.parties.map used).sum + s.leased ≤ cfg.maxRunningQueries := by
  have hsum : (s.parties.map used).sum ≤ (s.parties.map (s.share cfg)).sum := sum_map_le hused
  have hle : (s.allocation cfg).quotaCommitted ≤
      max (s.holders.map fun h => h.commit cfg.policy).sum (s.reportedMax - s.leased) :=
    allocate_committed_le hw.holders_fit
  have hmax := reportedMax_le hw
  rw [hw.sum_share] at hsum
  omega

end Sys

/-! ## Replicas that report in time -/

/-- Reports are processed in the order sent, and passes find holder `id` in time. -/
def inTimeAt (cfg : Settings) (id : ι) (s : Sys ι) (a : Act ι) : Prop :=
  s.inOrder a ∧ (a = .runAllocation → ∀ p ∈ s.parties, p.instanceId = id → p.timely cfg s.now)

namespace Sys

variable {s s' : Sys ι} {a : Act ι} {id : ι}

structure CoveredAt (cfg : Settings) (id : ι) (s : Sys ι) : Prop extends s.WF cfg where
  covered : ∀ p ∈ s.parties, p.instanceId = id → p.Covered cfg s.now

theorem CoveredAt.step (hc : s.CoveredAt cfg id) (hs : s.step cfg a = some s')
    (hok : inTimeAt cfg id s a) : s'.CoveredAt cfg id where
  toWF := hc.toWF.step hs
  covered p' hp' hid := by
    obtain ⟨p, hp, hm⟩ := forall₂_mem_right (step_moved hs) hp'
    have hpid : p.instanceId = id := hm.instanceId.symm.trans hid
    refine hc.toWF.covered_step hs hp hm (hc.covered p hp hpid) (fun ha => hok.2 ha p hp hpid) ?_
    rintro act rfl m hmem hact
    exact Party.harmless_iff.2
      (Or.inl (of_decide_eq_true (processing_holder hok.1 hp hmem hact)))

theorem coveredAt_of_inTimeAt (h : (protocol ι cfg).Reach (inTimeAt cfg id) s) :
    s.CoveredAt cfg id :=
  h.invariant (fun _ hs => ⟨WF.initial hs, fun p hp _ => covered_initial hs p hp⟩)
    fun _ _ _ hc hok hs => hc.step hs hok

end Sys

/-! ## Every pass -/

/-- What a pass counts, in every run and for any silence; that this is at least what a holder uses
that every pass finds in time; and that the pass then leaves the grants of the others, the leases
and the queries of that holder within the limit if it found the rows within it. -/
theorem pass_counts_holder {s : Sys ι} (h : (protocol ι cfg).Reach (fun _ _ => True) s) :
    (s.runAllocation cfg).quotaCommitted = toI64 (s.parties.map (s.share cfg)).sum ∧
    (∀ p ∈ s.parties, match (p.expire s.now).row with
      | none => s.share cfg p = 0
      | some row =>
        if (s.now - row.reportedAt) / 1000 < cfg.policy.leaseSecs + cfg.policy.marginSecs then
          max row.ceiling row.running ≤ s.share cfg p
        else s.share cfg p = row.running) ∧
    ∀ id, (protocol ι cfg).Reach (inTimeAt cfg id) s → inTimeAt cfg id s .runAllocation →
      (∀ p ∈ s.parties, p.instanceId = id →
        max (p.enforcedQuota s.now) p.cq.running ≤ s.share cfg p) ∧
      ((s.holders.map fun h => h.commit cfg.policy).sum + s.leased ≤ cfg.maxRunningQueries →
        (s.parties.map fun p =>
          if p.instanceId = id then p.cq.running else s.grantAfter cfg p).sum + s.leased ≤
            cfg.maxRunningQueries) := by
  have hw : s.WF cfg := h.invariant (fun _ hs => .initial hs) fun _ _ _ hw _ hs => hw.step hs
  refine ⟨hw.quotaCommitted_eq, ?_, ?_⟩
  · intro p hp
    split
    · exact Sys.share_none ‹_›
    · rename_i row hr
      split_ifs with hlt
      · have hact : (row.holderState p.instanceId s.now).active cfg.policy := decide_eq_true hlt
        have hceil : row.ceiling ≤ _ := (hw.allocation_row hp hr).1 hact
        rw [Sys.share_active hr hact]
        omega
      · exact Sys.share_silent hr (decide_eq_false hlt)
  · intro id htime hpass
    have hc := Sys.coveredAt_of_inTimeAt htime
    have hcount : ∀ p ∈ s.parties, p.instanceId = id →
        max (p.enforcedQuota s.now) p.cq.running ≤ s.share cfg p :=
      fun p hp hid => hw.le_share hp (hc.covered p hp hid) (hpass.2 rfl p hp hid)
    refine ⟨hcount, hw.sum_le_limit fun p hp => ?_⟩
    split
    · exact (Nat.le_max_right _ _).trans (hcount p hp ‹_›)
    · exact hw.grantAfter_le_share hp

/-- Holder 1 is granted the four slots and admits four queries it never reports. -/
def unreported : List (Act Nat) :=
  turnOn ++ roundTrip 1 0 4 ++ [.runAllocation] ++ roundTrip 1 1 0 ++
    List.replicate 4 (.holder 1 .tryAcquire)

/-- Its quotas are switched off, and twenty seconds later holder 2 asks for capacity. -/
def switchedOff : List (Act Nat) :=
  unreported ++ [.holder 1 (.setPolicy false), .tick 20000] ++ roundTrip 2 0 4

/-- The next pass counts nothing for the four queries that run, and with the capacity holder 2
is given eight queries run on four slots. -/
theorem silent_holder_uncounted :
    (∃ s, (protocol Nat fourSlots).Reach (fun s a => s.inOrder a) s ∧
      (s.parties.any fun p => s.share fourSlots p < p.cq.running)) ∧
    ∃ s, (protocol Nat fourSlots).Reach (fun s a => s.inOrder a) s ∧
      decide (fourSlots.maxRunningQueries < (s.parties.map fun p => p.cq.running).sum) := by
  constructor
  · exact reach_twoHolders Sys.inOrder (fun _ _ h => h) switchedOff _ (by decide +kernel)
  · exact reach_twoHolders Sys.inOrder (fun _ _ h => h)
      (switchedOff ++ [.runAllocation] ++ roundTrip 2 1 4 ++
        List.replicate 4 (.holder 2 .tryAcquire)) _ (by decide +kernel)

/-- While the silence is short the four queries are counted. -/
theorem pass_counts_unreported :
    ∃ s, (protocol Nat fourSlots).Reach (inTimeAt fourSlots 1) s ∧
      ∃ p ∈ s.parties, p.cq.running = 4 ∧ 4 ≤ s.share fourSlots p := by
  obtain ⟨s, hs, htest⟩ := reach_twoHolders
    (fun s a => s.inOrder a && s.parties.all fun p => p.timely fourSlots s.now)
    (fun s a h => by
      rw [Bool.and_eq_true] at h
      exact (⟨h.1, fun _ p hp _ => List.all_eq_true.1 h.2 p hp⟩ : inTimeAt fourSlots 1 s a))
    (unreported ++ [.tick 19000])
    (fun s => s.timely fourSlots && s.parties.any fun p => p.instanceId = 1 && p.cq.running = 4)
    (by decide +kernel)
  simp only [Bool.and_eq_true, List.any_eq_true, decide_eq_true_eq] at htest
  obtain ⟨htime, p, hp, hid, hrun⟩ := htest
  have hpass : inTimeAt fourSlots 1 s .runAllocation :=
    ⟨rfl, fun _ p hp _ => List.all_eq_true.1 htime p hp⟩
  have hshare := ((pass_counts_holder (hs.mono fun _ _ _ => trivial)).2.2 1 hs hpass).1 p hp hid
  exact ⟨s, hs, p, hp, hrun, hrun ▸ (Nat.le_max_right _ _).trans hshare⟩

end QueryFlux.Quota
