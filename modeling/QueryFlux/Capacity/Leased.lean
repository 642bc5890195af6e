import QueryFlux.Capacity.Store

/-!
# The lease counter is exact

Inside one call the counter of a cluster runs ahead of its leases: rows are deleted first, and the
trigger counts them down cluster by cluster, handing out slots, and so inserting leases, after
each. `Sound max uncounted` is what holds all the way through, `uncounted c` being the deleted
rows of `c` that the trigger has not come to yet. Every operation keeps it, and between calls
nothing is uncounted.

Slots are only handed out or taken under a limit that leaves room for them, so after a call the
clusters it inserted leases on are within their limits (`leased_exact_and_bounded`).
-/

set_option linter.unusedSectionVars false

namespace QueryFlux.Capacity.Store

open Lib List

/-! ## Counters -/

variable {κ ι ν : Type} [LinearOrder κ] [LinearOrder ι] {s : Store κ ι ν}

/-- Leases, and the capacity set aside for quotas. -/
def taken (s : Store κ ι ν) (c : κ) : Nat :=
  (s.counter c).leased + (s.counter c).quotaCommitted + (s.counter c).quotaWanted

theorem counter_setCounter (s : Store κ ι ν) (c c' : κ) (k : Option Counter) :
    (s.setCounter c k).counter c' = if c' = c then k.getD {} else s.counter c' := by
  unfold counter setCounter
  dsimp only
  split
  · rename_i h
    rw [h, Function.update_self]
  · rename_i h
    rw [Function.update_of_ne h]

theorem counter_leasesInserted (new : List (Lease κ ι ν)) (s : Store κ ι ν) (c : κ) :
    (leasesInserted new s).counter c =
      { s.counter c with
        leased := (s.counter c).leased + new.countP (·.clusterName == c) } := by
  unfold leasesInserted counter
  dsimp only
  split
  · rename_i h
    rw [h, Nat.add_zero]
  · rename_i n h
    rw [h]
    rfl

theorem counter_countDown (s : Store κ ι ν) (c c' : κ) (n : Nat) :
    (s.countDown c n).counter c' =
      if c' = c then { s.counter c with leased := (s.counter c).leased - n }
      else s.counter c' := by
  rw [countDown, counter_setCounter]
  refine if_congr Iff.rfl ?_ rfl
  unfold counter
  cases s.counters c with
  | none => simp
  | some => rfl

theorem taken_of_free {c : κ} {free : Nat}
    (h : (s.counters c).bind Counter.free = some (free + 1)) :
    ∃ m, (s.counter c).maxRunning = some m ∧ s.taken c + (free + 1) = m := by
  obtain ⟨k, hk, hfree⟩ := Option.bind_eq_some_iff.1 h
  obtain ⟨m, hm, hfree⟩ := Option.map_eq_some_iff.1 hfree
  have hcounter : s.counter c = k := by rw [counter, hk, Option.getD_some]
  refine ⟨m, by rw [hcounter, hm], ?_⟩
  rw [taken, hcounter]
  omega

theorem nodup_clusterNames (rows : List (Lease κ ι ν)) : (clusterNames rows).Nodup := by
  rw [clusterNames, (perm_insertionSort _ _).nodup_iff]
  exact nodup_dedup _

theorem countP_of_notMem_clusterNames {rows : List (Lease κ ι ν)} {c : κ}
    (h : c ∉ clusterNames rows) : rows.countP (·.clusterName == c) = 0 := by
  rw [countP_eq_zero]
  intro l hl hlc
  rw [clusterNames, mem_insertionSort, mem_dedup] at h
  exact h (mem_map.2 ⟨l, hl, by simpa using hlc⟩)

/-- The tables inside a call, with `uncounted c` deleted leases of `c` still to be counted
down. -/
structure Sound (max uncounted : κ → Nat) (s : Store κ ι ν) : Prop where
  keyed : Keyed (·.queryId) s.leases
  counted : ∀ c, (s.counter c).leased = s.numLeases c + uncounted c
  limit : ∀ c m, (s.counter c).maxRunning = some m → m = max c
  bounded : ∀ c ∈ s.insertedOn, s.taken c ≤ max c

/-! ## Each call keeps the count -/

namespace Sound

variable {max uncounted : κ → Nat}

section
variable (h : Sound max uncounted s)
include h

theorem congr {s' : Store κ ι ν} (hkeyed : Keyed (·.queryId) s'.leases)
    (hnum : ∀ c, s'.numLeases c = s.numLeases c) (hcounters : s'.counters = s.counters)
    (hon : s'.insertedOn = s.insertedOn) : Sound max uncounted s' := by
  have hcounter (c : κ) : s'.counter c = s.counter c := by rw [counter, counter, hcounters]
  refine ⟨hkeyed, fun c => ?_, fun c m hm => ?_, fun c hc => ?_⟩
  · rw [hcounter, hnum, h.counted]
  · exact h.limit c m (by rwa [← hcounter])
  · rw [taken, hcounter]
    exact h.bounded c (by rwa [← hon])

theorem leaveLine (ids : List ι) : Sound max uncounted (s.leaveLine ids) :=
  h.congr h.keyed (fun _ => rfl) rfl rfl

theorem insertLeases {c : κ} {offered : List (Lease κ ι ν)} (hc : ∀ l ∈ offered, l.clusterName = c)
    (hroom : s.taken c + offered.length ≤ max c) :
    Sound max uncounted (s.insertLeases offered) := by
  let new := inserted (·.queryId) s.leases offered
  have hnew : new.Sublist offered := inserted_sublist _ _
  have hcounter (c' : κ) : (s.insertLeases offered).counter c' =
      { s.counter c' with
        leased := (s.counter c').leased + new.countP (·.clusterName == c') } :=
    counter_leasesInserted ..
  refine ⟨h.keyed.append_inserted offered, fun c' => ?_, fun c' m hm => ?_, fun c' hc' => ?_⟩
  · have hnum : (s.insertLeases offered).numLeases c' =
        s.numLeases c' + new.countP (·.clusterName == c') := countP_append
    rw [hcounter, hnum, h.counted]
    dsimp only
    omega
  · rw [hcounter] at hm
    exact h.limit c' m hm
  · have hlen : new.countP (·.clusterName == c') ≤ offered.length :=
      countP_le_length.trans hnew.length_le
    by_cases heq : c' = c
    · subst heq
      rw [taken, hcounter]
      rw [taken] at hroom
      dsimp only
      omega
    · have hzero : new.countP (·.clusterName == c') = 0 := by
        rw [countP_eq_zero]
        intro l hl
        rw [hc l (hnew.subset hl), beq_iff_eq]
        exact Ne.symm heq
      have hold : c' ∈ s.insertedOn := by
        rcases mem_append.1 hc' with hold | hadded
        · exact hold
        · obtain ⟨l, hl, hlc⟩ := mem_map.1 hadded
          exact absurd (hlc.symm.trans (hc l (hnew.subset hl))) heq
      rw [taken, hcounter, hzero]
      exact h.bounded c' hold

theorem grantWaiters (c : κ) : Sound max uncounted (s.grantWaiters c) := by
  unfold Store.grantWaiters
  split
  · exact h
  · exact h
  · rename_i free hpos hfree
    obtain ⟨n, rfl⟩ : ∃ n, free = n + 1 := Nat.exists_eq_succ_of_ne_zero hpos
    obtain ⟨m, hm, htaken⟩ := taken_of_free hfree
    have hmax := h.limit c m hm
    refine (h.leaveLine _).insertLeases (c := c) ?_ ?_
    · intro l hl
      obtain ⟨w, -, rfl⟩ := mem_map.1 hl
      rfl
    · have hlen : (s.chosen c (n + 1)).length ≤ n + 1 := length_take_le _ _
      rw [length_map]
      change s.taken c + _ ≤ _
      omega

theorem countDown (c : κ) :
    Sound max (Function.update uncounted c 0) (s.countDown c (uncounted c)) := by
  refine ⟨h.keyed, fun c' => ?_, fun c' m hm => ?_, fun c' hc' => ?_⟩
  · have hcounted := h.counted c'
    rw [counter_countDown]
    change _ = s.numLeases c' + _
    by_cases heq : c' = c
    · subst heq
      rw [if_pos rfl, Function.update_self]
      dsimp only
      omega
    · rw [if_neg heq, Function.update_of_ne heq, hcounted]
  · rw [counter_countDown] at hm
    split_ifs at hm with heq
    · exact h.limit c' m (heq ▸ hm)
    · exact h.limit c' m hm
  · have hold := h.bounded c' hc'
    rw [taken] at hold ⊢
    rw [counter_countDown]
    split
    · rename_i heq
      rw [heq] at hold ⊢
      dsimp only
      omega
    · exact hold

end

theorem countDownAll {deleted : κ → Nat} :
    ∀ {names : List κ} {s : Store κ ι ν}, names.Nodup →
      Sound max (fun c => if c ∈ names then deleted c else 0) s →
      Sound max (fun _ => 0)
        (names.foldl (fun s c => (s.countDown c (deleted c)).grantWaiters c) s) := by
  intro names
  induction names with
  | nil =>
    intro s _ h
    simpa using h
  | cons c names ih =>
    intro s hnodup h
    obtain ⟨hc, hnodup⟩ := nodup_cons.1 hnodup
    refine ih hnodup ?_
    have hdown := h.countDown c
    rw [if_pos (.head _)] at hdown
    have hrest : Function.update (fun c' => if c' ∈ c :: names then deleted c' else 0) c 0 =
        fun c' => if c' ∈ names then deleted c' else 0 := by
      funext c'
      by_cases heq : c' = c
      · subst heq
        rw [Function.update_self, if_neg hc]
      · rw [Function.update_of_ne heq]
        simp [heq]
    rw [hrest] at hdown
    exact hdown.grantWaiters c

theorem deleteLeases (h : Sound max (fun _ => 0) s) (p : Lease κ ι ν → Bool) :
    Sound max (fun _ => 0) (s.deleteLeases p) := by
  refine countDownAll (nodup_clusterNames _)
    ⟨h.keyed.filter _, fun c => ?_, h.limit, h.bounded⟩
  have hcounted := h.counted c
  have hsplit : s.numLeases c = (s.leases.filter p).countP (·.clusterName == c) +
      (s.leases.filter fun l => !p l).countP (·.clusterName == c) := by
    rw [numLeases, countP_eq_countP_filter_add _ _ p]
  change (s.counter c).leased = (s.leases.filter fun l => !p l).countP (·.clusterName == c) + _
  split_ifs with hc
  · omega
  · have hnone := countP_of_notMem_clusterNames hc
    omega

theorem dropUnclaimed (h : Sound max (fun _ => 0) s) (c : κ) (q : ι) :
    Sound max (fun _ => 0) (s.dropUnclaimed c q) :=
  (h.deleteLeases _).deleteLeases _

section
variable (h : Sound max uncounted s)
include h

theorem claim (c : κ) (q : ι) : Sound max uncounted (s.claim c q) := by
  refine h.congr (h.keyed.map fun l => ?_) (fun c' => ?_) rfl rfl
  · split <;> rfl
  · rw [numLeases, Store.claim, countP_map]
    refine countP_congr fun l _ => ?_
    dsimp only [Function.comp]
    split <;> rfl

theorem setCounter {c : κ} {k : Option Counter}
    (hleased : (k.getD {}).leased = (s.counter c).leased)
    (hlimit : ∀ m, (k.getD {}).maxRunning = some m → m = max c) (hbounded : c ∈ s.insertedOn →
      (k.getD {}).leased + (k.getD {}).quotaCommitted + (k.getD {}).quotaWanted ≤ max c) :
    Sound max uncounted (s.setCounter c k) := by
  refine ⟨h.keyed, fun c' => ?_, fun c' m hm => ?_, fun c' hc' => ?_⟩
  · rw [counter_setCounter]
    split_ifs with heq
    · rw [hleased, heq]
      exact h.counted c
    · exact h.counted c'
  · rw [counter_setCounter] at hm
    split_ifs at hm with heq
    · exact heq ▸ hlimit m hm
    · exact h.limit c' m hm
  · rw [taken, counter_setCounter]
    split_ifs with heq
    · exact heq ▸ hbounded (heq ▸ hc')
    · exact h.bounded c' hc'

theorem setMax (c : κ) : Sound max uncounted (s.setMax c (max c)) :=
  h.setCounter rfl (fun _ hm => (Option.some.inj hm).symm) (h.bounded c)

theorem joinLine (c : κ) (inst : ν) (q : ι) : Sound max uncounted (s.joinLine c inst q) :=
  h.congr h.keyed (fun _ => rfl) rfl rfl

end

theorem taken_setMax (s : Store κ ι ν) (c : κ) (m : Nat) : (s.setMax c m).taken c = s.taken c := by
  rw [taken, Store.setMax, counter_setCounter, if_pos rfl]
  rfl

theorem acquireNew (h : Sound max uncounted s) (c : κ) (inst : ν) (q : ι) :
    Sound max uncounted (s.acquireNew c inst q (max c)).2 := by
  have hmax := h.setMax c
  unfold Store.acquireNew
  dsimp only
  split
  · rename_i hfree
    split
    · exact hmax
    · refine Sound.leaveLine (hmax.insertLeases (c := c) ?_ ?_) _
      · intro l hl
        rw [mem_singleton.1 hl]
      · have htaken := taken_setMax s c (max c)
        rw [taken, taken] at htaken
        rw [taken, length_singleton]
        omega
  · exact hmax.joinLine c inst q

theorem tryAcquire (h : Sound max (fun _ => 0) s) (c : κ) (inst : ν) (q : ι) :
    Sound max (fun _ => 0) (s.tryAcquire c inst q (max c)).2 := by
  have hdrop := h.dropUnclaimed c q
  unfold Store.tryAcquire
  dsimp only
  split
  · exact (hdrop.claim c q).leaveLine _
  · exact hdrop.acquireNew c inst q

theorem park (h : Sound max uncounted s) (c : κ) (q : ι) :
    Sound max uncounted (s.park c q).2 := by
  have hparked : Sound max uncounted { s with waiters := s.waiters.map fun w =>
      if w.queryId = q then { w with parked := true, refreshedAt := s.now } else w } :=
    h.congr h.keyed (fun _ => rfl) rfl rfl
  unfold Store.park
  dsimp only
  split
  · exact hparked
  · exact hparked
  · exact hparked.grantWaiters c

theorem recount (h : Sound max (fun _ => 0) s) (c : κ) :
    Sound max (fun _ => 0) (s.recount c) := by
  -- the counter is exact, so the recount changes nothing
  have hsame : s.recount c = s := by
    have hcounted := h.counted c
    rw [counter, Nat.add_zero] at hcounted
    have hrow :
        ((s.counters c).map fun k => { k with leased := s.numLeases c }) = s.counters c := by
      cases hk : s.counters c with
      | none => rfl
      | some =>
        rw [hk, Option.getD_some] at hcounted
        rw [Option.map_some, ← hcounted]
    rw [Store.recount, hrow, Store.setCounter, Function.update_eq_self]
  rwa [hsame]

theorem setQuota (h : Sound max uncounted s) (hon : s.insertedOn = []) (c : κ)
    (committed wanted : Nat) :
    Sound max uncounted (s.setCounter c
      (some { s.counter c with quotaCommitted := committed, quotaWanted := wanted })) :=
  h.setCounter rfl (h.limit c) fun hc => absurd (hon ▸ hc) not_mem_nil

theorem handOver (h : Sound max uncounted s) (hon : s.insertedOn = [])
    (quotas : List (κ × Nat × Nat)) : Sound max uncounted (s.handOver quotas) := by
  have hgrants (names : List κ) : ∀ {s : Store κ ι ν}, Sound max uncounted s →
      Sound max uncounted (names.foldl (fun s c => s.grantWaiters c) s) := by
    induction names with
    | nil => exact fun h => h
    | cons c _ ih => exact fun h => ih (h.grantWaiters c)
  refine hgrants _ ?_
  induction quotas generalizing s with
  | nil => exact h
  | cons quota _ ih => exact ih (h.setQuota hon quota.1 quota.2.1 quota.2.2) hon

theorem publishRunningCount (h : Sound max uncounted s) (c : κ) :
    Sound max uncounted (s.setCounter c (some (s.counter c))) :=
  h.setCounter rfl (h.limit c) (h.bounded c)

end Sound

variable [DecidableEq ν]

/-- All callers name one limit for a cluster. -/
def SameMax (max : κ → Nat) (_ : Store κ ι ν) : Move κ ι ν → Prop
  | .call (.tryAcquire c _ _ m) => m = max c
  | _ => True

instance (max : κ → Nat) (s : Store κ ι ν) (a : Move κ ι ν) : Decidable (SameMax max s a) := by
  unfold SameMax
  split <;> infer_instance

theorem Sound.after {max : κ → Nat} (h : Sound max (fun _ => 0) s) (hon : s.insertedOn = [])
    {a : Call κ ι ν} (hmax : SameMax max s (.call a)) : Sound max (fun _ => 0) (s.after a) := by
  cases a with
  | tryAcquire c inst q m =>
    obtain rfl : m = max c := hmax
    exact h.tryAcquire c inst q
  | park c q => exact h.park c q
  | release ids => exact (h.leaveLine ids).deleteLeases _
  | recount c => exact h.recount c
  | handOver quotas => exact h.handOver hon quotas
  | heartbeat =>
    refine h.congr (h.keyed.map fun l => ?_) (fun c' => ?_) rfl rfl
    · split <;> rfl
    · rw [numLeases, Store.after, countP_map]
      refine countP_congr fun l _ => ?_
      dsimp only [Function.comp]
      split <;> rfl
  | expireHeartbeats | releaseAllForInstance => exact h.deleteLeases _
  | expireUnclaimed => exact (h.leaveLine _).deleteLeases _
  | expireWaiters => exact h.congr h.keyed (fun _ => rfl) rfl rfl
  | publishRunningCount c => exact h.publishRunningCount c

/-- Every step keeps the invariant. -/
theorem Sound.step {max : κ → Nat} {s' : Store κ ι ν} {a : Move κ ι ν}
    (h : Sound max (fun _ => 0) s) (hmax : SameMax max s a) (hs : s.step a = some s') :
    Sound max (fun _ => 0) s' := by
  have hstart : Sound max (fun _ => 0) { s with insertedOn := [] } :=
    ⟨h.keyed, h.counted, h.limit, fun c hc => absurd hc not_mem_nil⟩
  cases a with
  | call =>
    cases hs
    exact hstart.after rfl hmax
  | tick =>
    cases hs
    exact hstart.congr hstart.keyed (fun _ => rfl) rfl rfl

theorem sound_empty (max : κ → Nat) : Sound max (fun _ => 0) (empty : Store κ ι ν) := by
  refine ⟨nodup_nil, fun c => rfl, fun c m hm => ?_, fun c hc => absurd hc not_mem_nil⟩
  cases hm

/-- The counter of a cluster is the number of its leases, a query has at most one lease, and a
cluster that just got one is within its limit. -/
theorem leased_exact_and_bounded {max : κ → Nat} {s : Store κ ι ν}
    (h : (system κ ι ν).Reach (SameMax max) s) :
    (∀ c, (s.counter c).leased = s.numLeases c) ∧
      (∀ q, s.leases.countP (·.queryId == q) ≤ 1) ∧
      ∀ c ∈ s.insertedOn, (s.counter c).leased + (s.counter c).quotaCommitted +
        (s.counter c).quotaWanted ≤ max c := by
  have hsound : Sound max (fun _ => 0) s :=
    h.invariant (fun s hs => hs ▸ sound_empty max) fun s a s' hi hok hs => hi.step hok hs
  refine ⟨hsound.counted, fun q => ?_, hsound.bounded⟩
  have hcount := nodup_iff_count_le_one.1 hsound.keyed q
  rwa [count_eq_countP, countP_map] at hcount

def handedOver : List (Move Nat Nat Nat) :=
  [.call (.tryAcquire 0 0 1 1), .tick 5, .call (.tryAcquire 0 0 2 1), .tick 5,
    .call (.tryAcquire 0 0 3 1), .call (.park 0 2), .call (.park 0 3), .call (.release [1])]

/-- The lease of a query passes to the next one in line. -/
theorem leased_exact_after_handOver :
    ∃ s, (system Nat Nat Nat).Reach (SameMax fun _ => 1) s ∧
      (s.leases.map fun l => (l.queryId, l.claimed)) = [(2, false)] ∧ s.insertedOn = [0] ∧
      (∀ c, (s.counter c).leased = s.numLeases c) ∧
      (∀ q, s.leases.countP (·.queryId == q) ≤ 1) ∧
      ∀ c ∈ s.insertedOn, (s.counter c).leased + (s.counter c).quotaCommitted +
        (s.counter c).quotaWanted ≤ 1 := by
  obtain ⟨s, hreach, hleases, hinserted⟩ : ∃ s, (system Nat Nat Nat).Reach (SameMax fun _ => 1) s ∧
      (s.leases.map fun l => (l.queryId, l.claimed)) = [(2, false)] ∧ s.insertedOn = [0] :=
    System.Reach.exists_of_run (.init rfl) handedOver (by decide +kernel)
  exact ⟨s, hreach, hleases, hinserted, leased_exact_and_bounded hreach⟩

end QueryFlux.Capacity.Store
