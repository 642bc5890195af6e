import QueryFlux.Capacity.Admission
import QueryFlux.Capacity.Leased

/-!
# What a query admitted on quota leaves in the store

A query that was denied may be in a cluster's line, or have been handed a lease. When it is then
admitted on quota, `try_acquire` gives both back, but only if the `waiting` map of the cluster that
admits it still lists it. A query that waited on another cluster keeps its place there, can be
handed a lease, and gives neither back at its end: the release of a query on quota does not reach
the store (`quota_leaves_lease_elsewhere`).

`Disciplined` is what keeps this from happening; under it a query on quota has nothing in the store,
and a released one is counted nowhere (`nothing_left_of_disciplined`).
-/

set_option linter.unusedSectionVars false

namespace QueryFlux.Capacity

open Lib List

/-! ## Queries the store does not know -/

variable {κ ι ν : Type} [LinearOrder κ] [LinearOrder ι]

namespace Store

def Absent (s : Store κ ι ν) (q : ι) : Prop :=
  (∀ l ∈ s.leases, l.queryId ≠ q) ∧ ∀ w ∈ s.waiters, w.queryId ≠ q

instance (s : Store κ ι ν) (q : ι) : Decidable (s.Absent q) := inferInstanceAs (Decidable (_ ∧ _))

namespace Absent

variable {s s' : Store κ ι ν} {q : ι}

theorem leaveLine (h : s.Absent q) (ids : List ι) : (s.leaveLine ids).Absent q :=
  ⟨h.1, fun w hw => h.2 w (mem_of_mem_filter hw)⟩

theorem insertLeases (h : s.Absent q) {offered : List (Lease κ ι ν)}
    (hoffered : ∀ l ∈ offered, l.queryId ≠ q) : (s.insertLeases offered).Absent q := by
  refine ⟨fun l hl => ?_, h.2⟩
  rcases mem_append.1 hl with hl | hl
  · exact h.1 l hl
  · exact hoffered l ((inserted_sublist _ _).subset hl)

theorem mem_chosen {c : κ} {n : Nat} {w : Waiter κ ι ν} (hw : w ∈ s.chosen c n) :
    w ∈ s.waiters := by
  have hsorted := mem_of_mem_take hw
  rw [mem_insertionSort] at hsorted
  exact mem_of_mem_filter hsorted

theorem grantWaiters (h : s.Absent q) (c : κ) : (s.grantWaiters c).Absent q := by
  unfold Store.grantWaiters
  split
  · exact h
  · exact h
  · refine (h.leaveLine _).insertLeases fun l hl => ?_
    obtain ⟨w, hw, rfl⟩ := mem_map.1 hl
    exact h.2 w (mem_chosen hw)

theorem leasesDeleted (h : s.Absent q) (old : List (Lease κ ι ν)) :
    (s.leasesDeleted old).Absent q := by
  unfold Store.leasesDeleted
  generalize clusterNames old = names
  induction names generalizing s with
  | nil => exact h
  | cons c _ ih =>
    have hdown : (s.countDown c (old.countP (·.clusterName == c))).Absent q := h
    exact ih (hdown.grantWaiters c)

theorem deleteLeases (h : s.Absent q) (p : Lease κ ι ν → Bool) : (s.deleteLeases p).Absent q := by
  have hrest : ({ s with leases := s.leases.filter fun l => !p l } : Store κ ι ν).Absent q :=
    ⟨fun l hl => h.1 l (mem_of_mem_filter hl), h.2⟩
  exact hrest.leasesDeleted _

theorem of_release {ids : List ι} (hq : q ∈ ids) : (s.release ids).Absent q := by
  have hrest : ({ s.leaveLine ids with
      leases := s.leases.filter fun l => !ids.contains l.queryId } : Store κ ι ν).Absent q := by
    constructor
    · rintro l hl rfl
      simp [hq] at hl
    · rintro w hw rfl
      simp [Store.leaveLine, hq] at hw
  exact hrest.leasesDeleted _

section
variable (h : s.Absent q)
include h

theorem release (ids : List ι) : (s.release ids).Absent q :=
  (h.leaveLine ids).deleteLeases _

theorem map_leases {f : Lease κ ι ν → Lease κ ι ν} (hf : ∀ l, (f l).queryId = l.queryId) :
    ({ s with leases := s.leases.map f } : Store κ ι ν).Absent q := by
  refine ⟨fun l hl => ?_, h.2⟩
  obtain ⟨l', hl', rfl⟩ := mem_map.1 hl
  rw [hf]
  exact h.1 l' hl'

theorem joinLine (c : κ) (inst : ν) {q' : ι} (hne : q' ≠ q) : (s.joinLine c inst q').Absent q := by
  refine ⟨h.1, fun w hw => ?_⟩
  unfold Store.joinLine upsert at hw
  split at hw
  · obtain ⟨w', hw', rfl⟩ := mem_map.1 hw
    split <;> exact h.2 w' hw'
  · rcases mem_append.1 hw with hw | hw
    · exact h.2 w hw
    · rw [mem_singleton.1 hw]
      exact hne

theorem tryAcquire (c : κ) (inst : ν) {q' : ι} (hne : q' ≠ q) (max : Nat) :
    (s.tryAcquire c inst q' max).2.Absent q := by
  have hdrop : (s.dropUnclaimed c q').Absent q := (h.deleteLeases _).deleteLeases _
  have hmax : ((s.dropUnclaimed c q').setMax c max).Absent q := hdrop
  unfold Store.tryAcquire Store.acquireNew
  dsimp only
  split
  · refine leaveLine (hdrop.map_leases fun l => ?_) _
    split <;> rfl
  · split
    · split
      · exact hmax
      · refine (hmax.insertLeases fun l hl => ?_).leaveLine _
        rw [mem_singleton.1 hl]
        exact hne
    · exact hmax.joinLine c inst hne

theorem park (c : κ) (q' : ι) : (s.park c q').2.Absent q := by
  have hparked : ({ s with waiters := s.waiters.map fun w =>
      if w.queryId = q' then { w with parked := true, refreshedAt := s.now } else w } :
      Store κ ι ν).Absent q := by
    refine ⟨h.1, fun w hw => ?_⟩
    obtain ⟨w', hw', rfl⟩ := mem_map.1 hw
    split <;> exact h.2 w' hw'
  unfold Store.park
  dsimp only
  split
  · exact hparked
  · exact hparked
  · exact hparked.grantWaiters c

theorem handOver (quotas : List (κ × Nat × Nat)) : (s.handOver quotas).Absent q := by
  have hgrants (names : List κ) : ∀ {s : Store κ ι ν}, s.Absent q →
      (names.foldl (fun s c => s.grantWaiters c) s).Absent q := by
    induction names with
    | nil => exact fun h => h
    | cons c _ ih => exact fun h => ih (h.grantWaiters c)
  refine hgrants _ ?_
  induction quotas generalizing s with
  | nil => exact h
  | cons quota _ ih =>
    have hset : (s.setCounter quota.1 (some { s.counter quota.1 with
      quotaCommitted := quota.2.1, quotaWanted := quota.2.2 })).Absent q := h
    exact ih hset

end

variable [DecidableEq ν]

theorem call (h : s.Absent q) {a : Call κ ι ν}
    (ha : ∀ c inst q' max, a = .tryAcquire c inst q' max → q' ≠ q) : (s.call a).Absent q := by
  have hstart : ({ s with insertedOn := [] } : Store κ ι ν).Absent q := h
  cases a with
  | tryAcquire c inst q' max => exact hstart.tryAcquire c inst (ha c inst q' max rfl) max
  | park c q' => exact hstart.park c q'
  | release ids => exact hstart.release ids
  | recount | publishRunningCount => exact hstart
  | handOver quotas => exact hstart.handOver quotas
  | heartbeat =>
    refine hstart.map_leases fun l => ?_
    split <;> rfl
  | expireHeartbeats | releaseAllForInstance => exact hstart.deleteLeases _
  | expireUnclaimed => exact hstart.release _
  | expireWaiters => exact ⟨h.1, fun w hw => h.2 w (mem_of_mem_filter hw)⟩

end Absent

end Store

/-- The caller has nothing to give back. -/
def Standing.Clear : Standing κ → Prop
  | .new | .onQuota true | .released => True
  | _ => False

def Standing.isOnQuota : Standing κ → Bool
  | .onQuota _ => true
  | _ => false

namespace Admission

variable [DecidableEq ν] {own : ι → Bool} {s s' : Admission κ ι ν}

def running (s : Admission κ ι ν) (c : κ) : Nat := ((s.clusters c).map (·.running)).getD 0

/-- The query is in the cluster's list of waiting ones. -/
def listed (s : Admission κ ι ν) (c : κ) (q : ι) : Bool :=
  hasKey Prod.fst ((s.clusters c).getD {}).waiting q

/-! ## The wrapper -/

/-- The invariant: a query with a clear standing is unknown to the store, and the running counts are
exact. -/
structure Good (own : ι → Bool) (s : Admission κ ι ν) : Prop where
  absent : ∀ q, own q = true → (s.standing q).Clear → s.inner.Absent q
  keyed : Keyed Prod.fst s.onQuota
  standing : ∀ q, hasKey Prod.fst s.onQuota q = (s.standing q).isOnQuota
  counted : ∀ c, s.running c = s.onQuota.countP (·.2 == c)

def admitsOnQuota (s : Admission κ ι ν) (c : κ) (max : Option Nat) : Bool :=
  s.enabled && max.isSome && (((s.clusters c).getD {}).admitOnQuota s.inner.now).isSome

/-- A query that tries is not on quota; and if the try is to be admitted on quota, the query has
asked for nothing before, or is among the cluster's waiting queries. -/
def Disciplined (s : Admission κ ι ν) : Move κ ι ν → Prop
  | .tryAcquire c max _ q _ =>
    (s.standing q).isOnQuota = false ∧ (s.admitsOnQuota c max = true →
      s.standing q = .new ∨ s.standing q = .released ∨ s.listed c q = true)
  | _ => True

instance (s : Admission κ ι ν) : DecidablePred s.Disciplined
  | .tryAcquire .. => inferInstanceAs (Decidable (_ ∧ _))
  | .release .. | .inner .. | .tick .. | .setPolicy .. | .sweep | .applyGrant .. | .noQuotas =>
    isTrue trivial

theorem running_setCluster (s : Admission κ ι ν) (c c' : κ) (cq : ClusterQuota ι) :
    (s.setCluster c cq).running c' = if c' = c then cq.running else s.running c' := by
  unfold running setCluster
  dsimp only
  split
  · rename_i h
    rw [h, Function.update_self]
    rfl
  · rename_i h
    rw [Function.update_of_ne h]

namespace Good

theorem initial : (initial : Admission κ ι ν).Good own :=
  ⟨fun _ _ _ => ⟨fun _ h => absurd h not_mem_nil, fun _ h => absurd h not_mem_nil⟩,
    nodup_nil, fun _ => rfl, fun _ => rfl⟩

variable {q : ι} {c : κ} {cq : ClusterQuota ι}

/-- One query gets another standing, on quota or not. -/
theorem update (h : s.Good own) {x : Standing κ}
    (hstanding : s'.standing = Function.update s.standing q x)
    (hothers : ∀ q', q' ≠ q → s.inner.Absent q' → s'.inner.Absent q')
    (hq : own q = true → x.Clear → s'.inner.Absent q) (hkeyed : Keyed Prod.fst s'.onQuota)
    (hkeys : ∀ q', hasKey Prod.fst s'.onQuota q' =
      if q' = q then x.isOnQuota else hasKey Prod.fst s.onQuota q')
    (hcounted : ∀ c, s'.running c = s'.onQuota.countP (·.2 == c)) : s'.Good own := by
  have hat (q' : ι) : s'.standing q' = if q' = q then x else s.standing q' := by
    rw [hstanding, Function.update_apply]
  refine ⟨fun q' hown hclear => ?_, hkeyed, fun q' => ?_, hcounted⟩
  · rw [hat] at hclear
    split_ifs at hclear with heq
    · exact heq ▸ hq (heq ▸ hown) hclear
    · exact hothers q' heq (h.absent q' hown hclear)
  · rw [hkeys, hat, h.standing]
    split_ifs <;> rfl

theorem told (h : s.Good own) {x : Standing κ}
    (hothers : ∀ q', q' ≠ q → s.inner.Absent q' → s'.inner.Absent q')
    (hq : x.Clear → s'.inner.Absent q) (hstanding : s'.standing = Function.update s.standing q x)
    (hquota : s'.onQuota = s.onQuota) (hx : x.isOnQuota = (s.standing q).isOnQuota)
    (hrunning : ∀ c, s'.running c = s.running c) : s'.Good own := by
  refine h.update hstanding hothers (fun _ => hq) (hquota ▸ h.keyed) (fun q' => ?_) fun c => ?_
  · rw [hquota]
    split_ifs with heq
    · rw [heq, hx, h.standing]
    · rfl
  · rw [hrunning, hquota, h.counted]

theorem quiet (h : s.Good own) (hothers : ∀ q, own q = true → s.inner.Absent q → s'.inner.Absent q)
    (hstanding : s'.standing = s.standing) (hquota : s'.onQuota = s.onQuota)
    (hrunning : ∀ c, s'.running c = s.running c) : s'.Good own := by
  refine ⟨fun q hown hclear => ?_, hquota ▸ h.keyed, fun q => ?_, fun c => ?_⟩
  · rw [hstanding] at hclear
    exact hothers q hown (h.absent q hown hclear)
  · rw [hquota, hstanding, h.standing]
  · rw [hrunning, hquota, h.counted]

theorem absent_innerRelease_self (q : ι) : (s.innerRelease q .answered).inner.Absent q :=
  Store.Absent.of_release (.head _)

theorem absent_innerTryAcquire {max : Option Nat} {inst : ν} {q' : ι} (reply : Reply) (hne : q' ≠ q)
    (h : s.inner.Absent q') : (s.innerTryAcquire c max inst q reply).2.inner.Absent q' := by
  have hcall (m : Nat) : (s.inner.call (.tryAcquire c inst q m)).Absent q' := by
    refine h.call fun c' inst' q'' m' heq => ?_
    cases heq
    exact hne.symm
  unfold innerTryAcquire
  split
  · exact h
  · exact h
  · exact hcall _
  · exact hcall _

theorem sameBut_innerTryAcquire (c : κ) (max : Option Nat) (inst : ν) (q : ι) (reply : Reply)
    (s : Admission κ ι ν) :
    ∃ inner, (s.innerTryAcquire c max inst q reply).2 = { s with inner := inner } := by
  unfold innerTryAcquire
  split <;> exact ⟨_, rfl⟩

theorem running_setStanding (s : Admission κ ι ν) (q : ι) (x : Standing κ) (c : κ) :
    (s.setStanding q x).running c = s.running c := rfl

theorem running_setCluster_same (s : Admission κ ι ν) (c : κ) (h : cq.running = s.running c)
    (c' : κ) : (s.setCluster c cq).running c' = s.running c' := by
  rw [running_setCluster]
  split_ifs with heq
  · rw [heq, h]
  · rfl

theorem running_getD (s : Admission κ ι ν) (c : κ) :
    ((s.clusters c).getD {}).running = s.running c := by
  unfold running
  cases s.clusters c <;> rfl

theorem tryReserve (h : s.Good own) {cq : Option (ClusterQuota ι)}
    (hcq : ∀ x, cq = some x → x.running = s.running c) (max : Option Nat) (inst : ν)
    (hq : (s.standing q).isOnQuota = false) (reply : Reply) :
    (s.tryReserve c cq max inst q reply).Good own := by
  have hothers (q' : ι) (hne : q' ≠ q) (habsent : s.inner.Absent q') :
      (s.innerTryAcquire c max inst q reply).2.inner.Absent q' :=
    absent_innerTryAcquire reply hne habsent
  obtain ⟨inner, hsame⟩ := sameBut_innerTryAcquire c max inst q reply s
  unfold Admission.tryReserve
  rcases htry : s.innerTryAcquire c max inst q reply with ⟨granted, s₁⟩
  rw [htry] at hothers hsame
  obtain rfl : s₁ = { s with inner := inner } := hsame
  let x : Standing κ := if granted then .leased else .denied c
  have hx : ¬x.Clear ∧ x.isOnQuota = false := by cases granted <;> exact ⟨id, rfl⟩
  have htold {s' : Admission κ ι ν} (hinner : s'.inner = inner)
      (hstanding : s'.standing = s.standing) (hquota : s'.onQuota = s.onQuota)
      (hrunning : ∀ c, s'.running c = s.running c) :
      (s'.setStanding q x).Good own := by
    refine h.told (x := x) ?_ (fun hclear => absurd hclear hx.1) ?_ hquota (hx.2.trans hq.symm)
      hrunning
    · intro q' hne habsent
      change s'.inner.Absent q'
      rw [hinner]
      exact hothers q' hne habsent
    · rw [setStanding, hstanding]
  cases cq with
  | none => exact htold rfl rfl rfl fun _ => rfl
  | some cq =>
    refine htold rfl rfl rfl (running_setCluster_same _ c ?_)
    cases granted <;> exact hcq cq rfl

theorem countP_concat_onQuota (l : List (ι × κ)) (q : ι) (c c' : κ) :
    (l ++ [(q, c)]).countP (·.2 == c') = l.countP (·.2 == c') + if c' = c then 1 else 0 := by
  by_cases heq : c' = c
  · simp [heq]
  · have hne : (c == c') = false := by simpa using Ne.symm heq
    simp [heq, hne]

theorem countOnQuota (h : s.Good own) (hrunning : cq.running = s.running c + 1)
    (hq : (s.standing q).isOnQuota = false)
    (habsent : hasKey Prod.fst cq.waiting q = false → s.inner.Absent q) (reply : Reply) :
    (s.countOnQuota c cq q reply).Good own := by
  have hnew : hasKey Prod.fst s.onQuota q = false := (h.standing q).trans hq
  have hquota : upsert Prod.fst (q, c) (fun _ => (q, c)) s.onQuota = s.onQuota ++ [(q, c)] := by
    rw [upsert, if_neg (by rw [hnew]; exact Bool.false_ne_true)]
  -- what the admission does apart from the store, with the standing `clean` it ends in
  have hcounted {s' : Admission κ ι ν} {clean : Bool}
      (hothers : ∀ q', q' ≠ q → s.inner.Absent q' → s'.inner.Absent q')
      (hclean : clean = true → s'.inner.Absent q)
      (hstanding : s'.standing = Function.update s.standing q (.onQuota clean))
      (hquota' : s'.onQuota = s.onQuota ++ [(q, c)])
      (hclusters : s'.clusters = Function.update s.clusters c (some (cq.stopWaiting q))) :
      s'.Good own := by
    refine h.update hstanding hothers (fun _ hclear => ?_) ?_ (fun q' => ?_) fun c' => ?_
    · cases clean with
      | true => exact hclean rfl
      | false => exact hclear.elim
    · rw [hquota']
      exact h.keyed.concat (by rw [hnew]; exact Bool.false_ne_true)
    · rw [hquota', hasKey_append]
      by_cases heq : q' = q
      · simp [heq, hasKey, Standing.isOnQuota]
      · simp [hasKey, heq, Ne.symm heq]
    · have hset : s'.running c' = (s.setCluster c (cq.stopWaiting q)).running c' := by
        rw [running, running, hclusters, setCluster]
      rw [hquota', countP_concat_onQuota, ← h.counted, hset, running_setCluster]
      split_ifs with heq
      · rw [heq]
        exact hrunning
      · rfl
  unfold Admission.countOnQuota
  split_ifs with hwaiting
  · cases reply with
    | failed =>
      exact hcounted (fun q' _ h => h) (by simp) rfl hquota rfl
    | answered =>
      exact hcounted (fun q' _ h => h.call (by simp))
        (fun _ => Store.Absent.of_release (.head _)) rfl hquota rfl
    | lost =>
      exact hcounted (fun q' _ h => h.call (by simp)) (by simp) rfl hquota rfl
  · exact hcounted (fun q' _ h => h) (fun _ => habsent (by simpa using hwaiting)) rfl hquota rfl

theorem admitOnQuota_eq_some {now : Nat} {cq' : ClusterQuota ι}
    (h : cq.admitOnQuota now = some cq') :
    cq' = { cq with running := cq.running + 1 } := by
  unfold ClusterQuota.admitOnQuota at h
  split at h
  · cases h
  · split at h
    · exact (Option.some.inj h).symm
    · cases h

theorem admitOnQuota_lastActive (cq : ClusterQuota ι) (now : Nat) (t : Option Nat) :
    (({ cq with lastActive := t } : ClusterQuota ι).admitOnQuota now).isSome =
      (cq.admitOnQuota now).isSome := by
  unfold ClusterQuota.admitOnQuota
  split
  · rfl
  · split <;> rfl

theorem tryAcquire (h : s.Good own) {max : Option Nat} {inst : ν} {reply : Reply}
    (hown : own q = true) (hok : Disciplined s (.tryAcquire c max inst q reply)) :
    (s.tryAcquire c max inst q reply).Good own := by
  obtain ⟨hq, hadmits⟩ := hok
  unfold Admission.tryAcquire
  split_ifs with hlimited
  · dsimp only
    split
    · rename_i cq' hadmitted
      obtain rfl := admitOnQuota_eq_some hadmitted
      have hrun : ((s.clusters c).getD {}).running + 1 = s.running c + 1 := by rw [running_getD]
      have habsent (hunlisted : s.listed c q = false) : s.inner.Absent q := by
        have hadm : s.admitsOnQuota c max = true := by
          unfold admitsOnQuota
          rw [hlimited.1, hlimited.2, ← admitOnQuota_lastActive _ _ (some s.inner.now), hadmitted]
          rfl
        rcases hadmits hadm with hnew | hreleased | hlisted
        · exact h.absent q hown (hnew ▸ trivial)
        · exact h.absent q hown (hreleased ▸ trivial)
        · rw [hunlisted] at hlisted
          cases hlisted
      exact countOnQuota h hrun hq (by exact habsent) reply
    · let cq : ClusterQuota ι := { (s.clusters c).getD {} with lastActive := some s.inner.now }
      have hrun : cq.running = s.running c := running_getD s c
      have hset : (s.setCluster c cq).Good own :=
        h.quiet (fun _ _ h => h) rfl rfl (running_setCluster_same s c hrun)
      refine hset.tryReserve (fun x hx => ?_) max inst hq reply
      cases hx
      rw [running_setCluster, if_pos rfl]
  · exact h.tryReserve (by simp) max inst hq reply

theorem countP_filter_onQuota {l : List (ι × κ)} (hkeyed : Keyed Prod.fst l) (hmem : (q, c) ∈ l)
    (c' : κ) :
    l.countP (·.2 == c') = (l.filter (·.1 != q)).countP (·.2 == c') + if c' = c then 1 else 0 := by
  induction l with
  | nil => cases hmem
  | cons e l ih =>
    obtain ⟨hnotin, hrest⟩ := nodup_cons.1 hkeyed
    rcases mem_cons.1 hmem with rfl | hmem
    · have hkeep : l.filter (·.1 != q) = l := by
        rw [filter_eq_self]
        intro e he
        rw [bne_iff_ne]
        exact fun heq => hnotin (mem_map.2 ⟨e, he, heq⟩)
      rw [filter_cons_of_neg (by simp), hkeep, countP_cons]
      by_cases heq : c' = c
      · simp [heq]
      · have hne : (c == c') = false := by simpa using Ne.symm heq
        simp [heq, hne]
    · have hne : (e.1 != q) = true := by
        rw [bne_iff_ne]
        exact fun heq => hnotin (mem_map.2 ⟨(q, c), hmem, heq.symm⟩)
      rw [filter_cons_of_pos (by exact hne), countP_cons, countP_cons, ih hrest hmem]
      omega

theorem release (h : s.Good own) (q : ι) (reply : Reply) : (s.release q reply).Good own := by
  unfold Admission.release
  split
  · rename_i q' c hfind
    obtain rfl : q' = q := by simpa using find?_some hfind
    have hmem := mem_of_find?_eq_some hfind
    have hon : (s.standing q').isOnQuota = true := by
      rw [← h.standing, hasKey_iff]
      exact ⟨_, hmem, rfl⟩
    have hafter : (afterRelease (s.standing q')).isOnQuota = false ∧
        ((afterRelease (s.standing q')).Clear → (s.standing q').Clear) := by
      cases hq : s.standing q' with
      | onQuota clean => cases clean <;> exact ⟨rfl, id⟩
      | _ => rw [hq] at hon; cases hon
    -- the cluster counts one query less
    have hreleased {s' : Admission κ ι ν} (hinner : s'.inner = s.inner)
        (hstanding : s'.standing =
          Function.update s.standing q' (afterRelease (s.standing q')))
        (hquota : s'.onQuota = s.onQuota.filter (·.1 != q'))
        (hrunning : ∀ c', s'.running c' = s.running c' - if c' = c then 1 else 0) :
        s'.Good own := by
      refine h.update hstanding (fun _ _ => hinner ▸ id)
        (fun hown hclear => hinner ▸ h.absent q' hown (hafter.2 hclear))
        (hquota ▸ h.keyed.filter _) (fun q => ?_) fun c' => ?_
      · rw [hquota, hasKey_filter_ne, hafter.1]
        by_cases heq : q = q' <;> simp [heq]
      · have hcount := countP_filter_onQuota h.keyed hmem c'
        rw [hrunning, hquota, h.counted, hcount, Nat.add_sub_cancel]
    dsimp only
    split
    · rename_i cq hcq
      refine hreleased rfl rfl rfl fun c' => ?_
      rw [running_setStanding, running_setCluster]
      split_ifs with heq
      · rw [heq]
        have hrunning : s.running c = cq.running := by
          rw [running, show s.clusters c = some cq from hcq]
          rfl
        rw [hrunning]
      · rw [Nat.sub_zero]
        rfl
    · rename_i hcq
      refine hreleased rfl rfl rfl fun c' => ?_
      -- a query on quota is counted, so its cluster is known
      have hpos : 0 < s.running c := by
        rw [h.counted, countP_pos_iff]
        exact ⟨_, hmem, beq_self_eq_true c⟩
      have hzero : s.running c = 0 := by rw [running, show s.clusters c = none from hcq]; rfl
      omega
  · rename_i hfind
    have hon : (s.standing q).isOnQuota = false := by
      rw [← h.standing, Bool.eq_false_iff, ne_eq, hasKey_iff]
      rintro ⟨e, he, heq⟩
      have hno := find?_eq_none.1 hfind e he
      simp [heq] at hno
    cases reply with
    | failed => exact h.quiet (fun _ _ h => h) rfl rfl fun _ => rfl
    | lost => exact h.quiet (fun _ _ h => h.call (by simp)) rfl rfl fun _ => rfl
    | answered =>
      exact h.told (x := .released) (fun q' _ h => h.call (by simp))
        (fun _ => absent_innerRelease_self q) rfl rfl hon.symm fun _ => rfl

theorem running_swept (cq : ClusterQuota ι) (now : Nat) :
    ((swept now cq).map (·.running)).getD 0 = cq.running := by
  have hdropped (idle : Prop) [Decidable idle] (cq' : ClusterQuota ι)
      (h : cq'.running = cq.running) :
      ((if idle ∧ cq.running = 0 then none else some cq').map (·.running)).getD 0 = cq.running := by
    split_ifs with hidle
    · exact hidle.2.symm
    · exact h
  exact hdropped _ _ rfl

/-- Every step keeps the invariant. -/
theorem step (h : s.Good own) {a : Move κ ι ν} (hok : Disciplined s a)
    (hs : Admission.step own s a = some s') : s'.Good own := by
  cases a with
  | tryAcquire =>
    simp only [Admission.step] at hs
    split at hs
    · rename_i hown
      cases hs
      exact h.tryAcquire hown hok
    · cases hs
  | release q reply =>
    simp only [Admission.step] at hs
    split at hs
    · cases hs
      exact h.release q reply
    · cases hs
  | inner =>
    simp only [Admission.step] at hs
    split at hs
    · rename_i hforeign
      cases hs
      refine h.quiet (fun q hown habsent => habsent.call ?_) rfl rfl fun _ => rfl
      rintro c inst q' max rfl rfl
      simp [foreign, hown] at hforeign
    · cases hs
  | tick | setPolicy =>
    cases hs
    exact h.quiet (fun _ _ h => h) rfl rfl fun _ => rfl
  | sweep =>
    cases hs
    refine h.quiet (fun _ _ h => h) rfl rfl fun c => ?_
    unfold running
    dsimp only
    cases s.clusters c with
    | none => rfl
    | some cq => exact running_swept cq _
  | applyGrant c =>
    cases hs
    exact h.quiet (fun _ _ h => h) rfl rfl (running_setCluster_same s c (running_getD s c))
  | noQuotas =>
    cases hs
    refine h.quiet (fun _ _ h => h) rfl rfl fun c => ?_
    unfold running
    dsimp only
    cases s.clusters c <;> rfl

theorem of_reach (h : (system own).Reach Disciplined s) : s.Good own := by
  have hinit (s : Admission κ ι ν) (hs : (system own).init s) : s.Good own := by
    rw [show s = Admission.initial from hs]
    exact Good.initial
  exact System.Reach.invariant hinit (fun _ _ _ h hok hs => h.step hok hs) h

end Good

/-- If no query is admitted on quota that asked for a slot elsewhere before, a query on quota and a
released one have no lease and no place in line, and the running counts are exact. -/
theorem nothing_left_of_disciplined (h : (system own).Reach Disciplined s) :
    (∀ q, own q = true → s.standing q = .onQuota true → s.inner.Absent q) ∧
      (∀ q, own q = true → s.standing q = .released →
        s.inner.Absent q ∧ hasKey Prod.fst s.onQuota q = false) ∧
      ∀ c, s.running c = s.onQuota.countP (·.2 == c) := by
  have hgood := Good.of_reach h
  refine ⟨fun q hown hq => ?_, fun q hown hq => ⟨?_, ?_⟩, hgood.counted⟩
  · exact hgood.absent q hown (hq ▸ trivial)
  · exact hgood.absent q hown (hq ▸ trivial)
  · rw [hgood.standing, hq]
    rfl

/-- Query 1 runs on cluster 1, whose only slot it has; query 0 is denied there and waits, until a
quota of the cluster is granted. -/
def waitThenQuota : List (Move Nat Nat Nat) :=
  [.setPolicy true, .tryAcquire 1 (some 1) 0 1 .answered, .tryAcquire 1 (some 1) 0 0 .answered,
    .applyGrant 1 1 9, .tryAcquire 1 (some 1) 0 0 .answered]

/-- A query that waits first and is then admitted on quota. -/
theorem nothing_left_waitThenQuota :
    ∃ s : Admission Nat Nat Nat, (system fun _ => true).Reach Disciplined s ∧
      s.standing 0 = .onQuota true ∧ s.inner.Absent 0 := by
  obtain ⟨s, hreach, hquota⟩ : ∃ s : Admission Nat Nat Nat,
      (system fun _ => true).Reach Disciplined s ∧ s.standing 0 = .onQuota true :=
    System.Reach.exists_of_run (.init rfl) waitThenQuota (by decide +kernel)
  exact ⟨s, hreach, hquota, (nothing_left_of_disciplined hreach).1 0 rfl hquota⟩

/-- Query 0 waits on cluster 1 and is admitted on the quota of cluster 2. Then the slot of cluster 1
is free and handed to it, and query 0 ends. -/
def quotaElsewhere : List (Move Nat Nat Nat) :=
  [.setPolicy true, .tryAcquire 1 (some 1) 0 1 .answered, .tryAcquire 1 (some 1) 0 0 .answered,
    .inner (.park 1 0), .applyGrant 2 1 9, .tryAcquire 2 (some 1) 0 0 .answered,
    .release 1 .answered, .release 0 .answered]

/-- The place in line and the lease that the query has on another cluster stay. -/
theorem quota_leaves_lease_elsewhere :
    (∃ s : Admission Nat Nat Nat, (system fun _ => true).Reach (fun _ _ => True) s ∧
      s.standing 0 = .onQuota true ∧ s.inner.waiters.map (·.queryId) = [0]) ∧
    ∃ s : Admission Nat Nat Nat, (system fun _ => true).Reach (fun _ _ => True) s ∧
      s.standing 0 = .released ∧
        s.inner.leases.map (fun l => (l.queryId, l.clusterName)) = [(0, 1)] := by
  constructor
  · exact System.Reach.exists_of_run (.init rfl) (quotaElsewhere.take 6) (by decide +kernel)
  · exact System.Reach.exists_of_run (.init rfl) quotaElsewhere (by decide +kernel)

end Admission

end QueryFlux.Capacity
