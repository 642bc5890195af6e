import QueryFlux.Lib.Transition
import QueryFlux.Quota.AllocateSpec
import QueryFlux.Quota.Party

/-!
# The quota protocol of one cluster

Any number of holders, the lease counter of the cluster and the allocator. Every interleaving
is a choice of actions; what the environment is assumed to do (reports in order, reports in
time) is a guard on the actions of a run.
-/

namespace QueryFlux.Quota

open QueryFlux.Lib

/-! ## States and steps -/

variable {ι : Type} [LinearOrder ι]

/-- The replicas, the leases outside any quota, and what the last pass wrote. -/
structure Sys (ι : Type) where
  now : Nat := 0
  parties : List (Party ι)
  leased : Nat := 0
  quotaCommitted : Nat := 0
  quotaWanted : Nat := 0
deriving DecidableEq

inductive Act (ι : Type)
  | tick (ms : Nat)
  | holder (id : ι) (act : LocalAct)
  | runAllocation
  | takeLease
  | releaseLease
deriving DecidableEq

namespace Sys

def holders (s : Sys ι) : List (HolderState ι) :=
  (s.parties.map fun p => p.expire s.now).filterMap fun p => p.holderState s.now

/-- The smallest limit any holder reports; 0 when there are no rows. -/
def reportedMax (s : Sys ι) : Nat :=
  (((s.parties.map fun p => p.expire s.now).filterMap (·.row)).map (·.maxRunning)).min?.getD 0

def allocation (cfg : Settings) (s : Sys ι) : ClusterAllocation ι :=
  allocate s.reportedMax s.leased s.holders cfg.policy

def runAllocation (cfg : Settings) (s : Sys ι) : Sys ι :=
  let expired := s.parties.map fun p => p.expire s.now
  -- a cluster without rows is visited only to clear quota it still has committed
  if s.holders = [] ∧ s.quotaCommitted = 0 then { s with parties := expired }
  else
    let a := s.allocation cfg
    { s with
      parties := expired.map fun p => p.update a.changed
      quotaCommitted := toI64 a.quotaCommitted
      quotaWanted := toI64 a.quotaWanted }

def step (cfg : Settings) (s : Sys ι) : Act ι → Option (Sys ι)
  | .tick ms => some { s with now := s.now + ms }
  | .holder id act =>
    (updateFirst (fun p => p.instanceId = id) (fun p => p.step cfg s.now act) s.parties).map
      fun ps => { s with parties := ps }
  | .runAllocation => some (s.runAllocation cfg)
  | .takeLease =>
    if s.leased + s.quotaCommitted + s.quotaWanted < cfg.maxRunningQueries then
      some { s with leased := s.leased + 1 }
    else none
  | .releaseLease => if 0 < s.leased then some { s with leased := s.leased - 1 } else none

def initial (s : Sys ι) : Prop :=
  ∃ ids : List ι, ids.Pairwise (· < ·) ∧ s = { parties := ids.map fun id => { instanceId := id } }

end Sys

def protocol (ι : Type) [LinearOrder ι] (cfg : Settings) : System (Sys ι) (Act ι) where
  init := Sys.initial
  step := Sys.step cfg

/-! ## Conditions on a run -/

namespace Sys

def timely (cfg : Settings) (s : Sys ι) : Bool := s.parties.all fun p => p.timely cfg s.now

/-- A test of the report an action processes, at its holder; true of any other action. -/
def processing (test : Party ι → Sent → Bool) (s : Sys ι) : Act ι → Bool
  | .holder id (.process call) =>
    s.parties.all fun p => p.instanceId ≠ id || p.sent.all fun m => m.call ≠ call || test p m
  | _ => true

/-- No report is processed after a later one of the same replica. -/
def inOrder (s : Sys ι) (a : Act ι) : Bool := s.processing (fun p m => p.processed ≤ m.call) a

theorem processing_holder {test : Party ι → Sent → Bool} {s : Sys ι} {p : Party ι} {act : LocalAct}
    (h : s.processing test (.holder p.instanceId act)) (hp : p ∈ s.parties) {m : Sent}
    (hm : m ∈ p.sent) (hact : act = .process m.call) : test p m := by
  subst hact
  have hall := List.all_eq_true.1 h p hp
  simp only [ne_eq, not_true_eq_false, decide_false, Bool.false_or] at hall
  simpa using List.all_eq_true.1 hall m hm

theorem processing_imp {test test' : Party ι → Sent → Bool}
    (himp : ∀ p m, test p m = true → test' p m = true) {s : Sys ι} {a : Act ι}
    (h : s.processing test a) : s.processing test' a := by
  unfold processing at h ⊢
  split
  · simp only [List.all_eq_true, Bool.or_eq_true] at h ⊢
    exact fun p hp => (h p hp).imp_right fun hall m hm => (hall m hm).imp_right (himp p m)
  · rfl

end Sys

/-! ## What a step does to one replica -/

namespace Sys

variable {cfg : Settings} {s s' : Sys ι} {a : Act ι}

def Moved (cfg : Settings) (s : Sys ι) (a : Act ι) (p p' : Party ι) : Prop :=
  p' = p ∨ (∃ act, a = .holder p.instanceId act ∧ p.Stepped cfg s.now act p') ∨
    a = .runAllocation ∧ p' = (p.expire s.now).update (s.allocation cfg).changed

theorem update_nil (p : Party ι) : p.update [] = p := rfl

theorem runAllocation_parties (cfg : Settings) (s : Sys ι) :
    (s.runAllocation cfg).parties =
      s.parties.map fun p => (p.expire s.now).update (s.allocation cfg).changed := by
  unfold runAllocation
  split_ifs with hnone
  · have hch : (s.allocation cfg).changed = [] := by
      rw [allocation, hnone.1]
      rfl
    simp only [hch, update_nil]
  · simp

theorem step_moved (h : s.step cfg a = some s') :
    List.Forall₂ (Moved cfg s a) s.parties s'.parties := by
  have hsame : List.Forall₂ (Moved cfg s a) s.parties s.parties :=
    List.forall₂_same.2 fun p _ => Or.inl rfl
  cases a with
  | tick =>
    cases h
    exact hsame
  | holder id act =>
    obtain ⟨ps, hps, rfl⟩ := Option.map_eq_some_iff.1 h
    refine updateFirst_forall₂ (R := Moved cfg s (.holder id act)) (fun p => Or.inl rfl) hps ?_
    intro p p' _ hid hp
    obtain rfl := of_decide_eq_true hid
    exact Or.inr (Or.inl ⟨act, rfl, Party.stepped hp⟩)
  | runAllocation =>
    cases h
    rw [runAllocation_parties, List.forall₂_map_right_iff]
    exact List.forall₂_same.2 fun p _ => Or.inr (Or.inr ⟨rfl, rfl⟩)
  | takeLease | releaseLease =>
    simp only [step, Option.ite_none_right_eq_some, Option.some.injEq] at h
    obtain ⟨-, rfl⟩ := h
    exact hsame

theorem step_now (h : s.step cfg a = some s') : s.now ≤ s'.now := by
  cases a with
  | tick =>
    cases h
    exact Nat.le_add_right _ _
  | holder =>
    obtain ⟨ps, -, rfl⟩ := Option.map_eq_some_iff.1 h
    exact Nat.le_refl _
  | runAllocation =>
    cases h
    unfold runAllocation
    split <;> exact Nat.le_refl _
  | takeLease | releaseLease =>
    simp only [step, Option.ite_none_right_eq_some, Option.some.injEq] at h
    obtain ⟨-, rfl⟩ := h
    exact Nat.le_refl _

end Sys

/-! ## A sample cluster -/

def fourSlots : Settings := ⟨4, ⟨fun _ => 0, 15, 5⟩, by decide, by decide⟩

def twoHolders : Sys Nat := { parties := [{ instanceId := 1 }, { instanceId := 2 }] }

def turnOn : List (Act Nat) :=
  [.holder 1 (.setPolicy true), .holder 1 .tryAcquire, .holder 2 (.setPolicy true),
    .holder 2 .tryAcquire]

def roundTrip (id call waiting : Nat) : List (Act Nat) :=
  [.holder id (.report waiting), .holder id (.process call), .holder id .answered]

theorem reach_twoHolders {ok : Sys Nat → Act Nat → Prop} (okb : Sys Nat → Act Nat → Bool)
    (hok : ∀ s a, okb s a = true → ok s a) (acts : List (Act Nat)) (test : Sys Nat → Bool)
    (h : ((protocol Nat fourSlots).runIf okb twoHolders acts).any test = true) :
    ∃ s, (protocol Nat fourSlots).Reach ok s ∧ test s = true := by
  have hinit : twoHolders.initial := ⟨[1, 2], by decide, rfl⟩
  exact System.Reach.exists_of_runIf hok (.init hinit) h

end QueryFlux.Quota
