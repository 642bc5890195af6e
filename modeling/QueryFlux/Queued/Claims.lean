import QueryFlux.Queued.Polls

/-!
# Who holds the claim of a queued query

Replicas claim a queued query, refresh their claim and release it, each with one statement on its
row. A claim is taken over only after it was not refreshed for the timeout, and refreshed only by
the replica it names; but `release_claim` clears whatever claim there is. Where replicas release
only claims that name them, a claim that is refreshed in time is left alone (`claim_exclusive`).
Otherwise a replica that lost its claim and then releases it takes away the claim of its successor
(`late_release_clears_claim`).
-/

namespace QueryFlux.Queued

open Lib

/-! ## Claims and tenures -/

/-- `try_claim`; the replica read the clock at `readAt` to tell which claims are stale. -/
def Row.tryClaim (instanceId : String) (readAt now : Nat) (row : Row) : Option Row :=
  if row.claimable readAt then some { row with claim := some ⟨instanceId, now⟩ } else none

/-- The replica that last won `try_claim`, when it won or last refreshed, and whether it has
released the claim. -/
structure Tenure where
  owner : String
  refreshedAt : Nat
  released : Bool
  deriving DecidableEq

structure ClaimState where
  row : Row
  now : Nat
  tenure : Option Tenure
  deriving DecidableEq

inductive ClaimCall
  | wait (secs : Nat)
  | tryClaim (replica : String) (readAt : Nat)
  | refreshClaim (replica : String)
  | releaseClaim (replica : String)

def ClaimCall.caller : ClaimCall → Option String
  | wait _ => none
  | tryClaim replica _ | refreshClaim replica | releaseClaim replica => some replica

def Tenure.refresh (replica : String) (now : Nat) (t : Tenure) : Tenure :=
  if t.owner = replica then { t with refreshedAt := now } else t

def Tenure.release (replica : String) (t : Tenure) : Tenure :=
  if t.owner = replica then { t with released := true } else t

/-- The tenure records who was told that they have the claim; the code does not keep it. -/
def ClaimState.step (s : ClaimState) : ClaimCall → Option ClaimState
  | .wait secs => some { s with now := s.now + secs }
  | .tryClaim replica readAt =>
    if readAt ≤ s.now then
      match s.row.tryClaim replica readAt s.now with
      | some row => some { s with row, tenure := some ⟨replica, s.now, false⟩ }
      | none => some s
    else none
  | .refreshClaim replica => some { s with
      row := s.row.refreshClaim replica s.now
      tenure := s.tenure.map (·.refresh replica s.now) }
  | .releaseClaim replica => some { s with
      row := s.row.releaseClaim
      tenure := s.tenure.map (·.release replica) }

def claims : System ClaimState ClaimCall where
  init s := s.row.claim = none ∧ s.tenure = none
  step := ClaimState.step

/-! ## While a claim is live -/

/-- No replica releases a claim that another one has taken over. -/
def OwnReleases (s : ClaimState) : ClaimCall → Prop
  | .releaseClaim replica => ∀ claim ∈ s.row.claim, claim.claimedBy = replica
  | _ => True

def Held (s : ClaimState) : Prop :=
  ∀ t ∈ s.tenure, t.released = false → s.row.claim = some ⟨t.owner, t.refreshedAt⟩

variable {s s' : ClaimState} {call : ClaimCall} {t : Tenure}

theorem Held.refresh (h : Held s) (replica : String) :
    Held { s with
      row := s.row.refreshClaim replica s.now
      tenure := s.tenure.map (·.refresh replica s.now) } := by
  intro t' ht' hheld
  obtain ⟨t, ht, rfl⟩ := Option.map_eq_some_iff.1 ht'
  by_cases howner : t.owner = replica
  · have hreleased : t.released = false := by simpa [Tenure.refresh, howner] using hheld
    simp [Row.refreshClaim, Tenure.refresh, h t ht hreleased, howner]
  · have hsame : t.refresh replica s.now = t := if_neg howner
    rw [hsame] at hheld ⊢
    simp [Row.refreshClaim, h t ht hheld, howner]

theorem Held.release {replica : String} (h : Held s)
    (hown : OwnReleases s (.releaseClaim replica)) :
    Held { s with row := s.row.releaseClaim, tenure := s.tenure.map (·.release replica) } := by
  intro t' ht' hheld
  obtain ⟨t, ht, rfl⟩ := Option.map_eq_some_iff.1 ht'
  by_cases howner : t.owner = replica
  · simp [Tenure.release, howner] at hheld
  · have hsame : t.release replica = t := if_neg howner
    rw [hsame] at hheld
    exact absurd (hown _ (h t ht hheld)) howner

/-- A step keeps the claim of the tenure in the row. -/
theorem Held.step (h : Held s) (hown : OwnReleases s call) (hstep : s.step call = some s') :
    Held s' := by
  cases call with
  | wait => cases hstep; exact h
  | tryClaim replica readAt =>
    simp only [ClaimState.step] at hstep
    split at hstep
    · split at hstep
      · rename_i row hrow
        cases hstep
        unfold Row.tryClaim at hrow
        split at hrow <;> cases hrow
        rintro t ⟨⟩ -
        rfl
      · cases hstep
        exact h
    · cases hstep
  | refreshClaim replica => cases hstep; exact h.refresh replica
  | releaseClaim => cases hstep; exact h.release hown

theorem held_of_reach (h : claims.Reach OwnReleases s) : Held s := by
  refine h.invariant (fun s hinit t ht => ?_) fun s call s' hheld hown hstep =>
    hheld.step hown hstep
  rw [hinit.2] at ht
  cases ht

theorem claimable_eq_false {claim : Claim} {readAt : Nat} (hclaim : s.row.claim = some claim)
    (hlive : s.now ≤ claim.claimedAt + queueClaimTimeoutSecs) (hread : readAt ≤ s.now) :
    s.row.claimable readAt = false := by
  rw [Row.claimable, hclaim, Option.all_some, decide_eq_false_iff_not]
  omega

/-- A claim that is held and not expired is in the row, and nobody else's call changes it. -/
theorem claim_exclusive (h : claims.Reach OwnReleases s) (ht : s.tenure = some t)
    (hheld : t.released = false) (hlive : s.now ≤ t.refreshedAt + queueClaimTimeoutSecs) :
    s.row.claim = some ⟨t.owner, t.refreshedAt⟩ ∧
      ∀ call s', OwnReleases s call → s.step call = some s' →
        (∀ replica ∈ call.caller, replica ≠ t.owner) → s'.row.claim = s.row.claim := by
  have hclaim := held_of_reach h t ht hheld
  refine ⟨hclaim, fun call s' hown hstep hother => ?_⟩
  cases call with
  | wait => cases hstep; rfl
  | tryClaim replica readAt =>
    simp only [ClaimState.step] at hstep
    split at hstep
    · rename_i hread
      rw [Row.tryClaim, claimable_eq_false hclaim hlive hread] at hstep
      cases hstep
      rfl
    · cases hstep
  | refreshClaim replica =>
    cases hstep
    have hne : t.owner ≠ replica := (hother replica rfl).symm
    simp [Row.refreshClaim, hclaim, hne]
  | releaseClaim replica => exact absurd (hown _ hclaim).symm (hother replica rfl)

def unclaimed : ClaimState := ⟨⟨0, 0, none⟩, 0, none⟩

/-- `a` claims the query and is silent for more than a minute, `b` takes the claim over. -/
def takeover : List ClaimCall := [.tryClaim "a" 0, .wait 61, .tryClaim "b" 61, .wait 30]

instance : DecidablePred (OwnReleases s) := fun call => by
  cases call <;> unfold OwnReleases <;> infer_instance

/-- The claim of a replica that went silent is taken over. -/
theorem successor_keeps_claim :
    ∃ s, claims.Reach OwnReleases s ∧ s.tenure = some ⟨"b", 61, false⟩ ∧
      s.row.claim = some ⟨"b", 61⟩ := by
  obtain ⟨s, hreach, ht, hnow⟩ : ∃ s, claims.Reach OwnReleases s ∧
      s.tenure = some ⟨"b", 61, false⟩ ∧ s.now = 91 :=
    System.Reach.exists_of_run (.init ⟨rfl, rfl⟩ : claims.Reach OwnReleases unclaimed) takeover
      (by decide +kernel)
  exact ⟨s, hreach, ht, (claim_exclusive hreach ht rfl (by rw [hnow]; decide)).1⟩

/-- The first replica wakes up and releases the claim of its successor. -/
theorem late_release_clears_claim :
    ∃ s, claims.Reach (fun _ _ => True) s ∧ s.tenure = some ⟨"b", 61, false⟩ ∧
      s.now ≤ 61 + queueClaimTimeoutSecs ∧ s.row.claim = none :=
  System.Reach.exists_of_run (.init ⟨rfl, rfl⟩ : claims.Reach _ unclaimed)
    (takeover ++ [.releaseClaim "a"]) (by decide +kernel)

end QueryFlux.Queued
