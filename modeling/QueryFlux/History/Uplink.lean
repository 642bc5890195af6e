import Mathlib.Data.List.Basic
import QueryFlux.Lib.Transition

/-!
# The worker's history uplink

A worker keeps the records of finished queries in memory until its flusher has sent them. Beyond the
size of the spool the oldest records are dropped. A batch that could not be sent goes back in front
of the records that came meanwhile, and again the oldest are dropped. Records are their numbers in
the order of recording; each operation on the spool is one step together with its counter.

No record is lost or counted twice, and what is dropped is older than what is queued
(`spool_conserves`). The last needs that a record is dropped during a flight only from a full spool,
which then stays full until the flight ends: the whole batch is dropped when it comes back.
-/

namespace QueryFlux.History

open Lib List

/-! ## The spool -/

structure Uplink where
  spool : List Nat
  -- the batch that is being sent
  inFlight : List Nat
  recorded : Nat
  sent : List Nat
  dropped : List Nat
  sentCount : Nat
  droppedCount : Nat
  deriving DecidableEq

def batchSize : Nat := 200

def spoolSize (maxRecords : Nat) : Nat := max maxRecords 1

namespace Uplink

section
variable (maxRecords : Nat) (s : Uplink)

/-- Beyond its size the spool drops from the front. -/
def enqueue (records : List Nat) (front : Bool) : Uplink :=
  let spool := if front then records ++ s.spool else s.spool ++ records
  let excess := spool.length - spoolSize maxRecords
  { s with
    spool := spool.drop excess
    dropped := s.dropped ++ spool.take excess
    droppedCount := s.droppedCount + excess }

def recordQuery : Uplink :=
  { s.enqueue maxRecords [s.recorded] false with recorded := s.recorded + 1 }

def takeBatch : Uplink :=
  let n := min s.spool.length batchSize
  { s with spool := s.spool.drop n, inFlight := s.spool.take n }

def sendSucceeded : Uplink :=
  { s with
    inFlight := []
    sent := s.sent ++ s.inFlight
    sentCount := s.sentCount + s.inFlight.length }

def sendFailed : Uplink := { s with inFlight := [] }.enqueue maxRecords s.inFlight true

end

end Uplink

inductive UplinkStep
  | recordQuery | takeBatch | sendSucceeded | sendFailed
  deriving DecidableEq

/-- The flusher takes a batch when the one before it has been sent or is back. -/
def Uplink.step (maxRecords : Nat) (s : Uplink) : UplinkStep → Option Uplink
  | .recordQuery => some (s.recordQuery maxRecords)
  | .takeBatch => if s.inFlight = [] then some s.takeBatch else none
  | .sendSucceeded => if s.inFlight = [] then none else some s.sendSucceeded
  | .sendFailed => if s.inFlight = [] then none else some (s.sendFailed maxRecords)

def Uplink.empty : Uplink := ⟨[], [], 0, [], [], 0, 0⟩

def uplink (maxRecords : Nat) : System Uplink UplinkStep where
  init s := s = .empty
  step := Uplink.step maxRecords

/-! ## What holds in every state -/

/-- Every record is in one of the four parts, the counters count theirs, and the batch in flight and
the spool are in order. -/
structure Accounted (s : Uplink) : Prop where
  split : (s.sent ++ (s.dropped ++ (s.inFlight ++ s.spool))).Perm (List.range s.recorded)
  sentCount : s.sentCount = s.sent.length
  droppedCount : s.droppedCount = s.dropped.length
  spool : s.spool.Pairwise (· < ·)
  inFlight : ∀ b ∈ s.inFlight, ∀ q ∈ s.spool, b < q

/-- Moreover what is dropped is older than what is queued. -/
structure Conserves (s : Uplink) : Prop extends Accounted s where
  dropped : ∀ d ∈ s.dropped, ∀ q ∈ s.spool, d < q

/-- The batch in flight is in order itself, and the spool is full if a record was dropped that is
newer than one of the batch. -/
structure UplinkInv (maxRecords : Nat) (s : Uplink) : Prop extends Conserves s where
  batch : s.inFlight.Pairwise (· < ·)
  full : ∀ d ∈ s.dropped, ∀ b ∈ s.inFlight, b < d → s.spool.length = spoolSize maxRecords

variable {maxRecords : Nat} {s s' : Uplink} {a : UplinkStep}

theorem Accounted.lt_recorded (h : Accounted s) {x : Nat}
    (hx : x ∈ s.dropped ∨ x ∈ s.inFlight ∨ x ∈ s.spool) : x < s.recorded := by
  refine mem_range.1 (h.split.mem_iff.1 ?_)
  simp only [mem_append]
  exact Or.inr hx

theorem Accounted.ne_of_dropped (h : Accounted s) {d b : Nat} (hd : d ∈ s.dropped)
    (hb : b ∈ s.inFlight) : d ≠ b := by
  have hnodup := h.split.nodup_iff.2 nodup_range
  have hparts := (nodup_append.1 hnodup).2.1
  exact (nodup_append.1 hparts).2.2 d hd b (mem_append_left _ hb)

theorem Accounted.cut (h : Accounted s) {k : Nat} (hk : k ≤ s.spool.length)
    (hdropped : ∀ d ∈ s.dropped, ∀ q ∈ s.spool.drop k, d < q) :
    Conserves { s with
      spool := s.spool.drop k
      dropped := s.dropped ++ s.spool.take k
      droppedCount := s.droppedCount + k } where
  split := by
    refine Perm.trans (perm_iff_count.2 fun a => ?_) h.split
    have hcount := congrArg (count a) (take_append_drop k s.spool)
    simp only [count_append] at hcount ⊢
    omega
  sentCount := h.sentCount
  droppedCount := by
    rw [length_append, length_take_of_le hk, h.droppedCount]
  spool := h.spool.drop
  inFlight b hb q hq := h.inFlight b hb q (mem_of_mem_drop hq)
  dropped d hd q hq := by
    rcases mem_append.1 hd with hd | hd
    · exact hdropped d hd q hq
    · have hspool := h.spool
      rw [← take_append_drop k s.spool] at hspool
      exact (pairwise_append.1 hspool).2.2 d hd q hq

section
variable (h : UplinkInv maxRecords s)
include h

theorem UplinkInv.recordQuery : UplinkInv maxRecords (s.recordQuery maxRecords) := by
  let t : Uplink := { s with spool := s.spool ++ [s.recorded], recorded := s.recorded + 1 }
  have hnew : ∀ {x}, x < s.recorded → (∀ q ∈ s.spool, x < q) → ∀ q ∈ t.spool, x < q := by
    intro x hx hold q hq
    rcases mem_append.1 hq with hq | hq
    · exact hold q hq
    · rwa [mem_singleton.1 hq]
  have ht : Accounted t :=
    { split := by
        refine Perm.trans ?_ (range_succ ▸ h.split.append_right [s.recorded])
        simp [t]
      sentCount := h.sentCount
      droppedCount := h.droppedCount
      spool := pairwise_append.2 ⟨h.spool, pairwise_singleton _ _, fun q hq r hr => by
        rw [mem_singleton.1 hr]
        exact h.lt_recorded (.inr (.inr hq))⟩
      inFlight := fun b hb => hnew (h.lt_recorded (.inr (.inl hb))) (h.inFlight b hb) }
  have hcut := ht.cut (k := t.spool.length - spoolSize maxRecords) (Nat.sub_le _ _)
    fun d hd q hq => hnew (h.lt_recorded (.inl hd)) (h.dropped d hd) q (mem_of_mem_drop hq)
  refine { hcut with batch := h.batch, full := fun d hd b hb hlt => ?_ }
  -- a record that is newer than the batch is dropped from a full spool only
  change (t.spool.drop (t.spool.length - spoolSize maxRecords)).length = spoolSize maxRecords
  change d ∈ s.dropped ++ t.spool.take (t.spool.length - spoolSize maxRecords) at hd
  have hlength : t.spool.length = s.spool.length + 1 := length_append
  rw [length_drop]
  by_cases hfits : t.spool.length ≤ spoolSize maxRecords
  · rw [Nat.sub_eq_zero_of_le hfits, take_zero, append_nil] at hd
    have hfull := h.full d hd b hb hlt
    omega
  · omega

theorem UplinkInv.takeBatch (hidle : s.inFlight = []) : UplinkInv maxRecords s.takeBatch := by
  have hsplit := h.split
  have hspool := h.spool
  rw [← take_append_drop (min s.spool.length batchSize) s.spool] at hsplit hspool
  obtain ⟨hbatch, hrest, hlt⟩ := pairwise_append.1 hspool
  rw [hidle, nil_append] at hsplit
  exact {
    split := hsplit
    sentCount := h.sentCount
    droppedCount := h.droppedCount
    spool := hrest
    inFlight := hlt
    dropped := fun d hd q hq => h.dropped d hd q (mem_of_mem_drop hq)
    batch := hbatch
    full := fun d hd b hb hnewer =>
      absurd (h.dropped d hd b (mem_of_mem_take hb)) (Nat.lt_asymm hnewer) }

theorem UplinkInv.sendSucceeded : UplinkInv maxRecords s.sendSucceeded where
  split := by
    refine Perm.trans (perm_iff_count.2 fun a => ?_) h.split
    simp only [Uplink.sendSucceeded, count_append, count_nil]
    omega
  sentCount := by
    rw [Uplink.sendSucceeded, length_append, h.sentCount]
  droppedCount := h.droppedCount
  spool := h.spool
  inFlight := nofun
  dropped := h.dropped
  batch := .nil
  full := nofun

theorem UplinkInv.sendFailed : UplinkInv maxRecords (s.sendFailed maxRecords) := by
  let t : Uplink := { s with inFlight := [], spool := s.inFlight ++ s.spool }
  have ht : Accounted t :=
    { split := h.split
      sentCount := h.sentCount
      droppedCount := h.droppedCount
      spool := pairwise_append.2 ⟨h.batch, h.spool, h.inFlight⟩
      inFlight := nofun }
  refine { ht.cut (k := t.spool.length - spoolSize maxRecords) (Nat.sub_le _ _) ?_ with
    batch := .nil, full := nofun }
  intro d hd q hq
  rcases mem_append.1 (mem_of_mem_drop hq) with hb | hq'
  · by_cases hlt : q < d
    · have hdrop : t.spool.drop (t.spool.length - spoolSize maxRecords) = s.spool := by
        rw [← h.full d hd q hb hlt]
        exact drop_left' (by simp [t])
      rw [hdrop] at hq
      exact h.dropped d hd q hq
    · have hne := h.ne_of_dropped hd hb
      omega
  · exact h.dropped d hd q hq'

/-- Every step keeps the invariant. -/
theorem UplinkInv.step (hs : s.step maxRecords a = some s') : UplinkInv maxRecords s' := by
  cases a with
  | recordQuery =>
    cases hs
    exact h.recordQuery
  | takeBatch =>
    simp only [Uplink.step] at hs
    split at hs
    · cases hs
      exact h.takeBatch ‹_›
    · cases hs
  | sendSucceeded =>
    simp only [Uplink.step] at hs
    split at hs
    · cases hs
    · cases hs
      exact h.sendSucceeded
  | sendFailed =>
    simp only [Uplink.step] at hs
    split at hs
    · cases hs
    · cases hs
      exact h.sendFailed

end

/-- Every record is sent, dropped, in flight or queued, in the order of recording. -/
theorem spool_conserves (h : (uplink maxRecords).Reach (fun _ _ => True) s) : Conserves s := by
  have hinv : UplinkInv maxRecords s := by
    refine h.invariant ?_ fun s a s' hinv _ hs => hinv.step hs
    rintro s rfl
    exact ⟨⟨⟨.nil, rfl, rfl, .nil, nofun⟩, nofun⟩, .nil, nofun⟩
  exact hinv.toConserves

/-- The first record is sent. The batch after it fails when the spool is full again, and is dropped
as a whole, as is a record that came in meanwhile. -/
theorem failed_batch_dropped :
    ∃ s, Conserves s ∧ s.sent = [0] ∧ s.spool = [4, 5] ∧ s.dropped = [3, 1, 2] := by
  obtain ⟨s, hreach, hs⟩ : ∃ s, (uplink 2).Reach (fun _ _ => True) s ∧
      s.sent = [0] ∧ s.spool = [4, 5] ∧ s.dropped = [3, 1, 2] :=
    System.Reach.exists_of_run (.init rfl) [.recordQuery, .takeBatch, .sendSucceeded, .recordQuery,
      .recordQuery, .takeBatch, .recordQuery, .recordQuery, .recordQuery, .sendFailed]
      (by decide +kernel)
  exact ⟨s, spool_conserves hreach, hs⟩

end QueryFlux.History
