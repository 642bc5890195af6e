import Mathlib.Data.Fintype.Basic
import QueryFlux.Queued.Polls

/-!
# One fate for a queued query

A poll checks the row once more before it dispatches, and from then on nothing it does depends on
the row any more: it submits or writes the row back whether or not a cancel has taken the row in
between. So a query has one fate in the runs in which that window is left alone
(`Undisturbed`): while a poll is past its check, no other request takes the row or passes its own
check, and the dispatch's own delete of the row does not fail.

In such runs at most one poll is in flight, and its phase tells whether the row is there and what
has become of the query (`Inv`). Every move either stays clear of the flight (`Inv.keep`) or is
made while no other poll is in flight (`Inv.alone_step`).
-/

namespace QueryFlux.Queued

open Lib

variable {ι : Type}

/-- Nothing gets in between a poll's second check of the row and the end of its dispatch. A poll
that is abandoned there has not ended its dispatch. -/
def Undisturbed (s : State ι) : Act ι → Prop
  | .request _ .take | .request _ (.recheck .async) | .request _ (.recheck .sync) =>
    s.row.isSome = true → ∀ j, (s.phase j).inFlight = false
  | .request _ (.delete removes _) => removes = true
  | _ => True

/-! ## The invariant -/

def Phase.Agrees (stored : Bool) (fates : List Fate) : Phase → Prop
  | .dispatching | .rejecting | .handingOver => stored = true ∧ fates = []
  | .submitted => stored = true ∧ fates = [.dispatched]
  | .executing => stored = false ∧ fates = []
  | _ => True

theorem Phase.agrees_of_not_inFlight {p : Phase} (hp : p.inFlight = false) (stored : Bool)
    (fates : List Fate) : p.Agrees stored fates := by
  cases p <;> trivial

/-- One request at most is at work on the row, and its phase fits the fates so far. -/
structure Inv (s : State ι) : Prop where
  alone : ∀ i j, (s.phase i).inFlight = true → (s.phase j).inFlight = true → i = j
  agrees : ∀ i, (s.phase i).Agrees s.row.isSome s.fates
  fates_le : s.fates.length ≤ 1
  undecided : s.row.isSome = true → (∀ i, s.phase i ≠ .submitted) → s.fates = []

namespace Inv

variable {s : State ι} {i : ι} {o : Outcome}

theorem others (h : Inv s) (hi : (s.phase i).inFlight = true) (j : ι) (hj : j ≠ i) :
    (s.phase j).inFlight = false := by
  by_contra hflight
  exact hj (h.alone j i (by simpa using hflight) hi)

theorem fates_nil (h : Inv s) (hrow : s.row.isSome = true)
    (hnone : ∀ j, (s.phase j).inFlight = false) : s.fates = [] := by
  refine h.undecided hrow fun j hj => ?_
  have hflight := hnone j
  rw [hj] at hflight
  cases hflight

variable [DecidableEq ι]

theorem apply_phase (j : ι) : (s.apply i o).phase j = if j = i then o.phase else s.phase j :=
  Function.update_apply ..

theorem keep (h : Inv s) (hrow : o.row.isSome = s.row.isSome) (hfate : o.fate = none)
    (hold : s.phase i ≠ .submitted) (hnew : o.phase.inFlight = false) : Inv (s.apply i o) := by
  have hfates : (s.apply i o).fates = s.fates := by simp [State.apply, hfate]
  have hstored : (s.apply i o).row.isSome = s.row.isSome := hrow
  have hflight : ∀ j, ((s.apply i o).phase j).inFlight = true → (s.phase j).inFlight = true := by
    intro j hj
    rw [apply_phase] at hj
    split at hj
    · rw [hnew] at hj
      cases hj
    · exact hj
  refine ⟨fun j k hj hk => h.alone j k (hflight j hj) (hflight k hk), fun j => ?_, ?_, ?_⟩
  · rw [apply_phase, hfates, hstored]
    split
    · exact Phase.agrees_of_not_inFlight hnew _ _
    · exact h.agrees j
  · rw [hfates]
    exact h.fates_le
  · rw [hfates, hstored]
    refine fun hs hnone => h.undecided hs fun j hj => ?_
    have hj' := hnone j
    rw [apply_phase] at hj'
    split at hj'
    · rename_i heq
      subst heq
      exact hold hj
    · exact hj' hj

theorem quiet (h : Inv s) (hq : Quiet s i o) : Inv (s.apply i o) := by
  refine h.keep hq.row hq.fate (fun hi => ?_) hq.after
  have hbefore := hq.before
  rw [hi] at hbefore
  cases hbefore

theorem alone_step (hothers : ∀ j, j ≠ i → (s.phase j).inFlight = false)
    (hagrees : o.phase.Agrees o.row.isSome (s.fates ++ o.fate.toList))
    (hle : (s.fates ++ o.fate.toList).length ≤ 1)
    (hundecided : o.row.isSome = true → o.phase ≠ .submitted → s.fates ++ o.fate.toList = []) :
    Inv (s.apply i o) := by
  have hself : ∀ j, ((s.apply i o).phase j).inFlight = true → j = i := by
    intro j hj
    by_contra hne
    rw [apply_phase, if_neg hne, hothers j hne] at hj
    cases hj
  refine ⟨fun j k hj hk => (hself j hj).trans (hself k hk).symm, fun j => ?_, hle, ?_⟩
  · rw [apply_phase]
    split_ifs with hne
    · exact hagrees
    · exact Phase.agrees_of_not_inFlight (hothers j hne) _ _
  · refine fun hs hnone => hundecided hs ?_
    have hi := hnone i
    rwa [apply_phase, if_pos rfl] at hi

theorem take (h : Inv s) (hok : s.row.isSome = true → ∀ j, (s.phase j).inFlight = false)
    {fate : Fate} {p : Phase} (hold : s.phase i ≠ .submitted) (hp : p.inFlight = false) :
    Inv (s.apply i ⟨p, none, s.row.map fun _ => fate⟩) := by
  cases hrow : s.row with
  | none => exact h.keep (by rw [hrow]) rfl hold hp
  | some =>
    have hs : s.row.isSome = true := by rw [hrow]; rfl
    have hfates := h.fates_nil hs (hok hs)
    refine alone_step (fun j _ => hok hs j) (Phase.agrees_of_not_inFlight hp _ _) ?_ ?_
    · simp [hfates]
    · nofun

theorem dispatch (h : Inv s) (hi : s.phase i = .dispatching) (outcome : Dispatch) :
    Inv (s.apply i (match outcome with
      | .requeued => ⟨.releasing, some (upsertQueued s.now s.row), none⟩
      | .submitted => ⟨.submitted, s.row, some .dispatched⟩
      | .rejected => ⟨.rejecting, s.row, none⟩
      | .syncEngineRequired => ⟨.handingOver, s.row, none⟩
      | .failed => ⟨.releasing, s.row, none⟩)) := by
  obtain ⟨hstored, hfates⟩ : s.row.isSome = true ∧ s.fates = [] := by
    have hagrees := h.agrees i
    rwa [hi] at hagrees
  have hothers := h.others (by rw [hi]; rfl : (s.phase i).inFlight = true)
  cases outcome with
  | requeued | failed =>
    exact alone_step hothers trivial (by simp [hfates]) fun _ _ => by simp [hfates]
  | submitted =>
    exact alone_step hothers ⟨hstored, by simp [hfates]⟩ (by simp [hfates])
      fun _ hne => absurd rfl hne
  | rejected | syncEngineRequired =>
    exact alone_step hothers ⟨hstored, by simp [hfates]⟩ (by simp [hfates])
      fun _ _ => by simp [hfates]

theorem delete (h : Inv s) (hi : (s.phase i).inFlight = true) {p : Phase}
    (hp : p.inFlight = false ∨ p = .executing ∧ s.fates = []) :
    Inv (s.apply i ⟨p, none, none⟩) := by
  refine alone_step (h.others hi) ?_ ?_ ?_
  · rcases hp with hp | ⟨rfl, hfates⟩
    · exact Phase.agrees_of_not_inFlight hp _ _
    · exact ⟨rfl, by simp [hfates]⟩
  · simpa using h.fates_le
  · nofun

theorem move {requests : Requests ι} {m : Move} (h : Inv s)
    (hok : Undisturbed s (.request i m)) (hm : move requests s i m = some o) :
    Inv (s.apply i o) := by
  cases m with
  | take =>
    simp only [Queued.move] at hm
    split at hm
    · rename_i hi
      cases hm
      exact h.take hok (by rw [hi]; simp) rfl
    · rename_i hi
      cases hm
      exact h.take hok (by rw [hi]; simp) rfl
    · rename_i hi
      cases hm
      exact h.take hok (by rw [hi]; simp) rfl
    · cases hm
  | recheck answer =>
    simp only [Queued.move] at hm
    split at hm
    · rename_i hi
      cases hm
      have hsubmitted : s.phase i ≠ .submitted := by rw [hi]; simp
      cases hrow : s.row with
      | none => exact h.keep (by rw [hrow]) rfl hsubmitted rfl
      | some =>
        have hs : s.row.isSome = true := by rw [hrow]; rfl
        cases answer with
        | readFailed => exact h.keep (by rw [hrow]) rfl hsubmitted rfl
        | async | sync =>
          have hfates := h.fates_nil hs (hok hs)
          exact alone_step (fun j _ => hok hs j) ⟨rfl, by simp [hfates]⟩ (by simp [hfates])
            fun _ _ => by simp [hfates]
    · cases hm
  | dispatch outcome =>
    simp only [Queued.move] at hm
    split at hm
    · rename_i hi
      cases hm
      exact h.dispatch hi outcome
    · cases hm
  | delete removes =>
    obtain rfl : removes = true := hok
    simp only [Queued.move, if_pos] at hm
    split at hm
    · rename_i hi
      cases hm
      refine h.delete (by rw [hi]; rfl) (.inl ?_)
      split <;> rfl
    · rename_i hi
      cases hm
      exact h.delete (by rw [hi]; rfl) (.inl rfl)
    · rename_i hi
      cases hm
      have hagrees := h.agrees i
      rw [hi] at hagrees
      exact h.delete (by rw [hi]; rfl) (.inr ⟨rfl, hagrees.2⟩)
    · cases hm
  | execute dispatches =>
    simp only [Queued.move] at hm
    split at hm
    · rename_i hi
      cases hm
      obtain ⟨hstored, hfates⟩ : s.row.isSome = false ∧ s.fates = [] := by
        have hagrees := h.agrees i
        rwa [hi] at hagrees
      refine alone_step (h.others (by rw [hi]; rfl)) trivial ?_ fun hs => ?_
      · cases dispatches <;> simp [hfates]
      · rw [hstored] at hs
        cases hs
    · cases hm
  | heartbeat =>
    simp only [Queued.move] at hm
    split at hm
    · cases hm
      have hphase : (s.apply i ⟨s.phase i, s.row.map (Row.refreshClaim (requests.instanceId i)
          s.now), none⟩).phase = s.phase := Function.update_eq_self ..
      refine ⟨?_, ?_, ?_, ?_⟩
      · rw [hphase]
        exact h.alone
      · rw [hphase]
        simpa [State.apply] using h.agrees
      · simpa [State.apply] using h.fates_le
      · rw [hphase]
        simpa [State.apply] using h.undecided
    · cases hm
  | _ => exact h.quiet (quiet_of_move rfl hm)

/-- Every step of an undisturbed run keeps the invariant. -/
theorem step {requests : Requests ι} {a : Act ι} {s' : State ι} (h : Inv s)
    (hok : Undisturbed s a) (hs : s.step requests a = some s') : Inv s' := by
  cases a with
  | tick =>
    cases hs
    exact ⟨h.alone, h.agrees, h.fates_le, h.undecided⟩
  | request =>
    obtain ⟨o, ho, rfl⟩ := Option.map_eq_some_iff.1 hs
    exact h.move hok ho

end Inv

theorem inv_of_reach [DecidableEq ι] {requests : Requests ι} {s : State ι}
    (h : (requestsOn requests).Reach Undisturbed s) : Inv s := by
  refine h.invariant ?_ fun s a s' hinv hok hs => hinv.step hok hs
  rintro s rfl
  exact ⟨nofun, fun _ => trivial, Nat.zero_le _, fun _ _ => rfl⟩

theorem Inv.row_eq_none {s : State ι} (h : Inv s) {fate : Fate} (hmem : fate ∈ s.fates)
    (hfate : fate ≠ .dispatched) : s.row = none := by
  by_contra hrow
  have hstored : s.row.isSome = true := Option.isSome_iff_ne_none.2 hrow
  by_cases hsubmitted : ∃ i, s.phase i = .submitted
  · obtain ⟨i, hi⟩ := hsubmitted
    have hagrees := h.agrees i
    rw [hi] at hagrees
    rw [hagrees.2, List.mem_singleton] at hmem
    exact hfate hmem
  · rw [h.undecided hstored fun i hi => hsubmitted ⟨i, hi⟩] at hmem
    cases hmem

theorem State.step_fates [DecidableEq ι] {requests : Requests ι} {s s' : State ι} {a : Act ι}
    (hs : s.step requests a = some s') : ∃ later, s'.fates = s.fates ++ later := by
  cases a with
  | tick =>
    cases hs
    exact ⟨[], by simp⟩
  | request =>
    obtain ⟨o, -, rfl⟩ := Option.map_eq_some_iff.1 hs
    exact ⟨o.fate.toList, rfl⟩

/-- In every run in which nothing gets in between a poll's second check and the end of its
dispatch, the query has one fate at most, at most once. After it was cancelled, timed out or
evicted its row is gone, and stays so with no further fate, whatever step comes next. -/
theorem queued_query_has_one_fate [DecidableEq ι] {requests : Requests ι} {s : State ι}
    (h : (requestsOn requests).Reach Undisturbed s) :
    s.fates.length ≤ 1 ∧
      ∀ fate ∈ s.fates, fate ≠ .dispatched → s.row = none ∧
        ∀ a s', Undisturbed s a → s.step requests a = some s' →
          s'.row = none ∧ s'.fates = s.fates := by
  have hinv := inv_of_reach h
  refine ⟨hinv.fates_le, fun fate hmem hfate => ⟨hinv.row_eq_none hmem hfate, ?_⟩⟩
  intro a s' hok hs
  have hinv' := hinv.step hok hs
  obtain ⟨later, hlater⟩ := State.step_fates hs
  have hlen : (s.fates ++ later).length ≤ 1 := hlater ▸ hinv'.fates_le
  have hpos := List.length_pos_of_mem hmem
  have hnil : later = [] := by
    rw [List.length_append] at hlen
    exact List.length_eq_zero_iff.1 (by omega)
  rw [hnil, List.append_nil] at hlater
  exact ⟨hinv'.row_eq_none (hlater ▸ hmem) hfate, hlater⟩

instance [Fintype ι] (s : State ι) : (a : Act ι) → Decidable (Undisturbed s a)
  | .request _ .take | .request _ (.recheck .async) | .request _ (.recheck .sync) =>
    inferInstanceAs (Decidable (s.row.isSome = true → ∀ j, (s.phase j).inFlight = false))
  | .request _ (.delete removes _) => inferInstanceAs (Decidable (removes = true))
  | .tick | .request _ .load | .request _ (.authorize _) | .request _ .tryClaim
  | .request _ .touch | .request _ (.recheck .readFailed) | .request _ (.dispatch _)
  | .request _ (.execute _) | .request _ .releaseClaim | .request _ .heartbeat => isTrue trivial

instance : Fintype Kind := ⟨{.poll, .cancel, .sweep}, fun k => by cases k <;> decide⟩

/-! ## A poll and a cancel -/

def pollAndCancel : Requests Kind where
  kind := id
  instanceId := fun i => if i = .poll then "a" else "b"
  coordinated := true
  capacityWaitTimeoutSecs := 300

def upToRecheck : List (Act Kind) :=
  [.request .poll .load, .request .poll (.authorize true), .request .poll .tryClaim,
    .request .poll .touch, .request .poll (.recheck .async)]

def cancelledAfterRequeue : List (Act Kind) :=
  upToRecheck ++ [.request .poll (.dispatch .requeued), .request .poll .releaseClaim,
    .request .cancel .take]

/-- The query is queued again and then cancelled. -/
theorem has_one_fate_cancelled_after_requeue :
    ∃ s, (requestsOn pollAndCancel).Reach Undisturbed s ∧ s.fates = [.cancelled] ∧
      s.row = none := by
  obtain ⟨s, hreach, hfates⟩ : ∃ s,
      (requestsOn pollAndCancel).Reach Undisturbed s ∧ s.fates = [.cancelled] :=
    System.Reach.exists_of_run (.init rfl) cancelledAfterRequeue (by decide +kernel)
  obtain ⟨hrow, -⟩ := (queued_query_has_one_fate hreach).2 .cancelled (by simp [hfates]) (by simp)
  exact ⟨s, hreach, hfates, hrow⟩

/-- The query is cancelled after the poll has checked the row and before it submits the query, or
writes the row back. -/
theorem cancelled_query_dispatched_or_requeued :
    (∃ s, (requestsOn pollAndCancel).Reach (fun _ _ => True) s ∧
      s.fates = [.cancelled, .dispatched]) ∧
    ∃ s, (requestsOn pollAndCancel).Reach (fun _ _ => True) s ∧
      s.fates = [.cancelled] ∧ s.row.isSome = true := by
  constructor
  · exact System.Reach.exists_of_run (.init rfl)
      (upToRecheck ++ [.request .cancel .take, .request .poll (.dispatch .submitted)])
      (by decide +kernel)
  · exact System.Reach.exists_of_run (.init rfl)
      (upToRecheck ++ [.request .cancel .take, .request .poll (.dispatch .requeued)])
      (by decide +kernel)

end QueryFlux.Queued
