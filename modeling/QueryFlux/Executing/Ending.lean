import Mathlib.Logic.Function.Basic
import QueryFlux.Lib.Transition

/-!
# Ending an executing query

A query that runs on an engine has one record in the shared store, and several requests can find
at the same time that it is over: polls that read its last page, cancels, the sweep. Each of them
has loaded the record, has talked to the backend, and calls `end_executing_query`, which deletes
the record; only the call whose delete removed the row gives the slot back and has its caller
record an outcome.

Any number of such events run on any replicas, one step of one event at a time. The store deletes
atomically and reports whether it removed the row, and the record is not inserted again; then an
event owns the end of the query exactly when its delete removed the row, and everything follows
from there being one owner at most (`Inv`, `executing_query_ends_once`).
-/

namespace QueryFlux.Executing

open Lib

/-- The requests and tasks that can end an executing query: a poll, the client's cancel, a cancel by
an admin or over MCP, and the sweep. -/
inductive Handler
  | getExecutingStatement
  | deleteExecutingStatement
  | cancelExecutingQuery
  | zombieSweep
  deriving DecidableEq

/-! ## Handlers -/

/-- What the engine answers a poll. -/
inductive PollResult
  | transientError | permanentError | finalPage | nextPage | failed | pending
  deriving DecidableEq

inductive Finding
  | forbidden
  | noAdapter
  | polled (result : PollResult)
  | cancelFailed
  | cancelled
  | recentlyAccessed
  | notPolled
  deriving DecidableEq

/-- Leave the query alone, or end it, with or without a record. -/
inductive Verdict
  | leave
  | endQuery (records : Bool)
  deriving DecidableEq

def Handler.verdict : Handler → Finding → Option Verdict
  | .getExecutingStatement, .forbidden => some .leave
  | .getExecutingStatement, .noAdapter => some (.endQuery false)
  | .getExecutingStatement, .polled result =>
    match result with
    | .transientError | .nextPage | .pending => some .leave
    | .permanentError | .finalPage | .failed => some (.endQuery true)
  | .deleteExecutingStatement, .forbidden | .deleteExecutingStatement, .noAdapter
  | .deleteExecutingStatement, .cancelFailed => some .leave
  | .deleteExecutingStatement, .cancelled => some (.endQuery true)
  | .cancelExecutingQuery, .forbidden | .cancelExecutingQuery, .noAdapter
  | .cancelExecutingQuery, .cancelFailed => some .leave
  | .cancelExecutingQuery, .cancelled => some (.endQuery true)
  | .zombieSweep, .recentlyAccessed => some .leave
  | .zombieSweep, .notPolled => some (.endQuery true)
  | _, _ => none

/-- How an event ended: when it came to delete the record, the row was gone (`beaten`) or it removed
it (`won`). -/
inductive Ended
  | notFound | left | beaten | won
  deriving DecidableEq

/-- How far an event has come: `ending` when it calls `end_executing_query`, `releasing` inside,
before `release_query_slot`, and `recording` when it is back from there with true. -/
inductive Phase
  | starting
  | loaded
  | ending (records : Bool)
  | releasing (records : Bool)
  | recording (records : Bool)
  | ended (how : Ended)
  deriving DecidableEq

namespace Phase

def endedTerminal : Phase → Bool
  | .ended .beaten | .ended .won => true
  | _ => false

def owns : Phase → Bool
  | .releasing _ | .recording _ | .ended .won => true
  | _ => false

def hasReleased : Phase → Bool
  | .recording _ | .ended .won => true
  | _ => false

end Phase

/-- The record in the store, the events, and the slots given back and outcomes recorded so far,
each with the event that did it. -/
structure State (ι : Type) where
  stored : Bool
  removedBy : Option ι
  phase : ι → Phase
  releases : List ι
  outcomes : List ι

inductive Act (ι : Type)
  | load (i : ι)
  | find (i : ι) (finding : Finding)
  | delete (i : ι)
  | release (i : ι)
  | record (i : ι)
  deriving DecidableEq

def Act.actor {ι : Type} : Act ι → ι
  | .load i | .find i _ | .delete i | .release i | .record i => i

variable {ι : Type} [DecidableEq ι]

namespace State

def setPhase (s : State ι) (i : ι) (p : Phase) : State ι :=
  { s with phase := Function.update s.phase i p }

/-- Every step keeps the invariant. -/
def step (handler : ι → Handler) (s : State ι) : Act ι → Option (State ι)
  | .load i =>
    if s.phase i = .starting then
      some (s.setPhase i (if s.stored then .loaded else .ended .notFound))
    else none
  | .find i finding =>
    if s.phase i = .loaded then
      ((handler i).verdict finding).map fun
        | .leave => s.setPhase i (.ended .left)
        | .endQuery records => s.setPhase i (.ending records)
    else none
  | .delete i =>
    match s.phase i with
    | .ending records =>
      if s.stored then
        some { s.setPhase i (.releasing records) with stored := false, removedBy := some i }
      else some (s.setPhase i (.ended .beaten))
    | _ => none
  | .release i =>
    match s.phase i with
    | .releasing records =>
      some { s.setPhase i (.recording records) with releases := s.releases ++ [i] }
    | _ => none
  | .record i =>
    match s.phase i with
    | .recording records =>
      some { s.setPhase i (.ended .won) with
        outcomes := if records then s.outcomes ++ [i] else s.outcomes }
    | _ => none

end State

def endings (handler : ι → Handler) : System (State ι) (Act ι) where
  init := fun s => s = ⟨true, none, fun _ => .starting, [], []⟩
  step := State.step handler

variable {handler : ι → Handler} {s : State ι}

/-- What a step can do: an event that does not own the end only goes on to another phase; a delete
that removes the row makes its event the owner; the owner gives the slot back, then records. -/
theorem State.step_cases {s' : State ι} {a : Act ι} (hs : s.step handler a = some s') :
    (∃ p : Phase, (s.phase a.actor).owns = false ∧ p.owns = false ∧
      (p = .ended .beaten → s.stored = false) ∧ s' = s.setPhase a.actor p) ∨
    (∃ records, s.stored = true ∧ s.phase a.actor = .ending records ∧
      s' = { s.setPhase a.actor (.releasing records) with
        stored := false, removedBy := some a.actor }) ∨
    (∃ records, s.phase a.actor = .releasing records ∧
      s' = { s.setPhase a.actor (.recording records) with
        releases := s.releases ++ [a.actor] }) ∨
    ∃ records, s.phase a.actor = .recording records ∧
      s' = { s.setPhase a.actor (.ended .won) with
        outcomes := if records then s.outcomes ++ [a.actor] else s.outcomes } := by
  cases a with
  | load =>
    simp only [step] at hs
    split at hs
    · rename_i hi
      cases hs
      refine .inl ⟨_, by rw [Act.actor, hi]; rfl, ?_, ?_, rfl⟩
      · split <;> rfl
      · split <;> intro hp <;> cases hp
    · cases hs
  | find i =>
    simp only [step] at hs
    split at hs
    · rename_i hi
      obtain ⟨verdict, -, rfl⟩ := Option.map_eq_some_iff.1 hs
      have hold : (s.phase i).owns = false := by rw [hi]; rfl
      cases verdict with
      | leave => exact .inl ⟨.ended .left, hold, rfl, by simp, rfl⟩
      | endQuery records => exact .inl ⟨.ending records, hold, rfl, by simp, rfl⟩
    · cases hs
  | delete i =>
    simp only [step] at hs
    split at hs
    · rename_i records hi
      by_cases hstored : s.stored = true
      · rw [if_pos hstored] at hs
        exact .inr (.inl ⟨records, hstored, hi, (Option.some.inj hs).symm⟩)
      · rw [if_neg hstored] at hs
        have hold : (s.phase i).owns = false := by rw [hi]; rfl
        exact .inl ⟨.ended .beaten, hold, rfl, fun _ => by simpa using hstored,
          (Option.some.inj hs).symm⟩
    · cases hs
  | release =>
    simp only [step] at hs
    split at hs
    · rename_i records hi
      exact .inr (.inr (.inl ⟨records, hi, (Option.some.inj hs).symm⟩))
    · cases hs
  | record =>
    simp only [step] at hs
    split at hs
    · rename_i records hi
      exact .inr (.inr (.inr ⟨records, hi, (Option.some.inj hs).symm⟩))
    · cases hs

/-! ## One owner -/

/-- Whoever removed the query from the store, and nobody else, releases its slot and records it. -/
structure Inv (s : State ι) : Prop where
  stored : s.stored = true ↔ s.removedBy = none
  owner : ∀ i, (s.phase i).owns = true ↔ s.removedBy = some i
  released : ∀ i, i ∈ s.releases ↔ (s.phase i).hasReleased = true
  releases_le : s.releases.length ≤ 1
  recorded : ∀ i ∈ s.outcomes, s.phase i = .ended .won
  outcomes_le : s.outcomes.length ≤ 1
  beaten : ∀ i, s.phase i = .ended .beaten → s.removedBy ≠ none

namespace Inv

variable {s : State ι} {i : ι} {p : Phase}

omit [DecidableEq ι] in
theorem owner_unique (h : Inv s) {j : ι} (hi : (s.phase i).owns = true)
    (hj : (s.phase j).owns = true) : i = j :=
  Option.some.inj (((h.owner i).1 hi).symm.trans ((h.owner j).1 hj))

omit [DecidableEq ι] in
theorem not_owns_of_stored (h : Inv s) (hs : s.stored = true) (j : ι) :
    (s.phase j).owns = false := by
  by_contra howns
  have howner := (h.owner j).1 (by simpa using howns)
  rw [h.stored.1 hs] at howner
  cases howner

theorem owns_of_hasReleased (hp : p.hasReleased = true) : p.owns = true := by
  cases p with
  | recording => rfl
  | ended how => cases how <;> first | rfl | cases hp
  | _ => cases hp

theorem setPhase (h : Inv s) (hold : (s.phase i).owns = false) (hnew : p.owns = false)
    (hbeaten : p = .ended .beaten → s.removedBy ≠ none) : Inv (s.setPhase i p) := by
  have hphase (j : ι) : (s.setPhase i p).phase j = if j = i then p else s.phase j :=
    Function.update_apply ..
  have hnot : ∀ {q : Phase}, q.owns = false → q.hasReleased = false := by
    intro q hq
    by_contra hrel
    rw [owns_of_hasReleased (by simpa using hrel)] at hq
    cases hq
  refine ⟨h.stored, fun j => ?_, fun j => ?_, h.releases_le, fun j hj => ?_, h.outcomes_le,
    fun j => ?_⟩
  · rw [hphase]
    split
    · subst j
      rw [hnew, ← hold]
      exact h.owner i
    · exact h.owner j
  · rw [hphase]
    split
    · subst j
      rw [hnot hnew, ← hnot hold]
      exact h.released i
    · exact h.released j
  · have hwon := h.recorded j hj
    rw [hphase, if_neg]
    · exact hwon
    · rintro rfl
      rw [hwon] at hold
      cases hold
  · rw [hphase]
    split
    · exact hbeaten
    · exact h.beaten j

theorem remove (h : Inv s) (hs : s.stored = true) (records : Bool) :
    Inv { s.setPhase i (.releasing records) with stored := false, removedBy := some i } := by
  have hnone := h.not_owns_of_stored hs
  have hreleases : s.releases = [] := by
    rw [List.eq_nil_iff_forall_not_mem]
    intro j hj
    have howns := owns_of_hasReleased ((h.released j).1 hj)
    rw [hnone j] at howns
    cases howns
  have houtcomes : s.outcomes = [] := by
    rw [List.eq_nil_iff_forall_not_mem]
    intro j hj
    have howns := hnone j
    rw [h.recorded j hj] at howns
    cases howns
  refine ⟨by simp, fun j => ?_, fun j => ?_, h.releases_le, fun j hj => ?_, h.outcomes_le,
    fun _ _ => by simp⟩
  · by_cases hj : j = i
    · subst j
      simp [State.setPhase, Phase.owns]
    · simp [State.setPhase, hj, hnone j, Ne.symm hj]
  · by_cases hj : j = i
    · subst j
      simp [State.setPhase, Phase.hasReleased, hreleases]
    · have hold := h.released j
      simpa [State.setPhase, hj] using hold
  · simp [State.setPhase, houtcomes] at hj

theorem ownerStep (h : Inv s) (hi : (s.phase i).owns = true) (hp : p.owns = true)
    {releases outcomes : List ι}
    (hreleases : ∀ j, j ∈ releases ↔ j = i ∧ p.hasReleased = true)
    (hreleases_le : releases.length ≤ 1)
    (houtcomes : ∀ j ∈ outcomes, j = i ∧ p = .ended .won) (houtcomes_le : outcomes.length ≤ 1) :
    Inv { s.setPhase i p with releases, outcomes } := by
  have howner := (h.owner i).1 hi
  refine ⟨h.stored, fun j => ?_, fun j => ?_, hreleases_le, fun j hj => ?_, houtcomes_le,
    fun j => ?_⟩
  · by_cases hj : j = i
    · subst j
      simp [State.setPhase, hp, howner]
    · simpa [State.setPhase, hj] using h.owner j
  · by_cases hj : j = i
    · subst j
      simpa [State.setPhase] using hreleases i
    · have hnot : (s.phase j).hasReleased = false := by
        by_contra hrel
        exact hj (h.owner_unique (owns_of_hasReleased (by simpa using hrel)) hi)
      simp [State.setPhase, hreleases, hj, hnot]
  · obtain ⟨rfl, rfl⟩ := houtcomes j hj
    simp [State.setPhase]
  · by_cases hj : j = i
    · subst j
      have hne : p ≠ .ended .beaten := by
        rintro rfl
        cases hp
      simp [State.setPhase, hne]
    · simpa [State.setPhase, hj] using h.beaten j

theorem release (h : Inv s) {records : Bool} (hi : s.phase i = .releasing records) :
    Inv { s.setPhase i (.recording records) with releases := s.releases ++ [i] } := by
  have howns : (s.phase i).owns = true := by rw [hi]; rfl
  have hreleases : s.releases = [] := by
    rw [List.eq_nil_iff_forall_not_mem]
    intro j hj
    have hrel := (h.released j).1 hj
    obtain rfl := h.owner_unique howns (owns_of_hasReleased hrel)
    rw [hi] at hrel
    cases hrel
  refine h.ownerStep howns rfl (fun j => ?_) (by simp [hreleases]) (fun j hj => ?_) h.outcomes_le
  · simp [hreleases, Phase.hasReleased]
  · have hwon := h.recorded j hj
    obtain rfl := h.owner_unique howns (j := j) (by rw [hwon]; rfl)
    rw [hi] at hwon
    cases hwon

theorem record (h : Inv s) {records : Bool} (hi : s.phase i = .recording records) :
    Inv { s.setPhase i (.ended .won) with
      outcomes := if records then s.outcomes ++ [i] else s.outcomes } := by
  have howns : (s.phase i).owns = true := by rw [hi]; rfl
  have houtcomes : s.outcomes = [] := by
    rw [List.eq_nil_iff_forall_not_mem]
    intro j hj
    have hwon := h.recorded j hj
    obtain rfl := h.owner_unique howns (j := j) (by rw [hwon]; rfl)
    rw [hi] at hwon
    cases hwon
  refine h.ownerStep howns rfl (fun j => ⟨fun hj => ⟨?_, rfl⟩, ?_⟩) h.releases_le
    (fun j hj => ⟨?_, rfl⟩) ?_
  · exact h.owner_unique (owns_of_hasReleased ((h.released j).1 hj)) howns
  · rintro ⟨rfl, -⟩
    exact (h.released j).2 (by rw [hi]; rfl)
  · cases records with
    | true => simpa [houtcomes] using hj
    | false => simp [houtcomes] at hj
  · cases records <;> simp [houtcomes]

theorem step {handler : ι → Handler} {a : Act ι} {s' : State ι} (h : Inv s)
    (hs : s.step handler a = some s') : Inv s' := by
  obtain ⟨p, hold, hnew, hbeaten, rfl⟩ | ⟨records, hstored, -, rfl⟩ | ⟨records, hi, rfl⟩ |
    ⟨records, hi, rfl⟩ := State.step_cases hs
  · refine h.setPhase hold hnew fun hp hnone => ?_
    have hgone := hbeaten hp
    rw [h.stored.2 hnone] at hgone
    cases hgone
  · exact h.remove hstored records
  · exact h.release hi
  · exact h.record hi

end Inv

theorem inv_of_reach {ok : State ι → Act ι → Prop} (h : (endings handler).Reach ok s) : Inv s := by
  refine h.invariant ?_ fun s a s' hinv _ hs => hinv.step hs
  rintro s rfl
  refine ⟨by simp, fun i => ?_, fun i => ?_, by simp, by simp, by simp, fun i hi => ?_⟩
  · simp [Phase.owns]
  · simp [Phase.hasReleased]
  · cases hi

/-- Who removed the record does not change. -/
theorem State.step_removedBy {s' : State ι} {a : Act ι} (hinv : Inv s)
    (hs : s.step handler a = some s') {j : ι} (hj : s.removedBy = some j) :
    s'.removedBy = some j := by
  obtain ⟨p, -, -, -, rfl⟩ | ⟨records, hstored, -, rfl⟩ | ⟨records, -, rfl⟩ |
    ⟨records, -, rfl⟩ := State.step_cases hs
  · exact hj
  · rw [hinv.stored.1 hstored] at hj
    cases hj
  · exact hj
  · exact hj

theorem State.step_logs {s' : State ι} {a : Act ι} (hs : s.step handler a = some s')
    (hnot : (s.phase a.actor).owns = false) :
    s'.releases = s.releases ∧ s'.outcomes = s.outcomes := by
  obtain ⟨p, -, -, -, rfl⟩ | ⟨records, -, -, rfl⟩ | ⟨records, hi, rfl⟩ | ⟨records, hi, rfl⟩ :=
    State.step_cases hs
  · exact ⟨rfl, rfl⟩
  · exact ⟨rfl, rfl⟩
  · rw [hi] at hnot
    cases hnot
  · rw [hi] at hnot
    cases hnot

omit [DecidableEq ι] in
theorem Inv.releases_eq (h : Inv s) {j : ι} (hj : (s.phase j).hasReleased = true) :
    s.releases = [j] := by
  have hmem := (h.released j).2 hj
  match hr : s.releases, h.releases_le with
  | [], _ => rw [hr] at hmem; cases hmem
  | [k], _ =>
    rw [hr, List.mem_singleton] at hmem
    rw [hmem]

/-- Whatever events race, the slot is given back at most once and at most one outcome is recorded,
by the event that gave the slot back. An event that came to delete the record and has ended knows
that some event removed it; when that one has ended too, it has given the slot back. Once the
record is removed no other event releases or records anything. -/
theorem executing_query_ends_once {handler : ι → Handler} {ok : State ι → Act ι → Prop}
    {s : State ι} (h : (endings handler).Reach ok s) :
    s.releases.length ≤ 1 ∧
      (∀ i, (s.phase i).endedTerminal = true → ∃ j, s.removedBy = some j ∧
        ((∃ how, s.phase j = .ended how) → s.releases = [j])) ∧
      s.outcomes.length ≤ 1 ∧ (∀ i ∈ s.outcomes, i ∈ s.releases) ∧
      ∀ j a s', s.removedBy = some j → s.step handler a = some s' → a.actor ≠ j →
        s'.removedBy = some j ∧ s'.releases = s.releases ∧ s'.outcomes = s.outcomes := by
  have hinv := inv_of_reach h
  refine ⟨hinv.releases_le, fun i hi => ?_, hinv.outcomes_le, fun i hi => ?_, ?_⟩
  · have hremoved : s.removedBy ≠ none := by
      cases hp : s.phase i with
      | ended how =>
        rw [hp] at hi
        cases how with
        | beaten => exact hinv.beaten i hp
        | won =>
          rw [(hinv.owner i).1 (by rw [hp]; rfl)]
          simp
        | notFound | left => cases hi
      | _ => rw [hp] at hi; cases hi
    obtain ⟨j, hj⟩ := Option.ne_none_iff_exists'.1 hremoved
    refine ⟨j, hj, fun ⟨how, hended⟩ => hinv.releases_eq ?_⟩
    have howns := (hinv.owner j).2 hj
    rw [hended] at howns ⊢
    cases how <;> first | rfl | cases howns
  · rw [hinv.released, hinv.recorded i hi]
    rfl
  · intro j a s' hj hs hne
    refine ⟨State.step_removedBy hinv hs hj, State.step_logs hs ?_⟩
    by_contra howns
    have howner := (hinv.owner a.actor).1 (by simpa using howns)
    rw [hj] at howner
    exact hne (Option.some.inj howner).symm

/-! ## A final poll against a cancel -/

/-- A final poll (event 0) and a cancel (event 1), which is faster to delete the record. -/
def pollAndCancel : Fin 2 → Handler
  | 0 => .getExecutingStatement
  | 1 => .deleteExecutingStatement

def pollAndCancelRun : List (Act (Fin 2)) :=
  [.load 0, .load 1, .find 0 (.polled .finalPage), .find 1 .cancelled, .delete 1, .delete 0,
    .release 1, .record 1]

/-- That an event found the query terminal and has ended does not mean that the slot is back: the
poll lost the delete to the cancel, which has not released the slot yet (and never does if its
request is dropped there). -/
theorem beaten_poll_ends_before_release :
    ¬ ∀ (handler : Fin 2 → Handler) (s : State (Fin 2)),
      (endings handler).Reach (fun _ _ => True) s →
        (∃ i, (s.phase i).endedTerminal = true) → s.releases.length = 1 := by
  intro hreleased
  obtain ⟨s, hreach, hbeaten, hnone⟩ : ∃ s,
      (endings pollAndCancel).Reach (fun _ _ => True) s ∧ s.phase 0 = .ended .beaten ∧
      s.releases = [] :=
    System.Reach.exists_of_run (.init rfl) (pollAndCancelRun.take 6) (by decide +kernel)
  have hone := hreleased pollAndCancel s hreach ⟨0, by rw [hbeaten]; rfl⟩
  rw [hnone] at hone
  cases hone

/-- The cancel removes the query, and the poll is beaten. -/
theorem ends_once_poll_and_cancel :
    ∃ s, (endings pollAndCancel).Reach (fun _ _ => True) s ∧
      (s.phase 0).endedTerminal = true ∧ s.releases = [1] := by
  obtain ⟨s, hreach, hbeaten, hwon, hremoved⟩ : ∃ s,
      (endings pollAndCancel).Reach (fun _ _ => True) s ∧ s.phase 0 = .ended .beaten ∧
      s.phase 1 = .ended .won ∧ s.removedBy = some 1 :=
    System.Reach.exists_of_run (.init rfl) pollAndCancelRun (by decide +kernel)
  have hterminal : (s.phase 0).endedTerminal = true := by rw [hbeaten]; rfl
  obtain ⟨j, hj, hreleased⟩ := (executing_query_ends_once hreach).2.1 0 hterminal
  obtain rfl : (1 : Fin 2) = j := Option.some.inj (hremoved.symm.trans hj)
  exact ⟨s, hreach, hterminal, hreleased ⟨_, hwon⟩⟩

end QueryFlux.Executing
