import Mathlib.Data.Set.Card
import QueryFlux.Lib.Transition

/-!
# Running queries of the Snowflake frontend

`spawn_execute` starts a task for a query, registers it, waits for it and unregisters it. A future
that is dropped while it waits leaves its task running, and nobody unregisters the query. A finished
query has an entry exactly if its future was dropped (`finished_listed_iff_dropped`).
-/

namespace QueryFlux.Snowflake.InFlight

open Lib Function

/-! ## Calls and the registry -/

inductive TaskEnd
  | completed | cancelled | panicked
  deriving DecidableEq

inductive FutureState
  -- the task is spawned but not registered
  | spawned
  | waiting
  | returned (result : TaskEnd)
  | dropped
  deriving DecidableEq

/-- A call that waits for the task of its query. -/
structure Execution where
  owner : String
  future : FutureState
  aborted : Bool
  task : Option TaskEnd

def Execution.listed (e : Execution) : Bool := e.future = .waiting || e.future = .dropped

/-- The task has ended, and the call has returned or was dropped. -/
def Execution.finished (e : Execution) : Bool :=
  e.task.isSome && e.future ≠ .spawned && e.future ≠ .waiting

structure State where
  executions : String → Option Execution
  -- the registry: query ids with their owners
  entries : String → Option String

inductive Move
  | spawn (id owner : String)
  | register (id : String)
  -- `owned` is what `require_query_owner` says of the caller
  | cancel (id : String) (owned : Bool)
  | taskEnds (id : String) (result : TaskEnd)
  | resume (id : String)
  | drop (id : String)

def Move.id : Move → String
  | spawn id _ | register id | cancel id _ | taskEnds id _ | resume id | drop id => id

/-- What a move does to the call and to its entry. -/
def act : Move → Option Execution → Option String → Option (Option Execution × Option String)
  | .spawn _ owner, none, entry => some (some ⟨owner, .spawned, false, none⟩, entry)
  | .register _, some e, _ =>
    if e.future = .spawned then some (some { e with future := .waiting }, some e.owner) else none
  | .cancel _ owned, e, entry =>
    some (e.map fun e => { e with aborted := e.aborted || entry.isSome && owned }, entry)
  | .taskEnds _ result, some e, entry =>
    if e.task = none ∧ (result = .cancelled → e.aborted) then
      some (some { e with task := some result }, entry)
    else none
  | .resume _, some e, _ =>
    if e.future = .waiting then
      e.task.map fun result => (some { e with future := .returned result }, none)
    else none
  | .drop _, some e, entry =>
    if e.future = .waiting then some (some { e with future := .dropped }, entry) else none
  | _, _, _ => none

def step (s : State) (m : Move) : Option State :=
  (act m (s.executions m.id) (s.entries m.id)).map fun (e, entry) =>
    ⟨update s.executions m.id e, update s.entries m.id entry⟩

def system : System State Move where
  init s := s = ⟨fun _ => none, fun _ => none⟩
  step := step

theorem listed_of_act {m : Move} {e e' : Option Execution} {entry entry' : Option String}
    (hact : act m e entry = some (e', entry')) (h : entry.isSome = e.any Execution.listed) :
    entry'.isSome = e'.any Execution.listed := by
  unfold act at hact
  split at hact
  · cases hact
    exact h
  · split at hact <;> cases hact
    rfl
  · cases hact
    cases e <;> exact h
  · split at hact <;> cases hact
    exact h
  · split at hact
    · obtain ⟨result, -, heq⟩ := Option.map_eq_some_iff.1 hact
      cases heq
      rfl
    · cases hact
  · split at hact <;> cases hact
    rename_i hwaiting
    simpa [Execution.listed, hwaiting] using h
  · cases hact

variable {s : State}

/-- The registry lists the calls that wait or were dropped. -/
theorem listed_of_reach (h : system.Reach (fun _ _ => True) s) (id : String) :
    (s.entries id).isSome = (s.executions id).any Execution.listed := by
  induction h generalizing id with
  | init h =>
    cases h
    rfl
  | @step s _ m _ _ hstep ih =>
    obtain ⟨⟨e, entry⟩, hact, rfl⟩ := Option.map_eq_some_iff.1 hstep
    by_cases hid : id = m.id
    · subst hid
      simpa using listed_of_act hact (ih m.id)
    · simpa [hid] using ih id

/-! ## Every run -/

/-- A finished query is still listed if and only if its call was dropped; if none is dropped, no
more are listed than run. -/
theorem finished_listed_iff_dropped (h : system.Reach (fun _ _ => True) s) :
    (∀ id e, s.executions id = some e → e.finished →
      ((s.entries id).isSome ↔ e.future = .dropped)) ∧
    ((∀ id e, s.executions id = some e → e.future ≠ .dropped) →
      {id | (s.entries id).isSome}.encard ≤
        {id | (s.executions id).any (!·.finished)}.encard) := by
  constructor
  · intro id e he hfinished
    rw [listed_of_reach h, he]
    simp_all [Execution.listed, Execution.finished]
  · intro hkept
    refine Set.encard_le_encard fun id hid => ?_
    rw [Set.mem_ofPred, listed_of_reach h, Option.any_eq_true] at hid
    obtain ⟨e, he, hlisted⟩ := hid
    have hnot := hkept id e he
    simp_all [Execution.listed, Execution.finished]

/-- The client leaves while its query runs. -/
def disconnect : List Move :=
  [.spawn "q" "ann", .register "q", .drop "q", .taskEnds "q" .completed]

/-- The query ends after that, and stays in the registry. -/
theorem finished_query_listed : ∃ s, system.Reach (fun _ _ => True) s ∧
    ((s.executions "q").any (·.finished) ∧ (s.entries "q").isSome) :=
  System.Reach.exists_of_run (.init rfl) disconnect (by decide)

/-- The task is aborted and the call returns. -/
theorem cancelled_query_unlisted : ∃ s, system.Reach (fun _ _ => True) s ∧
    (s.executions "q").any (·.finished) ∧ ¬(s.entries "q").isSome := by
  obtain ⟨s, hreach, hfuture⟩ : ∃ s, system.Reach (fun _ _ => True) s ∧
      (s.executions "q").any fun e => e.finished && e.future = .returned .cancelled :=
    System.Reach.exists_of_run (.init rfl) [.spawn "q" "ann", .register "q", .cancel "q" true,
      .taskEnds "q" .cancelled, .resume "q"] (by decide)
  obtain ⟨e, he, hreturned⟩ := (Option.any_eq_true _ _).1 hfuture
  obtain ⟨hfinished, hfuture⟩ := (Bool.and_eq_true _ _ ▸ hreturned)
  refine ⟨s, hreach, by simp [he, hfinished], fun hlisted => ?_⟩
  have hdropped := ((finished_listed_iff_dropped hreach).1 "q" e he hfinished).1 hlisted
  simp [hdropped] at hfuture

end QueryFlux.Snowflake.InFlight
