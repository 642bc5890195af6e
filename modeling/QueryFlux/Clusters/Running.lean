import Mathlib.Logic.Function.Basic
import QueryFlux.Lib.Lists
import QueryFlux.Lib.Transition

/-!
# The running counters of the clusters

Any number of requests acquire and release slots of a group's members at the same time, by atomic
loads and swaps. Swaps fail, members stop to accept queries and limits change at any time. Still
every counter is the number of requests that hold a slot of the member, and never above the largest
limit (`slots_exact`). Corrections of a counter (`reconcile_running`) are left out.
-/

namespace QueryFlux.Clusters

open Lib

/-! ## Requests -/

/-- What a request does next; `rest` are the members it tries behind the current one. -/
inductive Phase (ι : Type)
  -- `can_accept_query` of the first member
  | checking (rest : List ι)
  -- the loop of `try_increment_running`
  | bounding (i : ι) (current : Nat) (rest : List ι)
  | swapping (i : ι) (current : Nat) (rest : List ι)
  -- `can_accept_query` once more
  | confirming (i : ι) (rest : List ι)
  -- the loop of `decrement_running`
  | unswapping (i : ι) (current : Nat) (rest : List ι)
  -- `acquire_cluster` has returned; a slot is still to be released
  | done (acquired : Option ι)
  deriving DecidableEq

/-- The counters of a group's members and the requests at work. -/
structure Members (ι : Type) where
  runningQueries : ι → Nat
  requests : List (Phase ι)

inductive Move (ι : Type)
  -- the picked member, then the eligible ones as they were when collected
  | acquire (tries : List ι)
  | advance (n : Nat) (answer : Bool) (limit : Nat)

variable {ι : Type} [DecidableEq ι]

namespace Phase

/-- The slots of the member that the request holds. -/
def units (i : ι) : Phase ι → Nat
  | confirming j _ | unswapping j _ _ | done (some j) => if i = j then 1 else 0
  | _ => 0

def unswap (i : ι) (current : Nat) (rest : List ι) : Phase ι :=
  if current = 0 then checking rest else unswapping i current rest

/-- One atomic operation, where the first load of a loop belongs to what is in front of it. `answer`
is that of `can_accept_query`, or whether a swap that can succeed does; `limit` is the
`max_running_queries` that is read, at most `peak`. -/
def advance (peak running : ι → Nat) (answer : Bool) (limit : Nat) :
    Phase ι → Option (Phase ι × (ι → Nat))
  | checking [] => some (done none, running)
  | checking (i :: rest) =>
    some (if answer then bounding i (running i) rest else checking rest, running)
  | bounding i current rest =>
    if peak i < limit then none
    else some (if limit ≤ current then checking rest else swapping i current rest, running)
  | swapping i current rest =>
    if running i = current ∧ answer then
      some (confirming i rest, Function.update running i (current + 1))
    else some (bounding i (running i) rest, running)
  | confirming i rest =>
    some (if answer then done (some i) else unswap i (running i) rest, running)
  | unswapping i current rest =>
    if running i = current ∧ answer then
      some (checking rest, Function.update running i (current - 1))
    else some (unswap i (running i) rest, running)
  | done (some i) => some (unswap i (running i) [], running)
  | done none => none

/-- A swap stays below the limit that the request has read. -/
def Within (peak : ι → Nat) : Phase ι → Prop
  | swapping i current _ => current < peak i
  | _ => True

end Phase

open Phase

def members (peak : ι → Nat) : System (Members ι) (Move ι) where
  init s := s.runningQueries = (fun _ => 0) ∧ s.requests = []
  step s
    | .acquire tries => some { s with requests := s.requests ++ [checking tries] }
    | .advance n answer limit => do
      let p ← s.requests[n]?
      let (p', running) ← p.advance peak s.runningQueries answer limit
      pure ⟨running, s.requests.set n p'⟩

/-! ## The count -/

def Members.held (s : Members ι) (i : ι) : Nat := (s.requests.map (units i)).sum

/-- The invariant. -/
structure Counted (peak : ι → Nat) (s : Members ι) : Prop where
  exact : ∀ i, s.runningQueries i = s.held i
  bounded : ∀ i, s.runningQueries i ≤ peak i
  within : ∀ p ∈ s.requests, p.Within peak

variable {peak : ι → Nat}

/-- The counters change as the slots that the request holds. If it holds one, the counter is
positive and the decrement not left out. -/
theorem Phase.advance_counted {running running' : ι → Nat} {answer : Bool} {limit : Nat}
    {p p' : Phase ι} (hunits : ∀ j, p.units j ≤ running j) (hbound : ∀ j, running j ≤ peak j)
    (hp : p.Within peak) (hadv : p.advance peak running answer limit = some (p', running')) :
    (∀ j, running' j + p.units j = running j + p'.units j) ∧ (∀ j, running' j ≤ peak j) ∧
      p'.Within peak := by
  have hunswap {i : ι} (hi : 1 ≤ running i) (rest : List ι) :
      unswap i (running i) rest = unswapping i (running i) rest := if_neg (by omega)
  have hupdate (i : ι) (v : Nat) (q : Phase ι) (hv : v + p.units i = running i + q.units i)
      (hle : v ≤ peak i) (hne : ∀ j, j ≠ i → p.units j = q.units j) :
      (∀ j, Function.update running i v j + p.units j = running j + q.units j) ∧
        ∀ j, Function.update running i v j ≤ peak j := by
    refine forall_and.1 fun j => ?_
    by_cases hj : j = i
    · subst hj
      rw [Function.update_self]
      exact ⟨hv, hle⟩
    · rw [Function.update_of_ne hj, hne j hj]
      exact ⟨rfl, hbound j⟩
  cases p with
  | checking rest =>
    cases rest with
    | nil => cases hadv; exact ⟨fun _ => rfl, hbound, trivial⟩
    | cons => cases hadv; cases answer <;> exact ⟨fun _ => rfl, hbound, trivial⟩
  | bounding i current rest =>
    simp only [advance, Option.ite_none_left_eq_some, Option.some.injEq, Prod.mk.injEq] at hadv
    obtain ⟨hlimit, rfl, rfl⟩ := hadv
    split_ifs with hfull
    · exact ⟨fun _ => rfl, hbound, trivial⟩
    · exact ⟨fun _ => rfl, hbound, show current < peak i by omega⟩
  | swapping i current rest =>
    simp only [advance] at hadv
    split_ifs at hadv with hswap <;> cases hadv
    · obtain ⟨hcount, hle⟩ := hupdate i (current + 1) (confirming i rest)
        (by simp [units, hswap.1]) hp fun j hj => by simp [units, hj]
      exact ⟨hcount, hle, trivial⟩
    · exact ⟨fun _ => rfl, hbound, trivial⟩
  | confirming i rest =>
    have hi := hunits i
    cases hadv
    cases answer with
    | true => exact ⟨fun _ => rfl, hbound, trivial⟩
    | false =>
      rw [hunswap (by simpa [units] using hi)]
      exact ⟨fun _ => rfl, hbound, trivial⟩
  | unswapping i current rest =>
    have hi : 1 ≤ running i := by simpa [units] using hunits i
    simp only [advance] at hadv
    split_ifs at hadv with hswap <;> cases hadv
    · have hle := hbound i
      obtain ⟨hcount, hle⟩ := hupdate i (current - 1) (checking rest)
        (by simp only [units, if_true]; omega) (by omega) fun j hj => by simp [units, hj]
      exact ⟨hcount, hle, trivial⟩
    · rw [hunswap hi]
      exact ⟨fun _ => rfl, hbound, trivial⟩
  | done acquired =>
    cases acquired with
    | none => cases hadv
    | some i =>
      have hi := hunits i
      cases hadv
      rw [hunswap (by simpa [units] using hi)]
      exact ⟨fun _ => rfl, hbound, trivial⟩

theorem Counted.advance {s : Members ι} (h : Counted peak s) {n limit : Nat} {answer : Bool}
    {p p' : Phase ι} {running : ι → Nat} (hp : s.requests[n]? = some p)
    (hadv : p.advance peak s.runningQueries answer limit = some (p', running)) :
    Counted peak ⟨running, s.requests.set n p'⟩ := by
  have hmem := List.mem_of_getElem? hp
  have hunits (i : ι) : p.units i ≤ s.runningQueries i := by
    rw [h.exact i]
    exact List.le_sum_of_mem (List.mem_map_of_mem hmem)
  obtain ⟨hcount, hbound, hwithin⟩ := Phase.advance_counted hunits h.bounded (h.within p hmem) hadv
  refine ⟨fun i => ?_, hbound, fun q hq => ?_⟩
  · have hsum := sum_map_set hp p' (units i)
    have hexact := h.exact i
    have hi := hcount i
    unfold Members.held at hexact ⊢
    dsimp only
    omega
  · rcases List.mem_or_eq_of_mem_set hq with hq | rfl
    exacts [h.within q hq, hwithin]

/-- Each counter is the number of requests that hold a slot of the member, and stays below every
limit that was read. -/
theorem slots_exact {s : Members ι} (h : (members peak).Reach (fun _ _ => True) s) (i : ι) :
    s.runningQueries i = s.held i ∧ s.runningQueries i ≤ peak i := by
  suffices hc : Counted peak s from ⟨hc.exact i, hc.bounded i⟩
  refine h.invariant ?_ ?_
  · rintro ⟨running, requests⟩ ⟨rfl, rfl⟩
    exact ⟨fun _ => rfl, fun _ => Nat.zero_le _, fun p hp => by cases hp⟩
  · intro s a s' hc _ hs
    cases a with
    | acquire tries =>
      cases hs
      refine ⟨fun i => ?_, hc.bounded, fun p hp => ?_⟩
      · rw [Members.held, List.map_append, List.sum_append]
        exact hc.exact i
      · rcases mem_append_singleton.1 hp with hp | rfl
        · exact hc.within p hp
        · trivial
    | advance n answer limit =>
      obtain ⟨p, hp, hs⟩ := Option.bind_eq_some_iff.1 hs
      obtain ⟨⟨p', running⟩, hadv, hs⟩ := Option.bind_eq_some_iff.1 hs
      cases hs
      exact hc.advance hp hadv

/-- The second request reads the counter before the first one has swapped it. -/
theorem one_slot_for_two : ∃ s, (members fun _ : Unit => 1).Reach (fun _ _ => True) s ∧
    s.requests = [done (some ()), done none] ∧ s.runningQueries () = 1 := by
  have hstart : (members fun _ : Unit => 1).Reach (fun _ _ => True) ⟨fun _ => 0, []⟩ :=
    .init ⟨rfl, rfl⟩
  obtain ⟨s, hs, hrequests⟩ := hstart.exists_of_run (P := fun s =>
      s.requests = [done (some ()), done none]) ([.acquire [()], .acquire [()]] ++
    [0, 1, 0, 0, 1, 0, 1, 1, 1].map fun n => .advance n true 1) (by decide)
  refine ⟨s, hs, hrequests, (slots_exact hs ()).1.trans ?_⟩
  rw [Members.held, hrequests]
  rfl

end QueryFlux.Clusters
