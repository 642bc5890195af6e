import Mathlib.Logic.Function.Basic
import QueryFlux.Lib.Transition

/-!
# A queued query and the requests on it

A query that found no capacity waits as a row of the shared store. Its client polls; a poll loads
the row, fails the query if it has waited too long, claims the row for its replica, waits a little,
checks that the row is still there, and dispatches. If capacity is denied again, dispatch writes the
row back. Meanwhile a cancel or the sweep of stale rows may take the row away.

Any number of polls, cancels and sweeps run on any replicas. Each move is one call to the store or
to the engine, together with what its caller does with the answer; calls of different requests
interleave freely, and a request that crashes or whose future is dropped makes no further move.
-/

namespace QueryFlux.Queued

open Lib

/-! ## Rows -/

structure Claim where
  claimedBy : String
  claimedAt : Nat
  deriving DecidableEq

/-- A row of `queued_queries`; times in seconds. -/
structure Row where
  creationTime : Nat
  lastAccessed : Nat
  claim : Option Claim
  deriving DecidableEq

def queueClaimTimeoutSecs : Nat := 60

def clientTimeoutSecs : Nat := 300

namespace Row

def claimable (now : Nat) (row : Row) : Bool :=
  row.claim.all fun claim => claim.claimedAt + queueClaimTimeoutSecs < now

def releaseClaim (row : Row) : Row := { row with claim := none }

def refreshClaim (instanceId : String) (now : Nat) (row : Row) : Row :=
  { row with claim := row.claim.map fun claim =>
      if claim.claimedBy = instanceId then { claim with claimedAt := now } else claim }

end Row

/-- `upsert_queued`: a row that is there keeps its creation time and its claim, one that is not
there is inserted. -/
def upsertQueued (now : Nat) : Option Row → Row
  | some row => { row with lastAccessed := now }
  | none => ⟨now, now, none⟩

/-! ## Requests -/

/-- `get_queued_statement`, a cancel by an admin or over MCP, and the sweep of rows whose client is
gone. -/
inductive Kind
  | poll | cancel | sweep
  deriving DecidableEq

/-- How far a request has come. A poll is `loaded` when it has read the row, `late` if the query has
waited too long by then; `waiting` in `queued_backoff_delay`, before it checks the row again;
`dispatching` in `dispatch_query`. It is `submitted` when the engine has taken the query,
`rejecting` when the translation failed and `handingOver` on its way to `execute_to_sink`, each
before `delete_queued`; `executing` in `execute_to_sink`, and `releasing` before `release_claim`. A
sweep is `listed` when it has found the row stale. -/
inductive Phase
  | starting
  | loaded (late : Bool)
  | claiming
  | claimed
  | waiting
  | dispatching
  | submitted
  | rejecting
  | handingOver
  | executing
  | releasing
  | listed
  | ended
  deriving DecidableEq

def Phase.inFlight : Phase → Bool
  | .dispatching | .submitted | .rejecting | .handingOver | .executing => true
  | .starting | .loaded _ | .claiming | .claimed | .waiting | .releasing | .listed | .ended => false

/-- What becomes of the query: it is dispatched to an engine, recorded failed since it has waited
too long or since its client is gone, or cancelled. -/
inductive Fate
  | dispatched | timedOut | evicted | cancelled
  deriving DecidableEq

/-- The last look before dispatch: an engine that runs asynchronously, one that does not, or a
failed read. -/
inductive Recheck
  | async | sync | readFailed
  deriving DecidableEq

/-- How `dispatch_query` goes on for a query that is already queued: there is no slot or no lease
and `persist_queued_query` writes the row back, the engine takes the query, the translation fails,
the engine is a synchronous one, or there is any other error. -/
inductive Dispatch
  | requeued | submitted | rejected | syncEngineRequired | failed
  deriving DecidableEq

/-- The calls a request makes. A delete removes the row unless it fails; after a submission,
`persisted` tells whether the executing record is stored next. -/
inductive Move
  | load
  | take
  | authorize (allowed : Bool)
  | tryClaim
  | touch
  | recheck (answer : Recheck)
  | dispatch (outcome : Dispatch)
  | delete (removes persisted : Bool)
  | execute (dispatches : Bool)
  | releaseClaim
  | heartbeat
  deriving DecidableEq

/-- What a move makes of the request's phase and of the row, and the fate it settles. -/
structure Outcome where
  phase : Phase
  row : Option Row
  fate : Option Fate

/-- The requests and what they read of the configuration: whether there is a queue coordinator, and
how long a query may wait. -/
structure Requests (ι : Type) where
  kind : ι → Kind
  instanceId : ι → String
  coordinated : Bool
  capacityWaitTimeoutSecs : Nat

structure State (ι : Type) where
  row : Option Row
  now : Nat
  phase : ι → Phase
  fates : List Fate

section

variable {ι : Type}

def move (requests : Requests ι) (s : State ι) (i : ι) : Move → Option Outcome
  | .load =>
    match requests.kind i, s.phase i with
    | .poll, .starting =>
      some ⟨match s.row with
        | none => .ended
        | some row => .loaded (requests.capacityWaitTimeoutSecs ≤ s.now - row.creationTime),
        s.row, none⟩
    | .sweep, .starting =>
      some ⟨if s.row.any (fun row => row.lastAccessed + clientTimeoutSecs < s.now) then .listed
        else .ended, s.row, none⟩
    | _, _ => none
  -- `take_queued`; only a caller that gets the row back records the end of the query
  | .take =>
    match requests.kind i, s.phase i with
    | .poll, .loaded true => some ⟨.releasing, none, s.row.map fun _ => .timedOut⟩
    | .cancel, .starting => some ⟨.releasing, none, s.row.map fun _ => .cancelled⟩
    | .sweep, .listed => some ⟨.ended, none, s.row.map fun _ => .evicted⟩
    | _, _ => none
  | .authorize allowed =>
    match s.phase i with
    | .loaded false =>
      some ⟨if !allowed then .ended else if requests.coordinated then .claiming else .claimed,
        s.row, none⟩
    | _ => none
  | .tryClaim =>
    match s.phase i, s.row with
    | .claiming, some row =>
      if row.claimable s.now then
        some ⟨.claimed, some { row with claim := some ⟨requests.instanceId i, s.now⟩ }, none⟩
      else some ⟨.ended, s.row, none⟩
    | .claiming, none => some ⟨.ended, s.row, none⟩
    | _, _ => none
  | .touch =>
    match s.phase i with
    | .claimed => some ⟨.waiting, s.row.map fun row => { row with lastAccessed := s.now }, none⟩
    | _ => none
  | .recheck answer =>
    match s.phase i with
    | .waiting =>
      some ⟨match s.row, answer with
        | some _, .async => .dispatching
        | some _, .sync => .handingOver
        | some _, .readFailed | none, _ => .releasing, s.row, none⟩
    | _ => none
  | .dispatch outcome =>
    match s.phase i with
    | .dispatching =>
      some (match outcome with
        | .requeued => ⟨.releasing, some (upsertQueued s.now s.row), none⟩
        | .submitted => ⟨.submitted, s.row, some .dispatched⟩
        | .rejected => ⟨.rejecting, s.row, none⟩
        | .syncEngineRequired => ⟨.handingOver, s.row, none⟩
        | .failed => ⟨.releasing, s.row, none⟩)
    | _ => none
  | .delete removes persisted =>
    let row := if removes then none else s.row
    match s.phase i with
    | .submitted => some ⟨if persisted then .ended else .releasing, row, none⟩
    | .rejecting => some ⟨.releasing, row, none⟩
    | .handingOver => some ⟨.executing, row, none⟩
    | _ => none
  | .execute dispatches =>
    match s.phase i with
    | .executing => some ⟨.ended, s.row, if dispatches then some .dispatched else none⟩
    | _ => none
  | .releaseClaim =>
    match s.phase i with
    | .releasing => some ⟨.ended, s.row.map Row.releaseClaim, none⟩
    | _ => none
  -- runs beside the poll from its claim on
  | .heartbeat =>
    if requests.coordinated && ((s.phase i).inFlight || s.phase i == .claimed
        || s.phase i == .waiting) then
      some ⟨s.phase i, s.row.map (Row.refreshClaim (requests.instanceId i) s.now), none⟩
    else none

/-- The moves that leave the row there or not there and bring no fate, made by a request that is
not in flight before or after. -/
def Move.quiet : Move → Bool
  | .load | .authorize _ | .tryClaim | .touch | .releaseClaim => true
  | .take | .recheck _ | .dispatch _ | .delete .. | .execute _ | .heartbeat => false

structure Quiet (s : State ι) (i : ι) (o : Outcome) : Prop where
  row : o.row.isSome = s.row.isSome
  fate : o.fate = none
  before : (s.phase i).inFlight = false
  after : o.phase.inFlight = false

theorem quiet_of_move {requests : Requests ι} {s : State ι} {i : ι} {m : Move} {o : Outcome}
    (hq : m.quiet = true) (hm : move requests s i m = some o) : Quiet s i o := by
  cases m with
  | load =>
    simp only [move] at hm
    split at hm
    case h_1 _ _ hi =>
      cases hm
      refine ⟨rfl, rfl, by rw [hi]; rfl, ?_⟩
      cases s.row <;> rfl
    case h_2 _ _ hi =>
      cases hm
      refine ⟨rfl, rfl, by rw [hi]; rfl, ?_⟩
      split <;> rfl
    case h_3 => cases hm
  | authorize allowed =>
    simp only [move] at hm
    split at hm
    case h_1 _ hi =>
      cases hm
      refine ⟨rfl, rfl, by rw [hi]; rfl, ?_⟩
      cases allowed <;> cases requests.coordinated <;> rfl
    case h_2 => cases hm
  | tryClaim =>
    simp only [move] at hm
    split at hm
    case h_1 _ _ row hi hrow =>
      split at hm <;> cases hm
      · exact ⟨by rw [hrow]; rfl, rfl, by rw [hi]; rfl, rfl⟩
      · exact ⟨by rw [hrow], rfl, by rw [hi]; rfl, rfl⟩
    case h_2 _ _ hi hrow =>
      cases hm
      exact ⟨by rw [hrow], rfl, by rw [hi]; rfl, rfl⟩
    case h_3 => cases hm
  | touch | releaseClaim =>
    simp only [move] at hm
    split at hm
    case h_1 _ hi =>
      cases hm
      exact ⟨Option.isSome_map, rfl, by rw [hi]; rfl, rfl⟩
    case h_2 => cases hm
  | take | recheck | dispatch | delete | execute | heartbeat => cases hq

/-! ## Runs -/

inductive Act (ι : Type)
  | tick
  | request (i : ι) (m : Move)

variable [DecidableEq ι]

def State.apply (s : State ι) (i : ι) (o : Outcome) : State ι :=
  { s with
    row := o.row
    phase := Function.update s.phase i o.phase
    fates := s.fates ++ o.fate.toList }

def State.step (requests : Requests ι) (s : State ι) : Act ι → Option (State ι)
  | .tick => some { s with now := s.now + 1 }
  | .request i m => (move requests s i m).map (s.apply i)

def State.initial : State ι := ⟨some ⟨0, 0, none⟩, 0, fun _ => .starting, []⟩

def requestsOn (requests : Requests ι) : System (State ι) (Act ι) where
  init := fun s => s = State.initial
  step := State.step requests

end

end QueryFlux.Queued
