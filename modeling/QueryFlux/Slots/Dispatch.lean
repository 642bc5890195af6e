import QueryFlux.Lib.Futures
import QueryFlux.Slots.Guard

/-!
# The two functions that acquire slots

`dispatch_query` hands a query to an asynchronous engine and leaves its slot to the executing
record; `execute_to_sink` runs a query to its end and acquires slots in a loop until it is also
granted a lease. Both are written here with every point at which they wait, since at each of them
the future can be dropped, and with every early return. What they wait for has an answer that is
open; only acquires, releases and the record's upsert change the ledger.

An await that the code leaves out in some configurations (no schema to resolve, no access policy,
no parameters to fill in) is the same here as one that succeeds.
-/

namespace QueryFlux.Slots

open Lib

/-! ## Calls -/

/-- The awaited calls that neither take nor give back a slot. -/
inductive Site
  | authorizationCheck | shouldYieldToOlderQueued | effectiveMaxRunning | capacityRelease
  | countActiveQueued | upsertQueued | deleteQueued | clusterDbIds | resolveCredentials
  | resolveSchemaContext | runAccessControlStage | translate | isReadLike | interpolate
  | runPlanGuards | deleteExecuting | queuedBackoffDelay | waitForGrant
  | isCacheable | tryStreamCached | cacheWriter | finalizeCache
  | sinkOnError | sinkOnComplete | sinkOnTranslatedSql | execute
  deriving DecidableEq

inductive Submission
  | failed | running | completed
  deriving DecidableEq

/-- First the statements, at which nothing is awaited; `dropGuard` is the guard going out of scope,
`leaveLine` a `release` of the capacity store without a guard, on leaving its line. Then the awaited
calls. -/
inductive Call
  | newGuard (cluster : String)
  | release
  | releaseLocal
  | disarm
  | dropGuard
  | leaveLine
  | acquireCluster
  | tryAcquire
  | submitQuery
  | upsertExecuting (cluster : String)
  | site (site : Site)
  deriving DecidableEq

abbrev Answer : Call → Type
  | .newGuard _ | .release | .releaseLocal | .disarm | .dropGuard | .leaveLine => Unit
  | .acquireCluster => Except Unit (Option String)
  | .tryAcquire => Except Unit Bool
  | .submitQuery => Submission
  | .upsertExecuting _ | .site _ => Bool

def effect (store : Bool) : (q : Call) → Option (Answer q) → Bool → Ledger → Ledger
  | .newGuard cluster, _, _, s => s.newGuard cluster
  | .release, _, _, s => s.release store
  | .releaseLocal, _, _, s => s.releaseLocal
  | .disarm, _, _, s => s.disarm
  | .dropGuard, _, _, s => s.dropGuard store
  | .leaveLine, _, _, s => { s with capacity := .release :: s.capacity }
  -- the counter is incremented after the last await of the call
  | .acquireCluster, some (.ok (some cluster)), _, s =>
    { s with slots := ⟨cluster, 0⟩ :: s.slots }
  | .acquireCluster, _, _, s => s
  | .tryAcquire, some answer, _, s =>
    { s with capacity := .acquire answer.toOption :: s.capacity }
  | .tryAcquire, none, acted, s =>
    if acted then { s with capacity := .acquire none :: s.capacity } else s
  | .upsertExecuting cluster, _, acted, s =>
    if acted then { s with record := some ⟨cluster, true⟩ } else s
  | .submitQuery, _, _, s => s
  | .site _, _, _, s => s

def Call.isStatement : Call → Bool
  | .newGuard _ | .release | .releaseLocal | .disarm | .dropGuard | .leaveLine => true
  | .acquireCluster | .tryAcquire | .submitQuery | .upsertExecuting _ | .site _ => false

/-- The record is stored when its upsert reports success; `unreported` if it may also be stored by
an upsert that fails or is not waited for. -/
def upsertPossible (unreported : Bool) : (q : Call) → Option (Answer q) → Bool → Prop
  | .upsertExecuting _, some true, acted => acted = true
  | .upsertExecuting _, _, acted => acted = true → unreported = true
  | _, _, _ => True

/-- Statements are not places where the future is dropped. -/
def possible (unreported : Bool) (q : Call) (answer : Option (Answer q)) (acted : Bool) : Prop :=
  (q.isStatement = true → answer.isSome = true) ∧ upsertPossible unreported q answer acted

/-- What each call does to the ledger, and which answers it may have. -/
def slotCalls (store unreported : Bool) : Calls Call Answer Ledger :=
  ⟨effect store, possible unreported⟩

abbrev Future (A : Type) := Asks Call Answer A

/-! ## Dispatch -/

inductive AdapterKind
  | async | sync
  deriving DecidableEq

/-- What the functions read of the configuration and of the request; `store` if there is a capacity
store. -/
structure Setup where
  store : Bool
  adapters : String → Option AdapterKind
  alreadyQueued : Bool
  guardActionsSerialize : Bool

inductive DispatchOutcome
  | queued | async
  deriving DecidableEq

section

variable {A : Type} (setup : Setup)

def statement (q : Call) (k : Future A) : Future A := .ask q fun _ => k

def await (p : Site) (k : Bool → Future A) : Future A := .ask (.site p) k

/-- The guard's release, with the call of the capacity store. -/
def release (k : Future A) : Future A :=
  statement .release (if setup.store then await .capacityRelease fun _ => k else k)

/-- A call whose failure releases the slot and ends the function. -/
def orRelease (p : Site) (k : Future (Except Unit A)) : Future (Except Unit A) :=
  await p fun ok => if ok then k else release setup (.done (.error ()))

/-- A call whose failure ends the function and leaves the slot to `Drop`: a `?`. -/
def orReturn (p : Site) (k : Future (Except Unit A)) : Future (Except Unit A) :=
  await p fun ok => if ok then k else .done (.error ())

end

/-- The answer of the capacity store, which may also be unreachable. -/
inductive CapacityGrant
  | granted | denied | unavailable
  deriving DecidableEq

def acquireGlobalCapacity (setup : Setup) : Future CapacityGrant :=
  if setup.store then
    await .effectiveMaxRunning fun limited =>
      if limited then
        .ask .tryAcquire fun
          | .ok true => .done .granted
          | .ok false => .done .denied
          | .error _ => .done .unavailable
      else .done .granted
  else .done .granted

def persistQueuedQuery (setup : Setup) : Future (Except Unit DispatchOutcome) :=
  let insert := orReturn .upsertQueued (.done (.ok .queued))
  if setup.alreadyQueued then insert else orReturn .countActiveQueued insert

def dequeue (setup : Setup) {A : Type} (k : Future A) : Future A :=
  if setup.alreadyQueued then await .deleteQueued fun _ => k else k

def submit (setup : Setup) (cluster : String) : Future (Except Unit DispatchOutcome) :=
  .ask .submitQuery fun
    | .failed => release setup (.done (.error ()))
    | .running =>
      dequeue setup <| .ask (.upsertExecuting cluster) fun ok =>
        if ok then statement .disarm (.done (.ok .async))
        else release setup (.done (.error ()))
    -- `finalize_async_terminal_on_submit`
    | .completed =>
      dequeue setup <| release setup <| await .deleteExecuting fun _ => .done (.ok .async)

/-- From the moment slot and lease are taken. -/
def dispatchHolding (setup : Setup) (cluster : String) : Future (Except Unit DispatchOutcome) :=
  await .clusterDbIds fun _ =>
  orRelease setup .resolveCredentials <|
  match setup.adapters cluster with
  | none | some .sync => release setup (.done (.error ()))
  | some .async =>
    await .resolveSchemaContext fun _ =>
    orRelease setup .runAccessControlStage <|
    await .translate fun translated =>
    if translated then
      orRelease setup .isReadLike <|
      orReturn .interpolate <|
      orRelease setup .runPlanGuards <|
      if setup.guardActionsSerialize then submit setup cluster else .done (.error ())
    else dequeue setup <| release setup (.done (.error ()))

def dispatchQuery (setup : Setup) : Future (Except Unit DispatchOutcome) :=
  orReturn .authorizationCheck <|
  await .shouldYieldToOlderQueued fun yields =>
  if yields then persistQueuedQuery setup
  else .ask .acquireCluster fun
    | .error _ => .done (.error ())
    | .ok none => persistQueuedQuery setup
    | .ok (some cluster) =>
      statement (.newGuard cluster) <| (acquireGlobalCapacity setup).bind fun
        | .denied => statement .releaseLocal (persistQueuedQuery setup)
        | .unavailable => release setup (persistQueuedQuery setup)
        | .granted => dispatchHolding setup cluster

/-! ## Execution -/

/-- The loop of `setup_sync_query` that waits for a slot and a lease, with as many attempts as
start before the deadline. `waited` once the query stands in the capacity store's line. -/
def acquireLoop (setup : Setup) : Nat → Bool → Future (Except Unit String)
  | 0, waited =>
    if setup.store && waited then
      statement .leaveLine <| await .capacityRelease fun _ => .done (.error ())
    else .done (.error ())
  | attempts + 1, waited =>
    await .shouldYieldToOlderQueued fun yields =>
    if yields then await .queuedBackoffDelay fun _ => acquireLoop setup attempts waited
    else .ask .acquireCluster fun
      | .error _ => .done (.error ())
      | .ok none => await .queuedBackoffDelay fun _ => acquireLoop setup attempts waited
      | .ok (some cluster) =>
        statement (.newGuard cluster) <| (acquireGlobalCapacity setup).bind fun
          | .denied =>
            statement .releaseLocal <| await .waitForGrant fun _ =>
            statement .dropGuard <| acquireLoop setup attempts true
          | .unavailable =>
            release setup <| await .queuedBackoffDelay fun _ =>
            statement .dropGuard <| acquireLoop setup attempts waited
          | .granted =>
            match setup.adapters cluster with
            | none => release setup (.done (.error ()))
            | some _ => .done (.ok cluster)

def setupSyncQuery (setup : Setup) (attempts : Nat) : Future (Except Unit String) :=
  (acquireLoop setup attempts false).bind fun
    | .error e => .done (.error e)
    | .ok cluster =>
      await .clusterDbIds fun _ =>
      await .resolveSchemaContext fun _ =>
      orRelease setup .runAccessControlStage <|
      orRelease setup .translate <|
      orRelease setup .isReadLike <|
      orRelease setup .resolveCredentials <|
      orReturn .interpolate <|
      .done (.ok cluster)

def sinkResult (p : Site) : Future (Except Unit Unit) :=
  await p fun ok => .done (if ok then .ok () else .error ())

def executeToSinkInner (setup : Setup) (attempts : Nat) : Future (Except Unit Unit) :=
  (setupSyncQuery setup attempts).bind fun
    | .error _ => statement .dropGuard <| sinkResult .sinkOnError
    | .ok _ =>
      await .runPlanGuards fun passed =>
      if passed then
        await .sinkOnTranslatedSql fun ok =>
        if ok then
          await .execute fun ok =>
          release setup (.done (if ok then .ok () else .error ()))
        else sinkResult .sinkOnError
      else release setup <| sinkResult .sinkOnError

/-- The cache is looked up before any slot is acquired. -/
def executeToSink (setup : Setup) (attempts : Nat) : Future (Except Unit Unit) :=
  await .authorizationCheck fun authorized =>
  if authorized then
    await .isCacheable fun cacheable =>
    if cacheable then
      await .resolveSchemaContext fun _ =>
      await .runAccessControlStage fun allowed =>
      await .runPlanGuards fun passed =>
      if allowed && !passed then sinkResult .sinkOnError
      else
        await .tryStreamCached fun hit =>
        if allowed && hit then sinkResult .sinkOnComplete
        else
          await .cacheWriter fun _ =>
          (executeToSinkInner setup attempts).bind fun result =>
          await .finalizeCache fun _ => .done result
    else executeToSinkInner setup attempts
  else sinkResult .sinkOnError

end QueryFlux.Slots
