import QueryFlux.Dispatch.Pipeline
import QueryFlux.Slots.Dispatch

/-!
# `execute_to_sink`, call by call

The function that runs a query and sends its result to the client's sink, with every await, every
call on the sink and every `record_query`. A cached entry is replayed into the same sink on which
the engine's result goes afterwards if the replay fails. On a cache miss a `TeeResultSink` stands
in front of the sink. While the engine works a `SyncCancelGuard` is armed: if the future is dropped
then, the guard records the query as cancelled.

The entry's and the engine's streams are lists of batches, `none` where a batch fails to decode or
the engine reports an error. Schemas, statistics and messages are left out, and so is
what `record_query` is given besides the status. As for the slots, an await that the code leaves
out in some configurations is the same here as one that succeeds.
-/

namespace QueryFlux.Sink

open Lib

/-! ## Calls -/

variable {β A : Type}

/-- The calls of a result sink. -/
inductive SinkCall (β : Type)
  | onSchema
  | onBatch (batch : β)
  | onNativeChunk (chunk : β)
  | onComplete
  | onError
  deriving DecidableEq

inductive QueryStatus
  | success | failed | denied | cancelled
  deriving DecidableEq

/-- The awaited calls that neither the sink nor the record notices, by where they are made. -/
inductive Site
  -- `execute_to_sink`
  | authorizationCheck | isCacheable | cacheSchemaContext | cacheAccessStage | cachePlanGuards
  | cacheGetValid | cacheWriter
  -- the tee
  | writeSchema | writeBatch | finalizeWriter
  -- `setup_sync_query`
  | clusterDbIds | schemaContext | accessStage | translate | isReadLike | resolveCredentials
  | interpolate
  -- `execute_to_sink_inner`
  | planGuards | executionHints | next
  deriving DecidableEq

/-- Where the slot is given back. -/
inductive ReleasePoint
  | denied | translationFailed | credentialsFailed | blocked | atEnd
  deriving DecidableEq

/-- First the statements, at which nothing is awaited; `notAcquired` marks that the wait for a slot
has failed. Then the awaited calls; `sink true` is a call during the replay of a cached entry. -/
inductive Call (β : Type)
  | record (status : QueryStatus)
  | arm
  | fire
  | disarm
  | notAcquired
  | sink (replay : Bool) (call : SinkCall β)
  -- nothing is sent to the client
  | onTranslatedSql
  | site (site : Site)
  | release (point : ReleasePoint)
  -- the wait for a slot
  | acquire (call : Slots.Call)
  -- reading an entry and its header
  | operatorRead
  | execute (native : Bool)

abbrev Answer : Call β → Type
  | .record _ | .arm | .fire | .disarm | .notAcquired => Unit
  | .sink .. | .onTranslatedSql | .site _ | .release _ => Bool
  | .acquire call => Slots.Answer call
  | .operatorRead | .execute _ => Option (List (Option β))

/-- A call and its answer, none if the future was dropped while it waited. -/
structure Event (β : Type) where
  call : Call β
  answer : Option (Answer call)

/-! ## What a run leaves behind -/

/-- The calls that reached the sink, the records written, whether the cancel guard is armed, and
what happened in order. -/
structure Ledger (β : Type) where
  calls : List (SinkCall β)
  records : List QueryStatus
  -- the cancel guard exists and is armed
  armed : Bool
  trace : List (Event β)

namespace Ledger

def empty : Ledger β := ⟨[], [], false, []⟩

def act (s : Ledger β) : Call β → Ledger β
  | .record status => { s with records := s.records ++ [status] }
  | .arm => { s with armed := true }
  | .fire | .disarm => { s with armed := false }
  | .sink _ call => { s with calls := s.calls ++ [call] }
  | _ => s

/-- A guard that is armed records a cancellation when it is dropped. -/
def dropped (s : Ledger β) : Ledger β :=
  if s.armed then { s with armed := false, records := s.records ++ [.cancelled] } else s

def note (s : Ledger β) (e : Event β) : Ledger β := { s with trace := s.trace ++ [e] }

end Ledger

def effect (q : Call β) (answer : Option (Answer q)) (_acted : Bool) (s : Ledger β) : Ledger β :=
  let s := (s.act q).note ⟨q, answer⟩
  if answer.isNone then s.dropped else s

def Call.isStatement : Call β → Bool
  | .record _ | .arm | .fire | .disarm | .notAcquired => true
  | .acquire call => call.isStatement
  | _ => false

/-- Statements are not places where the future is dropped. -/
def possible (q : Call β) (answer : Option (Answer q)) (_acted : Bool) : Prop :=
  q.isStatement = true → answer.isSome = true

def sinkCalls : Calls (Call β) Answer (Ledger β) := ⟨effect, possible⟩

abbrev Future (β A : Type) := Asks (Call β) Answer A

/-! ## The tee -/

structure Config where
  slots : Slots.Setup
  -- attempts to get a slot that start before the deadline
  attempts : Nat
  -- there are cache settings for the query, and no fixups can run
  cached : Bool
  accessControl : Bool
  -- the cluster's connection format is that of the client's protocol
  nativeFormat : String → Bool

def await (p : Site) (k : Bool → Future β A) : Future β A := .ask (.site p) k

def record (status : QueryStatus) (k : Future β A) : Future β A := .ask (.record status) fun _ => k

def release (cfg : Config) (p : ReleasePoint) (k : Future β A) : Future β A :=
  if cfg.slots.store then .ask (.release p) fun _ => k else k

/-- The sink that also writes the cache entry. -/
structure Tee where
  active : Bool
  finalized : Bool
  deriving DecidableEq

namespace Tee

def new : Tee := ⟨true, false⟩

/-- The entry is given up; the client's sink goes on. -/
def abandonCache (t : Tee) : Future β Tee :=
  if t.finalized then .done { t with active := false }
  else await .finalizeWriter fun _ => .done ⟨false, true⟩

def finalizeCache (t : Tee) : Future β Unit :=
  if t.finalized then .done () else await .finalizeWriter fun _ => .done ()

def mirror (p : Site) (t : Tee) : Future β Tee :=
  if t.active then await p fun ok => if ok then .done t else t.abandonCache else .done t

def before (t : Tee) : SinkCall β → Future β Tee
  | .onSchema => t.mirror .writeSchema
  | .onBatch _ => t.mirror .writeBatch
  | .onComplete => .done t
  | .onError | .onNativeChunk _ => t.abandonCache

end Tee

/-- With a tee the cache is written first. -/
def callSink (call : SinkCall β) : Option Tee → Future β (Bool × Option Tee)
  | none => .ask (.sink false call) fun ok => .done (ok, none)
  | some t => (t.before call).bind fun t => .ask (.sink false call) fun ok => .done (ok, some t)

def translatedSql : Option Tee → Future β Bool
  | none => .ask .onTranslatedSql fun ok => .done ok
  | some _ => .done true

/-! ## The engine -/

/-- How the execution ended, and whether the sink took everything. -/
structure Executed where
  status : QueryStatus
  ok : Bool
  tee : Option Tee

def endWith (call : SinkCall β) (status : QueryStatus) (o : Option Tee) : Future β Executed :=
  (callSink call o).map fun (ok, o) => ⟨status, ok, o⟩

/-- The schema goes before the first batch; `sent` once it has. -/
def sendSchema (sent : Bool) (o : Option Tee) : Future β (Bool × Option Tee) :=
  if sent then .done (true, o) else callSink .onSchema o

/-- The schema is sent with the first batch. -/
def streamLoop : List (Option β) → Bool → Option Tee → Future β Executed
  | [], _, o => await .next fun _ => endWith .onComplete .success o
  | none :: _, _, o => await .next fun _ => endWith .onError .failed o
  | some batch :: items, sent, o =>
    await .next fun _ =>
    (sendSchema sent o).bind fun (ok, o) =>
    if ok then
      (callSink (.onBatch batch) o).bind fun (ok, o) =>
      if ok then streamLoop items true o
      else (callSink .onError o).map fun (_, o) => ⟨.failed, false, o⟩
    else .done ⟨.failed, false, o⟩

def executeStream (o : Option Tee) : Future β Executed :=
  await .executionHints fun _ =>
  .ask (.execute false) fun
    | none => endWith .onError .failed o
    | some items => streamLoop items false o

def nativeLoop : List (Option β) → Option Tee → Future β Executed
  | [], o => await .next fun _ => endWith .onComplete .success o
  | none :: _, o => await .next fun _ => endWith .onError .failed o
  | some chunk :: items, o =>
    await .next fun _ =>
    (callSink (.onNativeChunk chunk) o).bind fun (ok, o) =>
    if ok then nativeLoop items o else .done ⟨.failed, false, o⟩

def executeNativeToSink (adapter : Option Slots.AdapterKind) (o : Option Tee) :
    Future β Executed :=
  match adapter with
  | some .sync =>
    .ask (.execute true) fun
      | none => endWith .onError .failed o
      | some items => nativeLoop items o
  | _ => endWith .onError .failed o

/-! ## Setup and execution -/

variable (cfg : Config)

def denyAndRecord : Future β (Except Unit A) :=
  record .denied <| release cfg .denied (.done (.error ()))

def setupHolding (cluster : String) : Future β (Except Unit String) :=
  await .clusterDbIds fun _ =>
  await .schemaContext fun _ =>
  await .accessStage fun allowed =>
  if allowed then
    await .translate fun translated =>
    if translated then
      -- a rewrite or translation must not turn a read into a write
      await .isReadLike fun kept =>
      if kept then
        await .resolveCredentials fun resolved =>
        if resolved then
          await .interpolate fun filledIn => .done (if filledIn then .ok cluster else .error ())
        else release cfg .credentialsFailed (.done (.error ()))
      else denyAndRecord cfg
    else record .failed <| release cfg .translationFailed (.done (.error ()))
  else denyAndRecord cfg

def setupSyncQuery : Future β (Except Unit String) :=
  ((Slots.acquireLoop cfg.slots cfg.attempts false).embed .acquire fun _ d => d).bind fun
    | .error _ => .ask .notAcquired fun _ => .done (.error ())
    | .ok cluster => setupHolding cfg cluster

/-- A sink that fails under a successful query makes it cancelled. -/
def finish (e : Executed) : Future β (Bool × Option Tee) :=
  let exit : Future β (Bool × Option Tee) := .ask .disarm fun _ =>
    release cfg .atEnd <|
    record (if !e.ok && e.status == .success then .cancelled else e.status) <|
    .done (e.ok, e.tee)
  if e.ok then exit else .ask .fire fun _ => exit

/-- The native path is taken when no Arrow is needed between engine and client. -/
def execution (cluster : String) (o : Option Tee) : Future β Executed :=
  if cfg.nativeFormat cluster then executeNativeToSink (cfg.slots.adapters cluster) o
  else executeStream o

def executeToSinkInner (o : Option Tee) : Future β (Bool × Option Tee) :=
  (setupSyncQuery cfg).bind fun
    | .error _ => callSink .onError o
    | .ok cluster =>
      await .planGuards fun passed =>
      if passed then
        (translatedSql o).bind fun ok =>
        if ok then .ask .arm fun _ => (execution cfg cluster o).bind (finish cfg)
        else callSink .onError o
      else release cfg .blocked <| record .failed <| callSink .onError o

/-! ## The cache -/

def replaySchema (started : Bool) : Future β Bool :=
  if started then .done true else .ask (.sink true .onSchema) fun ok => .done ok

/-- An entry that breaks off after its first batch is a failed lookup. -/
def replayLoop : List (Option β) → Bool → Future β Dispatch.CacheLookup
  | [], true => .done .hit
  | [], false => .ask (.sink true .onSchema) fun ok => .done (if ok then .hit else .failed)
  | none :: _, started => .done (if started then .failed else .miss)
  | some batch :: items, started =>
    (replaySchema started).bind fun ok =>
    if ok then
      .ask (.sink true (.onBatch batch)) fun ok =>
        if ok then replayLoop items true else .done .failed
    else .done .failed

/-- An entry that cannot be read is a miss. -/
def tryStreamCached : Future β Dispatch.CacheLookup :=
  await .cacheGetValid fun valid =>
  if valid then
    .ask .operatorRead fun
      | none => .done .miss
      | some items => replayLoop items false
  else .done .miss

def executeTeed : Future β Bool :=
  await .cacheWriter fun created =>
  if created then
    (executeToSinkInner cfg (some .new)).bind fun
      | (ok, some t) => t.finalizeCache.map fun _ => ok
      | (ok, none) => .done ok
  else (executeToSinkInner cfg none).map (·.1)

def cacheEligible : Future β Bool :=
  if cfg.cached then await .isCacheable fun ok => .done ok else .done false

def cacheStage : Future β Bool :=
  if cfg.accessControl then
    await .cacheSchemaContext fun _ => await .cacheAccessStage fun allowed => .done allowed
  else .done true

/-- The result is whether the last call on the sink succeeded. -/
def executeToSink : Future β Bool :=
  await .authorizationCheck fun authorized =>
  if authorized then
    (cacheEligible cfg).bind fun eligible =>
    if eligible then
      (cacheStage cfg).bind fun allowed =>
      if allowed then
        await .cachePlanGuards fun passed =>
        if passed then
          tryStreamCached.bind fun
            | .hit => record .success <| .ask (.sink false .onComplete) fun ok => .done ok
            | .miss | .failed => executeTeed cfg
        else .ask (.sink false .onError) fun ok => .done ok
      -- a forced miss, and nothing is stored either
      else (executeToSinkInner cfg none).map (·.1)
    else (executeToSinkInner cfg none).map (·.1)
  else .ask (.sink false .onError) fun ok => .done ok

variable {cfg}

/-- Every call succeeds, and the engine has one batch. -/
def succeeding : (q : Call Nat) → Answer q
  | .record _ | .arm | .fire | .disarm | .notAcquired => ()
  | .sink .. | .onTranslatedSql | .site _ | .release _ => true
  | .acquire (.site .shouldYieldToOlderQueued) => false
  | .acquire (.newGuard _) | .acquire .release | .acquire .releaseLocal | .acquire .disarm
  | .acquire .dropGuard | .acquire .leaveLine => ()
  | .acquire .acquireCluster => .ok (some "cluster-1")
  | .acquire .tryAcquire => .ok true
  | .acquire .submitQuery => .running
  | .acquire (.upsertExecuting _) | .acquire (.site _) => true
  | .operatorRead => none
  | .execute _ => some [some 1]

end QueryFlux.Sink
