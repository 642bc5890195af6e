import Mathlib.Logic.Function.Basic
import QueryFlux.Lib.Transition

/-!
# The release batcher

`BatchedReleaseStore` wraps a capacity store. A release is put on a channel and counted, in
`pending` and, by query, in `queued_ids`; the flusher task takes releases from the channel and
sends them to the wrapped store in batches. What failed is kept apart and retried on its own
backoff, one lease at a time after a few attempts. A flush message is answered at the end of the
first round that leaves nothing to retry.

The model is the flusher's loop as a machine, together with the callers: releases, flushes and
acquires. A release counts and sends in one step, and so does a confirmation of the wrapped store
with its decrements. The releases are numbered in the order they are sent, which the code does not
do; a flush message carries the number of releases sent before it. `sent`, `confirmed`, `calls`
and `answered` record what has happened.
-/

namespace QueryFlux.Releases

open Lib

/-! ## Releases and counters -/

def maxBatch : Nat := 500

def maxPending : Nat := 100000

def retryMin : Nat := 50

def retryMax : Nat := 5000

/-- A release; `no` is its position among all that were sent. -/
structure Release (κ ι : Type) where
  no : Nat
  cluster : κ
  queryId : ι
  deriving DecidableEq

structure Flush where
  no : Nat
  -- how many releases were sent before it
  before : Nat
  deriving DecidableEq

inductive Msg (κ ι : Type)
  | release (r : Release κ ι)
  | flush (f : Flush)
  deriving DecidableEq

structure Retry (κ ι : Type) where
  leases : List (Release κ ι)
  due : Nat
  delay : Nat
  attempts : Nat
  deriving DecidableEq

/-- The counters that `release` and `try_acquire` read. -/
structure Counts (ι : Type) where
  pending : Nat
  queuedIds : ι → Option Nat
  -- a counter was decremented below zero
  underflowed : Bool

namespace Counts

variable {κ ι : Type} [DecidableEq ι]

def queue (q : ι) (c : Counts ι) : Counts ι :=
  { c with
    pending := c.pending + 1
    queuedIds := Function.update c.queuedIds q (some ((c.queuedIds q).getD 0 + 1)) }

/-- An entry that falls to zero is removed. -/
def unqueue (q : ι) (c : Counts ι) : Counts ι :=
  match c.queuedIds q with
  | none => c
  | some n =>
    { c with
      queuedIds := Function.update c.queuedIds q (if n - 1 = 0 then none else some (n - 1))
      underflowed := c.underflowed || n == 0 }

def sent (done : List (Release κ ι)) (c : Counts ι) : Counts ι :=
  done.foldl (fun c r => c.unqueue r.queryId)
    { c with
      pending := c.pending - done.length
      underflowed := c.underflowed || decide (c.pending < done.length) }

end Counts

/-- Where the task is between two messages or calls. -/
inductive Phase (κ ι : Type)
  | waiting
  -- taking messages from the channel
  | collecting (fresh : List (Release κ ι))
  | sending (fresh : List (Release κ ι))
  | retryingAll (leases : List (Release κ ι))
  -- the call for the first of `rest` is under way
  | retryingEach (rest failed : List (Release κ ι))
  | stopped
  deriving DecidableEq

/-- Where a call of `try_acquire` is; `seen` is the number of releases of the query sent before
it was made. -/
inductive Acquire (ι : Type)
  | idle
  -- a release of the query is queued
  | mustFlush (q : ι) (seen : Nat)
  | flushing (q : ι) (seen : Nat) (f : Flush)
  -- the wrapped store is being asked
  | passed (q : ι) (seen : Nat)
  -- with how many calls the flusher had made by then
  | granted (q : ι) (seen : Nat) (calls : Nat)
  | failed
  deriving DecidableEq

/-- `α` names the calls of `try_acquire`. -/
structure State (κ ι α : Type) where
  now : Nat
  channel : List (Msg κ ι)
  -- the store was dropped, nothing more is sent on the channel
  closed : Bool
  phase : Phase κ ι
  retry : Retry κ ι
  flushes : List Flush
  counts : Counts ι
  acquires : α → Acquire ι
  sent : List (Release κ ι)
  confirmed : List (Release κ ι)
  calls : List (List (Release κ ι))
  numFlushes : Nat
  answered : List Flush

/-! ## Senders -/

namespace State

variable {κ ι α : Type} [DecidableEq ι] [DecidableEq α]

def initial : State κ ι α where
  now := 0
  channel := []
  closed := false
  phase := .waiting
  retry := ⟨[], 0, retryMin, 0⟩
  flushes := []
  counts := ⟨0, fun _ => none, false⟩
  acquires := fun _ => .idle
  sent := []
  confirmed := []
  calls := []
  numFlushes := 0
  answered := []

/-- Beyond the limit a release is dropped. -/
def release (c : κ) (q : ι) (s : State κ ι α) : State κ ι α :=
  if s.counts.pending < maxPending then
    let r : Release κ ι := ⟨s.sent.length, c, q⟩
    { s with
      counts := s.counts.queue q
      channel := s.channel ++ [.release r]
      sent := s.sent ++ [r] }
  else s

def nextFlush (s : State κ ι α) : Flush := ⟨s.numFlushes, s.sent.length⟩

def flush (s : State κ ι α) : State κ ι α :=
  { s with
    channel := s.channel ++ [.flush s.nextFlush]
    numFlushes := s.numFlushes + 1 }

def numSent (s : State κ ι α) (q : ι) : Nat := s.sent.countP (·.queryId == q)

def setAcquire (a : α) (x : Acquire ι) (s : State κ ι α) : State κ ι α :=
  { s with acquires := Function.update s.acquires a x }

/-! ## The batching task -/

def take (fresh : List (Release κ ι)) (s : State κ ι α) : Msg κ ι → State κ ι α
  | .release r => { s with phase := .collecting (fresh ++ [r]) }
  | .flush f => { s with phase := .collecting fresh, flushes := s.flushes ++ [f] }

def recv (fresh : List (Release κ ι)) (s : State κ ι α) : Option (State κ ι α) :=
  match s.channel with
  | [] => none
  | m :: rest => some ({ s with channel := rest }.take fresh m)

def makeCall (phase : Phase κ ι) (leases : List (Release κ ι)) (s : State κ ι α) : State κ ι α :=
  { s with phase := phase, calls := s.calls ++ [leases] }

def confirm (done : List (Release κ ι)) (s : State κ ι α) : State κ ι α :=
  { s with counts := s.counts.sent done, confirmed := s.confirmed ++ done }

/-- Flushes are answered when no failed release is left. -/
def endRound (s : State κ ι α) : State κ ι α :=
  if s.retry.leases = [] then
    { s with
      phase := .waiting
      retry := { s.retry with attempts := 0, delay := retryMin }
      flushes := []
      answered := s.answered ++ s.flushes }
  else { s with phase := .waiting }

def endFresh (failed : List (Release κ ι)) (s : State κ ι α) : State κ ι α :=
  let due := if failed ≠ [] ∧ s.retry.leases = [] then s.now + s.retry.delay else s.retry.due
  { s with retry := { s.retry with leases := s.retry.leases ++ failed, due := due } }.endRound

/-- The delay doubles up to its maximum. -/
def endRetry (still : List (Release κ ι)) (s : State κ ι α) : State κ ι α :=
  let delay := min (s.retry.delay * 2) retryMax
  { s with retry := ⟨still, s.now + delay, delay, s.retry.attempts + 1⟩ }.endRound

/-- `send` for what newly arrived; nothing is called for an empty batch. -/
def sendFresh (fresh : List (Release κ ι)) (s : State κ ι α) : State κ ι α :=
  if fresh = [] then s.endFresh [] else s.makeCall (.sending fresh) fresh

/-- `send` for the failed releases: together, or one by one after three attempts. -/
def sendRetry (s : State κ ι α) : State κ ι α :=
  let leases := s.retry.leases
  let s := { s with retry := { s.retry with leases := [] } }
  if s.retry.attempts < 3 ∨ leases.length = 1 then s.makeCall (.retryingAll leases) leases
  else s.makeCall (.retryingEach leases []) (leases.take 1)

/-- The answer of the call that is under way. -/
def result (ok : Bool) (s : State κ ι α) : Option (State κ ι α) :=
  match s.phase with
  | .sending fresh =>
    some (if ok then (s.confirm fresh).endFresh [] else s.endFresh fresh)
  | .retryingAll leases =>
    some (if ok then (s.confirm leases).endRetry [] else s.endRetry leases)
  | .retryingEach (r :: rest) failed =>
    let (s, failed) := if ok then (s.confirm [r], failed) else (s, failed ++ [r])
    some (if rest = [] then s.endRetry failed
      else s.makeCall (.retryingEach rest failed) (rest.take 1))
  | _ => none

/-! ## Runs -/

inductive Move (κ ι α : Type)
  | tick (ms : Nat)
  | release (c : κ) (q : ι)
  | flush
  | close
  | acquire (a : α) (q : ι)
  | acquireFlush (a : α)
  | acquireAnswered (a : α)
  | acquireTimeout (a : α)
  | acquireResult (a : α) (granted : Bool)
  | recv
  | tryRecv
  | send
  | retryWake
  | result (ok : Bool)
  | stop
  deriving DecidableEq

def step (s : State κ ι α) : Move κ ι α → Option (State κ ι α)
  | .tick ms => some { s with now := s.now + ms }
  | .release c q => if s.closed then none else some (s.release c q)
  | .flush => if s.closed then none else some s.flush
  | .close => some { s with closed := true }
  | .acquire a q =>
    match s.closed, s.acquires a with
    | false, .idle =>
      some (s.setAcquire a
        (if (s.counts.queuedIds q).isSome then .mustFlush q (s.numSent q)
        else .passed q (s.numSent q)))
    | _, _ => none
  | .acquireFlush a =>
    match s.closed, s.acquires a with
    | false, .mustFlush q seen => some (s.flush.setAcquire a (.flushing q seen s.nextFlush))
    | _, _ => none
  | .acquireAnswered a =>
    match s.acquires a with
    | .flushing q seen f =>
      if f ∈ s.answered then some (s.setAcquire a (.passed q seen)) else none
    | _ => none
  | .acquireTimeout a =>
    match s.acquires a with
    | .flushing _ _ _ => some (s.setAcquire a .failed)
    | _ => none
  | .acquireResult a granted =>
    match s.acquires a with
    | .passed q seen =>
      some (s.setAcquire a (if granted then .granted q seen s.calls.length else .failed))
    | _ => none
  | .recv =>
    match s.phase with
    | .waiting => s.recv []
    | _ => none
  | .tryRecv =>
    match s.phase with
    | .collecting fresh => if fresh.length < maxBatch then s.recv fresh else none
    | _ => none
  | .send =>
    match s.phase with
    | .collecting fresh =>
      if s.channel = [] ∨ maxBatch ≤ fresh.length then some (s.sendFresh fresh) else none
    | _ => none
  | .retryWake =>
    match s.phase with
    | .waiting =>
      if s.retry.leases ≠ [] ∧ s.retry.due ≤ s.now then some s.sendRetry else none
    | _ => none
  | .result ok => s.result ok
  | .stop =>
    match s.phase with
    | .waiting =>
      if s.closed ∧ s.channel = [] ∧ s.retry.leases = [] then some { s with phase := .stopped }
      else none
    | _ => none

def system (κ ι α : Type) [DecidableEq ι] [DecidableEq α] :
    System (State κ ι α) (Move κ ι α) where
  init s := s = initial
  step := step

end State

end QueryFlux.Releases
