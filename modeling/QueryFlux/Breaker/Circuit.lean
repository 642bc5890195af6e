import Mathlib.Algebra.GroupWithZero.Nat
import Mathlib.Data.List.Basic

/-!
# The circuit breaker

A breaker watches the requests to one cluster. While it is closed it keeps a window of the latest
outcomes and counts the failures and timeouts in it; when too many of them fail it opens. While it
is open no query goes to the cluster. After a backoff one health probe may run, which closes the
breaker or opens it again with a longer backoff.

Times and durations are in nanoseconds. `latest` is the last instant the clock can represent. The
counters are unsigned: a function answers `none` where a counter would go below zero.
-/

/-! ## State -/

namespace QueryFlux.Breaker

inductive BackendOutcome
  | success
  | failure
  | timeout
  deriving DecidableEq

inductive CircuitState
  | closed
  | opened
  | halfOpen
  deriving DecidableEq

structure CircuitBreakerConfig where
  windowSecs : UInt64
  -- a `usize`
  minRequests : UInt64
  failureRatePercent : UInt8
  timeoutRatePercent : UInt8
  initialBackoffSecs : UInt64
  maxBackoffSecs : UInt64

structure Sample where
  time : Nat
  outcome : BackendOutcome
  deriving DecidableEq

/-- What the mutex guards. Times are nanoseconds; the counters are those of the samples. -/
structure Inner where
  state : CircuitState
  samples : List Sample
  failures : Nat
  timeouts : Nat
  retryAt : Option Nat
  backoff : Nat
  deriving DecidableEq

def fromSecs (secs : UInt64) : Nat := secs.toNat * 1000000000

def durationMax : Nat := 2 ^ 64 * 1000000000 - 1

def saturatingMul (d n : Nat) : Nat := min (d * n) durationMax

/-- Where the clock has no such instant, the retry is due at once. -/
def retryTime (latest now backoff : Nat) : Nat :=
  if now + backoff ≤ latest then now + backoff else now

def BackendOutcome.failures (o : BackendOutcome) : Nat := if o = success then 0 else 1

def BackendOutcome.timeouts (o : BackendOutcome) : Nat := if o = timeout then 1 else 0

def maxSamples : Nat := 10000

/-! ## The sliding window -/

def checkedSub (n k : Nat) : Option Nat := if k ≤ n then some (n - k) else none

namespace Inner

/-- The counters are decremented with the sample; an underflow would panic. -/
def evictOldest (i : Inner) : Option Inner :=
  match i.samples with
  | [] => some i
  | s :: samples => do
    let failures ← checkedSub i.failures s.outcome.failures
    let timeouts ← checkedSub i.timeouts s.outcome.timeouts
    some { i with samples := samples, failures := failures, timeouts := timeouts }

/-- `while cond { evict_oldest() }`, for a condition that an empty window does not meet: every
round takes a sample out, so there are no more rounds than samples. -/
def evictWhile (cond : List Sample → Bool) : Nat → Inner → Option Inner
  | 0, i => some i
  | n + 1, i => if cond i.samples then i.evictOldest.bind (evictWhile cond n) else some i

def isAged (window now : Nat) (samples : List Sample) : Bool :=
  samples.head?.any fun s => window < now - s.time

def isOverfull (samples : List Sample) : Bool := maxSamples < samples.length

def push (outcome : BackendOutcome) (now : Nat) (i : Inner) : Inner :=
  { i with
    samples := i.samples ++ [⟨now, outcome⟩]
    failures := i.failures + outcome.failures
    timeouts := i.timeouts + outcome.timeouts }

def ratesReached (cfg : CircuitBreakerConfig) (i : Inner) : Bool :=
  i.samples.length * cfg.failureRatePercent.toNat ≤ i.failures * 100 ||
    i.samples.length * cfg.timeoutRatePercent.toNat ≤ i.timeouts * 100

def clear (i : Inner) : Inner := { i with samples := [], failures := 0, timeouts := 0 }

/-! ## The three operations -/

/-- The new state if the outcome opens the breaker. -/
def recordAt (cfg : CircuitBreakerConfig) (latest : Nat) (outcome : BackendOutcome) (now : Nat)
    (i : Inner) : Option (Option CircuitState × Inner) :=
  if i.state ≠ .closed then some (none, i)
  else do
    let i := i.push outcome now
    let i ← evictWhile (isAged (fromSecs cfg.windowSecs) now) i.samples.length i
    let i ← evictWhile isOverfull i.samples.length i
    if i.samples.length < cfg.minRequests.toNat then some (none, i)
    else if i.ratesReached cfg then
      some (some .opened,
        { i.clear with state := .opened, retryAt := some (retryTime latest now i.backoff) })
    else some (none, i)

/-- One caller is let through when the retry is due. -/
def beginProbeAt (now : Nat) (i : Inner) : Bool × Inner :=
  if i.state ≠ .opened || i.retryAt.all (now < ·) then (false, i)
  else (true, { i with state := .halfOpen })

def finishProbeAt (cfg : CircuitBreakerConfig) (latest : Nat) (healthy : Bool) (now : Nat)
    (i : Inner) : CircuitState × Inner :=
  if i.state ≠ .halfOpen then (i.state, i)
  else if healthy then
    (.closed,
      { i.clear with
        state := .closed
        retryAt := none
        backoff := fromSecs cfg.initialBackoffSecs })
  else
    let backoff := min (saturatingMul i.backoff 2) (fromSecs cfg.maxBackoffSecs)
    (.opened,
      { i with
        state := .opened
        backoff := backoff
        retryAt := some (retryTime latest now backoff) })

end Inner

def newBreaker (cfg : CircuitBreakerConfig) : Inner :=
  ⟨.closed, [], 0, 0, none, fromSecs cfg.initialBackoffSecs⟩

/-! ## Runs -/

inductive Op
  | record (outcome : BackendOutcome)
  | beginProbe
  | finishProbe (healthy : Bool)
  deriving DecidableEq

structure Call where
  op : Op
  now : Nat
  deriving DecidableEq

inductive Result
  | recorded (opened : Option CircuitState)
  | begun (granted : Bool)
  | finished (state : CircuitState)
  deriving DecidableEq

def Inner.call (cfg : CircuitBreakerConfig) (latest : Nat) (i : Inner) (c : Call) :
    Option (Result × Inner) :=
  match c.op with
  | .record outcome => (i.recordAt cfg latest outcome c.now).map fun (r, i) => (.recorded r, i)
  | .beginProbe => some (.begun (i.beginProbeAt c.now).1, (i.beginProbeAt c.now).2)
  | .finishProbe healthy =>
    some (.finished (i.finishProbeAt cfg latest healthy c.now).1,
      (i.finishProbeAt cfg latest healthy c.now).2)

structure Step where
  before : Inner
  call : Call
  result : Result
  after : Inner
  deriving DecidableEq

def run (cfg : CircuitBreakerConfig) (latest : Nat) : Inner → List Call → Option (List Step)
  | _, [] => some []
  | i, c :: calls => do
    let (result, after) ← i.call cfg latest c
    let steps ← run cfg latest after calls
    some (⟨i, c, result, after⟩ :: steps)

end QueryFlux.Breaker
