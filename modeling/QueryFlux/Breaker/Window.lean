import QueryFlux.Breaker.Circuit
import QueryFlux.Lib.Windows

/-!
# The breaker judges a window of its history

What a breaker should do is said in terms of the calls made so far, with their results. The window
of a closed breaker are the latest outcomes, at most `maxSamples`, recorded since it last closed and
not older than the window's length (`retained`). The code keeps the window and its two counters up
to date instead; `breaker_meets_spec` says that it never counts below zero and that every step of
every run does what the history asks for.
-/

namespace QueryFlux.Breaker

open Lib List

/-! ## What a run did -/

namespace Step

def closes (s : Step) : Bool := s.before.state != .closed && s.after.state == .closed

def opens (s : Step) : Bool := s.before.state != .opened && s.after.state == .opened

def finishes (s : Step) : Bool :=
  match s.call.op with
  | .finishProbe _ => s.before.state == .halfOpen
  | _ => false

def recorded (s : Step) : List Sample :=
  match s.call.op with
  | .record outcome => [⟨s.call.now, outcome⟩]
  | _ => []

def probesFailed (s : Step) (k : Nat) : Nat :=
  match s.call.op with
  | .finishProbe healthy => if s.before.state = .halfOpen then if healthy then 0 else k + 1 else k
  | _ => k

end Step

/-- The outcomes recorded since the breaker last closed. -/
def sinceClosed (steps : List Step) : List Sample :=
  steps.foldl (fun h s => if s.closes then [] else h ++ s.recorded) []

def failedProbes (steps : List Step) : Nat := steps.foldl (fun k s => s.probesFailed k) 0

variable (cfg : CircuitBreakerConfig)

def isWithin (now : Nat) (s : Sample) : Bool :=
  now - s.time ≤ fromSecs cfg.windowSecs

/-- The outcomes in the window as of the last one, at most the newest ten thousand. -/
def retained (history : List Sample) : List Sample :=
  match history.getLast? with
  | none => []
  | some last => (history.filter (isWithin cfg last.time)).rtake maxSamples

def numFailures (samples : List Sample) : Nat := samples.countP (·.outcome != .success)

def numTimeouts (samples : List Sample) : Nat := samples.countP (·.outcome == .timeout)

/-! ## The specification -/

def Trips (samples : List Sample) : Prop :=
  cfg.minRequests.toNat ≤ samples.length ∧
    (samples.length * cfg.failureRatePercent.toNat ≤ numFailures samples * 100 ∨
      samples.length * cfg.timeoutRatePercent.toNat ≤ numTimeouts samples * 100)

def backoffAfter : Nat → Nat
  | 0 => fromSecs cfg.initialBackoffSecs
  | k + 1 => min (fromSecs cfg.initialBackoffSecs * 2 ^ (k + 1)) (fromSecs cfg.maxBackoffSecs)

variable {cfg}

/-- What a step may do, told from the steps before it. -/
structure MeetsSpec (cfg : CircuitBreakerConfig) (latest : Nat) (earlier : List Step) (s : Step) :
    Prop where
  window : s.after.state = .closed → s.after.samples = retained cfg (sinceClosed (earlier ++ [s]))
  counters : s.after.state = .closed →
    s.after.failures = numFailures s.after.samples ∧ s.after.timeouts = numTimeouts s.after.samples
  record : ∀ outcome, s.call.op = .record outcome →
    (s.result = .recorded (some .opened) ↔ s.before.state = .closed ∧
      Trips cfg (retained cfg (sinceClosed earlier ++ [⟨s.call.now, outcome⟩])))
  notClosed : s.before.state ≠ .closed → s.before.samples = [] ∧
    ∀ outcome, s.call.op = .record outcome → s.result = .recorded none ∧ s.after = s.before
  retry : s.opens = true →
    s.after.retryAt = some (retryTime latest s.call.now s.after.backoff)
  probe : s.result = .begun true →
    s.before.state = .opened ∧ ∃ t ∈ s.before.retryAt, t ≤ s.call.now
  -- an earlier probe has ended, and the breaker has opened once more
  oneProbe : s.result = .begun true → ∀ before b between, earlier = before ++ b :: between →
    b.result = .begun true → (∃ f ∈ between, f.finishes) ∧ ∃ o ∈ between, o.opens
  backoff : s.after.backoff = backoffAfter cfg (failedProbes (earlier ++ [s]))
  recovers : s.call.op = .finishProbe true → s.before.state = .halfOpen →
    s.after = newBreaker cfg

namespace Inner

def holding (i : Inner) (samples : List Sample) : Inner :=
  { i with
    samples := samples, failures := numFailures samples, timeouts := numTimeouts samples }

/-! ## Eviction -/

theorem evictOldest_holding (i : Inner) (s : Sample) (samples : List Sample) :
    (i.holding (s :: samples)).evictOldest = some (i.holding samples) := by
  have hf : numFailures (s :: samples) = numFailures samples + s.outcome.failures := by
    cases h : s.outcome <;> simp [numFailures, BackendOutcome.failures, h]
  have ht : numTimeouts (s :: samples) = numTimeouts samples + s.outcome.timeouts := by
    cases h : s.outcome <;> simp [numTimeouts, BackendOutcome.timeouts, h]
  simp [evictOldest, holding, checkedSub, hf, ht]

theorem push_holding (i : Inner) (samples : List Sample) (outcome : BackendOutcome) (now : Nat) :
    (i.holding samples).push outcome now = i.holding (samples ++ [⟨now, outcome⟩]) := by
  have hf : numFailures (samples ++ [⟨now, outcome⟩]) = numFailures samples + outcome.failures := by
    cases outcome <;> simp [numFailures, BackendOutcome.failures]
  have ht : numTimeouts (samples ++ [⟨now, outcome⟩]) = numTimeouts samples + outcome.timeouts := by
    cases outcome <;> simp [numTimeouts, BackendOutcome.timeouts]
  simp [push, holding, hf, ht]

def shrink (cond : List Sample → Bool) : List Sample → List Sample
  | [] => []
  | s :: samples => if cond (s :: samples) then shrink cond samples else s :: samples

theorem evictWhile_holding {cond : List Sample → Bool} (hcond : cond [] = false) (i : Inner) :
    ∀ (samples : List Sample) (n : Nat), samples.length ≤ n →
      evictWhile cond n (i.holding samples) = some (i.holding (shrink cond samples)) := by
  intro samples
  induction samples with
  | nil =>
    intro n _
    cases n with
    | zero => rfl
    | succ => simp [evictWhile, holding, hcond, shrink]
  | cons s samples ih =>
    intro n hn
    cases n with
    | zero => simp at hn
    | succ n =>
      simp only [length_cons] at hn
      rw [evictWhile, shrink]
      by_cases hc : cond (s :: samples) = true
      · rw [if_pos (show cond (i.holding (s :: samples)).samples = true from hc), if_pos hc,
          evictOldest_holding, Option.bind_some]
        exact ih n (by omega)
      · rw [if_neg (show ¬cond (i.holding (s :: samples)).samples = true from hc), if_neg hc]

theorem evictAll_holding {cond : List Sample → Bool} (hcond : cond [] = false) (i : Inner)
    (samples : List Sample) :
    evictWhile cond (i.holding samples).samples.length (i.holding samples) =
      some (i.holding (shrink cond samples)) :=
  evictWhile_holding hcond i samples _ (Nat.le_refl _)

theorem shrink_isAged (window now : Nat) (samples : List Sample) :
    shrink (isAged window now) samples =
      samples.dropWhile fun s => !decide (now - s.time ≤ window) := by
  induction samples with
  | nil => rfl
  | cons s _ ih =>
    rw [shrink, dropWhile_cons, ih]
    by_cases hs : window < now - s.time
    · rw [if_pos (by simp [isAged]; omega), if_pos (by simp; omega)]
    · rw [if_neg (by simp [isAged]; omega), if_neg (by simp; omega)]

theorem shrink_isOverfull (samples : List Sample) :
    shrink isOverfull samples = samples.rtake maxSamples := by
  induction samples with
  | nil => rfl
  | cons s samples ih =>
    rw [shrink, ih]
    by_cases hs : maxSamples < (s :: samples).length
    · rw [if_pos (by simpa [isOverfull] using hs)]
      rw [length_cons] at hs
      exact (rtake_append_of_le (l := [s]) (by omega)).symm
    · rw [if_neg (by simpa [isOverfull] using hs), rtake,
        Nat.sub_eq_zero_of_le (by omega), drop_zero]

end Inner

/-- The samples are in order of time, and none is later than now. -/
def InOrder (now : Nat) (history : List Sample) : Prop :=
  history.Pairwise (fun s t => s.time ≤ t.time) ∧ ∀ s ∈ history, s.time ≤ now

variable {history : List Sample} {now : Nat}

theorem InOrder.concat {now' : Nat} (h : InOrder now history) (hnow : now ≤ now')
    (outcome : BackendOutcome) : InOrder now' (history ++ [⟨now', outcome⟩]) := by
  refine ⟨?_, ?_⟩
  · rw [pairwise_append]
    refine ⟨h.1, pairwise_singleton _ _, ?_⟩
    intro s hs t ht
    rw [mem_singleton.1 ht]
    exact (h.2 s hs).trans hnow
  · intro s hs
    rcases mem_append.1 hs with hs | hs
    · exact (h.2 s hs).trans hnow
    · rw [mem_singleton.1 hs]

theorem InOrder.rising (h : InOrder now history) (cfg : CircuitBreakerConfig) (t : Nat) :
    Rising (isWithin cfg t) history := by
  refine h.1.imp ?_
  intro s s' hle hs
  simp only [isWithin, decide_eq_true_eq] at hs ⊢
  omega

theorem InOrder.mono {now' : Nat} (h : InOrder now history) (hnow : now ≤ now') :
    InOrder now' history :=
  ⟨h.1, fun s hs => (h.2 s hs).trans hnow⟩

theorem retained_concat (cfg : CircuitBreakerConfig) (history : List Sample) (s : Sample) :
    retained cfg (history ++ [s]) =
      ((history ++ [s]).filter (isWithin cfg s.time)).rtake maxSamples := by
  simp [retained]

theorem retained_sublist (cfg : CircuitBreakerConfig) (history : List Sample) :
    (retained cfg history).Sublist history := by
  unfold retained
  split
  · exact nil_sublist _
  · exact (drop_sublist _ _).trans filter_sublist

theorem retained_push {cfg : CircuitBreakerConfig} {now' : Nat} (h : InOrder now history)
    (hnow : now ≤ now') (outcome : BackendOutcome) : let s : Sample := ⟨now', outcome⟩
    ((retained cfg history ++ [s]).filter (isWithin cfg now')).rtake maxSamples =
      retained cfg (history ++ [s]) := by
  intro s
  rw [retained_concat]
  cases hlast : history.getLast? with
  | none =>
    have hret : retained cfg history = [] := by simp only [retained, hlast]
    rw [hret, getLast?_eq_none_iff.1 hlast]
  | some last =>
    have hret : retained cfg history =
        (history.filter (isWithin cfg last.time)).rtake maxSamples := by
      simp only [retained, hlast]
    rw [hret]
    refine rtake_filter_concat ?_ (h.rising cfg now') ?_ maxSamples
    · intro s hs hwithin
      have hle : last.time ≤ now := h.2 last (mem_of_getLast? hlast)
      simp only [isWithin, decide_eq_true_eq] at hwithin ⊢
      omega
    · simp [isWithin, s]

namespace Inner

theorem evicted_holding {cfg : CircuitBreakerConfig} {now now' : Nat} {history : List Sample}
    (h : InOrder now history) (hnow : now ≤ now') (i : Inner) (outcome : BackendOutcome) :
    ∃ j, evictWhile (isAged (fromSecs cfg.windowSecs) now')
        ((i.holding (retained cfg history)).push outcome now').samples.length
        ((i.holding (retained cfg history)).push outcome now') = some j ∧
      evictWhile isOverfull j.samples.length j =
        some (i.holding (retained cfg (history ++ [⟨now', outcome⟩]))) := by
  have hsub : InOrder now (retained cfg history) :=
    ⟨h.1.sublist (retained_sublist cfg history),
      fun s hs => h.2 s ((retained_sublist cfg history).subset hs)⟩
  let s : Sample := ⟨now', outcome⟩
  refine ⟨i.holding ((retained cfg history ++ [s]).filter (isWithin cfg now')), ?_, ?_⟩
  · have haged : isAged (fromSecs cfg.windowSecs) now' [] = false := rfl
    rw [push_holding, evictAll_holding haged, shrink_isAged,
      ← ((hsub.concat hnow outcome).rising cfg now').dropWhile_eq_filter]
    rfl
  · have hover : isOverfull [] = false := rfl
    rw [evictAll_holding hover, shrink_isOverfull,
      retained_push h hnow outcome]

theorem ratesReached_holding (cfg : CircuitBreakerConfig) (i : Inner) (samples : List Sample) :
    (i.holding samples).ratesReached cfg = true ↔
      samples.length * cfg.failureRatePercent.toNat ≤ numFailures samples * 100 ∨
        samples.length * cfg.timeoutRatePercent.toNat ≤ numTimeouts samples * 100 := by
  rw [ratesReached, Bool.or_eq_true, decide_eq_true_eq, decide_eq_true_eq]
  rfl

theorem recordAt_closed (cfg : CircuitBreakerConfig) (latest : Nat) {now now' : Nat}
    {history : List Sample} (h : InOrder now history) (hnow : now ≤ now') {i : Inner}
    (hclosed : i.state = .closed) (outcome : BackendOutcome) :
    let window := retained cfg (history ++ [⟨now', outcome⟩])
    (Trips cfg window ∧
      (i.holding (retained cfg history)).recordAt cfg latest outcome now' =
        some (some .opened,
          { i.clear with state := .opened, retryAt := some (retryTime latest now' i.backoff) })) ∨
    (¬Trips cfg window ∧
      (i.holding (retained cfg history)).recordAt cfg latest outcome now' =
        some (none, i.holding window)) := by
  intro window
  obtain ⟨j, haged, hover⟩ := evicted_holding h hnow i outcome
  have hnot : ¬(i.holding (retained cfg history)).state ≠ .closed := by simp [holding, hclosed]
  have hrecord : (i.holding (retained cfg history)).recordAt cfg latest outcome now' =
      if window.length < cfg.minRequests.toNat then some (none, i.holding window)
      else if (i.holding window).ratesReached cfg then
        some (some .opened,
          { i.clear with state := .opened, retryAt := some (retryTime latest now' i.backoff) })
      else some (none, i.holding window) := by
    rw [recordAt, if_neg hnot]
    simp only [Option.bind_eq_bind]
    rw [haged, Option.bind_some, hover, Option.bind_some]
    rfl
  by_cases hmin : window.length < cfg.minRequests.toNat
  · right
    rw [hrecord, if_pos hmin]
    exact ⟨fun htrips => absurd htrips.1 (by omega), rfl⟩
  · by_cases hrates : (i.holding window).ratesReached cfg = true
    · left
      rw [hrecord, if_neg hmin, if_pos hrates]
      exact ⟨⟨by omega, (ratesReached_holding cfg i window).1 hrates⟩, rfl⟩
    · right
      rw [hrecord, if_neg hmin, if_neg hrates]
      exact ⟨fun htrips => hrates ((ratesReached_holding cfg i window).2 htrips.2), rfl⟩

end Inner

end QueryFlux.Breaker
