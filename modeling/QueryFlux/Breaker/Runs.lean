import QueryFlux.Breaker.Window

/-!
# Every run of a breaker meets its specification

`Took` lists what a call can do to a breaker whose history is known. The invariant `Tracks` ties
the breaker to the steps so far; every call keeps it and meets the specification, whatever the
calls are, as long as the clock does not go back.
-/

namespace QueryFlux.Breaker

open Lib List

/-! ## One more step -/

variable {cfg : CircuitBreakerConfig} {latest now : Nat} {steps : List Step} {i : Inner}

theorem sinceClosed_concat (steps : List Step) (s : Step) :
    sinceClosed (steps ++ [s]) =
      if s.closes then [] else sinceClosed steps ++ s.recorded := by
  rw [sinceClosed, foldl_append]
  rfl

theorem failedProbes_concat (steps : List Step) (s : Step) :
    failedProbes (steps ++ [s]) = s.probesFailed (failedProbes steps) := by
  rw [failedProbes, foldl_append]
  rfl

theorem fromSecs_le_durationMax (secs : UInt64) : fromSecs secs ≤ durationMax := by
  have hlt : secs.toNat < 2 ^ 64 := secs.toNat_lt
  simp only [fromSecs, durationMax]
  omega

theorem backoffAfter_succ (cfg : CircuitBreakerConfig) (k : Nat) :
    min (saturatingMul (backoffAfter cfg k) 2) (fromSecs cfg.maxBackoffSecs) =
      backoffAfter cfg (k + 1) := by
  have hmax := fromSecs_le_durationMax cfg.maxBackoffSecs
  cases k with
  | zero =>
    simp only [saturatingMul, backoffAfter, Nat.zero_add, Nat.pow_one]
    omega
  | succ k =>
    have hpow : fromSecs cfg.initialBackoffSecs * 2 ^ (k + 1 + 1) =
        fromSecs cfg.initialBackoffSecs * 2 ^ (k + 1) * 2 := by
      rw [Nat.pow_succ, Nat.mul_assoc]
    simp only [saturatingMul, backoffAfter]
    omega

/-- The kinds of steps, with what each of them does. -/
inductive Took (cfg : CircuitBreakerConfig) (latest : Nat) (history : List Sample) : Step → Prop
  | ignored {i : Inner} {outcome : BackendOutcome} {t : Nat} (h : i.state ≠ .closed) :
      Took cfg latest history ⟨i, ⟨.record outcome, t⟩, .recorded none, i⟩
  | tripped {i : Inner} {outcome : BackendOutcome} {t : Nat} (h : i.state = .closed)
      (htrips : Trips cfg (retained cfg (history ++ [⟨t, outcome⟩]))) :
      Took cfg latest history ⟨i, ⟨.record outcome, t⟩, .recorded (some .opened),
        { i.clear with state := .opened, retryAt := some (retryTime latest t i.backoff) }⟩
  | kept {i : Inner} {outcome : BackendOutcome} {t : Nat} (h : i.state = .closed)
      (htrips : ¬Trips cfg (retained cfg (history ++ [⟨t, outcome⟩]))) :
      Took cfg latest history ⟨i, ⟨.record outcome, t⟩, .recorded none,
        i.holding (retained cfg (history ++ [⟨t, outcome⟩]))⟩
  | refused {i : Inner} {t : Nat} :
      Took cfg latest history ⟨i, ⟨.beginProbe, t⟩, .begun false, i⟩
  | granted {i : Inner} {t at' : Nat} (h : i.state = .opened) (hretry : i.retryAt = some at')
      (hat : at' ≤ t) :
      Took cfg latest history ⟨i, ⟨.beginProbe, t⟩, .begun true, { i with state := .halfOpen }⟩
  | noProbe {i : Inner} {healthy : Bool} {t : Nat} (h : i.state ≠ .halfOpen) :
      Took cfg latest history ⟨i, ⟨.finishProbe healthy, t⟩, .finished i.state, i⟩
  | recovered {i : Inner} {t : Nat} (h : i.state = .halfOpen) :
      Took cfg latest history ⟨i, ⟨.finishProbe true, t⟩, .finished .closed, newBreaker cfg⟩
  | failed {i : Inner} {t backoff : Nat} (h : i.state = .halfOpen)
      (hbackoff : backoff = min (saturatingMul i.backoff 2) (fromSecs cfg.maxBackoffSecs)) :
      Took cfg latest history ⟨i, ⟨.finishProbe false, t⟩, .finished .opened,
        { i with
          state := .opened, backoff := backoff, retryAt := some (retryTime latest t backoff) }⟩

/-- What the breaker holds is determined by the steps so far. -/
structure Tracks (cfg : CircuitBreakerConfig) (now : Nat) (steps : List Step) (i : Inner) :
    Prop where
  order : InOrder now (sinceClosed steps)
  closed : i.state = .closed → i = i.holding (retained cfg (sinceClosed steps))
  notClosed : i.state ≠ .closed → i.samples = []
  backoff : i.backoff = backoffAfter cfg (failedProbes steps)
  -- after a probe began: it lasts until it is finished, and is the only one until an opening
  probe : ∀ before b between, steps = before ++ b :: between → b.result = .begun true →
    (∀ f ∈ between, f.finishes = false) → i.state = .halfOpen
  opened : ∀ before b between, steps = before ++ b :: between → b.result = .begun true →
    (∀ o ∈ between, o.opens = false) → i.state ≠ .opened

/-! ## Whole runs -/

theorem Tracks.call (h : Tracks cfg now steps i) (latest : Nat) {c : Call} (hnow : now ≤ c.now) :
    ∃ r j, i.call cfg latest c = some (r, j) ∧
      Took cfg latest (sinceClosed steps) ⟨i, c, r, j⟩ := by
  obtain ⟨op, t⟩ := c
  cases op with
  | record outcome =>
    by_cases hclosed : i.state = .closed
    · have hrecord := Inner.recordAt_closed cfg latest h.order hnow hclosed outcome
      rw [← h.closed hclosed] at hrecord
      rcases hrecord with ⟨htrips, hr⟩ | ⟨htrips, hr⟩
      · exact ⟨_, _, by simp only [Inner.call, hr]; rfl, .tripped hclosed htrips⟩
      · exact ⟨_, _, by simp only [Inner.call, hr]; rfl, .kept hclosed htrips⟩
    · refine ⟨_, _, ?_, .ignored hclosed⟩
      simp [Inner.call, Inner.recordAt, hclosed]
  | beginProbe =>
    by_cases hrefused : (i.state ≠ .opened || i.retryAt.all (t < ·)) = true
    · refine ⟨_, _, ?_, .refused⟩
      simp only [Inner.call, Inner.beginProbeAt]
      rw [if_pos hrefused]
    · have hstate : i.state = .opened := by
        by_contra hne
        exact hrefused (by simp [hne])
      cases hretry : i.retryAt with
      | none => exact absurd (by simp [hretry]) hrefused
      | some at' =>
        have hat : at' ≤ t := by
          simp only [hstate, hretry] at hrefused
          simpa using hrefused
        refine ⟨_, _, ?_, .granted hstate hretry hat⟩
        simp only [Inner.call, Inner.beginProbeAt]
        rw [if_neg hrefused]
  | finishProbe healthy =>
    by_cases hstate : i.state = .halfOpen
    · cases healthy with
      | true =>
        refine ⟨_, _, ?_, .recovered hstate⟩
        simp [Inner.call, Inner.finishProbeAt, hstate, Inner.clear, newBreaker]
      | false =>
        refine ⟨_, _, ?_, .failed hstate rfl⟩
        simp [Inner.call, Inner.finishProbeAt, hstate]
    · refine ⟨_, _, ?_, .noProbe hstate⟩
      simp [Inner.call, Inner.finishProbeAt, hstate]

section Step
variable {s : Step} {history : List Sample}

theorem Took.begun (h : Took cfg latest history s) (hr : s.result = .begun true) :
    s.before.state = .opened ∧ (∃ t ∈ s.before.retryAt, t ≤ s.call.now) ∧
      s.after.state = .halfOpen := by
  cases h with
  | granted hstate hretry hat => exact ⟨hstate, ⟨_, hretry, hat⟩, rfl⟩
  | ignored | tripped | kept | refused | noProbe | recovered | failed => cases hr

theorem Took.halfOpen (h : Took cfg latest history s) (hbefore : s.before.state = .halfOpen)
    (hfin : s.finishes = false) : s.after.state = .halfOpen := by
  cases h with
  | ignored | refused => exact hbefore
  | tripped hclosed | kept hclosed => rw [hclosed] at hbefore; cases hbefore
  | granted => rfl
  | noProbe hne => exact absurd hbefore hne
  | recovered hstate | failed hstate => simp [Step.finishes, hstate] at hfin

theorem concat_eq_append_cons {before between : List Step} {b : Step}
    (h : steps ++ [s] = before ++ b :: between) :
    b = s ∨ ∃ mid, between = mid ++ [s] ∧ steps = before ++ b :: mid := by
  rcases eq_nil_or_concat between with rfl | ⟨mid, x, rfl⟩
  · left
    exact (append_inj' h rfl).2 |> cons.inj |>.1.symm
  · right
    have hx : steps ++ [s] = (before ++ b :: mid) ++ [x] := by simpa using h
    obtain ⟨hsteps, hs⟩ := append_inj' hx rfl
    refine ⟨mid, ?_, hsteps⟩
    rw [concat_eq_append, (cons.inj hs).1]

/-- The log is extended as the breaker moves. -/
theorem Tracks.step (h : Tracks cfg now steps s.before)
    (htook : Took cfg latest (sinceClosed steps) s) (hnow : now ≤ s.call.now) :
    Tracks cfg s.call.now (steps ++ [s]) s.after where
  order := by
    rw [sinceClosed_concat]
    split
    · exact ⟨Pairwise.nil, by simp⟩
    · cases htook with
      | ignored | tripped | kept => exact h.order.concat hnow _
      | refused | granted | noProbe | recovered | failed =>
        simpa [Step.recorded] using h.order.mono hnow
  closed := by
    intro hclosed
    rw [sinceClosed_concat]
    cases htook with
    | ignored hne => exact absurd hclosed hne
    | tripped | granted | failed => cases hclosed
    | kept hc => simp [Step.closes, Step.recorded, hc, Inner.holding]
    | refused | noProbe => simpa [Step.closes, Step.recorded, hclosed] using h.closed hclosed
    | recovered hstate =>
      simp [Step.closes, hstate, newBreaker, retained, Inner.holding, numFailures, numTimeouts]
  notClosed := by
    intro hne
    cases htook with
    | tripped => rfl
    | kept hc => exact absurd hc hne
    | granted hstate | failed hstate => exact h.notClosed (by rw [hstate]; decide)
    | recovered => exact absurd rfl hne
    | _ => exact h.notClosed hne
  backoff := by
    rw [failedProbes_concat]
    have hb := h.backoff
    cases htook with
    | ignored | tripped | kept | refused | granted => exact hb
    | noProbe hne => simpa [Step.probesFailed, hne] using hb
    | recovered hstate => simp [Step.probesFailed, hstate, newBreaker, backoffAfter]
    | failed hstate hbackoff =>
      simp only [Step.probesFailed, hstate, if_true, Bool.false_eq_true, if_false]
      rw [hbackoff, hb, backoffAfter_succ]
  probe := by
    intro before b between hsteps hb hfin
    rcases concat_eq_append_cons hsteps with rfl | ⟨mid, rfl, hmid⟩
    · exact (htook.begun hb).2.2
    · have hbefore := h.probe before b mid hmid hb fun f hf => hfin f (by simp [hf])
      exact htook.halfOpen hbefore (hfin s (by simp))
  opened := by
    intro before b between hsteps hb hopens
    rcases concat_eq_append_cons hsteps with rfl | ⟨mid, rfl, hmid⟩
    · rw [(htook.begun hb).2.2]
      decide
    · have hbefore := h.opened before b mid hmid hb fun o ho => hopens o (by simp [ho])
      have hs := hopens s (by simp)
      simpa [Step.opens, hbefore] using hs

theorem Took.retry (h : Took cfg latest history s) (hopens : s.opens = true) :
    s.after.retryAt = some (retryTime latest s.call.now s.after.backoff) := by
  simp only [Step.opens, Bool.and_eq_true, bne_iff_ne, beq_iff_eq] at hopens
  cases h with
  | tripped => rfl
  | failed => rfl
  | ignored | refused | noProbe => exact absurd hopens.2 hopens.1
  | kept hc => exact absurd hopens.2 (by simp [Inner.holding, hc])
  | granted => exact absurd hopens.2 (by simp)
  | recovered => exact absurd hopens.2 (by simp [newBreaker])

theorem Tracks.meetsSpec (h : Tracks cfg now steps s.before)
    (htook : Took cfg latest (sinceClosed steps) s) (hnow : now ≤ s.call.now) :
    MeetsSpec cfg latest steps s where
  window hclosed := congrArg Inner.samples ((h.step htook hnow).closed hclosed)
  counters hclosed := by
    have heq := (h.step htook hnow).closed hclosed
    have hsamples := congrArg Inner.samples heq
    have hfailures := congrArg Inner.failures heq
    have htimeouts := congrArg Inner.timeouts heq
    rw [hsamples]
    exact ⟨hfailures, htimeouts⟩
  record outcome hop := by
    cases htook with
    | ignored hne => obtain rfl := Op.record.inj hop; simp [hne]
    | tripped hc htrips => obtain rfl := Op.record.inj hop; simp [hc, htrips]
    | kept _ htrips => obtain rfl := Op.record.inj hop; simp [htrips]
    | refused | granted | noProbe | recovered | failed => cases hop
  notClosed hne := by
    refine ⟨h.notClosed hne, ?_⟩
    intro outcome hop
    cases htook with
    | ignored => exact ⟨rfl, rfl⟩
    | tripped hc | kept hc => exact absurd hc hne
    | refused | granted | noProbe | recovered | failed => cases hop
  retry := htook.retry
  probe hr := ⟨(htook.begun hr).1, (htook.begun hr).2.1⟩
  oneProbe hr before b between hsteps hb := by
    have hstate := (htook.begun hr).1
    constructor
    · by_contra hnone
      have hhalf := h.probe before b between hsteps hb fun f hf => by
        by_contra hfin
        exact hnone ⟨f, hf, by simpa using hfin⟩
      rw [hstate] at hhalf
      cases hhalf
    · by_contra hnone
      refine h.opened before b between hsteps hb (fun o ho => ?_) hstate
      by_contra hopens
      exact hnone ⟨o, ho, by simpa using hopens⟩
  backoff := (h.step htook hnow).backoff
  recovers hop hstate := by
    cases htook with
    | recovered => rfl
    | noProbe hne => exact absurd hstate hne
    | ignored | tripped | kept | refused | granted | failed => cases hop

end Step

theorem Tracks.run : ∀ {calls : List Call} {now : Nat} {steps : List Step} {i : Inner},
    Tracks cfg now steps i → (∀ c ∈ calls, now ≤ c.now) →
    calls.Pairwise (fun c d => c.now ≤ d.now) →
    ∃ later, Breaker.run cfg latest i calls = some later ∧
      ∀ pre s post, later = pre ++ s :: post → MeetsSpec cfg latest (steps ++ pre) s := by
  intro calls
  induction calls with
  | nil =>
    intro now steps i _ _ _
    exact ⟨[], rfl, fun pre s post hnil => by simp at hnil⟩
  | cons c _ ih =>
    intro now steps i h hnow hsorted
    obtain ⟨hc, hsorted⟩ := pairwise_cons.1 hsorted
    have hle : now ≤ c.now := hnow c (.head _)
    obtain ⟨r, j, hcall, htook⟩ := h.call latest hle
    obtain ⟨later, hrun, hspec⟩ := ih (h.step (s := ⟨i, c, r, j⟩) htook hle) hc hsorted
    refine ⟨⟨i, c, r, j⟩ :: later, by simp [Breaker.run, hcall, hrun], ?_⟩
    intro pre s post hsplit
    cases pre with
    | nil =>
      obtain ⟨rfl, -⟩ := cons.inj hsplit
      rw [append_nil]
      exact h.meetsSpec htook hle
    | cons _ pre =>
      obtain ⟨rfl, hlater⟩ := cons.inj hsplit
      rw [append_cons]
      exact hspec pre s post hlater

theorem tracks_new (cfg : CircuitBreakerConfig) : Tracks cfg 0 [] (newBreaker cfg) where
  order := ⟨List.Pairwise.nil, by simp [sinceClosed]⟩
  closed _ := rfl
  notClosed hne := absurd rfl hne
  backoff := rfl
  probe before b between hnil := by simp at hnil
  opened before b between hnil := by simp at hnil

/-- Calls with timestamps that do not go back: no counter underflows, and every step meets the
specification after the steps before it. -/
theorem breaker_meets_spec (cfg : CircuitBreakerConfig) (latest : Nat) {calls : List Call}
    (hsorted : calls.Pairwise fun c d => c.now ≤ d.now) :
    ∃ steps, run cfg latest (newBreaker cfg) calls = some steps ∧
      ∀ earlier s later, steps = earlier ++ s :: later → MeetsSpec cfg latest earlier s := by
  simpa using (tracks_new cfg).run (fun c _ => Nat.zero_le c.now) hsorted

def twoFailures : CircuitBreakerConfig := ⟨10, 2, 50, 25, 2, 3⟩

def twoProbes : List Call :=
  [⟨.record .failure, 0⟩, ⟨.record .timeout, 0⟩, ⟨.beginProbe, 2000000000⟩,
    ⟨.finishProbe false, 2000000000⟩, ⟨.beginProbe, 5000000000⟩, ⟨.finishProbe true, 6000000000⟩]

/-- It opens on the second outcome, and the backoff doubles after a failed probe. -/
theorem breaker_meets_spec_twoProbes :
    (twoProbes.Pairwise fun c d => c.now ≤ d.now) ∧
      ∃ steps, run twoFailures (2 ^ 63) (newBreaker twoFailures) twoProbes = some steps ∧
        ∀ earlier s later, steps = earlier ++ s :: later →
          MeetsSpec twoFailures (2 ^ 63) earlier s :=
  ⟨by decide, breaker_meets_spec twoFailures (2 ^ 63) (by decide)⟩

end QueryFlux.Breaker
