import Mathlib.Algebra.GroupWithZero.Nat
import Mathlib.Logic.Basic

/-!
# Guarded runs of a deterministic step function

A system is an initial state predicate and a step function that answers `none` where an
action is not possible. All nondeterminism is in the choice of the action. A run is
*guarded* when every step it takes meets a predicate on the state before the step and the
action; assumptions about an environment (delivery order, timeliness) are such guards.
-/

namespace QueryFlux.Lib

universe u v

structure System (σ : Type u) (α : Type v) where
  init : σ → Prop
  step : σ → α → Option σ

/-! ## Reachable states -/

namespace System

variable {σ : Type u} {α : Type v}

/-- The states reached by runs whose every step meets `ok`. -/
inductive Reach (S : System σ α) (ok : σ → α → Prop) : σ → Prop
  | init {s : σ} (h : S.init s) : Reach S ok s
  | step {s s' : σ} {a : α} (h : Reach S ok s) (hok : ok s a) (hs : S.step s a = some s') :
      Reach S ok s'

namespace Reach

variable {S : System σ α} {ok ok' : σ → α → Prop}

/-- The invariant rule: a predicate that holds initially and that every guarded step keeps
holds of every reached state. -/
theorem invariant {Inv : σ → Prop} (hinit : ∀ s, S.init s → Inv s)
    (hstep : ∀ s a s', Inv s → ok s a → S.step s a = some s' → Inv s') {s : σ}
    (h : S.Reach ok s) : Inv s := by
  induction h with
  | init h => exact hinit _ h
  | step _ hok hs ih => exact hstep _ _ _ ih hok hs

/-- Fewer assumptions allow more runs. -/
theorem mono {s : σ} (h : S.Reach ok s) (hok : ∀ s a, ok s a → ok' s a) : S.Reach ok' s := by
  induction h with
  | init hs => exact .init hs
  | step _ hstep hs ih => exact .step ih (hok _ _ hstep) hs

end Reach

/-! ## Runs as witnesses -/

/-- Run a list of actions, stopping where a guard fails or an action is not possible. -/
def runIf (S : System σ α) (okb : σ → α → Bool) : σ → List α → Option σ
  | s, [] => some s
  | s, a :: as => if okb s a then (S.step s a).bind (fun s' => S.runIf okb s' as) else none

variable {ok : σ → α → Prop} {S : System σ α}

/-- Following a list of actions stays within the reachable states. -/
theorem Reach.of_runIf {okb : σ → α → Bool} (hok : ∀ s a, okb s a = true → ok s a) :
    ∀ {as : List α} {s s' : σ}, S.Reach ok s → S.runIf okb s as = some s' → S.Reach ok s' := by
  intro as
  induction as with
  | nil =>
    intro s s' h hr
    cases hr
    exact h
  | cons a _ ih =>
    intro s s' h hr
    unfold runIf at hr
    split at hr
    · rename_i hb
      obtain ⟨t, ht, hr⟩ := Option.bind_eq_some_iff.1 hr
      exact ih (.step h (hok s a hb) ht) hr
    · cases hr

theorem Reach.exists_of_runIf {okb : σ → α → Bool} (hok : ∀ s a, okb s a = true → ok s a) {s : σ}
    (h : S.Reach ok s) {as : List α} {test : σ → Bool} (hr : (S.runIf okb s as).any test = true) :
    ∃ s', S.Reach ok s' ∧ test s' = true := by
  cases hs' : S.runIf okb s as with
  | none => rw [hs'] at hr; cases hr
  | some s' => exact ⟨s', of_runIf hok h hs', by simpa [hs'] using hr⟩

theorem Reach.exists_of_run [∀ s a, Decidable (ok s a)] {P : σ → Prop} [DecidablePred P] {s : σ}
    (h : S.Reach ok s) (as : List α)
    (hr : (S.runIf (fun s a => decide (ok s a)) s as).any (fun s => decide (P s)) = true) :
    ∃ s', S.Reach ok s' ∧ P s' := by
  obtain ⟨s', hs', hP⟩ := exists_of_runIf (fun _ _ => of_decide_eq_true) h hr
  exact ⟨s', hs', of_decide_eq_true hP⟩

end System

end QueryFlux.Lib
