import QueryFlux.Lib.Asks

/-!
# Computations that can be dropped while they wait

An asynchronous function is a computation that asks questions, run against a state that its
questions change. While it waits for an answer it can be dropped: it then asks nothing more, and
whether the party it asked has acted by then is open. A question that is not waited for, a
synchronous statement, is one that cannot be dropped (`Calls.possible`).

`Ensures I R` is the rule of conditions: whenever the computation is dropped the state meets `I`,
and when it returns the state meets `R`. It is computed from the tree, holds of a sequence when it
holds of the parts (`Ensures.bind`), and holds of every run (`Ensures.dropped`,
`Ensures.returned`).
-/

/-! ## Programs and runs -/

namespace QueryFlux.Lib

/-- What a question does to the state, by its answer (none when the asker is dropped while it
waits) and by whether the party asked acted, and which combinations of the two are possible. -/
structure Calls (Q : Type) (D : Q → Type) (σ : Type) where
  effect : (q : Q) → Option (D q) → Bool → σ → σ
  possible : (q : Q) → Option (D q) → Bool → Prop

namespace Asks

variable {Q : Type} {D : Q → Type} {σ A B : Type} {C : Calls Q D σ}

/-- The runs from a state, to the value returned, or none if the computation was dropped, and the
state it leaves. -/
inductive Runs (C : Calls Q D σ) : Asks Q D A → σ → Option A → σ → Prop
  | done (a : A) (s : σ) : Runs C (done a) s (some a) s
  | answered {q : Q} {k : D q → Asks Q D A} {s s' : σ} {r : Option A} (d : D q) (acted : Bool)
      (h : C.possible q (some d) acted) (hk : Runs C (k d) (C.effect q (some d) acted s) r s') :
      Runs C (ask q k) s r s'
  | dropped {q : Q} {k : D q → Asks Q D A} {s : σ} (acted : Bool) (h : C.possible q none acted) :
      Runs C (ask q k) s none (C.effect q none acted s)

/-- The run in which every question has the given answer, or is where the computation is
dropped. -/
def play (C : Calls Q D σ) (answer : (q : Q) → Option (D q) × Bool) :
    Asks Q D A → σ → Option A × σ
  | done a, s => (some a, s)
  | ask q k, s =>
    match answer q with
    | (some d, acted) => (k d).play C answer (C.effect q (some d) acted s)
    | (none, acted) => (none, C.effect q none acted s)

/-- Possible answers make a run. -/
theorem runs_play {answer : (q : Q) → Option (D q) × Bool}
    (h : ∀ q, C.possible q (answer q).1 (answer q).2) (x : Asks Q D A) (s : σ) :
    Runs C x s (x.play C answer s).1 (x.play C answer s).2 := by
  induction x generalizing s with
  | done a => exact .done a s
  | ask q _ ih =>
    have hq := h q
    unfold play
    rcases hans : answer q with ⟨_ | d, acted⟩
    · rw [hans] at hq
      exact .dropped acted hq
    · rw [hans] at hq
      exact .answered d acted hq (ih d _)

/-! ## What every run ensures -/

/-- Started in the state, the computation leaves a state that meets `I` where it is dropped, and
one that meets `R` where it returns. -/
def Ensures (C : Calls Q D σ) (I : σ → Prop) (R : A → σ → Prop) : Asks Q D A → σ → Prop
  | done a, s => R a s
  | ask q k, s =>
    (∀ acted, C.possible q none acted → I (C.effect q none acted s)) ∧
      ∀ d acted, C.possible q (some d) acted → (k d).Ensures C I R (C.effect q (some d) acted s)

namespace Ensures

variable {I : σ → Prop} {R : A → σ → Prop} {S : B → σ → Prop} {x : Asks Q D A} {s s' : σ}

/-- A run that is dropped keeps the invariant, and one that returns has the result. -/
theorem holds_of_runs {r : Option A} (hrun : Runs C x s r s') (h : x.Ensures C I R s) :
    (r = none → I s') ∧ ∀ a, r = some a → R a s' := by
  induction hrun with
  | done =>
    refine ⟨by simp, fun a' ha => ?_⟩
    cases ha
    exact h
  | answered d acted hpos _ ih => exact ih (h.2 d acted hpos)
  | dropped acted hpos => exact ⟨fun _ => h.1 acted hpos, by simp⟩

section
variable (h : x.Ensures C I R s)
include h

theorem dropped (hrun : Runs C x s none s') : I s' :=
  (holds_of_runs hrun h).1 rfl

theorem returned {a : A} (hrun : Runs C x s (some a) s') : R a s' :=
  (holds_of_runs hrun h).2 a rfl

theorem bind {f : A → Asks Q D B} (hf : ∀ a s, R a s → (f a).Ensures C I S s) :
    (x.bind f).Ensures C I S s := by
  induction x generalizing s with
  | done a => exact hf a s h
  | ask _ _ ih => exact ⟨h.1, fun d acted hpos => ih d (h.2 d acted hpos)⟩

theorem mono {R' : A → σ → Prop} (hR : ∀ a s, R a s → R' a s) : x.Ensures C I R' s := by
  induction x generalizing s with
  | done a => exact hR a s h
  | ask _ _ ih => exact ⟨h.1, fun d acted hpos => ih d (h.2 d acted hpos)⟩

theorem map {f : A → B} (hf : ∀ a s, R a s → S (f a) s) : (x.map f).Ensures C I S s :=
  h.bind hf

end

end Ensures

end Asks

end QueryFlux.Lib
