import Mathlib.Logic.Basic

/-!
# Computations that ask questions

A computation that asks outside parties questions, one after another, each depending on the
answers before it, and then ends with a value. The tree is the computation itself; a run against
parties that answer by a function gives the value and the questions asked on the way.

`Meets P R` is the rule of conditions for such computations: every question meets `P`, every end
meets `R`. It holds of a sequence when it holds of the parts (`Meets.bind`), and of the questions of
every run (`Meets.asked`).
-/

namespace QueryFlux.Lib

/-- A computation of an `A` that asks questions `q : Q`, each answered by a `D q`. -/
inductive Asks (Q : Type) (D : Q → Type) (A : Type)
  | done (a : A)
  | ask (q : Q) (k : D q → Asks Q D A)

/-! ## Programs -/

namespace Asks

variable {Q : Type} {D : Q → Type} {A B : Type}

def bind (x : Asks Q D A) (f : A → Asks Q D B) : Asks Q D B :=
  match x with
  | done a => f a
  | ask q k => ask q fun d => (k d).bind f

def map (f : A → B) (x : Asks Q D A) : Asks Q D B := x.bind fun a => done (f a)

def embed {Q' : Type} {D' : Q' → Type} (f : Q → Q') (g : (q : Q) → D' (f q) → D q) :
    Asks Q D A → Asks Q' D' A
  | done a => done a
  | ask q k => ask (f q) fun d => (k (g q d)).embed f g

/-- The result, if questions are answered by this function. -/
def run (answer : (q : Q) → D q) : Asks Q D A → A
  | done a => a
  | ask q k => (k (answer q)).run answer

/-- The questions asked on the way. -/
def asked (answer : (q : Q) → D q) : Asks Q D A → List Q
  | done _ => []
  | ask q k => q :: (k (answer q)).asked answer

/-! ## Running a composed program -/

variable {answer : (q : Q) → D q}

@[simp] theorem run_done (a : A) : (done a : Asks Q D A).run answer = a := rfl

@[simp] theorem asked_done (a : A) : (done a : Asks Q D A).asked answer = [] := rfl

@[simp] theorem run_ask (q : Q) (k : D q → Asks Q D A) :
    (ask q k).run answer = (k (answer q)).run answer := rfl

@[simp] theorem asked_ask (q : Q) (k : D q → Asks Q D A) :
    (ask q k).asked answer = q :: (k (answer q)).asked answer := rfl

/-- The second program runs on the result of the first. -/
@[simp] theorem run_bind (f : A → Asks Q D B) (x : Asks Q D A) :
    (x.bind f).run answer = (f (x.run answer)).run answer := by
  induction x with
  | done => rfl
  | ask q _ ih => exact ih (answer q)

@[simp] theorem asked_bind (f : A → Asks Q D B) (x : Asks Q D A) :
    (x.bind f).asked answer = x.asked answer ++ (f (x.run answer)).asked answer := by
  induction x with
  | done => rfl
  | ask q _ ih => exact congrArg (q :: ·) (ih (answer q))

@[simp] theorem run_map (f : A → B) (x : Asks Q D A) : (x.map f).run answer = f (x.run answer) :=
  run_bind _ x

@[simp] theorem asked_map (f : A → B) (x : Asks Q D A) :
    (x.map f).asked answer = x.asked answer := by
  rw [map, asked_bind, asked_done, List.append_nil]

/-- Every question the computation can come to ask meets `P`, and every value it can end with
meets `R`. -/
inductive Meets (P : Q → Prop) (R : A → Prop) : Asks Q D A → Prop
  | done {a : A} (ha : R a) : Meets P R (done a)
  | ask {q : Q} {k : D q → Asks Q D A} (hq : P q) (hk : ∀ d, Meets P R (k d)) : Meets P R (ask q k)

namespace Meets

variable {P : Q → Prop} {R : A → Prop} {S : B → Prop} {x : Asks Q D A}

theorem asked (h : Meets P R x) : ∀ q ∈ x.asked answer, P q := by
  induction h with
  | done => intro q hq; cases hq
  | ask hq _ ih =>
    intro q' hq'
    rcases List.mem_cons.1 hq' with rfl | hmem
    · exact hq
    · exact ih _ q' hmem

theorem bind (h : Meets P R x) {f : A → Asks Q D B} (hf : ∀ a, R a → Meets P S (f a)) :
    Meets P S (x.bind f) := by
  induction h with
  | done ha => exact hf _ ha
  | ask hq _ ih => exact .ask hq ih

theorem map (h : Meets P R x) {f : A → B} (hf : ∀ a, R a → S (f a)) : Meets P S (x.map f) :=
  h.bind fun a ha => .done (hf a ha)

end Meets

abbrev All (P : Q → Prop) (x : Asks Q D A) : Prop := Meets P (fun _ => True) x

theorem All.embed {Q' : Type} {D' : Q' → Type} {P : Q' → Prop} {f : Q → Q'}
    {g : (q : Q) → D' (f q) → D q} (h : ∀ q, P (f q)) (x : Asks Q D A) : (x.embed f g).All P := by
  induction x with
  | done => exact .done trivial
  | ask q _ ih => exact .ask (h q) fun d => ih _

end Asks

end QueryFlux.Lib
