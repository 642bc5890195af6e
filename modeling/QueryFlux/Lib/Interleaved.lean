import QueryFlux.Lib.Asks
import QueryFlux.Lib.Transition

/-!
# A computation among other changes of the world

A computation that asks questions, answered from the state of a world that others change between
any two of its questions. Its past is the list of questions it has asked with their answers.

`Heeds ok good R` is a rule about the past alone: as long as all answers meet `ok`, every exchange
is good after those before it, and where the computation returns `R` holds. It is computed from the
tree, so the world and its other changes do not matter (`Heeds.past_of_reach`).
-/

/-! ## A process in a world -/

namespace QueryFlux.Lib

variable {Q : Type} {D : Q → Type} {A B σ α : Type}

structure Exchange (Q : Type) (D : Q → Type) where
  question : Q
  answer : D question

/-- How questions are answered in a state, and what else may change the state. -/
structure World (Q : Type) (D : Q → Type) (σ α : Type) where
  answer : (q : Q) → σ → D q × σ
  env : σ → α → Option σ

structure Process (Q : Type) (D : Q → Type) (A σ : Type) where
  world : σ
  rest : Asks Q D A
  past : List (Exchange Q D)

inductive Turn (α : Type)
  | goOn
  | env (a : α)

def World.system (W : World Q D σ α) (start : σ → Prop) (x : Asks Q D A) :
    System (Process Q D A σ) (Turn α) where
  init p := start p.world ∧ p.rest = x ∧ p.past = []
  step p
    | .goOn =>
      match p.rest with
      | .done _ => none
      | .ask q k =>
        some ⟨(W.answer q p.world).2, k (W.answer q p.world).1,
          p.past ++ [⟨q, (W.answer q p.world).1⟩]⟩
    | .env a => (W.env p.world a).map fun w => { p with world := w }

/-! ## What a process rests on -/

namespace Asks

/-- Whatever was answered before, each question is in order and the result fits the exchanges. -/
def Heeds (ok : Exchange Q D → Prop) (good : List (Exchange Q D) → Exchange Q D → Prop)
    (R : A → List (Exchange Q D) → Prop) : Asks Q D A → List (Exchange Q D) → Prop
  | done a, past => R a past
  | ask q k, past => ∀ d, ok ⟨q, d⟩ →
      good past ⟨q, d⟩ ∧ (k d).Heeds ok good R (past ++ [⟨q, d⟩])

namespace Heeds

variable {ok : Exchange Q D → Prop} {good : List (Exchange Q D) → Exchange Q D → Prop}
  {R : A → List (Exchange Q D) → Prop} {S : B → List (Exchange Q D) → Prop} {x : Asks Q D A}
  {past : List (Exchange Q D)}

theorem bind {f : A → Asks Q D B} (h : x.Heeds ok good R past)
    (hf : ∀ a past, R a past → (f a).Heeds ok good S past) : (x.bind f).Heeds ok good S past := by
  induction x generalizing past with
  | done a => exact hf a past h
  | ask _ _ ih =>
    intro d hd
    exact ⟨(h d hd).1, ih d (h d hd).2⟩

theorem mono {R' : A → List (Exchange Q D) → Prop} (h : x.Heeds ok good R past)
    (hR : ∀ a past, R a past → R' a past) : x.Heeds ok good R' past := by
  induction x generalizing past with
  | done a => exact hR a past h
  | ask _ _ ih =>
    intro d hd
    exact ⟨(h d hd).1, ih d (h d hd).2⟩

/-- In every interleaving the exchanges of the process were in order when they were made. -/
theorem past_of_reach {W : World Q D σ α} {start : σ → Prop} (hx : x.Heeds ok good R [])
    {guard : Process Q D A σ → Turn α → Prop} {p : Process Q D A σ}
    (h : (W.system start x).Reach guard p) (hok : ∀ e ∈ p.past, ok e) :
    ∀ pre e post, p.past = pre ++ e :: post → good pre e := by
  suffices hinv : (∀ e ∈ p.past, ok e) → p.rest.Heeds ok good R p.past ∧
      ∀ pre e post, p.past = pre ++ e :: post → good pre e from (hinv hok).2
  clear hok
  induction h with
  | init hinit =>
    obtain ⟨_, hrest, hpast⟩ := hinit
    rw [hrest, hpast]
    intro _
    refine ⟨hx, fun pre e post heq => ?_⟩
    cases pre <;> cases heq
  | @step p p' a _ _ hs ih =>
    cases a with
    | env =>
      obtain ⟨w, _, rfl⟩ := Option.map_eq_some_iff.1 hs
      exact ih
    | goOn =>
      obtain ⟨world, rest, past⟩ := p
      cases rest with
      | done => cases hs
      | ask =>
        cases hs
        intro hok
        have hbefore := ih fun e he => hok e (List.mem_append_left _ he)
        have hlast := hbefore.1 _ (hok _ (List.mem_append_right _ (.head _)))
        refine ⟨hlast.2, fun pre e post heq => ?_⟩
        rcases List.eq_nil_or_concat post with rfl | ⟨post, e', rfl⟩
        · obtain ⟨rfl, he⟩ := List.append_inj' heq rfl
          cases he
          exact hlast.1
        · rw [List.concat_eq_append, ← List.cons_append, ← List.append_assoc] at heq
          exact hbefore.2 pre e post (List.append_inj' heq rfl).1

end Heeds

end Asks

end QueryFlux.Lib
