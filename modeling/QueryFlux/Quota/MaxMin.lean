import QueryFlux.Lib.Lists
import QueryFlux.Quota.Allocate

/-!
# Max-min fair shares

Before each round of `max_min_fair` everyone still open has been given the same, the level, and
everyone else has their demand, which is at most the level (`Balanced`). A round gives everyone the
whole share, up to their demand, or it is the last one, with shares of 1 and too few for everyone.
-/

namespace QueryFlux.Quota

open Lib List

/-! ## One round -/

variable {demand opened out : List Nat} {share left level : Nat}

theorem fairRound_zero : fairRound demand share opened 0 out = ⟨0, out, opened⟩ := by
  induction opened with
  | nil => rfl
  | cons i opened ih => simp [fairRound, ih]

/-- What a round gives: nothing beyond the share, all of it if there is enough, and what is given is
no longer left. -/
structure Given (demand : List Nat) (share : Nat) (opened : List Nat) (left level : Nat)
    (out : List Nat) (r : FairRound) : Prop where
  length : r.out.length = out.length
  others : ∀ j, j ∉ opened → r.out.getD j 0 = out.getD j 0
  ge : ∀ i ∈ opened, level ≤ r.out.getD i 0
  le : ∀ i ∈ opened, r.out.getD i 0 ≤ min (demand.getD i 0) (level + share)
  sum : r.out.sum + r.left = out.sum + left
  still : r.still = opened.filter fun i => r.out.getD i 0 < demand.getD i 0
  full : opened.length * share ≤ left →
    ∀ i ∈ opened, r.out.getD i 0 = min (demand.getD i 0) (level + share)
  spent : left < opened.length → share = 1 → r.left = 0
  progress : 0 < left → opened ≠ [] → r.left < left
  left_le : r.left ≤ left

/-- What one round gives, and to whom. -/
theorem fairRound_given (left : Nat) (hshare : 1 ≤ share) (hlen : out.length = demand.length)
    (hnodup : opened.Nodup)
    (hopen : ∀ i ∈ opened, i < out.length ∧ out.getD i 0 = level ∧ level < demand.getD i 0) :
    Given demand share opened left level out (fairRound demand share opened left out) := by
  induction opened generalizing left out with
  | nil => constructor <;> simp [fairRound]
  | cons i opened ih =>
    obtain ⟨⟨hi, hout, hdemand⟩, hrest⟩ := forall_mem_cons.1 hopen
    by_cases hzero : left = 0
    · subst hzero
      have hall : ∀ j ∈ i :: opened, out.getD j 0 < demand.getD j 0 := fun j hj => by
        have := hopen j hj
        omega
      rw [fairRound_zero]
      refine ⟨rfl, fun _ _ => rfl, fun j hj => (hopen j hj).2.1.ge, fun j hj => ?_, rfl, ?_, ?_,
        fun _ _ => rfl, fun h => absurd h (Nat.lt_irrefl 0), Nat.le_refl 0⟩
      · have := hopen j hj
        dsimp only
        omega
      · exact (filter_eq_self.2 fun j hj => decide_eq_true (hall j hj)).symm
      · intro hfull
        rw [length_cons, Nat.add_mul] at hfull
        omega
    · obtain ⟨hnot, hnodup⟩ := nodup_cons.1 hnodup
      simp only [fairRound, if_neg hzero, hout]
      generalize hgive : min (min (demand.getD i 0 - level) share) left = give
      have hset : ∀ j ∈ opened, j < (out.set i (level + give)).length ∧
          (out.set i (level + give)).getD j 0 = level ∧ level < demand.getD j 0 := by
        intro j hj
        have hne : i ≠ j := by
          rintro rfl
          exact hnot hj
        rw [length_set, getD_set_ne _ hne]
        exact hrest j hj
      have hg := ih (left - give) (by rwa [length_set]) hnodup hset
      generalize fairRound demand share opened (left - give) (out.set i (level + give)) = r at hg ⊢
      have hhead : r.out.getD i 0 = level + give := by
        rw [hg.others i hnot, getD_set, if_pos ⟨rfl, hi⟩]
      have hsum : (out.set i (level + give)).sum + level = out.sum + (level + give) := by
        have h := sum_map_set (getElem?_eq_getD hi 0) (level + give) id
        rw [hout] at h
        simpa using h
      have hr (r' : FairRound) (hro : r'.out = r.out) (hrl : r'.left = r.left)
          (hrs : r'.still = (i :: opened).filter fun j => r.out.getD j 0 < demand.getD j 0) :
          Given demand share (i :: opened) left level out r' := by
        have hrsum := hg.sum
        have hrleft := hg.left_le
        constructor
        · rw [hro, hg.length, length_set]
        · intro j hj
          rw [hro, hg.others j (not_mem_of_not_mem_cons hj),
            getD_set_ne _ (ne_of_not_mem_cons hj).symm]
        · rw [hro, forall_mem_cons, hhead]
          exact ⟨Nat.le_add_right _ _, hg.ge⟩
        · rw [hro, forall_mem_cons, hhead]
          exact ⟨by omega, hg.le⟩
        · rw [hro, hrl]
          omega
        · rw [hrs, hro]
        · intro hfull
          rw [length_cons, Nat.add_mul] at hfull
          rw [hro, forall_mem_cons, hhead]
          exact ⟨by omega, hg.full (by omega)⟩
        · intro hfew hone
          rw [length_cons] at hfew
          rw [hrl]
          by_cases hone' : left = 1
          · omega
          · exact hg.spent (by omega) hone
        · omega
        · omega
      split_ifs with hlt
      · refine hr _ rfl rfl ?_
        rw [filter_cons_of_pos (by rw [hhead]; exact decide_eq_true hlt), hg.still]
      · refine hr _ rfl rfl ?_
        rw [filter_cons_of_neg (by rw [hhead, decide_eq_true_iff]; exact hlt), hg.still]

/-! ## All rounds -/

/-- Who is still open has the level of the round, everybody else all they asked for. -/
structure Balanced (demand opened out : List Nat) (level : Nat) : Prop where
  length : out.length = demand.length
  nodup : opened.Nodup
  mem : ∀ i ∈ opened, i < out.length ∧ out.getD i 0 = level ∧ level < demand.getD i 0
  closed : ∀ i, i ∉ opened → out.getD i 0 = demand.getD i 0 ∧ demand.getD i 0 ≤ level

/-- Nobody has more than their demand, and who has less is at most one behind anybody. -/
structure Fair (demand out : List Nat) : Prop where
  length : out.length = demand.length
  le : ∀ i, out.getD i 0 ≤ demand.getD i 0
  level : ∀ i j, out.getD i 0 < demand.getD i 0 → out.getD j 0 ≤ out.getD i 0 + 1

theorem sum_le_of_getD {a b : List Nat} (hlen : a.length = b.length)
    (h : ∀ i, a.getD i 0 ≤ b.getD i 0) : a.sum ≤ b.sum := by
  induction a generalizing b with
  | nil => simp
  | cons x a ih =>
    cases b with
    | nil => simp at hlen
    | cons y b =>
      have hxy : x ≤ y := h 0
      have htail := ih (Nat.succ.inj hlen) fun i => h (i + 1)
      simp only [sum_cons]
      omega

theorem Balanced.fair (h : Balanced demand opened out level) : Fair demand out := by
  have hcases (i : Nat) : (out.getD i 0 = level ∧ level < demand.getD i 0) ∨
      (out.getD i 0 = demand.getD i 0 ∧ demand.getD i 0 ≤ level) := by
    by_cases hi : i ∈ opened
    · exact .inl (h.mem i hi).2
    · exact .inr (h.closed i hi)
  refine ⟨h.length, fun i => ?_, fun i j hlt => ?_⟩
  · have := hcases i
    omega
  · have hi := hcases i
    have hj := hcases j
    omega

/-- A round raises the level and closes who has enough. -/
theorem Balanced.round (h : Balanced demand opened out level) (hleft : left ≠ 0)
    (hopened : opened ≠ []) :
    let share := max (left / opened.length) 1
    let r := fairRound demand share opened left out
    r.left < left ∧ r.out.sum + r.left = out.sum + left ∧
      (Balanced demand r.still r.out (level + share) ∨ r.left = 0 ∧ Fair demand r.out) := by
  intro share r
  have hshare : 1 ≤ share := Nat.le_max_right _ _
  have hg : Given demand share opened left level out r :=
    fairRound_given left hshare h.length h.nodup h.mem
  refine ⟨hg.progress (Nat.pos_of_ne_zero hleft) hopened, hg.sum, ?_⟩
  by_cases hfull : opened.length * share ≤ left
  · have hout := hg.full hfull
    refine .inl ⟨hg.length.trans h.length, hg.still ▸ h.nodup.filter _, ?_, ?_⟩
    · intro i hi
      rw [hg.still, mem_filter, decide_eq_true_iff] at hi
      have hi' := hout i hi.1
      have hlen := hg.length
      have := h.mem i hi.1
      omega
    · intro i hi
      rw [hg.still, mem_filter, decide_eq_true_iff] at hi
      by_cases hmem : i ∈ opened
      · have hi' := hout i hmem
        have hlt : ¬r.out.getD i 0 < demand.getD i 0 := fun hlt => hi ⟨hmem, hlt⟩
        omega
      · have hi' := hg.others i hmem
        have := h.closed i hmem
        omega
  · -- only shares of one can be more than is left
    have hlen : 0 < opened.length := length_pos_iff.2 hopened
    have hfew : left < opened.length := by
      by_contra hge
      have hdiv : 1 ≤ left / opened.length := (Nat.one_le_div_iff hlen).2 (by omega)
      have hmul := Nat.mul_div_le left opened.length
      exact hfull (by rwa [show share = left / opened.length from Nat.max_eq_left hdiv])
    have hone : share = 1 := by simp [share, Nat.div_eq_of_lt hfew]
    have hcases (i : Nat) : (level ≤ r.out.getD i 0 ∧ r.out.getD i 0 ≤ level + 1 ∧
        r.out.getD i 0 ≤ demand.getD i 0) ∨
          (r.out.getD i 0 = demand.getD i 0 ∧ demand.getD i 0 ≤ level) := by
      by_cases hi : i ∈ opened
      · have hge := hg.ge i hi
        have hle := hg.le i hi
        omega
      · have hi' := hg.others i hi
        have := h.closed i hi
        omega
    refine .inr ⟨hg.spent hfew hone, hg.length.trans h.length, fun i => ?_, fun i j hlt => ?_⟩
    · have := hcases i
      omega
    · have hi := hcases i
      have hj := hcases j
      omega

theorem fairLoop_zero (fuel : Nat) : fairLoop demand fuel 0 opened out = out := by
  cases fuel <;> simp [fairLoop]

/-- The loop ends within as many rounds as there is left to give. -/
theorem Balanced.loop (left : Nat) (h : Balanced demand opened out level) :
    ∃ result, (∀ fuel, left ≤ fuel → fairLoop demand fuel left opened out = result) ∧
      Fair demand result ∧ result.sum = min (out.sum + left) demand.sum := by
  have hle {out : List Nat} (h : Fair demand out) : out.sum ≤ demand.sum :=
    sum_le_of_getD h.length h.le
  induction left using Nat.strong_induction_on generalizing opened out level with
  | _ left ih =>
  by_cases hleft : left = 0
  · subst hleft
    have := hle h.fair
    exact ⟨out, fun fuel _ => fairLoop_zero fuel, h.fair, by omega⟩
  by_cases hopened : opened = []
  · subst hopened
    have hge := sum_le_of_getD h.length.symm fun i => (h.closed i not_mem_nil).1.ge
    have := hle h.fair
    refine ⟨out, fun fuel _ => ?_, h.fair, by omega⟩
    cases fuel <;> simp [fairLoop]
  obtain ⟨hlt, hsum, hround⟩ := h.round hleft hopened
  -- one round of the loop, whatever fuel is left behind it
  have hstep (fuel : Nat) (hfuel : left ≤ fuel) : ∃ f, left - 1 ≤ f ∧
      fairLoop demand fuel left opened out =
        let share := max (left / opened.length) 1
        let r := fairRound demand share opened left out
        if r.still.length = opened.length ∧ share = 1 ∧ r.left = 0 then r.out
        else fairLoop demand f r.left r.still r.out := by
    obtain ⟨f, rfl⟩ : ∃ f, fuel = f + 1 := Nat.exists_eq_succ_of_ne_zero (by omega)
    exact ⟨f, by omega, by simp only [fairLoop, hleft, hopened, or_self, if_false]⟩
  dsimp only at hstep hlt hsum hround
  generalize max (left / opened.length) 1 = share at hstep hround hlt hsum
  generalize fairRound demand share opened left out = r at hstep hround hlt hsum
  by_cases hzero : r.left = 0
  · have hfair : Fair demand r.out := hround.elim Balanced.fair And.right
    refine ⟨r.out, fun fuel hfuel => ?_, hfair, ?_⟩
    · obtain ⟨f, -, heq⟩ := hstep fuel hfuel
      rw [heq, hzero, fairLoop_zero, ite_self]
    · have := hle hfair
      omega
  · obtain hb | hend := hround
    · obtain ⟨result, hresult, hfair, hmin⟩ := ih r.left hlt hb
      refine ⟨result, fun fuel hfuel => ?_, hfair, by omega⟩
      obtain ⟨f, hf, heq⟩ := hstep fuel hfuel
      rw [heq, if_neg fun h => hzero h.2.2, hresult f (by omega)]
    · exact absurd hend.1 hzero

/-! ## The division -/

theorem balanced_start (demand : List Nat) :
    Balanced demand ((List.range demand.length).filter fun i => 0 < demand.getD i 0)
      (List.replicate demand.length 0) 0 := by
  have hout (i : Nat) : (replicate demand.length 0).getD i 0 = 0 := by
    rw [getD_eq_getElem?_getD, getElem?_replicate]
    split_ifs <;> rfl
  refine ⟨length_replicate, nodup_range.filter _, fun i hi => ?_, fun i hi => ?_⟩
  · rw [mem_filter, mem_range, decide_eq_true_iff] at hi
    rw [length_replicate]
    exact ⟨hi.1, hout i, hi.2⟩
  · rw [mem_filter, mem_range, decide_eq_true_iff] at hi
    have hzero : demand.getD i 0 = 0 := by
      by_contra hne
      have hpos : 0 < demand.getD i 0 := Nat.pos_of_ne_zero hne
      refine hi ⟨?_, hpos⟩
      by_contra hlen
      simp [getElem?_eq_none (Nat.le_of_not_lt hlen)] at hpos
    rw [hout, hzero]
    exact ⟨rfl, Nat.le_refl 0⟩

theorem maxMinFair_spec (capacity : Nat) (demand : List Nat) :
    (∀ fuel, capacity ≤ fuel → fairLoop demand fuel capacity
        ((List.range demand.length).filter fun i => 0 < demand.getD i 0)
        (List.replicate demand.length 0) = maxMinFair capacity demand) ∧
      Fair demand (maxMinFair capacity demand) ∧
      (maxMinFair capacity demand).sum = min capacity demand.sum := by
  obtain ⟨result, hresult, hfair, hsum⟩ := (balanced_start demand).loop capacity
  have heq : maxMinFair capacity demand = result := hresult capacity (Nat.le_refl _)
  rw [heq]
  exact ⟨hresult, hfair, by simpa using hsum⟩

/-- The loop ends within its capacity; nobody gets more than they ask for, all that can be given is
given, and who gets less than they ask for is at most one behind anybody. -/
theorem max_min_fair_division (capacity : Nat) (demand : List Nat) :
    (∀ fuel, capacity ≤ fuel → fairLoop demand fuel capacity
        ((List.range demand.length).filter fun i => 0 < demand.getD i 0)
        (List.replicate demand.length 0) = maxMinFair capacity demand) ∧
      (maxMinFair capacity demand).length = demand.length ∧
      (∀ i, (maxMinFair capacity demand).getD i 0 ≤ demand.getD i 0) ∧
      (maxMinFair capacity demand).sum = min capacity demand.sum ∧
      ∀ i j, (maxMinFair capacity demand).getD i 0 < demand.getD i 0 →
        (maxMinFair capacity demand).getD j 0 ≤ (maxMinFair capacity demand).getD i 0 + 1 := by
  obtain ⟨hfuel, hfair, hsum⟩ := maxMinFair_spec capacity demand
  exact ⟨hfuel, hfair.length, hfair.le, hsum, hfair.level⟩

end QueryFlux.Quota
