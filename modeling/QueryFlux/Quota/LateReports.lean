import QueryFlux.Quota.Runs

/-!
# Reports processed late

A holder gives up on a call after its timeout, and the store may still process the report
after a later one. Nothing in a report tells the store that it is old: it takes the running
count of the report as the current one. In a run where an overtaken report is harmless, a row
counts all its holder may use, whatever the order of processing.
-/

namespace QueryFlux.Quota

open QueryFlux.Lib

variable {ι : Type} [LinearOrder ι] {cfg : Settings}

/-- Every live holder's reports arrive in time, and a report that a later one of its holder has
overtaken takes nothing off what the row counts. -/
def lateHarmless (cfg : Settings) (s : Sys ι) (a : Act ι) : Prop :=
  s.timely cfg ∧ s.processing Party.harmless a

structure Sys.Covered (cfg : Settings) (s : Sys ι) : Prop extends s.WF cfg where
  covered : ∀ p ∈ s.parties, p.Covered cfg s.now

theorem Sys.Covered.step {s s' : Sys ι} {a : Act ι} (hc : s.Covered cfg)
    (hs : s.step cfg a = some s') (hok : lateHarmless cfg s a) : s'.Covered cfg where
  toWF := hc.toWF.step hs
  covered p' hp' := by
    obtain ⟨p, hp, hm⟩ := forall₂_mem_right (Sys.step_moved hs) hp'
    refine hc.toWF.covered_step hs hp hm (hc.covered p hp)
      (fun _ => List.all_eq_true.1 hok.1 p hp) ?_
    rintro act rfl m hmem hact
    exact Sys.processing_holder hok.2 hp hmem hact

theorem Sys.Covered.initial {s : Sys ι} (h : s.initial) : s.Covered cfg :=
  ⟨Sys.WF.initial h, Sys.covered_initial h⟩

theorem Sys.covered_of_lateHarmless {s : Sys ι}
    (h : (protocol ι cfg).Reach (lateHarmless cfg) s) : s.Covered cfg :=
  h.invariant (fun _ => Sys.Covered.initial) fun _ _ _ hc hok hs => hc.step hs hok

/-- What a row counts is at least the quota its holder enforces while that is valid, and at
least the queries it runs. -/
theorem counted_ge_of_lateHarmless {s : Sys ι} (h : (protocol ι cfg).Reach (lateHarmless cfg) s) :
    ∀ p ∈ s.parties, p.enforcedQuota s.now ≤ p.counted ∧ p.cq.running ≤ p.counted := by
  intro p hp
  have hle := ((Sys.covered_of_lateHarmless h).covered p hp).le_counted
  exact ⟨(Nat.le_max_left _ _).trans hle, (Nat.le_max_right _ _).trans hle⟩

/-! ## A report that is overtaken -/

/-- Holder 1 has a report under way from before it admitted four queries, and has since
confirmed that its quota is gone; holder 2 asks for the capacity. -/
def overtaking : List (Act Nat) :=
  turnOn ++ roundTrip 1 0 4 ++ [.runAllocation] ++ roundTrip 1 1 0 ++
    [.holder 1 (.report 0), .tick 1000, .holder 1 .failed] ++
    List.replicate 4 (.holder 1 .tryAcquire) ++
    roundTrip 2 0 4 ++ [.runAllocation] ++ roundTrip 1 3 0 ++ roundTrip 1 4 0

/-- The overtaken report is processed last, and the row counts nothing for four queries. -/
theorem overtaken_report_hides_running :
    ∃ s, (protocol Nat fourSlots).Reach (fun s _ => s.timely fourSlots) s ∧
      s.parties.any fun p => p.counted < p.cq.running := by
  exact reach_twoHolders (fun s _ => s.timely fourSlots) (fun _ _ h => h)
    (overtaking ++ [.holder 1 (.process 2)]) _ (by decide +kernel)

/-- Without that last report the run meets the condition, and four queries are counted. -/
theorem counted_ge_overtaking :
    ∃ s, (protocol Nat fourSlots).Reach (lateHarmless fourSlots) s ∧
      (s.parties.any fun p => p.cq.running = 4) ∧
      ∀ p ∈ s.parties, p.enforcedQuota s.now ≤ p.counted ∧ p.cq.running ≤ p.counted := by
  obtain ⟨s, hs, hrun⟩ := reach_twoHolders
    (fun s a => s.timely fourSlots && s.processing Party.harmless a)
    (fun _ _ h => Bool.and_eq_true_iff.1 h) overtaking
    (fun s => s.parties.any fun p => p.cq.running = 4) (by decide +kernel)
  exact ⟨s, hs, hrun, counted_ge_of_lateHarmless hs⟩

end QueryFlux.Quota
