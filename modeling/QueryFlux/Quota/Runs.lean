import QueryFlux.Quota.Coverage
import QueryFlux.Quota.Protocol

/-!
# Coverage along runs

Each holder's invariants, carried through every step of the whole protocol. A pass is the only
action that touches several holders; what it writes for one of them is bounded by what
`allocate` guarantees for that holder's row alone.
-/

namespace QueryFlux.Quota

open QueryFlux.Lib

variable {ι : Type} [LinearOrder ι] {cfg : Settings}

namespace Sys

/-- Replicas stand in the order of their ids and their rows are in range. -/
structure WF (cfg : Settings) (s : Sys ι) : Prop where
  sorted : (s.parties.map (·.instanceId)).Pairwise (· < ·)
  party : ∀ p ∈ s.parties, p.WF cfg s.now

variable {s s' : Sys ι} {a : Act ι} {p p' : Party ι}

omit [LinearOrder ι] in
theorem mem_holders {h : HolderState ι} : h ∈ s.holders ↔
    ∃ p ∈ s.parties, ∃ row, (p.expire s.now).row = some row ∧
      row.holderState p.instanceId s.now = h := by
  simp only [holders, List.mem_filterMap, List.mem_map, exists_exists_and_eq_and,
    Party.holderState, Option.map_eq_some_iff]
  rfl

omit [LinearOrder ι] in
theorem holders_sublist (now : Nat) : ∀ ps : List (Party ι),
    (((ps.map fun p => p.expire now).filterMap fun p => p.holderState now).map
      (·.instanceId)).Sublist (ps.map (·.instanceId)) := by
  intro ps
  induction ps with
  | nil => exact .slnil
  | cons _ _ ih =>
    simp only [List.map_cons, List.filterMap_cons]
    split
    · exact ih.cons _
    · rename_i h hh
      obtain ⟨row, -, rfl⟩ := Option.map_eq_some_iff.1 hh
      exact ih.cons_cons _

theorem WF.holders_nodup (hw : s.WF cfg) : (s.holders.map (·.instanceId)).Nodup :=
  ((hw.sorted.imp fun h => ne_of_lt h).sublist (holders_sublist s.now s.parties))

theorem WF.holders_fit (hw : s.WF cfg) : ∀ h ∈ s.holders, h.granted ≤ h.ceiling := by
  intro h hh
  obtain ⟨p, hp, row, hrow, rfl⟩ := mem_holders.1 hh
  exact ((hw.party p hp).expire.row row hrow).granted_le

theorem WF.allocation_row (hw : s.WF cfg) (hp : p ∈ s.parties) {row : HolderRow}
    (hrow : (p.expire s.now).row = some row) :
    let h := row.holderState p.instanceId s.now
    let u := newGrant (s.allocation cfg).changed h
    (h.active cfg.policy = true → row.ceiling ≤ u.2) ∧ u.1 ≤ u.2 ∧
      (h.active cfg.policy = false → u.1 = 0 ∧ u.2 = 0) :=
  allocate_holder hw.holders_nodup hw.holders_fit (mem_holders.2 ⟨p, hp, row, hrow, rfl⟩)

theorem Moved.instanceId (hm : Moved cfg s a p p') : p'.instanceId = p.instanceId := by
  rcases hm with rfl | ⟨act, -, hs⟩ | ⟨-, rfl⟩
  · rfl
  · cases hs <;> rfl
  · rw [Party.update_eq]
    rfl

theorem WF.moved (hw : s.WF cfg) (hp : p ∈ s.parties) (hm : Moved cfg s a p p') :
    p'.WF cfg s.now := by
  rcases hm with rfl | ⟨act, -, hs⟩ | ⟨-, rfl⟩
  · exact hw.party _ hp
  · exact (hw.party p hp).step hs
  · exact (hw.party p hp).expire.update fun row hrow => (hw.allocation_row hp hrow).2.1

theorem map_instanceId_of_moved {ps ps' : List (Party ι)}
    (h : List.Forall₂ (Moved cfg s a) ps ps') :
    ps'.map (·.instanceId) = ps.map (·.instanceId) := by
  induction h with
  | nil => rfl
  | cons hm _ ih => rw [List.map_cons, List.map_cons, ih, hm.instanceId]

theorem WF.step (hw : s.WF cfg) (hs : s.step cfg a = some s') : s'.WF cfg where
  sorted := by
    rw [map_instanceId_of_moved (step_moved hs)]
    exact hw.sorted
  party p' hp' := by
    obtain ⟨p, hp, hm⟩ := forall₂_mem_right (step_moved hs) hp'
    exact (hw.moved hp hm).tick (step_now hs)

theorem WF.initial (h : s.initial) : s.WF cfg := by
  obtain ⟨ids, hids, rfl⟩ := h
  refine ⟨?_, ?_⟩
  · simpa [List.map_map, Function.comp_def] using hids
  · intro p hp
    obtain ⟨id, -, rfl⟩ := List.mem_map.1 hp
    exact Party.WF.fresh _ _ _

theorem WF.covered_step (hw : s.WF cfg) (hs : s.step cfg a = some s') (hp : p ∈ s.parties)
    (hm : Moved cfg s a p p') (hc : p.Covered cfg s.now)
    (ht : a = .runAllocation → p.timely cfg s.now)
    (hok : ∀ act, a = .holder p.instanceId act → ∀ m ∈ p.sent, act = .process m.call →
      p.harmless m) : p'.Covered cfg s'.now := by
  refine Party.Covered.tick ?_ (step_now hs)
  rcases hm with rfl | ⟨act, ha, hst⟩ | ⟨ha, rfl⟩
  · exact hc
  · exact hc.step (hw.party p hp) hst (hok act ha)
  · have htime := ht ha
    refine (hc.expire htime).update (hw.party p hp).expire (hc.timely_expire htime) ?_
    exact fun row hrow => (hw.allocation_row hp hrow).1

theorem covered_initial (h : s.initial) : ∀ p ∈ s.parties, p.Covered cfg s.now := by
  obtain ⟨ids, -, rfl⟩ := h
  intro p hp
  obtain ⟨id, -, rfl⟩ := List.mem_map.1 hp
  exact Party.Covered.fresh _ _ _

end Sys

end QueryFlux.Quota
