import QueryFlux.Quota.AllocateSpec
import QueryFlux.Quota.Party

/-!
# A holder's row covers what the holder may use

The argument for one holder. A row *covers* a grant when its ceiling is at least the grant's
quota and no later sequence number has been handed out, except to a grant as large. A report
lowers the ceiling only when it has seen the row's latest sequence number, and a holder that
has seen it enforces at most the row's grant; a pass raises the sequence number whenever it
changes the grant, and never lowers the ceiling of a holder in time. So the row goes on
covering the quota the holder enforces (`Covered.quota`), the answer under way to it
(`Covered.answer`), and the queries it runs (`Covered.running`).

What is true in every run whatever its environment does is `WF`.
-/

namespace QueryFlux.Quota

open Lib

theorem toI64_le (v : Nat) : toI64 v ≤ i64Max := Nat.min_le_right _ _

theorem toI64_le_self (v : Nat) : toI64 v ≤ v := Nat.min_le_left _ _

theorem toI64_mono {v w : Nat} (h : v ≤ w) : toI64 v ≤ toI64 w := by
  unfold toI64
  omega

theorem le_toI64 {v w : Nat} (h : v ≤ w) (hv : v ≤ i64Max) : v ≤ toI64 w := Nat.le_min.2 ⟨h, hv⟩

theorem toI64_of_le {v : Nat} (hv : v ≤ i64Max) : toI64 v = v := Nat.min_eq_left hv

namespace HolderRow

structure WF (cfg : Settings) (now : Nat) (h : HolderRow) : Prop where
  granted_le : h.granted ≤ h.ceiling
  ceiling_le : h.ceiling ≤ i64Max
  reported : h.reportedAt ≤ now
  max_le : h.maxRunning ≤ cfg.maxRunningQueries

/-- The row counts capacity `g`, and still will once a report that has seen `g` is processed. -/
structure Covers (h : HolderRow) (g : QuotaGrant) : Prop where
  quota : g.quota ≤ h.ceiling
  seq : g.seq ≤ h.grantSeq
  latest : g.seq = h.grantSeq → g.quota ≤ h.granted

variable {cfg : Settings} {now : Nat} {h : HolderRow} {g : QuotaGrant}

theorem WF.covers_grant (hw : h.WF cfg now) : h.Covers h.grant where
  quota := hw.granted_le
  seq := Nat.le_refl _
  latest _ := Nat.le_refl _

theorem WF.reportDemand {row : Option HolderRow} (hw : ∀ h, row = some h → h.WF cfg now)
    {r : DemandReport} (hr : r.maxRunningQueries ≤ cfg.maxRunningQueries) :
    (HolderRow.reportDemand row r now).WF cfg now := by
  have hmax := (toI64_le_self r.maxRunningQueries).trans hr
  cases row with
  | none => exact ⟨Nat.le_refl _, Nat.zero_le _, Nat.le_refl _, hmax⟩
  | some h =>
    have h0 := hw h rfl
    refine ⟨?_, ?_, Nat.le_refl _, hmax⟩
    · simp only [HolderRow.reportDemand]
      split
      · exact Nat.le_refl _
      · exact h0.granted_le
    · simp only [HolderRow.reportDemand]
      split
      · exact h0.granted_le.trans h0.ceiling_le
      · exact h0.ceiling_le

theorem WF.update (hw : h.WF cfg now) {granted ceiling : Nat} (hle : granted ≤ ceiling) :
    (h.update granted ceiling).WF cfg now where
  granted_le := toI64_mono hle
  ceiling_le := toI64_le _
  reported := hw.reported
  max_le := hw.max_le

theorem Covers.reportDemand (hc : h.Covers g) {r : DemandReport}
    (hseen : toI64 r.seenSeq ≤ g.seq ∨ toI64 r.seenSeq < h.grantSeq) :
    (HolderRow.reportDemand (some h) r now).Covers g where
  quota := by
    simp only [HolderRow.reportDemand]
    split_ifs with hge
    · have hseq := hc.seq
      exact hc.latest (by omega)
    · exact hc.quota
  seq := hc.seq
  latest := hc.latest

theorem Covers.update (hc : h.Covers g) {granted ceiling : Nat}
    (hle : h.ceiling ≤ toI64 ceiling) : (h.update granted ceiling).Covers g where
  quota := hc.quota.trans hle
  seq := by
    have hseq := hc.seq
    simp only [HolderRow.update]
    split <;> omega
  latest := by
    have hseq := hc.seq
    simp only [HolderRow.update]
    split_ifs with hsame
    · intro he
      omega
    · intro he
      rw [← Decidable.not_not.1 hsame]
      exact hc.latest he

end HolderRow

namespace Party

variable {ι : Type} {cfg : Settings} {now : Nat} {p : Party ι}

structure WF (cfg : Settings) (now : Nat) (p : Party ι) : Prop where
  row : ∀ h, p.row = some h → h.WF cfg now
  max_le : p.cq.max ≤ cfg.maxRunningQueries
  sent_max : ∀ m ∈ p.sent, m.report.maxRunningQueries ≤ cfg.maxRunningQueries
  sent_call : ∀ m ∈ p.sent, m.call < p.calls
  processed_le : p.processed ≤ p.calls
  pending_call : ∀ c, p.pending = some c → c.call + 1 = p.calls
  pending_sent : ∀ c, p.pending = some c → c.sentMs ≤ now

theorem WF.fresh (cfg : Settings) (now : Nat) (id : ι) : WF cfg now { instanceId := id } where
  row := nofun
  max_le := Nat.zero_le _
  sent_max := nofun
  sent_call := nofun
  processed_le := Nat.le_refl _
  pending_call := nofun
  pending_sent := nofun

theorem WF.tick (hw : p.WF cfg now) {now' : Nat} (hle : now ≤ now') : p.WF cfg now' where
  row h hh := { hw.row h hh with reported := (hw.row h hh).reported.trans hle }
  max_le := hw.max_le
  sent_max := hw.sent_max
  sent_call := hw.sent_call
  processed_le := hw.processed_le
  pending_call := hw.pending_call
  pending_sent c hc := (hw.pending_sent c hc).trans hle

theorem WF.step (hw : p.WF cfg now) {act : LocalAct} {p' : Party ι}
    (hs : Stepped cfg now p act p') : p'.WF cfg now := by
  cases hs with
  | admitted | denied => exact { hw with max_le := Nat.le_refl _ }
  | release | setPolicy => exact { hw with max_le := hw.max_le }
  | report =>
    refine ⟨hw.row, hw.max_le, ?_, ?_, Nat.le_succ_of_le hw.processed_le, ?_, ?_⟩
    · intro m hm
      rcases mem_append_singleton.1 hm with hm | rfl
      · exact hw.sent_max m hm
      · exact hw.max_le
    · intro m hm
      rcases mem_append_singleton.1 hm with hm | rfl
      · exact Nat.lt_succ_of_lt (hw.sent_call m hm)
      · exact Nat.lt_succ_self _
    · intro c hc
      cases hc
      rfl
    · intro c hc
      cases hc
      exact Nat.le_refl _
  | evictIdle => exact { hw with max_le := Nat.zero_le _ }
  | @process m hm =>
    have hcall := hw.sent_call m hm
    refine ⟨?_, hw.max_le, ?_, ?_, Nat.max_le.2 ⟨hw.processed_le, hcall⟩, ?_, ?_⟩
    · intro h hh
      cases hh
      exact HolderRow.WF.reportDemand hw.row (hw.sent_max m hm)
    · exact fun x hx => hw.sent_max x (List.mem_of_mem_filter hx)
    · exact fun x hx => hw.sent_call x (List.mem_of_mem_filter hx)
    · intro c hc
      obtain ⟨c₀, hc₀, rfl⟩ := Option.map_eq_some_iff.1 hc
      have hcall₀ := hw.pending_call c₀ hc₀
      split <;> exact hcall₀
    · intro c hc
      obtain ⟨c₀, hc₀, rfl⟩ := Option.map_eq_some_iff.1 hc
      have hsent₀ := hw.pending_sent c₀ hc₀
      split <;> exact hsent₀
  | lose =>
    exact { hw with
      sent_max := fun x hx => hw.sent_max x (List.mem_of_mem_filter hx)
      sent_call := fun x hx => hw.sent_call x (List.mem_of_mem_filter hx) }
  | answered | unavailable =>
    exact { hw with
      max_le := hw.max_le
      pending_call := nofun
      pending_sent := nofun }
  | failed =>
    exact { hw with
      pending_call := nofun
      pending_sent := nofun }

theorem WF.expire (hw : p.WF cfg now) : (p.expire now).WF cfg now :=
  { hw with row := fun h hh => hw.row h (Option.eq_some_of_filter_eq_some hh) }

section Pass

variable [DecidableEq ι]

theorem newGrant_holderState (changed : List (Allocation ι)) (h : HolderRow) (id : ι) (now : Nat) :
    newGrant changed (h.holderState id now) =
      match changed.find? fun c => c.instanceId = id with
      | some c => (c.granted, c.ceiling)
      | none => (h.granted, h.ceiling) :=
  rfl

theorem update_row (hw : p.WF cfg now) (changed : List (Allocation ι)) :
    (p.update changed).row = p.row.map fun h =>
      h.update (newGrant changed (h.holderState p.instanceId now)).1
        (newGrant changed (h.holderState p.instanceId now)).2 := by
  cases hr : p.row with
  | none =>
    simp only [update, hr]
    split
    · rfl
    · exact hr
  | some h =>
    have hwf := hw.row h hr
    simp only [update, newGrant_holderState, Option.map_some]
    cases changed.find? fun c => c.instanceId = p.instanceId with
    | some => simp only [hr, Option.map_some]
    | none =>
      -- a row the pass does not write: its values fit their columns
      simp [hr, HolderRow.update, toI64_of_le hwf.ceiling_le,
        toI64_of_le (hwf.granted_le.trans hwf.ceiling_le)]

theorem update_eq (p : Party ι) (changed : List (Allocation ι)) :
    p.update changed = { p with row := (p.update changed).row } := by
  unfold update
  split <;> rfl

theorem WF.update (hw : p.WF cfg now) {changed : List (Allocation ι)}
    (hle : ∀ h, p.row = some h →
      (newGrant changed (h.holderState p.instanceId now)).1 ≤
        (newGrant changed (h.holderState p.instanceId now)).2) :
    (p.update changed).WF cfg now := by
  rw [update_eq]
  refine { hw with row := ?_ }
  intro h' hh'
  simp only [update_row hw] at hh'
  obtain ⟨h, hh, rfl⟩ := Option.map_eq_some_iff.1 hh'
  exact (hw.row h hh).update (hle h hh)

end Pass

/-- The row of a holder counts what the holder enforces and runs, now and after the reports that are
under way. -/
structure Covered (cfg : Settings) (now : Nat) (p : Party ι) : Prop where
  quota : p.live now → ∃ h, p.row = some h ∧ h.Covers ⟨p.cq.quota, p.cq.seq⟩
  running : p.cq.running ≤ p.counted
  running_le : p.cq.running ≤ i64Max
  valid : now < p.cq.validUntilMs →
    ∃ h, p.row = some h ∧ p.cq.validUntilMs ≤ h.reportedAt + cfg.leaseMs
  sent_running : ∀ m ∈ p.sent, p.processed ≤ m.call →
    p.cq.running ≤ max m.report.running p.cq.quota
  sent_seen : ∀ m ∈ p.sent, p.processed ≤ m.call → p.live now → m.report.seenSeq ≤ p.cq.seq
  pending_valid : ∀ c, p.pending = some c → p.cq.validUntilMs ≤ c.sentMs + cfg.leaseMs
  answer_processed : ∀ c g, p.pending = some c → c.answer = some g → c.call < p.processed
  answer : ∀ c g, p.pending = some c → c.answer = some g →
    now < c.sentMs + cfg.leaseMs ∨ 0 < p.cq.running →
      ∃ h, p.row = some h ∧ h.Covers g ∧ c.sentMs ≤ h.reportedAt

theorem live_iff : p.live now ↔ now < p.cq.validUntilMs ∨ 0 < p.cq.running := by
  simp [live]

theorem Covered.fresh (cfg : Settings) (now : Nat) (id : ι) :
    Covered cfg now { instanceId := id } where
  quota h := by simp [live] at h
  running := Nat.zero_le _
  running_le := Nat.zero_le _
  valid h := absurd h (Nat.not_lt_zero _)
  sent_running := nofun
  sent_seen := nofun
  pending_valid := nofun
  answer_processed := nofun
  answer := nofun

theorem live_tick {now' : Nat} (hle : now ≤ now') (hl : p.live now') : p.live now := by
  rw [live_iff] at hl ⊢
  rcases hl with hv | hr
  · exact Or.inl (hle.trans_lt hv)
  · exact Or.inr hr

theorem Covered.tick (hc : p.Covered cfg now) {now' : Nat} (hle : now ≤ now') :
    p.Covered cfg now' :=
  { hc with
    quota := fun hl => hc.quota (live_tick hle hl)
    valid := fun hv => hc.valid (hle.trans_lt hv)
    sent_seen := fun m hm hp hl => hc.sent_seen m hm hp (live_tick hle hl)
    answer := fun c g hp ha hu => hc.answer c g hp ha (hu.imp (Nat.lt_of_le_of_lt hle) id) }

theorem Covered.le_counted (hc : p.Covered cfg now) :
    max (p.enforcedQuota now) p.cq.running ≤ p.counted := by
  refine Nat.max_le.2 ⟨?_, hc.running⟩
  unfold enforcedQuota
  split_ifs with hv
  · obtain ⟨h, hh, hcov⟩ := hc.quota (live_iff.2 (Or.inl hv))
    simp only [counted, hh, Option.elim_some, HolderRow.counted]
    exact hcov.quota.trans (Nat.le_max_left _ _)
  · exact Nat.zero_le _

/-! ### One step -/

variable {m : Sent} {h : HolderRow}

theorem harmless_iff : p.harmless m ↔ p.processed ≤ m.call ∨
    ∀ h, p.row = some h → h.running ≤ toI64 m.report.running ∧
      toI64 m.report.seenSeq < h.grantSeq := by
  cases hr : p.row <;> simp [harmless, hr]

theorem Covered.admitted (hc : p.Covered cfg now) (hw : p.WF cfg now)
    (hv : now < p.cq.validUntilMs) (hq : p.cq.running < p.cq.quota) :
    Covered cfg now
      { p with
        cq := { p.cq with max := cfg.maxRunningQueries, running := p.cq.running + 1 } } := by
  have hl : p.live now := live_iff.2 (Or.inl hv)
  obtain ⟨h, hh, hcov⟩ := hc.quota hl
  have hceil : p.cq.running + 1 ≤ h.ceiling := Nat.le_trans hq hcov.quota
  refine { hc with quota := fun _ => ⟨h, hh, hcov⟩, running := ?_, running_le := ?_,
                   sent_running := ?_, sent_seen := ?_, answer := ?_ }
  · simp only [counted, hh, Option.elim_some, HolderRow.counted]
    exact hceil.trans (Nat.le_max_left _ _)
  · exact hceil.trans (hw.row h hh).ceiling_le
  · exact fun m _ _ => Nat.le_trans hq (Nat.le_max_right _ _)
  · exact fun m hm hp _ => hc.sent_seen m hm hp hl
  · intro c g hp ha _
    exact hc.answer c g hp ha (Or.inl (hv.trans_le (hc.pending_valid c hp)))

theorem Covered.release (hc : p.Covered cfg now) :
    Covered cfg now { p with cq := p.cq.release } := by
  have hle : p.cq.release.running ≤ p.cq.running := Nat.sub_le _ _
  have hlive : Party.live { p with cq := p.cq.release } now → p.live now := by
    simp only [live_iff]
    exact fun hl => hl.imp id (Nat.lt_of_lt_of_le · hle)
  exact { hc with
    quota := fun hl => hc.quota (hlive hl)
    running := hle.trans hc.running
    running_le := hle.trans hc.running_le
    sent_running := fun m hm hp => hle.trans (hc.sent_running m hm hp)
    sent_seen := fun m hm hp hl => hc.sent_seen m hm hp (hlive hl)
    answer := fun c g hp ha hu => hc.answer c g hp ha (hu.imp id (Nat.lt_of_lt_of_le · hle)) }

theorem Covered.report (hc : p.Covered cfg now) (hw : p.WF cfg now) (waiting : Nat) :
    Covered cfg now
      { p with
        calls := p.calls + 1
        sent := p.sent ++ [⟨p.calls, p.cq.report waiting⟩]
        pending := some ⟨p.calls, now, none⟩ } := by
  refine { hc with sent_running := ?_, sent_seen := ?_, pending_valid := ?_,
                   answer_processed := ?_, answer := ?_ }
  · intro m hm hp
    rcases mem_append_singleton.1 hm with hm | rfl
    · exact hc.sent_running m hm hp
    · exact Nat.le_max_left _ _
  · intro m hm hp hl
    rcases mem_append_singleton.1 hm with hm | rfl
    · exact hc.sent_seen m hm hp hl
    · exact Nat.le_refl _
  · intro c hp
    cases hp
    by_cases hv : now < p.cq.validUntilMs
    · obtain ⟨h, hh, hle⟩ := hc.valid hv
      have := (hw.row h hh).reported
      show p.cq.validUntilMs ≤ now + cfg.leaseMs
      omega
    · show p.cq.validUntilMs ≤ now + cfg.leaseMs
      omega
  · intro c g hp ha
    cases hp
    cases ha
  · intro c g hp ha
    cases hp
    cases ha

theorem reportDemand_running (row : Option HolderRow) (r : DemandReport) :
    (HolderRow.reportDemand row r now).running = toI64 r.running := by
  cases row <;> rfl

theorem reportDemand_reportedAt (row : Option HolderRow) (r : DemandReport) :
    (HolderRow.reportDemand row r now).reportedAt = now := by
  cases row <;> rfl

theorem counted_processReport (p : Party ι) (m : Sent) :
    (p.processReport now m).counted =
      max (HolderRow.reportDemand p.row m.report now).ceiling (toI64 m.report.running) := by
  simp [counted, processReport, HolderRow.counted, reportDemand_running]

theorem processReport_pending {c' : PendingCall} (hp : (p.processReport now m).pending = some c') :
    ∃ c, p.pending = some c ∧ c'.call = c.call ∧ c'.sentMs = c.sentMs ∧
      (c'.answer = c.answer ∨ c.call = m.call ∧
        c'.answer = some (HolderRow.reportDemand p.row m.report now).grant) := by
  obtain ⟨c, hc, rfl⟩ := Option.map_eq_some_iff.1 hp
  refine ⟨c, hc, ?_⟩
  split
  · exact ⟨rfl, rfl, Or.inr ⟨‹_›, rfl⟩⟩
  · exact ⟨rfl, rfl, Or.inl rfl⟩

section
variable (hc : p.Covered cfg now)
include hc

theorem Covered.process_quota (hm : m ∈ p.sent) (hok : p.harmless m) (hl : p.live now) :
    (HolderRow.reportDemand p.row m.report now).Covers ⟨p.cq.quota, p.cq.seq⟩ := by
  obtain ⟨h, hh, hcov⟩ := hc.quota hl
  rw [hh]
  refine hcov.reportDemand ?_
  rcases harmless_iff.1 hok with hord | hover
  · exact Or.inl ((toI64_le_self _).trans (hc.sent_seen m hm hord hl))
  · exact Or.inr (hover h hh).2

theorem Covered.process_running (hm : m ∈ p.sent) (hok : p.harmless m) :
    p.cq.running ≤ (p.processReport now m).counted := by
  rw [counted_processReport]
  rcases harmless_iff.1 hok with hord | hover
  · by_cases hr : 0 < p.cq.running
    · have hq := (hc.process_quota hm hok (live_iff.2 (Or.inr hr))).quota
      rcases le_max_iff.1 (hc.sent_running m hm hord) with hle | hle
      · exact (le_toI64 hle hc.running_le).trans (Nat.le_max_right _ _)
      · exact hle.trans (hq.trans (Nat.le_max_left _ _))
    · exact (Nat.le_of_not_lt hr).trans (Nat.zero_le _)
  · -- an overtaken report leaves the ceiling and does not lower the running count
    have hr := hc.running
    cases hh : p.row with
    | none =>
      simp only [counted, hh, Option.elim_none] at hr
      exact hr.trans (Nat.zero_le _)
    | some h =>
      obtain ⟨hrun, hseen⟩ := hover h hh
      simp only [counted, hh, Option.elim_some, HolderRow.counted] at hr
      simp only [HolderRow.reportDemand, ge_iff_le, Nat.not_le.2 hseen, if_false]
      omega

theorem Covered.process_answer (hw : p.WF cfg now) (hm : m ∈ p.sent) (hok : p.harmless m)
    {c : PendingCall} {g : QuotaGrant} (hp : p.pending = some c) (ha : c.answer = some g)
    (hu : now < c.sentMs + cfg.leaseMs ∨ 0 < p.cq.running) :
    (HolderRow.reportDemand p.row m.report now).Covers g := by
  obtain ⟨h, hh, hcov, -⟩ := hc.answer c g hp ha hu
  rw [hh]
  refine hcov.reportDemand (Or.inr ?_)
  rcases harmless_iff.1 hok with hord | hover
  · have h1 := hw.sent_call m hm
    have h2 := hw.pending_call c hp
    have h3 := hc.answer_processed c g hp ha
    omega
  · exact (hover h hh).2

theorem Covered.process (hw : p.WF cfg now) (hm : m ∈ p.sent) (hok : p.harmless m) :
    (p.processReport now m).Covered cfg now := by
  have hold : ∀ {x : Sent}, (p.processReport now m).processed ≤ x.call → p.processed ≤ x.call :=
    Nat.le_trans (Nat.le_max_left _ _)
  refine { quota := fun hl => ⟨_, rfl, hc.process_quota hm hok hl⟩
           running := hc.process_running hm hok
           running_le := hc.running_le
           valid := ?_
           sent_running := fun x hx hp => hc.sent_running x (List.mem_of_mem_filter hx) (hold hp)
           sent_seen := fun x hx hp => hc.sent_seen x (List.mem_of_mem_filter hx) (hold hp)
           pending_valid := ?_
           answer_processed := ?_
           answer := ?_ }
  · intro hv
    obtain ⟨h, hh, hle⟩ := hc.valid hv
    refine ⟨_, rfl, ?_⟩
    rw [reportDemand_reportedAt]
    exact hle.trans (Nat.add_le_add_right (hw.row h hh).reported _)
  · intro c' hp'
    obtain ⟨c, hp, -, hsent, -⟩ := processReport_pending hp'
    rw [hsent]
    exact hc.pending_valid c hp
  · intro c' g hp' ha'
    obtain ⟨c, hp, hcall, -, hans⟩ := processReport_pending hp'
    rw [hcall]
    rcases hans with hans | ⟨he, -⟩
    · exact (hc.answer_processed c g hp (hans ▸ ha')).trans_le (Nat.le_max_left _ _)
    · rw [he]
      exact Nat.le_max_right _ _
  · intro c' g hp' ha' hu
    obtain ⟨c, hp, -, hsent, hans⟩ := processReport_pending hp'
    rw [hsent] at hu ⊢
    refine ⟨_, rfl, ?_, ?_⟩
    · rcases hans with hans | ⟨-, hans⟩
      · exact hc.process_answer hw hm hok hp (hans ▸ ha') hu
      · obtain rfl := Option.some.inj (hans.symm.trans ha')
        exact (HolderRow.WF.reportDemand hw.row (hw.sent_max m hm)).covers_grant
    · rw [reportDemand_reportedAt]
      exact hw.pending_sent c hp

theorem Covered.answered (hw : p.WF cfg now) {c : PendingCall} {g : QuotaGrant}
    (hp : p.pending = some c) (ha : c.answer = some g) : Covered cfg now
      { p with cq := p.cq.applyGrant g (c.sentMs + cfg.leaseMs), pending := none } := by
  have hpast : ∀ m ∈ p.sent, ¬ p.processed ≤ m.call := by
    intro m hm hle
    have h1 := hw.sent_call m hm
    have h2 := hw.pending_call c hp
    have h3 := hc.answer_processed c g hp ha
    omega
  refine { quota := ?_
           running := hc.running
           running_le := hc.running_le
           valid := ?_
           sent_running := fun m hm hle => absurd hle (hpast m hm)
           sent_seen := fun m hm hle => absurd hle (hpast m hm)
           pending_valid := nofun
           answer_processed := nofun
           answer := nofun }
  · intro hl
    obtain ⟨h, hh, hcov, -⟩ := hc.answer c g hp ha (live_iff.1 hl)
    exact ⟨h, hh, hcov⟩
  · intro hv
    obtain ⟨h, hh, -, hsent⟩ := hc.answer c g hp ha (Or.inl hv)
    exact ⟨h, hh, Nat.add_le_add_right hsent _⟩

/-- A step of the replica keeps it covered, if no report is processed that would uncover it. -/
theorem Covered.step (hw : p.WF cfg now) {act : LocalAct} {p' : Party ι}
    (hs : Stepped cfg now p act p') (hok : ∀ m ∈ p.sent, act = .process m.call → p.harmless m) :
    p'.Covered cfg now := by
  cases hs with
  | admitted hv hq => exact hc.admitted hw hv hq
  | denied | setPolicy => exact { hc with quota := hc.quota, sent_seen := hc.sent_seen }
  | release => exact hc.release
  | report waiting => exact hc.report hw waiting
  | evictIdle hp =>
    have hdead : ¬ Party.live { p with cq := {} } now := by simp [live]
    exact { quota := fun hl => absurd hl hdead
            running := Nat.zero_le _
            running_le := Nat.zero_le _
            valid := fun hv => absurd hv (Nat.not_lt_zero _)
            sent_running := fun _ _ _ => Nat.zero_le _
            sent_seen := fun _ _ _ hl => absurd hl hdead
            pending_valid := fun _ _ => Nat.zero_le _
            answer_processed := fun c _ h => absurd (hp.symm.trans h) (by simp)
            answer := fun c _ h => absurd (hp.symm.trans h) (by simp) }
  | process hm => exact hc.process hw hm (hok _ hm rfl)
  | lose =>
    exact { hc with
      sent_running := fun m hm => hc.sent_running m (List.mem_of_mem_filter hm)
      sent_seen := fun m hm => hc.sent_seen m (List.mem_of_mem_filter hm) }
  | answered hp ha => exact hc.answered hw hp ha
  | failed =>
    exact { hc with
      pending_valid := nofun
      answer_processed := nofun
      answer := nofun }
  | unavailable =>
    have hlive : 0 < p.cq.running → p.live now := fun hr => live_iff.2 (Or.inr hr)
    have hdead : ∀ {q : Party ι}, q.cq = { p.cq with validUntilMs := 0 } → q.live now →
        0 < p.cq.running := by
      intro q hq hl
      simpa [live, hq] using hl
    exact { quota := fun hl => hc.quota (hlive (hdead rfl hl))
            running := hc.running
            running_le := hc.running_le
            valid := fun hv => absurd hv (Nat.not_lt_zero _)
            sent_running := hc.sent_running
            sent_seen := fun m hm hp hl => hc.sent_seen m hm hp (hlive (hdead rfl hl))
            pending_valid := nofun
            answer_processed := nofun
            answer := nofun }

end

/-! ### One pass -/

theorem expire_row (ht : p.timely cfg now) (hh : p.row = some h)
    (hu : now < h.reportedAt + cfg.leaseMs ∨ 0 < p.cq.running) : (p.expire now).row = some h := by
  have hkept : h.kept now := by
    rcases hu with hv | hr
    · have hlease := Nat.mul_le_mul_right 1000 cfg.lease_le
      simp only [HolderRow.kept, decide_eq_true_eq]
      unfold Settings.leaseMs at hv
      omega
    · obtain ⟨h', hh', -, hk⟩ := timely_iff.1 ht (live_iff.2 (Or.inr hr))
      obtain rfl := Option.some.inj (hh.symm.trans hh')
      exact hk hr
  simp [expire, hh, hkept]

theorem Covered.expire_live (hc : p.Covered cfg now) (ht : p.timely cfg now) (hh : p.row = some h)
    (hl : p.live now) : (p.expire now).row = some h := by
  refine expire_row ht hh ?_
  rcases live_iff.1 hl with hv | hr
  · obtain ⟨h', hh', hle⟩ := hc.valid hv
    obtain rfl := Option.some.inj (hh.symm.trans hh')
    exact Or.inl (hv.trans_le hle)
  · exact Or.inr hr

theorem Covered.expire (hc : p.Covered cfg now) (ht : p.timely cfg now) :
    (p.expire now).Covered cfg now := by
  refine { hc with quota := ?_, running := ?_, valid := ?_, answer := ?_ }
  · intro hl
    obtain ⟨h, hh, hcov⟩ := hc.quota hl
    exact ⟨h, hc.expire_live ht hh hl, hcov⟩
  · by_cases hr : 0 < p.cq.running
    · have hl : p.live now := live_iff.2 (Or.inr hr)
      obtain ⟨h, hh, -⟩ := hc.quota hl
      have hrun := hc.running
      simp only [counted, hc.expire_live ht hh hl, hh] at hrun ⊢
      exact hrun
    · exact (Nat.le_of_not_lt hr).trans (Nat.zero_le _)
  · intro hv
    obtain ⟨h, hh, hle⟩ := hc.valid hv
    exact ⟨h, hc.expire_live ht hh (live_iff.2 (Or.inl hv)), hle⟩
  · intro c g hp ha hu
    obtain ⟨h, hh, hcov, hsent⟩ := hc.answer c g hp ha hu
    refine ⟨h, expire_row ht hh (hu.imp (fun hv => ?_) id), hcov, hsent⟩
    exact hv.trans_le (Nat.add_le_add_right hsent _)

theorem Covered.timely_expire (hc : p.Covered cfg now) (ht : p.timely cfg now) :
    (p.expire now).timely cfg now := by
  rw [timely_iff] at ht ⊢
  intro hl
  obtain ⟨h, hh, hsilent⟩ := ht hl
  exact ⟨h, hc.expire_live (timely_iff.2 ht) hh hl, hsilent⟩

theorem active_of_lease (hw : h.WF cfg now) (id : ι) (hu : now < h.reportedAt + cfg.leaseMs) :
    (h.holderState id now).active cfg.policy := by
  have hsilent : (now - h.reportedAt) / 1000 < cfg.policy.leaseSecs + cfg.policy.marginSecs := by
    have hrep := hw.reported
    unfold Settings.leaseMs at hu
    omega
  exact decide_eq_true hsilent

theorem active_of_live (ht : p.timely cfg now) (hh : p.row = some h) (hl : p.live now) :
    (h.holderState p.instanceId now).active cfg.policy := by
  obtain ⟨h', hh', hsilent, -⟩ := timely_iff.1 ht hl
  obtain rfl := Option.some.inj (hh.symm.trans hh')
  exact decide_eq_true hsilent

theorem Covered.update [DecidableEq ι] (hc : p.Covered cfg now) (hw : p.WF cfg now)
    (ht : p.timely cfg now) {changed : List (Allocation ι)}
    (hkeep : ∀ h, p.row = some h → (h.holderState p.instanceId now).active cfg.policy →
      h.ceiling ≤ (newGrant changed (h.holderState p.instanceId now)).2) :
    (p.update changed).Covered cfg now := by
  have hrow := update_row hw changed
  have hceil : ∀ h, p.row = some h → (h.holderState p.instanceId now).active cfg.policy →
      h.ceiling ≤ toI64 (newGrant changed (h.holderState p.instanceId now)).2 :=
    fun h hh hact => le_toI64 (hkeep h hh hact) (hw.row h hh).ceiling_le
  rw [update_eq]
  refine { hc with quota := ?_, running := ?_, valid := ?_, answer := ?_ }
  · intro hl
    obtain ⟨h, hh, hcov⟩ := hc.quota hl
    refine ⟨_, by rw [hrow, hh, Option.map_some], ?_⟩
    exact hcov.update (hceil h hh (active_of_live ht hh hl))
  · by_cases hr : 0 < p.cq.running
    · have hl : p.live now := live_iff.2 (Or.inr hr)
      obtain ⟨h, hh, -⟩ := hc.quota hl
      have hrun := hc.running
      have hle := hceil h hh (active_of_live ht hh hl)
      simp only [counted, hrow, hh, Option.map_some, Option.elim_some, HolderRow.counted,
        HolderRow.update] at hrun ⊢
      omega
    · exact (Nat.le_of_not_lt hr).trans (Nat.zero_le _)
  · intro hv
    obtain ⟨h, hh, hle⟩ := hc.valid hv
    refine ⟨_, by rw [hrow, hh, Option.map_some], ?_⟩
    exact hle
  · intro c g hp ha hu
    obtain ⟨h, hh, hcov, hsent⟩ := hc.answer c g hp ha hu
    refine ⟨_, by rw [hrow, hh, Option.map_some], hcov.update (hceil h hh ?_), hsent⟩
    rcases hu with hv | hr
    · refine active_of_lease (hw.row h hh) _ ?_
      exact hv.trans_le (Nat.add_le_add_right hsent _)
    · exact active_of_live ht hh (live_iff.2 (Or.inr hr))

end Party

end QueryFlux.Quota
