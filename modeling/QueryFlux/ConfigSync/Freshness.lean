import QueryFlux.ConfigSync.Fleet

/-!
# How old a configuration can be

Where every worker asks the control plane itself, a copied configuration was confirmed by the
control plane at most `maxAgeSecs` before it is activated, give or take the time between an answer
and the moment the worker notes it (`copied_config_confirmed`), and a worker that says its
configuration is not stale has had it confirmed since it obtained it.

Behind a hub this fails: what a hub answers counts as the control plane's confirmation, also when
the hub has its snapshot from disk (`hub_refreshes_old_config`).
-/

namespace QueryFlux.ConfigSync

open Lib

/-! ## What is claimed -/

/-- A copied configuration was confirmed by the control plane before it was activated, and at most
`slack` seconds more than allowed. -/
def CopiesAllowed (fleet : Fleet) (slack : Nat) (s : State) : Prop :=
  ∀ i snapshot t, (i, snapshot, t) ∈ s.bootstraps → ∃ peer a, fleet.peerBootstrap i = some peer ∧
    (snapshot, a) ∈ s.answers ∧ a ≤ t ∧ t ≤ a + peer.maxAgeSecs + slack

/-- A configuration that is not stale was confirmed by the control plane since it was obtained. -/
def FreshConfirmed (s : State) : Prop :=
  ∀ i snapshot, (s.workers i).active = some snapshot → (s.workers i).stale = false →
    ∃ a, (snapshot, a) ∈ s.answers ∧ (s.workers i).obtainedAt ≤ a

/-- When something was told or checked that is now to be noted as a time of the worker's own. -/
def Phase.toNote : Phase → Option Nat
  | .answered .unchanged answeredAt => some answeredAt
  | .activating _ answeredAt => some answeredAt
  | .activatingPeer _ _ checkedAt => some checkedAt
  | _ => none

def noted (delay : Nat) (s : State) (i : Nat) : Bool :=
  match (s.workers i).phase.toNote with
  | none => true
  | some t => s.now ≤ t + delay

/-- An answer is noted within the delay. -/
def prompt (delay : Nat) (s : State) : Act → Bool
  | .receive i => noted delay s i
  | .activated i _ => noted delay s i
  | .activatedPeer i _ => noted delay s i
  | _ => true

/-! ## What a worker knows -/

section Invariant

/-- The control plane answered with this snapshot, at most the delay before. -/
def Stamped (delay : Nat) (answers : List (Snapshot × Nat)) (snapshot : Snapshot) (t : Nat) :
    Prop :=
  ∃ a, (snapshot, a) ∈ answers ∧ t ≤ a + delay

def PhaseSound (delay : Nat) (answers : List (Snapshot × Nat)) (peer : Option PeerBootstrap)
    (w : Worker) : Phase → Prop
  | .asking mode _ => mode = fetchMode w.active w.stale
  | .answered .unchanged t => ∃ c, w.active = some c ∧ (c, t) ∈ answers ∧ w.obtainedAt ≤ t
  | .answered (.new c) t => (c, t) ∈ answers
  | .activating c t => (c, t) ∈ answers
  | .offered c k => Stamped delay answers c k
  | .activatingPeer c k t => Stamped delay answers c k ∧
      ∃ p, peer = some p ∧ t ≤ k + p.maxAgeSecs
  | .idle => True
  | .askingPeers => True

structure Sound (delay : Nat) (answers : List (Snapshot × Nat)) (now : Nat)
    (peer : Option PeerBootstrap) (w : Worker) : Prop where
  obtained : w.obtainedAt ≤ now
  active : ∀ c, w.active = some c → ∃ k, w.confirmedAt = some k ∧ Stamped delay answers c k
  fresh : ∀ c, w.active = some c → w.stale = false → ∃ a, (c, a) ∈ answers ∧ w.obtainedAt ≤ a
  phase : PhaseSound delay answers peer w w.phase

structure Inv (fleet : Fleet) (delay : Nat) (s : State) : Prop where
  past : ∀ c a, (c, a) ∈ s.answers → a ≤ s.now
  workers : ∀ i, Sound delay s.answers s.now (fleet.peerBootstrap i) (s.workers i)
  copies : CopiesAllowed fleet (2 * delay) s

variable {fleet : Fleet} {delay now now' : Nat} {answers answers' : List (Snapshot × Nat)}
  {peer : Option PeerBootstrap} {w : Worker} {s s' : State} {i : Nat}

theorem Stamped.mono {c : Snapshot} {t : Nat} (h : Stamped delay answers c t)
    (hsub : answers ⊆ answers') : Stamped delay answers' c t := by
  obtain ⟨a, ha, ht⟩ := h
  exact ⟨a, hsub ha, ht⟩

theorem Sound.mono (h : Sound delay answers now peer w) (hsub : answers ⊆ answers')
    (hnow : now ≤ now') : Sound delay answers' now' peer w where
  obtained := Nat.le_trans h.obtained hnow
  active := by
    intro c hc
    obtain ⟨k, hk, hstamped⟩ := h.active c hc
    exact ⟨k, hk, hstamped.mono hsub⟩
  fresh := by
    intro c hc hstale
    obtain ⟨a, ha, hle⟩ := h.fresh c hc hstale
    exact ⟨a, hsub ha, hle⟩
  phase := by
    have hphase := h.phase
    unfold PhaseSound at hphase ⊢
    split at hphase
    · exact hphase
    · obtain ⟨c, hc, hmem, hle⟩ := hphase
      exact ⟨c, hc, hsub hmem, hle⟩
    · exact hsub hphase
    · exact hsub hphase
    · exact hphase.mono hsub
    · exact ⟨hphase.1.mono hsub, hphase.2⟩
    · trivial
    · trivial

theorem Inv.setWorker (h : Inv fleet delay s)
    (hw : Sound delay s.answers s.now (fleet.peerBootstrap i) w) :
    Inv fleet delay (s.setWorker i w) where
  past := h.past
  workers := by
    intro j
    by_cases hj : j = i
    · subst hj
      simpa [State.setWorker] using hw
    · simpa [State.setWorker, hj] using h.workers j
  copies := h.copies

theorem Inv.setHub (h : Inv fleet delay s) (k : Nat) (hub : Hub) :
    Inv fleet delay (s.setHub k hub) :=
  ⟨h.past, h.workers, h.copies⟩

theorem Sound.setPhase (h : Sound delay answers now peer w) {phase : Phase}
    (hphase : PhaseSound delay answers peer w phase) :
    Sound delay answers now peer { w with phase := phase } where
  obtained := h.obtained
  active := h.active
  fresh := h.fresh
  phase := by
    cases phase <;> exact hphase

end Invariant

section Steps

variable {fleet : Fleet} {delay now : Nat} {answers : List (Snapshot × Nat)}
  {peer : Option PeerBootstrap} {w w' : Worker}

theorem sound_start (now : Nat) : Sound delay answers now peer (.start now) where
  obtained := Nat.le_refl now
  active := by
    nofun
  fresh := by
    nofun
  phase := trivial

theorem phaseSound_respond {mode : FetchMode} (h : Sound delay answers now peer w)
    (hmode : mode = fetchMode w.active w.stale) (read : Snapshot) :
    PhaseSound delay ((read, now) :: answers) peer w (.answered (respond read mode) now) := by
  have hnew : PhaseSound delay ((read, now) :: answers) peer w (.answered (.new read) now) :=
    (.head _)
  subst hmode
  unfold fetchMode
  cases hactive : w.active with
  | none => exact hnew
  | some rev =>
    have hrespond : respond read (if w.stale = true then .check rev else .wait rev) =
        if rev = read then .unchanged else .new read := by
      split <;> rfl
    simp only [hrespond]
    by_cases hrev : rev = read
    · subst hrev
      rw [if_pos rfl]
      exact ⟨rev, hactive, .head _, h.obtained⟩
    · rw [if_neg hrev]
      exact hnew

theorem Sound.afterFailure (h : Sound delay answers now peer w) (p : Option PeerBootstrap) :
    Sound delay answers now peer (w.afterFailure p now) := by
  unfold Worker.afterFailure
  split
  · exact h.setPhase trivial
  · split <;> exact h.setPhase trivial

theorem Sound.confirmed {c : Snapshot} {t : Nat} (hactive : w.active = some c)
    (hmem : (c, t) ∈ answers) (hobtained : w.obtainedAt ≤ t) (ht : t ≤ now)
    (hdelay : now ≤ t + delay) :
    Sound delay answers now peer { w.confirmed now with phase := .idle } := by
  have hconfirmed : w.confirmed now = { w with stale := false, confirmedAt := some now } := by
    rw [Worker.confirmed, if_neg (by simp [hactive])]
  rw [hconfirmed]
  exact {
    obtained := Nat.le_trans hobtained ht
    active := by
      intro d hd
      obtain rfl : c = d := Option.some.inj (hactive.symm.trans hd)
      exact ⟨now, rfl, t, hmem, hdelay⟩
    fresh := by
      intro d hd _
      obtain rfl : c = d := Option.some.inj (hactive.symm.trans hd)
      exact ⟨t, hmem, hobtained⟩
    phase := trivial }

section
variable (h : Sound delay answers now peer w)
include h

theorem Sound.receive (hpast : ∀ c a, (c, a) ∈ answers → a ≤ now)
    (hnoted : ∀ t, w.phase.toNote = some t → now ≤ t + delay) (hw : w.receive now = some w') :
    Sound delay answers now peer w' := by
  have hphase := h.phase
  unfold Worker.receive at hw
  split at hw
  · rename_i t hanswered
    rw [hanswered] at hphase hnoted
    obtain ⟨c, hactive, hmem, hobtained⟩ := hphase
    cases hw
    exact Sound.confirmed hactive hmem hobtained (hpast c t hmem) (hnoted t rfl)
  · rename_i c t hanswered
    rw [hanswered] at hphase
    cases hw
    exact h.setPhase hphase
  · cases hw

theorem Sound.activated {ok : Bool} (hpast : ∀ c a, (c, a) ∈ answers → a ≤ now)
    (hnoted : ∀ t, w.phase.toNote = some t → now ≤ t + delay) (hw : w.activated now ok = some w') :
    Sound delay answers now peer w' := by
  have hphase := h.phase
  unfold Worker.activated at hw
  split at hw
  · rename_i c t hactivating
    rw [hactivating] at hphase hnoted
    split at hw
    · cases hw
      exact Sound.confirmed rfl hphase (Nat.le_refl t) (hpast c t hphase) (hnoted t rfl)
    · cases hw
      exact h.setPhase trivial
  · cases hw

theorem Sound.offer {v : Worker} {p : Option PeerBootstrap} (hv : Sound delay answers now p v)
    (hw : w.offer v.peerConfig = some w') : Sound delay answers now peer w' := by
  unfold Worker.offer at hw
  split at hw
  · rename_i c k _ hconfig
    obtain rfl := Option.some.inj hw
    apply h.setPhase
    obtain ⟨c', hc', hrest⟩ := Option.bind_eq_some_iff.1 hconfig
    obtain ⟨k', hk', hpair⟩ := Option.bind_eq_some_iff.1 hrest
    obtain ⟨rfl, rfl⟩ := Prod.mk.inj (Option.some.inj hpair)
    obtain ⟨k, hk, hstamped⟩ := hv.active c' hc'
    obtain rfl : k' = k := Option.some.inj (hk'.symm.trans hk)
    exact hstamped
  · cases hw

theorem Sound.take (hw : w.take peer now = some w') : Sound delay answers now peer w' := by
  have hphase := h.phase
  unfold Worker.take at hw
  split at hw
  · rename_i c k p hoffered
    rw [hoffered] at hphase
    split at hw
    · cases hw
      exact h.setPhase trivial
    · cases hw
      exact h.setPhase ⟨hphase, p, rfl, by omega⟩
  · cases hw

theorem Sound.activatedPeer {ok : Bool} (hw : w.activatedPeer now ok = some w') :
    Sound delay answers now peer w' := by
  have hphase := h.phase
  unfold Worker.activatedPeer at hw
  split at hw
  · rename_i c k t hactivating
    rw [hactivating] at hphase
    split at hw
    · cases hw
      exact {
        obtained := Nat.le_refl now
        active := by
          intro d hd
          cases hd
          exact ⟨k, rfl, hphase.1⟩
        fresh := by
          nofun
        phase := trivial }
    · cases hw
      exact h.setPhase trivial
  · cases hw

theorem Sound.giveUp (hw : w.giveUp = some w') : Sound delay answers now peer w' := by
  unfold Worker.giveUp at hw
  split at hw
  · cases hw
    exact h.setPhase trivial
  · cases hw

end

end Steps

section Runs

variable {fleet : Fleet} {delay : Nat} {s s' : State} {i : Nat}

theorem le_of_noted (h : noted delay s i = true) :
    ∀ t, (s.workers i).phase.toNote = some t → s.now ≤ t + delay := by
  intro t ht
  unfold noted at h
  rw [ht] at h
  exact of_decide_eq_true h

theorem Inv.mono (h : Inv fleet delay s) (hworkers : s'.workers = s.workers)
    (hsub : s.answers ⊆ s'.answers) (hnow : s.now ≤ s'.now)
    (hpast : ∀ c a, (c, a) ∈ s'.answers → a ≤ s'.now) (hbootstraps : s'.bootstraps = s.bootstraps) :
    Inv fleet delay s' where
  past := hpast
  workers := by
    intro j
    rw [hworkers]
    exact (h.workers j).mono hsub hnow
  copies := by
    intro j c t hmem
    rw [hbootstraps] at hmem
    obtain ⟨peer, a, hpeer, ha, hle⟩ := h.copies j c t hmem
    exact ⟨peer, a, hpeer, hsub ha, hle⟩

theorem Inv.logAnswer (h : Inv fleet delay s) (read : Snapshot) :
    Inv fleet delay { s with answers := (read, s.now) :: s.answers } := by
  refine h.mono rfl (List.subset_cons_self _ _) (Nat.le_refl _) ?_ rfl
  intro c a hmem
  rcases List.mem_cons.1 hmem with heq | hmem
  · exact Nat.le_of_eq (Prod.mk.inj heq).2
  · exact h.past c a hmem

variable {p : Party}

theorem Inv.setPhase (h : Inv fleet delay s) {phase : Phase} (hphase : ∀ i, p = .worker i →
      PhaseSound delay s.answers (fleet.peerBootstrap i) (s.workers i) phase) :
    Inv fleet delay (s.setPhase phase p) := by
  cases p with
  | hub k => exact h.setHub k _
  | worker i => exact h.setWorker ((h.workers i).setPhase (hphase i rfl))

theorem Inv.mode_eq (h : Inv fleet delay s) {mode : FetchMode} {read : Option Snapshot}
    (hasking : s.phase (.worker i) = .asking mode read) :
    mode = fetchMode (s.workers i).active (s.workers i).stale := by
  have hphase := (h.workers i).phase
  rw [State.phase] at hasking
  rw [hasking] at hphase
  exact hphase

theorem Inv.ask (h : Inv fleet delay s) (hs : Fleet.ask s p = some s') : Inv fleet delay s' := by
  unfold Fleet.ask at hs
  split at hs
  · cases hs
    apply h.setPhase
    rintro i rfl
    rfl
  · cases hs

theorem Inv.read (h : Inv fleet delay s) (hs : fleet.read s p = some s') : Inv fleet delay s' := by
  unfold Fleet.read at hs
  split at hs
  · rename_i mode old hasking
    obtain ⟨c, -, rfl⟩ := Option.map_eq_some_iff.1 hs
    apply h.setPhase
    rintro i rfl
    exact h.mode_eq hasking
  · cases hs

theorem Inv.answer (hdirect : ∀ i, fleet.upstream (.worker i) = .controlPlane)
    (h : Inv fleet delay s) (hs : fleet.answer s p = some s') : Inv fleet delay s' := by
  unfold Fleet.answer at hs
  split at hs
  · rename_i mode read hasking
    have hlog := h.logAnswer read
    cases p with
    | hub k =>
      split at hs
      · cases hs
        exact hlog.setHub k _
      · cases hs
        exact h.setHub k _
    | worker i =>
      rw [hdirect i] at hs
      cases hs
      have hphase := phaseSound_respond (h.workers i) (h.mode_eq hasking) read
      exact hlog.setWorker ((hlog.workers i).setPhase hphase)
  · cases hs

theorem Inv.fail (h : Inv fleet delay s) (hs : fleet.fail s p = some s') : Inv fleet delay s' := by
  have hfailed : Inv fleet delay (fleet.failed s p) := by
    cases p with
    | hub k => exact h.setHub k _
    | worker i => exact h.setWorker ((h.workers i).afterFailure _)
  unfold Fleet.fail at hs
  split at hs
  · rwa [← Option.some.inj hs]
  · rwa [← Option.some.inj hs]
  · cases hs

theorem Inv.activatedPeer {ok : Bool} (h : Inv fleet delay s) (hnoted : noted delay s i = true)
    (hs : fleet.step s (.activatedPeer i ok) = some s') : Inv fleet delay s' := by
  obtain ⟨w, hw, rfl⟩ := Option.map_eq_some_iff.1 hs
  have hset := h.setWorker ((h.workers i).activatedPeer hw)
  have hphase := (h.workers i).phase
  have hdelay := le_of_noted hnoted
  split
  · rename_i c k t hactivating
    rw [hactivating] at hphase hdelay
    obtain ⟨⟨a, ha, hstamp⟩, p, hp, hchecked⟩ := hphase
    have hnow := hdelay t rfl
    refine ⟨hset.past, hset.workers, ?_⟩
    intro j c' t' hmem
    rcases List.mem_cons.1 hmem with heq | hmem
    · cases heq
      exact ⟨p, a, hp, ha, h.past _ _ ha, by omega⟩
    · exact h.copies j c' t' hmem
  · exact hset

/-- Every step keeps the invariant. -/
theorem Inv.step (hdirect : ∀ i, fleet.upstream (.worker i) = .controlPlane)
    (h : Inv fleet delay s) {a : Act} (hok : prompt delay s a = true)
    (hs : fleet.step s a = some s') : Inv fleet delay s' := by
  cases a with
  | tick =>
    cases hs
    refine h.mono rfl (List.Subset.refl _) (Nat.le_add_right _ _) ?_ rfl
    intro c a hmem
    exact Nat.le_trans (h.past c a hmem) (Nat.le_add_right _ _)
  | edit =>
    cases hs
    exact ⟨h.past, h.workers, h.copies⟩
  | ask => exact h.ask hs
  | read => exact h.read hs
  | answer => exact Inv.answer hdirect h hs
  | fail => exact h.fail hs
  | receiveHub k =>
    obtain ⟨hub, -, rfl⟩ := Option.map_eq_some_iff.1 hs
    exact h.setHub k hub
  | receive i =>
    obtain ⟨w, hw, rfl⟩ := Option.map_eq_some_iff.1 hs
    exact h.setWorker ((h.workers i).receive h.past (le_of_noted hok) hw)
  | activated i =>
    obtain ⟨w, hw, rfl⟩ := Option.map_eq_some_iff.1 hs
    exact h.setWorker ((h.workers i).activated h.past (le_of_noted hok) hw)
  | offer i peer =>
    obtain ⟨w, hw, rfl⟩ := Option.map_eq_some_iff.1 hs
    exact h.setWorker ((h.workers i).offer (h.workers peer) hw)
  | take i =>
    obtain ⟨w, hw, rfl⟩ := Option.map_eq_some_iff.1 hs
    exact h.setWorker ((h.workers i).take hw)
  | activatedPeer => exact h.activatedPeer hok hs
  | giveUp i =>
    obtain ⟨w, hw, rfl⟩ := Option.map_eq_some_iff.1 hs
    exact h.setWorker ((h.workers i).giveUp hw)
  | restart p =>
    cases p with
    | hub k =>
      cases hs
      exact h.setHub k _
    | worker =>
      cases hs
      exact h.setWorker (sound_start s.now)

theorem inv_init (h : fleet.system.init s) : Inv fleet delay s := by
  obtain ⟨-, hworkers, hanswers, hbootstraps⟩ := h
  refine ⟨?_, ?_, ?_⟩
  · intro c a hmem
    rw [hanswers] at hmem
    cases hmem
  · intro i
    rw [hworkers i]
    exact sound_start s.now
  · intro i c t hmem
    rw [hbootstraps] at hmem
    cases hmem

/-- Without hubs, a copied configuration was confirmed by the control plane within the age the
copying worker allows, and one that counts as fresh since it was obtained. -/
theorem copied_config_confirmed (hdirect : ∀ i, fleet.upstream (.worker i) = .controlPlane)
    (h : fleet.system.Reach (fun s a => prompt delay s a = true) s) :
    CopiesAllowed fleet (2 * delay) s ∧ FreshConfirmed s := by
  have hinv : Inv fleet delay s :=
    h.invariant (fun _ hinit => inv_init hinit) fun _ _ _ hi hok hs => hi.step hdirect hok hs
  refine ⟨hinv.copies, ?_⟩
  intro i c hactive hstale
  exact (hinv.workers i).fresh c hactive hstale

end Runs

section Fleets

def exampleFleet (behindHub : Bool) : Fleet where
  upstream
    | .worker 0 => if behindHub then .hub 0 else .controlPlane
    | _ => .controlPlane
  peerBootstrap _ := some ⟨10, 86400⟩
  snapshotCache _ := true

def firstConfig : Snapshot := ⟨1, none⟩

def freshState : State := ⟨0, firstConfig, fun _ => .start none, fun _ => .start 0, [], []⟩

theorem init_freshState (fleet : Fleet) : fleet.system.init freshState :=
  ⟨fun _ => rfl, fun _ => rfl, rfl, rfl⟩

def fetched (i : Nat) : List Act :=
  [.ask (.worker i), .read (.worker i), .answer (.worker i), .receive i, .activated i true]

def copied (i peer : Nat) : List Act :=
  [.ask (.worker i), .fail (.worker i), .offer i peer, .take i, .activatedPeer i true]

/-- Worker 1 copies what worker 0 fetched an hour ago. -/
theorem hour_old_copy_confirmed :
    ∃ s, (exampleFleet false).system.Reach (fun s a => prompt 0 s a = true) s ∧
      s.bootstraps = [(1, firstConfig, 3600)] ∧ CopiesAllowed (exampleFleet false) (2 * 0) s ∧
      FreshConfirmed s := by
  have hinit : (exampleFleet false).system.Reach (fun s a => prompt 0 s a = true) freshState :=
    .init (init_freshState _)
  obtain ⟨s, hreach, hbootstraps⟩ := System.Reach.exists_of_run
    (P := fun s => s.bootstraps = [(1, firstConfig, 3600)]) hinit
    (fetched 0 ++ .tick 3600 :: copied 1 0) (by decide +kernel)
  have hdirect : ∀ i, (exampleFleet false).upstream (.worker i) = .controlPlane := by
    intro i
    cases i <;> rfl
  exact ⟨s, hreach, hbootstraps, copied_config_confirmed hdirect hreach⟩

/-- A restarted hub serves the snapshot from its disk, which the control plane has long replaced,
and the worker behind it takes this for a confirmation. -/
theorem hub_refreshes_old_config :
    ∃ s, (exampleFleet true).system.Reach (fun s a => prompt 0 s a = true) s ∧
      ¬CopiesAllowed (exampleFleet true) 0 s ∧ ¬FreshConfirmed s := by
  have hrun : ((exampleFleet true).system.runIf (prompt 0) freshState
      ([.ask (.hub 0), .read (.hub 0), .answer (.hub 0), .receiveHub 0 true, .edit ⟨2, none⟩,
        .tick 200000, .restart (.hub 0), .ask (.hub 0), .fail (.hub 0)] ++
        fetched 0 ++ copied 1 0)).any
      (fun s => decide (s.answers = [(firstConfig, 0)] ∧
        s.bootstraps = [(1, firstConfig, 200000)] ∧
        (s.workers 0).active = some firstConfig ∧ (s.workers 0).stale = false ∧
        (s.workers 0).obtainedAt = 200000)) = true := by
    decide +kernel
  have hinit : (exampleFleet true).system.Reach (fun s a => prompt 0 s a = true) freshState :=
    .init (init_freshState _)
  obtain ⟨s, hreach, htest⟩ := System.Reach.exists_of_runIf (fun _ _ h => h) hinit hrun
  obtain ⟨hanswers, hbootstraps, hactive, hstale, hobtained⟩ := of_decide_eq_true htest
  have hzero : ∀ {a : Nat}, (firstConfig, a) ∈ s.answers → a = 0 := by
    intro a ha
    rw [hanswers, List.mem_singleton] at ha
    exact (Prod.mk.inj ha).2
  refine ⟨s, hreach, ?_, ?_⟩
  · intro h
    obtain ⟨peer, a, hpeer, ha, -, hle⟩ := h 1 firstConfig 200000
      (by rw [hbootstraps]; exact .head _)
    cases hpeer
    rw [hzero ha] at hle
    exact absurd hle (by decide)
  · intro h
    obtain ⟨a, ha, hle⟩ := h 0 firstConfig hactive hstale
    rw [hzero ha, hobtained] at hle
    exact absurd hle (by decide)

end Fleets

end QueryFlux.ConfigSync
