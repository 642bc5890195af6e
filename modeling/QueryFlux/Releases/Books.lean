import Mathlib.Data.List.Perm.Basic
import QueryFlux.Releases.Batcher

/-!
# The batcher loses and repeats no release

At every moment the releases sent on the channel are those the wrapped store has confirmed and
those still held: in the channel, in the batch under way, or waiting for their retry. The counters
count the ones held. A step either queues a release, or settles some of the held ones (none, if
the wrapped store refused) and moves the others around (`Books.settle`).
-/

set_option linter.unusedSectionVars false

namespace QueryFlux.Releases

open Lib List

/-! ## What is held -/

variable {κ ι α : Type}

def Msg.release? : Msg κ ι → Option (Release κ ι)
  | .release r => some r
  | .flush _ => none

def Phase.leases : Phase κ ι → List (Release κ ι)
  | .waiting | .stopped => []
  | .collecting fresh | .sending fresh => fresh
  | .retryingAll leases => leases
  | .retryingEach rest failed => rest ++ failed

namespace State

def inChannel (s : State κ ι α) : List (Release κ ι) := s.channel.filterMap Msg.release?

/-- Releases that were sent and not yet confirmed. -/
def held (s : State κ ι α) : List (Release κ ι) := s.inChannel ++ (s.phase.leases ++ s.retry.leases)

end State

def entryOf (n : Nat) : Option Nat := if n = 0 then none else some n

variable [DecidableEq ι]

/-- The counters say how many releases are held, in all and for each query. -/
structure Counts.Exact (c : Counts ι) (held : List (Release κ ι)) : Prop where
  pending : c.pending = held.length
  queuedIds : ∀ q, c.queuedIds q = entryOf (held.countP (·.queryId == q))
  inRange : c.underflowed = false

namespace Counts

variable {c : Counts ι} {held done : List (Release κ ι)}

theorem Exact.perm (h : c.Exact held) {held' : List (Release κ ι)} (hperm : held.Perm held') :
    c.Exact held' :=
  ⟨h.pending.trans hperm.length_eq, fun q => by rw [h.queuedIds, hperm.countP_eq], h.inRange⟩

theorem getD_entryOf (n : Nat) : (entryOf n).getD 0 = n := by
  unfold entryOf
  split_ifs with h
  · exact h.symm
  · rfl

theorem Exact.queue (h : c.Exact held) (r : Release κ ι) :
    (c.queue r.queryId).Exact (held ++ [r]) := by
  refine ⟨?_, fun q => ?_, h.inRange⟩
  · rw [length_append, length_singleton, ← h.pending]
    rfl
  · rw [countP_append, countP_singleton]
    by_cases hq : q = r.queryId
    · subst hq
      simp only [Counts.queue, Function.update_self, h.queuedIds, getD_entryOf, beq_self_eq_true,
        if_true]
      rw [entryOf, if_neg (Nat.succ_ne_zero _)]
    · have hne : (r.queryId == q) = false := by simpa using Ne.symm hq
      simp [Counts.queue, Function.update_of_ne hq, h.queuedIds, hne]

theorem unqueue_queuedIds {r : Release κ ι} {rest : List (Release κ ι)}
    (hids : ∀ q, c.queuedIds q = entryOf ((r :: rest).countP (·.queryId == q))) :
    (∀ q, (c.unqueue r.queryId).queuedIds q = entryOf (rest.countP (·.queryId == q))) ∧
      (c.unqueue r.queryId).underflowed = c.underflowed := by
  have hr : c.queuedIds r.queryId = some (rest.countP (·.queryId == r.queryId) + 1) := by
    rw [hids, countP_cons_of_pos (by simp), entryOf, if_neg (Nat.succ_ne_zero _)]
  simp only [unqueue, hr]
  refine ⟨fun q => ?_, by simp⟩
  by_cases hq : q = r.queryId
  · subst hq
    rw [Function.update_self]
    rfl
  · rw [Function.update_of_ne hq, hids, countP_cons_of_neg (by simpa using Ne.symm hq)]

theorem foldl_unqueue (rest : List (Release κ ι)) :
    ∀ {done : List (Release κ ι)} {c : Counts ι},
      (∀ q, c.queuedIds q = entryOf ((done ++ rest).countP (·.queryId == q))) →
      (∀ q, (done.foldl (fun c r => c.unqueue r.queryId) c).queuedIds q =
        entryOf (rest.countP (·.queryId == q))) ∧
      (done.foldl (fun c r => c.unqueue r.queryId) c).underflowed = c.underflowed := by
  intro done
  induction done with
  | nil => exact fun hids => ⟨hids, rfl⟩
  | cons _ _ ih =>
    intro c hids
    obtain ⟨hids', hflow⟩ := unqueue_queuedIds hids
    obtain ⟨hrest, hflow'⟩ := ih hids'
    exact ⟨hrest, hflow'.trans hflow⟩

theorem pending_unqueue (c : Counts ι) (q : ι) : (c.unqueue q).pending = c.pending := by
  unfold unqueue
  split <;> rfl

theorem pending_foldl_unqueue (done : List (Release κ ι)) :
    ∀ c : Counts ι, (done.foldl (fun c r => c.unqueue r.queryId) c).pending = c.pending := by
  induction done with
  | nil => exact fun _ => rfl
  | cons _ _ ih => exact fun c => (ih _).trans (pending_unqueue c _)

/-- Releases that are done leave the counters. -/
theorem Exact.sent (h : c.Exact (done ++ held)) : (c.sent done).Exact held := by
  obtain ⟨hids, hflow⟩ := foldl_unqueue held (c := { c with
    pending := c.pending - done.length
    underflowed := c.underflowed || decide (c.pending < done.length) }) h.queuedIds
  have hpending : c.pending = done.length + held.length := h.pending.trans length_append
  refine ⟨?_, hids, ?_⟩
  · rw [Counts.sent, pending_foldl_unqueue]
    dsimp only
    omega
  · rw [Counts.sent, hflow, h.inRange, Bool.false_or, decide_eq_false_iff_not]
    omega

theorem sent_nil (c : Counts ι) : c.sent ([] : List (Release κ ι)) = c := by
  simp [Counts.sent]

end Counts

/-! ## Books -/

namespace State

/-- During a retry the list of failed releases is empty. -/
def RetryTaken (s : State κ ι α) : Prop :=
  match s.phase with
  | .retryingAll _ | .retryingEach _ _ => s.retry.leases = []
  | _ => True

/-- Every release sent on the channel is confirmed or held, once, and the counters count the ones
held. -/
structure Books (s : State κ ι α) : Prop where
  split : s.sent.Perm (s.confirmed ++ s.held)
  exact : s.counts.Exact s.held
  taken : s.RetryTaken

namespace Books

variable {s s' : State κ ι α}

theorem settle (h : s.Books) {done : List (Release κ ι)} (hheld : s.held.Perm (done ++ s'.held))
    (hsent : s'.sent = s.sent) (hconfirmed : s'.confirmed = s.confirmed ++ done)
    (hcounts : s'.counts = s.counts.sent done) (htaken : s'.RetryTaken) : s'.Books := by
  refine ⟨?_, ?_, htaken⟩
  · rw [hsent, hconfirmed, append_assoc]
    exact h.split.trans (hheld.append_left _)
  · rw [hcounts]
    exact (h.exact.perm hheld).sent

theorem moved (h : s.Books) (hheld : s.held.Perm s'.held) (hsent : s'.sent = s.sent)
    (hconfirmed : s'.confirmed = s.confirmed) (hcounts : s'.counts = s.counts)
    (htaken : s'.RetryTaken) : s'.Books :=
  h.settle hheld hsent (hconfirmed.trans (append_nil _).symm)
    (hcounts.trans (Counts.sent_nil _).symm) htaken

theorem caller (h : s.Books) (hheld : s'.held = s.held) (hsent : s'.sent = s.sent)
    (hconfirmed : s'.confirmed = s.confirmed) (hcounts : s'.counts = s.counts)
    (hphase : s'.phase = s.phase) (hretry : s'.retry = s.retry) : s'.Books := by
  refine h.moved (hheld ▸ .refl _) hsent hconfirmed hcounts ?_
  have htaken := h.taken
  unfold RetryTaken at htaken ⊢
  rwa [hphase, hretry]

theorem initial : (initial : State κ ι α).Books :=
  ⟨Perm.refl _, ⟨rfl, fun _ => rfl, rfl⟩, trivial⟩

theorem release (h : s.Books) (c : κ) (q : ι) : (s.release c q).Books := by
  unfold State.release
  split
  · let r : Release κ ι := ⟨s.sent.length, c, q⟩
    have hheld : (s.held ++ [r]).Perm ((s.channel ++ [Msg.release r]).filterMap Msg.release? ++
        (s.phase.leases ++ s.retry.leases)) := by
      rw [filterMap_append, held, inChannel, append_assoc, append_assoc _ _ [r],
        append_assoc]
      refine .append_left _ ?_
      rw [← append_assoc]
      exact perm_append_comm
    refine ⟨?_, (h.exact.queue r).perm hheld, h.taken⟩
    refine (h.split.append_right [r]).trans ?_
    rw [append_assoc]
    exact hheld.append_left _
  · exact h

theorem held_flush (s : State κ ι α) : s.flush.held = s.held := by
  simp [State.flush, held, inChannel, Msg.release?]

theorem flush (h : s.Books) : s.flush.Books := h.caller (held_flush s) rfl rfl rfl rfl rfl

end Books

theorem held_take (fresh : List (Release κ ι)) (s : State κ ι α) (m : Msg κ ι) :
    (s.take fresh m).held = s.inChannel ++ ((fresh ++ m.release?.toList) ++ s.retry.leases) := by
  cases m with
  | release => rfl
  | flush => simp [take, held, inChannel, Phase.leases, Msg.release?]

variable {s s' : State κ ι α}

theorem held_recv (hs : s.recv s.phase.leases = some s') : s.held.Perm s'.held := by
  unfold recv at hs
  split at hs
  · cases hs
  · rename_i m rest hchannel
    cases hs
    have hrest : s.inChannel = m.release?.toList ++ rest.filterMap Msg.release? := by
      rw [inChannel, hchannel]
      cases m <;> rfl
    rw [held_take, held, hrest, append_assoc, append_assoc]
    exact (perm_append_comm_assoc _ _ _).trans
      ((perm_append_comm_assoc _ _ _).append_left _)

theorem Books.recv (h : s.Books) (hs : s.recv s.phase.leases = some s') : s'.Books := by
  have hheld := held_recv hs
  unfold State.recv at hs
  split at hs
  · cases hs
  · rename_i m rest _
    cases hs
    cases m with
    | release | flush => exact h.moved hheld rfl rfl rfl trivial

/-- What a send, a retry and the answer to a call do: some releases of the round are confirmed, and
either the round ends, the others waiting for their retry, or a call is made. -/
inductive Round (s : State κ ι α) : State κ ι α → Prop
  | ended {done : List (Release κ ι)} {retry : Retry κ ι}
      (h : (s.phase.leases ++ s.retry.leases).Perm (done ++ retry.leases)) :
      Round s ({ s.confirm done with retry := retry } : State κ ι α).endRound
  | called {done : List (Release κ ι)} {retry : Retry κ ι} {phase : Phase κ ι}
      {call : List (Release κ ι)}
      (h : (s.phase.leases ++ s.retry.leases).Perm (done ++ (phase.leases ++ retry.leases)))
      (htaken : ({ s with phase := phase, retry := retry } : State κ ι α).RetryTaken)
      (hcall : call ⊆ phase.leases) :
      Round s ({ s.confirm done with
        phase := phase, retry := retry, calls := s.calls ++ [call] } : State κ ι α)

theorem confirm_nil (s : State κ ι α) : s.confirm [] = s := by
  rw [confirm, Counts.sent_nil, append_nil]

namespace Round

variable {s s' : State κ ι α}

theorem endFresh {done failed : List (Release κ ι)} (h : s.phase.leases.Perm (done ++ failed)) :
    Round s ((s.confirm done).endFresh failed) := by
  refine .ended ((h.append_right _).trans ?_)
  rw [append_assoc]
  exact perm_append_comm.append_left _

theorem endRetry {done still : List (Release κ ι)} (hretry : s.retry.leases = [])
    (h : s.phase.leases.Perm (done ++ still)) : Round s ((s.confirm done).endRetry still) :=
  .ended (by rwa [hretry, append_nil])

theorem endFresh_failed {failed : List (Release κ ι)} (h : s.phase.leases = failed) :
    Round s (s.endFresh failed) := by
  have hend : Round s ((s.confirm []).endFresh failed) := endFresh (.of_eq h)
  rwa [confirm_nil] at hend

theorem endRetry_failed {still : List (Release κ ι)} (hretry : s.retry.leases = [])
    (h : s.phase.leases.Perm still) : Round s (s.endRetry still) := by
  have hend : Round s ((s.confirm []).endRetry still) := endRetry hretry h
  rwa [confirm_nil] at hend

theorem makeCall {retry : Retry κ ι} {phase : Phase κ ι} {call : List (Release κ ι)}
    (h : (s.phase.leases ++ s.retry.leases).Perm (phase.leases ++ retry.leases))
    (htaken : ({ s with phase := phase, retry := retry } : State κ ι α).RetryTaken)
    (hcall : call ⊆ phase.leases) :
    Round s (({ s with retry := retry } : State κ ι α).makeCall phase call) := by
  have hround : Round s ({ s.confirm [] with
      phase := phase, retry := retry, calls := s.calls ++ [call] } : State κ ι α) :=
    .called h htaken hcall
  rwa [confirm_nil] at hround

theorem sendFresh {fresh : List (Release κ ι)} (hphase : s.phase = .collecting fresh) :
    Round s (s.sendFresh fresh) := by
  unfold State.sendFresh
  split_ifs with hempty
  · exact endFresh_failed (by rw [hphase, hempty]; rfl)
  · refine makeCall ?_ trivial (Subset.refl _)
    rw [hphase]
    exact .refl _

theorem sendRetry (hphase : s.phase = .waiting) : Round s s.sendRetry := by
  unfold State.sendRetry
  dsimp only
  split
  · refine makeCall ?_ rfl (Subset.refl _)
    exact .of_eq (by simp [hphase, Phase.leases])
  · refine makeCall ?_ rfl ?_
    · exact .of_eq (by simp [hphase, Phase.leases])
    · exact Subset.trans (take_subset _ _) (subset_append_left _ _)

theorem result (htaken : s.RetryTaken) {ok : Bool} (hs : s.result ok = some s') : Round s s' := by
  unfold RetryTaken at htaken
  unfold State.result at hs
  split at hs
  · rename_i fresh hphase
    cases hs
    cases ok with
    | true => exact endFresh (by rw [hphase, append_nil]; exact .refl _)
    | false => exact endFresh_failed (by rw [hphase]; rfl)
  · rename_i leases hphase
    rw [hphase] at htaken
    cases hs
    cases ok with
    | true => exact endRetry htaken (by rw [hphase, append_nil]; exact .refl _)
    | false => exact endRetry_failed htaken (by rw [hphase]; exact .refl _)
  · rename_i r rest failed hphase
    rw [hphase] at htaken
    have hleases : s.phase.leases = r :: (rest ++ failed) := by rw [hphase]; rfl
    have hcall : rest.take 1 ⊆ rest ++ failed :=
      Subset.trans (take_subset _ _) (subset_append_left _ _)
    cases ok with
    | true =>
      cases hs
      split_ifs with hrest
      · have hround : s.phase.leases.Perm ([r] ++ failed) := by rw [hleases, hrest]; exact .refl _
        exact endRetry htaken hround
      · have hround : (s.phase.leases ++ s.retry.leases).Perm
            ([r] ++ ((Phase.retryingEach rest failed).leases ++ s.retry.leases)) := by
          rw [hleases]
          exact .refl _
        exact .called hround htaken hcall
    | false =>
      cases hs
      have hmoved : (r :: (rest ++ failed)).Perm (rest ++ (failed ++ [r])) := by
        rw [← append_assoc]
        exact (perm_append_singleton _ _).symm
      split_ifs with hrest
      · rw [hrest] at hmoved hleases
        exact endRetry_failed htaken (by rw [hleases]; exact hmoved)
      · refine makeCall ?_ htaken ?_
        · rw [hleases]
          exact hmoved.append_right _
        · exact Subset.trans (take_subset _ _) (subset_append_left _ _)
  · cases hs

end Round

theorem held_endRound (s : State κ ι α) : s.endRound.held = s.inChannel ++ s.retry.leases := by
  unfold endRound
  split <;> rfl

theorem Books.round (h : s.Books) (hr : Round s s') : s'.Books := by
  cases hr with
  | @ended done retry hround =>
    let s₁ : State κ ι α := { s.confirm done with retry := retry }
    have hheld : s.held.Perm (done ++ s₁.endRound.held) := by
      rw [held_endRound, held]
      exact (hround.append_left _).trans (perm_append_comm_assoc _ _ _)
    unfold endRound at hheld ⊢
    split_ifs at hheld with hempty
    · rw [if_pos hempty]
      exact h.settle hheld rfl rfl rfl trivial
    · rw [if_neg hempty]
      exact h.settle hheld rfl rfl rfl trivial
  | @called done retry phase call hround htaken hcall =>
    have hheld : s.held.Perm (done ++ (s.inChannel ++ (phase.leases ++ retry.leases))) :=
      (hround.append_left _).trans (perm_append_comm_assoc _ _ _)
    exact h.settle hheld rfl rfl rfl htaken

/-! ## Every run -/

variable [DecidableEq α]

/-- The steps, one constructor for each thing that can happen. -/
inductive Stepped (s : State κ ι α) : State κ ι α → Prop
  | tick (ms : Nat) : Stepped s { s with now := s.now + ms }
  | release (c : κ) (q : ι) : Stepped s (s.release c q)
  | flush : Stepped s s.flush
  | close : Stepped s { s with closed := true }
  | acquire {a : α} (q : ι) (h : s.acquires a = .idle) :
      Stepped s (s.setAcquire a (if (s.counts.queuedIds q).isSome then .mustFlush q (s.numSent q)
        else .passed q (s.numSent q)))
  | acquireFlush {a : α} {q : ι} {seen : Nat} (h : s.acquires a = .mustFlush q seen) :
      Stepped s (s.flush.setAcquire a (.flushing q seen s.nextFlush))
  | acquireAnswered {a : α} {q : ι} {seen : Nat} {f : Flush}
      (h : s.acquires a = .flushing q seen f) (hf : f ∈ s.answered) :
      Stepped s (s.setAcquire a (.passed q seen))
  | acquireTimeout (a : α) : Stepped s (s.setAcquire a .failed)
  | acquireResult {a : α} {q : ι} {seen : Nat} (h : s.acquires a = .passed q seen)
      (granted : Bool) :
      Stepped s (s.setAcquire a (if granted then .granted q seen s.calls.length else .failed))
  | recv {s' : State κ ι α} (hs : s.recv s.phase.leases = some s') : Stepped s s'
  | send {fresh : List (Release κ ι)} (h : s.phase = .collecting fresh) :
      Stepped s (s.sendFresh fresh)
  | retryWake (h : s.phase = .waiting) : Stepped s s.sendRetry
  | result {s' : State κ ι α} {ok : Bool} (hs : s.result ok = some s') : Stepped s s'
  | stop (h : s.phase = .waiting) : Stepped s { s with phase := .stopped }

theorem Stepped.of_step {a : Move κ ι α} (hs : s.step a = some s') : Stepped s s' := by
  cases a <;> simp only [step] at hs
  case tick ms => exact Option.some.inj hs ▸ .tick ms
  case release c q =>
    split at hs
    · cases hs
    · exact Option.some.inj hs ▸ .release c q
  case flush =>
    split at hs
    · cases hs
    · exact Option.some.inj hs ▸ .flush
  case close => exact Option.some.inj hs ▸ .close
  case acquire a q =>
    split at hs
    · exact Option.some.inj hs ▸ .acquire q ‹_›
    · cases hs
  case acquireFlush a =>
    split at hs
    · exact Option.some.inj hs ▸ .acquireFlush ‹_›
    · cases hs
  case acquireAnswered a =>
    split at hs
    · split at hs
      · exact Option.some.inj hs ▸ .acquireAnswered ‹_› ‹_›
      · cases hs
    · cases hs
  case acquireTimeout a =>
    split at hs
    · exact Option.some.inj hs ▸ .acquireTimeout a
    · cases hs
  case acquireResult a granted =>
    split at hs
    · exact Option.some.inj hs ▸ .acquireResult ‹_› granted
    · cases hs
  case recv =>
    split at hs
    · rename_i hphase
      exact .recv (by rwa [hphase])
    · cases hs
  case tryRecv =>
    split at hs
    · rename_i fresh hphase
      split at hs
      · exact .recv (by rwa [hphase])
      · cases hs
    · cases hs
  case send =>
    split at hs
    · split at hs
      · exact Option.some.inj hs ▸ .send ‹_›
      · cases hs
    · cases hs
  case retryWake =>
    split at hs
    · split at hs
      · exact Option.some.inj hs ▸ .retryWake ‹_›
      · cases hs
    · cases hs
  case result ok => exact .result hs
  case stop =>
    split at hs
    · split at hs
      · exact Option.some.inj hs ▸ .stop ‹_›
      · cases hs
    · cases hs

/-- Every step keeps the books. -/
theorem Books.step (h : s.Books) (hs : Stepped s s') : s'.Books := by
  cases hs with
  | release c q => exact h.release c q
  | flush => exact h.flush
  | acquireFlush => exact h.flush.caller rfl rfl rfl rfl rfl rfl
  | recv hs => exact h.recv hs
  | send hphase => exact h.round (.sendFresh hphase)
  | retryWake hphase => exact h.round (.sendRetry hphase)
  | result hs => exact h.round (.result h.taken hs)
  | stop hphase =>
    refine h.moved ?_ rfl rfl rfl trivial
    rw [held, hphase]
    exact .refl _
  | tick | close | acquire | acquireAnswered | acquireTimeout | acquireResult =>
    exact h.caller rfl rfl rfl rfl rfl rfl

theorem Books.of_reach (h : (system κ ι α).Reach (fun _ _ => True) s) : s.Books :=
  h.invariant (fun _ hs => hs ▸ .initial) fun _ _ _ hi _ hs => hi.step (.of_step hs)

/-- In every state: the releases sent on the channel are, as a multiset, the confirmed ones and
those in the channel, in the batch under way and waiting for their retry; `pending` is the number
of unconfirmed ones, `queued_ids` has for each query the number of its unconfirmed ones, and no
counter has underflowed. -/
theorem releases_conserved {s : State κ ι α} (h : (system κ ι α).Reach (fun _ _ => True) s) :
    s.sent.Perm (s.confirmed ++ (s.inChannel ++ (s.phase.leases ++ s.retry.leases))) ∧
      s.counts.pending = (s.inChannel ++ (s.phase.leases ++ s.retry.leases)).length ∧
      (∀ q, s.counts.queuedIds q =
        let n := (s.inChannel ++ (s.phase.leases ++ s.retry.leases)).countP (·.queryId == q)
        if n = 0 then none else some n) ∧
      s.counts.underflowed = false := by
  have hbooks := Books.of_reach h
  exact ⟨hbooks.split, hbooks.exact.pending, hbooks.exact.queuedIds, hbooks.exact.inRange⟩

/-- Two releases are read, their batch fails, a third is sent meanwhile; the retry succeeds, and the
batch with the third fails. -/
def failedBatches : List (Move Nat Nat Nat) :=
  [.release 0 7, .release 1 8, .recv, .tryRecv, .send, .release 0 7, .result false, .tick 50,
    .retryWake, .result true, .recv, .send, .result false]

/-- The third release is held and counted. -/
theorem releases_conserved_failedBatches :
    ∃ s, (system Nat Nat Nat).Reach (fun _ _ => True) s ∧ s.confirmed.map (·.no) = [0, 1] ∧
      s.retry.leases.map (·.no) = [2] ∧
      s.sent.Perm (s.confirmed ++ (s.inChannel ++ (s.phase.leases ++ s.retry.leases))) ∧
      s.counts.pending = 1 ∧ s.counts.queuedIds 7 = some 1 ∧ s.counts.queuedIds 8 = none := by
  obtain ⟨s, hreach, hconfirmed, hretry, hheld⟩ : ∃ s,
      (system Nat Nat Nat).Reach (fun _ _ => True) s ∧ s.confirmed.map (·.no) = [0, 1] ∧
      s.retry.leases.map (·.no) = [2] ∧ s.held.map (·.queryId) = [7] :=
    System.Reach.exists_of_run (.init rfl) failedBatches (by decide +kernel)
  obtain ⟨r, hr, hq⟩ := map_eq_singleton_iff.1 hheld
  obtain ⟨hsplit, hpending, hids, -⟩ := releases_conserved hreach
  rw [held] at hr
  simp only [hr] at hpending hids
  refine ⟨s, hreach, hconfirmed, hretry, hsplit, hpending, ?_, ?_⟩
  · simp [hids, hq]
  · simp [hids, hq]

end State

end QueryFlux.Releases
