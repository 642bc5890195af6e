import QueryFlux.Releases.Books

/-!
# What a flush covers

The channel keeps the order in which messages are sent, so when a flush message has been read every
release sent before it has been read too (`Ordered.read`). It is answered at the end of a round
with nothing left to retry: then everything read is confirmed, and so is every release sent before
the flush (`Ordered.settled`).

An acquire of a query with a queued release waits for a flush of its own. Once it goes on to the
wrapped store none of the query's earlier releases is held any more, so the flusher makes no
further call for them (`flush_covers_and_acquire_safe`).
-/

set_option linter.unusedSectionVars false

namespace QueryFlux.Releases

open Lib List

/-! ## Order -/

variable {κ ι α : Type}

/-- A flush before a release in the channel was sent before it. -/
def Msg.Precedes : Msg κ ι → Msg κ ι → Prop
  | .flush f, .release r => f.before ≤ r.no
  | _, _ => True

namespace State

def Issued (s : State κ ι α) (f : Flush) : Prop :=
  .flush f ∈ s.channel ∨ f ∈ s.flushes ∨ f ∈ s.answered

/-- Releases are numbered as they are sent, the channel is in this order, and an answered flush has
nothing held from before it. -/
structure Ordered (s : State κ ι α) : Prop where
  numbered : s.sent.map (·.no) = List.range s.sent.length
  fifo : s.channel.Pairwise Msg.Precedes
  read : ∀ f ∈ s.flushes, ∀ r ∈ s.inChannel, f.before ≤ r.no
  settled : ∀ f ∈ s.answered, ∀ r ∈ s.held, f.before ≤ r.no
  issued : ∀ f, s.Issued f → f.before ≤ s.sent.length

theorem mem_inChannel {s : State κ ι α} {r : Release κ ι} :
    r ∈ s.inChannel ↔ .release r ∈ s.channel := by
  rw [inChannel, mem_filterMap]
  constructor
  · rintro ⟨m, hm, hr⟩
    cases m with
    | release => exact Option.some.inj hr ▸ hm
    | flush => cases hr
  · exact fun h => ⟨_, h, rfl⟩

namespace Ordered

variable [DecidableEq ι] {s s' : State κ ι α}

theorem initial : (initial : State κ ι α).Ordered :=
  ⟨rfl, Pairwise.nil, by simp [State.initial], by simp [State.initial],
    by simp [State.initial, Issued]⟩

theorem congr (h : s.Ordered) (hchannel : s'.channel = s.channel)
    (hflushes : s'.flushes = s.flushes)
    (hanswered : s'.answered = s.answered) (hsent : s'.sent = s.sent)
    (hheld : s'.held ⊆ s.held) : s'.Ordered := by
  refine ⟨by rw [hsent, h.numbered], by rw [hchannel]; exact h.fifo, ?_, ?_, ?_⟩
  · rw [hflushes, inChannel, hchannel]
    exact h.read
  · rw [hanswered]
    exact fun f hf r hr => h.settled f hf r (hheld hr)
  · intro f hf
    rw [Issued, hchannel, hflushes, hanswered] at hf
    rw [hsent]
    exact h.issued f hf

theorem release (h : s.Ordered) (c : κ) (q : ι) : (s.release c q).Ordered := by
  unfold State.release
  split
  · let r : Release κ ι := ⟨s.sent.length, c, q⟩
    have hchannel (x : Release κ ι) (hx : .release x ∈ s.channel ++ [Msg.release r]) :
        x ∈ s.inChannel ∨ x = r := by
      rcases mem_append.1 hx with hx | hx
      · exact .inl (mem_inChannel.2 hx)
      · exact .inr (Msg.release.inj (mem_singleton.1 hx))
    refine ⟨?_, ?_, fun f hf x hx => ?_, fun f hf x hx => ?_, fun f hf => ?_⟩
    · rw [map_append, h.numbered, length_append, length_singleton,
        range_succ]
      rfl
    · rw [pairwise_append]
      refine ⟨h.fifo, pairwise_singleton _ _, fun m hm m' hm' => ?_⟩
      rw [mem_singleton.1 hm']
      cases m with
      | release => trivial
      | flush f => exact h.issued f (.inl hm)
    · rcases hchannel x (mem_inChannel.1 hx) with hx | rfl
      · exact h.read f hf x hx
      · exact h.issued f (.inr (.inl hf))
    · rcases mem_append.1 hx with hx | hx
      · rcases hchannel x (mem_inChannel.1 hx) with hx | rfl
        · exact h.settled f hf x (mem_append_left _ hx)
        · exact h.issued f (.inr (.inr hf))
      · exact h.settled f hf x (mem_append_right _ hx)
    · have hold : s.Issued f := by
        rcases hf with hf | hf
        · rcases mem_append.1 hf with hf | hf
          · exact .inl hf
          · exact absurd (mem_singleton.1 hf) (by simp)
        · exact .inr hf
      exact Nat.le_trans (h.issued f hold) (by simp)
  · exact h

theorem flush (h : s.Ordered) : s.flush.Ordered := by
  have hheld : s.flush.held = s.held := Books.held_flush s
  have hchannel : s.flush.inChannel = s.inChannel := by
    simp [State.flush, inChannel, Msg.release?]
  refine ⟨h.numbered, ?_, by rw [hchannel]; exact h.read, by rw [hheld]; exact h.settled,
    fun f hf => ?_⟩
  · rw [State.flush, pairwise_append]
    refine ⟨h.fifo, pairwise_singleton _ _, fun m _ m' hm' => ?_⟩
    rw [mem_singleton.1 hm']
    cases m <;> trivial
  · rcases hf with hf | hf
    · rcases mem_append.1 hf with hf | hf
      · exact h.issued f (.inl hf)
      · rw [Msg.flush.inj (mem_singleton.1 hf)]
        exact Nat.le_refl _
    · exact h.issued f (.inr hf)

theorem recv (h : s.Ordered) (hs : s.recv s.phase.leases = some s') : s'.Ordered := by
  have hheld := (held_recv hs).symm.subset
  unfold State.recv at hs
  split at hs
  · cases hs
  · rename_i m rest hchannel
    cases hs
    have hfifo := h.fifo
    rw [hchannel, pairwise_cons] at hfifo
    have hrest (r : Release κ ι) (hr : .release r ∈ rest) : r ∈ s.inChannel := by
      rw [mem_inChannel, hchannel]
      exact .tail _ hr
    have hissued (f : Flush) (hf : .flush f ∈ rest) : s.Issued f := by
      refine .inl ?_
      rw [hchannel]
      exact .tail _ hf
    cases m with
    | release =>
      refine ⟨h.numbered, hfifo.2, fun f hf x hx => h.read f hf x (hrest x (mem_inChannel.1 hx)),
        fun f hf x hx => h.settled f hf x (hheld hx), fun f hf => ?_⟩
      exact h.issued f (hf.elim (hissued f) .inr)
    | flush f₀ =>
      have hread (f : Flush) (hf : f ∈ s.flushes ++ [f₀]) (x : Release κ ι)
          (hx : .release x ∈ rest) : f.before ≤ x.no := by
        rcases mem_append.1 hf with hf | hf
        · exact h.read f hf x (hrest x hx)
        · rw [mem_singleton.1 hf]
          exact hfifo.1 _ hx
      refine ⟨h.numbered, hfifo.2, fun f hf x hx => hread f hf x (mem_inChannel.1 hx),
        fun f hf x hx => h.settled f hf x (hheld hx), fun f hf => h.issued f ?_⟩
      rcases hf with hf | hf | hf
      · exact hissued f hf
      · rcases mem_append.1 hf with hf | hf
        · exact .inr (.inl hf)
        · refine .inl ?_
          rw [mem_singleton.1 hf, hchannel]
          exact .head _
      · exact .inr (.inr hf)

theorem endRound (h : s.Ordered) : s.endRound.Ordered := by
  have hheld : s.endRound.held = s.inChannel ++ s.retry.leases := held_endRound s
  have hsub : s.endRound.held ⊆ s.held := by
    rw [hheld, held]
    exact append_subset.2 ⟨subset_append_left _ _,
      Subset.trans (subset_append_right _ _) (subset_append_right _ _)⟩
  unfold State.endRound at hheld hsub ⊢
  split_ifs at hheld with hempty
  · rw [if_pos hempty] at hsub ⊢
    refine ⟨h.numbered, h.fifo, by simp, fun f hf r hr => ?_, fun f hf => h.issued f ?_⟩
    · rcases mem_append.1 hf with hf | hf
      · exact h.settled f hf r (hsub hr)
      · rw [hheld, hempty, append_nil] at hr
        exact h.read f hf r hr
    · rcases hf with hf | hf | hf
      · exact .inl hf
      · cases hf
      · rcases mem_append.1 hf with hf | hf
        · exact .inr (.inr hf)
        · exact .inr (.inl hf)
  · rw [if_neg hempty] at hsub ⊢
    exact h.congr rfl rfl rfl rfl hsub

theorem round (h : s.Ordered) (hr : Round s s') : s'.Ordered := by
  cases hr with
  | @ended done retry hround =>
    have hretry : retry.leases ⊆ s.phase.leases ++ s.retry.leases :=
      Subset.trans (subset_append_right _ _) hround.symm.subset
    refine Ordered.endRound (h.congr rfl rfl rfl rfl ?_)
    refine append_subset.2 ⟨subset_append_left _ _, ?_⟩
    exact Subset.trans (append_subset.2 ⟨subset_append_left _ _, hretry⟩)
      (subset_append_right _ _)
  | @called done retry phase call hround htaken hcall =>
    have hleases : phase.leases ++ retry.leases ⊆ s.phase.leases ++ s.retry.leases :=
      Subset.trans (subset_append_right _ _) hround.symm.subset
    refine h.congr rfl rfl rfl rfl ?_
    exact append_subset.2 ⟨subset_append_left _ _,
      Subset.trans hleases (subset_append_right _ _)⟩

theorem step [DecidableEq α] (h : s.Ordered) (hbooks : s.Books) (hs : Stepped s s') :
    s'.Ordered := by
  cases hs with
  | release c q => exact h.release c q
  | flush => exact h.flush
  | acquireFlush => exact h.flush.congr rfl rfl rfl rfl (Subset.refl _)
  | recv hs => exact h.recv hs
  | send hphase => exact h.round (.sendFresh hphase)
  | retryWake hphase => exact h.round (.sendRetry hphase)
  | result hs => exact h.round (.result hbooks.taken hs)
  | stop hphase =>
    refine h.congr rfl rfl rfl rfl ?_
    rw [held, held, hphase]
    exact Subset.refl _
  | tick | close | acquire | acquireAnswered | acquireTimeout | acquireResult =>
    exact h.congr rfl rfl rfl rfl (Subset.refl _)

end Ordered

/-! ## Acquires -/

/-- No release of the query is held. -/
def Clear (s : State κ ι α) (q : ι) : Prop := ∀ r ∈ s.held, r.queryId ≠ q

variable [DecidableEq ι] {s s' : State κ ι α}

/-- What holds at each point of an acquire, as long as no further release of its query is sent. -/
def AcquireOk (s : State κ ι α) : Acquire ι → Prop
  | .idle | .failed => True
  | .mustFlush q seen => seen ≤ s.numSent q
  | .flushing q seen f => seen ≤ (s.sent.take f.before).countP (·.queryId == q)
  | .passed q seen => seen ≤ s.numSent q ∧ (s.numSent q = seen → s.Clear q)
  | .granted q seen calls =>
    seen ≤ s.numSent q ∧ calls ≤ s.calls.length ∧
      (s.numSent q = seen → s.Clear q ∧ ∀ call ∈ s.calls.drop calls, ∀ r ∈ call, r.queryId ≠ q)

/-- Nothing is sent, and the calls made are for releases that were held. -/
structure Shrunk (s s' : State κ ι α) : Prop where
  sent : s'.sent = s.sent
  acquires : s'.acquires = s.acquires
  held : s'.held ⊆ s.held
  calls : ∃ made, s'.calls = s.calls ++ made ∧ ∀ call ∈ made, call ⊆ s.held

theorem Shrunk.acquireOk (h : Shrunk s s') {x : Acquire ι} (hx : s.AcquireOk x) :
    s'.AcquireOk x := by
  have hnum (q : ι) : s'.numSent q = s.numSent q := by rw [numSent, numSent, h.sent]
  have hclear {q : ι} (hc : s.Clear q) : s'.Clear q := fun r hr => hc r (h.held hr)
  cases x with
  | idle => trivial
  | failed => trivial
  | mustFlush =>
    rw [AcquireOk, hnum]
    exact hx
  | flushing =>
    rw [AcquireOk, h.sent]
    exact hx
  | passed =>
    rw [AcquireOk, hnum]
    exact ⟨hx.1, fun hseen => hclear (hx.2 hseen)⟩
  | granted =>
    obtain ⟨made, hcalls, hmade⟩ := h.calls
    obtain ⟨hseen, hlen, hquiet⟩ := hx
    rw [AcquireOk, hnum, hcalls, drop_append_of_le_length hlen]
    refine ⟨hseen, Nat.le_trans hlen (by simp), fun hnone => ?_⟩
    obtain ⟨hc, hold⟩ := hquiet hnone
    refine ⟨hclear hc, fun call hcall r hr => ?_⟩
    rcases mem_append.1 hcall with hcall | hcall
    · exact hold call hcall r hr
    · exact hc r (hmade call hcall hr)

theorem Shrunk.round (hr : Round s s') : Shrunk s s' := by
  cases hr with
  | @ended done retry hround =>
    have hretry : retry.leases ⊆ s.phase.leases ++ s.retry.leases :=
      Subset.trans (subset_append_right _ _) hround.symm.subset
    have hheld : ({ s.confirm done with retry := retry } : State κ ι α).endRound.held ⊆ s.held := by
      rw [held_endRound]
      exact append_subset.2 ⟨subset_append_left _ _,
        Subset.trans hretry (subset_append_right _ _)⟩
    unfold endRound at hheld ⊢
    split_ifs at hheld with hempty
    · rw [if_pos hempty]
      exact ⟨rfl, rfl, hheld, [], (append_nil _).symm, by simp⟩
    · rw [if_neg hempty]
      exact ⟨rfl, rfl, hheld, [], (append_nil _).symm, by simp⟩
  | @called done retry phase call hround htaken hcall =>
    have hleases : phase.leases ++ retry.leases ⊆ s.phase.leases ++ s.retry.leases :=
      Subset.trans (subset_append_right _ _) hround.symm.subset
    refine ⟨rfl, rfl, ?_, [call], rfl, fun c hc => ?_⟩
    · exact append_subset.2 ⟨subset_append_left _ _,
        Subset.trans hleases (subset_append_right _ _)⟩
    · rw [mem_singleton.1 hc]
      exact Subset.trans (Subset.trans hcall (subset_append_left _ _))
        (Subset.trans hleases (subset_append_right _ _))

theorem Shrunk.recv (hs : s.recv s.phase.leases = some s') : Shrunk s s' := by
  have hheld := (held_recv hs).symm.subset
  unfold State.recv at hs
  split at hs
  · cases hs
  · rename_i m rest hchannel
    cases hs
    cases m with
    | release | flush => exact ⟨rfl, rfl, hheld, [], (append_nil _).symm, by simp⟩

theorem AcquireOk.release {x : Acquire ι} (hx : s.AcquireOk x) (hlen : ∀ q seen f,
      x = .flushing q seen f → f.before ≤ s.sent.length) (c : κ) (q : ι) :
    (s.release c q).AcquireOk x := by
  unfold State.release
  split
  · let r : Release κ ι := ⟨s.sent.length, c, q⟩
    let s₁ : State κ ι α := { s with
      counts := s.counts.queue q
      channel := s.channel ++ [.release r]
      sent := s.sent ++ [r] }
    have hnum (q' : ι) : s₁.numSent q' = s.numSent q' + if q = q' then 1 else 0 := by
      simp [numSent, s₁, r, countP_append, countP_singleton]
    have hclear {q' : ι} (hne : q ≠ q') (hc : s.Clear q') : s₁.Clear q' := by
      intro x hx
      rcases mem_append.1 hx with hx | hx
      · rcases mem_append.1 (mem_inChannel.1 hx) with hx | hx
        · exact hc x (mem_append_left _ (mem_inChannel.2 hx))
        · rw [Msg.release.inj (mem_singleton.1 hx)]
          exact hne
      · exact hc x (mem_append_right _ hx)
    cases x with
    | idle | failed => trivial
    | mustFlush =>
      rw [AcquireOk, hnum]
      exact Nat.le_trans hx (Nat.le_add_right _ _)
    | flushing q' seen f =>
      rw [AcquireOk, take_append_of_le_length (hlen q' seen f rfl)]
      exact hx
    | passed =>
      rw [AcquireOk, hnum]
      refine ⟨Nat.le_trans hx.1 (Nat.le_add_right _ _), fun hseen => ?_⟩
      have hle := hx.1
      split at hseen
      · omega
      · exact hclear ‹_› (hx.2 hseen)
    | granted =>
      rw [AcquireOk, hnum]
      refine ⟨Nat.le_trans hx.1 (Nat.le_add_right _ _), hx.2.1, fun hseen => ?_⟩
      have hle := hx.1
      split at hseen
      · omega
      · obtain ⟨hc, hcalls⟩ := hx.2.2 hseen
        exact ⟨hclear ‹_› hc, hcalls⟩
  · exact hx

theorem mem_drop_of_held (h : s.Ordered) (hbooks : s.Books) {r : Release κ ι} (hr : r ∈ s.held)
    {n : Nat} (hn : n ≤ r.no) : r ∈ s.sent.drop n := by
  have hsent : r ∈ s.sent := hbooks.split.symm.subset (mem_append_right _ hr)
  obtain ⟨i, hi, rfl⟩ := getElem_of_mem hsent
  have hno : (s.sent[i]).no = i := by
    have hmap : (s.sent.map (·.no))[i]? = some i := by
      rw [h.numbered, getElem?_range hi]
    rw [getElem?_map, getElem?_eq_getElem hi] at hmap
    exact Option.some.inj hmap
  rw [hno] at hn
  rw [mem_drop_iff_getElem]
  exact ⟨i - n, by omega, by simp [Nat.add_sub_of_le hn]⟩

/-- Once the flush is answered nothing of the query from before it is held. -/
theorem clear_of_answered (h : s.Ordered) (hbooks : s.Books) {f : Flush} (hf : f ∈ s.answered)
    {q : ι} (hall : s.numSent q ≤ (s.sent.take f.before).countP (·.queryId == q)) : s.Clear q := by
  intro r hr hq
  have hdrop := mem_drop_of_held h hbooks hr (h.settled f hf r hr)
  have hpos : 0 < (s.sent.drop f.before).countP (·.queryId == q) :=
    countP_pos_iff.2 ⟨r, hdrop, by simpa using hq⟩
  have hsplit : s.numSent q = (s.sent.take f.before).countP (·.queryId == q) +
      (s.sent.drop f.before).countP (·.queryId == q) := by
    rw [← countP_append, take_append_drop]
    rfl
  omega

theorem clear_of_not_queued (hbooks : s.Books) {q : ι} (h : s.counts.queuedIds q = none) :
    s.Clear q := by
  intro r hr hq
  rw [hbooks.exact.queuedIds, entryOf] at h
  split at h
  · rename_i hzero
    exact countP_eq_zero.1 hzero r hr (by simpa using hq)
  · cases h

structure Acquires (s : State κ ι α) : Prop where
  ok : ∀ a, s.AcquireOk (s.acquires a)
  issued : ∀ a q seen f, s.acquires a = .flushing q seen f → f.before ≤ s.sent.length

namespace Acquires

theorem initial : (initial : State κ ι α).Acquires :=
  ⟨fun _ => trivial, nofun⟩

theorem shrunk (h : s.Acquires) (hs : Shrunk s s') : s'.Acquires := by
  refine ⟨fun a => ?_, fun a q seen f ha => ?_⟩
  · rw [hs.acquires]
    exact hs.acquireOk (h.ok a)
  · rw [hs.acquires] at ha
    rw [hs.sent]
    exact h.issued a q seen f ha

theorem release (h : s.Acquires) (c : κ) (q : ι) : (s.release c q).Acquires := by
  have hacquires : (s.release c q).acquires = s.acquires := by
    unfold State.release
    split <;> rfl
  have hlen : s.sent.length ≤ (s.release c q).sent.length := by
    unfold State.release
    split <;> simp
  refine ⟨fun a => ?_, fun a q' seen f ha => ?_⟩
  · rw [hacquires]
    exact (h.ok a).release (h.issued a) c q
  · rw [hacquires] at ha
    exact Nat.le_trans (h.issued a q' seen f ha) hlen

variable [DecidableEq α]

theorem set (h : s.Acquires) (a : α) {x : Acquire ι} (hx : s.AcquireOk x)
    (hissued : ∀ q seen f, x = .flushing q seen f → f.before ≤ s.sent.length) :
    (s.setAcquire a x).Acquires := by
  have hat (b : α) : (s.setAcquire a x).acquires b = if b = a then x else s.acquires b :=
    Function.update_apply ..
  refine ⟨fun b => ?_, fun b q seen f hb => ?_⟩
  · change s.AcquireOk ((s.setAcquire a x).acquires b)
    rw [hat]
    split
    · exact hx
    · exact h.ok b
  · rw [hat] at hb
    split at hb
    · exact hissued q seen f hb
    · exact h.issued b q seen f hb

theorem shrunk_flush (s : State κ ι α) : Shrunk s s.flush :=
  ⟨rfl, rfl, (Books.held_flush s).symm ▸ Subset.refl _, [], (append_nil _).symm, by simp⟩

theorem step (h : s.Acquires) (hbooks : s.Books) (hordered : s.Ordered) (hs : Stepped s s') :
    s'.Acquires := by
  have hsame : ∃ made, s.calls = s.calls ++ made ∧ ∀ call ∈ made, call ⊆ s.held :=
    ⟨[], (append_nil _).symm, by simp⟩
  cases hs with
  | tick | close => exact h.shrunk ⟨rfl, rfl, Subset.refl _, hsame⟩
  | release c q => exact h.release c q
  | flush => exact h.shrunk (shrunk_flush s)
  | @acquire a q ha =>
    cases hq : s.counts.queuedIds q with
    | none =>
      exact h.set a ⟨Nat.le_refl _, fun _ => clear_of_not_queued hbooks hq⟩ (by simp)
    | some => exact h.set a (Nat.le_refl _ : s.numSent q ≤ s.numSent q) (by simp)
  | @acquireFlush a q seen ha =>
    have hok := h.ok a
    rw [ha] at hok
    refine (h.shrunk (shrunk_flush s)).set a ?_ ?_
    · change seen ≤ (s.sent.take s.sent.length).countP (·.queryId == q)
      rw [take_length]
      exact hok
    · intro q' seen' f hf
      cases hf
      exact Nat.le_refl _
  | @acquireAnswered a q seen f ha hf =>
    have hok := h.ok a
    rw [ha] at hok
    have hseen : seen ≤ s.numSent q := Nat.le_trans hok ((take_sublist _ _).countP_le)
    refine h.set a ⟨hseen, fun hnone => ?_⟩ (by simp)
    exact clear_of_answered hordered hbooks hf (Nat.le_trans (Nat.le_of_eq hnone) hok)
  | acquireTimeout a => exact h.set a trivial (by simp)
  | @acquireResult a q seen ha granted =>
    have hok := h.ok a
    rw [ha] at hok
    cases granted with
    | true =>
      refine h.set a ⟨hok.1, Nat.le_refl _, fun hnone => ⟨hok.2 hnone, ?_⟩⟩ (by simp)
      simp
    | false => exact h.set a trivial (by simp)
  | recv hs => exact h.shrunk (.recv hs)
  | send hphase => exact h.shrunk (.round (.sendFresh hphase))
  | retryWake hphase => exact h.shrunk (.round (.sendRetry hphase))
  | result hs => exact h.shrunk (.round (.result hbooks.taken hs))
  | stop hphase =>
    refine h.shrunk ⟨rfl, rfl, ?_, hsame⟩
    rw [held, held, hphase]
    exact Subset.refl _

end Acquires

/-! ## The result -/

variable [DecidableEq α]

/-- When a flush is answered all releases sent before it are confirmed, and no call made after a
granted acquire releases its query, unless another release of it was sent. -/
theorem flush_covers_and_acquire_safe (h : (system κ ι α).Reach (fun _ _ => True) s) :
    (∀ f ∈ s.answered, ∀ r ∈ s.sent, r.no < f.before → r ∈ s.confirmed) ∧
      ∀ a q seen calls, s.acquires a = .granted q seen calls → s.numSent q = seen →
        ∀ call ∈ s.calls.drop calls, ∀ r ∈ call, r.queryId ≠ q := by
  have hinit : ∀ s : State κ ι α, (system κ ι α).init s → s.Books ∧ s.Ordered ∧ s.Acquires := by
    rintro s rfl
    exact ⟨.initial, .initial, .initial⟩
  have hinv := h.invariant hinit fun s a s' ⟨hbooks, hordered, hacquires⟩ _ hs =>
    have hstep : Stepped s s' := .of_step hs
    ⟨hbooks.step hstep, hordered.step hbooks hstep, hacquires.step hbooks hordered hstep⟩
  obtain ⟨hbooks, hordered, hacquires⟩ := hinv
  refine ⟨fun f hf r hr hbefore => ?_, fun a q seen calls ha hseen => ?_⟩
  · rcases mem_append.1 (hbooks.split.subset hr) with hr | hr
    · exact hr
    · exact absurd (hordered.settled f hf r hr) (Nat.not_le_of_lt hbefore)
  · have hok := hacquires.ok a
    rw [ha] at hok
    exact (hok.2.2 hseen).2

/-- A release fails once. A new acquire of its query flushes, the retry succeeds, the flush is
answered and the acquire granted; a release of another query is sent after that. -/
def acquireAfterRetry : List (Move Nat Nat Nat) :=
  [.release 0 7, .recv, .send, .result false, .acquire 0 7, .acquireFlush 0, .recv, .send,
    .tick 50, .retryWake, .result true, .acquireAnswered 0, .acquireResult 0 true, .release 0 8,
    .recv, .send]

/-- The acquire waits for the second attempt. -/
theorem flush_covers_acquireAfterRetry :
    ∃ s, (system Nat Nat Nat).Reach (fun _ _ => True) s ∧ s.acquires 0 = .granted 7 1 2 ∧
      s.calls.map (·.map (·.queryId)) = [[7], [7], [8]] ∧
      (∀ f ∈ s.answered, ∀ r ∈ s.sent, r.no < f.before → r ∈ s.confirmed) ∧
      ∀ call ∈ s.calls.drop 2, ∀ r ∈ call, r.queryId ≠ 7 := by
  obtain ⟨s, hreach, hgranted, hsent, hcalls⟩ : ∃ s,
      (system Nat Nat Nat).Reach (fun _ _ => True) s ∧ s.acquires 0 = .granted 7 1 2 ∧
      s.numSent 7 = 1 ∧ s.calls.map (·.map (·.queryId)) = [[7], [7], [8]] :=
    System.Reach.exists_of_run (.init rfl) acquireAfterRetry (by decide +kernel)
  obtain ⟨hcovers, hsafe⟩ := flush_covers_and_acquire_safe hreach
  exact ⟨s, hreach, hgranted, hcalls, hcovers, hsafe 0 7 1 2 hgranted hsent⟩

end State

end QueryFlux.Releases
