import QueryFlux.Sink.Execute

/-!
# The sequence of calls on the sink

A client is sent a well-formed result: at most one schema and then batches, or native chunks, and
last one end. For runs that are not dropped and whose sink never fails, `wellFormed_iff` says when
this holds. It fails when a cached entry breaks off: its schema and first batches are sent, the
lookup reports an error, and `execute_to_sink` runs the engine on the same sink, whose first batch
comes with a second schema (`replay_then_engine`).
-/

namespace QueryFlux.Sink

open Lib List

/-! ## Sequences of calls -/

variable {β A : Type}

def SinkCall.IsEnd (call : SinkCall β) : Prop := call = .onComplete ∨ call = .onError

/-- Nothing, a schema and batches, or native chunks. -/
def Body (calls : List (SinkCall β)) : Prop :=
  calls = [] ∨ (∃ batches : List β, calls = .onSchema :: batches.map .onBatch) ∨
    ∃ chunks : List β, calls = chunks.map .onNativeChunk

/-- The calls for one result end with one completion or error. -/
def WellFormed (calls : List (SinkCall β)) : Prop :=
  ∃ body last, calls = body ++ [last] ∧ Body body ∧ last.IsEnd

theorem Body.replayed (batches : List β) : Body (.onSchema :: batches.map .onBatch) :=
  .inr (.inl ⟨batches, rfl⟩)

theorem wellFormed_append_iff {batches : List β} {body : List (SinkCall β)} {last : SinkCall β}
    (hbody : Body body) (hlast : last.IsEnd) :
    WellFormed (.onSchema :: batches.map .onBatch ++ (body ++ [last])) ↔ body = [] := by
  constructor
  · rintro ⟨body', last', heq, hbody', _⟩
    rw [← append_assoc] at heq
    obtain ⟨rfl, _⟩ := append_inj' heq rfl
    -- all that follows the schema is a batch
    have hbatches : ∀ call ∈ body, ∃ batch, call = .onBatch batch := by
      intro call hcall
      have hmem : call ∈ batches.map SinkCall.onBatch ++ body := mem_append_right _ hcall
      rcases hbody' with hnil | ⟨all, hall⟩ | ⟨chunks, hchunks⟩
      · cases hnil
      · have htail : batches.map SinkCall.onBatch ++ body = all.map .onBatch :=
          (cons.inj hall).2
        rw [htail] at hmem
        obtain ⟨batch, _, rfl⟩ := mem_map.1 hmem
        exact ⟨batch, rfl⟩
      · cases chunks <;> cases hchunks
    rcases hbody with rfl | ⟨all, rfl⟩ | ⟨chunks, rfl⟩
    · rfl
    · obtain ⟨batch, hbatch⟩ := hbatches .onSchema (.head _)
      cases hbatch
    · cases chunks with
      | nil => rfl
      | cons chunk =>
        obtain ⟨batch, hbatch⟩ := hbatches (.onNativeChunk chunk) (.head _)
        cases hbatch
  · rintro rfl
    exact ⟨_, last, rfl, .replayed batches, hlast⟩

/-- The function runs to its end and the sink takes every call. -/
def undisturbed : (q : Call β) → Option (Answer q) → Bool → Prop
  | _, none, _ => False
  | .sink .., some ok, _ => ok = true
  | .onTranslatedSql, some ok, _ => ok = true
  | _, some _, _ => True

def undisturbedCalls : Calls (Call β) Answer (Ledger β) := ⟨effect, undisturbed⟩

/-- The entry fails after its first batch. -/
def breaksOff : List (Option β) → Bool
  | some _ :: items => items.any Option.isNone
  | _ => false

def Event.breaksOff : Event β → Bool
  | ⟨.operatorRead, some (some items)⟩ => Sink.breaksOff items
  | _ => false

def Event.delivers : Event β → Bool
  | ⟨.execute _, some (some (some _ :: _))⟩ => true
  | _ => false

namespace Ledger

variable {s s' s'' : Ledger β}

def BrokeOff (s : Ledger β) : Prop := ∃ e ∈ s.trace, e.breaksOff = true

def Delivered (s : Ledger β) : Prop := ∃ e ∈ s.trace, e.delivers = true

/-- These calls and no others reach the sink. -/
structure Adds (calls : List (SinkCall β)) (s s' : Ledger β) : Prop where
  calls : s'.calls = s.calls ++ calls
  brokeOff : s'.BrokeOff ↔ s.BrokeOff
  delivered : s'.Delivered ↔ s.Delivered

theorem Adds.refl (s : Ledger β) : Adds [] s s := ⟨(List.append_nil _).symm, .rfl, .rfl⟩

theorem Adds.trans {c c' : List (SinkCall β)} (h : Adds c s s') (h' : Adds c' s' s'') :
    Adds (c ++ c') s s'' :=
  ⟨by rw [h'.calls, h.calls, append_assoc], h'.brokeOff.trans h.brokeOff,
    h'.delivered.trans h.delivered⟩

theorem exists_note {p : Event β → Bool} (s : Ledger β) (e : Event β) :
    (∃ e' ∈ (s.note e).trace, p e' = true) ↔ (∃ e' ∈ s.trace, p e' = true) ∨ p e = true := by
  simp only [note, mem_append, mem_singleton]
  constructor
  · rintro ⟨e', he' | rfl, hp⟩
    · exact .inl ⟨e', he', hp⟩
    · exact .inr hp
  · rintro (⟨e', he', hp⟩ | hp)
    · exact ⟨e', .inl he', hp⟩
    · exact ⟨e, .inr rfl, hp⟩

theorem act_trace (s : Ledger β) (q : Call β) : (s.act q).trace = s.trace := by
  cases q <;> rfl

end Ledger

open Ledger

abbrev Yields (R : A → Ledger β → Prop) (x : Future β A) (s : Ledger β) : Prop :=
  x.Ensures undisturbedCalls (fun _ => False) R s

def Call.unseen : Call β → Bool
  | .sink .. | .operatorRead | .execute _ => false
  | _ => true

section
variable {R : A → Ledger β → Prop} {s : Ledger β}

theorem adds_unseen {q : Call β} (hq : q.unseen = true) (d : Answer q) (acted : Bool)
    (s : Ledger β) : Adds [] s (effect q (some d) acted s) := by
  have hcalls : (s.act q).calls = s.calls := by
    cases q with
    | sink => cases hq
    | _ => rfl
  have hevent : (⟨q, some d⟩ : Event β).breaksOff = false ∧
      (⟨q, some d⟩ : Event β).delivers = false := by
    cases q with
    | sink | operatorRead | execute => cases hq
    | _ => exact ⟨rfl, rfl⟩
  refine ⟨?_, ?_, ?_⟩
  · exact hcalls.trans (append_nil _).symm
  · refine (exists_note (s.act q) _).trans ?_
    rw [hevent.1, act_trace]
    simp [BrokeOff]
  · refine (exists_note (s.act q) _).trans ?_
    rw [hevent.2, act_trace]
    simp [Delivered]

theorem yields_unseen {q : Call β} {k : Answer q → Future β A} (hq : q.unseen = true)
    (hk : ∀ d s', Adds [] s s' → Yields R (k d) s') : Yields R (.ask q k) s :=
  ⟨fun _ hno => hno, fun d acted _ => hk d _ (adds_unseen hq d acted s)⟩

theorem yields_sink {replay : Bool} {call : SinkCall β} {k : Bool → Future β A}
    (hk : ∀ s', Adds [call] s s' → Yields R (k true) s') :
    Yields R (.ask (.sink replay call) k) s := by
  refine ⟨fun _ hno => hno, fun d acted hd => ?_⟩
  obtain rfl : d = true := hd
  refine hk _ ⟨rfl, ?_, ?_⟩
  · exact (exists_note (s.act (.sink replay call)) _).trans (or_iff_left Bool.false_ne_true)
  · exact (exists_note (s.act (.sink replay call)) _).trans (or_iff_left Bool.false_ne_true)

theorem yields_of_unseen {x : Future β A} (hx : x.All (·.unseen = true)) :
    Yields (fun _ s' => Adds [] s s') x s := by
  induction hx generalizing s with
  | done => exact .refl s
  | ask hq _ ih =>
    refine yields_unseen hq fun d s' hs' => (ih d).mono fun _ s'' hs'' => ?_
    exact hs'.trans hs''

end

section
variable {s : Ledger β}

theorem abandonCache_unseen (t : Tee) : (t.abandonCache : Future β Tee).All (·.unseen = true) := by
  unfold Tee.abandonCache
  split
  · exact .done trivial
  · exact .ask rfl fun _ => .done trivial

theorem finalizeCache_unseen (t : Tee) :
    (t.finalizeCache : Future β Unit).All (·.unseen = true) := by
  unfold Tee.finalizeCache
  split
  · exact .done trivial
  · exact .ask rfl fun _ => .done trivial

theorem mirror_unseen (p : Site) (t : Tee) : (t.mirror p : Future β Tee).All (·.unseen = true) := by
  unfold Tee.mirror
  split
  · refine .ask rfl fun ok => ?_
    split
    · exact .done trivial
    · exact abandonCache_unseen t
  · exact .done trivial

theorem before_unseen (t : Tee) (call : SinkCall β) : (t.before call).All (·.unseen = true) := by
  cases call with
  | onSchema | onBatch => exact mirror_unseen _ t
  | onNativeChunk | onError => exact abandonCache_unseen t
  | onComplete => exact .done trivial

theorem callSink_yields (call : SinkCall β) (o : Option Tee) :
    Yields (fun r s' => r.1 = true ∧ Adds [call] s s') (callSink call o) s := by
  cases o with
  | none => exact yields_sink fun s' hs' => ⟨rfl, hs'⟩
  | some t =>
    refine (yields_of_unseen (before_unseen t call)).bind fun t s' hs' => ?_
    exact yields_sink fun s'' hs'' => ⟨rfl, hs'.trans hs''⟩

theorem endWith_yields (call : SinkCall β) (status : QueryStatus) (o : Option Tee) :
    Yields (fun _ s' => Adds [call] s s') (endWith call status o) s :=
  (callSink_yields call o).map fun _ _ h => h.2

theorem streamLoop_yields_sent (items : List (Option β)) (o : Option Tee) :
    Yields (fun _ s' => ∃ (batches : List β) (last : SinkCall β), last.IsEnd ∧
      Adds (batches.map .onBatch ++ [last]) s s') (streamLoop items true o) s := by
  induction items generalizing s o with
  | nil =>
    refine yields_unseen rfl fun _ s' hs' => (endWith_yields _ _ o).mono fun e s'' h => ?_
    exact ⟨[], .onComplete, .inl rfl, hs'.trans h⟩
  | cons item _ ih =>
    cases item with
    | none =>
      refine yields_unseen rfl fun _ s' hs' => (endWith_yields _ _ o).mono fun e s'' h => ?_
      exact ⟨[], .onError, .inr rfl, hs'.trans h⟩
    | some batch =>
      refine yields_unseen rfl fun _ s' hs' => ?_
      refine (callSink_yields (.onBatch batch) o).bind fun (ok, o) s'' h => ?_
      obtain ⟨rfl, hbatch⟩ := h
      refine (ih o).mono fun e s''' h => ?_
      obtain ⟨batches, last, hlast, hadds⟩ := h
      exact ⟨batch :: batches, last, hlast, (hs'.trans hbatch).trans hadds⟩

theorem streamLoop_yields (items : List (Option β)) (o : Option Tee) :
    Yields (fun _ s' => ∃ body last, Body body ∧ last.IsEnd ∧
      Adds (body ++ [last]) s s' ∧ (body ≠ [] ↔ ∃ batch, items.head? = some (some batch)))
      (streamLoop items false o) s := by
  cases items with
  | nil =>
    refine yields_unseen rfl fun _ s' hs' => (endWith_yields _ _ o).mono fun e s'' h => ?_
    exact ⟨[], .onComplete, .inl rfl, .inl rfl, hs'.trans h, by simp⟩
  | cons item items =>
    cases item with
    | none =>
      refine yields_unseen rfl fun _ s' hs' => (endWith_yields _ _ o).mono fun e s'' h => ?_
      exact ⟨[], .onError, .inl rfl, .inr rfl, hs'.trans h, by simp⟩
    | some batch =>
      refine yields_unseen rfl fun _ s₁ h₁ => ?_
      refine (callSink_yields .onSchema o).bind fun (ok, o) s₂ h => ?_
      obtain ⟨rfl, h₂⟩ := h
      refine (callSink_yields (.onBatch batch) o).bind fun (ok, o) s₃ h => ?_
      obtain ⟨rfl, h₃⟩ := h
      refine (streamLoop_yields_sent items o).mono fun e s₄ h => ?_
      obtain ⟨batches, last, hlast, h₄⟩ := h
      exact ⟨_, last, .replayed (batch :: batches), hlast,
        ((h₁.trans h₂).trans h₃).trans h₄, by simp⟩

theorem nativeLoop_yields (items : List (Option β)) (o : Option Tee) :
    Yields (fun _ s' => ∃ (chunks : List β) (last : SinkCall β), last.IsEnd ∧
      Adds (chunks.map .onNativeChunk ++ [last]) s s' ∧
      (chunks ≠ [] ↔ ∃ chunk, items.head? = some (some chunk))) (nativeLoop items o) s := by
  induction items generalizing s o with
  | nil =>
    refine yields_unseen rfl fun _ s' hs' => (endWith_yields _ _ o).mono fun e s'' h => ?_
    exact ⟨[], .onComplete, .inl rfl, hs'.trans h, by simp⟩
  | cons item _ ih =>
    cases item with
    | none =>
      refine yields_unseen rfl fun _ s' hs' => (endWith_yields _ _ o).mono fun e s'' h => ?_
      exact ⟨[], .onError, .inr rfl, hs'.trans h, by simp⟩
    | some chunk =>
      refine yields_unseen rfl fun _ s₁ h₁ => ?_
      refine (callSink_yields (.onNativeChunk chunk) o).bind fun (ok, o) s₂ h => ?_
      obtain ⟨rfl, h₂⟩ := h
      refine (ih o).mono fun e s₃ h => ?_
      obtain ⟨chunks, last, hlast, h₃, _⟩ := h
      exact ⟨chunk :: chunks, last, hlast, (h₁.trans h₂).trans h₃, by simp⟩

end

/-! ## The engine path -/

def Result (s s' : Ledger β) : Prop :=
  ∃ body last, Body body ∧ last.IsEnd ∧ s'.calls = s.calls ++ (body ++ [last]) ∧
    (s'.BrokeOff ↔ s.BrokeOff) ∧ (s'.Delivered ↔ body ≠ [])

section
variable {s s' s'' : Ledger β}

theorem Result.of_adds (hs : ¬s.Delivered) (h : Adds [.onError] s s') : Result s s' :=
  ⟨[], .onError, .inl rfl, .inr rfl, h.calls, h.brokeOff, by simp [h.delivered, hs]⟩

theorem Result.after (h : Adds [] s s') (h' : Result s' s'') : Result s s'' := by
  obtain ⟨body, last, hbody, hlast, hcalls, hbroke, hdelivered⟩ := h'
  refine ⟨body, last, hbody, hlast, ?_, hbroke.trans h.brokeOff, hdelivered⟩
  rw [hcalls, h.calls, append_nil]

theorem Result.before (h : Result s s') (h' : Adds [] s' s'') : Result s s'' := by
  obtain ⟨body, last, hbody, hlast, hcalls, hbroke, hdelivered⟩ := h
  refine ⟨body, last, hbody, hlast, ?_, h'.brokeOff.trans hbroke, h'.delivered.trans hdelivered⟩
  rw [h'.calls, hcalls, append_nil]

theorem callError_result (o : Option Tee) (hs : ¬s.Delivered) :
    Yields (fun _ s' => Result s s') (callSink .onError o) s :=
  (callSink_yields .onError o).mono fun _ _ h => .of_adds hs h.2

theorem endError_result (status : QueryStatus) (o : Option Tee) (hs : ¬s.Delivered) :
    Yields (fun _ s' => Result s s') (endWith .onError status o) s :=
  (endWith_yields .onError status o).mono fun _ _ h => .of_adds hs h

structure Opened (items : List (Option β)) (s s' : Ledger β) : Prop where
  calls : s'.calls = s.calls
  brokeOff : s'.BrokeOff ↔ s.BrokeOff
  delivered : s'.Delivered ↔ ∃ batch, items.head? = some (some batch)

theorem yields_execute {R : A → Ledger β → Prop} {native : Bool}
    {k : Option (List (Option β)) → Future β A} (hs : ¬s.Delivered)
    (hfailed : ∀ s', Adds [] s s' → Yields R (k none) s')
    (hopened : ∀ items s', Opened items s s' → Yields R (k (some items)) s') :
    Yields R (.ask (.execute native) k) s := by
  refine ⟨fun _ hno => hno, fun answer acted _ => ?_⟩
  have hbroke (e : Event β) (he : e.breaksOff = false) : (s.note e).BrokeOff ↔ s.BrokeOff :=
    (exists_note s e).trans (or_iff_left (by rw [he]; exact Bool.false_ne_true))
  cases answer with
  | none =>
    refine hfailed _ ⟨(append_nil _).symm, hbroke _ rfl, ?_⟩
    exact (exists_note s _).trans (or_iff_left Bool.false_ne_true)
  | some items =>
    refine hopened items _ ⟨rfl, hbroke _ rfl, ?_⟩
    refine (exists_note s _).trans ((or_iff_right hs).trans ?_)
    cases items with
    | nil => simp [Event.delivers]
    | cons item => cases item <;> simp [Event.delivers]

theorem Result.of_opened {items : List (Option β)} {body : List (SinkCall β)} {last : SinkCall β}
    (h : Opened items s s') (hbody : Body body) (hlast : last.IsEnd)
    (hadds : Adds (body ++ [last]) s' s'')
    (hhead : body ≠ [] ↔ ∃ batch, items.head? = some (some batch)) : Result s s'' := by
  refine ⟨body, last, hbody, hlast, ?_, hadds.brokeOff.trans h.brokeOff, ?_⟩
  · rw [hadds.calls, h.calls]
  · exact hadds.delivered.trans (h.delivered.trans hhead.symm)

variable (cfg : Config)

theorem execution_result (cluster : String) (o : Option Tee) (hs : ¬s.Delivered) :
    Yields (fun _ s' => Result s s') (execution cfg cluster o) s := by
  have hfailed {s s' : Ledger β} (hs : ¬s.Delivered) (h : Adds [] s s') :
      Yields (fun _ s'' => Result s s'') (endWith .onError .failed o) s' :=
    (endError_result _ o (by rwa [h.delivered])).mono fun _ _ hr => hr.after h
  unfold execution
  split
  · unfold executeNativeToSink
    split
    · refine yields_execute hs (fun s' h => hfailed hs h) fun items s' h => ?_
      refine (nativeLoop_yields items o).mono fun e s'' hloop => ?_
      obtain ⟨chunks, last, hlast, hadds, hhead⟩ := hloop
      refine .of_opened h (.inr (.inr ⟨chunks, rfl⟩)) hlast hadds ?_
      rw [ne_eq, map_eq_nil_iff]
      exact hhead
    · exact endError_result _ o hs
  · refine yields_unseen rfl fun _ s₁ h₁ => ?_
    have hs₁ : ¬s₁.Delivered := by rwa [h₁.delivered]
    refine Asks.Ensures.mono (R := fun _ s' => Result s₁ s') ?_ fun _ _ h => h.after h₁
    refine yields_execute hs₁ (fun s' h => hfailed hs₁ h) fun items s' h => ?_
    refine (streamLoop_yields items o).mono fun e s'' hloop => ?_
    obtain ⟨body, last, hbody, hlast, hadds, hhead⟩ := hloop
    exact .of_opened h hbody hlast hadds hhead

theorem release_unseen (p : ReleasePoint) {k : Future β A} (hk : k.All (·.unseen = true)) :
    (release cfg p k).All (·.unseen = true) := by
  unfold release
  split
  · exact .ask rfl fun _ => hk
  · exact hk

theorem denyAndRecord_unseen :
    (denyAndRecord cfg : Future β (Except Unit A)).All (·.unseen = true) :=
  .ask rfl fun _ => release_unseen cfg _ (.done trivial)

theorem setupHolding_unseen (cluster : String) :
    (setupHolding cfg cluster : Future β _).All (·.unseen = true) := by
  refine .ask rfl fun _ => .ask rfl fun _ => .ask rfl fun allowed => ?_
  split
  · refine .ask rfl fun translated => ?_
    split
    · refine .ask rfl fun kept => ?_
      split
      · refine .ask rfl fun resolved => ?_
        split
        · exact .ask rfl fun _ => .done trivial
        · exact release_unseen cfg _ (.done trivial)
      · exact denyAndRecord_unseen cfg
    · exact .ask rfl fun _ => release_unseen cfg _ (.done trivial)
  · exact denyAndRecord_unseen cfg

theorem setupSyncQuery_unseen : (setupSyncQuery cfg : Future β _).All (·.unseen = true) := by
  have hacquire {B : Type} (x : Slots.Future B) :
      (x.embed .acquire fun _ d => d : Future β B).All (·.unseen = true) :=
    Asks.All.embed (P := fun q : Call β => q.unseen = true) (fun _ => rfl) x
  refine (hacquire _).bind fun acquired _ => ?_
  cases acquired with
  | error => exact .ask rfl fun _ => .done trivial
  | ok cluster => exact setupHolding_unseen cfg cluster

theorem finish_unseen (e : Executed) : (finish cfg e : Future β _).All (·.unseen = true) := by
  have hexit {B : Type} (status : QueryStatus) (b : B) :
      (.ask .disarm fun _ => release cfg .atEnd <| record status <| .done b : Future β B).All
        (·.unseen = true) :=
    .ask rfl fun _ => release_unseen cfg _ (.ask rfl fun _ => .done trivial)
  unfold finish
  dsimp only
  split
  · exact hexit _ _
  · exact .ask rfl fun _ => hexit _ _

theorem executeToSinkInner_result (o : Option Tee) (hs : ¬s.Delivered) :
    Yields (fun _ s' => Result s s') (executeToSinkInner cfg o) s := by
  have herror {s₁ : Ledger β} (h₁ : Adds [] s s₁) :
      Yields (fun _ s' => Result s s') (callSink .onError o) s₁ :=
    (callError_result o (by rwa [h₁.delivered])).mono fun _ _ h => h.after h₁
  refine (yields_of_unseen (setupSyncQuery_unseen cfg)).bind fun r s₁ h₁ => ?_
  cases r with
  | error => exact herror h₁
  | ok cluster =>
    refine yields_unseen rfl fun passed s₂ h₂ => ?_
    split
    · have htranslated : (translatedSql o : Future β Bool).All (·.unseen = true) := by
        cases o with
        | none => exact .ask rfl fun _ => .done trivial
        | some => exact .done trivial
      refine (yields_of_unseen htranslated).bind fun ok s₃ h₃ => ?_
      split
      · refine yields_unseen rfl fun _ s₄ h₄ => ?_
        have hbefore := ((h₁.trans h₂).trans h₃).trans h₄
        refine (execution_result cfg cluster o (by rwa [hbefore.delivered])).bind fun e s₅ h₅ => ?_
        exact (yields_of_unseen (finish_unseen cfg e)).mono fun _ _ h₆ =>
          (h₅.before h₆).after hbefore
      · exact herror ((h₁.trans h₂).trans h₃)
    · have hblocked : (release cfg .blocked <| record .failed <| .done () : Future β Unit).All
          (·.unseen = true) := release_unseen cfg _ (.ask rfl fun _ => .done trivial)
      have hseq : (release cfg .blocked <| record .failed <| callSink .onError o) =
          (release cfg .blocked <| record .failed <| .done () : Future β Unit).bind fun _ =>
            callSink .onError o := by
        unfold release
        split <;> rfl
      rw [hseq]
      exact (yields_of_unseen hblocked).bind fun _ s₃ h₃ => herror ((h₁.trans h₂).trans h₃)

theorem executeTeed_result (hs : ¬s.Delivered) :
    Yields (fun _ s' => Result s s') (executeTeed cfg) s := by
  refine yields_unseen rfl fun created s₁ h₁ => ?_
  have hs₁ : ¬s₁.Delivered := by rwa [h₁.delivered]
  split
  · refine (executeToSinkInner_result cfg (some .new) hs₁).bind fun (ok, o) s₂ h₂ => ?_
    cases o with
    | none => exact h₂.after h₁
    | some t =>
      exact (yields_of_unseen (finalizeCache_unseen t)).map fun _ _ h₃ => (h₂.before h₃).after h₁
  · exact (executeToSinkInner_result cfg none hs₁).map fun _ _ h₂ => h₂.after h₁

end

/-! ## Replay -/

section
variable {s : Ledger β}

theorem replayLoop_yields_started (items : List (Option β)) :
    Yields (fun lookup s' => lookup = (if items.any Option.isNone then .failed else .hit) ∧
      ∃ batches : List β, Adds (batches.map .onBatch) s s') (replayLoop items true) s := by
  induction items generalizing s with
  | nil => exact ⟨rfl, [], .refl s⟩
  | cons item _ ih =>
    cases item with
    | none => exact ⟨rfl, [], .refl s⟩
    | some batch =>
      refine yields_sink fun s₁ h₁ => ih.mono fun lookup s₂ h => ?_
      obtain ⟨hlookup, batches, h₂⟩ := h
      exact ⟨hlookup, batch :: batches, h₁.trans h₂⟩

def Replayed (broken : Prop) (lookup : Dispatch.CacheLookup) (s s' : Ledger β) : Prop :=
  match lookup with
  | .hit => ¬broken ∧ ∃ batches : List β, Adds (.onSchema :: batches.map .onBatch) s s'
  | .miss => ¬broken ∧ Adds [] s s'
  | .failed => broken ∧ ∃ batches : List β, Adds (.onSchema :: batches.map .onBatch) s s'

theorem replayLoop_yields (items : List (Option β)) :
    Yields (fun lookup s' => Replayed (breaksOff items = true) lookup s s')
      (replayLoop items false) s := by
  cases items with
  | nil => exact yields_sink fun s' h => ⟨Bool.false_ne_true, [], h⟩
  | cons item items =>
    cases item with
    | none => exact ⟨Bool.false_ne_true, .refl s⟩
    | some batch =>
      refine yields_sink fun s₁ h₁ => yields_sink fun s₂ h₂ => ?_
      refine (replayLoop_yields_started items).mono fun lookup s₃ h => ?_
      obtain ⟨rfl, batches, h₃⟩ := h
      have hadds : Adds (.onSchema :: (batch :: batches).map .onBatch) s s₃ :=
        (h₁.trans h₂).trans h₃
      change Replayed (items.any Option.isNone = true) _ s s₃
      cases items.any Option.isNone with
      | true => exact ⟨rfl, _, hadds⟩
      | false => exact ⟨Bool.false_ne_true, _, hadds⟩

structure LookedUp (lookup : Dispatch.CacheLookup) (s s' : Ledger β) : Prop where
  delivered : s'.Delivered ↔ s.Delivered
  brokeOff : s'.BrokeOff ↔ lookup = .failed
  calls : if lookup = .miss then s'.calls = s.calls
    else ∃ batches : List β, s'.calls = s.calls ++ .onSchema :: batches.map .onBatch

theorem tryStreamCached_yields (hs : ¬s.BrokeOff) :
    Yields (fun lookup s' => LookedUp lookup s s') tryStreamCached s := by
  have hmiss {s' : Ledger β} (h : Adds [] s s') : LookedUp .miss s s' :=
    ⟨h.delivered, by simp [h.brokeOff, hs], by simpa using h.calls⟩
  refine yields_unseen rfl fun valid s₁ h₁ => ?_
  split
  · refine ⟨fun _ hno => hno, fun answer acted _ => ?_⟩
    cases answer with
    | none =>
      refine hmiss (h₁.trans ⟨(append_nil _).symm, ?_, ?_⟩)
      · exact (exists_note s₁ _).trans (or_iff_left Bool.false_ne_true)
      · exact (exists_note s₁ _).trans (or_iff_left Bool.false_ne_true)
    | some items =>
      refine (replayLoop_yields items).mono fun lookup s₃ h => ?_
      have hdelivered : (s₁.note ⟨.operatorRead, some (some items)⟩).Delivered ↔ s.Delivered :=
        ((exists_note s₁ _).trans (or_iff_left Bool.false_ne_true)).trans h₁.delivered
      have hbroke : (s₁.note ⟨.operatorRead, some (some items)⟩).BrokeOff ↔
          breaksOff items = true :=
        (exists_note s₁ _).trans (or_iff_right (by rw [← BrokeOff, h₁.brokeOff]; exact hs))
      have hcalls : (s₁.note ⟨.operatorRead, some (some items)⟩).calls = s.calls := by
        rw [note, h₁.calls, append_nil]
      cases lookup with
      | hit =>
        obtain ⟨hwhole, batches, hadds⟩ := h
        refine ⟨hadds.delivered.trans hdelivered, ?_, batches, ?_⟩
        · simp [hadds.brokeOff.trans hbroke, hwhole]
        · rw [hadds.calls, ← hcalls]
          rfl
      | miss =>
        obtain ⟨hwhole, hadds⟩ := h
        refine ⟨hadds.delivered.trans hdelivered, ?_, ?_⟩
        · simp [hadds.brokeOff.trans hbroke, hwhole]
        · exact (hadds.calls.trans (append_nil _)).trans hcalls
      | failed =>
        obtain ⟨hbroken, batches, hadds⟩ := h
        refine ⟨hadds.delivered.trans hdelivered, ?_, batches, ?_⟩
        · simp [hadds.brokeOff.trans hbroke, hbroken]
        · rw [hadds.calls, ← hcalls]
          rfl
  · exact hmiss h₁

end

/-- The calls are well formed unless an entry broke off and the engine then delivered. -/
def Outcome (s : Ledger β) : Prop := WellFormed s.calls ↔ ¬(s.BrokeOff ∧ s.Delivered)

theorem outcome_of_result {s s' : Ledger β} (hcalls : s.calls = []) (hbroke : ¬s.BrokeOff)
    (h : Result s s') : Outcome s' := by
  obtain ⟨body, last, hbody, hlast, heq, hb, _⟩ := h
  rw [hcalls, nil_append] at heq
  have hwell : WellFormed s'.calls := ⟨body, last, heq, hbody, hlast⟩
  exact iff_of_true hwell fun hboth => hbroke (hb.1 hboth.1)

theorem outcome_of_failed {s s' : Ledger β} {batches : List β}
    (hcalls : s.calls = .onSchema :: batches.map .onBatch) (hbroke : s.BrokeOff)
    (h : Result s s') : Outcome s' := by
  obtain ⟨body, last, hbody, hlast, heq, hb, hdelivered⟩ := h
  rw [Outcome, heq, hcalls, wellFormed_append_iff hbody hlast, hb, hdelivered]
  simp [hbroke]

/-- The calls of the whole function. -/
theorem executeToSink_outcome (cfg : Config) :
    Yields (fun _ s => Outcome s) (executeToSink cfg) (Ledger.empty : Ledger β) := by
  have hno {p : Event β → Bool} : ¬∃ e ∈ (Ledger.empty : Ledger β).trace, p e = true :=
    fun ⟨_, he, _⟩ => absurd he not_mem_nil
  have herror {s : Ledger β} (h : Adds [] .empty s) :
      Yields (fun _ s => Outcome s) (.ask (.sink false .onError) fun ok => .done ok) s :=
    yields_sink fun s' h' => outcome_of_result rfl hno (.of_adds hno (h.trans h'))
  have hplain {s : Ledger β} (h : Adds [] .empty s) :
      Yields (fun _ s => Outcome s) ((executeToSinkInner cfg none).map (·.1)) s := by
    have hs : ¬s.Delivered := by
      rw [h.delivered]
      exact hno
    exact (executeToSinkInner_result cfg none hs).map fun _ _ h' =>
      outcome_of_result rfl hno (h'.after h)
  have heligible : (cacheEligible cfg : Future β Bool).All (·.unseen = true) := by
    unfold cacheEligible
    split
    · exact .ask rfl fun _ => .done trivial
    · exact .done trivial
  have hstage : (cacheStage cfg : Future β Bool).All (·.unseen = true) := by
    unfold cacheStage
    split
    · exact .ask rfl fun _ => .ask rfl fun _ => .done trivial
    · exact .done trivial
  refine yields_unseen rfl fun authorized s₁ h₁ => ?_
  split
  · refine (yields_of_unseen heligible).bind fun eligible s₂ h₂ => ?_
    split
    · refine (yields_of_unseen hstage).bind fun allowed s₃ h₃ => ?_
      split
      · refine yields_unseen rfl fun passed s₄ h₄ => ?_
        have hbefore := ((h₁.trans h₂).trans h₃).trans h₄
        split
        · have hs₄ : ¬s₄.BrokeOff := by
            rw [hbefore.brokeOff]
            exact hno
          refine (tryStreamCached_yields hs₄).bind fun lookup s₅ h₅ => ?_
          have hdelivered : ¬s₅.Delivered := by
            rw [h₅.delivered, hbefore.delivered]
            exact hno
          have hcalls : s₄.calls = [] := hbefore.calls
          have hsent := h₅.calls
          rw [hcalls] at hsent
          cases lookup with
          | hit =>
            obtain ⟨batches, hsent⟩ := hsent
            refine yields_unseen rfl fun _ s₆ h₆ => yields_sink fun s₇ h₇ => ?_
            have hadds := h₆.trans h₇
            have hwell : WellFormed s₇.calls :=
              ⟨_, .onComplete, by rw [hadds.calls, hsent]; rfl, .replayed batches, .inl rfl⟩
            refine iff_of_true hwell fun hboth => ?_
            cases h₅.brokeOff.1 (hadds.brokeOff.1 hboth.1)
          | miss =>
            have hwhole : ¬s₅.BrokeOff := fun hbroke => by cases h₅.brokeOff.1 hbroke
            exact (executeTeed_result cfg hdelivered).mono fun _ _ h =>
              outcome_of_result hsent hwhole h
          | failed =>
            obtain ⟨batches, hsent⟩ := hsent
            exact (executeTeed_result cfg hdelivered).mono fun _ _ h =>
              outcome_of_failed hsent (h₅.brokeOff.2 rfl) h
        · exact herror hbefore
      · exact hplain ((h₁.trans h₂).trans h₃)
    · exact hplain (h₁.trans h₂)
  · exact herror h₁

/-- Without failures of the sink the function returns, and the calls are well formed if and only if
it is not the case that a cached entry breaks off and the engine delivers after it. -/
theorem wellFormed_iff {cfg : Config} {r : Option Bool} {s : Ledger β}
    (h : Asks.Runs undisturbedCalls (executeToSink cfg) .empty r s) :
    r.isSome = true ∧ (WellFormed s.calls ↔
      ¬((∃ e ∈ s.trace, e.breaksOff = true) ∧ ∃ e ∈ s.trace, e.delivers = true)) := by
  have houtcome := executeToSink_outcome (β := β) cfg
  cases r with
  | none => exact (houtcome.dropped h).elim
  | some => exact ⟨rfl, houtcome.returned h⟩

/-! ## Two runs with a cached entry -/

def replaying (items : List (Option Nat)) : (q : Call Nat) → Answer q
  | .operatorRead => some items
  | q => succeeding q

def cachingConfig : Config :=
  ⟨⟨false, fun _ => some .sync, false, true⟩, 1, true, false, fun _ => false⟩

theorem runs_replaying (items : List (Option Nat)) :
    Asks.Runs undisturbedCalls (executeToSink cachingConfig) .empty
      ((executeToSink cachingConfig).play undisturbedCalls
        (fun q => (some (replaying items q), true)) .empty).1
      ((executeToSink cachingConfig).play undisturbedCalls
        (fun q => (some (replaying items q), true)) .empty).2 := by
  refine Asks.runs_play (fun q => ?_) _ _
  cases q with
  | sink | onTranslatedSql => exact rfl
  | _ => trivial

/-- The entry is complete. -/
theorem wellFormed_replay :
    ∃ s : Ledger Nat,
      Asks.Runs undisturbedCalls (executeToSink cachingConfig) .empty (some true) s ∧
      s.calls = [.onSchema, .onBatch 1, .onComplete] ∧ WellFormed s.calls := by
  have hrun := runs_replaying [some 1]
  have hengine : ¬∃ e ∈ ((executeToSink cachingConfig).play undisturbedCalls
      (fun q => (some (replaying [some 1] q), true)) .empty).2.trace, e.delivers = true := by decide
  exact ⟨_, hrun, rfl, (wellFormed_iff hrun).2.2 fun hboth => hengine hboth.2⟩

/-- The entry breaks off after a batch, and the engine starts over. -/
theorem replay_then_engine :
    ∃ s : Ledger Nat,
      Asks.Runs undisturbedCalls (executeToSink cachingConfig) .empty (some true) s ∧
      s.calls = [.onSchema, .onBatch 1, .onSchema, .onBatch 1, .onComplete] ∧
      ¬WellFormed s.calls := by
  refine ⟨_, runs_replaying [some 1, none], rfl, ?_⟩
  have hsecond : WellFormed (.onSchema :: [1].map .onBatch ++
      ((.onSchema :: [1].map .onBatch) ++ [.onComplete])) ↔ _ :=
    wellFormed_append_iff (.replayed [1]) (.inl rfl)
  exact fun hwell => by cases hsecond.1 hwell

end QueryFlux.Sink
