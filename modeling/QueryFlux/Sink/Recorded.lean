import QueryFlux.Sink.Execute

/-!
# How often a query is recorded

`loses` tells the events after which nothing records the query any more: a failed check or call on
which the function returns without a record, and every place where the future can be dropped before
the query is recorded and while no cancel guard is armed. A run without such an event records the
query once, any other run not at all (`recorded_once_iff`).

A query is in one of four modes: `waiting` for its record, `guarded` by the armed cancel guard,
`recorded`, or `lost`. The rules below say which questions may be asked in a mode; each part of
`execute_to_sink` is then checked once against them.
-/

namespace QueryFlux.Sink

open Lib

/-! ## Losing the record -/

variable {β A : Type}

/-- Nothing is recorded when the function is dropped here. -/
def Site.unguarded : Site → Bool
  | .writeSchema | .writeBatch | .finalizeWriter | .executionHints | .next => false
  | _ => true

/-- The function returns without a record when this fails. -/
def Site.returnsUnrecorded : Site → Bool
  | .authorizationCheck | .cachePlanGuards | .resolveCredentials | .interpolate => true
  | _ => false

def ReleasePoint.unguarded : ReleasePoint → Bool
  | .blocked | .atEnd => true
  | .denied | .translationFailed | .credentialsFailed => false

/-- This answer, or a drop here, ends the function without a record. -/
def loses : (q : Call β) → Option (Answer q) → Bool
  | .notAcquired, _ => true
  | .sink replay _, none => replay
  | .onTranslatedSql, none => true
  | .onTranslatedSql, some ok => !ok
  | .site p, none => p.unguarded
  | .site p, some ok => !ok && p.returnsUnrecorded
  | .release p, none => p.unguarded
  | .acquire _, none => true
  | .operatorRead, none => true
  | .record _, _ | .arm, _ | .fire, _ | .disarm, _ | .execute _, _ | .sink .., some _
  | .release _, some _ | .acquire _, some _ | .operatorRead, some _ => false

def Event.loses (e : Event β) : Bool := Sink.loses e.call e.answer

/-- Before the guard, under it, after the record, or ended without one. -/
inductive Mode
  | waiting | guarded | recorded | lost
  deriving DecidableEq

namespace Ledger

variable {s : Ledger β} {m : Mode}

def Loses (s : Ledger β) : Prop := ∃ e ∈ s.trace, e.loses = true

def In (s : Ledger β) : Mode → Prop
  | .waiting => s.records = [] ∧ s.armed = false ∧ ¬s.Loses
  | .guarded => s.records = [] ∧ s.armed = true ∧ ¬s.Loses
  | .recorded => s.records.length = 1 ∧ s.armed = false ∧ ¬s.Loses
  | .lost => s.records = [] ∧ s.armed = false ∧ s.Loses

def Settled (s : Ledger β) : Prop := s.In .recorded ∨ s.In .lost

theorem loses_note (s : Ledger β) (e : Event β) :
    (s.note e).Loses ↔ s.Loses ∨ e.loses = true := by
  constructor
  · rintro ⟨e', he', hloses⟩
    rcases List.mem_append.1 he' with he' | he'
    · exact .inl ⟨e', he', hloses⟩
    · rw [List.mem_singleton] at he'
      exact .inr (he' ▸ hloses)
  · rintro (⟨e', he', hloses⟩ | hloses)
    · exact ⟨e', List.mem_append_left _ he', hloses⟩
    · exact ⟨e, List.mem_append_right _ (.head _), hloses⟩

theorem In.note (h : s.In m) {e : Event β} (he : m = .lost ∨ e.loses = false) :
    (s.note e).In m := by
  cases m with
  | lost => exact ⟨h.1, h.2.1, (loses_note s e).2 (.inl h.2.2)⟩
  | _ =>
    have hno : ¬(s.note e).Loses := by
      rw [loses_note]
      rintro (hloses | hloses)
      · exact h.2.2 hloses
      · rw [he.resolve_left (by simp)] at hloses
        cases hloses
    exact ⟨h.1, h.2.1, hno⟩

theorem In.lose (h : s.In .waiting) {e : Event β} (he : e.loses = true) : (s.note e).In .lost :=
  ⟨h.1, h.2.1, (loses_note s e).2 (.inr he)⟩

end Ledger

def Call.quiet : Call β → Bool
  | .record _ | .arm | .fire | .disarm => false
  | _ => true

def Mode.settledByDrop (m : Mode) (q : Call β) : Prop :=
  match m with
  | .waiting => loses q none = true
  | .guarded | .recorded => loses q none = false
  | .lost => True

structure Mode.Keeps (m : Mode) (q : Call β) : Prop where
  quiet : q.quiet = true
  drop : q.isStatement = false → m.settledByDrop q
  answer : m = .lost ∨ ∀ d, loses q (some d) = false

section
variable {q : Call β} {m : Mode} {s : Ledger β}

theorem act_quiet (hq : q.quiet = true) (s : Ledger β) :
    (s.act q).records = s.records ∧ (s.act q).armed = s.armed ∧ (s.act q).trace = s.trace := by
  cases q with
  | record | arm | fire | disarm => cases hq
  | _ => exact ⟨rfl, rfl, rfl⟩

theorem in_act (hq : q.quiet = true) (h : s.In m) : (s.act q).In m := by
  obtain ⟨hrecords, harmed, htrace⟩ := act_quiet hq s
  cases m <;> (unfold Ledger.In Ledger.Loses at *; rw [hrecords, harmed, htrace]; exact h)

theorem in_answered (hq : q.quiet = true) (h : s.In m) {d : Answer q} (acted : Bool)
    (hd : m = .lost ∨ loses q (some d) = false) : (effect q (some d) acted s).In m :=
  (in_act hq h).note hd

theorem settled_dropped (hq : q.quiet = true) (h : s.In m) (acted : Bool)
    (hdrop : m.settledByDrop q) : (effect q none acted s).Settled := by
  have hact := in_act hq h
  change ((s.act q).note ⟨q, none⟩).dropped.Settled
  unfold Ledger.dropped
  cases m with
  | waiting =>
    have hnote := hact.lose (e := ⟨q, none⟩) hdrop
    rw [if_neg (by rw [hnote.2.1]; exact Bool.false_ne_true)]
    exact .inr hnote
  | guarded =>
    have hnote := hact.note (e := ⟨q, none⟩) (.inr hdrop)
    rw [if_pos hnote.2.1]
    refine .inl ⟨?_, rfl, hnote.2.2⟩
    rw [hnote.1]
    rfl
  | recorded =>
    have hnote := hact.note (e := ⟨q, none⟩) (.inr hdrop)
    rw [if_neg (by rw [hnote.2.1]; exact Bool.false_ne_true)]
    exact .inl hnote
  | lost =>
    have hnote := hact.note (e := ⟨q, none⟩) (.inl rfl)
    rw [if_neg (by rw [hnote.2.1]; exact Bool.false_ne_true)]
    exact .inr hnote

/-- Where the future is dropped the query is settled, and where it returns `R` holds. -/
abbrev Ends (R : A → Ledger β → Prop) (x : Future β A) (s : Ledger β) : Prop :=
  x.Ensures sinkCalls Ledger.Settled R s

variable {R : A → Ledger β → Prop}

theorem ends_ask {k : Answer q → Future β A} (hq : m.Keeps q) (h : s.In m)
    (hk : ∀ d s', s'.In m → Ends R (k d) s') : Ends R (.ask q k) s := by
  refine ⟨fun acted hpos => ?_, fun d acted _ => hk d _ ?_⟩
  · cases hst : q.isStatement with
    | true => cases hpos hst
    | false => exact settled_dropped hq.quiet h acted (hq.drop hst)
  · exact in_answered hq.quiet h acted (hq.answer.imp_right fun hno => hno d)

theorem ends_ask_waiting {k : Answer q → Future β A} (hq : q.quiet = true)
    (hdrop : q.isStatement = false → loses q none = true) (h : s.In .waiting)
    (hkeep : ∀ d s', loses q (some d) = false → s'.In .waiting → Ends R (k d) s')
    (hlose : ∀ d s', loses q (some d) = true → s'.In .lost → Ends R (k d) s') :
    Ends R (.ask q k) s := by
  refine ⟨fun acted hpos => ?_, fun d acted _ => ?_⟩
  · cases hst : q.isStatement with
    | true => cases hpos hst
    | false => exact settled_dropped hq h acted (hdrop hst)
  · cases hd : loses q (some d) with
    | false => exact hkeep d _ hd (in_answered hq h acted (.inr hd))
    | true => exact hlose d _ hd ((in_act hq h).lose hd)

theorem ends_of_keeps {x : Future β A} (hx : x.All m.Keeps) (h : s.In m) :
    Ends (fun _ s => s.In m) x s := by
  induction hx generalizing s with
  | done => exact h
  | ask hq _ ih => exact ends_ask hq h fun d s' hs' => ih d hs'

theorem settled_of_keeps {x : Future β A} (hx : ∀ m : Mode, m ≠ .waiting → x.All m.Keeps)
    (h : s.Settled) : Ends (fun _ s => s.Settled) x s := by
  rcases h with h | h
  · exact (ends_of_keeps (hx _ (by decide)) h).mono fun _ _ h => .inl h
  · exact (ends_of_keeps (hx _ (by decide)) h).mono fun _ _ h => .inr h

theorem ends_record {status : QueryStatus} {k : Future β A} (h : s.In .waiting)
    (hk : ∀ s', s'.In .recorded → Ends R k s') : Ends R (record status k) s := by
  refine ⟨fun acted hpos => ?_, fun d acted _ => hk _ ?_⟩
  · cases hpos rfl
  · have hrecorded : (s.act (.record status)).In .recorded :=
      ⟨by change (s.records ++ [status]).length = 1; rw [h.1]; rfl, h.2.1, h.2.2⟩
    exact hrecorded.note (.inr rfl)

theorem ends_guard {k : Future β A} {m m' : Mode}
    (hq : (q = .arm ∧ m' = .guarded) ∨ ((q = .fire ∨ q = .disarm) ∧ m' = .waiting))
    (hm : m = .waiting ∨ m = .guarded) (h : s.In m) (hk : ∀ s', s'.In m' → Ends R k s') :
    Ends R (.ask q fun _ => k) s := by
  have hopen : s.records = [] ∧ ¬s.Loses := by
    rcases hm with rfl | rfl <;> exact ⟨h.1, h.2.2⟩
  rcases hq with ⟨rfl, rfl⟩ | ⟨rfl | rfl, rfl⟩
  · refine ⟨fun acted hpos => (by cases hpos rfl), fun d acted _ => hk _ ?_⟩
    have hact : (s.act .arm).In .guarded := ⟨hopen.1, rfl, hopen.2⟩
    exact hact.note (.inr rfl)
  · refine ⟨fun acted hpos => (by cases hpos rfl), fun d acted _ => hk _ ?_⟩
    have hact : (s.act .fire).In .waiting := ⟨hopen.1, rfl, hopen.2⟩
    exact hact.note (.inr rfl)
  · refine ⟨fun acted hpos => (by cases hpos rfl), fun d acted _ => hk _ ?_⟩
    have hact : (s.act .disarm).In .waiting := ⟨hopen.1, rfl, hopen.2⟩
    exact hact.note (.inr rfl)

end

/-! ## The parts of the program -/

section
variable {m : Mode}

theorem settledByDrop_of_not_loses (hm : m ≠ .waiting) {q : Call β} (h : loses q none = false) :
    m.settledByDrop q := by
  cases m with
  | waiting => exact absurd rfl hm
  | guarded => exact h
  | recorded => exact h
  | lost => trivial

theorem keeps_site_waiting {p : Site} (h : p.unguarded = true)
    (hreturns : p.returnsUnrecorded = false) : Mode.waiting.Keeps (.site p : Call β) := by
  refine ⟨rfl, fun _ => h, .inr fun d => ?_⟩
  rw [loses, hreturns, Bool.and_false]

theorem keeps_site {p : Site} (hm : m ≠ .waiting) (h : p.unguarded = false)
    (hreturns : p.returnsUnrecorded = false) : m.Keeps (.site p : Call β) := by
  refine ⟨rfl, fun _ => settledByDrop_of_not_loses hm h, .inr fun d => ?_⟩
  rw [loses, hreturns, Bool.and_false]

theorem keeps_sink (hm : m ≠ .waiting) (call : SinkCall β) : m.Keeps (.sink false call) :=
  ⟨rfl, fun _ => settledByDrop_of_not_loses hm rfl, .inr fun _ => rfl⟩

theorem keeps_execute (hm : m ≠ .waiting) (native : Bool) : m.Keeps (.execute native : Call β) :=
  ⟨rfl, fun _ => settledByDrop_of_not_loses hm rfl, .inr fun _ => rfl⟩

theorem keeps_replay (call : SinkCall β) : Mode.waiting.Keeps (.sink true call) :=
  ⟨rfl, fun _ => rfl, .inr fun _ => rfl⟩

theorem keeps_release {p : ReleasePoint} (hm : m ≠ .waiting) (h : p.unguarded = false) :
    m.Keeps (.release p : Call β) :=
  ⟨rfl, fun _ => settledByDrop_of_not_loses hm h, .inr fun _ => rfl⟩

theorem keeps_release_waiting {p : ReleasePoint} (h : p.unguarded = true) :
    Mode.waiting.Keeps (.release p : Call β) :=
  ⟨rfl, fun _ => h, .inr fun _ => rfl⟩

section
variable (hm : m ≠ .waiting)
include hm

theorem abandonCache_keeps (t : Tee) : (t.abandonCache : Future β Tee).All m.Keeps := by
  unfold Tee.abandonCache
  split
  · exact .done trivial
  · exact .ask (keeps_site hm rfl rfl) fun _ => .done trivial

theorem finalizeCache_keeps (t : Tee) : (t.finalizeCache : Future β Unit).All m.Keeps := by
  unfold Tee.finalizeCache
  split
  · exact .done trivial
  · exact .ask (keeps_site hm rfl rfl) fun _ => .done trivial

theorem mirror_keeps {p : Site} (h : p.unguarded = false) (hreturns : p.returnsUnrecorded = false)
    (t : Tee) : (t.mirror p : Future β Tee).All m.Keeps := by
  unfold Tee.mirror
  split
  · refine .ask (keeps_site hm h hreturns) fun ok => ?_
    split
    · exact .done trivial
    · exact abandonCache_keeps hm t
  · exact .done trivial

theorem before_keeps (t : Tee) (call : SinkCall β) : (t.before call).All m.Keeps := by
  cases call with
  | onSchema | onBatch => exact mirror_keeps hm rfl rfl t
  | onNativeChunk | onError => exact abandonCache_keeps hm t
  | onComplete => exact .done trivial

theorem callSink_keeps (call : SinkCall β) (o : Option Tee) : (callSink call o).All m.Keeps := by
  cases o with
  | none => exact .ask (keeps_sink hm call) fun _ => .done trivial
  | some t =>
    exact (before_keeps hm t call).bind fun t _ =>
      .ask (keeps_sink hm call) fun _ => .done trivial

theorem endWith_keeps (call : SinkCall β) (status : QueryStatus) (o : Option Tee) :
    (endWith call status o).All m.Keeps :=
  (callSink_keeps hm call o).map fun _ _ => trivial

theorem sendSchema_keeps (sent : Bool) (o : Option Tee) :
    (sendSchema sent o : Future β (Bool × Option Tee)).All m.Keeps := by
  unfold sendSchema
  split
  · exact .done trivial
  · exact callSink_keeps hm _ o

theorem streamLoop_keeps (items : List (Option β)) (sent : Bool) (o : Option Tee) :
    (streamLoop items sent o).All m.Keeps := by
  induction items generalizing sent o with
  | nil => exact .ask (keeps_site hm rfl rfl) fun _ => endWith_keeps hm _ _ o
  | cons item _ ih =>
    cases item with
    | none => exact .ask (keeps_site hm rfl rfl) fun _ => endWith_keeps hm _ _ o
    | some =>
      refine .ask (keeps_site hm rfl rfl) fun _ => ?_
      refine (sendSchema_keeps hm sent o).bind fun (ok, o) _ => ?_
      dsimp only
      split
      · refine (callSink_keeps hm _ o).bind fun (ok, o) _ => ?_
        split
        · exact ih true o
        · exact (callSink_keeps hm _ o).map fun _ _ => trivial
      · exact .done trivial

theorem nativeLoop_keeps (items : List (Option β)) (o : Option Tee) :
    (nativeLoop items o).All m.Keeps := by
  induction items generalizing o with
  | nil => exact .ask (keeps_site hm rfl rfl) fun _ => endWith_keeps hm _ _ o
  | cons item _ ih =>
    cases item with
    | none => exact .ask (keeps_site hm rfl rfl) fun _ => endWith_keeps hm _ _ o
    | some =>
      refine .ask (keeps_site hm rfl rfl) fun _ => ?_
      refine (callSink_keeps hm _ o).bind fun (ok, o) _ => ?_
      dsimp only
      split
      · exact ih o
      · exact .done trivial

theorem execution_keeps (cfg : Config) (cluster : String) (o : Option Tee) :
    (execution cfg cluster o : Future β Executed).All m.Keeps := by
  unfold execution
  split
  · unfold executeNativeToSink
    split
    · refine .ask (keeps_execute hm true) fun answer => ?_
      cases answer with
      | none => exact endWith_keeps hm _ _ o
      | some items => exact nativeLoop_keeps hm items o
    · exact endWith_keeps hm _ _ o
  · refine .ask (keeps_site hm rfl rfl) fun _ => .ask (keeps_execute hm false) fun answer => ?_
    cases answer with
    | none => exact endWith_keeps hm _ _ o
    | some items => exact streamLoop_keeps hm items false o

end

theorem replayLoop_keeps (items : List (Option β)) (started : Bool) :
    (replayLoop items started).All Mode.waiting.Keeps := by
  induction items generalizing started with
  | nil =>
    cases started with
    | true => exact .done trivial
    | false => exact .ask (keeps_replay _) fun _ => .done trivial
  | cons item _ ih =>
    cases item with
    | none => exact .done trivial
    | some =>
      have hschema : (replaySchema started : Future β Bool).All Mode.waiting.Keeps := by
        unfold replaySchema
        split
        · exact .done trivial
        · exact .ask (keeps_replay _) fun _ => .done trivial
      refine hschema.bind fun ok _ => ?_
      split
      · refine .ask (keeps_replay _) fun ok => ?_
        split
        · exact ih true
        · exact .done trivial
      · exact .done trivial

theorem tryStreamCached_keeps : (tryStreamCached : Future β _).All Mode.waiting.Keeps := by
  refine .ask (keeps_site_waiting rfl rfl) fun valid => ?_
  split
  · refine .ask ⟨rfl, fun _ => rfl, .inr fun _ => rfl⟩ fun answer => ?_
    cases answer with
    | none => exact .done trivial
    | some items => exact replayLoop_keeps items false
  · exact .done trivial

theorem acquire_keeps {B : Type} (x : Slots.Future B) :
    (x.embed .acquire fun _ d => d : Future β B).All Mode.waiting.Keeps :=
  Asks.All.embed (fun _ => ⟨rfl, fun _ => rfl, .inr fun _ => rfl⟩) x

end

section
variable {s : Ledger β} {cfg : Config}

/-- A setup that fails is recorded or lost already. -/
def AfterSetup (r : Except Unit String) (s : Ledger β) : Prop :=
  match r with
  | .ok _ => s.In .waiting
  | .error _ => s.Settled

theorem ends_release {p : ReleasePoint} {k : Future β A} {R : A → Ledger β → Prop} {m : Mode}
    (hp : m.Keeps (.release p : Call β)) (h : s.In m) (hk : ∀ s', s'.In m → Ends R k s') :
    Ends R (release cfg p k) s := by
  unfold release
  split
  · exact ends_ask hp h fun _ s' hs' => hk s' hs'
  · exact hk s h

theorem denyAndRecord_ends (h : s.In .waiting) : Ends AfterSetup (denyAndRecord cfg) s :=
  ends_record h fun _ hs => ends_release (keeps_release (by decide) rfl) hs fun _ hs => .inl hs

theorem setupHolding_ends (cluster : String) (h : s.In .waiting) :
    Ends AfterSetup (setupHolding cfg cluster) s := by
  refine ends_ask (keeps_site_waiting rfl rfl) h fun _ s h => ?_
  refine ends_ask (keeps_site_waiting rfl rfl) h fun _ s h => ?_
  refine ends_ask (keeps_site_waiting rfl rfl) h fun allowed s h => ?_
  split
  · refine ends_ask (keeps_site_waiting rfl rfl) h fun translated s h => ?_
    split
    · refine ends_ask (keeps_site_waiting rfl rfl) h fun kept s h => ?_
      split
      · refine ends_ask_waiting rfl (fun _ => rfl) h (fun resolved s hno h => ?_)
          fun resolved s hloses h => ?_
        · cases resolved with
          | false => cases hno
          | true =>
            refine ends_ask_waiting rfl (fun _ => rfl) h (fun filledIn s hno h => ?_)
              fun filledIn s hloses h => ?_
            · cases filledIn with
              | false => cases hno
              | true => exact h
            · cases filledIn with
              | false => exact .inr h
              | true => cases hloses
        · cases resolved with
          | false =>
            exact ends_release (keeps_release (by decide) rfl) h fun _ hs => .inr hs
          | true => cases hloses
      · exact denyAndRecord_ends h
    · exact ends_record h fun _ hs =>
        ends_release (keeps_release (by decide) rfl) hs fun _ hs => .inl hs
  · exact denyAndRecord_ends h

theorem setupSyncQuery_ends (h : s.In .waiting) :
    Ends AfterSetup (setupSyncQuery cfg) s := by
  refine (ends_of_keeps (acquire_keeps _) h).bind fun acquired s h => ?_
  cases acquired with
  | error =>
    exact ends_ask_waiting rfl nofun h nofun
      fun _ _ _ h => .inr h
  | ok cluster => exact setupHolding_ends cluster h

theorem finish_ends (e : Executed) (h : s.In .guarded) :
    Ends (fun _ s => s.In .recorded) (finish cfg e) s := by
  have hexit {m : Mode} (hm : m = .waiting ∨ m = .guarded) {s : Ledger β} (h : s.In m) :
      Ends (fun _ s => s.In .recorded) (.ask .disarm fun _ => release cfg .atEnd <|
        record (if !e.ok && e.status == .success then .cancelled else e.status) <|
        .done (e.ok, e.tee)) s := by
    refine ends_guard (.inr ⟨.inr rfl, rfl⟩) hm h fun s h => ?_
    refine ends_release (keeps_release_waiting rfl) h fun s h => ?_
    exact ends_record h fun s h => h
  unfold finish
  dsimp only
  split
  · exact hexit (.inr rfl) h
  · exact ends_guard (.inr ⟨.inl rfl, rfl⟩) (.inr rfl) h fun s h => hexit (.inl rfl) h

theorem executeToSinkInner_ends (o : Option Tee) (h : s.In .waiting) :
    Ends (fun _ s => s.Settled) (executeToSinkInner cfg o) s := by
  have herror {s : Ledger β} (h : s.Settled) :
      Ends (fun _ s => s.Settled) (callSink .onError o) s :=
    settled_of_keeps (fun _ hm => callSink_keeps hm _ o) h
  have hexecute (cluster : String) {s : Ledger β} (h : s.In .waiting) :
      Ends (fun _ s => s.Settled)
        (.ask .arm fun _ => (execution cfg cluster o).bind (finish cfg)) s := by
    refine ends_guard (.inl ⟨rfl, rfl⟩) (.inl rfl) h fun s h => ?_
    refine (ends_of_keeps (execution_keeps (by decide) cfg cluster o) h).bind fun e s h => ?_
    exact (finish_ends e h).mono fun _ _ h => .inl h
  refine (setupSyncQuery_ends h).bind fun r s h => ?_
  cases r with
  | error => exact herror h
  | ok cluster =>
    refine ends_ask (keeps_site_waiting rfl rfl) h fun passed s h => ?_
    split
    · cases o with
      | some => exact hexecute cluster h
      | none =>
        refine ends_ask_waiting rfl (fun _ => rfl) h (fun ok s hno h => ?_) fun ok s hloses h => ?_
        · cases ok with
          | false => cases hno
          | true => exact hexecute cluster h
        · cases ok with
          | false => exact herror (.inr h)
          | true => cases hloses
    · refine ends_release (keeps_release_waiting rfl) h fun s h => ?_
      exact ends_record h fun s h => herror (.inl h)

theorem executeTeed_ends (h : s.In .waiting) :
    Ends (fun _ s => s.Settled) (executeTeed cfg) s := by
  refine ends_ask (keeps_site_waiting rfl rfl) h fun created s h => ?_
  split
  · refine (executeToSinkInner_ends (some .new) h).bind fun (ok, o) s h => ?_
    cases o with
    | none => exact h
    | some t =>
      exact (settled_of_keeps (fun _ hm => finalizeCache_keeps hm t) h).map fun _ _ h => h
  · exact (executeToSinkInner_ends none h).map fun _ _ h => h

/-- Every run ends recorded or lost. -/
theorem executeToSink_ends (h : s.In .waiting) :
    Ends (fun _ s => s.Settled) (executeToSink cfg) s := by
  have hlast (call : SinkCall β) {s : Ledger β} (h : s.Settled) :
      Ends (fun _ s => s.Settled) (.ask (.sink false call) fun ok => .done ok : Future β Bool) s :=
    settled_of_keeps (fun _ hm => .ask (keeps_sink hm call) fun _ => .done trivial) h
  have hplain {s : Ledger β} (h : s.In .waiting) :
      Ends (fun _ s => s.Settled) ((executeToSinkInner cfg none).map (·.1)) s :=
    (executeToSinkInner_ends none h).map fun _ _ h => h
  have heligible : (cacheEligible cfg : Future β Bool).All Mode.waiting.Keeps := by
    unfold cacheEligible
    split
    · exact .ask (keeps_site_waiting rfl rfl) fun _ => .done trivial
    · exact .done trivial
  have hstage : (cacheStage cfg : Future β Bool).All Mode.waiting.Keeps := by
    unfold cacheStage
    split
    · exact .ask (keeps_site_waiting rfl rfl) fun _ =>
        .ask (keeps_site_waiting rfl rfl) fun _ => .done trivial
    · exact .done trivial
  refine ends_ask_waiting rfl (fun _ => rfl) h (fun authorized s hno h => ?_)
    fun authorized s hloses h => ?_
  · cases authorized with
    | false => cases hno
    | true =>
      refine (ends_of_keeps heligible h).bind fun eligible s h => ?_
      split
      · refine (ends_of_keeps hstage h).bind fun allowed s h => ?_
        split
        · refine ends_ask_waiting rfl (fun _ => rfl) h (fun passed s hno h => ?_)
            fun passed s hloses h => ?_
          · cases passed with
            | false => cases hno
            | true =>
              refine (ends_of_keeps tryStreamCached_keeps h).bind fun lookup s h => ?_
              cases lookup with
              | hit => exact ends_record h fun s h => hlast _ (.inl h)
              | miss | failed => exact executeTeed_ends h
          · cases passed with
            | false => exact hlast _ (.inr h)
            | true => cases hloses
        · exact hplain h
      · exact hplain h
  · cases authorized with
    | false => exact hlast _ (.inr h)
    | true => cases hloses

end

/-- A run, dropped or not, leaves one record at most, and it leaves one if and only if nothing on
the way loses it. -/
theorem recorded_once_iff {cfg : Config} {r : Option Bool} {s : Ledger β}
    (h : Asks.Runs sinkCalls (executeToSink cfg) .empty r s) :
    s.records.length ≤ 1 ∧ (s.records.length = 1 ↔ ∀ e ∈ s.trace, e.loses = false) := by
  have hwaiting : (Ledger.empty : Ledger β).In .waiting :=
    ⟨rfl, rfl, fun ⟨_, he, _⟩ => absurd he List.not_mem_nil⟩
  have hends : Ends (fun _ s => s.Settled) (executeToSink cfg) (Ledger.empty : Ledger β) :=
    executeToSink_ends hwaiting
  have hsettled : s.Settled := by
    cases r with
    | none => exact hends.dropped h
    | some => exact hends.returned h
  rcases hsettled with ⟨hone, _, hno⟩ | ⟨hnone, _, e, he, hloses⟩
  · refine ⟨Nat.le_of_eq hone, fun _ e he => ?_, fun _ => hone⟩
    rw [Bool.eq_false_iff]
    exact fun hloses => hno ⟨e, he, hloses⟩
  · refine ⟨by rw [hnone]; exact Nat.zero_le 1, fun hone => ?_, fun hall => ?_⟩
    · rw [hnone] at hone
      cases hone
    · rw [hall e he] at hloses
      cases hloses

/-! ## Three runs -/

def plainConfig : Config :=
  ⟨⟨true, fun _ => some .sync, false, true⟩, 1, false, false, fun _ => false⟩

def returning (q : Call Nat) : Option (Answer q) × Bool := (some (succeeding q), true)

theorem runs_of_answers (answer : (q : Call Nat) → Option (Answer q) × Bool)
    (h : ∀ q, q.isStatement = true → (answer q).1.isSome = true) (cfg : Config) :
    Asks.Runs sinkCalls (executeToSink cfg) .empty
      ((executeToSink cfg).play sinkCalls answer .empty).1
      ((executeToSink cfg).play sinkCalls answer .empty).2 :=
  Asks.runs_play h _ _

/-- Every call returns. -/
theorem recorded_once_returning :
    ∃ s : Ledger Nat, Asks.Runs sinkCalls (executeToSink plainConfig) .empty (some true) s ∧
      (∀ e ∈ s.trace, e.loses = false) ∧ s.records.length = 1 := by
  have hrun := runs_of_answers returning (fun _ _ => rfl) plainConfig
  have hclean : ∀ e ∈ ((executeToSink plainConfig).play sinkCalls returning .empty).2.trace,
      e.loses = false := by decide
  exact ⟨_, hrun, hclean, (recorded_once_iff hrun).2.2 hclean⟩

/-- Only the interpolation of parameters fails. -/
def notInterpolating : (q : Call Nat) → Option (Answer q) × Bool
  | .site .interpolate => (some false, true)
  | q => returning q

/-- The future is dropped at the last release: the result is sent, the cancel guard disarmed. -/
def droppedAtEnd : (q : Call Nat) → Option (Answer q) × Bool
  | .release .atEnd => (none, true)
  | q => returning q

/-- A query whose parameters cannot be filled in is refused without a record; one whose future is
dropped while its slot is released is not recorded either. -/
theorem unrecorded_runs :
    (∃ s : Ledger Nat, Asks.Runs sinkCalls (executeToSink plainConfig) .empty (some true) s ∧
      s.calls = [.onError] ∧ s.records = []) ∧
    ∃ s : Ledger Nat, Asks.Runs sinkCalls (executeToSink plainConfig) .empty none s ∧
      s.calls = [.onSchema, .onBatch 1, .onComplete] ∧ s.records = [] := by
  constructor
  · refine ⟨_, runs_of_answers notInterpolating (fun q _ => ?_) plainConfig, rfl, rfl⟩
    unfold notInterpolating
    split <;> rfl
  · refine ⟨_, runs_of_answers droppedAtEnd (fun q hq => ?_) plainConfig, rfl, rfl⟩
    unfold droppedAtEnd
    split
    · cases hq
    · rfl

end QueryFlux.Sink
