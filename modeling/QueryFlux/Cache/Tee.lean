import Mathlib.Algebra.Ring.Int.Defs
import QueryFlux.Core.Query

/-!
# The caching tee

On a cache miss a `TeeResultSink` stands in front of the client's sink. It passes every call on and
mirrors the schema and the batches to a cache writer, which collects an Arrow IPC stream in memory
and puts it into storage, and its metadata into the store, when the caller finalizes the entry.
Every write can fail, and the write to storage can time out; what is left in storage then is
anything. The mirror is given up at the first failure, at an error or a native chunk, and when the
entry grows too large.

The sink gets every call but `on_translated_sql`, for which the tee has the trait's default. A
committed entry is the delivered result with valid metadata when the caller keeps to the order of
the trait (`Streamed`), the write to storage ends in time and the entry is to live at all.
`tee_misses` has runs in which one of these is missing.
-/

namespace QueryFlux.Cache

open List

variable {σ β γ δ ω : Type}

/-- Arrow's IPC stream writer over a byte buffer and the reader of such streams. -/
structure IpcFormat (σ β ω : Type) where
  tryNew : σ → ω
  write : ω → β → ω
  -- bytes in the buffer so far
  len : ω → Nat
  intoInner : ω → List UInt8
  decode : List UInt8 → Option (σ × List β)
  numRows : β → Nat
  -- the batch has this schema, which the writer does not check
  Fits : σ → β → Prop
  decode_intoInner : ∀ schema batches, (∀ batch ∈ batches, Fits schema batch) →
    decode (intoInner (batches.foldl write (tryNew schema))) = some (schema, batches)

structure CacheEntryMeta where
  cacheKey : String
  groupName : String
  createdAt : Int
  expiresAt : Int
  rowCount : Option Nat
  sizeBytes : Option Nat
  deriving DecidableEq

/-- The file and the row of the metadata for one key. -/
structure Stored where
  file : Option (List UInt8)
  entry : Option CacheEntryMeta
  deriving DecidableEq

def Stored.getValid (s : Stored) (now : Int) : Option CacheEntryMeta :=
  s.entry.filter (now < ·.expiresAt)

/-! ## The cache writer -/

structure WriterConfig where
  keyHex : String
  keyGroup : String
  ttlSecs : Nat
  maxBytes : Option Nat

/-- `u64 as i64` -/
def WriterConfig.ttl (cfg : WriterConfig) : Int :=
  if cfg.ttlSecs < 2 ^ 63 then cfg.ttlSecs else cfg.ttlSecs - 2 ^ 64

inductive WriteOutcome
  | written
  | failed (left : Option (List UInt8))
  | timedOut (left : Option (List UInt8))
  deriving DecidableEq

/-- How the outside world answers the steps of finalizing. -/
structure FinalOutcome where
  intoInner : Bool
  write : WriteOutcome
  now : Int
  -- the expiry is no date, and the addition panics
  overflow : Bool
  -- with what the metadata store holds if it fails
  upsert : Except (Option CacheEntryMeta) Unit
  delete : Bool

structure OpenDalCacheWriter (ω : Type) where
  ipcWriter : Option ω
  rowCount : Nat

namespace OpenDalCacheWriter

variable (fmt : IpcFormat σ β ω) (w : OpenDalCacheWriter ω)

def new : OpenDalCacheWriter ω := ⟨none, 0⟩

def writeSchema (schema : σ) : OpenDalCacheWriter ω :=
  { w with ipcWriter := some (fmt.tryNew schema) }

-- without a schema nothing is written, and that is no failure
def writeBatch (batch : β) : OpenDalCacheWriter ω :=
  match w.ipcWriter with
  | some writer => ⟨some (fmt.write writer batch), w.rowCount + fmt.numRows batch⟩
  | none => w

def bytesWritten : Nat := w.ipcWriter.elim 0 fmt.len

def discard : OpenDalCacheWriter ω := { w with ipcWriter := none }

def finalize (cfg : WriterConfig) (o : FinalOutcome) (stored : Stored) : Bool × Stored :=
  match w.ipcWriter with
  | none => (true, stored)
  | some writer =>
    if !o.intoInner then (false, stored)
    else
      let buffer := fmt.intoInner writer
      match o.write with
      | .failed left => (false, { stored with file := left })
      | .timedOut left => (true, { stored with file := left })
      | .written =>
        if o.overflow then (false, { stored with file := some buffer })
        else
          let entry : CacheEntryMeta :=
            { cacheKey := cfg.keyHex
              groupName := cfg.keyGroup
              createdAt := o.now
              expiresAt := o.now + cfg.ttl
              rowCount := some w.rowCount
              sizeBytes := some buffer.length }
          match o.upsert with
          | .ok () => (true, ⟨some buffer, some entry⟩)
          | .error left => (false, ⟨if o.delete then none else some buffer, left⟩)

end OpenDalCacheWriter

inductive ResultSinkCall (σ β γ δ : Type)
  | onSchema (schema : σ)
  | onBatch (batch : β)
  | onComplete (stats : γ)
  | onError (message : String)
  | onNativeChunk (chunk : δ)
  | onTranslatedSql (sql : String)
  deriving DecidableEq

structure TeeEvent (σ β γ δ : Type) where
  call : ResultSinkCall σ β γ δ
  writes : Bool
  sinkOk : Bool

/-! ## The tee -/

structure TeeResultSink (ω : Type) where
  writer : OpenDalCacheWriter ω
  active : Bool
  committed : Bool
  finalized : Bool

namespace TeeResultSink

variable (fmt : IpcFormat σ β ω) (cfg : WriterConfig) (t : TeeResultSink ω)

def new : TeeResultSink ω := ⟨.new, true, false, false⟩

def tooLarge : Bool := cfg.maxBytes.any (· < t.writer.bytesWritten fmt)

def abandonCache : TeeResultSink ω :=
  if t.finalized then { t with active := false }
  else { t with active := false, finalized := true, writer := t.writer.discard }

def before (e : TeeEvent σ β γ δ) : TeeResultSink ω :=
  match e.call with
  | .onSchema schema =>
    if !t.active then t
    else if e.writes then { t with writer := t.writer.writeSchema fmt schema }
    else t.abandonCache
  | .onBatch batch =>
    if !t.active then t
    else if e.writes then
      let t := { t with writer := t.writer.writeBatch fmt batch }
      if t.tooLarge fmt cfg then t.abandonCache else t
    else t.abandonCache
  | .onError _ | .onNativeChunk _ => t.abandonCache
  | .onComplete _ | .onTranslatedSql _ => t

/-- Commit only on success, and only once. -/
def finalizeCache (success : Bool) (o : FinalOutcome) (stored : Stored) :
    TeeResultSink ω × Stored :=
  if t.finalized then (t, stored)
  else if t.active && success then
    let (ok, stored) := t.writer.finalize fmt cfg o stored
    ({ t with finalized := true, writer := t.writer.discard, committed := t.committed || ok },
      stored)
  else ({ t with finalized := true, writer := t.writer.discard }, stored)

theorem before_onSchema (schema : σ) (writes sinkOk : Bool) :
    t.before fmt cfg (⟨.onSchema schema, writes, sinkOk⟩ : TeeEvent σ β γ δ) =
      if !t.active then t
      else if writes then { t with writer := t.writer.writeSchema fmt schema }
      else t.abandonCache := rfl

theorem before_onBatch (batch : β) (writes sinkOk : Bool) :
    t.before fmt cfg (⟨.onBatch batch, writes, sinkOk⟩ : TeeEvent σ β γ δ) =
      if !t.active then t
      else if writes then
        if { t with writer := t.writer.writeBatch fmt batch }.tooLarge fmt cfg then
          { t with writer := t.writer.writeBatch fmt batch }.abandonCache
        else { t with writer := t.writer.writeBatch fmt batch }
      else t.abandonCache := rfl

end TeeResultSink

structure TeeState (σ β γ δ ω : Type) where
  tee : TeeResultSink ω
  received : List (ResultSinkCall σ β γ δ)
  returned : List Bool

def ResultSinkCall.passedOn : ResultSinkCall σ β γ δ → Bool
  | .onTranslatedSql _ => false
  | _ => true

section
variable (fmt : IpcFormat σ β ω) (cfg : WriterConfig)

def TeeState.new : TeeState σ β γ δ ω := ⟨.new, [], []⟩

def TeeState.call (st : TeeState σ β γ δ ω) (e : TeeEvent σ β γ δ) : TeeState σ β γ δ ω where
  tee := st.tee.before fmt cfg e
  received := if e.call.passedOn then st.received ++ [e.call] else st.received
  -- the default method returns Ok
  returned := st.returned ++ [if e.call.passedOn then e.sinkOk else true]

def TeeState.run (events : List (TeeEvent σ β γ δ)) : TeeState σ β γ δ ω :=
  events.foldl (TeeState.call fmt cfg) .new

def teeRun (events : List (TeeEvent σ β γ δ)) (success : Bool) (o : FinalOutcome)
    (stored : Stored) : Bool × Stored :=
  let (t, stored) := (TeeState.run fmt cfg events).tee.finalizeCache fmt cfg success o stored
  (t.committed, stored)

end

/-! ## What was delivered, and what is held -/

inductive Delivery (σ β : Type)
  | schema (schema : σ)
  | batch (batch : β)

def ResultSinkCall.delivery : ResultSinkCall σ β γ δ → Option (Delivery σ β)
  | .onSchema schema => some (.schema schema)
  | .onBatch batch => some (.batch batch)
  | _ => none

def ResultSinkCall.endsCaching : ResultSinkCall σ β γ δ → Bool
  | .onError _ | .onNativeChunk _ => true
  | _ => false

def calls (events : List (TeeEvent σ β γ δ)) : List (ResultSinkCall σ β γ δ) :=
  events.map (·.call)

/-- The schema came first and once, then the batches, all of that schema. -/
structure Streamed (fmt : IpcFormat σ β ω) (calls : List (ResultSinkCall σ β γ δ)) (schema : σ)
    (batches : List β) : Prop where
  deliveries : calls.filterMap (·.delivery) = .schema schema :: batches.map .batch
  fits : ∀ batch ∈ batches, fmt.Fits schema batch

structure HoldsResult (fmt : IpcFormat σ β ω) (cfg : WriterConfig) (now : Int) (schema : σ)
    (batches : List β) (stored : Stored) : Prop where
  valid : ∃ entry, stored.getValid now = some entry ∧
    (∀ later < now + cfg.ttlSecs, stored.getValid later = some entry) ∧
    entry.cacheKey = cfg.keyHex ∧ entry.groupName = cfg.keyGroup ∧
    entry.rowCount = some (batches.map fmt.numRows).sum ∧
    entry.sizeBytes = stored.file.map List.length
  decoded : ∃ bytes, stored.file = some bytes ∧ fmt.decode bytes = some (schema, batches)

section
variable {fmt : IpcFormat σ β ω} {cfg : WriterConfig}

def OpenDalCacheWriter.write (fmt : IpcFormat σ β ω) (w : OpenDalCacheWriter ω) :
    Delivery σ β → OpenDalCacheWriter ω
  | .schema schema => w.writeSchema fmt schema
  | .batch batch => w.writeBatch fmt batch

def held (fmt : IpcFormat σ β ω) (calls : List (ResultSinkCall σ β γ δ)) : OpenDalCacheWriter ω :=
  (calls.filterMap (·.delivery)).foldl (OpenDalCacheWriter.write fmt) .new

structure Mirrors (fmt : IpcFormat σ β ω) (events : List (TeeEvent σ β γ δ))
    (t : TeeResultSink ω) : Prop where
  uncommitted : t.committed = false
  finalized : t.finalized = !t.active
  -- while the tee is active the writer holds what was delivered
  holds : t.active = true → t.writer = held fmt (calls events)
  proper : t.active = true → ∀ e ∈ events, e.call.endsCaching = false

theorem held_append (cs : List (ResultSinkCall σ β γ δ)) (c : ResultSinkCall σ β γ δ) :
    held fmt (cs ++ [c]) =
      c.delivery.toList.foldl (OpenDalCacheWriter.write fmt) (held fmt cs) := by
  rw [held, filterMap_append, foldl_append, held]
  cases c <;> rfl

theorem calls_append (es : List (TeeEvent σ β γ δ)) (e : TeeEvent σ β γ δ) :
    calls (es ++ [e]) = calls es ++ [e.call] := List.map_append

namespace Mirrors

variable {events : List (TeeEvent σ β γ δ)} {t : TeeResultSink ω} {e : TeeEvent σ β γ δ}

section
variable (h : Mirrors fmt events t)
include h

theorem abandon (events' : List (TeeEvent σ β γ δ)) : Mirrors fmt events' t.abandonCache := by
  unfold TeeResultSink.abandonCache
  split_ifs with hfinal
  · exact ⟨h.uncommitted, hfinal, fun ha => (Bool.noConfusion ha), fun ha => (Bool.noConfusion ha)⟩
  · exact ⟨h.uncommitted, rfl, fun ha => (Bool.noConfusion ha), fun ha => (Bool.noConfusion ha)⟩

theorem mirrored (hends : e.call.endsCaching = false) {w : OpenDalCacheWriter ω}
    (hw : t.active = true →
      w = e.call.delivery.toList.foldl (OpenDalCacheWriter.write fmt) t.writer) :
    Mirrors fmt (events ++ [e]) { t with writer := w } where
  uncommitted := h.uncommitted
  finalized := h.finalized
  holds ha := by rw [calls_append, held_append, ← h.holds ha]; exact hw ha
  proper ha e' he' := by
    rcases mem_append.1 he' with he' | he'
    · exact h.proper ha e' he'
    · rw [mem_singleton.1 he']
      exact hends

theorem inactive (ha : t.active = false) (events' : List (TeeEvent σ β γ δ)) :
    Mirrors fmt events' t where
  uncommitted := h.uncommitted
  finalized := h.finalized
  holds hactive := by rw [ha] at hactive; cases hactive
  proper hactive := by rw [ha] at hactive; cases hactive

theorem before (e : TeeEvent σ β γ δ) : Mirrors fmt (events ++ [e]) (t.before fmt cfg e) := by
  obtain ⟨call, writes, sinkOk⟩ := e
  cases call with
  | onSchema schema =>
    rw [TeeResultSink.before_onSchema]
    split
    · rename_i ha
      exact h.inactive (by simpa using ha) _
    · split
      · exact h.mirrored (e := ⟨.onSchema schema, writes, sinkOk⟩) rfl fun _ => rfl
      · exact h.abandon _
  | onBatch batch =>
    rw [TeeResultSink.before_onBatch]
    split
    · rename_i ha
      exact h.inactive (by simpa using ha) _
    · have hm := h.mirrored (e := ⟨.onBatch batch, writes, sinkOk⟩) rfl fun _ => rfl
      split
      · split
        · exact hm.abandon _
        · exact hm
      · exact h.abandon _
  | onComplete | onTranslatedSql => exact h.mirrored rfl fun _ => rfl
  | onError | onNativeChunk => exact h.abandon _

end

end Mirrors

/-- What the inner sink received and the writer holds, after a list of calls. -/
structure TeeInv (fmt : IpcFormat σ β ω) (events : List (TeeEvent σ β γ δ))
    (st : TeeState σ β γ δ ω) : Prop where
  mirrors : Mirrors fmt events st.tee
  received : st.received = (calls events).filter (·.passedOn)
  returned : (∀ e ∈ events, e.call.passedOn = true) → st.returned = events.map (·.sinkOk)

theorem TeeInv.call {events : List (TeeEvent σ β γ δ)} {st : TeeState σ β γ δ ω}
    (h : TeeInv fmt events st) (cfg : WriterConfig) (e : TeeEvent σ β γ δ) :
    TeeInv fmt (events ++ [e]) (st.call fmt cfg e) where
  mirrors := h.mirrors.before e
  received := by
    rw [calls_append, filter_append, ← h.received, TeeState.call]
    cases hp : e.call.passedOn with
    | true | false => simp [hp]
  returned hall := by
    have hp : e.call.passedOn = true := hall e (by simp)
    have hbefore := h.returned fun e' he' => hall e' (mem_append_left _ he')
    simp [TeeState.call, hbefore, hp]

theorem TeeInv.run (fmt : IpcFormat σ β ω) (cfg : WriterConfig)
    (events : List (TeeEvent σ β γ δ)) : TeeInv fmt events (TeeState.run fmt cfg events) := by
  have hfold : ∀ (rest done : List (TeeEvent σ β γ δ)) (st : TeeState σ β γ δ ω),
      TeeInv fmt done st → TeeInv fmt (done ++ rest) (rest.foldl (TeeState.call fmt cfg) st) := by
    intro rest
    induction rest with
    | nil => intro done st h; rwa [append_nil]
    | cons e _ ih =>
      intro done st h
      have hnext := ih (done ++ [e]) _ (h.call cfg e)
      rwa [append_assoc] at hnext
  refine hfold events [] .new ⟨⟨rfl, rfl, fun _ => rfl, fun _ e he => ?_⟩, rfl, fun _ => rfl⟩
  cases he

end

section
variable {fmt : IpcFormat σ β ω} {cfg : WriterConfig} {schema : σ} {batches : List β}

/-! ## A committed entry -/

theorem foldl_write_batches (writer : ω) (rows : Nat) (batches : List β) :
    (batches.map Delivery.batch).foldl (OpenDalCacheWriter.write fmt) ⟨some writer, rows⟩ =
      ⟨some (batches.foldl fmt.write writer), rows + (batches.map fmt.numRows).sum⟩ := by
  induction batches generalizing writer rows with
  | nil => rfl
  | cons b _ ih =>
    have hstep : OpenDalCacheWriter.write fmt ⟨some writer, rows⟩ (.batch b) =
        ⟨some (fmt.write writer b), rows + fmt.numRows b⟩ := rfl
    rw [map_cons, foldl_cons, hstep, ih, map_cons, sum_cons, Nat.add_assoc]
    rfl

theorem Streamed.held_eq {cs : List (ResultSinkCall σ β γ δ)}
    (h : Streamed fmt cs schema batches) :
    held fmt cs = ⟨some (batches.foldl fmt.write (fmt.tryNew schema)),
      (batches.map fmt.numRows).sum⟩ := by
  have hschema : OpenDalCacheWriter.write fmt .new (.schema schema : Delivery σ β) =
      ⟨some (fmt.tryNew schema), 0⟩ := rfl
  rw [held, h.deliveries, foldl_cons, hschema, foldl_write_batches, Nat.zero_add]

/-- What is stored when the write went through. -/
theorem finalize_written {w : OpenDalCacheWriter ω} {writer : ω} {o : FinalOutcome}
    {stored : Stored} (hw : w.ipcWriter = some writer)
    (htime : ∀ left, o.write ≠ .timedOut left)
    (hok : (w.finalize fmt cfg o stored).1 = true) :
    (w.finalize fmt cfg o stored).2 = ⟨some (fmt.intoInner writer),
      some ⟨cfg.keyHex, cfg.keyGroup, o.now, o.now + cfg.ttl, some w.rowCount,
        some (fmt.intoInner writer).length⟩⟩ := by
  unfold OpenDalCacheWriter.finalize at hok ⊢
  rw [hw] at hok ⊢
  dsimp only at hok ⊢
  split at hok
  · cases hok
  · rename_i hinner
    rw [if_neg hinner]
    cases hwrite : o.write with
    | failed => rw [hwrite] at hok; cases hok
    | timedOut left => exact absurd hwrite (htime left)
    | written =>
      rw [hwrite] at hok
      dsimp only at hok ⊢
      split at hok
      · cases hok
      · rename_i hover
        rw [if_neg hover]
        cases hupsert : o.upsert with
        | error => rw [hupsert] at hok; cases hok
        | ok => rfl

theorem HoldsResult.of_written {now : Int} {bytes : List UInt8}
    (httl : 0 < cfg.ttlSecs ∧ cfg.ttlSecs < 2 ^ 63)
    (hdecode : fmt.decode bytes = some (schema, batches)) :
    HoldsResult fmt cfg now schema batches ⟨some bytes, some ⟨cfg.keyHex, cfg.keyGroup, now,
      now + cfg.ttl, some (batches.map fmt.numRows).sum, some bytes.length⟩⟩ where
  valid := by
    have hcast : cfg.ttl = cfg.ttlSecs := if_pos httl.2
    have hvalid : ∀ (stored : Stored) (entry : CacheEntryMeta), stored.entry = some entry →
        entry.expiresAt = now + cfg.ttl → ∀ later < now + cfg.ttlSecs,
        stored.getValid later = some entry := by
      intro stored entry hentry hexpires later hlater
      rw [Stored.getValid, hentry, Option.filter_some_pos]
      rw [hexpires, hcast]
      exact decide_eq_true hlater
    exact ⟨_, hvalid _ _ rfl rfl now (by omega), hvalid _ _ rfl rfl, rfl, rfl, rfl, rfl⟩
  decoded := ⟨bytes, rfl, hdecode⟩

theorem committed_cases {events : List (TeeEvent σ β γ δ)} {success : Bool} {o : FinalOutcome}
    {stored : Stored} (h : (teeRun fmt cfg events success o stored).1 = true) :
    (∀ e ∈ events, e.call.endsCaching = false) ∧
      ((held fmt (calls events)).finalize fmt cfg o stored).1 = true ∧
      (teeRun fmt cfg events success o stored).2 =
        ((held fmt (calls events)).finalize fmt cfg o stored).2 := by
  have hinv := (TeeInv.run fmt cfg events).mirrors
  unfold teeRun TeeResultSink.finalizeCache at h ⊢
  generalize (TeeState.run fmt cfg events).tee = t at h hinv ⊢
  dsimp only at h ⊢
  split at h
  · rw [hinv.uncommitted] at h
    cases h
  · rename_i hfinal
    rw [if_neg hfinal]
    split_ifs at h with hactive
    · have ha : t.active = true := (Bool.and_eq_true_iff.1 hactive).1
      rw [if_pos hactive, ← hinv.holds ha]
      rw [hinv.uncommitted, Bool.false_or] at h
      exact ⟨hinv.proper ha, h, rfl⟩
    · rw [hinv.uncommitted] at h
      cases h

end

theorem received_eq_iff (fmt : IpcFormat σ β ω) (cfg : WriterConfig)
    (events : List (TeeEvent σ β γ δ)) :
    (TeeState.run fmt cfg events).received = calls events ↔
      ∀ e ∈ events, e.call.passedOn = true := by
  rw [(TeeInv.run fmt cfg events).received, filter_eq_self]
  constructor
  · intro h e he
    exact h e.call (mem_map_of_mem he)
  · intro h c hc
    obtain ⟨e, he, rfl⟩ := mem_map.1 hc
    exact h e he

/-- The wrapped sink gets every call exactly when none of them is `on_translated_sql`, and its
answers go back then, whatever happens to the cache. If the result was streamed in order, the entry
is to live and the storage answered in time, a committed entry is that result. -/
theorem tee_commits_delivered (fmt : IpcFormat σ β ω) (cfg : WriterConfig)
    (events : List (TeeEvent σ β γ δ)) :
    ((TeeState.run fmt cfg events).received = calls events ↔
      ∀ e ∈ events, e.call.passedOn = true) ∧
    ((∀ e ∈ events, e.call.passedOn = true) →
      (TeeState.run fmt cfg events).returned = events.map (·.sinkOk)) ∧
    ∀ (success : Bool) (o : FinalOutcome) (stored : Stored) (schema : σ) (batches : List β),
      Streamed fmt (calls events) schema batches → 0 < cfg.ttlSecs ∧ cfg.ttlSecs < 2 ^ 63 →
      (∀ left, o.write ≠ .timedOut left) →
      (teeRun fmt cfg events success o stored).1 = true →
      (∀ e ∈ events, e.call.endsCaching = false) ∧
      HoldsResult fmt cfg o.now schema batches (teeRun fmt cfg events success o stored).2 := by
  refine ⟨received_eq_iff fmt cfg events, (TeeInv.run fmt cfg events).returned, ?_⟩
  intro success o stored schema batches hstream httl htime hcommitted
  obtain ⟨hproper, hok, hstored⟩ := committed_cases hcommitted
  have hheld := hstream.held_eq
  have hwritten := finalize_written (congrArg (·.ipcWriter) hheld) htime hok
  refine ⟨hproper, ?_⟩
  rw [hstored, hwritten, hheld]
  exact .of_written httl (fmt.decode_intoInner schema batches hstream.fits)

def byteFormat : IpcFormat UInt8 UInt8 (List UInt8) where
  tryNew schema := [schema]
  write w batch := w ++ [batch]
  len := List.length
  intoInner w := w
  decode
    | [] => none
    | schema :: batches => some (schema, batches)
  numRows batch := batch.toNat
  Fits _ _ := True
  decode_intoInner := by
    intro schema batches _
    have hfold : ∀ (w : List UInt8), batches.foldl (fun w b => w ++ [b]) w = w ++ batches := by
      induction batches with
      | nil => intro w; exact (List.append_nil w).symm
      | cons _ _ ih =>
        intro w
        rw [List.foldl_cons, ih fun _ _ => trivial, List.append_assoc]
        rfl
    rw [hfold]
    rfl

def hourConfig : WriterConfig := ⟨"4f2a", "etl", 3600, none⟩

abbrev ByteCall := ResultSinkCall UInt8 UInt8 Unit Unit

def smooth (cs : List ByteCall) : List (TeeEvent UInt8 UInt8 Unit Unit) :=
  cs.map fun c => ⟨c, true, true⟩

def stores : FinalOutcome := ⟨true, .written, 1700000000, false, .ok (), true⟩

def nothingStored : Stored := ⟨none, none⟩

def inOrder : List ByteCall := [.onSchema 7, .onBatch 2, .onBatch 3, .onComplete ()]

/-- A result in order is forwarded and committed. -/
theorem streamed_committed :
    (TeeState.run byteFormat hourConfig (smooth inOrder)).received = inOrder ∧
    (teeRun byteFormat hourConfig (smooth inOrder) true stores nothingStored).1 = true ∧
    HoldsResult byteFormat hourConfig 1700000000 7 [2, 3]
      (teeRun byteFormat hourConfig (smooth inOrder) true stores nothingStored).2 := by
  obtain ⟨hreceived, -, hcommits⟩ := tee_commits_delivered byteFormat hourConfig (smooth inOrder)
  refine ⟨hreceived.2 (by simp [smooth, inOrder, ResultSinkCall.passedOn]), rfl, ?_⟩
  exact (hcommits true stores nothingStored 7 [2, 3] ⟨rfl, fun _ _ => trivial⟩ (by decide) nofun
    rfl).2

def outcome (cfg : WriterConfig) (o : FinalOutcome) (cs : List ByteCall) :
    Bool × Option CacheEntryMeta × Option (UInt8 × List UInt8) :=
  let (committed, stored) := teeRun byteFormat cfg (smooth cs) true o nothingStored
  (committed, stored.getValid o.now, stored.file.bind byteFormat.decode)

/-- A call that is not passed on; a committed entry after a write that timed out, without a schema,
with a batch ahead of the schema or a second schema, and one that is never valid. -/
theorem tee_misses :
    (TeeState.run byteFormat hourConfig (smooth [.onTranslatedSql "INSERT INTO t"])).received = [] ∧
    outcome hourConfig { stores with write := .timedOut none } inOrder = (true, none, none) ∧
    outcome hourConfig stores [.onComplete ()] = (true, none, none) ∧
    (∀ cs ∈ [[.onBatch 1, .onSchema 7, .onBatch 2],
        [.onSchema 7, .onBatch 1, .onSchema 7, .onBatch 2]],
      (outcome hourConfig stores cs).1 = true ∧
      (outcome hourConfig stores cs).2.2 = some (7, [2])) ∧
    outcome { hourConfig with ttlSecs := 0 } stores inOrder = (true, none, some (7, [2, 3])) := by
  refine ⟨rfl, rfl, rfl, ?_, rfl⟩
  decide +kernel

end QueryFlux.Cache
