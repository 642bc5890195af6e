import Mathlib.Data.List.Forall2
import QueryFlux.Wire.MysqlResult

/-!
# What a MySQL client reads from a result

A client puts the packets of a response together (`unframe`) and reads the response from their
payloads (`readResponse`), by the rules of the MySQL protocol. From what the sink sends it reads the
columns, the rows and the end of the result exactly when every payload fits one packet
(`decode_stream_iff`). A payload of `0xffffff` bytes or more would have to be split, and the sink
only cuts its length (`long_cell_undecodable`).
-/

namespace QueryFlux.Wire

open Lib Reader List

/-! ## A client -/

/-- A longer payload is continued in another packet. -/
def maxPayload : Nat := 0xffffff

/-- The payloads of numbered packets. One of `0xffffff` bytes goes on in the next packet. -/
def unframe : Nat → UInt8 → Bytes → Option (List Bytes)
  | _, _, [] => some []
  | fuel + 1, seq, a :: b :: c :: s :: rest =>
    let length := a.toNat + 256 * b.toNat + 65536 * c.toNat
    if s = seq ∧ length ≤ rest.length then
      match unframe fuel (seq + 1) (rest.drop length) with
      | none => none
      | some payloads =>
        if length < maxPayload then some (rest.take length :: payloads)
        else
          match payloads with
          | [] => none
          | payload :: payloads => some ((rest.take length ++ payload) :: payloads)
    else none
  | _, _, _ => none

/-- The first byte is the number or says how many bytes follow. -/
def readLenencInt : Reader UInt8 Nat := do
  let b ← next
  if b < 0xfb then pure b.toNat
  else if b = 0xfc then le 2
  else if b = 0xfd then le 3
  else if b = 0xfe then le 8
  else failure

def readLenencStr : Reader UInt8 Bytes := do
  let length ← readLenencInt
  take length

structure ColumnDefinition where
  catalog : Bytes
  schema : Bytes
  table : Bytes
  orgTable : Bytes
  name : Bytes
  orgName : Bytes
  charset : Nat
  columnLength : Nat
  typeByte : UInt8
  flags : Nat
  decimals : UInt8
  deriving DecidableEq

def readColumn : Reader UInt8 ColumnDefinition := do
  let catalog ← readLenencStr
  let schema ← readLenencStr
  let table ← readLenencStr
  let orgTable ← readLenencStr
  let name ← readLenencStr
  let orgName ← readLenencStr
  let _ ← next
  let charset ← le 2
  let columnLength ← le 4
  let typeByte ← next
  let flags ← le 2
  let decimals ← next
  let _ ← take 2
  pure ⟨catalog, schema, table, orgTable, name, orgName, charset, columnLength, typeByte, flags,
    decimals⟩

def readCell : Reader UInt8 (Option Bytes) := fun s =>
  if s.head? = some 0xfb then some (none, s.tail)
  else (readLenencStr s).map fun p => (some p.1, p.2)

inductive Ending
  | eof
  | ok (affectedRows lastInsertId : Nat)
  | err (code : Nat) (state message : Bytes)
  deriving DecidableEq

def readOk : Reader UInt8 Ending := do
  let _ ← next
  let affectedRows ← readLenencInt
  let lastInsertId ← readLenencInt
  let _ ← take 4
  pure (.ok affectedRows lastInsertId)

def readErr : Reader UInt8 Ending := do
  let _ ← next
  let code ← le 2
  let _ ← next
  let state ← take 5
  let message ← rest
  pure (.err code state message)

/-- Warnings and status. -/
def readEof : Reader UInt8 Ending := do
  let _ ← next
  let _ ← le 2
  let _ ← le 2
  pure .eof

def isOk (payload : Bytes) : Bool := payload.head? == some 0x00
def isErr (payload : Bytes) : Bool := payload.head? == some 0xff
def isEof (payload : Bytes) : Bool := payload.head? == some 0xfe && payload.length < 9

def packet {α : Type} (read : Reader UInt8 α) : Reader Bytes α := do
  let payload ← next
  parse read payload

def readRows (columns : Nat) : Nat → Reader Bytes (List Row × Ending)
  | 0 => failure
  | fuel + 1 => do
    let payload ← next
    if isErr payload then
      let ending ← parse readErr payload
      pure ([], ending)
    else if isEof payload then
      let ending ← parse readEof payload
      pure ([], ending)
    else
      let row ← parse (many readCell columns) payload
      let next ← readRows columns fuel
      pure (row :: next.1, next.2)

structure Response where
  columns : List ColumnDefinition
  rows : List Row
  ending : Ending
  deriving DecidableEq

/-- An OK or error packet, or columns, rows and what ends them. -/
def readResponse (fuel : Nat) : Reader Bytes Response := do
  let payload ← next
  if isOk payload then
    let ending ← parse readOk payload
    pure ⟨[], [], ending⟩
  else if isErr payload then
    let ending ← parse readErr payload
    pure ⟨[], [], ending⟩
  else
    let count ← parse readLenencInt payload
    let columns ← many (packet readColumn) count
    let separator ← next
    if isEof separator then
      let _ ← parse readEof separator
      let body ← readRows count fuel
      pure ⟨columns, body.1, body.2⟩
    else failure

def decode (startSeq : UInt8) (bytes : Bytes) : Option Response := do
  let payloads ← unframe bytes.length startSeq bytes
  parse (readResponse payloads.length) payloads

/-! ## Results -/

inductive Opening
  | schema (fields : List Field)
  | native (columns : List NativeColumn) (rows : List Row)
  deriving DecidableEq

inductive Batch
  | arrow (rows : List Row)
  | native (rows : List Row)
  deriving DecidableEq

inductive Closing
  | complete (affectedRows : Option UInt64)
  | error (message : Bytes)
  deriving DecidableEq

def columnOf (name : Bytes) (typeByte : UInt8) (flags : Nat) (decimals : UInt8) :
    ColumnDefinition where
  catalog := [0x64, 0x65, 0x66]
  schema := []
  table := []
  orgTable := []
  name := name
  orgName := name
  charset := 0x21
  columnLength := 0xffff
  typeByte := typeByte
  flags := flags
  decimals := decimals

def Field.column (f : Field) : ColumnDefinition :=
  columnOf f.name (arrowTypeToMysqlType f.dataType) (notNullFlag f.nullable) 0

def NativeColumn.column (c : NativeColumn) : ColumnDefinition :=
  columnOf c.name (nativeTypeToMysqlType c.kind)
    (notNullFlag c.nullable ||| unsignedFlag c.unsigned) (c.scale.getD 0)

def Opening.columns : Opening → List ColumnDefinition
  | .schema fields => fields.map Field.column
  | .native columns _ => columns.map NativeColumn.column

def Opening.rows : Opening → List Row
  | .schema _ => []
  | .native _ rows => rows

def Opening.call : Opening → ResultCall
  | .schema fields => .onSchema fields
  | .native columns rows => .onNativeChunk (some columns) rows

def Batch.rows : Batch → List Row
  | .arrow rows => rows
  | .native rows => rows

def Batch.call : Batch → ResultCall
  | .arrow rows => .onBatch rows
  | .native rows => .onNativeChunk none rows

def Closing.call : Closing → ResultCall
  | .complete affectedRows => .onComplete affectedRows
  | .error message => .onError message

structure Result where
  opening : Opening
  batches : List Batch
  closing : Closing
  deriving DecidableEq

namespace Result

def calls (r : Result) : List ResultCall :=
  r.opening.call :: (r.batches.map Batch.call ++ [r.closing.call])

def columns (r : Result) : List ColumnDefinition := r.opening.columns

def rows (r : Result) : List Row := r.opening.rows ++ r.batches.flatMap Batch.rows

def ending (r : Result) : Ending :=
  match r.closing with
  | .complete affectedRows =>
    if r.columns.isEmpty then .ok (affectedRows.getD 0).toNat 0 else .eof
  | .error message => .err 1105 sqlState message

def response (r : Result) : Response :=
  ⟨r.columns, if r.columns.isEmpty then [] else r.rows, r.ending⟩

end Result

/-- Each row has a cell for each column, and the columns can be counted. -/
structure Result.WellFormed (r : Result) : Prop where
  shape : ∀ row ∈ r.rows, row.length = r.columns.length
  count : r.columns.length < 2 ^ 64

/-- Every payload fits one packet. -/
structure Result.Fits (r : Result) : Prop where
  names : ∀ c ∈ r.columns, (buildColumnDef c.name c.typeByte c.flags c.decimals).length < maxPayload
  cells : ∀ row ∈ r.rows, (rowPacket row).length < maxPayload

/-- What can be read of the end: the message of an error is cut. -/
def Result.endingRead (r : Result) : Ending :=
  match r.closing with
  | .complete _ => r.ending
  | .error message => .err 1105 sqlState (message.take 512)

/-! ## Values are read from their codes -/

section Payloads

theorem toNat_ofNat_of_lt {n : Nat} (h : n < 251) : (UInt8.ofNat n).toNat = n := by
  rw [UInt8.toNat_ofNat']
  omega

theorem writeLenencInt_eq_cons (n : Nat) :
    ∃ b t, writeLenencInt n = b :: t ∧ b ≠ 0xfb ∧ b ≠ 0xff ∧ (b = 0xfe → 8 ≤ t.length) ∧
      (b = 0 → n = 0) := by
  have hdiffer : ∀ {c d : UInt8} {p : Prop}, c ≠ d → c = d → p := fun hne heq => absurd heq hne
  unfold writeLenencInt
  split
  · rename_i hn
    have hbyte : ∀ c : UInt8, UInt8.ofNat n = c → c.toNat < 251 := by
      rintro c rfl
      rwa [toNat_ofNat_of_lt hn]
    refine ⟨_, [], rfl, ?_, ?_, ?_, ?_⟩
    · intro hb
      exact absurd (hbyte _ hb) (by decide)
    · intro hb
      exact absurd (hbyte _ hb) (by decide)
    · intro hb
      exact absurd (hbyte _ hb) (by decide)
    · intro hb
      rw [← toNat_ofNat_of_lt hn, hb]
      rfl
  · split
    · exact ⟨_, _, rfl, by decide, by decide, hdiffer (by decide), hdiffer (by decide)⟩
    · split
      · exact ⟨_, _, rfl, by decide, by decide, hdiffer (by decide), hdiffer (by decide)⟩
      · exact ⟨_, _, rfl, by decide, by decide, fun _ => Nat.le_refl 8, hdiffer (by decide)⟩

theorem reads_lenencInt {n : Nat} (h : n < 2 ^ 64) :
    Reads readLenencInt (writeLenencInt n) n := by
  unfold writeLenencInt
  split
  · rename_i hn
    refine (Reads.next (UInt8.ofNat n)).bind ?_
    have hlt : UInt8.ofNat n < 0xfb := by
      rw [UInt8.lt_iff_toNat_lt, toNat_ofNat_of_lt hn]
      exact hn
    rw [if_pos hlt, toNat_ofNat_of_lt hn]
    exact Reads.pure n
  · split
    · exact (Reads.next 0xfc).bind (Reads.le (by omega))
    · split
      · exact (Reads.next 0xfd).bind (Reads.le (by omega))
      · exact (Reads.next 0xfe).bind (Reads.le (by omega))

theorem reads_lenencStr {bytes : Bytes} (h : bytes.length < 2 ^ 64) :
    Reads readLenencStr (writeLenencStr bytes) bytes :=
  (reads_lenencInt h).bind (Reads.take bytes)

theorem reads_column {name : Bytes} (hname : name.length < 2 ^ 64) (typeByte : UInt8) {flags : Nat}
    (hflags : flags < 256 ^ 2) (decimals : UInt8) :
    Reads readColumn (buildColumnDef name typeByte flags decimals)
      (columnOf name typeByte flags decimals) := by
  refine (reads_lenencStr (by decide)).bind ?_
  refine (reads_lenencStr (by decide)).bind ?_
  refine (reads_lenencStr (by decide)).bind ?_
  refine (reads_lenencStr (by decide)).bind ?_
  refine (reads_lenencStr hname).bind ?_
  refine (reads_lenencStr hname).bind ?_
  refine (Reads.next 0x0c).bind ?_
  refine (Reads.le (by decide)).bind ?_
  refine (Reads.le (by decide)).bind ?_
  refine (Reads.next typeByte).bind ?_
  refine (Reads.le hflags).bind ?_
  refine (Reads.next decimals).bind ?_
  exact (Reads.take [0, 0]).bind (Reads.pure _)

theorem reads_cell {cell : Option Bytes} (h : ∀ bytes ∈ cell, bytes.length < 2 ^ 64) :
    Reads readCell (writeCell cell) cell := by
  cases cell with
  | none =>
    intro s
    rfl
  | some bytes =>
    intro s
    have hread := reads_lenencStr (h bytes rfl) s
    obtain ⟨b, t, hcode, hnull, -⟩ := writeLenencInt_eq_cons bytes.length
    have hhead : (writeCell (some bytes) ++ s).head? = some b := by
      simp [writeCell, writeLenencStr, hcode]
    rw [readCell, hhead, if_neg (by simpa using hnull)]
    rw [writeCell, hread]
    rfl

theorem length_le_rowPacket {row : Row} {bytes : Bytes} (h : some bytes ∈ row) :
    bytes.length ≤ (rowPacket row).length := by
  induction row with
  | nil => cases h
  | cons _ _ ih =>
    rw [rowPacket, flatMap_cons, length_append]
    rcases mem_cons.1 h with rfl | h
    · simp only [writeCell, writeLenencStr, length_append]
      omega
    · have := ih h
      rw [rowPacket] at this
      omega

theorem reads_row {row : Row} (h : (rowPacket row).length < maxPayload) :
    Reads (many readCell row.length) (rowPacket row) row := by
  apply Reads.many
  intro cell hcell
  apply reads_cell
  rintro bytes rfl
  have hle := length_le_rowPacket hcell
  unfold maxPayload at h
  omega

theorem row_not_end {row : Row} (h : row ≠ []) :
    isErr (rowPacket row) = false ∧ isEof (rowPacket row) = false := by
  obtain ⟨cell, row, rfl⟩ := exists_cons_of_ne_nil h
  cases cell with
  | none => exact ⟨rfl, rfl⟩
  | some bytes =>
    obtain ⟨b, t, hcode, -, herr, heof, -⟩ := writeLenencInt_eq_cons bytes.length
    have hrow : rowPacket (some bytes :: row) = b :: (t ++ (bytes ++ rowPacket row)) := by
      simp [rowPacket, writeCell, writeLenencStr, hcode]
    rw [hrow]
    constructor
    · simp [isErr, herr]
    · by_cases hb : b = 0xfe
      · have hlong := heof hb
        simp only [isEof, length_cons, length_append, Bool.and_eq_false_iff,
          decide_eq_false_iff_not]
        right
        omega
      · simp [isEof, hb]

theorem reads_ok {affectedRows : Nat} (h : affectedRows < 2 ^ 64) :
    Reads readOk (buildOk affectedRows 0) (.ok affectedRows 0) := by
  refine (Reads.next 0x00).bind ?_
  refine (reads_lenencInt h).bind ?_
  refine (reads_lenencInt (by decide)).bind ?_
  exact (Reads.take [2, 0, 0, 0]).bind (Reads.pure _)

theorem parse_err (message : Bytes) :
    parse readErr (buildErr 1105 message) = some (.err 1105 sqlState (message.take 512)) := rfl

theorem parse_eof : parse readEof buildEof = some .eof := rfl

end Payloads

/-! ## Packets -/

section Packets

def frames : UInt8 → List Bytes → Bytes
  | _, [] => []
  | seq, payload :: payloads =>
    leBytes 3 payload.length ++ seq :: (payload ++ frames (seq + 1) payloads)

theorem frames_append (seq : UInt8) (payloads payloads' : List Bytes) :
    frames seq (payloads ++ payloads') =
      frames seq payloads ++ frames (seq + UInt8.ofNat payloads.length) payloads' := by
  induction payloads generalizing seq with
  | nil => simp [frames]
  | cons _ payloads ih =>
    have hseq : seq + 1 + UInt8.ofNat payloads.length =
        seq + UInt8.ofNat (payloads.length + 1) := by
      rw [UInt8.ofNat_add, UInt8.add_assoc, UInt8.add_comm 1]
      rfl
    simp [frames, ih, hseq]

theorem length_le_frames (seq : UInt8) (payloads : List Bytes) :
    payloads.length ≤ (frames seq payloads).length := by
  induction payloads generalizing seq with
  | nil => exact Nat.zero_le _
  | cons _ _ ih =>
    have := ih (seq + 1)
    simp only [frames, length_append, length_cons]
    omega

theorem unframe_packet {payload : Bytes} (h : payload.length < maxPayload) (fuel : Nat)
    (seq : UInt8) (tail : Bytes) :
    unframe (fuel + 1) seq (leBytes 3 payload.length ++ seq :: (payload ++ tail)) =
      (unframe fuel (seq + 1) tail).map (payload :: ·) := by
  have hlength : (UInt8.ofNat payload.length).toNat +
      256 * (UInt8.ofNat (payload.length / 256)).toNat +
      65536 * (UInt8.ofNat (payload.length / 256 / 256)).toNat = payload.length := by
    unfold maxPayload at h
    simp only [UInt8.toNat_ofNat']
    omega
  simp only [leBytes, cons_append, nil_append, unframe, hlength]
  rw [if_pos ⟨trivial, by rw [length_append]; omega⟩, drop_left, take_left]
  cases unframe fuel (seq + 1) tail with
  | none => rfl
  | some => simp only [h, if_true, Option.map_some]

theorem unframe_frames {payloads : List Bytes} (h : ∀ p ∈ payloads, p.length < maxPayload)
    {fuel : Nat} (hfuel : payloads.length ≤ fuel) (seq : UInt8) :
    unframe fuel seq (frames seq payloads) = some payloads := by
  induction payloads generalizing fuel seq with
  | nil => rw [frames, unframe]
  | cons payload payloads ih =>
    obtain ⟨fuel, rfl⟩ : ∃ n, fuel = n + 1 :=
      Nat.exists_eq_add_one.2 (Nat.lt_of_lt_of_le (Nat.succ_pos payloads.length) hfuel)
    rw [frames, unframe_packet (h payload (.head _)),
      ih (fun p hp => h p (.tail _ hp)) (Nat.le_of_succ_le_succ hfuel)]
    rfl

structure Sent (startSeq : UInt8) (payloads : List Bytes) (sink : MysqlResultSink) : Prop where
  seq : sink.seq = startSeq + UInt8.ofNat payloads.length
  tx : sink.tx.flatten = frames startSeq payloads

variable {startSeq : UInt8} {sink : MysqlResultSink} {payloads : List Bytes}

theorem Sent.encodeAndSend (h : Sent startSeq payloads sink) (payload : Bytes) :
    Sent startSeq (payloads ++ [payload]) (sink.encodeAndSend payload) where
  seq := by
    rw [MysqlResultSink.encodeAndSend, h.seq, length_append, length_singleton,
      UInt8.ofNat_add, UInt8.add_assoc]
    rfl
  tx := by
    simp [MysqlResultSink.encodeAndSend, h.tx, h.seq, frames_append, frames]

theorem Sent.sendAll (h : Sent startSeq payloads sink) (payloads' : List Bytes) :
    Sent startSeq (payloads ++ payloads') (sink.sendAll payloads') := by
  induction payloads' generalizing payloads sink with
  | nil => rwa [append_nil]
  | cons payload _ ih =>
    have hone := ih (h.encodeAndSend payload)
    rwa [append_assoc, singleton_append] at hone

theorem sendAll_mode (sink : MysqlResultSink) (payloads : List Bytes) :
    (sink.sendAll payloads).mode = sink.mode := by
  induction payloads generalizing sink with
  | nil => rfl
  | cons payload _ ih => exact ih (sink.encodeAndSend payload)

end Packets

section Payloads

def columnPacket (c : ColumnDefinition) : Bytes :=
  buildColumnDef c.name c.typeByte c.flags c.decimals

def headerPackets (columns : List ColumnDefinition) : List Bytes :=
  writeLenencInt columns.length :: (columns.map columnPacket ++ [buildEof])

def Result.lastPacket (r : Result) : Bytes :=
  match r.closing with
  | .complete affectedRows =>
    if r.columns.isEmpty then buildOk (affectedRows.getD 0).toNat 0 else buildEof
  | .error message => buildErr 1105 message

def Result.packets (r : Result) : List Bytes :=
  if r.columns.isEmpty then [r.lastPacket]
  else headerPackets r.columns ++ (r.rows.map rowPacket ++ [r.lastPacket])

variable {startSeq : UInt8} {sink : MysqlResultSink} {payloads : List Bytes}

theorem Sent.sendColumns (h : Sent startSeq payloads sink) (columns : List ColumnDefinition) :
    Sent startSeq (payloads ++ headerPackets columns)
      (sink.sendColumns (columns.map columnPacket)) := by
  have hmode : Sent startSeq payloads { sink with mode := .resultSet } := ⟨h.seq, h.tx⟩
  rw [MysqlResultSink.sendColumns, length_map]
  exact hmode.sendAll _

theorem sendColumns_mode (sink : MysqlResultSink) (defs : List Bytes) :
    (sink.sendColumns defs).mode = .resultSet :=
  sendAll_mode _ _

theorem sent_opening (startSeq : UInt8) (o : Opening) :
    let sink := (MysqlResultSink.new startSeq).call o.call
    if o.columns.isEmpty then Sent startSeq [] sink ∧ sink.mode = .ok
    else Sent startSeq (headerPackets o.columns ++ o.rows.map rowPacket) sink ∧
      sink.mode = .resultSet := by
  have hnew : Sent startSeq [] (MysqlResultSink.new startSeq) :=
    ⟨by simp [MysqlResultSink.new], rfl⟩
  cases o with
  | schema fields =>
    cases fields with
    | nil => exact ⟨⟨hnew.seq, hnew.tx⟩, rfl⟩
    | cons f fields =>
      have hsent := hnew.sendColumns ((f :: fields).map Field.column)
      rw [map_map] at hsent
      refine ⟨?_, sendColumns_mode _ _⟩
      change Sent startSeq (headerPackets ((f :: fields).map Field.column) ++ []) _
      rw [append_nil]
      exact hsent
  | native columns rows =>
    cases columns with
    | nil => exact ⟨⟨hnew.seq, hnew.tx⟩, rfl⟩
    | cons c columns =>
      have hsent := (hnew.sendColumns ((c :: columns).map NativeColumn.column)).sendAll
        (rows.map rowPacket)
      rw [map_map] at hsent
      refine ⟨hsent, ?_⟩
      exact (sendAll_mode _ _).trans (sendColumns_mode _ _)

theorem sent_batch_resultSet (h : Sent startSeq payloads sink) (hmode : sink.mode = .resultSet)
    (b : Batch) : Sent startSeq (payloads ++ b.rows.map rowPacket) (sink.call b.call) ∧
      (sink.call b.call).mode = .resultSet := by
  have hcall : sink.call b.call = sink.sendAll (b.rows.map rowPacket) := by
    cases b with
    | arrow | native => exact if_neg (not_not.2 hmode)
  rw [hcall, sendAll_mode]
  exact ⟨h.sendAll _, hmode⟩

theorem call_batch_ok (hmode : sink.mode = .ok) (b : Batch) : sink.call b.call = sink := by
  have hne : sink.mode ≠ .resultSet := by
    rw [hmode]
    decide
  cases b with
  | arrow | native => exact if_pos hne

theorem sent_batches_resultSet (h : Sent startSeq payloads sink) (hmode : sink.mode = .resultSet)
    (bs : List Batch) :
    let sink' := (bs.map Batch.call).foldl MysqlResultSink.call sink
    Sent startSeq (payloads ++ (bs.flatMap Batch.rows).map rowPacket) sink' ∧
      sink'.mode = .resultSet := by
  induction bs generalizing payloads sink with
  | nil =>
    refine ⟨?_, hmode⟩
    rwa [flatMap_nil, map_nil, append_nil]
  | cons b _ ih =>
    obtain ⟨hone, hmode⟩ := sent_batch_resultSet h hmode b
    have hrest := ih hone hmode
    rwa [append_assoc, ← map_append, ← flatMap_cons] at hrest

theorem call_batches_ok (hmode : sink.mode = .ok) (bs : List Batch) :
    (bs.map Batch.call).foldl MysqlResultSink.call sink = sink := by
  induction bs with
  | nil => rfl
  | cons _ _ ih => rw [map_cons, foldl_cons, call_batch_ok hmode, ih]

theorem call_complete_resultSet (hmode : sink.mode = .resultSet) (affectedRows : Option UInt64) :
    sink.call (Closing.complete affectedRows).call = sink.encodeAndSend buildEof := by
  change sink.onComplete affectedRows = _
  rw [MysqlResultSink.onComplete, hmode]

theorem call_complete_ok (hmode : sink.mode = .ok) (affectedRows : Option UInt64) :
    sink.call (Closing.complete affectedRows).call =
      sink.encodeAndSend (buildOk (affectedRows.getD 0).toNat 0) := by
  change sink.onComplete affectedRows = _
  rw [MysqlResultSink.onComplete, hmode]

theorem stream_eq_frames (startSeq : UInt8) (r : Result) :
    stream startSeq r.calls = frames startSeq r.packets := by
  have hopening := sent_opening startSeq r.opening
  unfold stream Result.calls Result.packets Result.lastPacket Result.rows
  rw [foldl_cons, foldl_append, foldl_cons, foldl_nil]
  by_cases hempty : r.opening.columns.isEmpty = true
  · rw [if_pos hempty] at hopening
    obtain ⟨hsent, hmode⟩ := hopening
    rw [call_batches_ok hmode, Result.columns, hempty]
    cases r.closing with
    | complete affectedRows =>
      rw [call_complete_ok hmode]
      exact (hsent.encodeAndSend (buildOk (affectedRows.getD 0).toNat 0)).tx
    | error message => exact (hsent.encodeAndSend (buildErr 1105 message)).tx
  · rw [if_neg hempty] at hopening
    obtain ⟨hsent, hmode⟩ := sent_batches_resultSet hopening.1 hopening.2 r.batches
    rw [append_assoc, ← map_append] at hsent
    rw [Result.columns, if_neg hempty, ← append_assoc]
    cases r.closing with
    | complete =>
      rw [call_complete_resultSet hmode]
      simp only
      rw [if_neg hempty]
      exact (hsent.encodeAndSend buildEof).tx
    | error message => exact (hsent.encodeAndSend (buildErr 1105 message)).tx

end Payloads

/-! ## The result is read -/

section Decoded

variable {r : Result}

theorem reads_packet {α : Type} {read : Reader UInt8 α} {code : Bytes} {a : α}
    (h : Reads read code a) : Reads (packet read) [code] a :=
  (Reads.next code).bind (Reads.lift h.parse)

theorem reads_last (h : r.columns.isEmpty = false) (columns fuel : Nat) :
    Reads (readRows columns (fuel + 1)) [r.lastPacket] ([], r.endingRead) := by
  unfold Result.lastPacket Result.endingRead Result.ending
  cases r.closing with
  | complete =>
    simp only [h]
    exact (Reads.next buildEof).bind ((Reads.lift parse_eof).bind (Reads.pure _))
  | error message =>
    exact (Reads.next (buildErr 1105 message)).bind
      ((Reads.lift (parse_err message)).bind (Reads.pure _))

theorem reads_rows {columns : Nat} (hcolumns : columns ≠ 0) {last : Bytes} {ending : Ending}
    (hlast : ∀ fuel, Reads (readRows columns (fuel + 1)) [last] ([], ending)) {rows : List Row}
    (hshape : ∀ row ∈ rows, row.length = columns)
    (hcells : ∀ row ∈ rows, (rowPacket row).length < maxPayload) {fuel : Nat}
    (hfuel : rows.length < fuel) :
    Reads (readRows columns fuel) (rows.map rowPacket ++ [last]) (rows, ending) := by
  induction rows generalizing fuel with
  | nil =>
    obtain ⟨fuel, rfl⟩ := Nat.exists_eq_add_one.2 hfuel
    exact hlast fuel
  | cons row _ ih =>
    obtain ⟨fuel, rfl⟩ := Nat.exists_eq_add_one.2 (Nat.lt_of_le_of_lt (Nat.zero_le _) hfuel)
    have hlength := hshape row (.head _)
    have hne : row ≠ [] := by
      rintro rfl
      exact hcolumns hlength.symm
    obtain ⟨herr, heof⟩ := row_not_end hne
    have hrow := (reads_row (hcells row (.head _))).parse
    rw [hlength] at hrow
    have hrest := ih (fun x hx => hshape x (.tail _ hx))
      (fun x hx => hcells x (.tail _ hx)) (Nat.lt_of_succ_lt_succ hfuel)
    refine (Reads.next (rowPacket row)).bind ?_
    rw [herr, heof]
    exact (Reads.lift hrow).bind (hrest.map fun p => (row :: p.1, p.2))

theorem column_eq {c : ColumnDefinition} (h : c ∈ r.columns) :
    c = columnOf c.name c.typeByte c.flags c.decimals ∧ c.flags < 256 ^ 2 := by
  have hnot : ∀ nullable, notNullFlag nullable < 256 ^ 2 := by decide
  have hunsigned : ∀ nullable unsigned,
      notNullFlag nullable ||| unsignedFlag unsigned < 256 ^ 2 := by
    decide
  unfold Result.columns Opening.columns at h
  split at h
  · obtain ⟨f, -, rfl⟩ := mem_map.1 h
    exact ⟨rfl, hnot _⟩
  · obtain ⟨c, -, rfl⟩ := mem_map.1 h
    exact ⟨rfl, hunsigned _ _⟩

theorem length_le_columnPacket (c : ColumnDefinition) :
    c.name.length ≤ (columnPacket c).length := by
  simp only [columnPacket, buildColumnDef, writeLenencStr, length_append]
  omega

theorem reads_columns (hfits : r.Fits) :
    Reads (many (packet readColumn) r.columns.length) (r.columns.map columnPacket) r.columns := by
  have hflat : r.columns.map columnPacket = r.columns.flatMap fun c => [columnPacket c] :=
    map_eq_flatMap
  rw [hflat]
  apply Reads.many
  intro c hc
  obtain ⟨hcolumn, hflags⟩ := column_eq hc
  have hname : c.name.length < 2 ^ 64 := by
    have hle := length_le_columnPacket c
    have hlt : (columnPacket c).length < maxPayload := hfits.names c hc
    unfold maxPayload at hlt
    omega
  have hread := reads_column hname c.typeByte hflags c.decimals
  rw [← hcolumn] at hread
  exact reads_packet hread

theorem length_writeLenencInt_le (n : Nat) : (writeLenencInt n).length ≤ 9 := by
  unfold writeLenencInt
  split
  · exact Nat.le_add_left 1 8
  · split
    · exact Nat.le_add_left 3 6
    · split
      · exact Nat.le_add_left 4 5
      · exact Nat.le_refl 9

theorem length_lastPacket_lt (r : Result) : r.lastPacket.length < maxPayload := by
  unfold Result.lastPacket maxPayload
  split
  · rename_i affectedRows _
    have hrows := length_writeLenencInt_le (affectedRows.getD 0).toNat
    split
    · simp only [buildOk, leBytes, length_cons, length_append, length_nil]
      have hid := length_writeLenencInt_le 0
      omega
    · decide
  · rename_i message _
    have hle := length_take_le 512 message
    simp only [buildErr, sqlState, leBytes, length_cons, length_append, length_nil]
    omega

theorem length_packets_lt (hfits : r.Fits) : ∀ p ∈ r.packets, p.length < maxPayload := by
  intro p hp
  unfold Result.packets headerPackets at hp
  split at hp
  · rw [mem_singleton.1 hp]
    exact length_lastPacket_lt r
  · simp only [cons_append, mem_cons, mem_append, mem_map, not_mem_nil,
      or_false] at hp
    rcases hp with rfl | (⟨c, hc, rfl⟩ | rfl) | ⟨row, hrow, rfl⟩ | rfl
    · exact Nat.lt_of_le_of_lt (length_writeLenencInt_le _) (by decide)
    · exact hfits.names c hc
    · decide
    · exact hfits.cells row hrow
    · exact length_lastPacket_lt r

theorem reads_end (h : r.columns.isEmpty = true) (fuel : Nat) :
    Reads (readResponse fuel) [r.lastPacket] ⟨[], [], r.endingRead⟩ := by
  unfold Result.lastPacket Result.endingRead Result.ending
  cases r.closing with
  | complete affectedRows =>
    simp only [h]
    refine (Reads.next (buildOk (affectedRows.getD 0).toNat 0)).bind ?_
    exact (Reads.lift (reads_ok (affectedRows.getD 0).toNat_lt).parse).map _
  | error message =>
    refine (Reads.next (buildErr 1105 message)).bind ?_
    exact (Reads.lift (parse_err message)).map _

theorem reads_resultSet (hwell : r.WellFormed) (hfits : r.Fits) (h : r.columns.isEmpty = false)
    {fuel : Nat} (hfuel : r.rows.length < fuel) :
    Reads (readResponse fuel) (headerPackets r.columns ++ (r.rows.map rowPacket ++ [r.lastPacket]))
      ⟨r.columns, r.rows, r.endingRead⟩ := by
  have hcolumns : r.columns.length ≠ 0 := by
    intro hzero
    rw [length_eq_zero_iff.1 hzero] at h
    cases h
  obtain ⟨b, t, hcode, -, herr, -, hok⟩ := writeLenencInt_eq_cons r.columns.length
  have hcount := (reads_lenencInt hwell.count).parse
  have hbody := reads_rows hcolumns (reads_last h r.columns.length) hwell.shape hfits.cells hfuel
  simp only [headerPackets, cons_append, append_assoc, nil_append]
  refine (Reads.next (writeLenencInt r.columns.length)).bind ?_
  have hnotOk : ¬isOk (writeLenencInt r.columns.length) = true := by
    rw [hcode]
    intro hb
    exact hcolumns (hok (by simpa [isOk] using hb))
  have hnotErr : ¬isErr (writeLenencInt r.columns.length) = true := by
    rw [hcode]
    intro hb
    exact herr (by simpa [isErr] using hb)
  rw [if_neg hnotOk, if_neg hnotErr]
  refine (Reads.lift hcount).bind ?_
  refine (reads_columns hfits).bind ?_
  refine (Reads.next buildEof).bind ?_
  refine (Reads.lift parse_eof).bind ?_
  exact hbody.map fun body => Response.mk r.columns body.1 body.2

/-- If the payloads fit, the client reads the result, with an error message that may be cut. -/
theorem decode_stream (hwell : r.WellFormed) (hfits : r.Fits) (startSeq : UInt8) :
    decode startSeq (stream startSeq r.calls) =
      some { r.response with ending := r.endingRead } := by
  have hframes := unframe_frames (length_packets_lt hfits)
    (length_le_frames startSeq r.packets) startSeq
  rw [decode, stream_eq_frames, hframes, Option.bind_eq_bind, Option.bind_some]
  unfold Result.packets Result.response
  cases h : r.columns.isEmpty with
  | true =>
    have hnil : r.columns = [] := isEmpty_iff.1 h
    rw [hnil]
    exact (reads_end h _).parse
  | false =>
    refine (reads_resultSet hwell hfits h ?_).parse
    rw [if_neg (by decide)]
    simp only [length_append, length_map, length_cons]
    omega

end Decoded

/-! ## Only then

A client reads no value from fewer bytes than the sink writes for it, and puts a payload of
`0xffffff` bytes or more together from more than one packet. So a response with such a payload takes
more bytes than there are. -/

section Converse

theorem readsFrom_lenencInt :
    ReadsFrom readLenencInt fun n code => (writeLenencInt n).length ≤ code.length := by
  refine ReadsFrom.next.bind ?_
  rintro b code rfl
  split
  · rename_i hb
    refine .pure ?_
    rw [UInt8.lt_iff_toNat_lt] at hb
    have hsmall : b.toNat < 251 := hb
    rw [writeLenencInt, if_pos hsmall]
    exact Nat.le_refl 1
  · split
    · refine (ReadsFrom.le 2).mono ?_
      rintro n code ⟨hlength, hn⟩
      have hlt : n < 65536 := hn
      unfold writeLenencInt
      split_ifs <;> simp [hlength]
    · split
      · refine (ReadsFrom.le 3).mono ?_
        rintro n code ⟨hlength, hn⟩
        have hlt : n < 16777216 := hn
        unfold writeLenencInt
        split_ifs <;> simp [hlength]
      · split
        · refine (ReadsFrom.le 8).mono ?_
          rintro n code ⟨hlength, -⟩
          have hle := length_writeLenencInt_le n
          simp only [singleton_append, length_cons, hlength]
          exact hle
        · exact .failure

theorem readsFrom_lenencStr :
    ReadsFrom readLenencStr fun bytes code => (writeLenencStr bytes).length ≤ code.length := by
  refine readsFrom_lenencInt.bind fun n code hcode => (ReadsFrom.take n).mono ?_
  rintro bytes code' ⟨rfl, rfl⟩
  simp only [writeLenencStr, length_append]
  omega

/-- The bytes of a column definition. -/
def ColumnDefinition.size (c : ColumnDefinition) : Nat :=
  (writeLenencStr c.catalog).length + (writeLenencStr c.schema).length +
    (writeLenencStr c.table).length + (writeLenencStr c.orgTable).length +
    (writeLenencStr c.name).length + (writeLenencStr c.orgName).length + 13

theorem readsFrom_column : ReadsFrom readColumn fun c code => c.size ≤ code.length := by
  refine readsFrom_lenencStr.bind fun catalog code₁ h₁ => ?_
  refine readsFrom_lenencStr.bind fun schema code₂ h₂ => ?_
  refine readsFrom_lenencStr.bind fun table code₃ h₃ => ?_
  refine readsFrom_lenencStr.bind fun orgTable code₄ h₄ => ?_
  refine readsFrom_lenencStr.bind fun name code₅ h₅ => ?_
  refine readsFrom_lenencStr.bind fun orgName code₆ h₆ => ?_
  refine ReadsFrom.next.bind ?_
  rintro b code₇ rfl
  refine (ReadsFrom.le 2).bind ?_
  rintro charset code₈ ⟨h₈, -⟩
  refine (ReadsFrom.le 4).bind ?_
  rintro columnLength code₉ ⟨h₉, -⟩
  refine ReadsFrom.next.bind ?_
  rintro typeByte code₁₀ rfl
  refine (ReadsFrom.le 2).bind ?_
  rintro flags code₁₁ ⟨h₁₁, -⟩
  refine ReadsFrom.next.bind ?_
  rintro decimals code₁₂ rfl
  refine (ReadsFrom.take 2).bind ?_
  rintro filler code₁₃ ⟨rfl, h₁₃⟩
  refine .pure ?_
  simp only [ColumnDefinition.size, length_append, length_cons, length_nil]
  omega

theorem readsFrom_cell :
    ReadsFrom readCell fun cell code => (writeCell cell).length ≤ code.length := by
  intro s cell s' hread
  unfold readCell at hread
  split at hread
  · rename_i hnull
    cases hread
    obtain ⟨rest, rfl⟩ := head?_eq_some_iff.1 hnull
    exact ⟨[0xfb], rfl, Nat.le_refl 1⟩
  · obtain ⟨⟨bytes, t⟩, hstr, he⟩ := Option.map_eq_some_iff.1 hread
    cases he
    exact readsFrom_lenencStr s bytes t hstr

theorem readsFrom_row (columns : Nat) : ReadsFrom (many readCell columns) fun row code =>
    (rowPacket row).length ≤ code.length := by
  refine (readsFrom_cell.many columns).mono ?_
  rintro row code ⟨-, codes, hall, rfl⟩
  induction hall with
  | nil => exact Nat.le_refl 0
  | cons hcell _ ih =>
    simp only [rowPacket, flatMap_cons, flatten_cons, length_append] at ih ⊢
    omega

def Ending.size : Ending → Nat
  | .eof => 5
  | .ok affectedRows lastInsertId =>
    (writeLenencInt affectedRows).length + (writeLenencInt lastInsertId).length + 5
  | .err _ _ message => 9 + message.length

theorem readsFrom_err : ReadsFrom readErr fun ending code => ending.size ≤ code.length := by
  refine ReadsFrom.next.bind ?_
  rintro b code rfl
  refine (ReadsFrom.le 2).bind ?_
  rintro errorCode code ⟨hcode, -⟩
  refine ReadsFrom.next.bind ?_
  rintro b' code rfl
  refine (ReadsFrom.take 5).bind ?_
  rintro state code ⟨rfl, hstate⟩
  refine ReadsFrom.rest.bind ?_
  rintro message code rfl
  refine .pure ?_
  simp only [Ending.size, length_append, length_cons, length_nil]
  omega

theorem readsFrom_eof : ReadsFrom readEof fun ending code =>
    ending = .eof ∧ ending.size ≤ code.length := by
  refine ReadsFrom.next.bind ?_
  rintro b code rfl
  refine (ReadsFrom.le 2).bind ?_
  rintro warnings code ⟨hwarnings, -⟩
  refine (ReadsFrom.le 2).bind ?_
  rintro status code ⟨hstatus, -⟩
  refine .pure ⟨rfl, ?_⟩
  simp only [Ending.size, length_append, length_cons, length_nil]
  omega

/-- One payload for each size, and none shorter. -/
def Covers (sizes : List Nat) (payloads : List Bytes) : Prop :=
  List.Forall₂ (fun n payload => n ≤ payload.length) sizes payloads

def rowSizes (rows : List Row) (ending : Ending) : List Nat :=
  rows.map (fun row => (rowPacket row).length) ++ [ending.size]

theorem readsFrom_rows (columns fuel : Nat) :
    ReadsFrom (readRows columns fuel) fun body payloads =>
      Covers (rowSizes body.1 body.2) payloads := by
  induction fuel with
  | zero => exact .failure
  | succ fuel ih =>
    refine ReadsFrom.next.bind ?_
    rintro payload payloads rfl
    split
    · refine ReadsFrom.bind (Q := fun ending payloads => ending.size ≤ payload.length ∧
        payloads = []) (.lift fun ending h => ⟨readsFrom_err.parse h, rfl⟩) ?_
      rintro ending payloads ⟨hsize, rfl⟩
      exact .pure (.cons hsize .nil)
    · split
      · refine ReadsFrom.bind (Q := fun ending payloads => ending.size ≤ payload.length ∧
          payloads = []) (.lift fun ending h => ⟨(readsFrom_eof.parse h).2, rfl⟩) ?_
        rintro ending payloads ⟨hsize, rfl⟩
        exact .pure (.cons hsize .nil)
      · refine ReadsFrom.bind (Q := fun row payloads => (rowPacket row).length ≤ payload.length ∧
          payloads = []) (.lift fun row h => ⟨(readsFrom_row columns).parse h, rfl⟩) ?_
        rintro row payloads ⟨hsize, rfl⟩
        refine ih.bind fun body payloads hbody => .pure ?_
        rw [append_nil]
        exact .cons hsize hbody

/-- The sizes of the payloads of a result with columns. -/
def Response.sizes (r : Response) : List Nat :=
  (writeLenencInt r.columns.length).length :: (r.columns.map ColumnDefinition.size ++
    (5 :: rowSizes r.rows r.ending))

theorem readsFrom_response (fuel : Nat) : ReadsFrom (readResponse fuel) fun response payloads =>
    response.columns ≠ [] → Covers response.sizes payloads := by
  refine ReadsFrom.next.bind ?_
  rintro payload payloads rfl
  split
  · refine ReadsFrom.bind (Q := fun _ _ => True) (.lift fun _ _ => trivial) fun ending _ _ => ?_
    exact .pure fun hcolumns => absurd rfl hcolumns
  · split
    · refine ReadsFrom.bind (Q := fun _ _ => True) (.lift fun _ _ => trivial) fun ending _ _ => ?_
      exact .pure fun hcolumns => absurd rfl hcolumns
    · refine ReadsFrom.bind (Q := fun count payloads =>
        (writeLenencInt count).length ≤ payload.length ∧ payloads = [])
        (.lift fun count h => ⟨readsFrom_lenencInt.parse h, rfl⟩) ?_
      rintro count payloads ⟨hcount, rfl⟩
      have hcolumn : ReadsFrom (packet readColumn) fun c payloads => Covers [c.size] payloads := by
        refine ReadsFrom.next.bind ?_
        rintro p payloads rfl
        refine .lift fun c hc => ?_
        exact .cons (readsFrom_column.parse hc) .nil
      refine (hcolumn.many count).bind ?_
      rintro columns payloads ⟨hlength, codes, hall, rfl⟩
      have hcovers : Covers (columns.map ColumnDefinition.size) codes.flatten := by
        clear hlength
        induction hall with
        | nil => exact .nil
        | cons hc _ ih =>
          rw [map_cons, flatten_cons]
          exact rel_append hc ih
      refine ReadsFrom.next.bind ?_
      rintro separator payloads rfl
      split
      · refine ReadsFrom.bind (Q := fun ending payloads => 5 ≤ separator.length ∧
          payloads = []) (.lift fun ending h => ?_) ?_
        · obtain ⟨rfl, hsize⟩ := readsFrom_eof.parse h
          exact ⟨hsize, rfl⟩
        · rintro ending payloads ⟨hsize, rfl⟩
          refine (readsFrom_rows count fuel).bind fun body payloads hbody => .pure fun _ => ?_
          rw [append_nil, Response.sizes, hlength]
          exact .cons hcount (rel_append hcovers (.cons hsize hbody))
      · exact .failure

/-- The bytes a payload of `n` bytes takes at least: a long one comes in two packets or more. -/
def packetCost (n : Nat) : Nat := 4 + n + if maxPayload ≤ n then 4 else 0

theorem cost_le_of_unframe {fuel : Nat} {seq : UInt8} {bytes : Bytes} {payloads : List Bytes}
    (h : unframe fuel seq bytes = some payloads) :
    (payloads.map fun p => packetCost p.length).sum ≤ bytes.length := by
  fun_induction unframe fuel seq bytes generalizing payloads with
  | case1 =>
    cases h
    exact Nat.le_refl 0
  | case2 => cases h
  | case3 =>
    rename_i rest length hpacket payloads' hrest hshort ih
    cases h
    have hle := ih hrest
    have htake : (rest.take length).length = length := length_take_of_le hpacket.2
    rw [length_drop] at hle
    have hcost : packetCost length = 4 + length := by
      rw [packetCost, if_neg (Nat.not_le.2 hshort), Nat.add_zero]
    simp only [map_cons, sum_cons, htake, length_cons, hcost]
    omega
  | case4 => cases h
  | case5 =>
    rename_i rest length hpacket hlong payload payloads' hrest ih
    cases h
    have hle := ih hrest
    have htake : (rest.take length).length = length := length_take_of_le hpacket.2
    rw [length_drop, map_cons, sum_cons] at hle
    have hpayload : 4 + payload.length ≤ packetCost payload.length := Nat.le_add_right _ _
    have hwhole : packetCost (rest.take length ++ payload).length ≤
        4 + (length + payload.length) + 4 := by
      rw [length_append, htake, packetCost]
      split <;> omega
    simp only [map_cons, sum_cons, length_cons]
    omega
  | case6 => cases h
  | case7 => cases h

theorem length_frames (seq : UInt8) (payloads : List Bytes) :
    (frames seq payloads).length = ((payloads.map length).map (4 + ·)).sum := by
  induction payloads generalizing seq with
  | nil => rfl
  | cons payload _ ih =>
    simp only [frames, length_append, length_leBytes, length_cons, ih, map_cons, sum_cons]
    omega

theorem Covers.cost_le {sizes : List Nat} {payloads : List Bytes} (h : Covers sizes payloads) :
    (sizes.map packetCost).sum ≤ (payloads.map fun p => packetCost p.length).sum := by
  induction h with
  | nil => exact Nat.le_refl 0
  | @cons n payload _ _ hn _ ih =>
    have hcost : packetCost n ≤ packetCost payload.length := by
      unfold packetCost
      split_ifs <;> omega
    rw [map_cons, map_cons, sum_cons, sum_cons]
    omega

theorem sum_le_sum_cost (sizes : List Nat) :
    (sizes.map (4 + ·)).sum ≤ (sizes.map packetCost).sum := by
  induction sizes with
  | nil => exact Nat.le_refl 0
  | cons n _ ih =>
    have hcost : 4 + n ≤ packetCost n := Nat.le_add_right _ _
    rw [map_cons, map_cons, sum_cons, sum_cons]
    omega

theorem lt_maxPayload_of_cost {sizes : List Nat}
    (h : (sizes.map packetCost).sum ≤ (sizes.map (4 + ·)).sum) : ∀ n ∈ sizes, n < maxPayload := by
  induction sizes with
  | nil => simp
  | cons n sizes ih =>
    have hrest := sum_le_sum_cost sizes
    have hcost : 4 + n ≤ packetCost n := Nat.le_add_right _ _
    rw [map_cons, map_cons, sum_cons, sum_cons] at h
    rw [forall_mem_cons]
    refine ⟨?_, ih (by omega)⟩
    by_contra hlong
    have hmore : packetCost n = 4 + n + 4 := by rw [packetCost, if_pos (Nat.le_of_not_lt hlong)]
    omega

variable {r : Result}

theorem size_of_mem_columns {c : ColumnDefinition} (h : c ∈ r.columns) :
    c.size = (columnPacket c).length := by
  rw [(column_eq h).1]
  simp [ColumnDefinition.size, columnPacket, columnOf, buildColumnDef]
  omega

/-- The sizes of all payloads but the last. -/
def Result.bodySizes (r : Result) : List Nat :=
  (writeLenencInt r.columns.length).length ::
    (r.columns.map (fun c => (columnPacket c).length) ++
      (5 :: r.rows.map fun row => (rowPacket row).length))

theorem sizes_response (h : r.columns.isEmpty = false) :
    r.response.sizes = r.bodySizes ++ [r.ending.size] := by
  have hcolumns : r.columns.map ColumnDefinition.size =
      r.columns.map fun c => (columnPacket c).length :=
    map_congr_left fun c hc => size_of_mem_columns hc
  simp [Response.sizes, Result.response, Result.bodySizes, rowSizes, hcolumns, h]

theorem length_packets (h : r.columns.isEmpty = false) :
    r.packets.map length = r.bodySizes ++ [r.lastPacket.length] := by
  simp [Result.packets, headerPackets, Result.bodySizes, h, buildEof, Function.comp_def]

theorem length_lastPacket_le (h : r.columns.isEmpty = false) :
    r.lastPacket.length ≤ r.ending.size := by
  unfold Result.lastPacket Result.ending
  cases r.closing with
  | complete =>
    simp only [h]
    exact Nat.le_refl 5
  | error message =>
    simp [buildErr, sqlState, Ending.size]
    omega

/-- What is decoded has fitted the protocol. -/
theorem fits_of_decode (h : r.columns.isEmpty = false) {startSeq : UInt8}
    (hdecode : decode startSeq (stream startSeq r.calls) = some r.response) :
    r.Fits ∧ r.ending.size ≤ r.lastPacket.length := by
  obtain ⟨payloads, hunframe, hparse⟩ := Option.bind_eq_some_iff.1 hdecode
  have hne : r.response.columns ≠ [] := by
    intro hnil
    rw [show r.columns = [] from hnil] at h
    cases h
  have hcovers := (readsFrom_response payloads.length).parse hparse hne
  rw [sizes_response h] at hcovers
  have hcost := hcovers.cost_le
  have hbytes := cost_le_of_unframe hunframe
  rw [stream_eq_frames, length_frames, length_packets h] at hbytes
  have hlast := length_lastPacket_le h
  have hbody := sum_le_sum_cost r.bodySizes
  have hending : 4 + r.ending.size ≤ packetCost r.ending.size := Nat.le_add_right _ _
  simp only [map_append, sum_append, map_cons, map_nil, sum_cons, sum_nil] at hcost hbytes
  have hshort : ∀ n ∈ r.bodySizes, n < maxPayload := lt_maxPayload_of_cost (by omega)
  refine ⟨⟨fun c hc => ?_, fun row hrow => ?_⟩, by omega⟩
  · apply hshort
    simp only [Result.bodySizes, mem_cons, mem_append, mem_map]
    exact .inr (.inl ⟨c, hc, rfl⟩)
  · apply hshort
    simp only [Result.bodySizes, mem_cons, mem_append, mem_map]
    exact .inr (.inr (.inr ⟨row, hrow, rfl⟩))

theorem endingRead_eq (h : ∀ m, r.closing = .error m → m.length ≤ 512) :
    r.endingRead = r.ending := by
  unfold Result.endingRead Result.ending
  cases hclosing : r.closing with
  | complete => rfl
  | error message =>
    simp only
    rw [take_of_length_le (h message hclosing)]

/-- The client reads exactly the result if and only if every payload fits one packet and the message
of an error is not cut. -/
theorem decode_stream_iff (r : Result) (hwell : r.WellFormed) (startSeq : UInt8) :
    decode startSeq (stream startSeq r.calls) = some r.response ↔
      r.Fits ∧ ∀ m, r.closing = .error m → m.length ≤ 512 := by
  constructor
  · intro hdecode
    cases h : r.columns.isEmpty with
    | false =>
      obtain ⟨hfits, hending⟩ := fits_of_decode h hdecode
      refine ⟨hfits, fun m hm => ?_⟩
      simp [Result.lastPacket, Result.ending, hm, buildErr, sqlState, Ending.size] at hending
      omega
    | true =>
      have hnil : r.columns = [] := isEmpty_iff.1 h
      have hfits : r.Fits := by
        refine ⟨by simp [hnil], fun row hrow => ?_⟩
        have hempty := hwell.shape row hrow
        rw [hnil] at hempty
        rw [length_eq_zero_iff.1 hempty]
        decide
      refine ⟨hfits, fun m hm => ?_⟩
      rw [decode_stream hwell hfits, Option.some.injEq] at hdecode
      have hending : r.endingRead = r.ending := congrArg Response.ending hdecode
      simp only [Result.endingRead, Result.ending, hm, Ending.err.injEq, true_and] at hending
      rw [← hending]
      exact length_take_le 512 m
  · rintro ⟨hfits, hmessage⟩
    rw [decode_stream hwell hfits, endingRead_eq hmessage]
    rfl

end Converse

/-- Two columns and a NULL, with packet numbers that wrap around. -/
def smallResult : Result where
  opening := .schema [⟨[0x61], .int64, false⟩, ⟨[0x62], .other, true⟩]
  batches := [.arrow [[some [0x31], none]]]
  closing := .complete none

/-- The sequence number wraps around. -/
theorem smallResult_decoded :
    decode 254 (stream 254 smallResult.calls) = some smallResult.response := by
  have hwell : smallResult.WellFormed := ⟨by decide, by decide⟩
  exact (decode_stream_iff smallResult hwell 254).2 ⟨⟨by decide, by decide⟩, nofun⟩

def cellResult (cell : Bytes) : Result where
  opening := .schema [⟨[0x63], .other, true⟩]
  batches := [.arrow [[some cell]]]
  closing := .complete none

/-- The length of a row of `2 ^ 24` bytes is cut to zero: what follows is not a packet. -/
theorem decode_cellResult {cell : Bytes} (h : cell.length = 16777212) :
    decode 1 (stream 1 (cellResult cell).calls) = none := by
  have hrow : rowPacket [some cell] = 0xfd :: 0xfc :: 0xff :: 0xff :: cell := by
    simp only [rowPacket, flatMap_cons, flatMap_nil, append_nil, writeCell,
      writeLenencStr, h]
    rfl
  have hlength : (rowPacket [some cell]).length = 16777216 := by
    rw [hrow]
    simp [h]
  obtain ⟨count, column, hpackets, hcount, hcolumn⟩ : ∃ count column : Bytes,
      (cellResult cell).packets =
        [count, column, buildEof, rowPacket [some cell], buildEof] ∧
      count.length < maxPayload ∧ column.length < maxPayload :=
    ⟨[1], buildColumnDefFromField ⟨[0x63], .other, true⟩, rfl, by decide, by decide⟩
  obtain ⟨k, hk⟩ : ∃ k, (frames 1 (cellResult cell).packets).length = k + 5 := by
    have hle := length_le_frames 1 (cellResult cell).packets
    exact Nat.exists_eq_add_of_le' hle
  have hrest : unframe (k + 2) 4 (frames 4 [rowPacket [some cell], buildEof]) = none := by
    rw [frames, hlength, hrow]
    rfl
  have hnone : unframe (k + 5) 1 (frames 1 (cellResult cell).packets) = none := by
    rw [hpackets, frames, unframe_packet hcount, frames, unframe_packet hcolumn, frames,
      unframe_packet (by decide)]
    have hseq : (1 + 1 + 1 + 1 : UInt8) = 4 := rfl
    rw [hseq, hrest]
    rfl
  rw [decode, stream_eq_frames, hk, hnone]
  rfl

/-- One byte too long for the packet, with its length. -/
def longCell : Bytes := List.replicate 16777212 0x61

/-- The length does not fit its three bytes. -/
theorem long_cell_undecodable :
    (cellResult longCell).response.rows = [[some longCell]] ∧
      decode 1 (stream 1 (cellResult longCell).calls) = none :=
  ⟨rfl, decode_cellResult (length_replicate)⟩

end QueryFlux.Wire
