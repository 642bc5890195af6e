import QueryFlux.Wire.MysqlResult

/-!
# The Postgres result sink

`PostgresResultSink` of `postgres_wire/mod.rs`: each call encodes its part of a result as Postgres
messages, a type byte and a length before the body, and sends them to the connection. A command tag
is given as such; how it is read off the SQL text is left open.
-/

namespace QueryFlux.Wire

open Lib

/-! ## Messages -/

def utf8 (s : String) : Bytes := s.toList.flatMap String.utf8EncodeChar

def byte (c : Char) : UInt8 := UInt8.ofNat c.toNat

def beBytes (width n : Nat) : Bytes := (leBytes width n).reverse

def message (msgType : UInt8) (body : Bytes) : Bytes :=
  msgType :: (beBytes 4 (body.length + 4) ++ body)

def readyForQuery : Bytes := message (byte 'Z') (utf8 "I")

def errorBody (sqlstate : String) (text : Bytes) : Bytes :=
  byte 'S' :: (utf8 "ERROR" ++ 0 :: byte 'C' :: (utf8 sqlstate ++ 0 :: byte 'M' ::
    (text ++ [0, 0])))

def errorResponse (sqlstate : String) (text : Bytes) : Bytes :=
  message (byte 'E') (errorBody sqlstate text)

def arrowTypeToPgOid : DataType → Nat
  | .boolean => 16
  | .int8 | .int16 | .uint8 => 21
  | .int32 | .uint16 => 23
  | .int64 | .uint32 | .uint64 => 20
  | .float16 | .float32 => 700
  | .float64 => 701
  | .decimal128 | .decimal256 => 1700
  | .date32 | .date64 => 1082
  | .timestamp => 1114
  | .binary | .largeBinary | .fixedSizeBinary => 17
  | .time32 | .time64 | .other => 25

/-- Name, table, attribute, type, size, modifier and format of a column. -/
def fieldDescription (field : Field) : Bytes :=
  field.name ++ 0 :: (beBytes 4 0 ++ (beBytes 2 0 ++ (beBytes 4 (arrowTypeToPgOid field.dataType) ++
    (beBytes 2 0xffff ++ (beBytes 4 0xffffffff ++ beBytes 2 0)))))

def rowDescription (fields : List Field) : Bytes :=
  beBytes 2 fields.length ++ fields.flatMap fieldDescription

def cellData : Option Bytes → Bytes
  | none => beBytes 4 0xffffffff
  | some bytes => beBytes 4 bytes.length ++ bytes

def dataRow (row : Row) : Bytes := beBytes 2 row.length ++ row.flatMap cellData

def rowMessage (row : Row) : Bytes := message (byte 'D') (dataRow row)

/-! ## The sink -/

structure CommandTag where
  verb : Bytes
  hasRowCount : Bool
  deriving DecidableEq

structure PostgresResultSink where
  rowCount : Nat
  schemaSent : Bool
  commandTag : CommandTag
  tx : List Bytes

inductive PostgresCall
  | onTranslatedSql (tag : CommandTag)
  | onSchema (fields : List Field)
  | onBatch (rows : List Row)
  | onComplete (affectedRows : Option UInt64)
  | onError (text : Bytes)
  deriving DecidableEq

namespace PostgresResultSink

def new (tag : CommandTag) : PostgresResultSink := ⟨0, false, tag, []⟩

variable (sink : PostgresResultSink)

def sendMsg (msgType : UInt8) (body : Bytes) : PostgresResultSink :=
  { sink with tx := sink.tx ++ [message msgType body] }

/-- Without columns no rows are sent. -/
def onSchema (fields : List Field) : PostgresResultSink :=
  if fields.isEmpty then sink
  else { sink with schemaSent := true }.sendMsg (byte 'T') (rowDescription fields)

def sendRow (row : Row) : PostgresResultSink :=
  { sink.sendMsg (byte 'D') (dataRow row) with rowCount := sink.rowCount + 1 }

def onBatch (rows : List Row) : PostgresResultSink :=
  if sink.schemaSent then rows.foldl sendRow sink else sink

/-- The tag of a query counts its rows. -/
def completeTag (affectedRows : Option UInt64) : Bytes :=
  if sink.schemaSent then utf8 "SELECT " ++ utf8 (toString sink.rowCount) ++ [0]
  else if sink.commandTag.hasRowCount then
    sink.commandTag.verb ++ utf8 " " ++ utf8 (toString (affectedRows.getD 0).toNat) ++ [0]
  else sink.commandTag.verb ++ [0]

def onComplete (affectedRows : Option UInt64) : PostgresResultSink :=
  sink.sendMsg (byte 'C') (sink.completeTag affectedRows)

def onError (text : Bytes) : PostgresResultSink :=
  sink.sendMsg (byte 'E') (errorBody "XX000" text)

def call : PostgresCall → PostgresResultSink
  | .onTranslatedSql tag => { sink with commandTag := tag }
  | .onSchema fields => sink.onSchema fields
  | .onBatch rows => sink.onBatch rows
  | .onComplete affectedRows => sink.onComplete affectedRows
  | .onError text => sink.onError text

theorem foldl_sendRow (rows : List Row) : rows.foldl sendRow sink =
    { sink with
      rowCount := sink.rowCount + rows.length
      tx := sink.tx ++ rows.map rowMessage } := by
  induction rows generalizing sink with
  | nil => simp
  | cons row rows ih => simp [ih, sendRow, sendMsg, rowMessage, Nat.add_comm, Nat.add_left_comm]

variable {sink}

theorem foldl_onBatch (h : sink.schemaSent = true) (batches : List (List Row)) :
    (batches.map .onBatch).foldl call sink =
      { sink with
        rowCount := sink.rowCount + batches.flatten.length
        tx := sink.tx ++ batches.flatten.map rowMessage } := by
  induction batches generalizing sink with
  | nil => simp
  | cons rows batches ih =>
    have hcall : sink.call (.onBatch rows) = rows.foldl sendRow sink := if_pos h
    rw [List.map_cons, List.foldl_cons, hcall, foldl_sendRow, ih (by exact h)]
    simp [Nat.add_assoc]

theorem foldl_onBatch_unsent (h : sink.schemaSent = false) (batches : List (List Row)) :
    (batches.map .onBatch).foldl call sink = sink := by
  induction batches with
  | nil => rfl
  | cons rows batches ih =>
    have hcall : sink.call (.onBatch rows) = sink := if_neg (by rw [h]; decide)
    rw [List.map_cons, List.foldl_cons, hcall, ih]

end PostgresResultSink

end QueryFlux.Wire
