import QueryFlux.Lib.Readers

/-!
# The MySQL result sink

`MysqlResultSink` of `mysql_wire/mod.rs`: each call encodes its part of a result as MySQL packets,
numbers them and sends them to the connection. A cell is the text the source formats it to, or NULL.
-/

namespace QueryFlux.Wire

open Lib

abbrev Bytes := List UInt8

/-! ## Codes -/

def writeLenencInt (n : Nat) : Bytes :=
  if n < 251 then [UInt8.ofNat n]
  else if n < 65536 then 0xfc :: leBytes 2 n
  else if n < 16777216 then 0xfd :: leBytes 3 n
  else 0xfe :: leBytes 8 n

def writeLenencStr (s : Bytes) : Bytes := writeLenencInt s.length ++ s

/-! ## Columns -/

inductive DataType
  | boolean | int8 | int16 | uint8 | int32 | uint16 | int64 | uint32 | uint64
  | float16 | float32 | float64 | decimal128 | decimal256 | date32 | date64
  | timestamp | time32 | time64 | binary | largeBinary | fixedSizeBinary | other
  deriving DecidableEq

def arrowTypeToMysqlType : DataType → UInt8
  | .boolean | .int8 => 1
  | .int16 | .uint8 => 2
  | .int32 | .uint16 => 3
  | .int64 | .uint32 | .uint64 => 8
  | .float16 | .float32 => 4
  | .float64 => 5
  | .decimal128 | .decimal256 => 0
  | .date32 | .date64 => 10
  | .timestamp => 12
  | .time32 | .time64 => 7
  | .binary | .largeBinary | .fixedSizeBinary => 252
  | .other => 253

inductive NativeTypeKind
  | boolean | tinyInt | smallInt | int | bigInt | float | double | decimal | char | varchar | text
  | binary | blob | date | time | dateTime | timestamp | json | unknown
  deriving DecidableEq

def nativeTypeToMysqlType : NativeTypeKind → UInt8
  | .boolean | .tinyInt => 1
  | .smallInt => 2
  | .int => 3
  | .bigInt => 8
  | .float => 4
  | .double => 5
  | .decimal => 246
  | .date => 10
  | .time => 11
  | .dateTime => 12
  | .timestamp => 7
  | .binary | .blob | .text => 252
  | .json => 245
  | .char | .varchar | .unknown => 253

structure Field where
  name : Bytes
  dataType : DataType
  nullable : Bool
  deriving DecidableEq

structure NativeColumn where
  name : Bytes
  kind : NativeTypeKind
  scale : Option UInt8
  unsigned : Bool
  nullable : Bool
  deriving DecidableEq

def buildColumnDef (name : Bytes) (typeByte : UInt8) (flags : Nat) (decimals : UInt8) : Bytes :=
  writeLenencStr [0x64, 0x65, 0x66] ++ (writeLenencStr [] ++ (writeLenencStr [] ++
    (writeLenencStr [] ++ (writeLenencStr name ++ (writeLenencStr name ++ (0x0c ::
      (leBytes 2 0x21 ++ (leBytes 4 0xffff ++ (typeByte :: (leBytes 2 flags ++
        (decimals :: [0, 0])))))))))))

def notNullFlag (nullable : Bool) : Nat := if nullable then 0 else 0x0001

def unsignedFlag (unsigned : Bool) : Nat := if unsigned then 0x0020 else 0

def buildColumnDefFromField (field : Field) : Bytes :=
  buildColumnDef field.name (arrowTypeToMysqlType field.dataType) (notNullFlag field.nullable) 0

def buildColumnDefFromNative (col : NativeColumn) : Bytes :=
  buildColumnDef col.name (nativeTypeToMysqlType col.kind)
    (notNullFlag col.nullable ||| unsignedFlag col.unsigned) (col.scale.getD 0)

/-! ## Packets -/

def buildOk (affectedRows lastInsertId : Nat) : Bytes :=
  0x00 :: (writeLenencInt affectedRows ++ (writeLenencInt lastInsertId ++
    (leBytes 2 0x0002 ++ leBytes 2 0)))

def sqlState : Bytes := [0x48, 0x59, 0x30, 0x30, 0x30]

def buildErr (errorCode : Nat) (message : Bytes) : Bytes :=
  0xff :: (leBytes 2 errorCode ++ (0x23 :: (sqlState ++ message.take 512)))

def buildEof : Bytes := 0xfe :: (leBytes 2 0 ++ leBytes 2 0x0002)

abbrev Row := List (Option Bytes)

def writeCell : Option Bytes → Bytes
  | none => [0xfb]
  | some bytes => writeLenencStr bytes

def rowPacket (row : Row) : Bytes := row.flatMap writeCell

/-! ## The sink -/

/-- What has been announced to the client. -/
inductive ResponseMode
  | none | resultSet | ok
  deriving DecidableEq

structure MysqlResultSink where
  seq : UInt8
  mode : ResponseMode
  tx : List Bytes

namespace MysqlResultSink

def new (startSeq : UInt8) : MysqlResultSink := ⟨startSeq, .none, []⟩

variable (sink : MysqlResultSink)

/-- Each packet has the next sequence number. -/
def encodeAndSend (payload : Bytes) : MysqlResultSink :=
  { sink with
    seq := sink.seq + 1
    tx := sink.tx ++ [leBytes 3 payload.length ++ sink.seq :: payload] }

def sendAll (payloads : List Bytes) : MysqlResultSink :=
  payloads.foldl encodeAndSend sink

def sendColumns (defs : List Bytes) : MysqlResultSink :=
  sendAll { sink with mode := .resultSet } (writeLenencInt defs.length :: (defs ++ [buildEof]))

def onSchema (fields : List Field) : MysqlResultSink :=
  if fields.isEmpty then { sink with mode := .ok }
  else sink.sendColumns (fields.map buildColumnDefFromField)

def onBatch (rows : List Row) : MysqlResultSink :=
  if sink.mode ≠ .resultSet then sink else sink.sendAll (rows.map rowPacket)

def onComplete (affectedRows : Option UInt64) : MysqlResultSink :=
  match sink.mode with
  | .resultSet => sink.encodeAndSend buildEof
  | .ok | .none => sink.encodeAndSend (buildOk (affectedRows.getD 0).toNat 0)

def onError (message : Bytes) : MysqlResultSink :=
  sink.encodeAndSend (buildErr 1105 message)

def onNativeChunk (columns : Option (List NativeColumn)) (rows : List Row) : MysqlResultSink :=
  match columns with
  | some [] => { sink with mode := .ok }
  | some columns =>
    (sink.sendColumns (columns.map buildColumnDefFromNative)).sendAll (rows.map rowPacket)
  | none => if sink.mode ≠ .resultSet then sink else sink.sendAll (rows.map rowPacket)

end MysqlResultSink

inductive ResultCall
  | onSchema (fields : List Field)
  | onBatch (rows : List Row)
  | onNativeChunk (columns : Option (List NativeColumn)) (rows : List Row)
  | onComplete (affectedRows : Option UInt64)
  | onError (message : Bytes)
  deriving DecidableEq

def MysqlResultSink.call (sink : MysqlResultSink) : ResultCall → MysqlResultSink
  | .onSchema fields => sink.onSchema fields
  | .onBatch rows => sink.onBatch rows
  | .onNativeChunk columns rows => sink.onNativeChunk columns rows
  | .onComplete affectedRows => sink.onComplete affectedRows
  | .onError message => sink.onError message

def stream (startSeq : UInt8) (calls : List ResultCall) : Bytes :=
  (calls.foldl MysqlResultSink.call (.new startSeq)).tx.flatten

end QueryFlux.Wire
