import QueryFlux.Lib.Serving
import QueryFlux.Wire.LocalAnswers
import QueryFlux.Wire.MysqlDecoded
import QueryFlux.Wire.PostgresResult

/-!
# The command loops of the wire protocols

`handle_connection` of `mysql_wire/mod.rs` and of `postgres_wire/mod.rs` behind the handshake: a
command is read, handled, and answered at once or by a task that runs the query
(`handle_com_query`, `handle_simple_query`). While the task's messages are forwarded,
`wait_client_gone` fires on anything that can be read from the client.

What becomes of a query before it is run is given by the configuration at that moment
(`Admission`). A text is decoded from its bytes, and a message of an error given as bytes.
-/

namespace QueryFlux.Wire

open Core Lib Dispatch Auth

/-! ## Commands -/

inductive Routing
  | failed (message : Bytes)
  | denied (message : Bytes)
  | unauthorized (message : Bytes)
  | unresolved (message : Bytes)
  | routed

/-- What configuration, authentication and routing say when a query arrives. -/
inductive Admission
  -- there is no configuration to take queries with
  | unavailable (message : Bytes)
  -- the user does not authenticate
  | refused (message : Bytes)
  | admitted (routing : Routing)

/-- How bytes are read as text, and text as tags. -/
structure WireTexts where
  fromUtf8Lossy : Bytes → List Char
  parseQueryTags : List Char → QueryTags
  classify : List Char → CommandTag

def maxFrontendMessageBytes : Nat := 8388608

def readBody (head : UInt8) (len : Nat) (rest : Bytes) : Found UInt8 (UInt8 × Bytes) :=
  if rest.length < len then .wait else .got (head, rest.take len) (rest.drop len)

def readPacket : Bytes → Found UInt8 (UInt8 × Bytes)
  | a :: b :: c :: seq :: rest =>
    let len := a.toNat + 256 * b.toNat + 65536 * c.toNat
    if maxFrontendMessageBytes < len then .failed else readBody seq len rest
  | _ => .wait

/-! ## MySQL -/

def comQuit : UInt8 := 0x01
def comInitDb : UInt8 := 0x02
def comQuery : UInt8 := 0x03
def comFieldList : UInt8 := 0x04
def comPing : UInt8 := 0x0e

def buildColumnDefNamed (name : String) (typeByte : UInt8) : Bytes :=
  buildColumnDef (utf8 name) typeByte 0 0

def resultPackets (defs : List Bytes) (rows : List Row) : List Bytes :=
  writeLenencInt defs.length :: (defs ++ [buildEof]) ++ (rows.map rowPacket ++ [buildEof])

/-- Of the columns of the results without rows, only the code of a warning is a number. -/
def shownType (name : String) : UInt8 := if name = "Code" then 8 else 253

def answerPackets : LocalAnswer → List Bytes
  | .ok => [buildOk 0 0]
  | .row columns =>
    resultPackets (columns.map fun column => buildColumnDefNamed column.1 253)
      [columns.map fun column => column.2.map utf8]
  | .noRows names =>
    resultPackets (names.map fun name => buildColumnDefNamed name (shownType name)) []

def hexDigitUtf8 (n : Nat) : UInt8 := UInt8.ofNat (if n < 10 then 48 + n else 87 + n)

def unsupportedCommand (cmd : UInt8) : Bytes :=
  utf8 "Unsupported command: 0x" ++ [hexDigitUtf8 (cmd.toNat / 16), hexDigitUtf8 (cmd.toNat % 16)]

section Mysql

variable (texts : WireTexts) (session : SessionContext) (admission : Admission)

/-- `startSeq` numbers the first packet of the response. -/
def handleComQueryText (startSeq : UInt8) (sql : String) :
    Handling UInt8 SessionContext MysqlResultSink :=
  let err code message := .reply session (frames startSeq [buildErr code message])
  match admission with
  | .unavailable message => err 1053 message
  | .refused message => err 1045 message
  | .admitted routing =>
    match answerLocally texts.parseQueryTags session sql with
    -- the task of the connection panics
    | none => .close
    | some (some (session', answer)) => .reply session' (frames startSeq (answerPackets answer))
    | some none =>
      match routing with
      | .failed message => err 1105 message
      | .denied message => err 1227 message
      | .unauthorized message => err 1227 message
      | .unresolved message => err 1105 message
      | .routed => .run session (.new startSeq)

def commandText (body : Bytes) : List Char :=
  trimEndMatches (· == '\x00') (texts.fromUtf8Lossy body)

def handleMysqlPacket (packet : UInt8 × Bytes) : Handling UInt8 SessionContext MysqlResultSink :=
  let startSeq := packet.1 + 1
  match packet.2 with
  | [] => .close
  | cmd :: body =>
    if cmd = comQuit then .close
    else if cmd = comPing then .reply session (frames startSeq [buildOk 0 0])
    else if cmd = comInitDb then
      .reply { session with database := nonEmpty (commandText texts body) }
        (frames startSeq [buildOk 0 0])
    else if cmd = comQuery then
      handleComQueryText texts session admission startSeq (String.ofList (commandText texts body))
    else if cmd = comFieldList then .reply session (frames startSeq [buildEof])
    else .reply session (frames startSeq [buildErr 1047 (unsupportedCommand cmd)])

def mysqlService : Service UInt8 (UInt8 × Bytes) SessionContext Admission MysqlResultSink ResultCall
    where
  read := readPacket
  handle := handleMysqlPacket texts
  call := MysqlResultSink.call
  sent := MysqlResultSink.tx
  trailer := []

end Mysql

/-- A message: its type and its body. The length counts itself; one that is negative is too large
here. -/
def readMessage : Bytes → Found UInt8 (UInt8 × Bytes)
  | msgType :: a :: b :: c :: d :: rest =>
    let len := 16777216 * a.toNat + 65536 * b.toNat + 256 * c.toNat + d.toNat
    if maxFrontendMessageBytes < len ∨ len < 4 then .failed else readBody msgType (len - 4) rest
  | _ => .wait

/-! ## Postgres -/

section Postgres

variable (texts : WireTexts) (session : SessionContext) (admission : Admission)

def handleSimpleQueryText (sql : List Char) :
    Handling UInt8 SessionContext PostgresResultSink :=
  let reply message := .reply session (message ++ readyForQuery)
  if sql.isEmpty then reply (message (byte 'I') [])
  else
    match admission with
    | .unavailable text => reply (errorResponse "57P03" text)
    | .refused text => reply (errorResponse "28000" text)
    | .admitted routing =>
      if startsWithSet (toLowercase (trim sql)) then
        reply (message (byte 'C') (utf8 "SET" ++ [0]))
      else
        match routing with
        | .failed text => reply (errorResponse "42000" text)
        | .denied text => reply (errorResponse "42501" text)
        | .unauthorized text => reply (errorResponse "42501" text)
        | .unresolved text => reply (errorResponse "42000" text)
        | .routed => .run session (.new (texts.classify sql))

/-- Messages that are answered with a ready message only. -/
def acknowledged : List UInt8 := [byte 'd', byte 'c', byte 'f', byte 'H', byte 'S']

def unsupportedMessage (msgType : UInt8) : Bytes :=
  utf8 "Unsupported message type: " ++ String.utf8EncodeChar (Char.ofNat msgType.toNat)

def handlePostgresMessage (m : UInt8 × Bytes) :
    Handling UInt8 SessionContext PostgresResultSink :=
  let reply bytes := .reply session (bytes ++ readyForQuery)
  if m.1 = byte 'X' then .close
  else if m.1 = byte 'Q' then
    handleSimpleQueryText texts session admission (trim (commandText texts m.2))
  else if m.1 = byte 'P' then
    reply (errorResponse "42000" (utf8 "Prepared statements are not supported"))
  else if m.1 ∈ acknowledged then reply []
  else reply (errorResponse "0A000" (unsupportedMessage m.1))

def postgresService :
    Service UInt8 (UInt8 × Bytes) SessionContext Admission PostgresResultSink PostgresCall where
  read := readMessage
  handle := handlePostgresMessage texts
  call := PostgresResultSink.call
  sent := PostgresResultSink.tx
  trailer := readyForQuery

end Postgres

end QueryFlux.Wire
