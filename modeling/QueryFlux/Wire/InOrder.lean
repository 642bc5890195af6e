import QueryFlux.Wire.PostgresDecoded
import QueryFlux.Wire.Services

/-!
# Every command gets one complete response, in order

`MysqlComplete` and `PostgresComplete` say what a complete response to a command is: bytes that a
client of the protocol decodes as one response. Both command loops write one for each command, one
after the other, if the tasks that run queries end their results, what is sent fits the protocol's
messages, and the probe for a client that is gone does not fire on a command
(`responses_in_order`). It does fire on one that arrives while the results of a query are still
being written; these are then given up, and the response to the command stands behind a part of
them (`partial_response_followed`).
-/

namespace QueryFlux.Wire

open Core Lib Reader Dispatch Auth List

/-- A client decodes the bytes as a response to the command: a result set only to a query, and the
end of the fields, of which none are listed, to `COM_FIELD_LIST`. -/
def MysqlComplete (packet : UInt8 × Bytes) (bytes : Bytes) : Prop :=
  ∃ cmd, packet.2.head? = some cmd ∧
    if cmd = comFieldList then bytes = frames (packet.1 + 1) [buildEof]
    else ∃ response, decode (packet.1 + 1) bytes = some response ∧
      (cmd ≠ comQuery → response.columns = [])

inductive IsPostgresAnswer : UInt8 → List Postgres.Message → Prop
  | acknowledged {msgType : UInt8} (h : msgType ∈ acknowledged) : IsPostgresAnswer msgType []
  | error (msgType : UInt8) (fields : List (UInt8 × Bytes)) :
      IsPostgresAnswer msgType [.errorResponse fields]
  | command (tag : Bytes) : IsPostgresAnswer (byte 'Q') [.commandComplete tag]
  | resultSet (fields : List (Bytes × Nat)) {rows : List Row}
      (hrows : ∀ row ∈ rows, row.length = fields.length) {last : Postgres.Message}
      (hlast : (∃ tag, last = .commandComplete tag) ∨ ∃ fields, last = .errorResponse fields) :
      IsPostgresAnswer (byte 'Q') (.rowDescription fields :: (rows.map .dataRow ++ [last]))

/-- A client decodes the bytes as a response to the message, up to the `ReadyForQuery`. An empty
query has a response of its own. -/
def PostgresComplete (m : UInt8 × Bytes) (bytes : Bytes) : Prop :=
  (m.1 = byte 'Q' ∧ bytes = message (byte 'I') [] ++ readyForQuery) ∨
    ∃ code messages, bytes = code ++ readyForQuery ∧ Postgres.decode code = some messages ∧
      IsPostgresAnswer m.1 messages

/-! ## What can be answered in full -/

/-- The calls of one result that fits the packets, or only its end. -/
def MysqlFull (_ : MysqlResultSink) (calls : List ResultCall) : Prop :=
  (∃ closing : Closing, calls = [closing.call]) ∨
    ∃ r : Result, calls = r.calls ∧ r.WellFormed ∧ r.Fits

/-- The calls of one result that the messages can carry, with the tag of the last translation. -/
def PostgresFull (sink : PostgresResultSink) (calls : List PostgresCall) : Prop :=
  ∃ (tags : List CommandTag) (r : Postgres.Result),
    calls = tags.map .onTranslatedSql ++ r.calls ∧ r.tag = tags.getLast?.getD sink.commandTag ∧
    (∀ row ∈ r.rows, row.length = r.fields.length) ∧ r.Fits

/-- A local answer as the result a task could send. -/
def LocalAnswer.result : LocalAnswer → Result
  | .ok => ⟨.schema [], [], .complete none⟩
  | .row columns =>
    ⟨.schema (columns.map fun column => ⟨utf8 column.1, .other, true⟩),
      [.arrow [columns.map fun column => column.2.map utf8]], .complete none⟩
  | .noRows names =>
    ⟨.schema (names.map fun name => ⟨utf8 name, if name = "Code" then .int64 else .other, true⟩),
      [], .complete none⟩

/-- What the frontend answers to a query itself fits the packets. -/
def MysqlFine (texts : WireTexts) (session : SessionContext) (_ : Admission)
    (packet : UInt8 × Bytes) : Prop :=
  packet.2.head? = some comQuery → ∀ session' answer,
    answerLocally texts.parseQueryTags session
      (String.ofList (commandText texts packet.2.tail)) = some (some (session', answer)) →
    answer.result.WellFormed ∧ answer.result.Fits

def Admission.message? : Admission → Option Bytes
  | .unavailable text | .refused text => some text
  | .admitted routing =>
    match routing with
    | .failed text | .denied text | .unauthorized text | .unresolved text => some text
    | .routed => none

/-- The messages of errors can be carried: the one about a query, and the one that names the type of
a message. -/
def PostgresFine (_ : SessionContext) (admission : Admission) (m : UInt8 × Bytes) : Prop :=
  m.1 ≠ 0 ∧ (m.1 = byte 'Q' → ∀ text ∈ admission.message?, 0 ∉ text ∧ text.length + 21 < 2 ^ 31)

/-! ## MySQL -/

theorem readBody_append {head : UInt8} {len : Nat} {body rest : Bytes} {read : UInt8 × Bytes}
    (h : readBody head len body = .got read rest) (more : Bytes) :
    readBody head len (body ++ more) = .got read (rest ++ more) := by
  unfold readBody at h ⊢
  split at h
  · cases h
  · rename_i hlen
    obtain ⟨rfl, rfl⟩ := Found.got.inj h
    have hle := Nat.le_of_not_lt hlen
    rw [if_neg (by rw [length_append]; omega), take_append_of_le_length hle,
      drop_append_of_le_length hle]

theorem readPacket_append {bytes rest : Bytes} {packet : UInt8 × Bytes}
    (h : readPacket bytes = .got packet rest) (more : Bytes) :
    readPacket (bytes ++ more) = .got packet (rest ++ more) := by
  unfold readPacket at h
  split at h
  · rename_i a b c seq body
    dsimp only at h
    split at h
    · cases h
    · rename_i hmax
      exact (if_neg hmax).trans (readBody_append h more)
  · cases h

theorem tx_sendAll (sink : MysqlResultSink) (payloads : List Bytes) :
    sink.tx <+: (sink.sendAll payloads).tx := by
  induction payloads generalizing sink with
  | nil => exact prefix_refl _
  | cons payload _ ih =>
    exact IsPrefix.trans (prefix_append _ _) (ih (sink.encodeAndSend payload))

theorem tx_sendColumns (sink : MysqlResultSink) (defs : List Bytes) :
    sink.tx <+: (sink.sendColumns defs).tx :=
  tx_sendAll { sink with mode := .resultSet } _

theorem tx_call (sink : MysqlResultSink) (call : ResultCall) : sink.tx <+: (sink.call call).tx := by
  cases call with
  | onSchema fields =>
    change sink.tx <+: (sink.onSchema fields).tx
    unfold MysqlResultSink.onSchema
    split
    · exact prefix_refl _
    · exact tx_sendColumns sink _
  | onBatch rows =>
    change sink.tx <+: (sink.onBatch rows).tx
    unfold MysqlResultSink.onBatch
    split
    · exact prefix_refl _
    · exact tx_sendAll sink _
  | onNativeChunk columns rows =>
    change sink.tx <+: (sink.onNativeChunk columns rows).tx
    unfold MysqlResultSink.onNativeChunk
    split
    · exact prefix_refl _
    · exact (tx_sendColumns sink _).trans (tx_sendAll _ _)
    · split
      · exact prefix_refl _
      · exact tx_sendAll sink _
  | onComplete affectedRows =>
    change sink.tx <+: (sink.onComplete affectedRows).tx
    unfold MysqlResultSink.onComplete
    split <;> exact prefix_append _ _
  | onError => exact prefix_append _ _

section Decoded

variable {r : Result}

theorem decode_packets (hwell : r.WellFormed) (hfits : r.Fits) (startSeq : UInt8) :
    decode startSeq (frames startSeq r.packets) =
      some { r.response with ending := r.endingRead } := by
  rw [← stream_eq_frames]
  exact decode_stream hwell hfits startSeq

def Closing.result (closing : Closing) : Result := ⟨.schema [], [], closing⟩

theorem Closing.decode_packets (closing : Closing) (startSeq : UInt8) :
    ∃ ending, decode startSeq (frames startSeq closing.result.packets) = some ⟨[], [], ending⟩ := by
  have hwell : closing.result.WellFormed := ⟨nofun, (by decide : 0 < 2 ^ 64)⟩
  exact ⟨_, Wire.decode_packets hwell ⟨nofun, nofun⟩ startSeq⟩

theorem decode_err {code : Nat} {message : Bytes} {ending : Ending}
    (hparse : parse readErr (buildErr code message) = some ending) (startSeq : UInt8) :
    decode startSeq (frames startSeq [buildErr code message]) = some ⟨[], [], ending⟩ := by
  have hlength : ∀ p ∈ [buildErr code message], p.length < maxPayload := by
    intro p hp
    rw [mem_singleton.1 hp]
    simp only [buildErr, sqlState, maxPayload, length_cons, length_append, length_leBytes,
      length_nil, length_take]
    omega
  have hread : Reads (readResponse 1) [buildErr code message] ⟨[], [], ending⟩ :=
    (Reads.next (buildErr code message)).bind ((Reads.lift hparse).bind (Reads.pure _))
  rw [decode, unframe_frames hlength (length_le_frames _ _) startSeq, Option.bind_eq_bind,
    Option.bind_some]
  exact hread.parse

end Decoded

theorem stream_of_mysqlFull {sink : MysqlResultSink} {calls : List ResultCall}
    (h : MysqlFull sink calls) (startSeq : UInt8) :
    ∃ response, decode startSeq (stream startSeq calls) = some response := by
  obtain ⟨closing, rfl⟩ | ⟨r, rfl, hwell, hfits⟩ := h
  · have hstream : stream startSeq [closing.call] =
        frames startSeq closing.result.packets := by
      cases closing with
      | complete | error =>
        simp [stream, Closing.call, MysqlResultSink.call, MysqlResultSink.onComplete,
          MysqlResultSink.onError, MysqlResultSink.new, MysqlResultSink.encodeAndSend, frames,
          Closing.result, Result.packets, Result.lastPacket, Result.columns, Opening.columns]
    obtain ⟨ending, hdecode⟩ := closing.decode_packets startSeq
    exact ⟨_, hstream ▸ hdecode⟩
  · exact ⟨_, decode_stream hwell hfits startSeq⟩

/-! ### Local answers -/

theorem packets_of_columns {r : Result} (h : r.columns ≠ [])
    (hclosing : r.closing = .complete none) :
    r.packets = resultPackets (r.columns.map columnPacket) r.rows := by
  have hempty : ¬ r.columns.isEmpty = true := by rwa [List.isEmpty_iff]
  rw [Result.packets, Result.lastPacket, if_neg hempty, hclosing, headerPackets, resultPackets,
    length_map]
  simp only
  rw [if_neg hempty]

theorem answerPackets_row {columns : List (String × Option String)} (h : columns ≠ []) :
    answerPackets (.row columns) = (LocalAnswer.row columns).result.packets := by
  rw [packets_of_columns (by simpa [LocalAnswer.result, Result.columns, Opening.columns]) rfl]
  simp [answerPackets, LocalAnswer.result, Result.columns, Opening.columns, Result.rows,
    Opening.rows, Batch.rows, Function.comp_def, columnPacket, Field.column, columnOf,
    buildColumnDefNamed, arrowTypeToMysqlType, notNullFlag]

theorem answerPackets_noRows {names : List String} (h : names ≠ []) :
    answerPackets (.noRows names) = (LocalAnswer.noRows names).result.packets := by
  rw [packets_of_columns (by simpa [LocalAnswer.result, Result.columns, Opening.columns]) rfl]
  have htype (name : String) :
      arrowTypeToMysqlType (if name = "Code" then .int64 else .other) = shownType name := by
    unfold shownType
    split <;> rfl
  simp [answerPackets, LocalAnswer.result, Result.columns, Opening.columns, Result.rows,
    Opening.rows, Function.comp_def, columnPacket, Field.column, columnOf,
    buildColumnDefNamed, htype, notNullFlag]

theorem ne_nil_of_mapM {α β : Type} {f : α → Option β} {xs : List α} {ys : List β}
    (h : xs.mapM f = some ys) (hne : xs ≠ []) : ys ≠ [] := by
  obtain ⟨x, rest, rfl⟩ := exists_cons_of_ne_nil hne
  rw [mapM_cons] at h
  obtain ⟨y, -, h⟩ := Option.bind_eq_some_iff.1 h
  obtain ⟨rest', -, h⟩ := Option.bind_eq_some_iff.1 h
  cases h
  exact cons_ne_nil _ _

theorem selectParts_ne_nil {lower : List Char} {parts : List (List Char)}
    (h : selectParts lower = some parts) : parts ≠ [] := by
  unfold selectParts at h
  dsimp only at h
  split at h
  · split at h
    · cases h
    · rw [← Option.some.inj h, ne_eq, map_eq_nil_iff]
      exact splitOn_ne_nil _ _
  · cases h

theorem answerPackets_probe {session : SessionContext} {lower : List Char} {answer : LocalAnswer}
    (h : answerProbe session lower = some answer) :
    answerPackets answer = answer.result.packets := by
  unfold answerProbe at h
  split at h
  · cases h
    exact answerPackets_row (cons_ne_nil _ _)
  · split at h
    · cases h
      exact answerPackets_row (cons_ne_nil _ _)
    · split at h
      · cases h
        unfold showAnswer
        split <;> exact answerPackets_noRows (cons_ne_nil _ _)
      · obtain ⟨columns, hcolumns, rfl⟩ := Option.map_eq_some_iff.1 h
        obtain ⟨parts, hparts, hmap⟩ := Option.bind_eq_some_iff.1 hcolumns
        exact answerPackets_row (ne_nil_of_mapM hmap (selectParts_ne_nil hparts))

theorem answerPackets_local {parseQueryTags : List Char → QueryTags}
    {session session' : SessionContext} {sql : String} {answer : LocalAnswer}
    (h : answerLocally parseQueryTags session sql = some (some (session', answer))) :
    answerPackets answer = answer.result.packets := by
  have hok : answerPackets .ok = LocalAnswer.ok.result.packets := rfl
  unfold answerLocally at h
  dsimp only at h
  split at h
  · cases h
  · obtain ⟨-, rfl⟩ := Prod.mk.inj (Option.some.inj (Option.some.inj h))
    exact hok
  · split at h
    · split at h
      · obtain ⟨-, rfl⟩ := Prod.mk.inj (Option.some.inj (Option.some.inj h))
        exact hok
      · obtain ⟨-, rfl⟩ := Prod.mk.inj (Option.some.inj (Option.some.inj h))
        exact hok
    · split at h
      · obtain ⟨-, rfl⟩ := Prod.mk.inj (Option.some.inj (Option.some.inj h))
        exact hok
      · obtain ⟨probed, hprobe, he⟩ := Option.map_eq_some_iff.1 (Option.some.inj h)
        obtain ⟨-, rfl⟩ := Prod.mk.inj he
        exact answerPackets_probe hprobe

/-! ### Every command -/

def MysqlHandled (fine : Prop) (packet : UInt8 × Bytes) :
    Handling UInt8 SessionContext MysqlResultSink → Prop
  | .close => True
  | .reply _ bytes => fine → MysqlComplete packet bytes
  | .run _ sink => packet.2.head? = some comQuery ∧ sink = .new (packet.1 + 1)

section

variable {texts : WireTexts} {session : SessionContext} {admission : Admission} {fine : Prop}
  {packet : UInt8 × Bytes} {cmd : UInt8}

theorem mysqlHandled_ok (hcmd : packet.2.head? = some cmd) (hfields : cmd ≠ comFieldList) :
    MysqlHandled fine packet (.reply session (frames (packet.1 + 1) [buildOk 0 0])) := by
  obtain ⟨ending, hdecode⟩ := (Closing.complete none).decode_packets (packet.1 + 1)
  refine fun _ => ⟨cmd, hcmd, ?_⟩
  rw [if_neg hfields]
  exact ⟨_, hdecode, fun _ => rfl⟩

theorem mysqlHandled_err (hcmd : packet.2.head? = some cmd) (hfields : cmd ≠ comFieldList)
    {code : Nat} {message : Bytes} {ending : Ending}
    (hparse : parse readErr (buildErr code message) = some ending) :
    MysqlHandled fine packet (.reply session (frames (packet.1 + 1) [buildErr code message])) := by
  refine fun _ => ⟨cmd, hcmd, ?_⟩
  rw [if_neg hfields]
  exact ⟨_, decode_err hparse _, fun _ => rfl⟩

theorem mysqlHandled_query (hcmd : packet.2.head? = some comQuery) {sql : String}
    (hfine : fine → ∀ session' answer,
      answerLocally texts.parseQueryTags session sql = some (some (session', answer)) →
      answer.result.WellFormed ∧ answer.result.Fits) :
    MysqlHandled fine packet (handleComQueryText texts session admission (packet.1 + 1) sql) := by
  have hquery : comQuery ≠ comFieldList := by decide
  unfold handleComQueryText
  cases admission with
  | unavailable | refused => exact mysqlHandled_err hcmd hquery rfl
  | admitted routing =>
    dsimp only
    split
    · trivial
    · rename_i session' answer hanswer
      intro h
      obtain ⟨hwell, hfits⟩ := hfine h session' answer hanswer
      refine ⟨comQuery, hcmd, ?_⟩
      rw [if_neg hquery, answerPackets_local hanswer]
      exact ⟨_, decode_packets hwell hfits _, fun hne => (hne rfl).elim⟩
    · cases routing with
      | routed => exact ⟨hcmd, rfl⟩
      | _ => exact mysqlHandled_err hcmd hquery rfl

theorem mysqlHandled (packet : UInt8 × Bytes) :
    MysqlHandled (MysqlFine texts session admission packet) packet
      (handleMysqlPacket texts session admission packet) := by
  obtain ⟨seq, payload⟩ := packet
  cases payload with
  | nil => trivial
  | cons cmd body =>
    unfold handleMysqlPacket
    dsimp only
    split
    · trivial
    · split
      · rename_i hping
        exact mysqlHandled_ok rfl (by rw [hping]; decide)
      · split
        · rename_i hinit
          exact mysqlHandled_ok rfl (by rw [hinit]; decide)
        · split
          · rename_i hquery
            have hcmd : (cmd :: body).head? = some comQuery := congrArg some hquery
            exact mysqlHandled_query hcmd fun hfine => hfine hcmd
          · split_ifs with hfields
            · refine fun _ => ⟨cmd, rfl, ?_⟩
              rw [if_pos hfields]
            · exact mysqlHandled_err rfl hfields rfl

theorem mysqlHandled_of_eq {handling : Handling UInt8 SessionContext MysqlResultSink}
    (h : (mysqlService texts).handle session admission packet = handling) :
    MysqlHandled (MysqlFine texts session admission packet) packet handling :=
  h ▸ mysqlHandled packet

end

/-- The rules of the library hold for MySQL. -/
theorem mysqlService_lawful (texts : WireTexts) :
    (mysqlService texts).Lawful MysqlComplete (MysqlFine texts) MysqlFull where
  read_nil := nofun
  read_append := readPacket_append
  reply := fun hfine h => mysqlHandled_of_eq h hfine
  start := by
    intro session session' admission packet sink h
    rw [(mysqlHandled_of_eq h).2]
    rfl
  sent_call := tx_call
  run := by
    intro session session' admission packet sink calls h hfull
    obtain ⟨hcmd, rfl⟩ := mysqlHandled_of_eq h
    obtain ⟨response, hdecode⟩ := stream_of_mysqlFull hfull (packet.1 + 1)
    refine ⟨comQuery, hcmd, ?_⟩
    rw [if_neg (by decide)]
    exact ⟨response, (append_nil _).symm ▸ hdecode, fun hne => (hne rfl).elim⟩
  exists_full := fun _ => ⟨_, .inl ⟨.complete none, rfl⟩⟩

/-! ## Postgres -/

theorem readMessage_append {bytes rest : Bytes} {m : UInt8 × Bytes}
    (h : readMessage bytes = .got m rest) (more : Bytes) :
    readMessage (bytes ++ more) = .got m (rest ++ more) := by
  unfold readMessage at h
  split at h
  · rename_i msgType a b c d body
    dsimp only at h
    split at h
    · cases h
    · rename_i hlen
      exact (if_neg hlen).trans (readBody_append h more)
  · cases h

section Sink

variable {sink : PostgresResultSink}

theorem postgres_tx_call (sink : PostgresResultSink) (call : PostgresCall) :
    sink.tx <+: (sink.call call).tx := by
  cases call with
  | onTranslatedSql => exact prefix_refl _
  | onSchema fields =>
    change sink.tx <+: (sink.onSchema fields).tx
    unfold PostgresResultSink.onSchema
    split
    · exact prefix_refl _
    · exact prefix_append _ _
  | onBatch rows =>
    change sink.tx <+: (sink.onBatch rows).tx
    unfold PostgresResultSink.onBatch
    split
    · rw [sink.foldl_sendRow]
      exact prefix_append _ _
    · exact prefix_refl _
  | onComplete | onError => exact prefix_append _ _

theorem call_tags (tag : CommandTag) (tags : List CommandTag) :
    (tags.map .onTranslatedSql).foldl PostgresResultSink.call (.new tag) =
      .new (tags.getLast?.getD tag) := by
  induction tags generalizing tag with
  | nil => rfl
  | cons tag' tags ih =>
    rw [getLast?_cons, Option.getD_some]
    exact ih tag'

theorem isPostgresAnswer_messages {r : Postgres.Result}
    (hrows : ∀ row ∈ r.rows, row.length = r.fields.length) :
    IsPostgresAnswer (byte 'Q') r.messages := by
  have hending : (∃ tag, r.ending = .commandComplete tag) ∨
      ∃ fields, r.ending = .errorResponse fields := by
    unfold Postgres.Result.ending
    cases r.closing with
    | complete => exact .inl ⟨_, rfl⟩
    | error => exact .inr ⟨_, rfl⟩
  unfold Postgres.Result.messages
  split_ifs with hfields
  · have hnone : r.rows = [] := if_pos hfields
    rw [hnone]
    obtain ⟨tag, htag⟩ | ⟨fields, herror⟩ := hending
    · rw [htag]
      exact .command tag
    · rw [herror]
      exact .error _ fields
  · refine .resultSet _ (fun row hrow => ?_) hending
    rw [length_map]
    exact hrows row hrow

theorem postgresComplete_of_full {tag : CommandTag} {calls : List PostgresCall}
    (h : PostgresFull (.new tag) calls) {m : UInt8 × Bytes} (hquery : m.1 = byte 'Q') :
    PostgresComplete m
      ((calls.foldl PostgresResultSink.call (.new tag)).tx.flatten ++ readyForQuery) := by
  obtain ⟨tags, r, rfl, htag, hrows, hfits⟩ := h
  refine .inr ⟨_, r.messages, rfl, ?_, hquery ▸ isPostgresAnswer_messages hrows⟩
  have hstart : tags.getLast?.getD tag = r.tag := htag.symm
  rw [foldl_append, call_tags, hstart]
  exact Postgres.decode_of_fits hfits

end Sink

def PostgresHandled (fine : Prop) (m : UInt8 × Bytes) :
    Handling UInt8 SessionContext PostgresResultSink → Prop
  | .close => True
  | .reply _ bytes => fine → PostgresComplete m bytes
  | .run _ sink => m.1 = byte 'Q' ∧ ∃ tag, sink = .new tag

section

variable {texts : WireTexts} {session : SessionContext} {admission : Admission}
  {m : UInt8 × Bytes}

theorem postgresComplete_error {sqlstate : String} {text : Bytes} (hstate : 0 ∉ utf8 sqlstate)
    (hlength : (utf8 sqlstate).length = 5) (htext : 0 ∉ text ∧ text.length + 21 < 2 ^ 31) :
    PostgresComplete m (errorResponse sqlstate text ++ readyForQuery) := by
  have hlen : (errorBody sqlstate text).length + 4 < 2 ^ 31 := by
    have herror : (utf8 "ERROR").length = 5 := by decide
    simp only [errorBody, length_cons, length_append, length_nil, hlength, herror]
    omega
  have hsent := Postgres.sent_errorResponse hstate htext.1 hlen
  have hdecode : Postgres.decode [errorResponse sqlstate text].flatten = _ :=
    Reads.all (.cons hsent .nil) (Nat.le_refl _)
  rw [flatten_singleton] at hdecode
  exact .inr ⟨_, _, rfl, hdecode, .error _ _⟩

theorem postgresHandled_query (hquery : m.1 = byte 'Q') (sql : List Char) :
    PostgresHandled (PostgresFine session admission m) m
      (handleSimpleQueryText texts session admission sql) := by
  unfold handleSimpleQueryText
  split
  · exact fun _ => .inl ⟨hquery, rfl⟩
  · cases admission with
    | unavailable text | refused text =>
      exact fun hfine => postgresComplete_error (by decide) (by decide) (hfine.2 hquery text rfl)
    | admitted routing =>
      dsimp only
      split
      · refine fun _ => .inr ⟨_, [.commandComplete (utf8 "SET")], rfl, ?_, hquery ▸ .command _⟩
        decide
      · cases routing with
        | routed => exact ⟨hquery, _, rfl⟩
        | failed text | denied text | unauthorized text | unresolved text =>
          exact fun hfine =>
            postgresComplete_error (by decide) (by decide) (hfine.2 hquery text rfl)

theorem unsupportedMessage_carried {msgType : UInt8} (h : msgType ≠ 0) :
    0 ∉ unsupportedMessage msgType ∧ (unsupportedMessage msgType).length + 21 < 2 ^ 31 := by
  have hall : ∀ n < 256, UInt8.ofNat n ≠ 0 → 0 ∉ unsupportedMessage (UInt8.ofNat n) ∧
      (unsupportedMessage (UInt8.ofNat n)).length + 21 < 2 ^ 31 := by
    decide +kernel
  have hcase := hall msgType.toNat msgType.toNat_lt
  rw [UInt8.ofNat_toNat] at hcase
  exact hcase h

theorem postgresHandled :
    PostgresHandled (PostgresFine session admission m) m
      (handlePostgresMessage texts session admission m) := by
  unfold handlePostgresMessage
  split
  · trivial
  · split
    · rename_i hquery
      exact postgresHandled_query hquery _
    · split
      · exact fun _ => postgresComplete_error (by decide) (by decide) (by decide)
      · split_ifs with hmem
        · exact fun _ => .inr ⟨[], [], rfl, rfl, .acknowledged hmem⟩
        · exact fun hfine => postgresComplete_error (by decide) (by decide)
            (unsupportedMessage_carried hfine.1)

theorem postgresHandled_of_eq {handling : Handling UInt8 SessionContext PostgresResultSink}
    (h : (postgresService texts).handle session admission m = handling) :
    PostgresHandled (PostgresFine session admission m) m handling :=
  h ▸ postgresHandled

end

/-- Nothing but an end without a text. -/
theorem exists_postgresFull (sink : PostgresResultSink) : ∃ calls, PostgresFull sink calls := by
  refine ⟨_, [], ⟨sink.commandTag, none, [], .error []⟩, rfl, rfl, nofun, ?_⟩
  refine ⟨nofun, (by decide : 0 < 2 ^ 15 ∧ (rowDescription []).length + 4 < 2 ^ 31), nofun, nofun,
    nofun, fun text htext => ?_⟩
  cases htext
  decide

/-- The rules of the library hold for Postgres. -/
theorem postgresService_lawful (texts : WireTexts) :
    (postgresService texts).Lawful PostgresComplete PostgresFine PostgresFull where
  read_nil := nofun
  read_append := readMessage_append
  reply := fun hfine h => postgresHandled_of_eq h hfine
  start := by
    intro session session' admission m sink h
    obtain ⟨-, tag, rfl⟩ := postgresHandled_of_eq h
    rfl
  sent_call := postgres_tx_call
  run := by
    intro session session' admission m sink calls h hfull
    obtain ⟨hquery, tag, rfl⟩ := postgresHandled_of_eq h
    exact postgresComplete_of_full hfull hquery
  exists_full := fun _ => exists_postgresFull _

/-- Both command loops answer every command in turn with one complete response, as long as tasks
end their results, what is sent fits the protocol, and the probe does not fire on a command. -/
theorem responses_in_order (texts : WireTexts) (session : SessionContext) :
    (∀ s, ((mysqlService texts).system session).Reach (fun s m =>
        Orderly (mysqlService texts) (MysqlFine texts) MysqlFull s m ∧
          Undisturbed (mysqlService texts) s m) s →
      Served (mysqlService texts) MysqlComplete s) ∧
    ∀ s, ((postgresService texts).system session).Reach (fun s m =>
        Orderly (postgresService texts) PostgresFine PostgresFull s m ∧
          Undisturbed (postgresService texts) s m) s →
      Served (postgresService texts) PostgresComplete s :=
  ⟨fun _ h => Service.served (mysqlService_lawful texts) h,
    fun _ h => Service.served (postgresService_lawful texts) h⟩

/-! ## Runs -/

section Follows

variable {γ κ σ ε τ ι : Type} [BEq ι] {S : Service γ κ σ ε τ ι} {taken : ε → κ → Bool}

variable (S taken) in
/-- The move takes a command of some kind, and goes on with the given calls. -/
def follows (all : List ι) (probed : Bool) (s : Dialogue γ κ σ τ ι) : Move γ ε ι → Bool
  | .command e _ =>
    match S.read s.inbox with
    | .got c _ => taken e c
    | _ => false
  | .call c => (s.calls ++ [c]).isPrefixOf all
  | .finish => s.calls == all
  | .probe => probed
  | _ => true

variable {fine : σ → ε → κ → Prop} {full : τ → List ι → Prop} {all : List ι}
  {s : Dialogue γ κ σ τ ι} {m : Move γ ε ι}

theorem undisturbed_of_follows (h : follows S taken all false s m = true) :
    Undisturbed S s m := by
  cases m with
  | probe => cases h
  | _ => trivial

theorem orderly_of_follows [LawfulBEq ι]
    (hfine : ∀ session e c, taken e c = true → fine session e c) (hall : ∀ task, full task all)
    {probed : Bool} (h : follows S taken all probed s m = true) : Orderly S fine full s m := by
  cases m with
  | command e cut =>
    intro c rest hread
    simp only [follows, hread] at h
    exact hfine s.session e c h
  | call =>
    obtain ⟨more, hmore⟩ := isPrefixOf_iff_prefix.1 h
    rw [append_assoc, singleton_append] at hmore
    exact fun task _ => ⟨more, hmore ▸ hall task⟩
  | finish =>
    intro task _
    rw [beq_iff_eq.1 h]
    exact hall task
  | _ => trivial

end Follows

def plainTexts : WireTexts where
  fromUtf8Lossy bytes := bytes.map fun b => Char.ofNat b.toNat
  parseQueryTags _ := fun _ => none
  classify _ := ⟨utf8 "OK", false⟩

def selectOne : Bytes := utf8 "SELECT 1"

/-- A query in one packet. -/
def selectPacket : UInt8 × Bytes := (0, comQuery :: selectOne)

def pingPacket : UInt8 × Bytes := (0, [comPing])

def packetBytes (packet : UInt8 × Bytes) : Bytes :=
  leBytes 3 packet.2.length ++ packet.1 :: packet.2

def oneResult : Result where
  opening := .schema [⟨utf8 "a", .int64, false⟩]
  batches := [.arrow [[some (utf8 "1")]]]
  closing := .complete none

def freshSession : SessionContext := ⟨none, none, none, fun _ => none, fun _ => none, none⟩

theorem answerLocally_selectOne :
    answerLocally plainTexts.parseQueryTags freshSession "SELECT 1" = some none := by
  have hstrip : stripMysqlConditionalComment "SELECT 1".toList = "SELECT 1".toList :=
    (stripMysqlConditionalComment_of_not_comment (by decide +kernel)).trans (by decide +kernel)
  have htags : tryParseSetQueryTags "SELECT 1".toList = some none := by decide +kernel
  have hset : startsWithSet (toLowercase (trim "SELECT 1".toList)) = false := by decide +kernel
  have huse : tryParseUse "SELECT 1".toList = none := by decide +kernel
  have hprobe : answerProbe freshSession (toLowercase (trim "SELECT 1".toList)) = none := by
    decide +kernel
  unfold answerLocally
  simp only [hstrip, htags, hset, huse, hprobe]
  rfl

theorem commandText_selectOne :
    String.ofList (commandText plainTexts selectOne) = "SELECT 1" := by
  decide +kernel

theorem handle_selectPacket :
    (mysqlService plainTexts).handle freshSession (.admitted .routed) selectPacket =
      .run freshSession (.new 1) := by
  change handleComQueryText plainTexts freshSession (.admitted .routed) 1
    (String.ofList (commandText plainTexts selectOne)) = _
  rw [commandText_selectOne]
  unfold handleComQueryText
  simp only [answerLocally_selectOne]

abbrev MysqlDialogue :=
  Dialogue UInt8 (UInt8 × Bytes) SessionContext MysqlResultSink ResultCall

def queryArrived : MysqlDialogue :=
  { Dialogue.start freshSession with
    inbox := packetBytes selectPacket, received := packetBytes selectPacket }

def queryRunning : MysqlDialogue :=
  queryArrived.handled selectPacket [] none (.run freshSession (.new 1))

theorem readPacket_queryArrived : readPacket queryArrived.inbox = .got selectPacket [] := rfl

theorem queryRunning_reached {ok : MysqlDialogue → Move UInt8 Admission ResultCall → Prop}
    (harrive : ok (.start freshSession) (.arrive (packetBytes selectPacket)))
    (hcommand : ok queryArrived (.command (.admitted .routed) none)) :
    ((mysqlService plainTexts).system freshSession).Reach ok queryRunning := by
  have harrived : ((mysqlService plainTexts).system freshSession).Reach ok queryArrived :=
    .step (.init rfl) harrive rfl
  refine .step harrived hcommand ?_
  refine (Service.step_command (S := mysqlService plainTexts) (s := queryArrived) rfl
    readPacket_queryArrived _ _).trans ?_
  change some (queryArrived.handled selectPacket [] none
    ((mysqlService plainTexts).handle freshSession (.admitted .routed) selectPacket)) = _
  rw [handle_selectPacket]
  rfl

theorem orderly_queryArrived :
    Orderly (mysqlService plainTexts) (MysqlFine plainTexts) MysqlFull queryArrived
      (.command (.admitted .routed) none) := by
  rintro packet rest hread - session' answer hanswer
  obtain ⟨rfl, rfl⟩ := Found.got.inj (readPacket_queryArrived.symm.trans hread)
  have htext : answerLocally plainTexts.parseQueryTags freshSession
      (String.ofList (commandText plainTexts selectOne)) = some (some (session', answer)) := hanswer
  rw [commandText_selectOne, answerLocally_selectOne] at htext
  cases htext

/-- No query. -/
def otherCommand (_ : Admission) (packet : UInt8 × Bytes) : Bool :=
  packet.2.head? != some comQuery

theorem mysqlFine_otherCommand (session : SessionContext) (admission : Admission)
    (packet : UInt8 × Bytes) (h : otherCommand admission packet = true) :
    MysqlFine plainTexts session admission packet := by
  intro hquery
  rw [otherCommand, hquery] at h
  cases h

def withoutError (admission : Admission) (m : UInt8 × Bytes) : Bool :=
  m.1 != 0 && admission.message?.isNone

theorem postgresFine_withoutError (session : SessionContext) (admission : Admission)
    (m : UInt8 × Bytes) (h : withoutError admission m = true) :
    PostgresFine session admission m := by
  rw [withoutError, Bool.and_eq_true, bne_iff_ne, Option.isNone_iff_eq_none] at h
  refine ⟨h.1, fun _ text htext => ?_⟩
  rw [h.2] at htext
  cases htext

/-- The ping arrives while the result is sent. -/
def waitingMoves : List (Move UInt8 Admission ResultCall) :=
  [.call (.onSchema [⟨utf8 "a", .int64, false⟩]), .forward none,
    .arrive (packetBytes pingPacket), .call (.onBatch [[some (utf8 "1")]]), .forward none,
    .forward none, .forward none, .call (.onComplete none), .finish, .forward none,
    .endResponse none, .command (.admitted .routed) none]

def probedMoves : List (Move UInt8 Admission ResultCall) :=
  [.call (.onSchema [⟨utf8 "a", .int64, false⟩]), .forward none, .arrive (packetBytes pingPacket),
    .probe, .command (.admitted .routed) none]

def syncMessage : UInt8 × Bytes := (byte 'S', [])

def selectMessage : UInt8 × Bytes := (byte 'Q', selectOne ++ [0])

def messageBytes (m : UInt8 × Bytes) : Bytes := message m.1 m.2

def onePostgresResult : Postgres.Result where
  tag := ⟨utf8 "SELECT", false⟩
  schema := some [⟨utf8 "a", .int64, false⟩]
  batches := [[[some (utf8 "1")]]]
  closing := .complete none

def postgresCalls : List PostgresCall :=
  .onTranslatedSql ⟨utf8 "SELECT", false⟩ :: onePostgresResult.calls

theorem onePostgresResult_fits : onePostgresResult.Fits where
  names := by decide
  fields := by decide
  rows := by decide
  verb := nofun
  tag := by
    intro affectedRows h
    cases h
    decide
  message := nofun

theorem postgresCalls_full (sink : PostgresResultSink) : PostgresFull sink postgresCalls :=
  ⟨[⟨utf8 "SELECT", false⟩], onePostgresResult, rfl, rfl, by decide, onePostgresResult_fits⟩

theorem oneResult_full (sink : MysqlResultSink) : MysqlFull sink oneResult.calls :=
  .inr ⟨oneResult, rfl, ⟨by decide, by decide⟩, by decide, by decide⟩

def postgresMoves : List (Move UInt8 Admission PostgresCall) :=
  [.arrive (messageBytes selectMessage), .command (.admitted .routed) none,
    .arrive (messageBytes syncMessage)] ++ postgresCalls.map .call ++
    [.finish, .forward none, .forward none, .forward none, .endResponse none,
      .command (.admitted .routed) none]

/-- A query and a second command, in both protocols. -/
theorem pipelined_commands_answered :
    (∃ s : MysqlDialogue, s.commands = [selectPacket, pingPacket] ∧
      Served (mysqlService plainTexts) MysqlComplete s) ∧
    ∃ s : Dialogue UInt8 (UInt8 × Bytes) SessionContext PostgresResultSink PostgresCall,
      s.commands = [selectMessage, syncMessage] ∧
      Served (postgresService plainTexts) PostgresComplete s := by
  obtain ⟨hmysql, hpostgres⟩ := responses_in_order plainTexts freshSession
  constructor
  · have hrun : (((mysqlService plainTexts).system freshSession).runIf
        (follows (mysqlService plainTexts) otherCommand oneResult.calls false) queryRunning
        waitingMoves).any
          (fun s => s.commands == [selectPacket, pingPacket]) = true := by decide +kernel
    have hinit : ((mysqlService plainTexts).system freshSession).Reach (fun s m =>
        Orderly (mysqlService plainTexts) (MysqlFine plainTexts) MysqlFull s m ∧
          Undisturbed (mysqlService plainTexts) s m) queryRunning :=
      queryRunning_reached ⟨trivial, trivial⟩ ⟨orderly_queryArrived, trivial⟩
    obtain ⟨s, hs, hcommands⟩ := System.Reach.exists_of_runIf
      (fun s m h => ⟨orderly_of_follows mysqlFine_otherCommand oneResult_full h,
        undisturbed_of_follows h⟩) hinit hrun
    exact ⟨s, beq_iff_eq.1 hcommands, hmysql s hs⟩
  · have hrun : (((postgresService plainTexts).system freshSession).runIf
        (follows (postgresService plainTexts) withoutError postgresCalls false)
        (.start freshSession) postgresMoves).any
          (fun s => s.commands == [selectMessage, syncMessage]) = true := by decide +kernel
    have hinit : ((postgresService plainTexts).system freshSession).Reach (fun s m =>
        Orderly (postgresService plainTexts) PostgresFine PostgresFull s m ∧
          Undisturbed (postgresService plainTexts) s m) (.start freshSession) := .init rfl
    obtain ⟨s, hs, hcommands⟩ := System.Reach.exists_of_runIf
      (fun s m h => ⟨orderly_of_follows postgresFine_withoutError postgresCalls_full h,
        undisturbed_of_follows h⟩) hinit hrun
    exact ⟨s, beq_iff_eq.1 hcommands, hpostgres s hs⟩

/-! ## A response that is given up -/

theorem decode_of_mysqlComplete {packet : UInt8 × Bytes} {cmd : UInt8} {bytes : Bytes}
    (hcmd : packet.2.head? = some cmd) (hfields : cmd ≠ comFieldList)
    (h : MysqlComplete packet bytes) : (decode (packet.1 + 1) bytes).isSome = true := by
  obtain ⟨cmd', hcmd', h⟩ := h
  obtain rfl := Option.some.inj (hcmd.symm.trans hcmd')
  rw [if_neg hfields] at h
  obtain ⟨response, hdecode, -⟩ := h
  rw [hdecode]
  rfl

def isReading {τ : Type} : Phase τ → Bool
  | .reading => true
  | _ => false

theorem eq_reading {τ : Type} {phase : Phase τ} (h : isReading phase = true) :
    phase = .reading := by
  cases phase with
  | reading => rfl
  | running => cases h
  | closed => cases h

/-- The probe fires on the ping that arrives behind the first packet of a result: the rest of the
result is given up, and the OK of the ping follows. -/
theorem partial_response_followed :
    ∃ s : MysqlDialogue,
      ((mysqlService plainTexts).system freshSession).Reach
        (Orderly (mysqlService plainTexts) (MysqlFine plainTexts) MysqlFull) s ∧
      s.commands = [selectPacket, pingPacket] ∧
      s.out = frames 1 [writeLenencInt 1] ++ frames 1 [buildOk 0 0] ∧
      ¬ Served (mysqlService plainTexts) MysqlComplete s := by
  have hrun : (((mysqlService plainTexts).system freshSession).runIf
      (follows (mysqlService plainTexts) otherCommand oneResult.calls true) queryRunning
      probedMoves).any
        (fun s => s.commands == [selectPacket, pingPacket] &&
          s.out == frames 1 [writeLenencInt 1] ++ frames 1 [buildOk 0 0] &&
          isReading s.phase && !s.gone) = true := by decide +kernel
  have hinit : ((mysqlService plainTexts).system freshSession).Reach
      (Orderly (mysqlService plainTexts) (MysqlFine plainTexts) MysqlFull) queryRunning :=
    queryRunning_reached trivial orderly_queryArrived
  obtain ⟨s, hs, htest⟩ := System.Reach.exists_of_runIf
    (fun s m h => orderly_of_follows mysqlFine_otherCommand oneResult_full h) hinit hrun
  simp only [Bool.and_eq_true, beq_iff_eq, Bool.not_eq_true'] at htest
  obtain ⟨⟨⟨hcommands, hout⟩, hreading⟩, hgone⟩ := htest
  refine ⟨s, hs, hcommands, hout, ?_⟩
  rintro ⟨-, responses, hall, -, hanswered⟩
  have hflatten := hanswered (eq_reading hreading) (fun h => by rw [hgone] at h; cases h.1)
  rw [hcommands] at hall
  obtain _ | ⟨hfirst, _ | ⟨hsecond, ⟨⟩⟩⟩ := hall
  rename_i first second
  have hfirst := decode_of_mysqlComplete rfl (by decide) hfirst
  have hsecond := decode_of_mysqlComplete rfl (by decide) hsecond
  have hsplit : s.out = first ++ second := by
    rw [hflatten, flatten_cons, flatten_cons, flatten_nil, append_nil]
  -- wherever the bytes are cut in two, a client does not decode both parts
  have hcuts : ∀ n ≤ 16, ¬ ((decode 1 ((frames 1 [writeLenencInt 1] ++
      frames 1 [buildOk 0 0]).take n)).isSome = true ∧
      (decode 1 ((frames 1 [writeLenencInt 1] ++
        frames 1 [buildOk 0 0]).drop n)).isSome = true) := by
    decide +kernel
  have hlength : first.length ≤ 16 := by
    have hle : first.length ≤ s.out.length := by
      rw [hsplit, length_append]
      omega
    rw [hout] at hle
    exact hle
  refine hcuts first.length hlength ?_
  rw [← hout, hsplit, take_left, drop_left]
  exact ⟨hfirst, hsecond⟩

end QueryFlux.Wire
