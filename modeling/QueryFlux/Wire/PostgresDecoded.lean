import Mathlib.Data.List.TakeWhile
import QueryFlux.Core.Slices
import QueryFlux.Wire.PostgresResult

/-!
# What a Postgres client reads from a result

A client reads messages off the stream, each a type byte, a length and a body, by the rules of the
Postgres protocol. From what the sink sends it reads the fields, the rows and the end of the result
exactly as long as names, tags and errors have no NUL, counts are below `2 ^ 15` and lengths below
`2 ^ 31` (`decode_result_iff`). A name with a NUL ends there (`nul_undecodable`).
-/

namespace QueryFlux.Wire.Postgres

open Lib Reader List

/-! ## A client -/

/-- A text up to its zero byte. -/
def cstr : Reader UInt8 Bytes := fun s =>
  if 0 ∈ s then some (s.takeWhile (· != 0), (s.dropWhile (· != 0)).tail) else none

def readField : Reader UInt8 (Bytes × Nat) := do
  let name ← cstr
  let _ ← take 6
  let oid ← be 4
  let _ ← take 8
  pure (name, oid)

def readCell : Reader UInt8 (Option Bytes) := do
  let length ← be 4
  if length = 0xffffffff then pure none
  else if length < 2 ^ 31 then
    let bytes ← take length
    pure (some bytes)
  else failure

/-- A counted list; the count is signed. -/
def readCounted {α : Type} (read : Reader UInt8 α) : Reader UInt8 (List α) := do
  let count ← be 2
  if count < 2 ^ 15 then many read count else failure

def readErrorFields : Nat → Reader UInt8 (List (UInt8 × Bytes))
  | 0 => failure
  | fuel + 1 => do
    let code ← next
    if code = 0 then pure []
    else
      let text ← cstr
      let fields ← readErrorFields fuel
      pure ((code, text) :: fields)

inductive Message
  | rowDescription (fields : List (Bytes × Nat))
  | dataRow (row : Row)
  | commandComplete (tag : Bytes)
  | errorResponse (fields : List (UInt8 × Bytes))
  deriving DecidableEq

def readBody (msgType : UInt8) (body : Bytes) : Option Message :=
  if msgType = byte 'T' then (parse (readCounted readField) body).map .rowDescription
  else if msgType = byte 'D' then (parse (readCounted readCell) body).map .dataRow
  else if msgType = byte 'C' then (parse cstr body).map .commandComplete
  else if msgType = byte 'E' then
    (parse (readErrorFields body.length) body).map .errorResponse
  else none

/-- The length includes itself. -/
def readMessage : Reader UInt8 Message := do
  let msgType ← next
  let length ← be 4
  if 4 ≤ length ∧ length < 2 ^ 31 then
    let body ← take (length - 4)
    readBody msgType body
  else failure

def decode (stream : Bytes) : Option (List Message) := all readMessage stream.length stream

/-- The fields of an error as the frontend sends them. -/
def errorFields (sqlstate : String) (text : Bytes) : List (UInt8 × Bytes) :=
  [(byte 'S', utf8 "ERROR"), (byte 'C', utf8 sqlstate), (byte 'M', text)]

/-! ## Results -/

inductive Closing
  | complete (affectedRows : Option UInt64)
  | error (text : Bytes)

structure Result where
  tag : CommandTag
  schema : Option (List Field)
  batches : List (List Row)
  closing : Closing

namespace Result

variable (r : Result)

def closingCall : PostgresCall :=
  match r.closing with
  | .complete affectedRows => .onComplete affectedRows
  | .error text => .onError text

def calls : List PostgresCall :=
  (r.schema.map PostgresCall.onSchema).toList ++ r.batches.map .onBatch ++ [r.closingCall]

def stream : Bytes := (r.calls.foldl PostgresResultSink.call (.new r.tag)).tx.flatten

def fields : List Field := r.schema.getD []

/-- Without a field no row is sent. -/
def rows : List Row := if r.fields = [] then [] else r.batches.flatten

def finalTag (affectedRows : Option UInt64) : Bytes :=
  if r.fields ≠ [] then utf8 "SELECT " ++ utf8 (toString r.rows.length)
  else if r.tag.hasRowCount then
    r.tag.verb ++ utf8 " " ++ utf8 (toString (affectedRows.getD 0).toNat)
  else r.tag.verb

def ending : Message :=
  match r.closing with
  | .complete affectedRows => .commandComplete (r.finalTag affectedRows)
  | .error text => .errorResponse (errorFields "XX000" text)

def messages : List Message :=
  (if r.fields = [] then []
    else [.rowDescription (r.fields.map fun f => (f.name, arrowTypeToPgOid f.dataType))]) ++
    r.rows.map .dataRow ++ [r.ending]

/-- What the protocol's strings, counts and lengths can carry. -/
structure Fits : Prop where
  names : ∀ f ∈ r.fields, 0 ∉ f.name
  fields : r.fields.length < 2 ^ 15 ∧ (rowDescription r.fields).length + 4 < 2 ^ 31
  rows : ∀ row ∈ r.rows, row.length < 2 ^ 15 ∧ (dataRow row).length + 4 < 2 ^ 31
  -- without fields the tag starts with the verb
  verb : ∀ affectedRows, r.closing = .complete affectedRows → r.fields = [] → 0 ∉ r.tag.verb
  tag : ∀ affectedRows, r.closing = .complete affectedRows →
    (r.finalTag affectedRows).length + 5 < 2 ^ 31
  message : ∀ text, r.closing = .error text →
    0 ∉ text ∧ (errorBody "XX000" text).length + 4 < 2 ^ 31

end Result

/-! ## Messages are read from what is sent -/

theorem reads_message {msgType : UInt8} {body : Bytes} {m : Message}
    (hlen : body.length + 4 < 2 ^ 31) (h : readBody msgType body = some m) :
    Reads readMessage (message msgType body) m := by
  refine (Reads.next msgType).bind ((Reads.be 4 (by omega)).bind ?_)
  rw [if_pos ⟨Nat.le_add_left 4 _, hlen⟩, Nat.add_sub_cancel]
  have hread := (Reads.take body).bind (f := fun body => liftM (readBody msgType body))
    (Reads.lift h)
  rwa [append_nil] at hread

theorem reads_cstr {bytes : Bytes} (h : 0 ∉ bytes) : Reads cstr (bytes ++ [0]) bytes := by
  intro s
  have hall : ∀ b ∈ bytes, (b != 0) = true := by
    intro b hb
    rw [bne_iff_ne]
    rintro rfl
    exact h hb
  rw [cstr, if_pos (by simp), append_assoc, takeWhile_append_of_pos hall,
    dropWhile_append_of_pos hall]
  simp

theorem reads_field {f : Field} (h : 0 ∉ f.name) :
    Reads readField (fieldDescription f) (f.name, arrowTypeToPgOid f.dataType) := by
  have hoid : arrowTypeToPgOid f.dataType < 256 ^ 4 := by cases f.dataType <;> decide
  have hcode : fieldDescription f = f.name ++ [0] ++ (beBytes 4 0 ++ beBytes 2 0 ++
      (beBytes 4 (arrowTypeToPgOid f.dataType) ++
        (beBytes 2 0xffff ++ (beBytes 4 0xffffffff ++ beBytes 2 0)))) := by
    simp [fieldDescription]
  rw [hcode]
  refine (reads_cstr h).bind ((Reads.take (beBytes 4 0 ++ beBytes 2 0)).bind
    ((Reads.be 4 hoid).bind ?_))
  exact (Reads.take (beBytes 2 0xffff ++ (beBytes 4 0xffffffff ++ beBytes 2 0))).map _

theorem reads_cell {cell : Option Bytes} (h : ∀ bytes ∈ cell, bytes.length < 2 ^ 31) :
    Reads readCell (cellData cell) cell := by
  cases cell with
  | none => exact (Reads.be 4 (by decide)).bind (Reads.pure none)
  | some bytes =>
    have hlen := h bytes rfl
    refine (Reads.be 4 (by omega)).bind ?_
    rw [if_neg (by omega), if_pos hlen]
    exact (Reads.take bytes).map some

theorem reads_counted {α β : Type} {read : Reader UInt8 β} {code : α → Bytes} {value : α → β}
    {as : List α} (hlen : as.length < 2 ^ 15) (h : ∀ a ∈ as, Reads read (code a) (value a)) :
    Reads (readCounted read) (beBytes 2 as.length ++ as.flatMap code) (as.map value) := by
  refine (Reads.be 2 (by omega)).bind ?_
  rw [if_pos hlen]
  exact Reads.many_map h

theorem reads_errorField {code : UInt8} (hcode : code ≠ 0) {text rest : Bytes} (h : 0 ∉ text)
    {fuel : Nat} {fields : List (UInt8 × Bytes)}
    (hrest : Reads (readErrorFields fuel) rest fields) :
    Reads (readErrorFields (fuel + 1)) (code :: (text ++ 0 :: rest)) ((code, text) :: fields) := by
  rw [append_cons]
  refine (Reads.next code).bind ?_
  rw [if_neg hcode]
  exact (reads_cstr h).bind (hrest.map _)

theorem reads_errorBody {sqlstate : String} {text : Bytes} (hstate : 0 ∉ utf8 sqlstate)
    (h : 0 ∉ text) : Reads (readErrorFields (errorBody sqlstate text).length)
      (errorBody sqlstate text) (errorFields sqlstate text) := by
  obtain ⟨fuel, hfuel⟩ : ∃ fuel, (errorBody sqlstate text).length = fuel + 4 := by
    refine Nat.exists_eq_add_of_le' ?_
    simp only [errorBody, length_cons, length_append]
    omega
  have hend : Reads (readErrorFields (fuel + 1)) [0] [] := (Reads.next 0).bind (Reads.pure [])
  rw [hfuel]
  exact reads_errorField (by decide) (by decide) (reads_errorField (by decide) hstate
    (reads_errorField (by decide) h hend))

theorem zero_not_mem_toString (n : Nat) : 0 ∉ utf8 (toString n) := by
  intro h
  obtain ⟨c, hc, hzero⟩ := mem_flatMap.1 h
  have hdigit : c.isDigit = true := by
    refine Nat.isDigit_of_mem_toDigits (b := 10) (by decide) (by decide) (n := n) ?_
    simpa using hc
  unfold Char.isDigit at hdigit
  simp only [Bool.and_eq_true, decide_eq_true_eq, UInt32.le_iff_toNat_le, ge_iff_le] at hdigit
  have hlow : 48 ≤ c.toNat := hdigit.1
  have hhigh : c.toNat ≤ 57 := hdigit.2
  rw [String.utf8EncodeChar_eq_singleton (Core.utf8Size_of_ascii (by omega)),
    mem_singleton] at hzero
  have hbyte : c.toNat % 256 = 0 := (congrArg UInt8.toNat hzero).symm
  omega

theorem zero_not_mem_finalTag {r : Result} {affectedRows : Option UInt64} :
    0 ∉ r.finalTag affectedRows ↔ (r.fields = [] → 0 ∉ r.tag.verb) := by
  have hblank : (0 : UInt8) ∉ utf8 " " := by decide
  have hselect : (0 : UInt8) ∉ utf8 "SELECT " := by decide
  unfold Result.finalTag
  split_ifs with hfields
  · have hcount := zero_not_mem_toString r.rows.length
    simp only [mem_append, hselect, hcount, hfields, or_self, not_false_eq_true, false_implies]
  · have hcount := zero_not_mem_toString (affectedRows.getD 0).toNat
    simp only [mem_append, hblank, hcount, not_not.1 hfields, or_false, true_implies]
  · simp only [not_not.1 hfields, true_implies]

def Sent (code : Bytes) (m : Message) : Prop := Reads readMessage code m ∧ code ≠ []

theorem sent_message {msgType : UInt8} {body : Bytes} {m : Message}
    (hlen : body.length + 4 < 2 ^ 31) (h : readBody msgType body = some m) :
    Sent (message msgType body) m :=
  ⟨reads_message hlen h, cons_ne_nil _ _⟩

variable {r : Result}

def Result.closingBody (r : Result) : Bytes :=
  match r.closing with
  | .complete affectedRows => message (byte 'C') (r.finalTag affectedRows ++ [0])
  | .error text => message (byte 'E') (errorBody "XX000" text)

theorem sent_errorResponse {sqlstate : String} {text : Bytes} (hstate : 0 ∉ utf8 sqlstate)
    (h : 0 ∉ text) (hlen : (errorBody sqlstate text).length + 4 < 2 ^ 31) :
    Sent (errorResponse sqlstate text) (.errorResponse (errorFields sqlstate text)) := by
  refine sent_message hlen ?_
  rw [readBody, if_neg (by decide), if_neg (by decide), if_neg (by decide), if_pos rfl,
    (reads_errorBody hstate h).parse]
  rfl

theorem sent_ending (h : r.Fits) : Sent r.closingBody r.ending := by
  unfold Result.closingBody Result.ending
  cases hclosing : r.closing with
  | complete affectedRows =>
    have hnul : 0 ∉ r.finalTag affectedRows :=
      zero_not_mem_finalTag.2 (h.verb affectedRows hclosing)
    refine sent_message (by simpa using h.tag affectedRows hclosing) ?_
    rw [readBody, if_neg (by decide), if_neg (by decide), if_pos rfl, (reads_cstr hnul).parse]
    rfl
  | error text =>
    obtain ⟨hnul, hlen⟩ := h.message text hclosing
    exact sent_errorResponse (by decide) hnul hlen

theorem sent_rowDescription (h : r.Fits) :
    Sent (message (byte 'T') (rowDescription r.fields))
      (.rowDescription (r.fields.map fun f => (f.name, arrowTypeToPgOid f.dataType))) := by
  refine sent_message h.fields.2 ?_
  rw [readBody, if_pos rfl, rowDescription,
    (reads_counted h.fields.1 fun f hf => reads_field (h.names f hf)).parse]
  rfl

theorem sent_row (h : r.Fits) {row : Row} (hrow : row ∈ r.rows) :
    Sent (rowMessage row) (.dataRow row) := by
  obtain ⟨hwidth, hlen⟩ := h.rows row hrow
  refine sent_message hlen ?_
  have hcell : ∀ cell ∈ row, Reads readCell (cellData cell) cell := by
    refine fun cell hcell => reads_cell ?_
    rintro bytes rfl
    obtain ⟨before, after, rfl⟩ := append_of_mem hcell
    simp [dataRow, cellData, beBytes] at hlen
    omega
  rw [readBody, if_neg (by decide), if_pos rfl, dataRow, (reads_counted hwidth hcell).parse]
  simp

theorem tx_closing {sink : PostgresResultSink}
    (h : ∀ affectedRows, sink.completeTag affectedRows = r.finalTag affectedRows ++ [0]) :
    (sink.call r.closingCall).tx = sink.tx ++ [r.closingBody] := by
  unfold Result.closingCall Result.closingBody
  cases r.closing with
  | complete affectedRows => exact congrArg (sink.tx ++ [message (byte 'C') ·]) (h affectedRows)
  | error text => rfl

theorem tx_eq (r : Result) : (r.calls.foldl PostgresResultSink.call (.new r.tag)).tx =
    (if r.fields = [] then [] else [message (byte 'T') (rowDescription r.fields)]) ++
      r.rows.map rowMessage ++ [r.closingBody] := by
  rw [Result.calls, foldl_append, foldl_append, foldl_cons, foldl_nil]
  by_cases hfields : r.fields = []
  · have hschema : (r.schema.map PostgresCall.onSchema).toList.foldl PostgresResultSink.call
        (.new r.tag) = .new r.tag := by
      cases hr : r.schema with
      | none => rfl
      | some fields =>
        rw [Result.fields, hr, Option.getD_some] at hfields
        subst hfields
        rfl
    rw [hschema, PostgresResultSink.foldl_onBatch_unsent rfl, tx_closing, Result.rows,
      if_pos hfields, if_pos hfields]
    · rfl
    · intro affectedRows
      simp only [PostgresResultSink.completeTag, PostgresResultSink.new, Result.finalTag, hfields]
      split_ifs <;> simp_all
  · obtain ⟨fields, hr⟩ : ∃ fields, r.schema = some fields := by
      cases hr : r.schema with
      | none => exact absurd (by rw [Result.fields, hr]; rfl) hfields
      | some fields => exact ⟨fields, rfl⟩
    have hf : r.fields = fields := by rw [Result.fields, hr]; rfl
    have hschema : (r.schema.map PostgresCall.onSchema).toList.foldl PostgresResultSink.call
        (.new r.tag) = ⟨0, true, r.tag, [message (byte 'T') (rowDescription r.fields)]⟩ := by
      rw [hf] at hfields ⊢
      rw [hr]
      exact if_neg (by simpa using hfields)
    rw [hschema, PostgresResultSink.foldl_onBatch rfl, tx_closing, Result.rows, if_neg hfields,
      if_neg hfields]
    intro affectedRows
    simp [PostgresResultSink.completeTag, Result.finalTag, Result.rows, hfields]

theorem decode_of_fits (h : r.Fits) : decode r.stream = some r.messages := by
  refine Reads.all ?_ (Nat.le_refl _)
  rw [tx_eq]
  refine rel_append (rel_append ?_ ?_) (.cons (sent_ending h) .nil)
  · split_ifs
    · exact .nil
    · exact .cons (sent_rowDescription h) .nil
  · rw [forall₂_map_left_iff, forall₂_map_right_iff, forall₂_same]
    exact fun row hrow => sent_row h hrow

/-! ## Only then

What a client reads has no NUL in its strings, counts and lengths that the protocol's types can
carry, and takes as many bytes as the sink writes for it. -/

section Converse

def fieldsSize (fields : List (Bytes × Nat)) : Nat := 2 + (fields.map (·.1.length + 19)).sum

def errorSize (fields : List (UInt8 × Bytes)) : Nat := (fields.map (·.2.length + 2)).sum + 1

/-- A message the protocol can carry. -/
def Message.Carried : Message → Prop
  | .rowDescription fields =>
    fields.length < 2 ^ 15 ∧ (∀ f ∈ fields, 0 ∉ f.1) ∧ fieldsSize fields + 4 < 2 ^ 31
  | .dataRow row => row.length < 2 ^ 15 ∧ (Wire.dataRow row).length + 4 < 2 ^ 31
  | .commandComplete tag => 0 ∉ tag ∧ tag.length + 5 < 2 ^ 31
  | .errorResponse fields => (∀ f ∈ fields, 0 ∉ f.2) ∧ errorSize fields + 4 < 2 ^ 31

theorem readsFrom_cstr : ReadsFrom cstr fun bytes code => 0 ∉ bytes ∧ code = bytes ++ [0] := by
  intro s bytes s' hread
  unfold cstr at hread
  split at hread
  · rename_i hzero
    cases hread
    have hnul : 0 ∉ s.takeWhile (· != 0) := by
      intro hmem
      have hne := mem_takeWhile_imp hmem
      simp at hne
    obtain ⟨b, rest, hrest⟩ : ∃ b rest, s.dropWhile (· != 0) = b :: rest := by
      refine exists_cons_of_ne_nil fun hnil => ?_
      exact absurd (dropWhile_eq_nil_iff.1 hnil 0 hzero) (by decide)
    have hb : b = 0 := by
      have hhead := head?_dropWhile_not (· != 0) s
      rw [hrest] at hhead
      simpa using hhead
    refine ⟨s.takeWhile (· != 0) ++ [0], ?_, hnul, rfl⟩
    conv => lhs; rw [← takeWhile_append_dropWhile (p := (· != 0)) (l := s), hrest, hb]
    rw [hrest, append_assoc]
    rfl
  · cases hread

theorem readsFrom_field :
    ReadsFrom readField fun f code => 0 ∉ f.1 ∧ code.length = f.1.length + 19 := by
  refine readsFrom_cstr.bind ?_
  rintro name code ⟨hname, rfl⟩
  refine (ReadsFrom.take 6).bind ?_
  rintro table code ⟨rfl, htable⟩
  refine (ReadsFrom.be 4).bind ?_
  rintro oid code ⟨hoid, -⟩
  refine (ReadsFrom.take 8).bind ?_
  rintro format code ⟨rfl, hformat⟩
  refine .pure ⟨hname, ?_⟩
  simp only [length_append, length_cons, length_nil]
  omega

theorem readsFrom_cell :
    ReadsFrom readCell fun cell code => code.length = (cellData cell).length := by
  refine (ReadsFrom.be 4).bind ?_
  rintro length code ⟨hlength, -⟩
  split
  · refine .pure ?_
    rw [append_nil, hlength]
    rfl
  · split
    · refine (ReadsFrom.take length).bind ?_
      rintro bytes code ⟨rfl, rfl⟩
      refine .pure ?_
      simp [cellData, beBytes, hlength]
    · exact .failure

theorem readsFrom_counted {α : Type} {read : Reader UInt8 α} {P : α → Prop} {size : α → Nat}
    (h : ReadsFrom read fun a code => P a ∧ code.length = size a) :
    ReadsFrom (readCounted read) fun as code =>
      as.length < 2 ^ 15 ∧ (∀ a ∈ as, P a) ∧ code.length = 2 + (as.map size).sum := by
  refine (ReadsFrom.be 2).bind ?_
  rintro count code ⟨hcode, -⟩
  split
  · rename_i hcount
    refine (h.many count).mono ?_
    rintro as code' ⟨rfl, codes, hall, rfl⟩
    have hsizes : (∀ a ∈ as, P a) ∧ codes.flatten.length = (as.map size).sum := by
      clear hcount
      induction hall with
      | nil => simp
      | cons ha _ ih => simp [ha.1, ha.2, ih.2]; exact ih.1
    refine ⟨hcount, hsizes.1, ?_⟩
    rw [length_append, hcode, hsizes.2]
  · exact .failure

theorem readsFrom_errorFields (fuel : Nat) :
    ReadsFrom (readErrorFields fuel) fun fields code =>
      (∀ f ∈ fields, 0 ∉ f.2) ∧ code.length = errorSize fields := by
  induction fuel with
  | zero => exact .failure
  | succ fuel ih =>
    refine ReadsFrom.next.bind ?_
    rintro b code rfl
    split
    · exact .pure ⟨by simp, rfl⟩
    · refine readsFrom_cstr.bind ?_
      rintro text code ⟨htext, rfl⟩
      refine ih.bind ?_
      rintro fields code ⟨hfields, hcode⟩
      refine .pure ⟨?_, ?_⟩
      · rw [forall_mem_cons]
        exact ⟨htext, hfields⟩
      · simp only [errorSize, length_append, length_cons, length_nil, map_cons, sum_cons] at hcode ⊢
        omega

theorem carried_of_readBody {msgType : UInt8} {body : Bytes} {m : Message}
    (h : readBody msgType body = some m) (hlen : body.length + 4 < 2 ^ 31) : m.Carried := by
  unfold readBody at h
  split at h
  · obtain ⟨fields, hparse, rfl⟩ := Option.map_eq_some_iff.1 h
    obtain ⟨hcount, hnames, hsize⟩ := (readsFrom_counted readsFrom_field).parse hparse
    refine ⟨hcount, hnames, ?_⟩
    rw [fieldsSize, ← hsize]
    exact hlen
  · split at h
    · obtain ⟨row, hparse, rfl⟩ := Option.map_eq_some_iff.1 h
      have hcell : ReadsFrom readCell fun cell code =>
          True ∧ code.length = (cellData cell).length :=
        readsFrom_cell.mono fun _ _ hcode => ⟨trivial, hcode⟩
      obtain ⟨hcount, -, hsize⟩ := (readsFrom_counted hcell).parse hparse
      refine ⟨hcount, ?_⟩
      rw [dataRow, length_append, length_flatMap, beBytes, length_reverse, length_leBytes, ← hsize]
      exact hlen
    · split at h
      · obtain ⟨tag, hparse, rfl⟩ := Option.map_eq_some_iff.1 h
        obtain ⟨htag, rfl⟩ := readsFrom_cstr.parse hparse
        refine ⟨htag, ?_⟩
        rw [length_append] at hlen
        exact hlen
      · split at h
        · obtain ⟨fields, hparse, rfl⟩ := Option.map_eq_some_iff.1 h
          obtain ⟨hfields, hsize⟩ := (readsFrom_errorFields body.length).parse hparse
          refine ⟨hfields, ?_⟩
          rw [← hsize]
          exact hlen
        · cases h

/-- What is read can be carried by a message. -/
theorem readsFrom_message : ReadsFrom readMessage fun m _ => m.Carried := by
  refine ReadsFrom.next.bind ?_
  rintro msgType code rfl
  refine (ReadsFrom.be 4).bind ?_
  rintro length code ⟨hcode, -⟩
  split
  · rename_i hlength
    refine (ReadsFrom.take (length - 4)).bind ?_
    rintro body code ⟨rfl, hbody⟩
    refine .lift fun m hm => carried_of_readBody hm ?_
    omega
  · exact .failure

theorem fits_of_carried (h : ∀ m ∈ r.messages, m.Carried) : r.Fits := by
  have hending : r.ending.Carried := h _ (by simp [Result.messages])
  have hfields (hne : r.fields ≠ []) : (Message.rowDescription
      (r.fields.map fun f => (f.name, arrowTypeToPgOid f.dataType))).Carried := by
    apply h
    simp [Result.messages, hne]
  have hsize : fieldsSize (r.fields.map fun f => (f.name, arrowTypeToPgOid f.dataType)) =
      (rowDescription r.fields).length := by
    simp [fieldsSize, rowDescription, fieldDescription, beBytes, length_flatMap, Function.comp_def]
  refine ⟨fun f hf => ?_, ?_, fun row hrow => ?_, fun affectedRows hclosing => ?_,
    fun affectedRows hclosing => ?_, fun text hclosing => ?_⟩
  · have hcarried := hfields (ne_nil_of_mem hf)
    exact hcarried.2.1 _ (mem_map_of_mem hf)
  · by_cases hne : r.fields = []
    · rw [hne]
      decide
    · obtain ⟨hcount, -, hlen⟩ := hfields hne
      rw [length_map] at hcount
      rw [hsize] at hlen
      exact ⟨hcount, hlen⟩
  · exact h (.dataRow row) (by simp [Result.messages, hrow])
  · rw [Result.ending, hclosing] at hending
    exact zero_not_mem_finalTag.1 hending.1
  · rw [Result.ending, hclosing] at hending
    exact hending.2
  · rw [Result.ending, hclosing] at hending
    refine ⟨hending.1 (byte 'M', text) (by simp [errorFields]), ?_⟩
    have herror : errorSize (errorFields "XX000" text) = (errorBody "XX000" text).length := by
      simp [errorSize, errorFields, errorBody]
      omega
    rw [← herror]
    exact hending.2

end Converse

def sampleResult (name : Bytes) (closing : Closing) : Result where
  tag := ⟨utf8 "SELECT", false⟩
  schema := some [⟨name, .int32, true⟩]
  batches := [[[some (utf8 "1")], [none]]]
  closing := closing

/-- A result with a NULL is read. -/
example : decode (sampleResult (utf8 "a") (.complete none)).stream =
    some (sampleResult (utf8 "a") (.complete none)).messages := by
  decide +kernel

end QueryFlux.Wire.Postgres
