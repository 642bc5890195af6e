import Mathlib.Data.List.Nodup
import QueryFlux.Access.Statements

/-!
# Whose policy a scan carries

A decision attaches filters and masks to the resources of a request. On the way to the scans of the
query they pass through names: each resource's verdict is filed under its `schema.table`, the guard
collects the policies by that text, and the rewrite looks a scan up by its own name in lower case.

Two things happen on this way. By design, a scan for which nothing is filed under its own name may
get the policy of another resource of the query: a qualified scan that of the bare name, an
unqualified one that of the only qualified name ending in it. And the catalog of a table is lost,
so that tables which differ in it only share one policy. In a query without such tables every scan
carries what is attached to its table, or, if that is nothing, what is attached to the one resource
that stands for its name (`scans_carry_own_policy`).
-/

namespace QueryFlux.Access

open Core Sql Guardrails List

namespace AccessResource

variable (r : AccessResource)

def name : String :=
  match r.kind with
  | .schema => r.schema.getD ""
  | .catalog => r.catalog.getD ""
  | _ => r.table

def qualifiedName : String :=
  match r.kind with
  | .schema => r.catalog.elim r.name (· ++ "." ++ r.name)
  | .catalog => r.name
  | _ => r.schema.elim r.table (· ++ "." ++ r.table)

end AccessResource

/-- A table, whatever the case of its names. -/
abbrev TableId := Option String × Option String × String

/-! ## What is attached to a table -/

section
variable (lower : String → String)

def AccessResource.tableId (r : AccessResource) : TableId :=
  (r.catalog.map lower, r.schema.map lower, lower r.table)

def TableRef.tableId (t : TableRef) : TableId :=
  ((orNone t.catalog).map lower, (orNone t.db).map lower, lower t.name)

/-- The filters and masks a decision attaches to each table. -/
structure Attachment where
  filters : TableId → List RowFilter
  masks : TableId → List ColumnMask

namespace Attachment

variable (a : Attachment) (dialect : SqlDialect) (id : TableId)

def conditions : List String := (a.filters id).filterMap (·.expression)

def Nothing : Prop := a.conditions id = [] ∧ a.masks id = []

def rendered (dialect : SqlDialect) (mask : ColumnMask) : String :=
  (renderMask mask mask.column dialect).toOption.getD ""

/-- Of several masks for one column the last counts. -/
def maskOf (column : String) : Option String :=
  ((a.masks id).reverse.find? (lower ·.column == lower column)).map (rendered dialect)

/-- The verdicts are those of the requested tables, in order, each filed under its table's name. -/
def Decides (requested : List AccessResource) (d : AccessDecision) : Prop :=
  List.Forall₂ (fun r v => v.table = r.qualifiedName ∧
    v.rowFilters = a.filters (r.tableId lower) ∧ v.columnMasks = a.masks (r.tableId lower))
    requested d.resources

/-- The scan filters by the attached conditions, blank ones apart, and masks the columns it
delivers. -/
def Carries (t : TableRef) : Scan → Prop
  | .table t' => t' = t ∧ a.Nothing id
  | .restricted t' scanAlias projection filters =>
    t' = t ∧ scanAlias = t.scanAlias ∧
      (∀ f, f ∈ filters ↔ f ∈ a.conditions id ∧ nonBlank f = true) ∧
      match projection with
      | none => a.masks id = []
      | some cols => a.masks id ≠ [] ∧ ∀ c ∈ cols, c.2 = a.maskOf lower dialect id c.1

end Attachment

end

def under {α : Type} (key : String) (entries : List (String × α)) : List α :=
  entries.filterMap fun e => if e.1 = key then some e.2 else none

@[simp] theorem under_nil {α : Type} (key : String) : under key ([] : List (String × α)) = [] := rfl

theorem under_append {α : Type} (key : String) (l l' : List (String × α)) :
    under key (l ++ l') = under key l ++ under key l' := List.filterMap_append

theorem under_eq_nil_of_ne {α : Type} {key : String} {l : List (String × α)}
    (h : ∀ e ∈ l, e.1 ≠ key) : under key l = [] := by
  rw [under, filterMap_eq_nil_iff]
  exact fun e he => if_neg (h e he)

open ConnectionRuntime

/-! ## Grouping by name -/

section
variable {table : String} {f : TablePolicy → TablePolicy} {ps : List TablePolicy}

theorem map_table_updatePolicy (hf : ∀ p, (f p).table = p.table) :
    (updatePolicy table f ps).map (·.table) =
      if table ∈ ps.map (·.table) then ps.map (·.table) else ps.map (·.table) ++ [table] := by
  induction ps with
  | nil => simp [updatePolicy, hf]
  | cons p ps ih =>
    rw [updatePolicy]
    by_cases hp : p.table = table
    · simp [hp, hf]
    · rw [if_neg hp, map_cons, ih]
      by_cases hmem : table ∈ ps.map (·.table)
      · rw [if_pos hmem, map_cons, if_pos (.tail _ hmem)]
      · have hnot : table ∉ (p :: ps).map (·.table) := by
          rw [map_cons, mem_cons, not_or]
          exact ⟨Ne.symm hp, hmem⟩
        rw [if_neg hmem, if_neg hnot, map_cons, cons_append]

theorem mem_updatePolicy {p : TablePolicy} (hnodup : (ps.map (·.table)).Nodup)
    (h : p ∈ updatePolicy table f ps) :
    (p ∈ ps ∧ p.table ≠ table) ∨ (∃ p₀ ∈ ps, p₀.table = table ∧ p = f p₀) ∨
      (table ∉ ps.map (·.table) ∧ p = f ⟨table, [], []⟩) := by
  induction ps with
  | nil => exact .inr (.inr ⟨not_mem_nil, mem_singleton.1 h⟩)
  | cons p' _ ih =>
    rw [map_cons, nodup_cons] at hnodup
    rw [updatePolicy] at h
    by_cases hp' : p'.table = table
    · rw [if_pos hp'] at h
      rcases mem_cons.1 h with rfl | hmem
      · exact .inr (.inl ⟨p', .head _, hp', rfl⟩)
      · refine .inl ⟨.tail _ hmem, fun hp => ?_⟩
        exact hnodup.1 (hp' ▸ hp ▸ mem_map_of_mem hmem)
    · rw [if_neg hp'] at h
      rcases mem_cons.1 h with rfl | hmem
      · exact .inl ⟨.head _, hp'⟩
      · rcases ih hnodup.2 hmem with ⟨hold, hne⟩ | ⟨p₀, hold, htable, rfl⟩ | ⟨hnew, rfl⟩
        · exact .inl ⟨.tail _ hold, hne⟩
        · exact .inr (.inl ⟨p₀, .tail _ hold, htable, rfl⟩)
        · refine .inr (.inr ⟨?_, rfl⟩)
          rw [map_cons, mem_cons, not_or]
          exact ⟨Ne.symm hp', hnew⟩

end

/-- One policy for each name, with all the filters and masks filed under it. -/
structure Grouped (fs : List (String × String)) (ms : List (String × String × String))
    (ps : List TablePolicy) : Prop where
  nodup : (ps.map (·.table)).Nodup
  filters : ∀ p ∈ ps, p.rowFilters = under p.table fs
  masks : ∀ p ∈ ps, p.maskedColumns = under p.table ms
  mem_iff : ∀ key, key ∈ ps.map (·.table) ↔ key ∈ fs.map Prod.fst ∨ key ∈ ms.map Prod.fst

variable {ms : List (String × String × String)} {fs : List (String × String)}
  {ps : List TablePolicy}

theorem Grouped.update (h : Grouped fs ms ps) (table : String) (fs' : List (String × String))
    (ms' : List (String × String × String)) {f : TablePolicy → TablePolicy}
    (hf : ∀ p, (f p).table = p.table)
    (hfs : ∀ p, (f p).rowFilters = p.rowFilters ++ under table fs')
    (hms : ∀ p, (f p).maskedColumns = p.maskedColumns ++ under table ms')
    (hkeys : ∀ key, key ∈ fs'.map Prod.fst ∨ key ∈ ms'.map Prod.fst ↔ key = table) :
    Grouped (fs ++ fs') (ms ++ ms') (updatePolicy table f ps) := by
  have hother {key : String} (hkey : key ≠ table) : under key fs' = [] ∧ under key ms' = [] := by
    constructor
    · refine under_eq_nil_of_ne fun e he heq => hkey ((hkeys key).1 (.inl ?_))
      exact heq ▸ mem_map_of_mem he
    · refine under_eq_nil_of_ne fun e he heq => hkey ((hkeys key).1 (.inr ?_))
      exact heq ▸ mem_map_of_mem he
  have hfresh (hnew : table ∉ ps.map (·.table)) : under table fs = [] ∧ under table ms = [] := by
    rw [h.mem_iff, not_or] at hnew
    constructor
    · exact under_eq_nil_of_ne fun e he heq => hnew.1 (heq ▸ mem_map_of_mem he)
    · exact under_eq_nil_of_ne fun e he heq => hnew.2 (heq ▸ mem_map_of_mem he)
  refine ⟨?_, fun p hp => ?_, fun p hp => ?_, fun key => ?_⟩
  · rw [map_table_updatePolicy hf]
    split_ifs with hnew
    · exact h.nodup
    · refine nodup_append.2 ⟨h.nodup, nodup_singleton _, fun key hkey key' hkey' => ?_⟩
      rw [mem_singleton.1 hkey']
      rintro rfl
      exact hnew hkey
  · rw [under_append]
    rcases mem_updatePolicy h.nodup hp with ⟨hold, hne⟩ | ⟨p₀, hold, rfl, rfl⟩ | ⟨hnew, rfl⟩
    · rw [h.filters p hold, (hother hne).1, append_nil]
    · rw [hf, hfs, h.filters p₀ hold]
    · rw [hf, hfs, (hfresh hnew).1]
  · rw [under_append]
    rcases mem_updatePolicy h.nodup hp with ⟨hold, hne⟩ | ⟨p₀, hold, rfl, rfl⟩ | ⟨hnew, rfl⟩
    · rw [h.masks p hold, (hother hne).2, append_nil]
    · rw [hf, hms, h.masks p₀ hold]
    · rw [hf, hms, (hfresh hnew).2]
  · have hmem : key ∈ (updatePolicy table f ps).map (·.table) ↔
        key ∈ ps.map (·.table) ∨ key = table := by
      rw [map_table_updatePolicy hf]
      split
      · rename_i hold
        exact ⟨.inl, fun h => h.elim id fun h => h ▸ hold⟩
      · rw [mem_append, mem_singleton]
    rw [hmem, h.mem_iff, ← hkeys key, map_append, map_append, mem_append,
      mem_append]
    exact or_or_or_comm

theorem Grouped.addFilters (h : Grouped fs ms ps) (filters : List (String × String)) :
    Grouped (fs ++ filters) ms (addFilters ps filters) := by
  induction filters generalizing fs ps with
  | nil => rwa [append_nil]
  | cons e _ ih =>
    have hstep := h.update e.1 [e] []
      (f := fun p => { p with rowFilters := p.rowFilters ++ [e.2] }) (fun _ => rfl)
      (fun _ => by simp [under]) (fun _ => by simp) (fun key => by simp)
    rw [append_nil] at hstep
    have := ih hstep
    rw [append_assoc] at this
    exact this

theorem Grouped.addMasks {dialect : SqlDialect} {out : List TablePolicy} (h : Grouped fs ms ps)
    {masks : List (String × ColumnMask)} (hout : addMasks dialect ps masks = .ok out) :
    Grouped fs (ms ++ masks.map fun e => (e.1, e.2.column, Attachment.rendered dialect e.2))
      out := by
  induction masks generalizing ms ps with
  | nil =>
    cases hout
    rwa [map_nil, append_nil]
  | cons e _ ih =>
    rw [ConnectionRuntime.addMasks] at hout
    split at hout
    · cases hout
    · rename_i rendered hrendered
      have heq : Attachment.rendered dialect e.2 = rendered := by
        rw [Attachment.rendered, hrendered]
        rfl
      have hstep := h.update e.1 [] [(e.1, e.2.column, rendered)]
        (f := fun p => { p with maskedColumns := p.maskedColumns ++ [(e.2.column, rendered)] })
        (fun _ => rfl) (fun _ => by simp) (fun _ => by simp [under]) (fun key => by simp)
      rw [append_nil] at hstep
      have := ih hstep hout
      rw [append_assoc] at this
      rw [map_cons, heq]
      exact this

/-! ## What a policy holds -/

section
variable {lower : String → String} {a : Attachment} {dialect : SqlDialect}

/-- No two different tables of the request have the same `schema.table`. -/
def DistinctNames (lower : String → String) (requested : List AccessResource) : Prop :=
  ∀ r ∈ requested, ∀ r' ∈ requested, lower r.qualifiedName = lower r'.qualifiedName →
    r.tableId lower = r'.tableId lower

/-- What the policy does is what is attached to the table. -/
structure HoldsFor (lower : String → String) (a : Attachment) (dialect : SqlDialect) (id : TableId)
    (p : TablePolicy) : Prop where
  filters : ∀ f, f ∈ p.rowFilters ↔ f ∈ a.conditions id
  masks : ∀ c, maskFor lower p c = a.maskOf lower dialect id c
  unmasked : p.maskedColumns = [] ↔ a.masks id = []

def Attachment.maskedColumns (a : Attachment) (dialect : SqlDialect) (id : TableId) :
    List (String × String) :=
  (a.masks id).map fun m => (m.column, rendered dialect m)

variable {requested : List AccessResource} {d : AccessDecision}

theorem Attachment.Decides.rowFilters_eq (h : a.Decides lower requested d) :
    d.rowFilters = requested.flatMap fun r =>
      (a.conditions (r.tableId lower)).map (r.qualifiedName, ·) := by
  obtain ⟨verdicts⟩ := d
  unfold Attachment.Decides at h
  dsimp only at h
  unfold AccessDecision.rowFilters
  induction h with
  | nil => rfl
  | cons hv _ ih =>
    obtain ⟨htable, hfilters, -⟩ := hv
    rw [flatMap_cons, flatMap_cons, ih, htable, hfilters, Attachment.conditions,
      map_filterMap]

theorem Attachment.Decides.columnMasks_eq (h : a.Decides lower requested d) :
    d.columnMasks = requested.flatMap fun r =>
      (a.masks (r.tableId lower)).map (r.qualifiedName, ·) := by
  obtain ⟨verdicts⟩ := d
  unfold Attachment.Decides at h
  dsimp only at h
  unfold AccessDecision.columnMasks
  induction h with
  | nil => rfl
  | cons hv _ ih =>
    obtain ⟨htable, -, hmasks⟩ := hv
    rw [flatMap_cons, flatMap_cons, ih, htable, hmasks]

theorem under_flatMap {α β : Type} (key : String) (name : α → String) (values : α → List β)
    (l : List α) :
    under key (l.flatMap fun x => (values x).map (name x, ·)) =
      l.flatMap fun x => if name x = key then values x else [] := by
  induction l with
  | nil => rfl
  | cons x _ ih =>
    rw [flatMap_cons, flatMap_cons, under_append, ih]
    congr 1
    by_cases hx : name x = key
    · simp [under, hx, filterMap_map]
    · rw [if_neg hx]
      refine under_eq_nil_of_ne fun e he => ?_
      obtain ⟨v, -, rfl⟩ := mem_map.1 he
      exact hx

theorem find_reverse_flatMap {α β : Type} (values : List β) (copy : α → List β) {l : List α}
    (hcopy : ∀ x ∈ l, copy x = values ∨ copy x = []) (hsome : ∃ x ∈ l, copy x = values)
    (P : β → Bool) : (l.flatMap copy).reverse.find? P = values.reverse.find? P := by
  induction l with
  | nil =>
    obtain ⟨x, hx, -⟩ := hsome
    cases hx
  | cons x l ih =>
    have htail := fun y (hy : y ∈ l) => hcopy y (.tail _ hy)
    rw [flatMap_cons, reverse_append, find?_append]
    by_cases hl : ∃ y ∈ l, copy y = values
    · rw [ih htail hl]
      rcases hcopy x (.head _) with hx | hx
      · rw [hx, Option.or_self]
      · rw [hx, reverse_nil, find?_nil, Option.or_none]
    · have hnil : l.flatMap copy = [] := by
        rw [flatMap_eq_nil_iff]
        exact fun y hy => (htail y hy).resolve_left fun h => hl ⟨y, hy, h⟩
      obtain ⟨y, hy, hvalues⟩ := hsome
      rcases mem_cons.1 hy with rfl | hmem
      · rw [hnil, hvalues, reverse_nil, find?_nil, Option.none_or]
      · exact absurd ⟨y, hmem, hvalues⟩ hl

theorem Grouped.nil : Grouped [] [] [] := ⟨List.nodup_nil, nofun, nofun, fun _ => by simp⟩

theorem mem_fst_flatMap {α β : Type} {key : String} {name : α → String} {values : α → List β}
    {l : List α} :
    key ∈ (l.flatMap fun x => (values x).map (name x, ·)).map Prod.fst ↔
      ∃ x ∈ l, name x = key ∧ values x ≠ [] := by
  simp only [mem_map, mem_flatMap]
  constructor
  · rintro ⟨e, ⟨x, hx, v, hv, rfl⟩, rfl⟩
    exact ⟨x, hx, rfl, ne_nil_of_mem hv⟩
  · rintro ⟨x, hx, rfl, hne⟩
    obtain ⟨v, hv⟩ := exists_mem_of_ne_nil _ hne
    exact ⟨_, ⟨x, hx, v, hv, rfl⟩, rfl⟩

/-- The guard's policies are the attachments of the requested tables, filed under their names. -/
theorem Attachment.Decides.grouped {policies : List TablePolicy} (hd : a.Decides lower requested d)
    (hpolicies : addMasks dialect (addFilters [] d.rowFilters) d.columnMasks = .ok policies) :
    Grouped (requested.flatMap fun r => (a.conditions (r.tableId lower)).map (r.qualifiedName, ·))
      (requested.flatMap fun r =>
        (a.maskedColumns dialect (r.tableId lower)).map (r.qualifiedName, ·)) policies := by
  have h := (Grouped.nil.addFilters d.rowFilters).addMasks hpolicies
  rw [nil_append, nil_append, hd.rowFilters_eq, hd.columnMasks_eq, map_flatMap] at h
  simpa only [Attachment.maskedColumns, map_map, Function.comp_def] using h

section
variable {requested : List AccessResource} {policies : List TablePolicy}
  (hgrouped : Grouped
    (requested.flatMap fun r => (a.conditions (r.tableId lower)).map (r.qualifiedName, ·))
    (requested.flatMap fun r =>
      (a.maskedColumns dialect (r.tableId lower)).map (r.qualifiedName, ·)) policies)
include hgrouped

theorem holdsFor_of_mem (hdistinct : DistinctNames lower requested) {p : TablePolicy}
    (hp : p ∈ policies) {r : AccessResource} (hr : r ∈ requested)
    (hname : r.qualifiedName = p.table) : HoldsFor lower a dialect (r.tableId lower) p := by
  have hsame {r' : AccessResource} (hr' : r' ∈ requested) (hname' : r'.qualifiedName = p.table) :
      r'.tableId lower = r.tableId lower :=
    hdistinct r' hr' r hr (by rw [hname, hname'])
  have hfilters := hgrouped.filters p hp
  have hmasks := hgrouped.masks p hp
  rw [under_flatMap] at hfilters hmasks
  refine ⟨fun f => ?_, fun c => ?_, ?_⟩
  · rw [hfilters, mem_flatMap]
    constructor
    · rintro ⟨r', hr', hf⟩
      by_cases hname' : r'.qualifiedName = p.table
      · rwa [if_pos hname', hsame hr' hname'] at hf
      · rw [if_neg hname'] at hf
        cases hf
    · exact fun hf => ⟨r, hr, by rwa [if_pos hname]⟩
  · have hcopy (r' : AccessResource) (hr' : r' ∈ requested) :
        (if r'.qualifiedName = p.table then a.maskedColumns dialect (r'.tableId lower) else []) =
            a.maskedColumns dialect (r.tableId lower) ∨
          (if r'.qualifiedName = p.table then a.maskedColumns dialect (r'.tableId lower) else []) =
            [] := by
      by_cases hname' : r'.qualifiedName = p.table
      · exact .inl (by rw [if_pos hname', hsame hr' hname'])
      · exact .inr (if_neg hname')
    rw [maskFor, hmasks, find_reverse_flatMap _ _ hcopy ⟨r, hr, if_pos hname⟩, Attachment.maskOf,
      Attachment.maskedColumns, ← map_reverse, find?_map, Option.map_map]
    rfl
  · rw [hmasks, flatMap_eq_nil_iff]
    constructor
    · intro h
      have hnil := h r hr
      rw [if_pos hname, Attachment.maskedColumns, map_eq_nil_iff] at hnil
      exact hnil
    · intro h r' hr'
      by_cases hname' : r'.qualifiedName = p.table
      · rw [if_pos hname', hsame hr' hname', Attachment.maskedColumns, h, map_nil]
      · exact if_neg hname'

theorem exists_requested {p : TablePolicy} (hp : p ∈ policies) :
    ∃ r ∈ requested, r.qualifiedName = p.table := by
  rcases (hgrouped.mem_iff p.table).1 (mem_map_of_mem hp) with h | h
  · obtain ⟨r, hr, hname, -⟩ := mem_fst_flatMap.1 h
    exact ⟨r, hr, hname⟩
  · obtain ⟨r, hr, hname, -⟩ := mem_fst_flatMap.1 h
    exact ⟨r, hr, hname⟩

theorem exists_policy {r : AccessResource} (hr : r ∈ requested)
    (h : ¬ a.Nothing (r.tableId lower)) : ∃ p ∈ policies, p.table = r.qualifiedName := by
  have hmem : r.qualifiedName ∈ policies.map (·.table) := by
    rw [hgrouped.mem_iff, mem_fst_flatMap, mem_fst_flatMap]
    by_cases hfilters : a.conditions (r.tableId lower) = []
    · refine .inr ⟨r, hr, rfl, fun hmasks => h ⟨hfilters, ?_⟩⟩
      rwa [Attachment.maskedColumns, map_eq_nil_iff] at hmasks
    · exact .inl ⟨r, hr, rfl, hfilters⟩
  obtain ⟨p, hp, htable⟩ := mem_map.1 hmem
  exact ⟨p, hp, htable⟩

end

theorem carries_of_restrict {schema : List (String × List String)}
    {parseError : String → Option String} {clauses : SelectClauses} {sole : Bool} {p : TablePolicy}
    {t : TableRef} {scan : Scan} {id : TableId} (hp : HoldsFor lower a dialect id p)
    (h : restrict lower schema parseError clauses sole p t = .ok scan) :
    a.Carries lower dialect id t scan := by
  unfold restrict at h
  dsimp only at h
  split at h
  · cases h
  · rename_i projection hprojection
    split at h
    · cases h
    · cases h
      refine ⟨rfl, rfl, fun f => by rw [mem_filter, hp.filters], ?_⟩
      by_cases hmasks : p.maskedColumns = []
      · rw [if_pos (by rw [hmasks]; rfl)] at hprojection
        cases hprojection
        exact hp.unmasked.1 hmasks
      · rw [if_neg (by simpa using hmasks)] at hprojection
        split at hprojection
        · cases hprojection
        · cases hprojection
        · cases hprojection
          refine ⟨fun hnone => hmasks (hp.unmasked.2 hnone), fun c hc => ?_⟩
          obtain ⟨column, -, rfl⟩ := mem_map.1 hc
          exact hp.masks column

variable (lower) in
/-- The resource is one whose policy a scan of `t` falls back to: for a scan with a schema, one
named like the table alone, for a scan without, one whose name ends in the table's. -/
def StandsFor (r : AccessResource) (t : TableRef) : Prop :=
  if t.db = "" then
    '.' ∈ (lower r.qualifiedName).toList ∧ afterLastDot (lower r.qualifiedName) = lower t.name
  else lower r.qualifiedName = lower t.name

def ExtractedResource.asked (r : ExtractedResource) : AccessResource :=
  ⟨r.kind, r.catalog, r.schema, r.table, r.columns, r.value⟩

theorem orNone_recase (q : Qualification lower) (s : String) :
    (orNone (q.recase s)).map lower = (orNone s).map lower := by
  unfold orNone
  by_cases hs : s = ""
  · rw [if_pos hs, if_pos ((q.recase_eq_empty s).2 hs)]
  · rw [if_neg hs, if_neg (mt (q.recase_eq_empty s).1 hs), Option.map_some, Option.map_some,
      q.lower_recase]

theorem tableId_asked (q : Option (Qualification lower)) (t : TableRef) :
    (resourceOf lower q (qualifiedTable lower q t)).asked.tableId lower = t.tableId lower := by
  cases q with
  | none => rfl
  | some q =>
    change ((orNone (q.recase t.catalog)).map lower, (orNone (q.recase t.db)).map lower,
      lower (q.recase t.name)) = _
    rw [orNone_recase, orNone_recase, q.lower_recase]
    rfl

theorem lower_qualifiedName_asked
    (hlower : ∀ s s', lower (s ++ "." ++ s') = lower s ++ "." ++ lower s')
    (q : Option (Qualification lower)) (t : TableRef) :
    lower (resourceOf lower q (qualifiedTable lower q t)).asked.qualifiedName =
      lower t.qualified := by
  have hname (db name : String) :
      (orNone db).elim name (· ++ "." ++ name) = if db = "" then name else db ++ "." ++ name := by
    unfold orNone
    by_cases hdb : db = ""
    · rw [if_pos hdb, if_pos hdb]
      rfl
    · rw [if_neg hdb, if_neg hdb]
      rfl
  cases q with
  | none =>
    change lower ((orNone t.db).elim t.name (· ++ "." ++ t.name)) = _
    rw [hname, TableRef.qualified]
  | some q =>
    change lower ((orNone (q.recase t.db)).elim (q.recase t.name) (· ++ "." ++ q.recase t.name)) = _
    rw [hname, TableRef.qualified]
    by_cases hdb : t.db = ""
    · rw [if_pos hdb, if_pos ((q.recase_eq_empty _).2 hdb), q.lower_recase]
    · rw [if_neg hdb, if_neg (mt (q.recase_eq_empty _).1 hdb), hlower, hlower, q.lower_recase,
        q.lower_recase]

variable (lower a dialect) in
/-- The scan carries what is attached to its table, or, if that is nothing, what is attached to the
only resource with an attachment that stands for its name. -/
def Scanned (requested : List AccessResource) (t : TableRef) (scan : Scan) : Prop :=
  a.Carries lower dialect (t.tableId lower) t scan ∨
    a.Nothing (t.tableId lower) ∧
      ∃ r ∈ requested, StandsFor lower r t ∧ a.Carries lower dialect (r.tableId lower) t scan ∧
        ∀ r' ∈ requested, StandsFor lower r' t →
          a.Nothing (r'.tableId lower) ∨ r'.tableId lower = r.tableId lower

section
variable {requested : List AccessResource} {policies : List TablePolicy}
  (hgrouped : Grouped
    (requested.flatMap fun r => (a.conditions (r.tableId lower)).map (r.qualifiedName, ·))
    (requested.flatMap fun r =>
      (a.maskedColumns dialect (r.tableId lower)).map (r.qualifiedName, ·)) policies)
include hgrouped

theorem nothing_of_not_mem {r : AccessResource} (hr : r ∈ requested)
    (h : ∀ p ∈ policies, lower p.table ≠ lower r.qualifiedName) : a.Nothing (r.tableId lower) := by
  by_contra hsome
  obtain ⟨p, hp, htable⟩ := exists_policy hgrouped hr hsome
  exact h p hp (by rw [htable])

theorem scanned_of_rewriteScan (hdistinct : DistinctNames lower requested)
    {schema : List (String × List String)} {parseError : String → Option String}
    {policies' : List TablePolicy} (hperm : policies'.Perm policies) {ctes : List String}
    {clauses : SelectClauses} {n : Nat} {t : TableRef} {scan : Scan} {r : AccessResource}
    (hr : r ∈ requested) (hid : r.tableId lower = t.tableId lower)
    (hkey : lower r.qualifiedName = lower t.qualified)
    (hscan : rewriteScan lower schema parseError policies' ctes clauses n t = .ok scan)
    (hname : t.name ≠ "") (htaken : takenForCte lower ctes t = false) :
    Scanned lower a dialect requested t scan := by
  have hown (h : ∀ p ∈ policies', lower p.table ≠ lower t.qualified) :
      a.Nothing (t.tableId lower) := by
    rw [← hid]
    exact nothing_of_not_mem hgrouped hr fun p hp => hkey ▸ h p (hperm.mem_iff.2 hp)
  rw [rewriteScan, if_neg (by simp [hname, htaken])] at hscan
  split at hscan
  · cases hscan
  · rename_i hfind
    cases hscan
    exact .inl ⟨rfl, hown fun p hp heq => findPolicy_eq_none hfind hp (.inl heq)⟩
  · rename_i p hfind
    obtain ⟨hp', hcase⟩ := findPolicy_cases hfind
    have hp := hperm.mem_iff.1 hp'
    obtain ⟨s, hs, hsname⟩ := exists_requested hgrouped hp
    have hcarries := carries_of_restrict (holdsFor_of_mem hgrouped hdistinct hp hs hsname) hscan
    rcases hcase with hqualified | ⟨hnone, hfallback⟩
    · have hsame : s.tableId lower = t.tableId lower :=
        (hdistinct s hs r hr (by rw [hsname, hqualified, hkey])).trans hid
      exact .inl (hsame ▸ hcarries)
    · refine .inr ⟨hown hnone, s, hs, ?_, hcarries, fun s' hs' hstands => ?_⟩
      · unfold StandsFor
        rcases hfallback with ⟨hdb, hbare⟩ | ⟨hdb, hcands⟩
        · rw [if_neg hdb, hsname, hbare]
        · have hmem : p ∈ qualifiedByBare lower policies' (lower t.name) := by simp [hcands]
          rw [if_pos hdb, hsname]
          simpa using (mem_filter.1 hmem).2
      · by_cases hsome : a.Nothing (s'.tableId lower)
        · exact .inl hsome
        obtain ⟨p₂, hp₂, hname₂⟩ := exists_policy hgrouped hs' hsome
        refine .inr (hdistinct s' hs' s hs ?_)
        unfold StandsFor at hstands
        rcases hfallback with ⟨hdb, hbare⟩ | ⟨hdb, hcands⟩
        · rw [if_neg hdb] at hstands
          rw [hstands, hsname, hbare]
        · rw [if_pos hdb, ← hname₂] at hstands
          have hmem : p₂ ∈ qualifiedByBare lower policies' (lower t.name) :=
            mem_filter.2 ⟨hperm.mem_iff.2 hp₂, by simpa using hstands⟩
          rw [hcands, mem_singleton] at hmem
          rw [hsname, ← hmem, hname₂]

end

/-- The text of a rewritten statement, with the filters its write has to respect. -/
def withWriteFilters (sa : SqlAnalysis) (dialect : SqlDialect) (scope : Option (List String))
    (sql : String) : Except String String :=
  match scope with
  | some filters => sa.applyWriteFilters dialect sql filters
  | none => .ok sql

/-- A rewrite that fails denies the statement. -/
theorem rewrite_cases (sa : SqlAnalysis) (ctx : GuardContext) (policies : List TablePolicy)
    (scope : Option (List String)) :
    (∃ reason code, ConnectionRuntime.rewrite sa ctx policies scope = .deny reason code) ∨
      ∃ scans sql, sa.rewriteTableScans ctx.dialect (ctx.schema.getD .empty) ctx.sql policies =
          .ok scans ∧ withWriteFilters sa ctx.dialect scope scans = .ok sql ∧
        ConnectionRuntime.rewrite sa ctx policies scope = .rewrite sql := by
  cases hscans : sa.rewriteTableScans ctx.dialect (ctx.schema.getD .empty) ctx.sql policies with
  | error e =>
    left
    rw [ConnectionRuntime.rewrite, hscans]
    exact ⟨_, _, rfl⟩
  | ok scans =>
    cases scope with
    | none =>
      refine .inr ⟨scans, scans, rfl, rfl, ?_⟩
      rw [ConnectionRuntime.rewrite, hscans]
      rfl
    | some filters =>
      simp only [ConnectionRuntime.rewrite, hscans, Except.bind, withWriteFilters]
      cases hsql : sa.applyWriteFilters ctx.dialect scans filters with
      | error e => exact .inl ⟨_, _, rfl⟩
      | ok sql => exact .inr ⟨scans, sql, rfl, hsql, rfl⟩

variable (lower a dialect) in
/-- What the guard's answer means for the scans of a statement. The tree of a rewritten statement
is printed and gets the filters of its target; the target itself is not touched. -/
def Enforced (tree : Statement TableRef) (requested : List AccessResource)
    (print : Statement Scan → String) (finish : String → Except String String) :
    GuardResult → Prop
  | .deny _ _ => True
  | .allow => ∀ t ∈ tree.tables, isReported lower (statementCtes lower tree) t = true →
      a.Carries lower dialect (t.tableId lower) t (.table t)
  | .rewrite sql => ∃ out : Statement Scan, finish (print out) = .ok sql ∧
      out.writeTargets = tree.writeTargets ∧
      List.Forall₂ (fun t scan => isReported lower (statementCtes lower tree) t = true →
        Scanned lower a dialect requested t scan) tree.tables out.tables
  | .warn _ => False

/-- Of a statement, query or not, in which no two different tables have the same `schema.table`
every scan carries what is attached to its table, or, if that is nothing, what is attached to the
one resource that stands for its name; or else the statement is denied. -/
theorem scans_carry_own_policy
    (hlower : ∀ s s', lower (s ++ "." ++ s') = lower s ++ "." ++ lower s')
    {conn : ConnectionRuntime} {sa : SqlAnalysis} {ctx : GuardContext}
    {schema : List (String × List String)} {parseError : String → Option String}
    {print : Statement Scan → String} {tree : Statement TableRef}
    {q : Option (Qualification lower)} {requested : List AccessResource}
    {decision : AccessDecision} (scope : Option (List String))
    (hrequested : requested = (conn.buildRequest ctx .tableSelect
      ((extractStatement lower q tree).resources.filter (!·.isWriteTarget)) none).resources)
    (hrewrite : ∀ policies, ∃ policies' : List TablePolicy, policies'.Perm policies ∧ ∃ inserted,
      sa.rewriteTableScans ctx.dialect (ctx.schema.getD .empty) ctx.sql policies =
        (rewriteStatement lower schema parseError policies' inserted tree).map print)
    (hdecides : a.Decides lower requested decision)
    (hdistinct : DistinctNames lower requested) :
    Enforced lower a ctx.dialect tree requested print (withWriteFilters sa ctx.dialect scope)
      (finishReads sa ctx scope decision) := by
  have hreported {t : TableRef} (ht : t ∈ tree.tables)
      (h : isReported lower (statementCtes lower tree) t = true) :
      ∃ r ∈ requested, r.tableId lower = t.tableId lower ∧
        lower r.qualifiedName = lower t.qualified := by
    refine ⟨_, ?_, tableId_asked q t, lower_qualifiedName_asked hlower q t⟩
    rw [hrequested, reads_extractStatement]
    exact mem_map.2 ⟨_, mem_readsAmong_iff.2 ⟨t, ht, h, rfl⟩, rfl⟩
  unfold finishReads
  split
  · trivial
  split
  · trivial
  split
  · trivial
  · rename_i policies hpolicies
    have hgrouped := hdecides.grouped hpolicies
    split_ifs with hempty
    · rw [Bool.and_eq_true, List.isEmpty_iff] at hempty
      intro t ht h
      obtain ⟨r, hr, hid, -⟩ := hreported ht h
      refine ⟨rfl, hid ▸ nothing_of_not_mem hgrouped hr ?_⟩
      rw [hempty.1]
      exact nofun
    · obtain ⟨policies', hperm, inserted, hscans⟩ := hrewrite policies
      rcases rewrite_cases sa ctx policies scope with ⟨reason, code, heq⟩ | ⟨_, sql, hok, hsql, heq⟩
      · rw [heq]
        trivial
      · obtain ⟨out, hout, rfl⟩ := Lib.exists_of_map_eq_ok (hscans ▸ hok)
        rw [heq]
        refine ⟨out, hsql, rewriteStatement_writeTargets hout, ?_⟩
        have htables := rewriteStatement_tables hout
        rw [← map_id tree.tables] at htables
        refine forall₂_of_map_left htables fun t ht scan ⟨clauses, n, hscan⟩ h => ?_
        obtain ⟨r, hr, hid, hkey⟩ := hreported ht h
        simp only [isReported, Bool.and_eq_true, Bool.not_eq_true', Bool.or_eq_false_iff,
          beq_eq_false_iff_ne] at h
        exact scanned_of_rewriteScan hgrouped hdistinct hperm hr hid hkey hscan h.1.1 h.2

end

/-! ## One name in two schemas, and in two catalogs -/

def Attachment.decision (a : Attachment) (lower : String → String)
    (requested : List AccessResource) : AccessDecision where
  resources := requested.map fun r =>
    ⟨r.qualifiedName, true, none, a.filters (r.tableId lower), a.masks (r.tableId lower)⟩

theorem Attachment.decides_decision (a : Attachment) (lower : String → String)
    (requested : List AccessResource) : a.Decides lower requested (a.decision lower requested) := by
  rw [Attachment.Decides, Attachment.decision, forall₂_map_right_iff]
  exact forall₂_same.2 fun r _ => ⟨rfl, rfl, rfl⟩

def readsOf (tree : Statement TableRef) : List AccessResource :=
  ((extractStatement asciiLower none tree).resources.filter (!·.isWriteTarget)).map
    ExtractedResource.asked

def printName (t : TableRef) : String :=
  if t.catalog = "" then t.qualified else t.catalog ++ "." ++ t.qualified

def printColumn : String × Option String → String
  | (column, none) => column
  | (column, some mask) => mask ++ " AS " ++ column

def printScan : Scan → String
  | .table t => printName t
  | .restricted t _ projection filters =>
    "(SELECT " ++ projection.elim "*" (fun cols => ", ".intercalate (cols.map printColumn)) ++
      " FROM " ++ printName t ++
      (if filters = [] then "" else " WHERE " ++ " AND ".intercalate filters) ++ ")"

def printTables (out : Statement Scan) : String :=
  String.join (out.writeTargets.map fun (t, _) => "INSERT INTO " ++ printName t ++ " ") ++
    "SELECT ssn FROM " ++ ", ".intercalate (out.tables.map printScan)

def scanAnalysis (tree : Statement TableRef) : SqlAnalysis :=
  { ordersSql with
    rewriteTableScans := fun _ _ _ policies =>
      (rewriteStatement asciiLower [] (fun _ => none) policies (fun _ => []) tree).map printTables }

def scanContext : GuardContext where
  sql := "SELECT ssn FROM orders"
  originalSql := none
  dialect := .trino
  engineType := .trino
  clusterGroup := "default"
  user := some "alice"
  groups := []
  roles := []
  attributes := fun _ => none
  agentContext := none
  queryTags := fun _ => none
  sessionExtra := fun _ => none
  schema := none

def answerOn (tree : Statement TableRef) (a : Attachment) : GuardResult :=
  ConnectionRuntime.finishReads (scanAnalysis tree) scanContext none
    (a.decision asciiLower (readsOf tree))

theorem asciiLower_dot (s s' : String) :
    asciiLower (s ++ "." ++ s') = asciiLower s ++ "." ++ asciiLower s' := by
  apply String.toList_inj.1
  simp [asciiLower, toAsciiLowercase]

def ordersOf (catalog db : String) : TableRef := ⟨catalog, db, "orders", ""⟩

def bothTables (t t' : TableRef) : Query TableRef :=
  .select ⟨[.expression], [⟨"", "ssn"⟩]⟩ (.table t (.table t' .nil))

def insertInto (target : TableRef) (q : Query TableRef) : Statement TableRef :=
  .command ⟨[(target, .table)], .all, true, false, none, .nil, .subquery q .nil, [⟨"", "ssn"⟩]⟩

def bareOnly : Attachment where
  filters := fun id => if id = (none, none, "orders") then [⟨some "region = 'eu'", none⟩] else []
  masks := fun _ => []

def byCatalog : Attachment where
  filters := fun _ => []
  masks := fun id => [⟨"ssn", if id.1 = some "a" then .null else .showLast4, none, none⟩]

/-- The orders of both schemas, copied into one of them. -/
def copyOrders : Statement TableRef :=
  insertInto (ordersOf "" "hr") (bothTables (ordersOf "" "hr") (ordersOf "" ""))

/-- Into a table that is also read: the target stays, and both scans get the filter of the bare
name. -/
theorem scans_carry_own_policy_bareOnly :
    answerOn copyOrders bareOnly =
        .rewrite ("INSERT INTO hr.orders SELECT ssn FROM (SELECT * FROM hr.orders WHERE " ++
          "region = 'eu'), (SELECT * FROM orders WHERE region = 'eu')") ∧
      Enforced asciiLower bareOnly .trino copyOrders (readsOf copyOrders) printTables
        (withWriteFilters (scanAnalysis copyOrders) .trino none)
        (answerOn copyOrders bareOnly) := by
  have hrequested : readsOf copyOrders = (selectOnly.buildRequest scanContext .tableSelect
      ((extractStatement asciiLower none copyOrders).resources.filter (!·.isWriteTarget))
        none).resources := rfl
  have hdistinct : DistinctNames asciiLower (readsOf copyOrders) := by
    unfold DistinctNames
    decide +kernel
  exact ⟨by decide +kernel, scans_carry_own_policy asciiLower_dot none hrequested
    (fun policies => ⟨policies, .refl _, fun _ => [], rfl⟩) (bareOnly.decides_decision _ _)
    hdistinct⟩

/-- A filter on `orders` alone ends up on `hr.orders` too. Of the tables `hr.orders` in two catalogs
the one gets the mask of the other. -/
theorem foreign_policy_carried :
    (answerOn (.query (bothTables (ordersOf "" "hr") (ordersOf "" ""))) bareOnly =
        .rewrite ("SELECT ssn FROM (SELECT * FROM hr.orders WHERE region = 'eu'), " ++
          "(SELECT * FROM orders WHERE region = 'eu')") ∧
      bareOnly.Nothing ((ordersOf "" "hr").tableId asciiLower)) ∧
    answerOn (.query (bothTables (ordersOf "a" "hr") (ordersOf "b" "hr"))) byCatalog =
        .rewrite ("SELECT ssn FROM (SELECT CASE WHEN ssn IS NULL THEN NULL ELSE '****' || " ++
          "substr(ssn, -4) END AS ssn FROM a.hr.orders), (SELECT CASE WHEN ssn IS NULL THEN " ++
          "NULL ELSE '****' || substr(ssn, -4) END AS ssn FROM b.hr.orders)") ∧
      byCatalog.maskOf asciiLower .trino ((ordersOf "a" "hr").tableId asciiLower) "ssn" =
        some "NULL" := by
  refine ⟨⟨by decide +kernel, ?_⟩, by decide +kernel, by decide +kernel⟩
  unfold Attachment.Nothing
  decide +kernel

end QueryFlux.Access
