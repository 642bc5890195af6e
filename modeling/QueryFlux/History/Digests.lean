import Mathlib.Algebra.Order.BigOperators.Group.List
import Mathlib.Algebra.Order.Group.Nat
import Mathlib.Algebra.Order.Ring.Int
import Mathlib.Data.List.Sort
import QueryFlux.Lib.Rows

/-!
# Query records and their digests

`insert_query_records` of `history_batch.rs`. A batch is stored in chunks, each in a transaction of
its own: the records that are new, and for each parameterized hash one upsert of what these records
add to its digest (`foldDigests`). A chunk whose data Postgres rejects is stored again record by
record; any other failure ends the call.

The digest of a hash should be what upserting its stored records one at a time would have made it.
It is, for any batches, duplicates, retries, rejections and failures, as long as the execution times
and the row counts of one hash in one batch add up within 63 bits (`digests_match`). They are added
up by the proxy before Postgres sees them, and there the sum wraps around
(`wrapped_sum_stored`), where the upserts one at a time end with an error.
-/

namespace QueryFlux.History

open Lib List

/-! ## Digests -/

/-- The value of 64 bits read as `i64`, which `as i64` and an addition of a release build keep. -/
def wrap64 (x : Int) : Int := Int.bmod x (2 ^ 64)

def isBigint (x : Int) : Bool := -2 ^ 63 ≤ x && x < 2 ^ 63

theorem wrap64_of_isBigint {x : Int} (h : isBigint x = true) : wrap64 x = x := by
  simp only [isBigint, Bool.and_eq_true, decide_eq_true_eq] at h
  apply Int.bmod_eq_of_le
  · simpa using h.1
  · simpa using h.2

structure QueryRecord where
  proxyQueryId : String
  queryParameterizedHash : Option Int
  digestText : Option String
  translatedQueryHash : Option Int
  translatedDigestText : Option String
  createdAt : Nat
  executionDurationMs : UInt64
  rowsReturned : Option UInt64
  clusterGroup : String
  deriving DecidableEq

/-- A row of the statistics, and the delta that a chunk adds to it. -/
structure Digest where
  hash : Int
  digestText : String
  translatedQueryHash : Option Int
  translatedDigestText : Option String
  firstSeen : Nat
  lastSeen : Nat
  callCount : Int
  sumExecutionMs : Int
  sumRowsReturned : Int
  clusterGroup : String
  deriving DecidableEq

def QueryRecord.digest (r : QueryRecord) (hash : Int) : Digest where
  hash := hash
  digestText := r.digestText.getD ""
  translatedQueryHash := r.translatedQueryHash
  translatedDigestText := r.translatedDigestText
  firstSeen := r.createdAt
  lastSeen := r.createdAt
  callCount := 1
  sumExecutionMs := wrap64 r.executionDurationMs.toNat
  sumRowsReturned := (r.rowsReturned.map fun v => wrap64 v.toNat).getD 0
  clusterGroup := r.clusterGroup

/-- Texts are kept from the first that has them; the counters are added. -/
def Digest.absorb (plus : Int → Int → Int) (d next : Digest) : Digest where
  hash := d.hash
  digestText := if d.digestText.isEmpty then next.digestText else d.digestText
  translatedQueryHash := d.translatedQueryHash
  translatedDigestText := d.translatedDigestText.or next.translatedDigestText
  firstSeen := d.firstSeen
  lastSeen := next.lastSeen
  callCount := plus d.callCount next.callCount
  sumExecutionMs := plus d.sumExecutionMs next.sumExecutionMs
  sumRowsReturned := plus d.sumRowsReturned next.sumRowsReturned
  clusterGroup := next.clusterGroup

def foldRecord (byHash : List Digest) (r : QueryRecord) : List Digest :=
  match r.queryParameterizedHash with
  | none => byHash
  | some hash =>
    upsert Digest.hash (r.digest hash)
      (fun d => d.absorb (fun x y => wrap64 (x + y)) (r.digest hash)) byHash

def foldDigests (records : List QueryRecord) : List Digest :=
  (records.foldl foldRecord []).insertionSort fun d e => d.hash ≤ e.hash

/-! ## Inserting -/

structure Tables where
  queryRecords : List QueryRecord
  queryDigestStats : List Digest
  deriving DecidableEq

def Digest.fits (d : Digest) : Bool :=
  isBigint d.callCount && isBigint d.sumExecutionMs && isBigint d.sumRowsReturned

def addToRow (row : Option Digest) (d : Digest) : Option Digest :=
  match row with
  | none => some d
  | some row =>
    let added := row.absorb (· + ·) d
    if added.fits then some added else none

/-- The statement fails if a counter would leave the range of the column. -/
def upsertDigest (rows : List Digest) (d : Digest) : Option (List Digest) :=
  (addToRow (rows.find? (·.hash = d.hash)) d).map fun added =>
    upsert Digest.hash added (fun _ => added) rows

def upsertDigests (rows deltas : List Digest) : Option (List Digest) :=
  deltas.foldlM upsertDigest rows

inductive Attempt
  | commits
  -- it refuses the data
  | rejects
  -- any other failure; the transaction is rolled back
  | fails
  deriving DecidableEq

inductive ChunkResult
  | stored (n : Nat)
  | rejected
  | failed
  deriving DecidableEq

structure Session where
  tables : Tables
  attempts : List Attempt

/-- One transaction: the new records, and the deltas of these. -/
def insertChunk (s : Session) (chunk : List QueryRecord) : Session × ChunkResult :=
  if chunk.isEmpty then (s, .stored 0)
  else
    let s' : Session := { s with attempts := s.attempts.tail }
    match s.attempts.headD .commits with
    | .rejects => (s', .rejected)
    | .fails => (s', .failed)
    | .commits =>
      let new := inserted QueryRecord.proxyQueryId s.tables.queryRecords chunk
      let newIds := new.map QueryRecord.proxyQueryId
      let deltas := foldDigests (chunk.filter fun r => newIds.contains r.proxyQueryId)
      match upsertDigests s.tables.queryDigestStats deltas with
      -- a sum is out of range: a data exception
      | none => (s', .rejected)
      | some rows =>
        ({ s' with tables := ⟨s.tables.queryRecords ++ new, rows⟩ }, .stored new.length)

/-- The retry of a rejected chunk: what is still rejected is dropped. -/
def insertEach (s : Session) : List QueryRecord → Session × Option Nat
  | [] => (s, some 0)
  | r :: rest =>
    match insertChunk s [r] with
    | (s', .stored n) =>
      let (s'', total) := insertEach s' rest
      (s'', total.map (n + ·))
    | (s', .rejected) => insertEach s' rest
    | (s', .failed) => (s', none)

def insertChunks (s : Session) : List (List QueryRecord) → Session × Option Nat
  | [] => (s, some 0)
  | chunk :: rest =>
    match insertChunk s chunk with
    | (s', .stored n) =>
      let (s'', total) := insertChunks s' rest
      (s'', total.map (n + ·))
    | (s', .rejected) =>
      match insertEach s' chunk with
      | (s'', some n) =>
        let (last, total) := insertChunks s'' rest
        (last, total.map (n + ·))
      | (s'', none) => (s'', none)
    | (s', .failed) => (s', none)

def maxRecordsPerStatement : Nat := 1000

/-- `chunks`, with the number of records as fuel. -/
def chunksOf {α : Type} (n : Nat) : Nat → List α → List (List α)
  | 0, _ => []
  | _, [] => []
  | fuel + 1, l => l.take n :: chunksOf n fuel (l.drop n)

def dedupeFirst (records : List QueryRecord) : List QueryRecord :=
  inserted QueryRecord.proxyQueryId [] records

/-- Store a batch. The number of new records, or none if it ended with an error. -/
def insertQueryRecords (s : Session) (records : List QueryRecord) : Session × Option Nat :=
  let records := dedupeFirst records
  insertChunks s (chunksOf maxRecordsPerStatement records.length records)

def ingest (s : Session) (batches : List (List QueryRecord)) : Session :=
  batches.foldl (fun s batch => (insertQueryRecords s batch).1) s

/-! ## One record at a time -/

def digestsOf (h : Int) (records : List QueryRecord) : List Digest :=
  records.filterMap fun r => if r.queryParameterizedHash = some h then some (r.digest h) else none

def addRecord (row : Option Digest) (d : Digest) : Option (Option Digest) :=
  (addToRow row d).map some

/-- The row of a hash after upserting its records one at a time; none if one of them is an error. -/
def oneAtATime (h : Int) (records : List QueryRecord) : Option (Option Digest) :=
  (digestsOf h records).foldlM addRecord none

def Tables.digest (t : Tables) (h : Int) : Option Digest :=
  t.queryDigestStats.find? (·.hash = h)

/-- The execution times and row counts of one hash add up within 63 bits. -/
def AddsUp (records : List QueryRecord) : Prop :=
  ∀ h, ((records.filter (·.queryParameterizedHash = some h)).map
      (·.executionDurationMs.toNat)).sum < 2 ^ 63 ∧
    ((records.filter (·.queryParameterizedHash = some h)).map
      fun r => (r.rowsReturned.map UInt64.toNat).getD 0).sum < 2 ^ 63

section Absorb

theorem absorb_assoc (a b c : Digest) :
    (a.absorb (· + ·) b).absorb (· + ·) c = a.absorb (· + ·) (b.absorb (· + ·) c) := by
  simp only [Digest.absorb, Digest.mk.injEq, Int.add_assoc, Option.or_assoc, and_true, true_and]
  by_cases ha : a.digestText.isEmpty = true <;> simp [ha]

theorem absorb_foldl (row d : Digest) (ds : List Digest) :
    row.absorb (· + ·) (ds.foldl (Digest.absorb (· + ·)) d) =
      ds.foldl (Digest.absorb (· + ·)) (row.absorb (· + ·) d) := by
  induction ds generalizing d with
  | nil => rfl
  | cons _ _ ih => rw [foldl_cons, foldl_cons, ih, absorb_assoc]

def counters : List (Digest → Int) :=
  [Digest.callCount, Digest.sumExecutionMs, Digest.sumRowsReturned]

theorem forall_counters {P : (Digest → Int) → Prop} (hcount : P Digest.callCount)
    (hexecution : P Digest.sumExecutionMs) (hrows : P Digest.sumRowsReturned) :
    ∀ f ∈ counters, P f := by
  intro f hf
  simp only [counters, mem_cons, not_mem_nil, or_false] at hf
  rcases hf with rfl | rfl | rfl
  · exact hcount
  · exact hexecution
  · exact hrows

theorem counter_absorb (plus : Int → Int → Int) (d e : Digest) :
    ∀ f ∈ counters, f (d.absorb plus e) = plus (f d) (f e) := by
  apply forall_counters
  · rfl
  · rfl
  · rfl

theorem fits_iff {d : Digest} : d.fits = true ↔ ∀ f ∈ counters, isBigint (f d) = true := by
  simp [Digest.fits, counters, and_assoc]

theorem absorb_congr {plus plus' : Int → Int → Int} {d e : Digest}
    (h : ∀ f ∈ counters, plus (f d) (f e) = plus' (f d) (f e)) :
    d.absorb plus e = d.absorb plus' e := by
  simp only [Digest.absorb, Digest.mk.injEq, true_and, and_true]
  refine ⟨h _ ?_, h _ ?_, h _ ?_⟩
  all_goals simp [counters]

theorem counter_foldl {f : Digest → Int} (hf : f ∈ counters) (d : Digest) (ds : List Digest) :
    f (ds.foldl (Digest.absorb (· + ·)) d) = f d + (ds.map f).sum := by
  induction ds generalizing d with
  | nil => simp
  | cons e _ ih =>
    rw [foldl_cons, ih, counter_absorb _ d e f hf, map_cons, sum_cons]
    omega

def Nonneg (ds : List Digest) : Prop := ∀ d ∈ ds, ∀ f ∈ counters, 0 ≤ f d

variable {ds : List Digest}

theorem Nonneg.sum_nonneg (h : Nonneg ds) {f : Digest → Int} (hf : f ∈ counters) :
    0 ≤ (ds.map f).sum := by
  induction ds with
  | nil => simp
  | cons d _ ih =>
    rw [map_cons, sum_cons]
    have hd := h d (.head _) f hf
    have hrest := ih fun e he => h e (.tail _ he)
    omega

theorem isBigint_iff {x : Int} : isBigint x = true ↔ -2 ^ 63 ≤ x ∧ x < 2 ^ 63 := by
  simp [isBigint]

theorem foldl_wrap64 {d : Digest} (hnonneg : Nonneg (d :: ds))
    (hsum : ∀ f ∈ counters, f d + (ds.map f).sum < 2 ^ 63) :
    ds.foldl (Digest.absorb fun x y => wrap64 (x + y)) d =
      ds.foldl (Digest.absorb (· + ·)) d := by
  induction ds generalizing d with
  | nil => rfl
  | cons e ds ih =>
    have hd := hnonneg d (.head _)
    have he := hnonneg e (.tail _ (.head _))
    have hds : Nonneg ds := fun x hx =>
      hnonneg x (.tail _ (.tail _ hx))
    have hone : d.absorb (fun x y => wrap64 (x + y)) e = d.absorb (· + ·) e := by
      apply absorb_congr
      intro f hf
      have hlt := hsum f hf
      have hrest := hds.sum_nonneg hf
      rw [map_cons, sum_cons] at hlt
      apply wrap64_of_isBigint
      rw [isBigint_iff]
      have := hd f hf
      have := he f hf
      omega
    rw [foldl_cons, foldl_cons, hone]
    apply ih
    · intro x hx f hf
      rcases mem_cons.1 hx with rfl | hx
      · rw [counter_absorb _ d e f hf]
        have := hd f hf
        have := he f hf
        omega
      · exact hds x hx f hf
    · intro f hf
      have hlt := hsum f hf
      rw [map_cons, sum_cons] at hlt
      rw [counter_absorb _ d e f hf]
      omega

theorem foldlM_addRecord {row : Digest} (hrow : row.fits = true) (hnonneg : Nonneg ds)
    (hfits : (ds.foldl (Digest.absorb (· + ·)) row).fits = true) :
    ds.foldlM addRecord (some row) = some (some (ds.foldl (Digest.absorb (· + ·)) row)) := by
  induction ds generalizing row with
  | nil => rfl
  | cons d ds ih =>
    have hds : Nonneg ds := fun x hx => hnonneg x (.tail _ hx)
    rw [foldl_cons] at hfits
    have hnext : (row.absorb (· + ·) d).fits = true := by
      rw [fits_iff] at hrow hfits ⊢
      intro f hf
      have hlow := isBigint_iff.1 (hrow f hf)
      have hhigh := isBigint_iff.1 (hfits f hf)
      rw [counter_foldl hf, counter_absorb _ row d f hf] at hhigh
      rw [counter_absorb _ row d f hf, isBigint_iff]
      have hd := hnonneg d (.head _) f hf
      have hrest := hds.sum_nonneg hf
      omega
    rw [foldlM_cons, foldl_cons]
    simp only [addRecord, addToRow, hnext, if_true, Option.map_some, Option.bind_eq_bind,
      Option.bind_some]
    exact ih hnext hds hfits

end Absorb

/-! ## The deltas of a chunk -/

section Deltas

def absorbInto (plus : Int → Int → Int) (o : Option Digest) (d : Digest) : Option Digest :=
  some ((o.map fun e => e.absorb plus d).getD d)

theorem foldl_absorbInto (plus : Int → Int → Int) (d : Digest) (ds : List Digest) :
    ds.foldl (absorbInto plus) (some d) = some (ds.foldl (Digest.absorb plus) d) := by
  induction ds generalizing d with
  | nil => rfl
  | cons e _ ih => exact ih (d.absorb plus e)

theorem find?_foldRecord (byHash : List Digest) (r : QueryRecord) (h : Int) :
    (foldRecord byHash r).find? (·.hash = h) =
      (digestsOf h [r]).foldl (absorbInto fun x y => wrap64 (x + y))
        (byHash.find? (·.hash = h)) := by
  unfold foldRecord digestsOf
  cases hr : r.queryParameterizedHash with
  | none => simp [hr]
  | some hash =>
    have hkey : (r.digest hash).hash = hash := rfl
    rw [find?_upsert (by intro x _; rfl), hkey]
    by_cases hh : hash = h
    · subst hh
      simp [hr, absorbInto]
    · simp [hr, hh]

theorem digestsOf_append (h : Int) (records records' : List QueryRecord) :
    digestsOf h (records ++ records') = digestsOf h records ++ digestsOf h records' :=
  filterMap_append

variable (records : List QueryRecord)

theorem find?_foldl_foldRecord (byHash : List Digest) (h : Int) :
    (records.foldl foldRecord byHash).find? (·.hash = h) =
      (digestsOf h records).foldl (absorbInto fun x y => wrap64 (x + y))
        (byHash.find? (·.hash = h)) := by
  induction records generalizing byHash with
  | nil => rfl
  | cons r records ih =>
    have happend : digestsOf h (r :: records) = digestsOf h [r] ++ digestsOf h records :=
      digestsOf_append h [r] records
    rw [foldl_cons, ih, find?_foldRecord, happend, foldl_append]

theorem keyed_foldRecord {byHash : List Digest} (h : Keyed Digest.hash byHash) :
    Keyed Digest.hash (records.foldl foldRecord byHash) := by
  induction records generalizing byHash with
  | nil => exact h
  | cons _ _ ih =>
    apply ih
    unfold foldRecord
    split
    · exact h
    · exact h.upsert (by intro x; rfl)

theorem keyed_foldDigests : Keyed Digest.hash (foldDigests records) := by
  have hkeyed : Keyed Digest.hash (records.foldl foldRecord []) :=
    keyed_foldRecord records nodup_nil
  exact ((perm_insertionSort _ _).map Digest.hash).nodup_iff.2 hkeyed

theorem find?_foldDigests (h : Int) : (foldDigests records).find? (·.hash = h) =
      (digestsOf h records).foldl (absorbInto fun x y => wrap64 (x + y)) none := by
  have hkeyed : Keyed Digest.hash (records.foldl foldRecord []) :=
    keyed_foldRecord records nodup_nil
  rw [foldDigests, hkeyed.find?_eq_of_perm (perm_insertionSort _ _).symm,
    find?_foldl_foldRecord]
  rfl

variable {records}

theorem addToRow_hash {row : Option Digest} {d added : Digest}
    (hrow : ∀ e ∈ row, e.hash = d.hash) (h : addToRow row d = some added) :
    added.hash = d.hash := by
  cases row with
  | none => rw [← Option.some.inj h]
  | some e =>
    simp only [addToRow] at h
    split at h
    · rw [← Option.some.inj h]
      exact hrow e rfl
    · cases h

def Landed (row : Option Digest) (delta : Option Digest) (row' : Option Digest) : Prop :=
  match delta with
  | some d => ∃ added, addToRow row d = some added ∧ row' = some added
  | none => row' = row

theorem find?_upsertDigest {rows rows' : List Digest} {d : Digest}
    (h : upsertDigest rows d = some rows') (k : Int) :
    Landed (rows.find? (·.hash = k)) (if d.hash = k then some d else none)
      (rows'.find? (·.hash = k)) := by
  obtain ⟨added, hadded, rfl⟩ := Option.map_eq_some_iff.1 h
  have hhash : added.hash = d.hash := by
    refine addToRow_hash ?_ hadded
    intro e he
    simpa using find?_some he
  have hfind : (upsert Digest.hash added (fun _ => added) rows).find? (·.hash = k) = _ :=
    find?_upsert (by intro x hx; exact hx.symm) rows k
  rw [hhash] at hfind
  split_ifs with hk
  · subst hk
    refine ⟨added, hadded, ?_⟩
    rw [hfind, if_pos rfl]
    cases rows.find? (·.hash = d.hash) with
    | none => rfl
    | some => rfl
  · rw [hfind, if_neg hk]
    rfl

theorem find?_upsertDigests {deltas : List Digest} (hkeyed : Keyed Digest.hash deltas) (k : Int) :
    ∀ {rows rows' : List Digest}, upsertDigests rows deltas = some rows' →
      Landed (rows.find? (·.hash = k)) (deltas.find? (·.hash = k)) (rows'.find? (·.hash = k)) := by
  induction deltas with
  | nil =>
    intro rows rows' h
    cases h
    rfl
  | cons d deltas ih =>
    intro rows rows' h
    obtain ⟨hd, hrest⟩ := nodup_cons.1 hkeyed
    obtain ⟨rows1, hrows1, h⟩ := Option.bind_eq_some_iff.1 h
    have hone := find?_upsertDigest hrows1 k
    have hothers := ih hrest h
    by_cases hk : d.hash = k
    · have hnone : deltas.find? (·.hash = k) = none := by
        rw [find?_eq_none]
        intro e he hek
        have hek : e.hash = d.hash := (of_decide_eq_true hek).trans hk.symm
        exact hd (hek ▸ mem_map_of_mem he)
      rw [hnone] at hothers
      rw [if_pos hk] at hone
      rw [find?_cons_of_pos (by simpa using hk)]
      obtain ⟨added, hadded, hfound⟩ := hone
      exact ⟨added, hadded, hothers.trans hfound⟩
    · rw [if_neg hk] at hone
      rw [find?_cons_of_neg (by simpa using hk)]
      rw [hone] at hothers
      exact hothers

end Deltas

/-- The statistics are what the stored records give one at a time. -/
def Matching (t : Tables) : Prop := ∀ h, oneAtATime h t.queryRecords = some (t.digest h)

section Chunk

variable {records : List QueryRecord}

theorem isBigint_wrap64 (x : Int) : isBigint (wrap64 x) = true := by
  have hlow := @Int.le_bmod x (2 ^ 64) (by decide)
  have hhigh := @Int.bmod_lt x (2 ^ 64) (by decide)
  rw [isBigint_iff, wrap64]
  omega

theorem digest_fits (r : QueryRecord) (h : Int) : (r.digest h).fits = true := by
  have hrows : isBigint ((r.rowsReturned.map fun v => wrap64 v.toNat).getD 0) = true := by
    cases r.rowsReturned with
    | none => rfl
    | some => rw [Option.map_some, Option.getD_some, isBigint_wrap64]
  have hone : isBigint 1 = true := rfl
  simp [Digest.fits, QueryRecord.digest, hone, isBigint_wrap64, hrows]

theorem fits_of_mem_digestsOf {k : Int} {d : Digest} (hd : d ∈ digestsOf k records) :
    d.fits = true := by
  obtain ⟨r, -, hr⟩ := mem_filterMap.1 hd
  split at hr
  · rw [← Option.some.inj hr]
    exact digest_fits r k
  · cases hr

theorem addToRow_fits {row : Option Digest} {d added : Digest} (hd : d.fits = true)
    (h : addToRow row d = some added) : added.fits = true := by
  cases row with
  | none => rwa [← Option.some.inj h]
  | some =>
    simp only [addToRow] at h
    split at h
    · rwa [← Option.some.inj h]
    · cases h

theorem foldlM_addRecord_fits {ds : List Digest} (hds : ∀ d ∈ ds, d.fits = true) :
    ∀ {row row' : Option Digest}, (∀ e ∈ row, e.fits = true) →
      ds.foldlM addRecord row = some row' → ∀ e ∈ row', e.fits = true := by
  induction ds with
  | nil =>
    intro row row' hrow h
    rwa [← Option.some.inj h]
  | cons d _ ih =>
    intro row row' hrow h
    obtain ⟨row1, hrow1, h⟩ := Option.bind_eq_some_iff.1 h
    obtain ⟨added, hadded, rfl⟩ := Option.map_eq_some_iff.1 hrow1
    refine ih (fun e he => hds e (.tail _ he)) ?_ h
    intro e he
    rw [← Option.some.inj he]
    exact addToRow_fits (hds d (.head _)) hadded

theorem Matching.fits {t : Tables} (h : Matching t) (k : Int) :
    ∀ e ∈ t.digest k, e.fits = true := by
  refine foldlM_addRecord_fits (fun _ => fits_of_mem_digestsOf) ?_ (h k)
  nofun

theorem AddsUp.sublist {records' : List QueryRecord} (h : AddsUp records)
    (hsub : records'.Sublist records) : AddsUp records' := by
  intro k
  obtain ⟨hexecution, hrows⟩ := h k
  have hfiltered := hsub.filter (·.queryParameterizedHash = some k)
  constructor
  · apply Nat.lt_of_le_of_lt ?_ hexecution
    exact (hfiltered.map _).sum_le_sum fun _ _ => Nat.zero_le _
  · apply Nat.lt_of_le_of_lt ?_ hrows
    exact (hfiltered.map _).sum_le_sum fun _ _ => Nat.zero_le _

theorem addsUp_of_sum_lt (hexecution : (records.map (·.executionDurationMs.toNat)).sum < 2 ^ 63)
    (hrows : (records.map fun r => (r.rowsReturned.map UInt64.toNat).getD 0).sum < 2 ^ 63) :
    AddsUp records := by
  intro k
  have hsub := filter_sublist (l := records) (p := (·.queryParameterizedHash = some k))
  constructor
  · apply Nat.lt_of_le_of_lt ?_ hexecution
    exact (hsub.map _).sum_le_sum fun _ _ => Nat.zero_le _
  · apply Nat.lt_of_le_of_lt ?_ hrows
    exact (hsub.map _).sum_le_sum fun _ _ => Nat.zero_le _

theorem digestsOf_cons (h : Int) (r : QueryRecord) (records : List QueryRecord) :
    digestsOf h (r :: records) =
      if r.queryParameterizedHash = some h then r.digest h :: digestsOf h records
      else digestsOf h records := by
  by_cases hr : r.queryParameterizedHash = some h <;> simp [digestsOf, hr]

theorem length_digestsOf_le (h : Int) (records : List QueryRecord) :
    (digestsOf h records).length ≤ records.length :=
  length_filterMap_le _ _

theorem sum_callCount (h : Int) (records : List QueryRecord) :
    ((digestsOf h records).map Digest.callCount).sum = (digestsOf h records).length := by
  induction records with
  | nil => rfl
  | cons r _ ih =>
    rw [digestsOf_cons]
    split
    · rw [map_cons, sum_cons, length_cons, ih]
      have hone : (r.digest h).callCount = 1 := rfl
      omega
    · exact ih

theorem wrap64_of_lt {n : Nat} (h : n < 2 ^ 63) : wrap64 n = n := by
  apply wrap64_of_isBigint
  rw [isBigint_iff]
  omega

theorem digest_sumExecutionMs {r : QueryRecord} (h : r.executionDurationMs.toNat < 2 ^ 63)
    (k : Int) : (r.digest k).sumExecutionMs = r.executionDurationMs.toNat := by
  simp only [QueryRecord.digest]
  rw [wrap64_of_lt h]

theorem digest_sumRowsReturned {r : QueryRecord}
    (h : (r.rowsReturned.map UInt64.toNat).getD 0 < 2 ^ 63) (k : Int) :
    (r.digest k).sumRowsReturned = ((r.rowsReturned.map UInt64.toNat).getD 0 : Nat) := by
  simp only [QueryRecord.digest]
  cases hv : r.rowsReturned with
  | none => rfl
  | some =>
    rw [hv, Option.map_some, Option.getD_some] at h
    rw [Option.map_some, Option.getD_some, Option.map_some, Option.getD_some, wrap64_of_lt h]

theorem AddsUp.digests (h : AddsUp records) (k : Int) :
    Nonneg (digestsOf k records) ∧
    ((digestsOf k records).map Digest.sumExecutionMs).sum =
      ((records.filter (·.queryParameterizedHash = some k)).map
        (·.executionDurationMs.toNat)).sum ∧
    ((digestsOf k records).map Digest.sumRowsReturned).sum =
      ((records.filter (·.queryParameterizedHash = some k)).map
        fun r => (r.rowsReturned.map UInt64.toNat).getD 0).sum := by
  induction records with
  | nil =>
    refine ⟨?_, rfl, rfl⟩
    nofun
  | cons r records ih =>
    obtain ⟨hnonneg, hexecution, hrows⟩ := ih (h.sublist (sublist_cons_self r records))
    rw [digestsOf_cons]
    by_cases hr : r.queryParameterizedHash = some k
    · obtain ⟨hlt, hltRows⟩ := h k
      rw [filter_cons_of_pos (by simpa using hr)] at hlt hltRows ⊢
      rw [map_cons, sum_cons] at hlt hltRows
      have hms := digest_sumExecutionMs (r := r) (by omega) k
      have hret := digest_sumRowsReturned (r := r) (by omega) k
      rw [if_pos hr]
      refine ⟨?_, ?_, ?_⟩
      · intro d hd f hf
        rcases mem_cons.1 hd with rfl | hd
        · revert f
          apply forall_counters
          · simp only [QueryRecord.digest, zero_le_one]
          · omega
          · omega
        · exact hnonneg d hd f hf
      · rw [map_cons, sum_cons, map_cons, sum_cons, hexecution, hms]
        omega
      · rw [map_cons, sum_cons, map_cons, sum_cons, hrows, hret]
        omega
    · rw [filter_cons_of_neg (by simpa using hr), if_neg hr]
      exact ⟨hnonneg, hexecution, hrows⟩

theorem AddsUp.sum_lt (h : AddsUp records) (hlength : records.length ≤ maxRecordsPerStatement)
    (k : Int) : ∀ f ∈ counters, ((digestsOf k records).map f).sum < 2 ^ 63 := by
  obtain ⟨-, hexecution, hrows⟩ := h.digests k
  obtain ⟨hltExecution, hltRows⟩ := h k
  apply forall_counters
  · have hle := length_digestsOf_le k records
    rw [sum_callCount]
    rw [maxRecordsPerStatement] at hlength
    omega
  · omega
  · omega

theorem foldlM_of_landed (h : AddsUp records) (hlength : records.length ≤ maxRecordsPerStatement)
    {k : Int} {row row' : Option Digest} (hrow : ∀ e ∈ row, e.fits = true)
    (hlanded : Landed row ((foldDigests records).find? (·.hash = k)) row') :
    (digestsOf k records).foldlM addRecord row = some row' := by
  have hnonneg := (h.digests k).1
  have hsum := h.sum_lt hlength k
  rw [find?_foldDigests] at hlanded
  cases hds : digestsOf k records with
  | nil =>
    rw [hds] at hlanded
    exact congrArg some hlanded.symm
  | cons d ds =>
    rw [hds] at hlanded hnonneg hsum
    have hexact : ds.foldl (Digest.absorb fun x y => wrap64 (x + y)) d =
        ds.foldl (Digest.absorb (· + ·)) d := by
      apply foldl_wrap64 hnonneg
      intro f hf
      have hlt := hsum f hf
      rwa [map_cons, sum_cons] at hlt
    have hdelta : (d :: ds).foldl (absorbInto fun x y => wrap64 (x + y)) none =
        some (ds.foldl (Digest.absorb (· + ·)) d) :=
      (foldl_absorbInto _ d ds).trans (congrArg some hexact)
    rw [hdelta] at hlanded
    obtain ⟨added, hadded, rfl⟩ := hlanded
    cases row with
    | none =>
      have hd : d.fits = true := by
        apply fits_of_mem_digestsOf
        rw [hds]
        exact .head _
      have hfits : (ds.foldl (Digest.absorb (· + ·)) d).fits = true := by
        rw [fits_iff]
        intro f hf
        have hlt := hsum f hf
        have hpos := hnonneg.sum_nonneg hf
        rw [map_cons, sum_cons] at hlt hpos
        rw [counter_foldl hf, isBigint_iff]
        omega
      rw [← Option.some.inj hadded]
      exact foldlM_addRecord hd (fun e he => hnonneg e (.tail _ he)) hfits
    | some e =>
      simp only [addToRow] at hadded
      split at hadded
      · rename_i hfits
        rw [← Option.some.inj hadded]
        rw [absorb_foldl] at hfits ⊢
        exact foldlM_addRecord (hrow e rfl) hnonneg hfits
      · cases hadded

/-- A chunk: distinct records, at most a thousand, whose sums fit. -/
structure Fine (chunk : List QueryRecord) : Prop where
  keyed : Keyed QueryRecord.proxyQueryId chunk
  length_le : chunk.length ≤ maxRecordsPerStatement
  addsUp : AddsUp chunk

variable {chunk : List QueryRecord}

theorem Fine.sublist (h : Fine chunk) (hsub : records.Sublist chunk) : Fine records where
  keyed := List.Nodup.sublist (hsub.map _) h.keyed
  length_le := hsub.length_le.trans h.length_le
  addsUp := h.addsUp.sublist hsub

theorem insertChunk_tables (s : Session) (hkeyed : Keyed QueryRecord.proxyQueryId chunk) :
    (insertChunk s chunk).1.tables = s.tables ∨
    ∃ new rows, new.Sublist chunk ∧
      upsertDigests s.tables.queryDigestStats (foldDigests new) = some rows ∧
      (insertChunk s chunk).1.tables = ⟨s.tables.queryRecords ++ new, rows⟩ := by
  have hsub : (inserted QueryRecord.proxyQueryId s.tables.queryRecords chunk).Sublist chunk :=
    inserted_sublist _ _
  unfold insertChunk
  split
  · exact .inl rfl
  · simp only [hkeyed.filter_keys_of_sublist hsub]
    split
    · exact .inl rfl
    · exact .inl rfl
    · split
      · exact .inl rfl
      · rename_i rows hrows
        exact .inr ⟨_, rows, hsub, hrows, rfl⟩

theorem Matching.insertChunk {s : Session} (h : Matching s.tables) (hfine : Fine chunk) :
    Matching (insertChunk s chunk).1.tables := by
  rcases insertChunk_tables s hfine.keyed with hsame | ⟨new, rows, hsub, hrows, htables⟩
  · rwa [hsame]
  · rw [htables]
    intro k
    have hnew := hfine.sublist hsub
    have hlanded := find?_upsertDigests (keyed_foldDigests new) k hrows
    have hbefore := h k
    rw [oneAtATime] at hbefore
    rw [oneAtATime, digestsOf_append, foldlM_append, hbefore]
    exact foldlM_of_landed hnew.addsUp hnew.length_le (h.fits k) hlanded

end Chunk

/-! ## Batches -/

section Batches

variable {s : Session}

theorem Matching.insertEach (h : Matching s.tables) {records : List QueryRecord}
    (hfine : ∀ r ∈ records, Fine [r]) : Matching (insertEach s records).1.tables := by
  induction records generalizing s with
  | nil => exact h
  | cons r records ih =>
    have hrest : ∀ r' ∈ records, Fine [r'] := fun r' hr' => hfine r' (.tail _ hr')
    have hone := h.insertChunk (hfine r (.head _))
    rw [QueryFlux.History.insertEach]
    cases hc : QueryFlux.History.insertChunk s [r] with
    | mk _ result =>
      rw [hc] at hone
      cases result with
      | stored | rejected => exact ih hone hrest
      | failed => exact hone

theorem Matching.insertChunks (h : Matching s.tables) {chunks : List (List QueryRecord)}
    (hfine : ∀ c ∈ chunks, Fine c) : Matching (insertChunks s chunks).1.tables := by
  induction chunks generalizing s with
  | nil => exact h
  | cons chunk chunks ih =>
    have hrest : ∀ c ∈ chunks, Fine c := fun c hc => hfine c (.tail _ hc)
    have hchunk := hfine chunk (.head _)
    have hone := h.insertChunk hchunk
    rw [QueryFlux.History.insertChunks]
    cases hc : QueryFlux.History.insertChunk s chunk with
    | mk s' result =>
      rw [hc] at hone
      cases result with
      | stored => exact ih hone hrest
      | failed => exact hone
      | rejected =>
        have heach : Matching (QueryFlux.History.insertEach s' chunk).1.tables := by
          apply Matching.insertEach hone
          intro r hr
          exact hchunk.sublist (singleton_sublist.2 hr)
        simp only
        cases he : QueryFlux.History.insertEach s' chunk with
        | mk _ total =>
          rw [he] at heach
          cases total with
          | none => exact heach
          | some => exact ih heach hrest

theorem mem_chunksOf {α : Type} {n : Nat} {c : List α} :
    ∀ {fuel : Nat} {l : List α}, c ∈ chunksOf n fuel l → c.Sublist l ∧ c.length ≤ n := by
  intro fuel
  induction fuel with
  | zero =>
    nofun
  | succ _ ih =>
    intro l h
    cases l with
    | nil => cases h
    | cons =>
      rcases mem_cons.1 h with rfl | h
      · exact ⟨take_sublist n _, length_take_le n _⟩
      · obtain ⟨hsub, hlength⟩ := ih h
        exact ⟨hsub.trans (drop_sublist n _), hlength⟩

theorem Matching.insertQueryRecords (h : Matching s.tables) {records : List QueryRecord}
    (haddsUp : AddsUp records) : Matching (insertQueryRecords s records).1.tables := by
  have hkeyed : Keyed QueryRecord.proxyQueryId (dedupeFirst records) := by
    have hnone : Keyed QueryRecord.proxyQueryId ([] : List QueryRecord) := nodup_nil
    simpa [dedupeFirst] using hnone.append_inserted records
  have hsub : (dedupeFirst records).Sublist records := inserted_sublist _ _
  apply Matching.insertChunks h
  intro c hc
  obtain ⟨hc, hlength⟩ := mem_chunksOf hc
  exact ⟨Nodup.sublist (hc.map _) hkeyed, hlength, haddsUp.sublist (hc.trans hsub)⟩

/-- Every batch keeps the statistics in step. -/
theorem Matching.ingest (h : Matching s.tables) {batches : List (List QueryRecord)}
    (haddsUp : ∀ b ∈ batches, AddsUp b) : Matching (ingest s batches).tables := by
  induction batches generalizing s with
  | nil => exact h
  | cons b _ ih =>
    have hb := h.insertQueryRecords (haddsUp b (.head _))
    exact ih hb fun b' hb' => haddsUp b' (.tail _ hb')

theorem callCount_foldlM {ds : List Digest} :
    ∀ {row row' : Option Digest}, ds.foldlM addRecord row = some row' →
      (row'.map Digest.callCount).getD 0 =
        (row.map Digest.callCount).getD 0 + (ds.map Digest.callCount).sum := by
  induction ds with
  | nil =>
    intro row row' h
    cases h
    simp
  | cons d _ ih =>
    intro row row' h
    obtain ⟨row1, hrow1, h⟩ := Option.bind_eq_some_iff.1 h
    obtain ⟨added, hadded, rfl⟩ := Option.map_eq_some_iff.1 hrow1
    have hcount : added.callCount = (row.map Digest.callCount).getD 0 + d.callCount := by
      cases row with
      | none =>
        rw [← Option.some.inj hadded]
        simp
      | some =>
        simp only [addToRow] at hadded
        split at hadded
        · rw [← Option.some.inj hadded]
          rfl
        · cases hadded
    rw [ih h, Option.map_some, Option.getD_some, hcount, map_cons, sum_cons]
    omega

theorem length_digestsOf (h : Int) (records : List QueryRecord) :
    (digestsOf h records).length = records.countP (·.queryParameterizedHash = some h) := by
  induction records with
  | nil => rfl
  | cons r _ ih =>
    rw [digestsOf_cons, countP_cons]
    by_cases hr : r.queryParameterizedHash = some h <;> simp [hr, ih]

theorem Matching.callCount {t : Tables} (h : Matching t) (k : Int) :
    ((t.digest k).map Digest.callCount).getD 0 =
      t.queryRecords.countP (·.queryParameterizedHash = some k) := by
  rw [callCount_foldlM (h k), sum_callCount, length_digestsOf]
  simp

/-- After every list of batches whose sums fit, with any failures and retries on the way, the
statistics are those of the stored records, each counted once. -/
theorem digests_match {s : Session} (hstart : Matching s.tables) {batches : List (List QueryRecord)}
    (haddsUp : ∀ batch ∈ batches, AddsUp batch) (h : Int) :
    oneAtATime h (ingest s batches).tables.queryRecords =
      some ((ingest s batches).tables.digest h) ∧
    (((ingest s batches).tables.digest h).map Digest.callCount).getD 0 =
      (ingest s batches).tables.queryRecords.countP (·.queryParameterizedHash = some h) := by
  have hend := Matching.ingest hstart haddsUp
  exact ⟨hend h, hend.callCount h⟩

end Batches

def timedRecord (id : String) (ms : UInt64) : QueryRecord where
  proxyQueryId := id
  queryParameterizedHash := some 7
  digestText := some "select ?"
  translatedQueryHash := none
  translatedDigestText := none
  createdAt := 1
  executionDurationMs := ms
  rowsReturned := some 1
  clusterGroup := "g"

def emptySession (attempts : List Attempt) : Session := ⟨⟨[], []⟩, attempts⟩

/-- A batch is rejected and stored record by record, the second record after a failure and again
with the retry of the whole batch. -/
theorem retried_batch_matches :
    let batch := [timedRecord "a" 10, timedRecord "b" 20, timedRecord "a" 10]
    let s := ingest (emptySession [.rejects, .commits, .fails]) [batch, batch]
    s.tables.queryRecords.length = 2 ∧
      (s.tables.digest 7).map (fun d => (d.callCount, d.sumExecutionMs)) = some (2, 30) ∧
      oneAtATime 7 s.tables.queryRecords = some (s.tables.digest 7) := by
  refine ⟨by decide +kernel, by decide +kernel, ?_⟩
  have hstart : Matching (emptySession [.rejects, .commits, .fails]).tables := fun _ => rfl
  refine (digests_match hstart ?_ 7).1
  intro b hb
  have hb : b = [timedRecord "a" 10, timedRecord "b" 20, timedRecord "a" 10] := by simpa using hb
  rw [hb]
  exact addsUp_of_sum_lt (by decide) (by decide)

/-- The delta of a chunk is added up with wrapping, before the column would refuse it. -/
theorem wrapped_sum_stored :
    let batch := [timedRecord "a" 4611686018427387904, timedRecord "b" 4611686018427387904]
    let s := ingest (emptySession []) [batch]
    s.tables.queryRecords = batch ∧
      (s.tables.digest 7).map Digest.sumExecutionMs = some (-2 ^ 63) ∧
      oneAtATime 7 s.tables.queryRecords = none := by
  decide +kernel

end QueryFlux.History
