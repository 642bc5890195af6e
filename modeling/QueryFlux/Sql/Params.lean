import QueryFlux.Core.Query

/-!
# Parameters filled into statements

`interpolate_statements` transforms the parsed statements of a batch one after the other. A shared
index advances with each placeholder it replaces, and is compared with the number of parameters at
the end. Over the whole batch the placeholders get the parameters in order
(`interpolateStatements_positional`). A tree is its `skeleton` and its leaves from left to right;
`ν` is what else a node holds.
-/

namespace QueryFlux.Sql.Params

open Core

/-! ## Expressions -/

inductive Literal
  | string (s : String)
  | number (s : String)
  | date (s : String)
  | timestamp (s : String)
  | time (s : String)

/-- The leaves that the rewrite tells apart. -/
inductive Leaf (ν : Type)
  | placeholder (data : ν)
  -- `question` is whether its style is the question mark
  | parameter (question : Bool) (data : ν)
  | literal (l : Literal)
  | boolean (value : Bool)
  | null
  | other (data : ν)

inductive Expression (ν : Type)
  | leaf (l : Leaf ν)
  | node (data : ν) (children : List (Expression ν))

variable {ν σ : Type}

mutual

/-- The tree, children first and from left to right, with `f` applied at every node. -/
def transform (f : Expression ν → σ → Expression ν × σ) : Expression ν → σ → Expression ν × σ
  | .leaf l, s => f (.leaf l) s
  | .node data children, s =>
    let (children, s) := transformAll f children s
    f (.node data children) s

def transformAll (f : Expression ν → σ → Expression ν × σ) :
    List (Expression ν) → σ → List (Expression ν) × σ
  | [], s => ([], s)
  | e :: es, s =>
    let (e, s) := transform f e s
    let (es, s) := transformAll f es s
    (e :: es, s)

end

def Leaf.isQuestion : Leaf ν → Bool
  | .placeholder _ => true
  | .parameter question _ => question
  | _ => false

def literalOf : QueryParam → Leaf ν
  | .text s => .literal (.string s)
  | .numeric s => .literal (.number s)
  | .boolean b => .boolean b
  | .date s => .literal (.date s)
  | .timestamp s => .literal (.timestamp s)
  | .time s => .literal (.time s)
  | .null => .null

/-! ## The transform -/

section
variable (params : List QueryParam)

def fillLeaf (l : Leaf ν) (idx : Nat) : Leaf ν × Nat :=
  if l.isQuestion then
    match params[idx]? with
    | some param => (literalOf param, idx + 1)
    | none => (l, idx)
  else (l, idx)

def fill : Expression ν → Nat → Expression ν × Nat
  | .leaf l, idx => (.leaf (fillLeaf params l idx).1, (fillLeaf params l idx).2)
  | e, idx => (e, idx)

variable (generate : Expression ν → Except String String)

def rewriteStatements : List (Expression ν) → Nat →
    Except String (List String × List (Expression ν) × Nat)
  | [], idx => .ok ([], [], idx)
  | stmt :: statements, idx => do
    let (rewritten, idx) := transform (fill params) stmt idx
    let part ← (generate rewritten).mapError ("SQL generate error: " ++ ·)
    let (parts, rest, idx) ← rewriteStatements statements idx
    return (part :: parts, rewritten :: rest, idx)

def countMismatch (placeholders params : Nat) : String :=
  "Parameter count mismatch: SQL has " ++ toString placeholders ++ " placeholder(s) but " ++
    toString params ++ " parameter(s) were provided"

def interpolateStatements (statements : List (Expression ν)) :
    Except String (String × List (Expression ν)) := do
  let (parts, rewritten, idx) ← rewriteStatements params generate statements 0
  if idx ≠ params.length then throw (countMismatch idx params.length)
  return (String.intercalate ";\n" parts, rewritten)

end

/-! ## Leaves -/

/-- The type and value a literal stands for. -/
def Leaf.denoted : Leaf ν → Option QueryParam
  | .literal (.string s) => some (.text s)
  | .literal (.number s) => some (.numeric s)
  | .literal (.date s) => some (.date s)
  | .literal (.timestamp s) => some (.timestamp s)
  | .literal (.time s) => some (.time s)
  | .boolean value => some (.boolean value)
  | .null => some .null
  | .placeholder _ | .parameter .. | .other _ => none

mutual

def leaves : Expression ν → List (Leaf ν)
  | .leaf l => [l]
  | .node _ children => leavesAll children

def leavesAll : List (Expression ν) → List (Leaf ν)
  | [] => []
  | e :: es => leaves e ++ leavesAll es

end

mutual

/-- The expression without its leaves. -/
def skeleton : Expression ν → Expression ν
  | .leaf _ => .leaf .null
  | .node data children => .node data (skeletons children)

def skeletons : List (Expression ν) → List (Expression ν)
  | [] => []
  | e :: es => skeleton e :: skeletons es

end

variable (params : List QueryParam)

/-- The leaves in the order of the text. -/
def fillLeaves : List (Leaf ν) → Nat → List (Leaf ν) × Nat
  | [], idx => ([], idx)
  | l :: ls, idx =>
    let rest := fillLeaves ls (fillLeaf params l idx).2
    ((fillLeaf params l idx).1 :: rest.1, rest.2)

theorem fillLeaves_append (ls ms : List (Leaf ν)) (idx : Nat) :
    fillLeaves params (ls ++ ms) idx =
      ((fillLeaves params ls idx).1 ++ (fillLeaves params ms (fillLeaves params ls idx).2).1,
        (fillLeaves params ms (fillLeaves params ls idx).2).2) := by
  induction ls generalizing idx with
  | nil => rfl
  | cons l ls ih => simp [fillLeaves, ih]

mutual

theorem transform_fill : ∀ (e : Expression ν) (idx : Nat),
    skeleton (transform (fill params) e idx).1 = skeleton e ∧
      (leaves (transform (fill params) e idx).1, (transform (fill params) e idx).2) =
        fillLeaves params (leaves e) idx
  | .leaf l, idx => by simp [transform, fill, skeleton, leaves, fillLeaves]
  | .node _ children, idx => by
    obtain ⟨hskeleton, hleaves⟩ := transformAll_fill children idx
    exact ⟨congrArg (Expression.node _) hskeleton, hleaves⟩

/-- The rewrite keeps the shape and fills the leaves in order. -/
theorem transformAll_fill : ∀ (es : List (Expression ν)) (idx : Nat),
    skeletons (transformAll (fill params) es idx).1 = skeletons es ∧
      (leavesAll (transformAll (fill params) es idx).1, (transformAll (fill params) es idx).2) =
        fillLeaves params (leavesAll es) idx
  | [], idx => ⟨rfl, rfl⟩
  | e :: es, idx => by
    obtain ⟨hskeleton, hleaves⟩ := transform_fill e idx
    obtain ⟨hskeletons, hrest⟩ := transformAll_fill es (transform (fill params) e idx).2
    refine ⟨congrArg₂ _ hskeleton hskeletons, ?_⟩
    rw [leavesAll, fillLeaves_append, ← hleaves, ← hrest]
    rfl

end

/-- The leaf behind `before`, when the placeholders of the batch get the parameters in order. -/
def filledIn (before : List (Leaf ν)) (l : Leaf ν) : Leaf ν :=
  if l.isQuestion then ((params[before.countP Leaf.isQuestion]?).map literalOf).getD l else l

/-- What becomes of a leaf behind `before`: a placeholder is a literal of its parameter's type and
value, if there is a parameter for it, and every other leaf stays. -/
def Filled (before : List (Leaf ν)) (l l' : Leaf ν) : Prop :=
  if l.isQuestion then
    match params[before.countP Leaf.isQuestion]? with
    | some param => l'.denoted = some param
    | none => l' = l
  else l' = l

theorem denoted_literalOf (param : QueryParam) :
    (literalOf param : Leaf ν).denoted = some param := by
  cases param <;> rfl

theorem filled_filledIn (before : List (Leaf ν)) (l : Leaf ν) :
    Filled params before l (filledIn params before l) := by
  unfold Filled filledIn
  split_ifs
  · cases params[before.countP Leaf.isQuestion]? with
    | none => rfl
    | some param => exact denoted_literalOf param
  · rfl

theorem fillLeaf_eq (before : List (Leaf ν)) (l : Leaf ν) :
    fillLeaf params l (min (before.countP Leaf.isQuestion) params.length) =
      (filledIn params before l, min ((before ++ [l]).countP Leaf.isQuestion) params.length) := by
  cases hl : l.isQuestion with
  | false => simp [fillLeaf, filledIn, hl]
  | true =>
    by_cases hlt : before.countP Leaf.isQuestion < params.length
    · have hmin := Nat.min_eq_left (Nat.le_of_lt hlt)
      simp [fillLeaf, filledIn, hl, hlt, hmin, Nat.min_eq_left (Nat.succ_le_of_lt hlt)]
    · have hle := Nat.le_of_not_lt hlt
      simp [fillLeaf, filledIn, hl, hle, Nat.min_eq_right (Nat.le_succ_of_le hle)]

theorem fillLeaves_eq (before ls : List (Leaf ν)) :
    fillLeaves params ls (min (before.countP Leaf.isQuestion) params.length) =
      (ls.mapIdx fun k l => filledIn params (before ++ ls.take k) l,
        min ((before ++ ls).countP Leaf.isQuestion) params.length) := by
  induction ls generalizing before with
  | nil => simp [fillLeaves]
  | cons l ls ih => simp only [fillLeaves, fillLeaf_eq, ih]; simp [List.mapIdx_cons]

variable {params} {generate : Expression ν → Except String String}

theorem rewriteStatements_eq (hgen : ∀ e, ∃ sql, generate e = .ok sql)
    (statements : List (Expression ν)) (idx : Nat) :
    ∃ parts, rewriteStatements params generate statements idx =
      .ok (parts, transformAll (fill params) statements idx) := by
  induction statements generalizing idx with
  | nil => exact ⟨[], rfl⟩
  | cons stmt statements ih =>
    obtain ⟨part, hpart⟩ := hgen (transform (fill params) stmt idx).1
    obtain ⟨parts, hparts⟩ := ih (transform (fill params) stmt idx).2
    refine ⟨part :: parts, ?_⟩
    simp only [rewriteStatements, hpart, hparts]
    rfl

/-- With fewer placeholders than parameters in the batch the call fails. Otherwise the placeholders
get the parameters in order, and nothing else changes. -/
theorem interpolateStatements_positional (hgen : ∀ e, ∃ sql, generate e = .ok sql)
    (params : List QueryParam) (statements : List (Expression ν)) :
    let old := leavesAll statements
    (old.countP Leaf.isQuestion < params.length →
      interpolateStatements params generate statements =
        .error (countMismatch (old.countP Leaf.isQuestion) params.length)) ∧
    (params.length ≤ old.countP Leaf.isQuestion → ∃ sql rewritten,
      interpolateStatements params generate statements = .ok (sql, rewritten) ∧
      skeletons rewritten = skeletons statements ∧
      (leavesAll rewritten).length = old.length ∧
      ∀ k l, old[k]? = some l → ∃ l', (leavesAll rewritten)[k]? = some l' ∧
        Filled params (old.take k) l l') := by
  intro old
  obtain ⟨parts, hparts⟩ := rewriteStatements_eq hgen statements 0
  obtain ⟨hskeletons, hleaves⟩ := transformAll_fill params statements 0
  have hfilled := fillLeaves_eq params [] old
  rw [List.countP_nil, Nat.zero_min, ← hleaves, Prod.mk.injEq] at hfilled
  have hresult : interpolateStatements params generate statements =
      if min (old.countP Leaf.isQuestion) params.length ≠ params.length then
        .error (countMismatch (min (old.countP Leaf.isQuestion) params.length) params.length)
      else .ok (";\n".intercalate parts, (transformAll (fill params) statements 0).1) := by
    rw [interpolateStatements, hparts, ← List.nil_append old, ← hfilled.2]
    rfl
  constructor
  · intro hfew
    rw [hresult, Nat.min_eq_left (Nat.le_of_lt hfew), if_pos (Nat.ne_of_lt hfew)]
  · intro henough
    refine ⟨";\n".intercalate parts, _, ?_, hskeletons, ?_, fun k l hl => ?_⟩
    · rw [hresult, Nat.min_eq_right henough, if_neg (not_not.2 rfl)]
    · rw [hfilled.1, List.length_mapIdx]
    · refine ⟨filledIn params (old.take k) l, ?_, filled_filledIn params _ l⟩
      rw [hfilled.1, List.getElem?_mapIdx, hl]
      rfl

def batch : List (Expression Unit) :=
  [.node () [.leaf (.placeholder ()), .leaf (.other ()), .leaf (.parameter true ())],
    .node () [.leaf (.placeholder ()), .node () [.leaf (.placeholder ())],
      .leaf (.placeholder ())]]

/-- Two statements share four parameters, and the fifth placeholder stays. -/
theorem batch_positional : ∃ sql rewritten,
    interpolateStatements [.text "a", .boolean true, .date "2024-01-01", .numeric "1"]
      (fun _ => .ok "SELECT") batch = .ok (sql, rewritten) ∧
    (leavesAll rewritten)[0]?.bind Leaf.denoted = some (.text "a") ∧
    (leavesAll rewritten)[1]? = some (.other ()) ∧
    (leavesAll rewritten)[2]?.bind Leaf.denoted = some (.boolean true) ∧
    (leavesAll rewritten)[3]?.bind Leaf.denoted = some (.date "2024-01-01") ∧
    (leavesAll rewritten)[4]?.bind Leaf.denoted = some (.numeric "1") ∧
    (leavesAll rewritten)[5]? = some (.placeholder ()) := by
  obtain ⟨sql, rewritten, hok, -, -, hleaves⟩ :=
    (interpolateStatements_positional (fun _ => ⟨_, rfl⟩)
      [.text "a", .boolean true, .date "2024-01-01", .numeric "1"] batch).2 (by decide)
  obtain ⟨text, htext, hdenoted⟩ := hleaves 0 _ rfl
  obtain ⟨other, hother, rfl⟩ := hleaves 1 _ rfl
  obtain ⟨boolean, hboolean, hdenoted'⟩ := hleaves 2 _ rfl
  obtain ⟨date, hdate, hdenoted''⟩ := hleaves 3 _ rfl
  obtain ⟨number, hnumber, hnumeric⟩ := hleaves 4 _ rfl
  obtain ⟨last, hlast, rfl⟩ := hleaves 5 _ rfl
  exact ⟨sql, rewritten, hok, by rw [htext]; exact hdenoted, hother,
    by rw [hboolean]; exact hdenoted', by rw [hdate]; exact hdenoted'',
    by rw [hnumber]; exact hnumeric, hlast⟩

end QueryFlux.Sql.Params
