import QueryFlux.Wire.Connection

/-!
# What the MySQL frontend answers itself

`answerLocally` are the tests `handle_com_query` makes, one after the other, before it routes a
statement, and what is sent if one of them is met: an OK packet, one row of constants and of values
of the session, or a result without rows. The last test is for a `SELECT` of metadata expressions
(`tryParseMysqlMetadataSelect`). A statement for which all tests fail is routed
(`handleStatement_eq`).

The text is in lower case when these tests look at it; of the labels of columns, characters outside
ASCII keep their case here.
-/

namespace QueryFlux.Wire

open Core Dispatch Auth

/-! ## Texts -/

def splitWhitespace (s : List Char) : List (List Char) :=
  (s.splitOnP isWhitespace).filter (· ≠ [])

def splitAtText (part : List Char) : List Char → Option (List Char × List Char)
  | [] => if part = [] then some ([], []) else none
  | c :: cs =>
    if part.isPrefixOf (c :: cs) then some ([], (c :: cs).drop part.length)
    else (splitAtText part cs).map fun (a, b) => (c :: a, b)

def rsplitAtText (part : List Char) : List Char → Option (List Char × List Char)
  | [] => if part = [] then some ([], []) else none
  | c :: cs =>
    match rsplitAtText part cs with
    | some (a, b) => some (c :: a, b)
    | none => if part.isPrefixOf (c :: cs) then some ([], (c :: cs).drop part.length) else none

def trimStartText (part s : List Char) : List Char :=
  Nat.repeat (fun s => if part.isPrefixOf s then s.drop part.length else s) s.length s

def stripFromDual (body : List Char) : List Char :=
  let (last, before) := (trimEndMatches isWhitespace body).reverse.span (!isWhitespace ·)
  let (prev, front) := (before.dropWhile isWhitespace).span (!isWhitespace ·)
  if last.reverse = "dual".toList ∧ prev.reverse = "from".toList then
    trimEndMatches isWhitespace front.reverse
  else body

/-! ## Metadata -/

def mysqlVarDefault (expr : List Char) : String :=
  match String.ofList (trimStartText "global.".toList
      (trimStartText "session.".toList (dropAts expr))) with
  | "auto_increment_increment" | "auto_increment_offset" => "1"
  | "character_set_client" | "character_set_connection" | "character_set_results"
  | "character_set_server" => "utf8mb4"
  | "collation_server" | "collation_connection" => "utf8mb4_0900_ai_ci"
  | "init_connect" => ""
  | "interactive_timeout" | "wait_timeout" => "28800"
  | "license" => "GPL"
  | "lower_case_table_names" => "0"
  | "max_allowed_packet" => "67108864"
  | "net_buffer_length" => "16384"
  | "net_write_timeout" => "60"
  | "performance_schema" => "1"
  | "query_cache_size" => "1048576"
  | "query_cache_type" => "0"
  | "sql_mode" => "STRICT_TRANS_TABLES,NO_ENGINE_SUBSTITUTION"
  | "system_time_zone" => "UTC"
  | "time_zone" => "SYSTEM"
  | "transaction_isolation" | "tx_isolation" => "REPEATABLE-READ"
  | "transaction_read_only" | "read_only" | "innodb_read_only" => "0"
  | "foreign_key_checks" | "unique_checks" => "1"
  | "sql_auto_is_null" | "max_execution_time" | "session_track_state_change" => "0"
  | "version" => "8.0.0-queryflux"
  | "version_comment" => "QueryFlux"
  | _ => ""

/-- Outside none if the expression is not recognised, inside for a null. -/
def mysqlSyntheticValue (session : SessionContext) (expr : List Char) : Option (Option String) :=
  if "@@".toList.isPrefixOf expr then some (some (mysqlVarDefault expr))
  else
    match String.ofList expr with
    | "version()" => some (some "8.0.0-queryflux")
    | "current_schema()" | "schema()" | "database()" => some session.database
    | "current_user()" | "user()" | "system_user()" | "session_user()" =>
      some (some (session.user.getD ""))
    | "connection_id()" => some (some "1")
    | _ => none

def metadataColumn (session : SessionContext) (part : List Char) :
    Option (String × Option String) :=
  let (expr, label) := (rsplitAtText " as ".toList part).getD (part, part)
  (mysqlSyntheticValue session (toLowercase (trim expr))).map fun value =>
    (String.ofList (trim label), value)

/-- The select list of the text, cut at its commas; none if there is a `from`. -/
def selectParts (lower : List Char) : Option (List (List Char)) :=
  let trimmed := trimEndMatches (· == ';') (trim lower)
  if "select".toList.isPrefixOf trimmed then
    let rest := stripFromDual (trimStart (trimmed.drop 6))
    if "from".toList ∈ splitWhitespace rest then none
    else
      let main := ((splitAtText " limit ".toList rest).map Prod.fst).getD rest
      some ((main.splitOn ',').map trim)
  else none

def tryParseMysqlMetadataSelect (lower : List Char) (session : SessionContext) :
    Option (List (String × Option String)) :=
  (selectParts lower).bind fun parts => parts.mapM (metadataColumn session)

/-! ## Answers -/

inductive LocalAnswer
  | ok
  -- one row, by label and value
  | row (columns : List (String × Option String))
  -- a result without rows
  | noRows (columns : List String)
  deriving DecidableEq

/-- The columns that a client expects. -/
def showAnswer (lower : List Char) : LocalAnswer :=
  if "show warnings".toList.isPrefixOf lower then .noRows ["Level", "Code", "Message"]
  else .noRows ["Variable_name", "Value"]

def versionColumn (lower : List Char) : String :=
  if containsText "version_comment".toList lower then "@@version_comment" else "@@version"

def answerProbe (session : SessionContext) (lower : List Char) : Option LocalAnswer :=
  if containsText "@@version".toList lower && !lower.contains ',' then
    some (.row [(versionColumn lower, some "8.0.0-queryflux")])
  else if isSelectDatabase lower then some (.row [("DATABASE()", session.database)])
  else if localShows.any fun probe => probe.toList.isPrefixOf lower then some (showAnswer lower)
  else (tryParseMysqlMetadataSelect lower session).map .row

variable (parseQueryTags : List Char → QueryTags)

/-- The session and the answer to an authenticated statement that is not routed; `some none` if it
is routed. None if the connection's task panics. -/
def answerLocally (session : SessionContext) (sql : String) :
    Option (Option (SessionContext × LocalAnswer)) :=
  let logical := stripMysqlConditionalComment sql.toList
  let lower := toLowercase (trim logical)
  match tryParseSetQueryTags logical with
  | none => none
  | some (some value) => some (some ({ session with tags := parseQueryTags value }, .ok))
  | some none =>
    if startsWithSet lower then
      match tryParseSetKv logical with
      | some (key, value) => some (some (setVariable session key value, .ok))
      | none => some (some (session, .ok))
    else
      match tryParseUse logical with
      | some db => some (some ({ session with database := nonEmpty db }, .ok))
      | none => some ((answerProbe session lower).map fun answer => (session, answer))

def mysqlFrontend : Frontend where
  parseQueryTags := parseQueryTags
  isMetadataSelect := fun lower session => (tryParseMysqlMetadataSelect lower session).isSome

theorem isSome_answerProbe (session : SessionContext) (lower : List Char) :
    (answerProbe session lower).isSome =
      (isProbe lower || (tryParseMysqlMetadataSelect lower session).isSome) := by
  unfold answerProbe isProbe
  split
  · rename_i h
    rw [h]
    rfl
  · rename_i hversion
    split
    · rename_i h
      rw [h]
      simp
    · rename_i hdatabase
      split
      · rename_i h
        rw [h]
        simp
      · rename_i hshow
        simp only [Bool.not_eq_true] at hversion hdatabase hshow
        rw [hversion, hdatabase, hshow, Option.isSome_map]
        rfl

theorem handleStatement_eq (live : Snapshot) (auth : AuthContext) (session : SessionContext)
    (sql : String) : handleStatement (mysqlFrontend parseQueryTags) live auth session sql =
      (answerLocally parseQueryTags session sql).map fun answered =>
        match answered, live.route sql session .mySqlWire auth with
        | some (session', _), _ => (session', none)
        | none, .error _ => (session, none)
        | none, .ok group => (session, some ⟨sql, [], session, .mySqlWire, group, auth⟩) := by
  unfold handleStatement answerLocally
  generalize stripMysqlConditionalComment sql.toList = logical
  simp only [mysqlFrontend, ← isSome_answerProbe]
  generalize answerProbe session (toLowercase (trim logical)) = answer
  cases tryParseSetQueryTags logical with
  | none => rfl
  | some tags =>
    cases tags with
    | some => rfl
    | none =>
      dsimp only
      split
      · cases tryParseSetKv logical with
        | none | some => rfl
      · cases tryParseUse logical with
        | some => rfl
        | none =>
          cases answer with
          | some => rfl
          | none => cases live.route sql session .mySqlWire auth <;> rfl

end QueryFlux.Wire
