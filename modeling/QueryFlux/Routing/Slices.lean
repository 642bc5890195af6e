import Mathlib.Algebra.Ring.Int.Defs
import Mathlib.Data.List.Sort
import Mathlib.Data.Prod.Lex
import Mathlib.Data.String.Basic
import Mathlib.Order.Lex
import QueryFlux.Routing.Json

/-!
# Storing the routing configuration

Routers are JSON objects. `resolveRoutersForStorage` brings what the admin API was sent into the
form that is stored, with group names. To save them each router is expanded into slices, one for
each rule or leg, which refer to the group by id (`expandRouterForPersistence`); a slice is a row
with a global sort key, the index of the router and its own index. To load them the rows are sorted,
cut into the chunks of the routers, and each chunk is merged (`collapseRowsToRouters`).

A table of groups is looked up by name when saving and by id when loading.
-/

namespace QueryFlux.Routing

open Core Lib

abbrev NameToId := String → Option Int

abbrev IdToName := Int → Option String

/-! ## Fields -/

/-- The protocols, in the two spellings of their keys. -/
def protoCamelSnake : List (String × String) :=
  [("trinoHttp", "trino_http"), ("postgresWire", "postgres_wire"), ("mysqlWire", "mysql_wire"),
    ("clickhouseHttp", "clickhouse_http"), ("flightSql", "flight_sql"),
    ("snowflakeHttp", "snowflake_http"), ("snowflakeSqlApi", "snowflake_sql_api"), ("mcp", "mcp")]

def field (v : Json) (camel snake : String) : Option Json := v.get camel <|> v.get snake

def mapField (v : Json) (camel snake : String) : Option Members :=
  (field v camel snake).bind Json.asObject

def isDeny (rule : Json) : Bool :=
  eqIgnoreAsciiCase ((rule.strAt "action").getD "route").toList "deny".toList

def asI64 (text : String) : Option Int :=
  text.toInt?.filter fun n => -2 ^ 63 ≤ n && n < 2 ^ 63

/-! ## Resolving for storage -/

/-- A number is the id of a group, a string its name. -/
def groupValueToName (v : Json) (idToName : IdToName) : Except String String :=
  match v with
  | .number n =>
    match asI64 n with
    | none => .error "invalid group id"
    | some id =>
      match idToName id with
      | some name => .ok name
      | none => .error ("unknown cluster group id " ++ toString id)
  | .string s => .ok s
  | .null => .ok ""
  | _ => .error "group reference must be a numeric id or string name"

def optionalProtoOut (v : Json) (camel snake : String) (idToName : IdToName) :
    Except String (Option String) :=
  match field v camel snake with
  | none => .ok none
  | some raw => do
    let name ← groupValueToName raw idToName
    return if name = "" then none else some name

def resolveProtocols (v : Json) (idToName : IdToName) :
    List (String × String) → Members → Except String Members
  | [], out => .ok out
  | (camel, snake) :: rest, out => do
    let val ← optionalProtoOut v camel snake idToName
    resolveProtocols v idToName rest
      (val.elim out fun name => insertMember out camel (.string name))

def resolveMap (idToName : IdToName) : Members → Members → Except String Members
  | [], m => .ok m
  | (k, v) :: rest, m => do
    let name ← groupValueToName v idToName
    resolveMap idToName rest (if name = "" then m else insertMember m k (.string name))

/-- The target, under either spelling, else its id. -/
def targetOf (v : Json) : Json :=
  ((field v "targetGroup" "target_group") <|> v.get "targetGroupId").getD .null

def resolveRegexRule (idToName : IdToName) (rule : Json) : Except String Json :=
  let regex := (rule.get "regex").getD (.string "")
  if isDeny rule then
    .ok (.object ([("regex", regex), ("action", .string "deny")] ++
      ((rule.strAt "error").map fun err => ("error", .string err)).toList))
  else do
    let name ← groupValueToName (targetOf rule) idToName
    return .object [("regex", regex), ("targetGroup", .string name)]

def resolveTagRule (idToName : IdToName) (rule : Json) : Except String Json := do
  let name ← groupValueToName (targetOf rule) idToName
  return .object [("tags", (rule.get "tags").getD (.object [])), ("targetGroup", .string name)]

def resolveOneRouterForStorage (v : Json) (idToName : IdToName) : Except String Json :=
  match v.strAt "type" with
  | some "protocolBased" => do
    let out ← resolveProtocols v idToName protoCamelSnake [("type", .string "protocolBased")]
    return .object out
  | some "header" => do
    let m ← resolveMap idToName
      ((mapField v "headerValueToGroup" "header_value_to_group").getD []) []
    return .object [("type", .string "header"),
      ("headerName", .string
        (((field v "headerName" "header_name").bind Json.asStr).getD "")),
      ("headerValueToGroup", .object m)]
  | some "userGroup" => do
    let m ← resolveMap idToName ((mapField v "userToGroup" "user_to_group").getD []) []
    return .object [("type", .string "userGroup"), ("userToGroup", .object m)]
  | some "clientTags" => do
    let m ← resolveMap idToName ((mapField v "tagToGroup" "tag_to_group").getD []) []
    return .object [("type", .string "clientTags"), ("tagToGroup", .object m)]
  | some "queryRegex" => do
    let rules ← (((v.get "rules").bind Json.asArray).getD []).mapM (resolveRegexRule idToName)
    return .object [("type", .string "queryRegex"), ("rules", .array rules)]
  | some "tags" => do
    let rules ← (((v.get "rules" <|> v.get "tag_rules").bind Json.asArray).getD []).mapM
      (resolveTagRule idToName)
    return .object [("type", .string "tags"), ("rules", .array rules)]
  | some "compound" => do
    let name ← groupValueToName (targetOf v) idToName
    return .object [("type", .string "compound"),
      ("combine", (v.get "combine").getD (.string "all")),
      ("conditions", (v.get "conditions").getD (.array [])), ("targetGroup", .string name)]
  | some "pythonScript" => .ok (.object [("type", .string "pythonScript"),
      ("script", .string ((v.strAt "script").getD "")),
      ("scriptFile",
        (((field v "scriptFile" "script_file").bind Json.asStr).map Json.string).getD .null)])
  -- any other router is stored as it is
  | _ => .ok v

def resolveRoutersForStorage (routers : List Json) (idToName : IdToName) :
    Except String (List Json) :=
  routers.mapM (resolveOneRouterForStorage · idToName)

/-! ## Slices -/

/-- The definition of a slice and the id of its group. -/
abbrev Slice := Json × Option Int

def lookupGroupId (name : String) (nameToId : NameToId) : Except String Int :=
  match nameToId name with
  | some id => .ok id
  | none => .error ("unknown cluster group '" ++ name ++ "'")

def nameForId (id : Int) (idToName : IdToName) : Except String String :=
  match idToName id with
  | some name => .ok name
  | none => .error ("unknown cluster group id " ++ toString id)

def protoLeg (camel : String) : Json :=
  .object [("type", .string "_qfProtoLeg"), ("protocol", .string camel)]

def headerLeg (headerName headerValue : String) : Json :=
  .object [("type", .string "_qfHeaderLeg"), ("headerName", .string headerName),
    ("headerValue", .string headerValue)]

def userLeg (username : String) : Json :=
  .object [("type", .string "_qfUserLeg"), ("username", .string username)]

def tagLeg (tag : String) : Json := .object [("type", .string "_qfTagLeg"), ("tag", .string tag)]

/-- The slices of all elements that have one. -/
def pushed {α : Type} (slice : α → Except String (Option Slice)) (xs : List α) :
    Except String (List Slice) := do
  let slices ← xs.mapM slice
  return slices.filterMap id

def protocolSlice (router : Json) (nameToId : NameToId) (protocol : String × String) :
    Except String (Option Slice) :=
  match (field router protocol.1 protocol.2).bind Json.asStr with
  | none => .ok none
  | some name =>
    if name = "" then .ok none
    else do
      let id ← lookupGroupId name nameToId
      return some (protoLeg protocol.1, some id)

def entrySlice (leg : String → Json) (notString : String) (nameToId : NameToId)
    (entry : String × Json) : Except String (Option Slice) :=
  match entry.2.asStr with
  | none => .error notString
  | some name =>
    if name = "" then .ok none
    else do
      let id ← lookupGroupId name nameToId
      return some (leg entry.1, some id)

def regexLeg (regex : String) : Json :=
  .object [("type", .string "_qfRegexLeg"), ("regex", .string regex)]

def denyLeg (regex : String) (error : Option String) : Json :=
  .object ([("type", .string "_qfRegexLeg"), ("regex", .string regex),
      ("action", .string "deny")] ++
    (error.map fun err => ("error", .string err)).toList)

def tagsRuleLeg (tags : Json) : Json :=
  .object [("type", .string "_qfTagsRuleLeg"), ("tags", tags)]

def targetName (v : Json) : String :=
  ((field v "targetGroup" "target_group").bind Json.asStr).getD ""

def targetSlice (nameToId : NameToId) (definition rule : Json) : Except String (Option Slice) :=
  if targetName rule = "" then .ok none
  else do
    let id ← lookupGroupId (targetName rule) nameToId
    return some (definition, some id)

def regexOf (rule : Json) : String := (rule.strAt "regex").getD ""

def regexRuleSlice (nameToId : NameToId) (rule : Json) : Except String (Option Slice) :=
  if isDeny rule then .ok (some (denyLeg (regexOf rule) (rule.strAt "error"), none))
  else targetSlice nameToId (regexLeg (regexOf rule)) rule

def tagsRuleSlice (nameToId : NameToId) (rule : Json) : Except String (Option Slice) :=
  targetSlice nameToId (tagsRuleLeg ((rule.get "tags").getD (.object []))) rule

def compoundLeg (combine conditions : Json) : Json :=
  .object [("type", .string "compound"), ("combine", combine), ("conditions", conditions)]

/-- A router of a built-in type becomes one slice for each target. -/
def expandRouterForPersistence (router : Json) (nameToId : NameToId) :
    Except String (List Slice) :=
  match router.strAt "type" with
  | some "protocolBased" => pushed (protocolSlice router nameToId) protoCamelSnake
  | some "header" =>
    let headerName := ((field router "headerName" "header_name").bind Json.asStr).getD ""
    pushed (entrySlice (headerLeg headerName) "header map value must be a string" nameToId)
      ((mapField router "headerValueToGroup" "header_value_to_group").getD [])
  | some "userGroup" =>
    pushed (entrySlice userLeg "userToGroup value must be a string" nameToId)
      ((mapField router "userToGroup" "user_to_group").getD [])
  | some "clientTags" =>
    pushed (entrySlice tagLeg "tagToGroup value must be a string" nameToId)
      ((mapField router "tagToGroup" "tag_to_group").getD [])
  | some "queryRegex" =>
    pushed (regexRuleSlice nameToId) (((router.get "rules").bind Json.asArray).getD [])
  | some "tags" =>
    pushed (tagsRuleSlice nameToId)
      (((router.get "rules" <|> router.get "tag_rules").bind Json.asArray).getD [])
  | some "compound" =>
    if targetName router = "" then .error "compound router requires targetGroup"
    else do
      let id ← lookupGroupId (targetName router) nameToId
      return [(compoundLeg ((router.get "combine").getD (.string "all"))
        ((router.get "conditions").getD (.array [])), some id)]
  | _ => .ok [(router, none)]

/-! ## Rows -/

structure RoutingRuleRow where
  sortOrder : Int
  routerLogicalIndex : Int
  sliceIndex : Int
  targetGroupId : Option Int
  definition : Json

def toI32 (n : Nat) : Int := (n + 2 ^ 31) % 2 ^ 32 - 2 ^ 31

/-- Rows of one router, and the next sort key. -/
def insertSlices (logicalIdx : Nat) :
    Nat → Int → List Slice → Except String (List RoutingRuleRow × Int)
  | _, sortKey, [] => .ok ([], sortKey)
  | sliceIdx, sortKey, (definition, gid) :: rest =>
    if sortKey + 1 < 2 ^ 31 then do
      let (rows, next) ← insertSlices logicalIdx (sliceIdx + 1) (sortKey + 1) rest
      return (⟨sortKey, toI32 logicalIdx, toI32 sliceIdx, gid, definition⟩ :: rows, next)
    else .error "too many routing slices"

def insertRouters (nameToId : NameToId) :
    Nat → Int → List Json → Except String (List RoutingRuleRow)
  | _, _, [] => .ok []
  | logicalIdx, sortKey, router :: routers => do
    let slices ← (expandRouterForPersistence router nameToId).mapError
      ("replace_routing_config expand: Persistence error: " ++ ·)
    if slices.isEmpty then
      .error ("router at index " ++ toString logicalIdx ++
        " produced no routing slices (empty mappings?)")
    else do
      let (rows, sortKey) ← insertSlices logicalIdx 0 sortKey slices
      let rest ← insertRouters nameToId (logicalIdx + 1) sortKey routers
      return rows ++ rest

def replaceRoutingConfig (nameToId : NameToId) (routers : List Json) :
    Except String (List RoutingRuleRow) :=
  insertRouters nameToId 0 0 routers

/-! ## Loading -/

def groupOf (legType : String) (leg : RoutingRuleRow) (idToName : IdToName) :
    Except String String :=
  match leg.targetGroupId with
  | none => .error (legType ++ " missing target_group_id")
  | some gid => nameForId gid idToName

/-- Each leg adds its key with the name of its group. -/
def mergeLegs (legType key : String) (idToName : IdToName) :
    List RoutingRuleRow → Members → Except String Members
  | [], m => .ok m
  | leg :: chunk, m =>
    match leg.definition.strAt key with
    | none => .error (legType ++ " missing " ++ key)
    | some k => do
      let name ← groupOf legType leg idToName
      mergeLegs legType key idToName chunk (insertMember m k (.string name))

variable (chunk : List RoutingRuleRow)

variable (idToName : IdToName)

def mergeProtoChunk : Except String Json := do
  let m ← mergeLegs "_qfProtoLeg" "protocol" idToName chunk [("type", .string "protocolBased")]
  return .object m

def mergeHeaderChunk : Except String Json := do
  let headerName := (chunk.head?.bind (·.definition.strAt "headerName")).getD ""
  let m ← mergeLegs "_qfHeaderLeg" "headerValue" idToName chunk []
  return .object [("type", .string "header"), ("headerName", .string headerName),
    ("headerValueToGroup", .object m)]

def mergeUserChunk : Except String Json := do
  let m ← mergeLegs "_qfUserLeg" "username" idToName chunk []
  return .object [("type", .string "userGroup"), ("userToGroup", .object m)]

def mergeTagChunk : Except String Json := do
  let m ← mergeLegs "_qfTagLeg" "tag" idToName chunk []
  return .object [("type", .string "clientTags"), ("tagToGroup", .object m)]

def denyRule (regex : Json) (error : Option String) : Json :=
  .object ([("regex", regex), ("action", .string "deny")] ++
    (error.map fun err => ("error", .string err)).toList)

def routeRule (regex : Json) (target : String) : Json :=
  .object [("regex", regex), ("targetGroup", .string target)]

def tagRule (tags : Json) (target : String) : Json :=
  .object [("tags", tags), ("targetGroup", .string target)]

def mergeRegexRule (leg : RoutingRuleRow) : Except String Json :=
  if isDeny leg.definition then
    .ok (denyRule (.string (regexOf leg.definition)) (leg.definition.strAt "error"))
  else do
    let name ← groupOf "_qfRegexLeg" leg idToName
    return routeRule (.string (regexOf leg.definition)) name

def mergeRegexChunk : Except String Json := do
  let rules ← chunk.mapM (mergeRegexRule idToName)
  return .object [("type", .string "queryRegex"), ("rules", .array rules)]

def mergeTagsRule (leg : RoutingRuleRow) : Except String Json := do
  let name ← groupOf "_qfTagsRuleLeg" leg idToName
  return tagRule ((leg.definition.get "tags").getD (.object [])) name

def mergeTagsRulesChunk : Except String Json := do
  let rules ← chunk.mapM (mergeTagsRule idToName)
  return .object [("type", .string "tags"), ("rules", .array rules)]

variable {idToName}

variable {chunk}

def mergeCompoundChunk (leg : RoutingRuleRow) (idToName : IdToName) : Except String Json := do
  let name ← groupOf "compound router row" leg idToName
  match leg.definition.asObject with
  | none => .error "compound definition must be object"
  | some m => return .object (insertMember m "targetGroup" (.string name))

/-- A row that holds a whole router. -/
def isLegacyFullRouter (v : Json) (targetGroupId : Option Int) : Bool :=
  targetGroupId.isNone &&
    (v.strAt "type").any fun s => !("_qf".toList.isPrefixOf s.toList)

def mergeChunk (leg : RoutingRuleRow) (rest : List RoutingRuleRow) (idToName : IdToName) :
    Except String Json :=
  if rest.isEmpty && isLegacyFullRouter leg.definition leg.targetGroupId then .ok leg.definition
  else
    match leg.definition.strAt "type" with
    | some "_qfProtoLeg" => mergeProtoChunk (leg :: rest) idToName
    | some "_qfHeaderLeg" => mergeHeaderChunk (leg :: rest) idToName
    | some "_qfUserLeg" => mergeUserChunk (leg :: rest) idToName
    | some "_qfTagLeg" => mergeTagChunk (leg :: rest) idToName
    | some "_qfRegexLeg" => mergeRegexChunk (leg :: rest) idToName
    | some "_qfTagsRuleLeg" => mergeTagsRulesChunk (leg :: rest) idToName
    | some "compound" => mergeCompoundChunk leg idToName
    | some "pythonScript" => .ok leg.definition
    | _ => if rest.isEmpty then .ok leg.definition else .error "cannot merge routing rule chunk"

/-- Rows of one router that stand together. -/
def chunks : List RoutingRuleRow → List (RoutingRuleRow × List RoutingRuleRow)
  | [] => []
  | r :: rows =>
    match chunks rows with
    | [] => [(r, [])]
    | (next, rest) :: more =>
      if next.routerLogicalIndex = r.routerLogicalIndex then (r, next :: rest) :: more
      else (r, []) :: (next, rest) :: more

def sortKey (text : Json → String) (r : RoutingRuleRow) : Int ×ₗ Int ×ₗ Int ×ₗ String :=
  toLex (r.sortOrder, toLex (r.routerLogicalIndex, toLex (r.sliceIndex, text r.definition)))

/-- Rows are sorted and merged router by router. -/
def collapseRowsToRouters (text : Json → String) (rows : List RoutingRuleRow)
    (idToName : IdToName) : Except String (List Json) :=
  (chunks (rows.insertionSort fun a b => sortKey text a ≤ sortKey text b)).mapM
    fun chunk => mergeChunk chunk.1 chunk.2 idToName

end QueryFlux.Routing
