import QueryFlux.Dispatch.Pipeline

/-!
# Trino HTTP requests

`POST /v1/statement`: the session comes from the request's headers, the credentials from its
`Authorization` header or, without a usable one, from `X-Trino-User`. The verified identity and
the session then go side by side through routing and dispatch.

For one header name the session keeps the last value that is text; the credentials look at the
first value.
-/

namespace QueryFlux.Trino

open Core Dispatch Guardrails Lib

abbrev HeaderValue := List UInt8

/-! ## Headers -/

/-- `HeaderValue::to_str`: only visible ASCII, spaces and tabs are text. -/
def HeaderValue.toStr (v : HeaderValue) : Option String :=
  if v.all fun b => (32 ≤ b && b < 127) || b == 9 then
    some (String.ofList (v.map fun b => Char.ofNat b.toNat))
  else none

/-- Names, in lower case, and values in the order of the request. -/
abbrev HeaderMap := List (String × HeaderValue)

def HeaderMap.get (headers : HeaderMap) (name : String) : Option HeaderValue :=
  (headers.find? (·.1 == name)).map Prod.snd

def insertHeader (m : String → Option String) (e : String × HeaderValue) :
    String → Option String :=
  match e.2.toStr with
  | some s => fun k => if k = e.1 then some s else m k
  | none => m

/-- The session's map of headers: later values replace earlier ones, values that are not text are
skipped. -/
def headerEntries (headers : HeaderMap) : String → Option String :=
  headers.foldl insertHeader fun _ => none

def extractSession (extractTags : (String → Option String) → QueryTags) (headers : HeaderMap) :
    SessionContext :=
  let h := headerEntries headers
  { user := h "x-trino-user"
    database := h "x-trino-schema"
    catalog := h "x-trino-catalog"
    tags := extractTags h
    extra := h
    agentContext := none }

/-! ## Credentials -/

def base64Table : List UInt8 :=
  "ABCDEFGHIJKLMNOPQRSTUVWXYZabcdefghijklmnopqrstuvwxyz0123456789+/".toList.map
    fun c => UInt8.ofNat c.toNat

def base64Value (b : UInt8) : Option UInt8 := (base64Table.idxOf? b).map UInt8.ofNat

/-- Groups of four characters, then a rest of two or three; a single last character is
ignored. -/
def base64Bytes : List UInt8 → Option (List UInt8)
  | a :: b :: c :: d :: rest => do
    let a ← base64Value a
    let b ← base64Value b
    let c ← base64Value c
    let d ← base64Value d
    let out ← base64Bytes rest
    return (a <<< 2 ||| b >>> 4) :: (b <<< 4 ||| c >>> 2) :: (c <<< 6 ||| d) :: out
  | [a, b] => do
    let a ← base64Value a
    let b ← base64Value b
    return [a <<< 2 ||| b >>> 4]
  | [a, b, c] => do
    let a ← base64Value a
    let b ← base64Value b
    let c ← base64Value c
    return [a <<< 2 ||| b >>> 4, b <<< 4 ||| c >>> 2]
  | _ => some []

def base64Decode (encoded : List Char) : Option String := do
  let trimmed := (encoded.reverse.dropWhile (· == '=')).reverse
  let out ← base64Bytes ((String.ofList trimmed).toUTF8.toList)
  String.fromUTF8? ⟨out.toArray⟩

/-- The scheme in any case, then one blank. -/
def stripBearerPrefix (auth : List Char) : Option (List Char) :=
  if eqIgnoreAsciiCase (auth.take 7) "bearer ".toList then some (auth.drop 7) else none

def basicCredentials (auth : List Char) : Option (List Char × List Char) := do
  let encoded ← if "Basic ".toList.isPrefixOf auth then some (auth.drop 6) else none
  let decoded ← base64Decode encoded
  splitOnce ':' decoded.toList

def extractCredentials (headers : HeaderMap) : Credentials :=
  let fallback : Credentials :=
    ⟨(headers.get "x-trino-user").bind HeaderValue.toStr, none, none⟩
  match (headers.get "authorization").bind HeaderValue.toStr with
  | none => fallback
  | some auth =>
    match basicCredentials auth.toList with
    | some (user, pass) => ⟨some (String.ofList user), some (String.ofList pass), none⟩
    | none =>
      match stripBearerPrefix auth.toList with
      | some token => ⟨none, none, some (String.ofList token)⟩
      | none => fallback

/-! ## Requests -/

structure Frontend where
  extractTags : (String → Option String) → QueryTags
  authenticate : Credentials → Except String AuthContext
  isSetSessionTags : String → Bool
  route : String → SessionContext → AuthContext → Except String String
  isDeterministic : SqlDialect → String → Bool
  groupSupportsAsync : String → Bool
  mayDequeue : AuthContext → String → String → Bool

inductive StatementOutcome
  | badRequest
  | unauthorized
  | answeredLocally
  | routingFailed (message : String)
  | forbidden
  | dispatched (result : Except PipelineError Submission)
  | sunk (outcome : SinkOutcome)

section
variable (frontend : Frontend) (live : LiveConfig) (state : AppState)

def submitRequest (r : Request) : Asking StatementOutcome :=
  let cachingRequested := (live.groupCacheSettings r.group).isSome ||
    (state.extractCacheHint r.sql r.session).isSome
  let useCachePath := cachingRequested && frontend.isDeterministic r.protocol.defaultDialect r.sql
  let toSink := (executeToSink live state r).map .sunk
  if !useCachePath && frontend.groupSupportsAsync r.group then
    (dispatchQuery live state r).bind fun
      | .error .syncEngineRequired => toSink
      | result => .done (.dispatched result)
  else toSink

/-- Authentication, routing and dispatch of one statement. -/
def postStatement (headers : HeaderMap) (body : ByteArray) : Asking StatementOutcome :=
  match String.fromUTF8? body with
  | none => .done .badRequest
  | some sql =>
    let session := extractSession frontend.extractTags headers
    match frontend.authenticate (extractCredentials headers) with
    | .error _ => .done .unauthorized
    | .ok auth =>
      if frontend.isSetSessionTags sql then .done .answeredLocally
      else
        match frontend.route sql session auth with
        | .error message => .done (.routingFailed message)
        | .ok group => submitRequest frontend live state ⟨sql, [], session, .trinoHttp, group, auth⟩

/-! ## Queued queries -/

/-- What is stored of a request that waits. -/
structure QueuedQuery where
  sql : String
  session : SessionContext
  frontendProtocol : FrontendProtocol
  clusterGroup : String
  submittedBy : String

/-- The stored session, with the backend credential of the poll put back. -/
def sessionForQueuedDispatch (session : SessionContext) (headers : HeaderMap) (auth : AuthContext) :
    SessionContext :=
  let authorization := (headers.get "authorization").bind HeaderValue.toStr <|>
    auth.rawToken.map ("Bearer " ++ ·)
  match authorization with
  | some v =>
    { session with extra := fun k => if k = "authorization" then some v else session.extra k }
  | none => session

/-- The dispatch attempt of `GET /v1/statement/qf/queued/…`: the identity is the poller's, the
session the stored one. -/
def dispatchQueued (headers : HeaderMap) (queued : QueuedQuery) : Asking StatementOutcome :=
  match frontend.authenticate (extractCredentials headers) with
  | .error _ => .done .unauthorized
  | .ok auth =>
    if !frontend.mayDequeue auth queued.submittedBy queued.clusterGroup then .done .forbidden
    else
      submitRequest frontend live state
        ⟨queued.sql, [], sessionForQueuedDispatch queued.session headers auth,
          queued.frontendProtocol, queued.clusterGroup, auth⟩

end

/-- What `persist_queued_query` stores. -/
def queuedQuery (r : Request) : QueuedQuery :=
  ⟨r.sql, r.session.withoutAuthHeaders, r.protocol, r.group, r.auth.user⟩

/-- A poll that finds no slot stores the query again. -/
def QueuedQuery.requeue (queued : QueuedQuery) (headers : HeaderMap) (auth : AuthContext) :
    QueuedQuery :=
  queuedQuery ⟨queued.sql, [], sessionForQueuedDispatch queued.session headers auth,
    queued.frontendProtocol, queued.clusterGroup, auth⟩

end QueryFlux.Trino
