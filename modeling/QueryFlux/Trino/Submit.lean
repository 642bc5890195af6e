import Mathlib.Data.List.Nodup
import QueryFlux.Trino.Request

/-!
# Submitting a query to a Trino cluster

The headers of the request that `TrinoAdapter::submit_query` sends: first those of the query's
credentials, then those the session asks for. A header is appended to the ones there are already,
also under a name that occurs before. A header whose name or value is not valid spoils the request,
which is then not sent.

`submitQuery_eq` says which headers a request has, in which order.
-/

namespace QueryFlux.Trino

open Core

/-! ## The request builder -/

def isTokenChar (c : Char) : Bool := c.isAlphanum || "!#$%&'*+-.^_`|~".toList.contains c

def validName (name : String) : Bool :=
  !name.isEmpty && name.length < 2 ^ 16 && name.toList.all isTokenChar

def validValue (value : String) : Bool :=
  value.toList.all fun c => (32 ≤ c.toNat && c.toNat ≠ 127) || c = '\t'

def lowerName (name : String) : String := String.ofList (toAsciiLowercase name.toList)

/-- `reqwest::RequestBuilder`: the headers so far, with names in lower case. None once one of them
was not valid. -/
abbrev Builder := Option (List (String × String))

/-- An invalid name or value makes the whole request fail. -/
def Builder.header (b : Builder) (name value : String) : Builder :=
  b.bind fun headers =>
    if validName name && validValue value then some (headers ++ [(lowerName name, value)]) else none

def Builder.extend (b : Builder) (headers : List (String × String)) : Builder :=
  headers.foldl (fun b h => b.header h.1 h.2) b

@[simp] theorem Builder.extend_nil (b : Builder) : b.extend [] = b := rfl

@[simp] theorem Builder.extend_cons (b : Builder) (h : String × String)
    (headers : List (String × String)) :
    b.extend (h :: headers) = (b.header h.1 h.2).extend headers := rfl

theorem Builder.extend_append (b : Builder) (first second : List (String × String)) :
    b.extend (first ++ second) = (b.extend first).extend second := List.foldl_append

theorem Builder.extend_none (headers : List (String × String)) :
    Builder.extend none headers = none := by
  induction headers with
  | nil => rfl
  | cons _ _ ih => exact ih

theorem Builder.extend_eq_some {before headers after : List (String × String)}
    (h : Builder.extend (some before) headers = some after) :
    after = before ++ headers.map (fun h => (lowerName h.1, h.2)) ∧
      ∀ h ∈ headers, validName h.1 = true := by
  induction headers generalizing before with
  | nil =>
    cases h
    exact ⟨(List.append_nil _).symm, nofun⟩
  | cons e _ ih =>
    rw [extend_cons] at h
    by_cases hvalid : (validName e.1 && validValue e.2) = true
    · have hheader : Builder.header (some before) e.1 e.2 =
          some (before ++ [(lowerName e.1, e.2)]) := by
        rw [header, Option.bind_some, if_pos hvalid]
      rw [hheader] at h
      obtain ⟨hafter, hnames⟩ := ih h
      refine ⟨?_, ?_⟩
      · rw [hafter, List.map_cons, List.append_assoc]
        rfl
      · intro e' hmem
        rcases List.mem_cons.1 hmem with rfl | hmem
        · exact (Bool.and_eq_true_iff.1 hvalid).1
        · exact hnames e' hmem
    · have hheader : Builder.header (some before) e.1 e.2 = none := by
        rw [header, Option.bind_some, if_neg hvalid]
      rw [hheader, extend_none] at h
      cases h

/-- How the proxy itself logs in to a cluster. Only the first two give an HTTP header. -/
inductive ClusterAuth
  | basic (username password : String)
  | bearer (token : String)
  | accessKey | keyPair | roleArn
  deriving DecidableEq

def ClusterAuth.setsHttpAuthorization : ClusterAuth → Bool
  | basic .. | bearer _ => true
  | accessKey | keyPair | roleArn => false

structure TrinoAdapter where
  auth : Option ClusterAuth

/-- What is kept for the polls of a query. -/
inductive StoredWireAuth
  | authorization (value : String)
  | impersonateUser (user : String)
  deriving DecidableEq

/-! ## Credentials of a query -/

def resolveStoredWireAuth (credentials : QueryCredentials) (session : SessionContext)
    (clusterSetsHttpAuthorization : Bool) : Option StoredWireAuth :=
  match credentials with
  | .serviceAccount =>
    if clusterSetsHttpAuthorization then none
    else (session.extra "authorization").map .authorization
  | .passthrough => (session.extra "authorization").map .authorization
  | .impersonate user => some (.impersonateUser user)
  | .bearer token => some (.authorization ("Bearer " ++ token))

def base64Char (n : UInt8) : Char := Char.ofNat (base64Table.getD n.toNat 0).toNat

def base64Encode : List UInt8 → List Char
  | a :: b :: c :: rest =>
    base64Char (a >>> 2) :: base64Char ((a &&& 3) <<< 4 ||| b >>> 4) ::
      base64Char ((b &&& 15) <<< 2 ||| c >>> 6) :: base64Char (c &&& 63) :: base64Encode rest
  | [a, b] =>
    [base64Char (a >>> 2), base64Char ((a &&& 3) <<< 4 ||| b >>> 4), base64Char ((b &&& 15) <<< 2),
      '=']
  | [a] => [base64Char (a >>> 2), base64Char ((a &&& 3) <<< 4), '=', '=']
  | [] => []

def basicAuth (username password : String) : String :=
  "Basic " ++ String.ofList (base64Encode (username ++ ":" ++ password).toUTF8.toList)

namespace TrinoAdapter

variable (adapter : TrinoAdapter)

def clusterSetsHttpAuthorization : Bool := adapter.auth.any ClusterAuth.setsHttpAuthorization

variable (b : Builder)

def applyClusterAuth : Builder :=
  match adapter.auth with
  | some (.basic username password) => b.header "Authorization" (basicAuth username password)
  | some (.bearer token) => b.header "Authorization" ("Bearer " ++ token)
  | some .accessKey | some .keyPair | some .roleArn | none => b

def applyStoredWireAuth : Option StoredWireAuth → Builder
  | none => adapter.applyClusterAuth b
  | some (.authorization value) => b.header "Authorization" value
  | some (.impersonateUser user) => (adapter.applyClusterAuth b).header "X-Trino-User" user

def applyQueryCredentials (credentials : QueryCredentials) (session : SessionContext) :
    Except String Builder :=
  let wireAuth :=
    resolveStoredWireAuth credentials session adapter.clusterSetsHttpAuthorization
  if credentials = .passthrough ∧ wireAuth = none then
    .error ("passthrough requires a client Authorization header (or an OIDC raw_token) — " ++
      "none was available")
  else .ok (adapter.applyStoredWireAuth b wireAuth)

/-- The order in which the loops over the session's map and over the tags happen to go. -/
structure Iteration where
  extra : List (String × String)
  tags : List (String × Option String)

structure Iteration.Of (it : Iteration) (session : SessionContext) (tags : QueryTags) : Prop where
  extra_nodup : (it.extra.map Prod.fst).Nodup
  mem_extra : ∀ k v, (k, v) ∈ it.extra ↔ session.extra k = some v
  tags_nodup : (it.tags.map Prod.fst).Nodup
  mem_tags : ∀ k v, (k, v) ∈ it.tags ↔ tags k = some v

/-! ## Session headers -/

def requestCarriesIdentity (session : SessionContext) (entries : List (String × String))
    (credentials : QueryCredentials) : Bool :=
  entries.any (fun e => eqIgnoreAsciiCase e.1.toList "x-trino-user".toList) ||
    (resolveStoredWireAuth credentials session adapter.clusterSetsHttpAuthorization).isSome ||
    adapter.clusterSetsHttpAuthorization

def impersonates : QueryCredentials → Bool
  | .impersonate _ => true
  | .serviceAccount | .passthrough | .bearer _ => false

/-- Session values that are sent as headers. -/
def isForwarded (credentials : QueryCredentials) (key : String) : Bool :=
  let lower := toLowercase key.toList
  if lower == "x-trino-client-tags".toList || lower == "x-trino-session".toList then false
  else if lower == "authorization".toList then false
  else if lower == "x-trino-user".toList && impersonates credentials then false
  else "x-trino-".toList.isPrefixOf lower

def forwardEntry (credentials : QueryCredentials) (b : Builder) (e : String × String) : Builder :=
  if isForwarded credentials e.1 then b.header e.1 e.2 else b

def retainedProps (sessionProps : String) : List (List Char) :=
  let props := (sessionProps.toList.splitOn ',').map trim
  let props := props.filter fun prop =>
    let key := trim (prop.takeWhile (· ≠ '='))
    key ≠ "query_tag".toList ∧ key ≠ "query_tags".toList
  props.filter (· ≠ [])

def joined (parts : List (List Char)) : String := String.ofList ([','].intercalate parts)

def tagText : String × Option String → List Char
  | (k, none) => k.toList
  | (k, some v) => (k ++ ":" ++ v).toList

/-- The user of the session, for a request that names no user otherwise. -/
def applyFallbackUser (session : SessionContext) (entries : List (String × String))
    (credentials : QueryCredentials) : Builder :=
  if adapter.requestCarriesIdentity session entries credentials then b
  else
    match session.user.filter (· ≠ "") with
    | some user => b.header "X-Trino-User" user
    | none => b

def applySessionProps (session : SessionContext) : Builder :=
  match session.extra "x-trino-session" with
  | some sessionProps =>
    let retained := retainedProps sessionProps
    if retained ≠ [] then b.header "X-Trino-Session" (joined retained) else b
  | none => b

def applyClientTags (session : SessionContext) (tags : List (String × Option String)) : Builder :=
  if tags = [] then
    match session.extra "x-trino-client-tags" with
    | some v => b.header "X-Trino-Client-Tags" v
    | none => b
  else b.header "X-Trino-Client-Tags" (joined (tags.map tagText))

def applySessionHeaders (session : SessionContext) (it : Iteration)
    (credentials : QueryCredentials) : Builder :=
  let b := it.extra.foldl (forwardEntry credentials) b
  let b := adapter.applyFallbackUser b session it.extra credentials
  let b := applySessionProps b session
  applyClientTags b session it.tags

variable {b}

variable (session : SessionContext)

def submitQuery (it : Iteration) (credentials : QueryCredentials) :
    Except String (List (String × String)) :=
  match adapter.applyQueryCredentials (some []) credentials session with
  | .error e => .error e
  | .ok b =>
    match adapter.applySessionHeaders b session it credentials with
    | none => .error "Trino submit failed"
    | some headers => .ok headers

/-! ## The headers that are sent -/

def clusterHeader : Option String :=
  match adapter.auth with
  | some (.basic username password) => some (basicAuth username password)
  | some (.bearer token) => some ("Bearer " ++ token)
  | _ => none

def credentialHeaders (wireAuth : Option StoredWireAuth) : List (String × String) :=
  let cluster := adapter.clusterHeader.toList.map fun v => ("Authorization", v)
  match wireAuth with
  | none => cluster
  | some (.authorization value) => [("Authorization", value)]
  | some (.impersonateUser user) => cluster ++ [("X-Trino-User", user)]

def fallbackHeaders (entries : List (String × String)) (credentials : QueryCredentials) :
    List (String × String) :=
  if adapter.requestCarriesIdentity session entries credentials then []
  else (session.user.filter (· ≠ "")).toList.map fun user => ("X-Trino-User", user)

def propHeaders : List (String × String) :=
  let retained := ((session.extra "x-trino-session").map retainedProps).getD []
  if retained = [] then [] else [("X-Trino-Session", joined retained)]

def tagHeaders (tags : List (String × Option String)) : List (String × String) :=
  let texts := if tags = [] then (session.extra "x-trino-client-tags").toList
    else [joined (tags.map tagText)]
  texts.map fun v => ("X-Trino-Client-Tags", v)

/-- The headers of the credentials, the entries of the session that are forwarded, the session's
user if no user is named so far, properties and tags. -/
def givenHeaders (it : Iteration) (credentials : QueryCredentials) : List (String × String) :=
  adapter.credentialHeaders (resolveStoredWireAuth credentials session
      adapter.clusterSetsHttpAuthorization) ++
    it.extra.filter (fun e => isForwarded credentials e.1) ++
    adapter.fallbackHeaders session it.extra credentials ++
    propHeaders session ++ tagHeaders session it.tags

variable {session}

theorem isSome_clusterHeader :
    adapter.clusterHeader.isSome = adapter.clusterSetsHttpAuthorization := by
  unfold clusterHeader clusterSetsHttpAuthorization
  rcases adapter.auth with _ | auth
  · rfl
  · cases auth <;> rfl

theorem applyStoredWireAuth_eq (b : Builder) (wireAuth : Option StoredWireAuth) :
    adapter.applyStoredWireAuth b wireAuth = b.extend (adapter.credentialHeaders wireAuth) := by
  have hcluster : adapter.applyClusterAuth b =
      b.extend (adapter.clusterHeader.toList.map fun v => ("Authorization", v)) := by
    unfold applyClusterAuth clusterHeader
    rcases adapter.auth with _ | auth
    · rfl
    · cases auth <;> rfl
  rcases wireAuth with _ | ⟨value⟩ | ⟨user⟩
  · exact hcluster
  · rfl
  · rw [applyStoredWireAuth, hcluster, credentialHeaders, Builder.extend_append]
    rfl

theorem foldl_forwardEntry (credentials : QueryCredentials) (b : Builder)
    (entries : List (String × String)) :
    entries.foldl (forwardEntry credentials) b =
      b.extend (entries.filter fun e => isForwarded credentials e.1) := by
  induction entries generalizing b with
  | nil => rfl
  | cons _ _ ih =>
    rw [List.foldl_cons, ih, forwardEntry, List.filter_cons]
    split
    · rw [Builder.extend_cons]
    · rfl

theorem applyFallbackUser_eq (b : Builder) (session : SessionContext)
    (entries : List (String × String)) (credentials : QueryCredentials) :
    adapter.applyFallbackUser b session entries credentials =
      b.extend (adapter.fallbackHeaders session entries credentials) := by
  unfold applyFallbackUser fallbackHeaders
  split
  · rfl
  · cases session.user.filter (· ≠ "") <;> rfl

theorem applySessionProps_eq (b : Builder) (session : SessionContext) :
    applySessionProps b session = b.extend (propHeaders session) := by
  unfold applySessionProps propHeaders
  cases session.extra "x-trino-session" with
  | none => rfl
  | some sessionProps =>
    dsimp only [Option.map_some, Option.getD_some]
    by_cases hretained : retainedProps sessionProps = []
    · rw [if_neg (not_not_intro hretained), if_pos hretained, Builder.extend_nil]
    · rw [if_pos hretained, if_neg hretained]
      rfl

theorem applyClientTags_eq (b : Builder) (session : SessionContext)
    (tags : List (String × Option String)) :
    applyClientTags b session tags = b.extend (tagHeaders session tags) := by
  unfold applyClientTags tagHeaders
  by_cases htags : tags = []
  · rw [if_pos htags, if_pos htags]
    cases session.extra "x-trino-client-tags" <;> rfl
  · rw [if_neg htags, if_neg htags]
    rfl

theorem applySessionHeaders_eq (wireAuth : Option StoredWireAuth) (session : SessionContext)
    (it : Iteration) (credentials : QueryCredentials) :
    adapter.applySessionHeaders (adapter.applyStoredWireAuth (some []) wireAuth) session it
        credentials =
      Builder.extend (some []) (adapter.credentialHeaders wireAuth ++
        it.extra.filter (fun e => isForwarded credentials e.1) ++
        adapter.fallbackHeaders session it.extra credentials ++
        propHeaders session ++ tagHeaders session it.tags) := by
  simp only [applySessionHeaders, applyStoredWireAuth_eq, foldl_forwardEntry, applyFallbackUser_eq,
    applySessionProps_eq, applyClientTags_eq, Builder.extend_append]

theorem submitQuery_eq {session : SessionContext} {it : Iteration}
    {credentials : QueryCredentials} {headers : List (String × String)}
    (h : adapter.submitQuery session it credentials = .ok headers) :
    headers = (adapter.givenHeaders session it credentials).map
        (fun h => (lowerName h.1, h.2)) ∧
      ∀ h ∈ adapter.givenHeaders session it credentials, validName h.1 = true := by
  unfold submitQuery applyQueryCredentials at h
  dsimp only at h
  split at h
  · cases h
  · rename_i b hb
    split at hb
    · cases hb
    · cases hb
      split at h
      · cases h
      · rename_i sent hsent
        cases h
        rw [applySessionHeaders_eq] at hsent
        exact Builder.extend_eq_some hsent

end TrinoAdapter

end QueryFlux.Trino
