import QueryFlux.Auth.Provider
import QueryFlux.Dispatch.Pipeline
import QueryFlux.Lib.Transition
import QueryFlux.Wire.Statements

/-!
# Connections over the MySQL and the Postgres wire

A connection of either protocol has one session. The user comes from the handshake, or the startup
message. What the client says about itself beyond that goes into `extra`: over MySQL the variables
it sets, over Postgres the startup parameters.

Each statement is first authenticated, with the session's user name as the only credential, by the
provider configured at that moment. Then it is answered by the frontend itself, or routed and
handed to dispatch with the session as it is.

The bytes of a message are taken as their text, and of a reply only whether the statement went on to
dispatch is kept.
-/

namespace QueryFlux.Wire

open Auth Core Dispatch Lib

/-! ## Snapshots and sessions -/

structure Snapshot where
  authProvider : AuthProvider
  -- the router chain and what follows it, `resolve_routed_group`
  route : String → SessionContext → FrontendProtocol → AuthContext → Except String String

structure Frontend where
  parseQueryTags : List Char → QueryTags
  -- a `SELECT` of metadata expressions only, which is answered from the session
  isMetadataSelect : List Char → SessionContext → Bool

/-- Only the user name. -/
def wireCredentials (session : SessionContext) : Credentials := ⟨session.user, none, none⟩

def nonEmpty (s : List Char) : Option String := if s = [] then none else some (String.ofList s)

def setVariable (session : SessionContext) (key value : String) : SessionContext :=
  { session with extra := fun k => if k = key then some value else session.extra k }

variable (frontend : Frontend)

/-- An authenticated statement: the session after it, and the request if there is one. None if the
connection's task panics. -/
def handleStatement (live : Snapshot) (auth : AuthContext) (session : SessionContext)
    (sql : String) : Option (SessionContext × Option Request) :=
  let logical := stripMysqlConditionalComment sql.toList
  let lower := toLowercase (trim logical)
  match tryParseSetQueryTags logical with
  | none => none
  | some (some value) => some ({ session with tags := frontend.parseQueryTags value }, none)
  | some none =>
    if startsWithSet lower then
      match tryParseSetKv logical with
      | some (key, value) => some (setVariable session key value, none)
      | none => some (session, none)
    else
      match tryParseUse logical with
      | some db => some ({ session with database := nonEmpty db }, none)
      | none =>
        if isProbe lower || frontend.isMetadataSelect lower session then some (session, none)
        else
          match live.route sql session .mySqlWire auth with
          | .error _ => some (session, none)
          | .ok group => some (session, some ⟨sql, [], session, .mySqlWire, group, auth⟩)

/-! ## MySQL -/

def handleComQuery (snapshot : Option Snapshot) (session : SessionContext) (sql : String) :
    Option (SessionContext × Option Request) :=
  match snapshot with
  | none => some (session, none)
  | some live =>
    match live.authProvider.authenticate (wireCredentials session) with
    | .error _ => some (session, none)
    | .ok auth => handleStatement frontend live auth session sql

/-- The session after the handshake. -/
def handshakeSession (user : String) (schema : Option String) : SessionContext where
  user := nonEmpty user.toList
  database := schema
  catalog := none
  tags := fun _ => none
  extra := fun _ => none
  agentContext := none

/-- What a connection receives, each query with the snapshot it is taken under. -/
inductive Command
  | quit
  | ping
  | initDb (db : String)
  | query (snapshot : Option Snapshot) (sql : String)
  | fieldList
  | unsupported (code : UInt8)

def handleCommand (session : SessionContext) : Command → Option SessionContext
  | .quit => none
  | .ping | .fieldList | .unsupported _ => some session
  | .initDb db => some { session with database := nonEmpty db.toList }
  | .query snapshot sql => (handleComQuery frontend snapshot session sql).map Prod.fst

def mysqlConnection (user : String) (schema : Option String) : System SessionContext Command where
  init := (· = handshakeSession user schema)
  step := handleCommand frontend

theorem mysqlConnection_step (user : String) (schema : Option String) :
    (mysqlConnection frontend user schema).step = handleCommand frontend := rfl

/-! ## Postgres -/

def startupPairs : List (List Char) → List (String × String)
  | [] => []
  | [key] => if key = [] then [] else [(String.ofList key, "")]
  | key :: value :: rest =>
    if key = [] then [] else (String.ofList key, String.ofList value) :: startupPairs rest

/-- The startup parameters: strings that end with a NUL. A later value of a key replaces an earlier
one. -/
def parseStartupParams (data : List Char) : String → Option String :=
  (startupPairs (data.splitOn '\x00')).foldl
    (fun params (key, value) k => if k = key then some value else params k) fun _ => none

def wellKnown : List String := ["user", "database", "query_tags", "query_tag"]

/-- All parameters but the well-known ones are session values. -/
def startupSession (params : String → Option String) : SessionContext where
  user := nonEmpty ((params "user").getD "").toList
  database := params "database"
  catalog := none
  tags := frontend.parseQueryTags ((params "query_tags" <|> params "query_tag").getD "").toList
  extra := fun k => if wellKnown.contains k then none else params k
  agentContext := none

variable {frontend}

def handleSimpleQuery (snapshot : Option Snapshot) (session : SessionContext) (sql : String) :
    Option Request :=
  if sql.isEmpty then none
  else
    match snapshot with
    | none => none
    | some live =>
      match live.authProvider.authenticate (wireCredentials session) with
      | .error _ => none
      | .ok auth =>
        if startsWithSet (toLowercase (trim sql.toList)) then none
        else
          match live.route sql session .postgresWire auth with
          | .error _ => none
          | .ok group => some ⟨sql, [], session, .postgresWire, group, auth⟩

/-- The requests that some connection, over one of the two protocols, comes to dispatch. -/
inductive WireRequest (frontend : Frontend) : Request → Prop
  | mysql {user : String} {schema : Option String} {session session' : SessionContext}
      {snapshot : Option Snapshot} {sql : String} {r : Request}
      (hreach : (mysqlConnection frontend user schema).Reach (fun _ _ => True) session)
      (hquery : handleComQuery frontend snapshot session sql = some (session', some r)) :
      WireRequest frontend r
  | postgres {data : List Char} {snapshot : Option Snapshot} {sql : String} {r : Request}
      (hquery : handleSimpleQuery snapshot (startupSession frontend (parseStartupParams data)) sql =
        some r) : WireRequest frontend r

/-! ## Requests -/

/-- What a request carries: the session it was made in, authenticated by its user's name. -/
structure Authenticated (r : Request) (session : SessionContext) : Prop where
  session_eq : r.session = session
  auth_eq : ∃ provider : AuthProvider, provider.authenticate (wireCredentials session) = .ok r.auth

variable {session session' : SessionContext} {frontend : Frontend} {snapshot : Option Snapshot}

theorem handleComQuery_authenticated {sql : String} {r : Request}
    (h : handleComQuery frontend snapshot session sql = some (session', some r)) :
    Authenticated r session := by
  unfold handleComQuery at h
  split at h
  · simp at h
  · rename_i live
    split at h
    · simp at h
    · rename_i auth hauth
      have hr : r.session = session ∧ r.auth = auth := by
        unfold handleStatement at h
        grind
      exact ⟨hr.1, live.authProvider, hr.2 ▸ hauth⟩

theorem handleSimpleQuery_authenticated {sql : String} {r : Request}
    (h : handleSimpleQuery snapshot session sql = some r) : Authenticated r session := by
  unfold handleSimpleQuery at h
  split at h
  · cases h
  · split at h
    · cases h
    · rename_i live
      split at h
      · cases h
      · rename_i auth hauth
        split at h
        · cases h
        · split at h
          · cases h
          · cases h
            exact ⟨rfl, live.authProvider, hauth⟩

theorem nonEmpty_ne (s : List Char) : nonEmpty s ≠ some "" := by
  unfold nonEmpty
  split
  · exact nofun
  · rename_i hne
    intro h
    exact hne (String.ofList_eq_empty_iff.1 (Option.some.inj h))

theorem handleComQuery_user {sql : String} {r : Option Request}
    (h : handleComQuery frontend snapshot session sql = some (session', r)) :
    session'.user = session.user := by
  unfold handleComQuery handleStatement setVariable at h
  grind

theorem handleCommand_user {command : Command}
    (h : handleCommand frontend session command = some session') :
    session'.user = session.user := by
  cases command with
  | quit => cases h
  | query =>
    obtain ⟨⟨s, r⟩, hquery, rfl⟩ := Option.map_eq_some_iff.1 h
    exact handleComQuery_user hquery
  | _ => cases h; rfl

/-- The user of a connection is the one of its handshake. -/
theorem user_of_reach {user : String} {schema : Option String}
    (h : (mysqlConnection frontend user schema).Reach (fun _ _ => True) session) :
    session.user = nonEmpty user.toList := by
  induction h with
  | init h => rw [h]; rfl
  | step _ _ hstep ih => exact (handleCommand_user hstep).trans ih

theorem WireRequest.auth_user {r : Request} (h : WireRequest frontend r) {user : String}
    (huser : r.session.user = some user) : r.auth.user = user := by
  have hverified {session : SessionContext} (hauth : Authenticated r session)
      (hnamed : session.user ≠ some "") : r.auth.user = user := by
    rw [hauth.session_eq] at huser
    obtain ⟨provider, hprovider⟩ := hauth.auth_eq
    rw [wireCredentials, huser] at hprovider
    refine provider.authenticate_username ?_ hprovider
    rintro rfl
    exact hnamed huser
  cases h with
  | mysql hreach hquery =>
    refine hverified (handleComQuery_authenticated hquery) ?_
    rw [user_of_reach hreach]
    exact nonEmpty_ne _
  | postgres hquery => exact hverified (handleSimpleQuery_authenticated hquery) (nonEmpty_ne _)

end QueryFlux.Wire
