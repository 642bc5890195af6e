import QueryFlux.Core.Query

/-!
# Who a client is, and as whom its query runs

The authentication providers turn the credentials of a request into a verified identity. The
backend identity resolver turns that identity, and the `queryAuth` mode of the cluster the query
got a slot on, into the credentials of the query.

A client that gives a user name and nothing else is, with every provider that accepts it, the user
it names (`authenticate_username`).
-/

namespace QueryFlux.Auth

open Core

/-! ## Authentication -/

structure StaticUserEntry where
  password : String
  groups : List String
  roles : List String

/-- The four providers, with what an outside service answers as functions. -/
inductive AuthProvider
  | none (required : Bool)
  | static (users : String → Option StaticUserEntry) (required : Bool)
  -- the validation of a token: its key, signature, issuer, audience and claims
  | oidc (required : Bool) (validate : String → Except String AuthContext)
  -- looking up the user, binding with the password and reading the groups
  | ldap (required : Bool) (bindAs : String → String → Except String (List String))

def noUsername : String := "authentication required: no username provided"

def plainContext (user : String) : AuthContext := ⟨user, [], [], .none, .none, fun _ => .none⟩

def anonymous : AuthContext := plainContext "anonymous"

def authenticateNone (required : Bool) (creds : Credentials) : Except String AuthContext :=
  match creds.username.filter (· ≠ "") with
  | some user => .ok { plainContext user with rawToken := creds.bearerToken }
  | .none =>
    if required then .error noUsername
    else .ok { anonymous with rawToken := creds.bearerToken }

def authenticateStatic (users : String → Option StaticUserEntry) (required : Bool)
    (creds : Credentials) : Except String AuthContext :=
  if creds.bearerToken.isSome && creds.username.isNone then
    .error "static auth provider does not accept bearer tokens without a username"
  else
    match creds.username.filter (· ≠ "") with
    | .none => if required then .error noUsername else .ok anonymous
    | some user =>
      match users user with
      | .none => .error ("authentication failed for user '" ++ user ++ "'")
      | some entry =>
        let accepted := .ok { plainContext user with groups := entry.groups, roles := entry.roles }
        match creds.password with
        | some provided =>
          if provided ≠ entry.password then
            .error ("authentication failed for user '" ++ user ++ "'")
          else accepted
        | .none =>
          if required then
            .error ("authentication required: no password provided for user '" ++ user ++ "'")
          else accepted

def authenticateOidc (required : Bool) (validate : String → Except String AuthContext)
    (creds : Credentials) : Except String AuthContext :=
  match creds.bearerToken with
  | some token => validate token
  | .none =>
    if required then .error "OIDC authentication required: no bearer token provided"
    else .ok (plainContext (creds.username.getD "anonymous"))

def authenticateLdap (required : Bool) (bindAs : String → String → Except String (List String))
    (creds : Credentials) : Except String AuthContext :=
  match creds.username.filter (· ≠ "") with
  | .none => if required then .error noUsername else .ok anonymous
  | some user =>
    let password := creds.password.getD ""
    (bindAs user password).map fun groups =>
      { plainContext user with groups := groups, rawPassword := some password }

def AuthProvider.authenticate : AuthProvider → Credentials → Except String AuthContext
  | none required => authenticateNone required
  | static users required => authenticateStatic users required
  | oidc required validate => authenticateOidc required validate
  | ldap required bindAs => authenticateLdap required bindAs

theorem AuthProvider.authenticate_username {provider : AuthProvider} {user : String}
    {auth : AuthContext} (hne : user ≠ "")
    (h : provider.authenticate ⟨some user, .none, .none⟩ = .ok auth) : auth.user = user := by
  have hname : (some user).filter (fun u => decide (u ≠ "")) = some user := by
    simp [Option.filter, hne]
  cases provider with
  | none =>
    simp only [authenticate, authenticateNone, hname, Except.ok.injEq] at h
    rw [← h]
    rfl
  | static =>
    simp only [authenticate, authenticateStatic, hname, Option.isSome_none, Bool.false_and,
      Bool.false_eq_true, if_false] at h
    split at h
    · cases h
    · split at h
      · cases h
      · rw [← Except.ok.inj h]
        rfl
  | oidc =>
    simp only [authenticate, authenticateOidc] at h
    split at h
    · cases h
    · rw [← Except.ok.inj h]
      rfl
  | ldap _ bindAs =>
    simp only [authenticate, authenticateLdap, hname] at h
    cases hbind : bindAs user ((Option.none : Option String).getD "") with
    | error => rw [hbind] at h; cases h
    | ok =>
      rw [hbind] at h
      rw [← Except.ok.inj h]
      rfl

/-! ## Credentials for the engine -/

inductive QueryAuthConfig
  | serviceAccount
  | passthrough
  | impersonate
  -- what the token endpoint answers for a user and the token it came with
  | tokenExchange (exchange : String → String → Except String String)

def exchangeToken (auth : AuthContext) (exchange : String → String → Except String String) :
    Except String String :=
  match auth.rawToken with
  | some token => exchange auth.user token
  | .none =>
    .error "tokenExchange requires a bearer token (use OidcAuthProvider on the frontend)"

/-- The credentials a query is run with, by the cluster's mode. -/
def resolve (auth : AuthContext) (mode : Option QueryAuthConfig) :
    Except String QueryCredentials :=
  if auth.user = "anonymous" then
    match mode with
    | .none | some .serviceAccount => .ok .serviceAccount
    | some _ =>
      .error "anonymous requests cannot use explicit per-user query authentication"
  else
    match mode with
    | .none | some .serviceAccount => .ok .serviceAccount
    | some .passthrough => .ok .passthrough
    | some .impersonate => .ok (.impersonate auth.user)
    | some (.tokenExchange exchange) => (exchangeToken auth exchange).map .bearer

theorem resolve_impersonate {auth : AuthContext} {mode : Option QueryAuthConfig} {user : String}
    (h : resolve auth mode = .ok (.impersonate user)) : user = auth.user := by
  unfold resolve at h
  split at h
  · split at h <;> cases h
  · split at h
    · cases h
    · cases h
    · cases h
    · cases h
      rfl
    · rename_i exchange
      cases hex : exchangeToken auth exchange with
      | error | ok => rw [hex] at h; cases h

end QueryFlux.Auth
