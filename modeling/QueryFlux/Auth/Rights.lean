import QueryFlux.Auth.Provider

/-!
# What an identity may do

`SimpleAuthorizationPolicy` lets an identity use a cluster group by its user name or one of its
groups. An identity has the rights of an anonymous caller, under every policy, exactly if it is
named like one and has no groups (`rights_of_anonymous_iff`).

Credentials without a secret (no token, and no password or an empty one) should not get more than
that. They do, wherever they name a user and the provider takes the name: the static provider and
the OIDC provider when authentication is optional, and the LDAP provider always, because a simple
bind with an empty password is an unauthenticated bind, which a server may answer with success
(`unauthenticated_bind_gets_rights`).
-/

namespace QueryFlux.Auth

open Core

/-! ## Authorization -/

structure ClusterGroupAuthorizationConfig where
  allowGroups : List String
  allowUsers : List String

structure SimpleAuthorizationPolicy where
  policies : String → Option ClusterGroupAuthorizationConfig

/-- A group without a policy is open to all. -/
def SimpleAuthorizationPolicy.check (p : SimpleAuthorizationPolicy) (auth : AuthContext)
    (group : String) : Bool :=
  match p.policies group with
  -- a group that is not in the map is open
  | none => true
  | some policy =>
    if policy.allowGroups.isEmpty && policy.allowUsers.isEmpty then true
    else if policy.allowUsers.contains auth.user then true
    else auth.groups.any policy.allowGroups.contains

def onlyFor (users groups : List String) : SimpleAuthorizationPolicy :=
  ⟨fun _ => some ⟨groups, users⟩⟩

theorem check_onlyFor {users groups : List String} (hne : users ≠ [] ∨ groups ≠ [])
    (auth : AuthContext) (group : String) :
    (onlyFor users groups).check auth group = true ↔
      auth.user ∈ users ∨ ∃ g ∈ auth.groups, g ∈ groups := by
  have hclosed : (groups.isEmpty && users.isEmpty) = false := by
    rcases hne with hne | hne <;> simp [hne]
  simp only [SimpleAuthorizationPolicy.check, onlyFor, hclosed]
  by_cases huser : auth.user ∈ users <;> simp [huser]

variable {auth : AuthContext}

theorem check_congr (p : SimpleAuthorizationPolicy) {auth' : AuthContext}
    (huser : auth.user = auth'.user) (hgroups : auth.groups = auth'.groups) (group : String) :
    p.check auth group = p.check auth' group := by
  rw [SimpleAuthorizationPolicy.check, SimpleAuthorizationPolicy.check, huser, hgroups]

/-! ## Callers without a secret -/

/-- What an identity may do, an anonymous caller may do too. -/
def NoMoreThanAnonymous (auth : AuthContext) : Prop :=
  ∀ (p : SimpleAuthorizationPolicy) (group : String),
    p.check auth group = true → p.check anonymous group = true

theorem rights_of_anonymous_iff :
    NoMoreThanAnonymous auth ↔ auth.user = "anonymous" ∧ auth.groups = [] := by
  constructor
  · intro h
    constructor
    · have hown : (onlyFor [auth.user] []).check auth "" = true :=
        (check_onlyFor (.inl (List.cons_ne_nil _ _)) auth "").2 (.inl (.head _))
      have hanon := (check_onlyFor (.inl (List.cons_ne_nil _ _)) anonymous "").1 (h _ "" hown)
      rcases hanon with huser | ⟨g, hg, -⟩
      · exact (List.mem_singleton.1 huser).symm
      · cases hg
    · rw [List.eq_nil_iff_forall_not_mem]
      intro g hg
      have hown : (onlyFor [] [g]).check auth "" = true :=
        (check_onlyFor (.inr (List.cons_ne_nil _ _)) auth "").2 (.inr ⟨g, hg, .head _⟩)
      have hanon := (check_onlyFor (.inr (List.cons_ne_nil _ _)) anonymous "").1 (h _ "" hown)
      rcases hanon with huser | ⟨g', hg', -⟩
      · cases huser
      · cases hg'
  · rintro ⟨huser, hgroups⟩ p group hcheck
    rwa [← check_congr p huser hgroups]

/-- No token, and no password or an empty one. -/
def Secretless (creds : Credentials) : Prop :=
  creds.bearerToken = none ∧ (creds.password = none ∨ creds.password = some "")

def givenName (creds : Credentials) : Option String := creds.username.filter (· ≠ "")

/-- The credentials name nobody, or the user `anonymous`, who then has no groups. -/
def AuthProvider.NamesNobody (provider : AuthProvider) (creds : Credentials) : Prop :=
  match provider with
  | .none _ => givenName creds = .none ∨ givenName creds = some "anonymous"
  | .static users _ => givenName creds = .none ∨
      givenName creds = some "anonymous" ∧
        ∀ entry, users "anonymous" = some entry → entry.groups = []
  -- an empty name is a name
  | .oidc _ _ => creds.username = .none ∨ creds.username = some "anonymous"
  | .ldap _ bindAs => givenName creds = .none ∨
      givenName creds = some "anonymous" ∧
        ∀ groups, bindAs "anonymous" (creds.password.getD "") = .ok groups → groups = []

theorem AuthProvider.authenticate_secretless {provider : AuthProvider} {creds : Credentials}
    (hcreds : creds.bearerToken = .none) (h : provider.authenticate creds = .ok auth) :
    (auth.user = "anonymous" ∧ auth.groups = []) ↔ provider.NamesNobody creds := by
  cases provider with
  | none =>
    simp only [authenticate, authenticateNone] at h
    unfold NamesNobody givenName
    split at h
    · rename_i user huser
      cases h
      rw [huser]
      simp [plainContext]
    · rename_i huser
      split at h
      · cases h
      · cases h
        exact iff_of_true ⟨rfl, rfl⟩ (.inl huser)
  | static =>
    simp only [authenticate, authenticateStatic, hcreds, Option.isSome_none, Bool.false_and,
      Bool.false_eq_true, if_false] at h
    unfold NamesNobody givenName
    split at h
    · rename_i huser
      split at h
      · cases h
      · cases h
        exact iff_of_true ⟨rfl, rfl⟩ (.inl huser)
    · rename_i user huser
      split at h
      · cases h
      · rename_i entry hentry
        have hauth : auth =
            { plainContext user with groups := entry.groups, roles := entry.roles } := by
          split at h
          · split at h
            · cases h
            · exact (Except.ok.inj h).symm
          · split at h
            · cases h
            · exact (Except.ok.inj h).symm
        subst hauth
        rw [huser]
        constructor
        · rintro ⟨rfl, hgroups⟩
          refine .inr ⟨rfl, fun entry' hentry' => ?_⟩
          rw [hentry] at hentry'
          exact Option.some.inj hentry' ▸ hgroups
        · rintro (hnone | ⟨hname, hgroups⟩)
          · cases hnone
          · cases hname
            exact ⟨rfl, hgroups entry hentry⟩
  | oidc =>
    simp only [authenticate, authenticateOidc, hcreds] at h
    split at h
    · cases h
    · cases h
      unfold NamesNobody
      cases creds.username with
      | none | some => simp [plainContext]
  | ldap _ bindAs =>
    simp only [authenticate, authenticateLdap] at h
    unfold NamesNobody givenName
    split at h
    · rename_i huser
      split at h
      · cases h
      · cases h
        exact iff_of_true ⟨rfl, rfl⟩ (.inl huser)
    · rename_i user huser
      rw [huser]
      cases hbind : bindAs user (creds.password.getD "") with
      | error =>
        rw [hbind] at h
        cases h
      | ok groups =>
        rw [hbind] at h
        cases h
        constructor
        · rintro ⟨rfl, hgroups⟩
          refine .inr ⟨rfl, fun groups' hgroups' => ?_⟩
          rw [hbind] at hgroups'
          exact Except.ok.inj hgroups' ▸ hgroups
        · rintro (hnone | ⟨hname, hgroups⟩)
          · cases hnone
          · cases hname
            exact ⟨rfl, hgroups groups hbind⟩

/-- Credentials without a secret get no more rights than an anonymous caller exactly where they
name nobody. -/
theorem secretless_rights_iff {provider : AuthProvider} {creds : Credentials} {auth : AuthContext}
    (hcreds : Secretless creds) (h : provider.authenticate creds = .ok auth) :
    NoMoreThanAnonymous auth ↔ provider.NamesNobody creds :=
  rights_of_anonymous_iff.trans (AuthProvider.authenticate_secretless hcreds.1 h)

/-- A directory that takes an empty password, as a server that allows unauthenticated binds does,
and knows the groups of `alice`. -/
def openDirectory (user password : String) : Except String (List String) :=
  if password = "" then .ok (if user = "alice" then ["admins"] else [])
  else .error ("authentication failed for user '" ++ user ++ "'")

/-- Without a user name the rights are those of an anonymous caller. -/
theorem nameless_has_no_rights :
    ∃ auth, (AuthProvider.ldap false openDirectory).authenticate ⟨none, some "", none⟩ =
      .ok auth ∧ NoMoreThanAnonymous auth := by
  have hcreds : Secretless ⟨none, some "", none⟩ := ⟨rfl, .inr rfl⟩
  have hauth : (AuthProvider.ldap false openDirectory).authenticate ⟨none, some "", none⟩ =
      .ok anonymous := rfl
  exact ⟨anonymous, hauth, (secretless_rights_iff hcreds hauth).2 (.inl rfl)⟩

/-- An LDAP server that takes an empty password for an anonymous bind lets anyone in as alice. -/
theorem unauthenticated_bind_gets_rights :
    ∃ auth, (AuthProvider.ldap true openDirectory).authenticate ⟨some "alice", some "", none⟩ =
      .ok auth ∧ (onlyFor [] ["admins"]).check auth "analytics" = true ∧
        (onlyFor [] ["admins"]).check anonymous "analytics" = false :=
  ⟨{ plainContext "alice" with groups := ["admins"], rawPassword := some "" }, by rfl, by decide,
    by decide⟩

end QueryFlux.Auth
