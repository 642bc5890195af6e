import QueryFlux.Snowflake.Session
import QueryFlux.Snowflake.Pools

/-!
# What a session has selected

The `USE` statements of a session are writes of its warehouse, role, database and schema
(`selects`); a `USE DATABASE` also clears the schema. After any requests the session has what was
written last (`get_afterRequests`).

An ordinary query runs on a pool with the session's warehouse, role and schema, or with those of the
configuration where nothing is selected. Its database is always the one of the configuration: the
key of a pool has none. So the database is the selected one exactly where nothing else than that of
the configuration was selected (`use_statements_govern_pools`).
-/

namespace QueryFlux.Snowflake

open Core Lib

/-! ## What is selected -/

inductive Field
  | warehouse | role | database | schema
  deriving DecidableEq

/-- What a statement sets; `USE DATABASE` also unsets the schema. -/
def selects : SnowflakeUseTarget × List String → List (Field × Option String)
  | (.warehouse, [v]) => [(.warehouse, some v)]
  | (.role, [v]) => [(.role, some v)]
  | (.database, [v]) => [(.database, some v), (.schema, none)]
  | (.schema, [v]) => [(.schema, some v)]
  | (.schema, [d, v]) => [(.database, some d), (.schema, some v)]
  | _ => []

def useOf (tokenize : Tokenize) (body : Option QueryBody) :
    Option (SnowflakeUseTarget × List String) := do
  let body ← body
  let sql ← body.sqlText.filter (fun s => trim s.toList ≠ [])
  tryParseSnowflakeUse tokenize sql.toList

/-- All that the statements before set, in order. -/
def history (tokenize : Tokenize) (rs : List (Option QueryBody)) : List (Field × Option String) :=
  rs.flatMap fun r => (useOf tokenize r).elim [] selects

def SnowflakeSession.get (session : SnowflakeSession) : Field → Option String
  | .warehouse => session.warehouse
  | .role => session.role
  | .database => session.database
  | .schema => session.schema

variable {tokenize : Tokenize} {session : SnowflakeSession}

variable {target : SnowflakeUseTarget} {names : List String} {ctx : SessionContext}

theorem useNames_length {tokens : List Token} (h : useNames target tokens = some names) :
    (∃ v, names = [v]) ∨ (target = .schema ∧ ∃ d v, names = [d, v]) := by
  unfold useNames at h
  split at h
  · split at h
    · exact .inl ⟨_, (Option.some.inj h).symm⟩
    · cases h
  · split at h
    · rename_i hcond
      simp only [Bool.and_eq_true, decide_eq_true_eq] at hcond
      exact .inr ⟨hcond.1.1.1, _, _, (Option.some.inj h).symm⟩
    · cases h
  · cases h

theorem names_of_tryParseSnowflakeUse {sql : List Char}
    (h : tryParseSnowflakeUse tokenize sql = some (target, names)) :
    (∃ v, names = [v]) ∨ (target = .schema ∧ ∃ d v, names = [d, v]) := by
  unfold tryParseSnowflakeUse at h
  simp only [Option.bind_eq_bind, Option.bind_eq_some_iff, Option.pure_def, Option.some.injEq,
    Prod.mk.injEq] at h
  obtain ⟨⟨target', rest⟩, -, tokens, -, names', hnames, rfl, rfl⟩ := h
  exact useNames_length hnames

theorem get_applyUse (h : (∃ v, names = [v]) ∨ (target = .schema ∧ ∃ d v, names = [d, v]))
    (f : Field) : (applyUse session target names).get f =
      (lastWrite (selects (target, names)) f).getD (session.get f) := by
  rcases h with ⟨v, rfl⟩ | ⟨rfl, d, v, rfl⟩
  · cases target <;> cases f <;> rfl
  · cases f <;> rfl

theorem get_queryRequest (r : Option QueryBody) (f : Field) :
    (queryRequest tokenize session r).1.get f =
      (lastWrite ((useOf tokenize r).elim [] selects) f).getD (session.get f) := by
  cases r with
  | none => rfl
  | some body =>
    unfold queryRequest useOf
    dsimp only [Option.bind_eq_bind, Option.bind_some]
    cases hsql : body.sqlText.filter (fun s => trim s.toList ≠ []) with
    | none => rfl
    | some sql =>
      dsimp only [Option.bind_some]
      cases huse : tryParseSnowflakeUse tokenize sql.toList with
      | none => rfl
      | some => exact get_applyUse (names_of_tryParseSnowflakeUse huse) f

theorem get_afterRequests (session : SnowflakeSession) (rs : List (Option QueryBody)) (f : Field) :
    (afterRequests tokenize session rs).get f =
      (lastWrite (history tokenize rs) f).getD (session.get f) := by
  induction rs generalizing session with
  | nil => rfl
  | cons r rs ih =>
    have hcons : history tokenize (r :: rs) =
        (useOf tokenize r).elim [] selects ++ history tokenize rs := List.flatMap_cons
    rw [afterRequests, ih, get_queryRequest, hcons, lastWrite_append]
    cases lastWrite (history tokenize rs) f with
    | none => rfl
    | some => rfl

theorem queryRequest_run {r : Option QueryBody} {exec : ExecParams}
    (h : (queryRequest tokenize session r).2 = .run exec) :
    exec.sessionCtx = sessionContext session ∧ exec.authCtx = session.authCtx := by
  unfold queryRequest at h
  split at h
  · cases h
  · split at h
    · cases h
    · split at h
      · cases h
      · obtain rfl := Reply.run.inj h
        exact ⟨rfl, rfl⟩

theorem ne_empty_of_isUseIdentifier {token : Token} (h : isUseIdentifier token = true) :
    token.text ≠ "" := by
  intro hempty
  unfold isUseIdentifier at h
  rw [hempty] at h
  split at h
  · cases h
  · simp at h

theorem useNames_ne_empty {tokens : List Token} (h : useNames target tokens = some names) :
    "" ∉ names := by
  unfold useNames at h
  split at h
  · split at h
    · rename_i hid
      cases h
      simpa using (ne_empty_of_isUseIdentifier hid).symm
    · cases h
  · split at h
    · rename_i hcond
      simp only [Bool.and_eq_true, decide_eq_true_eq] at hcond
      cases h
      have hdatabase := ne_empty_of_isUseIdentifier hcond.1.2
      have hschema := ne_empty_of_isUseIdentifier hcond.2
      simp [hdatabase.symm, hschema.symm]
    · cases h
  · cases h

theorem selects_ne_empty (h : "" ∉ names) : ∀ w ∈ selects (target, names), w.2 ≠ some "" := by
  intro w hw hempty
  unfold selects at hw
  split at hw
  all_goals simp_all
  · rcases hw with rfl | rfl <;> simp_all
  · rcases hw with rfl | rfl <;> simp_all

theorem history_ne_empty (rs : List (Option QueryBody)) :
    ∀ w ∈ history tokenize rs, w.2 ≠ some "" := by
  intro w hw
  obtain ⟨r, -, hw⟩ := List.mem_flatMap.1 hw
  cases huse : useOf tokenize r with
  | none =>
    rw [huse] at hw
    cases hw
  | some =>
    rw [huse] at hw
    unfold useOf at huse
    simp only [Option.bind_eq_bind, Option.bind_eq_some_iff] at huse
    obtain ⟨body, -, sql, -, hparse⟩ := huse
    unfold tryParseSnowflakeUse at hparse
    simp only [Option.bind_eq_bind, Option.bind_eq_some_iff, Option.pure_def,
      Option.some.injEq] at hparse
    obtain ⟨⟨target, rest⟩, -, tokens, -, names, hnames, rfl⟩ := hparse
    exact selects_ne_empty (useNames_ne_empty hnames) w hw

def Field.key : Field → String
  | .warehouse => "adbc.snowflake.sql.warehouse"
  | .role => "adbc.snowflake.sql.role"
  | .database => "adbc.snowflake.sql.db"
  | .schema => "adbc.snowflake.sql.schema"

theorem Field.key_injective : Function.Injective Field.key := by
  intro f f' h
  cases f <;> cases f' <;> first | rfl | exact absurd h (by decide)

/-- The value that the driver takes. -/
def effective (opts : Options) (f : Field) : Option String := lastWrite opts (.other f.key)

def AdbcConfig.baseValue (config : AdbcConfig) (f : Field) : Option String :=
  dbKwarg config.dbKwargs f.key

def PoolScopeKey.value (key : PoolScopeKey) : Field → Option String
  | .warehouse => key.warehouse
  | .role => key.role
  | .database => none
  | .schema => key.schema

variable {config : AdbcConfig} {opts : Options}

theorem effective_kwargOptions (config : AdbcConfig) (f : Field) :
    effective config.kwargOptions f = config.baseValue f := by
  have hinj : Function.Injective OptionDatabase.other := by
    intro a b h
    exact OptionDatabase.other.inj h
  have hlast := lastWrite_map hinj config.dbKwargs f.key
  unfold effective AdbcConfig.kwargOptions AdbcConfig.baseValue dbKwarg
  rw [find?_eq_lastWrite config.distinct]
  exact hlast

theorem effective_append (opts opts' : Options) (f : Field) :
    effective (opts ++ opts') f = (effective opts' f <|> effective opts f) :=
  lastWrite_append opts opts' _

def NoField (opts : Options) : Prop := ∀ w ∈ opts, ∀ f : Field, w.1 ≠ .other f.key

theorem NoField.effective_eq (h : NoField opts) (f : Field) : effective opts f = none :=
  lastWrite_eq_none fun w hw => h w hw f

theorem NoField.append {opts' : Options} (h : NoField opts) (h' : NoField opts') :
    NoField (opts ++ opts') := by
  intro w hw
  rcases List.mem_append.1 hw with hw | hw
  · exact h w hw
  · exact h' w hw

theorem noField_nil : NoField [] := nofun

theorem NoField.cons {k : OptionDatabase} {v : String} (h : NoField opts)
    (hk : ∀ f : Field, k ≠ .other f.key) : NoField ((k, v) :: opts) := by
  intro w hw
  rcases List.mem_cons.1 hw with rfl | hw
  · exact hk
  · exact h w hw

theorem NoField.cons_other {k v : String} (h : NoField opts) (hk : ∀ f : Field, k ≠ f.key) :
    NoField ((.other k, v) :: opts) :=
  h.cons fun f heq => hk f (OptionDatabase.other.inj heq)

theorem noField_jwtAuthOptions {driver pem : String} {passphrase : Option String}
    (h : jwtAuthOptions driver pem passphrase = .ok opts) : NoField opts := by
  unfold jwtAuthOptions at h
  split at h
  · cases h
    refine NoField.append (NoField.append ?_ ?_) ?_
    · exact noField_nil.cons_other fun f => by cases f <;> decide
    · cases passphrase with
      | none => exact noField_nil
      | some => exact noField_nil.cons_other fun f => by cases f <;> decide
    · exact noField_nil.cons_other fun f => by cases f <;> decide
  · cases h

theorem noField_oauthTokenOptions {driver token : String}
    (h : oauthTokenOptions driver token = .ok opts) : NoField opts := by
  unfold oauthTokenOptions at h
  split at h
  · cases h
    refine NoField.cons_other (NoField.cons_other noField_nil ?_) ?_
    · exact fun f => by cases f <;> decide
    · exact fun f => by cases f <;> decide
  · cases h

theorem noField_passthroughOptions (own : Option (String × String)) :
    NoField (passthroughOptions own) := by
  cases own with
  | none => exact noField_nil
  | some =>
    refine NoField.cons_other (NoField.cons (NoField.cons noField_nil ?_) ?_) ?_
    · exact nofun
    · exact nofun
    · exact fun f => by cases f <;> decide

theorem effective_baseOptions (h : config.baseOptions = .ok opts) (f : Field) :
    effective opts f = config.baseValue f := by
  have hall {auth : Options} (hauth : NoField auth)
      (hopts : [(OptionDatabase.uri, config.uri)] ++
        (config.username.map fun u => (OptionDatabase.username, u)).toList ++ auth ++
          config.kwargOptions = opts) : effective opts f = config.baseValue f := by
    have huser : NoField (config.username.map fun u => (OptionDatabase.username, u)).toList := by
      cases config.username with
      | none => exact noField_nil
      | some => exact noField_nil.cons nofun
    have huri : NoField [(OptionDatabase.uri, config.uri)] :=
      noField_nil.cons nofun
    rw [← hopts, effective_append, effective_kwargOptions,
      ((huri.append huser).append hauth).effective_eq]
    cases config.baseValue f with
    | none => rfl
    | some => rfl
  unfold AdbcConfig.baseOptions at h
  cases hpem : config.privateKeyPem with
  | none =>
    rw [hpem] at h
    refine hall ?_ (Except.ok.inj h)
    cases config.password with
    | none => exact noField_nil
    | some => exact noField_nil.cons nofun
  | some pem =>
    rw [hpem] at h
    dsimp only at h
    cases hjwt : jwtAuthOptions config.driver pem config.privateKeyPassphrase with
    | error =>
      rw [hjwt] at h
      cases h
    | ok =>
      rw [hjwt] at h
      exact hall (noField_jwtAuthOptions hjwt) (Except.ok.inj h)

theorem effective_fieldOption {name : String} {f : Field}
    (hname : variantFieldToDbKwarg "snowflake" name = some f.key) (value : Option String)
    (f' : Field) :
    effective (fieldOption "snowflake" name value) f' = if f' = f then value else none := by
  unfold fieldOption effective
  rw [hname]
  cases value with
  | none =>
    rw [ite_self]
    rfl
  | some =>
    by_cases hf : f' = f
    · subst hf
      simp [lastWrite]
    · have hkey : f.key ≠ f'.key := fun h => hf (Field.key_injective h).symm
      simp [lastWrite, hkey, hf]

theorem effective_scopedOptions (hdriver : config.driver = "snowflake") {key : PoolScopeKey}
    (h : config.scopedOptions key = .ok opts) (f : Field) :
    effective opts f = (key.value f <|> config.baseValue f) := by
  have hall {token : Options} (htoken : NoField token)
      (hopts : [(OptionDatabase.uri, config.uri)] ++ config.kwargOptions ++
        (token ++ passthroughOptions key.passthrough ++ fieldOption "snowflake" "role" key.role ++
          fieldOption "snowflake" "warehouse" key.warehouse ++
            fieldOption "snowflake" "schema" key.schema) = opts) :
      effective opts f = (key.value f <|> config.baseValue f) := by
    have huri : NoField [(OptionDatabase.uri, config.uri)] :=
      noField_nil.cons nofun
    have hrole : variantFieldToDbKwarg "snowflake" "role" = some Field.role.key := rfl
    have hwarehouse : variantFieldToDbKwarg "snowflake" "warehouse" = some Field.warehouse.key :=
      rfl
    have hschema : variantFieldToDbKwarg "snowflake" "schema" = some Field.schema.key := rfl
    rw [← hopts]
    simp only [effective_append, effective_kwargOptions, huri.effective_eq, htoken.effective_eq,
      (noField_passthroughOptions _).effective_eq, effective_fieldOption hrole,
      effective_fieldOption hwarehouse, effective_fieldOption hschema]
    cases f <;> simp [PoolScopeKey.value]
  unfold AdbcConfig.scopedOptions scopedPoolOptions at h
  rw [hdriver] at h
  cases htoken : key.token with
  | none =>
    rw [htoken] at h
    exact hall noField_nil (Except.ok.inj h)
  | some token =>
    rw [htoken] at h
    dsimp only at h
    cases hoauth : oauthTokenOptions "snowflake" token with
    | error =>
      rw [hoauth] at h
      cases h
    | ok =>
      rw [hoauth] at h
      exact hall (noField_oauthTokenOptions hoauth) (Except.ok.inj h)

/-! ## Ordinary queries -/

/-- The entry of the session context a field is in; the database has none. -/
def Field.entry : Field → Option String
  | .warehouse => some "snowflake.warehouse"
  | .role => some "snowflake.role"
  | .database => none
  | .schema => some "snowflake.schema"

theorem extra_enrichSessionForPassthrough (ctx : SessionContext) (credentials : QueryCredentials)
    (auth : AuthContext) {k : String} (hauthorization : k ≠ "authorization")
    (husername : k ≠ "passthrough_username") (hpassword : k ≠ "passthrough_password") :
    (enrichSessionForPassthrough ctx credentials auth).extra k = ctx.extra k := by
  unfold enrichSessionForPassthrough
  split
  · rfl
  · cases auth.rawToken <;> cases auth.rawPassword <;>
      simp [insertIfAbsent, hauthorization, husername, hpassword]

theorem overridden_orElse {name : String} {f : Field}
    (hname : variantFieldToDbKwarg "snowflake" name = some f.key) :
    (overridden "snowflake" config.dbKwargs ctx name <|> config.baseValue f) =
      (ctx.extra ("snowflake." ++ name) <|> config.baseValue f) := by
  unfold overridden AdbcConfig.baseValue
  cases hrequested : ctx.extra ("snowflake." ++ name) with
  | none => rfl
  | some requested =>
    simp only [hname, Option.bind_eq_bind, Option.bind_some]
    by_cases hbase : dbKwarg config.dbKwargs f.key = some requested <;> simp [hbase]

theorem value_scopeKey (ctx : SessionContext) (credentials : QueryCredentials) (f : Field) :
    ((scopeKey "snowflake" config.dbKwargs ctx credentials).value f <|> config.baseValue f) =
      (f.entry.bind ctx.extra <|> config.baseValue f) := by
  cases f with
  | warehouse => exact overridden_orElse (f := .warehouse) rfl
  | role => exact overridden_orElse (f := .role) rfl
  | database => rfl
  | schema => exact overridden_orElse (f := .schema) rfl

theorem effective_poolFor (hdriver : config.driver = "snowflake") {credentials : QueryCredentials}
    {pool : PoolId} (hpool : config.poolFor ctx credentials = .ok pool)
    (hopts : config.poolOptions pool = .ok opts) (f : Field) :
    effective opts f = (f.entry.bind ctx.extra <|> config.baseValue f) := by
  rw [← value_scopeKey ctx credentials]
  unfold AdbcConfig.poolFor computeScopedPoolKey at hpool
  rw [hdriver] at hpool
  dsimp only at hpool
  split at hpool
  · rename_i key hkey
    split at hkey
    · cases hkey
    · cases hkey
      split at hpool
      · cases hpool
      · cases hpool
        exact effective_scopedOptions hdriver hopts f
  · rename_i hkey
    split at hkey
    · rename_i hempty
      split at hpool
      · cases hpool
      · cases hpool
        rw [effective_baseOptions hopts]
        simp only [PoolScopeKey.isEmpty, Bool.and_eq_true, Option.isNone_iff_eq_none] at hempty
        obtain ⟨⟨⟨-, hrole⟩, hwarehouse⟩, hschema⟩ := hempty
        cases f with
        | warehouse => simp [PoolScopeKey.value, hwarehouse]
        | role => simp [PoolScopeKey.value, hrole]
        | database => simp [PoolScopeKey.value]
        | schema => simp [PoolScopeKey.value, hschema]
    · cases hkey

def PoolId.credentials : PoolId → QueryCredentials
  | .base => .serviceAccount
  | .scoped key =>
    match key.token, key.passthrough with
    | some token, _ => .bearer token
    | none, some _ => .passthrough
    | none, none => .serviceAccount

def PoolId.passthrough : PoolId → Option (String × String)
  | .base => none
  | .scoped key => key.passthrough

theorem credentials_poolFor {credentials : QueryCredentials} {pool : PoolId}
    (hcredentials : ∀ user, credentials ≠ .impersonate user)
    (hpool : config.poolFor ctx credentials = .ok pool) : credentials = pool.credentials ∧
      (credentials = .passthrough → passthroughOf ctx = pool.passthrough) := by
  unfold AdbcConfig.poolFor computeScopedPoolKey at hpool
  dsimp only at hpool
  split at hpool
  · rename_i key hkey
    split at hkey
    · cases hkey
    · cases hkey
      split at hpool
      · cases hpool
      · rename_i hown
        cases hpool
        cases credentials with
        | serviceAccount | bearer => exact ⟨rfl, nofun⟩
        | impersonate user => exact absurd rfl (hcredentials user)
        | passthrough =>
          have hsome : passthroughOf ctx ≠ none := fun hnone => hown ⟨rfl, hnone⟩
          obtain ⟨own, hown⟩ := Option.ne_none_iff_exists'.1 hsome
          refine ⟨?_, fun _ => rfl⟩
          simp [PoolId.credentials, scopeKey, hown]
  · rename_i hkey
    split at hkey
    · rename_i hempty
      split at hpool
      · cases hpool
      · rename_i hnot
        cases hpool
        cases credentials with
        | serviceAccount => exact ⟨rfl, nofun⟩
        | bearer => cases hempty
        | impersonate user => exact absurd rfl (hcredentials user)
        | passthrough => exact absurd rfl hnot
    · cases hkey

structure SubmittedQuery (cluster : SnowflakeCluster) (tokenize : Tokenize) where
  authCtx : AuthContext
  group : String
  login : LoginRequest
  before : List (Option QueryBody)
  request : Option QueryBody
  exec : ExecParams
  credentials : QueryCredentials
  pool : PoolId
  opts : Options
  run : (queryRequest tokenize (afterRequests tokenize (loginSession authCtx group login) before)
    request).2 = .run exec
  resolved : Auth.resolve exec.authCtx cluster.queryAuth = .ok credentials
  placed : cluster.config.poolFor
    (enrichSessionForPassthrough exec.sessionCtx credentials exec.authCtx) credentials = .ok pool
  built : cluster.config.poolOptions pool = .ok opts

namespace SubmittedQuery

variable {cluster : SnowflakeCluster}

/-- What the session selected last, at login or by a `USE` statement. An empty name selects
nothing. -/
def chosen (q : SubmittedQuery cluster tokenize) (f : Field) : Option String :=
  ((lastWrite (history tokenize q.before) f).getD
    ((loginSession q.authCtx q.group q.login).get f)).filter (· ≠ "")

/-- The value selected last, else the one of the configuration. -/
def wanted (q : SubmittedQuery cluster tokenize) (f : Field) : Option String :=
  q.chosen f <|> cluster.config.baseValue f

/-- The user name and password the query runs under, on a `passthrough` cluster. -/
def ownCredential (q : SubmittedQuery cluster tokenize) : Option (String × String) :=
  if q.credentials = .passthrough then passthroughOf q.exec.sessionCtx else none

variable (q : SubmittedQuery cluster tokenize)

theorem credentials_ne (user : String) : q.credentials ≠ .impersonate user := by
  intro himpersonate
  have hresolved := q.resolved
  rw [himpersonate] at hresolved
  have hmode : cluster.queryAuth = some .impersonate := by
    unfold Auth.resolve at hresolved
    split at hresolved
    · split at hresolved <;> cases hresolved
    · split at hresolved
      · cases hresolved
      · cases hresolved
      · cases hresolved
      · assumption
      · rename_i exchange hmode
        cases hex : Auth.exchangeToken q.exec.authCtx exchange with
        | error | ok => rw [hex] at hresolved; cases hresolved
  cases cluster.supported _ hmode

theorem get_ne_empty {f : Field} (hlogin : session.get f ≠ some "") (rs : List (Option QueryBody)) :
    (afterRequests tokenize session rs).get f ≠ some "" := by
  rw [get_afterRequests]
  cases hlast : lastWrite (history tokenize rs) f with
  | none => exact hlogin
  | some => exact history_ne_empty rs _ (mem_of_lastWrite hlast)

theorem filter_ne_empty {x : Option String} (h : x ≠ some "") : x.filter (· ≠ "") = x := by
  cases x with
  | none => rfl
  | some v =>
    have hv : v ≠ "" := fun hv => h (congrArg some hv)
    simp [Option.filter, hv]

theorem filter_filter_ne_empty (x : Option String) : x.filter (· ≠ "") ≠ some "" := by
  cases x with
  | none => simp
  | some v =>
    by_cases hv : v = "" <;> simp [Option.filter, hv]

theorem entry_eq_chosen {f : Field} (hf : f ≠ .database) :
    f.entry.bind q.exec.sessionCtx.extra = q.chosen f := by
  rw [(queryRequest_run q.run).1, chosen, ← get_afterRequests]
  cases f with
  | warehouse =>
    have hlogin : (loginSession q.authCtx q.group q.login).get .warehouse ≠ some "" :=
      filter_filter_ne_empty q.login.warehouse
    exact (filter_ne_empty (get_ne_empty hlogin q.before)).symm
  | role =>
    have hlogin : (loginSession q.authCtx q.group q.login).get .role ≠ some "" :=
      filter_filter_ne_empty q.login.roleName
    exact (filter_ne_empty (get_ne_empty hlogin q.before)).symm
  | database => exact absurd rfl hf
  | schema => rfl

theorem effective_eq (f : Field) : effective q.opts f =
      (f.entry.bind q.exec.sessionCtx.extra <|> cluster.config.baseValue f) := by
  rw [effective_poolFor cluster.snowflake q.placed q.built]
  congr 1
  cases f with
  | database => rfl
  | warehouse | role | schema =>
    exact extra_enrichSessionForPassthrough _ _ _ (by decide) (by decide) (by decide)

theorem effective_eq_wanted {f : Field} (hf : f ≠ .database) : effective q.opts f = q.wanted f := by
  rw [q.effective_eq, q.entry_eq_chosen hf]
  rfl

theorem effective_database_iff : effective q.opts .database = q.wanted .database ↔
      q.chosen .database = none ∨ q.chosen .database = cluster.config.baseValue .database := by
  have hbase : effective q.opts .database = cluster.config.baseValue .database := by
    rw [q.effective_eq]
    simp [Field.entry]
  rw [hbase, wanted]
  cases q.chosen .database with
  | none => simp
  | some => simp [eq_comm]

theorem credentials_eq : q.credentials = q.pool.credentials ∧
      (q.credentials = .passthrough → q.ownCredential = q.pool.passthrough) := by
  obtain ⟨hcredentials, hown⟩ := credentials_poolFor q.credentials_ne q.placed
  refine ⟨hcredentials, fun hpassthrough => ?_⟩
  rw [ownCredential, if_pos hpassthrough, ← hown hpassthrough]
  unfold passthroughOf
  rw [extra_enrichSessionForPassthrough _ _ _ (by decide) (by decide) (by decide),
    extra_enrichSessionForPassthrough _ _ _ (by decide) (by decide) (by decide)]

variable {q}

/-- Warehouse, role and schema are the ones selected. The database is if and only if none was
selected or the one of the configuration. Queries that share a pool have the same options and
credentials. -/
theorem use_statements_govern_pools (q : SubmittedQuery cluster tokenize) :
    (∀ f, f ≠ .database → effective q.opts f = q.wanted f) ∧
    (effective q.opts .database = q.wanted .database ↔
      q.chosen .database = none ∨ q.chosen .database = cluster.config.baseValue .database) ∧
    ∀ q' : SubmittedQuery cluster tokenize, q.pool = q'.pool →
      (∀ f, effective q.opts f = effective q'.opts f) ∧
      (∀ f, f ≠ .database → q.wanted f = q'.wanted f) ∧
      q.credentials = q'.credentials ∧ q.ownCredential = q'.ownCredential := by
  refine ⟨fun f hf => q.effective_eq_wanted hf, q.effective_database_iff, fun q' hpool => ?_⟩
  have hopts : q.opts = q'.opts := by
    have hbuilt := q.built
    rw [hpool, q'.built] at hbuilt
    exact (Except.ok.inj hbuilt).symm
  have hcredentials : q.credentials = q'.credentials := by
    rw [q.credentials_eq.1, q'.credentials_eq.1, hpool]
  refine ⟨fun f => by rw [hopts], fun f hf => ?_, hcredentials, ?_⟩
  · rw [← q.effective_eq_wanted hf, ← q'.effective_eq_wanted hf, hopts]
  · by_cases hpassthrough : q.credentials = .passthrough
    · rw [q.credentials_eq.2 hpassthrough, hpool,
        q'.credentials_eq.2 (hcredentials ▸ hpassthrough)]
    · rw [ownCredential, ownCredential, if_neg hpassthrough, if_neg (hcredentials ▸ hpassthrough)]

end SubmittedQuery

/-! ## A session -/

def words : Tokenize := fun s => some [⟨.var, String.ofList (trim s)⟩]

def prodConfig : AdbcConfig where
  driver := "snowflake"
  uri := "snowflake://acct"
  username := some "svc"
  password := some "secret"
  privateKeyPem := none
  privateKeyPassphrase := none
  dbKwargs := [("adbc.snowflake.sql.db", "PROD"), ("adbc.snowflake.sql.warehouse", "WH")]
  distinct := by decide

def prodCluster : SnowflakeCluster where
  config := prodConfig
  queryAuth := none
  snowflake := rfl
  supported := nofun

def query (sql : String) : Option QueryBody := some ⟨some sql, []⟩

theorem queryRequest_ordinary {sql : String} (hne : trim sql.toList ≠ [])
    (huse : tryParseSnowflakeUse tokenize sql.toList = none) :
    (queryRequest tokenize session (query sql)).2 = .run {
      sql := sql
      params := []
      sessionCtx := sessionContext session
      protocol := .snowflakeHttp
      group := session.group
      authCtx := session.authCtx } := by
  have hfilter : (some sql).filter (fun s => trim s.toList ≠ []) = some sql := by
    simp [Option.filter, hne]
  simp only [queryRequest, query, hfilter, huse]

def alice : AuthContext := ⟨"alice", [], [], none, none, fun _ => none⟩

def aliceSession : SnowflakeSession := loginSession alice "analytics" ⟨none, none, none, none, ""⟩

def selectAfter (before : List (Option QueryBody)) (pool : PoolId) (opts : Options)
    (hpool : prodConfig.poolFor (sessionContext (afterRequests words aliceSession before))
      .serviceAccount = .ok pool)
    (hopts : prodConfig.poolOptions pool = .ok opts) : SubmittedQuery prodCluster words where
  authCtx := alice
  group := "analytics"
  login := ⟨none, none, none, none, ""⟩
  before := before
  request := query "SELECT 1"
  exec := {
    sql := "SELECT 1"
    params := []
    sessionCtx := sessionContext (afterRequests words aliceSession before)
    protocol := .snowflakeHttp
    group := (afterRequests words aliceSession before).group
    authCtx := (afterRequests words aliceSession before).authCtx }
  credentials := .serviceAccount
  pool := pool
  opts := opts
  run := queryRequest_ordinary (by decide +kernel) (by decide +kernel)
  resolved := by
    unfold Auth.resolve prodCluster
    split <;> rfl
  placed := hpool
  built := hopts

/-- One statement selects the warehouse. -/
theorem use_warehouse_governs :
    ∃ q : SubmittedQuery prodCluster words, q.chosen .warehouse = some "ETL" ∧
      effective q.opts .warehouse = some "ETL" := by
  refine ⟨selectAfter [query "USE WAREHOUSE ETL"] (.scoped ⟨none, none, none, some "ETL", none⟩)
    [(.uri, "snowflake://acct"), (.other "adbc.snowflake.sql.db", "PROD"),
      (.other "adbc.snowflake.sql.warehouse", "WH"), (.other "adbc.snowflake.sql.warehouse", "ETL")]
    (by decide +kernel) (by decide +kernel), by decide +kernel, ?_⟩
  rw [(SubmittedQuery.use_statements_govern_pools _).1 .warehouse nofun]
  decide +kernel

/-- After `USE DATABASE` the queries run in the database of the configuration, on the pool of the
sessions that selected nothing. -/
theorem use_database_has_no_effect :
    ∃ q q' : SubmittedQuery prodCluster words, q.chosen .database = some "ANALYTICS" ∧
      effective q.opts .database = some "PROD" ∧ q'.chosen .database = none ∧
      q.pool = q'.pool := by
  refine ⟨selectAfter [query "USE DATABASE ANALYTICS"] .base
      [(.uri, "snowflake://acct"), (.username, "svc"), (.password, "secret"),
        (.other "adbc.snowflake.sql.db", "PROD"), (.other "adbc.snowflake.sql.warehouse", "WH")]
      (by decide +kernel) (by decide +kernel),
    selectAfter [] .base
      [(.uri, "snowflake://acct"), (.username, "svc"), (.password, "secret"),
        (.other "adbc.snowflake.sql.db", "PROD"), (.other "adbc.snowflake.sql.warehouse", "WH")]
      (by decide +kernel) (by decide +kernel), ?_, ?_, ?_, rfl⟩
  · decide +kernel
  · decide +kernel
  · decide +kernel

end QueryFlux.Snowflake
