import QueryFlux.Cache.Replay
import QueryFlux.Trino.PolicyUser
import QueryFlux.Trino.Submit
import QueryFlux.Wire.Connection

/-!
# As whom a wire client's query runs on Trino

The session of a wire client keeps what the client says in the same map in which the Trino frontend
keeps the headers of a request, and the Trino adapter reads that map: an entry `x-trino-user` is
forwarded as a header unless the cluster impersonates, and an entry `authorization` is the
`Authorization` header when the proxy logs in to the cluster without one. So a MySQL client chooses
the user with `SET x-trino-user = …`, and a Postgres client with a startup parameter.

The request names the verified user, or the account of the proxy, exactly when the client's entries
do not say otherwise (`names_verified_user_iff`).
-/

namespace QueryFlux.Wire

open Auth Cache Core Dispatch Guardrails Lib Trino TrinoAdapter List

/-! ## From the request to the submission -/

section
variable {live : LiveConfig} {state : AppState} {r : Request}
  {answer : (q : Question) → Answer q}

/-- The engine gets the request's session, with the credentials resolved for its identity. -/
structure Carries (live : LiveConfig) (state : AppState) (r : Request) (s : Submission) : Prop where
  credentials : state.resolveCredentials r.auth s.cluster = .ok s.credentials
  session : s.session =
    enrichSessionForPassthrough (checkedSession live r r.session) s.credentials r.auth

/-- What a submission takes from the request. -/
theorem executeToSink_carries {key : Option CacheKey} {setup : SyncQuerySetup}
    (h : (executeToSink live state r).run answer = .executed key (.ok setup)) :
    Carries live state r setup.submission := by
  have hinner : (executeToSinkInner live state r).run answer = .ok setup := by
    rcases executeToSink_cases live state r answer with ⟨_, h'⟩ | h' | ⟨_, -, h' | h'⟩
    · rw [h'] at h; cases h
    · rw [h'] at h; exact (SinkOutcome.executed.inj h).2
    · rw [h'] at h; cases h
    · rw [h'] at h; exact (SinkOutcome.executed.inj h).2
  obtain ⟨cluster, adapter, hsetup⟩ := setupSyncQuery_ok hinner
  unfold setupAfterStage at hsetup
  split at hsetup
  · obtain ⟨-, hcredentials, hsession⟩ := submission_of_finishSetup hsetup
    exact ⟨hcredentials, hsession⟩
  · obtain ⟨-, hcredentials, hsession⟩ := submission_of_finishSetup hsetup
    exact ⟨hcredentials, hsession⟩
  · cases hsetup

end

/-! ## The headers that are sent -/

theorem isTokenChar_lt {c : Char} (h : isTokenChar c = true) : c.toNat < 128 := by
  rcases Bool.or_eq_true_iff.1 h with halnum | hmem
  · unfold Char.isAlphanum Char.isAlpha Char.isUpper Char.isLower Char.isDigit at halnum
    simp only [Bool.or_eq_true, Bool.and_eq_true, decide_eq_true_eq,
      UInt32.le_iff_toNat_le] at halnum
    rcases halnum with (⟨-, h⟩ | ⟨-, h⟩) | ⟨-, h⟩ <;> exact Nat.lt_of_le_of_lt h (by decide)
  · have hall : ("!#$%&'*+-.^_`|~".toList.all fun c => c.toNat < 128) = true := by decide +kernel
    exact of_decide_eq_true (all_eq_true.1 hall c (contains_iff_mem.1 hmem))

theorem toLowercase_of_ascii {s : List Char} (h : ∀ c ∈ s, c.toNat < 128) :
    toLowercase s = toAsciiLowercase s := by
  refine map_congr_left fun c hc => ?_
  have hlt := h c hc
  rw [if_neg]
  omega

theorem lowerName_eq_iff {name word : String} (h : validName name = true) :
    lowerName name = word ↔ toLowercase name.toList = word.toList := by
  have hascii : ∀ c ∈ name.toList, c.toNat < 128 := by
    simp only [validName, Bool.and_eq_true, all_eq_true] at h
    exact fun c hc => isTokenChar_lt (h.2 c hc)
  rw [toLowercase_of_ascii hascii, lowerName]
  constructor
  · intro hlower
    rw [← hlower, String.toList_ofList]
  · intro hlower
    rw [hlower, String.ofList_toList]

def IsUserKey (key : String) : Prop := toLowercase key.toList = "x-trino-user".toList

variable {key value : String}

theorem isForwarded_of_isUserKey {credentials : QueryCredentials} (h : IsUserKey key) :
    isForwarded credentials key = !impersonates credentials := by
  unfold IsUserKey at h
  simp only [isForwarded, h]
  generalize impersonates credentials = impersonated
  cases impersonated <;> decide

theorem not_isForwarded_authorization {credentials : QueryCredentials}
    (h : toLowercase key.toList = "authorization".toList) :
    isForwarded credentials key = false := by
  simp only [isForwarded, h]
  generalize impersonates credentials = impersonated
  cases impersonated <;> decide

section
variable {adapter : TrinoAdapter} {session : SessionContext} {it : Iteration}
  {credentials : QueryCredentials} {headers : List (String × String)}

variable {value : String}

theorem mem_headers_iff (hsent : adapter.submitQuery session it credentials = .ok headers)
    {name : String} : (name, value) ∈ headers ↔
      ∃ given, (given, value) ∈ adapter.givenHeaders session it credentials ∧
        toLowercase given.toList = name.toList := by
  obtain ⟨rfl, hvalid⟩ := adapter.submitQuery_eq hsent
  rw [mem_map]
  constructor
  · rintro ⟨⟨given, v⟩, hmem, heq⟩
    obtain ⟨hname, rfl⟩ := Prod.mk.inj heq
    exact ⟨given, hmem, (lowerName_eq_iff (hvalid _ hmem)).1 hname⟩
  · rintro ⟨given, hmem, hname⟩
    exact ⟨(given, value), hmem, by rw [(lowerName_eq_iff (hvalid _ hmem)).2 hname]⟩

theorem mem_credentialHeaders_user {wireAuth : Option StoredWireAuth} {name user : String}
    (hname : IsUserKey name) (hmem : (name, user) ∈ adapter.credentialHeaders wireAuth) :
    wireAuth = some (.impersonateUser user) := by
  have hcluster : (name, user) ∉
      adapter.clusterHeader.toList.map fun v => ("Authorization", v) := by
    intro hmem
    obtain ⟨v, -, heq⟩ := mem_map.1 hmem
    rw [← (Prod.mk.inj heq).1] at hname
    exact absurd hname (by unfold IsUserKey; decide)
  rcases wireAuth with _ | ⟨value⟩ | ⟨u⟩
  · exact absurd hmem hcluster
  · rw [(Prod.mk.inj (mem_singleton.1 hmem)).1] at hname
    exact absurd hname (by unfold IsUserKey; decide)
  · rcases mem_append.1 hmem with hmem | hmem
    · exact absurd hmem hcluster
    · rw [(Prod.mk.inj (mem_singleton.1 hmem)).2]

theorem mem_credentialHeaders_authorization {wireAuth : Option StoredWireAuth}
    (hmem : ("Authorization", value) ∈ adapter.credentialHeaders wireAuth) :
    adapter.clusterHeader = some value ∨ wireAuth = some (.authorization value) := by
  have hcluster (hmem : ("Authorization", value) ∈
      adapter.clusterHeader.toList.map fun v => ("Authorization", v)) :
      adapter.clusterHeader = some value := by
    obtain ⟨v, hv, heq⟩ := mem_map.1 hmem
    rw [← (Prod.mk.inj heq).2]
    exact Option.mem_toList.1 hv
  rcases wireAuth with _ | ⟨v⟩ | ⟨u⟩
  · exact .inl (hcluster hmem)
  · rw [(Prod.mk.inj (mem_singleton.1 hmem)).2]
    exact .inr rfl
  · rcases mem_append.1 hmem with hmem | hmem
    · exact .inl (hcluster hmem)
    · exact absurd (Prod.mk.inj (mem_singleton.1 hmem)).1 (by decide)

theorem resolveStoredWireAuth_authorization {sets : Bool}
    (h : resolveStoredWireAuth credentials session sets = some (.authorization value)) :
    credentials = .passthrough ∨
      (credentials = .serviceAccount ∧ sets = false ∧
        session.extra "authorization" = some value) ∨
      ∃ token, credentials = .bearer token ∧ value = "Bearer " ++ token := by
  have hentry (h : (session.extra "authorization").map StoredWireAuth.authorization =
      some (.authorization value)) : session.extra "authorization" = some value := by
    obtain ⟨v, hv, heq⟩ := Option.map_eq_some_iff.1 h
    rw [hv, StoredWireAuth.authorization.inj heq]
  cases credentials with
  | passthrough => exact .inl rfl
  | serviceAccount =>
    rw [resolveStoredWireAuth] at h
    split at h
    · cases h
    · rename_i hsets
      exact .inr (.inl ⟨rfl, Bool.eq_false_iff.2 hsets, hentry h⟩)
  | impersonate => cases h
  | bearer token => exact .inr (.inr ⟨token, rfl, (StoredWireAuth.authorization.inj
      (Option.some.inj h)).symm⟩)

theorem resolveStoredWireAuth_impersonateUser {sets : Bool} {user : String} :
    resolveStoredWireAuth credentials session sets = some (.impersonateUser user) ↔
      credentials = .impersonate user := by
  cases credentials with
  | serviceAccount =>
    rw [resolveStoredWireAuth]
    split
    · simp
    · cases session.extra "authorization" <;> simp
  | passthrough =>
    rw [resolveStoredWireAuth]
    cases session.extra "authorization" <;> simp
  | impersonate | bearer => simp [resolveStoredWireAuth]

theorem name_of_mem_rest {name : String}
    (hmem : (name, value) ∈ propHeaders session ++ tagHeaders session it.tags) :
    name = "X-Trino-Session" ∨ name = "X-Trino-Client-Tags" := by
  rcases mem_append.1 hmem with hmem | hmem
  · unfold propHeaders at hmem
    dsimp only at hmem
    split at hmem
    · cases hmem
    · exact .inl (Prod.mk.inj (mem_singleton.1 hmem)).1
  · obtain ⟨v, -, heq⟩ := mem_map.1 hmem
    exact .inr (Prod.mk.inj heq).1.symm

theorem mem_users_iff (hsent : adapter.submitQuery session it credentials = .ok headers)
    {user : String} :
    ("x-trino-user", user) ∈ headers ↔
      credentials = .impersonate user ∨
      (impersonates credentials = false ∧
        ∃ key, (key, user) ∈ it.extra ∧ IsUserKey key) ∨
      (adapter.requestCarriesIdentity session it.extra credentials = false ∧
        session.user = some user ∧ user ≠ "") := by
  rw [mem_headers_iff hsent]
  simp only [givenHeaders, append_assoc]
  constructor
  · rintro ⟨name, hmem, hname⟩
    rcases mem_append.1 hmem with hmem | hmem
    · exact .inl (resolveStoredWireAuth_impersonateUser.1 (mem_credentialHeaders_user hname hmem))
    rcases mem_append.1 hmem with hmem | hmem
    · obtain ⟨hentry, hforward⟩ := mem_filter.1 hmem
      rw [isForwarded_of_isUserKey hname, Bool.not_eq_true'] at hforward
      exact .inr (.inl ⟨hforward, name, hentry, hname⟩)
    rcases mem_append.1 hmem with hmem | hmem
    · unfold fallbackHeaders at hmem
      split_ifs at hmem with hcarries
      · cases hmem
      · obtain ⟨u, hu, heq⟩ := mem_map.1 hmem
        obtain ⟨huser, hne⟩ := Option.filter_eq_some_iff.1 (Option.mem_toList.1 hu)
        obtain rfl := (Prod.mk.inj heq).2
        exact .inr (.inr ⟨Bool.eq_false_iff.2 hcarries, huser, of_decide_eq_true hne⟩)
    · rcases name_of_mem_rest hmem with rfl | rfl <;>
        exact absurd hname (by decide)
  · rintro (rfl | ⟨hmode, key, hentry, hkey⟩ | ⟨hcarries, huser, hne⟩)
    · refine ⟨"X-Trino-User", mem_append_left _ ?_, by decide⟩
      exact mem_append_right _ (mem_singleton_self _)
    · refine ⟨key, mem_append_right _ (mem_append_left _ ?_), hkey⟩
      refine mem_filter.2 ⟨hentry, ?_⟩
      rw [isForwarded_of_isUserKey hkey, hmode]
      rfl
    · refine ⟨"X-Trino-User", mem_append_right _ (mem_append_right _
        (mem_append_left _ ?_)), by decide⟩
      rw [fallbackHeaders, if_neg (Bool.eq_false_iff.1 hcarries), huser]
      simp [Option.filter, hne]

theorem mem_authorizations_iff (hsent : adapter.submitQuery session it credentials = .ok headers) :
    ("authorization", value) ∈ headers ↔
      ("Authorization", value) ∈ adapter.credentialHeaders (resolveStoredWireAuth credentials
        session adapter.clusterSetsHttpAuthorization) := by
  rw [mem_headers_iff hsent]
  simp only [givenHeaders, append_assoc]
  constructor
  · rintro ⟨name, hmem, hname⟩
    rcases mem_append.1 hmem with hmem | hmem
    · have hkeys : name = "Authorization" ∨ name = "X-Trino-User" := by
        unfold credentialHeaders at hmem
        grind
      rcases hkeys with rfl | rfl
      · exact hmem
      · exact absurd hname (by decide)
    rcases mem_append.1 hmem with hmem | hmem
    · have hforward := (mem_filter.1 hmem).2
      rw [not_isForwarded_authorization hname] at hforward
      cases hforward
    rcases mem_append.1 hmem with hmem | hmem
    · unfold fallbackHeaders at hmem
      split at hmem
      · cases hmem
      · obtain ⟨u, -, heq⟩ := mem_map.1 hmem
        rw [← (Prod.mk.inj heq).1] at hname
        exact absurd hname (by decide)
    · rcases name_of_mem_rest hmem with rfl | rfl <;>
        exact absurd hname (by decide)
  · intro hmem
    exact ⟨"Authorization", mem_append_left _ hmem, by decide⟩

end

/-! ## The result -/

/-- The users a request names are the verified one; what it is authorized by is the login of the
proxy to the cluster, or a token exchanged for the client's. -/
structure NamesVerifiedUser (adapter : TrinoAdapter) (auth : AuthContext)
    (credentials : QueryCredentials) (headers : List (String × String)) : Prop where
  user : ∀ user, ("x-trino-user", user) ∈ headers → user = auth.user
  authorization : ∀ value, ("authorization", value) ∈ headers →
    adapter.clusterHeader = some value ∨
      ∃ token, credentials = .bearer token ∧ value = "Bearer " ++ token

/-- What the client assigned does not say who it is: no entry names another user, unless the
cluster impersonates, and there is no `authorization` where the proxy itself has none. -/
structure AssignsNoIdentity (adapter : TrinoAdapter) (r : Request)
    (credentials : QueryCredentials) : Prop where
  user : impersonates credentials = false →
    ∀ key value, r.session.extra key = some value → IsUserKey key → value = r.auth.user
  authorization : credentials = .serviceAccount → adapter.clusterSetsHttpAuthorization = false →
    r.session.extra "authorization" = none

section
variable {live : LiveConfig} {state : AppState} {r : Request} {s : Submission}

theorem Carries.extra_eq (h : Carries live state r s) (hmode : s.credentials ≠ .passthrough)
    {key : String}
    (hkey : eqIgnoreAsciiCase key.toList trinoPreparedStatementHeader.toList = false) :
    s.session.extra key = r.session.extra key := by
  rw [h.session, enrichSessionForPassthrough, if_pos hmode, checkedSession]
  split
  · simp [dropUncheckedSessionSql, hkey]
  · rfl

theorem Carries.user_eq (h : Carries live state r s) : s.session.user = r.session.user := by
  rw [h.session, enrichSessionForPassthrough_user, checkedSession]
  split <;> rfl

theorem not_preparedStatement_of_isUserKey {key : String} (h : IsUserKey key) :
    eqIgnoreAsciiCase key.toList trinoPreparedStatementHeader.toList = false := by
  rw [Bool.eq_false_iff]
  intro heq
  have hlength := congrArg length (eq_of_beq heq)
  have hkey := congrArg length h
  simp only [toAsciiLowercase, toLowercase, length_map] at hlength hkey
  rw [hkey] at hlength
  exact absurd hlength (by decide)

end

/-- Unless credentials are passed through, the headers name the verified user and no other if and
only if the client assigned no identity to its session. -/
theorem names_verified_user_iff {frontend : Frontend} {live : LiveConfig} {state : AppState}
    {modes : String → Option QueryAuthConfig} {r : Request} {answer : (q : Question) → Answer q}
    {storedUnder : Option CacheKey} {setup : SyncQuerySetup} {adapter : TrinoAdapter}
    {it : Iteration} {headers : List (String × String)} (hwire : WireRequest frontend r)
    (hresolve : ∀ auth cluster,
      state.resolveCredentials auth cluster = resolve auth (modes cluster))
    (hrun : (executeToSink live state r).run answer = .executed storedUnder (.ok setup))
    (hmode : setup.submission.credentials ≠ .passthrough)
    (hit : it.Of setup.submission.session setup.submission.tags)
    (hsent : adapter.submitQuery setup.submission.session it setup.submission.credentials =
      .ok headers) :
    NamesVerifiedUser adapter r.auth setup.submission.credentials headers ↔
      AssignsNoIdentity adapter r setup.submission.credentials := by
  have hcarries := executeToSink_carries hrun
  have huserKey {key : String} (hkey : IsUserKey key) :=
    hcarries.extra_eq hmode (not_preparedStatement_of_isUserKey hkey)
  have hauthKey :
      setup.submission.session.extra "authorization" = r.session.extra "authorization" :=
    hcarries.extra_eq hmode (by decide)
  constructor
  · intro h
    refine ⟨fun hnot key value hentry hkey => ?_, fun haccount hsets => ?_⟩
    · refine h.user value ((mem_users_iff hsent).2 (.inr (.inl ⟨hnot, key, ?_, hkey⟩)))
      rw [hit.mem_extra, huserKey hkey, hentry]
    · cases hentry : r.session.extra "authorization" with
      | none => rfl
      | some value =>
        have hmem : ("authorization", value) ∈ headers := by
          rw [mem_authorizations_iff hsent, haccount, resolveStoredWireAuth, hsets, hauthKey,
            hentry]
          exact mem_singleton_self _
        rcases h.authorization value hmem with hcluster | ⟨token, hbearer, -⟩
        · have := adapter.isSome_clusterHeader
          rw [hcluster, hsets] at this
          cases this
        · rw [haccount] at hbearer
          cases hbearer
  · intro h
    refine ⟨fun user hmem => ?_, fun value hmem => ?_⟩
    · rcases (mem_users_iff hsent).1 hmem with himp | ⟨hnot, key, hentry, hkey⟩ | ⟨-, huser, -⟩
      · have hcred := hcarries.credentials
        rw [hresolve, himp] at hcred
        exact resolve_impersonate hcred
      · rw [hit.mem_extra, huserKey hkey] at hentry
        exact h.user hnot key user hentry hkey
      · rw [hcarries.user_eq] at huser
        exact (hwire.auth_user huser).symm
    · rw [mem_authorizations_iff hsent] at hmem
      rcases mem_credentialHeaders_authorization hmem with hcluster | hwireAuth
      · exact .inl hcluster
      rcases resolveStoredWireAuth_authorization hwireAuth with
        hpass | ⟨haccount, hsets, hentry⟩ | hbearer
      · exact absurd hpass hmode
      · rw [hauthKey, h.authorization haccount hsets] at hentry
        cases hentry
      · exact .inr hbearer

/-! ## A session of MySQL -/

def plainFrontend : Frontend := ⟨fun _ _ => none, fun _ _ => false⟩

def plainSnapshot : Snapshot := ⟨.none false, fun _ _ _ _ => .ok "default"⟩

def selectText : String := "SELECT * FROM orders"

def wireRequest (session : SessionContext) (auth : AuthContext) : Request :=
  ⟨selectText, [], session, .mySqlWire, "default", auth⟩

theorem handleComQuery_select {session : SessionContext} {auth : AuthContext}
    (h : (AuthProvider.none false).authenticate (wireCredentials session) = .ok auth) :
    handleComQuery plainFrontend (some plainSnapshot) session selectText =
      some (session, some (wireRequest session auth)) := by
  have hstrip : stripMysqlConditionalComment selectText.toList = selectText.toList :=
    (stripMysqlConditionalComment_of_not_comment (by decide +kernel)).trans (by decide +kernel)
  have htags : tryParseSetQueryTags selectText.toList = some none := by decide +kernel
  have hset : startsWithSet (toLowercase (trim selectText.toList)) = false := by decide +kernel
  have huse : tryParseUse selectText.toList = none := by decide +kernel
  have hprobe : isProbe (toLowercase (trim selectText.toList)) = false := by decide +kernel
  have hauth : plainSnapshot.authProvider.authenticate (wireCredentials session) = .ok auth := h
  rw [handleComQuery]
  simp only [hauth, handleStatement, hstrip, htags, hset, huse, hprobe]
  rfl

theorem handleComQuery_set {session : SessionContext} {auth : AuthContext} {sql : String}
    (h : (AuthProvider.none false).authenticate (wireCredentials session) = .ok auth)
    (hcomment : "/*".toList.isPrefixOf (trim sql.toList) = false)
    (htags : tryParseSetQueryTags (trim sql.toList) = some none)
    (hset : startsWithSet (toLowercase (trim (trim sql.toList))) = true)
    (hkv : tryParseSetKv (trim sql.toList) = some (key, value)) :
    handleComQuery plainFrontend (some plainSnapshot) session sql =
      some (setVariable session key value, none) := by
  have hauth : plainSnapshot.authProvider.authenticate (wireCredentials session) = .ok auth := h
  rw [handleComQuery]
  simp [hauth, handleStatement, stripMysqlConditionalComment_of_not_comment hcomment, htags, hset,
    hkv]

def plainLive : LiveConfig := .plain ⟨false, .trino, .trino, true⟩

theorem executeToSink_plain (session : SessionContext) (auth : AuthContext) :
    ∃ setup,
      (∀ answer, (executeToSink plainLive ordersState (wireRequest session auth)).run answer =
        .executed none (.ok setup)) ∧
      setup.submission.session = session ∧ setup.submission.credentials = .serviceAccount ∧
      setup.submission.tags = effectiveTags plainLive (wireRequest session auth) := by
  let r := wireRequest session auth
  obtain ⟨setup, hsetup, hsubmission⟩ : ∃ setup, setupAfterStage plainLive ordersState r "cluster-1"
      ⟨false, .trino, .trino, true⟩ .allowed = .ok setup ∧
      setup.submission.session = session ∧ setup.submission.credentials = .serviceAccount ∧
      setup.submission.tags = effectiveTags plainLive r := by
    unfold setupAfterStage finishSetup engineSql
    simp only [ordersState, AppState.plain_maybeTranslate]
    simp [AppState.plain, enrichSessionForPassthrough, checkedSession, plainLive, LiveConfig.plain,
      r, wireRequest]
  refine ⟨setup, fun answer => ?_, hsubmission⟩
  have hsink :
      executeToSink plainLive ordersState r = executeUncached plainLive ordersState r none := by
    unfold executeToSink
    simp [plainLive, LiveConfig.plain, cacheKey, effectiveCache, ordersState, AppState.plain]
  have hrun : (setupSyncQuery plainLive ordersState r).run answer = .ok setup := by
    exact hsetup
  rw [hsink, executeUncached, Asks.run_map, executeToSinkInner, Asks.run_bind, hrun]
  rfl

def aliceSession (key value : String) : SessionContext :=
  setVariable (handshakeSession "alice" none) key value

def aliceRequest (key value : String) : Request :=
  wireRequest (aliceSession key value) (plainContext "alice")

theorem wireRequest_alice (sql : String)
    (hcomment : "/*".toList.isPrefixOf (trim sql.toList) = false)
    (htags : tryParseSetQueryTags (trim sql.toList) = some none)
    (hset : startsWithSet (toLowercase (trim (trim sql.toList))) = true)
    (hkv : tryParseSetKv (trim sql.toList) = some (key, value)) :
    WireRequest plainFrontend (aliceRequest key value) := by
  have hauth : (AuthProvider.none false).authenticate
      (wireCredentials (handshakeSession "alice" none)) = .ok (plainContext "alice") := rfl
  have hstep : (mysqlConnection plainFrontend "alice" none).step (handshakeSession "alice" none)
      (.query (some plainSnapshot) sql) = some (aliceSession key value) := by
    rw [mysqlConnection_step, handleCommand, handleComQuery_set hauth hcomment htags hset hkv,
      Option.map_some, aliceSession]
  have hreach : (mysqlConnection plainFrontend "alice" none).Reach (fun _ _ => True)
      (aliceSession key value) :=
    .step (a := .query (some plainSnapshot) sql) (.init rfl) trivial hstep
  have hquery : handleComQuery plainFrontend (some plainSnapshot) (aliceSession key value)
      selectText = some (aliceSession key value, some (aliceRequest key value)) :=
    handleComQuery_select hauth
  exact .mysql hreach hquery

theorem iteration_alice (key value : String) :
    Iteration.Of ⟨[(key, value)], []⟩ (aliceSession key value)
      (effectiveTags plainLive (aliceRequest key value)) where
  extra_nodup := List.nodup_singleton _
  mem_extra := by
    intro k v
    have hentry : (aliceSession key value).extra k = if k = key then some value else none := rfl
    rw [hentry]
    by_cases hk : k = key
    · simp [hk, eq_comm]
    · simp [hk]
  tags_nodup := nodup_nil
  mem_tags := by
    intro k v
    have hnone : effectiveTags plainLive (aliceRequest key value) k = none := rfl
    simp [hnone]

/-- A query of `user`, over the wire and under the cluster's account, is submitted with these
headers. -/
def Submits (adapter : TrinoAdapter) (user : String) (headers : List (String × String)) : Prop :=
  ∃ r setup it, WireRequest plainFrontend r ∧ r.auth.user = user ∧
    (∀ answer, (executeToSink plainLive ordersState r).run answer = .executed none (.ok setup)) ∧
    setup.submission.credentials = .serviceAccount ∧
    Iteration.Of it setup.submission.session setup.submission.tags ∧
    adapter.submitQuery setup.submission.session it .serviceAccount = .ok headers

theorem submits_alice {adapter : TrinoAdapter} {headers : List (String × String)}
    (hwire : WireRequest plainFrontend (aliceRequest key value))
    (hsent : adapter.submitQuery (aliceSession key value) ⟨[(key, value)], []⟩ .serviceAccount =
      .ok headers) : Submits adapter "alice" headers := by
  obtain ⟨setup, hrun, hsession, hcred, htags⟩ :=
    executeToSink_plain (aliceSession key value) (plainContext "alice")
  refine ⟨_, setup, ⟨[(key, value)], []⟩, hwire, rfl, hrun, hcred, ?_, ?_⟩
  · rw [hsession, htags]
    exact iteration_alice key value
  · rw [hsession]
    exact hsent

/-- The session value is no identity. -/
theorem names_verified_user_timeZone :
    ∃ setup headers, (executeToSink plainLive ordersState (aliceRequest "time_zone" "UTC")).run
        permissive = .executed none (.ok setup) ∧
      (TrinoAdapter.mk none).submitQuery setup.submission.session ⟨[("time_zone", "UTC")], []⟩
        setup.submission.credentials = .ok headers ∧
      NamesVerifiedUser ⟨none⟩ (plainContext "alice") setup.submission.credentials headers := by
  obtain ⟨setup, hrun, hsession, hcred, htags⟩ :=
    executeToSink_plain (aliceSession "time_zone" "UTC") (plainContext "alice")
  have hwire : WireRequest plainFrontend (aliceRequest "time_zone" "UTC") :=
    wireRequest_alice "SET time_zone = 'UTC'" (by decide +kernel) (by decide +kernel)
      (by decide +kernel) (by decide +kernel)
  have hresolve (auth : AuthContext) (cluster : String) :
      ordersState.resolveCredentials auth cluster = resolve auth none := by
    rw [resolve]
    split <;> rfl
  have hsent : (TrinoAdapter.mk none).submitQuery setup.submission.session
      ⟨[("time_zone", "UTC")], []⟩ setup.submission.credentials =
      .ok [("x-trino-user", "alice")] := by
    rw [hsession, hcred]
    decide +kernel
  have hit : Iteration.Of ⟨[("time_zone", "UTC")], []⟩ setup.submission.session
      setup.submission.tags := by
    rw [hsession, htags]
    exact iteration_alice _ _
  have hmode : setup.submission.credentials ≠ .passthrough := by
    rw [hcred]
    decide
  refine ⟨setup, _, hrun _, hsent, ?_⟩
  refine (names_verified_user_iff hwire hresolve (hrun permissive) hmode hit hsent).2 ⟨?_, ?_⟩
  · intro _ key value hentry hkey
    have hname : key = "time_zone" := by
      by_contra hne
      have hnone : (aliceSession "time_zone" "UTC").extra key = none := if_neg hne
      cases hnone.symm.trans hentry
    rw [hname] at hkey
    exact absurd hkey (by unfold IsUserKey; decide)
  · intro _ _
    rfl

/-- After `alice` has set `x-trino-user` to `admin`, the request to a cluster names `admin`. A
variable `authorization` becomes the header of that name. -/
theorem client_chooses_user :
    Submits ⟨some (.basic "svc" "pw")⟩ "alice"
        [("authorization", "Basic c3ZjOnB3"), ("x-trino-user", "admin")] ∧
      Submits ⟨none⟩ "alice" [("authorization", "Basic YWRtaW46cHc=")] := by
  constructor
  · have hwire : WireRequest plainFrontend (aliceRequest "x-trino-user" "admin") :=
      wireRequest_alice "SET x-trino-user = 'admin'" (by decide +kernel)
        (by decide +kernel) (by decide +kernel) (by decide +kernel)
    exact submits_alice hwire (by decide +kernel)
  · have hwire : WireRequest plainFrontend (aliceRequest "authorization" "Basic YWRtaW46cHc=") :=
      wireRequest_alice "SET authorization = 'Basic YWRtaW46cHc='" (by decide +kernel)
        (by decide +kernel) (by decide +kernel) (by decide +kernel)
    exact submits_alice hwire (by decide +kernel)

end QueryFlux.Wire
