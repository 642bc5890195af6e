import Mathlib.Data.List.Induction
import QueryFlux.Trino.Request

/-!
# For whom policies are asked

Every question of the pipeline, to a policy engine or to a plan guard, is asked for the session's
user: the one the client declares in `X-Trino-User`. The verified user of the request plays no
part in it, nor does who polls (`queued_as_submitted`). So the questions of a request are asked for
its verified user in every configuration exactly when the client declares that user itself
(`asked_for_verified_user_iff`).
-/

namespace QueryFlux.Trino

open Core Access Dispatch Guardrails Lib

/-! ## What the dispatch asks -/

section
variable (live : LiveConfig) (state : AppState) (r : Request) {u : String}

/-- The question is about this user. -/
def AskedFor (u : String) (q : Question) : Prop := q.user = some u

theorem checkedSession_user (session : SessionContext) :
    (checkedSession live r session).user = session.user := by
  unfold checkedSession
  split <;> rfl

variable {session : SessionContext}

theorem accessStage_askedFor (h : session.user = some u) (engineType : EngineType)
    (schema : SchemaContext) :
    (accessStage live state r engineType session schema).All (AskedFor u) := by
  unfold accessStage
  split
  · exact .done trivial
  · rename_i guard _
    split
    · refine (guard.check_all state.sql fun name conn op tables grant => ?_).map fun _ _ => trivial
      simp [AskedFor, Question.user, ConnectionRuntime.buildRequest, stageContext, h]
    · exact .done trivial

theorem finishSetup_user {cluster : String} {adapter : Adapter} {schema : SchemaContext}
    {sql : String} {rewrote : Bool} {setup : SyncQuerySetup}
    (h : finishSetup live state r cluster adapter schema session sql rewrote = .ok setup) :
    setup.submission.session.user = session.user := by
  rw [(submission_of_finishSetup h).2.2]
  exact enrichSessionForPassthrough_user _ _ _

theorem setupSyncQuery_askedFor (h : r.session.user = some u) :
    (setupSyncQuery live state r).Meets (AskedFor u)
      fun result => ∀ setup, result = .ok setup → setup.submission.session.user = some u := by
  unfold setupSyncQuery
  split
  · exact .done fun _ hsetup => by cases hsetup
  · split
    · exact .done fun _ hsetup => by cases hsetup
    · have hsession := (checkedSession_user live r r.session).trans h
      refine (accessStage_askedFor live state r hsession _ _).map fun outcome _ setup hsetup => ?_
      cases outcome with
      | allowed | rewritten => exact (finishSetup_user live state r hsetup).trans hsession
      | denied => cases hsetup

theorem executeToSinkInner_askedFor (h : r.session.user = some u) :
    (executeToSinkInner live state r).All (AskedFor u) := by
  refine (setupSyncQuery_askedFor live state r h).bind fun result hresult => ?_
  cases result with
  | error => exact .done trivial
  | ok setup =>
    refine (runChains_all (fun g => ?_) _ _).map fun _ _ => trivial
    exact hresult setup rfl

theorem executeToSink_askedFor (h : r.session.user = some u) :
    (executeToSink live state r).All (AskedFor u) := by
  have huncached (key : Option CacheKey) : (executeUncached live state r key).All (AskedFor u) :=
    (executeToSinkInner_askedFor live state r h).map fun _ _ => trivial
  unfold executeToSink
  split
  · exact .done trivial
  · split
    · exact huncached _
    · refine (accessStage_askedFor live state r h _ _).bind fun outcome _ => ?_
      cases outcome with
      | denied | rewritten => exact huncached _
      | allowed =>
        refine (runChains_all (fun g => h) _ _).bind fun result _ => ?_
        cases result with
        | error => exact .done trivial
        | ok =>
          dsimp only
          split
          · exact .done trivial
          · exact huncached _
          · exact huncached _

theorem submitAsync_askedFor (h : session.user = some u) (cluster : String) (adapter : Adapter)
    (schema : SchemaContext) (credentials : QueryCredentials) (sql : String) (rewrote : Bool) :
    (submitAsync live state r cluster adapter schema credentials session sql rewrote).All
      (AskedFor u) := by
  unfold submitAsync
  split
  · exact .done trivial
  · dsimp only
    split
    · exact .done trivial
    · exact (runChains_all (fun g => h) _ _).map fun _ _ => trivial

theorem dispatchQuery_askedFor (h : r.session.user = some u) :
    (dispatchQuery live state r).All (AskedFor u) := by
  unfold dispatchQuery
  split
  · exact .done trivial
  · split
    · exact .done trivial
    · exact .done trivial
    · split
      · exact .done trivial
      · rename_i cluster _ credentials _
        split
        · exact .done trivial
        · split
          · exact .done trivial
          · have hsession : (checkedSession live r
                (enrichSessionForPassthrough r.session credentials r.auth)).user = some u := by
              rw [checkedSession_user, enrichSessionForPassthrough_user, h]
            refine (accessStage_askedFor live state r hsession _ _).bind fun outcome _ => ?_
            cases outcome with
            | allowed | rewritten => exact submitAsync_askedFor live state r hsession ..
            | denied => exact .done trivial

theorem submitRequest_askedFor (frontend : Frontend) (h : r.session.user = some u) :
    (submitRequest frontend live state r).All (AskedFor u) := by
  have hsink := (executeToSink_askedFor live state r h).map
    (S := fun _ => True) (f := StatementOutcome.sunk) fun _ _ => trivial
  unfold submitRequest
  dsimp only
  split
  · refine (dispatchQuery_askedFor live state r h).bind fun result _ => ?_
    split
    · exact hsink
    · exact .done trivial
  · exact hsink

end

/-! ## The declared user -/

/-- The last value of a header that is text, as `HashMap::insert` leaves it. -/
def lastText (headers : HeaderMap) (name : String) : Option String :=
  ((headers.filter (·.1 == name)).filterMap (·.2.toStr)).getLast?

theorem lastText_concat (headers : HeaderMap) (e : String × HeaderValue) (name : String) :
    lastText (headers ++ [e]) name =
      if name = e.1 then e.2.toStr <|> lastText headers name else lastText headers name := by
  rw [lastText, List.filter_append, List.filterMap_append]
  split_ifs with hname
  · cases htext : e.2.toStr with
    | none => simp [hname, htext, lastText]
    | some => simp [hname, htext]
  · simp [Ne.symm hname, lastText]

theorem insertHeader_apply (m : String → Option String) (e : String × HeaderValue)
    (name : String) :
    insertHeader m e name = if name = e.1 then e.2.toStr <|> m name else m name := by
  unfold insertHeader
  cases e.2.toStr <;> simp

theorem headerEntries_eq_lastText (headers : HeaderMap) (name : String) :
    headerEntries headers name = lastText headers name := by
  induction headers using List.reverseRecOn with
  | nil => rfl
  | append_singleton _ _ ih =>
    rw [lastText_concat, ← ih, headerEntries, List.foldl_concat]
    exact insertHeader_apply ..

/-- The user that the client names. -/
def declaredUser (headers : HeaderMap) : Option String := lastText headers "x-trino-user"

theorem extractSession_user (extractTags : (String → Option String) → QueryTags)
    (headers : HeaderMap) : (extractSession extractTags headers).user = declaredUser headers :=
  headerEntries_eq_lastText headers "x-trino-user"

/-- Everything is asked for the user that the client names. -/
theorem postStatement_askedFor (frontend : Frontend) (live : LiveConfig) (state : AppState)
    {headers : HeaderMap} {u : String} (h : declaredUser headers = some u) (body : ByteArray) :
    (postStatement frontend live state headers body).All (AskedFor u) := by
  unfold postStatement
  split
  · exact .done trivial
  · dsimp only
    split
    · exact .done trivial
    · split
      · exact .done trivial
      · split
        · exact .done trivial
        · exact submitRequest_askedFor live state _ frontend ((extractSession_user _ _).trans h)

/-! ## A cluster with one guard -/

def permissive : (q : Question) → Answer q
  | .access .. => AccessDecision.allowAll
  | .guard .. => GuardResult.allow

def planGuard : Guard := ⟨0, "readonly", .plan⟩

def oneAdapter : Adapter := ⟨false, .trino, .trino, true⟩

def oneCluster (access : Option OpaAccessGuard) : LiveConfig :=
  { LiveConfig.plain oneAdapter with
    accessControlGuard := access
    guardChain := some [planGuard] }

def ordersState : AppState := .plain ordersSql

def frontendFor (accepts : Credentials → Bool) (auth : AuthContext) : Frontend where
  extractTags := fun _ _ => none
  authenticate := fun c => if accepts c then .ok auth else .error "bad credentials"
  isSetSessionTags := fun _ => false
  route := fun _ _ _ => .ok "default"
  isDeterministic := fun _ _ => true
  groupSupportsAsync := fun _ => false
  mayDequeue := fun auth owner _ => auth.user == owner

def selectOrders : ByteArray := "SELECT * FROM orders".toUTF8

theorem fromUTF8_selectOrders : String.fromUTF8? selectOrders = some "SELECT * FROM orders" := by
  decide +kernel

section
variable (r : Request) (answer : (q : Question) → Answer q)

variable (access : Option OpaAccessGuard)

theorem finishSetup_oneCluster (hparams : r.params = []) :
    ∃ setup, setupAfterStage (oneCluster access) ordersState r "cluster-1" oneAdapter .allowed =
        .ok setup ∧
      setup.submission.session = checkedSession (oneCluster access) r r.session := by
  unfold setupAfterStage finishSetup engineSql
  simp only [ordersState, AppState.plain_maybeTranslate, hparams]
  simp [AppState.plain, enrichSessionForPassthrough]

theorem runChains_planGuard (ctx : GuardContext) :
    ((runChains ctx [] [[planGuard]]).asked answer) = [.guard planGuard ctx] := by
  rw [runChains, Asks.asked_bind, GuardChain.run]
  simp only [planGuard, ne_eq, not_true_eq_false, if_false, Asks.asked_ask, Asks.run_ask]
  cases answer (.guard ⟨0, "readonly", .plan⟩ ctx) <;> rfl

theorem asked_executeToSink_oneCluster :
    (executeToSink (oneCluster access) ordersState r).asked answer =
      (executeToSinkInner (oneCluster access) ordersState r).asked answer := by
  have hsink : executeToSink (oneCluster access) ordersState r =
      executeUncached (oneCluster access) ordersState r none := by
    unfold executeToSink
    simp [oneCluster, LiveConfig.plain, cacheKey, effectiveCache, ordersState, AppState.plain]
  rw [hsink, executeUncached, Asks.asked_map]

theorem asked_oneCluster (hparams : r.params = [])
    (hallowed : (engineStage (oneCluster access) ordersState r oneAdapter).run answer = .allowed) :
    ∃ ctx, ctx.user = r.session.user ∧ Question.guard planGuard ctx ∈
      (executeToSink (oneCluster access) ordersState r).asked answer := by
  obtain ⟨setup, hsetup, hsession⟩ := finishSetup_oneCluster r access hparams
  have hrun : (setupSyncQuery (oneCluster access) ordersState r).run answer = .ok setup := by
    rw [setupSyncQuery_eq rfl rfl, Asks.run_map]
    exact (congrArg _ hallowed).trans hsetup
  refine ⟨syncGuardContext r setup, ?_, ?_⟩
  · rw [syncGuardContext, hsession, checkedSession_user]
  · rw [asked_executeToSink_oneCluster, executeToSinkInner, Asks.asked_bind, hrun]
    simp [chains, oneCluster, LiveConfig.plain, runChains_planGuard]

theorem asked_engineStage_oneCluster {q : Question}
    (h : q ∈ (engineStage (oneCluster access) ordersState r oneAdapter).asked answer) :
    q ∈ (executeToSink (oneCluster access) ordersState r).asked answer := by
  rw [asked_executeToSink_oneCluster, executeToSinkInner, Asks.asked_bind,
    setupSyncQuery_eq rfl rfl, Asks.asked_map]
  exact List.mem_append_left _ h

variable {access}

theorem asked_readGuard (hsql : r.sql = "SELECT * FROM orders") (hparams : r.params = []) :
    ∃ request ctx, request.identity.user = r.session.user.getD "anonymous" ∧
      ctx.user = r.session.user ∧
      Question.access "opa" request ∈
        (executeToSink (oneCluster (some readGuard)) ordersState r).asked permissive ∧
      Question.guard planGuard ctx ∈
        (executeToSink (oneCluster (some readGuard)) ordersState r).asked permissive := by
  let live := oneCluster (some readGuard)
  let sctx := stageContext r.sql (srcDialect r) .trino r.group r.auth
    (checkedSession live r r.session) (schemaContext live ordersState r) (effectiveTags live r)
  have hstage : engineStage live ordersState r oneAdapter =
      (readGuard.check ordersSql sctx).map stageOutcome := rfl
  have hcheck := check_readGuard sctx hsql
  have haccess : Question.access "opa"
      (selectOnly.buildRequest sctx .tableSelect [ordersTable] none) ∈
      (executeToSink live ordersState r).asked permissive := by
    apply asked_engineStage_oneCluster
    rw [hstage, hcheck]
    exact .head _
  have hallowed : (engineStage live ordersState r oneAdapter).run permissive = .allowed := by
    rw [hstage, hcheck]
    rfl
  obtain ⟨ctx, hctx, hguard⟩ := asked_oneCluster r permissive (some readGuard) hparams hallowed
  exact ⟨_, ctx, congrArg (·.getD "anonymous") (checkedSession_user live r r.session), hctx,
    haccess, hguard⟩

end

def ordersRequest (headers : HeaderMap) (auth : AuthContext) : Request :=
  ⟨"SELECT * FROM orders", [], extractSession (fun _ _ => none) headers, .trinoHttp, "default",
    auth⟩

theorem ordersRequest_user (headers : HeaderMap) (auth : AuthContext) :
    (ordersRequest headers auth).session.user = declaredUser headers :=
  extractSession_user _ _

theorem postStatement_oneCluster (access : Option OpaAccessGuard) (accepts : Credentials → Bool)
    {headers : HeaderMap} (auth : AuthContext) (h : accepts (extractCredentials headers) = true) :
    postStatement (frontendFor accepts auth) (oneCluster access) ordersState headers selectOrders =
      (executeToSink (oneCluster access) ordersState (ordersRequest headers auth)).map .sunk := by
  rw [postStatement, fromUTF8_selectOrders]
  simp only [frontendFor, h, if_true]
  rfl

/-- Whatever the configuration, access control and guards are asked about the verified user if and
only if the client names the same user. -/
theorem asked_for_verified_user_iff (headers : HeaderMap) (auth : AuthContext) :
    (∀ frontend live state body answer,
      frontend.authenticate (extractCredentials headers) = .ok auth →
      ∀ q ∈ (postStatement frontend live state headers body).asked answer,
        q.user = some auth.user) ↔
      declaredUser headers = some auth.user := by
  constructor
  · intro h
    obtain ⟨ctx, hctx, hmem⟩ := asked_oneCluster (ordersRequest headers auth) permissive none
      rfl rfl
    rw [← Asks.asked_map StatementOutcome.sunk,
      ← postStatement_oneCluster none (fun _ => true) auth rfl] at hmem
    have hasked : ctx.user = some auth.user := h _ _ _ _ _ rfl _ hmem
    rw [← ordersRequest_user headers auth, ← hctx, hasked]
  · intro h frontend live state body answer _
    exact (postStatement_askedFor frontend live state h body).asked

def asciiBytes (s : String) : HeaderValue := s.toList.map fun c => UInt8.ofNat c.toNat

/-- Credentials of one user, and the name of another. -/
def aliceAsBob : HeaderMap :=
  [("authorization", asciiBytes "Basic YWxpY2U6cHc="), ("x-trino-user", asciiBytes "bob")]

def alice : AuthContext := ⟨"alice", [], [], none, none, fun _ => none⟩

def aliceOnly : Frontend := frontendFor (· == ⟨some "alice", some "pw", none⟩) alice

/-- Alice authenticates; the policy engine and the plan guard are asked about Bob. -/
theorem declared_user_asked_for :
    aliceOnly.authenticate (extractCredentials aliceAsBob) = .ok alice ∧
      ∃ request ctx, request.identity.user = "bob" ∧ ctx.user = some "bob" ∧
        Question.access "opa" request ∈ (postStatement aliceOnly (oneCluster (some readGuard))
          ordersState aliceAsBob selectOrders).asked permissive ∧
        Question.guard planGuard ctx ∈ (postStatement aliceOnly (oneCluster (some readGuard))
          ordersState aliceAsBob selectOrders).asked permissive := by
  have haccepts : (extractCredentials aliceAsBob == ⟨some "alice", some "pw", none⟩) = true := by
    decide +kernel
  have hdeclared : declaredUser aliceAsBob = some "bob" := by decide +kernel
  obtain ⟨request, ctx, hrequest, hctx, haccess, hguard⟩ :=
    asked_readGuard (ordersRequest aliceAsBob alice) rfl rfl
  refine ⟨if_pos haccepts, request, ctx, hrequest, hctx, ?_⟩
  rw [aliceOnly, postStatement_oneCluster _ _ _ haccepts, Asks.asked_map]
  exact ⟨haccess, hguard⟩

theorem withoutAuthHeaders_dispatched (session : SessionContext) (headers : HeaderMap)
    (auth : AuthContext) :
    (sessionForQueuedDispatch session.withoutAuthHeaders headers auth).withoutAuthHeaders =
      session.withoutAuthHeaders := by
  unfold sessionForQueuedDispatch
  dsimp only
  split
  all_goals
    refine congrArg (fun extra => { session with extra := extra }) (funext fun k => ?_)
    dsimp only [SessionContext.withoutAuthHeaders]
    grind

/-- However often a query is polled and queued again, and by whom: policies are asked for the user
it was submitted for, and the session has no `Authorization` but that of the poll. -/
theorem queued_as_submitted (frontend : Frontend) (live : LiveConfig) (state : AppState)
    (r : Request) {u : String} (h : r.session.user = some u)
    (polls : List (HeaderMap × AuthContext)) (headers : HeaderMap) :
    let queued := polls.foldl (fun q p => q.requeue p.1 p.2) (queuedQuery r)
    (dispatchQueued frontend live state headers queued).All (AskedFor u) ∧
      ∀ auth, (sessionForQueuedDispatch queued.session headers auth).extra "authorization" =
        ((headers.get "authorization").bind HeaderValue.toStr <|>
          auth.rawToken.map ("Bearer " ++ ·)) := by
  intro queued
  have hstored : queued.session = r.session.withoutAuthHeaders := by
    refine List.foldlRecOn polls _ (motive := fun q : QueuedQuery =>
      q.session = r.session.withoutAuthHeaders) rfl fun q hq p _ => ?_
    rw [QueuedQuery.requeue, hq]
    exact withoutAuthHeaders_dispatched ..
  rw [hstored]
  refine ⟨?_, fun auth => ?_⟩
  · unfold dispatchQueued
    split
    · exact .done trivial
    · split
      · exact .done trivial
      · refine submitRequest_askedFor live state _ frontend ?_
        rw [hstored, sessionForQueuedDispatch]
        split <;> exact h
  · unfold sessionForQueuedDispatch
    dsimp only
    split
    next hcredential => exact hcredential.symm
    next hcredential => exact hcredential.symm

/-! ## Queued queries -/

def carol : AuthContext := ⟨"carol", [], [], some "token", none, fun _ => none⟩

/-- Carol polls with a token and finds no slot; then Alice polls. -/
theorem polled_by_alice :
    let queued := (queuedQuery (ordersRequest aliceAsBob alice)).requeue [] carol
    (dispatchQueued aliceOnly (oneCluster none) ordersState aliceAsBob queued).All
        (AskedFor "bob") ∧
      (sessionForQueuedDispatch queued.session aliceAsBob alice).extra "authorization" =
        some "Basic YWxpY2U6cHc=" := by
  have hdeclared : (ordersRequest aliceAsBob alice).session.user = some "bob" := by decide +kernel
  have hpolled := queued_as_submitted aliceOnly (oneCluster none) ordersState
    (ordersRequest aliceAsBob alice) hdeclared [([], carol)] aliceAsBob
  exact ⟨hpolled.1, (hpolled.2 alice).trans (by decide +kernel)⟩

end QueryFlux.Trino
