import Mathlib.Data.List.Perm.Basic
import Mathlib.Data.List.Sort
import QueryFlux.Access.Model
import QueryFlux.Core.JsonText
import QueryFlux.Lib.Transition

/-!
# The controller's decision cache

`AccessController` keeps allow decisions for a short time under a key of everything in a request
but its query id. `cacheKey` sorts what a policy sees as sets; requests with one key are the same up
to these orders (`same_of_cacheKey_eq`).

Calls of `evaluate` overlap: a call looks into the cache, and if it finds nothing it waits for the
provider while other calls go on. A run is any interleaving of such calls with the clock and with
evictions. Whatever a call returns without asking was received from the provider before, as an allow
for the same request and less than the time to live ago (`cached_was_received`).
-/

namespace QueryFlux.Access

open Core Lib List

def ResourceKind.asStr : ResourceKind → String
  | table => "table"
  | view => "view"
  | schema => "schema"
  | catalog => "catalog"
  | session => "session"
  | role => "role"
  | function => "function"
  | procedure => "procedure"

/-! ## The cache key -/

/-- A request with its maps as lists, as they are hashed. -/
structure PosedRequest where
  request : AccessRequest
  attributes : List (String × Json)
  sessionParams : List (String × String)
  attributes_eq : ∀ k,
    request.identity.attributes k = (attributes.find? (·.1 = k)).map Prod.snd
  sessionParams_eq : ∀ k,
    request.context.sessionParams k = (sessionParams.find? (·.1 = k)).map Prod.snd
  /-- The numbers of a `Value` are numbers. -/
  plain : ∀ kv ∈ attributes, kv.2.plain = true

structure CacheResourceKey where
  kind : String
  catalog : Option String
  schema : Option String
  table : String
  -- none is all columns
  columns : Option (List String)
  value : Option String
  deriving DecidableEq

/-- The order of resources: by kind, catalog, schema, table, value and columns. -/
def CacheResourceKey.cmp (a b : CacheResourceKey) : Ordering :=
  (compare a.kind b.kind).then <| (compare a.catalog b.catalog).then <|
    (compare a.schema b.schema).then <| (compare a.table b.table).then <|
    (compare a.value b.value).then (compare a.columns b.columns)

structure CacheGrantKey where
  privileges : List String
  grantees : List String
  withGrantOption : Bool
  deriving DecidableEq

structure Controller.CacheKey where
  user : String
  groups : List String
  roles : List String
  attributes : List (String × String)
  operation : String
  resources : List CacheResourceKey
  grant : Option CacheGrantKey
  clusterGroup : String
  engine : String
  sessionParams : List (String × String)
  deriving DecidableEq

def sorted (l : List String) : List String := l.insertionSort (· ≤ ·)

def cacheColumns : Columns → Option (List String)
  | .all => none
  | .named columns => some (sorted columns)

def cacheResourceKey (r : AccessResource) : CacheResourceKey where
  kind := r.kind.asStr
  catalog := r.catalog
  schema := r.schema
  table := r.table
  columns := cacheColumns r.columns
  value := r.value

def cacheGrantKey (g : GrantDetail) : CacheGrantKey :=
  ⟨sorted g.privileges, sorted g.grantees, g.withGrantOption⟩

/-- Everything of a request that a policy may look at, with lists in sorted order; not the query's
id. -/
def Controller.cacheKey (p : PosedRequest) : Controller.CacheKey where
  user := p.request.identity.user
  groups := sorted p.request.identity.groups
  roles := sorted p.request.identity.roles
  attributes := p.attributes.map fun kv => (kv.1, kv.2.toText)
  operation := p.request.operation.name
  resources := (p.request.resources.map cacheResourceKey).insertionSort fun a b => a.cmp b ≠ .gt
  grant := p.request.grant.map cacheGrantKey
  clusterGroup := p.request.context.clusterGroup
  engine := p.request.context.engine
  sessionParams := p.sessionParams

def SameColumns : Columns → Columns → Prop
  | .all, .all => True
  | .named cs, .named cs' => cs.Perm cs'
  | _, _ => False

structure SameResource (r r' : AccessResource) : Prop where
  kind : r.kind = r'.kind
  catalog : r.catalog = r'.catalog
  schema : r.schema = r'.schema
  table : r.table = r'.table
  columns : SameColumns r.columns r'.columns
  value : r.value = r'.value

structure SameGrant (g g' : GrantDetail) : Prop where
  privileges : g.privileges.Perm g'.privileges
  grantees : g.grantees.Perm g'.grantees
  withGrantOption : g.withGrantOption = g'.withGrantOption

/-- The requests differ in the order of lists and in the query's id only. -/
structure SameRequest (q q' : AccessRequest) : Prop where
  user : q.identity.user = q'.identity.user
  groups : q.identity.groups.Perm q'.identity.groups
  roles : q.identity.roles.Perm q'.identity.roles
  attributes : q.identity.attributes = q'.identity.attributes
  operation : q.operation = q'.operation
  resources : ∃ rs, List.Forall₂ SameResource q.resources rs ∧ rs.Perm q'.resources
  grant : Option.Rel SameGrant q.grant q'.grant
  clusterGroup : q.context.clusterGroup = q'.context.clusterGroup
  engine : q.context.engine = q'.context.engine
  sessionParams : q.context.sessionParams = q'.context.sessionParams

theorem ResourceKind.asStr_injective {k k' : ResourceKind} (h : k.asStr = k'.asStr) : k = k' := by
  revert h
  cases k <;> cases k' <;> decide

theorem perm_of_insertionSort_eq {α : Type} {r : α → α → Prop} [DecidableRel r] {l l' : List α}
    (h : l.insertionSort r = l'.insertionSort r) : l.Perm l' := by
  have hperm : l.Perm (l.insertionSort r) := (perm_insertionSort r l).symm
  rw [h] at hperm
  exact hperm.trans (perm_insertionSort r l')

theorem sameResource_of_key_eq {r r' : AccessResource}
    (h : cacheResourceKey r = cacheResourceKey r') : SameResource r r' := by
  simp only [cacheResourceKey, CacheResourceKey.mk.injEq] at h
  obtain ⟨hkind, hcatalog, hschema, htable, hcolumns, hvalue⟩ := h
  refine ⟨ResourceKind.asStr_injective hkind, hcatalog, hschema, htable, ?_, hvalue⟩
  cases hc : r.columns with
  | all =>
    cases hc' : r'.columns with
    | all => trivial
    | named => simp [hc, hc', cacheColumns] at hcolumns
  | named =>
    cases hc' : r'.columns with
    | all => simp [hc, hc', cacheColumns] at hcolumns
    | named =>
      simp only [hc, hc', cacheColumns, Option.some.injEq] at hcolumns
      exact perm_of_insertionSort_eq hcolumns

theorem sameResources_of_perm {rs rs' : List AccessResource}
    (h : (rs.map cacheResourceKey).Perm (rs'.map cacheResourceKey)) :
    ∃ ss, List.Forall₂ SameResource rs ss ∧ ss.Perm rs' := by
  have hkeys : Forall₂ (fun k r => k = cacheResourceKey r) (rs'.map cacheResourceKey) rs' := by
    rw [forall₂_map_left_iff, forall₂_same]
    intro r _
    rfl
  obtain ⟨ss, hss, hperm⟩ := perm_comp_forall₂ h hkeys
  rw [forall₂_map_left_iff] at hss
  exact ⟨ss, hss.imp fun _ _ => sameResource_of_key_eq, hperm⟩

theorem sameGrant_of_key_eq {g g' : Option GrantDetail}
    (h : g.map cacheGrantKey = g'.map cacheGrantKey) : Option.Rel SameGrant g g' := by
  cases g with
  | none =>
    cases g' with
    | none => exact .none
    | some => cases h
  | some =>
    cases g' with
    | none => cases h
    | some =>
      simp only [Option.map_some, Option.some.injEq, cacheGrantKey, CacheGrantKey.mk.injEq] at h
      exact .some ⟨perm_of_insertionSort_eq h.1, perm_of_insertionSort_eq h.2.1, h.2.2⟩

theorem attributes_eq_of_texts {l l' : List (String × Json)}
    (hp : ∀ kv ∈ l, kv.2.plain = true) (hp' : ∀ kv ∈ l', kv.2.plain = true)
    (h : l.map (fun kv => (kv.1, kv.2.toText)) = l'.map fun kv => (kv.1, kv.2.toText)) :
    l = l' := by
  induction l generalizing l' with
  | nil =>
    cases l' with
    | nil => rfl
    | cons => cases h
  | cons kv _ ih =>
    cases l' with
    | nil => cases h
    | cons kv' =>
      rw [forall_mem_cons] at hp hp'
      simp only [map_cons, cons.injEq, Prod.mk.injEq] at h
      obtain ⟨⟨hk, htext⟩, hrest⟩ := h
      obtain rfl : kv = kv' := Prod.ext hk (Json.toText_injective hp.1 hp'.1 htext)
      rw [ih hp.2 hp'.2 hrest]

theorem same_of_cacheKey_eq {p p' : PosedRequest}
    (h : Controller.cacheKey p = Controller.cacheKey p') :
    SameRequest p.request p'.request := by
  simp only [Controller.cacheKey, Controller.CacheKey.mk.injEq] at h
  obtain ⟨huser, hgroups, hroles, hattributes, hoperation, hresources, hgrant, hcluster, hengine,
    hsession⟩ := h
  have hattributes := attributes_eq_of_texts p.plain p'.plain hattributes
  exact {
    user := huser
    groups := perm_of_insertionSort_eq hgroups
    roles := perm_of_insertionSort_eq hroles
    attributes := by
      funext k
      rw [p.attributes_eq, p'.attributes_eq, hattributes]
    operation := congrArg Operation.mk hoperation
    resources := sameResources_of_perm (perm_of_insertionSort_eq hresources)
    grant := sameGrant_of_key_eq hgrant
    clusterGroup := hcluster
    engine := hengine
    sessionParams := by
      funext k
      rw [p.sessionParams_eq, p'.sessionParams_eq, hsession] }

/-! ## The controller -/

def AccessDecision.denyAll (reason : String) : AccessDecision :=
  ⟨[⟨"*", false, some reason, [], []⟩]⟩

structure CacheEntry where
  stored : Nat
  decision : AccessDecision

structure ControllerConfig where
  failOpenDefault : Bool
  groupFailOpen : String → Option Bool
  cacheTtl : Nat
  cacheCapacity : Nat

variable (cfg : ControllerConfig)

def ControllerConfig.failOpenFor (group : String) : Bool :=
  (cfg.groupFailOpen group).getD cfg.failOpenDefault

inductive CallEvent
  | received (time : Nat) (p : PosedRequest) (decision : AccessDecision)
  | cached (time : Nat) (p : PosedRequest) (decision : AccessDecision)
  /-- Made of a provider's error. -/
  | failed (time : Nat) (p : PosedRequest) (decision : AccessDecision)

abbrev DecisionCache := List (Controller.CacheKey × CacheEntry)

/-- The controller, the calls that wait for the provider, and what was returned, newest first. -/
structure ControllerState where
  now : Nat
  cache : DecisionCache
  waiting : List PosedRequest
  events : List CallEvent

def cacheFind (cache : DecisionCache) (key : Controller.CacheKey) : Option CacheEntry :=
  (cache.find? (·.1 = key)).map Prod.snd

def cacheRemove (cache : DecisionCache) (key : Controller.CacheKey) : DecisionCache :=
  cache.filter (·.1 ≠ key)

def cacheGet (now : Nat) (cache : DecisionCache) (key : Controller.CacheKey) :
    Option AccessDecision × DecisionCache :=
  match cacheFind cache key with
  | none => (none, cache)
  | some entry =>
    if now - entry.stored < cfg.cacheTtl then (some entry.decision, cache)
    else (none, cacheRemove cache key)

/-- At the capacity the expired entries go; where that is not enough, all of them. -/
def cacheMakeRoom (now : Nat) (cache : DecisionCache) : DecisionCache :=
  if cfg.cacheCapacity ≤ cache.length then
    let kept := cache.filter fun e => now - e.2.stored < cfg.cacheTtl
    if cfg.cacheCapacity ≤ kept.length then [] else kept
  else cache

def cachePut (now : Nat) (cache : DecisionCache) (key : Controller.CacheKey)
    (decision : AccessDecision) : DecisionCache :=
  (key, ⟨now, decision⟩) :: cacheRemove (cacheMakeRoom cfg now cache) key

/-- Answer from the cache, or wait for the policy engine. -/
def evaluateBegin (s : ControllerState) (p : PosedRequest) : ControllerState :=
  if cfg.cacheTtl = 0 then { s with waiting := s.waiting ++ [p] }
  else
    match cacheGet cfg s.now s.cache (Controller.cacheKey p) with
    | (some hit, cache) =>
      { s with cache := cache, events := .cached s.now p hit :: s.events }
    | (none, cache) => { s with cache := cache, waiting := s.waiting ++ [p] }

/-- Only a decision that allows is cached; an error is answered as the group says. -/
def evaluateEnd (s : ControllerState) (p : PosedRequest) (result : Except String AccessDecision) :
    ControllerState :=
  match result with
  | .ok decision =>
    { s with
      cache := if decision.isAllowed && cfg.cacheTtl != 0 then
          cachePut cfg s.now s.cache (Controller.cacheKey p) decision
        else s.cache
      events := .received s.now p decision :: s.events }
  | .error err =>
    let decision := if cfg.failOpenFor p.request.context.clusterGroup then .allowAll
      else .denyAll ("policy engine unavailable: " ++ err)
    { s with events := .failed s.now p decision :: s.events }

inductive ControllerAct
  | tick (d : Nat)
  | evict (key : Controller.CacheKey)
  | evaluate (p : PosedRequest)
  | answer (i : Nat) (result : Except String AccessDecision)

def controllerStep (s : ControllerState) : ControllerAct → Option ControllerState
  | .tick d => some { s with now := s.now + d }
  | .evict key => some { s with cache := cacheRemove s.cache key }
  | .evaluate p => some (evaluateBegin cfg s p)
  | .answer i result => s.waiting[i]?.map fun p =>
      evaluateEnd cfg { s with waiting := s.waiting.eraseIdx i } p result

def controller : System ControllerState ControllerAct where
  init s := s.cache = [] ∧ s.waiting = [] ∧ s.events = []
  step := controllerStep cfg

/-! ## What the cache holds -/

/-- The entry was received at its time, for a request with its key. -/
def Backed (now : Nat) (events : List CallEvent) (e : Controller.CacheKey × CacheEntry) : Prop :=
  e.2.stored ≤ now ∧ e.2.decision.isAllowed = true ∧
    ∃ p, Controller.cacheKey p = e.1 ∧ .received e.2.stored p e.2.decision ∈ events

/-- The provider gave this decision before, as an allow for the same request, less than the time to
live ago. -/
def ReceivedBefore (past : List CallEvent) (now : Nat) (p : PosedRequest)
    (decision : AccessDecision) : Prop :=
  ∃ time p', .received time p' decision ∈ past ∧ decision.isAllowed = true ∧
    time ≤ now ∧ now < time + cfg.cacheTtl ∧ SameRequest p'.request p.request

variable {cfg}

structure CacheSound (cfg : ControllerConfig) (s : ControllerState) : Prop where
  backed : ∀ e ∈ s.cache, Backed s.now s.events e
  cached : ∀ time p decision past, .cached time p decision :: past <:+ s.events →
    ReceivedBefore cfg past time p decision

section Cache

variable {cfg : ControllerConfig} {now : Nat} {cache cache' : DecisionCache}
  {key : Controller.CacheKey} {decision : AccessDecision} {e : Controller.CacheKey × CacheEntry}

theorem mem_of_mem_cacheRemove (h : e ∈ cacheRemove cache key) : e ∈ cache :=
  (mem_filter.1 h).1

theorem mem_of_mem_cacheMakeRoom (h : e ∈ cacheMakeRoom cfg now cache) : e ∈ cache := by
  unfold cacheMakeRoom at h
  dsimp only at h
  split_ifs at h with hfull hstill
  · cases h
  · exact (mem_filter.1 h).1
  · exact h

theorem mem_cachePut (h : e ∈ cachePut cfg now cache key decision) :
    e = (key, ⟨now, decision⟩) ∨ e ∈ cache := by
  rcases mem_cons.1 h with h | h
  · exact .inl h
  · exact .inr (mem_of_mem_cacheMakeRoom (mem_of_mem_cacheRemove h))

theorem cacheGet_eq {hit : Option AccessDecision} (h : cacheGet cfg now cache key = (hit, cache')) :
    (∀ e ∈ cache', e ∈ cache) ∧ ∀ d, hit = some d →
      ∃ entry, (key, entry) ∈ cache ∧ entry.decision = d ∧ now - entry.stored < cfg.cacheTtl := by
  unfold cacheGet cacheFind at h
  cases hfind : cache.find? (·.1 = key) with
  | none =>
    rw [hfind] at h
    cases h
    refine ⟨fun e he => he, ?_⟩
    nofun
  | some e =>
    have hkey : e.1 = key := by simpa using find?_some hfind
    rw [hfind] at h
    simp only [Option.map_some] at h
    split at h
    · rename_i hfresh
      cases h
      refine ⟨fun e he => he, ?_⟩
      intro d hd
      refine ⟨e.2, ?_, Option.some.inj hd, hfresh⟩
      rw [← hkey]
      exact mem_of_find?_eq_some hfind
    · cases h
      refine ⟨fun e he => mem_of_mem_cacheRemove he, ?_⟩
      nofun

end Cache

theorem Backed.mono {now now' : Nat} {events events' : List CallEvent}
    {e : Controller.CacheKey × CacheEntry} (h : Backed now events e) (hnow : now ≤ now')
    (hevents : events ⊆ events') : Backed now' events' e := by
  obtain ⟨hstored, hallowed, p, hkey, hmem⟩ := h
  exact ⟨hstored.trans hnow, hallowed, p, hkey, hevents hmem⟩

theorem Backed.receivedBefore {cfg : ControllerConfig} {now : Nat} {events : List CallEvent}
    {entry : CacheEntry} {p : PosedRequest} (h : Backed now events (Controller.cacheKey p, entry))
    (hfresh : now - entry.stored < cfg.cacheTtl) :
    ReceivedBefore cfg events now p entry.decision := by
  obtain ⟨hstored, hallowed, p', hkey, hmem⟩ := h
  refine ⟨entry.stored, p', hmem, hallowed, hstored, ?_, same_of_cacheKey_eq hkey⟩
  omega

namespace CacheSound

variable {cfg : ControllerConfig} {s : ControllerState}

theorem cached_cons {events : List CallEvent} {ev : CallEvent}
    (h : ∀ time p decision past, .cached time p decision :: past <:+ events →
      ReceivedBefore cfg past time p decision)
    (hev : ∀ time p decision, ev = .cached time p decision →
      ReceivedBefore cfg events time p decision) :
    ∀ time p decision past, .cached time p decision :: past <:+ ev :: events →
      ReceivedBefore cfg past time p decision := by
  intro time p decision past hsuffix
  rcases suffix_cons_iff.1 hsuffix with heq | hsuffix
  · obtain ⟨hhead, rfl⟩ := cons.inj heq
    exact hev time p decision hhead.symm
  · exact h time p decision past hsuffix

theorem evaluateBegin (hs : CacheSound cfg s) (p : PosedRequest) :
    CacheSound cfg (Access.evaluateBegin cfg s p) := by
  unfold Access.evaluateBegin
  split
  · exact ⟨hs.backed, hs.cached⟩
  · cases hget : cacheGet cfg s.now s.cache (Controller.cacheKey p) with
    | mk hit =>
      obtain ⟨hsub, hhit⟩ := cacheGet_eq hget
      cases hit with
      | none => exact ⟨fun e he => hs.backed e (hsub e he), hs.cached⟩
      | some decision =>
        obtain ⟨entry, hmem, rfl, hfresh⟩ := hhit decision rfl
        refine ⟨?_, cached_cons hs.cached ?_⟩
        · intro e he
          exact (hs.backed e (hsub e he)).mono (Nat.le_refl _) (subset_cons_self _ _)
        · intro time q d heq
          obtain ⟨rfl, rfl, rfl⟩ := CallEvent.cached.inj heq
          exact (hs.backed _ hmem).receivedBefore hfresh

theorem evaluateEnd (hs : CacheSound cfg s) (p : PosedRequest)
    (result : Except String AccessDecision) :
    CacheSound cfg (Access.evaluateEnd cfg s p result) := by
  have hold : ∀ (ev : CallEvent), ∀ e ∈ s.cache, Backed s.now (ev :: s.events) e := by
    intro ev e he
    exact (hs.backed e he).mono (Nat.le_refl _) (subset_cons_self _ _)
  cases result with
  | error =>
    refine ⟨hold _, cached_cons hs.cached ?_⟩
    nofun
  | ok =>
    refine ⟨?_, cached_cons hs.cached ?_⟩
    · intro e he
      simp only [Access.evaluateEnd] at he ⊢
      split_ifs at he with hallowed
      · rcases mem_cachePut he with rfl | he
        · rw [Bool.and_eq_true] at hallowed
          exact ⟨Nat.le_refl _, hallowed.1, p, rfl, .head _⟩
        · exact hold _ e he
      · exact hold _ e he
    · nofun

/-- Every step keeps the invariant. -/
theorem step (hs : CacheSound cfg s) {a : ControllerAct} {s' : ControllerState}
    (h : (controller cfg).step s a = some s') : CacheSound cfg s' := by
  cases a with
  | tick =>
    cases h
    refine ⟨?_, hs.cached⟩
    intro e he
    exact (hs.backed e he).mono (Nat.le_add_right _ _) (Subset.refl _)
  | evict =>
    cases h
    exact ⟨fun e he => hs.backed e (mem_of_mem_cacheRemove he), hs.cached⟩
  | evaluate p =>
    cases h
    exact hs.evaluateBegin p
  | answer i result =>
    obtain ⟨p, -, rfl⟩ := Option.map_eq_some_iff.1 h
    have hs' : CacheSound cfg { s with waiting := s.waiting.eraseIdx i } := ⟨hs.backed, hs.cached⟩
    exact hs'.evaluateEnd p result

theorem of_reach (h : (controller cfg).Reach (fun _ _ => True) s) : CacheSound cfg s := by
  refine h.invariant ?_ ?_
  · intro s hinit
    obtain ⟨hcache, -, hevents⟩ := hinit
    refine ⟨?_, ?_⟩
    · intro e he
      rw [hcache] at he
      cases he
    · intro time p decision past hsuffix
      rw [hevents, suffix_nil] at hsuffix
      cases hsuffix
  · intro s a s' hs _ hstep
    exact hs.step hstep

end CacheSound

/-- A decision from the cache allows, was received within the cache's lifetime, and for a request
that differs in the order of lists and the query's id only. -/
theorem cached_was_received (cfg : ControllerConfig) (s : ControllerState)
    (h : (controller cfg).Reach (fun _ _ => True) s) (time : Nat) (p : PosedRequest)
    (decision : AccessDecision) (past : List CallEvent)
    (hcached : .cached time p decision :: past <:+ s.events) :
    ∃ time' p', .received time' p' decision ∈ past ∧ decision.isAllowed = true ∧
      time' ≤ time ∧ time < time' + cfg.cacheTtl ∧ SameRequest p'.request p.request :=
  (CacheSound.of_reach h).cached time p decision past hcached

def groupsRead (groups : List String) (queryId : String) : PosedRequest where
  request := {
    grant := none
    identity := ⟨"ana", groups, [], fun k => if "team" = k then some (.string "core") else none⟩
    operation := .tableSelect
    resources := [⟨.table, none, some "s", "t", .named ["b", "a"], none⟩]
    context := ⟨"g", "trino", queryId, fun _ => none⟩ }
  attributes := [("team", .string "core")]
  sessionParams := []
  attributes_eq := by
    intro k
    by_cases hk : "team" = k <;> simp [hk]
  sessionParams_eq := by
    intro k
    rfl
  plain := by decide

def repeatedRead : List ControllerAct :=
  [.evaluate (groupsRead ["x", "y"] "1"), .answer 0 (.ok ⟨[⟨"s.t", true, none, [], []⟩]⟩), .tick 3,
    .evaluate (groupsRead ["y", "x"] "2")]

def CallEvent.isCached : CallEvent → Bool
  | cached .. => true
  | _ => false

/-- The second request names the groups in another order. -/
theorem repeatedRead_was_received : ∃ (s : ControllerState) (p : PosedRequest)
    (decision : AccessDecision) (past : List CallEvent),
    (controller ⟨false, fun _ => none, 5, 10⟩).Reach (fun _ _ => True) s ∧
    (∃ time, .cached time p decision :: past <:+ s.events) ∧
    ∃ time' p', .received time' p' decision ∈ past ∧ SameRequest p'.request p.request := by
  have hrun : ((controller ⟨false, fun _ => none, 5, 10⟩).runIf (fun _ _ => true)
      ⟨0, [], [], []⟩ repeatedRead).any
      (fun s => s.events.head?.any CallEvent.isCached) = true := by decide +kernel
  have hok : ∀ (s : ControllerState) (a : ControllerAct), true = true → True := by
    intro s a _
    trivial
  have hinit : (controller ⟨false, fun _ => none, 5, 10⟩).init ⟨0, [], [], []⟩ := ⟨rfl, rfl, rfl⟩
  obtain ⟨s, hreach, htest⟩ := System.Reach.exists_of_runIf hok (.init hinit) hrun
  obtain ⟨ev, hev, hcached⟩ := (Option.any_eq_true _ _).1 htest
  obtain ⟨past, hevents⟩ := head?_eq_some_iff.1 hev
  cases ev with
  | received | failed => cases hcached
  | cached time p decision =>
    have hsuffix : .cached time p decision :: past <:+ s.events := by
      exact ⟨[], hevents.symm⟩
    obtain ⟨time', p', hmem, -, -, -, hsame⟩ :=
      cached_was_received _ s hreach time p decision past hsuffix
    exact ⟨s, p, decision, past, hreach, ⟨time, hsuffix⟩, time', p', hmem, hsame⟩

end QueryFlux.Access
