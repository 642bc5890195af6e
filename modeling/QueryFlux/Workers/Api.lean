import QueryFlux.Capacity.Store
import QueryFlux.Lib.Interleaved
import QueryFlux.Quota.Party
import QueryFlux.Workers.HubToken

/-!
# The worker API and the hub directory

Workers and hubs call the control plane with a bearer token: the fleet's secret, or a token signed
by an enrolled hub, which acts for the hub's site only. Every handler first resolves the caller, and
resolves it again in each of its checks; between two of these awaits the clock runs, hubs are
revoked, and the directory's cache is reloaded by any other request.

`Question` is what a handler awaits: its caller, the clusters of a site, and the calls of the
stores. The control plane answers from its state at that moment. A lookup of the directory is one
question. In the source it awaits locks and tables on the way; what can change meanwhile is here a
change just before the question, since other requests may install any content into the cache.
-/

namespace QueryFlux.Workers

open Core Lib Capacity

/-- A public key; a token carries the one it was signed for. -/
abbrev VerifyingKey := Nat

/-! ## Tokens and callers -/

/-- A hub token, with the key that its signature was made for. -/
structure Token where
  keyId : String
  signedFor : VerifyingKey
  sub : String
  aud : String
  iat : Int64
  exp : Int64
  deriving DecidableEq

def Token.verify (token : Token) (key : VerifyingKey) (now : Int) : Bool :=
  let claims : Claims := ⟨token.sub, token.aud, token.iat, token.exp⟩
  token.signedFor == key && (claims.check token.keyId (Int64.ofInt now)).isOk

structure Bearer where
  text : String
  token : Option Token
  deriving DecidableEq

def isBlank (s : String) : Bool := s.toList.all isWhitespace

inductive Caller
  -- the fleet's secret
  | fleet
  | site (name : String)
  deriving DecidableEq

variable {κ ι : Type}

/-- The tables: the site and the public key of each hub, and the clusters each site is limited
to. A key that does not decode is none. -/
structure HubTables (κ : Type) where
  keys : String → Option (String × Option VerifyingKey)
  sites : String → Option (Option (List κ))

/-- What was last read of the tables, and when. -/
structure Cache (κ : Type) where
  keys : String → Option (String × VerifyingKey)
  sites : String → Option (Option (List κ))
  loaded : Option Int

def maxAge : Int := 10

def minReloadGap : Int := 1

structure ControlPlane (κ ι : Type) where
  -- unix seconds
  now : Int
  sharedSecret : String
  tables : HubTables κ
  -- the database can be reached
  reachable : Bool
  cache : Cache κ
  capacity : Store κ ι String
  executing : ι → Bool

/-! ## The control plane -/

namespace ControlPlane

variable (s : ControlPlane κ ι)

/-- If the database cannot be reached the old cache stays, for as long as a fresh one. -/
def load : ControlPlane κ ι :=
  let cache := { s.cache with loaded := some s.now }
  if s.reachable then
    { s with cache := { cache with
        keys := fun id => (s.tables.keys id).bind fun (site, key) => key.map (site, ·)
        sites := s.tables.sites } }
  else { s with cache := cache }

def fresh (maxAge : Int) : ControlPlane κ ι :=
  if s.cache.loaded.all fun t => maxAge ≤ s.now - t then s.load else s

/-- The site of the hub that signed the token, if it is a valid, current hub token. -/
def siteOf (token : Token) : Option String × ControlPlane κ ι :=
  let s := s.fresh maxAge
  let s := if (s.cache.keys token.keyId).isNone then s.fresh minReloadGap else s
  match s.cache.keys token.keyId with
  | some (site, key) => (if token.verify key s.now then some site else none, s)
  | none => (none, s)

def clusters (site : String) : Option (List κ) × ControlPlane κ ι :=
  let s := s.fresh maxAge
  ((s.cache.sites site).join, s)

def caller (bearer : Bearer) : Option Caller × ControlPlane κ ι :=
  if isBlank bearer.text then (none, s)
  else if !isBlank s.sharedSecret && bearer.text == s.sharedSecret then (some .fleet, s)
  else
    match bearer.token with
    | none => (none, s)
    | some token => ((s.siteOf token).1.map .site, (s.siteOf token).2)

end ControlPlane

/-! ## Requests -/

structure QueryRecord (κ : Type) where
  worker : Option String
  cluster : κ
  deriving DecidableEq

inductive StoreCall (κ ι : Type)
  | tryAcquire (cluster : κ) (max : Option Nat) (instanceId : String) (queryId : ι)
  | release (cluster : κ) (queryId : ι)
  | releaseMany (leases : List (κ × ι))
  | waitForGrant (cluster : κ) (queryId : ι)
  | heartbeat (instanceId : String)
  | releaseAllForInstance (instanceId : String)
  | reportDemand (instanceId : String) (clusters : List (κ × Quota.DemandReport))
  | releaseHolder (instanceId : String)
  | recordQueries (records : List (QueryRecord κ))

variable [LinearOrder κ] [LinearOrder ι]

/-- What a call does to the tables of leases. A release goes by the query alone. -/
def ControlPlane.act (s : ControlPlane κ ι) : StoreCall κ ι → ControlPlane κ ι
  | .tryAcquire cluster (some max) instanceId queryId =>
    { s with capacity := s.capacity.call (.tryAcquire cluster instanceId queryId max) }
  | .release _ queryId => { s with capacity := s.capacity.call (.release [queryId]) }
  | .releaseMany leases =>
    { s with capacity := s.capacity.call (.release (leases.map (·.2))) }
  | .waitForGrant cluster queryId =>
    { s with capacity := s.capacity.call (.park cluster queryId) }
  | .heartbeat instanceId =>
    { s with capacity := s.capacity.call (.heartbeat instanceId s.executing) }
  | .releaseAllForInstance instanceId =>
    { s with capacity := s.capacity.call (.releaseAllForInstance instanceId s.executing) }
  | .tryAcquire _ none _ _ | .reportDemand .. | .releaseHolder _ | .recordQueries _ => s

inductive Question (κ ι : Type)
  | caller
  | clusters (site : String)
  | call (call : StoreCall κ ι)

abbrev Answer : Question κ ι → Type
  | .caller => Option Caller
  | .clusters _ => Option (List κ)
  | .call _ => Bool

/-- What else happens on the control plane: time, an admin's changes (a revocation among them), the
reachability of the database, what another request loads into the cache, and the calls of other
workers. -/
inductive Change (κ ι : Type)
  | tick (secs : Nat)
  | setTables (tables : HubTables κ)
  | setReachable (reachable : Bool)
  | install (cache : Cache κ)
  | capacity (call : Store.Call κ ι String)

def controlPlane (bearer : Bearer) :
    World (Question κ ι) Answer (ControlPlane κ ι) (Change κ ι) where
  answer
    | .caller, s => s.caller bearer
    | .clusters site, s => s.clusters site
    | .call call, s => if s.reachable then (true, s.act call) else (false, s)
  env s
    | .tick secs => some { s with now := s.now + secs }
    | .setTables tables => some { s with tables := tables }
    | .setReachable reachable => some { s with reachable := reachable }
    | .install cache => some { s with cache := cache }
    | .capacity call => some { s with capacity := s.capacity.call call }

inductive Response
  | ok | unauthorized | unavailable | badRequest
  | forbidden (message : String)
  deriving DecidableEq

abbrev Handler (κ ι A : Type) := Asks (Question κ ι) Answer A

/-- Holder ids of a site start with its name. -/
def belongsTo (site instanceId : String) : Bool :=
  (site.toList ++ ['/']).isPrefixOf instanceId.toList

/-- `some` response refuses the request. -/
def foreignHolder (instanceId : String) : Handler κ ι (Option Response) :=
  .ask .caller fun
    | some (.site site) =>
      .done (if belongsTo site instanceId then none
        else some (.forbidden ("site " ++ site ++ " may only hold capacity as '" ++ site ++
          "/<worker>'")))
    | _ => .done none

/-- The fleet's secret passes, and a site that has the cluster or whose clusters are not known. -/
def foreignCluster [ToString κ] (cluster : κ) : Handler κ ι (Option Response) :=
  .ask .caller fun
    | some (.site site) =>
      .ask (.clusters site) fun
        | some own =>
          .done (if cluster ∈ own then none
            else some (.forbidden ("site " ++ site ++ " may not act on cluster '" ++
              toString cluster ++ "'")))
        | none => .done none
    | _ => .done none

def foreignClusters [ToString κ] : List κ → Handler κ ι (Option Response)
  | [] => .done none
  | cluster :: clusters =>
    (foreignCluster cluster).bind fun
      | some r => .done (some r)
      | none => foreignClusters clusters

def orRefuse (check : Handler κ ι (Option Response)) (k : Handler κ ι Response) :
    Handler κ ι Response :=
  check.bind fun
    | some r => .done r
    | none => k

def withStore (configured : Bool) (k : Handler κ ι Response) : Handler κ ι Response :=
  .ask .caller fun
    | none => .done .unauthorized
    | some _ => if configured then k else .done .unavailable

def finish (call : StoreCall κ ι) : Handler κ ι Response :=
  .ask (.call call) fun ok => .done (if ok then .ok else .unavailable)

structure RecordBatch (κ : Type) where
  supported : Bool
  worker : String
  site : Option String
  records : List (QueryRecord κ)

/-- Each record names the worker that ran it; behind a hub, as `<site>/<worker>`. -/
def stamp (site : Option String) (worker : String) (record : QueryRecord κ) : QueryRecord κ :=
  { record with worker := some (match site with
      | some site => site ++ "/" ++ record.worker.getD worker
      | none => worker) }

def storeBatch (configured admitted : Bool) (batch : RecordBatch κ) : Handler κ ι Response :=
  if !configured then .done .unavailable
  else if !batch.supported then .done .badRequest
  -- backpressure
  else if !admitted then .done .unavailable
  else
    let site := batch.site.filter fun site => !isBlank site
    finish (.recordQueries (batch.records.map (stamp site batch.worker)))

/-- A site token's records are its site's, whatever the batch says. -/
def ingestRecords (configured admitted : Bool) (batch : Option (RecordBatch κ)) :
    Handler κ ι Response :=
  .ask .caller fun
    | none => .done .unauthorized
    | some who =>
      match batch with
      | none => .done .badRequest
      | some batch =>
        match who with
        | .fleet => storeBatch configured admitted batch
        | .site own =>
          match batch.site.filter fun site => !isBlank site with
          | some claimed =>
            if claimed ≠ own then
              .done (.forbidden ("this token is for site " ++ own ++ ", not " ++ claimed))
            else storeBatch configured admitted { batch with site := some own }
          | none => storeBatch configured admitted { batch with site := some own }

/-- The requests; a batch of records is none if it does not decode. -/
inductive Request (κ ι : Type)
  | acquire (cluster : κ) (max : Option Nat) (instanceId : String) (queryId : ι)
  | release (cluster : κ) (queryId : ι)
  | releaseBatch (leases : List (κ × ι))
  | wait (cluster : κ) (queryId : ι)
  | heartbeat (instanceId : String)
  | releaseAll (instanceId : String)
  | quota (instanceId : String) (clusters : List (κ × Quota.DemandReport))
  | quotaRelease (instanceId : String)
  | records (admitted : Bool) (batch : Option (RecordBatch κ))

structure Stores where
  coordination : Bool
  quotas : Bool
  history : Bool

/-! ## Handlers -/

def handle [ToString κ] (stores : Stores) : Request κ ι → Handler κ ι Response
  | .acquire cluster max instanceId queryId =>
    withStore stores.coordination <|
    orRefuse (foreignHolder instanceId) <|
    orRefuse (foreignCluster cluster) <|
    finish (.tryAcquire cluster max instanceId queryId)
  | .release cluster queryId =>
    withStore stores.coordination <|
    orRefuse (foreignCluster cluster) <|
    finish (.release cluster queryId)
  | .releaseBatch leases =>
    withStore stores.coordination <|
    orRefuse (foreignClusters (leases.map (·.1))) <|
    finish (.releaseMany leases)
  | .wait cluster queryId =>
    withStore stores.coordination <|
    orRefuse (foreignCluster cluster) <|
    finish (.waitForGrant cluster queryId)
  | .heartbeat instanceId =>
    withStore stores.coordination <|
    orRefuse (foreignHolder instanceId) <|
    finish (.heartbeat instanceId)
  | .releaseAll instanceId =>
    withStore stores.coordination <|
    orRefuse (foreignHolder instanceId) <|
    finish (.releaseAllForInstance instanceId)
  | .quota instanceId clusters =>
    withStore stores.quotas <|
    orRefuse (foreignHolder instanceId) <|
    orRefuse (foreignClusters (clusters.map (·.1))) <|
    finish (.reportDemand instanceId clusters)
  | .quotaRelease instanceId =>
    withStore stores.quotas <|
    orRefuse (foreignHolder instanceId) <|
    finish (.releaseHolder instanceId)
  | .records admitted batch => ingestRecords stores.history admitted batch

end QueryFlux.Workers
