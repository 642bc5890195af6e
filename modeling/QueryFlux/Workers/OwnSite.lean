import QueryFlux.Workers.Api

/-!
# What a site's token can do

A handler resolves its caller anew in each check. While every lookup it makes finds the token's site
and the clusters the site is limited to, what it then does on the stores is `Permitted`: leases and
demand are for clusters of the site and holders of the site, releases and waits name clusters of the
site, and history records carry the site's name (`permitted_of_found`).

Two things are not promised. A release names a query, which may be another site's, and records may
name any cluster; the source leaves both unchecked. And a check whose lookup finds no caller,
because the token has expired since the first check, lets the request pass (`foreign_effects`).
-/

namespace QueryFlux.Workers

open Core Lib Capacity

/-! ## What is permitted -/

variable {κ ι : Type}

abbrev Past (κ ι : Type) := List (Exchange (Question κ ι) Answer)

/-- The token is one of the site, and the clusters of a site can be read. -/
def Finds (site : String) : Exchange (Question κ ι) Answer → Prop
  | ⟨.caller, who⟩ => who = some (.site site)
  | ⟨.clusters _, own⟩ => own.isSome = true
  | ⟨.call _, _⟩ => True

instance (site : String) : DecidablePred (Finds site : Exchange (Question κ ι) Answer → Prop)
  | ⟨.caller, who⟩ => inferInstanceAs (Decidable (who = some (.site site)))
  | ⟨.clusters _, own⟩ => inferInstanceAs (Decidable (Option.isSome own = true))
  | ⟨.call _, _⟩ => isTrue trivial

/-- The cluster is among those read for the site. -/
def Found (site : String) (past : Past κ ι) (cluster : κ) : Prop :=
  ∃ own, ⟨.clusters site, some own⟩ ∈ past ∧ cluster ∈ own

/-- A call on clusters of the site and for holders of the site. -/
def Permitted (site : String) (past : Past κ ι) : StoreCall κ ι → Prop
  | .tryAcquire cluster _ instanceId _ =>
    Found site past cluster ∧ belongsTo site instanceId = true
  | .release cluster _ => Found site past cluster
  | .releaseMany leases => ∀ l ∈ leases, Found site past l.1
  | .waitForGrant cluster _ => Found site past cluster
  | .heartbeat instanceId => belongsTo site instanceId = true
  | .releaseAllForInstance instanceId => belongsTo site instanceId = true
  | .reportDemand instanceId clusters =>
    belongsTo site instanceId = true ∧ ∀ d ∈ clusters, Found site past d.1
  | .releaseHolder instanceId => belongsTo site instanceId = true
  | .recordQueries records =>
    ∀ r ∈ records, ∃ worker, r.worker = some worker ∧ belongsTo site worker = true

def Good (site : String) (past : Past κ ι) : Exchange (Question κ ι) Answer → Prop
  | ⟨.call call, _⟩ => Permitted site past call
  | _ => True

section
variable {site : String} {past past' : Past κ ι}

theorem Found.mono (hsub : past ⊆ past') {cluster : κ} (h : Found site past cluster) :
    Found site past' cluster := by
  obtain ⟨own, hown, hmem⟩ := h
  exact ⟨own, hsub hown, hmem⟩

abbrev Keeps (site : String) (P : Past κ ι → Prop) (x : Handler κ ι Response) : Prop :=
  ∀ past, P past → x.Heeds (Finds site) (Good site) (fun _ _ => True) past

def Checks (site : String) (C : Past κ ι → Prop) (check : Handler κ ι (Option Response)) : Prop :=
  ∀ past, check.Heeds (Finds site) (Good site)
    (fun r past' => past ⊆ past' ∧ (r = none → C past')) past

/-! ## The handlers -/

theorem orRefuse_keeps {P C : Past κ ι → Prop} {check : Handler κ ι (Option Response)}
    {k : Handler κ ι Response} (hcheck : Checks site C check)
    (hP : ∀ past past', past ⊆ past' → P past → P past')
    (hk : Keeps site (fun past => P past ∧ C past) k) : Keeps site P (orRefuse check k) := by
  intro past hpast
  refine (hcheck past).bind fun r past' h => ?_
  cases r with
  | some => trivial
  | none => exact hk past' ⟨hP past past' h.1 hpast, h.2 rfl⟩

theorem foreignHolder_checks (instanceId : String) :
    Checks (κ := κ) (ι := ι) site (fun _ => belongsTo site instanceId = true)
      (foreignHolder instanceId) := by
  intro past who hwho
  obtain rfl : who = some (.site site) := hwho
  refine ⟨trivial, List.subset_append_left _ _, fun hnone => ?_⟩
  by_contra hno
  simp [hno] at hnone

theorem finish_keeps {P : Past κ ι → Prop} {call : StoreCall κ ι}
    (h : ∀ past, P past → Permitted site past call) : Keeps site P (finish call) :=
  fun past hpast _ _ => ⟨h past hpast, trivial⟩

theorem withStore_keeps {configured : Bool} {k : Handler κ ι Response}
    (hk : Keeps site (fun _ => True) k) : Keeps site (fun _ => True) (withStore configured k) := by
  intro past _ who hwho
  obtain rfl : who = some (.site site) := hwho
  refine ⟨trivial, ?_⟩
  cases configured with
  | true => exact hk _ trivial
  | false => trivial

theorem belongsTo_stamp (site worker : String) : belongsTo site (site ++ "/" ++ worker) = true := by
  rw [belongsTo, List.isPrefixOf_iff_prefix, String.toList_append, String.toList_append]
  exact List.prefix_append _ _

theorem storeBatch_keeps (configured accepted : Bool) {batch : RecordBatch κ}
    (hsite : batch.site = some site) (hblank : isBlank site = false) :
    Keeps (ι := ι) site (fun _ => True) (storeBatch configured accepted batch) := by
  unfold storeBatch
  split
  · exact fun _ _ => trivial
  · split
    · exact fun _ _ => trivial
    · split
      · exact fun _ _ => trivial
      · refine finish_keeps fun past _ r hr => ?_
        obtain ⟨record, _, rfl⟩ := List.mem_map.1 hr
        have hkept : batch.site.filter (fun site => !isBlank site) = some site := by
          rw [hsite, Option.filter_some, hblank]
          rfl
        rw [hkept]
        exact ⟨_, rfl, belongsTo_stamp site _⟩

theorem ingestRecords_keeps (configured accepted : Bool) (batch : Option (RecordBatch κ))
    (hblank : isBlank site = false) :
    Keeps (ι := ι) site (fun _ => True) (ingestRecords configured accepted batch) := by
  intro past _ who hwho
  obtain rfl : who = some (.site site) := hwho
  refine ⟨trivial, ?_⟩
  cases batch with
  | none => trivial
  | some =>
    dsimp only
    split
    · split
      · trivial
      · exact storeBatch_keeps configured accepted rfl hblank _ trivial
    · exact storeBatch_keeps configured accepted rfl hblank _ trivial

variable [LinearOrder κ] [ToString κ]

theorem foreignCluster_checks (cluster : κ) :
    Checks (ι := ι) site (fun past => Found site past cluster) (foreignCluster cluster) := by
  intro past who hwho
  obtain rfl : who = some (.site site) := hwho
  refine ⟨trivial, fun own hown => ⟨trivial, ?_⟩⟩
  obtain ⟨own, rfl⟩ := Option.isSome_iff_exists.1 hown
  refine ⟨fun e he => ?_, fun hnone => ⟨own, ?_, ?_⟩⟩
  · exact List.mem_append_left _ (List.mem_append_left _ he)
  · exact List.mem_append_right _ (.head _)
  · by_contra hno
    simp [hno] at hnone

theorem foreignClusters_checks (clusters : List κ) :
    Checks (ι := ι) site (fun past => ∀ c ∈ clusters, Found site past c)
      (foreignClusters clusters) := by
  induction clusters with
  | nil => exact fun past => ⟨fun _ h => h, fun _ c hc => absurd hc List.not_mem_nil⟩
  | cons cluster _ ih =>
    intro past
    refine (foreignCluster_checks cluster past).bind fun r past₁ h₁ => ?_
    cases r with
    | some => exact ⟨h₁.1, nofun⟩
    | none =>
      -- what was found for the first cluster stays found
      have hfirst := h₁.2 rfl
      refine Asks.Heeds.mono (ih past₁) fun r past₂ h₂ => ⟨fun e he => h₂.1 (h₁.1 he), ?_⟩
      intro hnone c hc
      rcases List.mem_cons.1 hc with rfl | hc
      · exact hfirst.mono h₂.1
      · exact h₂.2 hnone c hc

/-- Every handler makes permitted calls only. -/
theorem handle_keeps (stores : Stores) (hblank : isBlank site = false) (request : Request κ ι) :
    Keeps site (fun _ => True) (handle stores request) := by
  have htrue : ∀ past past' : Past κ ι, past ⊆ past' → True → True := fun _ _ _ _ => trivial
  cases request with
  | acquire cluster _ instanceId =>
    refine withStore_keeps (orRefuse_keeps (foreignHolder_checks instanceId) htrue ?_)
    refine orRefuse_keeps (foreignCluster_checks cluster) (fun _ _ _ h => h) ?_
    exact finish_keeps fun past h => ⟨h.2, h.1.2⟩
  | release cluster | wait cluster =>
    refine withStore_keeps (orRefuse_keeps (foreignCluster_checks cluster) htrue ?_)
    exact finish_keeps fun past h => h.2
  | releaseBatch =>
    refine withStore_keeps (orRefuse_keeps (foreignClusters_checks _) htrue ?_)
    exact finish_keeps fun past h l hl => h.2 l.1 (List.mem_map_of_mem hl)
  | heartbeat instanceId | releaseAll instanceId | quotaRelease instanceId =>
    refine withStore_keeps (orRefuse_keeps (foreignHolder_checks instanceId) htrue ?_)
    exact finish_keeps fun past h => h.2
  | quota instanceId =>
    refine withStore_keeps (orRefuse_keeps (foreignHolder_checks instanceId) htrue ?_)
    refine orRefuse_keeps (foreignClusters_checks _) (fun _ _ _ h => h) ?_
    exact finish_keeps fun past h => ⟨h.1.2, fun d hd => h.2 d.1 (List.mem_map_of_mem hd)⟩
  | records accepted batch => exact ingestRecords_keeps _ accepted batch hblank

end

/-! ## Every run -/

/-- As long as the token is found to be one of the site, every call on a store is permitted to it.
-/
theorem permitted_of_found [LinearOrder κ] [LinearOrder ι] [ToString κ] {bearer : Bearer}
    {stores : Stores} {request : Request κ ι} {site : String} (hblank : isBlank site = false)
    {start : ControlPlane κ ι → Prop}
    {p : Process (Question κ ι) Answer Response (ControlPlane κ ι)}
    (h : ((controlPlane bearer).system start (handle stores request)).Reach
      (fun _ _ => True) p) (hfound : ∀ e ∈ p.past, Finds site e) {before after : Past κ ι}
    {call : StoreCall κ ι} {ok : Bool} (hpast : p.past = before ++ ⟨.call call, ok⟩ :: after) :
    Permitted site before call :=
  (handle_keeps stores hblank request [] trivial).past_of_reach h hfound _ _ _ hpast

def tokenA : Bearer := ⟨"token-a", some ⟨"hub-a", 1, "hub-a", audience, 700, 1000⟩⟩

/-- A site with one cluster, and a lease of another site. -/
def planeAB : ControlPlane Nat Nat where
  now := 1000
  sharedSecret := ""
  tables := {
    keys := fun id => if id = "hub-a" then some ("a", some 1) else none
    sites := fun site => if site = "a" then some (some [1]) else none }
  reachable := true
  cache := ⟨fun _ => none, fun _ => none, none⟩
  capacity := { (.empty : Store Nat Nat String) with leases := [⟨7, 2, "b/w", 0, 0, true⟩] }
  executing := fun _ => false

abbrev handling (request : Request Nat Nat) :=
  (controlPlane tokenA).system (· = planeAB) (handle ⟨true, true, true⟩ request)

def received (request : Request Nat Nat) :
    Process (Question Nat Nat) Answer Response (ControlPlane Nat Nat) :=
  ⟨planeAB, handle ⟨true, true, true⟩ request, []⟩

theorem received_reach (request : Request Nat Nat) :
    (handling request).Reach (fun _ _ => True) (received request) :=
  .init ⟨rfl, rfl, rfl⟩

/-- Site `a` takes a lease of its cluster. -/
theorem permitted_acquire :
    ∃ p, (handling (.acquire 1 (some 1) "a/w" 8)).Reach (fun _ _ => True) p ∧
      (∀ e ∈ p.past, Finds "a" e) ∧
      ∃ before, p.past = before ++ [⟨.call (.tryAcquire 1 (some 1) "a/w" 8), true⟩] ∧
        Permitted "a" before (.tryAcquire 1 (some 1) "a/w" 8) := by
  have hreach : ∃ p, (handling (.acquire 1 (some 1) "a/w" 8)).Reach (fun _ _ => True) p ∧
      (∀ e ∈ p.past, Finds "a" e) ∧
      ∃ before, p.past = before ++ [⟨.call (.tryAcquire 1 (some 1) "a/w" 8), true⟩] := by
    refine ⟨_, .step (a := .goOn) (.step (a := .goOn) (.step (a := .goOn) (.step (a := .goOn)
      (.step (a := .goOn) (received_reach _) trivial rfl) trivial rfl) trivial rfl) trivial rfl)
      trivial rfl, ?_, _, rfl⟩
    decide +kernel
  obtain ⟨p, hp, hfound, before, hpast⟩ := hreach
  exact ⟨p, hp, hfound, before, hpast, permitted_of_found (by decide +kernel) hp hfound hpast⟩

def releaseForeign : List (Turn (Change Nat Nat)) := [.goOn, .goOn, .goOn, .goOn]

def acquireExpired : List (Turn (Change Nat Nat)) :=
  [.goOn, .env (.tick 61), .goOn, .goOn, .goOn]

/-- A release names the query of another site with a cluster of its own, and a token expires between
two checks. -/
theorem foreign_effects :
    (∃ p, (handling (.release 1 7)).Reach (fun _ _ => True) p ∧ p.world.capacity.leases = []) ∧
    ∃ p, (handling (.acquire 2 (some 2) "b/w" 8)).Reach (fun _ _ => True) p ∧
      p.world.capacity.leases.map (fun l => (l.queryId, l.clusterName, l.instanceId)) =
        [(7, 2, "b/w"), (8, 2, "b/w")] := by
  constructor
  · exact System.Reach.exists_of_run (received_reach _) releaseForeign (by decide +kernel)
  · exact System.Reach.exists_of_run (received_reach _) acquireExpired (by decide +kernel)

end QueryFlux.Workers
