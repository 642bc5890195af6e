import Mathlib.Data.List.Forall2
import QueryFlux.Routing.Compound

/-!
# The chain of routers

The chain asks its routers in order until one routes or denies the query. With a trace it decides
the same, and the trace shows the answers of the routers that were asked, the deciding one last
(`trace_explains_route`).
-/

/-! ## Decisions and traces -/

namespace QueryFlux.Routing

inductive RoutingDecision
  | route (group : String)
  | deny (message : String)
  | noMatch

inductive ChainRouteResult
  | routed (group : String)
  | denied (message : String)

structure RouterDecision where
  routerType : String
  matched : Bool
  result : Option String
  denyMessage : Option String

structure RoutingTrace where
  decisions : List RouterDecision
  finalGroup : String
  usedFallback : Bool
  denied : Option String

structure RouterTrait (ε : Type) where
  typeName : String
  route : RoutedQuery → Except ε RoutingDecision

/-! ## Routing -/

variable {ε : Type} (fallback : String) (q : RoutedQuery)

/-- The first router that routes or denies decides. -/
def RouterChain.route : List (RouterTrait ε) → Except ε ChainRouteResult
  | [] => .ok (.routed fallback)
  | router :: rest =>
    match router.route q with
    | .error e => .error e
    | .ok (.route group) => .ok (.routed group)
    | .ok (.deny message) => .ok (.denied message)
    | .ok .noMatch => route rest

def RouterDecision.of (typeName : String) : RoutingDecision → RouterDecision
  | .route group => ⟨typeName, true, some group, none⟩
  | .deny message => ⟨typeName, true, none, some message⟩
  | .noMatch => ⟨typeName, false, none, none⟩

def RouterChain.routeWithTrace (decisions : List RouterDecision) :
    List (RouterTrait ε) → Except ε (ChainRouteResult × RoutingTrace)
  | [] => .ok (.routed fallback, ⟨decisions, fallback, true, none⟩)
  | router :: rest =>
    match router.route q with
    | .error e => .error e
    | .ok decision =>
      let decisions := decisions ++ [.of router.typeName decision]
      match decision with
      | .route group => .ok (.routed group, ⟨decisions, group, false, none⟩)
      | .deny message => .ok (.denied message, ⟨decisions, "", false, some message⟩)
      | .noMatch => routeWithTrace decisions rest

/-! ## What a trace says -/

/-- The decision is the one the router took. -/
def Shows (router : RouterTrait ε) (d : RouterDecision) : Prop :=
  ∃ decision, router.route q = .ok decision ∧ d = .of router.typeName decision

/-- The trace has the result, what each router that was asked decided, and whether the fallback was
used. -/
structure Explains (routers : List (RouterTrait ε)) (r : ChainRouteResult) (t : RoutingTrace) :
    Prop where
  result : r = match t.denied with
    | some message => .denied message
    | none => .routed t.finalGroup
  asked : List.Forall₂ (Shows q) (routers.take t.decisions.length) t.decisions
  first : ∀ d ∈ t.decisions.dropLast, d.matched = false
  fallback : t.usedFallback = true ↔ ∀ d ∈ t.decisions, d.matched = false
  all : t.usedFallback = true → t.decisions.length = routers.length

open RouterChain

variable {q} in
/-- The routers asked so far are in the trace, and none has decided. -/
theorem explains_loop {asked rest : List (RouterTrait ε)} {ds : List RouterDecision}
    (hasked : List.Forall₂ (Shows q) asked ds) (hnone : ∀ d ∈ ds, d.matched = false) :
    match routeWithTrace fallback q ds rest with
    | .error e => route fallback q rest = .error e
    | .ok (result, t) =>
      route fallback q rest = .ok result ∧ Explains q (asked ++ rest) result t := by
  induction rest generalizing asked ds with
  | nil =>
    rw [List.append_nil]
    refine ⟨rfl, rfl, ?_, fun d hd => hnone d (List.dropLast_subset _ hd), ?_, fun _ => ?_⟩
    · simpa [← hasked.length_eq] using hasked
    · exact ⟨fun _ => hnone, fun _ => rfl⟩
    · exact hasked.length_eq.symm
  | cons router rest ih =>
    rw [routeWithTrace, route, List.append_cons]
    cases hroute : router.route q with
    | error e => rfl
    | ok decision =>
      have hshown := List.rel_append hasked (.cons ⟨decision, hroute, rfl⟩ .nil)
      have htake : (asked ++ [router] ++ rest).take _ = _ := List.take_left' hshown.length_eq
      cases decision with
      | route | deny =>
        exact ⟨rfl, rfl, htake.symm ▸ hshown, by simpa using hnone, by simp [RouterDecision.of],
          nofun⟩
      | noMatch =>
        refine ih hshown fun d hd => ?_
        rcases List.mem_append.1 hd with hd | hd
        · exact hnone d hd
        · rw [List.mem_singleton.1 hd, RouterDecision.of]

/-- Routing with a trace gives the result of routing without one, and the trace explains it. -/
theorem trace_explains_route (routers : List (RouterTrait ε)) :
    match routeWithTrace fallback q [] routers with
    | .error e => route fallback q routers = .error e
    | .ok (result, t) => route fallback q routers = .ok result ∧ Explains q routers result t :=
  explains_loop fallback .nil nofun

end QueryFlux.Routing
