import QueryFlux.Access.Model
import QueryFlux.Lib.Asks

/-!
# Guards and guard chains

A guard looks at a query in a `GuardContext` and returns a verdict. The verdicts come from
outside: from the guard's own code or from a policy engine, so a stage is a computation that asks
(`Lib.Asks`). Its questions are the requests to policy engines and the contexts given to the
guards of a chain.

The plan guards let a query through exactly when each of them lets it pass (`runChains_isOk_iff`).
-/

namespace QueryFlux.Guardrails

open Core Access Lib

/-! ## Guards -/

inductive GuardLayer
  | input | plan | output
  deriving DecidableEq

structure GuardContext where
  sql : String
  -- the client's SQL, when `sql` is a translation of it
  originalSql : Option String
  dialect : SqlDialect
  engineType : EngineType
  clusterGroup : String
  user : Option String
  groups : List String
  roles : List String
  attributes : String → Option Json
  agentContext : Option AgentContext
  queryTags : QueryTags
  sessionExtra : String → Option String
  schema : Option SchemaContext

inductive GuardResult
  | allow
  | warn (reason : String)
  | deny (reason : String) (code : Option String)
  | rewrite (sql : String)
  deriving DecidableEq

def GuardResult.passes : GuardResult → Bool
  | .allow | .warn _ => true
  | .deny .. | .rewrite _ => false

structure Guard where
  id : Nat
  name : String
  layer : GuardLayer
  deriving DecidableEq

/-- What is asked of policy engines and guards; the answers are the only nondeterminism. -/
inductive Question
  | access (connection : String) (request : AccessRequest)
  | guard (guard : Guard) (ctx : GuardContext)

abbrev Answer : Question → Type
  | .access .. => AccessDecision
  | .guard .. => GuardResult

def Question.user : Question → Option String
  | .access _ request => some request.identity.user
  | .guard _ ctx => ctx.user

abbrev Asking := Asks Question Answer

structure GuardAction where
  guard : String
  action : String
  reason : Option String
  code : Option String
  deriving DecidableEq

def resultToAction (guardName : String) : GuardResult → GuardAction
  | .allow => ⟨guardName, "allow", none, none⟩
  | .warn reason => ⟨guardName, "warn", some reason, none⟩
  | .deny reason code => ⟨guardName, "deny", some reason, code⟩
  | .rewrite _ => ⟨guardName, "rewrite", none, none⟩

/-! ## Chains -/

inductive GuardChainOutcome
  | blocked (reason : String) (code : Option String)
  | proceed
  deriving DecidableEq

abbrev GuardChain := List Guard

def GuardChain.run (ctx : GuardContext) (layer : GuardLayer) :
    GuardChain → Asking (List GuardAction × GuardChainOutcome)
  | [] => .done ([], .proceed)
  | guard :: guards =>
    if guard.layer ≠ layer then GuardChain.run ctx layer guards
    else
      .ask (.guard guard ctx) fun result =>
        let action := resultToAction guard.name result
        match result with
        | .deny reason code => .done ([action], .blocked reason code)
        -- a chain cannot hand a rewritten query back to its caller
        | .rewrite _ =>
          .done ([action], .blocked
            ("guard " ++ debugQuoted guard.name ++
              " returned Rewrite, which chained guards do not support")
            (some "GUARD_REWRITE_UNSUPPORTED"))
        | .allow | .warn _ =>
          (GuardChain.run ctx layer guards).map fun (actions, outcome) =>
            (action :: actions, outcome)

def denyReason (actions : List GuardAction) : String :=
  ((actions.find? (·.action == "deny")).bind (·.reason)).getD "query blocked by guardrail"

/-- Chains run one after the other; the first that blocks ends the query. -/
def runChains (ctx : GuardContext) (actions : List GuardAction) :
    List GuardChain → Asking (Except String (List GuardAction))
  | [] => .done (.ok actions)
  | chain :: chains =>
    (GuardChain.run ctx .plan chain).bind fun (more, outcome) =>
      match outcome with
      | .blocked .. => .done (.error (denyReason (actions ++ more)))
      | .proceed => runChains ctx (actions ++ more) chains

theorem GuardChain.run_all {P : Question → Prop} {ctx : GuardContext}
    (h : ∀ g, P (.guard g ctx)) (layer : GuardLayer) (chain : GuardChain) :
    (GuardChain.run ctx layer chain).All P := by
  induction chain with
  | nil => exact .done trivial
  | cons g _ ih =>
    rw [GuardChain.run]
    split
    · exact ih
    · refine .ask (h g) fun result => ?_
      cases result with
      | allow | warn => exact ih.map fun _ _ => trivial
      | deny | rewrite => exact .done trivial

theorem runChains_all {P : Question → Prop} {ctx : GuardContext} (h : ∀ g, P (.guard g ctx))
    (chains : List GuardChain) (actions : List GuardAction) :
    (runChains ctx actions chains).All P := by
  induction chains generalizing actions with
  | nil => exact .done trivial
  | cons chain _ ih =>
    refine (GuardChain.run_all h .plan chain).bind fun (more, outcome) _ => ?_
    cases outcome with
    | blocked => exact .done trivial
    | proceed => exact ih _

/-- No guard of the plan layer denies or rewrites. -/
def Passes (answer : (q : Question) → Answer q) (ctx : GuardContext) (chains : List GuardChain) :
    Prop :=
  ∀ chain ∈ chains, ∀ g ∈ chain, g.layer = .plan → (answer (.guard g ctx)).passes = true

variable (answer : (q : Question) → Answer q) (ctx : GuardContext)

theorem GuardChain.run_proceed_iff (chain : GuardChain) :
    ((GuardChain.run ctx .plan chain).run answer).2 = .proceed ↔
      ∀ g ∈ chain, g.layer = .plan → (answer (.guard g ctx)).passes = true := by
  induction chain with
  | nil => simp [GuardChain.run]
  | cons g _ ih =>
    rw [GuardChain.run]
    split
    · rename_i hlayer
      simp [ih, hlayer]
    · rename_i hlayer
      have hplan : g.layer = .plan := by simpa using hlayer
      rw [Asks.run_ask, List.forall_mem_cons]
      cases hres : answer (.guard g ctx) with
      | allow | warn => simp [ih, GuardResult.passes]
      | deny | rewrite => simp [hplan, GuardResult.passes]

theorem runChains_isOk_iff (chains : List GuardChain) (actions : List GuardAction) :
    ((runChains ctx actions chains).run answer).isOk = true ↔ Passes answer ctx chains := by
  induction chains generalizing actions with
  | nil => simp [runChains, Passes, Except.isOk, Except.toBool]
  | cons chain chains ih =>
    have hchain := GuardChain.run_proceed_iff answer ctx chain
    have hcons : Passes answer ctx (chain :: chains) ↔
        ((GuardChain.run ctx .plan chain).run answer).2 = .proceed ∧ Passes answer ctx chains := by
      rw [hchain, Passes, List.forall_mem_cons, Passes]
    rw [runChains, Asks.run_bind, hcons]
    rcases (GuardChain.run ctx .plan chain).run answer with ⟨more, outcome⟩
    cases outcome with
    | blocked => simp [Except.isOk, Except.toBool]
    | proceed => simpa using ih _

end QueryFlux.Guardrails
