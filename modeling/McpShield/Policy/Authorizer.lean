import McpShield.Lib.AttributePolicy
import McpShield.Lib.Machine
import McpShield.Policy.Entities

/-!
# The Cedar authorizer

The authorizer keeps the source of its policies and the policy set that Cedar has read from it.  A
question is turned into entities, and Cedar decides.
-/

open AttributePolicy Literal

namespace McpShield

/-! ## The engine -/

/-- Parse errors: their `{:#}` and their `{}` texts. -/
structure PolicyParseErrors where
  alternate : String
  display : String
deriving DecidableEq

/-- What the authorizer uses of the `cedar-policy` crate. -/
structure CedarEngine extends CedarSyntax where
  PolicySet : Type
  parsePolicySet : String → Except PolicyParseErrors PolicySet
  entitiesError : CedarSyntax.RequestEntities → Option String
  requestError : CedarSyntax.RequestEntities → Option String
  isAuthorized : CedarSyntax.RequestEntities → PolicySet → Decision × List String

/-- A Cedar policy. -/
abbrev CedarPolicy : Type := Policy EntityUid

/-- The attribute of an entity, if every restricted expression has the value that `value` says. -/
def CedarSyntax.RequestEntities.attr (value : RestrictedExpression → AttributePolicy.Value EntityUid)
    (entities : CedarSyntax.RequestEntities) (u : EntityUid) (name : String) :
    Option (AttributePolicy.Value EntityUid) :=
  ([entities.principal, entities.action, entities.resource].find? fun e => e.uid = u).bind fun e =>
    (e.attrs.lookup name).map value

/-- The request that the entities make. -/
def CedarSyntax.RequestEntities.request
    (value : RestrictedExpression → AttributePolicy.Value EntityUid)
    (entities : CedarSyntax.RequestEntities) : Request EntityUid :=
  { principal := entities.principal.uid, action := entities.action.uid
    resource := entities.resource.uid, attrs := entities.attr value }

/-- A set literal of strings has the set of these strings as its value. -/
def ReadsSets (value : RestrictedExpression → AttributePolicy.Value EntityUid) : Prop :=
  ∀ elements, value (.strings elements) = .set (elements.map .string)

/-- The types of the entities that the authorizer builds. -/
def entityTypes : List String := ["Client", "Action", "Tool", "Resource"]

namespace CedarEngine

variable (E : CedarEngine)

/-- The documented behaviour.  `Consists` says of which policies a policy set consists. -/
structure Documented (Consists : E.PolicySet → List (String × CedarPolicy) → Prop) : Prop where
  syntaxes : E.toCedarSyntax.Documented
  typeName : ∀ typeName ∈ entityTypes, ∀ id euid,
    E.parseEntityUid (CedarSyntax.uidText typeName id) = .ok euid → euid.typeName = typeName
  authorized : ∀ entities policySet policies, Consists policySet policies →
    ∃ value, ReadsSets value ∧
      ((E.isAuthorized entities policySet).1 = .allow ↔ Allows (entities.request value) policies) ∧
      (E.isAuthorized entities policySet).2.Perm (deciding (entities.request value) policies)

end CedarEngine

/-! ## The authorizer -/

/-- The authorizer. -/
structure CedarPolicyAuthorizer (E : CedarEngine) where
  policySource : String
  policySet : E.PolicySet

namespace CedarPolicyAuthorizer

variable {E : CedarEngine}

def parsePolicies (E : CedarEngine) (source : String) : Except CedarError E.PolicySet :=
  (E.parsePolicySet source).mapError fun e => .parseError e.alternate

/-- An authorizer for a policy text. -/
def new (E : CedarEngine) (policyText : String) : Except CedarError (CedarPolicyAuthorizer E) := do
  let policySet ← parsePolicies E policyText
  pure { policySource := policyText, policySet }

/-- An authorizer for the text of a file. -/
def fromFile (E : CedarEngine) (readToString : String → Except String String) (path : String) :
    Except CedarError (CedarPolicyAuthorizer E) := do
  let source ← (readToString path).mapError .ioError
  new E source

/-- An error that Cedar may report. -/
def checked : Option String → Except CedarError Unit
  | some e => .error (.evaluationError e)
  | none => .ok ()

/-- How a policy contributed to a decision. -/
def contribution : Decision → String
  | .allow => "ALLOW"
  | .deny => "DENY"

/-- Answer a question. -/
def evaluate (authz : CedarPolicyAuthorizer E) (request : AuthorizationRequest) :
    Except CedarError AuthorizationResponse := do
  let entities ← E.buildEntities request
  checked (E.entitiesError entities)
  checked (E.requestError entities)
  let (decision, reason) := E.isAuthorized entities authz.policySet
  let how := contribution decision
  pure
    { decision, decidingPolicies := reason
      diagnostics := reason.map fun id => s!"policy {id} contributed to {how}" }

/-- Read the policy set from the source again. -/
def reloadPolicies (authz : CedarPolicyAuthorizer E) :
    Except CedarError Unit × CedarPolicyAuthorizer E :=
  match parsePolicies E authz.policySource with
  | .ok policySet => (.ok (), { authz with policySet })
  | .error e => (.error e, authz)

/-- Whether a policy text can be read. -/
def validatePolicy (E : CedarEngine) (policyText : String) : Except CedarError Unit :=
  match E.parsePolicySet policyText with
  | .ok _ => .ok ()
  | .error e => .error (.validationError e.display)

/-- The calls on an authorizer. -/
inductive Call where
  | evaluate (request : AuthorizationRequest)
  | reloadPolicies
  | validatePolicy (policyText : String)

/-- The answers of an authorizer. -/
inductive Answer where
  | response (result : Except CedarError AuthorizationResponse)
  | done (result : Except CedarError Unit)

/-- The authorizer as a machine. -/
def machine (E : CedarEngine) : Machine (CedarPolicyAuthorizer E) Call Answer where
  step authz
    | .evaluate request => (.response (authz.evaluate request), authz)
    | .reloadPolicies =>
        let (result, authz') := authz.reloadPolicies
        (.done result, authz')
    | .validatePolicy policyText => (.done (validatePolicy E policyText), authz)

/-! ## Policies do not change -/

theorem new_eq_ok_iff {policyText : String} {authz : CedarPolicyAuthorizer E} :
    new E policyText = .ok authz ↔
      authz.policySource = policyText ∧ E.parsePolicySet policyText = .ok authz.policySet := by
  unfold new parsePolicies
  cases hparse : E.parsePolicySet policyText with
  | error e => simp [Except.mapError, bind, Except.bind]
  | ok policySet =>
    obtain ⟨source, set⟩ := authz
    simp [Except.mapError, bind, Except.bind, pure, Except.pure, eq_comm]

/-- A reload reads the same policies again. -/
theorem reloadPolicies_of_new {policyText : String} {authz : CedarPolicyAuthorizer E}
    (hnew : new E policyText = .ok authz) : authz.reloadPolicies = (.ok (), authz) := by
  obtain ⟨rfl, hparse⟩ := new_eq_ok_iff.mp hnew
  unfold reloadPolicies parsePolicies
  rw [hparse]
  rfl

/-- The answer of an authorizer that stays as it is. -/
def answer (authz : CedarPolicyAuthorizer E) : Call → Answer
  | .evaluate request => .response (authz.evaluate request)
  | .reloadPolicies => .done (.ok ())
  | .validatePolicy policyText => .done (validatePolicy E policyText)

theorem step_of_new {policyText : String} {authz : CedarPolicyAuthorizer E}
    (hnew : new E policyText = .ok authz) (call : Call) :
    (machine E).step authz call = (authz.answer call, authz) := by
  cases call with
  | evaluate | validatePolicy => rfl
  | reloadPolicies =>
    show (Answer.done authz.reloadPolicies.1, authz.reloadPolicies.2) = _
    rw [reloadPolicies_of_new hnew]
    rfl

/-- An authorizer never changes.  Whatever is called on it, every reload succeeds, and every
question is answered by the policies that have been read when it was made. -/
theorem answers_of_new {policyText : String} {authz : CedarPolicyAuthorizer E}
    (hnew : new E policyText = .ok authz) (calls : List Call) :
    (machine E).run authz calls = authz ∧
      (machine E).answers authz calls = calls.map authz.answer := by
  induction calls with
  | nil => exact ⟨rfl, rfl⟩
  | cons call calls ih =>
    obtain ⟨hrun, hanswers⟩ := ih
    rw [Machine.run_cons, Machine.answers_cons, step_of_new hnew, hrun, hanswers]
    exact ⟨rfl, rfl⟩

/-! ## Decisions -/

/-- The authorizer has been given these policies. -/
def Has (Consists : E.PolicySet → List (String × CedarPolicy) → Prop)
    (authz : CedarPolicyAuthorizer E) (policies : List CedarPolicy) : Prop :=
  ∃ named, Consists authz.policySet named ∧ ∀ P, P ∈ named.map Prod.snd ↔ P ∈ policies

/-- The policies allow a request. -/
def PoliciesAllow (R : Request EntityUid) (policies : List CedarPolicy) : Prop :=
  Allows R (policies.map fun P => ((), P))

/-- A question is answered as the policies decide about its entities. -/
theorem evaluate_ok {Consists : E.PolicySet → List (String × CedarPolicy) → Prop}
    {authz : CedarPolicyAuthorizer E} {policies : List CedarPolicy}
    {request : AuthorizationRequest} {response : AuthorizationResponse}
    (hE : E.Documented Consists) (hhas : authz.Has Consists policies)
    (hanswer : authz.evaluate request = .ok response) :
    ∃ entities value, E.buildEntities request = .ok entities ∧ ReadsSets value ∧
      (response.decision = .allow ↔ PoliciesAllow (entities.request value) policies) := by
  simp only [evaluate, bind_eq_ok_iff, pure, Except.pure, Except.ok.injEq] at hanswer
  obtain ⟨entities, hbuild, -, -, -, -, rfl⟩ := hanswer
  obtain ⟨named, hconsists, hsame⟩ := hhas
  obtain ⟨value, hvalue, hdecision, -⟩ := hE.authorized entities _ _ hconsists
  refine ⟨entities, value, hbuild, hvalue, hdecision.trans (allows_congr fun P => ?_)⟩
  rw [hsame, List.map_map]
  simp

end CedarPolicyAuthorizer

end McpShield
