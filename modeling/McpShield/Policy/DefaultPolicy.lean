import McpShield.Policy.Authorizer

/-!
# The shipped policies

The policies of `policies/default.cedar`.  They permit requests of the client `authenticated` only,
and tool calls only for two names that have no colon.
-/

open AttributePolicy Literal

namespace McpShield

open CedarSyntax CedarPolicyAuthorizer

def clientUid (id : String) : EntityUid := { typeName := "Client", id }
def actionUid (id : String) : EntityUid := { typeName := "Action", id }
def toolUid (id : String) : EntityUid := { typeName := "Tool", id }

/-! ## The policies -/

/-- A policy that permits the client `authenticated` an action. -/
def permitAuthenticated (action : String) (resource : Option EntityUid)
    (clauses : List (Clause EntityUid)) : CedarPolicy :=
  { effect := .permit, principal := some (clientUid "authenticated")
    action := some (actionUid action), resource, clauses }

/-- `principal has scopes && principal.scopes.contains(scope)`. -/
def principalHasScope (scope : String) : Expr EntityUid := principalHas "scopes" scope

/-- The policies of `policies/default.cedar`. -/
def defaultPolicies : List CedarPolicy :=
  [permitAuthenticated "tools/list" none [],
    permitAuthenticated "tools/call" (some (toolUid "com.echo.echo"))
      [.«when» (principalHasScope "mcp:tools:call")],
    permitAuthenticated "tools/call" (some (toolUid "com.echo.add"))
      [.«when» (principalHasScope "mcp:tools:call")],
    permitAuthenticated "resources/list" none [],
    permitAuthenticated "prompts/list" none [],
    permitAuthenticated "ping" none [],
    { effect := .forbid, principal := none, action := some (actionUid "shutdown")
      resource := none, clauses := [.«unless» (principalHasScope "mcp:admin")] }]

/-- The actions that are permitted with every resource. -/
def openActions : List String := ["tools/list", "resources/list", "prompts/list", "ping"]

/-- The tools that may be called. -/
def callableTools : List String := ["com.echo.echo", "com.echo.add"]

/-! ## What they allow -/

variable {R : Request EntityUid}

theorem permit_applies_iff {action : String} {resource : Option EntityUid}
    {clauses : List (Clause EntityUid)} :
    (permitAuthenticated action resource clauses).Applies R ↔
      R.principal = clientUid "authenticated" ∧ R.action = actionUid action ∧
        Names resource R.resource ∧ ∀ c ∈ clauses, c.Holds R := by
  simp [permitAuthenticated, Policy.Applies]

theorem permit_mem_of_open {action : String} (h : action ∈ openActions) :
    permitAuthenticated action none [] ∈ defaultPolicies := by
  simp only [openActions, List.mem_cons, List.not_mem_nil, or_false] at h
  rcases h with rfl | rfl | rfl | rfl <;> simp [defaultPolicies]

theorem permit_mem_of_callable {tool : String} (h : tool ∈ callableTools) :
    permitAuthenticated "tools/call" (some (toolUid tool))
      [.«when» (principalHasScope "mcp:tools:call")] ∈ defaultPolicies := by
  simp only [callableTools, List.mem_cons, List.not_mem_nil, or_false] at h
  rcases h with rfl | rfl <;> simp [defaultPolicies]

/-- The principal has the scope. -/
def HasScope (R : Request EntityUid) (scope : String) : Prop :=
  ∃ elements, R.attrs R.principal "scopes" = some (.set elements) ∧ .string scope ∈ elements

theorem holds_when_scope_iff {scope : String} :
    (Clause.«when» (principalHasScope scope)).Holds R ↔ HasScope R scope :=
  eval_principalHas_eq_true_iff

/-- A policy that is not the one that forbids permits an open action or the call of a tool. -/
theorem eq_permit_of_mem {P : CedarPolicy} (hP : P ∈ defaultPolicies)
    (hpermit : P.effect = .permit) :
    (∃ action ∈ openActions, P = permitAuthenticated action none []) ∨
      ∃ tool ∈ callableTools, P = permitAuthenticated "tools/call" (some (toolUid tool))
        [.«when» (principalHasScope "mcp:tools:call")] := by
  simp only [defaultPolicies, List.mem_cons, List.not_mem_nil, or_false] at hP
  rcases hP with rfl | rfl | rfl | rfl | rfl | rfl | rfl
  · exact .inl ⟨"tools/list", by simp [openActions], rfl⟩
  · exact .inr ⟨"com.echo.echo", by simp [callableTools], rfl⟩
  · exact .inr ⟨"com.echo.add", by simp [callableTools], rfl⟩
  · exact .inl ⟨"resources/list", by simp [openActions], rfl⟩
  · exact .inl ⟨"prompts/list", by simp [openActions], rfl⟩
  · exact .inl ⟨"ping", by simp [openActions], rfl⟩
  · cases hpermit

theorem action_of_forbid {P : CedarPolicy} (hP : P ∈ defaultPolicies)
    (hforbid : P.effect = .forbid) : P.action = some (actionUid "shutdown") := by
  simp only [defaultPolicies, List.mem_cons, List.not_mem_nil, or_false] at hP
  rcases hP with rfl | rfl | rfl | rfl | rfl | rfl | rfl <;> first | rfl | cases hforbid

/-- The policies allow a request of the client `authenticated` if the action is open, or if it is
the call of one of the tools and the client has the scope.  The policy that forbids decides
nothing: what it forbids is not permitted anyway. -/
theorem policiesAllow_default_iff : PoliciesAllow R defaultPolicies ↔
    R.principal = clientUid "authenticated" ∧
      ((∃ action ∈ openActions, R.action = actionUid action) ∨
        R.action = actionUid "tools/call" ∧ (∃ tool ∈ callableTools, R.resource = toolUid tool) ∧
          HasScope R "mcp:tools:call") := by
  have hsnd : (defaultPolicies.map fun P => ((), P)).map Prod.snd = defaultPolicies := by
    rw [List.map_map]
    exact List.map_id _
  rw [PoliciesAllow, allows_iff, hsnd]
  constructor
  · rintro ⟨⟨P, hP, hpermit, happlies⟩, -⟩
    rcases eq_permit_of_mem hP hpermit with ⟨action, hmem, rfl⟩ | ⟨tool, hmem, rfl⟩
    · obtain ⟨hprincipal, haction, -, -⟩ := permit_applies_iff.mp happlies
      exact ⟨hprincipal, .inl ⟨action, hmem, haction⟩⟩
    · obtain ⟨hprincipal, haction, hresource, hclauses⟩ := permit_applies_iff.mp happlies
      have hscope := holds_when_scope_iff.mp (hclauses _ List.mem_cons_self)
      exact ⟨hprincipal, .inr ⟨haction, ⟨tool, hmem, names_some.mp hresource⟩, hscope⟩⟩
  · rintro ⟨hprincipal, hpermitted⟩
    constructor
    · rcases hpermitted with ⟨action, hmem, haction⟩ | ⟨haction, ⟨tool, hmem, htool⟩, hscope⟩
      · refine ⟨_, permit_mem_of_open hmem, rfl, permit_applies_iff.mpr ?_⟩
        exact ⟨hprincipal, haction, names_none _, fun c hc => absurd hc List.not_mem_nil⟩
      · refine ⟨_, permit_mem_of_callable hmem, rfl, permit_applies_iff.mpr ?_⟩
        refine ⟨hprincipal, haction, names_some.mpr htool, fun c hc => ?_⟩
        rw [List.mem_singleton.mp hc]
        exact holds_when_scope_iff.mpr hscope
    · -- the one policy that forbids is about another action
      intro P hP hforbid happlies
      have haction : R.action = actionUid "shutdown" := by
        have hnamed := happlies.2.1
        rwa [action_of_forbid hP hforbid, names_some] at hnamed
      rcases hpermitted with ⟨action, hmem, hopen⟩ | ⟨hcall, -⟩
      · obtain rfl := congrArg EntityUid.id (haction.symm.trans hopen)
        exact absurd hmem (by decide)
      · exact absurd (haction.symm.trans hcall) (by decide)

/-! ## What the authorizer allows -/

section Question

variable {E : CedarEngine} {Consists : E.PolicySet → List (String × CedarPolicy) → Prop}
  {authz : CedarPolicyAuthorizer E} {request : AuthorizationRequest}
  {response : AuthorizationResponse} {entities : RequestEntities}
  {value : RestrictedExpression → AttributePolicy.Value EntityUid}

/-- The entities have the types that they are built with. -/
theorem types_of_buildEntities (hE : E.Documented Consists)
    (hbuild : E.buildEntities request = .ok entities) :
    entities.principal.uid.typeName = "Client" ∧ entities.action.uid.typeName = "Action" ∧
      entities.resource.uid.typeName = resourceType request := by
  obtain ⟨client, expr, action, resource, hclient, -, -, haction, hresource, rfl⟩ :=
    buildEntities_eq_ok_iff.mp hbuild
  refine ⟨hE.typeName _ (by decide) _ _ hclient, hE.typeName _ (by decide) _ _ haction,
    hE.typeName _ ?_ _ _ hresource⟩
  unfold resourceType
  split_ifs <;> decide

theorem resourceType_of_call (hcall : request.action = "tools/call") :
    resourceType request = "Tool" := by
  simp [resourceType, hcall]

theorem uid_eq_iff {u : EntityUid} {typeName id : String} (htype : u.typeName = typeName) :
    u = { typeName, id } ↔ u.id = id := by
  obtain ⟨typeName', id'⟩ := u
  obtain rfl : typeName' = typeName := htype
  simp

/-- The principal has the scopes of a faithful question. -/
theorem hasScope_of_faithful (hvalue : ReadsSets value) (hfaithful : Faithful request entities)
    {scope : String} : HasScope (entities.request value) scope ↔ scope ∈ requestScopes request := by
  obtain ⟨elements, hattrs, hsame⟩ := hfaithful.scopes
  have hattr : (entities.request value).attrs (entities.request value).principal "scopes" =
      some (.set (elements.map .string)) := by
    simp [RequestEntities.request, RequestEntities.attr, hattrs, hvalue elements]
  simp [HasScope, hattr, hsame]

/-- The shipped policies, read off the strings of a clean question: only the client `authenticated`
is allowed anything; it may list, ping, and call two tools if it has the scope. -/
theorem evaluate_default_allow_iff (hE : E.Documented Consists)
    (hhas : authz.Has Consists defaultPolicies) (hclean : CleanRequest request)
    (hanswer : authz.evaluate request = .ok response) :
    response.decision = .allow ↔ request.principal = "authenticated" ∧
      (request.action ∈ openActions ∨ request.action = "tools/call" ∧
        request.resource ∈ callableTools ∧ "mcp:tools:call" ∈ requestScopes request) := by
  obtain ⟨entities, value, hbuild, hvalue, hdecision⟩ := evaluate_ok hE hhas hanswer
  have hfaithful := (hE.syntaxes.faithful_iff hbuild).mpr hclean
  obtain ⟨hclient, haction, hresource⟩ := types_of_buildEntities hE hbuild
  have hprincipal : entities.principal.uid = clientUid "authenticated" ↔
      request.principal = "authenticated" := by
    rw [clientUid, uid_eq_iff hclient, hfaithful.principal]
  have hactions : ∀ action, entities.action.uid = actionUid action ↔ request.action = action :=
    fun action => by rw [actionUid, uid_eq_iff haction, hfaithful.action]
  have htools : request.action = "tools/call" → ∀ tool,
      entities.resource.uid = toolUid tool ↔ request.resource = tool := by
    intro hcall tool
    rw [toolUid, uid_eq_iff (hresource.trans (resourceType_of_call hcall)), hfaithful.resource]
  rw [hdecision, policiesAllow_default_iff, hasScope_of_faithful hvalue hfaithful]
  simp only [RequestEntities.request, hprincipal, hactions, exists_eq_right']
  refine and_congr_right fun _ => or_congr_right (and_congr_right fun hcall => ?_)
  simp only [htools hcall, exists_eq_right']

end Question

/-! ### An engine -/

/-- The value of a restricted expression. -/
def plainValue : RestrictedExpression → AttributePolicy.Value EntityUid
  | .strings elements => .set (elements.map .string)
  | .other => .set []

/-- An engine on the reader of entities, for policy sets that are given as lists.  It only reads the
text without policies. -/
def plainEngine : CedarEngine where
  toCedarSyntax := plainCedar
  PolicySet := List (String × CedarPolicy)
  parsePolicySet text :=
    if text = "" then .ok [] else .error { alternate := "not empty", display := "not empty" }
  entitiesError _ := none
  requestError _ := none
  isAuthorized entities policies :=
    let R := entities.request plainValue
    (if Allows R policies then .allow else .deny, deciding R policies)

theorem documented_plainEngine : plainEngine.Documented (fun policySet policies =>
    policySet = policies) where
  syntaxes := documented_plainCedar
  typeName typeName htype id euid h := by
    have hchars : (uidText typeName id).toList.takeWhile (· ≠ '"') =
        typeName.toList ++ "::".toList := by
      rw [toList_uidText, List.takeWhile_append_of_pos]
      · simp
      · rw [← List.all_eq_true]
        simp only [entityTypes, List.mem_cons, List.not_mem_nil, or_false] at htype
        rcases htype with rfl | rfl | rfl | rfl <;> decide
    have hdrop : (typeName.toList ++ "::".toList).dropLast.dropLast = typeName.toList := by
      rw [show "::".toList = [':', ':'] from rfl]
      simp
    have h : plainCedar.parseEntityUid (uidText typeName id) = .ok euid := h
    simp only [plainCedar] at h
    split at h
    · split at h
      · split_ifs at h
        rw [hchars, hdrop, String.ofList_toList] at h
        rw [← Except.ok.inj h]
      · cases h
    · cases h
  authorized entities policySet policies h := by
    obtain rfl := h
    exact ⟨plainValue, fun _ => rfl, by simp [plainEngine], .refl _⟩

/-- An authorizer with the shipped policies; their text does not matter for its answers. -/
def shippedAuthorizer : CedarPolicyAuthorizer plainEngine where
  policySource := ""
  policySet := defaultPolicies.zipIdx.map fun P => (s!"policy{P.2}", P.1)

theorem shippedAuthorizer_has :
    shippedAuthorizer.Has (fun policySet policies => policySet = policies) defaultPolicies :=
  ⟨_, rfl, fun _ => Iff.rfl⟩

/-- The question of a client that may call the tool. -/
def echoQuestion : AuthorizationRequest :=
  { principal := "authenticated", action := "tools/call", resource := "com.echo.echo"
    context := AList.insert "scopes" (.ofStrings ["authenticated", "mcp:tools:call"]) ∅ }

theorem evaluate_default_allow_iff_echo : ∃ response : AuthorizationResponse,
    shippedAuthorizer.evaluate echoQuestion = .ok response ∧
      (response.decision = .allow ↔ echoQuestion.principal = "authenticated" ∧
        (echoQuestion.action ∈ openActions ∨ echoQuestion.action = "tools/call" ∧
          echoQuestion.resource ∈ callableTools ∧
            "mcp:tools:call" ∈ requestScopes echoQuestion)) :=
  ⟨_, rfl, evaluate_default_allow_iff documented_plainEngine shippedAuthorizer_has (by decide) rfl⟩

end McpShield
