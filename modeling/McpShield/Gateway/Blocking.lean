import McpShield.Gateway.ProxyErrors
import McpShield.Gateway.ToolCalls
import McpShield.Guardrail.FieldChecks

/-!
# Which constraint sets block

A constraint set says whether its violations block execution.  The router does not ask: it refuses
every call that violates a required predicate.
-/

open Effect Effect.Prog

namespace McpShield

variable {E : RegexEngine}

/-- A required predicate is violated. -/
def ToolConstraint.Violated (constraints : ToolConstraint E) (arguments : Value) : Prop :=
  ∃ p ∈ constraints.predicates,
    p.required = true ∧ RuleEcpaGuardrail.evaluatePredicate p arguments = false

instance (constraints : ToolConstraint E) (arguments : Value) :
    Decidable (constraints.Violated arguments) :=
  decidable_of_iff (constraints.predicates.any fun p =>
    p.required && !RuleEcpaGuardrail.evaluatePredicate p arguments) (by
      simp [ToolConstraint.Violated])

/-- What a call meets: the registered tools, the registered constraint sets and the upstream
servers. -/
structure Surroundings (E : RegexEngine) where
  registry : ToolRegistry
  guardrail : RuleEcpaGuardrail E
  serde : SerdeJson
  servers : UpstreamProxy

/-- The answers in these surroundings to a call whose arguments the schema admits.  The components
that are not named may answer anything. -/
def Surroundings.Gives (S : Surroundings E) : Event GatewayOp.Reply → Prop
  | ⟨.lookupAny name, found⟩ => found = S.registry.lookupAny name
  | ⟨.validate _ _, result⟩ => result = .ok ()
  | ⟨.evaluateConstraints toolName arguments, answer⟩ =>
      answer = S.guardrail.evaluateConstraints toolName arguments
  | ⟨.forwardRequest serverId message, reply⟩ =>
      ∃ tr, Steps (S.servers.forwardRequest S.serde serverId message).run tr (.done reply)
  | _ => True

/-- The session lock denies an access. -/
def Locked (tr : GatewayTrace) : Prop :=
  ∃ sid scope reason lockedTo,
    (⟨.checkContextAccess sid scope, .ok (.deny reason lockedTo)⟩ : Event GatewayOp.Reply) ∈ tr

/-- The calls of a tool fail with a constraint violation when its set blocks and is violated, and
with a set that does not block they are forwarded unless the session is locked. -/
structure BlocksAsConfigured (S : Surroundings E) (router : McpRouter) (id : RequestId)
    (params : Option Value) (enforcer : ScopeEnforcer) (sessionId : Option String)
    (constraints : ToolConstraint E) (arguments : Value) : Prop where
  fails_iff : ∀ tr r,
    Steps (handleToolsCall router id params enforcer sessionId).run tr (.done r) →
    (∀ ev ∈ tr, S.Gives ev) →
      ((∃ text, r = .error (.ecpaViolation text)) ↔
        constraints.blockOnViolation = true ∧ constraints.Violated arguments)
  forwarded : constraints.blockOnViolation = false → ∀ tr r,
    Steps (handleToolsCall router id params enforcer sessionId).run tr (.done r) →
    (∀ ev ∈ tr, S.Gives ev) → ¬ Locked tr → ∃ ev ∈ tr, ev.1.IsForward

/-! ## The errors of the proxy -/

/-- A postcondition of the proxy: its errors are not constraint violations. -/
def NoViolation {α : Type} (_ : ProxyTrace) (r : Except McpError α) : Prop :=
  ∀ text, r ≠ .error (.ecpaViolation text)

/-- No upstream server makes a call fail with a constraint violation. -/
theorem UpstreamProxy.forwardRequest_noViolation (serde : SerdeJson) (servers : UpstreamProxy)
    (serverId : String) (message : JsonRpcMessage) (h : ProxyTrace) :
    Ensures (fun _ _ => True) NoViolation (servers.forwardRequest serde serverId message).run h :=
  forwardRequest_plain.mono fun _ _ _ hplain text heq => hplain (.ecpaViolation text) heq

/-! ## The stages of a call -/

section Stages

variable {S : Surroundings E} {router : McpRouter} {enforcer : ScopeEnforcer}
  {sessionId : Option String} {toolName : String} {arguments : Value} {id : RequestId}
  {params : Option Value} {entry : RegisteredTool} {constraints : ToolConstraint E}
  {h : GatewayTrace}

/-- A condition on the calls so far and the outcome, in the surroundings. -/
abbrev Within (S : Surroundings E) {α : Type} (post : GatewayTrace → α → Prop)
    (p : Prog GatewayOp GatewayOp.Reply α) (h : GatewayTrace) : Prop :=
  Ensures (fun _ _ => True) (InEnv S.Gives post) p h

theorem lookupTool_within (hentry : S.registry.lookup toolName = some entry) :
    Within S (fun _ r => r = .ok entry) (lookupTool toolName).run h := by
  refine ensures_call_inEnv fun found hfound => ?_
  obtain rfl : found = .ok (some entry) :=
    hfound.trans (by rw [ToolRegistry.lookupAny, hentry])
  exact fun _ => rfl

theorem checkSchema_within :
    Within S (fun _ r => r = .ok ()) (checkSchema entry arguments).run h := by
  unfold checkSchema
  split_ifs
  · exact fun _ => rfl
  · refine ensures_call_inEnv fun result hresult => ?_
    obtain rfl : result = .ok () := hresult
    exact fun _ => rfl

/-- What a registered set makes of a call. -/
def ConstraintsOutcome (constraints : ToolConstraint E) (arguments : Value) (_ : GatewayTrace)
    (r : Except McpError Unit) : Prop :=
  if constraints.Violated arguments then ∃ text, r = .error (.ecpaViolation text) else r = .ok ()

theorem satisfied_iff_not_violated (hG : RuleEcpaGuardrail.Built S.guardrail)
    (hset : S.guardrail.constraints.lookup toolName = some constraints) (arguments : Value) :
    ∃ result, S.guardrail.evaluateConstraints toolName arguments = .ok result ∧
      (result.satisfied = true ↔ ¬ constraints.Violated arguments) := by
  have hcompiled := hG.compiled hset
  have hiff := RuleEcpaGuardrail.satisfied_iff hcompiled hset arguments
  have heval : S.guardrail.evaluateConstraints toolName arguments =
      .ok (RuleEcpaGuardrail.constraintResult constraints.predicates arguments) := by
    rw [RuleEcpaGuardrail.evaluateConstraints, hset]
    simp only [hcompiled]
    rfl
  refine ⟨_, heval, ?_⟩
  simp only [heval, Except.ok.injEq, exists_eq_left'] at hiff
  rw [hiff, ToolConstraint.Violated]
  simp only [not_exists, not_and, Bool.not_eq_false]

theorem checkConstraints_within (hcfg : router.ecpaGuardrail = true)
    (hG : RuleEcpaGuardrail.Built S.guardrail)
    (hset : S.guardrail.constraints.lookup toolName = some constraints) :
    Within S (ConstraintsOutcome constraints arguments)
      (checkConstraints router toolName arguments).run h := by
  obtain ⟨result, heval, hsatisfied⟩ := satisfied_iff_not_violated hG hset arguments
  unfold checkConstraints
  simp only [hcfg, if_true, run_ask_bind]
  refine ensures_call_inEnv fun answer hanswer => ?_
  obtain rfl : answer = .ok result := hanswer.trans heval
  by_cases hviolated : constraints.Violated arguments
  · have hunsatisfied : result.satisfied ≠ true := fun hsat => hsatisfied.mp hsat hviolated
    simp only [if_neg hunsatisfied, run_ask_bind]
    refine ensures_call_inEnv fun _ _ => ?_
    intro _
    rw [ConstraintsOutcome, if_pos hviolated]
    exact ⟨_, rfl⟩
  · simp only [if_pos (hsatisfied.mpr hviolated)]
    intro _
    rw [ConstraintsOutcome, if_neg hviolated]

/-- The session refuses a call only with its lock. -/
def SessionOutcome (tr : GatewayTrace) : Except McpError Unit → Prop
  | .ok _ => True
  | .error e => Locked tr ∧ ∀ text, e ≠ .ecpaViolation text

theorem checkSession_within :
    Within S SessionOutcome (checkSession router sessionId toolName arguments).run h := by
  unfold checkSession
  split
  · next sid _ =>
    refine ensures_call_inEnv fun access _ => ?_
    match access with
    | .ok (.deny reason lockedTo) =>
      refine ensures_call_inEnv fun _ _ _ => ?_
      refine ⟨⟨sid, toolContext toolName, reason, lockedTo, ?_⟩, nofun⟩
      exact List.mem_append_left _ (mem_concat_self _ _)
    | .ok .allow => exact ensures_call_inEnv fun _ _ => ensures_call_inEnv fun _ _ _ => trivial
    | .error e => exact ensures_call_inEnv fun _ _ => ensures_call_inEnv fun _ _ _ => trivial
  · exact fun _ => trivial

/-- What becomes of a call that is forwarded. -/
def ForwardOutcome (tr : GatewayTrace) (r : Except McpError JsonRpcMessage) : Prop :=
  (∀ text, r ≠ .error (.ecpaViolation text)) ∧ ∃ ev ∈ tr, ev.1.IsForward

theorem forwardToolCall_within {P : Value} :
    Within S ForwardOutcome (forwardToolCall router id P toolName entry).run h := by
  refine ensures_call_inEnv fun reply hreply => ?_
  cases reply with
  | error e =>
    refine fun _ => ⟨fun text heq => ?_, _, mem_concat_self _ _, trivial⟩
    obtain ⟨ptr, hrun⟩ := hreply
    obtain rfl := Except.error.inj heq
    exact (UpstreamProxy.forwardRequest_noViolation S.serde S.servers _ _ []).post_of_steps hrun
      text rfl
  | ok response =>
    refine (inspectResponse_spec.mono_may fun _ _ _ => trivial).mono ?_
    rintro h' r hprefix ⟨out, rfl, -⟩ -
    exact ⟨nofun, _, hprefix.subset (mem_concat_self _ _), trivial⟩

/-- What becomes of a call. -/
def CallOutcome (constraints : ToolConstraint E) (arguments : Value) (tr : GatewayTrace)
    (r : Except McpError JsonRpcMessage) : Prop :=
  if constraints.Violated arguments then ∃ text, r = .error (.ecpaViolation text)
  else (∀ text, r ≠ .error (.ecpaViolation text)) ∧ (¬ Locked tr → ∃ ev ∈ tr, ev.1.IsForward)

/-- The flag of the set makes no difference. -/
theorem handleToolsCall_within (hcfg : router.ecpaGuardrail = true)
    (hmethod : enforcer.checkMethod methodToolsCall = .ok ())
    (hname : toolNameOf (params.getD .emptyObject) = .ok toolName)
    (hentry : S.registry.lookup toolName = some entry)
    (hG : RuleEcpaGuardrail.Built S.guardrail)
    (hset : S.guardrail.constraints.lookup toolName = some constraints) :
    Within S (CallOutcome constraints (argumentsOf (params.getD .emptyObject)))
      (handleToolsCall router id params enforcer sessionId).run h := by
  unfold handleToolsCall
  refine Ensures.result_bind (fun e herr => ?_) fun name hok => ?_
  · rw [hname] at herr
    cases herr
  obtain rfl := Except.ok.inj (hname.symm.trans hok)
  refine Ensures.result_bind (fun e herr => ?_) fun _ _ => ?_
  · rw [ScopeEnforcer.checkToolAccess_of_checkMethod hmethod] at herr
    cases herr
  refine Ensures.bindExcept_inEnv (lookupTool_within hentry) (fun _ _ h => nomatch h)
    fun h₁ entry' _ => ?_
  refine Ensures.bindExcept_inEnv checkSchema_within (fun _ _ h => nomatch h) fun h₂ _ _ => ?_
  refine Ensures.bindExcept_inEnv (checkConstraints_within hcfg hG hset) (fun h' e hout => ?_)
    fun h₃ _ hpassed => ?_
  · unfold ConstraintsOutcome at hout
    unfold CallOutcome
    split_ifs at hout ⊢
    · obtain ⟨text, htext⟩ := hout
      exact ⟨text, congrArg Except.error (Except.error.inj htext)⟩
  have hsatisfied : ¬ constraints.Violated (argumentsOf (params.getD .emptyObject)) := by
    intro hviolated
    rw [ConstraintsOutcome, if_pos hviolated] at hpassed
    obtain ⟨text, htext⟩ := hpassed
    cases htext
  refine Ensures.bindExcept_inEnv checkSession_within (fun h' e hout => ?_) fun h₄ _ _ => ?_
  · rw [CallOutcome, if_neg hsatisfied]
    exact ⟨fun text heq => hout.2 text (Except.error.inj heq), fun hopen => absurd hout.1 hopen⟩
  · have hforward : Within S ForwardOutcome
        (forwardToolCall router id (params.getD .emptyObject) toolName entry').run h₄ :=
      forwardToolCall_within
    refine hforward.mono fun tr r _ hout henv => ?_
    rw [CallOutcome, if_neg hsatisfied]
    exact ⟨(hout henv).1, fun _ => (hout henv).2⟩

end Stages

/-! ## The flag -/

/-- The components of the surroundings, with open gates and servers that are at their limit. -/
def Surroundings.answer (S : Surroundings E) : (op : GatewayOp) → op.Reply
  | .lookupAny name => S.registry.lookupAny name
  | .validate _ _ => .ok ()
  | .evaluateConstraints toolName arguments => S.guardrail.evaluateConstraints toolName arguments
  | .forwardRequest _ _ => .error (.upstreamError "Upstream concurrency limit reached")
  | op => openComponents.answer op

theorem Surroundings.gives_answer (S : Surroundings E) (op : GatewayOp) :
    S.Gives ⟨op, S.answer op⟩ := by
  cases op with
  | forwardRequest serverId message => exact ⟨[⟨.acquire, false⟩], .call (.refl _)⟩
  | lookupAny | validate | evaluateConstraints => rfl
  | _ => trivial

section Flag

variable {S : Surroundings E} {router : McpRouter} {enforcer : ScopeEnforcer}
  {sessionId : Option String} {toolName : String} {id : RequestId} {params : Option Value}
  {entry : RegisteredTool} {constraints : ToolConstraint E}

/-- Some call of the tool is answered to the end. -/
theorem exists_call (S : Surroundings E) (router : McpRouter) (id : RequestId)
    (params : Option Value) (enforcer : ScopeEnforcer) (sessionId : Option String) :
    ∃ tr r, Steps (handleToolsCall router id params enforcer sessionId).run tr (.done r) ∧
      ∀ ev ∈ tr, S.Gives ev := by
  obtain ⟨tr, r, hrun, hanswer⟩ := exists_steps_done S.answer
    (handleToolsCall router id params enforcer sessionId).run
  refine ⟨tr, r, hrun, fun ⟨op, reply⟩ hmem => ?_⟩
  rw [hanswer op reply hmem]
  exact S.gives_answer op

/-- A violated set that does not block blocks. -/
theorem not_blocksAsConfigured (hcfg : router.ecpaGuardrail = true)
    (hmethod : enforcer.checkMethod methodToolsCall = .ok ())
    (hname : toolNameOf (params.getD .emptyObject) = .ok toolName)
    (hentry : S.registry.lookup toolName = some entry)
    (hG : RuleEcpaGuardrail.Built S.guardrail)
    (hset : S.guardrail.constraints.lookup toolName = some constraints)
    (hflag : constraints.blockOnViolation = false)
    (hviolated : constraints.Violated (argumentsOf (params.getD .emptyObject))) :
    ¬ BlocksAsConfigured S router id params enforcer sessionId constraints
      (argumentsOf (params.getD .emptyObject)) := by
  intro h
  obtain ⟨tr, r, hrun, henv⟩ := exists_call S router id params enforcer sessionId
  have hout := (handleToolsCall_within hcfg hmethod hname hentry hG hset).post_of_steps hrun henv
  rw [CallOutcome, if_pos hviolated] at hout
  have hblocks := ((h.fails_iff tr r hrun henv).mp hout).1
  rw [hflag] at hblocks
  cases hblocks

/-- A registered set blocks as it says exactly if it says that it blocks, or is not violated. -/
theorem blocksAsConfigured_iff (hcfg : router.ecpaGuardrail = true)
    (hmethod : enforcer.checkMethod methodToolsCall = .ok ())
    (hname : toolNameOf (params.getD .emptyObject) = .ok toolName)
    (hentry : S.registry.lookup toolName = some entry)
    (hG : RuleEcpaGuardrail.Built S.guardrail)
    (hset : S.guardrail.constraints.lookup toolName = some constraints) :
    BlocksAsConfigured S router id params enforcer sessionId constraints
        (argumentsOf (params.getD .emptyObject)) ↔
      constraints.blockOnViolation = true ∨
        ¬ constraints.Violated (argumentsOf (params.getD .emptyObject)) := by
  have hwithin : Within S (CallOutcome constraints (argumentsOf (params.getD .emptyObject)))
      (handleToolsCall router id params enforcer sessionId).run [] :=
    handleToolsCall_within hcfg hmethod hname hentry hG hset
  constructor
  · intro h
    by_contra hneither
    obtain ⟨hflag, hviolated⟩ := not_or.mp hneither
    exact not_blocksAsConfigured hcfg hmethod hname hentry hG hset (Bool.not_eq_true _ ▸ hflag)
      (not_not.mp hviolated) h
  · intro h
    refine ⟨fun tr r hrun henv => ?_, fun hflag tr r hrun henv hopen => ?_⟩
    · have hout := hwithin.post_of_steps hrun henv
      unfold CallOutcome at hout
      split_ifs at hout with hviolated
      · exact iff_of_true hout ⟨h.resolve_right (not_not.mpr hviolated), hviolated⟩
      · exact iff_of_false (fun ⟨text, heq⟩ => hout.1 text heq) fun hboth => hviolated hboth.2
    · have hsatisfied := h.resolve_left (by simp [hflag])
      have hout := hwithin.post_of_steps hrun henv
      rw [CallOutcome, if_neg hsatisfied] at hout
      exact hout.2 hopen

end Flag

/-! ### A set that warns -/

/-- A set for the echo tool that is to warn of messages other than a greeting. -/
def greetingSet : ToolConstraint .backtracking where
  toolName := "com.example:echo"
  description := "Messages should be greetings"
  predicates := [RuleEcpaGuardrail.requiredPredicate "equals" ["message"] "'hello'"]
  blockOnViolation := false

/-- The echo tool with this set. -/
def greetingSurroundings : Surroundings .backtracking :=
  { registry := echoRegistry
    guardrail := RuleEcpaGuardrail.new.registerOrKeep greetingSet
    serde := JsonRpcMessage.serdeOf "null" .null
    servers := .new }

/-- Parameters that call the tool with a message. -/
def messageParams (message : String) : Value :=
  .object [("name", .string "com.example:echo"),
    ("arguments", .object [("message", .string message)])]

theorem built_greetingSurroundings : RuleEcpaGuardrail.Built greetingSurroundings.guardrail :=
  RuleEcpaGuardrail.Built.new.registerOrKeep greetingSet

theorem blocksAsConfigured_greeting :
    BlocksAsConfigured greetingSurroundings fullRouter (.integer 1) (some (messageParams "hello"))
        (.new [scopeToolsCall]) none greetingSet (argumentsOf (messageParams "hello")) ↔
      greetingSet.blockOnViolation = true ∨
        ¬ greetingSet.Violated (argumentsOf (messageParams "hello")) :=
  have hname : toolNameOf (messageParams "hello") = .ok "com.example:echo" := rfl
  have hentry : greetingSurroundings.registry.lookup "com.example:echo" = some echoEntry := rfl
  blocksAsConfigured_iff rfl rfl hname hentry built_greetingSurroundings rfl

/-- Any other message is refused. -/
theorem other_message_refused :
    ¬ BlocksAsConfigured greetingSurroundings fullRouter (.integer 1)
      (some (messageParams "goodbye")) (.new [scopeToolsCall]) none greetingSet
        (argumentsOf (messageParams "goodbye")) :=
  have hname : toolNameOf (messageParams "goodbye") = .ok "com.example:echo" := rfl
  have hentry : greetingSurroundings.registry.lookup "com.example:echo" = some echoEntry := rfl
  not_blocksAsConfigured rfl rfl hname hentry built_greetingSurroundings rfl rfl (by decide +kernel)

end McpShield
