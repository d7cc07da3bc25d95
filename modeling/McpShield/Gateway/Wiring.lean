import McpShield.Gateway.Audit
import McpShield.Gateway.Mediation

/-!
# The components of a router

A router calls an optional component only if it has it.  A message is forwarded only when it has
been admitted, and it is forwarded when every component lets it through.
-/

open Effect Effect.Prog

namespace McpShield

/-! ## Optional components -/

/-- An optional component is called only if the router has it, and the session manager only about
the session of the message. -/
def Wired (router : McpRouter) (sessionId : Option String) : GatewayOp → Prop
  | .evaluate _ => router.authorizer = true
  | .evaluateConstraints _ _ => router.ecpaGuardrail = true
  | .checkContextAccess sid _ => router.sessions = true ∧ sessionId = some sid
  | .logToolCall sid _ => router.sessions = true ∧ sessionId = some sid
  | .sanitizeResponse _ => router.egressInspector = true
  | .publishAuditEvent _ => router.auditProducer = true
  | _ => True

/-- The program calls the components of the router. -/
def StaysWired {α : Type} (router : McpRouter) (sessionId : Option String)
    (p : Prog GatewayOp GatewayOp.Reply α) : Prop :=
  ∀ h, Ensures (fun _ => Wired router sessionId) (fun _ _ => True) p h

section Components

variable {router : McpRouter} {enforcer : ScopeEnforcer} {sessionId : Option String}
  {id : RequestId} {method : String} {params : Option Value} {α β : Type}

theorem StaysWired.bind {p : Prog GatewayOp GatewayOp.Reply α}
    {f : α → Prog GatewayOp GatewayOp.Reply β} (hp : StaysWired router sessionId p)
    (hf : ∀ a, StaysWired router sessionId (f a)) : StaysWired router sessionId (p >>= f) :=
  fun h => (hp h).bind fun h' a _ _ => hf a h'

theorem StaysWired.bindExcept {x : GatewayM α} {f : α → GatewayM β}
    (hx : StaysWired router sessionId x.run) (hf : ∀ a, StaysWired router sessionId (f a).run) :
    StaysWired router sessionId (x >>= f).run :=
  fun h => (hx h).bindExcept (fun _ _ _ _ => trivial) fun h' a _ _ => hf a h'

theorem staysWired_done (a : α) :
    StaysWired router sessionId (.done a : Prog GatewayOp GatewayOp.Reply α) := fun _ => trivial

theorem staysWired_call {op : GatewayOp} {k : op.Reply → Prog GatewayOp GatewayOp.Reply α}
    (hop : Wired router sessionId op) (hk : ∀ r, StaysWired router sessionId (k r)) :
    StaysWired router sessionId (.call op k) := fun _ => ⟨hop, fun r => hk r _⟩

theorem staysWired_ask {op : GatewayOp} {f : op.Reply → GatewayM α}
    (hop : Wired router sessionId op) (hf : ∀ r, StaysWired router sessionId (f r).run) :
    StaysWired router sessionId (ask op >>= f).run := staysWired_call hop hf

/-- A refusal that is counted first. -/
theorem staysWired_refuse {op : GatewayOp} {e : McpError} (hop : Wired router sessionId op) :
    StaysWired router sessionId (do let _ ← ask op; throw e : GatewayM α).run :=
  staysWired_ask hop fun _ => staysWired_done _

theorem checkPolicy_staysWired :
    StaysWired router sessionId (checkPolicy router enforcer method params).run := by
  unfold checkPolicy
  split
  · next hcfg =>
    refine staysWired_ask hcfg fun answer => ?_
    cases answer with
    | error e => exact staysWired_refuse trivial
    | ok response =>
      dsimp only
      split
      · exact staysWired_refuse trivial
      · exact staysWired_done _
  · exact staysWired_done _

theorem lookupTool_staysWired {toolName : String} :
    StaysWired router sessionId (lookupTool toolName).run := by
  refine staysWired_ask trivial fun found => ?_
  cases found with
  | error e => exact staysWired_done _
  | ok entry => cases entry <;> exact staysWired_done _

theorem checkSchema_staysWired {entry : RegisteredTool} {arguments : Value} :
    StaysWired router sessionId (checkSchema entry arguments).run := by
  unfold checkSchema
  split
  · exact staysWired_done _
  · refine staysWired_ask trivial fun result => ?_
    cases result with
    | error e => exact staysWired_refuse trivial
    | ok _ => exact staysWired_done _

theorem checkConstraints_staysWired {toolName : String} {arguments : Value} :
    StaysWired router sessionId (checkConstraints router toolName arguments).run := by
  unfold checkConstraints
  split
  · next hcfg =>
    refine staysWired_ask hcfg fun answer => ?_
    cases answer with
    | error e => exact staysWired_refuse trivial
    | ok result =>
      dsimp only
      split
      · exact staysWired_done _
      · exact staysWired_refuse trivial
  · exact staysWired_done _

theorem checkSession_staysWired {toolName : String} {arguments : Value} :
    StaysWired router sessionId (checkSession router sessionId toolName arguments).run := by
  unfold checkSession
  split
  · next sid hcfg =>
    refine staysWired_ask ⟨hcfg, rfl⟩ fun access => ?_
    have hlog : StaysWired router (some sid) (do
        let timestamp ← ask .utcNow
        let _ ← ask (.logToolCall sid { toolName, arguments, timestamp })
        pure () : GatewayM Unit).run :=
      staysWired_ask trivial fun _ =>
        staysWired_ask ⟨hcfg, rfl⟩ fun _ => staysWired_done _
    match access with
    | .ok (.deny _ _) => exact staysWired_refuse trivial
    | .ok .allow => exact hlog
    | .error _ => exact hlog
  · exact staysWired_done _

theorem forwardToolCall_staysWired {P : Value} {toolName : String} {entry : RegisteredTool} :
    StaysWired router sessionId (forwardToolCall router id P toolName entry).run := by
  refine staysWired_ask trivial fun reply => ?_
  cases reply with
  | error e => exact staysWired_done _
  | ok response =>
    dsimp only [inspectResponse]
    split
    · next hcfg =>
      refine staysWired_ask (Bool.and_eq_true_iff.mp hcfg).1 fun inspection => ?_
      cases inspection with
      | error e => exact staysWired_done _
      | ok result =>
        dsimp only
        split <;> exact staysWired_done _
    · exact staysWired_done _

theorem handleToolsCall_staysWired :
    StaysWired router sessionId (handleToolsCall router id params enforcer sessionId).run := by
  refine .bindExcept (staysWired_done _) fun toolName => ?_
  refine .bindExcept (staysWired_done _) fun _ => ?_
  refine .bindExcept lookupTool_staysWired fun entry => ?_
  refine .bindExcept checkSchema_staysWired fun _ => ?_
  refine .bindExcept checkConstraints_staysWired fun _ => ?_
  refine .bindExcept checkSession_staysWired fun _ => ?_
  exact forwardToolCall_staysWired

theorem proxyToUpstream_staysWired :
    StaysWired router sessionId (proxyToUpstream id method params).run := by
  refine staysWired_ask trivial fun server => ?_
  cases server with
  | none => exact staysWired_done _
  | some serverId => exact staysWired_ask trivial fun _ => staysWired_done _

theorem handleInitialize_staysWired :
    StaysWired router sessionId (handleInitialize router id params).run := by
  refine staysWired_ask trivial fun parsed => ?_
  cases parsed <;> exact staysWired_done _

theorem dispatch_staysWired :
    StaysWired router sessionId (dispatch router id method params enforcer sessionId).run := by
  unfold dispatch
  split_ifs
  · exact handleInitialize_staysWired
  · exact staysWired_done _
  · exact staysWired_ask trivial fun _ => staysWired_done _
  · exact handleToolsCall_staysWired
  · exact proxyToUpstream_staysWired
  · exact proxyToUpstream_staysWired
  · exact staysWired_done _
  · exact staysWired_done _
  · exact proxyToUpstream_staysWired

theorem route_staysWired (message : JsonRpcMessage) :
    StaysWired router sessionId (route router message enforcer sessionId).run := by
  cases message with
  | request id method params =>
    dsimp only [route, handleRequest]
    split
    · exact staysWired_done _
    · refine .bindExcept (staysWired_done _) fun _ => ?_
      exact .bindExcept checkPolicy_staysWired fun _ => dispatch_staysWired
  | _ => exact staysWired_done _

theorem publishAudit_staysWired {message : JsonRpcMessage}
    {result : Except McpError JsonRpcMessage} :
    StaysWired router sessionId (publishAudit router message enforcer sessionId result) := by
  unfold publishAudit
  split
  · next hcfg =>
    refine staysWired_call trivial fun _ => ?_
    refine staysWired_call trivial fun _ => ?_
    refine staysWired_call trivial fun _ => ?_
    exact staysWired_call hcfg fun _ => staysWired_done _
  · exact staysWired_done _

theorem record_staysWired {message : JsonRpcMessage} {result : Except McpError JsonRpcMessage} :
    StaysWired router sessionId (record router message enforcer sessionId result) := by
  refine staysWired_call trivial fun duration => ?_
  refine staysWired_call trivial fun _ => ?_
  exact publishAudit_staysWired.bind fun _ => staysWired_done _

/-- Whatever the message is, the router calls no component that it does not have. -/
theorem handleMessage_staysWired (router : McpRouter) (enforcer : ScopeEnforcer)
    (sessionId : Option String) (message : JsonRpcMessage) :
    StaysWired router sessionId (handleMessage router enforcer sessionId message) := by
  rw [handleMessage_eq_processed]
  exact (route_staysWired _).bind fun _ => record_staysWired

end Components

/-! ## What is known when a request is forwarded -/

/-- The methods of requests that the gateway answers itself. -/
def answeredMethods : List String :=
  [methodInitialize, methodPing, methodToolsList, methodShutdown, methodInitialized]

/-- The method is a known one, it is not answered locally, and the policy has allowed the
request. -/
structure Admitted (router : McpRouter) (enforcer : ScopeEnforcer) (method : String)
    (params : Option Value) (tr : GatewayTrace) : Prop where
  known : isValidMethod method = true ∨ Str.startsWith method "notifications/" = true
  forwarded : method ∉ answeredMethods
  policy : router.authorizer = true → ∃ response,
    ⟨.evaluate (authorizationRequest enforcer method params), .ok response⟩ ∈ tr ∧
      response.decision = .allow

/-- Only an admitted request is forwarded. -/
def MayAdmit (router : McpRouter) (enforcer : ScopeEnforcer) (message : JsonRpcMessage)
    (tr : GatewayTrace) (op : GatewayOp) : Prop :=
  op.IsForward → ∃ id method params, message.leftmost = some (.request id method params) ∧
    Admitted router enforcer method params tr

section Admission

variable {router : McpRouter} {enforcer : ScopeEnforcer} {sessionId : Option String}
  {message : JsonRpcMessage} {id : RequestId} {method : String} {params : Option Value}
  {h : GatewayTrace} {α : Type}

theorem admit_of_quiet {post : GatewayTrace → α → Prop} {p : Prog GatewayOp GatewayOp.Reply α}
    (hp : Ensures Quiet post p h) :
    Ensures (MayAdmit router enforcer message) (fun _ _ => True) p h :=
  (hp.mono_may fun _ _ hquiet hfwd => absurd hfwd hquiet).mono fun _ _ _ _ => trivial

theorem dispatch_admits (hmsg : message.leftmost = some (.request id method params))
    (hknown : isValidMethod method = true ∨ Str.startsWith method "notifications/" = true)
    (hpolicy : router.authorizer = true → ∃ response,
      ⟨.evaluate (authorizationRequest enforcer method params), .ok response⟩ ∈ h ∧
        response.decision = .allow) :
    Ensures (MayAdmit router enforcer message) (fun _ _ => True)
      (dispatch router id method params enforcer sessionId).run h := by
  -- what admits the request stays true of all later exchanges
  have hrest {x : GatewayM JsonRpcMessage} (hforwarded : method ∉ answeredMethods) :
      Ensures (MayAdmit router enforcer message) (fun _ _ => True) x.run h := by
    refine ensures_of_extension fun tr op htr _ => ⟨id, method, params, hmsg, hknown, hforwarded, ?_⟩
    intro hcfg
    obtain ⟨response, hmem, hallow⟩ := hpolicy hcfg
    exact ⟨response, htr.subset hmem, hallow⟩
  by_cases hanswered : method ∈ answeredMethods
  · unfold dispatch
    simp only [answeredMethods, List.mem_cons, List.not_mem_nil, or_false] at hanswered
    split_ifs with hinit hping hlist hcall hres hprompts hshutdown hinitialized
    · exact admit_of_quiet handleInitialize_spec
    · trivial
    · exact ⟨fun hfwd => absurd hfwd not_false, fun _ => trivial⟩
    · subst hcall
      exact absurd hanswered (by decide)
    · subst hres
      exact absurd hanswered (by decide)
    · subst hprompts
      exact absurd hanswered (by decide)
    · trivial
    · trivial
    · exact absurd hanswered (by simp [hinit, hping, hlist, hshutdown, hinitialized])
  · exact hrest hanswered

theorem route_admits (hmsg : message.leftmost = some message) :
    Ensures (MayAdmit router enforcer message) (fun _ _ => True)
      (route router message enforcer sessionId).run [] := by
  cases message with
  | request id method params =>
    dsimp only [route, handleRequest]
    split
    · trivial
    · next hfilter =>
      refine Ensures.result_bind (fun _ _ => trivial) fun _ _ => ?_
      refine Ensures.bindExcept
        (checkPolicy_spec.mono_may fun _ _ hquiet hfwd => absurd hfwd hquiet)
        (fun _ _ _ _ => trivial) fun h' _ _ hpolicy => ?_
      refine dispatch_admits hmsg ?_ hpolicy
      simpa [Classical.or_iff_not_imp_left] using hfilter
  | _ => trivial

theorem handleMessage_admits (router : McpRouter) (enforcer : ScopeEnforcer)
    (sessionId : Option String) : ∀ message,
    Ensures (MayAdmit router enforcer message) (fun _ _ => True)
      (handleMessage router enforcer sessionId message) []
  | .batch (first :: _) => handleMessage_admits router enforcer sessionId first
  | .batch [] => admit_of_quiet record_spec
  | .notification _ _ => (route_admits rfl).bind fun _ _ _ _ => admit_of_quiet record_spec
  | .request _ _ _ => (route_admits rfl).bind fun _ _ _ _ => admit_of_quiet record_spec
  | .success _ _ => (route_admits rfl).bind fun _ _ _ _ => admit_of_quiet record_spec
  | .error _ _ => (route_admits rfl).bind fun _ _ _ _ => admit_of_quiet record_spec

end Admission

/-! ## Answers that let a request through -/

/-- The calls are answered by these components. -/
def AnsweredBy (answer : (op : GatewayOp) → op.Reply) (tr : GatewayTrace) : Prop :=
  ∀ op (r : op.Reply), ⟨op, r⟩ ∈ tr → r = answer op

/-- The computation succeeds with `a` when these components answer. -/
def SucceedsBy {α : Type} (answer : (op : GatewayOp) → op.Reply) (x : GatewayM α) (a : α) : Prop :=
  ∃ tr, AnsweredBy answer tr ∧ Steps x.run tr (.done (.ok a))

/-- The program forwards a message to a server when these components answer. -/
def ForwardsBy {α : Type} (answer : (op : GatewayOp) → op.Reply)
    (p : Prog GatewayOp GatewayOp.Reply α) (server : String) (sent : JsonRpcMessage) : Prop :=
  ∃ tr k, AnsweredBy answer tr ∧ Steps p tr (.call (.forwardRequest server sent) k)

theorem answeredBy_nil (answer : (op : GatewayOp) → op.Reply) : AnsweredBy answer [] :=
  fun _ _ hmem => nomatch hmem

theorem AnsweredBy.append {answer : (op : GatewayOp) → op.Reply} {tr tr' : GatewayTrace}
    (h : AnsweredBy answer tr) (h' : AnsweredBy answer tr') : AnsweredBy answer (tr ++ tr') :=
  fun op r hmem => (List.mem_append.mp hmem).elim (h op r) (h' op r)

theorem answeredBy_single (answer : (op : GatewayOp) → op.Reply) (op : GatewayOp) :
    AnsweredBy answer [⟨op, answer op⟩] := by
  intro op' r hmem
  cases List.mem_singleton.mp hmem
  rfl

section Answers

variable {router : McpRouter} {enforcer : ScopeEnforcer} {sessionId : Option String}
  {answer : (op : GatewayOp) → op.Reply} {id : RequestId} {method toolName server : String}
  {params : Option Value} {P arguments : Value} {entry : RegisteredTool} {sent : JsonRpcMessage}
  {α β : Type} {a : α}

theorem succeedsBy_pure : SucceedsBy answer (pure a) a := ⟨[], answeredBy_nil _, .refl _⟩

theorem succeedsBy_ask {op : GatewayOp} {f : op.Reply → GatewayM α}
    (h : SucceedsBy answer (f (answer op)) a) : SucceedsBy answer (ask op >>= f) a := by
  obtain ⟨tr, hanswered, hrun⟩ := h
  exact ⟨⟨op, answer op⟩ :: tr, (answeredBy_single answer op).append hanswered, .call hrun⟩

theorem ForwardsBy.after {x : GatewayM α} {f : α → GatewayM β} (hx : SucceedsBy answer x a)
    (hf : ForwardsBy answer (f a).run server sent) :
    ForwardsBy answer (x >>= f).run server sent := by
  obtain ⟨tr, hanswered, hrun⟩ := hx
  obtain ⟨tr', k, hanswered', hrun'⟩ := hf
  exact ⟨tr ++ tr', k, hanswered.append hanswered', hrun.bind_ok hrun'⟩

theorem ForwardsBy.bind {p : Prog GatewayOp GatewayOp.Reply α}
    {f : α → Prog GatewayOp GatewayOp.Reply β} (h : ForwardsBy answer p server sent) :
    ForwardsBy answer (p >>= f) server sent := by
  obtain ⟨tr, k, hanswered, hrun⟩ := h
  exact ⟨tr, _, hanswered, hrun.bind_right f⟩

theorem succeedsBy_result {x : Except McpError α} (h : x = .ok a) :
    SucceedsBy answer (Prog.result x) a := by
  subst h
  exact succeedsBy_pure

theorem checkPolicy_succeedsBy (hpolicy : router.authorizer = true → ∃ response,
      answer (.evaluate (authorizationRequest enforcer method params)) = .ok response ∧
        response.decision = .allow) :
    SucceedsBy answer (checkPolicy router enforcer method params) () := by
  unfold checkPolicy
  split
  · next hcfg =>
    obtain ⟨response, hanswer, hallow⟩ := hpolicy hcfg
    refine succeedsBy_ask ?_
    rw [hanswer]
    simpa [hallow] using succeedsBy_pure
  · exact succeedsBy_pure

theorem lookupTool_succeedsBy (hentry : answer (.lookupAny toolName) = .ok (some entry)) :
    SucceedsBy answer (lookupTool toolName) entry := by
  refine succeedsBy_ask ?_
  rw [hentry]
  exact succeedsBy_pure

theorem checkSchema_succeedsBy (hschema : arguments.isNull = false →
      answer (.validate entry.tool.inputSchema arguments) = .ok ()) :
    SucceedsBy answer (checkSchema entry arguments) () := by
  unfold checkSchema
  split
  · exact succeedsBy_pure
  · next hnull =>
    refine succeedsBy_ask ?_
    rw [hschema (by simpa using hnull)]
    exact succeedsBy_pure

theorem checkSession_succeedsBy (hsession : ∀ sid reason lockedTo,
      answer (.checkContextAccess sid (toolContext toolName)) ≠ .ok (.deny reason lockedTo)) :
    SucceedsBy answer (checkSession router sessionId toolName arguments) () := by
  unfold checkSession
  split
  · next sid _ =>
    refine succeedsBy_ask ?_
    have hlog : SucceedsBy answer (do
        let timestamp ← ask .utcNow
        let _ ← ask (.logToolCall sid { toolName, arguments, timestamp })
        pure () : GatewayM Unit) () :=
      succeedsBy_ask (succeedsBy_ask succeedsBy_pure)
    cases haccess : answer (.checkContextAccess sid (toolContext toolName)) with
    | error e => exact hlog
    | ok access =>
      cases access with
      | allow => exact hlog
      | deny reason lockedTo => exact absurd haccess (hsession _ _ _)
  · exact succeedsBy_pure

/-- What the components answer to a request that is forwarded. -/
structure LetThrough (router : McpRouter) (enforcer : ScopeEnforcer)
    (answer : (op : GatewayOp) → op.Reply) (method : String) (params : Option Value) : Prop where
  known : isValidMethod method = true ∨ Str.startsWith method "notifications/" = true
  forwarded : method ∉ answeredMethods
  policy : router.authorizer = true → ∃ response,
    answer (.evaluate (authorizationRequest enforcer method params)) = .ok response ∧
      response.decision = .allow
  server : ∃ server, answer .defaultServerId = some server
  tool : method = methodToolsCall → ∃ P toolName entry, params = some P ∧
    toolNameOf P = .ok toolName ∧ answer (.lookupAny toolName) = .ok (some entry) ∧
      ((argumentsOf P).isNull = false →
        answer (.validate entry.tool.inputSchema (argumentsOf P)) = .ok ())

theorem forwardsBy_forward {k : Except McpError JsonRpcMessage → GatewayM α} :
    ForwardsBy answer (ask (.forwardRequest server sent) >>= k).run server sent :=
  ⟨[], _, answeredBy_nil _, .refl _⟩

theorem proxyToUpstream_forwardsBy (hserver : answer .defaultServerId = some server) :
    ForwardsBy answer (proxyToUpstream id method params).run server
      (.request id method params) := by
  have hask : SucceedsBy answer (ask .defaultServerId) (some server) := by
    rw [← hserver]
    exact ⟨_, answeredBy_single answer _, .call (.refl _)⟩
  exact .after hask forwardsBy_forward

theorem dispatch_forwardsBy (hpermissive : enforcer.permissive = true)
    (hecpa : router.ecpaGuardrail = false) (hsession : ∀ sid scope reason lockedTo,
      answer (.checkContextAccess sid scope) ≠ .ok (.deny reason lockedTo))
    (h : LetThrough router enforcer answer method params) : ∃ server,
    ForwardsBy answer (dispatch router id method params enforcer sessionId).run server
      (.request id method params) := by
  obtain ⟨server, hserver⟩ := h.server
  have hforwarded := h.forwarded
  simp only [answeredMethods, List.mem_cons, List.not_mem_nil, or_false, not_or] at hforwarded
  obtain ⟨hinit, hping, hlist, hshutdown, hinitialized⟩ := hforwarded
  unfold dispatch
  rw [if_neg hinit, if_neg hping, if_neg hlist]
  split_ifs with hcall hres hprompts
  · obtain ⟨P, toolName, entry, rfl, hname, hentry, hschema⟩ := h.tool hcall
    subst hcall
    refine ⟨entry.serverId, ?_⟩
    refine .after (succeedsBy_result hname) ?_
    refine .after (succeedsBy_result (enforcer.checkToolAccess_of_permissive hpermissive _)) ?_
    refine .after (lookupTool_succeedsBy hentry) ?_
    refine .after (checkSchema_succeedsBy hschema) ?_
    refine .after (a := ()) (by simpa [checkConstraints, hecpa] using succeedsBy_pure) ?_
    refine .after (checkSession_succeedsBy fun sid => hsession sid _) ?_
    exact forwardsBy_forward
  · exact ⟨server, proxyToUpstream_forwardsBy hserver⟩
  · exact ⟨server, proxyToUpstream_forwardsBy hserver⟩
  · exact ⟨server, proxyToUpstream_forwardsBy hserver⟩

/-- A request that every component lets through is forwarded, if the scopes and the constraints do
not stand in its way. -/
theorem handleMessage_forwardsBy (hpermissive : enforcer.permissive = true)
    (hecpa : router.ecpaGuardrail = false) (hsession : ∀ sid scope reason lockedTo,
      answer (.checkContextAccess sid scope) ≠ .ok (.deny reason lockedTo))
    {message : JsonRpcMessage} (hmsg : message.leftmost = some (.request id method params))
    (h : LetThrough router enforcer answer method params) : ∃ server,
    ForwardsBy answer (handleMessage router enforcer sessionId message) server
      (.request id method params) := by
  obtain ⟨server, hdispatch⟩ : ∃ server, ForwardsBy answer
      (dispatch router id method params enforcer sessionId).run server
      (.request id method params) := dispatch_forwardsBy hpermissive hecpa hsession h
  have hrequest : ForwardsBy answer
      (handleRequest router id method params enforcer sessionId).run server
      (.request id method params) := by
    have hfilter :
        ¬ ((!isValidMethod method && !Str.startsWith method "notifications/") = true) := by
      rcases h.known with hvalid | hnotification
      · simp [hvalid]
      · simp [hnotification]
    unfold handleRequest
    rw [if_neg hfilter]
    refine .after (succeedsBy_result (enforcer.checkMethod_of_permissive hpermissive _)) ?_
    exact .after (checkPolicy_succeedsBy h.policy) hdispatch
  refine ⟨server, ?_⟩
  rw [handleMessage_eq_processed, JsonRpcMessage.processed_of_leftmost hmsg]
  exact hrequest.bind

end Answers

end McpShield
