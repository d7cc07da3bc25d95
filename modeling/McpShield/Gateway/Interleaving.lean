import McpShield.Gateway.Audit
import McpShield.Gateway.SessionLock
import McpShield.Lib.Concurrent
import McpShield.Session.Lock

/-!
# Messages handled side by side

The handlers of all messages share one registry, one session manager and one audit log.  Each of
these answers a call at one moment, and between two calls of a handler anything may happen to them:
calls of other handlers, registrations, locks, and readers that drain the log.
-/

open Effect Effect.Prog

namespace McpShield

/-! ## The shared components -/

/-- A call on a shared component by anyone but a handler. -/
inductive SharedOp where
  | registry (op : RegistryOp)
  | sessions (op : SessionOp)
  | drain

/-- The calls on the components of a server. -/
inductive ServerOp where
  | gateway (op : GatewayOp)
  | shared (op : SharedOp)

def SharedOp.Reply : SharedOp → Type
  | registry _ => RegistryOut
  | sessions _ => SessionOut
  | drain => List AuditEvent

def ServerOp.Reply : ServerOp → Type
  | gateway op => op.Reply
  | shared op => op.Reply

/-- The state of the shared components. -/
structure Shared where
  registry : ToolRegistry
  sessions : InMemorySessionManager
  audit : BufferingProducer

namespace Shared

/-- A call of a handler.  Components that are not shared may answer anything. -/
def serveGateway (s : Shared) : (op : GatewayOp) → op.Reply → Shared → Prop
  | .lookupAny name, r, s' => r = s.registry.lookupAny name ∧ s' = s
  | .listTools, r, s' => r = s.registry.listTools ∧ s' = s
  | .checkContextAccess sid scope, r, s' => r = s.sessions.checkContextAccess sid scope ∧ s' = s
  | .logToolCall sid record, r, s' => ∃ now, r = (s.sessions.logToolCall sid record now).1 ∧
      s' = { s with sessions := (s.sessions.logToolCall sid record now).2 }
  | .publishAuditEvent event, r, s' => r = (s.audit.publishAuditEvent event).1 ∧
      s' = { s with audit := (s.audit.publishAuditEvent event).2 }
  | _, _, s' => s' = s

/-- A call by anyone else. -/
def serveShared (s : Shared) : (op : SharedOp) → op.Reply → Shared → Prop
  | .registry op, r, s' => r = (registryMachine.step s.registry op).1 ∧
      s' = { s with registry := (registryMachine.step s.registry op).2 }
  | .sessions op, r, s' => r = (sessionMachine.step s.sessions op).1 ∧
      s' = { s with sessions := (sessionMachine.step s.sessions op).2 }
  | .drain, r, s' => r = s.audit.drain.1 ∧ s' = { s with audit := s.audit.drain.2 }

/-- The shared components. -/
def serve : Component Shared ServerOp.Reply
  | s, .gateway op, r, s' => s.serveGateway op r s'
  | s, .shared op, r, s' => s.serveShared op r s'

/-- Only the calls of the registry that are not made by a handler change it. -/
theorem registry_serve {s s' : Shared} {op : ServerOp} {r : op.Reply} (hserve : serve s op r s') :
    (∃ call, op = .shared (.registry call) ∧
      s'.registry = (registryMachine.step s.registry call).2) ∨ s'.registry = s.registry := by
  cases op with
  | gateway op =>
    cases op with
    | logToolCall =>
      obtain ⟨now, -, rfl⟩ := hserve
      exact .inr rfl
    | lookupAny | listTools | checkContextAccess | publishAuditEvent =>
      obtain ⟨-, rfl⟩ := hserve
      exact .inr rfl
    | _ =>
      obtain rfl : s' = s := hserve
      exact .inr rfl
  | shared op =>
    cases op with
    | registry call =>
      obtain ⟨-, rfl⟩ := hserve
      exact .inl ⟨call, rfl, rfl⟩
    | sessions | drain =>
      obtain ⟨-, rfl⟩ := hserve
      exact .inr rfl

end Shared

/-! ## The tasks of a server -/

/-- What a server does side by side: it handles a message, or someone makes a call on a shared
component. -/
inductive Task where
  | message (enforcer : ScopeEnforcer) (sessionId : Option String) (message : JsonRpcMessage)
  | shared (op : SharedOp)

/-- The outcome of a task: that of a message. -/
abbrev TaskOutcome : Type := Option (Except McpError JsonRpcMessage)

/-- The program of a task. -/
def Task.program (router : McpRouter) : Task → Prog ServerOp ServerOp.Reply TaskOutcome
  | message enforcer sessionId m => do
      let result ← embed ServerOp.gateway (fun _ reply => reply)
        (handleMessage router enforcer sessionId m)
      .done (some result)
  | shared op => .call (.shared op) fun _ => .done none

/-- The answered calls of a server, each with the task that made it. -/
abbrev History : Type := List (ℕ × Event ServerOp.Reply)

/-- The tasks are run side by side, from the state `s` to the state `s'`. -/
abbrev TasksRun (router : McpRouter) (tasks : ℕ → Task) (s : Shared) (h : History)
    (Q : ℕ → Prog ServerOp ServerOp.Reply TaskOutcome) (s' : Shared) : Prop :=
  Interleaves Shared.serve (fun i => (tasks i).program router) s h Q s'

/-- A call of a handler. -/
def handlerEvent (ev : Event GatewayOp.Reply) : Event ServerOp.Reply := ⟨.gateway ev.1, ev.2⟩

/-! ## One task, seen alone -/

section Alone

variable {router : McpRouter} {task : Task} {tr : List (Event ServerOp.Reply)}
  {q : Prog ServerOp ServerOp.Reply TaskOutcome}

/-- The program of a task at some point. -/
inductive Task.At (router : McpRouter) : Task → List (Event ServerOp.Reply) →
    Prog ServerOp ServerOp.Reply TaskOutcome → Prop where
  | message {enforcer sessionId m gtr p} (hsteps : Steps (handleMessage router enforcer sessionId m)
      gtr p) : At router (message enforcer sessionId m) (gtr.map handlerEvent)
        (embed ServerOp.gateway (fun _ reply => reply) p >>= fun result => .done (some result))
  | waiting {op : SharedOp} : At router (shared op) [] (.call (.shared op) fun _ => .done none)
  | answered {op : SharedOp} (r : op.Reply) : At router (shared op) [⟨.shared op, r⟩] (.done none)

theorem Task.at_of_steps (h : Steps (task.program router) tr q) : task.At router tr q := by
  cases task with
  | message enforcer sessionId m =>
    obtain ⟨p', hp', rfl⟩ := Steps.map_inv h
    obtain ⟨exchanges, p, rfl, hsteps, rfl⟩ := Steps.embed_inv hp'
    have hmap : exchanges.map (fun x => (⟨.gateway x.1, x.2⟩ : Event ServerOp.Reply)) =
        (exchanges.map fun x => (⟨x.1, x.2⟩ : Event GatewayOp.Reply)).map handlerEvent := by
      rw [List.map_map]
      rfl
    rw [hmap]
    exact .message hsteps
  | shared op =>
    cases h with
    | refl => exact .waiting
    | call h =>
      cases h
      exact .answered _

/-- The calls of a handler are those of its message. -/
theorem Task.At.call_inv {op : GatewayOp} {k} (h : task.At router tr (.call (.gateway op) k)) :
    ∃ enforcer sessionId m gtr k', task = .message enforcer sessionId m ∧
      tr = gtr.map handlerEvent ∧
      Steps (handleMessage router enforcer sessionId m) gtr (.call op k') := by
  generalize hq : Prog.call (ServerOp.gateway op) k = q at h
  cases h with
  | @message enforcer sessionId m gtr p hsteps =>
    cases p with
    | done => cases hq
    | call op' k' =>
      obtain ⟨hop, -⟩ := Prog.call.inj hq
      obtain rfl := ServerOp.gateway.inj hop
      exact ⟨enforcer, sessionId, m, gtr, k', rfl, rfl, hsteps⟩
  | waiting => cases hq
  | answered => cases hq

/-- A message that has been handled is a run of its handler. -/
theorem Task.At.done_inv {enforcer : ScopeEnforcer} {sessionId : Option String}
    {m : JsonRpcMessage} {r : Except McpError JsonRpcMessage}
    (h : Task.At router (.message enforcer sessionId m) tr (.done (some r))) :
    ∃ gtr, tr = gtr.map handlerEvent ∧
      Steps (handleMessage router enforcer sessionId m) gtr (.done r) := by
  generalize hq : Prog.done (some r) = q at h
  cases h with
  | @message _ _ _ gtr p hsteps =>
    cases p with
    | call => cases hq
    | done r' =>
      obtain rfl := Option.some.inj (Prog.done.inj hq)
      exact ⟨gtr, rfl, hsteps⟩

theorem mem_map_handlerEvent {gtr : GatewayTrace} {op : GatewayOp} {r : op.Reply}
    (h : ⟨op, r⟩ ∈ gtr) :
    (⟨.gateway op, r⟩ : Event ServerOp.Reply) ∈ gtr.map handlerEvent :=
  List.mem_map.mpr ⟨_, h, rfl⟩

end Alone

/-! ## One handler -/

section Handler

variable {router : McpRouter} {enforcer : ScopeEnforcer} {sessionId : Option String}
  {toolName : String} {arguments : Value} {message : JsonRpcMessage} {h : GatewayTrace} {α : Type}

/-- The call of a tool has been logged under a session. -/
def Logged (sid toolName : String) (arguments : Value) (tr : GatewayTrace) : Prop :=
  ∃ timestamp logged, ⟨.logToolCall sid { toolName, arguments, timestamp }, logged⟩ ∈ tr

/-- Under a session, a tool call is forwarded only after it has been logged. -/
def LogsFirst (router : McpRouter) (sessionId : Option String) (tr : GatewayTrace) :
    GatewayOp → Prop
  | .forwardRequest _ sent => ∀ sid id P, router.sessions = true → sessionId = some sid →
      sent = .request id methodToolsCall (some P) → ∃ toolName,
        (P.get "name").bind Value.asStr = some toolName ∧
          Logged sid toolName (argumentsOf P) tr
  | _ => True

theorem logsFirst_of_quiet {tr : GatewayTrace} {op : GatewayOp} (hop : Quiet tr op) :
    LogsFirst router sessionId tr op := by
  cases op with
  | forwardRequest => exact absurd trivial hop
  | _ => trivial

/-- A program that forwards nothing. -/
theorem Quiet.logsFirst {post : GatewayTrace → α → Prop} {p : Prog GatewayOp GatewayOp.Reply α}
    (hp : Ensures Quiet post p h) : Ensures (LogsFirst router sessionId) (fun _ _ => True) p h :=
  (hp.mono_may fun _ _ => logsFirst_of_quiet).mono fun _ _ _ _ => trivial

/-- A stage that forwards nothing is followed by the rest of the pipeline. -/
theorem Quiet.then_logsFirst {mid : GatewayTrace → α → Prop} {x : GatewayM α}
    {f : α → GatewayM JsonRpcMessage} (hx : Ensures Quiet (onOk mid) x.run h)
    (hf : ∀ h' a, mid h' a → Ensures (LogsFirst router sessionId) (fun _ _ => True) (f a).run h') :
    Ensures (LogsFirst router sessionId) (fun _ _ => True) (x >>= f).run h :=
  Ensures.bindExcept (hx.mono_may fun _ _ => logsFirst_of_quiet) (fun _ _ _ _ => trivial)
    fun h' a _ hmid => hf h' a hmid

theorem check_then_logsFirst {x : Except McpError α} {f : α → GatewayM JsonRpcMessage}
    (hf : ∀ a, x = .ok a → Ensures (LogsFirst router sessionId) (fun _ _ => True) (f a).run h) :
    Ensures (LogsFirst router sessionId) (fun _ _ => True) (Prog.result x >>= f).run h :=
  Ensures.result_bind (fun _ _ => trivial) hf

theorem checkSession_logs :
    Ensures Quiet
      (onOk fun h' _ => ∀ sid, router.sessions = true → sessionId = some sid →
        Logged sid toolName arguments h')
      (checkSession router sessionId toolName arguments).run h := by
  unfold checkSession
  cases hcfg : router.sessions with
  | false => simp [onOk]
  | true =>
    cases sessionId with
    | none => simp [onOk]
    | some sid =>
      refine ⟨id, fun access => ?_⟩
      have hlog : ∀ h : GatewayTrace, Ensures Quiet
          (onOk fun h' _ => ∀ sid', true = true → some sid = some sid' →
            Logged sid' toolName arguments h')
          (do
            let timestamp ← ask .utcNow
            let _ ← ask (.logToolCall sid { toolName, arguments, timestamp })
            pure () : GatewayM Unit).run h := by
        refine fun h => ⟨id, fun timestamp => ⟨id, fun logged => ?_⟩⟩
        rintro sid' - hsid
        obtain rfl := Option.some.inj hsid
        exact ⟨timestamp, logged, mem_concat_self _ _⟩
      cases access with
      | error e => exact hlog _
      | ok result =>
        cases result with
        | allow => exact hlog _
        | deny reason lockedTo => exact ⟨id, fun _ => trivial⟩

theorem handleToolsCall_logsFirst {id : RequestId} {params : Option Value} :
    Ensures (LogsFirst router sessionId) (fun _ _ => True)
      (handleToolsCall router id params enforcer sessionId).run h := by
  refine check_then_logsFirst fun toolName hname => ?_
  have hname' : ((params.getD .emptyObject).get "name").bind Value.asStr = some toolName := by
    unfold toolNameOf at hname
    split at hname <;> simp_all
  refine check_then_logsFirst fun _ _ => ?_
  refine Quiet.then_logsFirst lookupTool_spec fun h₁ entry _ => ?_
  refine Quiet.then_logsFirst checkSchema_spec fun h₂ _ _ => ?_
  refine Quiet.then_logsFirst checkConstraints_spec fun h₃ _ _ => ?_
  refine Quiet.then_logsFirst checkSession_logs fun h₄ _ hlogged => ?_
  refine ⟨fun sid id' P hcfg hsid hsent => ?_, fun reply => ?_⟩
  · obtain ⟨-, -, hP⟩ := JsonRpcMessage.request.inj hsent
    obtain rfl := Option.some.inj hP
    exact ⟨toolName, hname', hlogged sid hcfg hsid⟩
  · cases reply with
    | error e => trivial
    | ok response => exact Quiet.logsFirst inspectResponse_spec

theorem proxyToUpstream_logsFirst {id : RequestId} {method : String} {params : Option Value}
    (hmethod : method ≠ methodToolsCall) :
    Ensures (LogsFirst router sessionId) (fun _ _ => True)
      (proxyToUpstream id method params).run h := by
  refine ⟨trivial, fun server => ?_⟩
  cases server with
  | none => trivial
  | some serverId =>
    refine ⟨fun sid id' P _ _ hsent => ?_, fun _ => trivial⟩
    exact absurd (JsonRpcMessage.request.inj hsent).2.1 hmethod

theorem dispatch_logsFirst {id : RequestId} {method : String} {params : Option Value} :
    Ensures (LogsFirst router sessionId) (fun _ _ => True)
      (dispatch router id method params enforcer sessionId).run h := by
  unfold dispatch
  split_ifs with hinit hping hlist hcall hres hprompts hshutdown hinitialized
  · exact Quiet.logsFirst handleInitialize_spec
  · trivial
  · exact ⟨trivial, fun _ => trivial⟩
  · exact handleToolsCall_logsFirst
  · exact proxyToUpstream_logsFirst hcall
  · exact proxyToUpstream_logsFirst hcall
  · trivial
  · trivial
  · exact proxyToUpstream_logsFirst hcall

theorem route_logsFirst :
    Ensures (LogsFirst router sessionId) (fun _ _ => True)
      (route router message enforcer sessionId).run h := by
  cases message with
  | request id method params =>
    show Ensures _ _ (handleRequest router id method params enforcer sessionId).run h
    unfold handleRequest
    split
    · trivial
    · refine check_then_logsFirst fun _ _ => ?_
      exact Quiet.then_logsFirst checkPolicy_spec fun h' _ _ => dispatch_logsFirst
  | _ => trivial

/-- Every handler logs a tool call before it forwards it. -/
theorem handleMessage_logsFirst (router : McpRouter) (enforcer : ScopeEnforcer)
    (sessionId : Option String) (message : JsonRpcMessage) :
    Ensures (LogsFirst router sessionId) (fun _ _ => True)
      (handleMessage router enforcer sessionId message) [] := by
  rw [handleMessage_eq_processed]
  exact route_logsFirst.bind fun h' result _ _ => Quiet.logsFirst record_spec

/-- A handler publishes its event as the last thing it does: whenever it makes a call, it has
published nothing. -/
theorem handleMessage_publishesLast (hcfg : router.auditProducer = true) :
    Ensures (fun tr _ => published tr = [])
      (fun tr r => Audited [] enforcer sessionId message.processed r tr)
      (handleMessage router enforcer sessionId message) [] := by
  have hstep : ∀ (tr : GatewayTrace) op (r : op.Reply), published tr = [] → Unaudited tr op →
      published (tr ++ [⟨op, r⟩]) = [] := by
    intro tr op r hnone hop
    rw [published_concat, hnone]
    cases op with
    | publishAuditEvent event => exact absurd trivial hop
    | _ => rfl
  have hroute : Ensures (fun tr _ => published tr = []) (fun tr _ => published tr = [])
      (route router message.processed enforcer sessionId).run [] := by
    cases message.processed with
    | request id method params =>
      exact ((handleRequest_settled.with_invariant hstep rfl).mono_may
        fun _ _ hmay => hmay.1).mono fun _ _ _ hpost => hpost.1
    | _ => exact published_nil
  rw [handleMessage_eq_processed]
  refine hroute.bind fun tr result _ hnone => ?_
  have hsilent : ∀ {tr : GatewayTrace} {op : GatewayOp} (r : op.Reply), published tr = [] →
      op.published? = none → published (tr ++ [⟨op, r⟩]) = [] := fun _ hnone hop =>
    (published_of_silent hop).trans hnone
  refine ⟨hnone, fun duration => ?_⟩
  have hnone := hsilent duration hnone rfl
  refine ⟨hnone, fun recorded => ?_⟩
  have hnone := hsilent recorded hnone rfl
  unfold publishAudit
  simp only [hcfg, if_true]
  refine ⟨hnone, fun eventId => ?_⟩
  have hnone := hsilent eventId hnone rfl
  refine ⟨hnone, fun timestamp => ?_⟩
  have hnone := hsilent timestamp hnone rfl
  refine ⟨hnone, fun elapsed => ?_⟩
  have hnone := hsilent elapsed hnone rfl
  refine ⟨hnone, fun _ => audited_of_publish hnone
    { method := rfl, requestId := rfl, sessionId := rfl, scopes := rfl
      decision := auditDecision_eq_allow_iff
      errorCode := ?_ }⟩
  cases result <;> rfl

end Handler

/-! ## Moments of a run -/

/-- When task `i` makes the call `ev` in the history, the shared components are in a state with
`φ`. -/
def AtMoment (s : Shared) (h : History) (i : ℕ) (ev : Event ServerOp.Reply)
    (φ : Shared → Prop) : Prop :=
  ∃ h₁ h₂ s₁, h = h₁ ++ (i, ev) :: h₂ ∧ Serves Shared.serve s (h₁.map Prod.snd) s₁ ∧ φ s₁

section Runs

variable {router : McpRouter} {tasks : ℕ → Task} {s s' : Shared} {h h' : History}
  {Q : ℕ → Prog ServerOp ServerOp.Reply TaskOutcome} {i : ℕ}

/-- A call of the history is answered at some moment. -/
theorem atMoment_of_mem (hserves : Serves Shared.serve s (h.map Prod.snd) s') {op : ServerOp}
    {r : op.Reply} (hmem : (i, ⟨op, r⟩) ∈ h) :
    AtMoment s h i ⟨op, r⟩ fun s₁ => ∃ s₂, Shared.serve s₁ op r s₂ := by
  obtain ⟨h₁, h₂, rfl⟩ := List.append_of_mem hmem
  rw [List.map_append, List.map_cons, serves_append_iff] at hserves
  obtain ⟨s₁, hbefore, hafter⟩ := hserves
  obtain ⟨s₂, hserve, -⟩ := serves_cons_iff.mp hafter
  exact ⟨h₁, h₂, s₁, rfl, hbefore, s₂, hserve⟩

theorem AtMoment.mono {ev : Event ServerOp.Reply} {φ ψ : Shared → Prop}
    (hmoment : AtMoment s h i ev φ) (hφ : ∀ s, φ s → ψ s) : AtMoment s h i ev ψ := by
  obtain ⟨h₁, h₂, s₁, heq, hbefore, hs₁⟩ := hmoment
  exact ⟨h₁, h₂, s₁, heq, hbefore, hφ s₁ hs₁⟩

/-- A call of a handler in the history, and what the handler has done before. -/
theorem handler_of_call {op : GatewayOp} {r : op.Reply}
    (hrun : TasksRun router tasks s (h ++ (i, ⟨.gateway op, r⟩) :: h') Q s') :
    ∃ enforcer sessionId message gtr k, tasks i = .message enforcer sessionId message ∧
      callsOf i h = gtr.map handlerEvent ∧
      Steps (handleMessage router enforcer sessionId message) gtr (.call op k) := by
  obtain ⟨k, hcall⟩ := hrun.exists_call
  exact (Task.at_of_steps hcall).call_inv

/-! ## Mediation -/

/-- The gates that the call of a tool has passed, each at a moment of the history. -/
structure PassedGates (router : McpRouter) (s : Shared) (h : History) (i : ℕ)
    (enforcer : ScopeEnforcer) (sessionId : Option String) (server : String) (P : Value)
    (toolName : String) : Prop where
  name : (P.get "name").bind Value.asStr = some toolName
  methodScope : enforcer.checkMethod methodToolsCall = .ok ()
  toolScope : enforcer.checkToolAccess toolName = .ok ()
  policy : router.authorizer = true → ∃ question response,
    (i, ⟨.gateway (.evaluate question), .ok response⟩) ∈ h ∧ question.action = methodToolsCall ∧
      question.resource = toolName ∧ response.decision = .allow
  /-- The server owns the tool, and the arguments have passed its schema; `null` passes unread. -/
  owned : ∃ entry found, entry.serverId = server ∧
    (AtMoment s h i ⟨.gateway (.lookupAny toolName), found⟩ fun s₁ =>
      s₁.registry.lookup toolName = some entry) ∧
    ((argumentsOf P).isNull = false →
      (i, ⟨.gateway (.validate entry.tool.inputSchema (argumentsOf P)), .ok ()⟩) ∈ h)
  constraints : router.ecpaGuardrail = true → ∃ result,
    (i, ⟨.gateway (.evaluateConstraints toolName (argumentsOf P)), .ok result⟩) ∈ h ∧
      result.satisfied = true
  unlocked : ∀ sid, router.sessions = true → sessionId = some sid → ∃ access,
    AtMoment s h i ⟨.gateway (.checkContextAccess sid (toolContext toolName)), access⟩ fun s₁ =>
      ¬ LockedOpenly s₁.sessions sid
  logged : ∀ sid, router.sessions = true → sessionId = some sid → ∃ timestamp logged,
    (i, ⟨.gateway (.logToolCall sid { toolName, arguments := argumentsOf P, timestamp }),
      logged⟩) ∈ h

theorem not_lockedOpenly_of_access {M : InMemorySessionManager} {sid : String}
    (toolName : String) (hallowed : ∀ reason lockedTo,
      M.checkContextAccess sid (toolContext toolName) ≠ .ok (.deny reason lockedTo)) :
    ¬ LockedOpenly M sid := by
  rintro ⟨locked, hlock, hvis⟩
  obtain ⟨reason, lockedTo, hdeny⟩ : ∃ reason lockedTo,
      M.checkContextAccess sid (toolContext toolName) = .ok (.deny reason lockedTo) :=
    InMemorySessionManager.checkContextAccess_deny_iff.mpr ⟨locked, hlock, hvis⟩
  exact hallowed reason lockedTo hdeny

/-- A handler that forwards a tool call has passed the gates. -/
theorem passedGates_of_steps {enforcer : ScopeEnforcer} {sessionId : Option String}
    {message : JsonRpcMessage} {gtr : GatewayTrace} {server : String} {id : RequestId} {P : Value}
    {k : Continuation} (hserves : Serves Shared.serve s (h.map Prod.snd) s')
    (hcalls : callsOf i h = gtr.map handlerEvent)
    (hsteps : Steps (handleMessage router enforcer sessionId message) gtr
      (.call (.forwardRequest server (.request id methodToolsCall (some P))) k)) :
    ∃ toolName, PassedGates router s h i enforcer sessionId server P toolName := by
  have hmem : ∀ {op : GatewayOp} {r : op.Reply}, ⟨op, r⟩ ∈ gtr → (i, ⟨.gateway op, r⟩) ∈ h :=
    fun hev => mem_callsOf.mp (hcalls ▸ mem_map_handlerEvent hev)
  obtain ⟨-, toolName, entry, hserver, hcleared⟩ := cleared_of_steps hsteps
  refine ⟨toolName, hcleared.name, hcleared.methodScope, hcleared.toolScope, fun hcfg => ?_, ?_,
    fun hcfg => ?_, fun sid hcfg hsid => ?_, fun sid hcfg hsid => ?_⟩
  · obtain ⟨question, response, hev, hquestion⟩ := hcleared.policy hcfg
    exact ⟨question, response, hmem hev, hquestion⟩
  · refine ⟨entry, _, hserver, (atMoment_of_mem hserves (hmem hcleared.owner)).mono ?_,
      fun hnull => hmem (hcleared.schema hnull)⟩
    rintro s₁ ⟨s₂, hfound, -⟩
    exact ToolRegistry.lookup_of_lookupAny hfound.symm
  · obtain ⟨result, hev, hsatisfied⟩ := hcleared.constraints hcfg
    exact ⟨result, hmem hev, hsatisfied⟩
  · obtain ⟨access, haccess, hallowed⟩ := hcleared.session sid hcfg hsid
    refine ⟨access, (atMoment_of_mem hserves (hmem haccess)).mono ?_⟩
    rintro s₁ ⟨s₂, hanswer, -⟩
    exact not_lockedOpenly_of_access toolName fun reason lockedTo hdeny =>
      hallowed reason lockedTo (hanswer.trans hdeny)
  · obtain ⟨toolName', hname, timestamp, logged, hlogged⟩ :=
      (handleMessage_logsFirst router enforcer sessionId message).may_of_steps hsteps sid id P
        hcfg hsid rfl
    obtain rfl := Option.some.inj (hcleared.name.symm.trans hname)
    exact ⟨timestamp, logged, hmem hlogged⟩

/-- A tool call that is forwarded has passed the gates. -/
theorem passedGates_of_call {server : String} {id : RequestId} {P : Value}
    {reply : Except McpError JsonRpcMessage}
    (hrun : TasksRun router tasks s (h ++ (i, ⟨.gateway (.forwardRequest server
      (.request id methodToolsCall (some P))), reply⟩) :: h') Q s') :
    ∃ enforcer sessionId message toolName, tasks i = .message enforcer sessionId message ∧
      PassedGates router s h i enforcer sessionId server P toolName := by
  obtain ⟨enforcer, sessionId, message, gtr, k, htask, hcalls, hsteps⟩ := handler_of_call hrun
  obtain ⟨s₁, -, hserves, -⟩ := hrun.answered
  obtain ⟨toolName, hgates⟩ := passedGates_of_steps hserves hcalls hsteps
  exact ⟨enforcer, sessionId, message, toolName, htask, hgates⟩

/-- However the tasks are interleaved, a request is forwarded at most once, for a message that is
this very request.  If it is a tool call, it has passed every gate before: at one moment its server
owned the tool, at another the session was not locked against it, and it has been logged. -/
theorem forwarded_passedGates {server : String} {sent : JsonRpcMessage}
    {reply : Except McpError JsonRpcMessage}
    (hrun : TasksRun router tasks s
      (h ++ (i, ⟨.gateway (.forwardRequest server sent), reply⟩) :: h') Q s') :
    ∃ enforcer sessionId message, tasks i = .message enforcer sessionId message ∧
      message.leftmost = some sent ∧
      (∀ server' sent' reply', (i, ⟨.gateway (.forwardRequest server' sent'), reply'⟩) ∉ h) ∧
      ∀ id P, sent = .request id methodToolsCall (some P) →
        ∃ toolName, PassedGates router s h i enforcer sessionId server P toolName := by
  obtain ⟨enforcer, sessionId, message, gtr, k, htask, hcalls, hsteps⟩ := handler_of_call hrun
  obtain ⟨hno, id', method, params, rfl, hmsg, -⟩ :=
    (handleMessage_spec router enforcer sessionId message).may_of_steps hsteps
  refine ⟨enforcer, sessionId, message, htask, hmsg, fun server' sent' reply' hfwd => ?_, ?_⟩
  · have hfwd := mem_callsOf.mpr hfwd
    rw [hcalls] at hfwd
    obtain ⟨⟨op, r⟩, hev, heq⟩ := List.mem_map.mp hfwd
    obtain ⟨hop, -⟩ := Sigma.mk.inj heq
    obtain rfl := ServerOp.gateway.inj hop
    exact hno _ hev trivial
  · rintro id P hsent
    rw [hsent] at hsteps
    obtain ⟨s₁, -, hserves, -⟩ := hrun.answered
    exact passedGates_of_steps hserves hcalls hsteps

/-! ### A session that is locked too late -/

/-- The shared components answer from their state, the others as `c` does. -/
def Shared.answer (c : Components) (s : Shared) : (op : ServerOp) → op.Reply × Shared
  | .gateway (.lookupAny name) => (s.registry.lookupAny name, s)
  | .gateway .listTools => (s.registry.listTools, s)
  | .gateway (.checkContextAccess sid scope) => (s.sessions.checkContextAccess sid scope, s)
  | .gateway (.logToolCall sid record) =>
      let (logged, sessions) := s.sessions.logToolCall sid record 0
      (logged, { s with sessions })
  | .gateway (.publishAuditEvent event) =>
      let (published, audit) := s.audit.publishAuditEvent event
      (published, { s with audit })
  | .gateway op => (c.answer op, s)
  | .shared (.registry op) =>
      let (out, registry) := registryMachine.step s.registry op
      (out, { s with registry })
  | .shared (.sessions op) =>
      let (out, sessions) := sessionMachine.step s.sessions op
      (out, { s with sessions })
  | .shared .drain =>
      let (events, audit) := s.audit.drain
      (events, { s with audit })

theorem Shared.serve_answer (c : Components) (s : Shared) (op : ServerOp) :
    s.serve op (s.answer c op).1 (s.answer c op).2 := by
  cases op with
  | gateway op =>
    cases op with
    | logToolCall sid record => exact ⟨0, rfl, rfl⟩
    | lookupAny | listTools | checkContextAccess | publishAuditEvent => exact ⟨rfl, rfl⟩
    | _ => rfl
  | shared op =>
    cases op with
    | registry | sessions | drain => exact ⟨rfl, rfl⟩

/-- One tool, one session and an empty audit log. -/
def echoShared : Shared :=
  { registry := openComponents.registry, sessions := openComponents.sessions,
    audit := { buffer := [] } }

/-- A batch with a tool call under the session, a lock of the session to a public context, and
readers of the audit log. -/
def echoTasks : ℕ → Task
  | 0 => .message (.new [scopeToolsCall]) (some "s") echoBatch
  | 1 => .shared (.sessions (.lockContext "s"
      { contextType := "tool", identifier := "com.example", visibility := .public } 0))
  | _ => .shared .drain

/-- The tasks, run in the order of a schedule. -/
def echoRun (schedule : List ℕ) :
    History × (ℕ → Prog ServerOp ServerOp.Reply TaskOutcome) × Shared :=
  runSchedule (Shared.answer openComponents) (fun i => (echoTasks i).program fullRouter) echoShared
    schedule

theorem tasksRun_echoRun (schedule : List ℕ) :
    TasksRun fullRouter echoTasks echoShared (echoRun schedule).1 (echoRun schedule).2.1
      (echoRun schedule).2.2 :=
  interleaves_runSchedule (Shared.serve_answer openComponents) _ _ schedule

/-- The session is locked after the access has been checked and before the call is forwarded. -/
theorem forwarded_passedGates_echo :
    ∃ enforcer sessionId message, echoTasks 0 = .message enforcer sessionId message ∧
      message.leftmost = some (.request (.integer 1) methodToolsCall (some echoParams)) ∧
      (∀ server' sent' reply', (0, ⟨.gateway (.forwardRequest server' sent'), reply'⟩) ∉
        (echoRun [0, 0, 0, 0, 0, 1, 0, 0]).1) ∧
      ∀ id P, JsonRpcMessage.request (.integer 1) methodToolsCall (some echoParams) =
          .request id methodToolsCall (some P) →
        ∃ toolName, PassedGates fullRouter echoShared (echoRun [0, 0, 0, 0, 0, 1, 0, 0]).1 0
          enforcer sessionId "echo" P toolName := by
  have hbefore := tasksRun_echoRun [0, 0, 0, 0, 0, 1, 0, 0]
  exact forwarded_passedGates (hbefore.trans
    (.step rfl (Shared.serve_answer openComponents _ _) (.refl _ _)))

/-! ## Tool calls of a session -/

/-- The parameters of a tool call that is forwarded. -/
def ServerOp.forwarded? : ServerOp → Option Value
  | gateway (.forwardRequest _ (.request _ method (some P))) =>
      if method = methodToolsCall then some P else none
  | _ => none

/-- The session whose access is checked. -/
def ServerOp.checked? : ServerOp → Option String
  | gateway (.checkContextAccess sid _) => some sid
  | _ => none

/-- The record that a call adds to the log of a session. -/
def ServerOp.logged? (sid : String) : ServerOp → Option ToolCallRecord
  | gateway (.logToolCall sid' record) => if sid' = sid then some record else none
  | shared (.sessions (.logToolCall sid' record _)) => if sid' = sid then some record else none
  | _ => none

/-- The session of a task. -/
def Task.sessionId? : Task → Option String
  | message _ sessionId _ => sessionId
  | shared _ => none

/-- The tool calls that have been forwarded under a session, each with the task that made it. -/
def forwardedUnder (tasks : ℕ → Task) (sid : String) (h : History) : List (ℕ × Value) :=
  (tagged (fun ev => ev.1.forwarded?) h).filter fun call =>
    decide ((tasks call.1).sessionId? = some sid)

/-- The tasks whose access to the context of their tool has been checked under the session, and which
have not forwarded a tool call. -/
def checkedOnly (sid : String) (h : History) : List ℕ :=
  ((tagged (fun ev => ev.1.checked?) h).filter fun check => decide (check.2 = sid)).map Prod.fst
    |>.filter fun i => decide (i ∉ (tagged (fun ev => ev.1.forwarded?) h).map Prod.fst)

theorem eq_forwardRequest_of_forwarded? {op : ServerOp} {P : Value}
    (hop : op.forwarded? = some P) : ∃ server id,
      op = .gateway (.forwardRequest server (.request id methodToolsCall (some P))) := by
  unfold ServerOp.forwarded? at hop
  split at hop
  · next server id method P' =>
    split_ifs at hop with hmethod
    obtain rfl := Option.some.inj hop
    exact ⟨server, id, by rw [hmethod]⟩
  · cases hop

/-- A task forwards at most one tool call. -/
theorem forwards_at_most_once {tr : List (Event ServerOp.Reply)}
    {q : Prog ServerOp ServerOp.Reply TaskOutcome} {task : Task}
    (hsteps : Steps (task.program router) tr q) :
    (tr.filterMap fun ev => ev.1.forwarded?).length ≤ 1 := by
  cases Task.at_of_steps hsteps with
  | @message enforcer sessionId m gtr p hrun =>
    rw [List.filterMap_map]
    refine (handleMessage_spec router enforcer sessionId m).filterMap_length_le
      (fun gtr op r hmay hop => ?_) hrun
    obtain ⟨P, hP⟩ := Option.ne_none_iff_exists'.mp hop
    obtain ⟨server, id, heq⟩ := eq_forwardRequest_of_forwarded? hP
    obtain rfl := ServerOp.gateway.inj heq
    rw [List.filterMap_eq_nil_iff]
    rintro ⟨op', r'⟩ hmem
    by_contra hsome
    obtain ⟨P', hP'⟩ := Option.ne_none_iff_exists'.mp hsome
    obtain ⟨server', id', heq'⟩ := eq_forwardRequest_of_forwarded? hP'
    obtain rfl := ServerOp.gateway.inj heq'
    exact hmay.1 _ hmem trivial
  | waiting => exact Nat.zero_le _
  | answered r => exact Nat.zero_le _

theorem nodup_forwardedUnder {sid : String} (hrun : TasksRun router tasks s h Q s') :
    ((forwardedUnder tasks sid h).map Prod.fst).Nodup :=
  (nodup_tagged fun i => forwards_at_most_once (hrun.thread i)).sublist
    (List.filter_sublist.map Prod.fst)

/-- A tool call that is forwarded under a session is in the history. -/
theorem exists_of_forwardedUnder {sid : String} {P : Value}
    (hmem : (i, P) ∈ forwardedUnder tasks sid h) :
    (tasks i).sessionId? = some sid ∧ ∃ server id reply h₁ h₂, h = h₁ ++
      (i, ⟨.gateway (.forwardRequest server (.request id methodToolsCall (some P))), reply⟩) ::
        h₂ := by
  obtain ⟨htagged, hsid⟩ := List.mem_filter.mp hmem
  obtain ⟨⟨op, reply⟩, hev, hop⟩ := mem_tagged.mp htagged
  obtain ⟨server, id, rfl⟩ := eq_forwardRequest_of_forwarded? hop
  obtain ⟨h₁, h₂, heq⟩ := List.append_of_mem (mem_callsOf.mp hev)
  exact ⟨of_decide_eq_true hsid, server, id, reply, h₁, h₂, heq⟩

/-! ## Locks -/

/-- The call neither ends the session nor makes another one of its id. -/
def ServerOp.KeepsSession (sid : String) : ServerOp → Prop
  | shared (.sessions (.terminateSession sid')) => sid' ≠ sid
  | shared (.sessions (.createSession _ uuid _ _)) => uuid ≠ sid
  | _ => True

/-- The call keeps the session and its lock. -/
def ServerOp.KeepsLock (sid : String) : ServerOp → Prop
  | shared (.sessions op) => InMemorySessionManager.KeepsLock sid op
  | _ => True

theorem LockedOpenly.step {sid : String} {op : ServerOp} {r : op.Reply}
    (hserve : Shared.serve s op r s') (hkeeps : op.KeepsLock sid)
    (hlocked : LockedOpenly s.sessions sid) : LockedOpenly s'.sessions sid := by
  obtain ⟨locked, hlock, hvis⟩ := hlocked
  have hstep : ∀ {op : SessionOp}, InMemorySessionManager.KeepsLock sid op →
      LockedOpenly (sessionMachine.step s.sessions op).2 sid := fun hop =>
    ⟨locked, InMemorySessionManager.lockOf_step_iff.mpr (.inl ⟨hlock, hop⟩), hvis⟩
  cases op with
  | gateway op =>
    cases op with
    | logToolCall sid' record =>
      obtain ⟨now, -, rfl⟩ := hserve
      have hkeeps : InMemorySessionManager.KeepsLock sid (.logToolCall sid' record now) :=
        ⟨not_false, by simp [SessionOp.created?]⟩
      exact hstep hkeeps
    | lookupAny | listTools | checkContextAccess | publishAuditEvent =>
      obtain ⟨-, rfl⟩ := hserve
      exact ⟨locked, hlock, hvis⟩
    | _ =>
      obtain rfl : s' = s := hserve
      exact ⟨locked, hlock, hvis⟩
  | shared op =>
    cases op with
    | sessions op =>
      obtain ⟨-, rfl⟩ := hserve
      exact hstep hkeeps
    | registry | drain =>
      obtain ⟨-, rfl⟩ := hserve
      exact ⟨locked, hlock, hvis⟩

/-- While a session stays locked to a context that is not private, every check of a tool is a
denial. -/
theorem denied_while_locked {sid toolName : String}
    {access : Except SessionError AccessCheckResult}
    (hserves : Serves Shared.serve s (h.map Prod.snd) s') (hlocked : LockedOpenly s.sessions sid)
    (hkeeps : ∀ entry ∈ h, entry.2.1.KeepsLock sid)
    (hmem : (i, ⟨.gateway (.checkContextAccess sid (toolContext toolName)), access⟩) ∈ h) :
    ∃ reason lockedTo, access = .ok (.deny reason lockedTo) := by
  obtain ⟨h₁, h₂, s₁, rfl, hbefore, s₂, hanswer, -⟩ := atMoment_of_mem hserves hmem
  have hstill : LockedOpenly s₁.sessions sid := by
    refine hbefore.invariant (I := fun s => LockedOpenly s.sessions sid)
      (P := fun ev => ev.1.KeepsLock sid) hlocked (fun ev hev => ?_)
      fun s op r s' hserve hop hs => hs.step hserve hop
    obtain ⟨entry, hentry, rfl⟩ := List.mem_map.mp hev
    exact hkeeps entry (List.mem_append_left _ hentry)
  by_contra hallowed
  refine not_lockedOpenly_of_access toolName (fun reason lockedTo hdeny => ?_) hstill
  exact hallowed ⟨reason, lockedTo, hanswer.trans hdeny⟩

/-- While a session stays locked to a context that is not private, the only tool calls that are
forwarded under it are those that had been checked, and not yet forwarded, when it was locked; each
of them is forwarded once. -/
theorem lock_keeps_back {sid : String} {P : ℕ → Prog ServerOp ServerOp.Reply TaskOutcome}
    {s₁ : Shared} (hcfg : router.sessions = true) (hbefore : TasksRun router tasks s h P s₁)
    (hafter : Interleaves Shared.serve P s₁ h' Q s') (hlocked : LockedOpenly s₁.sessions sid)
    (hkeeps : ∀ entry ∈ h', entry.2.1.KeepsLock sid) :
    ((forwardedUnder tasks sid h').map Prod.fst).Subperm (checkedOnly sid h) := by
  have hrun : TasksRun router tasks s (h ++ h') Q s' := hbefore.trans hafter
  have hnodup := nodup_tagged fun i => forwards_at_most_once (hrun.thread i)
  rw [tagged_append, List.map_append, List.nodup_append] at hnodup
  obtain ⟨-, hnodup, hdisjoint⟩ := hnodup
  refine List.subperm_of_subset (hnodup.sublist (List.filter_sublist.map Prod.fst)) ?_
  intro i hi
  obtain ⟨⟨j, params⟩, hmem, rfl⟩ := List.mem_map.mp hi
  obtain ⟨hsid, server, id, reply, h₁, h₂, heq⟩ := exists_of_forwardedUnder hmem
  rw [heq, ← List.append_assoc] at hrun
  obtain ⟨enforcer, sessionId, message, gtr, k, htask, hcalls, hsteps⟩ := handler_of_call hrun
  rw [htask] at hsid
  obtain rfl : sessionId = some sid := hsid
  obtain ⟨-, toolName, entry, -, hcleared⟩ := cleared_of_steps hsteps
  obtain ⟨access, haccess, hallowed⟩ := hcleared.session sid hcfg rfl
  have hcheck : (j, (⟨.gateway (.checkContextAccess sid (toolContext toolName)), access⟩ :
      Event ServerOp.Reply)) ∈ h := by
    have hmem := mem_callsOf.mp (hcalls ▸ mem_map_handlerEvent haccess)
    refine (List.mem_append.mp hmem).resolve_right fun hlate => ?_
    have hlate : _ ∈ h' := heq ▸ List.mem_append_left _ hlate
    obtain ⟨reason, lockedTo, hdeny⟩ := denied_while_locked hafter.served hlocked hkeeps hlate
    exact hallowed reason lockedTo hdeny
  have hchecked : (j, sid) ∈ tagged (fun ev => ev.1.checked?) h :=
    mem_tagged.mpr ⟨_, mem_callsOf.mpr hcheck, rfl⟩
  refine List.mem_filter.mpr ⟨List.mem_map.mpr ⟨(j, sid), ?_, rfl⟩, decide_eq_true fun hold => ?_⟩
  · exact List.mem_filter.mpr ⟨hchecked, decide_eq_true rfl⟩
  · exact hdisjoint j hold j (List.mem_map.mpr ⟨_, List.mem_of_mem_filter hmem, rfl⟩) rfl

/-- A tool call that has been checked before the session is locked is forwarded afterwards. -/
theorem lock_keeps_back_echo :
    ∃ h' Q s', Interleaves Shared.serve (echoRun [0, 0, 0, 0, 0, 1]).2.1
        (echoRun [0, 0, 0, 0, 0, 1]).2.2 h' Q s' ∧
      (forwardedUnder echoTasks "s" h').map Prod.fst = [0] ∧
      ((forwardedUnder echoTasks "s" h').map Prod.fst).Subperm
        (checkedOnly "s" (echoRun [0, 0, 0, 0, 0, 1]).1) := by
  have hafter := interleaves_runSchedule (Shared.serve_answer openComponents)
    (echoRun [0, 0, 0, 0, 0, 1]).2.1 (echoRun [0, 0, 0, 0, 0, 1]).2.2 [0, 0, 0]
  refine ⟨_, _, _, hafter, rfl, ?_⟩
  refine lock_keeps_back rfl (tasksRun_echoRun [0, 0, 0, 0, 0, 1]) hafter ⟨_, rfl, by decide⟩ ?_
  exact List.forall_iff_forall_mem.mp ⟨trivial, trivial, trivial⟩

/-! ## The log of a session -/

theorem InMemorySessionManager.toolCalls_step {M : InMemorySessionManager} {op : SessionOp}
    {sid : String} {session : Session} (hsession : M.getSession sid = some session)
    (hkeeps : (ServerOp.shared (.sessions op)).KeepsSession sid) :
    ∃ session', (sessionMachine.step M op).2.getSession sid = some session' ∧
      session'.toolCalls =
        session.toolCalls ++ ((ServerOp.shared (.sessions op)).logged? sid).toList := by
  cases op with
  | createSession principal uuid created active =>
    refine ⟨session, ?_, (List.append_nil _).symm⟩
    show (M.createSession principal uuid created active).2.getSession sid = _
    rw [getSession_createSession, if_neg (Ne.symm hkeeps), hsession]
  | terminateSession sid' =>
    refine ⟨session, ?_, (List.append_nil _).symm⟩
    show (M.terminateSession sid').getSession sid = _
    rw [getSession_terminateSession, if_neg (Ne.symm hkeeps), hsession]
  | lockContext sid' scope now =>
    show ∃ session', (M.lockContext sid' scope now).2.getSession sid = some session' ∧ _
    rw [getSession_lockContext, hsession]
    split_ifs
    · exact ⟨_, rfl, (List.append_nil _).symm⟩
    · exact ⟨_, rfl, (List.append_nil _).symm⟩
  | logToolCall sid' record now =>
    show ∃ session', (M.logToolCall sid' record now).2.getSession sid = some session' ∧ _
    rw [getSession_logToolCall, hsession]
    by_cases hsid : sid = sid'
    · subst hsid
      exact ⟨_, if_pos rfl, by simp [ServerOp.logged?]⟩
    · exact ⟨session, if_neg hsid, by simp [ServerOp.logged?, Ne.symm hsid]⟩
  | getSession | checkContextAccess =>
    exact ⟨session, hsession, (List.append_nil _).symm⟩

/-- A call that keeps a session adds at most its own record to the log of the session. -/
theorem toolCalls_serve {sid : String} {op : ServerOp} {r : op.Reply} {session : Session}
    (hserve : Shared.serve s op r s') (hkeeps : op.KeepsSession sid)
    (hsession : s.sessions.getSession sid = some session) :
    ∃ session', s'.sessions.getSession sid = some session' ∧
      session'.toolCalls = session.toolCalls ++ (op.logged? sid).toList := by
  have hsame : ∃ session', s.sessions.getSession sid = some session' ∧
      session'.toolCalls = session.toolCalls ++ [] := ⟨session, hsession, (List.append_nil _).symm⟩
  cases op with
  | gateway op =>
    cases op with
    | logToolCall sid' record =>
      obtain ⟨now, -, rfl⟩ := hserve
      have hkept : (ServerOp.shared (.sessions (.logToolCall sid' record now))).KeepsSession sid :=
        trivial
      exact InMemorySessionManager.toolCalls_step hsession hkept
    | lookupAny | listTools | checkContextAccess | publishAuditEvent =>
      obtain ⟨-, rfl⟩ := hserve
      exact hsame
    | _ =>
      obtain rfl : s' = s := hserve
      exact hsame
  | shared op =>
    cases op with
    | sessions op =>
      obtain ⟨-, rfl⟩ := hserve
      exact InMemorySessionManager.toolCalls_step hsession hkeeps
    | registry | drain =>
      obtain ⟨-, rfl⟩ := hserve
      exact hsame

/-- The log of a session that is kept grows by the records of the calls, in their order. -/
theorem toolCalls_serves {sid : String} {session : Session}
    (hserves : Serves Shared.serve s (h.map Prod.snd) s')
    (hkeeps : ∀ entry ∈ h, entry.2.1.KeepsSession sid)
    (hsession : s.sessions.getSession sid = some session) :
    ∃ session', s'.sessions.getSession sid = some session' ∧ session'.toolCalls =
      session.toolCalls ++ (tagged (fun ev => ev.1.logged? sid) h).map Prod.snd := by
  induction h generalizing s session with
  | nil =>
    obtain rfl := serves_nil_iff.mp hserves
    exact ⟨session, hsession, (List.append_nil _).symm⟩
  | cons entry h ih =>
    obtain ⟨i, op, r⟩ := entry
    obtain ⟨hop, hrest⟩ := List.forall_mem_cons.mp hkeeps
    obtain ⟨s₁, hserve, hserves⟩ := serves_cons_iff.mp hserves
    obtain ⟨session₁, hsession₁, hfirst⟩ := toolCalls_serve hserve hop hsession
    obtain ⟨session', hsession', hlater⟩ := ih hserves hrest hsession₁
    refine ⟨session', hsession', ?_⟩
    rw [hlater, hfirst, List.append_assoc, map_snd_tagged, map_snd_tagged, List.map_cons]
    cases hlogged : op.logged? sid <;> simp [hlogged]

/-- What the log of a session says about a call. -/
def ToolCallRecord.described (record : ToolCallRecord) : Option String × Value :=
  (some record.toolName, record.arguments)

/-- What the parameters of a tool call say about it. -/
def describedCall (P : Value) : Option String × Value := ((P.get "name").bind Value.asStr, argumentsOf P)

/-- The log of a session misses no tool call.  Whatever the tasks are and however they are
interleaved, as long as the session is kept its log only grows, and the tool calls forwarded under
the session are, with their arguments, among the records that have been added, each with a record
of its own. -/
theorem log_complete {sid : String} {session : Session} (hcfg : router.sessions = true)
    (hrun : TasksRun router tasks s h Q s') (hsession : s.sessions.getSession sid = some session)
    (hkeeps : ∀ entry ∈ h, entry.2.1.KeepsSession sid) :
    ∃ session' records, s'.sessions.getSession sid = some session' ∧
      session'.toolCalls = session.toolCalls ++ records ∧
      ((forwardedUnder tasks sid h).map fun call => describedCall call.2).Subperm
        (records.map ToolCallRecord.described) := by
  obtain ⟨session', hsession', hlog⟩ := toolCalls_serves hrun.served hkeeps hsession
  refine ⟨session', _, hsession', hlog, ?_⟩
  -- a forwarded call and its record are compared together with the task that made them
  have hnodup : ((forwardedUnder tasks sid h).map fun call => (call.1, describedCall call.2)).Nodup := by
    refine List.Nodup.of_map Prod.fst ?_
    rw [List.map_map]
    exact nodup_forwardedUnder hrun
  have hsubset : ((forwardedUnder tasks sid h).map fun call => (call.1, describedCall call.2)) ⊆
      (tagged (fun ev => ev.1.logged? sid) h).map fun entry => (entry.1, entry.2.described) := by
    intro entry hentry
    obtain ⟨⟨i, P⟩, hmem, rfl⟩ := List.mem_map.mp hentry
    obtain ⟨hsid, server, id, reply, h₁, h₂, rfl⟩ := exists_of_forwardedUnder hmem
    obtain ⟨enforcer, sessionId, message, toolName, htask, hgates⟩ := passedGates_of_call hrun
    rw [htask] at hsid
    obtain ⟨timestamp, logged, hlogged⟩ := hgates.logged sid hcfg hsid
    refine List.mem_map.mpr ⟨(i, { toolName, arguments := argumentsOf P, timestamp }), ?_, ?_⟩
    · refine mem_tagged.mpr ⟨_, mem_callsOf.mpr (List.mem_append_left _ hlogged), ?_⟩
      simp [ServerOp.logged?]
    · simp [ToolCallRecord.described, describedCall, hgates.name]
  obtain ⟨sub, hperm, hsub⟩ := List.subperm_of_subset hnodup hsubset
  have hdrop : List.Subperm (List.map Prod.snd _) (List.map Prod.snd _) :=
    ⟨sub.map Prod.snd, hperm.map Prod.snd, hsub.map Prod.snd⟩
  rw [List.map_map, List.map_map] at hdrop
  rwa [List.map_map]

theorem log_complete_echo : ∃ session' records,
    (echoRun [0, 0, 0, 0, 0, 1, 0, 0, 0]).2.2.sessions.getSession "s" = some session' ∧
      session'.toolCalls = [] ++ records ∧
      ((forwardedUnder echoTasks "s" (echoRun [0, 0, 0, 0, 0, 1, 0, 0, 0]).1).map
        fun call => describedCall call.2).Subperm (records.map ToolCallRecord.described) := by
  have hkeeps : ∀ entry ∈ (echoRun [0, 0, 0, 0, 0, 1, 0, 0, 0]).1, entry.2.1.KeepsSession "s" :=
    List.forall_iff_forall_mem.mp
      ⟨trivial, trivial, trivial, trivial, trivial, trivial, trivial, trivial, trivial⟩
  have hsession : echoShared.sessions.getSession "s" =
      some (InMemorySessionManager.new.createSession none "s" 0 0).1 := rfl
  exact log_complete rfl (tasksRun_echoRun [0, 0, 0, 0, 0, 1, 0, 0, 0]) hsession hkeeps

/-! ## The audit log -/

/-- The audit event that a call publishes. -/
def ServerOp.published? : ServerOp → Option AuditEvent
  | gateway op => op.published?
  | shared _ => none

/-- The events that a call takes out of the audit log. -/
def drainedBy : Event ServerOp.Reply → List AuditEvent
  | ⟨.shared .drain, events⟩ => events
  | _ => []

/-- The audit log is a queue: handlers put events in, readers take all of them out. -/
theorem audit_serve {op : ServerOp} {r : op.Reply} (hserve : Shared.serve s op r s') :
    drainedBy ⟨op, r⟩ ++ s'.audit.buffer = s.audit.buffer ++ op.published?.toList := by
  cases op with
  | gateway op =>
    cases op with
    | logToolCall sid' record =>
      obtain ⟨now, -, rfl⟩ := hserve
      exact (List.append_nil _).symm
    | publishAuditEvent event =>
      obtain ⟨-, rfl⟩ := hserve
      rfl
    | lookupAny | listTools | checkContextAccess =>
      obtain ⟨-, rfl⟩ := hserve
      exact (List.append_nil _).symm
    | _ =>
      obtain rfl : s' = s := hserve
      exact (List.append_nil _).symm
  | shared op =>
    cases op with
    | registry | sessions =>
      obtain ⟨-, rfl⟩ := hserve
      exact (List.append_nil _).symm
    | drain =>
      obtain ⟨rfl, rfl⟩ := hserve
      rfl

theorem filterMap_published_handler (gtr : GatewayTrace) :
    ((gtr.map handlerEvent).filterMap fun ev => ev.1.published?) = published gtr := by
  rw [List.filterMap_map]
  rfl

/-- What a task has published so far: one event that describes its message, once that has been
handled, and nothing before. -/
theorem published_task (hcfg : router.auditProducer = true) {task : Task}
    {tr : List (Event ServerOp.Reply)} {q : Prog ServerOp ServerOp.Reply TaskOutcome}
    (hsteps : Steps (task.program router) tr q) :
    (tr.filterMap (fun ev => ev.1.published?) = [] ∧ ∀ r, q ≠ .done (some r)) ∨
      ∃ enforcer sessionId message r event, task = .message enforcer sessionId message ∧
        q = .done (some r) ∧ tr.filterMap (fun ev => ev.1.published?) = [event] ∧
        Describes enforcer sessionId message.processed r event := by
  cases Task.at_of_steps hsteps with
  | @message enforcer sessionId message gtr p hrun =>
    rw [filterMap_published_handler]
    cases p with
    | call op k =>
      have hnone := (handleMessage_publishesLast hcfg).may_of_steps hrun
      exact .inl ⟨hnone, fun r hq => by cases hq⟩
    | done r =>
      obtain ⟨event, hpublished, hdescribes⟩ :=
        (handleMessage_publishesLast hcfg).post_of_steps hrun
      rw [published_nil, List.nil_append] at hpublished
      exact .inr ⟨enforcer, sessionId, message, r, event, rfl, rfl, hpublished, hdescribes⟩
  | waiting => exact .inl ⟨rfl, fun r hq => by cases hq⟩
  | answered r => exact .inl ⟨rfl, fun r hq => by cases hq⟩

/-- The audit log has each message once.  However the tasks are interleaved, what the readers have
taken out of the log and what is left in it are the events that were there and one event for each
message that has been handled, which describes that message and its outcome. -/
theorem audit_exactly_once (hcfg : router.auditProducer = true)
    (hrun : TasksRun router tasks s h Q s') :
    ∃ entries : List (ℕ × AuditEvent),
      (h.map Prod.snd).flatMap drainedBy ++ s'.audit.buffer =
        s.audit.buffer ++ entries.map Prod.snd ∧
      (entries.map Prod.fst).Nodup ∧
      (∀ i, i ∈ entries.map Prod.fst ↔ ∃ r, Q i = .done (some r)) ∧
      ∀ i event, (i, event) ∈ entries → ∃ enforcer sessionId message r,
        tasks i = .message enforcer sessionId message ∧ Q i = .done (some r) ∧
          Describes enforcer sessionId message.processed r event := by
  refine ⟨tagged (fun ev => ev.1.published?) h, ?_, ?_, fun i => ?_, fun i event hmem => ?_⟩
  · have hqueue := hrun.served.conserves (fun s => s.audit.buffer) drainedBy
      (fun ev => ev.1.published?.toList) fun _ _ _ _ hserve => audit_serve hserve
    rw [hqueue, map_snd_tagged, List.filterMap_eq_flatMap_toList]
  · refine nodup_tagged fun i => ?_
    rcases published_task hcfg (hrun.thread i) with ⟨hnone, -⟩ | ⟨_, _, _, _, event, -, -, hone, -⟩
    · rw [hnone]
      exact Nat.zero_le _
    · rw [hone]
      exact le_refl _
  · rcases published_task hcfg (hrun.thread i) with ⟨hnone, hnot⟩ |
      ⟨_, _, _, r, event, -, hq, hone, -⟩
    · refine iff_of_false (fun hmem => ?_) fun ⟨r, hq⟩ => hnot r hq
      rw [← List.count_pos_iff, count_tagged, hnone] at hmem
      exact absurd hmem (Nat.lt_irrefl 0)
    · refine iff_of_true ?_ ⟨r, hq⟩
      rw [← List.count_pos_iff, count_tagged, hone]
      exact Nat.one_pos
  · obtain ⟨ev, hev, hpublished⟩ := mem_tagged.mp hmem
    have hmem : event ∈ (callsOf i h).filterMap fun ev => ev.1.published? :=
      List.mem_filterMap.mpr ⟨ev, hev, hpublished⟩
    rcases published_task hcfg (hrun.thread i) with ⟨hnone, -⟩ |
      ⟨enforcer, sessionId, message, r, event', htask, hq, hone, hdescribes⟩
    · rw [hnone] at hmem
      exact absurd hmem List.not_mem_nil
    · rw [hone] at hmem
      obtain rfl := List.mem_singleton.mp hmem
      exact ⟨enforcer, sessionId, message, r, htask, hq, hdescribes⟩

theorem audit_exactly_once_echo : ∃ entries : List (ℕ × AuditEvent),
    ((echoRun (2 :: List.replicate 20 0)).1.map Prod.snd).flatMap drainedBy ++
        (echoRun (2 :: List.replicate 20 0)).2.2.audit.buffer = [] ++ entries.map Prod.snd ∧
      (entries.map Prod.fst).Nodup ∧
      (∀ i, i ∈ entries.map Prod.fst ↔ ∃ r, (echoRun (2 :: List.replicate 20 0)).2.1 i = .done (some r)) ∧
      ∀ i event, (i, event) ∈ entries → ∃ enforcer sessionId message r,
        echoTasks i = .message enforcer sessionId message ∧
          (echoRun (2 :: List.replicate 20 0)).2.1 i = .done (some r) ∧
          Describes enforcer sessionId message.processed r event :=
  audit_exactly_once rfl (tasksRun_echoRun (2 :: List.replicate 20 0))

end Runs

end McpShield
