import McpShield.Gateway.Mediation

/-!
# Session locks over whole runs

Tool calls handled under one session, among the calls of everyone on the session manager.  The
router asks whether the session may access the context of the tool, but it never locks the session,
and it presents every context as private: the only locks that keep a call back are those on a
context that is not private.
-/

open Effect Effect.Prog

namespace McpShield

/-- A `tools/call` request handled under a session, with the calls the router makes for it. -/
structure Turn where
  enforcer : ScopeEnforcer
  id : RequestId
  params : Value
  toolName : String
  name : (params.get "name").bind Value.asStr = some toolName
  tr : GatewayTrace

/-- The namespace prefix of the called tool. -/
def Turn.pfx (t : Turn) : String := (toolContext t.toolName).identifier

/-- The request is sent to an upstream server. -/
def Turn.Forwarded (router : McpRouter) (sid : String) (t : Turn) : Prop :=
  ∃ (server : String) (k : Continuation),
    Steps (handleMessage router t.enforcer (some sid)
        (.request t.id methodToolsCall (some t.params))) t.tr
      (.call (.forwardRequest server (.request t.id methodToolsCall (some t.params))) k)

/-- What happens to the session manager: a call on it by anyone, or the access check of a request
under the session. -/
inductive SessionStep where
  | call (op : SessionOp)
  | turn (t : Turn)

/-- The session manager after some steps; an access check does not change it. -/
def stateAfter (M : InMemorySessionManager) : List SessionStep → InMemorySessionManager
  | [] => M
  | .call op :: steps => stateAfter (sessionMachine.step M op).2 steps
  | .turn _ :: steps => stateAfter M steps

/-- Requests under a session that is known and is not terminated, each checked by the session
manager as it is at that moment. -/
structure SessionRun (sid : String) (M : InMemorySessionManager) (steps : List SessionStep) :
    Prop where
  known : (M.getSession sid).isSome
  alive : SessionStep.call (.terminateSession sid) ∉ steps
  answered : ∀ pre t post, steps = pre ++ .turn t :: post → ∀ scope access,
    ⟨.checkContextAccess sid scope, access⟩ ∈ t.tr →
      access = (stateAfter M pre).checkContextAccess sid scope

/-- The session is locked to a context that is not private. -/
def LockedOpenly (M : InMemorySessionManager) (sid : String) : Prop :=
  ∃ locked, M.lockOf sid = some locked ∧ locked.visibility ≠ .private

section Run

variable {router : McpRouter} {sid : String} {M : InMemorySessionManager}
  {steps : List SessionStep}

/-- A lock on a context that is not private keeps every tool call back. -/
theorem SessionRun.not_lockedOpenly (hrun : SessionRun sid M steps) (hr : router.sessions = true)
    {pre : List SessionStep} {t : Turn} {post : List SessionStep}
    (hsplit : steps = pre ++ .turn t :: post) (ht : t.Forwarded router sid) :
    ¬ LockedOpenly (stateAfter M pre) sid := by
  obtain ⟨server, k, hsteps⟩ := ht
  obtain ⟨-, toolName, entry, -, hcleared⟩ := cleared_of_steps hsteps
  obtain ⟨access, hmem, hallowed⟩ := hcleared.session sid hr rfl
  have haccess := hrun.answered pre t post hsplit _ _ hmem
  rintro ⟨locked, hlock, hvis⟩
  have hdeny : ∃ reason lockedTo, (stateAfter M pre).checkContextAccess sid
      (toolContext toolName) = .ok (.deny reason lockedTo) :=
    InMemorySessionManager.checkContextAccess_deny_iff.mpr ⟨locked, hlock, hvis⟩
  obtain ⟨reason, lockedTo, hdeny⟩ := hdeny
  exact hallowed reason lockedTo (haccess.trans hdeny)

/-- If the requests made while the session is not locked to a context that is not private all name
tools of one prefix, then all requests forwarded in the run are for tools of one prefix. -/
theorem SessionRun.one_prefix (hrun : SessionRun sid M steps) (hr : router.sessions = true)
    (hsame : ∀ pre t₁ mid t₂ post, steps = pre ++ .turn t₁ :: (mid ++ .turn t₂ :: post) →
      ¬ LockedOpenly (stateAfter M pre) sid →
      ¬ LockedOpenly (stateAfter M (pre ++ .turn t₁ :: mid)) sid → t₁.pfx = t₂.pfx)
    {pre : List SessionStep} {t₁ : Turn} {mid : List SessionStep} {t₂ : Turn}
    {post : List SessionStep} (hsplit : steps = pre ++ .turn t₁ :: (mid ++ .turn t₂ :: post))
    (h₁ : t₁.Forwarded router sid) (h₂ : t₂.Forwarded router sid) : t₁.pfx = t₂.pfx := by
  have hsplit' : steps = (pre ++ .turn t₁ :: mid) ++ .turn t₂ :: post := by simp [hsplit]
  exact hsame pre t₁ mid t₂ post hsplit (hrun.not_lockedOpenly hr hsplit h₁)
    (hrun.not_lockedOpenly hr hsplit' h₂)

end Run

/-! ## A session that changes its context -/

/-- A router with a session manager and no other optional component. -/
def sessionRouter : McpRouter := { plainRouter with sessions := true }

/-- The echo tool of another namespace. -/
def otherTool : Tool := { echoTool with name := "org.other:echo" }

/-- Open components with both tools and a given session manager. -/
def sessionComponents (M : InMemorySessionManager) : Components :=
  { openComponents with
    registry := (echoRegistry.registerTool otherTool "other" 0).2
    sessions := M }

/-- The session manager with the one session `s`. -/
def oneSession : InMemorySessionManager :=
  (InMemorySessionManager.new.createSession none "s" 0 0).2

/-- The call of a tool without arguments, while the session manager is `M`. -/
def callOf (M : InMemorySessionManager) (toolName : String) : Turn where
  enforcer := .new [scopeToolsCall]
  id := .integer 1
  params := .object [("name", .string toolName)]
  toolName := toolName
  name := rfl
  tr := (stepWith (sessionComponents M).answer 5 (handleMessage sessionRouter
    (.new [scopeToolsCall]) (some "s") (.request (.integer 1) methodToolsCall
      (some (.object [("name", .string toolName)]))))).1

/-- The record of a call. -/
def recordOf (toolName : String) : SessionOp :=
  .logToolCall "s" { toolName, arguments := .emptyObject, timestamp := 0 } 0

theorem callOf_forwarded (M : InMemorySessionManager) (toolName : String) (server : String)
    (hrun : ∃ k : Continuation, (stepWith (sessionComponents M).answer 5 (handleMessage
      sessionRouter (.new [scopeToolsCall]) (some "s") (.request (.integer 1) methodToolsCall
        (some (.object [("name", .string toolName)]))))).2 =
      .call (.forwardRequest server (.request (.integer 1) methodToolsCall
        (some (.object [("name", .string toolName)])))) k) :
    (callOf M toolName).Forwarded sessionRouter "s" := by
  obtain ⟨k, hk⟩ := hrun
  exact ⟨server, k, hk ▸ steps_stepWith _ _ _⟩

/-- Two calls, each recorded before the next. -/
def twoCalls (first second : String) : List SessionStep :=
  [.turn (callOf oneSession first), .call (recordOf first),
    .turn (callOf (sessionMachine.step oneSession (recordOf first)).2 second)]

theorem sessionRun_twoCalls (first second : String) :
    SessionRun "s" oneSession (twoCalls first second) where
  known := rfl
  alive := by simp [twoCalls, recordOf]
  answered pre t post hsplit scope access hmem := by
    match pre, hsplit with
    | [], hsplit =>
      obtain rfl := SessionStep.turn.inj (List.cons.inj hsplit).1
      exact eq_answer_of_mem_stepWith hmem
    | [_], hsplit => simp [twoCalls] at hsplit
    | [_, _], hsplit =>
      simp only [twoCalls, List.cons_append, List.nil_append, List.cons.injEq] at hsplit
      obtain ⟨rfl, rfl, hturn, -⟩ := hsplit
      obtain rfl := SessionStep.turn.inj hturn
      exact eq_answer_of_mem_stepWith hmem
    | _ :: _ :: _ :: _, hsplit => simp [twoCalls] at hsplit

/-- The prefix of every call of the run, if both tools have it. -/
theorem pfx_of_mem_twoCalls {first second pfx : String} (h₁ : Str.before first ':' = pfx)
    (h₂ : Str.before second ':' = pfx) {t : Turn} (ht : .turn t ∈ twoCalls first second) :
    t.pfx = pfx := by
  simp only [twoCalls, List.mem_cons, SessionStep.turn.injEq, reduceCtorEq, List.not_mem_nil,
    or_false, false_or] at ht
  rcases ht with rfl | rfl
  · exact h₁
  · exact h₂

/-- Two calls of one tool. -/
theorem one_prefix_echo :
    (callOf oneSession "com.example:echo").pfx =
      (callOf (sessionMachine.step oneSession (recordOf "com.example:echo")).2
        "com.example:echo").pfx := by
  have hsplit : twoCalls "com.example:echo" "com.example:echo" = [] ++
      .turn (callOf oneSession "com.example:echo") :: ([.call (recordOf "com.example:echo")] ++
        .turn (callOf (sessionMachine.step oneSession (recordOf "com.example:echo")).2
          "com.example:echo") :: []) := rfl
  have hsessions : sessionRouter.sessions = true := rfl
  refine SessionRun.one_prefix (sessionRun_twoCalls "com.example:echo" "com.example:echo")
    hsessions (fun pre t₁ mid t₂ post h _ _ => ?_) hsplit
    (callOf_forwarded _ _ "echo" ⟨_, rfl⟩) (callOf_forwarded _ _ "echo" ⟨_, rfl⟩)
  have hpfx : Str.before "com.example:echo" ':' = "com.example" := by decide
  rw [pfx_of_mem_twoCalls hpfx hpfx (h ▸ by simp), pfx_of_mem_twoCalls hpfx hpfx (h ▸ by simp)]

/-- Calls of two namespaces are both forwarded. -/
theorem two_prefixes_forwarded :
    SessionRun "s" oneSession (twoCalls "com.example:echo" "org.other:echo") ∧
      (callOf oneSession "com.example:echo").Forwarded sessionRouter "s" ∧
      (callOf (sessionMachine.step oneSession (recordOf "com.example:echo")).2
        "org.other:echo").Forwarded sessionRouter "s" ∧
      (callOf oneSession "com.example:echo").pfx ≠
        (callOf (sessionMachine.step oneSession (recordOf "com.example:echo")).2
          "org.other:echo").pfx :=
  ⟨sessionRun_twoCalls _ _, callOf_forwarded _ _ "echo" ⟨_, rfl⟩,
    callOf_forwarded _ _ "other" ⟨_, rfl⟩, by decide⟩

end McpShield
