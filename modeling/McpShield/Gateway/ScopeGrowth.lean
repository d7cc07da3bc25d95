import McpShield.Gateway.Audit
import McpShield.Lib.TwoRuns

/-!
# More scopes

A client with more scopes may do more.  Without an authorizer the scopes are looked at in the two
scope checks and nowhere else, so whatever a client is given is given to one with more scopes too.
-/

open Effect Effect.Prog

namespace McpShield

/-! ## The checks -/

namespace ScopeEnforcer

/-- Every scope that the first enforcer grants is granted by the second one. -/
def Le (E E' : ScopeEnforcer) : Prop :=
  E'.permissive = true ∨ E.permissive = false ∧ E.grantedScopes ⊆ E'.grantedScopes

variable {E E' : ScopeEnforcer}

theorem Le.has (hle : E.Le E') {scope : String} (h : E.hasScope scope = true) :
    E'.hasScope scope = true := by
  rcases hle with hp | ⟨hp, hsub⟩
  · exact hasScope_of_permissive hp scope
  · rw [hasScope, hp, Bool.false_or, List.contains_iff_mem] at h
    rw [hasScope, Bool.or_eq_true, List.contains_iff_mem]
    exact .inr (hsub h)

theorem Le.permissive (hle : E.Le E') (h : E.permissive = true) : E'.permissive = true := by
  rcases hle with hp | ⟨hp, -⟩
  · exact hp
  · exact absurd (h.symm.trans hp) Bool.noConfusion

/-- One of two scopes is granted. -/
theorem Le.either (hle : E.Le E') {scope : String} {b b' : Bool} (hb : b = true → b' = true)
    (h : (b || E.hasScope scope) = true) : (b' || E'.hasScope scope) = true := by
  rw [Bool.or_eq_true] at h ⊢
  exact h.imp hb hle.has

/-- The outcome of a check is no worse. -/
def Grows (x x' : Except McpError Unit) : Prop := x = .ok () → x' = .ok ()

theorem Grows.ite {c : Prop} [Decidable c] {x x' y y' : Except McpError Unit} (hx : Grows x x')
    (hy : Grows y y') : Grows (if c then x else y) (if c then x' else y') := by
  split
  · exact hx
  · exact hy

/-- A check that passes if the scopes suffice. -/
theorem Grows.scope {c c' : Bool} {x x' : Except McpError Unit} (hc : c = true → c' = true)
    (hx : Grows x x') : Grows (if c then .ok () else x) (if c' then .ok () else x') := by
  intro h
  split at h
  · next hcond => rw [if_pos (hc hcond)]
  · split
    · rfl
    · exact hx h

theorem grows_error {e : McpError} {x : Except McpError Unit} : Grows (.error e) x := nofun

theorem Le.checkMethod (hle : E.Le E') (method : String) :
    Grows (E.checkMethod method) (E'.checkMethod method) := by
  unfold ScopeEnforcer.checkMethod
  refine .scope hle.permissive (.ite (fun h => h) (.ite ?lists (.ite ?call (.ite ?read (.ite ?get
    (.ite ?sampling (.ite ?shutdown fun h => h)))))))
  case lists => exact .scope (hle.either (hle.either (hle.either hle.has))) grows_error
  case shutdown => exact .scope hle.has grows_error
  all_goals exact .scope (hle.either hle.has) grows_error

theorem Le.checkToolAccess (hle : E.Le E') (toolName : String) :
    Grows (E.checkToolAccess toolName) (E'.checkToolAccess toolName) := by
  unfold ScopeEnforcer.checkToolAccess
  refine .scope hle.permissive (.scope hle.has (.scope hle.has ?_))
  dsimp only
  split
  · exact .scope hle.has (.scope hle.has grows_error)
  · exact grows_error

end ScopeEnforcer

/-! ## The pipeline -/

section Pipeline

variable {router : McpRouter} {E E' : ScopeEnforcer} {sessionId : Option String}
  {id : RequestId} {method : String} {params : Option Value} {message : JsonRpcMessage}

/-- The scopes do not suffice for the message. -/
def ScopesRefuse (E : ScopeEnforcer) : JsonRpcMessage → Prop
  | .request _ method params => E.checkMethod method ≠ .ok () ∨
      method = methodToolsCall ∧ ∃ toolName,
        toolNameOf (params.getD .emptyObject) = .ok toolName ∧ E.checkToolAccess toolName ≠ .ok ()
  | _ => False

/-- The program is the same with more scopes, or it fails at once because the scopes do not
suffice. -/
def Grown (refused : Prop) (p p' : GatewayM JsonRpcMessage) : Prop :=
  p = p' ∨ refused ∧ ∃ msg, p.run = .done (.error (.scopeDenied msg))

theorem Grown.imp {refused refused' : Prop} {p p' : GatewayM JsonRpcMessage}
    (h : Grown refused p p') (himp : refused → refused') : Grown refused' p p' :=
  h.imp_right fun hdenied => ⟨himp hdenied.1, hdenied.2⟩

/-- A check followed by the rest of the pipeline. -/
theorem Grown.check {refused : Prop} {x x' : Except McpError Unit}
    {f f' : Unit → GatewayM JsonRpcMessage} (hx : ScopeEnforcer.Grows x x')
    (hdenies : ScopeEnforcer.DeniesScope x) (hrefused : x ≠ .ok () → refused)
    (hf : Grown refused (f ()) (f' ())) :
    Grown refused (Prog.result x >>= f) (Prog.result x' >>= f') := by
  cases x with
  | error e =>
    obtain ⟨msg, rfl⟩ := hdenies e rfl
    exact .inr ⟨hrefused nofun, msg, rfl⟩
  | ok =>
    rw [hx rfl]
    exact hf

theorem handleToolsCall_grown (hle : E.Le E') :
    Grown (∃ toolName, toolNameOf (params.getD .emptyObject) = .ok toolName ∧
        E.checkToolAccess toolName ≠ .ok ())
      (handleToolsCall router id params E sessionId)
      (handleToolsCall router id params E' sessionId) := by
  unfold handleToolsCall
  dsimp only
  cases hname : toolNameOf (params.getD .emptyObject) with
  | error e => exact .inl rfl
  | ok toolName =>
    exact .check (hle.checkToolAccess toolName) (E.deniesScope_checkToolAccess toolName)
      (fun hrefused => ⟨toolName, rfl, hrefused⟩) (.inl rfl)

theorem dispatch_grown (hle : E.Le E') :
    Grown (method = methodToolsCall ∧ ∃ toolName,
        toolNameOf (params.getD .emptyObject) = .ok toolName ∧ E.checkToolAccess toolName ≠ .ok ())
      (dispatch router id method params E sessionId)
      (dispatch router id method params E' sessionId) := by
  by_cases hcall : method = methodToolsCall
  · subst hcall
    exact (handleToolsCall_grown hle).imp fun hrefused => ⟨rfl, hrefused⟩
  · left
    unfold dispatch
    rw [if_neg hcall, if_neg hcall]

theorem route_grown (hcfg : router.authorizer = false) (hle : E.Le E') :
    Grown (ScopesRefuse E message) (route router message E sessionId)
      (route router message E' sessionId) := by
  cases message with
  | request id method params =>
    show Grown _ (handleRequest router id method params E sessionId)
      (handleRequest router id method params E' sessionId)
    unfold handleRequest
    split
    · exact .inl rfl
    · refine .check (hle.checkMethod method) (E.deniesScope_checkMethod method) .inl ?_
      unfold checkPolicy
      rw [hcfg]
      exact (dispatch_grown hle).imp .inr
  | _ => exact .inl rfl

/-! ## The audit event -/

/-- An exchange of a client with other scopes: the audit event shows them. -/
def regrant (E : ScopeEnforcer) : Event GatewayOp.Reply → Event GatewayOp.Reply
  | ⟨.publishAuditEvent event, r⟩ =>
      ⟨.publishAuditEvent { event with
        principal := E.grantedScopes.head?.or event.sessionId, scopes := E.grantedScopes }, r⟩
  | ev => ev

theorem regrant_of_not_publish {op : GatewayOp} (hop : ¬ op.IsPublish) (r : op.Reply) :
    regrant E ⟨op, r⟩ = ⟨op, r⟩ := by
  cases op with
  | publishAuditEvent event => exact absurd trivial hop
  | _ => rfl

theorem route_mirrors :
    Mirrors (regrant E') (route router message E sessionId).run
      (route router message E sessionId).run := by
  cases message with
  | request id method params =>
    exact .of_ensures (handleRequest_settled.mono_may fun _ _ hop r => regrant_of_not_publish hop r)
  | _ => exact .done _

theorem record_mirrors (result : Except McpError JsonRpcMessage) :
    Mirrors (regrant E') (record router message E sessionId result)
      (record router message E' sessionId result) := by
  refine .same (fun _ => rfl) fun duration => .same (fun _ => rfl) fun _ => ?_
  unfold publishAudit
  split
  · refine .same (fun _ => rfl) fun eventId => .same (fun _ => rfl) fun timestamp => ?_
    exact .same (fun _ => rfl) fun elapsed => .call id (fun _ => rfl) fun _ => .done _
  · exact .done _

/-- With more scopes a message is handled in the same way, unless the scopes do not suffice. -/
theorem handleMessage_grown (hcfg : router.authorizer = false) (hle : E.Le E') :
    Mirrors (regrant E') (handleMessage router E sessionId message)
        (handleMessage router E' sessionId message) ∨
      ScopesRefuse E message.processed ∧ ∃ msg,
        Ensures Quiet (fun _ r => r = .error (.scopeDenied msg))
          (handleMessage router E sessionId message) [] := by
  have hgrown : Grown _ (route router message.processed E sessionId)
      (route router message.processed E' sessionId) := route_grown hcfg hle
  rw [handleMessage_eq_processed, handleMessage_eq_processed]
  rcases hgrown with hsame | ⟨hrefused, msg, hdenied⟩
  · rw [← hsame]
    exact .inl (route_mirrors.bind record_mirrors)
  · rw [hdenied]
    exact .inr ⟨hrefused, msg, record_spec⟩

/-- More scopes never take anything away.  Without an authorizer, whatever comes of a message that
the scopes suffice for comes of it with more scopes too, from the same answers of the components:
the same calls, the same forwarded request and the same reply.  Only the audit event shows the
difference. -/
theorem more_scopes_same_run (hcfg : router.authorizer = false) (hle : E.Le E') :
    (∀ tr r, Steps (handleMessage router E sessionId message) tr (.done r) →
      (ScopesRefuse E message.processed ∧ ∃ msg, r = .error (.scopeDenied msg)) ∨
        Steps (handleMessage router E' sessionId message) (tr.map (regrant E')) (.done r)) ∧
    ∀ tr server sent k,
      Steps (handleMessage router E sessionId message) tr (.call (.forwardRequest server sent) k) →
        ∃ k', Steps (handleMessage router E' sessionId message) (tr.map (regrant E'))
          (.call (.forwardRequest server sent) k') := by
  rcases handleMessage_grown hcfg hle with hmirrors | ⟨hrefused, msg, hdenied⟩
  · constructor
    · intro tr r hrun
      obtain ⟨q, hsteps, hq⟩ := hmirrors.steps hrun
      cases hq
      exact .inr hsteps
    · intro tr server sent k hrun
      obtain ⟨q, hsteps, hq⟩ := hmirrors.steps hrun
      obtain ⟨k', rfl⟩ := hq.call_inv (.error (.internalError "")) rfl
      exact ⟨k', hsteps⟩
  · constructor
    · exact fun tr r hrun => .inl ⟨hrefused, msg, hdenied.post_of_steps hrun⟩
    · exact fun tr server sent k hrun => absurd trivial (hdenied.may_of_steps hrun)

end Pipeline

/-- A router with all optional components but the authorizer. -/
def unauthorizedRouter : McpRouter := { fullRouter with authorizer := false }

theorem more_scopes_same_run_echo :
    (∀ tr r, Steps (handleMessage unauthorizedRouter (.new [scopeToolsCall]) (some "s") echoBatch)
        tr (.done r) →
      (ScopesRefuse (.new [scopeToolsCall]) echoBatch.processed ∧
          ∃ msg, r = .error (.scopeDenied msg)) ∨
        Steps (handleMessage unauthorizedRouter (.new [scopeToolsRead, scopeToolsCall]) (some "s")
          echoBatch) (tr.map (regrant (.new [scopeToolsRead, scopeToolsCall]))) (.done r)) ∧
    ∀ tr server sent k,
      Steps (handleMessage unauthorizedRouter (.new [scopeToolsCall]) (some "s") echoBatch) tr
          (.call (.forwardRequest server sent) k) →
        ∃ k', Steps (handleMessage unauthorizedRouter (.new [scopeToolsRead, scopeToolsCall])
          (some "s") echoBatch) (tr.map (regrant (.new [scopeToolsRead, scopeToolsCall])))
          (.call (.forwardRequest server sent) k') :=
  more_scopes_same_run rfl (.inr ⟨rfl, by decide⟩)

end McpShield
