import McpShield.Gateway.Audit
import McpShield.Gateway.ProxyErrors
import McpShield.Protocol.Schema

/-!
# Audit decisions

The decision of an audit event is read off the code of the error.  The code tells a guardrail and
the session lock from all other stages; it does not tell the scope enforcer from a Cedar deny, whose
errors are of one variant.  `namesStage_iff` says that this is all that is lost.
-/

open Effect Effect.Prog

namespace McpShield

/-! ## Who refuses -/

/-- The stage that refuses a request. -/
inductive Refuser where
  | scopeEnforcer
  | cedarDeny
  | guardrail
  | sessionLock
  | other
deriving DecidableEq

/-- The stage that an answer belongs to, if it refuses.  Of the answers of the authorizer, only a
decision can be a deny. -/
def GatewayOp.stage : (op : GatewayOp) → op.Reply → Refuser
  | .evaluate _, .ok _ => .cedarDeny
  | .evaluateConstraints _ _, _ => .guardrail
  | .checkContextAccess _ _, _ => .sessionLock
  | _, _ => .other

/-- The stage of the first answer that refuses. -/
def firstRefuser (tr : GatewayTrace) : Option Refuser :=
  tr.findSome? fun ev => (ev.1.refusal ev.2).map fun _ => ev.1.stage ev.2

/-- The stage that refuses a request that no component refuses. -/
def requestRefuser (enforcer : ScopeEnforcer) (method : String) (params : Option Value) :
    Option Refuser :=
  if method = methodToolsCall then
    match toolNameOf (params.getD .emptyObject) with
    | .ok toolName => (errorOf (enforcer.checkToolAccess toolName)).map fun _ => .scopeEnforcer
    | .error _ => some .other
  else if method = methodInitialized then some .other
  else none

/-- The stage that refuses a message, given the answers of the components.  What is no request is
always refused. -/
def refuserOf (enforcer : ScopeEnforcer) (tr : GatewayTrace) : JsonRpcMessage → Option Refuser
  | .request _ method params =>
      if !isValidMethod method && !Str.startsWith method "notifications/" then none
      else ((errorOf (enforcer.checkMethod method)).map fun _ => .scopeEnforcer).or
        ((firstRefuser tr).or (requestRefuser enforcer method params))
  | _ => some .other

/-- The decision names the stage that refused. -/
structure NamesStage (result : Except McpError JsonRpcMessage) (refuser : Option Refuser)
    (decision : AuthDecision) : Prop where
  allow : (∃ reply, result = .ok reply) → decision = .allow
  deny : refuser = some .scopeEnforcer → decision = .deny
  denyPolicy : decision = .denyPolicy ↔ refuser = some .cedarDeny
  block : decision = .block ↔ refuser = some .guardrail ∨ refuser = some .sessionLock

/-- The scopes do not allow the method, or they do not allow the tool and no component has refused
the call before. -/
def ScopeRefuses (enforcer : ScopeEnforcer) (tr : GatewayTrace) : JsonRpcMessage → Prop
  | .request _ method params =>
      (isValidMethod method || Str.startsWith method "notifications/") = true ∧
        ((∃ e, enforcer.checkMethod method = .error e) ∨
          method = methodToolsCall ∧ firstRefusal tr = none ∧
            ∃ toolName e, toolNameOf (params.getD .emptyObject) = .ok toolName ∧
              enforcer.checkToolAccess toolName = .error e)
  | _ => False

/-! ## Answers of the components -/

/-- The answer is one that the code of the component gives: the registry, the schema validator and
the proxy, in some state each.  The others may answer in any way. -/
def GatewayOp.AnsweredByCode : (op : GatewayOp) → op.Reply → Prop
  | .lookupAny name, found => ∃ R : ToolRegistry, found = R.lookupAny name
  | .validate schema inst, result =>
      ∃ (J : JsonSchema) (sv : SchemaValidator J), (sv.validate schema inst).1 = some result
  | .forwardRequest serverId message, reply =>
      ∃ (serde : SerdeJson) (p : UpstreamProxy) (tr : ProxyTrace),
        Steps (p.forwardRequest serde serverId message).run tr (.done reply)
  | _, _ => True

/-- Every answer is one that the code of the component gives. -/
def AnsweredByCode (tr : GatewayTrace) : Prop := ∀ ev ∈ tr, ev.1.AnsweredByCode ev.2

/-- The decision that an error of the stage leads to. -/
def Refuser.reported : Refuser → AuthDecision
  | scopeEnforcer | cedarDeny => .denyPolicy
  | guardrail | sessionLock => .block
  | other => .deny

section Components

variable {e : McpError}

theorem code_of_plain (h : e.Plain) :
    e.code ≠ -32005 ∧ e.code ≠ -32006 ∧ e.code ≠ -32002 := by
  cases e with
  | scopeDenied _ => exact h.elim
  | sessionLocked _ => exact h.elim
  | ecpaViolation _ => exact h.elim
  | _ =>
    simp only [McpError.code]
    decide

/-- Without one of the three codes the decision does not depend on the text of the error. -/
theorem auditDecision_of_plain (h : e.Plain) : auditDecision (.error e) = .deny := by
  obtain ⟨hguardrail, hlocked, hpolicy⟩ := code_of_plain h
  rw [auditDecision, if_neg hguardrail, if_neg hlocked, if_neg hpolicy, ite_self]

theorem plain_of_lookupAny {R : ToolRegistry} {name : String} (h : R.lookupAny name = .error e) :
    e.Plain := by
  unfold ToolRegistry.lookupAny at h
  cases hlookup : R.lookup name with
  | some entry => simp [hlookup] at h
  | none =>
    simp only [hlookup] at h
    split at h
    · exact Except.error.inj h ▸ trivial
    · cases h

theorem plain_of_compileSchema {J : JsonSchema} {schema : Value}
    (h : SchemaValidator.compileSchema J schema = .error e) : e.Plain := by
  unfold SchemaValidator.compileSchema at h
  cases hcompile : J.validatorFor schema with
  | ok v => simp [hcompile, Except.mapError] at h
  | error text =>
    rw [hcompile] at h
    exact Except.error.inj h ▸ trivial

theorem plain_of_validateWith {J : JsonSchema} {v : J.Validator} {inst : Value}
    (h : SchemaValidator.validateWith v inst = .error e) : e.Plain := by
  unfold SchemaValidator.validateWith at h
  cases hvalidate : J.validate v inst with
  | ok _ => simp [hvalidate, Except.mapError] at h
  | error errors =>
    rw [hvalidate] at h
    exact Except.error.inj h ▸ trivial

theorem plain_of_checkDialect {schema : Value}
    (h : SchemaValidator.checkDialect schema = .error e) : e.Plain := by
  unfold SchemaValidator.checkDialect at h
  cases hdialect : (schema.get "$schema").bind Value.asStr with
  | none => simp [hdialect] at h
  | some dialect =>
    simp only [hdialect] at h
    split_ifs at h
    exact Except.error.inj h ▸ trivial

theorem plain_of_validate {J : JsonSchema} {sv : SchemaValidator J} {schema inst : Value}
    (h : (sv.validate schema inst).1 = some (.error e)) : e.Plain := by
  unfold SchemaValidator.validate at h
  cases hdialect : SchemaValidator.checkDialect schema with
  | error e' =>
    rw [hdialect] at h
    obtain rfl := Except.error.inj (Option.some.inj h)
    exact plain_of_checkDialect hdialect
  | ok _ =>
    cases hkey : SchemaValidator.schemaKey schema with
    | none => simp [hdialect, hkey] at h
    | some key =>
      simp only [hdialect, hkey, Option.some.injEq] at h
      cases hfetch : (Memo.fetch (SchemaValidator.compileSchema J) sv.cache key schema).1 with
      | error e' =>
        rw [hfetch] at h
        obtain rfl := Except.error.inj h
        exact plain_of_compileSchema (Memo.error_of_fetch hfetch)
      | ok v =>
        rw [hfetch] at h
        exact plain_of_validateWith h

/-- An error of a component leads to the decision of its stage. -/
theorem reported_of_refusal {op : GatewayOp} {r : op.Reply} (hcode : op.AnsweredByCode r)
    (hrefusal : op.refusal r = some e) :
    auditDecision (.error e) = (op.stage r).reported ∧ op.stage r ≠ .scopeEnforcer := by
  have hplain : e.Plain → op.stage r = .other →
      auditDecision (.error e) = (op.stage r).reported ∧ op.stage r ≠ .scopeEnforcer := by
    intro he hstage
    rw [hstage, auditDecision_of_plain he]
    exact ⟨rfl, nofun⟩
  cases op with
  | parseInitializeParams params =>
    cases r with
    | ok _ => cases hrefusal
    | error text =>
      obtain rfl := Option.some.inj hrefusal
      exact hplain trivial rfl
  | lookupAny name =>
    obtain ⟨R, rfl⟩ := hcode
    refine hplain ?_ rfl
    change lookupRefusal name (R.lookupAny name) = some e at hrefusal
    cases hfound : R.lookupAny name with
    | error e' =>
      rw [hfound] at hrefusal
      exact Option.some.inj hrefusal ▸ plain_of_lookupAny hfound
    | ok entry =>
      rw [hfound] at hrefusal
      cases entry with
      | some entry => cases hrefusal
      | none => exact Option.some.inj hrefusal ▸ trivial
  | validate schema inst =>
    obtain ⟨J, sv, hvalidate⟩ := hcode
    cases r with
    | ok _ => cases hrefusal
    | error e' =>
      obtain rfl := Option.some.inj hrefusal
      exact hplain (plain_of_validate hvalidate) rfl
  | evaluate request =>
    cases r with
    | ok response =>
      change policyRefusal (.ok response) = some e at hrefusal
      dsimp only [policyRefusal] at hrefusal
      split_ifs at hrefusal
      obtain rfl := Option.some.inj hrefusal
      exact ⟨rfl, nofun⟩
    | error e' =>
      obtain rfl := Option.some.inj hrefusal
      exact hplain trivial rfl
  | evaluateConstraints toolName arguments =>
    cases r with
    | ok result =>
      change constraintRefusal (.ok result) = some e at hrefusal
      dsimp only [constraintRefusal] at hrefusal
      split_ifs at hrefusal
      obtain rfl := Option.some.inj hrefusal
      exact ⟨rfl, nofun⟩
    | error e' =>
      obtain rfl := Option.some.inj hrefusal
      exact ⟨rfl, nofun⟩
  | checkContextAccess sid scope =>
    match r, hrefusal with
    | .ok (.deny reason lockedTo), hrefusal =>
      obtain rfl := Option.some.inj hrefusal
      exact ⟨rfl, nofun⟩
  | defaultServerId =>
    cases r with
    | some _ => cases hrefusal
    | none =>
      obtain rfl := Option.some.inj hrefusal
      exact hplain trivial rfl
  | forwardRequest serverId message =>
    obtain ⟨serde, p, tr, hrun⟩ := hcode
    cases r with
    | ok _ => cases hrefusal
    | error e' =>
      obtain rfl := Option.some.inj hrefusal
      exact hplain (UpstreamProxy.forwardRequest_plain.post_of_steps hrun e' rfl) rfl
  | _ => cases hrefusal

end Components

/-! ## The refusal of a message -/

section Refusal

variable {router : McpRouter} {enforcer : ScopeEnforcer} {sessionId : Option String}
  {message : JsonRpcMessage} {method : String} {params : Option Value} {id : RequestId}
  {tr h : GatewayTrace} {r : Except McpError JsonRpcMessage} {e : McpError}

/-- The first refusal comes from the first stage that refuses. -/
theorem reported_of_firstRefusal (hcode : AnsweredByCode tr) (hrefused : firstRefusal tr = some e) :
    ∃ k, firstRefuser tr = some k ∧ auditDecision (.error e) = k.reported ∧ k ≠ .scopeEnforcer := by
  induction tr with
  | nil => cases hrefused
  | cons ev tr ih =>
    unfold firstRefusal at hrefused
    unfold firstRefuser
    rw [List.findSome?_cons] at hrefused ⊢
    cases hev : ev.1.refusal ev.2 with
    | some e' =>
      rw [hev] at hrefused
      obtain rfl := Option.some.inj hrefused
      obtain ⟨hreported, hne⟩ := reported_of_refusal (hcode ev List.mem_cons_self) hev
      exact ⟨_, rfl, hreported, hne⟩
    | none =>
      rw [hev] at hrefused
      exact ih (fun ev' hev' => hcode ev' (List.mem_cons_of_mem _ hev')) hrefused

theorem firstRefuser_eq_none (hnone : firstRefusal tr = none) : firstRefuser tr = none := by
  rw [firstRefusal, List.findSome?_eq_none_iff] at hnone
  rw [firstRefuser, List.findSome?_eq_none_iff]
  intro ev hev
  rw [hnone ev hev]
  rfl

theorem auditDecision_scopeDenied (msg : String) :
    auditDecision (.error (.scopeDenied msg)) = .denyPolicy := rfl

theorem checkMethod_error (hscope : enforcer.checkMethod method = .error e) :
    auditDecision (.error e) = .denyPolicy := by
  obtain ⟨msg, rfl⟩ := enforcer.deniesScope_checkMethod method e hscope
  exact auditDecision_scopeDenied msg

theorem checkToolAccess_error {toolName : String}
    (hscope : enforcer.checkToolAccess toolName = .error e) :
    auditDecision (.error e) = .denyPolicy := by
  obtain ⟨msg, rfl⟩ := enforcer.deniesScope_checkToolAccess toolName e hscope
  exact auditDecision_scopeDenied msg

/-- The error of a request that no component refuses comes from the stage that refuses it. -/
theorem reported_of_requestRefusal (hrefused : requestRefusal enforcer method params = some e) :
    ∃ k, requestRefuser enforcer method params = some k ∧
      auditDecision (.error e) = k.reported := by
  unfold requestRefusal at hrefused
  unfold requestRefuser
  by_cases hcall : method = methodToolsCall
  · rw [if_pos hcall] at hrefused ⊢
    unfold toolRefusal at hrefused
    cases hname : toolNameOf (params.getD .emptyObject) with
    | error e' =>
      rw [hname] at hrefused
      obtain rfl := Option.some.inj hrefused
      unfold toolNameOf at hname
      split at hname
      · cases hname
      · obtain rfl := Except.error.inj hname
        exact ⟨.other, rfl, auditDecision_of_plain trivial⟩
    | ok toolName =>
      simp only [hname] at hrefused ⊢
      cases haccess : enforcer.checkToolAccess toolName with
      | ok _ => simp [haccess, errorOf] at hrefused
      | error e' =>
        rw [haccess] at hrefused
        obtain rfl := Option.some.inj hrefused
        exact ⟨.scopeEnforcer, rfl, checkToolAccess_error haccess⟩
  · rw [if_neg hcall] at hrefused ⊢
    split_ifs at hrefused with hinitialized
    rw [if_pos hinitialized]
    obtain rfl := Option.some.inj hrefused
    exact ⟨.other, rfl, auditDecision_of_plain trivial⟩

theorem unknown_iff : (!isValidMethod method && !Str.startsWith method "notifications/") = true ↔
    ¬ (isValidMethod method || Str.startsWith method "notifications/") = true := by
  rw [← Bool.not_or, Bool.not_eq_true', Bool.not_eq_true]

theorem refuserOf_request (hknown : (isValidMethod method ||
      Str.startsWith method "notifications/") = true) :
    refuserOf enforcer tr (.request id method params) =
      ((errorOf (enforcer.checkMethod method)).map fun _ => .scopeEnforcer).or
        ((firstRefuser tr).or (requestRefuser enforcer method params)) :=
  if_neg fun hunknown => unknown_iff.mp hunknown hknown

theorem refusalOf_request (hknown : (isValidMethod method ||
      Str.startsWith method "notifications/") = true) :
    refusalOf enforcer method params tr = (errorOf (enforcer.checkMethod method)).or
      ((firstRefusal tr).or (requestRefusal enforcer method params)) :=
  if_neg fun hunknown => unknown_iff.mp hunknown hknown

/-- A request that is not known is not refused: the method is not found. -/
theorem refusalOf_unknown (hunknown : ¬ (isValidMethod method ||
      Str.startsWith method "notifications/") = true) :
    refusalOf enforcer method params tr = none :=
  if_pos (unknown_iff.mpr hunknown)

theorem refuserOf_unknown (hunknown : ¬ (isValidMethod method ||
      Str.startsWith method "notifications/") = true) :
    refuserOf enforcer tr (.request id method params) = none :=
  if_pos (unknown_iff.mpr hunknown)

/-- The error of a request comes from the stage that refuses it. -/
theorem reported_of_refusalOf (hcode : AnsweredByCode tr)
    (hrefused : refusalOf enforcer method params tr = some e) :
    ∃ k, refuserOf enforcer tr (.request id method params) = some k ∧
      auditDecision (.error e) = k.reported := by
  by_cases hknown : (isValidMethod method || Str.startsWith method "notifications/") = true
  · rw [refusalOf_request hknown] at hrefused
    rw [refuserOf_request hknown]
    cases hscope : enforcer.checkMethod method with
    | error e' =>
      rw [hscope] at hrefused
      obtain rfl := Option.some.inj hrefused
      exact ⟨.scopeEnforcer, rfl, checkMethod_error hscope⟩
    | ok _ =>
      rw [hscope, errorOf, Option.none_or] at hrefused
      cases hfirst : firstRefusal tr with
      | some e' =>
        rw [hfirst, Option.some_or] at hrefused
        obtain rfl := Option.some.inj hrefused
        obtain ⟨k, hk, hreported, -⟩ := reported_of_firstRefusal hcode hfirst
        exact ⟨k, by rw [hk]; rfl, hreported⟩
      | none =>
        rw [hfirst, Option.none_or] at hrefused
        rw [firstRefuser_eq_none hfirst]
        exact reported_of_requestRefusal hrefused
  · cases (refusalOf_unknown hknown).symm.trans hrefused

theorem requestRefuser_eq_none (hnone : requestRefusal enforcer method params = none) :
    requestRefuser enforcer method params = none := by
  unfold requestRefusal toolRefusal at hnone
  unfold requestRefuser
  by_cases hcall : method = methodToolsCall
  · rw [if_pos hcall] at hnone ⊢
    cases hname : toolNameOf (params.getD .emptyObject) with
    | error e => simp [hname] at hnone
    | ok toolName =>
      simp only [hname] at hnone ⊢
      rw [hnone]
      rfl
  · rw [if_neg hcall] at hnone ⊢
    split_ifs at hnone with hinitialized
    exact if_neg hinitialized

theorem refuserOf_eq_none (hnone : refusalOf enforcer method params tr = none) :
    refuserOf enforcer tr (.request id method params) = none := by
  by_cases hknown : (isValidMethod method || Str.startsWith method "notifications/") = true
  · rw [refusalOf_request hknown, Option.or_eq_none_iff, Option.or_eq_none_iff] at hnone
    obtain ⟨hscope, hfirst, hrequest⟩ := hnone
    rw [refuserOf_request hknown, hscope, firstRefuser_eq_none hfirst,
      requestRefuser_eq_none hrequest]
    rfl
  · exact refuserOf_unknown hknown

theorem requestRefuser_eq_scope_iff :
    requestRefuser enforcer method params = some .scopeEnforcer ↔
      method = methodToolsCall ∧ ∃ toolName e,
        toolNameOf (params.getD .emptyObject) = .ok toolName ∧
          enforcer.checkToolAccess toolName = .error e := by
  unfold requestRefuser
  by_cases hcall : method = methodToolsCall
  · rw [if_pos hcall]
    cases hname : toolNameOf (params.getD .emptyObject) with
    | error e => simp
    | ok toolName => cases haccess : enforcer.checkToolAccess toolName <;> simp [hcall, haccess, errorOf]
  · rw [if_neg hcall]
    split_ifs <;> simp [hcall]

/-- The stage that refuses is the scope enforcer exactly when the scopes do not allow the request. -/
theorem refuserOf_eq_scope_iff (hcode : AnsweredByCode tr) :
    refuserOf enforcer tr message = some .scopeEnforcer ↔ ScopeRefuses enforcer tr message := by
  cases message with
  | request id method params =>
    by_cases hknown : (isValidMethod method || Str.startsWith method "notifications/") = true
    · rw [refuserOf_request hknown, ScopeRefuses]
      cases hscope : enforcer.checkMethod method with
      | error e => simp [hknown, errorOf]
      | ok _ =>
        rw [errorOf, Option.map_none, Option.none_or]
        cases hfirst : firstRefusal tr with
        | some e =>
          obtain ⟨k, hk, -, hne⟩ := reported_of_firstRefusal hcode hfirst
          simp [hk, hne]
        | none =>
          rw [firstRefuser_eq_none hfirst, Option.none_or, requestRefuser_eq_scope_iff]
          simp [hknown]
    · rw [refuserOf_unknown hknown, ScopeRefuses]
      simp [hknown]
  | _ => simp [refuserOf, ScopeRefuses]

/-! ## The published decision -/

/-- Whatever is published after `h` reports the decision for the result. -/
def Decided (h : GatewayTrace) (result : Except McpError JsonRpcMessage) (tr : GatewayTrace) :
    Prop :=
  ∀ event ∈ published tr, event ∈ published h ∨ event.decision = auditDecision result

theorem publishAudit_decided :
    Ensures Any (fun tr _ => Decided h r tr) (publishAudit router message enforcer sessionId r) h := by
  unfold publishAudit
  by_cases hcfg : router.auditProducer = true
  · rw [if_pos hcfg]
    refine ⟨trivial, fun eventId => ⟨trivial, fun timestamp => ⟨trivial, fun duration =>
      ⟨trivial, fun _ event hevent => ?_⟩⟩⟩⟩
    rw [published_concat, published_of_silent rfl, published_of_silent rfl,
      published_of_silent rfl] at hevent
    refine (List.mem_append.mp hevent).imp_right fun hevent => ?_
    obtain rfl := List.mem_singleton.mp hevent
    rfl
  · rw [if_neg hcfg]
    exact fun event hevent => .inl hevent

theorem record_decided (hnone : published h = []) :
    Ensures Any (fun tr out => out = r ∧ ∀ event ∈ published tr, event.decision = auditDecision r)
      (record router message enforcer sessionId r) h := by
  refine ⟨trivial, fun duration => ⟨trivial, fun _ => ?_⟩⟩
  refine publishAudit_decided.bind fun tr _ _ hdecided => ⟨rfl, fun event hevent => ?_⟩
  refine (hdecided event hevent).resolve_left ?_
  rw [published_of_silent rfl, published_of_silent rfl, hnone]
  exact List.not_mem_nil

/-- Whatever is published reports the decision for the result. -/
theorem handleMessage_decided :
    Ensures Any (fun tr r => ∀ event ∈ published tr, event.decision = auditDecision r)
      (handleMessage router enforcer sessionId message) [] := by
  rw [handleMessage_eq_processed]
  refine route_unaudited.bind fun tr result _ hnone => (record_decided hnone).mono ?_
  rintro tr' r - ⟨rfl, hdecided⟩
  exact hdecided

/-! ## The result -/

theorem processed_processed (message : JsonRpcMessage) :
    message.processed.processed = message.processed := by
  fun_induction JsonRpcMessage.processed message with
  | case1 first rest ih => exact ih
  | case2 m hbatch =>
    unfold JsonRpcMessage.processed
    split
    · next first rest => exact (hbatch first rest rfl).elim
    · rfl

/-- The result is an error of the stage that refuses, or no stage refuses. -/
def Attributed (enforcer : ScopeEnforcer) (message : JsonRpcMessage) (tr : GatewayTrace) :
    Except McpError JsonRpcMessage → Prop
  | .ok _ => refuserOf enforcer tr message = none
  | .error e => ∃ k, refuserOf enforcer tr message = some k ∧ auditDecision (.error e) = k.reported

/-- What is no request is refused by the router itself. -/
theorem attributed_of_notRequest (hno : ∀ id method params, message ≠ .request id method params) :
    Ensures Any (fun tr r => Attributed enforcer message tr r)
      ((route router message enforcer sessionId).run >>=
        record router message enforcer sessionId) [] := by
  have hother : ∀ tr e, e.Plain → Attributed enforcer message tr (.error e) := by
    refine fun tr e he => ⟨.other, ?_, auditDecision_of_plain he⟩
    cases message with
    | request id method params => exact (hno id method params rfl).elim
    | _ => rfl
  have hrecord : ∀ e, e.Plain → Ensures Any (fun tr r => Attributed enforcer message tr r)
      (record router message enforcer sessionId (.error e)) [] := by
    refine fun e he => (record_neutral.mono_may fun _ _ _ => trivial).mono ?_
    rintro tr r - rfl
    exact hother tr e he
  cases message with
  | request id method params => exact (hno id method params rfl).elim
  | success id result => exact hrecord _ trivial
  | error id err => exact hrecord _ trivial
  | batch messages => exact hrecord _ trivial
  | notification method params =>
    show Ensures Any _ (record router _ enforcer sessionId (handleNotification method)) []
    unfold handleNotification
    split_ifs <;> exact hrecord _ trivial

/-- The result of a run, and the stage that refuses. -/
theorem attributed_of_steps (hcode : AnsweredByCode tr)
    (hrun : Steps (handleMessage router enforcer sessionId message) tr (.done r)) :
    Attributed enforcer message.processed tr r := by
  rw [handleMessage_eq_processed] at hrun
  cases hm : message.processed with
  | request id method params =>
    have hself : (JsonRpcMessage.request id method params).processed = .request id method params :=
      hm ▸ processed_processed message
    have hrequest : Steps (handleMessage router enforcer sessionId (.request id method params)) tr
        (.done r) := by
      rw [handleMessage_eq_processed, hself]
      rwa [hm] at hrun
    have hsettled : Settled id (refusalOf enforcer method params) tr r :=
      handleMessage_settled.post_of_steps hrequest
    cases r with
    | ok reply => exact refuserOf_eq_none hsettled.1
    | error e => exact reported_of_refusalOf hcode hsettled
  | _ =>
    rw [hm] at hrun
    exact (attributed_of_notRequest fun _ _ _ h => by cases h).post_of_steps hrun

/-- The decision for a refusal names the stage unless the stage is the scope enforcer. -/
theorem namesStage_reported_iff {result : Except McpError JsonRpcMessage} (k : Refuser)
    (herr : ∀ reply, result ≠ .ok reply) :
    NamesStage result (some k) k.reported ↔ k ≠ .scopeEnforcer := by
  have hnotOk : ¬ ∃ reply, result = .ok reply := fun ⟨reply, h⟩ => herr reply h
  constructor
  · rintro hnames rfl
    cases hnames.deny rfl
  · intro hne
    cases k with
    | scopeEnforcer => exact (hne rfl).elim
    | _ => constructor <;> simp [hnotOk, Refuser.reported]

theorem namesStage_iff_of_attributed (hcode : AnsweredByCode tr)
    (h : Attributed enforcer message tr r) :
    NamesStage r (refuserOf enforcer tr message) (auditDecision r) ↔
      ¬ ScopeRefuses enforcer tr message := by
  rw [← refuserOf_eq_scope_iff hcode]
  cases r with
  | ok reply =>
    have hnone : refuserOf enforcer tr message = none := h
    rw [hnone]
    constructor
    · simp
    · exact fun _ => ⟨fun _ => rfl, nofun, by simp [auditDecision], by simp [auditDecision]⟩
  | error e =>
    obtain ⟨k, hk, hreported⟩ := h
    rw [hk, hreported, namesStage_reported_iff k (fun _ h => by cases h), Ne, Option.some.injEq]

/-- The decision of the published event names the stage that refused exactly when that is not the
scope enforcer. -/
theorem namesStage_iff (hcfg : router.auditProducer = true) (hcode : AnsweredByCode tr)
    (hrun : Steps (handleMessage router enforcer sessionId message) tr (.done r)) :
    ∃ event, published tr = [event] ∧
      (NamesStage r (refuserOf enforcer tr message.processed) event.decision ↔
        ¬ ScopeRefuses enforcer tr message.processed) := by
  obtain ⟨event, hpublished, -⟩ :=
    (handleMessage_audited hcfg enforcer sessionId message).post_of_steps hrun
  rw [published_nil, List.nil_append] at hpublished
  refine ⟨event, hpublished, ?_⟩
  have hdecision : event.decision = auditDecision r :=
    handleMessage_decided.post_of_steps hrun event (hpublished ▸ List.mem_singleton_self event)
  rw [hdecision]
  exact namesStage_iff_of_attributed hcode (attributed_of_steps hcode hrun)

end Refusal

/-! ## A request without scopes -/

/-- A request for the tools. -/
def toolsListRequest : JsonRpcMessage := .request (.integer 1) methodToolsList none

/-- The calls made for the request of a client without scopes. -/
def deniedTrace : GatewayTrace :=
  (stepWith openComponents.answer 6 (handleMessage fullRouter (.new []) (some "s") toolsListRequest)).1

/-- The error of the scope enforcer. -/
def deniedResult : Except McpError JsonRpcMessage :=
  .error (.scopeDenied
    s!"Scope required to access '{methodToolsList}'. Need one of: {scopeToolsRead}, {scopeResourcesRead}, {scopePromptsRead}")

theorem steps_deniedTrace :
    Steps (handleMessage fullRouter (.new []) (some "s") toolsListRequest) deniedTrace
      (.done deniedResult) :=
  steps_stepWith openComponents.answer 6 _

theorem answeredByCode_deniedTrace : AnsweredByCode deniedTrace := by
  intro ev hev
  have hmem : ev ∈ [_, _, _, _, _, _] := hev
  simp only [List.mem_cons, List.not_mem_nil, or_false] at hmem
  rcases hmem with rfl | rfl | rfl | rfl | rfl | rfl <;> trivial

theorem namesStage_iff_denied : ∃ event, published deniedTrace = [event] ∧
    (NamesStage deniedResult (refuserOf (.new []) deniedTrace toolsListRequest) event.decision ↔
      ¬ ScopeRefuses (.new []) deniedTrace toolsListRequest) :=
  namesStage_iff rfl answeredByCode_deniedTrace steps_deniedTrace

/-- The request is refused by the scope enforcer, and the log says that it was a policy. -/
theorem scopeRefusal_reported_as_policy :
    Steps (handleMessage fullRouter (.new []) (some "s") toolsListRequest) deniedTrace
        (.done deniedResult) ∧
      AnsweredByCode deniedTrace ∧ ∃ event, published deniedTrace = [event] ∧
        refuserOf (.new []) deniedTrace toolsListRequest = some .scopeEnforcer ∧
        event.decision = .denyPolicy ∧
        ¬ NamesStage deniedResult (refuserOf (.new []) deniedTrace toolsListRequest) event.decision := by
  refine ⟨steps_deniedTrace, answeredByCode_deniedTrace, _, rfl, rfl, rfl, fun h => ?_⟩
  cases h.deny rfl

end McpShield
