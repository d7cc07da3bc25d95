import McpShield.Gateway.Audit
import McpShield.Gateway.UpstreamReply
import McpShield.Transport.Replies

/-!
# Batches

A batch should be answered with one response for each of its requests.  Only its first element is
routed, so that holds of batches of one element alone, and of these when the element would be
answered on its own.
-/

open Effect Effect.Prog

namespace McpShield

namespace JsonRpcMessage

/-- The id of a response. -/
def responseId : JsonRpcMessage → Option RequestId
  | success id _ => some id
  | error id _ => some id
  | _ => none

/-- The id of a request. -/
def requestId : JsonRpcMessage → Option RequestId
  | request id _ _ => some id
  | _ => none

end JsonRpcMessage

/-! ## Complete replies -/

/-- What a transport makes of a result: the messages it writes. -/
def writtenFor : Except McpError JsonRpcMessage → List JsonRpcMessage
  | .ok reply => reply.flatten
  | .error e => if Silenced e then [] else [.error .null (.new e.code e.display)]

theorem writtenFor_error (e : McpError) : writtenFor (.error e) =
    if Silenced e then [] else [.error .null (.new e.code e.display)] := rfl

/-- The messages of a JSON text. -/
def Value.messages : Value → List Value
  | .array xs => xs
  | v => [v]

theorem JsonRpcMessage.messages_toValue (m : JsonRpcMessage) :
    m.toValue.messages = m.flatten.map toValue := by
  cases m with
  | request id method params =>
    show (request id method params).toValue.messages = [(request id method params).toValue]
    cases params <;> (rw [toValue]; rfl)
  | notification method params =>
    show (notification method params).toValue.messages = [(notification method params).toValue]
    cases params <;> (rw [toValue]; rfl)
  | success id result =>
    show (success id result).toValue.messages = [(success id result).toValue]
    rw [toValue]
    rfl
  | error id err =>
    show (error id err).toValue.messages = [(error id err).toValue]
    rw [toValue]
    rfl
  | batch elements =>
    rw [toValue]
    rfl

/-- The three transports write these messages. -/
theorem Encoded.messages_eq {result : Except McpError JsonRpcMessage} {replies : List Value}
    (h : Encoded result replies) :
    replies.flatMap Value.messages = (writtenFor result).map JsonRpcMessage.toValue := by
  cases h with
  | reply m =>
    rw [List.flatMap_singleton]
    exact m.messages_toValue
  | silent h =>
    rw [writtenFor_error, if_pos h]
    rfl
  | spoken h =>
    rw [writtenFor_error, if_neg h, List.flatMap_singleton, JsonRpcMessage.messages_toValue]
    rfl

/-- The elements are routed one after another. -/
def RoutedAll (router : McpRouter) (enforcer : ScopeEnforcer) (sessionId : Option String)
    (elements : List JsonRpcMessage) (tr : GatewayTrace) : Prop :=
  ∃ exchanges : List GatewayTrace, tr = exchanges.flatten ∧
    List.Forall₂ (fun m tr => ∃ r, Steps (handleMessage router enforcer sessionId m) tr (.done r))
      elements exchanges

/-- One response for each request, with its id, and nothing else, in any order. -/
def AnswersAll (elements replies : List JsonRpcMessage) : Prop :=
  (replies.map JsonRpcMessage.responseId).Perm
    ((elements.filterMap JsonRpcMessage.requestId).map some)

/-- The reply is one response, to the request with the id. -/
def AnswersOnce (id : RequestId) (reply : JsonRpcMessage) : Prop :=
  reply.flatten.map JsonRpcMessage.responseId = [some id]

/-- Every reply of an upstream server is one response, to the request with the id. -/
def UpstreamAnswersOnce (id : RequestId) (tr : GatewayTrace) : Prop :=
  ∀ server sent reply, ⟨.forwardRequest server sent, .ok reply⟩ ∈ tr → AnswersOnce id reply

/-- When the reply to a batch is complete: it has one element, and this is a request that is not
refused and to which the upstream server, if it is asked, responds, or a notification for which
nothing is written, or a response. -/
def AnsweredWhen (enforcer : ScopeEnforcer) (tr : GatewayTrace) : List JsonRpcMessage → Prop
  | [.request id method params] =>
      refusalOf enforcer method params tr = none ∧ UpstreamAnswersOnce id tr
  | [.notification method _] => method = methodInitialized ∨ method = methodExited
  | [_] => True
  | _ => False

section Batches

variable {router : McpRouter} {enforcer : ScopeEnforcer} {sessionId : Option String}
  {id : RequestId} {method toolName : String} {params : Option Value} {arguments : Value}
  {h tr : GatewayTrace} {op : GatewayOp} {r : op.Reply} {α : Type}
  {result : Except McpError JsonRpcMessage}

/-! ## One request -/

/-- A reply to the request with the id is one response to it exactly when those of the upstream
servers are. -/
def Responds (id : RequestId) (tr : GatewayTrace) : Except McpError JsonRpcMessage → Prop
  | .ok reply => AnswersOnce id reply ↔ UpstreamAnswersOnce id tr
  | .error _ => True

theorem upstreamAnswersOnce_of_noForward (hno : NoForward h) : UpstreamAnswersOnce id h :=
  fun _ _ _ hmem => absurd trivial (hno _ hmem)

theorem upstreamAnswersOnce_concat (hop : ¬ op.IsForward) :
    UpstreamAnswersOnce id (h ++ [⟨op, r⟩]) ↔ UpstreamAnswersOnce id h := by
  refine ⟨fun hall server sent reply hmem => hall server sent reply (List.mem_append_left _ hmem),
    fun hall server sent reply hmem => ?_⟩
  rcases List.mem_append.mp hmem with hmem | hmem
  · exact hall server sent reply hmem
  · cases List.mem_singleton.mp hmem
    exact absurd trivial hop

theorem upstreamAnswersOnce_forward (hno : NoForward h) {server : String}
    {sent reply : JsonRpcMessage} :
    UpstreamAnswersOnce id (h ++ [⟨.forwardRequest server sent, .ok reply⟩]) ↔
      AnswersOnce id reply := by
  refine ⟨fun hall => hall server sent reply (mem_concat_self _ _), fun hreply => ?_⟩
  intro server' sent' reply' hmem
  rcases List.mem_append.mp hmem with hmem | hmem
  · exact absurd trivial (hno _ hmem)
  · cases List.mem_singleton.mp hmem
    exact hreply

theorem answersOnce_rebuildResponse (response : JsonRpcMessage) (content : List Value) :
    AnswersOnce id (rebuildResponse response content) ↔ AnswersOnce id response := by
  cases response <;> exact Iff.rfl

theorem Responds.concat (hop : ¬ op.IsForward) (hr : Responds id h result) :
    Responds id (h ++ [⟨op, r⟩]) result := by
  cases result with
  | ok reply => exact hr.trans (upstreamAnswersOnce_concat hop).symm
  | error e => trivial

/-- A response that the gateway makes itself. -/
theorem responds_local (hno : NoForward h) (value : Value) :
    Responds id h (.ok (.success id value)) :=
  iff_of_true rfl (upstreamAnswersOnce_of_noForward hno)

/-- A stage that forwards nothing, then the rest of the pipeline. -/
theorem Quiet.then_responds {post : GatewayTrace → Except McpError α → Prop} {x : GatewayM α}
    {f : α → GatewayM JsonRpcMessage} (hno : NoForward h) (hx : Ensures Quiet post x.run h)
    (hf : ∀ h' a, NoForward h' → Ensures Any (Responds id) (f a).run h') :
    Ensures Any (Responds id) (x >>= f).run h :=
  Ensures.bindExcept ((Quiet.noForward hx hno).mono_may fun _ _ _ => trivial)
    (fun _ _ _ _ => trivial) fun h' a _ hmid => hf h' a hmid.1

theorem inspectResponse_responds {serverId : String} {response : JsonRpcMessage}
    (hresponse : AnswersOnce id response ↔ UpstreamAnswersOnce id h) :
    Ensures Any (Responds id) (inspectResponse router toolName serverId response).run h := by
  unfold inspectResponse
  by_cases hcfg : (router.egressInspector && !(inspectedContent response).isEmpty) = true
  · simp only [hcfg, if_true, run_ask_bind, ensures_call]
    refine ⟨trivial, fun inspection => ?_⟩
    have hkept : Responds id (h ++ [⟨_, inspection⟩]) (.ok response) :=
      Responds.concat not_false hresponse
    cases inspection with
    | error e => exact hkept
    | ok sanitized =>
      by_cases hmod : sanitized.modified
      · simp only [hmod, if_true, run_pure, ensures_done]
        exact (answersOnce_rebuildResponse _ _).trans hkept
      · simp only [hmod, Bool.false_eq_true, if_false, run_pure, ensures_done]
        exact hkept
  · simp only [hcfg, Bool.false_eq_true, if_false, run_pure, ensures_done]
    exact hresponse

theorem forwardToolCall_responds {P : Value} {entry : RegisteredTool} (hno : NoForward h) :
    Ensures Any (Responds id) (forwardToolCall router id P toolName entry).run h := by
  refine ⟨trivial, fun reply => ?_⟩
  cases reply with
  | error e => trivial
  | ok response => exact inspectResponse_responds (upstreamAnswersOnce_forward hno).symm

theorem handleToolsCall_responds (hno : NoForward h) :
    Ensures Any (Responds id) (handleToolsCall router id params enforcer sessionId).run h := by
  refine Ensures.result_bind (fun _ _ => trivial) fun toolName _ => ?_
  refine Ensures.result_bind (fun _ _ => trivial) fun _ _ => ?_
  refine Quiet.then_responds hno lookupTool_spec fun h₁ entry hno₁ => ?_
  refine Quiet.then_responds hno₁ checkSchema_spec fun h₂ _ hno₂ => ?_
  refine Quiet.then_responds hno₂ checkConstraints_spec fun h₃ _ hno₃ => ?_
  refine Quiet.then_responds hno₃ checkSession_spec fun h₄ _ hno₄ => ?_
  exact forwardToolCall_responds hno₄

theorem proxyToUpstream_responds (hno : NoForward h) :
    Ensures Any (Responds id) (proxyToUpstream id method params).run h := by
  refine ⟨trivial, fun server => ?_⟩
  have hno' : NoForward (h ++ [⟨.defaultServerId, server⟩]) := hno.append not_false
  cases server with
  | none => trivial
  | some serverId =>
    refine ⟨trivial, fun reply => ?_⟩
    cases reply with
    | error e => trivial
    | ok response => exact (upstreamAnswersOnce_forward hno').symm

theorem handleInitialize_responds (hno : NoForward h) :
    Ensures Any (Responds id) (handleInitialize router id params).run h := by
  refine ⟨trivial, fun parsed => ?_⟩
  cases parsed with
  | error e => trivial
  | ok accepted =>
    have hno' : NoForward (h ++ [⟨.parseInitializeParams (params.getD defaultInitializeParams),
        .ok accepted⟩]) := hno.append not_false
    exact responds_local hno' _

theorem handleToolsList_responds (hno : NoForward h) :
    Ensures Any (Responds id) (handleToolsList id).run h := by
  refine ⟨trivial, fun tools => ?_⟩
  have hno' : NoForward (h ++ [⟨.listTools, tools⟩]) := hno.append not_false
  exact responds_local hno' _

theorem dispatch_responds (hno : NoForward h) :
    Ensures Any (Responds id) (dispatch router id method params enforcer sessionId).run h := by
  unfold dispatch
  split_ifs
  · exact handleInitialize_responds hno
  · exact responds_local hno _
  · exact handleToolsList_responds hno
  · exact handleToolsCall_responds hno
  · exact proxyToUpstream_responds hno
  · exact proxyToUpstream_responds hno
  · exact responds_local hno _
  · trivial
  · exact proxyToUpstream_responds hno

theorem handleRequest_responds :
    Ensures Any (Responds id) (handleRequest router id method params enforcer sessionId).run [] := by
  unfold handleRequest
  split_ifs
  · exact iff_of_true rfl (upstreamAnswersOnce_of_noForward noForward_nil)
  · refine Ensures.result_bind (fun _ _ => trivial) fun _ _ => ?_
    exact Quiet.then_responds noForward_nil checkPolicy_spec fun h' _ hno' => dispatch_responds hno'

theorem handleMessage_responds :
    Ensures Any (Responds id)
      (handleMessage router enforcer sessionId (.request id method params)) [] := by
  refine handleRequest_responds.bind fun tr result _ hr => ?_
  refine ((Ensures.and_invariant (I := fun tr => Responds id tr result)
    (fun _ _ _ hr hop => hr.concat hop) hr record_spec).mono_may fun _ _ _ => trivial).mono ?_
  rintro tr' _ - ⟨hr', rfl⟩
  exact hr'

/-! ## One element -/

/-- The error for a message that is a response. -/
def responseError : McpError := .invalidRequest
  "Gateway received a response message. Only requests and notifications are expected."

theorem handleMessage_response {message : JsonRpcMessage} (hresponse : message.responseId.isSome) :
    Ensures Any (fun _ r => r = .error responseError)
      (handleMessage router enforcer sessionId message) [] := by
  cases message with
  | success id value => exact record_neutral.mono_may fun _ _ _ => trivial
  | error id err => exact record_neutral.mono_may fun _ _ _ => trivial
  | _ => cases hresponse

/-- Its text speaks of notifications. -/
theorem writtenFor_responseError : writtenFor (.error responseError) = [] := by
  rw [writtenFor_error]
  exact if_pos (by decide +kernel)

theorem answersAll_request {reply : JsonRpcMessage} :
    AnswersAll [.request id method params] (writtenFor (.ok reply)) ↔ AnswersOnce id reply :=
  List.perm_singleton

theorem not_answersAll_error (hid : id ≠ .null) (e : McpError) :
    ¬ AnswersAll [.request id method params] (writtenFor (.error e)) := by
  intro hall
  have hsingle := List.perm_singleton.mp hall
  rw [writtenFor_error] at hsingle
  split_ifs at hsingle
  · cases hsingle
  · exact hid (Option.some.inj (List.cons.inj hsingle).1).symm

theorem answersAll_notification {e : McpError} :
    AnswersAll [.notification method params] (writtenFor (.error e)) ↔ Silenced e := by
  have hnil : AnswersAll [.notification method params] (writtenFor (.error e)) ↔
      writtenFor (.error e) = [] := List.perm_nil.trans List.map_eq_nil_iff
  rw [hnil, writtenFor_error]
  split_ifs with hsilent <;> simp [hsilent]

/-- The reply to a single element is complete exactly under the condition of `AnsweredWhen`. -/
theorem answersAll_iff {message : JsonRpcMessage} (hwire : message.Wire)
    (hrun : Steps (handleMessage router enforcer sessionId message) tr (.done result)) :
    AnswersAll [message] (writtenFor result) ↔ AnsweredWhen enforcer tr [message] := by
  cases message with
  | request id method params =>
    have hsettled := handleMessage_settled.post_of_steps hrun
    have hresponds : Responds id tr result := handleMessage_responds.post_of_steps hrun
    cases result with
    | ok reply =>
      have honce : AnswersOnce id reply ↔ UpstreamAnswersOnce id tr := hresponds
      have hnone : refusalOf enforcer method params tr = none := hsettled.1
      rw [answersAll_request, honce, AnsweredWhen, hnone]
      exact (and_iff_right rfl).symm
    | error e =>
      have hsome : refusalOf enforcer method params tr = some e := hsettled
      refine iff_of_false (not_answersAll_error hwire e) fun hanswered => ?_
      exact absurd (hsome.symm.trans hanswered.1) (by simp)
  | notification method params =>
    obtain ⟨e, he⟩ := handleNotification_eq_error method
    rw [handleMessage_notification.post_of_steps hrun, he, answersAll_notification,
      silenced_notification_iff he]
    rfl
  | success id value =>
    rw [(handleMessage_response rfl).post_of_steps hrun, writtenFor_responseError]
    exact iff_of_true (.refl _) trivial
  | error id err =>
    rw [(handleMessage_response rfl).post_of_steps hrun, writtenFor_responseError]
    exact iff_of_true (.refl _) trivial
  | batch elements => exact hwire.elim

/-! ## The first element alone -/

theorem handleMessage_ne_nil {message : JsonRpcMessage}
    (hrun : Steps (handleMessage router enforcer sessionId message) tr (.done result)) :
    tr ≠ [] := by
  rintro rfl
  have hdone := hrun.eq_of_nil
  rw [handleMessage_eq_processed] at hdone
  cases hroute : (route router message.processed enforcer sessionId).run with
  | done a =>
    rw [hroute] at hdone
    cases hdone
  | call op k =>
    rw [hroute] at hdone
    cases hdone

/-- The run of the first element has ended when it has, so no other element is routed. -/
theorem routedAll_iff {first : JsonRpcMessage} {rest : List JsonRpcMessage}
    (hrun : Steps (handleMessage router enforcer sessionId (.batch (first :: rest))) tr
      (.done result)) :
    RoutedAll router enforcer sessionId (first :: rest) tr ↔ rest = [] := by
  rw [handleMessage] at hrun
  constructor
  · rintro ⟨exchanges, rfl, hall⟩
    cases hall with
    | @cons _ tr₁ _ exchanges hfirst hrest =>
      obtain ⟨r, hfirst⟩ := hfirst
      have hnil : exchanges.flatten = [] := hfirst.eq_nil_of_done hrun
      cases hrest with
      | nil => rfl
      | cons hsecond _ =>
        obtain ⟨r', hsecond⟩ := hsecond
        exact absurd (List.append_eq_nil_iff.mp hnil).1 (handleMessage_ne_nil hsecond)
  · rintro rfl
    exact ⟨[tr], by simp, .cons ⟨result, hrun⟩ .nil⟩

/-- A batch is routed and answered completely exactly when it has one element that is answered. -/
theorem batch_answered_iff {serde : SerdeJson} {raw : Value} {elements : List JsonRpcMessage}
    (hparse : JsonRpcMessage.parse serde raw = .ok (.batch elements))
    (hrun : Steps (handleMessage router enforcer sessionId (.batch elements)) tr (.done result)) :
    RoutedAll router enforcer sessionId elements tr ∧ AnswersAll elements (writtenFor result) ↔
      AnsweredWhen enforcer tr elements := by
  obtain ⟨hne, hwire⟩ : elements ≠ [] ∧ ∀ m ∈ elements, m.Wire :=
    JsonRpcMessage.canonical_of_parse hparse
  cases elements with
  | nil => exact absurd rfl hne
  | cons first rest =>
    rw [routedAll_iff hrun]
    cases rest with
    | nil =>
      rw [handleMessage] at hrun
      rw [← answersAll_iff (hwire first List.mem_cons_self) hrun]
      simp
    | cons second rest => simp [AnsweredWhen]

end Batches

/-! ## Two batches -/

/-- A batch of requests without parameters. -/
def batchValue (methods : List (UInt64 × String)) : Value :=
  .array (methods.map fun (id, method) => .object [("jsonrpc", .string "2.0"),
    ("id", .number (.posInt id)), ("method", .string method)])

theorem batch_answered_iff_ping :
    RoutedAll plainRouter .allowAll none [.request (.integer 1) "ping" none]
        (recordTrace "ping" "success") ∧
      AnswersAll [.request (.integer 1) "ping" none]
        (writtenFor (.ok (.success (.integer 1) .emptyObject))) := by
  have hparse : JsonRpcMessage.parse (serdeFor (batchValue [(1, "ping")])) (batchValue [(1, "ping")]) =
      .ok (.batch [.request (.integer 1) "ping" none]) := rfl
  have hrun : Steps (handleMessage plainRouter .allowAll none
      (.batch [.request (.integer 1) "ping" none])) (recordTrace "ping" "success")
      (.done (.ok (.success (.integer 1) .emptyObject))) := .call (.call (.refl _))
  exact (batch_answered_iff hparse hrun).mpr
    ⟨rfl, upstreamAnswersOnce_of_noForward (noForward_recordTrace _ _)⟩

/-- Of two requests the second is not routed. -/
theorem second_not_routed :
    ∃ elements result,
      JsonRpcMessage.parse (serdeFor (batchValue [(1, "ping"), (2, "ping")]))
        (batchValue [(1, "ping"), (2, "ping")]) = .ok (.batch elements) ∧
      Steps (handleMessage plainRouter .allowAll none (.batch elements))
        (recordTrace "ping" "success") (.done result) ∧
      ¬ (RoutedAll plainRouter .allowAll none elements (recordTrace "ping" "success") ∧
        AnswersAll elements (writtenFor result)) := by
  refine ⟨[.request (.integer 1) "ping" none, .request (.integer 2) "ping" none],
    .ok (.success (.integer 1) .emptyObject), rfl, .call (.call (.refl _)), fun hserved => ?_⟩
  exact absurd hserved.2.length_eq (by decide)

end McpShield
