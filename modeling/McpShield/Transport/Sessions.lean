import McpShield.Gateway.Refusal
import McpShield.Lib.Machine
import McpShield.Transport.Replies

/-!
# The sessions of concurrent handlers

POST and DELETE handlers run side by side.  A POST checks its session against the table, exchanges
calls with the components one by one, and then updates the table; other handlers may do anything in
between.  `lifecycle` says which sessions are live at any moment, and who is told about one.
-/

open Effect Effect.Prog

namespace McpShield

/-! ## One handler -/

/-- The ids generated in an exchange. -/
def uuids (tr : GatewayTrace) : List String :=
  tr.filterMap fun
    | ⟨.newUuid, sid⟩ => some sid
    | _ => none

@[simp] theorem uuids_append (tr tr' : GatewayTrace) : uuids (tr ++ tr') = uuids tr ++ uuids tr' :=
  List.filterMap_append

theorem mem_uuids {tr : GatewayTrace} {sid : String}
    (h : (⟨.newUuid, sid⟩ : Event GatewayOp.Reply) ∈ tr) : sid ∈ uuids tr :=
  List.mem_filterMap.mpr ⟨_, h, rfl⟩

/-- The reply to an `initialize` request that has succeeded. -/
def InitializeReply (serde : SerdeJson) (body : ByteArray) (response : HttpResponse) : Prop :=
  ∃ id params result,
    StreamableHttp.readBody serde body = .ok (.request id methodInitialize params) ∧
      response.status = 200 ∧ response.body = some (JsonRpcMessage.success id result).toValue

/-- What a POST handler ends with: a new session is announced in the response, which is the reply to
an `initialize` request, and otherwise there is no session header. -/
def Concluded (serde : SerdeJson) (body : ByteArray) (tr : GatewayTrace)
    (out : HttpResponse × StreamableHttp.SessionUpdate) : Prop :=
  match out.2 with
  | .create sid _ => out.1.sessionId = some sid ∧ sid ∈ uuids tr ∧ InitializeReply serde body out.1
  | _ => out.1.sessionId = none

section Handler

variable {serde : SerdeJson} {router : McpRouter} {enforcer : ScopeEnforcer}
  {sessionId : Option String} {message : JsonRpcMessage} {body : ByteArray} {h tr : GatewayTrace}
  {id : RequestId} {params : Option Value}

theorem Concluded.initializeReply {out : HttpResponse × StreamableHttp.SessionUpdate} {sid : String}
    (h : Concluded serde body tr out) (hsid : out.1.sessionId = some sid) :
    sid ∈ uuids tr ∧ InitializeReply serde body out.1 := by
  obtain ⟨response, update⟩ := out
  cases update with
  | create sid' session =>
    obtain ⟨hsid', hmem, hreply⟩ := h
    obtain rfl := Option.some.inj (hsid.symm.trans hsid')
    exact ⟨hmem, hreply⟩
  | _ =>
    have hnone : response.sessionId = none := h
    exact absurd (hnone.symm.trans hsid) (by simp)

/-- The update of the table adds the announced session and nothing else. -/
theorem Concluded.mem_apply {out : HttpResponse × StreamableHttp.SessionUpdate}
    (h : Concluded serde body tr out) (sessions : SessionTable) (sid : String) :
    sid ∈ out.2.apply sessions ↔ sid ∈ sessions ∨ out.1.sessionId = some sid := by
  obtain ⟨response, update⟩ := out
  cases update with
  | keep =>
    have hnone : response.sessionId = none := h
    simp [StreamableHttp.SessionUpdate.apply, hnone]
  | create sid' session =>
    have hsome : response.sessionId = some sid' := h.1
    simp [StreamableHttp.SessionUpdate.apply, hsome, or_comm, eq_comm]
  | touch sid' now =>
    have hnone : response.sessionId = none := h
    simp only [StreamableHttp.SessionUpdate.apply, hnone, reduceCtorEq, or_false]
    cases hlookup : sessions.lookup sid' with
    | none => rfl
    | some session =>
      have hmem : sid' ∈ sessions := AList.lookup_isSome.mp (by simp [hlookup])
      simp only [AList.mem_insert, or_iff_right_iff_imp]
      rintro rfl
      exact hmem

/-- A reply to `initialize` is a success. -/
def Initialized (message : JsonRpcMessage) (r : Except McpError JsonRpcMessage) : Prop :=
  ∀ reply, r = .ok reply → ∃ id params result,
    message = .request id methodInitialize params ∧ reply = .success id result

theorem initialized_error (e : McpError) : Initialized message (.error e) := fun _ h => nomatch h

theorem handleInitialize_initialized :
    Ensures Any (fun _ => Initialized (.request id methodInitialize params))
      (handleInitialize router id params).run h := by
  refine ⟨trivial, fun parsed => ?_⟩
  cases parsed with
  | error e => exact initialized_error _
  | ok accepted =>
    intro reply hreply
    obtain rfl := Except.ok.inj hreply
    exact ⟨id, params, _, rfl, rfl⟩

theorem handleMessage_initialized (hmethod : message.method = some methodInitialize) :
    Ensures Any (fun _ => Initialized message) (handleMessage router enforcer sessionId message)
      [] := by
  cases message with
  | request id method params =>
    obtain rfl : method = methodInitialize := Option.some.inj hmethod
    have hroute : Ensures Any (fun _ => Initialized (.request id methodInitialize params))
        (handleRequest router id methodInitialize params enforcer sessionId).run [] := by
      refine Ensures.result_bind (fun e _ => initialized_error e) fun _ _ => ?_
      refine Ensures.bindExcept (checkPolicy_spec.mono_may fun _ _ _ => trivial)
        (fun _ e _ _ => initialized_error e) fun tr _ _ _ => ?_
      exact handleInitialize_initialized
    refine hroute.bind fun tr result _ hresult => ?_
    refine (record_spec.mono_may fun _ _ _ => trivial).mono ?_
    rintro tr' _ - rfl
    exact hresult
  | notification method params =>
    refine handleMessage_notification.mono fun tr result _ hresult => ?_
    obtain ⟨e, he⟩ := handleNotification_eq_error method
    rw [hresult, he]
    exact initialized_error e
  | _ => cases hmethod

/-- The response to a body that is no message announces no session. -/
theorem readBody_error_sessionId {response : HttpResponse}
    (hbody : StreamableHttp.readBody serde body = .error response) : response.sessionId = none := by
  unfold StreamableHttp.readBody at hbody
  split at hbody
  · obtain rfl := Except.error.inj hbody
    rfl
  · split at hbody
    · obtain rfl := Except.error.inj hbody
      rfl
    · split at hbody
      · obtain rfl := Except.error.inj hbody
        rfl
      · cases hbody

theorem routeMessage_concluded (hbody : StreamableHttp.readBody serde body = .ok message) :
    Ensures Any (Concluded serde body)
      (StreamableHttp.routeMessage router enforcer sessionId message) [] := by
  unfold StreamableHttp.routeMessage
  by_cases hinit : message.method = some "initialize"
  · refine (handleMessage_initialized hinit).bind fun tr result _ hinitialized => ?_
    cases result with
    | error e =>
      dsimp only
      split_ifs <;> exact rfl
    | ok reply =>
      obtain ⟨id, params, value, rfl, rfl⟩ := hinitialized reply rfl
      simp only [hinit, if_true]
      refine ⟨trivial, fun sid => ⟨trivial, fun createdAt => ⟨trivial, fun lastActivity => ?_⟩⟩⟩
      exact ⟨rfl, mem_uuids (by simp), id, params, value, hbody, rfl, rfl⟩
  · have hm : Ensures Any (Delivered router) (handleMessage router enforcer sessionId message) [] :=
      (handleMessage_spec router enforcer sessionId message).mono_may fun _ _ _ => trivial
    refine hm.bind fun tr result _ _ => ?_
    cases result with
    | error e =>
      dsimp only
      split_ifs <;> exact rfl
    | ok reply =>
      simp only [hinit, if_false]
      cases sessionId with
      | none => exact rfl
      | some sid => exact ⟨trivial, fun now => rfl⟩

theorem handleMcpPost_concluded (sessions : SessionTable) :
    Ensures Any (Concluded serde body)
      (StreamableHttp.handleMcpPost serde router enforcer sessions sessionId body) [] := by
  unfold StreamableHttp.handleMcpPost
  cases hbody : StreamableHttp.readBody serde body with
  | error response => exact readBody_error_sessionId hbody
  | ok message =>
    cases sessionId with
    | none => exact routeMessage_concluded hbody
    | some sid =>
      dsimp only
      split_ifs
      · exact routeMessage_concluded hbody
      · exact rfl

end Handler

/-! ## Concurrent handlers -/

/-- A POST handler in flight: its request, the table at its check, what it has exchanged since, and
what it will do next. -/
structure PostHandler where
  sessionId : Option String
  body : ByteArray
  checked : SessionTable
  exchanges : GatewayTrace
  program : Prog GatewayOp GatewayOp.Reply (HttpResponse × StreamableHttp.SessionUpdate)

/-- The server: the table, the handlers in flight, and the ids that have been generated. -/
structure HttpServer where
  sessions : SessionTable
  handlers : ℕ → Option PostHandler
  generated : List String

/-- An atomic step: a POST handler starts with the check of its session, a call of a handler is
answered, a handler updates the table and responds, or a session is deleted. -/
inductive HttpOp where
  | post (n : ℕ) (sessionId : Option String) (body : ByteArray)
  | answer (n : ℕ) (reply : (op : GatewayOp) → op.Reply)
  | respond (n : ℕ)
  | delete (sessionId : Option String)

/-- A response that is sent, and what it responds to. -/
inductive HttpReply where
  | posted (handler : PostHandler) (response : HttpResponse)
  | deleted (sessionId : Option String) (response : HttpResponse)

/-- The server as a machine. -/
def httpMachine (serde : SerdeJson) (router : McpRouter) (enforcer : ScopeEnforcer) :
    Machine HttpServer HttpOp (Option HttpReply) where
  step s
    | .post n sessionId body =>
        match s.handlers n with
        | some _ => (none, s)
        | none =>
            let program :=
              StreamableHttp.handleMcpPost serde router enforcer s.sessions sessionId body
            (none, { s with handlers := Function.update s.handlers n (some
              { sessionId, body, checked := s.sessions, exchanges := [], program }) })
    | .answer n reply =>
        match s.handlers n with
        | some { sessionId, body, checked, exchanges, program := .call op k } =>
            (none, { s with
              generated := s.generated ++ uuids [⟨op, reply op⟩]
              handlers := Function.update s.handlers n (some
                { sessionId, body, checked, exchanges := exchanges ++ [⟨op, reply op⟩]
                  program := k (reply op) }) })
        | _ => (none, s)
    | .respond n =>
        match s.handlers n with
        | some { sessionId, body, checked, exchanges, program := .done (response, update) } =>
            (some (.posted
              { sessionId, body, checked, exchanges, program := .done (response, update) } response),
              { s with
                sessions := update.apply s.sessions
                handlers := Function.update s.handlers n none })
        | _ => (none, s)
    | .delete sessionId =>
        let (response, sessions) := StreamableHttp.handleMcpDelete s.sessions sessionId
        (some (.deleted sessionId response), { s with sessions })

namespace HttpServer

/-- No session and no handler. -/
def start : HttpServer := { sessions := ∅, handlers := fun _ => none, generated := [] }

/-- The next call of a handler asks for an id. -/
def awaitsId (s : HttpServer) (n : ℕ) : Bool :=
  match s.handlers n with
  | some { program := .call .newUuid _, .. } => true
  | _ => false

/-- An id that is generated has not been generated before. -/
def FreshId (s : HttpServer) : HttpOp → Prop
  | .answer n reply => s.awaitsId n = true → reply .newUuid ∉ s.generated
  | _ => True

/-- The session that a response announces. -/
def issued? : Option HttpReply → Option String
  | some (.posted _ response) => response.sessionId
  | _ => none

/-- The session that has been deleted. -/
def terminated? : Option HttpReply → Option String
  | some (.deleted sessionId response) => if response.status = 200 then sessionId else none
  | _ => none

/-- The check of the handler has not found its session. -/
def Unknown (serde : SerdeJson) (handler : PostHandler) : Prop :=
  (∃ message, StreamableHttp.readBody serde handler.body = .ok message) ∧
    ∃ sid, handler.sessionId = some sid ∧ sid ∉ handler.checked

section Lifecycle

variable (serde : SerdeJson) (router : McpRouter) (enforcer : ScopeEnforcer)

/-- The server after the steps. -/
def after (ops : List HttpOp) : HttpServer := (httpMachine serde router enforcer).run start ops

/-- The responses of the steps. -/
def replies (ops : List HttpOp) : List (Option HttpReply) :=
  (httpMachine serde router enforcer).answers start ops

/-- The sessions announced so far. -/
def issued (ops : List HttpOp) : List String := (replies serde router enforcer ops).filterMap issued?

/-- The sessions deleted so far. -/
def terminated (ops : List HttpOp) : List String :=
  (replies serde router enforcer ops).filterMap terminated?

/-- The lifecycle of the sessions: live are those that have been announced and not deleted, a deleted
one stays so, one is announced only with a reply to `initialize`, and a POST whose check does not find
its session is answered with 404 and exchanges nothing with the components. -/
structure Lifecycle (ops : List HttpOp) : Prop where
  live : ∀ sid, sid ∈ (after serde router enforcer ops).sessions ↔
    sid ∈ issued serde router enforcer ops ∧ sid ∉ terminated serde router enforcer ops
  gone : ∀ before later, ops = before ++ later → ∀ sid ∈ terminated serde router enforcer before,
    sid ∉ (after serde router enforcer ops).sessions
  announced : ∀ handler response,
    some (.posted handler response) ∈ replies serde router enforcer ops →
      ∀ sid, response.sessionId = some sid → InitializeReply serde handler.body response
  notFound : ∀ handler response,
    some (.posted handler response) ∈ replies serde router enforcer ops → Unknown serde handler →
      response.status = 404 ∧ handler.exchanges = []
  notRouted : ∀ n handler, (after serde router enforcer ops).handlers n = some handler →
    Unknown serde handler → handler.exchanges = []

end Lifecycle

/-! ## The invariant -/

section Invariant

variable {serde : SerdeJson} {router : McpRouter} {enforcer : ScopeEnforcer}
  {past : List (Option HttpReply)} {s : HttpServer} {n : ℕ} {handler : PostHandler}

/-- What the server keeps, given the responses so far: handlers follow their program, the ids that
they have generated are their own and not announced yet, and the table holds what has been announced
and not deleted. -/
structure Tracked (serde : SerdeJson) (router : McpRouter) (enforcer : ScopeEnforcer)
    (past : List (Option HttpReply)) (s : HttpServer) : Prop where
  runs : ∀ n handler, s.handlers n = some handler →
    Steps (StreamableHttp.handleMcpPost serde router enforcer handler.checked handler.sessionId
      handler.body) handler.exchanges handler.program
  unannounced : ∀ n handler, s.handlers n = some handler → ∀ sid ∈ uuids handler.exchanges,
    sid ∈ s.generated ∧ sid ∉ past.filterMap issued?
  apart : ∀ n n' handler handler', n ≠ n' → s.handlers n = some handler →
    s.handlers n' = some handler' → ∀ sid ∈ uuids handler.exchanges, sid ∉ uuids handler'.exchanges
  announced : ∀ sid ∈ past.filterMap issued?, sid ∈ s.generated
  deleted : ∀ sid ∈ past.filterMap terminated?, sid ∈ past.filterMap issued?
  live : ∀ sid, sid ∈ s.sessions ↔
    sid ∈ past.filterMap issued? ∧ sid ∉ past.filterMap terminated?
  responses : ∀ handler response, some (.posted handler response) ∈ past → ∃ update,
    Steps (StreamableHttp.handleMcpPost serde router enforcer handler.checked handler.sessionId
      handler.body) handler.exchanges (.done (response, update))

theorem tracked_start : Tracked serde router enforcer [] start where
  runs _ _ h := nomatch h
  unannounced _ _ h := nomatch h
  apart _ _ _ _ _ h := nomatch h
  announced := by simp
  deleted := by simp
  live sid := by simp [start]
  responses := by simp

theorem mem_filterMap_concat {f : Option HttpReply → Option String} {reply : Option HttpReply}
    {sid : String} :
    sid ∈ (past ++ [reply]).filterMap f ↔ sid ∈ past.filterMap f ∨ f reply = some sid := by
  simp [List.filterMap_append, List.mem_filterMap, or_comm]

/-- A step that announces no session, and deletes the session that its response says. -/
theorem Tracked.concat (h : Tracked serde router enforcer past s) {reply : Option HttpReply}
    {sessions : SessionTable} (hissued : issued? reply = none)
    (hposted : ∀ handler response, reply ≠ some (.posted handler response))
    (hfound : ∀ sid, terminated? reply = some sid → sid ∈ s.sessions)
    (hlive : ∀ sid, sid ∈ sessions ↔ sid ∈ s.sessions ∧ terminated? reply ≠ some sid) :
    Tracked serde router enforcer (past ++ [reply]) { s with sessions } := by
  have hsame : ∀ sid, sid ∈ (past ++ [reply]).filterMap issued? ↔ sid ∈ past.filterMap issued? := by
    intro sid
    simp [hissued]
  refine ⟨h.runs, ?_, h.apart, ?_, ?_, ?_, ?_⟩
  · intro n handler hn sid hsid
    rw [hsame]
    exact h.unannounced n handler hn sid hsid
  · exact fun sid hsid => h.announced sid ((hsame sid).mp hsid)
  · intro sid hsid
    rw [hsame]
    rcases mem_filterMap_concat.mp hsid with hsid | hsid
    · exact h.deleted sid hsid
    · exact ((h.live sid).mp (hfound sid hsid)).1
  · intro sid
    rw [hlive, h.live, hsame, mem_filterMap_concat, not_or, and_assoc]
  · intro handler response hmem
    rcases List.mem_append.mp hmem with hmem | hmem
    · exact h.responses handler response hmem
    · exact absurd (List.mem_singleton.mp hmem).symm (hposted handler response)

/-- A step without a response that leaves the server as it is. -/
theorem Tracked.silent (h : Tracked serde router enforcer past s) :
    Tracked serde router enforcer (past ++ [none]) s :=
  h.concat rfl (fun _ _ => nofun) (fun _ hsid => nomatch hsid)
    fun _ => ⟨fun hmem => ⟨hmem, nofun⟩, And.left⟩

/-- A handler that has been set, or another one. -/
theorem handlers_update {handlers : ℕ → Option PostHandler} {m : ℕ} {handler' : PostHandler}
    (h : Function.update handlers n (some handler) m = some handler') :
    m = n ∧ handler' = handler ∨ m ≠ n ∧ handlers m = some handler' := by
  by_cases hm : m = n
  · subst hm
    rw [Function.update_self] at h
    exact .inl ⟨rfl, (Option.some.inj h).symm⟩
  · rw [Function.update_of_ne hm] at h
    exact .inr ⟨hm, h⟩

/-- A handler is set whose ids are fresh or its own from before. -/
theorem Tracked.set (h : Tracked serde router enforcer past s) {generated : List String}
    (hruns : Steps (StreamableHttp.handleMcpPost serde router enforcer handler.checked
      handler.sessionId handler.body) handler.exchanges handler.program)
    (hgenerated : s.generated ⊆ generated)
    (hids : ∀ sid ∈ uuids handler.exchanges, sid ∈ generated ∧ (sid ∉ s.generated ∨
      ∃ old, s.handlers n = some old ∧ sid ∈ uuids old.exchanges)) :
    Tracked serde router enforcer past
      { s with generated, handlers := Function.update s.handlers n (some handler) } where
  runs m handler' hm := by
    rcases handlers_update hm with ⟨rfl, rfl⟩ | ⟨-, hm⟩
    · exact hruns
    · exact h.runs m handler' hm
  unannounced m handler' hm sid hsid := by
    rcases handlers_update hm with ⟨rfl, rfl⟩ | ⟨-, hm⟩
    · refine ⟨(hids sid hsid).1, ?_⟩
      rcases (hids sid hsid).2 with hfresh | ⟨old, hold, hsid'⟩
      · exact fun hissued => hfresh (h.announced sid hissued)
      · exact (h.unannounced _ old hold sid hsid').2
    · obtain ⟨hgen, hissued⟩ := h.unannounced m handler' hm sid hsid
      exact ⟨hgenerated hgen, hissued⟩
  apart m m' handler₁ handler₂ hne hm hm' sid hsid hsid' := by
    -- Ids of two handlers differ unless one of them is set here; then they are fresh or its own.
    have hother : ∀ k other, k ≠ n → s.handlers k = some other → sid ∈ uuids other.exchanges →
        sid ∉ uuids handler.exchanges := by
      intro k other hk hother hmem hset
      rcases (hids sid hset).2 with hfresh | ⟨old, hold, hmem'⟩
      · exact hfresh (h.unannounced k other hother sid hmem).1
      · exact h.apart k n other old hk hother hold sid hmem hmem'
    rcases handlers_update hm with ⟨rfl, rfl⟩ | ⟨hk, hold⟩
    · rcases handlers_update hm' with ⟨rfl, rfl⟩ | ⟨hk', hold'⟩
      · exact hne rfl
      · exact hother m' handler₂ hk' hold' hsid' hsid
    · rcases handlers_update hm' with ⟨rfl, rfl⟩ | ⟨hk', hold'⟩
      · exact hother m handler₁ hk hold hsid hsid'
      · exact h.apart m m' handler₁ handler₂ hne hold hold' sid hsid hsid'
  announced sid hsid := hgenerated (h.announced sid hsid)
  deleted := h.deleted
  live := h.live
  responses := h.responses

theorem Tracked.post (h : Tracked serde router enforcer past s) (sessionId : Option String)
    (body : ByteArray) :
    Tracked serde router enforcer
      (past ++ [((httpMachine serde router enforcer).step s (.post n sessionId body)).1])
      ((httpMachine serde router enforcer).step s (.post n sessionId body)).2 := by
  simp only [httpMachine]
  split
  · exact h.silent
  · refine (h.set (.refl _) (List.Subset.refl _) fun sid hsid => ?_).silent
    simp [uuids] at hsid

/-- What a handler generates with its next call is fresh. -/
theorem uuids_of_freshId {reply : (op : GatewayOp) → op.Reply} {op : GatewayOp}
    {k : op.Reply → Prog GatewayOp GatewayOp.Reply (HttpResponse × StreamableHttp.SessionUpdate)}
    (hn : s.handlers n = some handler) (hprogram : handler.program = .call op k)
    (hfresh : FreshId s (.answer n reply)) :
    ∀ sid ∈ uuids [⟨op, reply op⟩], sid ∉ s.generated := by
  cases op with
  | newUuid =>
    intro sid hsid
    have hsingle : sid ∈ [reply .newUuid] := hsid
    obtain rfl := List.mem_singleton.mp hsingle
    refine hfresh ?_
    unfold awaitsId
    obtain ⟨sessionId, body, checked, exchanges, program⟩ := handler
    obtain rfl : program = _ := hprogram
    rw [hn]
  | _ => simp [uuids]

theorem Tracked.answer (h : Tracked serde router enforcer past s)
    {reply : (op : GatewayOp) → op.Reply} (hfresh : FreshId s (.answer n reply)) :
    Tracked serde router enforcer
      (past ++ [((httpMachine serde router enforcer).step s (.answer n reply)).1])
      ((httpMachine serde router enforcer).step s (.answer n reply)).2 := by
  simp only [httpMachine]
  split
  · next sessionId body checked exchanges op k hn =>
    have hruns := h.runs n _ hn
    refine (h.set ?_ (List.subset_append_left _ _) fun sid hsid => ?_).silent
    · exact hruns.trans (.call (.refl _))
    · rw [uuids_append, List.mem_append] at hsid
      rcases hsid with hsid | hsid
      · refine ⟨List.mem_append_left _ (h.unannounced n _ hn sid hsid).1, .inr ⟨_, hn, hsid⟩⟩
      · exact ⟨List.mem_append_right _ hsid, .inl (uuids_of_freshId hn rfl hfresh sid hsid)⟩
  · exact h.silent

theorem handlers_clear {handlers : ℕ → Option PostHandler} {m : ℕ}
    (h : Function.update handlers n none m = some handler) : m ≠ n ∧ handlers m = some handler := by
  by_cases hm : m = n
  · subst hm
    rw [Function.update_self] at h
    cases h
  · rw [Function.update_of_ne hm] at h
    exact ⟨hm, h⟩

theorem Tracked.respond (h : Tracked serde router enforcer past s) :
    Tracked serde router enforcer
      (past ++ [((httpMachine serde router enforcer).step s (.respond n)).1])
      ((httpMachine serde router enforcer).step s (.respond n)).2 := by
  simp only [httpMachine]
  split
  · next sessionId body checked exchanges response update hn =>
    have hruns := h.runs n _ hn
    have hconcluded : Concluded serde body exchanges (response, update) :=
      (handleMcpPost_concluded checked).post_of_steps hruns
    -- What is announced now is an id that the handler has generated and nobody has announced.
    have hnew : ∀ sid, response.sessionId = some sid → sid ∈ uuids exchanges := fun sid hsid =>
      (hconcluded.initializeReply hsid).1
    constructor
    case runs =>
      exact fun m handler hm => h.runs m handler (handlers_clear hm).2
    case unannounced =>
      intro m handler hm sid hsid
      obtain ⟨hne, hold⟩ := handlers_clear hm
      obtain ⟨hgenerated, hissued⟩ := h.unannounced m handler hold sid hsid
      rw [mem_filterMap_concat, not_or]
      exact ⟨hgenerated, hissued, fun hsid' =>
        h.apart m n handler _ hne hold hn sid hsid (hnew sid hsid')⟩
    case apart =>
      exact fun m m' handler handler' hne hm hm' =>
        h.apart m m' handler handler' hne (handlers_clear hm).2 (handlers_clear hm').2
    case announced =>
      intro sid hsid
      rcases mem_filterMap_concat.mp hsid with hsid | hsid
      · exact h.announced sid hsid
      · exact (h.unannounced n _ hn sid (hnew sid hsid)).1
    case deleted =>
      intro sid hsid
      rcases mem_filterMap_concat.mp hsid with hsid | hsid
      · exact mem_filterMap_concat.mpr (.inl (h.deleted sid hsid))
      · cases hsid
    case live =>
      intro sid
      rw [hconcluded.mem_apply, mem_filterMap_concat, mem_filterMap_concat, h.live]
      constructor
      · rintro (⟨hissued, hlive⟩ | hsid)
        · exact ⟨.inl hissued, not_or.mpr ⟨hlive, by simp [terminated?]⟩⟩
        · refine ⟨.inr hsid, not_or.mpr ⟨fun hdeleted => ?_, by simp [terminated?]⟩⟩
          exact (h.unannounced n _ hn sid (hnew sid hsid)).2 (h.deleted sid hdeleted)
      · rintro ⟨hissued | hsid, hlive⟩
        · exact .inl ⟨hissued, (not_or.mp hlive).1⟩
        · exact .inr hsid
    case responses =>
      intro handler response' hmem
      rcases List.mem_append.mp hmem with hmem | hmem
      · exact h.responses handler response' hmem
      · cases List.mem_singleton.mp hmem
        exact ⟨update, hruns⟩
  · exact h.silent

/-- A session that is found is deleted; otherwise nothing changes and the response is not 200. -/
theorem handleMcpDelete_cases (sessions : SessionTable) (sessionId : Option String) :
    (∃ sid response, sessionId = some sid ∧ sid ∈ sessions ∧ response.status = 200 ∧
      StreamableHttp.handleMcpDelete sessions sessionId = (response, sessions.erase sid)) ∨
    ∃ response, response.status ≠ 200 ∧
      StreamableHttp.handleMcpDelete sessions sessionId = (response, sessions) := by
  unfold StreamableHttp.handleMcpDelete
  cases sessionId with
  | none => exact .inr ⟨_, by decide, rfl⟩
  | some sid =>
    by_cases hmem : sid ∈ sessions
    · exact .inl ⟨sid, _, rfl, hmem, rfl, if_pos hmem⟩
    · exact .inr ⟨_, by decide, if_neg hmem⟩

theorem Tracked.delete (h : Tracked serde router enforcer past s) (sessionId : Option String) :
    Tracked serde router enforcer
      (past ++ [((httpMachine serde router enforcer).step s (.delete sessionId)).1])
      ((httpMachine serde router enforcer).step s (.delete sessionId)).2 := by
  simp only [httpMachine]
  rcases handleMcpDelete_cases s.sessions sessionId with
    ⟨sid, response, rfl, hmem, hstatus, hdelete⟩ | ⟨response, hstatus, hdelete⟩
  · rw [hdelete]
    have hterminated : terminated? (some (.deleted (some sid) response)) = some sid := if_pos hstatus
    refine h.concat rfl (fun _ _ => nofun) (fun sid' hsid => ?_) fun sid' => ?_
    · rw [hterminated] at hsid
      exact Option.some.inj hsid ▸ hmem
    · rw [AList.mem_erase, hterminated, and_comm, ne_eq, ne_eq, Option.some.injEq, eq_comm]
  · rw [hdelete]
    have hterminated : terminated? (some (.deleted sessionId response)) = none := if_neg hstatus
    refine h.concat rfl (fun _ _ => nofun) (fun sid' hsid => ?_) fun sid' => ?_
    · rw [hterminated] at hsid
      cases hsid
    · simp [hterminated]

theorem Tracked.step (h : Tracked serde router enforcer past s) {op : HttpOp} (hfresh : FreshId s op) :
    Tracked serde router enforcer (past ++ [((httpMachine serde router enforcer).step s op).1])
      ((httpMachine serde router enforcer).step s op).2 := by
  cases op with
  | post n sessionId body => exact h.post sessionId body
  | answer n reply => exact h.answer hfresh
  | respond n => exact h.respond
  | delete sessionId => exact h.delete sessionId

theorem tracked_of_fresh {ops : List HttpOp}
    (hfresh : (httpMachine serde router enforcer).Along FreshId start ops) :
    Tracked serde router enforcer (replies serde router enforcer ops)
      (after serde router enforcer ops) := by
  induction ops using List.reverseRecOn with
  | nil => exact tracked_start
  | append_singleton ops op ih =>
    rw [Machine.along_concat] at hfresh
    rw [replies, after, Machine.answers_append, Machine.run_append]
    exact (ih hfresh.1).step hfresh.2

/-- What the handler of an unknown session does. -/
theorem steps_of_unknown {tr : GatewayTrace}
    {q : Prog GatewayOp GatewayOp.Reply (HttpResponse × StreamableHttp.SessionUpdate)}
    (hunknown : Unknown serde handler)
    (hruns : Steps (StreamableHttp.handleMcpPost serde router enforcer handler.checked
      handler.sessionId handler.body) tr q) :
    tr = [] ∧ q = .done (StreamableHttp.unknownSession, .keep) := by
  obtain ⟨⟨message, hbody⟩, sid, hsid, hnot⟩ := hunknown
  have hadmits : ¬ (Transport.http handler.checked handler.sessionId).Admits :=
    fun hadmits => hnot (hadmits sid hsid)
  rw [handleMcpPost_of_not_admits hbody hadmits] at hruns
  cases hruns
  exact ⟨rfl, rfl⟩

theorem terminated_append (before later : List HttpOp) {sid : String}
    (h : sid ∈ terminated serde router enforcer before) :
    sid ∈ terminated serde router enforcer (before ++ later) := by
  rw [terminated, replies, Machine.answers_append, List.filterMap_append]
  exact List.mem_append_left _ h

/-- If no id is generated twice, the sessions keep their lifecycle under every interleaving. -/
theorem lifecycle {ops : List HttpOp}
    (hfresh : (httpMachine serde router enforcer).Along FreshId start ops) :
    Lifecycle serde router enforcer ops := by
  have htracked := tracked_of_fresh hfresh
  refine ⟨htracked.live, ?_, ?_, ?_, ?_⟩
  · rintro before later rfl sid hsid hlive
    exact ((htracked.live sid).mp hlive).2 (terminated_append before later hsid)
  · intro handler response hmem sid hsid
    obtain ⟨update, hruns⟩ := htracked.responses handler response hmem
    exact (((handleMcpPost_concluded handler.checked).post_of_steps hruns).initializeReply hsid).2
  · intro handler response hmem hunknown
    obtain ⟨update, hruns⟩ := htracked.responses handler response hmem
    obtain ⟨hnil, hdone⟩ := steps_of_unknown hunknown hruns
    cases hdone
    exact ⟨rfl, hnil⟩
  · intro n handler hn hunknown
    exact (steps_of_unknown hunknown (htracked.runs n handler hn)).1

end Invariant

/-! ## A session from its start to its end -/

/-- A client opens a session and deletes it. -/
def openAndDelete : List HttpOp :=
  .post 0 none (requestValue "initialize").toJsonString.toUTF8 ::
    (List.replicate 6 (.answer 0 openComponents.answer) ++
      [.respond 0, .delete (some "00000000-0000-4000-8000-000000000000")])

/-- The handler of the first request. -/
def openingHandler : PostHandler where
  sessionId := none
  body := (requestValue "initialize").toJsonString.toUTF8
  checked := ∅
  exchanges := []
  program := StreamableHttp.routeMessage plainRouter .allowAll none
    (.request (.integer 1) "initialize" none)

theorem handleMcpPost_openingHandler :
    StreamableHttp.handleMcpPost (serdeFor (requestValue "initialize")) plainRouter .allowAll ∅ none
      openingHandler.body = openingHandler.program :=
  handleMcpPost_of_admits (readBody_serdeFor (parse_requestValue "initialize"))
    fun _ hsid => nomatch hsid

theorem step_openingHandler :
    ((httpMachine (serdeFor (requestValue "initialize")) plainRouter .allowAll).step start
      (.post 0 none openingHandler.body)).2 =
        { start with handlers := Function.update start.handlers 0 (some openingHandler) } :=
  congrArg (fun program => ({ start with handlers := Function.update start.handlers 0 (some
    { openingHandler with program }) } : HttpServer)) handleMcpPost_openingHandler

theorem lifecycle_openAndDelete :
    Lifecycle (serdeFor (requestValue "initialize")) plainRouter .allowAll openAndDelete := by
  refine lifecycle ⟨trivial, ?_⟩
  show (httpMachine _ _ _).Along FreshId ((httpMachine _ _ _).step start
    (.post 0 none openingHandler.body)).2 _
  rw [step_openingHandler]
  -- The fourth call asks for the id, before which none has been generated.
  exact ⟨nofun, nofun, nofun, fun _ => List.not_mem_nil, nofun, nofun, trivial, trivial, trivial⟩

end HttpServer

end McpShield
