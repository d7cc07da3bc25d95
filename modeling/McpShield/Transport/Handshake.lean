import McpShield.Lib.KeyedStore
import McpShield.Transport.Sessions

/-!
# The handshake

A session is marked as initialized at the end of the POST handler.  A notification never comes there:
it is accepted by an early return.  What comes there is any other message of the session that the
router answers.  `flagTracks_iff` says in which runs the mark tells nevertheless whether
`notifications/initialized` has been accepted.
-/

open Effect Effect.Prog

namespace McpShield

namespace HttpServer

/-! ## Handshakes -/

section Handshake

variable (serde : SerdeJson) (router : McpRouter) (enforcer : ScopeEnforcer)

/-- The body of the handler is a `notifications/initialized`. -/
def BearsInitialized (handler : PostHandler) : Prop :=
  ∃ params, StreamableHttp.readBody serde handler.body =
    .ok (.notification methodInitialized params)

/-- A `notifications/initialized` that bears the session is accepted. -/
def Accepts (sid : String) : Option HttpReply → Prop
  | some (.posted handler response) =>
      handler.sessionId = some sid ∧ response.status = 202 ∧ BearsInitialized serde handler
  | _ => False

/-- A `notifications/initialized` has been accepted after the session was announced. -/
def Handshaken (past : List (Option HttpReply)) (sid : String) : Prop :=
  ∃ before reply later, past = before ++ reply :: later ∧ sid ∈ before.filterMap issued? ∧
    Accepts serde sid reply

/-- At any moment, exactly the live sessions with a handshake are marked as initialized. -/
def FlagTracks (ops : List HttpOp) : Prop :=
  ∀ before later, ops = before ++ later → ∀ sid session,
    (after serde router enforcer before).sessions.lookup sid = some session →
      (session.initialized = true ↔ Handshaken serde (replies serde router enforcer before) sid)

/-- The router has answered the message of the handler, which is no `initialize`. -/
def AnsweredOk (handler : PostHandler) : Prop :=
  ∃ message reply tr later, StreamableHttp.readBody serde handler.body = .ok message ∧
    message.method ≠ some "initialize" ∧ handler.exchanges = tr ++ later ∧
    Steps (handleMessage router enforcer handler.sessionId message) tr (.done (.ok reply))

/-- If a handler of a live session ends here, its message has not been answered, or is an
`initialize`, and it is no `notifications/initialized`. -/
def LeavesFlag (s : HttpServer) : HttpOp → Prop
  | .respond n => ∀ handler out sid, s.handlers n = some handler → handler.program = .done out →
      handler.sessionId = some sid → sid ∈ handler.checked → sid ∈ s.sessions →
        ¬ AnsweredOk serde router enforcer handler ∧ ¬ BearsInitialized serde handler
  | _ => True

end Handshake

/-! ## One handler -/

section Handler

variable {serde : SerdeJson} {router : McpRouter} {enforcer : ScopeEnforcer}
  {sessionId : Option String} {message : JsonRpcMessage} {tr : GatewayTrace} {sid : String}
  {handler : PostHandler} {response : HttpResponse} {update : StreamableHttp.SessionUpdate}

/-- What is made of the result of a message. -/
def Finishes (sessionId : Option String) (message : JsonRpcMessage)
    (out : HttpResponse × StreamableHttp.SessionUpdate) :
    Except McpError JsonRpcMessage → Prop
  | .error e => out.2 = .keep ∧
      (Str.containsStr e.display "notification" = true → out.1.status = 202)
  | .ok _ => out.1.status = 200 ∧
      ((message.method = some "initialize" ∧
          ∃ sid session, out.2 = .create sid session ∧ session.initialized = false) ∨
        (message.method ≠ some "initialize" ∧
          match sessionId with
          | some sid => ∃ now, out.2 = .touch sid now
          | none => out.2 = .keep))

theorem routeMessage_finishes :
    Ensures Any (fun tr out => ∃ trm later result, tr = trm ++ later ∧
        Steps (handleMessage router enforcer sessionId message) trm (.done result) ∧
        Finishes sessionId message out result)
      (StreamableHttp.routeMessage router enforcer sessionId message) [] := by
  unfold StreamableHttp.routeMessage
  refine ((ensures_steps _).mono_may fun _ _ _ => trivial).bind fun tr result _ hsteps => ?_
  cases result with
  | error e =>
    by_cases hsilent : Str.containsStr e.display "notification" = true
    · simp only [hsilent, if_true]
      exact ⟨tr, [], _, (List.append_nil tr).symm, hsteps, rfl, fun _ => rfl⟩
    · simp only [hsilent, Bool.false_eq_true, if_false]
      exact ⟨tr, [], _, (List.append_nil tr).symm, hsteps, rfl, fun h => absurd h hsilent⟩
  | ok reply =>
    by_cases hinit : message.method = some "initialize"
    · simp only [hinit, if_true]
      refine ⟨trivial, fun sid => ⟨trivial, fun createdAt => ⟨trivial, fun lastActivity => ?_⟩⟩⟩
      exact ⟨tr, _, _, by rw [List.append_assoc, List.append_assoc], hsteps, rfl,
        .inl ⟨hinit, _, _, rfl, rfl⟩⟩
    · simp only [hinit, if_false]
      cases sessionId with
      | none => exact ⟨tr, [], _, (List.append_nil tr).symm, hsteps, rfl, .inr ⟨hinit, rfl⟩⟩
      | some sid =>
        refine ⟨trivial, fun now => ?_⟩
        exact ⟨tr, _, _, rfl, hsteps, rfl, .inr ⟨hinit, now, rfl⟩⟩

/-- A message whose session is found, if it has one, is finished as its result says. -/
theorem finishes_of_steps (hbody : StreamableHttp.readBody serde handler.body = .ok message)
    (hadmits : (Transport.http handler.checked handler.sessionId).Admits)
    (hruns : Steps (StreamableHttp.handleMcpPost serde router enforcer handler.checked
      handler.sessionId handler.body) handler.exchanges (.done (response, update))) :
    ∃ trm later result, handler.exchanges = trm ++ later ∧
      Steps (handleMessage router enforcer handler.sessionId message) trm (.done result) ∧
      Finishes handler.sessionId message (response, update) result := by
  rw [handleMcpPost_of_admits hbody hadmits] at hruns
  exact routeMessage_finishes.post_of_steps hruns

/-- A message under an unknown session, or a body without a message, changes no session and is not
accepted. -/
theorem refused_of_steps
    (hrefused : ∀ message, StreamableHttp.readBody serde handler.body = .ok message →
      ¬ (Transport.http handler.checked handler.sessionId).Admits)
    (hruns : Steps (StreamableHttp.handleMcpPost serde router enforcer handler.checked
      handler.sessionId handler.body) handler.exchanges (.done (response, update))) :
    update = .keep ∧ (BearsInitialized serde handler → response.status = 404) := by
  generalize handler.exchanges = tr at hruns
  cases hbody : StreamableHttp.readBody serde handler.body with
  | error refusal =>
    have hprogram : StreamableHttp.handleMcpPost serde router enforcer handler.checked
        handler.sessionId handler.body = .done (refusal, .keep) := by
      unfold StreamableHttp.handleMcpPost
      rw [hbody]
      rfl
    rw [hprogram] at hruns
    cases hruns
    exact ⟨rfl, fun ⟨params, h⟩ => nomatch hbody.symm.trans h⟩
  | ok message =>
    rw [handleMcpPost_of_not_admits hbody (hrefused message hbody)] at hruns
    cases hruns
    exact ⟨rfl, fun _ => rfl⟩

theorem admits_of_checked (hsid : handler.sessionId = some sid) (hchecked : sid ∈ handler.checked) :
    (Transport.http handler.checked handler.sessionId).Admits := by
  intro sid' hsid'
  obtain rfl := Option.some.inj (hsid.symm.trans hsid')
  exact hchecked

/-- What a POST handler that bears a session ends with. -/
structure Ended (serde : SerdeJson) (router : McpRouter) (enforcer : ScopeEnforcer)
    (handler : PostHandler) (response : HttpResponse) (update : StreamableHttp.SessionUpdate) :
    Prop where
  created : ∀ sid session, update = .create sid session → session.initialized = false
  touched : ∀ sid now, update = .touch sid now → handler.sessionId = some sid ∧
    sid ∈ handler.checked ∧ AnsweredOk serde router enforcer handler
  answered : ∀ sid, handler.sessionId = some sid → sid ∈ handler.checked →
    AnsweredOk serde router enforcer handler → response.status = 200 ∧ ∃ now, update = .touch sid now
  accepted : ∀ sid, handler.sessionId = some sid → sid ∈ handler.checked →
    BearsInitialized serde handler → response.status = 202 ∧ update = .keep
  known : ∀ sid, handler.sessionId = some sid → response.status = 202 →
    BearsInitialized serde handler → sid ∈ handler.checked

theorem ended_of_refused
    (hrefused : ∀ message, StreamableHttp.readBody serde handler.body = .ok message →
      ¬ (Transport.http handler.checked handler.sessionId).Admits)
    (hruns : Steps (StreamableHttp.handleMcpPost serde router enforcer handler.checked
      handler.sessionId handler.body) handler.exchanges (.done (response, update))) :
    Ended serde router enforcer handler response update := by
  obtain ⟨rfl, hstatus⟩ := refused_of_steps hrefused hruns
  constructor
  case created => exact fun _ _ h => nomatch h
  case touched => exact fun _ _ h => nomatch h
  case answered =>
    rintro sid hsid hchecked ⟨message, _, _, _, hbody, -⟩
    exact (hrefused message hbody (admits_of_checked hsid hchecked)).elim
  case accepted =>
    rintro sid hsid hchecked ⟨params, hbody⟩
    exact (hrefused _ hbody (admits_of_checked hsid hchecked)).elim
  case known =>
    intro sid hsid haccepted hbears
    rw [hstatus hbears] at haccepted
    cases haccepted

/-- The result for a `notifications/initialized` is an error that is not answered. -/
theorem result_of_initialized {params : Option Value} {result : Except McpError JsonRpcMessage}
    (hsteps : Steps (handleMessage router enforcer sessionId
      (.notification methodInitialized params)) tr (.done result)) :
    ∃ e, result = .error e ∧ Str.containsStr e.display "notification" = true := by
  have hresult : result = handleNotification methodInitialized :=
    handleMessage_notification.post_of_steps hsteps
  obtain ⟨e, he⟩ := handleNotification_eq_error methodInitialized
  exact ⟨e, hresult.trans he, (silenced_notification_iff he).mpr (.inl rfl)⟩

theorem ended_of_admits (hbody : StreamableHttp.readBody serde handler.body = .ok message)
    (hadmits : (Transport.http handler.checked handler.sessionId).Admits)
    (hruns : Steps (StreamableHttp.handleMcpPost serde router enforcer handler.checked
      handler.sessionId handler.body) handler.exchanges (.done (response, update))) :
    Ended serde router enforcer handler response update := by
  obtain ⟨trm, later, result, hsplit, hsteps, hfinishes⟩ := finishes_of_steps hbody hadmits hruns
  have hprefix : trm <+: handler.exchanges := hsplit ▸ List.prefix_append trm later
  -- the exchanges determine the result
  have hresult : ∀ tr' later' reply, handler.exchanges = tr' ++ later' →
      Steps (handleMessage router enforcer handler.sessionId message) tr' (.done (.ok reply)) →
        result = .ok reply := fun tr' later' reply hsplit' hsteps' =>
    hsteps.value_unique hsteps' hprefix (hsplit' ▸ List.prefix_append tr' later')
  constructor
  case created =>
    rintro sid session rfl
    cases result with
    | error e => cases hfinishes.1
    | ok reply =>
      obtain ⟨-, ⟨-, sid', session', heq, hfalse⟩ | ⟨-, hkept⟩⟩ := hfinishes
      · cases heq
        exact hfalse
      · cases hsid : handler.sessionId with
        | none => simp [hsid] at hkept
        | some sid' => simp [hsid] at hkept
  case touched =>
    rintro sid now rfl
    cases result with
    | error e => cases hfinishes.1
    | ok reply =>
      obtain ⟨-, ⟨-, _, _, heq, -⟩ | ⟨hmethod, hkept⟩⟩ := hfinishes
      · cases heq
      · cases hsid : handler.sessionId with
        | none => simp [hsid] at hkept
        | some sid' =>
          simp only [hsid, StreamableHttp.SessionUpdate.touch.injEq, exists_and_left,
            exists_eq', and_true] at hkept
          subst hkept
          exact ⟨rfl, hadmits sid hsid, message, reply, trm, later, hbody, hmethod, hsplit, hsteps⟩
  case answered =>
    rintro sid hsid hchecked ⟨message', reply, tr', later', hbody', hmethod, hsplit', hsteps'⟩
    obtain rfl := Except.ok.inj (hbody.symm.trans hbody')
    obtain rfl := hresult tr' later' reply hsplit' hsteps'
    obtain ⟨hstatus, ⟨hinit, -⟩ | ⟨-, hkept⟩⟩ := hfinishes
    · exact absurd hinit hmethod
    · rw [hsid] at hkept
      exact ⟨hstatus, hkept⟩
  case accepted =>
    rintro sid hsid hchecked ⟨params, hbody'⟩
    obtain rfl := Except.ok.inj (hbody.symm.trans hbody')
    obtain ⟨e, rfl, hsilent⟩ := result_of_initialized hsteps
    exact ⟨hfinishes.2 hsilent, hfinishes.1⟩
  case known => exact fun sid hsid _ _ => hadmits sid hsid

theorem ended_of_steps
    (hruns : Steps (StreamableHttp.handleMcpPost serde router enforcer handler.checked
      handler.sessionId handler.body) handler.exchanges (.done (response, update))) :
    Ended serde router enforcer handler response update := by
  by_cases hadmits : ∃ message, StreamableHttp.readBody serde handler.body = .ok message ∧
      (Transport.http handler.checked handler.sessionId).Admits
  · obtain ⟨message, hbody, hadmits⟩ := hadmits
    exact ended_of_admits hbody hadmits hruns
  · exact ended_of_refused (fun message hbody h => hadmits ⟨message, hbody, h⟩) hruns

end Handler

/-! ## Runs -/

section Runs

variable {serde : SerdeJson} {router : McpRouter} {enforcer : ScopeEnforcer}
  {past : List (Option HttpReply)} {s : HttpServer} {sid : String} {reply : Option HttpReply}
  {ops : List HttpOp} {op : HttpOp}

theorem handshaken_concat : Handshaken serde (past ++ [reply]) sid ↔
    Handshaken serde past sid ∨ sid ∈ past.filterMap issued? ∧ Accepts serde sid reply := by
  constructor
  · rintro ⟨before, accepting, later, hsplit, hissued, haccepts⟩
    rcases List.eq_nil_or_concat later with rfl | ⟨later, last, rfl⟩
    · obtain ⟨rfl, hreply⟩ := List.append_inj' hsplit rfl
      obtain rfl := List.singleton_inj.mp hreply
      exact .inr ⟨hissued, haccepts⟩
    · rw [List.concat_eq_append, ← List.cons_append, ← List.append_assoc] at hsplit
      exact .inl ⟨before, accepting, later, (List.append_inj' hsplit rfl).1, hissued, haccepts⟩
  · rintro (⟨before, accepting, later, rfl, hissued, haccepts⟩ | ⟨hissued, haccepts⟩)
    · exact ⟨before, accepting, later ++ [reply], by simp, hissued, haccepts⟩
    · exact ⟨past, reply, [], rfl, hissued, haccepts⟩

/-- A session with a handshake has been announced. -/
theorem Handshaken.issued (h : Handshaken serde past sid) : sid ∈ past.filterMap issued? := by
  obtain ⟨before, accepting, later, rfl, hissued, -⟩ := h
  rw [List.filterMap_append]
  exact List.mem_append_left _ hissued

/-- No live session is marked, and none has a handshake. -/
def Unmarked (serde : SerdeJson) (past : List (Option HttpReply)) (sessions : SessionTable) : Prop :=
  ∀ sid session, sessions.lookup sid = some session →
    session.initialized = false ∧ ¬ Handshaken serde past sid

/-- A reply that accepts nothing for the sessions that stay as they were. -/
theorem Unmarked.concat {sessions sessions' : SessionTable} (h : Unmarked serde past sessions)
    (hsame : ∀ sid session, sessions'.lookup sid = some session →
      sessions.lookup sid = some session)
    (hreply : ∀ sid ∈ sessions', ¬ Accepts serde sid reply) :
    Unmarked serde (past ++ [reply]) sessions' := by
  intro sid session hlookup
  obtain ⟨hfalse, hnot⟩ := h sid session (hsame sid session hlookup)
  refine ⟨hfalse, fun hshaken => ?_⟩
  rcases handshaken_concat.mp hshaken with hold | ⟨-, haccepts⟩
  · exact hnot hold
  · exact hreply sid (AList.lookup_isSome.mp (by simp [hlookup])) haccepts

theorem Unmarked.delete (h : Unmarked serde past s.sessions) (sessionId : Option String) :
    Unmarked serde (past ++ [((httpMachine serde router enforcer).step s (.delete sessionId)).1])
      ((httpMachine serde router enforcer).step s (.delete sessionId)).2.sessions := by
  simp only [httpMachine]
  rcases handleMcpDelete_cases s.sessions sessionId with
    ⟨sid, response, rfl, -, -, hdelete⟩ | ⟨response, -, hdelete⟩
  · rw [hdelete]
    exact h.concat (fun _ _ h => (KeyedStore.lookup_of_erase h).2) fun _ _ => not_false
  · rw [hdelete]
    exact h.concat (fun _ _ => id) fun _ _ => not_false

/-- The end of a handler that leaves the flag as it is. -/
theorem Unmarked.respond (h : Unmarked serde past s.sessions)
    (htracked : Tracked serde router enforcer past s) {n : ℕ}
    (hleaves : LeavesFlag serde router enforcer s (.respond n)) :
    Unmarked serde (past ++ [((httpMachine serde router enforcer).step s (.respond n)).1])
      ((httpMachine serde router enforcer).step s (.respond n)).2.sessions := by
  simp only [httpMachine]
  split
  · next sessionId body checked exchanges response update hn =>
    have hruns := htracked.runs n _ hn
    have hended := ended_of_steps hruns
    -- nothing is accepted for a session that is live before the step
    have hnot : ∀ sid ∈ s.sessions, ¬ Accepts serde sid (some (.posted
        { sessionId, body, checked, exchanges, program := .done (response, update) } response)) := by
      rintro sid hlive ⟨hsid, hstatus, hbears⟩
      have hchecked := hended.known sid hsid hstatus hbears
      exact (hleaves _ _ sid hn rfl hsid hchecked hlive).2 hbears
    cases update with
    | keep => exact h.concat (fun _ _ => id) hnot
    | create new opened =>
      have hconcluded : Concluded serde body exchanges (response, .create new opened) :=
        (handleMcpPost_concluded checked).post_of_steps hruns
      have hunissued : new ∉ past.filterMap issued? :=
        (htracked.unannounced n _ hn new hconcluded.2.1).2
      intro sid session hlookup
      by_cases heq : sid = new
      · subst heq
        have hself : (s.sessions.insert sid opened).lookup sid = some opened :=
          AList.lookup_insert _
        obtain rfl := Option.some.inj (hself.symm.trans hlookup)
        refine ⟨hended.created sid _ rfl, fun hshaken => hunissued ?_⟩
        rcases handshaken_concat.mp hshaken with hold | ⟨hissued, -⟩
        · exact hold.issued
        · exact hissued
      · have hold : s.sessions.lookup sid = some session := by
          rwa [← AList.lookup_insert_ne heq]
        obtain ⟨hfalse, hnone⟩ := h sid session hold
        refine ⟨hfalse, fun hshaken => ?_⟩
        rcases handshaken_concat.mp hshaken with hold' | ⟨-, haccepts⟩
        · exact hnone hold'
        · exact hnot sid (AList.lookup_isSome.mp (by simp [hold])) haccepts
    | touch touched now =>
      obtain ⟨hsid, hchecked, hanswered⟩ := hended.touched touched now rfl
      have hgone : touched ∉ s.sessions := fun hlive =>
        (hleaves _ _ touched hn rfl hsid hchecked hlive).1 hanswered
      have hsame : (StreamableHttp.SessionUpdate.touch touched now).apply s.sessions = s.sessions := by
        rw [StreamableHttp.SessionUpdate.apply, AList.lookup_eq_none.mpr hgone]
      rw [hsame]
      exact h.concat (fun _ _ => id) hnot
  · exact h.concat (fun _ _ => id) fun _ _ => not_false

theorem Unmarked.step (h : Unmarked serde past s.sessions)
    (htracked : Tracked serde router enforcer past s)
    (hleaves : LeavesFlag serde router enforcer s op) :
    Unmarked serde (past ++ [((httpMachine serde router enforcer).step s op).1])
      ((httpMachine serde router enforcer).step s op).2.sessions := by
  cases op with
  | post n sessionId body =>
    simp only [httpMachine]
    split <;> exact h.concat (fun _ _ => id) fun _ _ => not_false
  | answer n answer =>
    simp only [httpMachine]
    split <;> exact h.concat (fun _ _ => id) fun _ _ => not_false
  | respond n => exact h.respond htracked hleaves
  | delete sessionId => exact h.delete sessionId

/-- In a run that leaves the flags as they are, no live session is marked or has a handshake. -/
theorem unmarked_of_leavesFlag
    (hfresh : (httpMachine serde router enforcer).Along FreshId start ops)
    (hleaves : (httpMachine serde router enforcer).Along (LeavesFlag serde router enforcer) start
      ops) :
    Unmarked serde (replies serde router enforcer ops)
      (after serde router enforcer ops).sessions := by
  induction ops using List.reverseRecOn with
  | nil => exact fun sid session h => nomatch h
  | append_singleton ops op ih =>
    rw [Machine.along_concat] at hfresh hleaves
    rw [replies, after, Machine.answers_append, Machine.run_append]
    exact (ih hfresh.1 hleaves.1).step (tracked_of_fresh hfresh.1) hleaves.2

/-- What a handler responds when it has ended. -/
theorem step_respond {n : ℕ} {handler : PostHandler} {response : HttpResponse}
    {update : StreamableHttp.SessionUpdate} (hn : s.handlers n = some handler)
    (hprogram : handler.program = .done (response, update)) :
    (httpMachine serde router enforcer).step s (.respond n) =
      (some (.posted handler response), { s with
        sessions := update.apply s.sessions
        handlers := Function.update s.handlers n none }) := by
  obtain ⟨sessionId, body, checked, exchanges, program⟩ := handler
  obtain rfl : program = _ := hprogram
  simp only [httpMachine, hn]

/-- A step after which the flag of every live session tracks its handshake leaves the flags as they
are. -/
theorem leavesFlag_of_tracks (htracked : Tracked serde router enforcer past s)
    (hunmarked : Unmarked serde past s.sessions)
    (htracks : ∀ sid session,
      ((httpMachine serde router enforcer).step s op).2.sessions.lookup sid = some session →
        (session.initialized = true ↔
          Handshaken serde (past ++ [((httpMachine serde router enforcer).step s op).1]) sid)) :
    LeavesFlag serde router enforcer s op := by
  cases op with
  | respond n =>
    rintro handler ⟨response, update⟩ sid hn hprogram hsid hchecked hlive
    have hruns := htracked.runs n handler hn
    rw [hprogram] at hruns
    have hended := ended_of_steps hruns
    rw [step_respond hn hprogram] at htracks
    obtain ⟨session, hsession⟩ := Option.isSome_iff_exists.mp (AList.lookup_isSome.mpr hlive)
    obtain ⟨hfalse, hnone⟩ := hunmarked sid session hsession
    refine ⟨fun hanswered => ?_, fun hbears => ?_⟩
    · -- the session is marked, and the response does not accept a handshake
      obtain ⟨hstatus, now, rfl⟩ := hended.answered sid hsid hchecked hanswered
      have hmarked : ((StreamableHttp.SessionUpdate.touch sid now).apply s.sessions).lookup sid =
          some { session with lastActivity := now, initialized := true } := by
        rw [StreamableHttp.SessionUpdate.apply, hsession]
        exact AList.lookup_insert _
      rcases handshaken_concat.mp ((htracks sid _ hmarked).mp rfl) with hold | ⟨-, -, haccepted, -⟩
      · exact hnone hold
      · rw [hstatus] at haccepted
        cases haccepted
    · -- the handshake is accepted, and the session is not marked
      obtain ⟨hstatus, rfl⟩ := hended.accepted sid hsid hchecked hbears
      have hissued : sid ∈ past.filterMap issued? := ((htracked.live sid).mp hlive).1
      have haccepts : Accepts serde sid (some (.posted handler response)) :=
        ⟨hsid, hstatus, hbears⟩
      have htrue := (htracks sid session hsession).mpr
        (handshaken_concat.mpr (.inr ⟨hissued, haccepts⟩))
      rw [hfalse] at htrue
      cases htrue
  | _ => trivial

/-- If no id is generated twice, the marks tell which live sessions have a handshake at every moment
of a run exactly when no handler of a live session ends with an answer to a message other than
`initialize` or with an accepted `notifications/initialized`. -/
theorem flagTracks_iff (hfresh : (httpMachine serde router enforcer).Along FreshId start ops) :
    FlagTracks serde router enforcer ops ↔
      (httpMachine serde router enforcer).Along (LeavesFlag serde router enforcer) start ops := by
  constructor
  · intro htracks
    induction ops using List.reverseRecOn with
    | nil => trivial
    | append_singleton ops op ih =>
      rw [Machine.along_concat] at hfresh ⊢
      have hleaves := ih hfresh.1 fun before later hsplit =>
        htracks before (later ++ [op]) (by rw [hsplit, List.append_assoc])
      refine ⟨hleaves, leavesFlag_of_tracks (tracked_of_fresh hfresh.1)
        (unmarked_of_leavesFlag hfresh.1 hleaves) fun sid session hlookup => ?_⟩
      have hlast := htracks (ops ++ [op]) [] (by simp) sid session
      rw [replies, after, Machine.answers_append, Machine.run_append] at hlast
      exact hlast hlookup
  · rintro hleaves before later rfl sid session hlookup
    obtain ⟨hfalse, hnone⟩ := unmarked_of_leavesFlag (Machine.along_append.mp hfresh).1
      (Machine.along_append.mp hleaves).1 sid session hlookup
    rw [hfalse]
    exact iff_of_false Bool.false_ne_true hnone

/-- A POST whose session is found, if it has one, is routed. -/
theorem step_post {n : ℕ} {sessionId : Option String} {body : ByteArray} {message : JsonRpcMessage}
    (hn : s.handlers n = none) (hbody : StreamableHttp.readBody serde body = .ok message)
    (hadmits : (Transport.http s.sessions sessionId).Admits) :
    (httpMachine serde router enforcer).step s (.post n sessionId body) =
      (none, { s with handlers := Function.update s.handlers n (some
        { sessionId, body, checked := s.sessions, exchanges := []
          program := StreamableHttp.routeMessage router enforcer sessionId message }) }) := by
  rw [← handleMcpPost_of_admits hbody hadmits]
  simp only [httpMachine, hn]

end Runs

/-! ## A handshake -/

/-- The notification that ends the handshake. -/
def initializedValue : Value :=
  .object [("jsonrpc", .string "2.0"), ("method", .string methodInitialized)]

/-- A reader that knows the two messages of a handshake. -/
def handshakeSerde : SerdeJson where
  fromStr text :=
    if text = initializedValue.toJsonString then .ok initializedValue
    else (serdeFor (requestValue "initialize")).fromStr text
  malformed := (serdeFor (requestValue "initialize")).malformed

theorem readBody_initialize :
    StreamableHttp.readBody handshakeSerde (requestValue "initialize").toJsonString.toUTF8 =
      .ok (.request (.integer 1) "initialize" none) := by
  have hne : (requestValue "initialize").toJsonString ≠ initializedValue.toJsonString := by decide
  have hread : handshakeSerde.fromStr (requestValue "initialize").toJsonString =
      .ok (requestValue "initialize") := by
    simp only [handshakeSerde, if_neg hne]
    exact JsonRpcMessage.fromStr_serdeOf _ _
  exact readBody_eq_ok_iff.mpr ⟨_, _, fromUTF8?_toUTF8 _, hread, rfl⟩

theorem readBody_initialized :
    StreamableHttp.readBody handshakeSerde initializedValue.toJsonString.toUTF8 =
      .ok (.notification methodInitialized none) := by
  have hread : handshakeSerde.fromStr initializedValue.toJsonString = .ok initializedValue := by
    simp only [handshakeSerde, if_true]
  exact readBody_eq_ok_iff.mpr ⟨_, _, fromUTF8?_toUTF8 _, hread, rfl⟩

/-- The id of the session. -/
def clientSession : String := "00000000-0000-4000-8000-000000000000"

/-- What follows the first POST of a handshake. -/
def openingSteps : List HttpOp := List.replicate 6 (.answer 0 openComponents.answer) ++ [.respond 0]

/-- A client opens a session. -/
def opening : List HttpOp :=
  .post 0 none (requestValue "initialize").toJsonString.toUTF8 :: openingSteps

/-- What follows the second POST. -/
def closingSteps : List HttpOp := List.replicate 2 (.answer 1 openComponents.answer) ++ [.respond 1]

/-- A client opens a session and completes the handshake. -/
def handshake : List HttpOp :=
  opening ++ .post 1 (some clientSession) initializedValue.toJsonString.toUTF8 :: closingSteps

/-- The server when the first POST is routed. -/
def postedServer : HttpServer :=
  { start with handlers := Function.update start.handlers 0 (some
      { sessionId := none, body := (requestValue "initialize").toJsonString.toUTF8, checked := ∅
        exchanges := []
        program := StreamableHttp.routeMessage plainRouter .allowAll none
          (.request (.integer 1) "initialize" none) }) }

/-- The server with the session. -/
def openServer : HttpServer :=
  (httpMachine handshakeSerde plainRouter .allowAll).run postedServer openingSteps

/-- The server when the notification is routed. -/
def notifiedServer : HttpServer :=
  { openServer with handlers := Function.update openServer.handlers 1 (some
      { sessionId := some clientSession, body := initializedValue.toJsonString.toUTF8
        checked := openServer.sessions, exchanges := []
        program := StreamableHttp.routeMessage plainRouter .allowAll (some clientSession)
          (.notification methodInitialized none) }) }

theorem step_opening :
    (httpMachine handshakeSerde plainRouter .allowAll).step start
      (.post 0 none (requestValue "initialize").toJsonString.toUTF8) = (none, postedServer) :=
  step_post rfl readBody_initialize fun _ h => nomatch h

theorem step_closing :
    (httpMachine handshakeSerde plainRouter .allowAll).step openServer
      (.post 1 (some clientSession) initializedValue.toJsonString.toUTF8) =
        (none, notifiedServer) := by
  refine step_post rfl readBody_initialized fun sid hsid => ?_
  obtain rfl := Option.some.inj hsid
  exact AList.lookup_isSome.mp rfl

theorem run_opening :
    (httpMachine handshakeSerde plainRouter .allowAll).run start opening = openServer := by
  rw [opening, Machine.run_cons, step_opening, openServer]

theorem run_handshake : after handshakeSerde plainRouter .allowAll handshake =
    (httpMachine handshakeSerde plainRouter .allowAll).run notifiedServer closingSteps := by
  rw [after, handshake, Machine.run_append, run_opening, Machine.run_cons, step_closing]

theorem replies_handshake : replies handshakeSerde plainRouter .allowAll handshake =
    (none :: (httpMachine handshakeSerde plainRouter .allowAll).answers postedServer openingSteps) ++
      none :: (httpMachine handshakeSerde plainRouter .allowAll).answers notifiedServer
        closingSteps := by
  rw [replies, handshake, Machine.answers_append, run_opening, Machine.answers_cons, step_closing,
    opening, Machine.answers_cons, step_opening]

theorem freshId_handshake :
    (httpMachine handshakeSerde plainRouter .allowAll).Along FreshId start handshake := by
  rw [handshake, Machine.along_append, run_opening]
  refine ⟨⟨trivial, ?_⟩, trivial, ?_⟩
  · rw [step_opening]
    -- The fourth call asks for the id, before which none has been generated.
    exact ⟨nofun, nofun, nofun, fun _ => List.not_mem_nil, nofun, nofun, trivial, trivial⟩
  · rw [step_closing]
    exact ⟨nofun, nofun, trivial, trivial⟩

theorem flagTracks_iff_handshake : FlagTracks handshakeSerde plainRouter .allowAll handshake ↔
    (httpMachine handshakeSerde plainRouter .allowAll).Along
      (LeavesFlag handshakeSerde plainRouter .allowAll) start handshake :=
  flagTracks_iff freshId_handshake

theorem handshaken_handshake : Handshaken handshakeSerde
    (replies handshakeSerde plainRouter .allowAll handshake) clientSession := by
  rw [replies_handshake]
  refine ⟨(none :: (httpMachine handshakeSerde plainRouter .allowAll).answers postedServer
    openingSteps) ++ [none, none, none], _, [], rfl, List.mem_singleton_self _, ?_⟩
  exact And.intro rfl (And.intro rfl ⟨none, readBody_initialized⟩)

/-- The handshake is completed, and the session is not marked. -/
theorem handshake_not_marked :
    (httpMachine handshakeSerde plainRouter .allowAll).Along FreshId start handshake ∧
      (after handshakeSerde plainRouter .allowAll handshake).sessions.lookup clientSession =
        some { createdAt := 0, lastActivity := 0, initialized := false } ∧
      Handshaken handshakeSerde (replies handshakeSerde plainRouter .allowAll handshake)
        clientSession ∧
      ¬ FlagTracks handshakeSerde plainRouter .allowAll handshake := by
  have hsession : (after handshakeSerde plainRouter .allowAll handshake).sessions.lookup
      clientSession = some { createdAt := 0, lastActivity := 0, initialized := false } := by
    rw [run_handshake]
    rfl
  refine ⟨freshId_handshake, hsession, handshaken_handshake, fun h => ?_⟩
  cases (h handshake [] (List.append_nil _).symm _ _ hsession).mpr handshaken_handshake

end HttpServer

end McpShield
