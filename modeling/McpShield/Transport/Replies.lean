import McpShield.Gateway.Mediation
import McpShield.Gateway.Refusal
import McpShield.Transport.Sse
import McpShield.Transport.Stdio

/-!
# Replies

The three transports as one relation: a transport takes a message and emits replies.  A refusal is
answered with an error that carries no id, unless its text speaks of a notification: then it is not
answered at all.
-/

open Effect Effect.Prog

namespace McpShield

/-! ## What a transport emits -/

/-- A transport and its state when a message arrives; for SSE also the streams that have been dropped
by the time a reply is sent. -/
inductive Transport where
  | stdio
  | http (sessions : SessionTable) (sessionId : Option String)
  | sse (clients : Sse.Clients) (dropped : List Sse.ChannelId) (clientId : Option String)

/-- What a transport emits for a message: the HTTP status, if there is one, and the replies. -/
structure Emission where
  status : Option ℕ
  replies : List Value

/-- A line of text carries a message. -/
def LineCarries (serde : SerdeJson) (line : String) (message : JsonRpcMessage) : Prop :=
  Str.trim line ≠ "" ∧ JsonRpcMessage.fromStr serde (Str.trim line) = .ok message

/-- The transport takes the message, exchanges `tr` with the components, and ends with the
emission. -/
inductive Emits (serde : SerdeJson) (router : McpRouter) (enforcer : ScopeEnforcer)
    (message : JsonRpcMessage) : Transport → GatewayTrace → Emission → Prop where
  | stdio {line : String} {tr : GatewayTrace} {out : List JsonRpcMessage}
      (hline : LineCarries serde line message)
      (hrun : Steps (StdioTransport.handleLine serde router enforcer line) tr (.done out)) :
      Emits serde router enforcer message .stdio tr
        { status := none, replies := out.map JsonRpcMessage.toValue }
  | http {sessions : SessionTable} {sessionId : Option String} {body : ByteArray}
      {tr : GatewayTrace} {out : HttpResponse × StreamableHttp.SessionUpdate}
      (hbody : StreamableHttp.readBody serde body = .ok message)
      (hrun : Steps
        (StreamableHttp.handleMcpPost serde router enforcer sessions sessionId body) tr
        (.done out)) :
      Emits serde router enforcer message (.http sessions sessionId) tr
        { status := some out.1.status, replies := out.1.body.toList }
  | sse {clients : Sse.Clients} {dropped : List Sse.ChannelId} {clientId : Option String}
      {body : ByteArray} {tr : GatewayTrace} {out : Sse.Sent}
      (hbody : StreamableHttp.readBody serde body = .ok message)
      (hrun : Steps (Sse.handleSsePost serde router enforcer clients clientId body) tr
        (.done out)) :
      Emits serde router enforcer message (.sse clients dropped clientId) tr
        { status := some out.1.status
          replies := (Sse.delivered dropped out.2).map JsonRpcMessage.toValue }

/-- The transport takes the message, exchanges `tr` with the components, and its next call panics, as
the schema validator does when it cuts a character.  The handler is unwound: nothing is emitted. -/
inductive Unwinds (serde : SerdeJson) (router : McpRouter) (enforcer : ScopeEnforcer)
    (message : JsonRpcMessage) : Transport → GatewayTrace → GatewayOp → Prop where
  | stdio {line : String} {tr : GatewayTrace} {op : GatewayOp}
      {k : op.Reply → Prog GatewayOp GatewayOp.Reply (List JsonRpcMessage)}
      (hline : LineCarries serde line message)
      (hrun : Steps (StdioTransport.handleLine serde router enforcer line) tr (.call op k)) :
      Unwinds serde router enforcer message .stdio tr op
  | http {sessions : SessionTable} {sessionId : Option String} {body : ByteArray}
      {tr : GatewayTrace} {op : GatewayOp}
      {k : op.Reply → Prog GatewayOp GatewayOp.Reply (HttpResponse × StreamableHttp.SessionUpdate)}
      (hbody : StreamableHttp.readBody serde body = .ok message)
      (hrun : Steps
        (StreamableHttp.handleMcpPost serde router enforcer sessions sessionId body) tr
        (.call op k)) :
      Unwinds serde router enforcer message (.http sessions sessionId) tr op
  | sse {clients : Sse.Clients} {dropped : List Sse.ChannelId} {clientId : Option String}
      {body : ByteArray} {tr : GatewayTrace} {op : GatewayOp}
      {k : op.Reply → Prog GatewayOp GatewayOp.Reply Sse.Sent}
      (hbody : StreamableHttp.readBody serde body = .ok message)
      (hrun : Steps (Sse.handleSsePost serde router enforcer clients clientId body) tr
        (.call op k)) :
      Unwinds serde router enforcer message (.sse clients dropped clientId) tr op

namespace Transport

/-- The state of the transport lets the message through to the router. -/
def Admits : Transport → Prop
  | stdio => True
  | http sessions sessionId => ∀ sid, sessionId = some sid → sid ∈ sessions
  | sse clients _ clientId => Sse.Registered clients clientId

/-- It does, and a reply gets back to the client: over SSE the stream of the client is open. -/
def Answers : Transport → Prop
  | sse clients dropped clientId =>
      ∃ client tx, clientId = some client ∧ clients.lookup client = some tx ∧ tx ∉ dropped
  | t => t.Admits

end Transport

/-! ## How a result is encoded -/

/-- The text of the error speaks of a notification. -/
def Silenced (e : McpError) : Prop := Str.containsStr e.display "notification" = true

instance (e : McpError) : Decidable (Silenced e) :=
  inferInstanceAs (Decidable (Str.containsStr e.display "notification" = true))

/-- The replies for a result of the router. -/
inductive Encoded : Except McpError JsonRpcMessage → List Value → Prop where
  | reply (m : JsonRpcMessage) : Encoded (.ok m) [m.toValue]
  | silent {e : McpError} (h : Silenced e) : Encoded (.error e) []
  | spoken {e : McpError} (h : ¬ Silenced e) :
      Encoded (.error e) [(JsonRpcMessage.error .null (.new e.code e.display)).toValue]

theorem JsonRpcMessage.get_id_toValue {m : JsonRpcMessage} {id : RequestId} (h : m.id = some id) :
    m.toValue.get "id" = some id.toValue := by
  cases m with
  | request id' method params =>
      obtain rfl := Option.some.inj h
      cases params <;> (rw [toValue]; rfl)
  | success id' result =>
      obtain rfl := Option.some.inj h
      rw [toValue]
      rfl
  | error id' err =>
      obtain rfl := Option.some.inj h
      rw [toValue]
      rfl
  | _ => cases h

theorem RequestId.toValue_ne_null {id : RequestId} (h : id ≠ .null) : id.toValue ≠ .null := by
  cases id with
  | null => exact absurd rfl h
  | string s => simp [toValue]
  | integer n =>
      rw [toValue, Value.ofInt]
      split <;> simp

section Encoding

variable {enforcer : ScopeEnforcer} {method : String} {params : Option Value} {id : RequestId}
  {tr : GatewayTrace} {result : Except McpError JsonRpcMessage} {replies : List Value}
  {refusal : GatewayTrace → Option McpError}

/-- The replies carry the id exactly when a refusal is silent. -/
theorem Encoded.correlated_iff (h : Encoded result replies) (hs : Settled id refusal tr result)
    (hid : id ≠ .null) (hcarries : UpstreamCarries id tr) :
    (∀ v ∈ replies, v.get "id" = some id.toValue) ↔ ∀ e, refusal tr = some e → Silenced e := by
  cases h with
  | reply m =>
      have hget := JsonRpcMessage.get_id_toValue (hs.2 hcarries)
      simp [hget, hs.1]
  | @silent e h =>
      have hrefusal : refusal tr = some e := hs
      simp [hrefusal, h]
  | @spoken e h =>
      have hrefusal : refusal tr = some e := hs
      have hnull : (JsonRpcMessage.error .null (.new e.code e.display)).toValue.get "id" =
          some .null := by
        rw [JsonRpcMessage.toValue]
        rfl
      simp [hrefusal, h, hnull, (RequestId.toValue_ne_null hid).symm]

/-- There is one reply exactly when a refusal is not silent. -/
theorem Encoded.length_iff (h : Encoded result replies) (hs : Settled id refusal tr result) :
    replies.length = 1 ↔ ∀ e, refusal tr = some e → ¬ Silenced e := by
  cases h with
  | reply m => simp [hs.1]
  | @silent e h =>
      have hrefusal : refusal tr = some e := hs
      simp [hrefusal, h]
  | @spoken e h =>
      have hrefusal : refusal tr = some e := hs
      simp [hrefusal, h]

end Encoding

/-! ## Notifications -/

theorem handleNotification_eq_error (method : String) :
    ∃ e, handleNotification method = .error e := by
  unfold handleNotification
  split_ifs <;> exact ⟨_, rfl⟩

/-- The error for a notification is silent for two methods; the text for the others begins with a
capital letter. -/
theorem silenced_notification_iff {method : String} {e : McpError}
    (h : handleNotification method = .error e) :
    Silenced e ↔ method = methodInitialized ∨ method = methodExited := by
  unfold handleNotification at h
  split_ifs at h with hinitialized hexited
  · cases h
    simp only [hinitialized, true_or, iff_true]
    decide +kernel
  · cases h
    simp only [hexited, or_true, iff_true]
    decide +kernel
  · cases h
    simp only [hinitialized, hexited, or_self, iff_false]
    decide +kernel

/-! ## What the transports do with a result -/

section Transports

variable {serde : SerdeJson} {router : McpRouter} {enforcer : ScopeEnforcer}
  {message : JsonRpcMessage} {P : GatewayTrace → Except McpError JsonRpcMessage → Prop}

theorem handleLine_spec {line : String} (hline : LineCarries serde line message)
    (hm : Ensures Any P (handleMessage router enforcer (some "stdio") message) []) :
    Ensures Any
      (fun tr out => ∃ result, P tr result ∧ Encoded result (out.map JsonRpcMessage.toValue))
      (StdioTransport.handleLine serde router enforcer line) [] := by
  unfold StdioTransport.handleLine
  simp only [hline.1, if_false, hline.2]
  refine hm.bind fun tr result _ hP => ?_
  cases result with
  | ok response => exact ⟨_, hP, .reply response⟩
  | error e =>
      by_cases hsilent : Str.containsStr e.display "notification" = true
      · simp only [hsilent, Bool.not_true, Bool.false_eq_true, if_false]
        exact ⟨_, hP, .silent hsilent⟩
      · simp only [hsilent, Bool.not_false, if_true]
        exact ⟨_, hP, .spoken hsilent⟩

theorem errorReply_eq (code : Int64) (text : String) :
    StreamableHttp.errorReply code text = (JsonRpcMessage.error .null (.new code text)).toValue := by
  rw [JsonRpcMessage.toValue]
  rfl

theorem http_routeMessage_spec {sessionId : Option String}
    (hneutral : ∀ tr op (r : op.Reply) result, Neutral tr op → P tr result →
      P (tr ++ [⟨op, r⟩]) result)
    (hm : Ensures Any P (handleMessage router enforcer sessionId message) []) :
    Ensures Any
      (fun tr out => ∃ result, P tr result ∧ Encoded result out.1.body.toList ∧
        (out.1.body = none → out.1.status = 202))
      (StreamableHttp.routeMessage router enforcer sessionId message) [] := by
  refine hm.bind fun tr result _ hP => ?_
  cases result with
  | error e =>
      by_cases hsilent : Str.containsStr e.display "notification" = true
      · simp only [hsilent, if_true]
        exact ⟨_, hP, .silent hsilent, fun _ => rfl⟩
      · simp only [hsilent, Bool.false_eq_true, if_false]
        refine ⟨_, hP, ?_, fun hnone => nomatch hnone⟩
        show Encoded (.error e) [StreamableHttp.errorReply e.code e.display]
        rw [errorReply_eq]
        exact .spoken hsilent
  | ok reply =>
      -- the clock and the generator of ids do not change how the message is settled
      have huuid : ∀ tr, Neutral tr .newUuid := fun _ => ⟨fun _ => rfl, not_false⟩
      have hnow : ∀ tr, Neutral tr .utcNow := fun _ => ⟨fun _ => rfl, not_false⟩
      by_cases hinit : message.method = some "initialize"
      · simp only [hinit, if_true]
        refine ⟨trivial, fun sid => ⟨trivial, fun createdAt => ⟨trivial, fun lastActivity => ?_⟩⟩⟩
        have hP' := hneutral _ _ lastActivity _ (hnow _)
          (hneutral _ _ createdAt _ (hnow _) (hneutral _ _ sid _ (huuid _) hP))
        exact ⟨_, hP', .reply reply, fun hnone => nomatch hnone⟩
      · simp only [hinit, if_false]
        cases sessionId with
        | none => exact ⟨_, hP, .reply reply, fun hnone => nomatch hnone⟩
        | some sid =>
            refine ⟨trivial, fun now => ?_⟩
            exact ⟨_, hneutral _ _ now _ (hnow _) hP, .reply reply, fun hnone => nomatch hnone⟩

/-- A message that is let through is routed. -/
theorem handleMcpPost_of_admits {sessions : SessionTable} {sessionId : Option String}
    {body : ByteArray} (hbody : StreamableHttp.readBody serde body = .ok message)
    (hadmits : (Transport.http sessions sessionId).Admits) :
    StreamableHttp.handleMcpPost serde router enforcer sessions sessionId body =
      StreamableHttp.routeMessage router enforcer sessionId message := by
  unfold StreamableHttp.handleMcpPost
  rw [hbody]
  cases sessionId with
  | none => rfl
  | some sid => exact if_pos (hadmits sid rfl)

/-- Under an unknown session the message is not routed. -/
theorem handleMcpPost_of_not_admits {sessions : SessionTable} {sessionId : Option String}
    {body : ByteArray} (hbody : StreamableHttp.readBody serde body = .ok message)
    (hadmits : ¬ (Transport.http sessions sessionId).Admits) :
    StreamableHttp.handleMcpPost serde router enforcer sessions sessionId body =
      pure (StreamableHttp.unknownSession, .keep) := by
  unfold StreamableHttp.handleMcpPost
  rw [hbody]
  cases sessionId with
  | none => exact absurd (fun sid h => nomatch h) hadmits
  | some sid =>
      have hnot : sid ∉ sessions := fun hmem => hadmits fun sid' h => Option.some.inj h ▸ hmem
      exact if_neg hnot

theorem fromUTF8?_toUTF8 (text : String) : String.fromUTF8? text.toUTF8 = some text :=
  dif_pos text.isValidUTF8

theorem readBody_eq_ok_iff {body : ByteArray} :
    StreamableHttp.readBody serde body = .ok message ↔
      ∃ text raw, String.fromUTF8? body = some text ∧ serde.fromStr text = .ok raw ∧
        JsonRpcMessage.parse serde raw = .ok message := by
  unfold StreamableHttp.readBody
  cases String.fromUTF8? body with
  | none => simp
  | some text =>
      cases hread : serde.fromStr text with
      | error e => simp [hread]
      | ok raw => cases hparse : JsonRpcMessage.parse serde raw <;> simp [hread, hparse]

/-- The message of a connected client is routed. -/
theorem handleSsePost_of_connected {clients : Sse.Clients} {client : String} {tx : Sse.ChannelId}
    {body : ByteArray} (hbody : StreamableHttp.readBody serde body = .ok message)
    (hclient : clients.lookup client = some tx) :
    Sse.handleSsePost serde router enforcer clients (some client) body =
      Sse.routeMessage router enforcer client tx message := by
  obtain ⟨text, raw, htext, hread, hparse⟩ := readBody_eq_ok_iff.mp hbody
  unfold Sse.handleSsePost
  simp only [hclient, htext, hread, hparse]

/-- Nothing is sent to a client that is not registered. -/
theorem handleSsePost_of_not_registered {clients : Sse.Clients} {clientId : Option String}
    {body : ByteArray} (hregistered : ¬ Sse.Registered clients clientId) :
    ∃ response, Sse.handleSsePost serde router enforcer clients clientId body =
      pure (response, []) := by
  unfold Sse.handleSsePost
  cases clientId with
  | none => exact ⟨_, rfl⟩
  | some client =>
      cases hclient : clients.lookup client with
      | none =>
          simp only [hclient]
          exact ⟨_, rfl⟩
      | some tx => exact absurd ⟨client, tx, rfl, hclient⟩ hregistered

theorem sse_routeMessage_spec {client : String} {tx : Sse.ChannelId} {dropped : List Sse.ChannelId}
    (hopen : tx ∉ dropped) (hkind : message.isNotification = false)
    (hm : Ensures Any P (handleMessage router enforcer (some client) message) []) :
    Ensures Any
      (fun tr out => ∃ result, P tr result ∧
        Encoded result ((Sse.delivered dropped out.2).map JsonRpcMessage.toValue))
      (Sse.routeMessage router enforcer client tx message) [] := by
  have hdelivered : ∀ m, Sse.delivered dropped [(tx, m)] = [m] := by
    intro m
    simp [Sse.delivered, hopen]
  refine hm.bind fun tr result _ hP => ?_
  cases result with
  | ok response =>
      refine ⟨_, hP, ?_⟩
      rw [hdelivered]
      exact .reply response
  | error e =>
      by_cases hsilent : Str.containsStr e.display "notification" = true
      · simp only [hkind, hsilent, Bool.not_false, Bool.not_true, Bool.and_false, Bool.false_eq_true,
          if_false]
        exact ⟨_, hP, .silent hsilent⟩
      · simp only [hkind, hsilent, Bool.not_false, Bool.and_self, if_true]
        refine ⟨_, hP, ?_⟩
        rw [hdelivered]
        exact .spoken hsilent

/-- A POST sends one message at most, on the channel that is registered for its client. -/
theorem handleSsePost_spec {clients : Sse.Clients} {clientId : Option String} {body : ByteArray} :
    Ensures Any (fun _ out => out.2 = [] ∨ ∃ c tx message, clientId = some c ∧
        clients.lookup c = some tx ∧ out.2 = [(tx, message)])
      (Sse.handleSsePost serde router enforcer clients clientId body) [] := by
  unfold Sse.handleSsePost
  cases clientId with
  | none => exact .inl rfl
  | some c =>
      cases hlookup : clients.lookup c with
      | none =>
          simp only [hlookup]
          exact .inl rfl
      | some tx =>
          simp only [hlookup]
          split
          · exact .inl rfl
          · split
            · exact .inr ⟨c, tx, _, rfl, hlookup, rfl⟩
            · split
              · exact .inr ⟨c, tx, _, rfl, hlookup, rfl⟩
              · unfold Sse.routeMessage
                refine (ensures_of_extension fun _ _ _ => trivial).bind fun tr result _ _ => ?_
                cases result with
                | ok response => exact .inr ⟨c, tx, _, rfl, hlookup, rfl⟩
                | error e =>
                    dsimp only
                    split
                    · exact .inr ⟨c, tx, _, rfl, hlookup, rfl⟩
                    · exact .inl rfl

/-- Nothing gets to a client that is not registered or has dropped its stream. -/
theorem delivered_eq_nil {clients : Sse.Clients} {dropped : List Sse.ChannelId}
    {clientId : Option String} {body : ByteArray} {tr : GatewayTrace} {out : Sse.Sent}
    (hrun : Steps (Sse.handleSsePost serde router enforcer clients clientId body) tr (.done out))
    (hanswers : ¬ (Transport.sse clients dropped clientId).Answers) :
    Sse.delivered dropped out.2 = [] := by
  obtain hnone | ⟨c, tx, message, hclient, hlookup, hone⟩ := handleSsePost_spec.post_of_steps hrun
  · rw [hnone]
    rfl
  · have hdropped : tx ∈ dropped := by
      by_contra hopen
      exact hanswers ⟨c, tx, hclient, hlookup, hopen⟩
    rw [hone]
    simp [Sse.delivered, hdropped]

/-- Nothing is sent for a notification. -/
theorem sse_routeMessage_notification {client method : String} {params : Option Value}
    {tx : Sse.ChannelId} :
    Ensures Any (fun _ out => out.2 = [])
      (Sse.routeMessage router enforcer client tx (.notification method params)) [] := by
  refine handleMessage_notification.bind fun tr result _ hresult => ?_
  obtain ⟨e, he⟩ := handleNotification_eq_error method
  rw [hresult, he]
  exact rfl

end Transports

/-! ## Emissions -/

section Emissions

variable {serde : SerdeJson} {router : McpRouter} {enforcer : ScopeEnforcer} {t : Transport}
  {tr : GatewayTrace} {em : Emission} {message : JsonRpcMessage} {id : RequestId}
  {method : String} {params : Option Value}

theorem LineCarries.canonical {line : String} (h : LineCarries serde line message) :
    message.Canonical := by
  have hparse := h.2
  unfold JsonRpcMessage.fromStr at hparse
  split at hparse
  · exact JsonRpcMessage.canonical_of_parse hparse
  · cases hparse

theorem canonical_of_readBody {body : ByteArray}
    (h : StreamableHttp.readBody serde body = .ok message) : message.Canonical := by
  obtain ⟨_, _, _, _, hparse⟩ := readBody_eq_ok_iff.mp h
  exact JsonRpcMessage.canonical_of_parse hparse

theorem Emits.canonical (h : Emits serde router enforcer message t tr em) :
    message.Canonical := by
  cases h with
  | stdio hline _ => exact hline.canonical
  | http hbody _ => exact canonical_of_readBody hbody
  | sse hbody _ => exact canonical_of_readBody hbody

/-- What a transport emits for a request that it lets through and can answer. -/
theorem Emits.request_encoded
    (h : Emits serde router enforcer (.request id method params) t tr em) (hanswers : t.Answers) :
    ∃ result, Settled id (refusalOf enforcer method params) tr result ∧
      Encoded result em.replies := by
  cases h with
  | stdio hline hrun => exact (handleLine_spec hline handleMessage_settled).post_of_steps hrun
  | http hbody hrun =>
      rw [handleMcpPost_of_admits hbody hanswers] at hrun
      obtain ⟨result, hs, hencoded, -⟩ := (http_routeMessage_spec
        (fun _ _ _ _ hop hs => hs.concat hop) handleMessage_settled).post_of_steps hrun
      exact ⟨result, hs, hencoded⟩
  | sse hbody hrun =>
      obtain ⟨client, tx, rfl, hclient, hopen⟩ := hanswers
      rw [handleSsePost_of_connected hbody hclient] at hrun
      exact (sse_routeMessage_spec hopen rfl handleMessage_settled).post_of_steps hrun

/-- A POST under an unknown session is answered without an id. -/
theorem Emits.http_not_admits {sessions : SessionTable} {sessionId : Option String}
    (h : Emits serde router enforcer message (.http sessions sessionId) tr em)
    (hadmits : ¬ (Transport.http sessions sessionId).Admits) :
    em = { status := some 404, replies := StreamableHttp.unknownSession.body.toList } := by
  cases h with
  | http hbody hrun =>
      rw [handleMcpPost_of_not_admits hbody hadmits] at hrun
      cases hrun
      rfl

/-- Nothing is emitted for a client that is not registered or has dropped its stream. -/
theorem Emits.sse_not_answers {clients : Sse.Clients} {dropped : List Sse.ChannelId}
    {clientId : Option String}
    (h : Emits serde router enforcer message (.sse clients dropped clientId) tr em)
    (hanswers : ¬ (Transport.sse clients dropped clientId).Answers) : em.replies = [] := by
  cases h with
  | sse _ hrun =>
      rw [delivered_eq_nil hrun hanswers]
      rfl

/-! ## Correlation -/

/-- When the replies to a request that is refused as given carry its id: when a refusal is not
answered.  A POST under an unknown session is always answered, and a client that is not connected
never is. -/
def Transport.Correlates (refusal : Option McpError) (t : Transport) : Prop :=
  match t with
  | .sse _ _ _ => t.Answers → ∀ e, refusal = some e → Silenced e
  | _ => t.Answers ∧ ∀ e, refusal = some e → Silenced e

/-- The replies to a request carry its id exactly when no refusal of it is answered, if the replies
of the upstream servers carry the id. -/
theorem replies_correlated_iff
    (h : Emits serde router enforcer (.request id method params) t tr em)
    (hcarries : UpstreamCarries id tr) :
    (∀ v ∈ em.replies, v.get "id" = some id.toValue) ↔
      t.Correlates (refusalOf enforcer method params tr) := by
  have hid : id ≠ .null := h.canonical
  by_cases hanswers : t.Answers
  · obtain ⟨result, hs, hencoded⟩ := h.request_encoded hanswers
    rw [hencoded.correlated_iff hs hid hcarries]
    cases t <;> simp [Transport.Correlates, hanswers]
  · cases t with
    | stdio => exact absurd trivial hanswers
    | http sessions sessionId =>
        rw [h.http_not_admits hanswers]
        simp [Transport.Correlates, hanswers, StreamableHttp.unknownSession, StreamableHttp.respond,
          Value.get, Value.findField]
    | sse clients dropped clientId =>
        rw [h.sse_not_answers hanswers]
        simp [Transport.Correlates, hanswers]

/-! ### Two requests posted without a session -/

/-- A reader that knows the text of one value. -/
def serdeFor (raw : Value) : SerdeJson := JsonRpcMessage.serdeOf raw.toJsonString raw

theorem readBody_serdeFor {raw : Value}
    (hparse : JsonRpcMessage.parse (serdeFor raw) raw = .ok message) :
    StreamableHttp.readBody (serdeFor raw) raw.toJsonString.toUTF8 = .ok message :=
  readBody_eq_ok_iff.mpr
    ⟨_, raw, fromUTF8?_toUTF8 _, JsonRpcMessage.fromStr_serdeOf _ _, hparse⟩

/-- What is emitted for a message that is posted without a session. -/
theorem emits_post {raw : Value} {out : HttpResponse × StreamableHttp.SessionUpdate}
    (hparse : JsonRpcMessage.parse (serdeFor raw) raw = .ok message)
    (hrun : Steps (StreamableHttp.routeMessage plainRouter .allowAll none message) tr
      (.done out)) :
    Emits (serdeFor raw) plainRouter .allowAll message (.http ∅ none) tr
      { status := some out.1.status, replies := out.1.body.toList } := by
  have hbody := readBody_serdeFor hparse
  have hadmits : (Transport.http ∅ none).Admits := by
    intro sid h
    cases h
  refine .http hbody ?_
  rw [handleMcpPost_of_admits hbody hadmits]
  exact hrun

/-- A request without parameters. -/
def requestValue (method : String) : Value :=
  .object [("jsonrpc", .string "2.0"), ("id", .number (.posInt 1)), ("method", .string method)]

/-- The exchanges of a request that no component is asked about. -/
def recordTrace (method status : String) : GatewayTrace :=
  [⟨.elapsed, (0 : ℕ)⟩, ⟨.recordRequest method "gateway" status 0, ()⟩]

theorem noForward_recordTrace (method status : String) : NoForward (recordTrace method status) := by
  simp [NoForward, recordTrace, GatewayOp.IsForward]

theorem parse_requestValue (method : String) :
    JsonRpcMessage.parse (serdeFor (requestValue method)) (requestValue method) =
      .ok (.request (.integer 1) method none) := rfl

theorem emits_ping :
    Emits (serdeFor (requestValue "ping")) plainRouter .allowAll
      (.request (.integer 1) "ping" none) (.http ∅ none) (recordTrace "ping" "success")
      { status := some 200,
        replies := [(JsonRpcMessage.success (.integer 1) .emptyObject).toValue] } := by
  have hrun : Steps
      (StreamableHttp.routeMessage plainRouter .allowAll none (.request (.integer 1) "ping" none))
      (recordTrace "ping" "success")
      (.done (StreamableHttp.respond 200
        (some (JsonRpcMessage.success (.integer 1) .emptyObject).toValue), .keep)) :=
    .call (.call (.refl _))
  exact emits_post (parse_requestValue "ping") hrun

/-- The reply to a tool call without a name. -/
def namelessReply : Value :=
  StreamableHttp.errorReply invalidParamsCode "Invalid params: tools/call requires a 'name' parameter"

/-- A tool call without a name is refused with the id `null`. -/
theorem refusal_not_correlated :
    Emits (serdeFor (requestValue "tools/call")) plainRouter .allowAll
        (.request (.integer 1) "tools/call" none) (.http ∅ none)
        (recordTrace "tools/call" "error") { status := some 200, replies := [namelessReply] } ∧
      UpstreamCarries (.integer 1) (recordTrace "tools/call" "error") ∧
      ¬ ∀ v ∈ [namelessReply], v.get "id" = some (RequestId.integer 1).toValue := by
  have hrun : Steps (StreamableHttp.routeMessage plainRouter .allowAll none
      (.request (.integer 1) "tools/call" none)) (recordTrace "tools/call" "error")
      (.done (StreamableHttp.respond 200 (some namelessReply), .keep)) := .call (.call (.refl _))
  refine ⟨emits_post (parse_requestValue "tools/call") hrun,
    .of_noForward (noForward_recordTrace _ _), fun hall => ?_⟩
  have hget : namelessReply.get "id" = some .null := rfl
  have hid := (hget.symm.trans (hall namelessReply (by simp)))
  exact RequestId.toValue_ne_null (by simp) (Option.some.inj hid).symm

theorem replies_correlated_iff_ping :
    Transport.Correlates (refusalOf .allowAll "ping" none (recordTrace "ping" "success"))
      (.http ∅ none) := by
  refine (replies_correlated_iff emits_ping (.of_noForward (noForward_recordTrace _ _))).mp ?_
  simp only [List.mem_singleton, forall_eq]
  exact JsonRpcMessage.get_id_toValue rfl

/-! ## Owed replies -/

/-- The emission is what is owed for a single message: one reply to a request, and none to a
notification, for which the HTTP response is 202 with an empty body. -/
def Owed (t : Transport) (em : Emission) : JsonRpcMessage → Prop
  | .request _ _ _ => em.replies.length = 1
  | .notification _ _ => em.replies = [] ∧
      match t with
      | .http _ _ => em.status = some 202
      | _ => True
  | _ => True

/-- What comes of a message: the transport emits, or a call panics and nothing is emitted. -/
inductive Produces (serde : SerdeJson) (router : McpRouter) (enforcer : ScopeEnforcer)
    (message : JsonRpcMessage) (t : Transport) (tr : GatewayTrace) :
    Option GatewayOp → Emission → Prop where
  | emits {em : Emission} (h : Emits serde router enforcer message t tr em) :
      Produces serde router enforcer message t tr none em
  | panics {op : GatewayOp} (h : Unwinds serde router enforcer message t tr op) :
      Produces serde router enforcer message t tr (some op) { status := none, replies := [] }

/-- When what is owed comes of a message, for which a call may have panicked. -/
def OwedWhen (enforcer : ScopeEnforcer) (t : Transport) (tr : GatewayTrace)
    (panic : Option GatewayOp) : JsonRpcMessage → Prop
  | .request _ method params =>
      let answered := panic = none ∧
        ∀ e, refusalOf enforcer method params tr = some e → ¬ Silenced e
      match t with
      | .stdio => answered
      | .http _ _ => t.Admits → answered
      | .sse _ _ _ => t.Answers ∧ answered
  | .notification method _ =>
      let quiet := method = methodInitialized ∨ method = methodExited
      match t with
      | .stdio => panic = none → quiet
      | .http _ _ => t.Admits ∧ panic = none ∧ quiet
      | .sse _ _ _ => True
  | _ => True

/-- A call is made only for a POST under a known session. -/
theorem Unwinds.http_admits {sessions : SessionTable} {sessionId : Option String} {op : GatewayOp}
    (h : Unwinds serde router enforcer message (.http sessions sessionId) tr op) :
    (Transport.http sessions sessionId).Admits := by
  by_contra hadmits
  cases h with
  | http hbody hrun =>
      rw [handleMcpPost_of_not_admits hbody hadmits] at hrun
      cases hrun

theorem owed_request_iff (h : Emits serde router enforcer (.request id method params) t tr em) :
    Owed t em (.request id method params) ↔
      OwedWhen enforcer t tr none (.request id method params) := by
  show em.replies.length = 1 ↔ _
  by_cases hanswers : t.Answers
  · obtain ⟨result, hs, hencoded⟩ := h.request_encoded hanswers
    rw [hencoded.length_iff hs]
    cases t with
    | stdio => simp [OwedWhen]
    | http sessions sessionId =>
        have hadmits : (Transport.http sessions sessionId).Admits := hanswers
        simp [OwedWhen, hadmits]
    | sse clients dropped clientId => simp [OwedWhen, hanswers]
  · cases t with
    | stdio => exact absurd trivial hanswers
    | http sessions sessionId =>
        have hadmits : ¬ (Transport.http sessions sessionId).Admits := hanswers
        rw [h.http_not_admits hadmits]
        simp [OwedWhen, hadmits, StreamableHttp.unknownSession, StreamableHttp.respond]
    | sse clients dropped clientId =>
        rw [h.sse_not_answers hanswers]
        simp [OwedWhen, hanswers]

/-- The replies for the outcome of a notification. -/
theorem Encoded.notification_iff {result : Except McpError JsonRpcMessage} {replies : List Value}
    (h : Encoded result replies) (hresult : result = handleNotification method) :
    replies = [] ↔ method = methodInitialized ∨ method = methodExited := by
  obtain ⟨e, he⟩ := handleNotification_eq_error method
  rw [← silenced_notification_iff he]
  rw [hresult, he] at h
  cases h with
  | silent h => simp [h]
  | spoken h => simp [h]

theorem owed_notification_iff
    (h : Emits serde router enforcer (.notification method params) t tr em) :
    Owed t em (.notification method params) ↔
      OwedWhen enforcer t tr none (.notification method params) := by
  cases h with
  | stdio hline hrun =>
      obtain ⟨result, hresult, hencoded⟩ :=
        (handleLine_spec hline handleMessage_notification).post_of_steps hrun
      simp only [Owed, OwedWhen, and_true, true_implies]
      exact hencoded.notification_iff hresult
  | @http sessions sessionId body tr out hbody hrun =>
      by_cases hadmits : (Transport.http sessions sessionId).Admits
      · rw [handleMcpPost_of_admits hbody hadmits] at hrun
        obtain ⟨result, hresult, hencoded, hstatus⟩ := (http_routeMessage_spec
          (fun _ _ _ _ _ hresult => hresult) handleMessage_notification).post_of_steps hrun
        have hquiet := hencoded.notification_iff hresult
        simp only [Owed, OwedWhen, hadmits, true_and, hquiet, Option.some.injEq,
          and_iff_left_iff_imp]
        intro hmethod
        exact hstatus (Option.toList_eq_nil_iff.mp (hquiet.mpr hmethod))
      · rw [Emits.http_not_admits (.http hbody hrun) hadmits]
        simp [Owed, OwedWhen, hadmits, StreamableHttp.unknownSession, StreamableHttp.respond]
  | @sse clients dropped clientId body tr out hbody hrun =>
      have hnone : Sse.delivered dropped out.2 = [] := by
        by_cases hanswers : (Transport.sse clients dropped clientId).Answers
        · obtain ⟨client, tx, rfl, hclient, -⟩ := hanswers
          rw [handleSsePost_of_connected hbody hclient] at hrun
          rw [sse_routeMessage_notification.post_of_steps hrun]
          rfl
        · exact delivered_eq_nil hrun hanswers
      exact iff_of_true ⟨List.map_eq_nil_iff.mpr hnone, trivial⟩ trivial

/-- A panic leaves a request without its reply, and a posted notification without its response. -/
theorem owed_panic_iff {op : GatewayOp} (h : Unwinds serde router enforcer message t tr op) :
    Owed t { status := none, replies := [] } message ↔
      OwedWhen enforcer t tr (some op) message := by
  cases message with
  | request id method params =>
      cases t with
      | http sessions sessionId => simp [Owed, OwedWhen, h.http_admits]
      | _ => simp [Owed, OwedWhen]
  | notification method params => cases t <;> simp [Owed, OwedWhen]
  | _ => exact Iff.rfl

/-- What comes of a message is what is owed exactly under the condition of `OwedWhen`. -/
theorem owed_iff {panic : Option GatewayOp}
    (h : Produces serde router enforcer message t tr panic em) :
    Owed t em message ↔ OwedWhen enforcer t tr panic message := by
  cases h with
  | panics h => exact owed_panic_iff h
  | emits h =>
      cases message with
      | request id method params => exact owed_request_iff h
      | notification method params => exact owed_notification_iff h
      | _ => exact Iff.rfl

theorem owed_iff_ping :
    OwedWhen .allowAll (.http ∅ none) (recordTrace "ping" "success") none
      (.request (.integer 1) "ping" none) :=
  (owed_iff (.emits emits_ping)).mp rfl

/-! ### A request without a reply and a notification with one -/

/-- A call of a tool whose name speaks of a notification. -/
def notificationCall : Value :=
  .object [("jsonrpc", .string "2.0"), ("id", .number (.posInt 1)),
    ("method", .string "tools/call"), ("params", .object [("name", .string "notification")])]

/-- The call as a message. -/
def notificationCallMessage : JsonRpcMessage :=
  .request (.integer 1) "tools/call" (some (.object [("name", .string "notification")]))

/-- The exchanges when the tool is not registered. -/
def notificationCallTrace : GatewayTrace :=
  ⟨.lookupAny "notification", .ok none⟩ :: recordTrace "tools/call" "error"

/-- A notification about progress. -/
def progressValue : Value :=
  .object [("jsonrpc", .string "2.0"), ("method", .string "notifications/progress")]

/-- The reply to it. -/
def progressReply : Value :=
  StreamableHttp.errorReply invalidRequestCode
    "Invalid request: Notification should not receive a response"

/-- The call gets no reply, and the notification gets one. -/
theorem owed_fails :
    (∃ em, Emits (serdeFor notificationCall) plainRouter .allowAll notificationCallMessage
        (.http ∅ none) notificationCallTrace em ∧
      em.replies = [] ∧ ¬ Owed (.http ∅ none) em notificationCallMessage) ∧
    ∃ em, Emits (serdeFor progressValue) plainRouter .allowAll
        (.notification "notifications/progress" none) (.http ∅ none)
        (recordTrace "notifications/progress" "error") em ∧
      em.replies = [progressReply] ∧
        ¬ Owed (.http ∅ none) em (.notification "notifications/progress" none) := by
  have hcall : Steps
      (StreamableHttp.routeMessage plainRouter .allowAll none notificationCallMessage)
      notificationCallTrace (.done (StreamableHttp.respond 202 none, .keep)) :=
    .call (.call (.call (.refl _)))
  have hprogress : Steps (StreamableHttp.routeMessage plainRouter .allowAll none
      (.notification "notifications/progress" none))
      (recordTrace "notifications/progress" "error")
      (.done (StreamableHttp.respond 200 (some progressReply), .keep)) := .call (.call (.refl _))
  refine ⟨⟨_, emits_post rfl hcall, rfl, ?_⟩, ⟨_, emits_post rfl hprogress, rfl, ?_⟩⟩
  · intro howed
    cases howed
  · rintro ⟨hnone, -⟩
    cases hnone

end Emissions

end McpShield
