import McpShield.Transport.Replies

/-!
# One text on three transports

The transports read a text, classify what is wrong with it and encode the result of the router, each
in its own way.  `agree_iff` says for which texts and results they emit the same message.
-/

open Effect Effect.Prog

namespace McpShield

/-! ## What a text makes a transport emit -/

/-- The transport takes the text, exchanges `tr` with the components, and emits the replies. -/
inductive Takes (serde : SerdeJson) (router : McpRouter) (enforcer : ScopeEnforcer)
    (text : String) : Transport → GatewayTrace → List Value → Prop where
  | stdio {tr : GatewayTrace} {out : List JsonRpcMessage}
      (hrun : Steps (StdioTransport.handleLine serde router enforcer text) tr (.done out)) :
      Takes serde router enforcer text .stdio tr (out.map JsonRpcMessage.toValue)
  | http {sessions : SessionTable} {sessionId : Option String} {tr : GatewayTrace}
      {out : HttpResponse × StreamableHttp.SessionUpdate}
      (hrun : Steps (StreamableHttp.handleMcpPost serde router enforcer sessions sessionId
        text.toUTF8) tr (.done out)) :
      Takes serde router enforcer text (.http sessions sessionId) tr out.1.body.toList
  | sse {clients : Sse.Clients} {dropped : List Sse.ChannelId} {clientId : Option String}
      {tr : GatewayTrace} {out : Sse.Sent}
      (hrun : Steps (Sse.handleSsePost serde router enforcer clients clientId text.toUTF8) tr
        (.done out)) :
      Takes serde router enforcer text (.sse clients dropped clientId) tr
        ((Sse.delivered dropped out.2).map JsonRpcMessage.toValue)

namespace Transport

/-- The text as the transport parses it. -/
def parsed : Transport → String → String
  | stdio, text => Str.trim text
  | _, text => text

/-- The session under which the transport routes. -/
def session : Transport → Option String
  | stdio => some "stdio"
  | http _ sessionId => sessionId
  | sse _ _ clientId => clientId

end Transport

/-- The router gives the result for the message, if the exchanges begin with a run on it. -/
def Gives (router : McpRouter) (enforcer : ScopeEnforcer) (sessionId : Option String)
    (message : JsonRpcMessage) (tr : GatewayTrace) (result : Except McpError JsonRpcMessage) : Prop :=
  ∃ tr₀, tr₀ <+: tr ∧ Steps (handleMessage router enforcer sessionId message) tr₀ (.done result)

/-- The transport takes the text, and if it routes a message, the router gives the result. -/
structure TakesWith (serde : SerdeJson) (router : McpRouter) (enforcer : ScopeEnforcer)
    (text : String) (result : Except McpError JsonRpcMessage) (t : Transport) (tr : GatewayTrace)
    (out : List Value) : Prop where
  takes : Takes serde router enforcer text t tr out
  gives : t.Admits → ∀ message, JsonRpcMessage.fromStr serde (t.parsed text) = .ok message →
    Gives router enforcer t.session message tr result

/-- The replies for a result. -/
def encode : Except McpError JsonRpcMessage → List Value
  | .ok reply => [reply.toValue]
  | .error e =>
      if Silenced e then [] else [(JsonRpcMessage.error .null (.new e.code e.display)).toValue]

theorem Encoded.eq_encode {result : Except McpError JsonRpcMessage} {replies : List Value}
    (h : Encoded result replies) : replies = encode result := by
  cases h with
  | reply m => rfl
  | silent h => exact (if_pos h).symm
  | spoken h => exact (if_neg h).symm

theorem encode_eq_nil_iff {result : Except McpError JsonRpcMessage} :
    encode result = [] ↔ ∃ e, result = .error e ∧ Silenced e := by
  cases result with
  | ok reply => simp [encode]
  | error e => simp [encode]

section Emissions

variable {serde : SerdeJson} {router : McpRouter} {enforcer : ScopeEnforcer} {text : String}
  {tr : GatewayTrace} {result : Except McpError JsonRpcMessage} {out : List Value}
  {message : JsonRpcMessage}

theorem ensures_gives (sessionId : Option String) :
    Ensures Any (Gives router enforcer sessionId message)
      (handleMessage router enforcer sessionId message) [] :=
  ensures_of_steps fun tr _ hrun => ⟨tr, List.prefix_refl tr, hrun⟩

theorem Gives.unique {sessionId : Option String} {result' : Except McpError JsonRpcMessage}
    (h : Gives router enforcer sessionId message tr result)
    (h' : Gives router enforcer sessionId message tr result') : result = result' := by
  obtain ⟨tr₁, hpre₁, hrun₁⟩ := h
  obtain ⟨tr₂, hpre₂, hrun₂⟩ := h'
  exact hrun₁.value_unique hrun₂ hpre₁ hpre₂

theorem Gives.concat {sessionId : Option String} {op : GatewayOp} {r : op.Reply}
    (h : Gives router enforcer sessionId message tr result) :
    Gives router enforcer sessionId message (tr ++ [⟨op, r⟩]) result := by
  obtain ⟨tr₀, hpre, hrun⟩ := h
  exact ⟨tr₀, hpre.trans (List.prefix_append _ _), hrun⟩

/-- A line is answered with the parse error or with what the result is encoded as. -/
theorem TakesWith.stdio_eq (h : TakesWith serde router enforcer text result .stdio tr out)
    (hblank : Str.trim text ≠ "") :
    out = match JsonRpcMessage.fromStr serde (Str.trim text) with
      | .error _ => [JsonRpcMessage.parseErrorResponse.toValue]
      | .ok _ => encode result := by
  cases h.takes with
  | stdio hrun =>
    cases hparse : JsonRpcMessage.fromStr serde (Str.trim text) with
    | error e =>
      unfold StdioTransport.handleLine at hrun
      simp only [hblank, if_false, hparse] at hrun
      cases hrun
      rfl
    | ok message =>
      obtain ⟨result', hgives, hencoded⟩ :=
        (handleLine_spec ⟨hblank, hparse⟩ (ensures_gives _)).post_of_steps hrun
      obtain rfl := (h.gives trivial message hparse).unique hgives
      exact hencoded.eq_encode

theorem readBody_toUTF8 (serde : SerdeJson) (text : String) :
    StreamableHttp.readBody serde text.toUTF8 =
      match serde.fromStr text with
      | .error e => .error (StreamableHttp.parseErrorResponse s!"Invalid JSON: {e}")
      | .ok raw =>
          match JsonRpcMessage.parse serde raw with
          | .error e => .error (StreamableHttp.jsonrpcErrorResponse e.code e.display)
          | .ok message => .ok message := by
  unfold StreamableHttp.readBody
  cases hread : serde.fromStr text with
  | error e => simp only [fromUTF8?_toUTF8, hread]
  | ok raw =>
    cases hparse : JsonRpcMessage.parse serde raw <;> simp only [fromUTF8?_toUTF8, hread, hparse]

/-- A body is answered with what is wrong with it, and a message under a known session with what the
result is encoded as. -/
theorem TakesWith.http_eq {sessions : SessionTable} {sessionId : Option String}
    (h : TakesWith serde router enforcer text result (.http sessions sessionId) tr out) :
    match serde.fromStr text with
    | .error e => out = [StreamableHttp.errorReply (-32700) s!"Invalid JSON: {e}"]
    | .ok raw =>
        match JsonRpcMessage.parse serde raw with
        | .error e => out = [StreamableHttp.errorReply e.code e.display]
        | .ok _ => ((Transport.http sessions sessionId).Admits → out = encode result) ∧
            (¬ (Transport.http sessions sessionId).Admits →
              out = StreamableHttp.unknownSession.body.toList) := by
  have hbody := readBody_toUTF8 serde text
  cases h.takes with
  | http hrun =>
    cases hread : serde.fromStr text with
    | error e =>
      rw [hread] at hbody
      unfold StreamableHttp.handleMcpPost at hrun
      rw [hbody] at hrun
      cases hrun
      rfl
    | ok raw =>
      rw [hread] at hbody
      cases hparse : JsonRpcMessage.parse serde raw with
      | error e =>
        simp only [hparse] at hbody ⊢
        unfold StreamableHttp.handleMcpPost at hrun
        rw [hbody] at hrun
        cases hrun
        rfl
      | ok message =>
        simp only [hparse] at hbody ⊢
        refine ⟨fun hadmits => ?_, fun hadmits => ?_⟩
        · rw [handleMcpPost_of_admits hbody hadmits] at hrun
          obtain ⟨result', hgives, hencoded, -⟩ := (http_routeMessage_spec
            (fun _ _ _ _ _ hgives => hgives.concat) (ensures_gives _)).post_of_steps hrun
          have hmessage : JsonRpcMessage.fromStr serde text = .ok message := by
            rw [JsonRpcMessage.fromStr, hread]
            exact hparse
          obtain rfl := (h.gives hadmits message hmessage).unique hgives
          exact hencoded.eq_encode
        · rw [handleMcpPost_of_not_admits hbody hadmits] at hrun
          cases hrun
          rfl

/-- A connected client is sent what is wrong with its text, nothing for a notification, and what the
result is encoded as for another message. -/
theorem TakesWith.sse_eq {clients : Sse.Clients} {dropped : List Sse.ChannelId}
    {clientId : Option String}
    (h : TakesWith serde router enforcer text result (.sse clients dropped clientId) tr out)
    (hanswers : (Transport.sse clients dropped clientId).Answers) :
    match serde.fromStr text with
    | .error _ => out = [JsonRpcMessage.parseErrorResponse.toValue]
    | .ok raw =>
        match JsonRpcMessage.parse serde raw with
        | .error e => out = [(JsonRpcMessage.error .null (.new e.code e.display)).toValue]
        | .ok message => out = if message.isNotification then [] else encode result := by
  obtain ⟨client, tx, rfl, hclient, hopen⟩ := hanswers
  have hgives := h.gives ⟨client, tx, rfl, hclient⟩
  have htext := fromUTF8?_toUTF8 text
  have hdelivered : ∀ m, Sse.delivered dropped [(tx, m)] = [m] := by
    intro m
    simp [Sse.delivered, hopen]
  cases h.takes with
  | sse hrun =>
    cases hread : serde.fromStr text with
    | error e =>
      unfold Sse.handleSsePost at hrun
      simp only [hclient, htext, hread] at hrun
      cases hrun
      rw [hdelivered]
      rfl
    | ok raw =>
      cases hparse : JsonRpcMessage.parse serde raw with
      | error e =>
        unfold Sse.handleSsePost at hrun
        simp only [hclient, htext, hread, hparse] at hrun
        cases hrun
        simp [hdelivered, hparse]
      | ok message =>
        simp only [hparse]
        have hmessage : JsonRpcMessage.fromStr serde text = .ok message := by
          rw [JsonRpcMessage.fromStr, hread]
          exact hparse
        have hbody : StreamableHttp.readBody serde text.toUTF8 = .ok message :=
          readBody_eq_ok_iff.mpr ⟨text, raw, htext, hread, hparse⟩
        rw [handleSsePost_of_connected hbody hclient] at hrun
        cases hkind : message.isNotification with
        | false =>
          obtain ⟨result', hgives', hencoded⟩ :=
            (sse_routeMessage_spec hopen hkind (ensures_gives _)).post_of_steps hrun
          obtain rfl := (hgives message hmessage).unique hgives'
          exact hencoded.eq_encode
        | true =>
          cases message with
          | notification method params =>
            rw [sse_routeMessage_notification.post_of_steps hrun]
            rfl
          | _ => cases hkind

/-- Nothing is emitted for a client that is not registered or has dropped its stream. -/
theorem Takes.sse_not_answers {clients : Sse.Clients} {dropped : List Sse.ChannelId}
    {clientId : Option String}
    (h : Takes serde router enforcer text (.sse clients dropped clientId) tr out)
    (hanswers : ¬ (Transport.sse clients dropped clientId).Answers) : out = [] := by
  cases h with
  | sse hrun =>
    rw [delivered_eq_nil hrun hanswers]
    rfl

end Emissions

/-! ## Agreement -/

/-- The code of an error reply. -/
def errorCode (v : Value) : Option Int64 :=
  ((v.get "error").bind fun e => e.get "code").bind Value.asI64

/-- The same message, up to the text of an error. -/
def SameReply (v w : Value) : Prop :=
  v = w ∨ v.get "id" = w.get "id" ∧ ∃ code, errorCode v = some code ∧ errorCode w = some code

/-- An error reply to no request in particular. -/
def IsErrorReply (code : Int64) (v : Value) : Prop :=
  v.get "id" = some .null ∧ errorCode v = some code

/-- The transports emit the same for a text, and what they should for one that is no message. -/
structure Agree (serde : SerdeJson) (text : String) (out₁ out₂ out₃ : List Value) : Prop where
  same₂ : List.Forall₂ SameReply out₁ out₂
  same₃ : List.Forall₂ SameReply out₁ out₃
  notJson : ∀ e, serde.fromStr text = .error e → ∀ out ∈ [out₁, out₂, out₃],
    ∃ v, out = [v] ∧ IsErrorReply parseErrorCode v
  notMessage : ∀ raw e, serde.fromStr text = .ok raw → JsonRpcMessage.parse serde raw = .error e →
    ∀ out ∈ [out₁, out₂, out₃], ∃ v, out = [v] ∧ IsErrorReply invalidRequestCode v

/-- Blanks around a JSON text do not matter. -/
def SerdeJson.ReadsTrimmed (serde : SerdeJson) : Prop :=
  ∀ text raw, serde.fromStr text = .ok raw → serde.fromStr (Str.trim text) = .ok raw

/-- The result is encoded as a parse error. -/
def IsParseError (result : Except McpError JsonRpcMessage) : Prop :=
  match result with
  | .ok reply => IsErrorReply parseErrorCode reply.toValue
  | .error e => ¬ Silenced e ∧ e.code = parseErrorCode

/-- When the transports agree: a connected client, and a text that is no JSON, also not without the
blanks around it, unless its message comes to a parse error; or a known session, and a message that
is refused silently or, for a connected client, is no notification.  A client is connected while its
stream is open. -/
def AgreesWhen (serde : SerdeJson) (text : String) (http sse : Transport)
    (result : Except McpError JsonRpcMessage) : Prop :=
  match serde.fromStr text with
  | .error _ => sse.Answers ∧ ∀ message,
      JsonRpcMessage.fromStr serde (Str.trim text) = .ok message → IsParseError result
  | .ok raw =>
      match JsonRpcMessage.parse serde raw with
      | .error _ => False
      | .ok message => http.Admits ∧
          ((∃ e, result = .error e ∧ Silenced e) ∨ sse.Answers ∧ message.isNotification = false)

section Replies

variable {v w : Value} {code : Int64} {text : String} {result : Except McpError JsonRpcMessage}
  {replies : List Value}

theorem SameReply.refl (v : Value) : SameReply v v := .inl rfl

theorem isErrorReply_errorReply (code : Int64) (text : String) :
    IsErrorReply code (StreamableHttp.errorReply code text) :=
  ⟨rfl, Value.asI64_ofInt code⟩

theorem sameReply_errorReply_iff :
    SameReply v (StreamableHttp.errorReply code text) ↔ IsErrorReply code v := by
  have hreply := isErrorReply_errorReply code text
  constructor
  · rintro (rfl | ⟨hid, code', hcode, hcode'⟩)
    · exact hreply
    · exact ⟨hid.trans hreply.1, hcode.trans (hcode'.symm.trans hreply.2)⟩
  · rintro ⟨hid, hcode⟩
    exact .inr ⟨hid.trans hreply.1.symm, code, hcode, hreply.2⟩

theorem parseErrorResponse_toValue : JsonRpcMessage.parseErrorResponse.toValue =
    StreamableHttp.errorReply parseErrorCode "Parse error" :=
  (errorReply_eq _ _).symm

theorem forall₂_single_iff :
    List.Forall₂ SameReply replies [w] ↔ ∃ v, replies = [v] ∧ SameReply v w := by
  constructor
  · intro h
    cases h with
    | cons hv hnil =>
      cases hnil
      exact ⟨_, rfl, hv⟩
  · rintro ⟨v, rfl, hv⟩
    exact .cons hv .nil

/-- Agreement with an error reply. -/
theorem forall₂_errorReply_iff :
    List.Forall₂ SameReply replies [StreamableHttp.errorReply code text] ↔
      ∃ v, replies = [v] ∧ IsErrorReply code v := by
  simp only [forall₂_single_iff, sameReply_errorReply_iff]

theorem isParseError_iff :
    IsParseError result ↔ ∃ v, encode result = [v] ∧ IsErrorReply parseErrorCode v := by
  cases result with
  | ok reply => simp [IsParseError, encode]
  | error e =>
    by_cases hsilent : Silenced e
    · simp [IsParseError, encode, hsilent]
    · rw [IsParseError, encode, if_neg hsilent, ← errorReply_eq]
      have hcode := (isErrorReply_errorReply e.code e.display).2
      simp only [hsilent, not_false_eq_true, true_and, List.cons.injEq, and_true, exists_eq_left']
      exact ⟨fun h => h ▸ isErrorReply_errorReply _ _,
        fun h => Option.some.inj (hcode.symm.trans h.2)⟩

/-- A message with an error code has an id. -/
theorem exists_id_of_errorCode {m : JsonRpcMessage} (h : errorCode m.toValue = some code) :
    ∃ id, m.toValue.get "id" = some id := by
  cases m with
  | request id method params => exact ⟨_, JsonRpcMessage.get_id_toValue rfl⟩
  | success id value => exact ⟨_, JsonRpcMessage.get_id_toValue rfl⟩
  | error id err => exact ⟨_, JsonRpcMessage.get_id_toValue rfl⟩
  | notification method params =>
    cases params <;> (rw [JsonRpcMessage.toValue] at h; cases h)
  | batch messages =>
    rw [JsonRpcMessage.toValue] at h
    cases h

theorem encode_single (h : encode result = [v]) : ∃ m : JsonRpcMessage, v = m.toValue := by
  cases result with
  | ok reply => exact ⟨reply, (List.cons.inj h).1.symm⟩
  | error e =>
    simp only [encode] at h
    split_ifs at h
    exact ⟨_, (List.cons.inj h).1.symm⟩

/-- The reply about an unknown session is like no encoded result: it has no id. -/
theorem not_forall₂_unknownSession :
    ¬ List.Forall₂ SameReply (encode result) StreamableHttp.unknownSession.body.toList := by
  intro h
  obtain ⟨v, hv, hsame⟩ := forall₂_single_iff.mp h
  obtain ⟨m, rfl⟩ := encode_single hv
  have hid : m.toValue.get "id" = none ∧ ∃ code, errorCode m.toValue = some code := by
    rcases hsame with heq | ⟨hid, code, hcode, -⟩
    · rw [heq]
      exact ⟨rfl, -32000, Value.asI64_ofInt (-32000)⟩
    · exact ⟨hid, code, hcode⟩
  obtain ⟨hnone, code, hcode⟩ := hid
  obtain ⟨id, hsome⟩ := exists_id_of_errorCode hcode
  exact absurd (hnone.symm.trans hsome) (by simp)

end Replies

section Agreement

variable {serde : SerdeJson} {router : McpRouter} {enforcer : ScopeEnforcer} {text : String}
  {tr₁ tr₂ tr₃ : GatewayTrace} {result : Except McpError JsonRpcMessage}
  {out₁ out₂ out₃ : List Value} {sessions : SessionTable} {sessionId : Option String}
  {clients : Sse.Clients} {dropped : List Sse.ChannelId} {clientId : Option String}

theorem fromStr_eq_ok {raw : Value} (hread : serde.fromStr text = .ok raw) :
    JsonRpcMessage.fromStr serde text = JsonRpcMessage.parse serde raw := by
  rw [JsonRpcMessage.fromStr, hread]

theorem agree_notJson_iff {e : String} (hread : serde.fromStr text = .error e)
    (hstdio : TakesWith serde router enforcer text result .stdio tr₁ out₁)
    (hhttp : TakesWith serde router enforcer text result (.http sessions sessionId) tr₂ out₂)
    (hsse : TakesWith serde router enforcer text result (.sse clients dropped clientId) tr₃ out₃)
    (hblank : Str.trim text ≠ "") :
    Agree serde text out₁ out₂ out₃ ↔ (Transport.sse clients dropped clientId).Answers ∧
      ∀ message, JsonRpcMessage.fromStr serde (Str.trim text) = .ok message →
        IsParseError result := by
  have hout₁ := hstdio.stdio_eq hblank
  have hout₂ := hhttp.http_eq
  simp only [hread] at hout₂
  have hsingle₁ : (∃ v, out₁ = [v] ∧ IsErrorReply parseErrorCode v) ↔
      ∀ message, JsonRpcMessage.fromStr serde (Str.trim text) = .ok message →
        IsParseError result := by
    rw [hout₁]
    cases JsonRpcMessage.fromStr serde (Str.trim text) with
    | error e' =>
      simp only [reduceCtorEq, false_implies, implies_true, iff_true]
      exact ⟨_, rfl, parseErrorResponse_toValue ▸ isErrorReply_errorReply _ _⟩
    | ok message => simp [isParseError_iff]
  have hsingle₂ : ∃ v, out₂ = [v] ∧ IsErrorReply parseErrorCode v :=
    ⟨_, hout₂, isErrorReply_errorReply _ _⟩
  rw [← hsingle₁]
  constructor
  · intro hagree
    have hall := hagree.notJson e hread
    refine ⟨?_, hall out₁ (by simp)⟩
    by_contra hanswers
    obtain ⟨v, hv, -⟩ := hall out₃ (by simp)
    rw [hsse.takes.sse_not_answers hanswers] at hv
    cases hv
  · rintro ⟨hanswers, hsingle⟩
    have hout₃ := hsse.sse_eq hanswers
    simp only [hread, parseErrorResponse_toValue] at hout₃
    have hsingle₃ : ∃ v, out₃ = [v] ∧ IsErrorReply parseErrorCode v :=
      ⟨_, hout₃, isErrorReply_errorReply _ _⟩
    constructor
    case same₂ =>
      rw [hout₂]
      exact forall₂_errorReply_iff.mpr hsingle
    case same₃ =>
      rw [hout₃]
      exact forall₂_errorReply_iff.mpr hsingle
    case notJson => simpa using fun e' _ => ⟨hsingle, hsingle₂, hsingle₃⟩
    case notMessage =>
      intro raw e' hread'
      rw [hread] at hread'
      cases hread'

theorem not_agree_notMessage {raw : Value} {e : McpError} (hserde : serde.ReadsTrimmed)
    (hread : serde.fromStr text = .ok raw) (hparse : JsonRpcMessage.parse serde raw = .error e)
    (hstdio : TakesWith serde router enforcer text result .stdio tr₁ out₁)
    (hblank : Str.trim text ≠ "") : ¬ Agree serde text out₁ out₂ out₃ := by
  intro hagree
  obtain ⟨v, hv, hcode⟩ := hagree.notMessage raw e hread hparse out₁ (by simp)
  have hout₁ := hstdio.stdio_eq hblank
  rw [fromStr_eq_ok (hserde text raw hread), hparse, hv] at hout₁
  obtain rfl := (List.cons.inj hout₁).1
  rw [parseErrorResponse_toValue] at hcode
  have hparseError := (isErrorReply_errorReply parseErrorCode "Parse error").2
  exact absurd (Option.some.inj (hparseError.symm.trans hcode.2)) (by decide)

theorem agree_message_iff {raw : Value} {message : JsonRpcMessage} (hserde : serde.ReadsTrimmed)
    (hread : serde.fromStr text = .ok raw) (hparse : JsonRpcMessage.parse serde raw = .ok message)
    (hstdio : TakesWith serde router enforcer text result .stdio tr₁ out₁)
    (hhttp : TakesWith serde router enforcer text result (.http sessions sessionId) tr₂ out₂)
    (hsse : TakesWith serde router enforcer text result (.sse clients dropped clientId) tr₃ out₃)
    (hblank : Str.trim text ≠ "") :
    Agree serde text out₁ out₂ out₃ ↔ (Transport.http sessions sessionId).Admits ∧
      ((∃ e, result = .error e ∧ Silenced e) ∨
        (Transport.sse clients dropped clientId).Answers ∧ message.isNotification = false) := by
  have hout₁ := hstdio.stdio_eq hblank
  rw [fromStr_eq_ok (hserde text raw hread), hparse] at hout₁
  have hout₂ := hhttp.http_eq
  simp only [hread, hparse] at hout₂
  have hsame₂ : List.Forall₂ SameReply out₁ out₂ ↔ (Transport.http sessions sessionId).Admits := by
    by_cases hadmits : (Transport.http sessions sessionId).Admits
    · rw [hout₁, hout₂.1 hadmits]
      exact iff_of_true (List.forall₂_same.mpr fun v _ => .refl v) hadmits
    · rw [hout₁, hout₂.2 hadmits]
      exact iff_of_false not_forall₂_unknownSession hadmits
  have hsame₃ : List.Forall₂ SameReply out₁ out₃ ↔ (∃ e, result = .error e ∧ Silenced e) ∨
      (Transport.sse clients dropped clientId).Answers ∧ message.isNotification = false := by
    rw [← encode_eq_nil_iff]
    by_cases hanswers : (Transport.sse clients dropped clientId).Answers
    · have hout₃ := hsse.sse_eq hanswers
      simp only [hread, hparse] at hout₃
      rw [hout₁, hout₃]
      cases message.isNotification with
      | true => simp
      | false =>
        rw [if_neg (by simp)]
        exact iff_of_true (List.forall₂_same.mpr fun v _ => .refl v) (.inr ⟨hanswers, rfl⟩)
    · rw [hout₁, hsse.takes.sse_not_answers hanswers]
      simp [hanswers]
  rw [← hsame₂, ← hsame₃]
  constructor
  · exact fun hagree => ⟨hagree.same₂, hagree.same₃⟩
  · rintro ⟨hagree₂, hagree₃⟩
    refine ⟨hagree₂, hagree₃, fun e he => ?_, fun raw' e hraw he => ?_⟩
    · rw [hread] at he
      cases he
    · rw [hread] at hraw
      obtain rfl := Except.ok.inj hraw
      rw [hparse] at he
      cases he

/-- The transports agree on a text exactly under the condition of `AgreesWhen`. -/
theorem agree_iff (hserde : serde.ReadsTrimmed) (hblank : Str.trim text ≠ "")
    (hstdio : TakesWith serde router enforcer text result .stdio tr₁ out₁)
    (hhttp : TakesWith serde router enforcer text result (.http sessions sessionId) tr₂ out₂)
    (hsse : TakesWith serde router enforcer text result (.sse clients dropped clientId) tr₃ out₃) :
    Agree serde text out₁ out₂ out₃ ↔
      AgreesWhen serde text (.http sessions sessionId) (.sse clients dropped clientId) result := by
  unfold AgreesWhen
  cases hread : serde.fromStr text with
  | error e => exact agree_notJson_iff hread hstdio hhttp hsse hblank
  | ok raw =>
    cases hparse : JsonRpcMessage.parse serde raw with
    | error e => simpa [hparse] using not_agree_notMessage hserde hread hparse hstdio hblank
    | ok message =>
      simpa [hparse] using agree_message_iff hserde hread hparse hstdio hhttp hsse hblank

end Agreement

/-! ### Two texts -/

theorem readsTrimmed_serdeFor {raw : Value} (htrim : Str.trim raw.toJsonString = raw.toJsonString) :
    (serdeFor raw).ReadsTrimmed := by
  intro text raw' hread
  by_cases htext : text = raw.toJsonString
  · subst htext
    rw [htrim]
    exact hread
  · have herror := (if_neg htext).symm.trans hread
    cases herror

/-- A client of the SSE transport. -/
def oneClient : Sse.Clients := AList.insert "client" 0 ∅

theorem lookup_oneClient : oneClient.lookup "client" = some 0 := AList.lookup_insert _

theorem answers_oneClient : (Transport.sse oneClient [] (some "client")).Answers :=
  ⟨"client", 0, rfl, lookup_oneClient, List.not_mem_nil⟩

theorem admits_noSession : (Transport.http ∅ none).Admits := fun _ hsid => nomatch hsid

/-- The text of a `ping`. -/
def pingText : String := (requestValue "ping").toJsonString

theorem trim_pingText : Str.trim pingText = pingText := by decide +kernel

theorem pingText_ne_empty : pingText ≠ "" := by decide +kernel

/-- The reader of this text. -/
def pingSerde : SerdeJson := serdeFor (requestValue "ping")

theorem fromStr_pingText : JsonRpcMessage.fromStr pingSerde pingText =
    .ok (.request (.integer 1) "ping" none) :=
  (fromStr_eq_ok (JsonRpcMessage.fromStr_serdeOf _ _)).trans (parse_requestValue "ping")

/-- The reply. -/
def pong : JsonRpcMessage := .success (.integer 1) .emptyObject

theorem gives_pingText {sessionId : Option String} {message : JsonRpcMessage} {text : String}
    (htext : text = pingText) (hmessage : JsonRpcMessage.fromStr pingSerde text = .ok message) :
    Gives plainRouter .allowAll sessionId message (recordTrace "ping" "success") (.ok pong) := by
  subst htext
  obtain rfl := Except.ok.inj (fromStr_pingText.symm.trans hmessage)
  exact ⟨_, List.prefix_refl _, .call (.call (.refl _))⟩

theorem stdio_pingText : TakesWith pingSerde plainRouter .allowAll pingText (.ok pong) .stdio
    (recordTrace "ping" "success") [pong.toValue] := by
  have hrun : Steps (StdioTransport.handleLine pingSerde plainRouter .allowAll pingText)
      (recordTrace "ping" "success") (.done [pong]) := by
    unfold StdioTransport.handleLine
    simp only [trim_pingText, pingText_ne_empty, if_false, fromStr_pingText]
    exact .call (.call (.refl _))
  exact ⟨.stdio hrun, fun _ _ => gives_pingText trim_pingText⟩

theorem readBody_pingText : StreamableHttp.readBody pingSerde pingText.toUTF8 =
    .ok (.request (.integer 1) "ping" none) :=
  readBody_serdeFor (parse_requestValue "ping")

theorem http_pingText : TakesWith pingSerde plainRouter .allowAll pingText (.ok pong)
    (.http ∅ none) (recordTrace "ping" "success") [pong.toValue] := by
  have hrun : Steps (StreamableHttp.handleMcpPost pingSerde plainRouter .allowAll ∅ none
      pingText.toUTF8) (recordTrace "ping" "success")
      (.done (StreamableHttp.respond 200 (some pong.toValue), .keep)) := by
    rw [handleMcpPost_of_admits readBody_pingText admits_noSession]
    exact .call (.call (.refl _))
  exact ⟨.http hrun, fun _ _ => gives_pingText rfl⟩

theorem sse_pingText : TakesWith pingSerde plainRouter .allowAll pingText (.ok pong)
    (.sse oneClient [] (some "client")) (recordTrace "ping" "success") [pong.toValue] := by
  have hrun : Steps (Sse.handleSsePost pingSerde plainRouter .allowAll oneClient (some "client")
      pingText.toUTF8) (recordTrace "ping" "success") (.done (Sse.accepted, [(0, pong)])) := by
    rw [handleSsePost_of_connected readBody_pingText lookup_oneClient]
    exact .call (.call (.refl _))
  exact ⟨.sse hrun, fun _ _ => gives_pingText rfl⟩

theorem agree_iff_pingText :
    Agree pingSerde pingText [pong.toValue] [pong.toValue] [pong.toValue] := by
  have hblank : Str.trim pingText ≠ "" := trim_pingText ▸ pingText_ne_empty
  have hread : pingSerde.fromStr pingText = .ok (requestValue "ping") :=
    JsonRpcMessage.fromStr_serdeOf _ _
  have hserde : pingSerde.ReadsTrimmed := readsTrimmed_serdeFor trim_pingText
  have hwhen : AgreesWhen pingSerde pingText (.http ∅ none) (.sse oneClient [] (some "client"))
      (.ok pong) := by
    rw [AgreesWhen, hread]
    exact ⟨admits_noSession, .inr ⟨answers_oneClient, rfl⟩⟩
  exact (agree_iff hserde hblank stdio_pingText http_pingText sse_pingText).mpr hwhen

/-- The reader of an empty object. -/
def emptySerde : SerdeJson := serdeFor .emptyObject

theorem read_emptyText : emptySerde.fromStr "{}" = .ok .emptyObject :=
  JsonRpcMessage.fromStr_serdeOf "{}" .emptyObject

theorem parse_emptyObject : ∃ e, JsonRpcMessage.parse emptySerde .emptyObject = .error e := ⟨_, rfl⟩

/-- An empty object is no message, which the line transport answers as if it were no JSON. -/
theorem emptyObject_not_agree :
    ∃ out₁ out₂ out₃, emptySerde.ReadsTrimmed ∧
      TakesWith emptySerde plainRouter .allowAll "{}" (.ok pong) .stdio [] out₁ ∧
      TakesWith emptySerde plainRouter .allowAll "{}" (.ok pong) (.http ∅ none) [] out₂ ∧
      TakesWith emptySerde plainRouter .allowAll "{}" (.ok pong) (.sse oneClient [] (some "client")) []
        out₃ ∧
      ¬ Agree emptySerde "{}" out₁ out₂ out₃ := by
  obtain ⟨e, hparse⟩ := parse_emptyObject
  have htrim : Str.trim "{}" = "{}" := by decide +kernel
  have hserde : emptySerde.ReadsTrimmed := readsTrimmed_serdeFor htrim
  have hfrom : JsonRpcMessage.fromStr emptySerde "{}" = .error e :=
    (fromStr_eq_ok read_emptyText).trans hparse
  have hgives (sessionId : Option String) (text : String) (htext : text = "{}")
      (message : JsonRpcMessage) (hmessage : JsonRpcMessage.fromStr emptySerde text = .ok message) :
      Gives plainRouter .allowAll sessionId message [] (.ok pong) := by
    subst htext
    cases hfrom.symm.trans hmessage
  have hline : Steps (StdioTransport.handleLine emptySerde plainRouter .allowAll "{}") []
      (.done [.parseErrorResponse]) := by
    unfold StdioTransport.handleLine
    simp only [htrim, hfrom]
    exact .refl _
  have hpost : Steps (StreamableHttp.handleMcpPost emptySerde plainRouter .allowAll ∅ none
      "{}".toUTF8) [] (.done (StreamableHttp.jsonrpcErrorResponse e.code e.display, .keep)) := by
    unfold StreamableHttp.handleMcpPost
    rw [readBody_toUTF8, read_emptyText]
    simp only [hparse]
    exact .refl _
  have hsent : Steps (Sse.handleSsePost emptySerde plainRouter .allowAll oneClient (some "client")
      "{}".toUTF8) [] (.done (Sse.accepted, [(0, .error .null (.new e.code e.display))])) := by
    unfold Sse.handleSsePost
    simp only [lookup_oneClient, fromUTF8?_toUTF8, read_emptyText, hparse]
    exact .refl _
  have hstdio : TakesWith emptySerde plainRouter .allowAll "{}" (.ok pong) .stdio [] _ :=
    ⟨.stdio hline, fun _ => hgives _ _ htrim⟩
  exact ⟨_, _, _, hserde, hstdio, ⟨.http hpost, fun _ => hgives _ _ rfl⟩,
    ⟨.sse hsent, fun _ => hgives _ _ rfl⟩,
    not_agree_notMessage hserde read_emptyText hparse hstdio (by decide +kernel)⟩

end McpShield
