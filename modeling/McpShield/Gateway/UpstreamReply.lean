import McpShield.Gateway.Proxy
import McpShield.Protocol.Grammar

/-!
# What an upstream server may answer

The echo server answers a request with a success for its id.  Of an HTTP server, whatever message
the parser accepts is handed back, also a request, a batch or a response to another id.
-/

open Effect Effect.Prog

namespace McpShield

namespace JsonRpcMessage

/-- The message is a response to the request with the id. -/
def IsResponseTo (id : RequestId) : JsonRpcMessage → Prop
  | success id' _ => id' = id
  | error id' _ => id' = id
  | _ => False

/-- The object has a result or an error, and the id. -/
def RespondsTo (id : RequestId) (raw : Value) : Prop :=
  ((∃ v, raw.get "result" = some v) ∨ ∃ v, raw.get "error" = some v) ∧
    ∃ v, raw.get "id" = some v ∧ RequestId.fromValue v = some id

/-- Of the values that are parsed, those that respond are parsed as responses. -/
theorem isResponseTo_iff {serde : SerdeJson} {raw : Value} {m : JsonRpcMessage} {id : RequestId}
    (h : parse serde raw = .ok m) : m.IsResponseTo id ↔ RespondsTo id raw := by
  rcases parse_eq_ok_iff.mp h with haccepts | ⟨arr, ms, rfl, -, rfl, -⟩
  · cases haccepts with
    | request _ _ _ _ _ hresult herror => simp [IsResponseTo, RespondsTo, hresult, herror]
    | notification _ _ _ hresult herror => simp [IsResponseTo, RespondsTo, hresult, herror]
    | success _ hid hread hresult _ => simp [IsResponseTo, RespondsTo, hid, hread, hresult]
    | error _ hid hread herror _ => simp [IsResponseTo, RespondsTo, hid, hread, herror]
  · simp [IsResponseTo, RespondsTo, Value.get]

end JsonRpcMessage

open JsonRpcMessage

namespace UpstreamProxy

/-! ## The calls of one forwarded request -/

/-- No HTTP exchange has taken place. -/
def NoPost (tr : ProxyTrace) : Prop := ∀ url body outcome, ⟨.post url body, outcome⟩ ∉ tr

theorem NoPost.append {tr : ProxyTrace} {op : ProxyOp} {r : op.Reply} (h : NoPost tr)
    (hop : ∀ url body, op ≠ .post url body) : NoPost (tr ++ [⟨op, r⟩]) := by
  intro url body outcome hmem
  rcases List.mem_append.mp hmem with hmem | hmem
  · exact h url body outcome hmem
  · cases List.mem_singleton.mp hmem
    exact hop url body rfl

/-- What a request with the id comes to: it is answered without an exchange and correctly, or it
comes to what is made of the one exchange. -/
def Forwarded (serde : SerdeJson) (id : RequestId) (tr : ProxyTrace)
    (r : Except McpError JsonRpcMessage) : Prop :=
  (NoPost tr ∧ ∀ m, r = .ok m → m.IsResponseTo id) ∨
    ∃ tr₀ url body outcome, NoPost tr₀ ∧ tr = tr₀ ++ [⟨.post url body, outcome⟩] ∧
      r = readReply serde outcome

section Forwarding

variable {serde : SerdeJson} {id : RequestId} {method : String} {params : Option Value}
  {h : ProxyTrace}

theorem echoResult_spec {P : Value} (hno : NoPost h) :
    Ensures (fun _ _ => True) (fun tr _ => NoPost tr) (echoResult method P).run h := by
  have hcall : Ensures (fun _ _ => True) (fun tr _ => NoPost tr) (echoCall P).run h := by
    unfold echoCall
    dsimp only
    split_ifs
    · exact hno
    · exact hno
    · exact ⟨trivial, fun now => hno.append (by simp)⟩
    · exact hno
  unfold echoResult
  split_ifs <;> first | exact hcall | exact hno

theorem forwardToEcho_spec (hno : NoPost h) :
    Ensures (fun _ _ => True) (Forwarded serde id)
      (forwardToEcho (.request id method params)).run h := by
  refine Ensures.bindExcept (echoResult_spec hno) (fun tr e _ hno' => ?_) fun tr a _ hno' => ?_
  · exact .inl ⟨hno', fun m hm => nomatch hm⟩
  · refine .inl ⟨hno', fun m hm => ?_⟩
    cases hm
    rfl

theorem forwardToHttp_spec {url : String} {message : JsonRpcMessage} (hno : NoPost h) :
    Ensures (fun _ _ => True) (Forwarded serde id) (forwardToHttp serde url message).run h :=
  ⟨trivial, fun outcome => .inr ⟨h, url, _, outcome, hno, rfl, rfl⟩⟩

theorem forwardRequest_spec {p : UpstreamProxy} {serverId : String} (hno : NoPost h) :
    Ensures (fun _ _ => True) (Forwarded serde id)
      (forwardRequest serde p serverId (.request id method params)).run h := by
  have hfail : ∀ {tr : ProxyTrace} {e : McpError}, NoPost tr → Forwarded serde id tr (.error e) :=
    fun hno => .inl ⟨hno, fun m hm => nomatch hm⟩
  refine ⟨trivial, fun permit => ?_⟩
  have hno' : NoPost (h ++ [⟨.acquire, permit⟩]) := hno.append (by simp)
  cases permit with
  | false => exact hfail hno'
  | true =>
    cases p.servers.lookup serverId with
    | none => exact hfail hno'
    | some server =>
        have hurl : Ensures (fun _ _ => True) (Forwarded serde id) (do
            let url ← Prog.result (urlOf serverId server)
            forwardToHttp serde url (.request id method params) : ProxyM JsonRpcMessage).run
              (h ++ [⟨.acquire, true⟩]) :=
          Ensures.result_bind (fun _ _ => hfail hno') fun _ _ => forwardToHttp_spec hno'
        by_cases hecho : server.isEcho
        · simp only [hecho, if_true]
          exact forwardToEcho_spec hno'
        · simp only [hecho]
          cases server.transport with
          | streamableHttp => exact hurl
          | sse => exact hurl
          | stdio => exact hfail hno'

end Forwarding

/-! ## Correlation -/

/-- The exchange is answered with the text of a message. -/
def Accepted (serde : SerdeJson) : HttpOutcome → Value → Prop
  | .response status _ body, raw => isSuccessStatus status = true ∧
      serde.fromStr body = .ok raw ∧ (Grammatical raw ∨ HasLenient raw)
  | _, _ => False

/-- Every message that an HTTP server has answered with responds to the request with the id. -/
def RepliesRespond (serde : SerdeJson) (id : RequestId) (tr : ProxyTrace) : Prop :=
  ∀ url body outcome raw, ⟨.post url body, outcome⟩ ∈ tr → Accepted serde outcome raw →
    RespondsTo id raw

theorem Accepted.exists_parse {serde : SerdeJson} {outcome : HttpOutcome} {raw : Value}
    (h : Accepted serde outcome raw) : ∃ m, parse serde raw = .ok m := by
  cases outcome with
  | response status statusText body => exact exists_parse_iff.mpr h.2.2
  | _ => exact h.elim

theorem readReply_eq_ok_iff {serde : SerdeJson} {outcome : HttpOutcome} {m : JsonRpcMessage} :
    readReply serde outcome = .ok m ↔
      ∃ raw, Accepted serde outcome raw ∧ parse serde raw = .ok m := by
  cases outcome with
  | sendError e => simp [readReply, Accepted]
  | textError e => simp [readReply, Accepted]
  | response status statusText body =>
      unfold readReply Accepted
      by_cases hstatus : isSuccessStatus status
      · simp only [hstatus, Bool.not_true, Bool.false_and, Bool.false_eq_true, if_false, true_and]
        cases hread : serde.fromStr body with
        | error e => simp
        | ok raw =>
            cases hparse : parse serde raw with
            | error e =>
                simp [hparse]
            | ok m' =>
                have hform := exists_parse_iff.mp ⟨m', hparse⟩
                simp [hparse, hform]
      · have hne : status ≠ 202 := by
          rintro rfl
          exact hstatus rfl
        simp [hstatus, hne]

/-- A forwarded request is answered with a response to it exactly when the message an HTTP server
has answered with, if any, responds to it. -/
theorem forwardRequest_correlated_iff {serde : SerdeJson} {p : UpstreamProxy} {serverId : String}
    {id : RequestId} {method : String} {params : Option Value} {tr : ProxyTrace}
    {r : Except McpError JsonRpcMessage}
    (hrun : Steps (forwardRequest serde p serverId (.request id method params)).run tr (.done r)) :
    (∀ m, r = .ok m → m.IsResponseTo id) ↔ RepliesRespond serde id tr := by
  have hno : NoPost [] := fun _ _ _ => List.not_mem_nil
  rcases (forwardRequest_spec hno).post_of_steps hrun with ⟨hnone, hecho⟩ |
    ⟨tr₀, url, body, outcome, hnone, rfl, rfl⟩
  · exact ⟨fun _ url body outcome _ hmem => absurd hmem (hnone url body outcome), fun _ => hecho⟩
  · constructor
    · intro hall url' body' outcome' raw hmem haccepted
      obtain rfl : outcome' = outcome := by
        rcases List.mem_append.mp hmem with hmem | hmem
        · exact absurd hmem (hnone url' body' outcome')
        · cases List.mem_singleton.mp hmem
          rfl
      obtain ⟨m, hparse⟩ := haccepted.exists_parse
      rw [← isResponseTo_iff hparse]
      exact hall m (readReply_eq_ok_iff.mpr ⟨raw, haccepted, hparse⟩)
    · intro hreplies m hm
      obtain ⟨raw, haccepted, hparse⟩ := readReply_eq_ok_iff.mp hm
      rw [isResponseTo_iff hparse]
      exact hreplies url body outcome raw (by simp) haccepted

/-! ### Two replies of an HTTP server -/

/-- A proxy with one HTTP server. -/
def webProxy : UpstreamProxy :=
  UpstreamProxy.new.registerServer
    { id := "web", transport := .streamableHttp, url := some "http://localhost:9000/mcp",
      isEcho := false }

/-- A success response with an id. -/
def successValue (id : UInt64) : Value :=
  .object [("jsonrpc", .string "2.0"), ("id", .number (.posInt id)), ("result", .emptyObject)]

/-- A reader of the text of one response. -/
def successSerde (id : UInt64) : SerdeJson := serdeOf (successValue id).toJsonString (successValue id)

/-- The exchange in which a `ping` with the id 1 is answered with a response to an id. -/
def pingTrace (id : UInt64) : ProxyTrace :=
  [⟨.acquire, true⟩,
    ⟨.post "http://localhost:9000/mcp" (JsonRpcMessage.request (.integer 1) "ping" none).toJsonString,
      .response 200 "200 OK" (successValue id).toJsonString⟩]

theorem accepted_successSerde (id : UInt64) (hid : id.toNat < 2 ^ 63) :
    Accepted (successSerde id) (.response 200 "200 OK" (successValue id).toJsonString)
      (successValue id) := by
  have hread : (successSerde id).fromStr (successValue id).toJsonString = .ok (successValue id) :=
    fromStr_serdeOf _ _
  have hshape : HasShape (successValue id) .success :=
    ⟨rfl, rfl, ⟨_, rfl⟩, rfl, rfl, _, rfl, .inl (.inr ⟨id.toInt64, if_pos hid⟩)⟩
  exact ⟨rfl, hread, .inl (.inl ⟨.success, hshape⟩)⟩

theorem steps_pingTrace {id : UInt64} {m : JsonRpcMessage} (hid : id.toNat < 2 ^ 63)
    (hparse : parse (successSerde id) (successValue id) = .ok m) :
    Steps (forwardRequest (successSerde id) webProxy "web" (.request (.integer 1) "ping" none)).run
      (pingTrace id) (.done (.ok m)) := by
  have hreply : readReply (successSerde id)
      (.response 200 "200 OK" (successValue id).toJsonString) = .ok m :=
    readReply_eq_ok_iff.mpr ⟨_, accepted_successSerde id hid, hparse⟩
  rw [← hreply]
  exact .call (.call (.refl _))

/-- The response to another request is handed back. -/
theorem response_to_other_id_forwarded :
    Steps (forwardRequest (successSerde 2) webProxy "web" (.request (.integer 1) "ping" none)).run
        (pingTrace 2) (.done (.ok (.success (.integer 2) .emptyObject))) ∧
      ¬ IsResponseTo (.integer 1) (.success (.integer 2) .emptyObject) :=
  ⟨steps_pingTrace (by decide) rfl, by simp [IsResponseTo]⟩

/-- The response to the request is handed back. -/
theorem forwardRequest_correlated_iff_ping :
    RepliesRespond (successSerde 1) (.integer 1) (pingTrace 1) := by
  have hrun : Steps (forwardRequest (successSerde 1) webProxy "web"
      (.request (.integer 1) "ping" none)).run (pingTrace 1)
      (.done (.ok (.success (.integer 1) .emptyObject))) := steps_pingTrace (by decide) rfl
  refine (forwardRequest_correlated_iff hrun).mp fun m hm => ?_
  cases hm
  rfl

end UpstreamProxy

end McpShield
