import McpShield.Gateway.Proxy

/-!
# The errors of the proxy

Whatever an upstream server answers, the proxy does not fail with an error of the scopes, of the
session lock or of a guardrail.
-/

open Effect Effect.Prog

namespace McpShield

/-- The error belongs to none of the stages that a decision is for. -/
def McpError.Plain : McpError → Prop
  | scopeDenied _ | sessionLocked _ | ecpaViolation _ => False
  | _ => True

/-- Every error of the result is plain. -/
def PlainErrors {α : Type} (_ : ProxyTrace) (result : Except McpError α) : Prop :=
  ∀ e, result = .error e → e.Plain

section Errors

variable {α : Type} {h : ProxyTrace} {e : McpError}

theorem plainErrors_error (he : e.Plain) : PlainErrors h (.error e : Except McpError α) :=
  fun _ heq => Except.error.inj heq ▸ he

theorem plainErrors_ok (a : α) : PlainErrors h (.ok a : Except McpError α) :=
  fun _ heq => nomatch heq

theorem ensures_pure_plain (a : α) :
    Ensures (fun _ _ => True) PlainErrors (pure a : ProxyM α).run h := by
  rw [run_pure]
  exact plainErrors_ok a

theorem ensures_throw_plain (he : e.Plain) :
    Ensures (fun _ _ => True) PlainErrors (throw e : ProxyM α).run h := by
  rw [run_throw]
  exact plainErrors_error he

end Errors

section Echo

variable {method : String} {params : Value} {h : ProxyTrace}

theorem echoCall_plain : Ensures (fun _ _ => True) PlainErrors (echoCall params).run h := by
  unfold echoCall
  dsimp only
  split_ifs
  · exact ensures_pure_plain _
  · exact ensures_pure_plain _
  · exact ⟨trivial, fun now => ensures_pure_plain _⟩
  · exact ensures_throw_plain trivial

theorem echoResult_plain :
    Ensures (fun _ _ => True) PlainErrors (echoResult method params).run h := by
  unfold echoResult
  split_ifs
  · exact ensures_pure_plain _
  · exact ensures_pure_plain _
  · exact echoCall_plain
  · exact ensures_pure_plain _
  · exact ensures_pure_plain _
  · exact ensures_pure_plain _
  · exact ensures_throw_plain trivial

end Echo

namespace UpstreamProxy

variable {serde : SerdeJson} {p : UpstreamProxy} {serverId url : String} {server : UpstreamServer}
  {message : JsonRpcMessage} {outcome : HttpOutcome} {h : ProxyTrace}

theorem forwardToEcho_plain :
    Ensures (fun _ _ => True) PlainErrors (forwardToEcho message).run h :=
  Ensures.bindExcept echoResult_plain (fun _ e _ hplain => plainErrors_error (hplain e rfl))
    fun _ _ _ _ => ensures_pure_plain _

theorem readReply_plain : PlainErrors h (readReply serde outcome) := by
  cases outcome with
  | sendError e => exact plainErrors_error trivial
  | textError e => exact plainErrors_error trivial
  | response status statusText body =>
    unfold readReply
    dsimp only
    split_ifs
    · exact plainErrors_error trivial
    · cases serde.fromStr body with
      | error e => exact plainErrors_error trivial
      | ok raw =>
        dsimp only
        cases JsonRpcMessage.parse serde raw with
        | error e => exact plainErrors_error trivial
        | ok message => exact plainErrors_ok message

theorem forwardToHttp_plain :
    Ensures (fun _ _ => True) PlainErrors (forwardToHttp serde url message).run h :=
  ⟨trivial, fun _ => readReply_plain⟩

theorem urlOf_plain : PlainErrors h (urlOf serverId server) := by
  unfold urlOf
  cases server.url with
  | some url => exact plainErrors_ok url
  | none => exact plainErrors_error trivial

/-- The proxy fails with plain errors. -/
theorem forwardRequest_plain :
    Ensures (fun _ _ => True) PlainErrors (p.forwardRequest serde serverId message).run h := by
  refine ⟨trivial, fun permit => ?_⟩
  cases permit with
  | false => exact ensures_throw_plain trivial
  | true =>
    cases p.servers.lookup serverId with
    | none => exact ensures_throw_plain trivial
    | some server =>
      have hhttp : Ensures (fun _ _ => True) PlainErrors (do
          let url ← Prog.result (urlOf serverId server)
          forwardToHttp serde url message : ProxyM JsonRpcMessage).run (h ++ [⟨.acquire, true⟩]) :=
        Ensures.result_bind (fun e hurl => plainErrors_error (urlOf_plain (h := h) e hurl))
          fun url _ => forwardToHttp_plain
      by_cases hecho : server.isEcho
      · simp only [hecho, if_true]
        exact forwardToEcho_plain
      · simp only [hecho]
        cases server.transport with
        | streamableHttp => exact hhttp
        | sse => exact hhttp
        | stdio => exact ensures_throw_plain trivial

end UpstreamProxy

end McpShield
