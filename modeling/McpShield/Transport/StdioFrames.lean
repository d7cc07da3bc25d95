import McpShield.Protocol.JsonText
import McpShield.Transport.StdioLoop

/-!
# The lines that are written

What the message writer of the stdio loop writes, over whole runs: cut at its line feeds, it is the
texts of the replies, in the order of the lines that they answer, and no other replies have these
texts.
-/

open Effect Effect.Prog Printing

namespace McpShield.StdioTransport

/-! ## What is written -/

/-- The characters that a call of the loop puts on stdout when it succeeds. -/
def written : Event StdioOp.Reply → List Char
  | ⟨.writeAll text, _⟩ => text.toList
  | _ => []

/-- What the loop has put on a writable stdout.  The subscriber of `main` puts its log lines on stdout
as well; they are not counted. -/
def output (tr : StdioTrace) : List Char := tr.flatMap written

/-- The call of the router, if it is one. -/
def gatewayEvent : Event StdioOp.Reply → Option (Event GatewayOp.Reply)
  | ⟨.gateway op, r⟩ => some ⟨op, r⟩
  | _ => none

/-- The calls of the router. -/
def routed (tr : StdioTrace) : GatewayTrace := tr.filterMap gatewayEvent

/-- The text of a message on a line of its own, for each of the messages. -/
def textOf (messages : List JsonRpcMessage) : List Char :=
  framed '\n' (messages.map fun message => message.toValue.toChars)

theorem output_append (tr tr' : StdioTrace) : output (tr ++ tr') = output tr ++ output tr' :=
  List.flatMap_append

theorem routed_append (tr tr' : StdioTrace) : routed (tr ++ tr') = routed tr ++ routed tr' :=
  List.filterMap_append

theorem textOf_append (ms ms' : List JsonRpcMessage) : textOf (ms ++ ms') = textOf ms ++ textOf ms' := by
  rw [textOf, List.map_append, framed_append]
  rfl

/-! ## One line -/

/-- An operation on stdout that succeeds is one call. -/
theorem perform_inv {op : StdioOp} {failed : op.Reply → Option McpError} {tr : StdioTrace}
    {r : Except McpError Unit} (hrun : Steps (perform op failed).run tr (.done r)) :
    ∃ outcome, tr = [⟨op, outcome⟩] := by
  simp only [perform, run_request_bind] at hrun
  cases hrun with
  | @call _ _ outcome _ _ hrest =>
    refine ⟨outcome, ?_⟩
    beta_reduce at hrest
    cases hfailed : failed outcome with
    | none =>
      rw [hfailed] at hrest
      cases hrest
      rfl
    | some e =>
      rw [hfailed] at hrest
      cases hrest
      rfl

theorem writeMessage_ok {message : JsonRpcMessage} {tr : StdioTrace}
    (hrun : Steps (writeMessage message).run tr (.done (.ok ()))) :
    output tr = message.toValue.toChars ++ ['\n'] ∧ routed tr = [] := by
  unfold writeMessage at hrun
  obtain ⟨e, -, h⟩ | ⟨tr₁, tr', u, rfl, hfirst, hrun⟩ := hrun.bindExcept_inv
  · cases h
  obtain ⟨e, -, h⟩ | ⟨tr₂, tr₃, u', rfl, hsecond, hthird⟩ := hrun.bindExcept_inv
  · cases h
  obtain ⟨_, rfl⟩ := perform_inv hfirst
  obtain ⟨_, rfl⟩ := perform_inv hsecond
  obtain ⟨_, rfl⟩ := perform_inv hthird
  refine ⟨?_, rfl⟩
  show message.toJsonString.toList ++ ("\n".toList ++ ([] ++ [])) = _
  rw [JsonRpcMessage.toJsonString, Value.toJsonString, String.toList_ofList]
  rfl

theorem forM_ok {replies : List JsonRpcMessage} {tr : StdioTrace}
    (hrun : Steps (replies.forM writeMessage).run tr (.done (.ok ()))) :
    output tr = textOf replies ∧ routed tr = [] := by
  induction replies generalizing tr with
  | nil =>
    cases hrun
    exact ⟨rfl, rfl⟩
  | cons reply replies ih =>
    obtain ⟨e, -, h⟩ | ⟨tr₁, tr₂, u, rfl, hfirst, hrest⟩ := hrun.bindExcept_inv
    · cases h
    obtain ⟨houtput, hrouted⟩ := writeMessage_ok hfirst
    obtain ⟨houtput', hrouted'⟩ := ih hrest
    rw [output_append, routed_append, houtput, houtput', hrouted, hrouted']
    exact ⟨rfl, rfl⟩

/-- Calls of the router write nothing. -/
theorem output_gateway (exchanges : List (Σ op, (StdioOp.gateway op).Reply)) :
    output (exchanges.map fun x => ⟨StdioOp.gateway x.1, x.2⟩) = [] ∧
      routed (exchanges.map fun x => ⟨StdioOp.gateway x.1, x.2⟩) =
        exchanges.map fun x => ⟨x.1, x.2⟩ := by
  induction exchanges with
  | nil => exact ⟨rfl, rfl⟩
  | cons ev exchanges ih => exact ⟨ih.1, congrArg _ ih.2⟩

/-- What a line is answered with. -/
structure Answered (serde : SerdeJson) (router : McpRouter) (enforcer : ScopeEnforcer)
    (line : StdinLine) (exchange : GatewayTrace × List JsonRpcMessage) : Prop where
  routes : ∃ text, readLine line = .ok text ∧
    Steps (handleLine serde router enforcer text) exchange.1 (.done exchange.2)
  once : exchange.2.length ≤ 1

section Loop

variable {serde : SerdeJson} {router : McpRouter} {enforcer : ScopeEnforcer}

/-- A line has one reply at most. -/
theorem handleLine_once (line : String) :
    Ensures Any (fun _ out => out.length ≤ 1) (handleLine serde router enforcer line) [] := by
  unfold handleLine
  dsimp only
  split
  · exact Nat.zero_le _
  · split
    · exact le_rfl
    · refine (ensures_gives _).bind fun tr result _ _ => ?_
      cases result with
      | ok response => exact le_rfl
      | error e =>
        dsimp only
        split
        · exact le_rfl
        · exact Nat.zero_le _

theorem round_ok {line : String} {tr : StdioTrace}
    (hrun : Steps (round serde router enforcer line).run tr (.done (.ok ()))) :
    ∃ replies, Steps (handleLine serde router enforcer line) (routed tr) (.done replies) ∧
      output tr = textOf replies := by
  obtain ⟨tr₁, tr₂, replies, rfl, hhandle, hwrite⟩ := Steps.lift_bind_inv hrun
  obtain ⟨exchanges, p, rfl, hsteps, hdone⟩ := hhandle.embed_inv
  obtain ⟨houtput, hrouted⟩ := forM_ok hwrite
  obtain ⟨hnothing, hcalls⟩ := output_gateway exchanges
  cases p with
  | call op k => cases hdone
  | done a =>
    cases hdone
    refine ⟨replies, ?_, ?_⟩
    · rw [routed_append, hcalls, hrouted, List.append_nil]
      exact hsteps
    · rw [output_append, hnothing, houtput, List.nil_append]

/-! ## A run -/

/-- The lines that the loop reads: those before the first one that is not UTF-8. -/
def readable (lines : List StdinLine) : List StdinLine :=
  lines.takeWhile fun line => (String.fromUTF8? line.1).isSome

/-- With stdout writable, the lines are answered one after the other. -/
theorem answered_of_run {lines : List StdinLine} {tr : StdioTrace} {r : Except McpError Unit}
    (hrun : Steps (run serde router enforcer lines).run tr (.done r)) (hw : Writable tr) :
    ∃ exchanges, List.Forall₂ (Answered serde router enforcer) (readable lines) exchanges ∧
      routed tr = exchanges.flatMap Prod.fst ∧ output tr = textOf (exchanges.flatMap Prod.snd) := by
  induction lines generalizing tr with
  | nil =>
    cases hrun
    exact ⟨[], .nil, rfl, rfl⟩
  | cons line lines ih =>
    cases hread : readLine line with
    | error e =>
      have hnot : (String.fromUTF8? line.1).isSome = false := by
        rw [← Bool.not_eq_true, ← readLine_ok_iff, hread]
        simp
      simp only [run, hread, run_result_error_bind] at hrun
      cases hrun
      refine ⟨[], ?_, rfl, rfl⟩
      rw [readable, List.takeWhile_cons, hnot]
      exact .nil
    | ok text =>
      have hsome := readLine_ok_iff.mp ⟨text, hread⟩
      rw [run_cons hread] at hrun
      obtain ⟨e, hfail, -⟩ | ⟨tr₁, tr₂, u, rfl, hround, hrest⟩ := hrun.bindExcept_inv
      · cases endsOk_round text tr _ hfail hw
      obtain ⟨replies, hsteps, houtput⟩ := round_ok hround
      obtain ⟨exchanges, hanswered, hrouted, houtput'⟩ := ih hrest hw.of_append.2
      refine ⟨(routed tr₁, replies) :: exchanges, ?_, ?_, ?_⟩
      · rw [readable, List.takeWhile_cons, if_pos hsome]
        exact .cons ⟨⟨text, hread, hsteps⟩, (handleLine_once text).post_of_steps hsteps⟩ hanswered
      · rw [routed_append, hrouted]
        rfl
      · rw [output_append, houtput, houtput', List.flatMap_cons, textOf_append]

/-- Values are found again from their texts. -/
theorem values_eq_of_texts {vs ws : List Value} (hvs : ∀ v ∈ vs, v.Canonical)
    (hws : ∀ w ∈ ws, w.Canonical) (heq : vs.map Value.toChars = ws.map Value.toChars) : vs = ws := by
  induction vs generalizing ws with
  | nil => exact (List.map_eq_nil_iff.mp heq.symm).symm
  | cons v vs ih =>
    cases ws with
    | nil => cases heq
    | cons w ws =>
      obtain ⟨hhead, htail⟩ := List.cons_eq_cons.mp heq
      rw [Value.toChars_injective (hvs v List.mem_cons_self) (hws w List.mem_cons_self) hhead,
        ih (fun u hu => hvs u (List.mem_cons_of_mem _ hu))
          (fun u hu => hws u (List.mem_cons_of_mem _ hu)) htail]

/-- The texts of messages have no line feed. -/
theorem lineFeed_not_mem_texts {messages : List JsonRpcMessage}
    (h : ∀ message ∈ messages, message.toValue.Canonical) :
    ∀ text ∈ messages.map (fun message => message.toValue.toChars), '\n' ∉ text := by
  intro text htext
  obtain ⟨message, hmessage, rfl⟩ := List.mem_map.mp htext
  exact Value.lineFeed_not_mem (h message hmessage)

/-- What is written is one JSON text a line.  With stdout writable, in any run of the loop to its end
the lines that it reads are answered in order, with one reply a line at most, from the calls that are
made for the line.  If the numbers of the replies are as `serde_json` keeps them, what is written, cut
at its line feeds, is the texts of these replies, and they are the only such replies with that
output. -/
theorem output_framed {lines : List StdinLine} {tr : StdioTrace} {r : Except McpError Unit}
    (hrun : Steps (run serde router enforcer lines).run tr (.done r)) (hw : Writable tr) :
    ∃ exchanges, List.Forall₂ (Answered serde router enforcer) (readable lines) exchanges ∧
      routed tr = exchanges.flatMap Prod.fst ∧
      ((∀ reply ∈ exchanges.flatMap Prod.snd, reply.toValue.Canonical) →
        (output tr).splitOn '\n' =
            (exchanges.flatMap Prod.snd).map (fun reply => reply.toValue.toChars) ++ [[]] ∧
          ∀ replies, (∀ reply ∈ replies, reply.toValue.Canonical) → output tr = textOf replies →
            replies.map JsonRpcMessage.toValue =
              (exchanges.flatMap Prod.snd).map JsonRpcMessage.toValue) := by
  obtain ⟨exchanges, hanswered, hrouted, houtput⟩ := answered_of_run hrun hw
  refine ⟨exchanges, hanswered, hrouted, fun hcanonical => ⟨?_, fun replies hreplies heq => ?_⟩⟩
  · rw [houtput]
    exact splitOn_framed (lineFeed_not_mem_texts hcanonical)
  · have htexts := framed_injective (lineFeed_not_mem_texts hreplies)
      (lineFeed_not_mem_texts hcanonical) (heq.symm.trans houtput)
    refine values_eq_of_texts (fun v hv => ?_) (fun v hv => ?_) ?_
    · obtain ⟨reply, hreply, rfl⟩ := List.mem_map.mp hv
      exact hreplies reply hreply
    · obtain ⟨reply, hreply, rfl⟩ := List.mem_map.mp hv
      exact hcanonical reply hreply
    · rw [List.map_map, List.map_map]
      exact htexts

end Loop

/-! ## A `ping` -/

/-- The calls for a `ping`, with what is written. -/
def pingTrace : StdioTrace :=
  (recordTrace "ping" "success").map (fun ev => ⟨.gateway ev.1, ev.2⟩) ++
    [⟨.writeAll pong.toJsonString, .ok ()⟩, ⟨.writeAll "\n", .ok ()⟩, ⟨.flush, .ok ()⟩]

theorem readLine_pingLine : readLine pingLine = .ok (pingText ++ "\n") := by
  simp only [readLine, pingLine, fromUTF8?_toUTF8]

theorem handleLine_pingLine :
    Steps (handleLine pingSerde plainRouter .allowAll (pingText ++ "\n"))
      (recordTrace "ping" "success") (.done [pong]) := by
  have htrim : Str.trim (pingText ++ "\n") = pingText := by decide +kernel
  simp only [handleLine, htrim, pingText_ne_empty, if_false, fromStr_pingText]
  exact .call (.call (.refl _))

theorem run_pingLine : Steps (run pingSerde plainRouter .allowAll [pingLine]).run pingTrace
    (.done (.ok ())) := by
  have htrim : Str.trim (pingText ++ "\n") = pingText := by decide +kernel
  simp only [run, readLine_pingLine, run_result_ok_bind, round, handleLine, htrim,
    pingText_ne_empty, if_false, fromStr_pingText]
  exact .call (.call (.call (.call (.call (.refl _)))))

theorem writable_pingTrace : Writable pingTrace := by
  intro ev hev
  simp only [pingTrace, recordTrace, List.map_cons, List.map_nil, List.cons_append,
    List.nil_append, List.mem_cons, List.not_mem_nil, or_false] at hev
  rcases hev with rfl | rfl | rfl | rfl | rfl <;> trivial

theorem canonical_pong : pong.toValue.Canonical := by
  simp [pong, JsonRpcMessage.toValue, RequestId.toValue, Value.emptyObject, Value.Canonical,
    Value.FieldsCanonical]

theorem output_framed_ping :
    Steps (run pingSerde plainRouter .allowAll [pingLine]).run pingTrace (.done (.ok ())) ∧
      pong.toValue.Canonical ∧
      (output pingTrace).splitOn '\n' = [pong.toValue.toChars, []] ∧
      ∀ replies, (∀ reply ∈ replies, reply.toValue.Canonical) → output pingTrace = textOf replies →
        replies.map JsonRpcMessage.toValue = [pong.toValue] := by
  obtain ⟨exchanges, hanswered, hrouted, hframed⟩ := output_framed run_pingLine writable_pingTrace
  have hreplies : exchanges.flatMap Prod.snd = [pong] := by
    have hsome := readLine_ok_iff.mp ⟨_, readLine_pingLine⟩
    rw [readable, List.takeWhile_cons, if_pos hsome] at hanswered
    cases hanswered with
    | @cons _ exchange _ _ hline hrest =>
      cases hrest
      obtain ⟨text, hread, hsteps⟩ := hline.routes
      obtain rfl := Except.ok.inj (readLine_pingLine.symm.trans hread)
      have hcalls : routed pingTrace = exchange.1 := by simpa using hrouted
      rw [← hcalls] at hsteps
      simpa using hsteps.value_eq handleLine_pingLine
  rw [hreplies] at hframed
  obtain ⟨hsplit, hunique⟩ := hframed fun reply hreply =>
    List.mem_singleton.mp hreply ▸ canonical_pong
  exact ⟨run_pingLine, canonical_pong, hsplit, hunique⟩

end McpShield.StdioTransport
