import McpShield.Transport.Reconnect

/-!
# Event streams

Whose replies are sent on an event stream, over runs in which connections, POST handlers and streams
are interleaved in any way: those to POSTs of the client that opened it, one reply a POST.
-/

open Effect Effect.Prog

namespace McpShield.Sse

/-! ## Clients and handlers -/

/-- The client that a step connects. -/
def SseOp.opens : SseOp → List String
  | get clientId generated => [clientId.getD generated]
  | _ => []

/-- The clients that have connected; the channel of each is its position. -/
def opened (ops : List SseOp) : List String := ops.flatMap SseOp.opens

/-- The step starts a POST handler under the number. -/
def SseOp.posts (n : ℕ) : SseOp → Bool
  | post m _ _ => m == n
  | _ => false

/-- The handler under the number completes a send in the step. -/
def SseServer.sends (serde : SerdeJson) (router : McpRouter) (enforcer : ScopeEnforcer) (n : ℕ)
    (s : SseServer) (op : SseOp) : Bool :=
  match op with
  | .send m => m == n && (s.act serde router enforcer op).1.isSome
  | _ => false

/-! ## Whose replies they are -/

section Owners

variable {serde : SerdeJson} {router : McpRouter} {enforcer : ScopeEnforcer} {s : SseServer}
  {os : List String}

theorem getElem?_append_of_some {α : Type} {l l' : List α} {i : ℕ} {a : α} (h : l[i]? = some a) :
    (l ++ l')[i]? = some a := by
  rw [List.getElem?_append_left (List.getElem?_eq_some_iff.mp h).1]
  exact h

/-- What the server keeps about the clients that have connected: each registered channel, and each
that a handler has found, is that of its client. -/
structure Opened (os : List String) (s : SseServer) : Prop where
  created : s.created = os.length
  registered : ∀ c tx, s.clients.lookup c = some tx → os[tx]? = some c
  held : ∀ n handler c tx, s.handlers n = some handler → handler.Holds c tx → os[tx]? = some c

theorem opened_start : Opened [] SseServer.start where
  created := rfl
  registered _ _ h := nomatch h
  held _ _ _ _ h := nomatch h

/-- A step creates a channel for the client that it connects. -/
theorem created_act (op : SseOp) :
    (s.act serde router enforcer op).2.created = s.created + op.opens.length := by
  by_cases hkeeps : op.KeepsChannels
  · rw [(act_same hkeeps).2.1]
    cases op with
    | get => exact hkeeps.elim
    | _ => rfl
  · cases op with
    | get | removeClient => rfl
    | drop ch =>
      simp only [SseServer.act]
      split <;> rfl
    | _ => exact absurd trivial hkeeps

theorem Opened.step (h : Opened os s) (op : SseOp) :
    Opened (os ++ op.opens) ((sseMachine serde router enforcer).step s op).2 where
  created := by
    rw [List.length_append, ← h.created]
    exact created_act op
  registered c tx hlookup := by
    rcases lookup_act hlookup with hold | ⟨rfl, -, clientId, generated, rfl, rfl⟩
    · exact getElem?_append_of_some (h.registered c tx hold)
    · rw [h.created]
      exact List.getElem?_concat_length
  held n handler c tx hn hholds := by
    obtain ⟨acted, hacted, rfl⟩ := Option.map_eq_some_iff.mp hn
    refine getElem?_append_of_some ?_
    rcases handlers_act hacted with ⟨before, hbefore, hresumes⟩ | ⟨clientId, body, -, rfl⟩
    · refine h.held n before c tx hbefore ?_
      cases hresumes <;> exact hholds
    · exact h.registered c tx hholds.2

/-- A message that is sent answers a POST of the client that has opened the channel. -/
theorem sending_owner (ops : List SseOp) (op : SseOp) {sending : Sending}
    (h : (((sseMachine serde router enforcer).run SseServer.start ops).act serde router enforcer
      op).1 = some sending) :
    ∃ c, sending.clientId = some c ∧ (opened ops)[sending.channel]? = some c := by
  have hopened : Opened (opened ops) ((sseMachine serde router enforcer).run SseServer.start ops) :=
    (sseMachine serde router enforcer).run_with_history (I := Opened) SseOp.opens
      (fun _ _ op h => h.step op) opened_start ops
  have hcoherent : Coherent ((sseMachine serde router enforcer).run SseServer.start ops) :=
    (sseMachine serde router enforcer).run_induction (P := fun _ => True)
      (fun s op _ h => h.step op) coherent_start fun _ _ => trivial
  obtain ⟨n, handler, response, rest, -, hn, hprogram, -, hclient, -⟩ := sending_act h
  obtain ⟨c, hholds⟩ := (hcoherent.tracked n handler hn).holds hprogram
  exact ⟨c, hclient.trans hholds.1, hopened.held n handler c _ hn hholds⟩

end Owners

/-! ## One reply a POST -/

section OneReply

variable {serde : SerdeJson} {router : McpRouter} {enforcer : ScopeEnforcer} {s : SseServer}
  {handler after : SsePost}

/-- The sends that a handler may still complete. -/
def SsePost.credit (handler : SsePost) : ℕ :=
  match handler.program with
  | .call _ _ => 1
  | .done (_, sends) => sends.length

/-- The sends that the handler under the number may still complete. -/
def SseServer.credit (n : ℕ) (s : SseServer) : ℕ := ((s.handlers n).map SsePost.credit).getD 0

/-- A handler sends one message at most. -/
def SsePost.SendsOnce (handler : SsePost) : Prop :=
  ∃ tr, Ensures Any (fun _ (out : Sent) => out.2.length ≤ 1) handler.program tr

theorem SsePost.SendsOnce.credit_le (h : handler.SendsOnce) : handler.credit ≤ 1 := by
  obtain ⟨tr, hsends⟩ := h
  unfold SsePost.credit
  split
  · exact le_rfl
  · next hprogram =>
    rw [hprogram] at hsends
    exact hsends

theorem SsePost.SendsOnce.resumes (h : handler.SendsOnce) (hresumes : Resumes handler after) :
    after.SendsOnce := by
  obtain ⟨tr, hsends⟩ := h
  cases hresumes with
  | same => exact ⟨tr, hsends⟩
  | answered hprogram r =>
    rw [hprogram] at hsends
    exact ⟨_, hsends.2 r⟩
  | sent hprogram =>
    rw [hprogram] at hsends
    exact ⟨tr, (Nat.le_succ _).trans hsends⟩

/-- Every handler in flight sends one message at most. -/
def AllSendOnce (s : SseServer) : Prop :=
  ∀ n handler, s.handlers n = some handler → handler.SendsOnce

theorem allSendOnce_start : AllSendOnce SseServer.start := fun _ _ hn => nomatch hn

theorem AllSendOnce.act (h : AllSendOnce s) (op : SseOp) :
    AllSendOnce (s.act serde router enforcer op).2 := by
  intro n handler hn
  rcases handlers_act hn with ⟨before, hbefore, hresumes⟩ | ⟨clientId, body, -, rfl⟩
  · exact (h n before hbefore).resumes hresumes
  · refine ⟨[], handleSsePost_spec.mono fun tr out _ hout => ?_⟩
    obtain hnone | ⟨c, tx, message, -, -, hone⟩ := hout
    · exact (congrArg List.length hnone).trans_le zero_le_one
    · exact (congrArg List.length hone).le

theorem AllSendOnce.step (h : AllSendOnce s) (op : SseOp) :
    AllSendOnce ((sseMachine serde router enforcer).step s op).2 := by
  intro n handler hn
  obtain ⟨acted, hacted, rfl⟩ := Option.map_eq_some_iff.mp hn
  exact h.act op n acted hacted

theorem credit_setHandler_self {n : ℕ} {h : Option SsePost} :
    (s.setHandler n h).credit n = (h.map SsePost.credit).getD 0 := by
  simp [SseServer.credit, SseServer.setHandler]

theorem credit_setHandler_of_ne {n m : ℕ} {h : Option SsePost} (hne : n ≠ m) :
    (s.setHandler m h).credit n = s.credit n := by
  simp [SseServer.credit, SseServer.setHandler, Function.update_of_ne hne]

theorem credit_of_some {n : ℕ} (hn : s.handlers n = some handler) :
    s.credit n = handler.credit := by
  simp [SseServer.credit, hn]

theorem credit_note {n : ℕ} {op : SseOp} : (s.note op).credit n = s.credit n := by
  simp only [SseServer.credit, SseServer.note, Option.map_map]
  rfl

theorem AllSendOnce.credit_le (h : AllSendOnce s) (n : ℕ) : s.credit n ≤ 1 := by
  cases hn : s.handlers n with
  | none => simp [SseServer.credit, hn]
  | some handler => exact (credit_of_some hn).trans_le (h n handler hn).credit_le

/-- The credit of a handler that waits for an answer. -/
theorem credit_of_call {n : ℕ} {op : GatewayOp} {k : op.Reply → Prog GatewayOp GatewayOp.Reply Sent}
    (hn : s.handlers n = some handler) (hprogram : handler.program = .call op k) :
    s.credit n = 1 := by
  rw [credit_of_some hn, SsePost.credit, hprogram]

/-- The credit of a handler with messages to send. -/
theorem credit_of_done {n : ℕ} {response : HttpResponse} {sends : List (ChannelId × JsonRpcMessage)}
    (hn : s.handlers n = some handler) (hprogram : handler.program = .done (response, sends)) :
    s.credit n = sends.length := by
  rw [credit_of_some hn, SsePost.credit, hprogram]

theorem credit_sendOn {s' : SseServer} {tx : ChannelId} {message : JsonRpcMessage}
    {delivered : Bool} (h : s.sendOn tx message = some (delivered, s')) (n : ℕ) :
    s'.credit n = s.credit n := by
  obtain ⟨-, -, rfl⟩ | ⟨-, -, -, rfl⟩ := sendOn_cases h <;> rfl

/-- A step that is not about the handler leaves its credit as it is. -/
theorem credit_act_of_other {n : ℕ} {op : SseOp} (hpost : ∀ clientId body, op ≠ .post n clientId body)
    (hanswer : ∀ reply, op ≠ .answer n reply) (hsend : op ≠ .send n) :
    (s.act serde router enforcer op).2.credit n = s.credit n := by
  cases op with
  | get | stream | removeClient => rfl
  | drop ch =>
    simp only [SseServer.act]
    split <;> rfl
  | post m clientId body =>
    have hne : n ≠ m := fun heq => hpost clientId body (heq ▸ rfl)
    simp only [SseServer.act]
    split
    · rfl
    · exact credit_setHandler_of_ne hne
  | answer m reply =>
    have hne : n ≠ m := fun heq => hanswer reply (heq ▸ rfl)
    simp only [SseServer.act]
    split
    · split
      · exact credit_setHandler_of_ne hne
      · rfl
    · rfl
  | send m =>
    have hne : n ≠ m := fun heq => hsend (heq ▸ rfl)
    simp only [SseServer.act]
    split
    · split
      · rfl
      · exact credit_setHandler_of_ne hne
      · split
        · next h => rw [credit_setHandler_of_ne hne, credit_sendOn h]
        · rfl
    · rfl

/-- A send of the handler takes its credit when it is completed. -/
theorem credit_act_send (n : ℕ) :
    (s.sends serde router enforcer n (.send n)).toNat +
      (s.act serde router enforcer (.send n)).2.credit n ≤ s.credit n := by
  simp only [SseServer.sends, SseServer.act, BEq.rfl, Bool.true_and]
  split
  · next handler hn =>
    split
    · simp
    · simp [credit_setHandler_self]
    · next rest hprogram =>
      split
      · rw [credit_setHandler_self, credit_of_done hn hprogram, List.length_cons, Nat.add_comm]
        exact le_rfl
      · simp
  · simp

/-- A step that starts the handler gives it its credit, and a send that it completes takes it. -/
theorem AllSendOnce.credit_act (h : AllSendOnce s) (n : ℕ) (op : SseOp) :
    (s.sends serde router enforcer n op).toNat + (s.act serde router enforcer op).2.credit n ≤
      s.credit n + (op.posts n).toNat := by
  have hafter : (s.act serde router enforcer op).2.credit n ≤ 1 := (h.act op).credit_le n
  by_cases hpost : ∃ clientId body, op = .post n clientId body
  · obtain ⟨clientId, body, rfl⟩ := hpost
    simp only [SseServer.sends, SseOp.posts, BEq.rfl, Bool.toNat_true, Bool.toNat_false]
    omega
  by_cases hsend : op = .send n
  · subst hsend
    exact (credit_act_send n).trans (Nat.le_add_right _ _)
  have hsends : s.sends serde router enforcer n op = false := by
    cases op with
    | send m =>
      have hne : m ≠ n := fun heq => hsend (heq ▸ rfl)
      simp [SseServer.sends, hne]
    | _ => rfl
  rw [hsends, Bool.toNat_false, Nat.zero_add]
  refine le_trans ?_ (Nat.le_add_right _ _)
  by_cases hanswer : ∃ reply, op = .answer n reply
  · obtain ⟨reply, rfl⟩ := hanswer
    simp only [SseServer.act] at hafter ⊢
    split
    · next handler hn =>
      split
      · next hprogram =>
        rw [credit_of_call hn hprogram]
        simpa only [hn, hprogram] using hafter
      · exact le_rfl
    · exact le_rfl
  · exact (credit_act_of_other (fun clientId body heq => hpost ⟨clientId, body, heq⟩)
      (fun reply heq => hanswer ⟨reply, heq⟩) hsend).le

end OneReply

/-- Replies are not mixed up.  Whatever the run, a message is sent only on a channel that the client
whose POST it answers has opened, and a POST handler sends no more messages than it has been started
times. -/
theorem replies_isolated (serde : SerdeJson) (router : McpRouter) (enforcer : ScopeEnforcer)
    (ops : List SseOp) :
    (∀ op sending, (((sseMachine serde router enforcer).run SseServer.start ops).act serde router
        enforcer op).1 = some sending →
      ∃ c, sending.clientId = some c ∧ (opened ops)[sending.channel]? = some c) ∧
    ∀ n, ((sseMachine serde router enforcer).calls SseServer.start ops).countP
        (fun call => call.1.sends serde router enforcer n call.2) ≤ ops.countP (SseOp.posts n) := by
  refine ⟨fun op sending => sending_owner ops op, fun n => ?_⟩
  have hspends := (sseMachine serde router enforcer).spends_le (I := AllSendOnce)
    (SseServer.credit n) (fun s op => s.sends serde router enforcer n op) (SseOp.posts n)
    (fun s op h => ⟨h.step op, by simpa only [sseMachine, credit_note] using h.credit_act n op⟩)
    allSendOnce_start ops
  exact (Nat.le_add_right _ _).trans (hspends.trans_eq (Nat.zero_add _))

end McpShield.Sse
