import Mathlib.Logic.Function.Basic
import McpShield.Gateway.Refusal
import McpShield.Lib.KeyedStore
import McpShield.Lib.Machine
import McpShield.Transport.Agreement

/-!
# Reconnecting clients

GET and POST handlers run side by side.  A POST looks up the channel of its client, routes the
message, which may take any time, and then sends the reply on the channel that it has found; in
between the client may have connected anew, which registers another channel.  `noReplyLost_iff` says
in which runs every reply goes out on the channel that is registered when it is sent.
-/

open Effect Effect.Prog

namespace McpShield

namespace Sse

/-! ## Concurrent handlers -/

/-- How many messages wait in a channel at most. -/
def channelCapacity : ℕ := 100

/-- An atomic step: a GET handler registers a new channel; a POST handler starts with the lookup of
its channel, a call of it is answered, and it sends a reply or responds; an event stream takes a
message, or is dropped by its client with what waits for it; a client is removed. -/
inductive SseOp where
  | get (clientId : Option String) (generated : String)
  | post (n : ℕ) (clientId : Option String) (body : ByteArray)
  | answer (n : ℕ) (reply : (op : GatewayOp) → op.Reply)
  | send (n : ℕ)
  | stream (ch : ChannelId)
  | drop (ch : ChannelId)
  | removeClient (clientId : String)

/-- A POST handler in flight: its client, the registered channels and the dropped ones at its lookup,
the steps since, the lookup included, and what it will do next. -/
structure SsePost where
  clientId : Option String
  clients : Clients
  dropped : List ChannelId
  since : List SseOp
  program : Prog GatewayOp GatewayOp.Reply Sent

/-- The server: the registered channels, how many have been created, those whose stream has been
dropped, the messages that wait in them, and the POST handlers in flight. -/
structure SseServer where
  clients : Clients
  created : ℕ
  dropped : List ChannelId
  waiting : ChannelId → List JsonRpcMessage
  handlers : ℕ → Option SsePost

/-- A completed send. -/
structure Sending where
  clientId : Option String
  channel : ChannelId
  message : JsonRpcMessage
  delivered : Bool

namespace SsePost

/-- A step has been made. -/
def note (handler : SsePost) (op : SseOp) : SsePost :=
  { handler with since := handler.since ++ [op] }

/-- The channel that the handler has found for its client. -/
def Holds (handler : SsePost) (c : String) (tx : ChannelId) : Prop :=
  handler.clientId = some c ∧ handler.clients.lookup c = some tx

end SsePost

namespace SseServer

/-- No client and no handler. -/
def start : SseServer :=
  { clients := ∅, created := 0, dropped := [], waiting := fun _ => [], handlers := fun _ => none }

/-- The handler goes on with a program, or ends. -/
def setHandler (s : SseServer) (n : ℕ) (handler : Option SsePost) : SseServer :=
  { s with handlers := Function.update s.handlers n handler }

/-- The POST handler after its lookup. -/
def lookedUp (serde : SerdeJson) (router : McpRouter) (enforcer : ScopeEnforcer) (s : SseServer)
    (clientId : Option String) (body : ByteArray) : SsePost :=
  { clientId, clients := s.clients, dropped := s.dropped, since := []
    program := handleSsePost serde router enforcer s.clients clientId body }

/-- Send a message on a channel: the send fails if the stream has been dropped, and waits while the
channel is full. -/
def sendOn (s : SseServer) (tx : ChannelId) (message : JsonRpcMessage) : Option (Bool × SseServer) :=
  if tx ∈ s.dropped then some (false, s)
  else if (s.waiting tx).length < channelCapacity then
    some (true, { s with waiting := Function.update s.waiting tx (s.waiting tx ++ [message]) })
  else none

/-- What a step does. -/
def act (serde : SerdeJson) (router : McpRouter) (enforcer : ScopeEnforcer) (s : SseServer) :
    SseOp → Option Sending × SseServer
  | .get clientId generated =>
      (none, { s with
        clients := s.clients.insert (clientId.getD generated) s.created
        created := s.created + 1 })
  | .post n clientId body =>
      match s.handlers n with
      | some _ => (none, s)
      | none => (none, s.setHandler n (some (lookedUp serde router enforcer s clientId body)))
  | .answer n reply =>
      match s.handlers n with
      | some handler =>
          match handler.program with
          | .call op k => (none, s.setHandler n (some { handler with program := k (reply op) }))
          | .done _ => (none, s)
      | none => (none, s)
  | .send n =>
      match s.handlers n with
      | some handler =>
          match handler.program with
          | .call _ _ => (none, s)
          | .done (_, []) => (none, s.setHandler n none)
          | .done (response, (tx, message) :: rest) =>
              match s.sendOn tx message with
              | some (delivered, s') =>
                  (some { clientId := handler.clientId, channel := tx, message, delivered },
                    s'.setHandler n (some { handler with program := .done (response, rest) }))
              | none => (none, s)
      | none => (none, s)
  | .stream ch =>
      (none, { s with waiting := Function.update s.waiting ch (s.waiting ch).tail })
  | .drop ch =>
      (none, if ch < s.created then
        { s with dropped := ch :: s.dropped, waiting := Function.update s.waiting ch [] }
      else s)
  | .removeClient c => (none, { s with clients := s.clients.erase c })

/-- The handlers in flight know of a step. -/
def note (s : SseServer) (op : SseOp) : SseServer :=
  { s with handlers := fun n => (s.handlers n).map fun handler => handler.note op }

end SseServer

/-- The server as a machine. -/
def sseMachine (serde : SerdeJson) (router : McpRouter) (enforcer : ScopeEnforcer) :
    Machine SseServer SseOp (Option Sending) where
  step s op :=
    let (sending, s') := s.act serde router enforcer op
    (sending, s'.note op)

/-! ## Replies that arrive -/

/-- A message goes out on the channel that is registered for its client, and is registered for no
other. -/
def InPlace (s : SseServer) (sending : Sending) : Prop :=
  sending.delivered = true ∧ ∃ c, sending.clientId = some c ∧
    s.clients.lookup c = some sending.channel ∧
    ∀ c', s.clients.lookup c' = some sending.channel → c' = c

/-- The step registers or removes the client, or drops the stream of its channel. -/
def Disturbs (c : String) (tx : ChannelId) : SseOp → Prop
  | .get clientId generated => clientId.getD generated = c
  | .removeClient c' => c' = c
  | .drop ch => ch = tx
  | _ => False

/-- The step registers and removes no channel and drops no stream. -/
def SseOp.KeepsChannels : SseOp → Prop
  | .get _ _ | .drop _ | .removeClient _ => False
  | _ => True

theorem SseOp.KeepsChannels.not_disturbs {op : SseOp} {c : String} {tx : ChannelId}
    (h : op.KeepsChannels) : ¬ Disturbs c tx op := by
  cases op with
  | get | drop | removeClient => exact h.elim
  | _ => exact not_false

/-- The stream of the channel was there at the lookup of the handler, and no step since has disturbed
the client. -/
def SsePost.Undisturbed (handler : SsePost) (c : String) (tx : ChannelId) : Prop :=
  tx ∉ handler.dropped ∧ ∀ op ∈ handler.since, ¬ Disturbs c tx op

/-- A send can be completed: it fails, or there is room. -/
def SseServer.Completes (s : SseServer) (tx : ChannelId) : Prop :=
  tx ∈ s.dropped ∨ (s.waiting tx).length < channelCapacity

/-- A handler that completes a send now has not been disturbed. -/
def SendsUndisturbed (s : SseServer) : SseOp → Prop
  | .send n => ∀ handler response tx message rest, s.handlers n = some handler →
      handler.program = .done (response, (tx, message) :: rest) → s.Completes tx →
        ∀ c, handler.clientId = some c → handler.Undisturbed c tx
  | _ => True

section Runs

variable (serde : SerdeJson) (router : McpRouter) (enforcer : ScopeEnforcer)

/-- Every message that is sent in the run goes out in place. -/
def NoReplyLost (ops : List SseOp) : Prop :=
  (sseMachine serde router enforcer).Along
    (fun s op => ∀ sending, (s.act serde router enforcer op).1 = some sending → InPlace s sending)
    SseServer.start ops

end Runs

/-! ## What a step does -/

/-- What a step makes of a handler in flight. -/
inductive Resumes : SsePost → SsePost → Prop where
  | same (handler : SsePost) : Resumes handler handler
  | answered {handler : SsePost} {op : GatewayOp}
      {k : op.Reply → Prog GatewayOp GatewayOp.Reply Sent}
      (hprogram : handler.program = .call op k) (r : op.Reply) :
      Resumes handler { handler with program := k r }
  | sent {handler : SsePost} {response : HttpResponse} {first : ChannelId × JsonRpcMessage}
      {rest : List (ChannelId × JsonRpcMessage)}
      (hprogram : handler.program = .done (response, first :: rest)) :
      Resumes handler { handler with program := .done (response, rest) }

section Step

variable {serde : SerdeJson} {router : McpRouter} {enforcer : ScopeEnforcer} {s s' : SseServer}
  {op : SseOp} {handler : SsePost} {c : String} {tx : ChannelId} {message : JsonRpcMessage}
  {delivered : Bool}

theorem sendOn_cases (h : s.sendOn tx message = some (delivered, s')) :
    (tx ∈ s.dropped ∧ delivered = false ∧ s' = s) ∨
      (tx ∉ s.dropped ∧ s.Completes tx ∧ delivered = true ∧
        s' = { s with waiting := Function.update s.waiting tx (s.waiting tx ++ [message]) }) := by
  unfold SseServer.sendOn at h
  split_ifs at h with hdropped hroom
  · cases h
    exact .inl ⟨hdropped, rfl, rfl⟩
  · cases h
    exact .inr ⟨hdropped, .inr hroom, rfl, rfl⟩

theorem sendOn_of_completes (h : s.Completes tx) : ∃ delivered s',
    s.sendOn tx message = some (delivered, s') := by
  unfold SseServer.sendOn
  split_ifs with hdropped hroom
  · exact ⟨_, _, rfl⟩
  · exact ⟨_, _, rfl⟩
  · exact absurd h (not_or.mpr ⟨hdropped, hroom⟩)

/-- A send leaves the channels as they are. -/
theorem sendOn_same (h : s.sendOn tx message = some (delivered, s')) :
    s'.clients = s.clients ∧ s'.created = s.created ∧ s'.dropped = s.dropped := by
  obtain ⟨-, -, rfl⟩ | ⟨-, -, -, rfl⟩ := sendOn_cases h <;> exact ⟨rfl, rfl, rfl⟩

/-- A step of a POST handler or of a stream leaves the channels as they are. -/
theorem act_same (h : op.KeepsChannels) :
    (s.act serde router enforcer op).2.clients = s.clients ∧
      (s.act serde router enforcer op).2.created = s.created ∧
      (s.act serde router enforcer op).2.dropped = s.dropped := by
  cases op with
  | get | removeClient | drop => exact h.elim
  | stream ch => exact ⟨rfl, rfl, rfl⟩
  | post n clientId body =>
    simp only [SseServer.act]
    split <;> exact ⟨rfl, rfl, rfl⟩
  | answer n reply =>
    simp only [SseServer.act]
    split
    · split <;> exact ⟨rfl, rfl, rfl⟩
    · exact ⟨rfl, rfl, rfl⟩
  | send n =>
    simp only [SseServer.act]
    split
    · split
      · exact ⟨rfl, rfl, rfl⟩
      · exact ⟨rfl, rfl, rfl⟩
      · split
        · next hsend =>
          obtain ⟨hclients, hcreated, hdropped⟩ := sendOn_same hsend
          exact ⟨hclients, hcreated, hdropped⟩
        · exact ⟨rfl, rfl, rfl⟩
    · exact ⟨rfl, rfl, rfl⟩

theorem created_le_act : s.created ≤ (s.act serde router enforcer op).2.created := by
  by_cases hkeeps : op.KeepsChannels
  · exact (act_same hkeeps).2.1.ge
  · cases op with
    | get clientId generated => exact Nat.le_succ _
    | drop ch =>
      simp only [SseServer.act]
      split <;> exact le_rfl
    | removeClient c => exact le_rfl
    | _ => exact absurd trivial hkeeps

/-- A channel is registered after a step if it was before, or if the step has created it. -/
theorem lookup_act (h : (s.act serde router enforcer op).2.clients.lookup c = some tx) :
    s.clients.lookup c = some tx ∨
      tx = s.created ∧ (s.act serde router enforcer op).2.created = s.created + 1 ∧
        ∃ clientId generated, op = .get clientId generated ∧ clientId.getD generated = c := by
  by_cases hkeeps : op.KeepsChannels
  · rw [(act_same hkeeps).1] at h
    exact .inl h
  · cases op with
    | get clientId generated =>
      simp only [SseServer.act] at h
      by_cases hc : c = clientId.getD generated
      · subst hc
        rw [AList.lookup_insert] at h
        exact .inr ⟨(Option.some.inj h).symm, rfl, clientId, generated, rfl, rfl⟩
      · rw [AList.lookup_insert_ne hc] at h
        exact .inl h
    | drop ch =>
      simp only [SseServer.act] at h
      split at h <;> exact .inl h
    | removeClient gone => exact .inl (KeyedStore.lookup_of_erase h).2
    | _ => exact absurd trivial hkeeps

/-- A channel that has been created stays registered with its stream exactly in the steps that do not
disturb the client. -/
theorem stays_iff (hcreated : tx < s.created) :
    ((s.act serde router enforcer op).2.clients.lookup c = some tx ∧
        tx ∉ (s.act serde router enforcer op).2.dropped) ↔
      (s.clients.lookup c = some tx ∧ tx ∉ s.dropped) ∧ ¬ Disturbs c tx op := by
  by_cases hkeeps : op.KeepsChannels
  · rw [(act_same hkeeps).1, (act_same hkeeps).2.2, and_iff_left hkeeps.not_disturbs]
  · cases op with
    | get clientId generated =>
      simp only [SseServer.act, Disturbs]
      by_cases hc : c = clientId.getD generated
      · subst hc
        rw [AList.lookup_insert, Option.some.injEq]
        simp [hcreated.ne']
      · rw [AList.lookup_insert_ne hc]
        simp [Ne.symm hc]
    | drop ch =>
      simp only [SseServer.act, Disturbs]
      split
      · have hcons : tx ∉ ch :: s.dropped ↔ tx ∉ s.dropped ∧ ¬ ch = tx := by
          rw [List.mem_cons, not_or, and_comm, eq_comm]
        rw [hcons]
        exact and_assoc.symm
      · next hnot =>
        have hne : ch ≠ tx := fun heq => hnot (heq ▸ hcreated)
        simp [hne]
    | removeClient gone =>
      simp only [SseServer.act, Disturbs]
      by_cases hc : c = gone
      · subst hc
        have hnone : (s.clients.erase c).lookup c = none := AList.lookup_erase _ _
        simp [hnone]
      · rw [AList.lookup_erase_ne hc]
        simp [Ne.symm hc]
    | _ => exact absurd trivial hkeeps

/-- A handler that is set goes on, and the others stay as they are. -/
theorem handlers_setHandler {n m : ℕ} {before after : SsePost} (hs' : s'.handlers = s.handlers)
    (hn : s.handlers n = some before) (hresumes : Resumes before after)
    (h : (s'.setHandler n (some after)).handlers m = some handler) :
    ∃ before, s.handlers m = some before ∧ Resumes before handler := by
  simp only [SseServer.setHandler] at h
  by_cases hm : m = n
  · subst hm
    rw [Function.update_self] at h
    exact ⟨before, hn, Option.some.inj h ▸ hresumes⟩
  · rw [Function.update_of_ne hm, hs'] at h
    exact ⟨handler, h, .same handler⟩

/-- After a step a handler is in flight if it was before, or if the step is its lookup. -/
theorem handlers_act {m : ℕ} (h : (s.act serde router enforcer op).2.handlers m = some handler) :
    (∃ before, s.handlers m = some before ∧ Resumes before handler) ∨
      ∃ clientId body, op = .post m clientId body ∧
        handler = s.lookedUp serde router enforcer clientId body := by
  have hsame : s.handlers m = some handler →
      ∃ before, s.handlers m = some before ∧ Resumes before handler :=
    fun h => ⟨handler, h, .same handler⟩
  cases op with
  | get | stream | removeClient => exact .inl (hsame h)
  | drop ch =>
    simp only [SseServer.act] at h
    split at h <;> exact .inl (hsame h)
  | post n clientId body =>
    simp only [SseServer.act] at h
    split at h
    · exact .inl (hsame h)
    · simp only [SseServer.setHandler] at h
      by_cases hm : m = n
      · subst hm
        rw [Function.update_self] at h
        exact .inr ⟨clientId, body, rfl, (Option.some.inj h).symm⟩
      · rw [Function.update_of_ne hm] at h
        exact .inl (hsame h)
  | answer n reply =>
    simp only [SseServer.act] at h
    split at h
    · next before hn =>
      split at h
      · next hprogram => exact .inl (handlers_setHandler rfl hn (.answered hprogram _) h)
      · exact .inl (hsame h)
    · exact .inl (hsame h)
  | send n =>
    simp only [SseServer.act] at h
    split at h
    · next before hn =>
      split at h
      · exact .inl (hsame h)
      · simp only [SseServer.setHandler] at h
        by_cases hm : m = n
        · subst hm
          rw [Function.update_self] at h
          cases h
        · rw [Function.update_of_ne hm] at h
          exact .inl (hsame h)
      · next hprogram =>
        split at h
        · next hsend =>
          refine .inl (handlers_setHandler ?_ hn (.sent hprogram) h)
          obtain ⟨-, -, rfl⟩ | ⟨-, -, -, rfl⟩ := sendOn_cases hsend <;> rfl
        · exact .inl (hsame h)
    · exact .inl (hsame h)

/-- The sends that a step completes. -/
theorem sending_act {sending : Sending} (h : (s.act serde router enforcer op).1 = some sending) :
    ∃ n handler response rest, op = .send n ∧ s.handlers n = some handler ∧
      handler.program = .done (response, (sending.channel, sending.message) :: rest) ∧
      s.Completes sending.channel ∧ sending.clientId = handler.clientId ∧
      (sending.delivered = true ↔ sending.channel ∉ s.dropped) := by
  cases op with
  | get | stream | removeClient | drop => cases h
  | post n clientId body =>
    simp only [SseServer.act] at h
    split at h <;> cases h
  | answer n reply =>
    simp only [SseServer.act] at h
    split at h
    · split at h <;> cases h
    · cases h
  | send n =>
    simp only [SseServer.act] at h
    split at h
    · next handler hn =>
      split at h
      · cases h
      · cases h
      · next hprogram =>
        split at h
        · next hsend =>
          cases h
          refine ⟨n, handler, _, _, rfl, hn, hprogram, ?_⟩
          obtain ⟨hdropped, rfl, -⟩ | ⟨hopen, hcompletes, rfl, -⟩ := sendOn_cases hsend
          · exact ⟨.inl hdropped, rfl, by simp [hdropped]⟩
          · exact ⟨hcompletes, rfl, by simp [hopen]⟩
        · cases h
    · cases h

/-- A handler with a reply completes the send, if it can be completed. -/
theorem sending_of_completes {n : ℕ} {response : HttpResponse}
    {rest : List (ChannelId × JsonRpcMessage)} (hn : s.handlers n = some handler)
    (hprogram : handler.program = .done (response, (tx, message) :: rest))
    (hcompletes : s.Completes tx) : ∃ sending,
      (s.act serde router enforcer (.send n)).1 = some sending ∧ sending.channel = tx ∧
        sending.clientId = handler.clientId := by
  obtain ⟨delivered, s', hsend⟩ : ∃ delivered s', s.sendOn tx message = some (delivered, s') :=
    sendOn_of_completes hcompletes
  simp only [SseServer.act, hn, hprogram, hsend]
  exact ⟨_, rfl, rfl, rfl⟩

end Step

/-! ## The invariant -/

/-- What the server keeps for a handler that has found a channel: the channel is registered for no
other client; it is still registered for its own, with its stream, exactly if the handler has not been
disturbed; and the handler sends on no other channel. -/
structure Tracked (s : SseServer) (handler : SsePost) : Prop where
  held : ∀ c tx, handler.Holds c tx → tx < s.created
  owner : ∀ c tx c', handler.Holds c tx → s.clients.lookup c' = some tx → c' = c
  undisturbed : ∀ c tx, handler.Holds c tx →
    ((s.clients.lookup c = some tx ∧ tx ∉ s.dropped) ↔ handler.Undisturbed c tx)
  sends : ∃ tr, Ensures Any (fun _ out => ∀ sent ∈ out.2, ∃ c, handler.Holds c sent.1)
    handler.program tr

/-- The invariant of the server: every registered channel has been created, no two clients share one,
and the handlers are tracked. -/
structure Coherent (s : SseServer) : Prop where
  created : ∀ c tx, s.clients.lookup c = some tx → tx < s.created
  owner : ∀ c c' tx, s.clients.lookup c = some tx → s.clients.lookup c' = some tx → c' = c
  tracked : ∀ n handler, s.handlers n = some handler → Tracked s handler

theorem coherent_start : Coherent SseServer.start where
  created _ _ h := nomatch h
  owner _ _ _ h := nomatch h
  tracked _ _ h := nomatch h

section Invariant

variable {serde : SerdeJson} {router : McpRouter} {enforcer : ScopeEnforcer} {s : SseServer}
  {op : SseOp} {handler after : SsePost} {c : String} {tx : ChannelId}

theorem undisturbed_note :
    (handler.note op).Undisturbed c tx ↔ handler.Undisturbed c tx ∧ ¬ Disturbs c tx op := by
  simp only [SsePost.Undisturbed, SsePost.note, List.forall_mem_append, List.forall_mem_singleton,
    and_assoc]

theorem Tracked.resumes (h : Tracked s handler) (hresumes : Resumes handler after) :
    Tracked s after := by
  obtain ⟨tr, hsends⟩ := h.sends
  cases hresumes with
  | same => exact h
  | answered hprogram r =>
    rw [hprogram] at hsends
    exact ⟨h.held, h.owner, h.undisturbed, _, hsends.2 r⟩
  | sent hprogram =>
    rw [hprogram] at hsends
    exact ⟨h.held, h.owner, h.undisturbed, tr, fun sent hsent =>
      hsends sent (List.mem_cons_of_mem _ hsent)⟩

theorem Coherent.lookedUp (h : Coherent s) (clientId : Option String) (body : ByteArray) :
    Tracked s (s.lookedUp serde router enforcer clientId body) where
  held c tx hholds := h.created c tx hholds.2
  owner c tx c' hholds := h.owner c c' tx hholds.2
  undisturbed c tx hholds := by
    have hlookup : s.clients.lookup c = some tx := hholds.2
    simp [hlookup, SsePost.Undisturbed, SseServer.lookedUp]
  sends := by
    refine ⟨[], handleSsePost_spec.mono fun tr out _ hout sent hsent => ?_⟩
    obtain hnone | ⟨c, tx, message, hclient, hlookup, hone⟩ := hout
    · rw [hnone] at hsent
      cases hsent
    · rw [hone] at hsent
      obtain rfl := List.mem_singleton.mp hsent
      exact ⟨c, hclient, hlookup⟩

theorem Tracked.act (h : Tracked s handler) :
    Tracked (s.act serde router enforcer op).2 (handler.note op) where
  held c tx hholds := (h.held c tx hholds).trans_le created_le_act
  owner c tx c' hholds hlookup := by
    rcases lookup_act hlookup with hold | ⟨rfl, -⟩
    · exact h.owner c tx c' hholds hold
    · exact absurd (h.held c _ hholds) (lt_irrefl _)
  undisturbed c tx hholds := by
    rw [stays_iff (h.held c tx hholds), h.undisturbed c tx hholds, undisturbed_note]
  sends := h.sends

theorem Coherent.step (h : Coherent s) (op : SseOp) :
    Coherent ((sseMachine serde router enforcer).step s op).2 where
  created c tx hlookup := by
    rcases lookup_act hlookup with hold | ⟨rfl, hcreated, -⟩
    · exact (h.created c tx hold).trans_le created_le_act
    · exact (Nat.lt_succ_self s.created).trans_eq hcreated.symm
  owner c c' tx hlookup hlookup' := by
    rcases lookup_act hlookup with hold | ⟨hnew, -, clientId, generated, hop, rfl⟩
    · rcases lookup_act hlookup' with hold' | ⟨hnew', -⟩
      · exact h.owner c c' tx hold hold'
      · exact absurd (hnew' ▸ h.created c tx hold) (lt_irrefl _)
    · rcases lookup_act hlookup' with hold' | ⟨-, -, clientId', generated', hop', rfl⟩
      · exact absurd (hnew ▸ h.created c' tx hold') (lt_irrefl _)
      · obtain ⟨rfl, rfl⟩ := SseOp.get.inj (hop.symm.trans hop')
        rfl
  tracked n handler hn := by
    obtain ⟨acted, hacted, rfl⟩ := Option.map_eq_some_iff.mp hn
    have htracked : Tracked s acted := by
      rcases handlers_act hacted with ⟨before, hbefore, hresumes⟩ | ⟨clientId, body, -, rfl⟩
      · exact (h.tracked n before hbefore).resumes hresumes
      · exact h.lookedUp clientId body
    have hacts : Tracked (s.act serde router enforcer op).2 (acted.note op) := htracked.act
    exact ⟨hacts.held, hacts.owner, hacts.undisturbed, hacts.sends⟩

/-- A handler that is about to send has found the channel for its client. -/
theorem Tracked.holds (h : Tracked s handler) {response : HttpResponse} {message : JsonRpcMessage}
    {rest : List (ChannelId × JsonRpcMessage)}
    (hprogram : handler.program = .done (response, (tx, message) :: rest)) :
    ∃ c, handler.Holds c tx := by
  obtain ⟨tr, hsends⟩ := h.sends
  rw [hprogram] at hsends
  exact hsends _ List.mem_cons_self

/-- A step sends in place exactly if the handler that sends has not been disturbed. -/
theorem Coherent.inPlace_iff (h : Coherent s) (op : SseOp) :
    (∀ sending, (s.act serde router enforcer op).1 = some sending → InPlace s sending) ↔
      SendsUndisturbed s op := by
  constructor
  · intro hplace
    cases op with
    | send n =>
      intro handler response tx message rest hn hprogram hcompletes c hc
      obtain ⟨sending, hsending, rfl, hclient⟩ : ∃ sending,
          (s.act serde router enforcer (.send n)).1 = some sending ∧ sending.channel = tx ∧
            sending.clientId = handler.clientId := sending_of_completes hn hprogram hcompletes
      obtain ⟨hdelivered, c₀, hc₀, hlookup, -⟩ := hplace sending hsending
      obtain rfl : c₀ = c := Option.some.inj (hc₀.symm.trans (hclient.trans hc))
      obtain ⟨_, _, _, _, -, -, -, -, -, hopen⟩ := sending_act hsending
      have htracked := h.tracked n handler hn
      obtain ⟨c', hholds⟩ := htracked.holds hprogram
      obtain rfl : c' = c₀ := Option.some.inj (hholds.1.symm.trans hc)
      exact (htracked.undisturbed c' _ hholds).mp ⟨hlookup, hopen.mp hdelivered⟩
    | _ => trivial
  · intro hsends sending hsending
    obtain ⟨n, handler, response, rest, rfl, hn, hprogram, hcompletes, hclient, hopen⟩ :=
      sending_act hsending
    have htracked := h.tracked n handler hn
    obtain ⟨c, hholds⟩ := htracked.holds hprogram
    have hundisturbed := hsends handler response _ _ rest hn hprogram hcompletes c hholds.1
    obtain ⟨hlookup, hdropped⟩ := (htracked.undisturbed c _ hholds).mpr hundisturbed
    exact ⟨hopen.mpr hdropped, c, hclient.trans hholds.1, hlookup,
      fun c' => htracked.owner c _ c' hholds⟩

/-- In a run every reply goes out on the channel that is registered for its client at that moment,
and for no other, exactly when no handler that sends has been disturbed since its lookup. -/
theorem noReplyLost_iff (ops : List SseOp) :
    NoReplyLost serde router enforcer ops ↔
      (sseMachine serde router enforcer).Along SendsUndisturbed SseServer.start ops :=
  Machine.along_congr coherent_start (fun _ op h => h.step op) fun _ op h => h.inPlace_iff op

end Invariant

/-! ## A client that connects anew -/

/-- A client connects. -/
def connect : SseOp := .get (some "client") ""

/-- It posts a `ping`. -/
def ping : SseOp := .post 0 (some "client") pingText.toUTF8

/-- It connects again, and the calls for the `ping` are answered. -/
def reconnect : List SseOp :=
  [connect, .answer 0 openComponents.answer, .answer 0 openComponents.answer]

/-- The server with the client. -/
def connectedServer : SseServer :=
  ((sseMachine pingSerde plainRouter .allowAll).step SseServer.start connect).2

/-- The server when the `ping` is routed. -/
def pingedServer : SseServer :=
  (connectedServer.setHandler 0 (some
    { clientId := some "client", clients := connectedServer.clients, dropped := [], since := []
      program := routeMessage plainRouter .allowAll "client" 0
        (.request (.integer 1) "ping" none) })).note ping

theorem step_ping : ((sseMachine pingSerde plainRouter .allowAll).step connectedServer ping).2 =
    pingedServer := by
  have hprogram : handleSsePost pingSerde plainRouter .allowAll connectedServer.clients
      (some "client") pingText.toUTF8 = routeMessage plainRouter .allowAll "client" 0
        (.request (.integer 1) "ping" none) :=
    handleSsePost_of_connected readBody_pingText rfl
  have hlooked : connectedServer.lookedUp pingSerde plainRouter .allowAll (some "client")
      pingText.toUTF8 = { clientId := some "client", clients := connectedServer.clients
                          dropped := [], since := []
                          program := routeMessage plainRouter .allowAll "client" 0
                            (.request (.integer 1) "ping" none) } := by
    rw [SseServer.lookedUp, hprogram]
    rfl
  have hact : (connectedServer.act pingSerde plainRouter .allowAll ping).2 =
      connectedServer.setHandler 0 (some (connectedServer.lookedUp pingSerde plainRouter .allowAll
        (some "client") pingText.toUTF8)) := rfl
  rw [hlooked] at hact
  exact congrArg (fun s => s.note ping) hact

/-- The server when the reply is about to be sent. -/
def pongingServer : SseServer :=
  (sseMachine pingSerde plainRouter .allowAll).run pingedServer reconnect

theorem run_reconnect : (sseMachine pingSerde plainRouter .allowAll).run SseServer.start
    (connect :: ping :: reconnect) = pongingServer := by
  rw [Machine.run_cons, Machine.run_cons, pongingServer]
  exact congrArg (fun s => (sseMachine pingSerde plainRouter .allowAll).run s reconnect) step_ping

/-- The reply goes out on the first channel, while the second one is registered. -/
theorem pong_on_old_channel :
    pongingServer.clients.lookup "client" = some 1 ∧
      (pongingServer.act pingSerde plainRouter .allowAll (.send 0)).1 =
        some { clientId := some "client", channel := 0, message := pong, delivered := true } ∧
      ¬ NoReplyLost pingSerde plainRouter .allowAll
        ((connect :: ping :: reconnect) ++ [.send 0]) := by
  have hregistered : pongingServer.clients.lookup "client" = some 1 := rfl
  have hsent : (pongingServer.act pingSerde plainRouter .allowAll (.send 0)).1 =
      some { clientId := some "client", channel := 0, message := pong, delivered := true } := rfl
  refine ⟨hregistered, hsent, fun hnone => ?_⟩
  have hlast := (Machine.along_concat.mp hnone).2
  rw [run_reconnect] at hlast
  obtain ⟨-, c, hc, hlookup, -⟩ := hlast _ hsent
  obtain rfl := Option.some.inj hc
  cases hregistered.symm.trans hlookup

end Sse

end McpShield
