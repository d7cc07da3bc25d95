import McpShield.Lib.Concurrent
import McpShield.Telemetry.Producer

/-!
# Producers of producers

A fanout hands an event to each of its producers, which may be fanouts again.  It goes on when one of
them fails, and reports the last error.
-/

open Effect Effect.Prog

namespace McpShield

/-- A producer that is no fanout.  Producers that are shared have a number. -/
inductive Leaf where
  | noop
  | logging
  | buffering (n : ℕ)
  | kafka (n : ℕ)
deriving DecidableEq, Repr

/-- A producer of audit events. -/
inductive EventProducer where
  | leaf (l : Leaf)
  | fanout (producers : List EventProducer)

/-- The calls of the producers that are no fanouts. -/
inductive ProducerOp where
  | publishAuditEvent (l : Leaf) (event : AuditEvent)

/-- The answers to the calls. -/
abbrev ProducerOp.Reply : ProducerOp → Type := fun _ => Except ProducerError Unit

/-- A computation of the producers. -/
abbrev ProducerM : Type := Prog ProducerOp ProducerOp.Reply (Except ProducerError Unit)

namespace EventProducer

/-- `last_err.map_or(Ok(()), Err)`. -/
def outcome : Option ProducerError → Except ProducerError Unit
  | none => .ok ()
  | some e => .error e

/-- The error to report after one more outcome. -/
def lastErr (last : Option ProducerError) : Except ProducerError Unit → Option ProducerError
  | .ok () => last
  | .error e => some e

mutual

/-- `publish_audit_event`. -/
def publishAuditEvent : EventProducer → AuditEvent → ProducerM
  | leaf l, event => perform (ProducerOp.publishAuditEvent l event)
  | fanout producers, event => publishAll producers event none

/-- The loop of a fanout. -/
def publishAll : List EventProducer → AuditEvent → Option ProducerError → ProducerM
  | [], _, last => pure (outcome last)
  | producer :: rest, event, last => do
      let result ← publishAuditEvent producer event
      publishAll rest event (lastErr last result)

end

mutual

/-- The producers that are no fanouts, in the order in which they are served. -/
def leaves : EventProducer → List Leaf
  | leaf l => [l]
  | fanout producers => leavesAll producers

def leavesAll : List EventProducer → List Leaf
  | [] => []
  | producer :: rest => leaves producer ++ leavesAll rest

end

/-! ## A fanout of leaves -/

@[simp] theorem outcome_lastErr_none (r : Except ProducerError Unit) :
    outcome (lastErr none r) = r := by
  cases r <;> rfl

@[simp] theorem lastErr_none_outcome (last : Option ProducerError) :
    lastErr none (outcome last) = last := by
  cases last <;> rfl

theorem lastErr_lastErr (last : Option ProducerError) (r r' : Except ProducerError Unit) :
    lastErr (lastErr last r) r' = lastErr last (outcome (lastErr (lastErr none r) r')) := by
  cases r <;> cases r' <;> rfl

/-- The first part of a list of producers, and then the rest. -/
theorem publishAll_append (ps qs : List EventProducer) (event : AuditEvent)
    (last : Option ProducerError) :
    publishAll (ps ++ qs) event last =
      publishAll ps event last >>= fun r => publishAll qs event (lastErr none r) := by
  induction ps generalizing last with
  | nil => cases last <;> rfl
  | cons p ps ih =>
    simp only [List.cons_append, publishAll, bind_bind]
    exact congrArg _ (funext fun r => ih _)

/-- An earlier error is reported if there is no later one. -/
theorem publishAll_last (ps : List EventProducer) (event : AuditEvent)
    (last : Option ProducerError) :
    publishAll ps event last =
      publishAll ps event none >>= fun r => done (outcome (lastErr last r)) := by
  induction ps generalizing last with
  | nil => rfl
  | cons p ps ih =>
    simp only [publishAll, bind_bind]
    refine congrArg _ (funext fun r => ?_)
    rw [ih (lastErr last r), ih (lastErr none r), bind_bind]
    refine congrArg _ (funext fun r' => ?_)
    rw [done_bind, lastErr_lastErr]

mutual

/-- A producer does what a fanout of its leaves does. -/
theorem publishAuditEvent_eq : ∀ (producer : EventProducer) (event : AuditEvent),
    publishAuditEvent producer event = publishAll (producer.leaves.map leaf) event none
  | leaf l, event => by
    simp only [leaves, List.map_cons, List.map_nil, publishAll, pure_eq, outcome_lastErr_none,
      bind_done]
  | fanout producers, event => publishAll_eq producers event none
termination_by structural producer => producer

theorem publishAll_eq : ∀ (producers : List EventProducer) (event : AuditEvent)
    (last : Option ProducerError),
    publishAll producers event last = publishAll ((leavesAll producers).map leaf) event last
  | [], event, last => rfl
  | producer :: rest, event, last => by
    rw [leavesAll, List.map_append, publishAll_append, publishAll_last (producer.leaves.map leaf),
      ← publishAuditEvent_eq producer event, bind_bind, publishAll]
    refine congrArg _ (funext fun r => ?_)
    rw [done_bind, publishAll_eq rest, lastErr_none_outcome]
termination_by structural producers => producers

end

/-! ## A run -/

/-- The calls for an event. -/
def deliveries (ls : List Leaf) (event : AuditEvent) : List ProducerOp :=
  ls.map fun l => .publishAuditEvent l event

/-- The error to report after some calls. -/
def lastErrOf (last : Option ProducerError) (tr : List (Event ProducerOp.Reply)) :
    Option ProducerError :=
  tr.foldl (fun last ev => lastErr last ev.2) last

/-- The producers are served in order, whatever fails. -/
theorem steps_leaves {ls : List Leaf} {event : AuditEvent} {last : Option ProducerError}
    {tr : List (Event ProducerOp.Reply)} {q : ProducerM}
    (h : Steps (publishAll (ls.map leaf) event last) tr q) :
    ∃ rest, deliveries ls event = tr.map Sigma.fst ++ deliveries rest event ∧
      q = publishAll (rest.map leaf) event (lastErrOf last tr) := by
  induction ls generalizing last tr with
  | nil =>
    cases h
    exact ⟨[], rfl, rfl⟩
  | cons l ls ih =>
    cases h with
    | refl => exact ⟨l :: ls, rfl, rfl⟩
    | call h =>
      obtain ⟨rest, hcalls, hq⟩ := ih h
      exact ⟨rest, congrArg _ hcalls, hq⟩

/-- A producer that is done has served all of its leaves, once each and in order, and reports the
last error. -/
theorem steps_done {producer : EventProducer} {event : AuditEvent}
    {tr : List (Event ProducerOp.Reply)} {r : Except ProducerError Unit}
    (h : Steps (producer.publishAuditEvent event) tr (.done r)) :
    tr.map Sigma.fst = deliveries producer.leaves event ∧ r = outcome (lastErrOf none tr) := by
  rw [publishAuditEvent_eq] at h
  obtain ⟨rest, hcalls, hdone⟩ := steps_leaves h
  cases rest with
  | nil =>
    cases hdone
    exact ⟨by rw [hcalls]; exact (List.append_nil _).symm, rfl⟩
  | cons l rest => cases hdone

/-- A producer makes no other calls than those for its leaves. -/
theorem mem_deliveries {producer : EventProducer} {event : AuditEvent}
    {tr : List (Event ProducerOp.Reply)} {q : ProducerM}
    (h : Steps (producer.publishAuditEvent event) tr q) :
    ∀ ev ∈ tr, ∃ l, ev.1 = .publishAuditEvent l event := by
  rw [publishAuditEvent_eq] at h
  obtain ⟨rest, hcalls, -⟩ := steps_leaves h
  intro ev hev
  have hmem : ev.1 ∈ deliveries producer.leaves event := by
    rw [hcalls]
    exact List.mem_append_left _ (List.mem_map_of_mem hev)
  obtain ⟨l, -, hl⟩ := List.mem_map.mp hmem
  exact ⟨l, hl.symm⟩

/-! ## Producers that are shared -/

/-- The buffers of the producers that hold events in memory. -/
abbrev Buffers : Type := ℕ → BufferingProducer

/-- What the producers answer.  A buffer always takes an event; a Kafka producer may fail. -/
def serveProducers : Component Buffers ProducerOp.Reply
  | s, .publishAuditEvent (.buffering n) event, r, s' =>
      r = ((s n).publishAuditEvent event).1 ∧
        s' = Function.update s n ((s n).publishAuditEvent event).2
  | s, .publishAuditEvent (.kafka _) _, _, s' => s' = s
  | s, .publishAuditEvent _ _, r, s' => r = .ok () ∧ s' = s

/-- The event that a call puts in a buffer. -/
def buffered (n : ℕ) : Event ProducerOp.Reply → Option AuditEvent
  | ⟨.publishAuditEvent l event, _⟩ => if l = .buffering n then some event else none

theorem buffer_serve {n : ℕ} {s s' : Buffers} {op : ProducerOp} {r : Except ProducerError Unit}
    (h : serveProducers s op r s') :
    (s' n).buffer = (s n).buffer ++ (buffered n ⟨op, r⟩).toList := by
  cases op with
  | publishAuditEvent l event =>
    cases l with
    | noop | logging =>
      obtain ⟨-, rfl⟩ := h
      exact (List.append_nil _).symm
    | kafka =>
      obtain rfl : s' = s := h
      exact (List.append_nil _).symm
    | buffering m =>
      obtain ⟨-, rfl⟩ := h
      by_cases hm : m = n
      · subst hm
        simp [buffered, BufferingProducer.publishAuditEvent]
      · simp [buffered, hm, Function.update_of_ne (Ne.symm hm)]

/-- How often a buffer is among the leaves. -/
theorem length_buffered (n : ℕ) {event : AuditEvent} {ls : List Leaf}
    {tr : List (Event ProducerOp.Reply)} (h : tr.map Sigma.fst = deliveries ls event) :
    (tr.filterMap (buffered n)).length = ls.count (.buffering n) := by
  induction tr generalizing ls with
  | nil =>
    cases ls with
    | nil => rfl
    | cons => cases h
  | cons ev tr ih =>
    cases ls with
    | nil => cases h
    | cons l ls =>
      obtain ⟨op, r⟩ := ev
      obtain ⟨rfl, htail⟩ := List.cons_eq_cons.mp h
      have hrest := ih htail
      by_cases hl : l = .buffering n
      · simp [buffered, hl, hrest]
      · simp [buffered, hl, hrest]

/-- Every producer gets every event.  However the publishing of events by any number of callers is
interleaved, and whichever Kafka producers fail, a caller that is done has served all the leaves of
its producer in order, and is told the last error; and a buffer holds, after what was in it, events
that have been published only, each of a caller that is done as often as the buffer is a leaf. -/
theorem fanout_delivers {ι : Type} [DecidableEq ι] {producer : EventProducer}
    {events : ι → AuditEvent} {s s' : Buffers} {h : List (ι × Event ProducerOp.Reply)}
    {Q : ι → ProducerM}
    (hrun : Interleaves serveProducers (fun i => producer.publishAuditEvent (events i)) s h Q s') :
    (∀ i r, Q i = .done r →
      (callsOf i h).map Sigma.fst = deliveries producer.leaves (events i) ∧
        r = outcome (lastErrOf none (callsOf i h))) ∧
    ∀ n, ∃ entries : List (ι × AuditEvent),
      (s' n).buffer = (s n).buffer ++ entries.map Prod.snd ∧
      (∀ i event, (i, event) ∈ entries → event = events i) ∧
      ∀ i r, Q i = .done r → (entries.map Prod.fst).count i = producer.leaves.count (.buffering n) := by
  refine ⟨fun i r hQ => steps_done (hQ ▸ hrun.thread i), fun n => ?_⟩
  refine ⟨tagged (buffered n) h, ?_, fun i event hmem => ?_, fun i r hQ => ?_⟩
  · have hqueue : (h.map Prod.snd).flatMap (fun _ => []) ++ (s' n).buffer =
        (s n).buffer ++ (h.map Prod.snd).flatMap fun ev => (buffered n ev).toList :=
      hrun.served.conserves (fun s => (s n).buffer) (fun _ => [])
        (fun ev => (buffered n ev).toList)
        fun _ _ _ _ hserve => (List.nil_append _).trans (buffer_serve hserve)
    rw [map_snd_tagged, List.filterMap_eq_flatMap_toList, ← hqueue]
    simp
  · obtain ⟨ev, hev, hbuffered⟩ := mem_tagged.mp hmem
    obtain ⟨op, r⟩ := ev
    obtain ⟨l, rfl⟩ := mem_deliveries (hrun.thread i) _ hev
    simp only [buffered] at hbuffered
    split at hbuffered
    · exact (Option.some.inj hbuffered).symm
    · cases hbuffered
  · rw [count_tagged]
    exact length_buffered n (steps_done (hQ ▸ hrun.thread i)).1

/-! ## Two callers -/

/-- A buffer, and a fanout of a Kafka producer and the same buffer. -/
def bufferedTwice : EventProducer :=
  fanout [leaf (.buffering 0), fanout [leaf (.kafka 0), leaf (.buffering 0)]]

/-- The event of a caller. -/
def pingEvent (i : ℕ) : AuditEvent :=
  { eventId := toString i, timestamp := "2025-01-01T00:00:00+00:00", method := "ping"
    requestId := some "1", sessionId := none, principal := none, scopes := [], decision := .allow
    requestPayload := none, responsePayload := none, errorCode := none, durationMs := 0
    transport := "http" }

/-- No Kafka broker is there. -/
def answerOffline (s : Buffers) : (op : ProducerOp) → ProducerOp.Reply op × Buffers
  | .publishAuditEvent (.buffering n) event =>
      (.ok (), Function.update s n ((s n).publishAuditEvent event).2)
  | .publishAuditEvent (.kafka _) _ => (.error .notConnected, s)
  | _ => (.ok (), s)

theorem serve_answerOffline (s : Buffers) (op : ProducerOp) :
    serveProducers s op (answerOffline s op).1 (answerOffline s op).2 := by
  cases op with
  | publishAuditEvent l event => cases l <;> first | exact ⟨rfl, rfl⟩ | rfl

/-- Two callers in turn. -/
def offlineRun : List (ℕ × Event ProducerOp.Reply) × (ℕ → ProducerM) × Buffers :=
  runSchedule answerOffline (fun i => bufferedTwice.publishAuditEvent (pingEvent i))
    (fun _ => .new) [0, 1, 1, 0, 1, 0]

theorem fanout_delivers_offline :
    offlineRun.2.1 0 = .done (.error .notConnected) ∧
      ∀ n, ∃ entries : List (ℕ × AuditEvent),
        (offlineRun.2.2 n).buffer = [] ++ entries.map Prod.snd ∧
          (∀ i event, (i, event) ∈ entries → event = pingEvent i) ∧
          ∀ i r, offlineRun.2.1 i = .done r →
            (entries.map Prod.fst).count i = bufferedTwice.leaves.count (.buffering n) :=
  ⟨rfl, (fanout_delivers (interleaves_runSchedule serve_answerOffline _ _ _)).2⟩

end EventProducer

end McpShield
