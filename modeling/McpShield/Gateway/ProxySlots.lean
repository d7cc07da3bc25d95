import Mathlib.Algebra.GroupWithZero.Nat
import McpShield.Gateway.Proxy
import McpShield.Lib.Machine

/-!
# Requests side by side

Any number of requests are forwarded at a time, while servers are registered.  A request waits for
one of the slots, then for the table of servers, and keeps both until it is answered, or given up.  A
registration waits until no request keeps the table.  Slots and table are given in the order in which
they are asked for.
-/

open Effect Effect.Prog

namespace McpShield.ProxySlots

/-! ## Tasks -/

/-- What a task may wait for. -/
inductive Queue where
  | slot
  | table
deriving DecidableEq, Repr

/-- Where a request is: it waits for a slot, it waits for the table, it is forwarded, or it has
ended. -/
inductive Phase where
  | queued
  | admitted
  | forwarding (program : Prog ProxyOp ProxyOp.Reply (Except McpError JsonRpcMessage))
  | finished

/-- A call of `forward_request`, or one of `register_server`. -/
inductive Task where
  | forward (serverId : String) (message : JsonRpcMessage) (phase : Phase)
  | registration (server : UpstreamServer) (finished : Bool)

namespace Task

/-- What the task waits for. -/
def waits : Task → Option Queue
  | forward _ _ .queued => some .slot
  | forward _ _ .admitted => some .table
  | registration _ false => some .table
  | _ => none

/-- The task has a slot. -/
def inFlight : Task → Bool
  | forward _ _ .admitted => true
  | forward _ _ (.forwarding _) => true
  | _ => false

/-- The task keeps the table. -/
def reads : Task → Bool
  | forward _ _ (.forwarding _) => true
  | _ => false

/-- The task has ended. -/
def isOver : Task → Bool
  | forward _ _ .finished => true
  | registration _ true => true
  | _ => false

/-- The task given up. -/
def dropped : Task → Task
  | forward serverId message _ => forward serverId message .finished
  | registration server _ => registration server true

end Task

/-! ## The proxy -/

/-- `forward_request` from the moment when it has its slot and the table. -/
def forwardHeld (serde : SerdeJson) (p : UpstreamProxy) (serverId : String)
    (message : JsonRpcMessage) : ProxyM JsonRpcMessage :=
  match p.servers.lookup serverId with
  | none => throw (.upstreamError s!"Unknown upstream server: {serverId}")
  | some server =>
      if server.isEcho then UpstreamProxy.forwardToEcho message
      else
        match server.transport with
        | .streamableHttp => do
            let url ← Prog.result (UpstreamProxy.urlOf serverId server)
            UpstreamProxy.forwardToHttp serde url message
        | .sse => do
            let url ← Prog.result (UpstreamProxy.urlOf serverId server)
            UpstreamProxy.forwardToHttp serde url message
        | .stdio => throw (.upstreamError "Stdio upstream transport not yet implemented")

/-- A request that is given its slot. -/
theorem forwardRequest_steps {serde : SerdeJson} {p : UpstreamProxy} {serverId : String}
    {message : JsonRpcMessage} {tr : ProxyTrace} {outcome : Except McpError JsonRpcMessage}
    (h : Steps (forwardHeld serde p serverId message).run tr (.done outcome)) :
    Steps (p.forwardRequest serde serverId message).run (⟨.acquire, true⟩ :: tr)
      (.done outcome) :=
  .call h

/-- The table, the free slots, how many tasks keep the table, the tasks in the order of their
arrival, and those that wait. -/
structure ProxyServer where
  proxy : UpstreamProxy
  permits : ℕ
  readers : ℕ
  tasks : List Task
  waiting : Queue → List ℕ

/-- An atomic step: a request or a registration arrives; a task is given a slot, or the table; a call
of it is answered; a server is written to the table; a request is answered; a task is given up. -/
inductive ProxyStep where
  | forward (serverId : String) (message : JsonRpcMessage)
  | register (server : UpstreamServer)
  | acquire (t : ℕ)
  | read (t : ℕ)
  | answer (t : ℕ) (reply : (op : ProxyOp) → op.Reply)
  | write (t : ℕ)
  | finish (t : ℕ)
  | cancel (t : ℕ)

/-- A request that is answered, and the outcome. -/
abbrev Finished : Type := ℕ × Except McpError JsonRpcMessage

namespace ProxyServer

/-- `UpstreamProxy::new`. -/
def start (slots : ℕ) : ProxyServer :=
  { proxy := .new, permits := slots, readers := 0, tasks := [], waiting := fun _ => [] }

/-- A task arrives, at the end of the queue that it waits in. -/
def arrive (s : ProxyServer) (task : Task) : ProxyServer :=
  { s with
    tasks := s.tasks ++ [task]
    waiting := fun q =>
      if task.waits = some q then s.waiting q ++ [s.tasks.length] else s.waiting q }

/-- A task goes on: it leaves the queue in which it has waited, and may wait in another. -/
def place (s : ProxyServer) (t : ℕ) (task : Task) : ProxyServer :=
  { s with
    tasks := s.tasks.set t task
    waiting := fun q =>
      if task.waits = some q then (s.waiting q).erase t ++ [t] else (s.waiting q).erase t }

/-- What a step does, if it can be made. -/
def act (serde : SerdeJson) (s : ProxyServer) : ProxyStep → Option (Option Finished × ProxyServer)
  | .forward serverId message => some (none, s.arrive (.forward serverId message .queued))
  | .register server => some (none, s.arrive (.registration server false))
  | .acquire t =>
      match s.tasks[t]? with
      | some (.forward serverId message .queued) =>
          if (s.waiting .slot).head? = some t ∧ 0 < s.permits then
            some (none, { s.place t (.forward serverId message .admitted) with
              permits := s.permits - 1 })
          else none
      | _ => none
  | .read t =>
      match s.tasks[t]? with
      | some (.forward serverId message .admitted) =>
          if (s.waiting .table).head? = some t then
            some (none, { s.place t (.forward serverId message
                (.forwarding (forwardHeld serde s.proxy serverId message).run)) with
              readers := s.readers + 1 })
          else none
      | _ => none
  | .answer t reply =>
      match s.tasks[t]? with
      | some (.forward serverId message (.forwarding (.call op k))) =>
          some (none, s.place t (.forward serverId message (.forwarding (k (reply op)))))
      | _ => none
  | .write t =>
      match s.tasks[t]? with
      | some (.registration server false) =>
          if (s.waiting .table).head? = some t ∧ s.readers = 0 then
            some (none, { s.place t (.registration server true) with
              proxy := s.proxy.registerServer server })
          else none
      | _ => none
  | .finish t =>
      match s.tasks[t]? with
      | some (.forward serverId message (.forwarding (.done outcome))) =>
          some (some (t, outcome), { s.place t (.forward serverId message .finished) with
            permits := s.permits + 1, readers := s.readers - 1 })
      | _ => none
  | .cancel t =>
      match s.tasks[t]? with
      | some task =>
          some (none, { s.place t task.dropped with
            permits := s.permits + task.inFlight.toNat, readers := s.readers - task.reads.toNat })
      | none => none

end ProxyServer

/-- The proxy as a machine: a step that cannot be made changes nothing. -/
def proxyMachine (serde : SerdeJson) : Machine ProxyServer ProxyStep (Option Finished) where
  step s op := (s.act serde op).getD (none, s)

/-! ## The invariant -/

/-- The invariant: the slots are the free ones and those of the requests in flight; the readers of
the table are counted; a queue holds the tasks that wait in it, once each; and a request that is
forwarded is so with the table as it is now. -/
structure Consistent (serde : SerdeJson) (slots : ℕ) (s : ProxyServer) : Prop where
  permits : s.permits + s.tasks.countP Task.inFlight = slots
  readers : s.readers = s.tasks.countP Task.reads
  waiting : ∀ q t, t ∈ s.waiting q ↔ (s.tasks[t]?).bind Task.waits = some q
  nodup : ∀ q, (s.waiting q).Nodup
  held : ∀ (t : ℕ) serverId message program,
    s.tasks[t]? = some (.forward serverId message (.forwarding program)) →
      ∃ tr, Steps (forwardHeld serde s.proxy serverId message).run tr program

theorem consistent_start (serde : SerdeJson) (slots : ℕ) :
    Consistent serde slots (.start slots) where
  permits := rfl
  readers := rfl
  waiting q t := by simp [ProxyServer.start]
  nodup q := List.nodup_nil
  held t serverId message program h := by simp [ProxyServer.start] at h

section Steps

variable {serde : SerdeJson} {slots : ℕ} {s : ProxyServer}

/-- A number that changes with one task. -/
theorem countP_place (p : Task → Bool) {t : ℕ} {task : Task} (h : s.tasks[t]? = some task)
    (task' : Task) :
    (s.place t task').tasks.countP p + (p task).toNat =
      s.tasks.countP p + (p task').toNat := by
  obtain ⟨hlt, hget⟩ := List.getElem?_eq_some_iff.mp h
  have hpos : p task = true → 0 < s.tasks.countP p :=
    fun hp => List.countP_pos_iff.mpr ⟨task, List.mem_of_getElem? h, hp⟩
  show (s.tasks.set t task').countP p + _ = _
  rw [List.countP_set hlt, hget]
  cases hold : p task with
  | false => cases p task' <;> simp
  | true =>
    have hcount := hpos hold
    cases p task' <;> simp <;> omega

/-- A task that goes on leaves its queue, and is in the one that it waits in. -/
theorem mem_waiting_place (hs : Consistent serde slots s) {t : ℕ} {task task' : Task}
    (h : s.tasks[t]? = some task) (q : Queue) (u : ℕ) :
    u ∈ (s.place t task').waiting q ↔
      ((s.place t task').tasks[u]?).bind Task.waits = some q := by
  have hlt := (List.getElem?_eq_some_iff.mp h).1
  have herase : u ∈ (s.waiting q).erase t ↔ u ≠ t ∧ u ∈ s.waiting q := (hs.nodup q).mem_erase_iff
  by_cases hu : u = t
  · subst hu
    have htask : (s.place u task').tasks[u]? = some task' := List.getElem?_set_self hlt
    rw [htask, Option.bind_some]
    simp only [ProxyServer.place]
    split
    · next hwaits => simp [hwaits]
    · next hwaits => simp [hwaits, herase]
  · have htask : (s.place t task').tasks[u]? = s.tasks[u]? := List.getElem?_set_ne (Ne.symm hu)
    rw [htask, ← hs.waiting q u]
    simp only [ProxyServer.place]
    split <;> simp [herase, hu]

theorem nodup_waiting_place (hs : Consistent serde slots s) (t : ℕ) (task' : Task) (q : Queue) :
    ((s.place t task').waiting q).Nodup := by
  have hnodup : ((s.waiting q).erase t).Nodup := (hs.nodup q).erase t
  simp only [ProxyServer.place]
  split
  · refine List.nodup_append.mpr ⟨hnodup, List.nodup_singleton t, ?_⟩
    intro u hu v hv heq
    obtain rfl := List.mem_singleton.mp hv
    exact ((hs.nodup q).mem_erase_iff.mp hu).1 heq
  · exact hnodup

/-- A task that goes on keeps the invariant, if the slots and the readers change with it, and if the
table changes only while nobody reads it. -/
theorem Consistent.place (hs : Consistent serde slots s) {t : ℕ} {task task' : Task}
    {proxy : UpstreamProxy} {permits readers : ℕ} (h : s.tasks[t]? = some task)
    (hpermits : permits + task'.inFlight.toNat = s.permits + task.inFlight.toNat)
    (hreaders : readers + task.reads.toNat = s.readers + task'.reads.toNat)
    (hproxy : proxy = s.proxy ∨ s.readers = 0)
    (hheld : ∀ serverId message program,
      task' = .forward serverId message (.forwarding program) →
        ∃ tr, Steps (forwardHeld serde proxy serverId message).run tr program) :
    Consistent serde slots { s.place t task' with proxy, permits, readers } where
  permits := by
    have hcount := countP_place Task.inFlight h task'
    have hslots := hs.permits
    show permits + (s.place t task').tasks.countP Task.inFlight = slots
    omega
  readers := by
    have hcount := countP_place Task.reads h task'
    have hcounted := hs.readers
    show readers = (s.place t task').tasks.countP Task.reads
    omega
  waiting := mem_waiting_place hs h
  nodup := nodup_waiting_place hs t task'
  held u serverId message program hu := by
    have hlt := (List.getElem?_eq_some_iff.mp h).1
    by_cases hut : u = t
    · subst hut
      have htask : some task' = some (Task.forward serverId message (.forwarding program)) :=
        (List.getElem?_set_self hlt).symm.trans hu
      exact hheld serverId message program (Option.some.inj htask)
    · have hold : s.tasks[u]? = some (.forward serverId message (.forwarding program)) :=
        (List.getElem?_set_ne (Ne.symm hut)).symm.trans hu
      rcases hproxy with rfl | hnone
      · exact hs.held u serverId message program hold
      · have hreading : 0 < s.tasks.countP Task.reads :=
          List.countP_pos_iff.mpr ⟨_, List.mem_of_getElem? hold, rfl⟩
        exact absurd (hs.readers.symm.trans hnone) hreading.ne'

/-- The tasks after an arrival. -/
theorem getElem?_arrive {task : Task} {u : ℕ} (hu : u ≠ s.tasks.length) :
    (s.arrive task).tasks[u]? = s.tasks[u]? := by
  show (s.tasks ++ [task])[u]? = s.tasks[u]?
  rcases Nat.lt_or_gt_of_ne hu with hlt | hgt
  · exact List.getElem?_append_left hlt
  · rw [List.getElem?_append_right (Nat.le_of_lt hgt), List.getElem?_eq_none (Nat.le_of_lt hgt),
      List.getElem?_eq_none (Nat.sub_pos_of_lt hgt)]

theorem Consistent.lt_length (hs : Consistent serde slots s) {q : Queue} {u : ℕ}
    (hu : u ∈ s.waiting q) : u < s.tasks.length := by
  obtain ⟨old, hold, -⟩ := Option.bind_eq_some_iff.mp ((hs.waiting q u).mp hu)
  exact (List.getElem?_eq_some_iff.mp hold).1

/-- A task that arrives keeps the invariant. -/
theorem Consistent.arrive (hs : Consistent serde slots s) {task : Task}
    (hflight : task.inFlight = false) (hreads : task.reads = false) :
    Consistent serde slots (s.arrive task) where
  permits := by
    show s.permits + (s.tasks ++ [task]).countP Task.inFlight = slots
    simpa [hflight] using hs.permits
  readers := by
    show s.readers = (s.tasks ++ [task]).countP Task.reads
    simpa [hreads] using hs.readers
  waiting q u := by
    have hnot : s.tasks.length ∉ s.waiting q := fun hmem => lt_irrefl _ (hs.lt_length hmem)
    by_cases hu : u = s.tasks.length
    · subst hu
      have htask : (s.arrive task).tasks[s.tasks.length]? = some task :=
        List.getElem?_concat_length
      rw [htask, Option.bind_some]
      simp only [ProxyServer.arrive]
      split
      · next hwaits => simp [hwaits]
      · next hwaits => simp [hwaits, hnot]
    · rw [getElem?_arrive hu, ← hs.waiting q u]
      simp only [ProxyServer.arrive]
      split <;> simp [hu]
  nodup q := by
    simp only [ProxyServer.arrive]
    split
    · refine List.nodup_append.mpr ⟨hs.nodup q, List.nodup_singleton _, ?_⟩
      intro u hu v hv heq
      obtain rfl := List.mem_singleton.mp hv
      exact (hs.lt_length hu).ne heq
    · exact hs.nodup q
  held u serverId message program hu := by
    by_cases hlast : u = s.tasks.length
    · subst hlast
      have htask : (s.arrive task).tasks[s.tasks.length]? = some task :=
        List.getElem?_concat_length
      obtain rfl := Option.some.inj (htask.symm.trans hu)
      cases hreads
    · exact hs.held u serverId message program ((getElem?_arrive hlast).symm.trans hu)

/-- What a step can do. -/
inductive Moves (serde : SerdeJson) (s : ProxyServer) :
    ProxyStep → Option Finished → ProxyServer → Prop where
  | forward (serverId message) : Moves serde s (.forward serverId message) none
      (s.arrive (.forward serverId message .queued))
  | register (server) : Moves serde s (.register server) none (s.arrive (.registration server false))
  | acquire {t serverId message} (htask : s.tasks[t]? = some (.forward serverId message .queued))
      (hfirst : (s.waiting .slot).head? = some t) (hfree : 0 < s.permits) :
      Moves serde s (.acquire t) none { s.place t (.forward serverId message .admitted) with
        permits := s.permits - 1 }
  | read {t serverId message} (htask : s.tasks[t]? = some (.forward serverId message .admitted))
      (hfirst : (s.waiting .table).head? = some t) :
      Moves serde s (.read t) none { s.place t (.forward serverId message
          (.forwarding (forwardHeld serde s.proxy serverId message).run)) with
        readers := s.readers + 1 }
  | answer {t serverId message} {op : ProxyOp}
      {k : op.Reply → Prog ProxyOp ProxyOp.Reply (Except McpError JsonRpcMessage)}
      (htask : s.tasks[t]? = some (.forward serverId message (.forwarding (.call op k))))
      (reply : (op : ProxyOp) → op.Reply) :
      Moves serde s (.answer t reply) none
        (s.place t (.forward serverId message (.forwarding (k (reply op)))))
  | write {t server} (htask : s.tasks[t]? = some (.registration server false))
      (hfirst : (s.waiting .table).head? = some t) (hnone : s.readers = 0) :
      Moves serde s (.write t) none { s.place t (.registration server true) with
        proxy := s.proxy.registerServer server }
  | finish {t serverId message outcome}
      (htask : s.tasks[t]? = some (.forward serverId message (.forwarding (.done outcome)))) :
      Moves serde s (.finish t) (some (t, outcome))
        { s.place t (.forward serverId message .finished) with
          permits := s.permits + 1, readers := s.readers - 1 }
  | cancel {t task} (htask : s.tasks[t]? = some task) :
      Moves serde s (.cancel t) none { s.place t task.dropped with
        permits := s.permits + task.inFlight.toNat, readers := s.readers - task.reads.toNat }

theorem moves_of_act {op : ProxyStep} {out : Option Finished} {s' : ProxyServer}
    (h : s.act serde op = some (out, s')) : Moves serde s op out s' := by
  cases op with
  | forward serverId message =>
    cases h
    exact .forward serverId message
  | register server =>
    cases h
    exact .register server
  | acquire t =>
    simp only [ProxyServer.act] at h
    split at h
    · next htask =>
      split at h
      · next hcond =>
        cases h
        exact .acquire htask hcond.1 hcond.2
      · cases h
    · cases h
  | read t =>
    simp only [ProxyServer.act] at h
    split at h
    · next htask =>
      split at h
      · next hfirst =>
        cases h
        exact .read htask hfirst
      · cases h
    · cases h
  | answer t reply =>
    simp only [ProxyServer.act] at h
    split at h
    · next htask =>
      cases h
      exact .answer htask reply
    · cases h
  | write t =>
    simp only [ProxyServer.act] at h
    split at h
    · next htask =>
      split at h
      · next hcond =>
        cases h
        exact .write htask hcond.1 hcond.2
      · cases h
    · cases h
  | finish t =>
    simp only [ProxyServer.act] at h
    split at h
    · next htask =>
      cases h
      exact .finish htask
    · cases h
  | cancel t =>
    simp only [ProxyServer.act] at h
    split at h
    · next htask =>
      cases h
      exact .cancel htask
    · cases h

theorem Consistent.reads_le (hs : Consistent serde slots s) {t : ℕ} {task : Task}
    (h : s.tasks[t]? = some task) : task.reads.toNat ≤ s.readers := by
  cases hreads : task.reads with
  | false => exact Nat.zero_le _
  | true =>
    rw [hs.readers]
    exact List.countP_pos_iff.mpr ⟨task, List.mem_of_getElem? h, hreads⟩

/-- Every step keeps the invariant. -/
theorem Consistent.moves (hs : Consistent serde slots s) {op : ProxyStep} {out : Option Finished}
    {s' : ProxyServer} (h : Moves serde s op out s') : Consistent serde slots s' := by
  cases h with
  | forward => exact hs.arrive rfl rfl
  | register => exact hs.arrive rfl rfl
  | acquire htask _ hfree =>
    exact hs.place htask (Nat.sub_add_cancel hfree) rfl (.inl rfl) (by simp)
  | read htask =>
    refine hs.place htask rfl rfl (.inl rfl) fun serverId message program heq => ?_
    obtain ⟨rfl, rfl, hprogram⟩ := Task.forward.inj heq
    obtain rfl := Phase.forwarding.inj hprogram
    exact ⟨[], .refl _⟩
  | answer htask reply =>
    refine hs.place htask rfl rfl (.inl rfl) fun serverId message program heq => ?_
    obtain ⟨rfl, rfl, hprogram⟩ := Task.forward.inj heq
    obtain rfl := Phase.forwarding.inj hprogram
    obtain ⟨tr, hsteps⟩ := hs.held _ _ _ _ htask
    exact ⟨_, hsteps.trans (.call (.refl _))⟩
  | write htask _ hnone => exact hs.place htask rfl rfl (.inr hnone) (by simp)
  | finish htask =>
    exact hs.place htask rfl (Nat.sub_add_cancel (hs.reads_le htask)) (.inl rfl) (by simp)
  | @cancel t task htask =>
    have hreads := hs.reads_le htask
    cases task with
    | forward =>
      exact hs.place htask rfl (Nat.sub_add_cancel hreads) (.inl rfl) (by simp [Task.dropped])
    | registration => exact hs.place htask rfl rfl (.inl rfl) (by simp [Task.dropped])

theorem Consistent.step (hs : Consistent serde slots s) (op : ProxyStep) :
    Consistent serde slots ((proxyMachine serde).step s op).2 := by
  show Consistent serde slots ((s.act serde op).getD (none, s)).2
  cases h : s.act serde op with
  | none => exact hs
  | some next => exact hs.moves (moves_of_act h)

theorem consistent_run (serde : SerdeJson) (slots : ℕ) (ops : List ProxyStep) :
    Consistent serde slots ((proxyMachine serde).run (.start slots) ops) :=
  (proxyMachine serde).run_induction (P := fun _ => True) (fun _ op _ hs => hs.step op)
    (consistent_start serde slots) fun _ _ => trivial

end Steps

/-! ## Requests and registrations do not meet -/

/-- In any run no more requests are in flight than there are slots; a step changes the table only
while no request keeps it; and the outcome of a request is one of `forward_request` alone with the
table as it is when the request is answered. -/
theorem requests_isolated (serde : SerdeJson) (slots : ℕ) (ops : List ProxyStep) :
    let s := (proxyMachine serde).run (.start slots) ops
    s.tasks.countP Task.inFlight ≤ slots ∧
      ∀ op out s', s.act serde op = some (out, s') →
        (0 < s.tasks.countP Task.reads → s'.proxy = s.proxy) ∧
        ∀ t outcome, out = some (t, outcome) → ∃ serverId message phase tr,
          s.tasks[t]? = some (.forward serverId message phase) ∧
            Steps (s.proxy.forwardRequest serde serverId message).run (⟨.acquire, true⟩ :: tr)
              (.done outcome) := by
  intro s
  have hs : Consistent serde slots s := consistent_run serde slots ops
  refine ⟨(Nat.le_add_left _ _).trans_eq hs.permits, fun op out s' hact => ⟨fun hreads => ?_, ?_⟩⟩
  · cases moves_of_act hact with
    | write _ _ hnone => exact absurd (hs.readers.symm.trans hnone) hreads.ne'
    | _ => rfl
  · rintro t outcome rfl
    cases moves_of_act hact with
    | finish htask =>
      obtain ⟨tr, hsteps⟩ := hs.held _ _ _ _ htask
      exact ⟨_, _, _, tr, htask, forwardRequest_steps hsteps⟩

/-! ## Requests are answered -/

/-- The steps of the tasks that are there. -/
def ProxyStep.Internal : ProxyStep → Prop
  | forward _ _ | register _ | cancel _ => False
  | _ => True

/-- How many steps a task has before it at most. -/
def Task.rank : Task → ℕ
  | forward _ _ .queued => 4
  | forward _ _ .admitted => 3
  | forward _ _ (.forwarding (.call _ _)) => 2
  | forward _ _ (.forwarding (.done _)) => 1
  | forward _ _ .finished => 0
  | registration _ false => 1
  | registration _ true => 0

/-- How many steps all tasks have before them at most. -/
def ProxyServer.rank (s : ProxyServer) : ℕ := (s.tasks.map Task.rank).sum

/-- A step that cannot be made in any way. -/
def ProxyServer.Stuck (serde : SerdeJson) (s : ProxyServer) : Prop :=
  ∀ op : ProxyStep, op.Internal → s.act serde op = none

/-- Without arrivals, whichever steps are made, after four steps a task at most there is none left
to make, and then all tasks are over. -/
def Drains (serde : SerdeJson) (slots : ℕ) : Prop :=
  ∀ ops steps, (∀ op ∈ steps, ProxyStep.Internal op) →
    let s := (proxyMachine serde).run (.start slots) ops
    (proxyMachine serde).Along (fun s op => (s.act serde op).isSome) s steps →
      steps.length ≤ 4 * s.tasks.length ∧
        (((proxyMachine serde).run s steps).Stuck serde →
          ∀ task ∈ ((proxyMachine serde).run s steps).tasks, task.isOver = true)

section Draining

variable {serde : SerdeJson} {slots : ℕ} {s : ProxyServer}

/-- A program that makes one call at most. -/
def Short {α : Type} : Prog ProxyOp ProxyOp.Reply α → Prop
  | .done _ => True
  | .call _ k => ∀ r, ∃ a, k r = .done a

theorem Short.bind {α β : Type} {p : Prog ProxyOp ProxyOp.Reply α}
    {f : α → Prog ProxyOp ProxyOp.Reply β} (hp : Short p) (hf : ∀ a, ∃ b, f a = .done b) :
    Short (p >>= f) := by
  cases p with
  | done a =>
    obtain ⟨b, hb⟩ := hf a
    rw [done_bind, hb]
    trivial
  | call op k =>
    intro r
    obtain ⟨a, ha⟩ := hp r
    obtain ⟨b, hb⟩ := hf a
    refine ⟨b, ?_⟩
    show k r >>= f = .done b
    rw [ha, done_bind, hb]

theorem short_echoCall (params : Value) : Short (echoCall params).run := by
  unfold echoCall
  dsimp only
  split_ifs
  · trivial
  · trivial
  · exact fun now => ⟨_, rfl⟩
  · trivial

theorem short_echoResult (method : String) (params : Value) :
    Short (echoResult method params).run := by
  unfold echoResult
  split_ifs
  on_goal 3 => exact short_echoCall params
  all_goals trivial

theorem short_forwardToEcho (message : JsonRpcMessage) :
    Short (UpstreamProxy.forwardToEcho message).run := by
  refine (short_echoResult _ _).bind fun result => ?_
  cases result with
  | ok result => exact ⟨_, rfl⟩
  | error e => exact ⟨_, rfl⟩

theorem short_forwardToHttp (url : Except McpError String) (message : JsonRpcMessage) :
    Short (do
      let url ← Prog.result url
      UpstreamProxy.forwardToHttp serde url message : ProxyM JsonRpcMessage).run := by
  cases url with
  | ok url => exact fun outcome => ⟨_, rfl⟩
  | error e => trivial

/-- A request makes one call at most. -/
theorem short_forwardHeld (p : UpstreamProxy) (serverId : String) (message : JsonRpcMessage) :
    Short (forwardHeld serde p serverId message).run := by
  unfold forwardHeld
  split
  · trivial
  · next server _ =>
    split
    · exact short_forwardToEcho message
    · split
      · exact short_forwardToHttp _ message
      · exact short_forwardToHttp _ message
      · trivial

/-- What is left of a program that makes one call at most. -/
theorem Short.steps {α : Type} {p q : Prog ProxyOp ProxyOp.Reply α} {tr : ProxyTrace}
    (hp : Short p) (h : Steps p tr q) : Short q := by
  cases h with
  | refl => exact hp
  | @call op k r tr q h =>
    obtain ⟨a, ha⟩ := hp r
    rw [ha] at h
    cases h
    trivial

theorem rank_place {t : ℕ} {task : Task} (h : s.tasks[t]? = some task) (task' : Task) :
    (s.place t task').rank + task.rank = s.rank + task'.rank := by
  have hset : ∀ (l : List Task) (t : ℕ), l[t]? = some task →
      ((l.set t task').map Task.rank).sum + task.rank = (l.map Task.rank).sum + task'.rank := by
    intro l
    induction l with
    | nil => exact fun t h => nomatch h
    | cons first rest ih =>
      intro t h
      cases t with
      | zero =>
        obtain rfl := Option.some.inj h
        simp only [List.set_cons_zero, List.map_cons, List.sum_cons]
        omega
      | succ t =>
        have hrest := ih t h
        simp only [List.set_cons_succ, List.map_cons, List.sum_cons]
        omega
  exact hset s.tasks t h

theorem rank_lt_of_place {t : ℕ} {task task' : Task} (h : s.tasks[t]? = some task)
    (hlt : task'.rank < task.rank) :
    (s.place t task').rank < s.rank ∧ (s.place t task').tasks.length = s.tasks.length := by
  have hrank := rank_place h task'
  exact ⟨by omega, List.length_set⟩

theorem rank_forwarding_le (serverId : String) (message : JsonRpcMessage)
    (program : Prog ProxyOp ProxyOp.Reply (Except McpError JsonRpcMessage)) :
    (Task.forward serverId message (.forwarding program)).rank ≤ 2 := by
  cases program with
  | done => exact Nat.le_succ 1
  | call => exact le_rfl

/-- A step of the tasks that are there brings one of them forward. -/
theorem Consistent.rank_lt (hs : Consistent serde slots s) {op : ProxyStep} {out : Option Finished}
    {s' : ProxyServer} (h : Moves serde s op out s') (hinternal : op.Internal) :
    s'.rank < s.rank ∧ s'.tasks.length = s.tasks.length := by
  cases h with
  | forward | register | cancel => exact hinternal.elim
  | acquire htask => exact rank_lt_of_place htask (Nat.lt_succ_self 3)
  | read htask =>
    exact rank_lt_of_place htask (Nat.lt_succ_of_le (rank_forwarding_le _ _ _))
  | @answer t serverId message op k htask reply =>
    obtain ⟨tr, hsteps⟩ := hs.held _ _ _ _ htask
    obtain ⟨outcome, houtcome⟩ := (short_forwardHeld _ _ _).steps hsteps (reply op)
    rw [houtcome]
    exact rank_lt_of_place htask (Nat.lt_succ_self 1)
  | write htask => exact rank_lt_of_place htask Nat.one_pos
  | finish htask => exact rank_lt_of_place htask Nat.one_pos

theorem rank_le (s : ProxyServer) : s.rank ≤ 4 * s.tasks.length := by
  have htask : ∀ task : Task, task.rank ≤ 4 := by
    intro task
    cases task with
    | forward serverId message phase =>
      cases phase with
      | forwarding program => exact (rank_forwarding_le _ _ _).trans (by decide)
      | _ => simp [Task.rank]
    | registration server finished => cases finished <;> simp [Task.rank]
  have hsum : ∀ l : List Task, (l.map Task.rank).sum ≤ 4 * l.length := by
    intro l
    induction l with
    | nil => exact le_rfl
    | cons task l ih =>
      have hfirst := htask task
      rw [List.map_cons, List.sum_cons, List.length_cons]
      omega
  exact hsum s.tasks

/-- Steps that are made, one after the other, are not more than the rank. -/
theorem Consistent.length_le (hs : Consistent serde slots s) {steps : List ProxyStep}
    (hinternal : ∀ op ∈ steps, ProxyStep.Internal op)
    (hmade : (proxyMachine serde).Along (fun s op => (s.act serde op).isSome) s steps) :
    steps.length + ((proxyMachine serde).run s steps).rank ≤ s.rank := by
  induction steps generalizing s with
  | nil => exact (Nat.zero_add _).le
  | cons op steps ih =>
    obtain ⟨⟨out, s'⟩, hact⟩ := Option.isSome_iff_exists.mp hmade.1
    have hstep : ((proxyMachine serde).step s op).2 = s' := by
      show ((s.act serde op).getD (none, s)).2 = s'
      rw [hact]
      rfl
    obtain ⟨hlt, -⟩ := hs.rank_lt (moves_of_act hact) (hinternal op List.mem_cons_self)
    have hrest := ih (hs.step op) (fun op' h => hinternal op' (List.mem_cons_of_mem _ h)) hmade.2
    rw [hstep] at hrest
    rw [Machine.run_cons, hstep, List.length_cons]
    omega

/-- Some answers. -/
def anyReply : (op : ProxyOp) → op.Reply
  | .acquire => true
  | .post _ _ => .sendError ""
  | .utcNowRfc3339 => ""

/-- In a proxy in which no step can be made, no request is forwarded. -/
theorem ProxyServer.Stuck.reads_eq (h : s.Stuck serde) {t : ℕ} {task : Task}
    (htask : s.tasks[t]? = some task) : task.reads = false := by
  match task with
  | .forward _ _ (.forwarding (.done outcome)) =>
    have hfinish := h (.finish t) trivial
    simp [ProxyServer.act, htask] at hfinish
  | .forward _ _ (.forwarding (.call op k)) =>
    have hanswer := h (.answer t anyReply) trivial
    simp [ProxyServer.act, htask] at hanswer
  | .forward _ _ .queued | .forward _ _ .admitted => rfl
  | .forward _ _ .finished | .registration _ _ => rfl

theorem Consistent.readers_eq_zero (hs : Consistent serde slots s) (h : s.Stuck serde) :
    s.readers = 0 := by
  rw [hs.readers, List.countP_eq_zero]
  intro task hmem
  obtain ⟨t, htask⟩ := List.mem_iff_getElem?.mp hmem
  simp [h.reads_eq htask]

/-- Nor does any task wait for the table. -/
theorem Consistent.table_eq_nil (hs : Consistent serde slots s) (h : s.Stuck serde) :
    s.waiting .table = [] := by
  cases hqueue : s.waiting .table with
  | nil => rfl
  | cons t rest =>
    have hfirst : (s.waiting .table).head? = some t := by rw [hqueue]; rfl
    have hmem : t ∈ s.waiting .table := by rw [hqueue]; exact List.mem_cons_self
    obtain ⟨task, htask, hwaits⟩ := Option.bind_eq_some_iff.mp ((hs.waiting _ t).mp hmem)
    match task with
    | .forward _ _ .admitted =>
      have hread := h (.read t) trivial
      simp [ProxyServer.act, htask, hfirst] at hread
    | .registration _ false =>
      have hwrite := h (.write t) trivial
      simp [ProxyServer.act, htask, hfirst, hs.readers_eq_zero h] at hwrite

/-- Nor, if there is a slot at all, for a slot. -/
theorem Consistent.slot_eq_nil (hs : Consistent serde slots s) (hslots : 0 < slots)
    (h : s.Stuck serde) : s.waiting .slot = [] := by
  have hidle : s.tasks.countP Task.inFlight = 0 := by
    rw [List.countP_eq_zero]
    intro task hmem hflight
    obtain ⟨t, htask⟩ := List.mem_iff_getElem?.mp hmem
    have hreads := h.reads_eq htask
    match task with
    | .forward _ _ .admitted =>
      have htable : t ∈ s.waiting .table := (hs.waiting .table t).mpr (by rw [htask]; rfl)
      rw [hs.table_eq_nil h] at htable
      exact List.not_mem_nil htable
  have hfree : 0 < s.permits := by
    have hpermits := hs.permits
    omega
  cases hqueue : s.waiting .slot with
  | nil => rfl
  | cons t rest =>
    have hfirst : (s.waiting .slot).head? = some t := by rw [hqueue]; rfl
    have hmem : t ∈ s.waiting .slot := by rw [hqueue]; exact List.mem_cons_self
    obtain ⟨task, htask, hwaits⟩ := Option.bind_eq_some_iff.mp ((hs.waiting _ t).mp hmem)
    match task with
    | .forward _ _ .queued =>
      have hacquire := h (.acquire t) trivial
      simp [ProxyServer.act, htask, hfirst, hfree] at hacquire

/-- With a slot, a proxy in which no step can be made has no task left. -/
theorem Consistent.finished_of_stuck (hs : Consistent serde slots s) (hslots : 0 < slots)
    (h : s.Stuck serde) : ∀ task ∈ s.tasks, task.isOver = true := by
  intro task hmem
  obtain ⟨t, htask⟩ := List.mem_iff_getElem?.mp hmem
  have hreads := h.reads_eq htask
  have hnone : ∀ q, task.waits ≠ some q := by
    intro q hwaits
    have hqueue : t ∈ s.waiting q := (hs.waiting q t).mpr (by rw [htask]; exact hwaits)
    cases q with
    | slot =>
      rw [hs.slot_eq_nil hslots h] at hqueue
      exact List.not_mem_nil hqueue
    | table =>
      rw [hs.table_eq_nil h] at hqueue
      exact List.not_mem_nil hqueue
  match task with
  | .forward _ _ .queued => exact absurd rfl (hnone .slot)
  | .forward _ _ .admitted => exact absurd rfl (hnone .table)
  | .forward _ _ .finished => rfl
  | .registration _ false => exact absurd rfl (hnone .table)
  | .registration _ true => rfl

/-- Without a slot the first request waits for ever. -/
theorem not_drains_zero : ¬ Drains serde 0 := by
  intro h
  have hstuck : (ProxyServer.start 0 |>.arrive (.forward "" (.notification "" none) .queued)).Stuck
      serde := by
    intro op hinternal
    cases op with
    | forward | register | cancel => exact hinternal.elim
    | acquire t | read t | answer t | write t | finish t => cases t <;> rfl
  have hend := (h [.forward "" (.notification "" none)] [] (by simp) trivial).2 hstuck
  exact absurd (hend _ List.mem_cons_self) (by decide)

/-- Requests and registrations are all brought to an end, whichever order they are served in, exactly
if the proxy has a slot. -/
theorem drains_iff : Drains serde slots ↔ 0 < slots := by
  constructor
  · intro h
    refine Nat.pos_of_ne_zero fun hzero => ?_
    subst hzero
    exact not_drains_zero h
  · intro hslots ops steps hinternal s hmade
    have hs : Consistent serde slots s := consistent_run serde slots ops
    have hlength := hs.length_le hinternal hmade
    have hrank := rank_le s
    refine ⟨by omega, fun hstuck => ?_⟩
    have hend : Consistent serde slots ((proxyMachine serde).run s steps) :=
      (proxyMachine serde).run_induction (P := fun _ => True) (fun _ op _ h => h.step op) hs
        fun _ _ => trivial
    exact hend.finished_of_stuck hslots hstuck

end Draining

end McpShield.ProxySlots
