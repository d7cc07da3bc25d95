import Mathlib.Data.List.ReduceOption
import McpShield.ControlPlane.Db

/-!
# Concurrent policy updates

Clients load a policy, edit it and write it back with the next version number.  The version is never
compared with the stored one, so a client that has been overtaken overwrites what it has not read:
`optimistic_iff` says which schedules do without the comparison.
-/

namespace McpShield.ControlPlane

/-- An update that was tried: the policy as the client had loaded it, and the answer. -/
structure Attempt where
  read : PolicyEntry
  result : Except ControlPlaneError Unit

/-- The control plane with its clients, each with the policy it has loaded. -/
structure Clients where
  controlPlane : InMemoryControlPlane
  loaded : ℕ → Option PolicyEntry

/-- What a client does next. -/
inductive ClientOp where
  | load (client : ℕ) (tenantId policyId : String)
  | update (client : ℕ) (edited : PolicyEntry)

open InMemoryControlPlane

/-- The policy that a client writes back: edited as it likes, with the next version. -/
def nextVersion (read edited : PolicyEntry) : PolicyEntry :=
  { edited with policyId := read.policyId, version := read.version + 1 }

/-- The clients as a machine.  A loaded policy is written back once, and only if there is a next
version number. -/
def clientMachine : Machine Clients ClientOp (Option Attempt) where
  step s
    | .load client tenantId policyId =>
        let found := (s.controlPlane.loadPolicies tenantId).find? (·.policyId == policyId)
        (none, { s with loaded := Function.update s.loaded client found })
    | .update client edited =>
        match s.loaded client with
        | none => (none, s)
        | some read =>
            if read.version.toNat + 1 < UInt32.size then
              let (result, controlPlane) := s.controlPlane.updatePolicy (nextVersion read edited)
              (some { read, result },
                { controlPlane, loaded := Function.update s.loaded client none })
            else (none, s)

namespace Clients

/-- No client has loaded anything. -/
def start (controlPlane : InMemoryControlPlane) : Clients :=
  { controlPlane, loaded := fun _ => none }

/-- The stored policy with an id. -/
def stored (s : Clients) (policyId : String) : Option PolicyEntry :=
  s.controlPlane.policies.lookup policyId

/-- The updates of a schedule that were tried, in order. -/
def attempts (s : Clients) (ops : List ClientOp) : List Attempt :=
  (clientMachine.answers s ops).reduceOption

/-- Two updates that started from the same version of the same policy. -/
def SameRead (a b : Attempt) : Prop :=
  a.read.policyId = b.read.policyId ∧ a.read.version = b.read.version

/-- A refused update is a conflict and leaves the policies as they are. -/
def RefusedUnchanged (s : Clients) (op : ClientOp) : Prop :=
  ∀ a, (clientMachine.step s op).1 = some a → a.result = .ok () ∨
    (∃ msg, a.result = .error (.conflict msg)) ∧
      (clientMachine.step s op).2.controlPlane.policies = s.controlPlane.policies

/-- No stored version decreases. -/
def KeepsVersions (s : Clients) (op : ClientOp) : Prop :=
  ∀ policyId p, s.stored policyId = some p →
    ∃ p', (clientMachine.step s op).2.stored policyId = some p' ∧ p.version ≤ p'.version

/-- Optimistic concurrency: of the updates that started from one version of a policy at most one
succeeds, the others are refused with a conflict and change nothing, and no version decreases. -/
structure Optimistic (controlPlane : InMemoryControlPlane) (ops : List ClientOp) : Prop where
  oneWriter : (attempts (start controlPlane) ops).Pairwise fun a b =>
    SameRead a b → ¬ (a.result = .ok () ∧ b.result = .ok ())
  refused : clientMachine.Along RefusedUnchanged (start controlPlane) ops
  monotone : clientMachine.Along KeepsVersions (start controlPlane) ops

/-- If the operation is an update, the policy that its client has loaded is stored in the version
in which it has been loaded. -/
def Fresh (s : Clients) : ClientOp → Prop
  | .load .. => True
  | .update client _ => ∀ read, s.loaded client = some read →
      read.version.toNat + 1 < UInt32.size →
        ∃ p, s.stored read.policyId = some p ∧ p.version = read.version

/-! ## Steps -/

variable {s : Clients}

theorem step_update {client : ℕ} {read : PolicyEntry} (hread : s.loaded client = some read)
    (hnext : read.version.toNat + 1 < UInt32.size) (edited : PolicyEntry) :
    clientMachine.step s (.update client edited) =
      (some { read, result := .ok () },
        { controlPlane := (s.controlPlane.updatePolicy (nextVersion read edited)).2
          loaded := Function.update s.loaded client none }) := by
  simp [clientMachine, hread, hnext, updatePolicy]

/-- An update is not tried and nothing changes, or it succeeds. -/
theorem step_update_cases (s : Clients) (client : ℕ) (edited : PolicyEntry) :
    clientMachine.step s (.update client edited) = (none, s) ∨
      ∃ read, s.loaded client = some read ∧ read.version.toNat + 1 < UInt32.size ∧
        clientMachine.step s (.update client edited) =
          (some { read, result := .ok () },
            { controlPlane := (s.controlPlane.updatePolicy (nextVersion read edited)).2
              loaded := Function.update s.loaded client none }) := by
  cases hread : s.loaded client with
  | none => exact .inl (by simp [clientMachine, hread])
  | some read =>
    by_cases hnext : read.version.toNat + 1 < UInt32.size
    · exact .inr ⟨read, rfl, hnext, step_update hread hnext edited⟩
    · exact .inl (by simp [clientMachine, hread, hnext])

theorem lookup_updatePolicy (cp : InMemoryControlPlane) (policy : PolicyEntry) (policyId : String) :
    (cp.updatePolicy policy).2.policies.lookup policyId =
      if policyId = policy.policyId then some policy else cp.policies.lookup policyId := by
  split_ifs with h
  · rw [h]
    exact AList.lookup_insert _
  · exact AList.lookup_insert_ne h

theorem attempts_concat (s : Clients) (ops : List ClientOp) (op : ClientOp) :
    attempts s (ops ++ [op]) =
      attempts s ops ++ (clientMachine.step (clientMachine.run s ops) op).1.toList := by
  rw [attempts, Machine.answers_append, List.reduceOption_append, Machine.answers_cons,
    Machine.answers_nil, attempts]
  cases (clientMachine.step (clientMachine.run s ops) op).1 with
  | none => simp
  | some a => simp

theorem run_concat (s : Clients) (ops : List ClientOp) (op : ClientOp) :
    clientMachine.run s (ops ++ [op]) = (clientMachine.step (clientMachine.run s ops) op).2 := by
  rw [Machine.run_append]
  rfl

/-! ## Runs of clients that are not overtaken -/

theorem lookup_of_load {cp : InMemoryControlPlane}
    (hkeyed : KeyedStore.Keyed PolicyEntry.policyId cp.policies) {tenantId : String}
    {f : PolicyEntry → Bool} {p : PolicyEntry} (h : (cp.loadPolicies tenantId).find? f = some p) :
    cp.policies.lookup p.policyId = some p := by
  have hvalue : p ∈ KeyedStore.values cp.policies :=
    (List.mem_filter.mp (List.mem_of_find?_eq_some h)).1
  obtain ⟨entry, hentry, rfl⟩ := List.mem_map.mp hvalue
  rw [hkeyed entry hentry]
  exact AList.mem_lookup_iff.mpr hentry

/-- The state after a schedule: what a client has loaded is stored in that version or has been
written from already, and what has been written from is older than what is stored. -/
structure Traced (s₀ : Clients) (ops : List ClientOp) : Prop where
  keyed : KeyedStore.Keyed PolicyEntry.policyId (clientMachine.run s₀ ops).controlPlane.policies
  loaded : ∀ client read, (clientMachine.run s₀ ops).loaded client = some read →
    ∃ p, (clientMachine.run s₀ ops).stored read.policyId = some p ∧
      (p.version = read.version ∨ ∃ a ∈ attempts s₀ ops, SameRead a { read, result := .ok () })
  older : ∀ a ∈ attempts s₀ ops, ∃ p,
    (clientMachine.run s₀ ops).stored a.read.policyId = some p ∧ a.read.version < p.version

theorem traced_start {cp : InMemoryControlPlane}
    (hkeyed : KeyedStore.Keyed PolicyEntry.policyId cp.policies) : Traced (start cp) [] where
  keyed := hkeyed
  loaded := by simp [start]
  older := by simp [attempts]

theorem lt_nextVersion {read edited : PolicyEntry} (h : read.version.toNat + 1 < UInt32.size) :
    read.version < (nextVersion read edited).version := by
  rw [UInt32.lt_iff_toNat_lt, nextVersion, UInt32.toNat_add]
  have hone : (1 : UInt32).toNat = 1 := rfl
  rw [hone, Nat.mod_eq_of_lt h]
  exact Nat.lt_succ_self _

variable {s₀ : Clients} {ops : List ClientOp} {op : ClientOp}

theorem Traced.load (h : Traced s₀ ops) (client : ℕ) (tenantId policyId : String) :
    Traced s₀ (ops ++ [.load client tenantId policyId]) := by
  have hattempts : attempts s₀ (ops ++ [.load client tenantId policyId]) = attempts s₀ ops := by
    rw [attempts_concat]
    exact List.append_nil _
  constructor
  case keyed =>
    rw [run_concat]
    exact h.keyed
  case loaded =>
    rw [run_concat, hattempts]
    intro client' read hread
    by_cases hclient : client' = client
    · subst hclient
      have hfound := (Function.update_self ..).symm.trans hread
      exact ⟨read, lookup_of_load h.keyed hfound, .inl rfl⟩
    · exact h.loaded client' read ((Function.update_of_ne hclient ..).symm.trans hread)
  case older =>
    rw [run_concat, hattempts]
    exact h.older

theorem stored_update (s : Clients) (read edited : PolicyEntry) (loaded : ℕ → Option PolicyEntry)
    (policyId : String) :
    stored { controlPlane := (s.controlPlane.updatePolicy (nextVersion read edited)).2, loaded }
      policyId =
      if policyId = read.policyId then some (nextVersion read edited) else s.stored policyId :=
  lookup_updatePolicy ..

theorem Traced.update (h : Traced s₀ ops) {client : ℕ} {edited : PolicyEntry}
    (hfresh : Fresh (clientMachine.run s₀ ops) (.update client edited)) :
    Traced s₀ (ops ++ [.update client edited]) := by
  rcases step_update_cases (clientMachine.run s₀ ops) client edited with hstep | hstep
  · have hattempts : attempts s₀ (ops ++ [.update client edited]) = attempts s₀ ops := by
      rw [attempts_concat, hstep]
      exact List.append_nil _
    have hrun : clientMachine.run s₀ (ops ++ [.update client edited]) =
        clientMachine.run s₀ ops := by rw [run_concat, hstep]
    exact ⟨hrun ▸ h.keyed, by rw [hrun, hattempts]; exact h.loaded,
      by rw [hrun, hattempts]; exact h.older⟩
  · obtain ⟨read, hread, hnext, hstep⟩ := hstep
    obtain ⟨q, hq, hversion⟩ := hfresh read hread hnext
    have hlt : read.version < (nextVersion read edited).version := lt_nextVersion hnext
    have hattempts : attempts s₀ (ops ++ [.update client edited]) =
        attempts s₀ ops ++ [{ read, result := .ok () }] := by
      rw [attempts_concat, hstep]
      rfl
    constructor
    case keyed =>
      rw [run_concat, hstep]
      exact h.keyed.put _
    case loaded =>
      rw [run_concat, hstep, hattempts]
      intro client' read' hread'
      simp only [stored_update]
      have hclient : client' ≠ client := by
        rintro rfl
        simp at hread'
      obtain ⟨p, hp, hcase⟩ := h.loaded client' read'
        ((Function.update_of_ne hclient ..).symm.trans hread')
      by_cases hid : read'.policyId = read.policyId
      · refine ⟨_, if_pos hid, .inr ?_⟩
        rcases hcase with hcurrent | ⟨a, ha, hsame⟩
        · -- What was current when the update ran has now been written from.
          obtain rfl : p = q := Option.some.inj (hp.symm.trans ((congrArg _ hid).trans hq))
          exact ⟨_, List.mem_append_right _ (List.mem_singleton_self _), hid.symm,
            hversion.symm.trans hcurrent⟩
        · exact ⟨a, List.mem_append_left _ ha, hsame⟩
      · refine ⟨p, (if_neg hid).trans hp, hcase.imp_right ?_⟩
        rintro ⟨a, ha, hsame⟩
        exact ⟨a, List.mem_append_left _ ha, hsame⟩
    case older =>
      rw [run_concat, hstep, hattempts]
      simp only [stored_update, List.mem_append, List.mem_singleton]
      rintro a (ha | rfl)
      · obtain ⟨p, hp, hold⟩ := h.older a ha
        by_cases hid : a.read.policyId = read.policyId
        · obtain rfl : p = q := Option.some.inj (hp.symm.trans ((congrArg _ hid).trans hq))
          exact ⟨_, if_pos hid, UInt32.lt_trans (hversion ▸ hold) hlt⟩
        · exact ⟨p, (if_neg hid).trans hp, hold⟩
      · exact ⟨_, if_pos rfl, hlt⟩

theorem Traced.concat (h : Traced s₀ ops) (hfresh : Fresh (clientMachine.run s₀ ops) op) :
    Traced s₀ (ops ++ [op]) := by
  cases op with
  | load client tenantId policyId => exact h.load client tenantId policyId
  | update client edited => exact h.update hfresh

theorem traced_of_fresh {cp : InMemoryControlPlane}
    (hkeyed : KeyedStore.Keyed PolicyEntry.policyId cp.policies)
    (hfresh : clientMachine.Along Fresh (start cp) ops) : Traced (start cp) ops := by
  induction ops using List.reverseRecOn with
  | nil => exact traced_start hkeyed
  | append_singleton ops op ih =>
    rw [Machine.along_concat] at hfresh
    exact (ih hfresh.1).concat hfresh.2

/-! ## When updates are optimistic -/

/-- No update is ever refused. -/
theorem result_of_step {s : Clients} {a : Attempt} (h : (clientMachine.step s op).1 = some a) :
    a.result = .ok () := by
  cases op with
  | load client tenantId policyId => cases h
  | update client edited =>
    rcases step_update_cases s client edited with hstep | ⟨read, -, -, hstep⟩
    · rw [hstep] at h
      cases h
    · rw [hstep] at h
      obtain rfl := Option.some.inj h
      rfl

theorem result_of_mem_attempts {a : Attempt} (h : a ∈ attempts s₀ ops) : a.result = .ok () := by
  induction ops using List.reverseRecOn with
  | nil => cases h
  | append_singleton ops op ih =>
    rw [attempts_concat, List.mem_append, Option.mem_toList] at h
    rcases h with h | h
    · exact ih h
    · exact result_of_step h

theorem refusedUnchanged (s : Clients) (op : ClientOp) : RefusedUnchanged s op :=
  fun _ h => .inl (result_of_step h)

theorem keepsVersions_of_fresh {s : Clients} (hfresh : Fresh s op) : KeepsVersions s op := by
  intro policyId p hp
  cases op with
  | load client tenantId policyId => exact ⟨p, hp, UInt32.le_refl _⟩
  | update client edited =>
    rcases step_update_cases s client edited with hstep | ⟨read, hread, hnext, hstep⟩
    · exact ⟨p, by rw [hstep]; exact hp, UInt32.le_refl _⟩
    · rw [hstep]
      simp only [stored_update]
      by_cases hid : policyId = read.policyId
      · obtain ⟨q, hq, hversion⟩ := hfresh read hread hnext
        obtain rfl : p = q := Option.some.inj (hp.symm.trans ((congrArg _ hid).trans hq))
        exact ⟨_, if_pos hid, UInt32.le_of_lt (hversion ▸ lt_nextVersion hnext)⟩
      · exact ⟨p, (if_neg hid).trans hp, UInt32.le_refl _⟩

/-- In a traced state a current update starts from a version that no attempt has started from. -/
theorem Traced.not_sameRead (h : Traced s₀ ops)
    (hfresh : Fresh (clientMachine.run s₀ ops) op) {a b : Attempt} (ha : a ∈ attempts s₀ ops)
    (hb : (clientMachine.step (clientMachine.run s₀ ops) op).1 = some b) : ¬ SameRead a b := by
  rintro ⟨hid, hversion⟩
  cases op with
  | load client tenantId policyId => cases hb
  | update client edited =>
    rcases step_update_cases (clientMachine.run s₀ ops) client edited with
      hstep | ⟨read, hread, hnext, hstep⟩
    · rw [hstep] at hb
      cases hb
    · rw [hstep] at hb
      obtain rfl := Option.some.inj hb
      obtain ⟨p, hp, hold⟩ := h.older a ha
      obtain ⟨q, hq, hcurrent⟩ := hfresh read hread hnext
      obtain rfl : p = q := Option.some.inj (hp.symm.trans ((congrArg _ hid).trans hq))
      rw [hversion, ← hcurrent] at hold
      exact UInt32.lt_irrefl _ hold

theorem optimistic_of_fresh {cp : InMemoryControlPlane}
    (hkeyed : KeyedStore.Keyed PolicyEntry.policyId cp.policies)
    (hfresh : clientMachine.Along Fresh (start cp) ops) : Optimistic cp ops where
  oneWriter := by
    induction ops using List.reverseRecOn with
    | nil => simp [attempts]
    | append_singleton ops op ih =>
      rw [Machine.along_concat] at hfresh
      have htraced := traced_of_fresh hkeyed hfresh.1
      rw [attempts_concat, List.pairwise_append]
      refine ⟨ih hfresh.1, ?_, fun a ha b hb hsame => ?_⟩
      · cases (clientMachine.step (clientMachine.run (start cp) ops) op).1 <;> simp
      · exact absurd hsame (htraced.not_sameRead hfresh.2 ha (Option.mem_toList.mp hb))
  refused := hfresh.mono fun s op _ => refusedUnchanged s op
  monotone := hfresh.mono fun _ _ => keepsVersions_of_fresh

theorem Optimistic.init {cp : InMemoryControlPlane} (h : Optimistic cp (ops ++ [op])) :
    Optimistic cp ops where
  oneWriter := by
    have hpairs := h.oneWriter
    rw [attempts_concat] at hpairs
    exact (List.pairwise_append.mp hpairs).1
  refused := (Machine.along_concat.mp h.refused).1
  monotone := (Machine.along_concat.mp h.monotone).1

theorem fresh_of_optimistic {cp : InMemoryControlPlane}
    (hkeyed : KeyedStore.Keyed PolicyEntry.policyId cp.policies) (h : Optimistic cp ops) :
    clientMachine.Along Fresh (start cp) ops := by
  induction ops using List.reverseRecOn with
  | nil => trivial
  | append_singleton ops op ih =>
    have hinit := ih h.init
    refine Machine.along_concat.mpr ⟨hinit, ?_⟩
    cases op with
    | load client tenantId policyId => trivial
    | update client edited =>
      intro read hread hnext
      obtain ⟨p, hp, hcase⟩ := (traced_of_fresh hkeyed hinit).loaded client read hread
      rcases hcase with hcurrent | ⟨a, ha, hsame⟩
      · exact ⟨p, hp, hcurrent⟩
      · -- The version has been written from before, and this update succeeds as well.
        have hpairs := h.oneWriter
        rw [attempts_concat, List.pairwise_append] at hpairs
        rw [step_update hread hnext] at hpairs
        exact absurd ⟨result_of_mem_attempts ha, rfl⟩
          (hpairs.2.2 a ha _ (List.mem_singleton_self _) hsame)

/-- Updates of concurrent clients are optimistic exactly when every client writes back a policy that
nobody has written since it was loaded. -/
theorem optimistic_iff {cp : InMemoryControlPlane} (hcp : controlPlaneMachine.Reachable IsNew cp)
    (ops : List ClientOp) : Optimistic cp ops ↔ clientMachine.Along Fresh (start cp) ops :=
  ⟨fresh_of_optimistic (inv_of_reachable hcp).policies,
    optimistic_of_fresh (inv_of_reachable hcp).policies⟩

/-- Two clients that take turns. -/
def inTurn : List ClientOp :=
  [.load 0 "tenant-a" "policy-1", .update 0 (somePolicy "policy-1" "tenant-a" "a"),
    .load 1 "tenant-a" "policy-1", .update 1 (somePolicy "policy-1" "tenant-a" "b")]

theorem optimistic_inTurn : Optimistic policyOfA inTurn := by
  refine (optimistic_iff reachable_policyOfA inTurn).mpr ?_
  refine ⟨trivial, fun read hread _ => ⟨read, ?_, rfl⟩, trivial,
    fun read hread _ => ⟨read, ?_, rfl⟩, trivial⟩
  · obtain rfl := Option.some.inj hread
    rfl
  · obtain rfl := Option.some.inj hread
    rfl

/-- Two clients that have loaded the same version. -/
def overtaking : List ClientOp :=
  [.load 0 "tenant-a" "policy-1", .load 1 "tenant-a" "policy-1",
    .update 0 (somePolicy "policy-1" "tenant-a" "a"),
    .update 1 (somePolicy "policy-1" "tenant-a" "b")]

/-- Both succeed, and the update of the first is lost. -/
theorem overtaking_not_optimistic :
    controlPlaneMachine.Reachable IsNew policyOfA ∧ ¬ Optimistic policyOfA overtaking := by
  refine ⟨reachable_policyOfA, fun h => ?_⟩
  have hpairs := h.oneWriter
  have hattempts : attempts (start policyOfA) overtaking =
      [⟨somePolicy "policy-1" "tenant-a" "forbid(principal, action, resource);", .ok ()⟩,
        ⟨somePolicy "policy-1" "tenant-a" "forbid(principal, action, resource);", .ok ()⟩] := rfl
  rw [hattempts, List.pairwise_pair] at hpairs
  exact hpairs ⟨rfl, rfl⟩ ⟨rfl, rfl⟩

end Clients

end McpShield.ControlPlane
