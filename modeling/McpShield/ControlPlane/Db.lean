import McpShield.Lib.KeyedStore
import McpShield.Lib.Machine
import McpShield.Protocol.Message

/-!
# The control plane

The configuration of all tenants in memory.  The maps of policies, upstream servers and rate limit
rules are keyed by the id of the entry alone, and the tenant is only looked at when entries are
loaded: an entry of one tenant replaces an entry of another one with the same id.
-/

namespace McpShield.ControlPlane

/-- A tenant. -/
structure Tenant where
  tenantId : String
  name : String
  active : Bool
  config : Value
  createdAt : DateTime
  updatedAt : DateTime

/-- A policy of a tenant. -/
structure PolicyEntry where
  policyId : String
  tenantId : String
  policyText : String
  enabled : Bool
  version : UInt32
  createdAt : DateTime
  updatedAt : DateTime

/-- An upstream server of a tenant. -/
structure UpstreamEntry where
  serverId : String
  tenantId : String
  transport : String
  url : Option String
  active : Bool
  createdAt : DateTime
  updatedAt : DateTime

/-- A rate limit rule of a tenant. -/
structure RateLimitRule where
  ruleId : String
  tenantId : String
  name : String
  scope : String
  scopeValue : Option String
  algorithm : String
  requestsPerWindow : UInt64
  windowSeconds : UInt32
  burstAllowance : Option UInt64
  action : String
  priority : Int32
  enabled : Bool
  createdAt : DateTime
  updatedAt : DateTime

/-- The errors of a control plane. -/
inductive ControlPlaneError where
  | database (msg : String)
  | tenantNotFound (msg : String)
  | policyNotFound (msg : String)
  | conflict (msg : String)
  | ioError (msg : String)
deriving DecidableEq, Repr

/-- The control plane in memory.  The order of the entries of a map is its iteration order. -/
structure InMemoryControlPlane where
  tenants : AList fun _ : String => Tenant
  policies : AList fun _ : String => PolicyEntry
  upstreams : AList fun _ : String => UpstreamEntry
  rateLimitRules : AList fun _ : String => RateLimitRule

namespace InMemoryControlPlane

/-! ## Construction -/

/-- The tenant every new control plane has. -/
def defaultTenant (createdAt updatedAt : DateTime) : Tenant :=
  { tenantId := "default", name := "Default Tenant", active := true, config := .emptyObject,
    createdAt, updatedAt }

/-- A control plane with the default tenant. -/
def new (createdAt updatedAt : DateTime) : InMemoryControlPlane :=
  { tenants := AList.insert "default" (defaultTenant createdAt updatedAt) ∅
    policies := ∅, upstreams := ∅, rateLimitRules := ∅ }

/-- A control plane with a given configuration; of two entries with one id the later one stays. -/
def withConfig (tenants : List Tenant) (policies : List PolicyEntry)
    (upstreams : List UpstreamEntry) (rateLimitRules : List RateLimitRule) :
    InMemoryControlPlane :=
  { tenants := KeyedStore.putAll Tenant.tenantId ∅ tenants
    policies := KeyedStore.putAll PolicyEntry.policyId ∅ policies
    upstreams := KeyedStore.putAll UpstreamEntry.serverId ∅ upstreams
    rateLimitRules := KeyedStore.putAll RateLimitRule.ruleId ∅ rateLimitRules }

/-! ## Reads -/

/-- All active tenants. -/
def loadTenants (cp : InMemoryControlPlane) : List Tenant := KeyedStore.select Tenant.active cp.tenants

/-- The enabled policies of a tenant. -/
def loadPolicies (cp : InMemoryControlPlane) (tenantId : String) : List PolicyEntry :=
  KeyedStore.select (fun p => p.tenantId == tenantId && p.enabled) cp.policies

/-- The active upstream servers of a tenant. -/
def loadUpstreams (cp : InMemoryControlPlane) (tenantId : String) : List UpstreamEntry :=
  KeyedStore.select (fun u => u.tenantId == tenantId && u.active) cp.upstreams

/-- The enabled rate limit rules of a tenant. -/
def loadRateLimitRules (cp : InMemoryControlPlane) (tenantId : String) : List RateLimitRule :=
  KeyedStore.select (fun r => r.tenantId == tenantId && r.enabled) cp.rateLimitRules

def getTenant (cp : InMemoryControlPlane) (tenantId : String) : Option Tenant :=
  cp.tenants.lookup tenantId

/-! ## Writes -/

/-- Write a policy under its id. -/
def updatePolicy (cp : InMemoryControlPlane) (policy : PolicyEntry) :
    Except ControlPlaneError Unit × InMemoryControlPlane :=
  (.ok (), { cp with policies := KeyedStore.put PolicyEntry.policyId cp.policies policy })

/-- Add a tenant; an existing one is not replaced. -/
def createTenant (cp : InMemoryControlPlane) (tenant : Tenant) :
    Except ControlPlaneError Unit × InMemoryControlPlane :=
  match cp.tenants.lookup tenant.tenantId with
  | some _ =>
      let id := tenant.tenantId
      (.error (.conflict s!"Tenant {id} already exists"), cp)
  | none => (.ok (), { cp with tenants := cp.tenants.insert tenant.tenantId tenant })

/-- Write an upstream server under its id. -/
def addUpstream (cp : InMemoryControlPlane) (upstream : UpstreamEntry) :
    Except ControlPlaneError Unit × InMemoryControlPlane :=
  (.ok (), { cp with upstreams := KeyedStore.put UpstreamEntry.serverId cp.upstreams upstream })

/-- Write a rate limit rule under its id. -/
def addRateLimitRule (cp : InMemoryControlPlane) (rule : RateLimitRule) :
    Except ControlPlaneError Unit × InMemoryControlPlane :=
  (.ok (),
    { cp with rateLimitRules := KeyedStore.put RateLimitRule.ruleId cp.rateLimitRules rule })

end InMemoryControlPlane

/-- The calls that change a control plane. -/
inductive ControlPlaneOp where
  | updatePolicy (policy : PolicyEntry)
  | createTenant (tenant : Tenant)
  | addUpstream (upstream : UpstreamEntry)
  | addRateLimitRule (rule : RateLimitRule)

namespace ControlPlaneOp

/-- The tenant that the argument of a call carries. -/
def tenantId : ControlPlaneOp → String
  | updatePolicy policy => policy.tenantId
  | createTenant tenant => tenant.tenantId
  | addUpstream upstream => upstream.tenantId
  | addRateLimitRule rule => rule.tenantId

/-- The policy a call writes. -/
def policy? : ControlPlaneOp → Option PolicyEntry
  | updatePolicy policy => some policy
  | _ => none

/-- The upstream server a call writes. -/
def upstream? : ControlPlaneOp → Option UpstreamEntry
  | addUpstream upstream => some upstream
  | _ => none

/-- The rate limit rule a call writes. -/
def rule? : ControlPlaneOp → Option RateLimitRule
  | addRateLimitRule rule => some rule
  | _ => none

end ControlPlaneOp

open InMemoryControlPlane

/-- The control plane as a machine. -/
def controlPlaneMachine :
    Machine InMemoryControlPlane ControlPlaneOp (Except ControlPlaneError Unit) where
  step cp
    | .updatePolicy policy => cp.updatePolicy policy
    | .createTenant tenant => cp.createTenant tenant
    | .addUpstream upstream => cp.addUpstream upstream
    | .addRateLimitRule rule => cp.addRateLimitRule rule

namespace InMemoryControlPlane

/-- A control plane as it is created. -/
def IsNew (cp : InMemoryControlPlane) : Prop :=
  (∃ createdAt updatedAt, cp = new createdAt updatedAt) ∨
    ∃ tenants policies upstreams rules, cp = withConfig tenants policies upstreams rules

/-! ## Every entry stands under its own id -/

/-- The maps are keyed by the ids of their entries. -/
structure Inv (cp : InMemoryControlPlane) : Prop where
  policies : KeyedStore.Keyed PolicyEntry.policyId cp.policies
  upstreams : KeyedStore.Keyed UpstreamEntry.serverId cp.upstreams
  rules : KeyedStore.Keyed RateLimitRule.ruleId cp.rateLimitRules

theorem inv_of_isNew {cp : InMemoryControlPlane} (h : IsNew cp) : Inv cp := by
  rcases h with ⟨_, _, rfl⟩ | ⟨_, _, _, _, rfl⟩
  · exact ⟨KeyedStore.keyed_empty, KeyedStore.keyed_empty, KeyedStore.keyed_empty⟩
  · exact ⟨KeyedStore.keyed_empty.putAll _, KeyedStore.keyed_empty.putAll _,
      KeyedStore.keyed_empty.putAll _⟩

/-- A tenant is refused and nothing changes, or it is added under a new id. -/
theorem createTenant_cases (cp : InMemoryControlPlane) (tenant : Tenant) :
    (∃ err, cp.createTenant tenant = (.error err, cp)) ∨
      cp.tenants.lookup tenant.tenantId = none ∧
        cp.createTenant tenant =
          (.ok (), { cp with tenants := cp.tenants.insert tenant.tenantId tenant }) := by
  unfold createTenant
  cases h : cp.tenants.lookup tenant.tenantId with
  | some existing => exact .inl ⟨_, rfl⟩
  | none => exact .inr ⟨rfl, rfl⟩

theorem Inv.step {cp : InMemoryControlPlane} (h : Inv cp) (op : ControlPlaneOp) :
    Inv (controlPlaneMachine.step cp op).2 := by
  cases op with
  | updatePolicy policy => exact { h with policies := h.policies.put policy }
  | createTenant tenant =>
      rcases createTenant_cases cp tenant with ⟨_, hcase⟩ | ⟨-, hcase⟩
      · simpa only [controlPlaneMachine, hcase] using h
      · simp only [controlPlaneMachine, hcase]
        exact { h with }
  | addUpstream upstream => exact { h with upstreams := h.upstreams.put upstream }
  | addRateLimitRule rule => exact { h with rules := h.rules.put rule }

theorem inv_of_reachable {cp : InMemoryControlPlane} (h : controlPlaneMachine.Reachable IsNew cp) :
    Inv cp :=
  h.induction (fun _ => inv_of_isNew) fun _ op hinv => hinv.step op

/-! ## What a run of calls does to each map -/

theorem createTenant_frame (cp : InMemoryControlPlane) (tenant : Tenant) :
    (cp.createTenant tenant).2.policies = cp.policies ∧
      (cp.createTenant tenant).2.upstreams = cp.upstreams ∧
      (cp.createTenant tenant).2.rateLimitRules = cp.rateLimitRules := by
  rcases createTenant_cases cp tenant with ⟨_, hcase⟩ | ⟨-, hcase⟩ <;> simp [hcase]

theorem run_policies (cp : InMemoryControlPlane) (ops : List ControlPlaneOp) :
    (controlPlaneMachine.run cp ops).policies =
      KeyedStore.putAll PolicyEntry.policyId cp.policies
        (ops.filterMap ControlPlaneOp.policy?) := by
  refine KeyedStore.run_eq_putAll (fun cp op => ?_) cp ops
  cases op with
  | createTenant tenant => exact (createTenant_frame cp tenant).1
  | _ => rfl

theorem run_upstreams (cp : InMemoryControlPlane) (ops : List ControlPlaneOp) :
    (controlPlaneMachine.run cp ops).upstreams =
      KeyedStore.putAll UpstreamEntry.serverId cp.upstreams
        (ops.filterMap ControlPlaneOp.upstream?) := by
  refine KeyedStore.run_eq_putAll (fun cp op => ?_) cp ops
  cases op with
  | createTenant tenant => exact (createTenant_frame cp tenant).2.1
  | _ => rfl

theorem run_rateLimitRules (cp : InMemoryControlPlane) (ops : List ControlPlaneOp) :
    (controlPlaneMachine.run cp ops).rateLimitRules =
      KeyedStore.putAll RateLimitRule.ruleId cp.rateLimitRules
        (ops.filterMap ControlPlaneOp.rule?) := by
  refine KeyedStore.run_eq_putAll (fun cp op => ?_) cp ops
  cases op with
  | createTenant tenant => exact (createTenant_frame cp tenant).2.2
  | _ => rfl

/-- No call for one tenant changes what another one is. -/
theorem run_getTenant (cp : InMemoryControlPlane) {a b : String} (hab : a ≠ b)
    {ops : List ControlPlaneOp} (hops : ∀ op ∈ ops, op.tenantId = b) :
    (controlPlaneMachine.run cp ops).getTenant a = cp.getTenant a := by
  refine controlPlaneMachine.run_induction (I := fun cp' => cp'.getTenant a = cp.getTenant a)
    (P := fun op => op.tenantId = b) (fun cp' op hop hI => ?_) rfl hops
  cases op with
  | createTenant tenant =>
      rcases createTenant_cases cp' tenant with ⟨_, hcase⟩ | ⟨-, hcase⟩
      · simpa only [controlPlaneMachine, hcase] using hI
      · have hne : a ≠ tenant.tenantId := fun h => hab (h.trans hop)
        simp only [controlPlaneMachine, hcase]
        exact (AList.lookup_insert_ne hne).trans hI
  | _ => exact hI

/-! ## Isolation -/

/-- A tenant sees the same in two states.  The order of what a load lists is that of a hash map and
means nothing. -/
structure SameView (tenantId : String) (cp cp' : InMemoryControlPlane) : Prop where
  policies : (cp'.loadPolicies tenantId).Perm (cp.loadPolicies tenantId)
  upstreams : (cp'.loadUpstreams tenantId).Perm (cp.loadUpstreams tenantId)
  rules : (cp'.loadRateLimitRules tenantId).Perm (cp.loadRateLimitRules tenantId)
  tenant : cp'.getTenant tenantId = cp.getTenant tenantId

/-- A call writes an entry under the id of one that the tenant sees. -/
def TakesIdOf (cp : InMemoryControlPlane) (tenantId : String) : ControlPlaneOp → Prop
  | .updatePolicy policy => ∃ p ∈ cp.loadPolicies tenantId, p.policyId = policy.policyId
  | .addUpstream upstream => ∃ u ∈ cp.loadUpstreams tenantId, u.serverId = upstream.serverId
  | .addRateLimitRule rule => ∃ r ∈ cp.loadRateLimitRules tenantId, r.ruleId = rule.ruleId
  | .createTenant _ => False

section Isolation

variable {cp : InMemoryControlPlane} {a b : String} {ops : List ControlPlaneOp}

/-- One map: what a tenant sees of it stays exactly when no call of another tenant takes the key of
a seen entry. -/
theorem load_perm_iff {E : Type} {key tenant : E → String} {live : E → Bool}
    {m : AList fun _ : String => E} {f : ControlPlaneOp → Option E} (hkeyed : KeyedStore.Keyed key m)
    (htenant : ∀ op e, f op = some e → tenant e = op.tenantId) (hab : a ≠ b)
    (hops : ∀ op ∈ ops, op.tenantId = b) :
    (KeyedStore.select (fun e => tenant e == a && live e)
        (KeyedStore.putAll key m (ops.filterMap f))).Perm
      (KeyedStore.select (fun e => tenant e == a && live e) m) ↔
      ∀ op ∈ ops, ∀ e, f op = some e →
        ∀ x ∈ KeyedStore.select (fun e => tenant e == a && live e) m, key x ≠ key e := by
  refine KeyedStore.select_filterMap_perm_iff hkeyed fun op hop e he => ?_
  have hforeign : tenant e = b := (htenant op e he).trans (hops op hop)
  simp [hforeign, hab.symm]

theorem loadPolicies_perm_iff (hinv : Inv cp) (hab : a ≠ b) (hops : ∀ op ∈ ops, op.tenantId = b) :
    ((controlPlaneMachine.run cp ops).loadPolicies a).Perm (cp.loadPolicies a) ↔
      ∀ op ∈ ops, ∀ policy, op.policy? = some policy →
        ∀ p ∈ cp.loadPolicies a, p.policyId ≠ policy.policyId := by
  rw [loadPolicies, run_policies]
  refine load_perm_iff hinv.policies (fun op policy h => ?_) hab hops
  cases op <;> cases h
  rfl

theorem loadUpstreams_perm_iff (hinv : Inv cp) (hab : a ≠ b)
    (hops : ∀ op ∈ ops, op.tenantId = b) :
    ((controlPlaneMachine.run cp ops).loadUpstreams a).Perm (cp.loadUpstreams a) ↔
      ∀ op ∈ ops, ∀ upstream, op.upstream? = some upstream →
        ∀ u ∈ cp.loadUpstreams a, u.serverId ≠ upstream.serverId := by
  rw [loadUpstreams, run_upstreams]
  refine load_perm_iff hinv.upstreams (fun op upstream h => ?_) hab hops
  cases op <;> cases h
  rfl

theorem loadRateLimitRules_perm_iff (hinv : Inv cp) (hab : a ≠ b)
    (hops : ∀ op ∈ ops, op.tenantId = b) :
    ((controlPlaneMachine.run cp ops).loadRateLimitRules a).Perm (cp.loadRateLimitRules a) ↔
      ∀ op ∈ ops, ∀ rule, op.rule? = some rule →
        ∀ r ∈ cp.loadRateLimitRules a, r.ruleId ≠ rule.ruleId := by
  rw [loadRateLimitRules, run_rateLimitRules]
  refine load_perm_iff hinv.rules (fun op rule h => ?_) hab hops
  cases op <;> cases h
  rfl

/-- What a call must not take, map by map. -/
theorem not_takesIdOf_iff (op : ControlPlaneOp) :
    ¬ cp.TakesIdOf a op ↔
      (∀ policy, op.policy? = some policy →
        ∀ p ∈ cp.loadPolicies a, p.policyId ≠ policy.policyId) ∧
      (∀ upstream, op.upstream? = some upstream →
        ∀ u ∈ cp.loadUpstreams a, u.serverId ≠ upstream.serverId) ∧
      ∀ rule, op.rule? = some rule →
        ∀ r ∈ cp.loadRateLimitRules a, r.ruleId ≠ rule.ruleId := by
  cases op <;> simp [TakesIdOf, ControlPlaneOp.policy?, ControlPlaneOp.upstream?,
    ControlPlaneOp.rule?]

end Isolation

/-- The calls of one tenant leave what another one sees as it is exactly when none of them takes
the id of an entry that the other one sees. -/
theorem sameView_iff {cp : InMemoryControlPlane} (hcp : controlPlaneMachine.Reachable IsNew cp)
    {a b : String} (hab : a ≠ b) {ops : List ControlPlaneOp}
    (hops : ∀ op ∈ ops, op.tenantId = b) :
    SameView a cp (controlPlaneMachine.run cp ops) ↔ ∀ op ∈ ops, ¬ cp.TakesIdOf a op := by
  have hinv := inv_of_reachable hcp
  have hpolicies := loadPolicies_perm_iff hinv hab hops
  have hupstreams := loadUpstreams_perm_iff hinv hab hops
  have hrules := loadRateLimitRules_perm_iff hinv hab hops
  simp only [not_takesIdOf_iff]
  constructor
  · intro hview op hop
    exact ⟨hpolicies.mp hview.policies op hop, hupstreams.mp hview.upstreams op hop,
      hrules.mp hview.rules op hop⟩
  · intro hids
    exact ⟨hpolicies.mpr fun op hop => (hids op hop).1,
      hupstreams.mpr fun op hop => (hids op hop).2.1,
      hrules.mpr fun op hop => (hids op hop).2.2, run_getTenant cp hab hops⟩

/-! ## A policy of another tenant is replaced -/

/-- A policy under a given id. -/
def somePolicy (policyId tenantId policyText : String) : PolicyEntry :=
  { policyId, tenantId, policyText, enabled := true, version := 1, createdAt := 0, updatedAt := 0 }

/-- A control plane in which the tenant `tenant-a` has written a policy. -/
def policyOfA : InMemoryControlPlane :=
  controlPlaneMachine.run (new 0 0)
    [.updatePolicy (somePolicy "policy-1" "tenant-a" "forbid(principal, action, resource);")]

theorem reachable_policyOfA : controlPlaneMachine.Reachable IsNew policyOfA :=
  ⟨new 0 0, _, .inl ⟨0, 0, rfl⟩, rfl⟩

/-- The write of `tenant-b` that takes the id. -/
def writeOfB : ControlPlaneOp :=
  .updatePolicy (somePolicy "policy-1" "tenant-b" "permit(principal, action, resource);")

theorem view_of_tenant_not_isolated :
    controlPlaneMachine.Reachable IsNew policyOfA ∧ "tenant-a" ≠ "tenant-b" ∧
      (∀ op ∈ [writeOfB], op.tenantId = "tenant-b") ∧
      (policyOfA.loadPolicies "tenant-a").length = 1 ∧
      (controlPlaneMachine.run policyOfA [writeOfB]).loadPolicies "tenant-a" = [] ∧
      ¬ SameView "tenant-a" policyOfA (controlPlaneMachine.run policyOfA [writeOfB]) := by
  have hbefore : (policyOfA.loadPolicies "tenant-a").length = 1 := by decide
  have hafter : (controlPlaneMachine.run policyOfA [writeOfB]).loadPolicies "tenant-a" = [] := by
    rfl
  refine ⟨reachable_policyOfA, by decide, by simp [writeOfB, somePolicy, ControlPlaneOp.tenantId],
    hbefore, hafter, fun hview => ?_⟩
  have hlength := hview.policies.length_eq
  rw [hafter, hbefore] at hlength
  exact absurd hlength (by decide)

/-- With an id of its own, a policy of `tenant-b` leaves `tenant-a` alone. -/
theorem sameView_iff_policyOfA :
    SameView "tenant-a" policyOfA (controlPlaneMachine.run policyOfA
      [.updatePolicy (somePolicy "policy-2" "tenant-b" "permit(principal, action, resource);")]) := by
  refine (sameView_iff reachable_policyOfA (b := "tenant-b") (by decide) ?_).mpr ?_
  · simp [somePolicy, ControlPlaneOp.tenantId]
  · simp only [List.mem_singleton, forall_eq]
    have hids : ∀ p ∈ policyOfA.loadPolicies "tenant-a", p.policyId ≠ "policy-2" := by
      have hload : policyOfA.loadPolicies "tenant-a" =
          [somePolicy "policy-1" "tenant-a" "forbid(principal, action, resource);"] := rfl
      simp [hload, somePolicy]
    rintro ⟨p, hp, hid⟩
    exact hids p hp hid

end InMemoryControlPlane

end McpShield.ControlPlane
