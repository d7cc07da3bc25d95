import McpShield.ControlPlane.Db

/-!
# The control plane over a database

Writes go to the database and to a cache, each in its own way, and reads to the cache alone.
`agrees_iff` says after which writes a read still returns what it would return if the cache were
loaded anew.
-/

namespace McpShield.ControlPlane

/-! ## The database -/

/-- The tables.  A row of tenants or of policies is found under its id. -/
structure Database where
  tenants : AList fun _ : String => Tenant
  policies : AList fun _ : String => PolicyEntry
  upstreamServers : List UpstreamEntry
  rateLimitRules : List RateLimitRule
  tenantsKeyed : KeyedStore.Keyed Tenant.tenantId tenants
  policiesKeyed : KeyedStore.Keyed PolicyEntry.policyId policies

/-- The row of a policy after an update. -/
def updated (policy : PolicyEntry) (now : DateTime) (row : PolicyEntry) : PolicyEntry :=
  { row with
    policyText := policy.policyText, enabled := policy.enabled
    version := row.version + 1, updatedAt := now }

namespace Database

/-- `UPDATE policies`: of an existing row, the text, the flag and the version change.  A statement
fails when the connection does, or when the version leaves its range. -/
def updatePolicy (db : Database) (policy : PolicyEntry) (now : DateTime)
    (failure : Option String) : Except String Database :=
  match failure, db.policies.lookup policy.policyId with
  | some e, _ => .error e
  | none, none => .ok db
  | none, some row =>
      if row.version.toNat + 1 < UInt32.size then
        .ok { db with
          policies := KeyedStore.put PolicyEntry.policyId db.policies (updated policy now row)
          policiesKeyed := db.policiesKeyed.put _ }
      else .error "error returned from database: integer out of range"

/-- `INSERT INTO tenants`: an id is given once. -/
def insertTenant (db : Database) (tenant : Tenant) (failure : Option String) :
    Except String Database :=
  match failure, db.tenants.lookup tenant.tenantId with
  | some e, _ => .error e
  | none, some _ =>
      .error "error returned from database: duplicate key value violates unique constraint"
  | none, none =>
      .ok { db with
        tenants := KeyedStore.put Tenant.tenantId db.tenants tenant
        tenantsKeyed := db.tenantsKeyed.put tenant }

/-- What a refresh loads: the rows that are active or enabled. -/
def load (db : Database) : InMemoryControlPlane :=
  .withConfig (KeyedStore.select Tenant.active db.tenants)
    (KeyedStore.select PolicyEntry.enabled db.policies)
    (db.upstreamServers.filter UpstreamEntry.active)
    (db.rateLimitRules.filter RateLimitRule.enabled)

end Database

/-! ## The control plane -/

/-- The database and the cache in front of it. -/
structure PostgresControlPlane where
  database : Database
  cache : InMemoryControlPlane
  tenantsKeyed : KeyedStore.Keyed Tenant.tenantId cache.tenants
  policiesKeyed : KeyedStore.Keyed PolicyEntry.policyId cache.policies

namespace PostgresControlPlane

/-- Replace the cache by what is in the database; if a query fails, it stays. -/
def refreshCache (cp : PostgresControlPlane) (failure : Option String) :
    Except ControlPlaneError Unit × PostgresControlPlane :=
  match failure with
  | some e => (.error (.database e), cp)
  | none => (.ok (),
      { database := cp.database, cache := cp.database.load
        tenantsKeyed := KeyedStore.keyed_empty.putAll _
        policiesKeyed := KeyedStore.keyed_empty.putAll _ })

/-- Update a policy in the database, then in the cache. -/
def updatePolicy (cp : PostgresControlPlane) (policy : PolicyEntry) (now : DateTime)
    (failure : Option String) : Except ControlPlaneError Unit × PostgresControlPlane :=
  match cp.database.updatePolicy policy now failure with
  | .error e => (.error (.database e), cp)
  | .ok database =>
      ((cp.cache.updatePolicy policy).1,
        { database, cache := (cp.cache.updatePolicy policy).2, tenantsKeyed := cp.tenantsKeyed
          policiesKeyed := cp.policiesKeyed.put policy })

theorem keyed_createTenant {cache : InMemoryControlPlane}
    (h : KeyedStore.Keyed Tenant.tenantId cache.tenants) (tenant : Tenant) :
    KeyedStore.Keyed Tenant.tenantId (cache.createTenant tenant).2.tenants := by
  rcases cache.createTenant_cases tenant with ⟨_, hcase⟩ | ⟨-, hcase⟩
  · rwa [hcase]
  · rw [hcase]
    exact h.put tenant

/-- Create a tenant in the database, then in the cache. -/
def createTenant (cp : PostgresControlPlane) (tenant : Tenant) (failure : Option String) :
    Except ControlPlaneError Unit × PostgresControlPlane :=
  match cp.database.insertTenant tenant failure with
  | .error e => (.error (.database e), cp)
  | .ok database =>
      ((cp.cache.createTenant tenant).1,
        { database, cache := (cp.cache.createTenant tenant).2
          tenantsKeyed := keyed_createTenant cp.tenantsKeyed tenant
          policiesKeyed := (cp.cache.createTenant_frame tenant).1 ▸ cp.policiesKeyed })

def loadTenants (cp : PostgresControlPlane) : List Tenant := cp.cache.loadTenants

def loadPolicies (cp : PostgresControlPlane) (tenantId : String) : List PolicyEntry :=
  cp.cache.loadPolicies tenantId

def getTenant (cp : PostgresControlPlane) (tenantId : String) : Option Tenant :=
  cp.cache.getTenant tenantId

end PostgresControlPlane

/-- The calls that change a control plane or its cache. -/
inductive PostgresOp where
  | updatePolicy (policy : PolicyEntry) (now : DateTime) (failure : Option String)
  | createTenant (tenant : Tenant) (failure : Option String)
  | refresh (failure : Option String)

/-- The control plane as a machine. -/
def postgresMachine :
    Machine PostgresControlPlane PostgresOp (Except ControlPlaneError Unit) where
  step cp
    | .updatePolicy policy now failure => cp.updatePolicy policy now failure
    | .createTenant tenant failure => cp.createTenant tenant failure
    | .refresh failure => cp.refreshCache failure

/-! ## Agreement -/

/-- What a read shows of a policy, but for the times. -/
structure PolicyView where
  policyId : String
  tenantId : String
  policyText : String
  enabled : Bool
  version : UInt32

def PolicyEntry.view (p : PolicyEntry) : PolicyView :=
  { policyId := p.policyId, tenantId := p.tenantId, policyText := p.policyText
    enabled := p.enabled, version := p.version }

/-- What a read shows of a tenant, but for the times. -/
structure TenantView where
  tenantId : String
  name : String
  active : Bool
  config : Value

def Tenant.view (t : Tenant) : TenantView :=
  { tenantId := t.tenantId, name := t.name, active := t.active, config := t.config }

namespace PostgresControlPlane

/-- Every read shows what it would show after a refresh.  The order of what is listed is that of a
hash map and means nothing. -/
structure Agrees (cp : PostgresControlPlane) : Prop where
  policies : ∀ tenantId, ((cp.loadPolicies tenantId).map PolicyEntry.view).Perm
    (((cp.refreshCache none).2.loadPolicies tenantId).map PolicyEntry.view)
  tenants : (cp.loadTenants.map Tenant.view).Perm
    ((cp.refreshCache none).2.loadTenants.map Tenant.view)
  tenant : ∀ tenantId, (cp.getTenant tenantId).map Tenant.view =
    ((cp.refreshCache none).2.getTenant tenantId).map Tenant.view

/-- A policy is written disabled, or over a row of its tenant with the version that follows; a tenant
is created active. -/
def KeepsAgreement (db : Database) : PostgresOp → Prop
  | .updatePolicy policy _ _ => policy.enabled = false ∨ ∃ row,
      db.policies.lookup policy.policyId = some row ∧ row.tenantId = policy.tenantId ∧
        policy.version = row.version + 1
  | .createTenant tenant _ => tenant.active = true
  | .refresh _ => True

/-- The view of an enabled policy. -/
def live (policies : AList fun _ : String => PolicyEntry) (id : String) : Option PolicyView :=
  ((policies.lookup id).filter PolicyEntry.enabled).map PolicyEntry.view

section Agreement

variable {cp : PostgresControlPlane} {db db' : Database}

theorem filter_tenant (tenantId : String) (o : Option PolicyEntry) :
    (o.filter fun p => p.tenantId == tenantId && p.enabled).map PolicyEntry.view =
      ((o.filter PolicyEntry.enabled).map PolicyEntry.view).filter (·.tenantId == tenantId) := by
  cases o with
  | none => rfl
  | some p =>
    cases henabled : p.enabled <;> cases htenant : p.tenantId == tenantId <;>
      simp [Option.filter_some, henabled, htenant, PolicyEntry.view]

/-- Two views are the same if they are the same for every tenant. -/
theorem eq_of_filter_tenant {o o' : Option PolicyView}
    (h : ∀ tenantId : String, o.filter (·.tenantId == tenantId) =
      o'.filter (·.tenantId == tenantId)) : o = o' := by
  ext v
  constructor
  · intro hv
    have hfilter : o.filter (·.tenantId == v.tenantId) = some v :=
      Option.filter_eq_some_iff.mpr ⟨hv, beq_self_eq_true _⟩
    exact (Option.filter_eq_some_iff.mp ((h _).symm.trans hfilter)).1
  · intro hv
    have hfilter : o'.filter (·.tenantId == v.tenantId) = some v :=
      Option.filter_eq_some_iff.mpr ⟨hv, beq_self_eq_true _⟩
    exact (Option.filter_eq_some_iff.mp ((h _).trans hfilter)).1

theorem live_load (db : Database) (id : String) : live db.load.policies id = live db.policies id := by
  have hload : db.load.policies.lookup id = (db.policies.lookup id).filter PolicyEntry.enabled :=
    KeyedStore.lookup_putAll_select db.policiesKeyed id
  rw [live, hload, live, Option.filter_filter]
  simp

/-- The policies agree exactly when each enabled one is seen alike in the cache and in its row. -/
theorem policies_agree_iff (cp : PostgresControlPlane) :
    (∀ tenantId, ((cp.loadPolicies tenantId).map PolicyEntry.view).Perm
        (((cp.refreshCache none).2.loadPolicies tenantId).map PolicyEntry.view)) ↔
      ∀ id, live cp.cache.policies id = live cp.database.policies id := by
  have hkey : ∀ p : PolicyEntry, p.view.policyId = p.policyId := fun _ => rfl
  have hperm : ∀ tenantId, ((cp.loadPolicies tenantId).map PolicyEntry.view).Perm
        (((cp.refreshCache none).2.loadPolicies tenantId).map PolicyEntry.view) ↔
      ∀ id, (live cp.cache.policies id).filter (·.tenantId == tenantId) =
        (live cp.database.policies id).filter (·.tenantId == tenantId) := by
    intro tenantId
    refine (KeyedStore.map_select_perm_iff cp.policiesKeyed
      (cp.refreshCache none).2.policiesKeyed hkey).trans (forall_congr' fun id => ?_)
    rw [filter_tenant, filter_tenant, ← live_load cp.database]
    rfl
  simp only [hperm]
  exact ⟨fun h id => eq_of_filter_tenant fun tenantId => h tenantId id,
    fun h tenantId id => by rw [h id]⟩

theorem getTenant_load (db : Database) (id : String) :
    db.load.getTenant id = (db.tenants.lookup id).filter Tenant.active :=
  KeyedStore.lookup_putAll_select db.tenantsKeyed id

theorem filter_active (o : Option Tenant) :
    (o.filter Tenant.active).map Tenant.view = (o.map Tenant.view).filter TenantView.active := by
  cases o with
  | none => rfl
  | some t => cases hactive : t.active <;> simp [Option.filter_some, hactive, Tenant.view]

/-- If every tenant is seen alike, so is their list. -/
theorem tenants_agree (h : ∀ id, (cp.getTenant id).map Tenant.view =
      ((cp.refreshCache none).2.getTenant id).map Tenant.view) :
    (cp.loadTenants.map Tenant.view).Perm
      ((cp.refreshCache none).2.loadTenants.map Tenant.view) := by
  have hkey : ∀ t : Tenant, t.view.tenantId = t.tenantId := fun _ => rfl
  refine (KeyedStore.map_select_perm_iff cp.tenantsKeyed (cp.refreshCache none).2.tenantsKeyed
    hkey).mpr fun id => ?_
  rw [filter_active, filter_active]
  exact congrArg (Option.filter TenantView.active) (h id)

/-- Agreement, id by id. -/
theorem agrees_iff_lookup : cp.Agrees ↔
    (∀ id, live cp.cache.policies id = live cp.database.policies id) ∧
      ∀ id, (cp.cache.tenants.lookup id).map Tenant.view =
        ((cp.database.tenants.lookup id).filter Tenant.active).map Tenant.view := by
  have htenant : ∀ id, ((cp.refreshCache none).2.getTenant id) =
      (cp.database.tenants.lookup id).filter Tenant.active := getTenant_load cp.database
  constructor
  · intro h
    exact ⟨(policies_agree_iff cp).mp h.policies, fun id => htenant id ▸ h.tenant id⟩
  · rintro ⟨hpolicies, htenants⟩
    have hall : ∀ id, (cp.getTenant id).map Tenant.view =
        ((cp.refreshCache none).2.getTenant id).map Tenant.view :=
      fun id => (htenants id).trans (congrArg (Option.map Tenant.view) (htenant id).symm)
    exact ⟨(policies_agree_iff cp).mpr hpolicies, tenants_agree hall, hall⟩

end Agreement

/-! ## Writes -/

section Writes

variable {cp : PostgresControlPlane} {db db' : Database} {policy : PolicyEntry} {tenant : Tenant}
  {now : DateTime} {failure : Option String} {op : PostgresOp}

/-- An update that succeeds changes the row of the policy, if there is one, and nothing else. -/
theorem updatePolicy_ok (h : db.updatePolicy policy now failure = .ok db') :
    db'.tenants = db.tenants ∧ ∀ id, db'.policies.lookup id =
      if id = policy.policyId then (db.policies.lookup id).map (updated policy now)
      else db.policies.lookup id := by
  unfold Database.updatePolicy at h
  split at h
  · cases h
  · next hnone =>
    obtain rfl := Except.ok.inj h
    refine ⟨rfl, fun id => ?_⟩
    split
    · next heq => rw [heq, hnone, Option.map_none]
    · rfl
  · next row hrow =>
    split at h
    · obtain rfl := Except.ok.inj h
      have hkey : row.policyId = policy.policyId := db.policiesKeyed.key_eq hrow
      refine ⟨rfl, fun id => (KeyedStore.lookup_put _ _ id).trans ?_⟩
      rw [show (updated policy now row).policyId = policy.policyId from hkey]
      split
      · next heq => rw [heq, hrow, Option.map_some]
      · rfl
    · cases h

/-- An insert that succeeds adds a row under a new id, and nothing else. -/
theorem insertTenant_ok (h : db.insertTenant tenant failure = .ok db') :
    db.tenants.lookup tenant.tenantId = none ∧ db'.policies = db.policies ∧
      db'.tenants = KeyedStore.put Tenant.tenantId db.tenants tenant := by
  unfold Database.insertTenant at h
  split at h
  · cases h
  · cases h
  · next hnone =>
    obtain rfl := Except.ok.inj h
    exact ⟨hnone, rfl, rfl⟩

/-- The written policy and its row are seen alike. -/
theorem view_updated_iff {row : PolicyEntry} (hkey : row.policyId = policy.policyId) :
    policy.view = (updated policy now row).view ↔
      row.tenantId = policy.tenantId ∧ policy.version = row.version + 1 := by
  simp [PolicyEntry.view, updated, hkey, eq_comm]

/-- After an update that succeeds, reads agree with the database as before exactly if the policy is
disabled or follows its row. -/
theorem agrees_updatePolicy_iff (h : cp.Agrees)
    (hok : cp.database.updatePolicy policy now failure = .ok db') :
    (cp.updatePolicy policy now failure).2.Agrees ↔
      KeepsAgreement cp.database (.updatePolicy policy now failure) := by
  obtain ⟨htenants, hrows⟩ := updatePolicy_ok hok
  obtain ⟨hlive, hviews⟩ := agrees_iff_lookup.mp h
  have hcp : (cp.updatePolicy policy now failure).2 = ⟨db', (cp.cache.updatePolicy policy).2,
      cp.tenantsKeyed, cp.policiesKeyed.put policy⟩ := by
    unfold updatePolicy
    split
    · next e he => cases he.symm.trans hok
    · next database hdatabase =>
      obtain rfl := Except.ok.inj (hdatabase.symm.trans hok)
      rfl
  -- only the written id matters
  have hcache : ∀ id, (cp.cache.updatePolicy policy).2.policies.lookup id =
      if id = policy.policyId then some policy else cp.cache.policies.lookup id :=
    KeyedStore.lookup_put _ _
  have hothers : (cp.updatePolicy policy now failure).2.Agrees ↔
      ((some policy).filter PolicyEntry.enabled).map PolicyEntry.view =
        (((cp.database.policies.lookup policy.policyId).map (updated policy now)).filter
          PolicyEntry.enabled).map PolicyEntry.view := by
    rw [agrees_iff_lookup, hcp]
    simp only [live, hcache, hrows, htenants]
    constructor
    · intro hall
      simpa using hall.1 policy.policyId
    · intro hwritten
      refine ⟨fun id => ?_, hviews⟩
      split
      · next heq => rw [heq, hwritten]
      · exact hlive id
  rw [hothers]
  simp only [KeepsAgreement]
  cases hrow : cp.database.policies.lookup policy.policyId with
  | none => cases henabled : policy.enabled <;> simp [Option.filter_some, henabled]
  | some row =>
    have hkey : row.policyId = policy.policyId := cp.database.policiesKeyed.key_eq hrow
    have hflag : (updated policy now row).enabled = policy.enabled := rfl
    cases henabled : policy.enabled
    · simp [Option.filter_some, henabled, hflag]
    · simp [Option.filter_some, henabled, hflag, view_updated_iff hkey]

/-- After an insert that succeeds, the tenant is new in the cache, and reads agree with the database
as before exactly if it is active. -/
theorem agrees_createTenant_iff (h : cp.Agrees)
    (hok : cp.database.insertTenant tenant failure = .ok db') :
    (cp.createTenant tenant failure).1 = .ok () ∧
      ((cp.createTenant tenant failure).2.Agrees ↔ tenant.active = true) := by
  obtain ⟨hnone, hpolicies, htenants⟩ := insertTenant_ok hok
  obtain ⟨hlive, hviews⟩ := agrees_iff_lookup.mp h
  have hnew : cp.cache.tenants.lookup tenant.tenantId = none := by
    simpa [hnone] using hviews tenant.tenantId
  have hcreate : cp.cache.createTenant tenant = (.ok (),
      { cp.cache with tenants := KeyedStore.put Tenant.tenantId cp.cache.tenants tenant }) := by
    rw [InMemoryControlPlane.createTenant, hnew]
    rfl
  have hcp : (cp.createTenant tenant failure).1 = (cp.cache.createTenant tenant).1 ∧
      (cp.createTenant tenant failure).2.database = db' ∧
      (cp.createTenant tenant failure).2.cache = (cp.cache.createTenant tenant).2 := by
    unfold createTenant
    split
    · next e he => cases he.symm.trans hok
    · next database hdatabase =>
      obtain rfl := Except.ok.inj (hdatabase.symm.trans hok)
      exact ⟨rfl, rfl, rfl⟩
  refine ⟨hcp.1.trans (congrArg Prod.fst hcreate), ?_⟩
  rw [agrees_iff_lookup, hcp.2.1, hcp.2.2, hcreate, hpolicies, htenants]
  simp only [KeyedStore.lookup_put]
  constructor
  · intro hall
    have hview := hall.2 tenant.tenantId
    cases hactive : tenant.active with
    | true => rfl
    | false => simp [Option.filter_some, hactive] at hview
  · intro hactive
    refine ⟨hlive, fun id => ?_⟩
    split
    · rw [Option.filter_some, if_pos hactive]
    · exact hviews id

/-- After a refresh reads agree with the database. -/
theorem agrees_refresh (cp : PostgresControlPlane) : (cp.refreshCache none).2.Agrees :=
  agrees_iff_lookup.mpr ⟨live_load cp.database, fun id =>
    congrArg (Option.map Tenant.view) (getTenant_load cp.database id)⟩

/-- A call that fails changes nothing, and one that succeeds keeps the agreement if its argument
does. -/
theorem Agrees.step (h : cp.Agrees) (op : PostgresOp)
    (hkeeps : (postgresMachine.step cp op).1 = .ok () → KeepsAgreement cp.database op) :
    (postgresMachine.step cp op).2.Agrees := by
  cases op with
  | updatePolicy policy now failure =>
    cases hdb : cp.database.updatePolicy policy now failure with
    | error e => simpa only [postgresMachine, updatePolicy, hdb] using h
    | ok db' =>
      refine (agrees_updatePolicy_iff h hdb).mpr (hkeeps ?_)
      simp only [postgresMachine, updatePolicy, hdb, InMemoryControlPlane.updatePolicy]
  | createTenant tenant failure =>
    cases hdb : cp.database.insertTenant tenant failure with
    | error e => simpa only [postgresMachine, createTenant, hdb] using h
    | ok db' =>
      obtain ⟨hok, hiff⟩ := agrees_createTenant_iff h hdb
      exact hiff.mpr (hkeeps hok)
  | refresh failure =>
    cases failure with
    | some e => exact h
    | none => exact agrees_refresh cp

/-- A call that succeeds breaks the agreement if its argument does not keep it. -/
theorem Agrees.keepsAgreement (h : cp.Agrees) (hok : (postgresMachine.step cp op).1 = .ok ())
    (h' : (postgresMachine.step cp op).2.Agrees) : KeepsAgreement cp.database op := by
  cases op with
  | updatePolicy policy now failure =>
    cases hdb : cp.database.updatePolicy policy now failure with
    | error e =>
      simp only [postgresMachine, updatePolicy, hdb] at hok
      cases hok
    | ok db' => exact (agrees_updatePolicy_iff h hdb).mp h'
  | createTenant tenant failure =>
    cases hdb : cp.database.insertTenant tenant failure with
    | error e =>
      simp only [postgresMachine, createTenant, hdb] at hok
      cases hok
    | ok db' => exact (agrees_createTenant_iff h hdb).2.mp h'
  | refresh failure => trivial

/-- When reads agree with the database, they still do after a call that succeeds exactly if it writes
a policy disabled, or over a row of its tenant with the version that follows, or creates an active
tenant. -/
theorem agrees_iff (h : cp.Agrees) (op : PostgresOp)
    (hok : (postgresMachine.step cp op).1 = .ok ()) :
    (postgresMachine.step cp op).2.Agrees ↔ KeepsAgreement cp.database op :=
  ⟨h.keepsAgreement hok, fun hkeeps => h.step op fun _ => hkeeps⟩

/-- Reads agree with the database after a run in which every call that succeeds keeps the
agreement. -/
theorem Agrees.run (h : cp.Agrees) {ops : List PostgresOp}
    (hops : postgresMachine.Along (fun cp op => (postgresMachine.step cp op).1 = .ok () →
      KeepsAgreement cp.database op) cp ops) : (postgresMachine.run cp ops).Agrees :=
  hops.run_induction h fun _ op hkeeps hagrees => hagrees.step op hkeeps

end Writes

/-! ## A policy written back -/

/-- The stored policy. -/
def storedPolicy : PolicyEntry :=
  { policyId := "policy-1", tenantId := "tenant-a", policyText := "forbid(principal, action, resource);"
    enabled := true, version := 1, createdAt := 0, updatedAt := 0 }

/-- A database with this policy. -/
def oneRow : Database :=
  { tenants := ∅, policies := KeyedStore.put PolicyEntry.policyId ∅ storedPolicy
    upstreamServers := [], rateLimitRules := [], tenantsKeyed := KeyedStore.keyed_empty
    policiesKeyed := KeyedStore.keyed_empty.put storedPolicy }

/-- The control plane over it after a refresh. -/
def oneRowLoaded : PostgresControlPlane :=
  { database := oneRow, cache := oneRow.load, tenantsKeyed := KeyedStore.keyed_empty.putAll _
    policiesKeyed := KeyedStore.keyed_empty.putAll _ }

theorem agrees_oneRowLoaded : oneRowLoaded.Agrees := agrees_refresh oneRowLoaded

/-- The policy is written with the version that follows. -/
theorem agrees_iff_nextVersion :
    (postgresMachine.step oneRowLoaded
        (.updatePolicy { storedPolicy with version := 2 } 1 none)).2.Agrees ↔
      KeepsAgreement oneRow (.updatePolicy { storedPolicy with version := 2 } 1 none) :=
  agrees_iff agrees_oneRowLoaded _ rfl

/-- The policy is written back with the version that was read. -/
def writeBack : PostgresOp :=
  .updatePolicy { storedPolicy with policyText := "permit(principal, action, resource);" } 1 none

/-- The write succeeds, and the version in the cache is not that of the row. -/
theorem writeBack_disagrees :
    oneRowLoaded.Agrees ∧ (postgresMachine.step oneRowLoaded writeBack).1 = .ok () ∧
      ((postgresMachine.step oneRowLoaded writeBack).2.loadPolicies "tenant-a").map
        PolicyEntry.version = [1] ∧
      (((postgresMachine.step oneRowLoaded writeBack).2.refreshCache none).2.loadPolicies
        "tenant-a").map PolicyEntry.version = [2] ∧
      ¬ (postgresMachine.step oneRowLoaded writeBack).2.Agrees := by
  have hok : (postgresMachine.step oneRowLoaded writeBack).1 = .ok () := rfl
  refine ⟨agrees_oneRowLoaded, hok, rfl, rfl, fun hagrees => ?_⟩
  rcases agrees_oneRowLoaded.keepsAgreement hok hagrees with henabled | ⟨row, hrow, -, hver⟩
  · cases henabled
  · obtain rfl : storedPolicy = row := Option.some.inj hrow
    exact absurd hver (by decide)

end PostgresControlPlane

end McpShield.ControlPlane
