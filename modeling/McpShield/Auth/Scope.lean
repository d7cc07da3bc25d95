import Mathlib.Data.List.Dedup
import McpShield.Error
import McpShield.Protocol.Message

/-!
# Scope enforcement

Maps the OAuth scopes granted to a client to the MCP methods and the tools it may use.
-/

namespace McpShield

def scopeToolsRead : String := "mcp:tools:read"
def scopeToolsCall : String := "mcp:tools:call"
def scopeResourcesRead : String := "mcp:resources:read"
def scopePromptsRead : String := "mcp:prompts:read"
def scopeAdmin : String := "mcp:admin"

/-- The scopes granted to the current client.  The list is the hash set in its iteration order. -/
structure ScopeEnforcer where
  grantedScopes : List String
  permissive : Bool
  nodup : grantedScopes.Nodup

namespace ScopeEnforcer

/-- An enforcer for a list of granted scopes. -/
def new (scopes : List String) : ScopeEnforcer :=
  { grantedScopes := scopes.dedup, permissive := false, nodup := scopes.nodup_dedup }

/-- The enforcer that allows everything, used when authentication is disabled. -/
def allowAll : ScopeEnforcer :=
  { grantedScopes := [], permissive := true, nodup := List.nodup_nil }

/-- Whether the client has a scope. -/
def hasScope (se : ScopeEnforcer) (scope : String) : Bool :=
  se.permissive || se.grantedScopes.contains scope

/-- Whether the client may invoke a method. -/
def checkMethod (se : ScopeEnforcer) (method : String) : Except McpError Unit :=
  if se.permissive then .ok ()
  else if method = methodInitialize ∨ method = methodInitialized ∨ method = methodPing then .ok ()
  else if method = methodToolsList ∨ method = methodResourcesList ∨ method = methodPromptsList then
    if se.hasScope scopeToolsRead || se.hasScope scopeResourcesRead ||
        se.hasScope scopePromptsRead || se.hasScope scopeAdmin then .ok ()
    else .error (.scopeDenied
      s!"Scope required to access '{method}'. Need one of: {scopeToolsRead}, {scopeResourcesRead}, {scopePromptsRead}")
  else if method = methodToolsCall then
    if se.hasScope scopeToolsCall || se.hasScope scopeAdmin then .ok ()
    else .error (.scopeDenied s!"Scope '{scopeToolsCall}' is required to invoke tools")
  else if method = methodResourcesRead then
    if se.hasScope scopeResourcesRead || se.hasScope scopeAdmin then .ok ()
    else .error (.scopeDenied s!"Scope '{scopeResourcesRead}' is required to read resources")
  else if method = methodPromptsGet then
    if se.hasScope scopePromptsRead || se.hasScope scopeAdmin then .ok ()
    else .error (.scopeDenied s!"Scope '{scopePromptsRead}' is required to get prompts")
  else if method = methodSamplingCreate then
    if se.hasScope "mcp:sampling" || se.hasScope scopeAdmin then .ok ()
    else .error (.scopeDenied "Scope 'mcp:sampling' is required for sampling")
  else if method = methodShutdown then
    if se.hasScope scopeAdmin then .ok ()
    else .error (.scopeDenied s!"Scope '{scopeAdmin}' is required to shutdown the gateway")
  else .ok ()

/-- The scope for all tools of a namespace, or for one tool. -/
def toolScope (name : String) : String := s!"{scopeToolsCall}:{name}"

/-- Whether the client may call a tool. -/
def checkToolAccess (se : ScopeEnforcer) (toolName : String) : Except McpError Unit :=
  if se.permissive then .ok ()
  else if se.hasScope scopeAdmin then .ok ()
  else if se.hasScope scopeToolsCall then .ok ()
  else
    let denied := .error (.scopeDenied
      s!"Access to tool '{toolName}' denied. Scope '{scopeToolsCall}' or '{scopeAdmin}' is required")
    match Str.splitn2 toolName ':' with
    | [pfx, _] =>
        if se.hasScope (toolScope pfx) then .ok ()
        else if se.hasScope (toolScope toolName) then .ok ()
        else denied
    | _ => denied

/-! ## What the checks admit -/

@[simp] theorem hasScope_of_permissive {se : ScopeEnforcer} (hp : se.permissive = true)
    (scope : String) : se.hasScope scope = true := by
  simp [hasScope, hp]

theorem hasScope_iff {se : ScopeEnforcer} (hp : se.permissive = false) (scope : String) :
    se.hasScope scope = true ↔ scope ∈ se.grantedScopes := by
  simp [hasScope, hp]

@[simp] theorem checkMethod_of_permissive {se : ScopeEnforcer} (hp : se.permissive = true)
    (method : String) : se.checkMethod method = .ok () := by
  simp [checkMethod, hp]

@[simp] theorem checkToolAccess_of_permissive {se : ScopeEnforcer} (hp : se.permissive = true)
    (toolName : String) : se.checkToolAccess toolName = .ok () := by
  simp [checkToolAccess, hp]

/-- The methods for which `checkMethod` asks for a scope. -/
def scopedMethods : List String :=
  [methodToolsList, methodResourcesList, methodPromptsList, methodToolsCall, methodResourcesRead,
    methodPromptsGet, methodSamplingCreate, methodShutdown]

/-- A method that no arm names is allowed to everyone. -/
theorem checkMethod_of_not_scoped (se : ScopeEnforcer) {method : String}
    (h : method ∉ scopedMethods) : se.checkMethod method = .ok () := by
  simp only [scopedMethods, List.mem_cons, List.not_mem_nil, or_false, not_or] at h
  simp [checkMethod, h]

/-- Without scopes, exactly the methods that ask for no scope are allowed. -/
theorem checkMethod_eq_ok_iff_of_no_scopes {se : ScopeEnforcer} (hp : se.permissive = false)
    (hs : se.grantedScopes = []) (method : String) :
    se.checkMethod method = .ok () ↔ method ∉ scopedMethods := by
  have hno : ∀ scope, se.hasScope scope = false := fun scope => by simp [hasScope, hp, hs]
  constructor
  · intro h hm
    simp only [scopedMethods, List.mem_cons, List.not_mem_nil, or_false] at hm
    rcases hm with rfl | rfl | rfl | rfl | rfl | rfl | rfl | rfl <;>
      simp [checkMethod, hp, hno, methodInitialize, methodInitialized, methodPing, methodToolsList,
        methodResourcesList, methodPromptsList, methodToolsCall, methodResourcesRead,
        methodPromptsGet, methodSamplingCreate, methodShutdown] at h
  · exact se.checkMethod_of_not_scoped

/-- A client may invoke `tools/call` exactly with the global scope or as administrator. -/
theorem checkMethod_toolsCall_iff {se : ScopeEnforcer} (hp : se.permissive = false) :
    se.checkMethod methodToolsCall = .ok () ↔
      scopeToolsCall ∈ se.grantedScopes ∨ scopeAdmin ∈ se.grantedScopes := by
  have hm : se.checkMethod methodToolsCall =
      if se.hasScope scopeToolsCall || se.hasScope scopeAdmin then .ok ()
      else .error (.scopeDenied s!"Scope '{scopeToolsCall}' is required to invoke tools") := by
    simp [checkMethod, hp, methodInitialize, methodInitialized, methodPing, methodToolsList,
      methodResourcesList, methodPromptsList, methodToolsCall]
  rw [hm, ← hasScope_iff hp, ← hasScope_iff hp, ← Bool.or_eq_true]
  split <;> simp_all

/-- The tool check admits a tool whose namespace has no colon exactly with one of the four
scopes. -/
theorem checkToolAccess_iff {se : ScopeEnforcer} (hp : se.permissive = false) {pfx name : String}
    (hc : ':' ∉ pfx.toList) :
    se.checkToolAccess (pfx ++ ":" ++ name) = .ok () ↔
      scopeAdmin ∈ se.grantedScopes ∨ scopeToolsCall ∈ se.grantedScopes ∨
        toolScope pfx ∈ se.grantedScopes ∨
        toolScope (pfx ++ ":" ++ name) ∈ se.grantedScopes := by
  have hsplit : Str.splitn2 (pfx ++ ":" ++ name) ':' = [pfx, name] := by
    have hcolon : ":" = String.singleton ':' := rfl
    rw [hcolon, Str.splitn2, Str.before_append hc, Str.after_append hc]
    rfl
  simp only [checkToolAccess, hp, hsplit, ← hasScope_iff hp]
  by_cases hadmin : se.hasScope scopeAdmin = true
  · simp [hadmin]
  · by_cases hglobal : se.hasScope scopeToolsCall = true
    · simp [hadmin, hglobal]
    · by_cases hprefix : se.hasScope (toolScope pfx) = true
      · simp [hadmin, hglobal, hprefix]
      · simp [hadmin, hglobal, hprefix]

/-- Who may invoke `tools/call` may call every tool. -/
theorem checkToolAccess_of_checkMethod {se : ScopeEnforcer}
    (h : se.checkMethod methodToolsCall = .ok ()) (toolName : String) :
    se.checkToolAccess toolName = .ok () := by
  cases hp : se.permissive with
  | true => exact checkToolAccess_of_permissive hp toolName
  | false =>
    unfold checkToolAccess
    rcases (checkMethod_toolsCall_iff hp).mp h with hcall | hadmin
    · simp [(hasScope_iff hp scopeToolsCall).mpr hcall]
    · simp [(hasScope_iff hp scopeAdmin).mpr hadmin]

/-! ## The errors of the checks -/

/-- A result that fails, if at all, because of the scopes. -/
def DeniesScope (result : Except McpError Unit) : Prop :=
  ∀ e, result = .error e → ∃ msg, e = .scopeDenied msg

theorem deniesScope_ok : DeniesScope (.ok ()) := fun _ h => nomatch h

theorem deniesScope_error (msg : String) : DeniesScope (.error (.scopeDenied msg)) :=
  fun _ h => ⟨msg, (Except.error.inj h).symm⟩

theorem DeniesScope.ite {c : Prop} [Decidable c] {yes no : Except McpError Unit}
    (hyes : DeniesScope yes) (hno : DeniesScope no) : DeniesScope (if c then yes else no) := by
  split
  · exact hyes
  · exact hno

theorem deniesScope_checkMethod (se : ScopeEnforcer) (method : String) :
    DeniesScope (se.checkMethod method) := by
  unfold checkMethod
  repeat' refine DeniesScope.ite ?_ ?_
  all_goals first | exact deniesScope_ok | exact deniesScope_error _

theorem deniesScope_checkToolAccess (se : ScopeEnforcer) (toolName : String) :
    DeniesScope (se.checkToolAccess toolName) := by
  unfold checkToolAccess
  refine deniesScope_ok.ite (deniesScope_ok.ite (deniesScope_ok.ite ?_))
  dsimp only
  split
  · exact deniesScope_ok.ite (deniesScope_ok.ite (deniesScope_error _))
  · exact deniesScope_error _

end ScopeEnforcer

end McpShield
