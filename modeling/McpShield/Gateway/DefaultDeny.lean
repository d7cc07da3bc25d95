import McpShield.Gateway.Mediation

/-!
# Clients without scopes

What a client that has been granted no scope can reach when there is no policy authorizer.  The
known-method filter, the scope check and the dispatch each have a catch-all arm; `SlipsThrough`
describes the methods that pass all three and go to an upstream server.
-/

open Effect Effect.Prog

namespace McpShield

/-- A method that needs no scope and has no handler of its own. -/
def SlipsThrough (method : String) : Prop :=
  method = methodCompletionComplete ∨
    (Str.startsWith method "notifications/" = true ∧ method ≠ methodInitialized)

/-- The default server is that of the upstream table. -/
def DefaultFrom (U : UpstreamProxy) (tr : GatewayTrace) : Prop :=
  ∀ found, ⟨.defaultServerId, found⟩ ∈ tr → found = U.defaultServerId

theorem DefaultFrom.of_prefix {U : UpstreamProxy} {tr tr' : GatewayTrace} (hsub : tr <+: tr')
    (h : DefaultFrom U tr') : DefaultFrom U tr :=
  fun found hmem => h found (hsub.subset hmem)

section Methods

variable {method : String}

/-- A method that passes the filter and needs no scope. -/
theorem slipsThrough_of_unscoped
    (hvalid : isValidMethod method = true ∨ Str.startsWith method "notifications/" = true)
    (hscope : method ∉ ScopeEnforcer.scopedMethods) (hinit : method ≠ methodInitialize)
    (hping : method ≠ methodPing) (hinitialized : method ≠ methodInitialized) :
    SlipsThrough method := by
  by_cases hnotif : Str.startsWith method "notifications/" = true
  · exact .inr ⟨hnotif, hinitialized⟩
  · have hmem : method ∈ validMethods := by
      simpa [isValidMethod, hnotif] using hvalid
    simp only [validMethods, List.mem_cons, List.not_mem_nil, or_false] at hmem
    rcases hmem with rfl | rfl | rfl | rfl | rfl | rfl | rfl | rfl | rfl | rfl | rfl | rfl | rfl |
      rfl | rfl | rfl | rfl | rfl <;>
      first | exact .inl rfl | contradiction

theorem SlipsThrough.ne_of_not {other : String} (h : SlipsThrough method)
    (hother : other ≠ methodCompletionComplete)
    (hnotif : Str.startsWith other "notifications/" = false ∨ other = methodInitialized) :
    method ≠ other := by
  rintro rfl
  rcases h with h | ⟨hn, hi⟩
  · exact hother h
  · rcases hnotif with hf | he
    · simp [hf] at hn
    · exact hi he

theorem SlipsThrough.not_scoped (h : SlipsThrough method) :
    method ∉ ScopeEnforcer.scopedMethods := by
  intro hmem
  simp only [ScopeEnforcer.scopedMethods, List.mem_cons, List.not_mem_nil, or_false] at hmem
  rcases hmem with rfl | rfl | rfl | rfl | rfl | rfl | rfl | rfl <;>
    exact h.ne_of_not (by decide) (by decide) rfl

end Methods

section Requests

variable {router : McpRouter} {enforcer : ScopeEnforcer} {sessionId : Option String}
  {U : UpstreamProxy} {id : RequestId} {method : String} {params : Option Value}

/-- Nothing is forwarded, and only `initialize` and `ping` succeed. -/
structure AnsweredLocally (router : McpRouter) (enforcer : ScopeEnforcer)
    (sessionId : Option String) (U : UpstreamProxy) (id : RequestId) (method : String)
    (params : Option Value) : Prop where
  noForward : ∀ tr server sent (k : Continuation), DefaultFrom U tr →
    ¬ Steps (handleMessage router enforcer sessionId (.request id method params)) tr
      (.call (.forwardRequest server sent) k)
  success : ∀ tr id' result, DefaultFrom U tr →
    Steps (handleMessage router enforcer sessionId (.request id method params)) tr
      (.done (.ok (.success id' result))) → method = methodInitialize ∨ method = methodPing

/-- Nothing is forwarded while the default server is that of the table. -/
def MayAnswer (U : UpstreamProxy) (tr : GatewayTrace) (op : GatewayOp) : Prop :=
  DefaultFrom U tr → ¬ op.IsForward

theorem mayAnswer_of_quiet {tr : GatewayTrace} {op : GatewayOp} (h : Quiet tr op) :
    MayAnswer U tr op := fun _ => h

/-- The answers allowed to a client without scopes. -/
def LocalAnswer (U : UpstreamProxy) (method : String) (tr : GatewayTrace)
    (r : Except McpError JsonRpcMessage) : Prop :=
  DefaultFrom U tr → ∀ id result, r = .ok (.success id result) →
    method = methodInitialize ∨ method = methodPing

/-- Without a server there is nothing to forward to. -/
theorem proxyToUpstream_local (hU : U.servers = ∅) {h : GatewayTrace} :
    Ensures (MayAnswer U) (LocalAnswer U method) (proxyToUpstream id method params).run h := by
  refine ⟨fun _ => not_false, fun server => ?_⟩
  cases server with
  | none =>
    intro _ id' result hr
    cases hr
  | some serverId =>
    have hnone : U.defaultServerId = none := by
      simp [UpstreamProxy.defaultServerId, hU]
    have hno : ¬ DefaultFrom U (h ++ [⟨.defaultServerId, some serverId⟩]) := by
      intro hU'
      have heq := hU' (some serverId) (by simp)
      rw [hnone] at heq
      cases heq
    refine ⟨fun hU' => absurd hU' hno, fun reply => ?_⟩
    intro hU'
    exact absurd (hU'.of_prefix (List.prefix_append _ _)) hno

/-- A quiet handler of `initialize` or `ping`. -/
theorem quiet_local {x : GatewayM JsonRpcMessage} {h : GatewayTrace}
    (hmethod : method = methodInitialize ∨ method = methodPing)
    (hx : Ensures Quiet (fun _ _ => True) x.run h) :
    Ensures (MayAnswer U) (LocalAnswer U method) x.run h :=
  (hx.mono_may fun _ _ => mayAnswer_of_quiet).mono fun _ _ _ _ _ _ _ _ => hmethod

theorem dispatch_local (hscope : method ∉ ScopeEnforcer.scopedMethods)
    (hvalid : isValidMethod method = true ∨ Str.startsWith method "notifications/" = true)
    (hcond : ¬ SlipsThrough method ∨ U.servers = ∅) {h : GatewayTrace} :
    Ensures (MayAnswer U) (LocalAnswer U method)
      (dispatch router id method params enforcer sessionId).run h := by
  simp only [ScopeEnforcer.scopedMethods, List.mem_cons, List.not_mem_nil, or_false,
    not_or] at hscope
  obtain ⟨hlist, hresources, hprompts, hcall, hread, hget, hsampling, hshutdown⟩ := hscope
  unfold dispatch
  rw [if_neg hlist, if_neg hcall, if_neg hresources, if_neg hprompts, if_neg hshutdown]
  split_ifs with hinit hping hinitialized
  · exact quiet_local (.inl hinit) handleInitialize_spec
  · exact quiet_local (.inr hping) trivial
  · intro _ id' result hr
    cases hr
  · refine proxyToUpstream_local (hcond.resolve_left (not_not.mpr ?_))
    refine slipsThrough_of_unscoped hvalid ?_ hinit hping hinitialized
    simp [ScopeEnforcer.scopedMethods, hlist, hresources, hprompts, hcall, hread, hget, hsampling,
      hshutdown]

theorem handleRequest_local (hauth : router.authorizer = false) (hp : enforcer.permissive = false)
    (hs : enforcer.grantedScopes = []) (hcond : ¬ SlipsThrough method ∨ U.servers = ∅) :
    Ensures (MayAnswer U) (LocalAnswer U method)
      (handleRequest router id method params enforcer sessionId).run [] := by
  unfold handleRequest
  split
  · intro _ id' result hr
    simp [JsonRpcMessage.methodNotFoundResponse] at hr
  · next hfilter =>
    refine Ensures.result_bind (fun e _ _ id' result hr => by simp at hr) fun _ hmethod => ?_
    have hscope := (ScopeEnforcer.checkMethod_eq_ok_iff_of_no_scopes hp hs method).mp hmethod
    have hvalid : isValidMethod method = true ∨
        Str.startsWith method "notifications/" = true := by
      simpa [Classical.or_iff_not_imp_left] using hfilter
    have hpolicy : checkPolicy router enforcer method params = pure () := by
      simp [checkPolicy, hauth]
    rw [hpolicy]
    exact dispatch_local hscope hvalid hcond

/-- A method that slips through is sent to the default server. -/
theorem forwarded_of_slipsThrough (hauth : router.authorizer = false)
    (hslips : SlipsThrough method) {server : String} (hU : U.defaultServerId = some server) :
    ∃ tr, DefaultFrom U tr ∧ ∃ k : Continuation,
      Steps (handleMessage router enforcer sessionId (.request id method params)) tr
        (.call (.forwardRequest server (.request id method params)) k) := by
  have hmethod := enforcer.checkMethod_of_not_scoped hslips.not_scoped
  have hne : ∀ {other}, other ≠ methodCompletionComplete →
      (Str.startsWith other "notifications/" = false ∨ other = methodInitialized) →
      method ≠ other := hslips.ne_of_not
  have hfilter : ¬ ((!isValidMethod method && !Str.startsWith method "notifications/") = true) := by
    rcases hslips with rfl | ⟨hn, -⟩
    · decide
    · simp [hn]
  have hdispatch : dispatch router id method params enforcer sessionId =
      proxyToUpstream id method params := by
    unfold dispatch
    rw [if_neg (hne (by decide) (by decide)), if_neg (hne (by decide) (by decide)),
      if_neg (hne (by decide) (by decide)), if_neg (hne (by decide) (by decide)),
      if_neg (hne (by decide) (by decide)), if_neg (hne (by decide) (by decide)),
      if_neg (hne (by decide) (by decide)), if_neg (hne (by decide) (by decide))]
  have hpolicy : checkPolicy router enforcer method params = pure () := by
    simp [checkPolicy, hauth]
  have hrequest : handleRequest router id method params enforcer sessionId =
      proxyToUpstream id method params := by
    unfold handleRequest
    rw [if_neg hfilter, hmethod, hpolicy, hdispatch]
    rfl
  have hrun : ∃ k, Steps (proxyToUpstream id method params).run
      [⟨.defaultServerId, some server⟩]
      (.call (.forwardRequest server (.request id method params)) k) := ⟨_, .call (.refl _)⟩
  obtain ⟨k, hrun⟩ := hrun
  rw [← hrequest] at hrun
  refine ⟨_, fun found hmem => ?_, _, hrun.bind_right _⟩
  cases List.mem_singleton.mp hmem
  exact hU.symm

/-- A client without scopes is answered locally exactly when its method does not slip through or
there is no upstream server. -/
theorem answeredLocally_iff (hauth : router.authorizer = false)
    (hp : enforcer.permissive = false) (hs : enforcer.grantedScopes = []) :
    AnsweredLocally router enforcer sessionId U id method params ↔
      ¬ SlipsThrough method ∨ U.servers = ∅ := by
  constructor
  · intro hlocal
    by_contra hcond
    obtain ⟨hslips, hU⟩ := not_or.mp hcond
    obtain ⟨server, hserver⟩ := UpstreamProxy.exists_defaultServerId hU
    obtain ⟨tr, htr, k, hrun⟩ := forwarded_of_slipsThrough hauth (not_not.mp hslips) hserver
    exact hlocal.noForward tr server _ k htr hrun
  · intro hcond
    have hspec : Ensures (MayAnswer U) (LocalAnswer U method)
        (handleMessage router enforcer sessionId (.request id method params)) [] := by
      refine (handleRequest_local hauth hp hs hcond).bind fun h' r _ hlocal => ?_
      refine (record_spec.mono_may fun _ _ => mayAnswer_of_quiet).mono ?_
      rintro h'' _ hh'' rfl hU
      exact hlocal (hU.of_prefix hh'')
    exact
      { noForward := fun tr server sent k hU hrun => hspec.may_of_steps hrun hU trivial
        success := fun tr id' result hU hrun => hspec.post_of_steps hrun hU id' result rfl }

end Requests

/-- An upstream table with one server. -/
def echoServers : UpstreamProxy :=
  UpstreamProxy.new.registerServer
    { id := "echo", transport := .streamableHttp, url := none, isEcho := true }

theorem answeredLocally_iff_toolsCall :
    AnsweredLocally plainRouter (.new []) none echoServers (.integer 1) methodToolsCall
        (some echoParams) ↔
      ¬ SlipsThrough methodToolsCall ∨ echoServers.servers = ∅ :=
  answeredLocally_iff rfl rfl rfl

/-- A completion request is forwarded for a client without scopes. -/
theorem completion_not_answeredLocally :
    ¬ AnsweredLocally plainRouter (.new []) none echoServers (.integer 1)
      methodCompletionComplete none := by
  intro hlocal
  have hserver : echoServers.defaultServerId = some "echo" := rfl
  have hauth : plainRouter.authorizer = false := rfl
  obtain ⟨tr, htr, k, hrun⟩ := forwarded_of_slipsThrough hauth (.inl rfl) hserver
  exact hlocal.noForward tr "echo" _ k htr hrun

end McpShield
