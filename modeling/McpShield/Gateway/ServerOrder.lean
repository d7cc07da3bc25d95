import Mathlib.Data.List.Perm.Basic
import McpShield.Gateway.DefaultDeny
import McpShield.Gateway.Wiring
import McpShield.Main

/-!
# The order of the upstream servers

The upstream servers are a hash map, and a request that no handler answers goes to the first of them
in iteration order.  `orderFree_iff` says when that is the same server in every run, and
`orderFree_buildProxy_iff` which configurations lead to such a map.
-/

open Effect Effect.Prog

namespace McpShield

/-- A method whose requests go to the default server. -/
def Proxied (method : String) : Prop :=
  (isValidMethod method = true ∨ Str.startsWith method "notifications/" = true) ∧
    method ∉ answeredMethods ∧ method ≠ methodToolsCall

instance : DecidablePred Proxied := fun _ => inferInstanceAs (Decidable (_ ∧ _ ∧ _))

theorem proxied_of_mem : ∀ method ∈ [methodResourcesList, methodResourcesRead, methodPromptsList,
    methodPromptsGet, methodCompletionComplete, methodSamplingCreate], Proxied method := by
  decide

/-- The same servers in any order. -/
def SameServers (U V : UpstreamProxy) : Prop := U.servers.entries.Perm V.servers.entries

/-- Some run with the servers in this order sends the message to the server. -/
def Chooses (U : UpstreamProxy) (message : JsonRpcMessage) (server : String) : Prop :=
  ∃ router enforcer sessionId tr sent, ∃ k : Continuation, DefaultFrom U tr ∧
    Steps (handleMessage router enforcer sessionId message) tr
      (.call (.forwardRequest server sent) k)

/-- In any two runs with these servers the message is sent to the same one. -/
def OrderFree (U : UpstreamProxy) (message : JsonRpcMessage) : Prop :=
  ∀ V V' server server', SameServers V U → SameServers V' U → Chooses V message server →
    Chooses V' message server' → server = server'

/-! ## The chosen server -/

section Requests

variable {router : McpRouter} {enforcer : ScopeEnforcer} {sessionId : Option String}
  {U : UpstreamProxy} {id : RequestId} {method server : String} {params : Option Value}

theorem SameServers.mem_iff {V : UpstreamProxy} (h : SameServers V U) :
    server ∈ V.servers ↔ server ∈ U.servers :=
  (h.map Sigma.fst).mem_iff

/-- Any server may come first. -/
theorem exists_sameServers (h : server ∈ U.servers) :
    ∃ V, SameServers V U ∧ V.defaultServerId = some server := by
  obtain ⟨entry, hmem, rfl⟩ := List.mem_map.mp (AList.mem_keys.mp h)
  obtain ⟨before, after, hentries⟩ := List.append_of_mem hmem
  have hperm : (entry :: (before ++ after)).Perm U.servers.entries := by
    rw [hentries]
    exact List.perm_middle.symm
  refine ⟨⟨⟨_, (List.perm_nodupKeys hperm).mpr U.servers.nodupKeys⟩⟩, hperm, rfl⟩

theorem dispatch_of_proxied (h : Proxied method) :
    dispatch router id method params enforcer sessionId = proxyToUpstream id method params := by
  obtain ⟨-, hanswered, hcall⟩ := h
  simp only [answeredMethods, List.mem_cons, List.not_mem_nil, or_false, not_or] at hanswered
  obtain ⟨hinit, hping, hlist, hshutdown, hinitialized⟩ := hanswered
  unfold dispatch
  rw [if_neg hinit, if_neg hping, if_neg hlist, if_neg hcall, if_neg hshutdown,
    if_neg hinitialized, ite_self, ite_self]

/-- A message is sent to the default server only. -/
def MayChoose (tr : GatewayTrace) (op : GatewayOp) : Prop :=
  ∀ server sent, op = .forwardRequest server sent → ⟨.defaultServerId, some server⟩ ∈ tr

theorem mayChoose_of_quiet {tr : GatewayTrace} {op : GatewayOp} (h : Quiet tr op) :
    MayChoose tr op := by
  rintro server sent rfl
  exact absurd trivial h

theorem proxyToUpstream_chooses {h : GatewayTrace} :
    Ensures MayChoose (fun _ _ => True) (proxyToUpstream id method params).run h := by
  refine ⟨mayChoose_of_quiet not_false, fun found => ?_⟩
  cases found with
  | none => trivial
  | some first =>
    refine ⟨?_, fun reply => trivial⟩
    rintro server sent heq
    obtain ⟨rfl, -⟩ := GatewayOp.forwardRequest.inj heq
    exact List.mem_append_right h List.mem_cons_self

theorem handleRequest_chooses (hproxied : Proxied method) :
    Ensures MayChoose (fun _ _ => True)
      (handleRequest router id method params enforcer sessionId).run [] := by
  unfold handleRequest
  split
  · trivial
  · refine Ensures.result_bind (fun _ _ => trivial) fun _ _ => ?_
    refine Ensures.bindExcept (checkPolicy_spec.mono_may fun _ _ => mayChoose_of_quiet)
      (fun _ _ _ _ => trivial) fun h' _ _ _ => ?_
    rw [dispatch_of_proxied hproxied]
    exact proxyToUpstream_chooses

/-- A request is sent to a server that there is. -/
theorem Chooses.mem (hproxied : Proxied method) (h : Chooses U (.request id method params) server) :
    server ∈ U.servers := by
  obtain ⟨router, enforcer, sessionId, tr, sent, k, hdefault, hrun⟩ := h
  have hspec : Ensures MayChoose (fun _ _ => True)
      (handleMessage router enforcer sessionId (.request id method params)) [] :=
    (handleRequest_chooses hproxied).bind fun _ _ _ _ =>
      (record_spec.mono_may fun _ _ => mayChoose_of_quiet).mono fun _ _ _ _ => trivial
  have hfirst : some server = U.defaultServerId :=
    hdefault _ (hspec.may_of_steps hrun server sent rfl)
  exact AList.mem_keys.mpr (List.mem_of_mem_head? hfirst.symm)

/-- Whatever the router is, a request that the scopes permit is sent to the first server if the
policy allows it. -/
theorem sent_to_defaultServer (router : McpRouter) (sessionId : Option String)
    (hproxied : Proxied method) (hscope : enforcer.checkMethod method = .ok ())
    (hserver : U.defaultServerId = some server) :
    ∃ tr, ∃ k : Continuation, DefaultFrom U tr ∧
      Steps (handleMessage router enforcer sessionId (.request id method params)) tr
        (.call (.forwardRequest server (.request id method params)) k) := by
  let answer : (op : GatewayOp) → op.Reply
    | .defaultServerId => U.defaultServerId
    | .evaluate _ => .ok { decision := .allow, decidingPolicies := [], diagnostics := [] }
    | op => openComponents.answer op
  have hfilter :
      ¬ ((!isValidMethod method && !Str.startsWith method "notifications/") = true) := by
    rcases hproxied.1 with hvalid | hnotification
    · simp [hvalid]
    · simp [hnotification]
  have hrequest : ForwardsBy answer
      (handleRequest router id method params enforcer sessionId).run server
      (.request id method params) := by
    unfold handleRequest
    rw [if_neg hfilter, dispatch_of_proxied hproxied]
    refine .after (succeedsBy_result hscope) (.after (checkPolicy_succeedsBy fun _ => ?_) ?_)
    · exact ⟨_, rfl, rfl⟩
    · exact proxyToUpstream_forwardsBy hserver
  obtain ⟨tr, k, hanswered, hrun⟩ := hrequest
  exact ⟨tr, _, fun found hmem => hanswered _ _ hmem, hrun.bind_right _⟩

theorem chooses_of_defaultServer (hproxied : Proxied method)
    (hserver : U.defaultServerId = some server) :
    Chooses U (.request id method params) server := by
  have hscope := ScopeEnforcer.allowAll.checkMethod_of_permissive rfl method
  obtain ⟨tr, k, hrun⟩ := sent_to_defaultServer plainRouter none hproxied hscope hserver
  exact ⟨_, _, _, tr, _, k, hrun⟩

theorem OrderFree.eq (hproxied : Proxied method) {server' : String}
    (hfree : OrderFree U (.request id method params)) (hserver : server ∈ U.servers)
    (hserver' : server' ∈ U.servers) : server = server' := by
  obtain ⟨V, hV, hfirst⟩ := exists_sameServers hserver
  obtain ⟨V', hV', hfirst'⟩ := exists_sameServers hserver'
  exact hfree V V' server server' hV hV' (chooses_of_defaultServer hproxied hfirst)
    (chooses_of_defaultServer hproxied hfirst')

theorem orderFree_of_single (hproxied : Proxied method)
    (hsingle : ∀ server ∈ U.servers, ∀ server' ∈ U.servers, server = server') :
    OrderFree U (.request id method params) := by
  intro V V' server server' hV hV' hchosen hchosen'
  exact hsingle server (hV.mem_iff.mp (hchosen.mem hproxied)) server'
    (hV'.mem_iff.mp (hchosen'.mem hproxied))

/-- A request for the default server goes to the same one in all runs exactly when there is at most
one server. -/
theorem orderFree_iff (hproxied : Proxied method) (U : UpstreamProxy) :
    OrderFree U (.request id method params) ↔
      ∀ server ∈ U.servers, ∀ server' ∈ U.servers, server = server' :=
  ⟨fun hfree _ hserver _ hserver' => hfree.eq hproxied hserver hserver',
    orderFree_of_single hproxied⟩

end Requests

/-- The order of a map with the echo server alone does not matter. -/
theorem orderFree_iff_echo :
    OrderFree echoServers (.request (.integer 1) methodResourcesList none) ↔
      ∀ server ∈ echoServers.servers, ∀ server' ∈ echoServers.servers, server = server' :=
  orderFree_iff (by decide) echoServers

/-! ## The configured servers -/

theorem mem_registerServer {U : UpstreamProxy} {server : UpstreamServer} {id : String} :
    id ∈ (U.registerServer server).servers ↔ id = server.id ∨ id ∈ U.servers :=
  AList.mem_insert _

theorem mem_foldl_registerServer {α : Type} {f : α → UpstreamServer} {upstreams : List α}
    {U : UpstreamProxy} {id : String} :
    id ∈ (upstreams.foldl (fun U e => U.registerServer (f e)) U).servers ↔
      id ∈ upstreams.map (fun e => (f e).id) ∨ id ∈ U.servers := by
  induction upstreams generalizing U with
  | nil => simp
  | cons e upstreams ih =>
    rw [List.foldl_cons, ih, mem_registerServer, List.map_cons, List.mem_cons]
    tauto

/-- `main` registers the configured servers beside the echo server. -/
theorem mem_buildProxy {config : Config} {id : String} :
    id ∈ (buildProxy config).servers ↔ id = "echo" ∨ id ∈ config.proxy.upstreams := by
  have hnone : id ∉ UpstreamProxy.new.servers := AList.notMem_empty id
  unfold buildProxy
  rw [mem_foldl_registerServer, mem_registerServer, or_iff_left hnone]
  exact or_comm

/-- In a gateway that `main` has set up, the order does not matter exactly when no other server than
`echo` is configured. -/
theorem orderFree_buildProxy_iff {method : String} (hproxied : Proxied method) (config : Config)
    (id : RequestId) (params : Option Value) :
    OrderFree (buildProxy config) (.request id method params) ↔
      ∀ server ∈ config.proxy.upstreams, server = "echo" := by
  constructor
  · intro hfree server hserver
    exact hfree.eq hproxied (mem_buildProxy.mpr (.inr hserver)) (mem_buildProxy.mpr (.inl rfl))
  · intro h
    refine orderFree_of_single hproxied fun server hserver server' hserver' => ?_
    have hecho : ∀ id ∈ (buildProxy config).servers, id = "echo" := fun id hid =>
      (mem_buildProxy.mp hid).elim (fun heq => heq) (h id)
    rw [hecho server hserver, hecho server' hserver']

/-! ## Two servers -/

/-- A server beside the echo server. -/
def remoteServer : UpstreamServer :=
  { id := "github", transport := .streamableHttp
    url := some "https://mcp.github.example.com/mcp", isEcho := false }

/-- The echo server comes last in iteration order. -/
def echoLast : UpstreamProxy := echoServers.registerServer remoteServer

/-- The same servers, the echo server first. -/
def echoFirst : UpstreamProxy :=
  { servers := ⟨_, (List.perm_nodupKeys (List.reverse_perm _)).mpr echoLast.servers.nodupKeys⟩ }

def resourcesListRequest : JsonRpcMessage := .request (.integer 1) methodResourcesList none

/-- It goes to the first server. -/
theorem chooses_resourcesList {U : UpstreamProxy} {server : String}
    (hserver : U.defaultServerId = some server) : Chooses U resourcesListRequest server :=
  chooses_of_defaultServer (proxied_of_mem _ List.mem_cons_self) hserver

/-- A `resources/list` goes to one server or to the other. -/
theorem resourcesList_depends_on_order :
    SameServers echoFirst echoLast ∧ Chooses echoLast resourcesListRequest "github" ∧
      Chooses echoFirst resourcesListRequest "echo" ∧
      ¬ OrderFree echoLast resourcesListRequest := by
  have hperm : SameServers echoFirst echoLast := List.reverse_perm _
  have hlast : Chooses echoLast resourcesListRequest "github" := chooses_resourcesList rfl
  have hfirst : Chooses echoFirst resourcesListRequest "echo" := chooses_resourcesList rfl
  refine ⟨hperm, hlast, hfirst, fun hfree => ?_⟩
  have heq := hfree _ _ _ _ (List.Perm.refl _) hperm hlast hfirst
  exact absurd heq (by decide)

end McpShield
