import McpShield.Gateway.AdvertisedNames
import McpShield.Gateway.Interleaving
import McpShield.Gateway.ToolNames
import McpShield.Protocol.ToolJson

/-!
# Listed tools

What a client that lists the tools can rely on when it calls one of them later: the list it has read
is the registry at one moment, and the server that owned a listed tool then is the one that is
called, as long as it has not been removed.
-/

open Effect Effect.Prog

namespace McpShield

/-! ## The reply to `tools/list` -/

section Reply

variable {router : McpRouter} {enforcer : ScopeEnforcer} {sessionId : Option String}
  {message : JsonRpcMessage} {id : RequestId} {params : Option Value} {h : GatewayTrace}

/-- The reply lists the tools that the registry has answered with. -/
def Lists (id : RequestId) (tr : GatewayTrace) (reply : JsonRpcMessage) : Prop :=
  ∃ tools, ⟨.listTools, tools⟩ ∈ tr ∧
    reply = .successResponse id (ToolsListResult.mk tools none).toValue

theorem handleToolsList_lists : Ensures Quiet (onOk (Lists id)) (handleToolsList id).run h :=
  ⟨not_false, fun tools => ⟨tools, mem_concat_self _ _, rfl⟩⟩

theorem handleRequest_lists :
    Ensures Quiet (onOk (Lists id))
      (handleRequest router id methodToolsList params enforcer sessionId).run h := by
  have hvalid : isValidMethod methodToolsList = true := by decide
  have hdispatch : dispatch router id methodToolsList params enforcer sessionId =
      handleToolsList id := rfl
  unfold handleRequest
  rw [hvalid, hdispatch]
  refine Ensures.result_bind (fun _ _ => trivial) fun _ _ => ?_
  exact Ensures.bindExcept checkPolicy_spec (fun _ _ _ _ => trivial)
    fun _ _ _ _ => handleToolsList_lists

/-- A message that asks for the tools is answered with those of the registry. -/
theorem handleMessage_lists (hmessage : message.processed = .request id methodToolsList params) :
    Ensures Quiet (onOk (Lists id)) (handleMessage router enforcer sessionId message) h := by
  rw [handleMessage_eq_processed, hmessage]
  refine Ensures.bind handleRequest_lists fun h' result hprefix hlists => ?_
  refine record_spec.mono fun h'' result' hprefix' hsame => ?_
  obtain rfl := hsame
  cases result' with
  | error e => trivial
  | ok reply =>
    obtain ⟨tools, hanswer, hreply⟩ := hlists
    exact ⟨tools, hprefix'.subset hanswer, hreply⟩

end Reply

section Runs

variable {router : McpRouter} {tasks : ℕ → Task} {s s' : Shared} {h h₁ h₂ h₃ : History}
  {Q : ℕ → Prog ServerOp ServerOp.Reply TaskOutcome} {i j : ℕ}

/-- However the tasks are interleaved, the reply to a `tools/list` request reads back as the tools
of the registry at one moment of the run, all of them on one page. -/
theorem tools_list_snapshot {enforcer : ScopeEnforcer} {sessionId : Option String}
    {message reply : JsonRpcMessage} {id : RequestId} {params : Option Value}
    (hrun : TasksRun router tasks s h Q s') (htask : tasks i = .message enforcer sessionId message)
    (hmessage : message.processed = .request id methodToolsList params)
    (hdone : Q i = .done (some (.ok reply))) :
    ∃ result tools, reply = .success id result ∧
      ToolsListResult.fromValue result = some { tools, nextCursor := none } ∧
      AtMoment s h i ⟨.gateway .listTools, tools⟩ fun s₁ => tools = s₁.registry.listTools := by
  have hthread := Task.at_of_steps (hrun.thread i)
  rw [htask, hdone] at hthread
  obtain ⟨gtr, hcalls, hsteps⟩ := hthread.done_inv
  obtain ⟨tools, hanswer, rfl⟩ := (handleMessage_lists hmessage).post_of_steps hsteps
  have hmem : (i, (⟨.gateway .listTools, tools⟩ : Event ServerOp.Reply)) ∈ h :=
    mem_callsOf.mp (hcalls ▸ mem_map_handlerEvent hanswer)
  refine ⟨_, tools, rfl, ToolsListResult.fromValue_toValue _, ?_⟩
  exact (atMoment_of_mem hrun.served hmem).mono fun s₁ ⟨_, hlist, _⟩ => hlist

/-! ## The call of a listed tool -/

/-- The call removes no tool of the server. -/
def ServerOp.KeepsOwner (server : String) : ServerOp → Prop
  | shared (.registry op) => ToolRegistry.Keeps server op
  | _ => True

/-- The registry is well formed. -/
theorem inv_serve {op : ServerOp} {r : op.Reply} (hserve : Shared.serve s op r s')
    (hR : s.registry.Inv) : s'.registry.Inv := by
  rcases Shared.registry_serve hserve with ⟨call, -, hstep⟩ | hsame
  · rw [hstep]
    exact hR.step call
  · rwa [hsame]

theorem inv_serves {tr : List (Event ServerOp.Reply)} (hserves : Serves Shared.serve s tr s')
    (hR : s.registry.Inv) : s'.registry.Inv :=
  hserves.invariant (I := fun s => s.registry.Inv) (P := fun _ => True) hR (fun _ _ => trivial)
    fun _ _ _ _ hserve _ => inv_serve hserve

/-- A registered tool stays registered while its server is not removed. -/
theorem lookup_serves {tr : List (Event ServerOp.Reply)} {q : String} {entry : RegisteredTool}
    (hserves : Serves Shared.serve s tr s') (hR : s.registry.Inv)
    (hentry : s.registry.lookup q = some entry)
    (hkeeps : ∀ ev ∈ tr, ev.1.KeepsOwner entry.serverId) : s'.registry.lookup q = some entry := by
  refine (hserves.invariant (I := fun s => s.registry.Inv ∧ s.registry.lookup q = some entry)
    (P := fun ev => ev.1.KeepsOwner entry.serverId) ⟨hR, hentry⟩ hkeeps ?_).2
  rintro s₁ op r s₂ hserve hop ⟨hR₁, hentry₁⟩
  refine ⟨inv_serve hserve hR₁, ?_⟩
  rcases Shared.registry_serve hserve with ⟨call, rfl, hstep⟩ | hsame
  · rw [hstep]
    exact ToolRegistry.lookup_step hR₁ hentry₁ hop
  · rwa [hsame]

/-- A name that the registry finds has trimmed sides. -/
theorem ToolRegistry.Inv.sidesTrimmed {R : ToolRegistry} {q : String} {entry : RegisteredTool}
    (hR : R.Inv) (hentry : R.lookup q = some entry) : SidesTrimmed q := by
  rw [(hR.key_eq hentry).2]
  exact (qualify_eq_iff (parseToolName_qualify (hR.parsed hentry))).mp rfl

/-- A listed tool whose name is found by some registry is found under that name. -/
theorem ToolRegistry.Inv.exists_listed {R : ToolRegistry} {d : Tool} (hR : R.Inv)
    (hd : d ∈ R.listTools) (htrimmed : SidesTrimmed d.name) :
    ∃ entry, R.lookup d.name = some entry ∧ entry.tool = d := by
  obtain ⟨q, entry, hentry, rfl⟩ := mem_listTools_iff.mp hd
  obtain rfl := (hR.key_eq_name_iff hentry).mpr htrimmed
  exact ⟨entry, hentry, rfl⟩

/-- What happens after another event of a history, if it does not happen before. -/
theorem split_after {α : Type} {before after first rest : List α} {x y : α}
    (h : before ++ x :: after = first ++ y :: rest) (hbefore : y ∉ before) (hne : y ≠ x) :
    ∃ between, first = before ++ x :: between ∧ after = between ++ y :: rest := by
  rcases List.append_eq_append_iff.mp h with ⟨m, rfl, hm⟩ | ⟨m, rfl, hm⟩
  · cases m with
    | nil => exact absurd (List.cons.inj hm).1.symm hne
    | cons z m =>
      obtain ⟨rfl, rfl⟩ := List.cons.inj hm
      exact ⟨m, rfl, rfl⟩
  · cases m with
    | nil => exact absurd (List.cons.inj hm).1 hne
    | cons z m =>
      obtain ⟨rfl, -⟩ := List.cons.inj hm
      exact absurd (List.mem_append_right first List.mem_cons_self) hbefore

/-- A tool is called at the server that owned it when it was listed, with arguments that have passed
the listed schema unless they are `null`.  Between the list and the call anything may have been
registered, and any other server removed. -/
theorem listed_tool_reaches_its_server {tools : List Tool} {d : Tool} {server : String}
    {id : RequestId} {P : Value} {reply : Except McpError JsonRpcMessage}
    (hR : registryMachine.Reachable ToolRegistry.IsNew s.registry)
    (hrun : TasksRun router tasks s (h₁ ++ (i, ⟨.gateway .listTools, tools⟩) :: h₂ ++
      (j, ⟨.gateway (.forwardRequest server (.request id methodToolsCall (some P))), reply⟩) :: h₃)
      Q s')
    (hlater : ∀ ev, (j, ev) ∉ h₁) (hd : d ∈ tools)
    (hname : (P.get "name").bind Value.asStr = some d.name) :
    ∃ s₁ entry, Serves Shared.serve s (h₁.map Prod.snd) s₁ ∧
      s₁.registry.lookup d.name = some entry ∧ entry.tool = d ∧
      ((∀ ev ∈ h₂, ev.2.1.KeepsOwner entry.serverId) → server = entry.serverId ∧
        ((argumentsOf P).isNull = false →
          (j, ⟨.gateway (.validate d.inputSchema (argumentsOf P)), .ok ()⟩) ∈ h₂)) := by
  obtain ⟨enforcer, sessionId, message, toolName, -, hgates⟩ := passedGates_of_call hrun
  obtain rfl := Option.some.inj (hname.symm.trans hgates.name)
  obtain ⟨called, found, hserver, ⟨h₄, h₅, s₂, hsplit, hserves, hcalled⟩, hvalid⟩ := hgates.owned
  obtain ⟨m, rfl, rfl⟩ := split_after hsplit (hlater _) (fun heq => by cases heq)
  rw [List.map_append, List.map_cons, serves_append_iff] at hserves
  obtain ⟨s₁, hbefore, hafter⟩ := hserves
  obtain ⟨s₁', ⟨rfl, rfl⟩, hbetween⟩ := serves_cons_iff.mp hafter
  have hR₁ := inv_serves hbefore (ToolRegistry.inv_of_reachable hR)
  have htrimmed := (inv_serves hbetween hR₁).sidesTrimmed hcalled
  obtain ⟨entry, hentry, htool⟩ := hR₁.exists_listed hd htrimmed
  refine ⟨s₁', entry, hbefore, hentry, htool, fun hkeeps => ?_⟩
  have hstill := lookup_serves hbetween hR₁ hentry fun ev hev => by
    obtain ⟨tev, htev, rfl⟩ := List.mem_map.mp hev
    exact hkeeps tev (List.mem_append_left _ htev)
  obtain rfl := Option.some.inj (hcalled.symm.trans hstill)
  refine ⟨hserver.symm, fun hnull => ?_⟩
  have hmem := hvalid hnull
  rw [htool] at hmem
  rcases List.mem_append.mp hmem with hmem | hmem
  · exact absurd hmem (hlater _)
  · exact (List.mem_cons.mp hmem).resolve_left fun heq => by cases heq

end Runs

/-! ### A client that lists the tools and calls one -/

/-- One client lists the tools, then another one calls one of them; in between another server comes
and goes. -/
def listTasks : ℕ → Task
  | 0 => .message (.new [scopeToolsRead]) none (.request (.integer 1) methodToolsList none)
  | 1 => .message (.new [scopeToolsCall]) (some "s") echoBatch
  | 2 => .shared (.registry (.registerTool otherTool "other" 0))
  | _ => .shared (.registry (.unregisterServer "other"))

/-- The tasks, run in the order of a schedule. -/
def listRun (schedule : List ℕ) :
    History × (ℕ → Prog ServerOp ServerOp.Reply TaskOutcome) × Shared :=
  runSchedule (Shared.answer openComponents) (fun i => (listTasks i).program fullRouter) echoShared
    schedule

theorem tasksRun_listRun (schedule : List ℕ) :
    TasksRun fullRouter listTasks echoShared (listRun schedule).1 (listRun schedule).2.1
      (listRun schedule).2.2 :=
  interleaves_runSchedule (Shared.serve_answer openComponents) _ _ schedule

/-- The other server has been registered when the tools are listed, and is removed before the reply
is complete. -/
theorem tools_list_snapshot_echo :
    ∃ result tools, JsonRpcMessage.successResponse (.integer 1)
        (ToolsListResult.mk [otherTool, echoTool] none).toValue = .success (.integer 1) result ∧
      ToolsListResult.fromValue result = some { tools, nextCursor := none } ∧
      AtMoment echoShared (listRun [0, 2, 0, 3, 0, 0, 0, 0, 0, 0]).1 0
        ⟨.gateway .listTools, tools⟩ fun s₁ => tools = s₁.registry.listTools :=
  tools_list_snapshot (tasksRun_listRun [0, 2, 0, 3, 0, 0, 0, 0, 0, 0]) rfl rfl rfl

/-- What happens between the list and the forwarded call. -/
def betweenListAndCall : History := ((listRun [0, 0, 2, 3, 1, 1, 1, 1, 1, 1, 1, 1]).1.drop 2).take 9

theorem listed_tool_reaches_its_server_echo :
    ∃ s₁ entry, Serves Shared.serve echoShared ((listRun [0]).1.map Prod.snd) s₁ ∧
      s₁.registry.lookup echoTool.name = some entry ∧ entry.tool = echoTool ∧
      ((∀ ev ∈ betweenListAndCall, ev.2.1.KeepsOwner entry.serverId) → "echo" = entry.serverId ∧
        ((argumentsOf echoParams).isNull = false →
          (1, ⟨.gateway (.validate echoTool.inputSchema (argumentsOf echoParams)), .ok ()⟩) ∈
            betweenListAndCall)) := by
  have hreachable : registryMachine.Reachable ToolRegistry.IsNew echoRegistry :=
    ⟨.new, [.registerTool echoTool "echo" 0], ⟨true, [], rfl⟩, rfl⟩
  refine listed_tool_reaches_its_server hreachable
    (tasksRun_listRun [0, 0, 2, 3, 1, 1, 1, 1, 1, 1, 1, 1]) (fun ev hev => ?_)
    (List.mem_singleton_self _) rfl
  obtain ⟨hne, -⟩ := Prod.mk.inj (List.mem_singleton.mp hev)
  exact absurd hne (by decide)

end McpShield
