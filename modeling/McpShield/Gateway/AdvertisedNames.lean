import McpShield.Gateway.RegistryLists

/-!
# Advertised names

A tool is filed under the trimmed sides of the first colon of its name and advertised under the name
as it was received.  `callable_iff` says in which reachable registries every advertised name is one
that the lookup finds.
-/

namespace McpShield.ToolRegistry

/-- Neither side of the first colon begins or ends with white space. -/
def SidesTrimmed (rawName : String) : Prop :=
  Str.trim (Str.before rawName ':') = Str.before rawName ':' ∧
    ∀ rest, Str.after rawName ':' = some rest → Str.trim rest = rest

/-- Every advertised tool is found under its advertised name, and no two have one name. -/
structure Callable (R : ToolRegistry) : Prop where
  found : ∀ d ∈ R.listTools, ∃ e, R.lookupAny d.name = .ok (some e) ∧ e.tool = d
  distinct : (R.listTools.map Tool.name).Nodup

variable {R : ToolRegistry} {rawName pfx name q : String} {e : RegisteredTool} {d : Tool}

/-- A name that the parser lets through is its qualified name exactly when its sides are trimmed. -/
theorem qualify_eq_iff {enforcePrefix : Bool}
    (hparse : parseToolName rawName enforcePrefix = .ok (pfx, name)) :
    qualify pfx name = rawName ↔ SidesTrimmed rawName := by
  obtain ⟨rest, hrest, rfl, rfl, -⟩ := parseToolName_eq_ok_iff.mp hparse
  rw [qualify_eq]
  have hfree : ':' ∉ (Str.trim (Str.before rawName ':')).toList := fun hmem =>
    Str.not_mem_before rawName ':' (Str.mem_of_mem_trim hmem)
  constructor
  · intro heq
    have hbefore : Str.before rawName ':' = Str.trim (Str.before rawName ':') :=
      (congrArg (Str.before · ':') heq).symm.trans (Str.before_append hfree)
    have hafter : Str.after rawName ':' = some (Str.trim rest) :=
      (congrArg (Str.after · ':') heq).symm.trans (Str.after_append hfree)
    refine ⟨hbefore.symm, fun rest' hrest' => ?_⟩
    obtain rfl := Option.some.inj (hrest.symm.trans hrest')
    exact Option.some.inj (hafter.symm.trans hrest)
  · rintro ⟨hbefore, hafter⟩
    rw [hbefore, hafter rest hrest]
    exact (Str.eq_of_after hrest).symm

/-! ## Entries -/

theorem mem_listTools_iff : d ∈ R.listTools ↔ ∃ q e, R.lookup q = some e ∧ e.tool = d := by
  simp only [listTools, List.mem_map, Sigma.exists, mem_tools_iff]

theorem lookupAny_eq_ok_some_iff {name : String} :
    R.lookupAny name = .ok (some e) ↔ R.lookup name = some e := by
  refine ⟨lookup_of_lookupAny, fun h => ?_⟩
  rw [lookupAny, h]

/-- The names under which an entry is filed and advertised are one exactly when the sides of the
advertised name are trimmed. -/
theorem Inv.key_eq_name_iff (hR : R.Inv) (he : R.lookup q = some e) :
    q = e.tool.name ↔ SidesTrimmed e.tool.name := by
  rw [(hR.key_eq he).2]
  exact qualify_eq_iff (hR.parsed he)

/-- Entries for one tool are filed under one name. -/
theorem Inv.key_unique (hR : R.Inv) {q' : String} {e' : RegisteredTool} (he : R.lookup q = some e)
    (he' : R.lookup q' = some e') (htool : e.tool = e'.tool) : q = q' := by
  have hparse := hR.parsed he
  rw [htool, hR.parsed he', Except.ok.injEq, Prod.mk.injEq] at hparse
  rw [(hR.key_eq he).2, (hR.key_eq he').2, hparse.1, hparse.2]

/-- A tool is found under its advertised name exactly when the sides of the name are trimmed. -/
theorem Inv.found_iff (hR : R.Inv) (hd : d ∈ R.listTools) :
    (∃ e, R.lookupAny d.name = .ok (some e) ∧ e.tool = d) ↔ SidesTrimmed d.name := by
  obtain ⟨q, e, he, rfl⟩ := mem_listTools_iff.mp hd
  rw [← hR.key_eq_name_iff he]
  constructor
  · rintro ⟨e', he', htool⟩
    exact hR.key_unique he (lookupAny_eq_ok_some_iff.mp he') htool.symm
  · intro hq
    exact ⟨e, lookupAny_eq_ok_some_iff.mpr (hq ▸ he), rfl⟩

/-- Trimmed names are the keys. -/
theorem Inv.map_name (hR : R.Inv) (h : ∀ d ∈ R.listTools, SidesTrimmed d.name) :
    R.listTools.map Tool.name = R.tools.keys := by
  rw [listTools, List.map_map, AList.keys, List.keys]
  refine List.map_congr_left fun x hx => ?_
  have he : R.lookup x.1 = some x.2 := mem_tools_iff.mp hx
  have hd : x.2.tool ∈ R.listTools := mem_listTools_iff.mpr ⟨_, _, he, rfl⟩
  exact ((hR.key_eq_name_iff he).mpr (h _ hd)).symm

/-- In a reachable registry, every advertised tool is found under its advertised name and no two
have one name exactly when no advertised name has white space at a side of its first colon. -/
theorem callable_iff (hR : registryMachine.Reachable IsNew R) :
    Callable R ↔ ∀ d ∈ R.listTools, SidesTrimmed d.name := by
  have hinv := inv_of_reachable hR
  constructor
  · exact fun h d hd => (hinv.found_iff hd).mp (h.found d hd)
  · intro h
    refine ⟨fun d hd => (hinv.found_iff hd).mpr (h d hd), ?_⟩
    rw [hinv.map_name h]
    exact R.tools.keys_nodup

/-! ## A tool that cannot be called -/

/-- A registry with one tool of a given name. -/
def oneTool (rawName : String) : ToolRegistry :=
  (new.registerTool (toolNamed rawName) "upstream" 0).2

theorem reachable_oneTool (rawName : String) :
    registryMachine.Reachable IsNew (oneTool rawName) :=
  ⟨new, [.registerTool (toolNamed rawName) "upstream" 0], ⟨true, [], rfl⟩, rfl⟩

theorem callable_iff_oneTool : Callable (oneTool "com.example:search") ↔
    ∀ d ∈ (oneTool "com.example:search").listTools, SidesTrimmed d.name :=
  callable_iff (reachable_oneTool _)

/-- The tool is advertised with the blanks of its name, and not found under that name. -/
theorem blank_not_callable :
    registryMachine.Reachable IsNew (oneTool " com.example : search") ∧
      toolNamed " com.example : search" ∈ (oneTool " com.example : search").listTools ∧
      (oneTool " com.example : search").lookupAny " com.example : search" = .ok none ∧
      ¬ Callable (oneTool " com.example : search") := by
  have hmem : toolNamed " com.example : search" ∈ (oneTool " com.example : search").listTools :=
    List.mem_singleton_self _
  have hnone : (oneTool " com.example : search").lookupAny " com.example : search" = .ok none := rfl
  refine ⟨reachable_oneTool _, hmem, hnone, fun h => ?_⟩
  obtain ⟨e, he, -⟩ := h.found _ hmem
  cases hnone.symm.trans he

end McpShield.ToolRegistry
