import Mathlib.Data.List.Perm.Basic
import McpShield.Gateway.Registry

/-!
# The two maps of the registry

The names listed by server are the registered names, each once.  So removing a server removes and
counts exactly its tools, and the tools of all servers together are all tools.
-/

namespace McpShield.ToolRegistry

/-- The names of all by-server lists. -/
def allNames (R : ToolRegistry) : List String := R.byServer.entries.flatMap fun x => x.2

/-- The tools that a server owns. -/
def ownedBy (R : ToolRegistry) (s : String) : List RegisteredTool :=
  (R.tools.entries.map Sigma.snd).filter fun e => e.serverId = s

variable {R : ToolRegistry}

/-! ## Entries and keys -/

theorem mem_tools_iff {q : String} {e : RegisteredTool} :
    ⟨q, e⟩ ∈ R.tools.entries ↔ R.lookup q = some e := by
  rw [lookup, ← Option.mem_def, AList.mem_lookup_iff]

theorem mem_keys_iff {q : String} : q ∈ R.tools.keys ↔ ∃ e, R.lookup q = some e := by
  rw [← AList.mem_keys, ← AList.lookup_isSome, Option.isSome_iff_exists, lookup]

theorem namesOf_of_mem {x : Σ _ : String, List String} (hx : x ∈ R.byServer.entries) :
    R.namesOf x.1 = x.2 := by
  have hlookup : R.byServer.lookup x.1 = some x.2 := AList.mem_lookup_iff.mpr hx
  rw [namesOf, hlookup, Option.getD_some]

theorem allNames_eq : R.allNames = R.byServer.keys.flatMap R.namesOf := by
  rw [allNames, AList.keys, List.keys, List.flatMap_map]
  exact List.flatMap_congr fun x hx => (namesOf_of_mem hx).symm

theorem mem_keys_of_mem_namesOf {s q : String} (h : q ∈ R.namesOf s) : s ∈ R.byServer.keys := by
  rw [← AList.mem_keys, ← AList.lookup_isSome]
  cases hs : R.byServer.lookup s with
  | some names => rfl
  | none => simp [namesOf, hs] at h

/-! ## The listed names -/

theorem Inv.mem_allNames (hR : R.Inv) {q : String} :
    q ∈ R.allNames ↔ ∃ e, R.lookup q = some e := by
  rw [allNames_eq, List.mem_flatMap]
  constructor
  · rintro ⟨s, -, hq⟩
    obtain ⟨e, he, -⟩ := hR.mem_namesOf.mp hq
    exact ⟨e, he⟩
  · rintro ⟨e, he⟩
    have hq : q ∈ R.namesOf e.serverId := hR.mem_namesOf.mpr ⟨e, he, rfl⟩
    exact ⟨e.serverId, mem_keys_of_mem_namesOf hq, hq⟩

theorem Inv.nodup_allNames (hR : R.Inv) : R.allNames.Nodup := by
  rw [allNames_eq, List.nodup_flatMap]
  refine ⟨fun s _ => hR.nodup s, R.byServer.keys_nodup.imp fun {s s'} hne => ?_⟩
  -- a name that two servers list belongs to both
  intro q hq hq'
  obtain ⟨e, he, hs⟩ := hR.mem_namesOf.mp hq
  obtain ⟨e', he', hs'⟩ := hR.mem_namesOf.mp hq'
  obtain rfl := Option.some.inj (he.symm.trans he')
  exact hne (hs.symm.trans hs')

theorem Inv.keys_perm (hR : R.Inv) : R.tools.keys.Perm R.allNames := by
  rw [List.perm_ext_iff_of_nodup R.tools.keys_nodup hR.nodup_allNames]
  intro q
  rw [mem_keys_iff, hR.mem_allNames]

/-! ## Listing -/

/-- The tool under a name. -/
def toolAt (R : ToolRegistry) (q : String) : Option Tool := (R.lookup q).map RegisteredTool.tool

theorem listTools_eq : R.listTools = R.tools.keys.filterMap R.toolAt := by
  rw [listTools, AList.keys, List.keys, List.filterMap_map, ← List.filterMap_eq_map]
  refine List.filterMap_congr fun x hx => ?_
  have hlookup : R.lookup x.1 = some x.2 := mem_tools_iff.mp hx
  simp [toolAt, hlookup]

/-- The tools are those of all servers together. -/
theorem Inv.listTools_perm (hR : R.Inv) :
    R.listTools.Perm (R.byServer.keys.flatMap R.listToolsByServer) := by
  have hperm := hR.keys_perm.filterMap R.toolAt
  rw [← listTools_eq, allNames_eq, List.filterMap_flatMap] at hperm
  exact hperm

theorem listToolsByServer_eq_nil {s : String} (h : s ∉ R.byServer.keys) :
    R.listToolsByServer s = [] := by
  have hnames : R.namesOf s = [] := by
    rw [List.eq_nil_iff_forall_not_mem]
    exact fun q hq => h (mem_keys_of_mem_namesOf hq)
  rw [listToolsByServer, hnames, List.filterMap_nil]

/-! ## Removing -/

theorem Inv.map_qualifiedName (hR : R.Inv) :
    (R.tools.entries.map Sigma.snd).map RegisteredTool.qualifiedName = R.tools.keys := by
  rw [AList.keys, List.keys, List.map_map]
  exact List.map_congr_left fun x hx => (hR.key_eq (mem_tools_iff.mp hx)).1

theorem Inv.mem_map_ownedBy (hR : R.Inv) {s q : String} :
    q ∈ (R.ownedBy s).map RegisteredTool.qualifiedName ↔
      ∃ e, R.lookup q = some e ∧ e.serverId = s := by
  simp only [ownedBy, List.mem_map, List.mem_filter, decide_eq_true_eq]
  constructor
  · rintro ⟨_, ⟨⟨⟨q', e⟩, hmem, rfl⟩, hs⟩, rfl⟩
    have he : R.lookup q' = some e := mem_tools_iff.mp hmem
    obtain ⟨rfl, -⟩ := hR.key_eq he
    exact ⟨e, he, hs⟩
  · rintro ⟨e, he, hs⟩
    exact ⟨e, ⟨⟨⟨q, e⟩, mem_tools_iff.mpr he, rfl⟩, hs⟩, (hR.key_eq he).1⟩

/-- The names listed under a server are those of its tools. -/
theorem Inv.namesOf_perm (hR : R.Inv) (s : String) :
    (R.namesOf s).Perm ((R.ownedBy s).map RegisteredTool.qualifiedName) := by
  have hnodup : ((R.ownedBy s).map RegisteredTool.qualifiedName).Nodup := by
    have hsub : List.Sublist ((R.ownedBy s).map RegisteredTool.qualifiedName) R.tools.keys := by
      rw [← hR.map_qualifiedName]
      exact List.filter_sublist.map _
    exact hsub.nodup R.tools.keys_nodup
  rw [List.perm_ext_iff_of_nodup (hR.nodup s) hnodup]
  intro q
  rw [hR.mem_namesOf, hR.mem_map_ownedBy]

theorem unregisterServer_fst (R : ToolRegistry) (s : String) :
    (R.unregisterServer s).1 = (R.namesOf s).length := by
  unfold unregisterServer namesOf
  cases R.byServer.lookup s <;> rfl

theorem Inv.lookup_unregisterServer_iff (hR : R.Inv) {s q : String} {e : RegisteredTool} :
    (R.unregisterServer s).2.lookup q = some e ↔ R.lookup q = some e ∧ e.serverId ≠ s := by
  constructor
  · intro h
    have he := lookup_of_unregisterServer h
    refine ⟨he, fun hs => ?_⟩
    have hmem : q ∈ R.namesOf s := hR.mem_namesOf.mpr ⟨e, he, hs⟩
    rw [lookup_unregisterServer, if_pos hmem] at h
    cases h
  · rintro ⟨he, hne⟩
    exact lookup_unregisterServer_of_ne hR he hne

/-! ## The representation -/

/-- What the two maps say of each other, and what follows for the operations. -/
structure Represented (R : ToolRegistry) : Prop where
  key : ∀ q e, R.lookup q = some e → q = e.qualifiedName ∧
    e.qualifiedName = qualify e.pfx e.name ∧
      (R.allowedPrefixes ≠ [] → e.pfx ∈ R.allowedPrefixes)
  once : ∀ q e, R.lookup q = some e → R.allNames.count q = 1 ∧ q ∈ R.namesOf e.serverId
  listed : ∀ q ∈ R.allNames, ∃ e, R.lookup q = some e
  unregister_count : ∀ s, (R.unregisterServer s).1 = (R.ownedBy s).length
  unregister_lookup : ∀ s q e, (R.unregisterServer s).2.lookup q = some e ↔
    R.lookup q = some e ∧ e.serverId ≠ s
  listTools : R.listTools.Perm (R.byServer.keys.flatMap R.listToolsByServer)
  listToolsByServer : ∀ s, s ∉ R.byServer.keys → R.listToolsByServer s = []
  registerTool_error : ∀ tool s now err, (R.registerTool tool s now).1 = .error err →
    (R.registerTool tool s now).2 = R

/-- The representation invariant holds in every reachable state. -/
theorem represented_of_reachable (h : registryMachine.Reachable IsNew R) : R.Represented := by
  have hR := inv_of_reachable h
  refine
    { key := fun q e he => ⟨(hR.key_eq he).1.symm, ?_, hR.allowed he⟩
      once := fun q e he => ⟨?_, hR.mem_namesOf.mpr ⟨e, he, rfl⟩⟩
      listed := fun q hq => hR.mem_allNames.mp hq
      unregister_count := fun s => ?_
      unregister_lookup := fun s q e => hR.lookup_unregisterServer_iff
      listTools := hR.listTools_perm
      listToolsByServer := fun s => listToolsByServer_eq_nil
      registerTool_error := fun tool s now err herr => ?_ }
  · obtain ⟨hkey, hqualified⟩ := hR.key_eq he
    rw [hkey, hqualified]
  · exact List.count_eq_one_of_mem hR.nodup_allNames (hR.mem_allNames.mpr ⟨e, he⟩)
  · rw [unregisterServer_fst, (hR.namesOf_perm s).length_eq, List.length_map]
  · rcases R.registerTool_cases tool s now with ⟨err', hcase⟩ | ⟨pfx, name, -, -, -, hcase⟩
    · rw [hcase]
    · rw [hcase] at herr
      cases herr

/-- A tool of a name. -/
def toolNamed (name : String) : Tool :=
  { name, description := none, inputSchema := .emptyObject, annotations := none }

/-- Two servers register tools, one of them the name that the other has; one server goes and comes
back. -/
def twoServers : List RegistryOp :=
  [.registerTool (toolNamed "com.example:search") "a" 0,
    .registerTool (toolNamed " com.example: search") "b" 1,
    .registerTool (toolNamed "org.other:fetch") "b" 2,
    .unregisterServer "a",
    .registerTool (toolNamed "com.example:search") "b" 3]

theorem represented_twoServers : Represented (registryMachine.run .new twoServers) :=
  represented_of_reachable ⟨.new, twoServers, ⟨true, [], rfl⟩, rfl⟩

example : (registryMachine.run .new twoServers).allNames =
    ["org.other:fetch", "com.example:search"] := by decide +kernel

end McpShield.ToolRegistry
