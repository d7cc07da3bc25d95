import Mathlib.Data.List.AList
import McpShield.Error
import McpShield.Lib.Machine
import McpShield.Protocol.Message

/-!
# The tool registry

Tools are registered under qualified names `prefix:name` and belong to the server that registered
them.  Two maps are kept: the tools by qualified name, and the names by server.  The invariant `Inv`
ties the second to the first: the names listed under a server are exactly those of its tools.
-/

namespace McpShield

def maxToolNameLength : ℕ := 128
def minToolNameLength : ℕ := 1

/-- A registered tool with its origin. -/
structure RegisteredTool where
  qualifiedName : String
  pfx : String
  name : String
  tool : Tool
  serverId : String
  registeredAt : DateTime

/-- The registry.  The order of the entries of a map is its iteration order. -/
structure ToolRegistry where
  tools : AList fun _ : String => RegisteredTool
  byServer : AList fun _ : String => List String
  enforcePrefixFormat : Bool
  allowedPrefixes : List String

/-! ## Tool names -/

/-- The form of a reverse-DNS prefix. -/
def checkPrefixFormat (pfx : String) : Except McpError Unit :=
  if !Str.containsChar pfx '.' then .error (.registryCollision
    s!"Tool prefix '{pfx}' must contain at least one dot (reverse DNS format, e.g., 'com.example')")
  else if !pfx.toList.all fun c =>
      Str.isAsciiLowercase c || Str.isAsciiDigit c || c == '-' || c == '.' then
    .error (.registryCollision
      s!"Tool prefix '{pfx}' contains invalid characters. Use only lowercase letters, digits, hyphens, and dots.")
  else .ok ()

/-- The length and the characters of the name within a prefix. -/
def checkNameFormat (name : String) : Except McpError Unit :=
  if Str.len name < minToolNameLength ∨ Str.len name > maxToolNameLength then
    .error (.registryCollision
      s!"Tool name '{name}' length must be between {minToolNameLength} and {maxToolNameLength} characters")
  else if !name.toList.all fun c =>
      Str.isAsciiLowercase c || Str.isAsciiDigit c || c == '_' then
    .error (.registryCollision
      s!"Tool name '{name}' contains invalid characters. Use only lowercase letters, digits, and underscores.")
  else .ok ()

/-- Parse a tool name into its prefix and the name within it. -/
def parseToolName (rawName : String) (enforcePrefix : Bool) : Except McpError (String × String) :=
  match Str.splitn2 rawName ':' with
  | [p, n] =>
      let pfx := Str.trim p
      let name := Str.trim n
      if pfx = "" then .error (.registryCollision "Tool prefix cannot be empty")
      else if name = "" then
        .error (.registryCollision "Tool name within prefix cannot be empty")
      else do
        if enforcePrefix then checkPrefixFormat pfx
        checkNameFormat name
        return (pfx, name)
  | _ => .error (.registryCollision
      s!"Tool name '{rawName}' must use qualified format 'prefix:name' (e.g., 'com.example:search'). Underscore-only concatenation is not allowed.")

/-- The qualified name. -/
def qualify (pfx name : String) : String := s!"{pfx}:{name}"

theorem qualify_eq (pfx name : String) :
    qualify pfx name = pfx ++ String.singleton ':' ++ name := rfl

/-- What a parsed name is: the two trimmed sides of the first colon, both in form. -/
theorem parseToolName_eq_ok_iff {rawName : String} {enforcePrefix : Bool} {pfx name : String} :
    parseToolName rawName enforcePrefix = .ok (pfx, name) ↔
      ∃ rest, Str.after rawName ':' = some rest ∧ pfx = Str.trim (Str.before rawName ':') ∧
        name = Str.trim rest ∧ pfx ≠ "" ∧ name ≠ "" ∧
        (enforcePrefix = true → checkPrefixFormat pfx = .ok ()) ∧
        checkNameFormat name = .ok () := by
  unfold parseToolName Str.splitn2
  cases hafter : Str.after rawName ':' with
  | none => simp
  | some rest =>
    simp only [Option.toList_some]
    by_cases hp : Str.trim (Str.before rawName ':') = ""
    · simp +contextual [hp]
    · by_cases hn : Str.trim rest = ""
      · simp +contextual [hp, hn]
      · simp only [hp, hn, if_false]
        constructor
        · intro h
          cases enforcePrefix <;> cases hcp : checkPrefixFormat (Str.trim (Str.before rawName ':')) <;>
            cases hcn : checkNameFormat (Str.trim rest) <;>
            simp [hcp, hcn, bind, Except.bind, pure, Except.pure] at h <;>
            obtain ⟨rfl, rfl⟩ := h <;> exact ⟨rest, rfl, rfl, rfl, hp, hn, by simp [hcp], hcn⟩
        · rintro ⟨rest', hrest, rfl, rfl, -, -, hcp, hcn⟩
          obtain rfl := Option.some.inj hrest
          cases enforcePrefix
          · simp [hcn, bind, Except.bind, pure, Except.pure]
          · simp [hcp rfl, hcn, bind, Except.bind, pure, Except.pure]

/-- The prefix of a parsed name has no colon. -/
theorem not_mem_of_parseToolName {rawName : String} {enforcePrefix : Bool} {pfx name : String}
    (h : parseToolName rawName enforcePrefix = .ok (pfx, name)) : ':' ∉ pfx.toList := by
  obtain ⟨rest, -, rfl, -⟩ := parseToolName_eq_ok_iff.mp h
  exact fun hmem => Str.not_mem_before rawName ':' (Str.mem_of_mem_trim hmem)

namespace ToolRegistry

/-! ## Operations -/

/-- A registry without tools. -/
def withConfig (enforcePrefixFormat : Bool) (allowedPrefixes : List String) : ToolRegistry :=
  { tools := ∅, byServer := ∅, enforcePrefixFormat, allowedPrefixes }

/-- The registry with the default configuration. -/
def new : ToolRegistry := withConfig true []

/-- The names listed under a server. -/
def namesOf (R : ToolRegistry) (serverId : String) : List String :=
  (R.byServer.lookup serverId).getD []

/-- The registry with a tool added under a qualified name. -/
def addTool (R : ToolRegistry) (entry : RegisteredTool) : ToolRegistry :=
  { R with
    tools := R.tools.insert entry.qualifiedName entry
    byServer :=
      R.byServer.insert entry.serverId (R.namesOf entry.serverId ++ [entry.qualifiedName]) }

/-- Register a tool of an upstream server. -/
def registerTool (R : ToolRegistry) (tool : Tool) (serverId : String) (now : DateTime) :
    Except McpError Unit × ToolRegistry :=
  match parseToolName tool.name R.enforcePrefixFormat with
  | .error e => (.error e, R)
  | .ok (pfx, name) =>
      if R.allowedPrefixes ≠ [] ∧ pfx ∉ R.allowedPrefixes then
        (.error (.registryCollision
          s!"Tool prefix '{pfx}' is not in the allowed prefixes list"), R)
      else
        let qualifiedName := qualify pfx name
        match R.tools.lookup qualifiedName with
        | some existing =>
            (.error (.registryCollision
              s!"Tool name collision: '{qualifiedName}' is already registered by server '{existing.serverId}'. Rejecting registration from server '{serverId}'. This prevents potential tool hijacking attacks."), R)
        | none =>
            (.ok (), R.addTool { qualifiedName, pfx, name, tool, serverId, registeredAt := now })

/-- Look up a tool by its qualified name. -/
def lookup (R : ToolRegistry) (qualifiedName : String) : Option RegisteredTool :=
  R.tools.lookup qualifiedName

/-- Look up a tool by any name; a name with an underscore and no colon is an error. -/
def lookupAny (R : ToolRegistry) (name : String) : Except McpError (Option RegisteredTool) :=
  match R.lookup name with
  | some tool => .ok (some tool)
  | none =>
      if Str.containsChar name '_' && !Str.containsChar name ':' then
        .error (.registryCollision
          s!"Ambiguous tool name '{name}' uses underscore concatenation without a colon separator. This format is not allowed as it can be exploited for tool name collision attacks. Use the qualified format 'prefix:name' instead (e.g., 'com.example:tool_name').")
      else .ok none

/-- All tools. -/
def listTools (R : ToolRegistry) : List Tool := R.tools.entries.map fun e => e.2.tool

/-- The tools of one server. -/
def listToolsByServer (R : ToolRegistry) (serverId : String) : List Tool :=
  (R.namesOf serverId).filterMap fun name => (R.tools.lookup name).map RegisteredTool.tool

/-- The map without a list of names. -/
def eraseAll (tools : AList fun _ : String => RegisteredTool) (names : List String) :
    AList fun _ : String => RegisteredTool :=
  names.foldl (fun tools name => tools.erase name) tools

/-- Remove all tools listed under a server; the answer is their number. -/
def unregisterServer (R : ToolRegistry) (serverId : String) : ℕ × ToolRegistry :=
  match R.byServer.lookup serverId with
  | some names =>
      (names.length,
        { R with byServer := R.byServer.erase serverId, tools := eraseAll R.tools names })
  | none => (0, R)

/-- The number of registered tools. -/
def count (R : ToolRegistry) : ℕ := R.tools.entries.length

/-- Remove all tools. -/
def clear (R : ToolRegistry) : ToolRegistry := { R with tools := ∅, byServer := ∅ }

end ToolRegistry

/-- The operations on a registry. -/
inductive RegistryOp where
  | registerTool (tool : Tool) (serverId : String) (now : DateTime)
  | lookup (qualifiedName : String)
  | lookupAny (name : String)
  | listTools
  | listToolsByServer (serverId : String)
  | unregisterServer (serverId : String)
  | count
  | clear

/-- The answers of a registry. -/
inductive RegistryOut where
  | registered (result : Except McpError Unit)
  | found (tool : Option RegisteredTool)
  | foundAny (result : Except McpError (Option RegisteredTool))
  | tools (tools : List Tool)
  | number (n : ℕ)
  | done

/-- The registry as a machine. -/
def registryMachine : Machine ToolRegistry RegistryOp RegistryOut where
  step R
    | .registerTool tool serverId now =>
        let (result, R') := R.registerTool tool serverId now
        (.registered result, R')
    | .lookup q => (.found (R.lookup q), R)
    | .lookupAny name => (.foundAny (R.lookupAny name), R)
    | .listTools => (.tools R.listTools, R)
    | .listToolsByServer serverId => (.tools (R.listToolsByServer serverId), R)
    | .unregisterServer serverId =>
        let (n, R') := R.unregisterServer serverId
        (.number n, R')
    | .count => (.number R.count, R)
    | .clear => (.done, R.clear)

namespace ToolRegistry

/-- A registry as it is created. -/
def IsNew (R : ToolRegistry) : Prop :=
  ∃ enforcePrefixFormat allowedPrefixes, R = withConfig enforcePrefixFormat allowedPrefixes

/-! ## What one operation does -/

/-- A registration is refused and changes nothing, or adds the tool under a new name. -/
theorem registerTool_cases (R : ToolRegistry) (tool : Tool) (serverId : String) (now : DateTime) :
    (∃ err, R.registerTool tool serverId now = (.error err, R)) ∨
      ∃ pfx name, parseToolName tool.name R.enforcePrefixFormat = .ok (pfx, name) ∧
        (R.allowedPrefixes ≠ [] → pfx ∈ R.allowedPrefixes) ∧
        R.lookup (qualify pfx name) = none ∧
        R.registerTool tool serverId now = (.ok (), R.addTool
          { qualifiedName := qualify pfx name, pfx, name, tool, serverId, registeredAt := now }) := by
  unfold registerTool
  cases hparse : parseToolName tool.name R.enforcePrefixFormat with
  | error e => exact .inl ⟨e, rfl⟩
  | ok parsed =>
    obtain ⟨pfx, name⟩ := parsed
    by_cases hallow : R.allowedPrefixes ≠ [] ∧ pfx ∉ R.allowedPrefixes
    · exact .inl ⟨_, if_pos hallow⟩
    · simp only [if_neg hallow]
      cases hfree : R.tools.lookup (qualify pfx name) with
      | some existing => exact .inl ⟨_, rfl⟩
      | none => exact .inr ⟨pfx, name, rfl, by simpa using hallow, hfree, rfl⟩

/-- A name that is taken cannot be registered again, by any server and in any spelling. -/
theorem registerTool_error_of_taken {R : ToolRegistry} {tool : Tool} {pfx name : String}
    (hparse : parseToolName tool.name R.enforcePrefixFormat = .ok (pfx, name))
    (htaken : (R.lookup (qualify pfx name)).isSome) (serverId : String) (now : DateTime) :
    ∃ err, R.registerTool tool serverId now = (.error err, R) := by
  rcases R.registerTool_cases tool serverId now with herr | ⟨pfx', name', hparse', -, hfree, -⟩
  · exact herr
  · obtain ⟨rfl, rfl⟩ : pfx = pfx' ∧ name = name' := by simpa [hparse] using hparse'
    simp [hfree] at htaken

theorem lookup_addTool (R : ToolRegistry) (entry : RegisteredTool) (q : String) :
    (R.addTool entry).lookup q = if q = entry.qualifiedName then some entry else R.lookup q := by
  by_cases hq : q = entry.qualifiedName
  · subst hq
    simp [lookup, addTool]
  · simp [lookup, addTool, hq, AList.lookup_insert_ne hq]

theorem namesOf_addTool (R : ToolRegistry) (entry : RegisteredTool) (s : String) :
    (R.addTool entry).namesOf s =
      if s = entry.serverId then R.namesOf s ++ [entry.qualifiedName] else R.namesOf s := by
  by_cases hs : s = entry.serverId
  · subst hs
    simp [namesOf, addTool]
  · simp [namesOf, addTool, hs, AList.lookup_insert_ne hs]

theorem lookup_eraseAll (names : List String) (tools : AList fun _ : String => RegisteredTool)
    (q : String) :
    (eraseAll tools names).lookup q = if q ∈ names then none else tools.lookup q := by
  induction names generalizing tools with
  | nil => simp [eraseAll]
  | cons name names ih =>
    have hstep : eraseAll tools (name :: names) = eraseAll (tools.erase name) names := rfl
    rw [hstep, ih]
    by_cases hq : q = name
    · subst hq
      simp
    · simp [hq, AList.lookup_erase_ne hq]

theorem lookup_unregisterServer (R : ToolRegistry) (s q : String) :
    (R.unregisterServer s).2.lookup q = if q ∈ R.namesOf s then none else R.lookup q := by
  unfold unregisterServer namesOf
  cases hs : R.byServer.lookup s with
  | none => simp
  | some names => simpa [lookup] using lookup_eraseAll names R.tools q

theorem namesOf_unregisterServer (R : ToolRegistry) (s s' : String) :
    (R.unregisterServer s).2.namesOf s' = if s' = s then [] else R.namesOf s' := by
  unfold unregisterServer namesOf
  cases hs : R.byServer.lookup s with
  | none =>
    by_cases h : s' = s
    · subst h
      simp [hs]
    · simp [h]
  | some names =>
    by_cases h : s' = s
    · subst h
      simp
    · simp [h, AList.lookup_erase_ne h]

/-! ## The invariant -/

/-- Every entry is filed under its own qualified name, which is that of the parsed name of its tool,
with an allowed prefix, and the names listed under a server are, once each, those of its tools. -/
structure Inv (R : ToolRegistry) : Prop where
  key_eq : ∀ {q e}, R.lookup q = some e → e.qualifiedName = q ∧ q = qualify e.pfx e.name
  parsed : ∀ {q e}, R.lookup q = some e →
    parseToolName e.tool.name R.enforcePrefixFormat = .ok (e.pfx, e.name)
  allowed : ∀ {q e}, R.lookup q = some e → R.allowedPrefixes ≠ [] → e.pfx ∈ R.allowedPrefixes
  mem_namesOf : ∀ {s q}, q ∈ R.namesOf s ↔ ∃ e, R.lookup q = some e ∧ e.serverId = s
  nodup : ∀ s, (R.namesOf s).Nodup

theorem Inv.withConfig (enforcePrefixFormat : Bool) (allowedPrefixes : List String) :
    (withConfig enforcePrefixFormat allowedPrefixes).Inv where
  key_eq h := by simp [lookup, ToolRegistry.withConfig] at h
  parsed h := by simp [lookup, ToolRegistry.withConfig] at h
  allowed h := by simp [lookup, ToolRegistry.withConfig] at h
  mem_namesOf := by simp [lookup, namesOf, ToolRegistry.withConfig]
  nodup s := by simp [namesOf, ToolRegistry.withConfig]

/-- An entry under its new name is the added one, any other entry is an old one. -/
theorem lookup_addTool_cases {R : ToolRegistry} {entry e : RegisteredTool} {q : String}
    (h : (R.addTool entry).lookup q = some e) :
    (q = entry.qualifiedName ∧ e = entry) ∨ R.lookup q = some e := by
  rw [lookup_addTool] at h
  split at h
  · next hq => exact .inl ⟨hq, (Option.some.inj h).symm⟩
  · exact .inr h

theorem Inv.addTool {R : ToolRegistry} (hR : R.Inv) {entry : RegisteredTool}
    (hkey : entry.qualifiedName = qualify entry.pfx entry.name)
    (hparsed : parseToolName entry.tool.name R.enforcePrefixFormat = .ok (entry.pfx, entry.name))
    (hallowed : R.allowedPrefixes ≠ [] → entry.pfx ∈ R.allowedPrefixes)
    (hfree : R.lookup entry.qualifiedName = none) : (R.addTool entry).Inv where
  key_eq h := by
    rcases lookup_addTool_cases h with ⟨rfl, rfl⟩ | h
    · exact ⟨rfl, hkey⟩
    · exact hR.key_eq h
  parsed h := by
    rcases lookup_addTool_cases h with ⟨rfl, rfl⟩ | h
    · exact hparsed
    · exact hR.parsed h
  allowed h := by
    rcases lookup_addTool_cases h with ⟨rfl, rfl⟩ | h
    · exact hallowed
    · exact hR.allowed h
  mem_namesOf {s q} := by
    have hold := hR.mem_namesOf (s := s) (q := q)
    rw [lookup_addTool, namesOf_addTool]
    by_cases hq : q = entry.qualifiedName
    · subst hq
      simp only [hfree, reduceCtorEq, false_and, exists_false, iff_false] at hold
      by_cases hs : s = entry.serverId <;> simp [hs, hold, eq_comm]
    · by_cases hs : s = entry.serverId
      · simp only [if_pos hs, List.mem_append, List.mem_singleton, hq, or_false, if_false, hold]
      · simp only [if_neg hs, if_neg hq, hold]
  nodup s := by
    rw [namesOf_addTool]
    split
    · refine List.nodup_append.mpr ⟨hR.nodup s, by simp, ?_⟩
      rintro q hq q' hq' rfl
      obtain rfl : q = entry.qualifiedName := by simpa using hq'
      obtain ⟨e, he, -⟩ := hR.mem_namesOf.mp hq
      simp [hfree] at he
    · exact hR.nodup s

theorem Inv.registerTool {R : ToolRegistry} (hR : R.Inv) (tool : Tool) (serverId : String)
    (now : DateTime) : (R.registerTool tool serverId now).2.Inv := by
  rcases R.registerTool_cases tool serverId now with
    ⟨err, h⟩ | ⟨pfx, name, hparse, hallowed, hfree, h⟩
  · rw [h]
    exact hR
  · rw [h]
    exact hR.addTool rfl hparse hallowed hfree

/-- What is left after a removal was there before. -/
theorem lookup_of_unregisterServer {R : ToolRegistry} {s q : String} {e : RegisteredTool}
    (h : (R.unregisterServer s).2.lookup q = some e) : R.lookup q = some e := by
  rw [lookup_unregisterServer] at h
  split at h
  · simp at h
  · exact h

theorem unregisterServer_config (R : ToolRegistry) (s : String) :
    (R.unregisterServer s).2.enforcePrefixFormat = R.enforcePrefixFormat ∧
      (R.unregisterServer s).2.allowedPrefixes = R.allowedPrefixes := by
  unfold ToolRegistry.unregisterServer
  cases R.byServer.lookup s <;> exact ⟨rfl, rfl⟩

theorem Inv.unregisterServer {R : ToolRegistry} (hR : R.Inv) (s : String) :
    (R.unregisterServer s).2.Inv where
  key_eq h := hR.key_eq (lookup_of_unregisterServer h)
  parsed h := by
    rw [(unregisterServer_config R s).1]
    exact hR.parsed (lookup_of_unregisterServer h)
  allowed h := by
    rw [(unregisterServer_config R s).2]
    exact hR.allowed (lookup_of_unregisterServer h)
  mem_namesOf {s' q} := by
    rw [lookup_unregisterServer, namesOf_unregisterServer]
    by_cases hq : q ∈ R.namesOf s
    · obtain ⟨e, he, hes⟩ := hR.mem_namesOf.mp hq
      by_cases hs : s' = s
      · simp [hs, hq]
      · have hne : q ∉ R.namesOf s' := fun hmem => by
          obtain ⟨e', he', hes'⟩ := hR.mem_namesOf.mp hmem
          obtain rfl := Option.some.inj (he.symm.trans he')
          exact hs (hes'.symm.trans hes)
        simp [hs, hq, hne]
    · by_cases hs : s' = s
      · subst hs
        simpa [hq] using (not_congr hR.mem_namesOf).mp hq
      · simp [hs, hq, hR.mem_namesOf]
  nodup s' := by
    rw [namesOf_unregisterServer]
    split
    · exact List.nodup_nil
    · exact hR.nodup s'

theorem Inv.clear (R : ToolRegistry) : R.clear.Inv :=
  Inv.withConfig R.enforcePrefixFormat R.allowedPrefixes

theorem Inv.step {R : ToolRegistry} (hR : R.Inv) (op : RegistryOp) :
    (registryMachine.step R op).2.Inv := by
  cases op with
  | registerTool tool serverId now => exact hR.registerTool tool serverId now
  | unregisterServer serverId => exact hR.unregisterServer serverId
  | clear => exact Inv.clear R
  | lookup | lookupAny | listTools | listToolsByServer | count => exact hR

/-- The invariant holds in every reachable state. -/
theorem inv_of_reachable {R : ToolRegistry} (h : registryMachine.Reachable IsNew R) : R.Inv := by
  refine h.induction (fun R h => ?_) fun R op hR => hR.step op
  obtain ⟨enforcePrefixFormat, allowedPrefixes, rfl⟩ := h
  exact Inv.withConfig enforcePrefixFormat allowedPrefixes

/-! ## Ownership -/

/-- An operation that cannot end the ownership of a tool of server `s`. -/
def Keeps (s : String) (op : RegistryOp) : Prop := op ≠ .unregisterServer s ∧ op ≠ .clear

/-- The removal of one server's tools leaves those of the others. -/
theorem lookup_unregisterServer_of_ne {R : ToolRegistry} (hR : R.Inv) {q s : String}
    {e : RegisteredTool} (he : R.lookup q = some e) (hne : e.serverId ≠ s) :
    (R.unregisterServer s).2.lookup q = some e := by
  have hnot : q ∉ R.namesOf s := fun hq => by
    obtain ⟨e', he', hs⟩ := hR.mem_namesOf.mp hq
    obtain rfl := Option.some.inj (he.symm.trans he')
    exact hne hs
  rw [lookup_unregisterServer, if_neg hnot, he]

/-- One step keeps the entry of a tool, unless it removes its server's tools or all tools. -/
theorem lookup_step {R : ToolRegistry} (hR : R.Inv) {q : String} {e : RegisteredTool}
    (he : R.lookup q = some e) {op : RegistryOp} (hop : Keeps e.serverId op) :
    (registryMachine.step R op).2.lookup q = some e := by
  cases op with
  | registerTool tool serverId now =>
    change (R.registerTool tool serverId now).2.lookup q = some e
    rcases R.registerTool_cases tool serverId now with ⟨err, h⟩ | ⟨pfx, name, -, -, hfree, h⟩
    · rw [h, he]
    · have hne : q ≠ qualify pfx name := fun hq => by simp [← hq, he] at hfree
      rw [h, lookup_addTool, if_neg hne, he]
  | unregisterServer serverId =>
    refine lookup_unregisterServer_of_ne hR he fun hs => hop.1 ?_
    rw [hs]
  | clear => exact absurd rfl hop.2
  | lookup | lookupAny | listTools | listToolsByServer | count => exact he

/-- A run keeps the entry of a tool, unless it removes its server's tools or all tools. -/
theorem lookup_run {R : ToolRegistry} (hR : R.Inv) {q : String} {e : RegisteredTool}
    (he : R.lookup q = some e) {ops : List RegistryOp} (hops : ∀ op ∈ ops, Keeps e.serverId op) :
    (registryMachine.run R ops).lookup q = some e :=
  (registryMachine.run_induction (I := fun R => R.Inv ∧ R.lookup q = some e)
    (fun _ op hop hI => ⟨hI.1.step op, lookup_step hI.1 hI.2 hop⟩) ⟨hR, he⟩ hops).2

theorem lookup_of_lookupAny {R : ToolRegistry} {q : String} {e : RegisteredTool}
    (h : R.lookupAny q = .ok (some e)) : R.lookup q = some e := by
  unfold lookupAny at h
  cases he : R.lookup q with
  | some e' => simpa [he] using h
  | none =>
    simp only [he] at h
    split at h <;> simp at h

end ToolRegistry

end McpShield
