import McpShield.Guardrail.Registration
import McpShield.Lib.KeyedStore

/-!
# Constraint sets from a directory

The loader registers the constraint set of every TOML file of a directory, in the order in which the
file system lists them, which it does not promise to keep.  `fromDirectory_order_free_iff` says when
the order is not seen in what has been loaded.
-/

namespace McpShield

/-! ## Files -/

/-- The extension of a file: what follows the last dot of its name, if anything precedes that dot. -/
def Path.extension (path : String) : Option String :=
  let name := Path.lastComponent path
  let before := (name.rdropWhile (· ≠ '.')).dropLast
  if name = ['.', '.'] ∨ before = [] then none
  else some (String.ofList (name.rtakeWhile (· ≠ '.')))

/-- A file system that is being read: the paths of a directory, in the order in which they are
listed, and the texts of files.  An error is its text. -/
structure FileSystem where
  readDir : String → Except String (List (Except String String))
  readToString : String → Except String String

namespace ConstraintLoader

variable {E : RegexEngine} (parse : String → Except String (ToolConstraint E)) (fs : FileSystem)

/-- Load a single constraint set from a TOML file. -/
def fromFile (path : String) : Except EcpaError (ToolConstraint E) := do
  let content ← (fs.readToString path).mapError fun e => .ioError s!"Failed to read {path}: {e}"
  (parse content).mapError fun e => .parseError s!"Failed to parse {path}: {e}"

/-- Register the constraint set of an entry, if it is a TOML file. -/
def loadEntry (guardrail : RuleEcpaGuardrail E) (entry : Except String String) :
    Except EcpaError (RuleEcpaGuardrail E) := do
  let path ← entry.mapError fun e => .ioError s!"Failed to read dir entry: {e}"
  if Path.extension path = some "toml" then
    let constraint ← fromFile parse fs path
    guardrail.registerConstraints constraint
  else pure guardrail

/-- Load the constraint sets of a directory of TOML files. -/
def fromDirectory (dir : String) : Except EcpaError (RuleEcpaGuardrail E) := do
  let entries ← (fs.readDir dir).mapError fun e =>
    .ioError s!"Failed to read constraint dir: {e}"
  entries.foldlM (loadEntry parse fs) RuleEcpaGuardrail.new

/-! ## One entry -/

/-- The TOML file holds a constraint set. -/
structure Holds (path : String) (c : ToolConstraint E) : Prop where
  toml : Path.extension path = some "toml"
  read : fromFile parse fs path = .ok c

/-- An entry that can be loaded: if it is a TOML file, it holds a set that compiles. -/
def Loads (entry : Except String String) : Prop :=
  ∃ path, entry = .ok path ∧ (Path.extension path = some "toml" →
    ∃ c set, Holds parse fs path c ∧ RuleEcpaGuardrail.compiledSet c = some set)

/-- The set that an entry adds. -/
def setOf : Except String String → Option (ToolConstraint E)
  | .ok path =>
      if Path.extension path = some "toml" then
        (fromFile parse fs path).toOption.bind RuleEcpaGuardrail.compiledSet
      else none
  | .error _ => none

section Loading

variable {parse : String → Except String (ToolConstraint E)} {fs fs' : FileSystem}
  {guardrail G : RuleEcpaGuardrail E} {entry : Except String String}
  {entries : List (Except String String)} {dir path : String} {c set : ToolConstraint E}

/-- The stored set of a registration. -/
theorem registerConstraints_eq_ok_iff : guardrail.registerConstraints c = .ok G ↔
    ∃ set, RuleEcpaGuardrail.compiledSet c = some set ∧
      G.constraints = KeyedStore.put ToolConstraint.toolName guardrail.constraints set := by
  obtain ⟨stored⟩ := G
  unfold RuleEcpaGuardrail.registerConstraints RuleEcpaGuardrail.compiledSet
  cases c.predicates.mapM RuleEcpaGuardrail.compilePredicateRegex with
  | error e => simp [Except.map, Except.toOption]
  | ok ps => simp [Except.map, Except.toOption, KeyedStore.put, eq_comm]

theorem loadEntry_toml (htoml : Path.extension path = some "toml") :
    loadEntry parse fs guardrail (.ok path) =
      (fromFile parse fs path >>= guardrail.registerConstraints) := if_pos htoml

theorem loadEntry_other (hother : Path.extension path ≠ some "toml") :
    loadEntry parse fs guardrail (.ok path) = .ok guardrail := if_neg hother

theorem setOf_toml (hc : Holds parse fs path c) :
    setOf parse fs (.ok path) = RuleEcpaGuardrail.compiledSet c := by
  rw [setOf, if_pos hc.toml, hc.read]
  rfl

theorem setOf_other (hother : Path.extension path ≠ some "toml") :
    setOf parse fs (.ok path) = none := if_neg hother

/-- The sets that entries add are those of the TOML files. -/
theorem setOf_eq_some_iff : setOf parse fs entry = some set ↔
    ∃ path c, entry = .ok path ∧ Holds parse fs path c ∧
      RuleEcpaGuardrail.compiledSet c = some set := by
  constructor
  · intro h
    cases entry with
    | error e => cases h
    | ok path =>
      by_cases htoml : Path.extension path = some "toml"
      · cases hread : fromFile parse fs path with
        | error e => simp [setOf, htoml, hread, Except.toOption] at h
        | ok c => exact ⟨path, c, rfl, ⟨htoml, hread⟩, setOf_toml ⟨htoml, hread⟩ ▸ h⟩
      · rw [setOf_other htoml] at h
        cases h
  · rintro ⟨path, c, rfl, hc, hset⟩
    rw [setOf_toml hc, hset]

/-- An entry that can be loaded adds its set. -/
theorem loadEntry_eq_ok_iff : loadEntry parse fs guardrail entry = .ok G ↔
    Loads parse fs entry ∧ G.constraints = KeyedStore.putAll ToolConstraint.toolName
      guardrail.constraints (setOf parse fs entry).toList := by
  cases entry with
  | error e =>
    refine iff_of_false nofun ?_
    rintro ⟨⟨path, hpath, -⟩, -⟩
    cases hpath
  | ok path =>
    by_cases htoml : Path.extension path = some "toml"
    · rw [loadEntry_toml htoml, bind_eq_ok_iff]
      constructor
      · rintro ⟨c, hread, hregister⟩
        obtain ⟨set, hset, hG⟩ := registerConstraints_eq_ok_iff.mp hregister
        have hc : Holds parse fs path c := ⟨htoml, hread⟩
        refine ⟨⟨path, rfl, fun _ => ⟨c, set, hc, hset⟩⟩, ?_⟩
        rw [setOf_toml hc, hset, hG]
        rfl
      · rintro ⟨⟨path', hpath, hloads⟩, hG⟩
        obtain rfl := Except.ok.inj hpath
        obtain ⟨c, set, hc, hset⟩ := hloads htoml
        rw [setOf_toml hc, hset] at hG
        exact ⟨c, hc.read, registerConstraints_eq_ok_iff.mpr ⟨set, hset, hG⟩⟩
    · rw [loadEntry_other htoml, setOf_other htoml, Except.ok.injEq]
      constructor
      · rintro rfl
        exact ⟨⟨path, rfl, fun h => absurd h htoml⟩, rfl⟩
      · rintro ⟨-, hG⟩
        cases G
        cases guardrail
        exact congrArg _ hG.symm

/-- The entries are loaded in order, if all of them can be. -/
theorem foldlM_loadEntry_eq_ok_iff : entries.foldlM (loadEntry parse fs) guardrail = .ok G ↔
    (∀ entry ∈ entries, Loads parse fs entry) ∧
      G.constraints = KeyedStore.putAll ToolConstraint.toolName guardrail.constraints
        (entries.filterMap (setOf parse fs)) := by
  induction entries generalizing guardrail with
  | nil =>
    obtain ⟨stored⟩ := G
    obtain ⟨stored'⟩ := guardrail
    simp [KeyedStore.putAll, pure, Except.pure, eq_comm]
  | cons entry entries ih =>
    rw [List.foldlM_cons, bind_eq_ok_iff]
    simp only [loadEntry_eq_ok_iff, ih, List.forall_mem_cons]
    have hput : KeyedStore.putAll ToolConstraint.toolName guardrail.constraints
        ((entry :: entries).filterMap (setOf parse fs)) =
        KeyedStore.putAll ToolConstraint.toolName (KeyedStore.putAll ToolConstraint.toolName
          guardrail.constraints (setOf parse fs entry).toList)
          (entries.filterMap (setOf parse fs)) := by
      cases hset : setOf parse fs entry with
      | none => rw [List.filterMap_cons_none hset]; rfl
      | some set => rw [List.filterMap_cons_some hset]; rfl
    rw [hput]
    constructor
    · rintro ⟨next, ⟨hentry, hnext⟩, hentries, hG⟩
      exact ⟨⟨hentry, hentries⟩, hnext ▸ hG⟩
    · rintro ⟨⟨hentry, hentries⟩, hG⟩
      exact ⟨⟨_⟩, ⟨hentry, rfl⟩, hentries, hG⟩

/-! ## The directory -/

/-- A directory whose entries are listed in another order. -/
def Reordered (dir : String) (fs fs' : FileSystem) : Prop :=
  fs'.readToString = fs.readToString ∧ ∃ entries entries', fs.readDir dir = .ok entries ∧
    fs'.readDir dir = .ok entries' ∧ entries'.Perm entries

/-- The sets of the directory are loaded exactly when every TOML file holds one. -/
theorem fromDirectory_eq_ok_iff : fromDirectory parse fs dir = .ok G ↔
    ∃ entries, fs.readDir dir = .ok entries ∧ (∀ entry ∈ entries, Loads parse fs entry) ∧
      G.constraints = KeyedStore.putAll ToolConstraint.toolName ∅
        (entries.filterMap (setOf parse fs)) := by
  unfold fromDirectory
  simp only [bind_eq_ok_iff, mapError_eq_ok_iff, foldlM_loadEntry_eq_ok_iff]
  rfl

theorem toolName_of_compiledSet (h : RuleEcpaGuardrail.compiledSet c = some set) :
    set.toolName = c.toolName := by
  obtain ⟨ps, -, rfl⟩ := Option.map_eq_some_iff.mp h
  rfl

/-- The sets that are added agree for each tool exactly when the files do. -/
theorem setOf_agree_iff (hloads : ∀ entry ∈ entries, Loads parse fs entry) :
    (∀ set ∈ entries.filterMap (setOf parse fs), ∀ set' ∈ entries.filterMap (setOf parse fs),
      set.toolName = set'.toolName → set = set') ↔
    ∀ path path' c c', .ok path ∈ entries → .ok path' ∈ entries → Holds parse fs path c →
      Holds parse fs path' c' → c.toolName = c'.toolName →
        RuleEcpaGuardrail.compiledSet c = RuleEcpaGuardrail.compiledSet c' := by
  have hstored : ∀ path c, .ok path ∈ entries → Holds parse fs path c → ∃ set ∈
      entries.filterMap (setOf parse fs), RuleEcpaGuardrail.compiledSet c = some set := by
    intro path c hpath hc
    obtain ⟨path', heq, hset⟩ := hloads _ hpath
    obtain rfl := Except.ok.inj heq
    obtain ⟨c', set, hc', hset⟩ := hset hc.toml
    obtain rfl := Except.ok.inj (hc'.read.symm.trans hc.read)
    exact ⟨set, List.mem_filterMap.mpr ⟨_, hpath, (setOf_toml hc).trans hset⟩, hset⟩
  constructor
  · intro h path path' c c' hpath hpath' hc hc' htool
    obtain ⟨set, hmem, hset⟩ := hstored path c hpath hc
    obtain ⟨set', hmem', hset'⟩ := hstored path' c' hpath' hc'
    rw [hset, hset', Option.some.injEq]
    refine h set hmem set' hmem' ?_
    rw [toolName_of_compiledSet hset, toolName_of_compiledSet hset', htool]
  · intro h set hmem set' hmem' htool
    obtain ⟨_, hpath, hset⟩ := List.mem_filterMap.mp hmem
    obtain ⟨_, hpath', hset'⟩ := List.mem_filterMap.mp hmem'
    obtain ⟨path, c, rfl, hc, hcompiled⟩ := setOf_eq_some_iff.mp hset
    obtain ⟨path', c', rfl, hc', hcompiled'⟩ := setOf_eq_some_iff.mp hset'
    rw [toolName_of_compiledSet hcompiled, toolName_of_compiledSet hcompiled'] at htool
    have hsame := h path path' c c' hpath hpath' hc hc' htool
    rw [hcompiled, hcompiled'] at hsame
    exact Option.some.inj hsame

/-- A reordered directory is loaded as its entries are put in their new order. -/
theorem forall_reordered_iff (hload : fromDirectory parse fs dir = .ok G)
    (hdir : fs.readDir dir = .ok entries) :
    (∀ fs', Reordered dir fs fs' → ∃ G', fromDirectory parse fs' dir = .ok G' ∧
      ∀ toolName, G'.constraints.lookup toolName = G.constraints.lookup toolName) ↔
    ∀ entries' : List (Except String String), entries'.Perm entries → ∀ toolName,
      (KeyedStore.putAll ToolConstraint.toolName ∅ (entries'.filterMap (setOf parse fs))).lookup
          toolName =
        (KeyedStore.putAll ToolConstraint.toolName ∅
          (entries.filterMap (setOf parse fs))).lookup toolName := by
  obtain ⟨_, hsame, hloads, hG⟩ := fromDirectory_eq_ok_iff.mp hload
  obtain rfl := Except.ok.inj (hdir.symm.trans hsame)
  rw [← hG]
  constructor
  · intro h entries' hperm toolName
    obtain ⟨G', hload', hlookup⟩ := h { fs with readDir := fun _ => .ok entries' }
      ⟨rfl, entries, entries', hdir, rfl, hperm⟩
    obtain ⟨_, hdir', -, hG'⟩ := fromDirectory_eq_ok_iff.mp hload'
    obtain rfl := Except.ok.inj hdir'
    rw [← hlookup, hG']
    rfl
  · rintro h ⟨readDir', _⟩ ⟨rfl, entries₁, entries', hdir₁, hdir', hperm⟩
    obtain rfl := Except.ok.inj (hdir.symm.trans hdir₁)
    refine ⟨⟨_⟩, fromDirectory_eq_ok_iff.mpr ⟨entries', hdir', fun entry hentry => ?_, rfl⟩,
      h entries' hperm⟩
    obtain ⟨path, rfl, hpath⟩ := hloads entry (hperm.mem_iff.mp hentry)
    refine ⟨path, rfl, fun htoml => ?_⟩
    obtain ⟨c, set, hc, hset⟩ := hpath htoml
    exact ⟨c, set, ⟨hc.toml, hc.read⟩, hset⟩

/-- In any order of its entries the directory is loaded, and with the same set for every tool,
exactly when the files for each tool hold one set. -/
theorem fromDirectory_order_free_iff (hload : fromDirectory parse fs dir = .ok G)
    (hdir : fs.readDir dir = .ok entries) :
    (∀ fs', Reordered dir fs fs' → ∃ G', fromDirectory parse fs' dir = .ok G' ∧
      ∀ toolName, G'.constraints.lookup toolName = G.constraints.lookup toolName) ↔
    ∀ path path' c c', .ok path ∈ entries → .ok path' ∈ entries → Holds parse fs path c →
      Holds parse fs path' c' → c.toolName = c'.toolName →
        RuleEcpaGuardrail.compiledSet c = RuleEcpaGuardrail.compiledSet c' := by
  rw [forall_reordered_iff hload hdir, KeyedStore.putAll_order_free_iff]
  obtain ⟨_, hsame, hloads, -⟩ := fromDirectory_eq_ok_iff.mp hload
  obtain rfl := Except.ok.inj (hdir.symm.trans hsame)
  exact setOf_agree_iff hloads

end Loading

/-! ### Two files for one tool -/

/-- A set without predicates, as a file. -/
def setText (blockOnViolation : Bool) : String :=
  s!"tool_name = 'fs:read'\ndescription = ''\npredicates = []\nblock_on_violation = {blockOnViolation}\n"

/-- The sets of these files. -/
def parseSetText (text : String) : Except String (ToolConstraint RegexEngine.backtracking) :=
  if text = setText true then
    .ok { toolName := "fs:read", description := "", predicates := [], blockOnViolation := true }
  else if text = setText false then
    .ok { toolName := "fs:read", description := "", predicates := [], blockOnViolation := false }
  else .error "expected `=`"

/-- A directory of two files that block and do not block, and a third file. -/
def twoFiles : FileSystem where
  readDir _ := .ok [.ok "/c/a.toml", .ok "/c/b.toml", .ok "/c/README"]
  readToString path :=
    if path = "/c/a.toml" then .ok (setText true)
    else if path = "/c/b.toml" then .ok (setText false)
    else .error "No such file or directory (os error 2)"

/-- Which of the two sets is stored depends on the order. -/
theorem fromDirectory_order_free_iff_twoFiles :
    ∃ G, fromDirectory parseSetText twoFiles "/c" = .ok G ∧
      ¬ ∀ fs', Reordered "/c" twoFiles fs' → ∃ G', fromDirectory parseSetText fs' "/c" = .ok G' ∧
        ∀ toolName, G'.constraints.lookup toolName = G.constraints.lookup toolName := by
  refine ⟨_, rfl, fun h => ?_⟩
  have hsame := (fromDirectory_order_free_iff rfl rfl).mp h "/c/a.toml" "/c/b.toml" _ _
    List.mem_cons_self (List.mem_cons_of_mem _ List.mem_cons_self) ⟨rfl, rfl⟩ ⟨rfl, rfl⟩ rfl
  cases hsame

end ConstraintLoader

end McpShield
