import McpShield.Guardrail.TextChecks

/-!
# Allowlists

The allowlist predicates make a pattern of a comma-separated list.  The items of a list of hosts or
commands are put into it as they are, and a list of schemes as a whole.
-/

namespace McpShield

open Predicate RuleEcpaGuardrail

variable {E : RegexEngine}

/-! ## Lists -/

/-- The trimmed items of a list. -/
def listItems (list : String) : List String := (Str.split list ',').map Str.trim

theorem exists_listItems (list : String) : ∃ first others, listItems list = first :: others := by
  have hne : listItems list ≠ [] := by
    simp [listItems, Str.split, List.splitOn_ne_nil]
  exact List.exists_cons_of_ne_nil hne

theorem toList_alternatives (list : String) : (alternatives list).toList =
    ['|'].intercalate ((listItems list).map String.toList) :=
  String.toList_intercalate

theorem dotted_listItems {list : String} (h : Regex.Dotted list.toList) :
    ∀ cs ∈ (listItems list).map String.toList, Regex.Dotted cs := by
  rw [List.forall_mem_map]
  intro item hitem c hc
  obtain ⟨piece, hpiece, rfl⟩ := List.mem_map.mp hitem
  exact h c ((Str.infix_of_mem_split hpiece).subset (Str.mem_of_mem_trim hc))

/-! ## The patterns -/

/-- A list of commands without metacharacters but the dot is found in the texts that fit an item. -/
theorem parse_commandInAllowlist {list : String} (h : Regex.Dotted list.toList) : ∃ derived e,
    regexPattern "command_in_allowlist" list = some derived ∧ Regex.parse derived = some e ∧
      ∀ word text, Regex.Found word e text ↔
        ∃ item ∈ listItems list, Regex.Fits item.toList text := by
  obtain ⟨first, others, hitems⟩ := exists_listItems list
  have hdotted := dotted_listItems h
  have hpattern := toList_alternatives list
  rw [hitems, List.map_cons] at hdotted hpattern
  refine ⟨_, _, rfl, Regex.parse_whole ?_ hdotted, fun word text => ?_⟩
  · simp [hpattern, toString]
  · rw [Regex.found_whole, ← List.map_cons, ← hitems]
    simp

/-- A list of hosts is found in the URLs that go on with a text that fits an item. -/
theorem parse_urlHostInAllowlist {list : String} (h : Regex.Dotted list.toList) : ∃ derived e,
    regexPattern "url_host_in_allowlist" list = some derived ∧ Regex.parse derived = some e ∧
      ∀ word text, Regex.Found word e text ↔
        ∃ rest, (text = "https://".toList ++ rest ∨ text = "http://".toList ++ rest) ∧
          ∃ item ∈ listItems list, ∃ u, u <+: rest ∧ Regex.Fits item.toList u := by
  obtain ⟨first, others, hitems⟩ := exists_listItems list
  have hdotted := dotted_listItems h
  have hpattern := toList_alternatives list
  rw [hitems, List.map_cons] at hdotted hpattern
  have hhttp : Regex.Spells "http".toList ("http".toList.map Regex.chr) :=
    Regex.spells_escape "http".toList
  have hslashes : Regex.Spells "://".toList ("://".toList.map Regex.chr) :=
    Regex.spells_escape "://".toList
  refine ⟨_, _, rfl, Regex.parse_optional ?_ hhttp (show Regex.isSpecial 's' = false by decide)
    hslashes hdotted, fun word text => ?_⟩
  · simp [hpattern, toString]
  · rw [Regex.found_optional, ← List.map_cons, ← hitems]
    simp

/-- A list of schemes is found in the texts that begin with the text of the list. -/
theorem parse_urlSchemeAllowed (list : String) : ∃ derived e,
    regexPattern "url_scheme_allowed" list = some derived ∧ Regex.parse derived = some e ∧
      ∀ word text, Regex.Found word e text ↔ list.toList <+: text := by
  refine ⟨_, _, rfl, Regex.parse_startText_spelled ?_ (Regex.spells_escape list.toList),
    fun word text => ?_⟩
  · simp [Regex.escape, toString]
  · rw [Regex.found_seq_startText, Regex.exists_matches_seq_chars]

/-! ## Hosts -/

/-- The set that the builder makes for a list of hosts. -/
def hostConstraint (toolName field hosts : String) : ToolConstraint E :=
  ((ConstraintBuilder.new toolName).urlHostInAllowlist field hosts).build

/-- The authority in what follows the scheme of a URL. -/
def authority (rest : List Char) : List Char :=
  rest.takeWhile fun c => !"/?#".toList.contains c

/-- The host of the authority, without the user and the port.  A host in brackets ends with the
closing one. -/
def host (rest : List Char) : String :=
  let cs := (authority rest).rtakeWhile (· ≠ '@')
  String.ofList (
    if cs.head? = some '[' then cs.takeWhile (· ≠ ']') ++ (cs.dropWhile (· ≠ ']')).take 1
    else cs.takeWhile (· ≠ ':'))

/-- The text is a URL with the scheme `http` or `https` that goes on with `rest`. -/
def IsHttpUrl (url : String) (rest : List Char) : Prop :=
  url.toList = "https://".toList ++ rest ∨ url.toList = "http://".toList ++ rest

/-- The URLs that satisfy the set have a listed host. -/
def HostSound (G : RuleEcpaGuardrail E) (toolName field hosts url : String) : Prop :=
  SatisfiedBy G toolName field url → ∃ rest, IsHttpUrl url rest ∧ host rest ∈ listItems hosts

theorem IsHttpUrl.unique {url : String} {rest rest' : List Char} (h : IsHttpUrl url rest)
    (h' : IsHttpUrl url rest') : rest = rest' := by
  unfold IsHttpUrl at h h'
  rcases h with h | h <;> rcases h' with h' | h' <;> rw [h] at h' <;> simp_all

/-- A URL that goes on with a text that fits an item of the list. -/
def BeginsWithItem (hosts url : String) (rest : List Char) : Prop :=
  IsHttpUrl url rest ∧ ∃ item ∈ listItems hosts, ∃ u, u <+: rest ∧ Regex.Fits item.toList u

section Hosts

variable {G G' : RuleEcpaGuardrail E} {toolName field hosts : String}

theorem satisfiedBy_hostConstraint_iff (hE : E.Reads) (hhosts : Regex.Dotted hosts.toList)
    (hreg : G.registerConstraints (hostConstraint toolName field hosts) = .ok G') (url : String) :
    SatisfiedBy G' toolName field url ↔ ∃ rest, BeginsWithItem hosts url rest := by
  obtain ⟨word, hsatisfied⟩ := exists_satisfiedBy_iff_found hE
  obtain ⟨derived, e, hderived, hparse, hfound⟩ := parse_urlHostInAllowlist hhosts
  exact (hsatisfied hreg rfl (by decide) hderived hparse url).trans (hfound word _)

/-- A list of hosts without metacharacters but the dot lets only URLs with a listed host pass exactly
if no other host begins with a text that fits an item. -/
theorem hostSound_iff (hE : E.Reads) (hhosts : Regex.Dotted hosts.toList)
    (hreg : G.registerConstraints (hostConstraint toolName field hosts) = .ok G') (url : String) :
    HostSound G' toolName field hosts url ↔
      ∀ rest, BeginsWithItem hosts url rest → host rest ∈ listItems hosts := by
  rw [HostSound, satisfiedBy_hostConstraint_iff hE hhosts hreg]
  constructor
  · intro h rest hbegins
    obtain ⟨rest', hurl', hhost⟩ := h ⟨rest, hbegins⟩
    rwa [hbegins.1.unique hurl']
  · rintro h ⟨rest, hbegins⟩
    exact ⟨rest, hbegins.1, h rest hbegins⟩

end Hosts

/-- A URL with a listed host. -/
theorem hostSound_listed : ∃ G' : RuleEcpaGuardrail .backtracking,
    RuleEcpaGuardrail.new.registerConstraints
        (hostConstraint "get" "url" "api.github.com, example.org") = .ok G' ∧
      SatisfiedBy G' "get" "url" "https://example.org:8080/x" ∧
      HostSound G' "get" "url" "api.github.com, example.org" "https://example.org:8080/x" := by
  obtain ⟨G', hreg⟩ : ∃ G' : RuleEcpaGuardrail .backtracking,
      RuleEcpaGuardrail.new.registerConstraints
        (hostConstraint "get" "url" "api.github.com, example.org") = .ok G' :=
    exists_registered (by decide +kernel)
  have hbegins : BeginsWithItem "api.github.com, example.org" "https://example.org:8080/x"
      "example.org:8080/x".toList :=
    ⟨.inl (by decide +kernel), "example.org", by decide +kernel, "example.org".toList, by decide +kernel, by decide +kernel⟩
  refine ⟨G', hreg, (satisfiedBy_hostConstraint_iff RegexEngine.backtracking_reads (by decide +kernel)
    hreg _).mpr ⟨_, hbegins⟩, (hostSound_iff RegexEngine.backtracking_reads (by decide +kernel)
    hreg _).mpr fun rest hrest => ?_⟩
  rw [hrest.1.unique hbegins.1]
  decide +kernel

/-- A longer domain is admitted, and so is one that has another character for a dot. -/
theorem other_hosts_admitted : ∃ G' : RuleEcpaGuardrail .backtracking,
    RuleEcpaGuardrail.new.registerConstraints (hostConstraint "get" "url" "api.github.com") =
        .ok G' ∧
      ¬ HostSound G' "get" "url" "api.github.com" "https://api.github.com.evil.com/" ∧
      ¬ HostSound G' "get" "url" "api.github.com" "https://apixgithub.com/" := by
  obtain ⟨G', hreg⟩ : ∃ G' : RuleEcpaGuardrail .backtracking,
      RuleEcpaGuardrail.new.registerConstraints (hostConstraint "get" "url" "api.github.com") =
        .ok G' := exists_registered (by decide +kernel)
  have hunsound : ∀ url rest, BeginsWithItem "api.github.com" url rest →
      host rest ∉ listItems "api.github.com" →
        ¬ HostSound G' "get" "url" "api.github.com" url := by
    intro url rest hbegins hhost h
    obtain ⟨rest', hurl, hlisted⟩ := h ((satisfiedBy_hostConstraint_iff
      RegexEngine.backtracking_reads (by decide +kernel) hreg _).mpr ⟨rest, hbegins⟩)
    rw [← hbegins.1.unique hurl] at hlisted
    exact hhost hlisted
  refine ⟨G', hreg, hunsound _ "api.github.com.evil.com/".toList ⟨.inl (by decide +kernel), ?_⟩ (by decide +kernel),
    hunsound _ "apixgithub.com/".toList ⟨.inl (by decide +kernel), ?_⟩ (by decide +kernel)⟩
  · exact ⟨"api.github.com", by decide +kernel, "api.github.com".toList, by decide +kernel, by decide +kernel⟩
  · exact ⟨"api.github.com", by decide +kernel, "apixgithub.com".toList, by decide +kernel, by decide +kernel⟩

/-! ## Commands and schemes -/

/-- The set that the builder makes for a list of commands. -/
def commandConstraint (toolName field commands : String) : ToolConstraint E :=
  ((ConstraintBuilder.new toolName).commandInAllowlist field commands).build

/-- The set that the builder makes for a list of schemes. -/
def schemeConstraint (toolName field schemes : String) : ToolConstraint E :=
  ((ConstraintBuilder.new toolName).urlSchemeAllowed field schemes).build

/-- The text before the first `sep`, if there is one. -/
def textBefore (sep : List Char) : List Char → Option (List Char)
  | [] => if sep.isEmpty then some [] else none
  | c :: cs =>
      if sep.isPrefixOf (c :: cs) then some [] else (textBefore sep cs).map (c :: ·)

/-- The value has a scheme of the list. -/
def SchemeListed (schemes value : String) : Prop :=
  ∃ scheme ∈ listItems schemes, textBefore "://".toList value.toList = some scheme.toList

instance (schemes value : String) : Decidable (SchemeListed schemes value) :=
  inferInstanceAs (Decidable (∃ scheme ∈ listItems schemes, _))

/-- The sets for a list of commands and for a list of schemes admit what is listed. -/
structure ListExact (Gc Gs : RuleEcpaGuardrail E) (toolName field list value : String) : Prop where
  command : SatisfiedBy Gc toolName field value ↔ value ∈ listItems list ∧ value ≠ ""
  scheme : SatisfiedBy Gs toolName field value ↔ SchemeListed list value

/-- The value is not empty if an item is, and it is an item if it fits one, and it begins with the
whole list exactly if it has a scheme of the list. -/
structure ReadAsListed (list value : String) : Prop where
  nonempty : value = "" → "" ∉ listItems list
  listed : ∀ item ∈ listItems list, Regex.Fits item.toList value.toList → value ∈ listItems list
  scheme : list.toList <+: value.toList ↔ SchemeListed list value

section Exact

variable {G Gc Gs : RuleEcpaGuardrail E} {toolName field list : String}

theorem satisfiedBy_commandConstraint_iff (hE : E.Reads) (hlist : Regex.Dotted list.toList)
    (hreg : G.registerConstraints (commandConstraint toolName field list) = .ok Gc)
    (value : String) :
    SatisfiedBy Gc toolName field value ↔
      ∃ item ∈ listItems list, Regex.Fits item.toList value.toList := by
  obtain ⟨word, hsatisfied⟩ := exists_satisfiedBy_iff_found hE
  obtain ⟨derived, e, hderived, hparse, hfound⟩ := parse_commandInAllowlist hlist
  exact (hsatisfied hreg rfl (by decide) hderived hparse value).trans (hfound word _)

theorem satisfiedBy_schemeConstraint_iff (hE : E.Reads)
    (hreg : G.registerConstraints (schemeConstraint toolName field list) = .ok Gs)
    (value : String) :
    SatisfiedBy Gs toolName field value ↔ list.toList <+: value.toList := by
  obtain ⟨word, hsatisfied⟩ := exists_satisfiedBy_iff_found hE
  obtain ⟨derived, e, hderived, hparse, hfound⟩ := parse_urlSchemeAllowed list
  exact (hsatisfied hreg rfl (by decide) hderived hparse value).trans (hfound word _)

/-- The texts that fit an item are the listed commands. -/
theorem commands_iff (list value : String) :
    ((∃ item ∈ listItems list, Regex.Fits item.toList value.toList) ↔
        value ∈ listItems list ∧ value ≠ "") ↔
      (value = "" → "" ∉ listItems list) ∧
        ∀ item ∈ listItems list, Regex.Fits item.toList value.toList → value ∈ listItems list := by
  constructor
  · intro h
    refine ⟨fun hempty hmem => ?_, fun item hitem hfits => (h.mp ⟨item, hitem, hfits⟩).1⟩
    exact (h.mp ⟨"", hmem, by rw [hempty]; exact Regex.fits_self _⟩).2 hempty
  · rintro ⟨hempty, hlisted⟩
    constructor
    · rintro ⟨item, hitem, hfits⟩
      have hvalue := hlisted item hitem hfits
      exact ⟨hvalue, fun h => hempty h (h ▸ hvalue)⟩
    · rintro ⟨hvalue, -⟩
      exact ⟨value, hvalue, Regex.fits_self _⟩

/-- For a list without metacharacters but the dot, the sets admit what is listed exactly if the list
is read as it is meant. -/
theorem listExact_iff (hE : E.Reads) (hlist : Regex.Dotted list.toList)
    (hcommand : G.registerConstraints (commandConstraint toolName field list) = .ok Gc)
    (hscheme : G.registerConstraints (schemeConstraint toolName field list) = .ok Gs)
    (value : String) :
    ListExact Gc Gs toolName field list value ↔ ReadAsListed list value := by
  have hcommands := satisfiedBy_commandConstraint_iff hE hlist hcommand value
  have hschemes := satisfiedBy_schemeConstraint_iff hE hscheme value
  constructor
  · rintro ⟨hc, hs⟩
    rw [hcommands] at hc
    rw [hschemes] at hs
    obtain ⟨hempty, hlisted⟩ := (commands_iff list value).mp hc
    exact ⟨hempty, hlisted, hs⟩
  · rintro ⟨hempty, hlisted, hs⟩
    exact ⟨hcommands.trans ((commands_iff list value).mpr ⟨hempty, hlisted⟩), hschemes.trans hs⟩

end Exact

/-- The sets for a list of commands and for a list of schemes. -/
def Registered (list : String) (Gc Gs : RuleEcpaGuardrail .backtracking) : Prop :=
  RuleEcpaGuardrail.new.registerConstraints (commandConstraint "run" "value" list) = .ok Gc ∧
    RuleEcpaGuardrail.new.registerConstraints (schemeConstraint "run" "value" list) = .ok Gs

theorem exists_registered_lists (list : String)
    (hc : ((RuleEcpaGuardrail.new.registerConstraints
      (commandConstraint (E := .backtracking) "run" "value" list)).toOption).isSome = true)
    (hs : ((RuleEcpaGuardrail.new.registerConstraints
      (schemeConstraint (E := .backtracking) "run" "value" list)).toOption).isSome = true) :
    ∃ Gc Gs, Registered list Gc Gs := by
  obtain ⟨Gc, hGc⟩ := exists_registered hc
  obtain ⟨Gs, hGs⟩ := exists_registered hs
  exact ⟨Gc, Gs, hGc, hGs⟩

/-- One scheme. -/
theorem listExact_https : ∃ Gc Gs, Registered "https" Gc Gs ∧
    ListExact Gc Gs "run" "value" "https" "https://example.org/" := by
  obtain ⟨Gc, Gs, hreg⟩ := exists_registered_lists "https" (by decide +kernel) (by decide +kernel)
  refine ⟨Gc, Gs, hreg,
    (listExact_iff RegexEngine.backtracking_reads (by decide +kernel) hreg.1 hreg.2 _).mpr ⟨?_, ?_, ?_⟩⟩
  · decide +kernel
  · decide +kernel
  · decide +kernel

/-- An empty command is admitted by a list that ends with a comma, another character is admitted for
a dot, and of two schemes neither is admitted. -/
theorem lists_not_exact :
    (∃ Gc Gs, Registered "ls," Gc Gs ∧ ¬ ListExact Gc Gs "run" "value" "ls," "") ∧
    (∃ Gc Gs, Registered "node.js" Gc Gs ∧
      ¬ ListExact Gc Gs "run" "value" "node.js" "nodeXjs") ∧
    ∃ Gc Gs, Registered "http,https" Gc Gs ∧
      ¬ ListExact Gc Gs "run" "value" "http,https" "https://example.org/" := by
  refine ⟨?_, ?_, ?_⟩
  · obtain ⟨Gc, Gs, hreg⟩ := exists_registered_lists "ls," (by decide +kernel) (by decide +kernel)
    have hadmitted := (satisfiedBy_commandConstraint_iff RegexEngine.backtracking_reads
      (by decide +kernel) hreg.1 "").mpr (by decide +kernel)
    exact ⟨Gc, Gs, hreg, fun h => (h.command.mp hadmitted).2 rfl⟩
  · obtain ⟨Gc, Gs, hreg⟩ := exists_registered_lists "node.js" (by decide +kernel)
      (by decide +kernel)
    have hadmitted := (satisfiedBy_commandConstraint_iff RegexEngine.backtracking_reads
      (by decide +kernel) hreg.1 "nodeXjs").mpr (by decide +kernel)
    exact ⟨Gc, Gs, hreg, fun h => absurd (h.command.mp hadmitted).1 (by decide +kernel)⟩
  · obtain ⟨Gc, Gs, hreg⟩ := exists_registered_lists "http,https" (by decide +kernel)
      (by decide +kernel)
    have hscheme := satisfiedBy_schemeConstraint_iff RegexEngine.backtracking_reads hreg.2
      "https://example.org/"
    refine ⟨Gc, Gs, hreg, fun h => ?_⟩
    exact absurd (hscheme.mp (h.scheme.mpr (by decide +kernel))) (by decide +kernel)

end McpShield
