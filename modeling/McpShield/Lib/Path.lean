import McpShield.Lib.Str

/-!
# Paths

The lexical normal form of a path: repeated slashes and `.` are dropped, and `..` takes back the
name before it.  A relative path goes up some times and then down.
-/

namespace Path

/-- A path in normal form: it begins at the root or `ups` directories above some directory, and goes
down the `names`. -/
structure Normal where
  absolute : Bool
  ups : ℕ
  names : List String
deriving DecidableEq, Repr

/-- One more component. -/
def Normal.push (n : Normal) (component : String) : Normal :=
  if component = "" ∨ component = "." then n
  else if component = ".." then
    if n.names ≠ [] then { n with names := n.names.dropLast }
    else if n.absolute then n else { n with ups := n.ups + 1 }
  else { n with names := n.names ++ [component] }

/-- The absolute path down some names. -/
def down (names : List String) : Normal := { absolute := true, ups := 0, names }

/-- The relative path that goes nowhere. -/
def here : Normal := { absolute := false, ups := 0, names := [] }

/-- The normal form of a relative path, also of a path with its leading slashes ignored. -/
def normalizeRelative (path : String) : Normal := (Str.split path '/').foldl .push here

/-- The normal form of a path. -/
def normalize (path : String) : Normal :=
  if Str.startsWith path "/" then (Str.split path '/').foldl .push (down [])
  else normalizeRelative path

/-- The path is the directory down `base` or lies inside of it. -/
def Inside (base : List String) (n : Normal) : Prop := n.absolute = true ∧ base <+: n.names

instance (base : List String) (n : Normal) : Decidable (Inside base n) :=
  inferInstanceAs (Decidable (_ ∧ _))

/-- A relative path from the directory down `base`. -/
def join (base : List String) (r : Normal) : Normal :=
  down (base.take (base.length - r.ups) ++ r.names)

@[simp] theorem absolute_push (n : Normal) (component : String) :
    (n.push component).absolute = n.absolute := by
  unfold Normal.push
  split_ifs <;> rfl

theorem absolute_foldl_push (n : Normal) (components : List String) :
    (components.foldl Normal.push n).absolute = n.absolute := by
  induction components generalizing n with
  | nil => rfl
  | cons c cs ih => rw [List.foldl_cons, ih, absolute_push]

/-- A component can be pushed before or after a relative path is joined. -/
theorem push_join (base : List String) {r : Normal} (hr : r.absolute = false)
    (component : String) : (join base r).push component = join base (r.push component) := by
  unfold Normal.push join
  by_cases hskip : component = "" ∨ component = "."
  · simp only [if_pos hskip]
  · by_cases hup : component = ".."
    · simp only [if_neg hskip, if_pos hup]
      by_cases hnames : r.names = []
      · have hlen : base.length - (r.ups + 1) = base.length - r.ups - 1 := by omega
        by_cases htake : base.take (base.length - r.ups) = []
        · have htake' : base.take (base.length - r.ups - 1) = [] := by
            rcases List.take_eq_nil_iff.mp htake with hzero | hnil
            · rw [hzero, List.take_zero]
            · rw [hnil, List.take_nil]
          simp [hnames, htake, hr, down, hlen, htake']
        · have hdrop : (base.take (base.length - r.ups)).dropLast =
              base.take (base.length - r.ups - 1) := by
            rw [List.dropLast_eq_take, List.take_take, List.length_take]
            congr 1
            omega
          simp [hnames, htake, hr, down, hlen, hdrop]
      · simp [hnames, down, List.dropLast_append_of_ne_nil hnames]
    · simp [if_neg hskip, if_neg hup, down]

/-- The components of a relative path after those of a directory. -/
theorem foldl_push_down (base components : List String) :
    components.foldl Normal.push (down base) = join base (components.foldl Normal.push here) := by
  induction components using List.reverseRecOn with
  | nil => simp [join, here]
  | append_singleton cs c ih =>
    rw [List.foldl_append, List.foldl_append, ih]
    exact push_join base (absolute_foldl_push here cs) c

/-- A relative path stays inside the directory it begins in if it goes down again wherever it has
gone up. -/
theorem inside_join {base : List String} {r : Normal} :
    Inside base (join base r) ↔ base.drop (base.length - r.ups) <+: r.names := by
  have hsplit : base <+: base.take (base.length - r.ups) ++ r.names ↔
      base.take (base.length - r.ups) ++ base.drop (base.length - r.ups) <+:
        base.take (base.length - r.ups) ++ r.names := by rw [List.take_append_drop]
  rw [List.prefix_append_right_inj] at hsplit
  simpa [Inside, join, down] using hsplit

/-! ## Paths that do not go up -/

/-- The names in a path: its components but for the empty ones and `.`. -/
def components (path : String) : List String :=
  (Str.split path '/').filter fun c => c ≠ "" ∧ c ≠ "."

theorem foldl_push_of_not_mem {cs : List String} (h : ".." ∉ cs) (n : Normal) :
    cs.foldl Normal.push n = { n with names := n.names ++ cs.filter fun c => c ≠ "" ∧ c ≠ "." } := by
  induction cs generalizing n with
  | nil => simp
  | cons c cs ih =>
    obtain ⟨hc, hcs⟩ := List.ne_and_not_mem_of_not_mem_cons h
    rw [List.foldl_cons, ih hcs]
    by_cases hskip : c = "" ∨ c = "."
    · simp [Normal.push, hskip, ← not_or]
    · simp [Normal.push, hskip, ← not_or, Ne.symm hc]

/-- Without `..` the normal form goes down the names of the path. -/
theorem normalize_of_not_infix {path : String} (habsolute : Str.startsWith path "/" = true)
    (h : ¬ "..".toList <:+: path.toList) : normalize path = down (components path) := by
  have hmem : ".." ∉ Str.split path '/' := fun hmem => h (Str.infix_of_mem_split hmem)
  rw [normalize, if_pos habsolute, foldl_push_of_not_mem hmem]
  rfl

/-- The characters after the last slash. -/
def lastComponent (path : String) : List Char := path.toList.rtakeWhile (· ≠ '/')

theorem exists_lastComponent {path : String} (h : Str.startsWith path "/" = true) :
    ∃ dirs, path.toList = dirs ++ '/' :: lastComponent path ∧ '/' ∉ lastComponent path := by
  have hslash : '/' ∈ path.toList := by
    obtain ⟨rest, hrest⟩ := List.isPrefixOf_iff_prefix.mp h
    rw [← hrest]
    exact List.mem_cons_self
  have hlast : '/' ∉ lastComponent path := fun hmem => by
    simpa using List.mem_rtakeWhile_imp hmem
  have hne : path.toList.rdropWhile (· ≠ '/') ≠ [] := fun hnil => by
    simpa using List.rdropWhile_eq_nil_iff.mp hnil '/' hslash
  have hend : (path.toList.rdropWhile (· ≠ '/')).getLast hne = '/' := by
    simpa using List.rdropWhile_last_not _ _ hne
  have hdirs := List.dropLast_append_getLast hne
  rw [hend] at hdirs
  refine ⟨(path.toList.rdropWhile (· ≠ '/')).dropLast, ?_, hlast⟩
  calc path.toList
      = path.toList.rdropWhile (· ≠ '/') ++ lastComponent path :=
        List.rdropWhile_append_rtakeWhile.symm
    _ = (path.toList.rdropWhile (· ≠ '/')).dropLast ++ ['/'] ++ lastComponent path := by rw [hdirs]
    _ = (path.toList.rdropWhile (· ≠ '/')).dropLast ++ '/' :: lastComponent path :=
        List.append_assoc _ _ _

/-- The names on both sides of a slash. -/
theorem components_append (dirs cs : List Char) :
    components (String.ofList (dirs ++ '/' :: cs)) =
      components (String.ofList dirs) ++ components (String.ofList cs) := by
  simp only [components, Str.split, String.toList_ofList, List.splitOn_append_cons_self,
    List.map_append, List.filter_append]

theorem components_of_not_mem {cs : List Char} (h : '/' ∉ cs) :
    components (String.ofList cs) = if cs ∈ [[], ['.']] then [] else [String.ofList cs] := by
  have hname : (String.ofList cs ≠ "" ∧ String.ofList cs ≠ ".") ↔ cs ∉ [[], ['.']] := by
    rw [← not_or, ← String.ofList_nil, show "." = String.ofList ['.'] from rfl, String.ofList_inj,
      String.ofList_inj]
    simp
  rw [components, Str.split, String.toList_ofList, List.splitOn_eq_singleton h, List.map_singleton]
  split_ifs with hskip
  · exact List.filter_cons_of_neg fun h => hname.mp (of_decide_eq_true h) hskip
  · exact List.filter_cons_of_pos (decide_eq_true (hname.mpr hskip))

/-- The component that a text continues ends before the first slash after it. -/
theorem exists_components_append (cs rest : List Char) : ∃ added more, '/' ∉ added ∧
    (added = [] ↔ ∀ c ∈ rest.head?, c = '/') ∧
    components (String.ofList (cs ++ rest)) = components (String.ofList (cs ++ added)) ++ more := by
  induction rest generalizing cs with
  | nil => exact ⟨[], [], List.not_mem_nil, by simp, by simp⟩
  | cons c rest ih =>
    by_cases hc : c = '/'
    · refine ⟨[], components (String.ofList rest), List.not_mem_nil, by simp [hc], ?_⟩
      rw [hc, components_append, List.append_nil]
    · obtain ⟨added, more, hadded, -, hnames⟩ := ih (cs ++ [c])
      refine ⟨c :: added, more, by simp [hadded, Ne.symm hc], by simp [hc], ?_⟩
      simpa using hnames

/-- A path that is continued goes down the names of what it continues if that ends with a slash, or
with a slash and a dot, or if a new component begins. -/
theorem components_prefix_append_iff {root : String} (habsolute : Str.startsWith root "/" = true)
    (rest : List Char) :
    components root <+: components (String.ofList (root.toList ++ rest)) ↔
      lastComponent root ∈ [[], ['.']] ∨ ∀ c ∈ rest.head?, c = '/' := by
  obtain ⟨dirs, hroot, hlast⟩ := exists_lastComponent habsolute
  have hnames : components root = components (String.ofList dirs) ++
      components (String.ofList (lastComponent root)) := by
    rw [← components_append, ← hroot, String.ofList_toList]
  generalize lastComponent root = last at hroot hlast hnames
  rw [hnames, hroot, List.append_assoc, List.cons_append, components_append,
    List.prefix_append_right_inj, components_of_not_mem hlast]
  by_cases hskip : last ∈ [[], ['.']]
  · simp [hskip]
  · obtain ⟨added, more, hadded, hnil, hcontinued⟩ := exists_components_append last rest
    have hname : last ++ added ∉ [[], ['.']] := by
      intro hmem
      rcases List.mem_pair.mp hmem with h | h
      · exact hskip (by simp [(List.append_eq_nil_iff.mp h).1])
      · rcases List.append_eq_singleton_iff.mp h with ⟨h, -⟩ | ⟨h, -⟩ <;>
          exact hskip (by simp [h])
    have hslash : '/' ∉ last ++ added := by simp [hlast, hadded]
    rw [hcontinued, components_of_not_mem hslash, if_neg hskip, if_neg hname, ← hnil]
    simp only [List.singleton_append, List.cons_prefix_cons, List.nil_prefix, and_true,
      String.ofList_inj, List.self_eq_append_right, hskip, false_or]

end Path
