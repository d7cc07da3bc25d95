import Mathlib.Data.Int.ConditionallyCompleteOrder
import McpShield.Lib.Ranking
import McpShield.Telemetry.RateLimiter

/-!
# The selected rule

The rules are sorted by their negated priorities whenever one is added and whenever one is looked up.
The least priority is its own negation, so it is sorted before all others in a release build, and its
negation panics in a debug build: `selects_iff` says in which runs neither shows.
-/

open Ranking

namespace McpShield

/-- The rule is enabled and applies to the key. -/
def RateLimitRule.Matches (key : RateLimitKey) (r : RateLimitRule) : Prop :=
  r.enabled = true ∧ (r.scope = "global" ∨
    r.scope = key.scope ∧ (r.scopeValue = none ∨ r.scopeValue = some key.value))

/-! ## Debug builds -/

/-- The negation of a debug build; `none` is the panic on overflow. -/
def negDebug (priority : Int32) : Option Int32 :=
  if priority = Int32.minValue then none else some (-priority)

/-- `sort_by_key` with the negated priority in a debug build: two or more elements are all asked for
their key. -/
def sortByPriorityDebug (rules : List RateLimitRule) : Option (List RateLimitRule) :=
  if rules.length < 2 then some rules
  else (rules.mapM fun r => negDebug r.priority).map fun _ => sortByPriority rules

namespace TokenBucketRateLimiter

/-- `find_matching_rule` in a debug build; `none` is a panic. -/
def findMatchingRuleDebug (L : TokenBucketRateLimiter) (key : RateLimitKey) :
    Option (Option RateLimitRule) :=
  let matching := L.rules.filter fun r =>
    r.enabled && (r.scope == "global" ||
      (r.scope == key.scope && (r.scopeValue.isNone || r.scopeValue == some key.value)))
  (sortByPriorityDebug matching).map fun sorted => sorted.head?.or L.defaultRule

/-- `add_rule` in a debug build; `none` is a panic. -/
def addRuleDebug (L : TokenBucketRateLimiter) (rule : RateLimitRule) :
    Option (Except RateLimitError Unit × TokenBucketRateLimiter) :=
  if L.rules.any (·.ruleId == rule.ruleId) then some (L.addRule rule)
  else (sortByPriorityDebug (L.rules ++ [rule])).map fun rules => (.ok (), { L with rules })

/-! ## What is selected -/

/-- What a call does to the rules in the order in which they were added. -/
def nextRoster (roster : List RateLimitRule) : LimiterCall → List RateLimitRule
  | .addRule rule =>
      if ∃ r ∈ roster, r.ruleId = rule.ruleId then roster else roster ++ [rule]
  | .removeRule ruleId => roster.filter fun r => r.ruleId != ruleId
  | _ => roster

/-- The rules that are stored after the calls, in the order in which they were added. -/
def rosterOf (calls : List LimiterCall) : List RateLimitRule := calls.foldl nextRoster []

/-- The first matching rule of the highest priority is found, or no rule matches and the default one
is found. -/
def Selects (roster : List RateLimitRule) (defaultRule : Option RateLimitRule) (key : RateLimitKey)
    (found : Option RateLimitRule) : Prop :=
  (∃ before r after, roster = before ++ r :: after ∧ found = some r ∧ r.Matches key ∧
      (∀ r' ∈ before, r'.Matches key → r'.priority < r.priority) ∧
      ∀ r' ∈ after, r'.Matches key → r'.priority ≤ r.priority) ∨
    (∀ r ∈ roster, ¬ r.Matches key) ∧ found = defaultRule

/-- The limiter does not panic in a debug build: neither at the call if it adds a rule, nor when a
rule is looked up before it. -/
def NoPanic (L : TokenBucketRateLimiter) (call : LimiterCall) : Prop :=
  (∀ rule, call = .addRule rule → (L.addRuleDebug rule).isSome) ∧
    ∀ key, (L.findMatchingRuleDebug key).isSome

/-- After every part of the run the rule of highest priority is selected, and no build panics. -/
structure SelectsByPriority (L : TokenBucketRateLimiter) (calls : List LimiterCall) : Prop where
  selects : ∀ before later, calls = before ++ later → ∀ key,
    Selects (rosterOf before) L.defaultRule key ((limiterMachine.run L before).findMatchingRule key)
  noPanic : limiterMachine.Along NoPanic L calls
  noPanicAfter : ∀ key, ((limiterMachine.run L calls).findMatchingRuleDebug key).isSome

/-- No rule is added beside another one while one of them has the least priority. -/
def AddsNoLeast (L : TokenBucketRateLimiter) (call : LimiterCall) : Prop :=
  ∀ rule, call = .addRule rule → L.rules ≠ [] → (∀ r ∈ L.rules, r.ruleId ≠ rule.ruleId) →
    ∀ r ∈ L.rules ++ [rule], r.priority ≠ Int32.minValue

end TokenBucketRateLimiter

/-! ## Sorting by priority -/

/-- The rules can be sorted: there is at most one, or none has the least priority. -/
def Sortable (rules : List RateLimitRule) : Prop :=
  rules.length < 2 ∨ ∀ r ∈ rules, r.priority ≠ Int32.minValue

/-- The rank of a rule. -/
def RateLimitRule.rank (r : RateLimitRule) : ℤ := r.priority.toInt

section Sorting

variable {rules rules' : List RateLimitRule} {key : RateLimitKey} {r r' : RateLimitRule}

theorem toInt_neg_of_ne {p : Int32} (h : p ≠ Int32.minValue) : (-p).toInt = -p.toInt := by
  have hne : p.toInt ≠ -2147483648 := fun heq => h (Int32.toInt.inj heq)
  have hle := Int32.minValue_le_toInt p
  have hlt := Int32.toInt_le p
  rw [Int32.toInt_minValue] at hle
  rw [Int32.toInt_maxValue] at hlt
  rw [Int32.toInt_neg]
  exact Int.bmod_eq_of_le (by omega) (by omega)

theorem neg_le_neg_iff_rank (h : r.priority ≠ Int32.minValue) (h' : r'.priority ≠ Int32.minValue) :
    -r.priority ≤ -r'.priority ↔ r'.rank ≤ r.rank := by
  rw [Int32.le_iff_toInt_le, toInt_neg_of_ne h, toInt_neg_of_ne h', neg_le_neg_iff]
  rfl

theorem Sortable.filter (h : Sortable rules) (p : RateLimitRule → Bool) :
    Sortable (rules.filter p) := by
  rcases h with h | h
  · exact .inl ((List.length_filter_le p rules).trans_lt h)
  · exact .inr fun r hr => h r (List.mem_of_mem_filter hr)

theorem sortByPriority_eq (h : Sortable rules) :
    sortByPriority rules = ranked RateLimitRule.rank rules := by
  rcases h with h | h
  · match rules, h with
    | [], _ => rfl
    | [_], _ => rfl
  · have hmap := List.map_insertionSort (fun r r' : RateLimitRule => -r.priority ≤ -r'.priority)
      (fun r r' : RateLimitRule => r'.rank ≤ r.rank) id rules
      fun r hr r' hr' => neg_le_neg_iff_rank (h r hr) (h r' hr')
    rw [List.map_id, List.map_id] at hmap
    exact hmap

theorem isSome_sortByPriorityDebug :
    (sortByPriorityDebug rules).isSome = true ↔ Sortable rules := by
  unfold sortByPriorityDebug Sortable
  split_ifs with hlength
  · simp [hlength]
  · simp only [hlength, false_or, Option.isSome_map]
    clear hlength
    induction rules with
    | nil => simp
    | cons r rules ih =>
      rw [List.mapM_cons, List.forall_mem_cons, ← ih]
      by_cases hmin : r.priority = Int32.minValue
      · simp [negDebug, hmin]
      · have hneg : negDebug r.priority = some (-r.priority) := if_neg hmin
        rw [hneg]
        cases rules.mapM fun r => negDebug r.priority <;> simp [hmin]

/-- A debug build that does not panic computes what a release build computes. -/
theorem sortByPriorityDebug_eq {sorted : List RateLimitRule}
    (h : sortByPriorityDebug rules = some sorted) : sorted = sortByPriority rules := by
  unfold sortByPriorityDebug at h
  split_ifs at h with hlength
  · obtain rfl := Option.some.inj h
    match rules, hlength with
    | [], _ => rfl
    | [_], _ => rfl
  · obtain ⟨_, -, rfl⟩ := Option.map_eq_some_iff.mp h
    rfl

/-- The test of `find_matching_rule`. -/
def matchesBool (key : RateLimitKey) (r : RateLimitRule) : Bool :=
  r.enabled && (r.scope == "global" ||
    (r.scope == key.scope && (r.scopeValue.isNone || r.scopeValue == some key.value)))

theorem matchesBool_iff : matchesBool key r = true ↔ r.Matches key := by
  simp [matchesBool, RateLimitRule.Matches]

end Sorting

namespace TokenBucketRateLimiter

section Roster

variable {L : TokenBucketRateLimiter} {roster : List RateLimitRule} {key : RateLimitKey}
  {rule : RateLimitRule} {call : LimiterCall}

/-- The stored rules select like the roster, have ids of their own, and can be sorted. -/
structure Follows (roster : List RateLimitRule) (L : TokenBucketRateLimiter) : Prop where
  best : SameBest RateLimitRule.rank L.rules roster
  ids : (L.rules.map RateLimitRule.ruleId).Nodup
  sortable : Sortable L.rules

/-- The roster decides what is selected. -/
theorem Follows.findMatchingRule_eq (h : Follows roster L) (key : RateLimitKey) :
    L.findMatchingRule key =
      ((roster.filter (matchesBool key)).argmax RateLimitRule.rank).or L.defaultRule := by
  have hsorted := sortByPriority_eq (h.sortable.filter (matchesBool key))
  show (sortByPriority (L.rules.filter (matchesBool key))).head?.or L.defaultRule = _
  rw [hsorted, head?_ranked, h.best]

theorem isSome_findMatchingRuleDebug (h : Sortable L.rules) (key : RateLimitKey) :
    (L.findMatchingRuleDebug key).isSome = true := by
  unfold findMatchingRuleDebug
  rw [Option.isSome_map]
  exact isSome_sortByPriorityDebug.mpr (h.filter _)

/-- The first of the greatest rank among the matching rules of the roster. -/
theorem selects_argmax (roster : List RateLimitRule) (defaultRule : Option RateLimitRule)
    (key : RateLimitKey) : Selects roster defaultRule key
      (((roster.filter (matchesBool key)).argmax RateLimitRule.rank).or defaultRule) := by
  cases hbest : (roster.filter (matchesBool key)).argmax RateLimitRule.rank with
  | none =>
    rw [List.argmax_eq_none, List.filter_eq_nil_iff] at hbest
    exact .inr ⟨fun r hr hmatch => hbest r hr (matchesBool_iff.mpr hmatch), rfl⟩
  | some r =>
    obtain ⟨before, after, hsplit, hbefore, hafter⟩ := firstBest_of_argmax hbest
    obtain ⟨before', rest, rfl, rfl, hrest⟩ := List.filter_eq_append_iff.mp hsplit
    obtain ⟨skipped, after', rfl, hskipped, hmatch, rfl⟩ := List.filter_eq_cons_iff.mp hrest
    refine .inl ⟨before' ++ skipped, r, after', by simp, rfl, matchesBool_iff.mp hmatch,
      fun r' hr' hmatch' => ?_, fun r' hr' hmatch' => ?_⟩
    · rcases List.mem_append.mp hr' with hr' | hr'
      · exact Int32.lt_iff_toInt_lt.mpr
          (hbefore r' (List.mem_filter.mpr ⟨hr', matchesBool_iff.mpr hmatch'⟩))
      · exact absurd (matchesBool_iff.mpr hmatch') (hskipped r' hr')
    · exact Int32.le_iff_toInt_le.mpr
        (hafter r' (List.mem_filter.mpr ⟨hr', matchesBool_iff.mpr hmatch'⟩))

/-! ## One call -/

theorem addRule_cases (L : TokenBucketRateLimiter) (rule : RateLimitRule) :
    (∃ r ∈ L.rules, r.ruleId = rule.ruleId) ∧ (L.addRule rule).2 = L ∨
      (∀ r ∈ L.rules, r.ruleId ≠ rule.ruleId) ∧
        (L.addRule rule).2 = { L with rules := sortByPriority (L.rules ++ [rule]) } := by
  unfold addRule
  by_cases htaken : ∃ r ∈ L.rules, r.ruleId = rule.ruleId
  · exact .inl ⟨htaken, by simp_all⟩
  · have hany : ¬ (L.rules.any (·.ruleId == rule.ruleId)) = true := by simpa using htaken
    exact .inr ⟨by simpa using htaken, by rw [if_neg hany]⟩

/-- With ids of their own, the first rule with an id is the only one. -/
theorem rules_removeRule (hids : (L.rules.map RateLimitRule.ruleId).Nodup) (ruleId : String) :
    (L.removeRule ruleId).2.rules = L.rules.filter fun r => r.ruleId != ruleId := by
  have heraseP : (L.removeRule ruleId).2.rules = L.rules.eraseP (·.ruleId == ruleId) := by
    rw [List.eraseP_eq_eraseIdx, removeRule]
    cases L.rules.findIdx? (·.ruleId == ruleId) <;> rfl
  rw [heraseP]
  generalize L.rules = rules at hids
  induction rules with
  | nil => rfl
  | cons r rules ih =>
    obtain ⟨hr, hids⟩ := List.nodup_cons.mp hids
    by_cases heq : r.ruleId = ruleId
    · have hothers : ∀ r' ∈ rules, (r'.ruleId != ruleId) = true := fun r' hr' => by
        rw [bne_iff_ne, ← heq]
        exact fun h => hr (h ▸ List.mem_map_of_mem hr')
      rw [List.eraseP_cons_of_pos (by simpa using heq), List.filter_cons_of_neg (by simp [heq]),
        List.filter_eq_self.mpr hothers]
    · rw [List.eraseP_cons_of_neg (by simpa using heq), List.filter_cons_of_pos (by simp [heq]),
        ih hids]

theorem removeRule_defaultRule (L : TokenBucketRateLimiter) (ruleId : String) :
    (L.removeRule ruleId).2.defaultRule = L.defaultRule := by
  unfold removeRule
  cases L.rules.findIdx? (·.ruleId == ruleId) <;> rfl

theorem Follows.addRule (h : Follows roster L) (hleast : AddsNoLeast L (.addRule rule)) :
    Follows (nextRoster roster (.addRule rule)) (L.addRule rule).2 := by
  rcases addRule_cases L rule with ⟨⟨r, hr, hid⟩, hsame⟩ | ⟨hfree, hadd⟩
  · have htaken : ∃ r ∈ roster, r.ruleId = rule.ruleId := ⟨r, h.best.mem_iff.mp hr, hid⟩
    rw [hsame, nextRoster, if_pos htaken]
    exact h
  · have hfree' : ¬ ∃ r ∈ roster, r.ruleId = rule.ruleId := by
      rintro ⟨r, hr, hid⟩
      exact hfree r (h.best.mem_iff.mpr hr) hid
    have hsortable : Sortable (L.rules ++ [rule]) := by
      by_cases hempty : L.rules = []
      · exact .inl (by simp [hempty])
      · exact .inr (hleast rule rfl hempty hfree)
    rw [hadd, nextRoster, if_neg hfree', sortByPriority_eq hsortable]
    have hperm : (Ranking.ranked RateLimitRule.rank (L.rules ++ [rule])).Perm (L.rules ++ [rule]) :=
      List.perm_insertionSort _ _
    refine ⟨(h.best.concat rule).ranked, ?_, ?_⟩
    · refine (hperm.map RateLimitRule.ruleId).nodup_iff.mpr ?_
      rw [List.map_append, List.map_singleton]
      refine List.nodup_append.mpr ⟨h.ids, List.nodup_singleton _, ?_⟩
      rintro _ hid _ hid' rfl
      obtain ⟨r, hr, hid⟩ := List.mem_map.mp hid
      exact hfree r hr (hid.trans (List.mem_singleton.mp hid'))
    · exact hsortable.imp hperm.length_eq.trans_lt fun hall r hr => hall r (hperm.mem_iff.mp hr)

theorem Follows.removeRule (h : Follows roster L) (ruleId : String) :
    Follows (nextRoster roster (.removeRule ruleId)) (L.removeRule ruleId).2 := by
  have hrules := rules_removeRule h.ids ruleId
  refine ⟨?_, ?_, ?_⟩
  · rw [hrules]
    exact h.best.filter _
  · rw [hrules]
    exact h.ids.sublist (List.filter_sublist.map _)
  · rw [hrules]
    exact h.sortable.filter _

theorem Follows.step (h : Follows roster L) {call : LimiterCall} (hleast : AddsNoLeast L call) :
    Follows (nextRoster roster call) (limiterMachine.step L call).2 := by
  cases call with
  | addRule rule => exact h.addRule hleast
  | removeRule ruleId => exact h.removeRule ruleId
  | reset key => exact ⟨h.best, h.ids, h.sortable⟩
  | check key t =>
    have hrules : (L.check key t).2.rules = L.rules := by
      unfold check
      split <;> rfl
    exact ⟨hrules ▸ h.best, hrules ▸ h.ids, hrules ▸ h.sortable⟩
  | peek key t =>
    have hrules : (L.peek key t).2.rules = L.rules := by
      unfold peek
      split <;> rfl
    exact ⟨hrules ▸ h.best, hrules ▸ h.ids, hrules ▸ h.sortable⟩

/-- A call that adds a rule beside another one can sort the rules exactly when none of them has the
least priority. -/
theorem addsNoLeast_of_addRuleDebug
    (h : ∀ rule, call = .addRule rule → (L.addRuleDebug rule).isSome = true) :
    AddsNoLeast L call := by
  rintro rule rfl hne hfree
  have hany : ¬ (L.rules.any (·.ruleId == rule.ruleId)) = true := by simpa using hfree
  have hsome := h rule rfl
  rw [addRuleDebug, if_neg hany, Option.isSome_map, isSome_sortByPriorityDebug] at hsome
  refine hsome.resolve_left fun hlength => hne (List.eq_nil_of_length_eq_zero ?_)
  rw [List.length_append, List.length_singleton] at hlength
  omega

theorem addRuleDebug_of_addsNoLeast (h : AddsNoLeast L (.addRule rule)) :
    (L.addRuleDebug rule).isSome = true := by
  unfold addRuleDebug
  split_ifs with hany
  · rfl
  · rw [Option.isSome_map, isSome_sortByPriorityDebug]
    by_cases hempty : L.rules = []
    · exact .inl (by simp [hempty])
    · exact .inr (h rule rfl hempty (by simpa using hany))

theorem step_defaultRule (L : TokenBucketRateLimiter) (call : LimiterCall) :
    (limiterMachine.step L call).2.defaultRule = L.defaultRule := by
  cases call with
  | addRule rule =>
    show (L.addRule rule).2.defaultRule = L.defaultRule
    rcases addRule_cases L rule with ⟨-, h⟩ | ⟨-, h⟩ <;> rw [h]
  | removeRule ruleId => exact removeRule_defaultRule L ruleId
  | reset key => rfl
  | check key t =>
    show (L.check key t).2.defaultRule = L.defaultRule
    unfold check
    split <;> rfl
  | peek key t =>
    show (L.peek key t).2.defaultRule = L.defaultRule
    unfold peek
    split <;> rfl

/-! ## Runs -/

theorem rosterOf_concat (calls : List LimiterCall) (call : LimiterCall) :
    rosterOf (calls ++ [call]) = nextRoster (rosterOf calls) call := by
  rw [rosterOf, List.foldl_append]
  rfl

/-- The stored rules follow the roster in every run that adds no rule of the least priority. -/
theorem follows_run (hL : L.rules = []) {calls : List LimiterCall}
    (hcalls : limiterMachine.Along AddsNoLeast L calls) :
    Follows (rosterOf calls) (limiterMachine.run L calls) := by
  induction calls using List.reverseRecOn with
  | nil =>
    have hsame : SameBest RateLimitRule.rank [] [] := .refl []
    exact ⟨hL.symm ▸ hsame, by simp [hL], .inl (by simp [hL])⟩
  | append_singleton calls call ih =>
    rw [Machine.along_concat] at hcalls
    rw [rosterOf_concat, Machine.run_append]
    exact (ih hcalls.1).step hcalls.2

theorem run_defaultRule (L : TokenBucketRateLimiter) (calls : List LimiterCall) :
    (limiterMachine.run L calls).defaultRule = L.defaultRule := by
  induction calls generalizing L with
  | nil => rfl
  | cons call calls ih => rw [Machine.run_cons, ih, step_defaultRule]

theorem noPanic_of_addsNoLeast (hL : L.rules = []) {calls : List LimiterCall}
    (hcalls : limiterMachine.Along AddsNoLeast L calls) : limiterMachine.Along NoPanic L calls := by
  induction calls using List.reverseRecOn with
  | nil => trivial
  | append_singleton calls call ih =>
    rw [Machine.along_concat] at hcalls ⊢
    refine ⟨ih hcalls.1, ?_, fun key => ?_⟩
    · rintro rule rfl
      exact addRuleDebug_of_addsNoLeast hcalls.2
    · exact isSome_findMatchingRuleDebug (follows_run hL hcalls.1).sortable key

/-- In a run from a limiter without rules, the rule of highest priority is selected throughout and no
build panics exactly when no rule is added beside another one while one of them has the least
priority. -/
theorem selects_iff {L : TokenBucketRateLimiter} (hL : L.rules = []) (calls : List LimiterCall) :
    SelectsByPriority L calls ↔ limiterMachine.Along AddsNoLeast L calls := by
  constructor
  · exact fun h => h.noPanic.mono fun _ _ hcall => addsNoLeast_of_addRuleDebug hcall.1
  · intro hcalls
    refine ⟨?_, noPanic_of_addsNoLeast hL hcalls,
      isSome_findMatchingRuleDebug (follows_run hL hcalls).sortable⟩
    rintro before later rfl key
    have hfollows := follows_run hL (Machine.along_append.mp hcalls).1
    rw [hfollows.findMatchingRule_eq, run_defaultRule]
    exact selects_argmax _ _ _

end Roster

/-! ## Two rules -/

/-- A rule for all keys. -/
def globalRule (ruleId : String) (priority : Int32) : RateLimitRule :=
  { ruleId, scope := "global", scopeValue := none, algorithm := .tokenBucket,
    requestsPerWindow := 1, windowSeconds := 60, burstAllowance := none, action := .reject,
    priority, enabled := true }

/-- Two rules are added, the one with priority 5 last. -/
def twoRules (priority : Int32) : List LimiterCall :=
  [.addRule (globalRule "low" priority), .addRule (globalRule "high" 5)]

theorem selects_twoRules : SelectsByPriority new (twoRules 1) := by
  refine (selects_iff rfl _).mpr ⟨?_, ?_, trivial⟩
  · rintro rule ⟨⟩ hne
    exact absurd rfl hne
  · rintro rule ⟨⟩ - -
    decide

/-- A rule of the least priority is selected before all others. -/
theorem least_selected_first : ¬ SelectsByPriority new (twoRules Int32.minValue) := by
  intro h
  have hfound : (limiterMachine.run new (twoRules Int32.minValue)).findMatchingRule ⟨"user", "a"⟩ =
      some (globalRule "low" Int32.minValue) := by decide
  have hselects := h.selects (twoRules Int32.minValue) [] (by simp) ⟨"user", "a"⟩
  rw [hfound] at hselects
  have hroster : rosterOf (twoRules Int32.minValue) =
      [globalRule "low" Int32.minValue, globalRule "high" 5] := by decide
  rw [hroster] at hselects
  have hmatches : ∀ ruleId priority, (globalRule ruleId priority).Matches ⟨"user", "a"⟩ :=
    fun _ _ => ⟨rfl, .inl rfl⟩
  rcases hselects with ⟨before, r, after, hsplit, hr, -, -, hafter⟩ | ⟨hnone, -⟩
  · obtain rfl := Option.some.inj hr
    match before, hsplit with
    | [], hsplit =>
      obtain ⟨-, rfl⟩ := List.cons.inj hsplit
      exact absurd (hafter _ (List.mem_singleton_self _) (hmatches "high" 5)) (by decide)
    | [_], hsplit => exact absurd hsplit (by simp [globalRule])
    | _ :: _ :: _, hsplit => exact absurd (congrArg List.length hsplit) (by simp)
  · exact hnone _ (List.mem_cons_self ..) (hmatches "low" Int32.minValue)

end TokenBucketRateLimiter

end McpShield
