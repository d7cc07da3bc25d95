import McpShield.Lib.Str
import McpShield.Lib.Unwinding
import McpShield.Telemetry.RateLimiter

/-!
# Independence of the keys of the rate limiter

A check or a peek depends on the rules and on the bucket that is kept under the text of its key.  So
keys with different texts are independent of each other, and different keys with one text are not:
`scope:value` does not tell where the scope ends.
-/

namespace McpShield

/-- The key of a check, a peek or a reset. -/
def LimiterCall.key? : LimiterCall → Option RateLimitKey
  | check key _ | peek key _ | reset key => some key
  | addRule _ | removeRule _ => none

/-- The call is a check or a peek of `key`. -/
def LimiterCall.asks (key : RateLimitKey) : LimiterCall → Bool
  | check key' _ | peek key' _ => key' == key
  | _ => false

namespace TokenBucketRateLimiter

/-! ## The part of the limiter that a key depends on -/

/-- The rules and the bucket under a text. -/
structure View where
  rules : List RateLimitRule
  defaultRule : Option RateLimitRule
  bucket : Option TokenBucket

def view (text : String) (L : TokenBucketRateLimiter) : View :=
  { rules := L.rules, defaultRule := L.defaultRule, bucket := L.buckets.lookup text }

/-- The calls that may change what is under a text: those on keys with this text, and those that
change the rules. -/
def concerns (text : String) (call : LimiterCall) : Bool :=
  match call.key? with
  | some key => key.asString == text
  | none => true

section UseBucket

variable {L L' : TokenBucketRateLimiter} {key : RateLimitKey} {text : String} {created : ℚ}
  {f : RateLimitRule → TokenBucket → RateLimitResult × TokenBucket}

theorem findMatchingRule_congr (h : view text L = view text L') :
    L.findMatchingRule key = L'.findMatchingRule key := by
  obtain ⟨hrules, hdefault, -⟩ := View.mk.inj h
  rw [findMatchingRule, findMatchingRule, hrules, hdefault]

theorem view_useBucket_of_ne (hne : key.asString ≠ text) :
    view text (L.useBucket key created f).2 = view text L := by
  obtain hsame | ⟨bucket, hset⟩ := L.useBucket_cases key created f
  · rw [hsame]
  · rw [hset]
    exact congrArg (View.mk L.rules L.defaultRule) (lookup_setBucket_ne hne.symm bucket)

theorem useBucket_congr (h : view key.asString L = view key.asString L') :
    (L.useBucket key created f).1 = (L'.useBucket key created f).1 ∧
      view key.asString (L.useBucket key created f).2 =
        view key.asString (L'.useBucket key created f).2 := by
  obtain ⟨hrules, hdefault, hbucket⟩ := View.mk.inj h
  unfold useBucket
  rw [findMatchingRule_congr h]
  cases L'.findMatchingRule key with
  | none => exact ⟨rfl, h⟩
  | some rule =>
    have hbucket : L.buckets.lookup key.asString = L'.buckets.lookup key.asString := hbucket
    simp only [withBucket, hbucket, true_and]
    simp only [view, lookup_setBucket]
    exact congrArg₂ (fun rules defaultRule => View.mk rules defaultRule _) hrules hdefault

theorem addRule_congr (h : view text L = view text L') (rule : RateLimitRule) :
    (L.addRule rule).1 = (L'.addRule rule).1 ∧
      view text (L.addRule rule).2 = view text (L'.addRule rule).2 := by
  obtain ⟨hrules, hdefault, hbucket⟩ := View.mk.inj h
  unfold addRule
  rw [hrules]
  split_ifs
  · exact ⟨rfl, h⟩
  · exact ⟨rfl, congrArg₂ (View.mk _) hdefault hbucket⟩

theorem removeRule_congr (h : view text L = view text L') (ruleId : String) :
    (L.removeRule ruleId).1 = (L'.removeRule ruleId).1 ∧
      view text (L.removeRule ruleId).2 = view text (L'.removeRule ruleId).2 := by
  obtain ⟨hrules, hdefault, hbucket⟩ := View.mk.inj h
  unfold removeRule
  rw [hrules]
  cases L'.rules.findIdx? (·.ruleId == ruleId) with
  | none => exact ⟨rfl, h⟩
  | some idx => exact ⟨rfl, congrArg₂ (View.mk _) hdefault hbucket⟩

theorem reset_congr (h : view key.asString L = view key.asString L') :
    view key.asString (L.reset key) = view key.asString (L'.reset key) := by
  obtain ⟨hrules, hdefault, -⟩ := View.mk.inj h
  simp only [view, reset, AList.lookup_erase, hrules, hdefault]

end UseBucket

/-- Whoever sees the rules and one bucket sees the calls that concern its text. -/
theorem unwinding (text : String) : limiterMachine.Unwinding (view text) (concerns text) where
  unseen L call hcall := by
    cases call with
    | check key t =>
      exact view_useBucket_of_ne (f := fun rule => checkBucket rule t) (ne_of_beq_false hcall)
    | peek key t =>
      exact view_useBucket_of_ne (f := fun rule => peekBucket rule t) (ne_of_beq_false hcall)
    | reset key =>
      have hlookup : (L.reset key).buckets.lookup text = L.buckets.lookup text :=
        AList.lookup_erase_ne (ne_of_beq_false hcall).symm
      exact congrArg (View.mk L.rules L.defaultRule) hlookup
    | addRule | removeRule => cases hcall
  state L L' call hcall hview := by
    cases call with
    | check key t =>
      obtain rfl : key.asString = text := eq_of_beq hcall
      exact (useBucket_congr (f := fun rule => checkBucket rule t) hview).2
    | peek key t =>
      obtain rfl : key.asString = text := eq_of_beq hcall
      exact (useBucket_congr (f := fun rule => peekBucket rule t) hview).2
    | reset key =>
      obtain rfl : key.asString = text := eq_of_beq hcall
      exact reset_congr hview
    | addRule rule => exact (addRule_congr hview rule).2
    | removeRule ruleId => exact (removeRule_congr hview ruleId).2
  answer L L' call hcall hview := by
    cases call with
    | check key t =>
      obtain rfl : key.asString = text := eq_of_beq hcall
      exact congrArg (Except.map some)
        (useBucket_congr (f := fun rule => checkBucket rule t) hview).1
    | peek key t =>
      obtain rfl : key.asString = text := eq_of_beq hcall
      exact congrArg (Except.map some)
        (useBucket_congr (f := fun rule => peekBucket rule t) hview).1
    | reset key => rfl
    | addRule rule => exact congrArg (Except.map fun _ => none) (addRule_congr hview rule).1
    | removeRule ruleId =>
      exact congrArg (Except.map fun _ => none) (removeRule_congr hview ruleId).1

/-! ## Independent keys -/

/-- Calls on `k₁`, inserted anywhere in a run, do not change what the checks and peeks of `k₂`
answer. -/
def Independent (L : TokenBucketRateLimiter) (k₁ k₂ : RateLimitKey) : Prop :=
  ∀ calls calls', Inserted (fun call => call.key? = some k₁) calls calls' →
    limiterMachine.answersTo (LimiterCall.asks k₂) L calls' =
      limiterMachine.answersTo (LimiterCall.asks k₂) L calls

variable {L : TokenBucketRateLimiter} {k₁ k₂ : RateLimitKey}

theorem concerns_of_asks {call : LimiterCall} (h : call.asks k₂ = true) :
    concerns k₂.asString call = true := by
  cases call with
  | check key t | peek key t =>
    obtain rfl : key = k₂ := eq_of_beq h
    exact beq_self_eq_true _
  | reset | addRule | removeRule => cases h

/-- Keys with different texts are independent. -/
theorem independent_of_asString_ne (hne : k₁.asString ≠ k₂.asString) : L.Independent k₁ k₂ := by
  intro calls calls' hins
  refine (unwinding k₂.asString).answersTo_inserted (fun _ => concerns_of_asks) hins ?_ L
  intro call hcall
  simp only [concerns, hcall]
  exact beq_false_of_ne hne

/-- A key whose scope has no colon is known by its text. -/
theorem eq_of_asString_eq (h₁ : ':' ∉ k₁.scope.toList) (h₂ : ':' ∉ k₂.scope.toList)
    (h : k₁.asString = k₂.asString) : k₁ = k₂ := by
  obtain ⟨hscope, hvalue⟩ := Str.append_singleton_inj h₁ h₂ h
  obtain ⟨scope, value⟩ := k₁
  obtain ⟨rfl, rfl⟩ : scope = k₂.scope ∧ value = k₂.value := ⟨hscope, hvalue⟩
  rfl

/-- Different keys are independent if no scope has a colon. -/
theorem independent_of_scopes (hne : k₁ ≠ k₂) (h₁ : ':' ∉ k₁.scope.toList)
    (h₂ : ':' ∉ k₂.scope.toList) : L.Independent k₁ k₂ :=
  independent_of_asString_ne fun h => hne (eq_of_asString_eq h₁ h₂ h)

/-- Independence lasts. -/
theorem Independent.run (h : L.Independent k₁ k₂) (pre : List LimiterCall) :
    (limiterMachine.run L pre).Independent k₁ k₂ := by
  intro calls calls' hins
  have happend : Inserted (fun call => call.key? = some k₁) (pre ++ calls) (pre ++ calls') :=
    hins.append_left pre
  have heq := h _ _ happend
  rw [Machine.answersTo_append, Machine.answersTo_append] at heq
  exact List.append_cancel_left heq

/-! ## Keys with one text -/

/-- A rule for all keys, with one token. -/
def singleRule : RateLimitRule :=
  { ruleId := "single", scope := "global", scopeValue := none, algorithm := .tokenBucket,
    requestsPerWindow := 1, windowSeconds := 1, burstAllowance := none, action := .reject,
    priority := 0, enabled := true }

/-- The clock stands still. -/
def still : Readings := { created := 0, refilled := 0, counted := 0 }

/-- The bucket of the rule once its token is taken. -/
def spentBucket : TokenBucket := (checkBucket singleRule still (singleRule.newBucket 0)).2

theorem allowed_newBucket :
    (checkBucket singleRule still (singleRule.newBucket 0)).1.allowed = true := by
  decide +kernel

theorem not_allowed_spentBucket :
    (checkBucket singleRule still spentBucket).1.allowed = false := by
  decide +kernel

/-- The first check of a key takes the token. -/
theorem check_of_fresh {key : RateLimitKey} (hrule : L.findMatchingRule key = some singleRule)
    (hnone : L.buckets.lookup key.asString = none) :
    L.check key still = (.ok (checkBucket singleRule still (singleRule.newBucket 0)).1,
      L.setBucket key.asString spentBucket) := by
  have hbucket : L.bucketOf key singleRule still = singleRule.newBucket 0 := by
    rw [bucketOf, hnone, Option.getD_none]
    rfl
  rw [check_of_rule hrule, hbucket]
  rfl

theorem check_of_spent {key : RateLimitKey} (hrule : L.findMatchingRule key = some singleRule) :
    ((L.setBucket key.asString spentBucket).check key still).1 =
      .ok (checkBucket singleRule still spentBucket).1 := by
  have hbucket : (L.setBucket key.asString spentBucket).bucketOf key singleRule still =
      spentBucket := by
    rw [bucketOf, lookup_setBucket, Option.getD_some]
  rw [check_of_rule ((findMatchingRule_setBucket _ _).trans hrule), hbucket]

theorem answersTo_check (L : TokenBucketRateLimiter) (key : RateLimitKey) :
    limiterMachine.answersTo (LimiterCall.asks key) L [.check key still] =
      [(L.check key still).1.map some] := if_pos (beq_self_eq_true key)

/-- Every rule can be removed. -/
theorem rules_run_removeRule (L : TokenBucketRateLimiter) :
    (limiterMachine.run L (L.rules.map fun rule => .removeRule rule.ruleId)).rules = [] := by
  obtain ⟨buckets, rules, defaultRule⟩ := L
  induction rules with
  | nil => rfl
  | cons rule rules ih =>
    have hstep : (limiterMachine.step ⟨buckets, rule :: rules, defaultRule⟩
        (.removeRule rule.ruleId)).2 = ⟨buckets, rules, defaultRule⟩ := by
      simp [limiterMachine, removeRule, List.findIdx?_cons]
    rw [List.map_cons, Machine.run_cons, hstep]
    exact ih

/-- From every state a run leads to one where every key has the rule with one token and the key
`k` has no bucket. -/
theorem exists_run_singleRule (L : TokenBucketRateLimiter) (k : RateLimitKey) : ∃ pre,
    (∀ key, (limiterMachine.run L pre).findMatchingRule key = some singleRule) ∧
      (limiterMachine.run L pre).buckets.lookup k.asString = none := by
  let clear : List LimiterCall := L.rules.map fun rule => .removeRule rule.ruleId
  let L₀ := limiterMachine.run L clear
  have hempty : L₀.rules = [] := rules_run_removeRule L
  have hadd : (L₀.addRule singleRule).2 = { L₀ with rules := [singleRule] } := by
    rw [addRule, hempty]
    rfl
  have hrun : limiterMachine.run L (clear ++ [.addRule singleRule, .reset k]) =
      reset { L₀ with rules := [singleRule] } k := by
    rw [Machine.run_append, ← hadd]
    rfl
  refine ⟨clear ++ [.addRule singleRule, .reset k], fun key => ?_, ?_⟩
  · rw [hrun]
    rfl
  · rw [hrun]
    exact AList.lookup_erase _ _

/-- The one token is taken under either key. -/
theorem not_independent_of_singleRule (hrule : ∀ key, L.findMatchingRule key = some singleRule)
    (hnone : L.buckets.lookup k₂.asString = none) (htext : k₁.asString = k₂.asString) :
    ¬ L.Independent k₁ k₂ := by
  intro h
  have hins : Inserted (fun call : LimiterCall => call.key? = some k₁)
      [.check k₂ still] [.check k₁ still, .check k₂ still] := .insert rfl (.refl _)
  have hwithout : limiterMachine.answersTo (LimiterCall.asks k₂) L [.check k₂ still] =
      [.ok (some (checkBucket singleRule still (singleRule.newBucket 0)).1)] := by
    rw [answersTo_check, check_of_fresh (hrule k₂) hnone]
    rfl
  have hspent : (limiterMachine.step L (.check k₁ still)).2 =
      L.setBucket k₂.asString spentBucket := by
    show (L.check k₁ still).2 = _
    rw [check_of_fresh (hrule k₁) (htext ▸ hnone), htext]
  have hafter : limiterMachine.answersTo (LimiterCall.asks k₂)
      (L.setBucket k₂.asString spentBucket) [.check k₂ still] =
        [.ok (some (checkBucket singleRule still spentBucket).1)] := by
    rw [answersTo_check, check_of_spent (hrule k₂)]
    rfl
  have hwith : (limiterMachine.answersTo (LimiterCall.asks k₂) L
      [.check k₁ still, .check k₂ still]).getLast? =
        some (.ok (some (checkBucket singleRule still spentBucket).1)) := by
    rw [Machine.answersTo, hspent, hafter]
    split_ifs <;> rfl
  -- the last answers of the two runs differ
  have hlast := congrArg List.getLast? (h _ _ hins)
  rw [hwith, hwithout, List.getLast?_singleton] at hlast
  have hresult := Option.some.inj (Except.ok.inj (Option.some.inj hlast))
  have hallowed := congrArg RateLimitResult.allowed hresult
  rw [allowed_newBucket, not_allowed_spentBucket] at hallowed
  cases hallowed

/-- Two keys are independent exactly when their texts differ. -/
theorem independent_iff : L.Independent k₁ k₂ ↔ k₁.asString ≠ k₂.asString := by
  refine ⟨fun h htext => ?_, independent_of_asString_ne⟩
  obtain ⟨pre, hrule, hnone⟩ := exists_run_singleRule L k₂
  exact not_independent_of_singleRule hrule hnone htext (h.run pre)

/-- A tool of a namespace, and a scope that goes on where the other one ends. -/
theorem tool_keys_not_independent :
    ¬ (withDefaultRule singleRule).Independent ⟨"tool", "com.example:search"⟩
      ⟨"tool:com.example", "search"⟩ :=
  not_independent_of_singleRule (fun _ => rfl) rfl rfl

end TokenBucketRateLimiter

end McpShield
