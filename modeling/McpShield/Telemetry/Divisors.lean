import McpShield.Telemetry.RuleChanges

/-!
# Divisors

A new bucket divides the requests of its rule by the seconds of its window, and a bucket with less
than one token divides by its refill rate.  Rules are added without a look at either number:
`noZeroDivisor_iff` says for which pairs of them no run divides by zero.
-/

namespace McpShield

/-- The divisor of the quotient that `reset_after_secs` evaluates, if it does. -/
def TokenBucket.resetDivisors (b : TokenBucket) : List Ratio :=
  if 1 ≤ b.tokens then [] else [b.refillRate]

namespace TokenBucketRateLimiter

/-- The divisor of the quotient that `with_bucket` evaluates, if it creates a bucket. -/
def creationDivisors (L : TokenBucketRateLimiter) (key : String) (rule : RateLimitRule) :
    List Ratio :=
  match L.buckets.lookup key with
  | some _ => []
  | none => [.finite rule.windowSeconds.toNat]

/-- The divisors of a use of a bucket, which ends with `reset_after_secs`. -/
def useDivisors (L : TokenBucketRateLimiter) (key : RateLimitKey) (t : Readings)
    (f : RateLimitRule → TokenBucket → RateLimitResult × TokenBucket) : List Ratio :=
  match L.findMatchingRule key with
  | none => []
  | some rule => L.creationDivisors key.asString rule ++
      (f rule (L.bucketOf key rule t)).2.resetDivisors

/-- The divisors of the quotients that a call evaluates. -/
def divisors (L : TokenBucketRateLimiter) : LimiterCall → List Ratio
  | .check key t => L.useDivisors key t fun rule => checkBucket rule t
  | .peek key t => L.useDivisors key t fun rule => peekBucket rule t
  | .reset _ | .addRule _ | .removeRule _ => []

/-- No quotient that the call evaluates has a zero divisor. -/
def NoZeroDivisor (L : TokenBucketRateLimiter) (call : LimiterCall) : Prop :=
  .finite 0 ∉ L.divisors call

/-- The requests and the window of a rule, of a pair that is among `accepts`. -/
def RateIn (accepts : UInt64 → UInt32 → Prop) (rule : RateLimitRule) : Prop :=
  accepts rule.requestsPerWindow rule.windowSeconds

/-! ## Positive rates -/

/-- The rule has requests and a window. -/
def Positive (rule : RateLimitRule) : Prop :=
  rule.requestsPerWindow ≠ 0 ∧ rule.windowSeconds ≠ 0

/-- The bucket has a refill rate to divide by. -/
def Refills (b : TokenBucket) : Prop := ∃ rate, 0 < rate ∧ b.refillRate = .finite rate

section Positive

variable {L : TokenBucketRateLimiter} {rule : RateLimitRule} {b : TokenBucket}
  {call : LimiterCall} {key : RateLimitKey} {t : Readings}

theorem windowSeconds_ne_zero (h : Positive rule) : (rule.windowSeconds.toNat : ℚ) ≠ 0 :=
  Nat.cast_ne_zero.mpr fun h0 => h.2 (UInt32.toNat_inj.mp h0)

theorem Positive.rate_pos (h : Positive rule) : 0 < rule.rate := by
  have hrequests : rule.requestsPerWindow.toNat ≠ 0 := fun h0 => h.1 (UInt64.toNat_inj.mp h0)
  have hwindow : rule.windowSeconds.toNat ≠ 0 := fun h0 => h.2 (UInt32.toNat_inj.mp h0)
  exact div_pos (Nat.cast_pos.mpr (Nat.pos_of_ne_zero hrequests))
    (Nat.cast_pos.mpr (Nat.pos_of_ne_zero hwindow))

theorem Positive.refills_newBucket (h : Positive rule) (now : ℚ) : Refills (rule.newBucket now) :=
  ⟨rule.rate, h.rate_pos, if_pos (windowSeconds_ne_zero h)⟩

theorem Refills.resetDivisors (h : Refills b) : .finite 0 ∉ b.resetDivisors := by
  obtain ⟨rate, hpos, hrate⟩ := h
  unfold TokenBucket.resetDivisors
  split_ifs
  · exact List.not_mem_nil
  · rw [hrate, List.mem_singleton, Ratio.finite.injEq]
    exact hpos.ne

/-- A check keeps the refill rate. -/
theorem refillRate_checkBucket (rule : RateLimitRule) (t : Readings) (b : TokenBucket) :
    (checkBucket rule t b).2.refillRate = b.refillRate := by
  unfold checkBucket TokenBucket.tryConsume
  by_cases htoken : 1 ≤ (b.refill t.refilled).tokens
  · simp only [if_pos htoken]
    rfl
  · simp only [if_neg htoken]
    rfl

theorem refillRate_peekBucket (rule : RateLimitRule) (t : Readings) (b : TokenBucket) :
    (peekBucket rule t b).2.refillRate = b.refillRate := rfl

/-- All rules have requests and a window, and all buckets refill. -/
structure AllPositive (L : TokenBucketRateLimiter) : Prop where
  rules : ∀ rule ∈ L.rules, Positive rule
  default : ∀ rule, L.defaultRule = some rule → Positive rule
  buckets : ∀ text b, L.buckets.lookup text = some b → Refills b

theorem AllPositive.matching (h : AllPositive L) (hrule : L.findMatchingRule key = some rule) :
    Positive rule := by
  rcases Option.or_eq_some_iff.mp hrule with hhead | ⟨-, hdefault⟩
  · have hmem := List.mem_of_mem_head? hhead
    rw [sortByPriority, List.mem_insertionSort] at hmem
    exact h.rules rule (List.mem_of_mem_filter hmem)
  · exact h.default rule hdefault

theorem AllPositive.bucketOf (h : AllPositive L) (hrule : Positive rule) (key : RateLimitKey)
    (t : Readings) : Refills (L.bucketOf key rule t) := by
  unfold TokenBucketRateLimiter.bucketOf
  cases hlookup : L.buckets.lookup key.asString with
  | none => exact hrule.refills_newBucket t.created
  | some b => exact h.buckets _ b hlookup

theorem AllPositive.setBucket (h : AllPositive L) (text : String) (hb : Refills b) :
    AllPositive (L.setBucket text b) where
  rules := h.rules
  default := h.default
  buckets other b' hb' := by
    by_cases heq : other = text
    · subst heq
      rw [lookup_setBucket] at hb'
      exact Option.some.inj hb' ▸ hb
    · rw [lookup_setBucket_ne heq] at hb'
      exact h.buckets other b' hb'

/-- A use that keeps the refill rate divides by nothing that is zero, and all stays positive. -/
theorem AllPositive.useBucket (h : AllPositive L)
    {f : RateLimitRule → TokenBucket → RateLimitResult × TokenBucket}
    (hf : ∀ rule b, (f rule b).2.refillRate = b.refillRate) (key : RateLimitKey) (t : Readings) :
    .finite 0 ∉ L.useDivisors key t f ∧ AllPositive (L.useBucket key t.created f).2 := by
  unfold useDivisors TokenBucketRateLimiter.useBucket
  cases hrule : L.findMatchingRule key with
  | none => exact ⟨List.not_mem_nil, h⟩
  | some rule =>
    have hpositive := h.matching hrule
    have hafter : Refills (f rule (L.bucketOf key rule t)).2 := by
      obtain ⟨rate, hpos, hrate⟩ := h.bucketOf hpositive key t
      exact ⟨rate, hpos, (hf rule _).trans hrate⟩
    refine ⟨fun hzero => ?_, h.setBucket key.asString hafter⟩
    rcases List.mem_append.mp hzero with hzero | hzero
    · unfold creationDivisors at hzero
      cases hlookup : L.buckets.lookup key.asString with
      | some b => simp [hlookup] at hzero
      | none =>
        rw [hlookup, List.mem_singleton, Ratio.finite.injEq] at hzero
        exact windowSeconds_ne_zero hpositive hzero.symm
    · exact hafter.resetDivisors hzero

theorem AllPositive.addRule (h : AllPositive L) (hrule : Positive rule) :
    AllPositive (L.addRule rule).2 := by
  unfold TokenBucketRateLimiter.addRule
  split_ifs
  · exact h
  · refine ⟨fun r hr => ?_, h.default, h.buckets⟩
    rw [sortByPriority, List.mem_insertionSort, List.mem_append, List.mem_singleton] at hr
    rcases hr with hr | rfl
    · exact h.rules r hr
    · exact hrule

theorem AllPositive.removeRule (h : AllPositive L) (ruleId : String) :
    AllPositive (L.removeRule ruleId).2 := by
  unfold TokenBucketRateLimiter.removeRule
  cases L.rules.findIdx? (·.ruleId == ruleId) with
  | none => exact h
  | some idx => exact ⟨fun r hr => h.rules r (List.mem_of_mem_eraseIdx hr), h.default, h.buckets⟩

theorem AllPositive.reset (h : AllPositive L) (key : RateLimitKey) : AllPositive (L.reset key) where
  rules := h.rules
  default := h.default
  buckets text b hb := h.buckets text b (KeyedStore.lookup_of_erase hb).2

/-- A call that adds no rule without requests or window divides by nothing that is zero. -/
theorem AllPositive.step (h : AllPositive L)
    (hcall : ∀ rule, call = .addRule rule → Positive rule) :
    NoZeroDivisor L call ∧ AllPositive (limiterMachine.step L call).2 := by
  cases call with
  | check key t => exact h.useBucket (fun rule b => refillRate_checkBucket rule t b) key t
  | peek key t => exact h.useBucket (fun rule b => refillRate_peekBucket rule t b) key t
  | reset key => exact ⟨List.not_mem_nil, h.reset key⟩
  | addRule rule => exact ⟨List.not_mem_nil, h.addRule (hcall rule rfl)⟩
  | removeRule ruleId => exact ⟨List.not_mem_nil, h.removeRule ruleId⟩

theorem IsNew.allPositive (h : IsNew L)
    (hdefault : ∀ rule, L.defaultRule = some rule → Positive rule) : AllPositive L := by
  rcases h with rfl | ⟨defaultRule, rfl⟩
  · exact ⟨fun r hr => absurd hr List.not_mem_nil, hdefault, fun text b hb => by cases hb⟩
  · exact ⟨fun r hr => absurd hr List.not_mem_nil, hdefault, fun text b hb => by cases hb⟩

end Positive

/-! ## Rules that divide by zero -/

/-- A rule for all keys whose capacity is its number of requests. -/
def rateRule (requestsPerWindow : UInt64) (windowSeconds : UInt32) : RateLimitRule :=
  { ruleId := "rate", scope := "global", scopeValue := none, algorithm := .tokenBucket,
    requestsPerWindow, windowSeconds, burstAllowance := none, action := .reject, priority := 0,
    enabled := true }

/-- The rule is added and used once. -/
def rateCalls (requestsPerWindow : UInt64) (windowSeconds : UInt32) : List LimiterCall :=
  [.addRule (rateRule requestsPerWindow windowSeconds), .check ⟨"user", "alice"⟩ ⟨0, 0, 0⟩]

theorem divisors_rateCalls (requests : UInt64) (window : UInt32) :
    ((new.addRule (rateRule requests window)).2).divisors (.check ⟨"user", "alice"⟩ ⟨0, 0, 0⟩) =
      .finite window.toNat ::
        (checkBucket (rateRule requests window) ⟨0, 0, 0⟩
          ((rateRule requests window).newBucket 0)).2.resetDivisors := rfl

/-- A rule with a window and no requests has no tokens and no rate. -/
theorem resetDivisors_of_noRequests {window : UInt32} (h : window ≠ 0) :
    (checkBucket (rateRule 0 window) ⟨0, 0, 0⟩ ((rateRule 0 window).newBucket 0)).2.resetDivisors =
      [.finite 0] := by
  have hwindow : (window.toNat : ℚ) ≠ 0 :=
    Nat.cast_ne_zero.mpr fun h0 => h (UInt32.toNat_inj.mp h0)
  have hbucket : (rateRule 0 window).newBucket 0 = ⟨0, 0, 0, .finite 0⟩ := by
    simp [RateLimitRule.newBucket, TokenBucket.new, RateLimitRule.capacity, rateRule, Ratio.div,
      hwindow]
  have hrefill : (TokenBucket.mk 0 0 0 (.finite 0)).refill 0 = ⟨0, 0, 0, .finite 0⟩ := by
    simp [TokenBucket.refill, Bucket.refill]
  have hempty : ¬ (1 : ℚ) ≤ 0 := not_le.mpr zero_lt_one
  rw [hbucket]
  simp [checkBucket, TokenBucket.tryConsume, hrefill, hempty, TokenBucket.resetDivisors]

/-- A pair of requests and window without one of them divides by zero at the first check. -/
theorem positive_of_noZeroDivisor {requests : UInt64} {window : UInt32}
    (h : limiterMachine.Along NoZeroDivisor new (rateCalls requests window)) :
    requests ≠ 0 ∧ window ≠ 0 := by
  have hcheck := h.2.1
  rw [NoZeroDivisor] at hcheck
  have hmem := divisors_rateCalls requests window
  have hwindow : window ≠ 0 := by
    rintro rfl
    exact hcheck (hmem ▸ List.mem_cons_self)
  refine ⟨?_, hwindow⟩
  rintro rfl
  rw [resetDivisors_of_noRequests hwindow] at hmem
  exact hcheck (hmem ▸ List.mem_cons_of_mem _ (List.mem_singleton_self _))

/-- Where rules are accepted by their requests and their window, no run divides by zero exactly when
every accepted pair has both. -/
theorem noZeroDivisor_iff (accepts : UInt64 → UInt32 → Prop) :
    (∀ L, IsNew L → (∀ rule, L.defaultRule = some rule → RateIn accepts rule) →
        ∀ calls, (∀ rule, .addRule rule ∈ calls → RateIn accepts rule) →
          limiterMachine.Along NoZeroDivisor L calls) ↔
      ∀ requests window, accepts requests window → requests ≠ 0 ∧ window ≠ 0 := by
  constructor
  · intro h requests window haccepts
    refine positive_of_noZeroDivisor (h new (.inl rfl) (fun rule hrule => by cases hrule) _ ?_)
    intro rule hrule
    have heq : rule = rateRule requests window := by simpa [rateCalls] using hrule
    exact heq ▸ haccepts
  · intro h L hnew hdefault calls hcalls
    have hpositive := hnew.allPositive fun rule hrule => h _ _ (hdefault rule hrule)
    refine Machine.along_of_induction (R := fun call => ∀ rule, call = .addRule rule → Positive rule)
      hpositive (fun call hcall rule hrule => ?_) fun L call hcall hL => hL.step hcall
    exact h _ _ (hcalls rule (hrule ▸ hcall))

/-- A rule without a window is added and a bucket is created; a rule without requests is added and
the time to the next token is computed. -/
theorem rateCalls_divide_by_zero :
    ¬ limiterMachine.Along NoZeroDivisor new (rateCalls 5 0) ∧
      ¬ limiterMachine.Along NoZeroDivisor new (rateCalls 0 60) :=
  ⟨fun h => (positive_of_noZeroDivisor h).2 rfl, fun h => (positive_of_noZeroDivisor h).1 rfl⟩

end TokenBucketRateLimiter

end McpShield
