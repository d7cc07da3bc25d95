import McpShield.Telemetry.Instants

/-!
# What a result promises

`remaining` is the number of checks that the limiter goes on to allow at the same instant, and
`reset_after_secs` is the time after which it allows one again.
-/

namespace McpShield

/-! ## The whole tokens of a bucket -/

namespace TokenBucket

variable {rule : RateLimitRule} {b : TokenBucket} {t t' : ℚ}

/-- Nothing is gained in no time. -/
theorem Fits.refill_self (h : b.Fits rule) (hlast : b.lastRefill = t) : b.refill t = b := by
  have htokens : (b.refill t).tokens = b.tokens := by
    rw [h.refill_tokens, hlast, sub_self, max_self, Bucket.refill, zero_mul, add_zero]
    exact min_eq_left h.le
  calc b.refill t = { b with tokens := (b.refill t).tokens, lastRefill := t } := rfl
    _ = b := by
      rw [htokens, ← hlast]

/-- The count of the whole tokens does not overflow. -/
theorem Fits.toNat_floor (h : b.Fits rule) :
    (UInt64.ofNat ⌊b.tokens⌋.toNat).toNat = ⌊b.tokens⌋.toNat := by
  have hle : ⌊b.tokens⌋ ≤ (rule.capacity.toNat : ℤ) :=
    Int.floor_le_iff.mpr (h.le.trans_lt (by exact_mod_cast lt_add_one _))
  have hlt : rule.capacity.toNat < 2 ^ 64 := rule.capacity.toNat_lt
  have hfloor : ⌊b.tokens⌋.toNat < 2 ^ 64 := by omega
  exact UInt64.toNat_ofNat_of_lt' hfloor

/-- A bucket has a token when it has a whole one. -/
theorem one_le_tokens_iff : 1 ≤ b.tokens ↔ 0 < ⌊b.tokens⌋.toNat := by
  have hfloor : (1 : ℤ) ≤ ⌊b.tokens⌋ ↔ (1 : ℚ) ≤ b.tokens := by
    rw [Int.le_floor]
    norm_num
  rw [← hfloor]
  omega

/-- The wait until the bucket has a whole token again. -/
theorem Fits.reset_iff (h : b.Fits rule) (hlast : b.lastRefill = t) (hcap : 1 ≤ rule.capacity)
    (hrate : 0 < rule.rate) : ∃ w, b.resetAfterSecs = .finite w ∧
      ∀ t', t ≤ t' → (1 ≤ (b.refill t').tokens ↔ t + w ≤ t') := by
  have hroom : (1 : ℚ) ≤ rule.capacity.toNat := by
    exact_mod_cast UInt64.le_iff_toNat_le.mp hcap
  have htokens : ∀ t', t ≤ t' → (1 ≤ (b.refill t').tokens ↔ 1 ≤ b.tokens + (t' - t) * rule.rate) := by
    intro t' ht
    rw [h.refill_tokens, hlast, max_eq_left (sub_nonneg.mpr ht), Bucket.refill, le_min_iff]
    exact and_iff_left hroom
  unfold resetAfterSecs
  by_cases htoken : 1 ≤ b.tokens
  · refine ⟨0, if_pos htoken, fun t' ht => ?_⟩
    have hgain : 0 ≤ (t' - t) * rule.rate := mul_nonneg (sub_nonneg.mpr ht) hrate.le
    rw [htokens t' ht, add_zero]
    exact iff_of_true (by linarith) ht
  · refine ⟨(1 - b.tokens) / rule.rate, ?_, fun t' ht => ?_⟩
    · rw [if_neg htoken, h.rate_eq]
      exact if_pos hrate.ne'
    · rw [htokens t' ht, ← le_sub_iff_add_le', div_le_iff₀ hrate, sub_le_iff_le_add']

end TokenBucket

namespace KeyUse

variable {rule : RateLimitRule} {b : TokenBucket}

theorem fits_op (h : b.Fits rule) (u : KeyUse) : (u.op rule b).2.Fits rule := by
  unfold op
  split_ifs
  · exact h.refill
  · exact TokenBucketRateLimiter.fits_checkBucket h

/-- A check is allowed if there is a token, and takes it. -/
theorem checkBucket_instant (h : b.Fits rule) (t : ℚ) :
    (TokenBucketRateLimiter.checkBucket rule (.instant t) b).1.allowed =
        decide (1 ≤ (b.refill t).tokens) ∧
      (TokenBucketRateLimiter.checkBucket rule (.instant t) b).2.tokens =
        if 1 ≤ (b.refill t).tokens then (b.refill t).tokens - 1 else (b.refill t).tokens := by
  have hrefill : ((b.tryConsume 1 t).2).refill t = (b.tryConsume 1 t).2 :=
    (h.tryConsume t 0).1.refill_self (h.tryConsume t 0).2.1
  unfold TokenBucketRateLimiter.checkBucket TokenBucket.remaining
  dsimp only [Readings.instant]
  rw [hrefill]
  unfold TokenBucket.tryConsume
  by_cases htoken : 1 ≤ (b.refill t).tokens
  · simp [htoken]
  · simp [htoken]

/-- The result is about the bucket that it leaves. -/
theorem result_op (h : b.Fits rule) (u : KeyUse) :
    (u.op rule b).1.remaining.toNat = ⌊(u.op rule b).2.tokens⌋.toNat ∧
      (u.op rule b).1.resetAfterSecs = (u.op rule b).2.resetAfterSecs := by
  have hfits := fits_op h u
  unfold op at hfits ⊢
  split_ifs at hfits ⊢
  · exact ⟨hfits.toNat_floor, rfl⟩
  · refine ⟨?_, rfl⟩
    obtain ⟨hallowed, htokens⟩ := checkBucket_instant h u.time
    by_cases htoken : 1 ≤ (b.refill u.time).tokens
    · have hremaining : (TokenBucketRateLimiter.checkBucket rule (.instant u.time) b).1.remaining =
          .ofNat ⌊(TokenBucketRateLimiter.checkBucket rule (.instant u.time) b).2.tokens⌋.toNat := by
        unfold TokenBucketRateLimiter.checkBucket TokenBucket.tryConsume
        simp [Readings.instant, htoken, TokenBucket.remaining]
      rw [hremaining]
      exact hfits.toNat_floor
    · have hremaining :
          (TokenBucketRateLimiter.checkBucket rule (.instant u.time) b).1.remaining = 0 := by
        unfold TokenBucketRateLimiter.checkBucket TokenBucket.tryConsume
        simp [Readings.instant, htoken]
      rw [TokenBucket.one_le_tokens_iff] at htoken
      rw [hremaining, htokens, if_neg (by rwa [TokenBucket.one_le_tokens_iff])]
      exact (Nat.eq_zero_of_not_pos htoken).symm

end KeyUse

/-! ## What the limiter goes on to do -/

namespace TokenBucketRateLimiter

variable {L : TokenBucketRateLimiter} {key : RateLimitKey} {rule : RateLimitRule} {b : TokenBucket}
  {t t' : ℚ} {calls : List LimiterCall}

/-- A check of `key` at `t` is allowed. -/
def allowsAt (L : TokenBucketRateLimiter) (key : RateLimitKey) (t : ℚ) : Bool :=
  match (limiterMachine.step L (.check key (.instant t))).1 with
  | .ok (some result) => result.allowed
  | _ => false

/-- What a result at `t` says about the limiter: of the checks that follow at `t`, whatever happens
to other keys in between, the first `remaining` ones are allowed and no other one; and after a time
without a call on the key, a check is allowed once `reset_after_secs` have passed, and not before. -/
structure Promises (key : RateLimitKey) (t : ℚ) (result : RateLimitResult)
    (L : TokenBucketRateLimiter) : Prop where
  remaining : ∀ calls, (∀ call ∈ calls, call = .check key (.instant t) ∨
      concerns key.asString call = false) →
    ((limiterMachine.run L calls).allowsAt key t = true ↔
      calls.countP (LimiterCall.asks key) < result.remaining.toNat)
  reset : ∃ w, result.resetAfterSecs = .finite w ∧ ∀ calls, (∀ call ∈ calls,
      concerns key.asString call = false) → ∀ t', t ≤ t' →
    ((limiterMachine.run L calls).allowsAt key t' = true ↔ t + w ≤ t')

/-- The rule of `key` is `rule`, and its bucket is `b`. -/
structure Holds (key : RateLimitKey) (rule : RateLimitRule) (b : TokenBucket)
    (L : TokenBucketRateLimiter) : Prop where
  rule_eq : L.findMatchingRule key = some rule
  lookup_eq : L.buckets.lookup key.asString = some b
  fits : b.Fits rule

theorem allowsAt_of_rule (hrule : L.findMatchingRule key = some rule)
    (hfits : (L.bucketOf key rule (.instant t)).Fits rule) :
    L.allowsAt key t = decide (1 ≤ ((L.bucketOf key rule (.instant t)).refill t).tokens) := by
  rw [← (KeyUse.checkBucket_instant hfits t).1]
  unfold allowsAt
  simp only [limiterMachine, check_of_rule hrule]
  rfl

theorem Holds.bucketOf_eq (h : Holds key rule b L) (r : Readings) : L.bucketOf key rule r = b := by
  rw [bucketOf, h.lookup_eq, Option.getD_some]

theorem Holds.allowsAt_iff (h : Holds key rule b L) (t : ℚ) :
    L.allowsAt key t = true ↔ 1 ≤ (b.refill t).tokens := by
  have hfits : (L.bucketOf key rule (.instant t)).Fits rule := (h.bucketOf_eq _).symm ▸ h.fits
  rw [allowsAt_of_rule h.rule_eq hfits, h.bucketOf_eq, decide_eq_true_iff]

/-- Calls on other keys leave the bucket alone. -/
theorem Holds.step_of_unseen (h : Holds key rule b L) {call : LimiterCall}
    (hcall : concerns key.asString call = false) :
    Holds key rule b (limiterMachine.step L call).2 := by
  have hview : view key.asString (limiterMachine.step L call).2 = view key.asString L :=
    (unwinding key.asString).unseen L call hcall
  exact ⟨(findMatchingRule_congr hview).trans h.rule_eq,
    (congrArg View.bucket hview).trans h.lookup_eq, h.fits⟩

theorem Holds.step_check (h : Holds key rule b L) (t : ℚ) :
    Holds key rule (checkBucket rule (.instant t) b).2
      (limiterMachine.step L (.check key (.instant t))).2 := by
  have hstep : (limiterMachine.step L (.check key (.instant t))).2 =
      L.setBucket key.asString (checkBucket rule (.instant t) b).2 := by
    simp only [limiterMachine, check_of_rule h.rule_eq, h.bucketOf_eq]
  rw [hstep]
  exact ⟨h.rule_eq, lookup_setBucket _ _, fits_checkBucket h.fits⟩

/-- The whole tokens are the checks that are allowed at one instant. -/
theorem Holds.allowsAt_run_iff (h : Holds key rule b L) (hlast : b.lastRefill = t)
    (hcalls : ∀ call ∈ calls, call = .check key (.instant t) ∨
      concerns key.asString call = false) :
    (limiterMachine.run L calls).allowsAt key t = true ↔
      calls.countP (LimiterCall.asks key) < ⌊b.tokens⌋.toNat := by
  induction calls generalizing L b with
  | nil =>
    rw [List.countP_nil, ← TokenBucket.one_le_tokens_iff]
    exact (h.allowsAt_iff t).trans (by rw [h.fits.refill_self hlast])
  | cons call calls ih =>
    obtain ⟨hcall, hrest⟩ := List.forall_mem_cons.mp hcalls
    rw [Machine.run_cons]
    rcases hcall with rfl | hother
    · have hasks : LimiterCall.asks key (.check key (.instant t)) = true := beq_self_eq_true key
      have hafter : (checkBucket rule (.instant t) b).2.lastRefill = t := by
        rcases lastRefill_checkBucket rule (.instant t) b with h | h
        · exact h
        · exact h
      have htokens := (KeyUse.checkBucket_instant h.fits t).2
      rw [h.fits.refill_self hlast] at htokens
      rw [ih (h.step_check t) hafter hrest, List.countP_cons_of_pos hasks, htokens]
      split_ifs with htoken
      · have hfloor : (1 : ℤ) ≤ ⌊b.tokens⌋ := Int.le_floor.mpr (by exact_mod_cast htoken)
        rw [Int.floor_sub_one]
        omega
      · rw [TokenBucket.one_le_tokens_iff] at htoken
        omega
    · have hasks : LimiterCall.asks key call ≠ true := fun hasks => by
        rw [concerns_of_asks hasks] at hother
        cases hother
      rw [ih (h.step_of_unseen hother) hlast hrest, List.countP_cons_of_neg hasks]

theorem Holds.run_of_unseen (h : Holds key rule b L)
    (hcalls : ∀ call ∈ calls, concerns key.asString call = false) :
    Holds key rule b (limiterMachine.run L calls) :=
  limiterMachine.run_induction (fun _ _ hcall h => h.step_of_unseen hcall) h hcalls

/-- The result of a use promises what its bucket allows. -/
theorem Holds.promises (h : Holds key rule b L) (hlast : b.lastRefill = t)
    (hcap : 1 ≤ rule.capacity) (hrate : 0 < rule.rate) {result : RateLimitResult}
    (hremaining : result.remaining.toNat = ⌊b.tokens⌋.toNat)
    (hreset : result.resetAfterSecs = b.resetAfterSecs) : Promises key t result L where
  remaining calls hcalls := by
    rw [hremaining]
    exact h.allowsAt_run_iff hlast hcalls
  reset := by
    obtain ⟨w, hw, hiff⟩ := h.fits.reset_iff hlast hcap hrate
    exact ⟨w, hreset.trans hw, fun calls hcalls t' ht =>
      ((h.run_of_unseen hcalls).allowsAt_iff t').trans (hiff t' ht)⟩

/-! ## Reachable buckets -/

/-- If the call creates the bucket of `key`, it does so by `rule`. -/
def CreatedBy (key : RateLimitKey) (rule : RateLimitRule) (L : TokenBucketRateLimiter) :
    LimiterCall → Prop
  | .check key' _ | .peek key' _ => key'.asString = key.asString →
      L.buckets.lookup key.asString = none →
        ∀ rule', L.findMatchingRule key' = some rule' → rule' = rule
  | _ => True

/-- The bucket of `key`, if there is one, is as the rule has it. -/
def FitsAt (key : RateLimitKey) (rule : RateLimitRule) (L : TokenBucketRateLimiter) : Prop :=
  ∀ bucket, L.buckets.lookup key.asString = some bucket → bucket.Fits rule

theorem FitsAt.bucketOf (h : FitsAt key rule L) (hwin : 1 ≤ rule.windowSeconds)
    {key' : RateLimitKey} (hkey : key'.asString = key.asString) {rule' : RateLimitRule}
    (hrule : L.buckets.lookup key.asString = none → rule' = rule) (r : Readings) :
    (L.bucketOf key' rule' r).Fits rule := by
  unfold TokenBucketRateLimiter.bucketOf
  rw [hkey]
  cases hlookup : L.buckets.lookup key.asString with
  | none =>
    obtain rfl := hrule hlookup
    exact TokenBucket.fits_newBucket hwin r.created
  | some bucket => exact h bucket hlookup

theorem FitsAt.step (h : FitsAt key rule L) (hwin : 1 ≤ rule.windowSeconds) {call : LimiterCall}
    (hcall : CreatedBy key rule L call) : FitsAt key rule (limiterMachine.step L call).2 := by
  intro bucket hb
  by_cases hkeeps : call.Keeps key
  · obtain ⟨hsame, -⟩ | ⟨key', rule', r, hkey, rfl, hrule, hstep⟩ |
        ⟨key', rule', r, hkey, rfl, hrule, hstep⟩ := step_cases key L hkeeps
    · exact h bucket (hsame ▸ hb)
    · have hfits := h.bucketOf hwin hkey (fun hnone => hcall hkey hnone rule' hrule) r
      rw [hstep, lookup_setBucket] at hb
      exact Option.some.inj hb ▸ fits_checkBucket hfits
    · have hfits := h.bucketOf hwin hkey (fun hnone => hcall hkey hnone rule' hrule) r
      rw [hstep, lookup_setBucket] at hb
      exact Option.some.inj hb ▸ hfits.refill
  · cases call with
    | reset key' =>
      have htext : key'.asString = key.asString := not_not.mp hkeeps
      exact absurd htext.symm (KeyedStore.lookup_of_erase hb).1
    | _ => exact absurd trivial hkeeps

theorem rate_pos (hreq : 1 ≤ rule.requestsPerWindow) (hwin : 1 ≤ rule.windowSeconds) :
    0 < rule.rate := by
  have hreq_pos : 0 < rule.requestsPerWindow.toNat := UInt64.le_iff_toNat_le.mp hreq
  have hwin_pos : 0 < rule.windowSeconds.toNat := UInt32.le_iff_toNat_le.mp hwin
  unfold RateLimitRule.rate
  positivity

/-- A peek allows what a check would be allowed. -/
theorem allowed_peekBucket (h : b.Fits rule) (t : ℚ) :
    (peekBucket rule (.instant t) b).1.allowed = decide (1 ≤ (b.refill t).tokens) := by
  have hrefill : (b.refill t).Fits rule := h.refill
  have hcount : (0 : UInt64) < .ofNat ⌊(b.refill t).tokens⌋.toNat ↔ 1 ≤ (b.refill t).tokens := by
    rw [UInt64.lt_iff_toNat_lt, hrefill.toNat_floor, TokenBucket.one_le_tokens_iff]
    rfl
  exact decide_eq_decide.mpr hcount

/-- While the buckets of a key are created by one rule, the results of its checks and peeks under
that rule are exact. -/
theorem result_exact (hcap : 1 ≤ rule.capacity) (hreq : 1 ≤ rule.requestsPerWindow)
    (hwin : 1 ≤ rule.windowSeconds) {calls : List LimiterCall}
    (hnew : L.buckets.lookup key.asString = none)
    (hcalls : limiterMachine.Along (CreatedBy key rule) L calls)
    (hrule : (limiterMachine.run L calls).findMatchingRule key = some rule) (u : KeyUse) :
    ∃ result, (limiterMachine.step (limiterMachine.run L calls) (u.call key)).1 =
        .ok (some result) ∧
      Promises key u.time result
        (limiterMachine.step (limiterMachine.run L calls) (u.call key)).2 ∧
      (u.peeks = true →
        result.allowed = (limiterMachine.run L calls).allowsAt key u.time) := by
  have hstart : FitsAt key rule L := fun bucket hb => by simp [hnew] at hb
  have hrun : FitsAt key rule (limiterMachine.run L calls) :=
    hcalls.run_induction hstart fun L call hcall h => h.step hwin hcall
  have hfits : ((limiterMachine.run L calls).bucketOf key rule (.instant u.time)).Fits rule :=
    hrun.bucketOf hwin rfl (fun _ => rfl) _
  generalize limiterMachine.run L calls = L' at hrule hfits ⊢
  obtain ⟨hremaining, hreset⟩ := KeyUse.result_op hfits u
  rw [step_use hrule]
  refine ⟨_, rfl, ?_, fun hpeeks => ?_⟩
  · have hholds : Holds key rule (u.op rule (L'.bucketOf key rule (.instant u.time))).2
        (L'.setBucket key.asString (u.op rule (L'.bucketOf key rule (.instant u.time))).2) :=
      ⟨hrule, lookup_setBucket _ _, KeyUse.fits_op hfits u⟩
    exact hholds.promises u.lastRefill_op hcap (rate_pos hreq hwin) hremaining hreset
  · rw [allowsAt_of_rule hrule hfits, KeyUse.op, if_pos hpeeks]
    exact allowed_peekBucket hfits u.time

theorem result_exact_burst :
    ∃ result, (limiterMachine.step (limiterMachine.run (withDefaultRule burstRule)
        (burstCalls ⟨"user", "alice"⟩)) (KeyUse.call ⟨"user", "alice"⟩ ⟨true, 40⟩)).1 =
          .ok (some result) ∧
      Promises ⟨"user", "alice"⟩ 40 result (limiterMachine.step (limiterMachine.run
        (withDefaultRule burstRule) (burstCalls ⟨"user", "alice"⟩))
          (KeyUse.call ⟨"user", "alice"⟩ ⟨true, 40⟩)).2 ∧
      (true = true → result.allowed = (limiterMachine.run (withDefaultRule burstRule)
        (burstCalls ⟨"user", "alice"⟩)).allowsAt ⟨"user", "alice"⟩ 40) := by
  have hcreated : limiterMachine.Along (CreatedBy ⟨"user", "alice"⟩ burstRule)
      (withDefaultRule burstRule) (burstCalls ⟨"user", "alice"⟩) := by
    have hrule : ∀ L : TokenBucketRateLimiter, L.findMatchingRule ⟨"user", "alice"⟩ =
        some burstRule → ∀ rule', L.findMatchingRule ⟨"user", "alice"⟩ = some rule' →
          rule' = burstRule := fun _ hL _ hrule' => Option.some.inj (hrule'.symm.trans hL)
    exact ⟨fun _ _ => hrule _ rfl, fun _ _ => hrule _ rfl, fun _ _ => hrule _ rfl,
      fun _ _ => hrule _ rfl, trivial⟩
  exact result_exact (by decide) (by decide) (by decide) rfl hcreated rfl ⟨true, 40⟩

end TokenBucketRateLimiter

end McpShield
