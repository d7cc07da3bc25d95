import Mathlib.Data.List.AList
import Mathlib.Data.List.Sort
import Mathlib.Data.Rat.Floor
import McpShield.Lib.Bucket
import McpShield.Lib.KeyedStore
import McpShield.Lib.Machine

/-!
# The rate limiter

A token bucket for each key, created by the rule that matches the key at its first use.  Numbers
are exact: the floating-point values of the code are rational numbers here, and the clock is read
in seconds.
-/

namespace McpShield

/-- A key of the rate limiter. -/
structure RateLimitKey where
  scope : String
  value : String
deriving DecidableEq, Repr

/-- The text under which the bucket of a key is kept. -/
def RateLimitKey.asString (key : RateLimitKey) : String := s!"{key.scope}:{key.value}"

inductive RateLimitAlgorithm where
  | tokenBucket
  | slidingWindow
  | fixedWindow
deriving DecidableEq, Repr

inductive RateLimitAction where
  | reject
  | throttle
  | queue
deriving DecidableEq, Repr

/-- A rate limit rule. -/
structure RateLimitRule where
  ruleId : String
  scope : String
  scopeValue : Option String
  algorithm : RateLimitAlgorithm
  requestsPerWindow : UInt64
  windowSeconds : UInt32
  burstAllowance : Option UInt64
  action : RateLimitAction
  priority : Int32
  enabled : Bool
deriving DecidableEq

/-- The value of a division of numbers that are not negative, which may be by zero. -/
inductive Ratio where
  | finite (q : ℚ)
  | infinite
  | undefined
deriving DecidableEq

/-- Floating-point division. -/
def Ratio.div (a b : ℚ) : Ratio :=
  if b ≠ 0 then .finite (a / b) else if a = 0 then .undefined else .infinite

/-- The result of a check or a peek. -/
structure RateLimitResult where
  allowed : Bool
  remaining : UInt64
  resetAfterSecs : Ratio
  limit : UInt64
  ruleId : Option String
  action : Option RateLimitAction
deriving DecidableEq

/-- The errors of the rate limiter. -/
inductive RateLimitError where
  | exceeded (msg : String)
  | ruleNotFound (ruleId : String)
  | invalidConfig (msg : String)
deriving DecidableEq, Repr

/-- The token bucket of a key. -/
structure TokenBucket where
  tokens : ℚ
  lastRefill : ℚ
  capacity : UInt64
  refillRate : Ratio
deriving DecidableEq

namespace TokenBucket

/-- A full bucket. -/
def new (capacity : UInt64) (refillRate : Ratio) (now : ℚ) : TokenBucket :=
  { tokens := capacity.toNat, lastRefill := now, capacity, refillRate }

/-- Add the tokens since the last refill.  An infinite rate fills the bucket; so does an undefined
one, since the minimum with a number that is undefined is the other number. -/
def refill (b : TokenBucket) (now : ℚ) : TokenBucket :=
  let elapsed := max (now - b.lastRefill) 0
  let tokens := match b.refillRate with
    | .finite rate => Bucket.refill (b.capacity.toNat : ℚ) rate elapsed b.tokens
    | .infinite | .undefined => b.capacity.toNat
  { b with tokens, lastRefill := now }

/-- Take some tokens if there are as many. -/
def tryConsume (b : TokenBucket) (tokens : ℚ) (now : ℚ) : Bool × TokenBucket :=
  let b := b.refill now
  if tokens ≤ b.tokens then (true, { b with tokens := b.tokens - tokens }) else (false, b)

/-- The number of whole tokens. -/
def remaining (b : TokenBucket) (now : ℚ) : UInt64 × TokenBucket :=
  let b := b.refill now
  (.ofNat ⌊b.tokens⌋.toNat, b)

/-- The time until there is a whole token. -/
def resetAfterSecs (b : TokenBucket) : Ratio :=
  if 1 ≤ b.tokens then .finite 0 else
    match b.refillRate with
    | .finite rate => .div (1 - b.tokens) rate
    | .infinite => .finite 0
    | .undefined => .undefined

end TokenBucket

/-- The readings of the clock during a call: for a new bucket, for the refill, and for the refill
that precedes the count of what remains. -/
structure Readings where
  created : ℚ
  refilled : ℚ
  counted : ℚ

structure TokenBucketRateLimiter where
  buckets : AList fun _ : String => TokenBucket
  rules : List RateLimitRule
  defaultRule : Option RateLimitRule

/-- `sort_by_key` with the negated priority: a stable sort. -/
def sortByPriority (rules : List RateLimitRule) : List RateLimitRule :=
  rules.insertionSort fun r r' => -r.priority ≤ -r'.priority

namespace TokenBucketRateLimiter

def new : TokenBucketRateLimiter := { buckets := ∅, rules := [], defaultRule := none }

def withDefaultRule (defaultRule : RateLimitRule) : TokenBucketRateLimiter :=
  { buckets := ∅, rules := [], defaultRule := some defaultRule }

/-- The rule with the highest priority among those that match a key. -/
def findMatchingRule (L : TokenBucketRateLimiter) (key : RateLimitKey) : Option RateLimitRule :=
  let matching := L.rules.filter fun r =>
    r.enabled && (r.scope == "global" ||
      (r.scope == key.scope && (r.scopeValue.isNone || r.scopeValue == some key.value)))
  (sortByPriority matching).head?.or L.defaultRule

end TokenBucketRateLimiter

/-- The capacity of a bucket under a rule. -/
def RateLimitRule.capacity (rule : RateLimitRule) : UInt64 :=
  rule.burstAllowance.getD rule.requestsPerWindow

/-- The bucket that a rule creates. -/
def RateLimitRule.newBucket (rule : RateLimitRule) (now : ℚ) : TokenBucket :=
  .new rule.capacity (.div rule.requestsPerWindow.toNat rule.windowSeconds.toNat) now

namespace TokenBucketRateLimiter

/-- The limiter with a new value for a bucket. -/
def setBucket (L : TokenBucketRateLimiter) (key : String) (b : TokenBucket) :
    TokenBucketRateLimiter :=
  { L with buckets := L.buckets.insert key b }

/-- Get or create the bucket of a key and perform an operation on it. -/
def withBucket {T : Type} (L : TokenBucketRateLimiter) (key : String) (rule : RateLimitRule)
    (created : ℚ) (f : TokenBucket → T × TokenBucket) : T × TokenBucketRateLimiter :=
  let bucket := (L.buckets.lookup key).getD (rule.newBucket created)
  let (out, bucket) := f bucket
  (out, L.setBucket key bucket)

/-- The error of a key that no rule matches. -/
def noRule : RateLimitError := .invalidConfig "No matching rate limit rule found"

/-- What a check does with the bucket. -/
def checkBucket (rule : RateLimitRule) (t : Readings) (b : TokenBucket) :
    RateLimitResult × TokenBucket :=
  let (allowed, b) := b.tryConsume 1 t.refilled
  let (remaining, b) := if allowed then b.remaining t.counted else (0, b)
  ({ allowed, remaining, resetAfterSecs := b.resetAfterSecs, limit := rule.requestsPerWindow,
     ruleId := some rule.ruleId, action := if allowed then none else some rule.action }, b)

/-- What a peek does with the bucket. -/
def peekBucket (rule : RateLimitRule) (t : Readings) (b : TokenBucket) :
    RateLimitResult × TokenBucket :=
  let (remaining, b) := b.remaining t.refilled
  ({ allowed := 0 < remaining, remaining, resetAfterSecs := b.resetAfterSecs,
     limit := rule.requestsPerWindow, ruleId := some rule.ruleId, action := none }, b)

/-- Check whether a request is allowed, and take a token if it is. -/
def check (L : TokenBucketRateLimiter) (key : RateLimitKey) (t : Readings) :
    Except RateLimitError RateLimitResult × TokenBucketRateLimiter :=
  match L.findMatchingRule key with
  | none => (.error noRule, L)
  | some rule =>
      let (result, L) := L.withBucket key.asString rule t.created (checkBucket rule t)
      (.ok result, L)

/-- The status of a key. -/
def peek (L : TokenBucketRateLimiter) (key : RateLimitKey) (t : Readings) :
    Except RateLimitError RateLimitResult × TokenBucketRateLimiter :=
  match L.findMatchingRule key with
  | none => (.error noRule, L)
  | some rule =>
      let (result, L) := L.withBucket key.asString rule t.created (peekBucket rule t)
      (.ok result, L)

/-- Forget the bucket of a key. -/
def reset (L : TokenBucketRateLimiter) (key : RateLimitKey) : TokenBucketRateLimiter :=
  { L with buckets := L.buckets.erase key.asString }

def addRule (L : TokenBucketRateLimiter) (rule : RateLimitRule) :
    Except RateLimitError Unit × TokenBucketRateLimiter :=
  if L.rules.any (·.ruleId == rule.ruleId) then
    (.error (.invalidConfig s!"Rule with ID '{rule.ruleId}' already exists"), L)
  else (.ok (), { L with rules := sortByPriority (L.rules ++ [rule]) })

def removeRule (L : TokenBucketRateLimiter) (ruleId : String) :
    Except RateLimitError Unit × TokenBucketRateLimiter :=
  match L.rules.findIdx? (·.ruleId == ruleId) with
  | some idx => (.ok (), { L with rules := L.rules.eraseIdx idx })
  | none => (.error (.ruleNotFound ruleId), L)

end TokenBucketRateLimiter

/-- A call on the rate limiter. -/
inductive LimiterCall where
  | check (key : RateLimitKey) (t : Readings)
  | peek (key : RateLimitKey) (t : Readings)
  | reset (key : RateLimitKey)
  | addRule (rule : RateLimitRule)
  | removeRule (ruleId : String)

/-- The limiter as a machine, one call after another; an answer without a result is `none`.  A check
selects its rule under one lock and serves its bucket under another: between the two the rules can
change, and `ClockedLimiter` takes the locks one by one. -/
def limiterMachine :
    Machine TokenBucketRateLimiter LimiterCall (Except RateLimitError (Option RateLimitResult)) where
  step L
    | .check key t => ((L.check key t).1.map some, (L.check key t).2)
    | .peek key t => ((L.peek key t).1.map some, (L.peek key t).2)
    | .reset key => (.ok none, L.reset key)
    | .addRule rule => ((L.addRule rule).1.map fun _ => none, (L.addRule rule).2)
    | .removeRule ruleId => ((L.removeRule ruleId).1.map fun _ => none, (L.removeRule ruleId).2)

/-! ## The bucket of a rule -/

/-- The refill rate of a rule. -/
def RateLimitRule.rate (rule : RateLimitRule) : ℚ :=
  rule.requestsPerWindow.toNat / rule.windowSeconds.toNat

/-- A bucket as the rule has it, with at most `capacity` tokens. -/
structure TokenBucket.Fits (rule : RateLimitRule) (b : TokenBucket) : Prop where
  capacity_eq : b.capacity = rule.capacity
  rate_eq : b.refillRate = .finite rule.rate
  nonneg : 0 ≤ b.tokens
  le : b.tokens ≤ rule.capacity.toNat

/-- A bucket with a rate that is not negative and no more tokens than it has room for. -/
structure TokenBucket.Sound (b : TokenBucket) : Prop where
  rate_nonneg : ∀ rate, b.refillRate = .finite rate → 0 ≤ rate
  nonneg : 0 ≤ b.tokens
  le : b.tokens ≤ b.capacity.toNat

/-- The bucket has the capacity and the rate of the rule. -/
def TokenBucket.IsOf (rule : RateLimitRule) (b : TokenBucket) : Prop :=
  b.capacity = rule.capacity ∧ b.refillRate = .finite rule.rate

/-- What can be taken until `deadline`. -/
def TokenBucket.credit (rule : RateLimitRule) (deadline : ℚ) (b : TokenBucket) : ℚ :=
  Bucket.credit rule.rate deadline b.lastRefill b.tokens

theorem RateLimitRule.rate_nonneg (rule : RateLimitRule) : 0 ≤ rule.rate := by
  unfold RateLimitRule.rate
  positivity

namespace TokenBucket

variable {rule : RateLimitRule} {b : TokenBucket} {t : Readings} {now deadline : ℚ}

@[simp] theorem lastRefill_refill : (b.refill now).lastRefill = now := rfl

theorem fits_newBucket (hwin : 1 ≤ rule.windowSeconds) (now : ℚ) :
    Fits rule (rule.newBucket now) where
  capacity_eq := rfl
  rate_eq := by
    have hne : (rule.windowSeconds.toNat : ℚ) ≠ 0 := by
      have h1 : 1 ≤ rule.windowSeconds.toNat := UInt32.le_iff_toNat_le.mp hwin
      exact_mod_cast (show rule.windowSeconds.toNat ≠ 0 by omega)
    simp [RateLimitRule.newBucket, TokenBucket.new, Ratio.div, hne, RateLimitRule.rate]
  nonneg := Nat.cast_nonneg _
  le := le_rfl

theorem Fits.refill_tokens (h : Fits rule b) :
    (b.refill now).tokens =
      Bucket.refill (rule.capacity.toNat : ℚ) rule.rate (max (now - b.lastRefill) 0) b.tokens := by
  simp [TokenBucket.refill, h.rate_eq, h.capacity_eq]

theorem Fits.refill (h : Fits rule b) : Fits rule (b.refill now) where
  capacity_eq := h.capacity_eq
  rate_eq := h.rate_eq
  nonneg := by
    rw [h.refill_tokens]
    exact Bucket.refill_nonneg rule.rate_nonneg (le_max_right _ _) h.nonneg (Nat.cast_nonneg _)
  le := by
    rw [h.refill_tokens]
    exact Bucket.refill_le

theorem Fits.credit_refill_le (h : Fits rule b) (hnow : b.lastRefill ≤ now) (deadline : ℚ) :
    (b.refill now).credit rule deadline ≤ b.credit rule deadline := by
  rw [credit, credit, h.refill_tokens, max_eq_left (sub_nonneg.mpr hnow)]
  exact Bucket.credit_refill_le rule.rate_nonneg hnow h.nonneg

theorem Fits.isOf (h : Fits rule b) : b.IsOf rule := ⟨h.capacity_eq, h.rate_eq⟩

theorem sound_newBucket (rule : RateLimitRule) (now : ℚ) : (rule.newBucket now).Sound where
  rate_nonneg rate hrate := by
    simp only [RateLimitRule.newBucket, TokenBucket.new, Ratio.div] at hrate
    split_ifs at hrate
    obtain rfl := Ratio.finite.inj hrate
    positivity
  nonneg := Nat.cast_nonneg _
  le := le_rfl

theorem Sound.fits (h : b.Sound) (hof : b.IsOf rule) : Fits rule b :=
  ⟨hof.1, hof.2, h.nonneg, hof.1 ▸ h.le⟩

theorem Sound.refill (h : b.Sound) (now : ℚ) : (b.refill now).Sound where
  rate_nonneg := h.rate_nonneg
  nonneg := by
    unfold TokenBucket.refill
    cases hrate : b.refillRate with
    | finite rate =>
      exact Bucket.refill_nonneg (h.rate_nonneg rate hrate) (le_max_right _ _) h.nonneg
        (Nat.cast_nonneg _)
    | infinite => exact Nat.cast_nonneg _
    | undefined => exact Nat.cast_nonneg _
  le := by
    unfold TokenBucket.refill
    cases b.refillRate with
    | finite rate => exact Bucket.refill_le
    | infinite => exact le_rfl
    | undefined => exact le_rfl

theorem Sound.tryConsume (h : b.Sound) (now : ℚ) : (b.tryConsume 1 now).2.Sound := by
  have hrefill := h.refill now
  unfold TokenBucket.tryConsume
  by_cases htoken : 1 ≤ (b.refill now).tokens
  · simp only [if_pos htoken]
    exact ⟨hrefill.rate_nonneg, sub_nonneg.mpr htoken,
      (sub_le_self _ zero_le_one).trans hrefill.le⟩
  · simpa only [if_neg htoken] using hrefill

/-- A check refills the bucket and takes a token if there is one. -/
theorem Fits.tryConsume (h : Fits rule b) (now deadline : ℚ) :
    Fits rule (b.tryConsume 1 now).2 ∧ (b.tryConsume 1 now).2.lastRefill = now ∧
      (b.tryConsume 1 now).2.credit rule deadline +
          (if (b.tryConsume 1 now).1 ∧ now ≤ deadline then 1 else 0) ≤
        (b.refill now).credit rule deadline := by
  have hfits : Fits rule (b.refill now) := h.refill
  by_cases htoken : 1 ≤ (b.refill now).tokens
  · simp only [TokenBucket.tryConsume, if_pos htoken, true_and]
    refine ⟨⟨hfits.capacity_eq, hfits.rate_eq, sub_nonneg.mpr htoken, ?_⟩, lastRefill_refill, ?_⟩
    · exact (sub_le_self _ zero_le_one).trans hfits.le
    · split_ifs with hnow
      · exact (Bucket.credit_sub_one hnow).le
      · rw [add_zero]
        exact Bucket.credit_sub_one_le
  · simp [TokenBucket.tryConsume, if_neg htoken, hfits]

end TokenBucket

namespace TokenBucketRateLimiter

variable {L : TokenBucketRateLimiter} {key : RateLimitKey} {rule : RateLimitRule} {b : TokenBucket}
  {t : Readings} {deadline : ℚ}

theorem fits_checkBucket (h : b.Fits rule) : (checkBucket rule t b).2.Fits rule := by
  have hconsume := (h.tryConsume t.refilled 0).1
  unfold checkBucket
  by_cases hallowed : (b.tryConsume 1 t.refilled).1 = true
  · simpa [hallowed, TokenBucket.remaining] using hconsume.refill
  · simpa [hallowed] using hconsume

theorem sound_checkBucket (h : b.Sound) (rule : RateLimitRule) (t : Readings) :
    (checkBucket rule t b).2.Sound := by
  have hconsume := h.tryConsume t.refilled
  unfold checkBucket
  by_cases hallowed : (b.tryConsume 1 t.refilled).1 = true
  · simpa [hallowed, TokenBucket.remaining] using hconsume.refill t.counted
  · simpa [hallowed] using hconsume

/-- The rule of a check is only reported: it makes no difference for the bucket. -/
theorem checkBucket_congr (rule rule' : RateLimitRule) (t : Readings) (b : TokenBucket) :
    (checkBucket rule' t b).2 = (checkBucket rule t b).2 ∧
      (checkBucket rule' t b).1.allowed = (checkBucket rule t b).1.allowed := ⟨rfl, rfl⟩

/-- A check lowers the credit that the refilled bucket has by one, if it takes a token in time. -/
theorem credit_checkBucket_le (h : b.Fits rule) (ht : t.refilled ≤ t.counted) :
    (checkBucket rule t b).2.credit rule deadline +
        (if (checkBucket rule t b).1.allowed ∧ t.refilled ≤ deadline then 1 else 0) ≤
      (b.refill t.refilled).credit rule deadline := by
  obtain ⟨hfits, hlast, hcredit⟩ := h.tryConsume t.refilled deadline
  unfold checkBucket
  by_cases hallowed : (b.tryConsume 1 t.refilled).1 = true
  · have hcount := hfits.credit_refill_le (hlast.le.trans ht) deadline
    simp only [hallowed, true_and, if_true, TokenBucket.remaining] at hcredit ⊢
    linarith
  · simpa [hallowed] using hcredit

theorem lastRefill_checkBucket (rule : RateLimitRule) (t : Readings) (b : TokenBucket) :
    (checkBucket rule t b).2.lastRefill = t.refilled ∨
      (checkBucket rule t b).2.lastRefill = t.counted := by
  unfold checkBucket TokenBucket.tryConsume
  by_cases htoken : 1 ≤ (b.refill t.refilled).tokens
  · right
    simp [htoken, TokenBucket.remaining]
  · left
    simp [htoken]

end TokenBucketRateLimiter

/-! ## Runs -/

/-- The call uses the bucket of `key` for `key` only, does not reset it, and keeps the rules. -/
def LimiterCall.Respects (key : RateLimitKey) : LimiterCall → Prop
  | .check key' _ | .peek key' _ => key'.asString = key.asString → key' = key
  | .reset key' => key'.asString ≠ key.asString
  | .addRule _ | .removeRule _ => False

/-- The call does not reset the bucket of `key`. -/
def LimiterCall.Keeps (key : RateLimitKey) : LimiterCall → Prop
  | .reset key' => key'.asString ≠ key.asString
  | _ => True

/-- The readings of the clock during a call. -/
def LimiterCall.readings : LimiterCall → List ℚ
  | .check _ t | .peek _ t => [t.created, t.refilled, t.counted]
  | _ => []

/-- A check of `key` that was allowed, at a time between `a` and `b`. -/
def Admits (key : RateLimitKey) (a b : ℚ) :
    LimiterCall × Except RateLimitError (Option RateLimitResult) → Bool
  | (.check key' t, .ok (some result)) =>
      key' == key && result.allowed && a ≤ t.refilled && t.refilled ≤ b
  | _ => false

/-- The number of checks of `key` that were allowed between `a` and `b`. -/
def allowedBetween (key : RateLimitKey) (a b : ℚ) (L : TokenBucketRateLimiter)
    (calls : List LimiterCall) : ℕ :=
  (calls.zip (limiterMachine.answers L calls)).countP (Admits key a b)

namespace TokenBucketRateLimiter

variable {L : TokenBucketRateLimiter} {key : RateLimitKey} {rule : RateLimitRule}
  {call : LimiterCall} {a b : ℚ}

theorem allowedBetween_cons (calls : List LimiterCall) :
    allowedBetween key a b L (call :: calls) =
      allowedBetween key a b (limiterMachine.step L call).2 calls +
        (if Admits key a b (call, (limiterMachine.step L call).1) then 1 else 0) := by
  simp [allowedBetween, List.countP_cons]

/-- The bucket of a key before a call under a rule. -/
def bucketOf (L : TokenBucketRateLimiter) (key : RateLimitKey) (rule : RateLimitRule)
    (t : Readings) : TokenBucket :=
  (L.buckets.lookup key.asString).getD (rule.newBucket t.created)

@[simp] theorem findMatchingRule_setBucket (text : String) (bucket : TokenBucket) :
    (L.setBucket text bucket).findMatchingRule key = L.findMatchingRule key := rfl

@[simp] theorem lookup_setBucket (text : String) (bucket : TokenBucket) :
    (L.setBucket text bucket).buckets.lookup text = some bucket := AList.lookup_insert _

theorem lookup_setBucket_ne {text other : String} (h : other ≠ text) (bucket : TokenBucket) :
    (L.setBucket text bucket).buckets.lookup other = L.buckets.lookup other :=
  AList.lookup_insert_ne h

theorem bucketOf_eq {key' : RateLimitKey} {bucket : TokenBucket}
    (hkey : key'.asString = key.asString) (hbucket : L.buckets.lookup key.asString = some bucket)
    (rule : RateLimitRule) (t : Readings) : L.bucketOf key' rule t = bucket := by
  rw [bucketOf, hkey, hbucket]
  rfl

theorem check_of_rule (hrule : L.findMatchingRule key = some rule) (t : Readings) :
    L.check key t = (.ok (checkBucket rule t (L.bucketOf key rule t)).1,
      L.setBucket key.asString (checkBucket rule t (L.bucketOf key rule t)).2) := by
  rw [check, hrule]
  rfl

theorem peek_of_rule (hrule : L.findMatchingRule key = some rule) (t : Readings) :
    L.peek key t = (.ok (peekBucket rule t (L.bucketOf key rule t)).1,
      L.setBucket key.asString (peekBucket rule t (L.bucketOf key rule t)).2) := by
  rw [peek, hrule]
  rfl

/-- Find the rule of a key and perform an operation on its bucket: a check and a peek are this, with
`checkBucket` and with `peekBucket`. -/
def useBucket (L : TokenBucketRateLimiter) (key : RateLimitKey) (created : ℚ)
    (f : RateLimitRule → TokenBucket → RateLimitResult × TokenBucket) :
    Except RateLimitError RateLimitResult × TokenBucketRateLimiter :=
  match L.findMatchingRule key with
  | none => (.error noRule, L)
  | some rule =>
      let (result, L) := L.withBucket key.asString rule created (f rule)
      (.ok result, L)

/-- A use of a bucket sets the bucket of its key, at most. -/
theorem useBucket_cases (L : TokenBucketRateLimiter) (key : RateLimitKey) (created : ℚ)
    (f : RateLimitRule → TokenBucket → RateLimitResult × TokenBucket) :
    (L.useBucket key created f).2 = L ∨
      ∃ bucket, (L.useBucket key created f).2 = L.setBucket key.asString bucket := by
  unfold useBucket
  cases L.findMatchingRule key with
  | none => exact .inl rfl
  | some rule => exact .inr ⟨_, rfl⟩

/-- A use of a bucket changes no rule and no other bucket. -/
theorem useBucket_frame {key' : RateLimitKey} {created : ℚ}
    {f : RateLimitRule → TokenBucket → RateLimitResult × TokenBucket} :
    (L.useBucket key' created f).2.findMatchingRule key = L.findMatchingRule key ∧
      (key.asString ≠ key'.asString →
        (L.useBucket key' created f).2.buckets.lookup key.asString =
          L.buckets.lookup key.asString) := by
  obtain hsame | ⟨bucket, hset⟩ := L.useBucket_cases key' created f
  · simp [hsame]
  · rw [hset]
    exact ⟨rfl, fun hne => lookup_setBucket_ne hne bucket⟩

theorem check_frame {key' : RateLimitKey} (t : Readings) :
    (L.check key' t).2.findMatchingRule key = L.findMatchingRule key ∧
      (key.asString ≠ key'.asString →
        (L.check key' t).2.buckets.lookup key.asString = L.buckets.lookup key.asString) :=
  useBucket_frame (f := fun rule => checkBucket rule t)

theorem peek_frame {key' : RateLimitKey} (t : Readings) :
    (L.peek key' t).2.findMatchingRule key = L.findMatchingRule key ∧
      (key.asString ≠ key'.asString →
        (L.peek key' t).2.buckets.lookup key.asString = L.buckets.lookup key.asString) :=
  useBucket_frame (f := fun rule => peekBucket rule t)

theorem addRule_buckets (L : TokenBucketRateLimiter) (rule : RateLimitRule) :
    (L.addRule rule).2.buckets = L.buckets := by
  unfold addRule
  split_ifs <;> rfl

theorem removeRule_buckets (L : TokenBucketRateLimiter) (ruleId : String) :
    (L.removeRule ruleId).2.buckets = L.buckets := by
  unfold removeRule
  cases L.rules.findIdx? (·.ruleId == ruleId) <;> rfl

theorem admits_check_of_ne {key' : RateLimitKey} (hne : key' ≠ key) (t : Readings)
    (out : Except RateLimitError (Option RateLimitResult)) :
    Admits key a b (.check key' t, out) = false := by
  unfold Admits
  split
  · next heq =>
    obtain ⟨rfl, -⟩ := LimiterCall.check.inj (Prod.mk.inj heq).1
    simp [hne]
  · rfl

/-- What a call does to the bucket of `key` if it does not reset it: nothing, or what a check or a
peek does. -/
theorem step_cases (key : RateLimitKey) (L : TokenBucketRateLimiter) (hcall : call.Keeps key) :
    ((limiterMachine.step L call).2.buckets.lookup key.asString = L.buckets.lookup key.asString ∧
        ∀ a b, Admits key a b (call, (limiterMachine.step L call).1) = false) ∨
      (∃ key' rule' t, key'.asString = key.asString ∧ call = .check key' t ∧
        L.findMatchingRule key' = some rule' ∧
          limiterMachine.step L call = (.ok (some (checkBucket rule' t (L.bucketOf key' rule' t)).1),
            L.setBucket key.asString (checkBucket rule' t (L.bucketOf key' rule' t)).2)) ∨
      ∃ key' rule' t, key'.asString = key.asString ∧ call = .peek key' t ∧
        L.findMatchingRule key' = some rule' ∧
          limiterMachine.step L call = (.ok (some (peekBucket rule' t (L.bucketOf key' rule' t)).1),
            L.setBucket key.asString (peekBucket rule' t (L.bucketOf key' rule' t)).2) := by
  cases call with
  | check key' t =>
    by_cases hkey : key'.asString = key.asString
    · cases hrule : L.findMatchingRule key' with
      | none =>
        have hstep : limiterMachine.step L (.check key' t) = (.error noRule, L) := by
          simp only [limiterMachine, check, hrule]
          rfl
        exact .inl ⟨by rw [hstep], fun a b => by rw [hstep]; rfl⟩
      | some rule' =>
        refine .inr (.inl ⟨key', rule', t, hkey, rfl, hrule, ?_⟩)
        simp only [limiterMachine, check_of_rule hrule, hkey]
        rfl
    · exact .inl ⟨(check_frame t).2 (Ne.symm hkey), fun a b =>
        admits_check_of_ne (fun h => hkey (congrArg RateLimitKey.asString h)) t _⟩
  | peek key' t =>
    by_cases hkey : key'.asString = key.asString
    · cases hrule : L.findMatchingRule key' with
      | none =>
        have hstep : limiterMachine.step L (.peek key' t) = (.error noRule, L) := by
          simp only [limiterMachine, peek, hrule]
          rfl
        exact .inl ⟨by rw [hstep], fun a b => rfl⟩
      | some rule' =>
        refine .inr (.inr ⟨key', rule', t, hkey, rfl, hrule, ?_⟩)
        simp only [limiterMachine, peek_of_rule hrule, hkey]
        rfl
    · exact .inl ⟨(peek_frame t).2 (Ne.symm hkey), fun a b => rfl⟩
  | reset key' =>
    have hne : key'.asString ≠ key.asString := hcall
    exact .inl ⟨AList.lookup_erase_ne hne.symm, fun a b => rfl⟩
  | addRule rule' => exact .inl ⟨congrArg (AList.lookup _) (L.addRule_buckets rule'), fun a b => rfl⟩
  | removeRule ruleId =>
    exact .inl ⟨congrArg (AList.lookup _) (L.removeRule_buckets ruleId), fun a b => rfl⟩

theorem admits_check {t : Readings} {result : RateLimitResult} :
    Admits key a b (.check key t, .ok (some result)) = true ↔
      result.allowed = true ∧ a ≤ t.refilled ∧ t.refilled ≤ b := by
  simp [Admits, and_assoc]

/-- An admitted check of a key was allowed in time. -/
theorem admits_check_imp {key' : RateLimitKey} {t : Readings} {result : RateLimitResult}
    (h : Admits key a b (.check key' t, .ok (some result)) = true) :
    result.allowed = true ∧ a ≤ t.refilled ∧ t.refilled ≤ b := by
  by_cases hkey : key' = key
  · subst hkey
    exact admits_check.mp h
  · rw [admits_check_of_ne hkey] at h
    cases h

/-! ### The bucket of a key -/

/-- The bucket of `key`, if there is one, is sound. -/
def SoundAt (key : RateLimitKey) (L : TokenBucketRateLimiter) : Prop :=
  ∀ bucket, L.buckets.lookup key.asString = some bucket → bucket.Sound

theorem SoundAt.bucketOf (h : SoundAt key L) {key' : RateLimitKey}
    (hkey : key'.asString = key.asString) (rule : RateLimitRule) (t : Readings) :
    (L.bucketOf key' rule t).Sound := by
  unfold TokenBucketRateLimiter.bucketOf
  rw [hkey]
  cases hlookup : L.buckets.lookup key.asString with
  | none => exact TokenBucket.sound_newBucket rule t.created
  | some bucket => exact h bucket hlookup

theorem SoundAt.step (h : SoundAt key L) (call : LimiterCall) :
    SoundAt key (limiterMachine.step L call).2 := by
  by_cases hcall : call.Keeps key
  · obtain ⟨hsame, -⟩ | ⟨key', rule', t, hkey, -, -, hstep⟩ | ⟨key', rule', t, hkey, -, -, hstep⟩ :=
      step_cases key L hcall
    · exact fun bucket hb => h bucket (hsame ▸ hb)
    · intro bucket hb
      rw [hstep, lookup_setBucket] at hb
      exact Option.some.inj hb ▸ sound_checkBucket (h.bucketOf hkey rule' t) rule' t
    · intro bucket hb
      rw [hstep, lookup_setBucket] at hb
      exact Option.some.inj hb ▸ (h.bucketOf hkey rule' t).refill t.refilled
  · cases call with
    | reset key' =>
      have htext : key'.asString = key.asString := not_not.mp hcall
      exact fun bucket hb => absurd htext.symm (KeyedStore.lookup_of_erase hb).1
    | _ => exact absurd trivial hcall

/-- The call does not reset the bucket of `key`, and if it uses that bucket, it is one as the rule
has it. -/
def OwnBucket (key : RateLimitKey) (rule : RateLimitRule) (L : TokenBucketRateLimiter) :
    LimiterCall → Prop
  | .check key' t | .peek key' t => key'.asString = key.asString →
      ∀ rule', L.findMatchingRule key' = some rule' → (L.bucketOf key' rule' t).IsOf rule
  | .reset key' => key'.asString ≠ key.asString
  | .addRule _ | .removeRule _ => True

theorem OwnBucket.keeps (h : OwnBucket key rule L call) : call.Keeps key := by
  cases call with
  | reset key' => exact h
  | _ => trivial

/-- The bucket of `key`, if there is one, is as the rule has it. -/
structure Governed (key : RateLimitKey) (rule : RateLimitRule) (L : TokenBucketRateLimiter) :
    Prop where
  rule_eq : L.findMatchingRule key = some rule
  fits : ∀ bucket, L.buckets.lookup key.asString = some bucket → bucket.Fits rule

theorem Governed.fits_bucketOf (h : Governed key rule L) (hwin : 1 ≤ rule.windowSeconds)
    (t : Readings) : (L.bucketOf key rule t).Fits rule := by
  unfold bucketOf
  cases hlookup : L.buckets.lookup key.asString with
  | none => exact TokenBucket.fits_newBucket hwin t.created
  | some bucket => exact h.fits bucket hlookup

theorem keeps_of_respects (hcall : call.Respects key) : call.Keeps key := by
  cases call with
  | reset key' => exact hcall
  | _ => trivial

/-- A call that respects the key keeps its rule. -/
theorem findMatchingRule_step (hcall : call.Respects key) :
    (limiterMachine.step L call).2.findMatchingRule key = L.findMatchingRule key := by
  cases call with
  | check key' t => exact (check_frame t).1
  | peek key' t => exact (peek_frame t).1
  | reset key' => rfl
  | addRule rule' => exact hcall.elim
  | removeRule ruleId => exact hcall.elim

theorem Governed.step (h : Governed key rule L) (hwin : 1 ≤ rule.windowSeconds)
    (hcall : call.Respects key) : Governed key rule (limiterMachine.step L call).2 := by
  refine ⟨(findMatchingRule_step hcall).trans h.rule_eq, fun bucket hb => ?_⟩
  obtain ⟨hsame, -⟩ | ⟨key', rule', t, hkey, rfl, hrule, hstep⟩ |
      ⟨key', rule', t, hkey, rfl, hrule, hstep⟩ := step_cases key L (keeps_of_respects hcall)
  · exact h.fits bucket (hsame ▸ hb)
  · obtain rfl : key' = key := hcall hkey
    obtain rfl : rule = rule' := Option.some.inj (h.rule_eq.symm.trans hrule)
    rw [hstep, lookup_setBucket] at hb
    exact Option.some.inj hb ▸ fits_checkBucket (h.fits_bucketOf hwin t)
  · obtain rfl : key' = key := hcall hkey
    obtain rfl : rule = rule' := Option.some.inj (h.rule_eq.symm.trans hrule)
    rw [hstep, lookup_setBucket] at hb
    exact Option.some.inj hb ▸ (h.fits_bucketOf hwin t).refill

theorem Governed.ownBucket (h : Governed key rule L) (hwin : 1 ≤ rule.windowSeconds)
    (hcall : call.Respects key) : OwnBucket key rule L call := by
  have hown : ∀ {key' : RateLimitKey} {t : Readings},
      (key'.asString = key.asString → key' = key) → key'.asString = key.asString →
        ∀ rule', L.findMatchingRule key' = some rule' → (L.bucketOf key' rule' t).IsOf rule := by
    intro key' t hkey htext rule' hrule
    obtain rfl := hkey htext
    obtain rfl : rule = rule' := Option.some.inj (h.rule_eq.symm.trans hrule)
    exact (h.fits_bucketOf hwin t).isOf
  cases call with
  | check key' t => exact hown hcall
  | peek key' t => exact hown hcall
  | reset key' => exact hcall
  | addRule rule' => trivial
  | removeRule ruleId => trivial

/-! ### What is allowed -/

/-- A check and what its bucket can give afterwards are covered by what the refilled bucket can
give. -/
theorem credit_check_le {bucket : TokenBucket} {t : Readings} (h : bucket.Fits rule)
    (ht : t.refilled ≤ t.counted) (key key' : RateLimitKey) (rule' : RateLimitRule) (a b : ℚ) :
    (checkBucket rule' t bucket).2.credit rule b +
        (if Admits key a b (.check key' t, .ok (some (checkBucket rule' t bucket).1)) then 1
          else 0) ≤
      (bucket.refill t.refilled).credit rule b := by
  refine le_trans (add_le_add le_rfl ?_) (credit_checkBucket_le h ht)
  rw [← (checkBucket_congr rule rule' t bucket).2]
  split_ifs with hadmits htaken
  · exact le_rfl
  · exact absurd ⟨(admits_check_imp hadmits).1, (admits_check_imp hadmits).2.2⟩ htaken
  · exact zero_le_one
  · exact le_rfl

/-- The last refill of a bucket comes before what the clock shows after a check. -/
theorem pairwise_after_check (rule : RateLimitRule) (bucket : TokenBucket) {t : Readings}
    {times : List ℚ}
    (h : (t.created :: t.refilled :: t.counted :: times).Pairwise (· ≤ ·)) :
    ((checkBucket rule t bucket).2.lastRefill :: times).Pairwise (· ≤ ·) := by
  rcases lastRefill_checkBucket rule t bucket with hlast | hlast <;>
    exact hlast ▸ h.sublist (by simp)

/-- From a bucket, no more checks are allowed until a deadline than it has credit for. -/
theorem allowedBetween_le_credit {calls : List LimiterCall} {bucket : TokenBucket}
    (hcalls : ∀ call ∈ calls, call.Keeps key)
    (hbucket : L.buckets.lookup key.asString = some bucket) (hfits : bucket.Fits rule)
    (hclock : (bucket.lastRefill :: calls.flatMap LimiterCall.readings).Pairwise (· ≤ ·)) :
    (allowedBetween key a b L calls : ℚ) ≤ bucket.credit rule b := by
  induction calls generalizing L bucket with
  | nil => exact Bucket.credit_nonneg rule.rate_nonneg hfits.nonneg
  | cons call calls ih =>
    have hcall : call.Keeps key := hcalls call (by simp)
    have hrest : ∀ call ∈ calls, call.Keeps key := fun c hc => hcalls c (by simp [hc])
    rw [allowedBetween_cons]
    obtain ⟨hsame, hadmits⟩ | ⟨key', rule', t, hkey, rfl, -, heq⟩ |
        ⟨key', rule', t, hkey, rfl, -, heq⟩ := step_cases key L hcall
    · rw [hadmits, if_neg Bool.false_ne_true, add_zero]
      exact ih hrest (hsame.trans hbucket) hfits (hclock.sublist (by simp))
    · have hof : L.bucketOf key' rule' t = bucket := bucketOf_eq hkey hbucket rule' t
      rw [hof] at heq
      rw [heq]
      simp only [List.flatMap_cons, LimiterCall.readings, List.cons_append, List.nil_append]
        at hclock
      have hafter : (checkBucket rule' t bucket).2.Fits rule := fits_checkBucket hfits
      have htail := ih hrest (lookup_setBucket (L := L) _ _) hafter
        (pairwise_after_check rule' bucket hclock.of_cons)
      have hlast : bucket.lastRefill ≤ t.refilled := List.rel_of_pairwise_cons hclock (by simp)
      have hcount : t.refilled ≤ t.counted :=
        List.rel_of_pairwise_cons hclock.of_cons.of_cons (by simp)
      push_cast
      linarith [credit_check_le hfits hcount key key' rule' a b,
        hfits.credit_refill_le hlast b]
    · have hof : L.bucketOf key' rule' t = bucket := bucketOf_eq hkey hbucket rule' t
      rw [hof] at heq
      rw [heq]
      simp only [List.flatMap_cons, LimiterCall.readings, List.cons_append, List.nil_append]
        at hclock
      have hafter : (t.refilled :: calls.flatMap LimiterCall.readings).Pairwise (· ≤ ·) :=
        hclock.of_cons.of_cons.sublist (by simp)
      have hrefill : (bucket.refill t.refilled).Fits rule := hfits.refill
      have htail := ih hrest (lookup_setBucket (L := L) _ _) hrefill hafter
      have hlast : bucket.lastRefill ≤ t.refilled := List.rel_of_pairwise_cons hclock (by simp)
      rw [show Admits key a b (.peek key' t, _) = false from rfl, if_neg Bool.false_ne_true,
        add_zero]
      exact htail.trans (hfits.credit_refill_le hlast b)

/-- Where the bucket that is used is always as the rule has it, no more checks are allowed in an
interval than a full bucket has credit for. -/
theorem allowedBetween_le {calls : List LimiterCall} (hsound : SoundAt key L)
    (hown : limiterMachine.Along (OwnBucket key rule) L calls)
    (hclock : (calls.flatMap LimiterCall.readings).Pairwise (· ≤ ·)) (hab : a ≤ b) :
    (allowedBetween key a b L calls : ℚ) ≤ rule.capacity.toNat + (b - a) * rule.rate := by
  have hfull : ∀ {c : ℚ}, a ≤ c → (b - c) * rule.rate ≤ (b - a) * rule.rate := fun hac =>
    mul_le_mul_of_nonneg_right (sub_le_sub_left hac b) rule.rate_nonneg
  induction calls generalizing L with
  | nil =>
    exact add_nonneg (Nat.cast_nonneg _) (mul_nonneg (sub_nonneg.mpr hab) rule.rate_nonneg)
  | cons call calls ih =>
    obtain ⟨hcall, hrest⟩ := hown
    have hsound' := hsound.step call
    have hclock' : (calls.flatMap LimiterCall.readings).Pairwise (· ≤ ·) :=
      hclock.sublist (by simp)
    rw [allowedBetween_cons]
    obtain ⟨hsame, hadmits⟩ | ⟨key', rule', t, hkey, rfl, hrule, heq⟩ |
        ⟨key', rule', t, hkey, rfl, hrule, heq⟩ := step_cases key L hcall.keeps
    · rw [hadmits, if_neg Bool.false_ne_true, add_zero]
      exact ih hsound' hrest hclock'
    · rw [heq] at hsound' hrest ⊢
      have hfits : (L.bucketOf key' rule' t).Fits rule :=
        (hsound.bucketOf hkey rule' t).fits (hcall hkey rule' hrule)
      have hafter := pairwise_after_check rule' (L.bucketOf key' rule' t) hclock
      by_cases hadmits : Admits key a b
          (.check key' t, .ok (some (checkBucket rule' t (L.bucketOf key' rule' t)).1)) = true
      · have hcount : t.refilled ≤ t.counted := List.rel_of_pairwise_cons hclock.of_cons (by simp)
        have hfits' : (checkBucket rule' t (L.bucketOf key' rule' t)).2.Fits rule :=
          fits_checkBucket hfits
        have hkeeps := (hrest.mono fun _ _ h => h.keeps).forall_mem
        have htail : (allowedBetween key a b _ calls : ℚ) ≤ _ :=
          allowedBetween_le_credit hkeeps (lookup_setBucket (L := L) _ _) hfits' hafter
        have hhead := credit_check_le hfits hcount key key' rule' a b
        have htime := (admits_check_imp hadmits).2
        have hcap : ((L.bucketOf key' rule' t).refill t.refilled).credit rule b ≤
            rule.capacity.toNat + (b - t.refilled) * rule.rate :=
          Bucket.credit_le_of_le htime.2 hfits.refill.le
        rw [if_pos hadmits] at hhead ⊢
        push_cast
        linarith [hfull htime.1]
      · rw [if_neg hadmits, add_zero]
        exact ih hsound' hrest hclock'
    · rw [heq] at hsound' hrest ⊢
      rw [show Admits key a b (.peek key' t, _) = false from rfl, if_neg Bool.false_ne_true,
        add_zero]
      exact ih hsound' hrest hclock'

/-- While the rules stay as they are, the checks of a key that are allowed in an interval are
bounded by the capacity and the rate of its rule, and its bucket never holds less than nothing or
more than its capacity. -/
theorem rate_bound (hrule : L.findMatchingRule key = some rule) (hwin : 1 ≤ rule.windowSeconds)
    (hnew : L.buckets.lookup key.asString = none) {calls : List LimiterCall}
    (hcalls : ∀ call ∈ calls, call.Respects key)
    (hclock : (calls.flatMap LimiterCall.readings).Pairwise (· ≤ ·)) :
    (∀ a b, a ≤ b → (allowedBetween key a b L calls : ℚ) ≤
        rule.capacity.toNat + (b - a) * rule.rate) ∧
      ∀ pre post, calls = pre ++ post → ∀ bucket,
        (limiterMachine.run L pre).buckets.lookup key.asString = some bucket →
          0 ≤ bucket.tokens ∧ bucket.tokens ≤ rule.capacity.toNat := by
  have hgoverned : Governed key rule L := ⟨hrule, fun bucket hb => by simp [hnew] at hb⟩
  have hown : limiterMachine.Along (OwnBucket key rule) L calls :=
    Machine.along_of_induction hgoverned hcalls fun L call hcall h =>
      ⟨h.ownBucket hwin hcall, h.step hwin hcall⟩
  have hsound : SoundAt key L := fun bucket hb => by simp [hnew] at hb
  refine ⟨fun a b hab => allowedBetween_le hsound hown hclock hab, ?_⟩
  rintro pre post rfl bucket hb
  have hrun : Governed key rule (limiterMachine.run L pre) :=
    limiterMachine.run_induction (fun L call hcall h => h.step hwin hcall) hgoverned
      fun call hmem => hcalls call (List.mem_append_left post hmem)
  exact ⟨(hrun.fits bucket hb).nonneg, (hrun.fits bucket hb).le⟩

/-- Two requests at once, then one each minute. -/
def burstRule : RateLimitRule :=
  { ruleId := "burst", scope := "user", scopeValue := none, algorithm := .tokenBucket,
    requestsPerWindow := 1, windowSeconds := 60, burstAllowance := some 2, action := .reject,
    priority := 0, enabled := true }

/-- Three checks and a peek in a row. -/
def burstCalls (key : RateLimitKey) : List LimiterCall :=
  [.check key ⟨0, 0, 0⟩, .check key ⟨1, 1, 1⟩, .peek key ⟨2, 2, 2⟩, .check key ⟨3, 3, 3⟩]

theorem rate_bound_burst :
    (allowedBetween ⟨"user", "alice"⟩ 0 30 (withDefaultRule burstRule)
        (burstCalls ⟨"user", "alice"⟩) : ℚ) ≤ 2 + (30 - 0) * (1 / 60) := by
  have hrule : (withDefaultRule burstRule).findMatchingRule ⟨"user", "alice"⟩ = some burstRule :=
    rfl
  exact (rate_bound hrule (by decide) rfl (by simp [burstCalls, LimiterCall.Respects])
    (by norm_num [burstCalls, LimiterCall.readings])).1 0 30 (by norm_num)

example : allowedBetween ⟨"user", "alice"⟩ 0 30 (withDefaultRule burstRule)
    (burstCalls ⟨"user", "alice"⟩) = 2 := by decide +kernel

end TokenBucketRateLimiter

end McpShield
