import McpShield.Telemetry.ConcurrentLimiter

/-!
# Rules that change

The rule of a key is looked up at every call, before the bucket is locked, and a bucket keeps the
capacity and the rate of the rule that created it.  So the reported rule is the enforced one only
while the calls come with it and the bucket is as it has it.
-/

open Effect Effect.Prog

namespace McpShield

namespace TokenBucketRateLimiter

/-- A limiter as it is created. -/
def IsNew (L : TokenBucketRateLimiter) : Prop :=
  L = new ∨ ∃ defaultRule, L = withDefaultRule defaultRule

/-! ## The reported and the enforced rule -/

/-- `rule` is the rule of `key` before and after every call. -/
def Selected (key : RateLimitKey) (rule : RateLimitRule) (s : ClockedLimiter)
    (tr : List (Event LimiterOp.Reply)) : Prop :=
  ∀ tr₁ tr₂ s₁, tr = tr₁ ++ tr₂ → Serves ClockedLimiter.serve s tr₁ s₁ →
    s₁.limiter.findMatchingRule key = some rule

/-- A result for `key` reports `rule`. -/
def Reports (key : RateLimitKey) (rule : RateLimitRule) : Event LimiterOp.Reply → Prop
  | ⟨.withBucket _ key' _, (result, _)⟩ => key' = key →
      result.limit = rule.requestsPerWindow ∧ result.ruleId = some rule.ruleId
  | _ => True

/-- A check of `key` was allowed between `a` and `b`. -/
def allowedTo (key : RateLimitKey) (a b : ℚ) : Event LimiterOp.Reply → Bool
  | ⟨.withBucket .check key' _, (result, t)⟩ =>
      key' = key ∧ result.allowed ∧ a ≤ t.refilled ∧ t.refilled ≤ b
  | _ => false

/-- The rule is what the results for `key` report, and what bounds the checks that are allowed in an
interval. -/
structure Enforced (key : RateLimitKey) (rule : RateLimitRule) (tr : List (Event LimiterOp.Reply)) :
    Prop where
  reported : ∀ ev ∈ tr, Reports key rule ev
  bounded : ∀ a b, a ≤ b →
    (tr.countP (allowedTo key a b) : ℚ) ≤ rule.capacity.toNat + (b - a) * rule.rate

/-- The bucket of `key`, if there is one, is as the rule has it. -/
def BucketOf (key : RateLimitKey) (rule : RateLimitRule) (s : ClockedLimiter) : Prop :=
  ∀ bucket, s.limiter.buckets.lookup key.asString = some bucket → bucket.IsOf rule

/-- A use of the bucket for `key` comes with the rule that `key` has then; under the text of `key`
only buckets as the rule has it are used, and none is reset. -/
def OwnUse (key : RateLimitKey) (rule : RateLimitRule) (s : ClockedLimiter) :
    Event LimiterOp.Reply → Prop
  | ⟨.withBucket _ key' rule', (_, t)⟩ =>
      (key' = key → s.limiter.findMatchingRule key = some rule') ∧
        (key'.asString = key.asString → (s.bucketAt key.asString rule' t).IsOf rule)
  | ⟨.reset key', _⟩ => key'.asString ≠ key.asString
  | _ => True

section Uses

variable {key : RateLimitKey} {rule rule' : RateLimitRule} {bucket : TokenBucket} {t : Readings}
  {now : ℚ} {text : String} {s s' : ClockedLimiter} {tr : List (Event LimiterOp.Reply)}

/-! ### Buckets of a rule -/

theorem isOf_use (h : bucket.IsOf rule) (use : BucketUse) (rule' : RateLimitRule) (t : Readings) :
    (use.apply rule' t bucket).2.IsOf rule := by
  cases use with
  | peek => exact h
  | check =>
    simp only [BucketUse.apply, checkBucket, TokenBucket.tryConsume]
    by_cases htoken : 1 ≤ (bucket.refill t.refilled).tokens
    · simp only [if_pos htoken]
      exact h
    · simp only [if_neg htoken]
      exact h

theorem within_of_isOf (hof : bucket.IsOf rule) (hsound : bucket.Sound)
    (hpast : bucket.lastRefill ≤ now) :
    bucket.Within rule.capacity.toNat rule.rate now where
  sound := hsound
  room := (congrArg UInt64.toNat hof.1).le
  slow := ⟨rule.rate, hof.2, le_rfl⟩
  past := hpast

/-- A rule that creates a bucket as another rule has it has the bounds of that rule. -/
theorem within_of_isOf_newBucket (h : (rule'.newBucket now).IsOf rule) :
    rule'.Within rule.capacity.toNat rule.rate := by
  obtain ⟨hcapacity, hrate⟩ := h
  simp only [RateLimitRule.newBucket, TokenBucket.new, Ratio.div] at hcapacity hrate
  split_ifs at hrate with hwindow
  obtain hrate := Ratio.finite.inj hrate
  refine ⟨?_, (congrArg UInt64.toNat hcapacity).le, hrate.le⟩
  have hpos : rule'.windowSeconds.toNat ≠ 0 := fun h0 => hwindow (by rw [h0]; rfl)
  exact UInt32.le_iff_toNat_le.mpr (Nat.one_le_iff_ne_zero.mpr hpos)

/-- The bucket that is kept under `text`, if there is one, is sound and was refilled before now. -/
def SoundUnder (text : String) (s : ClockedLimiter) : Prop :=
  ∀ bucket, s.limiter.buckets.lookup text = some bucket →
    bucket.Sound ∧ bucket.lastRefill ≤ s.clock

theorem sound_use (h : bucket.Sound) (use : BucketUse) (rule : RateLimitRule)
    (ht : t.refilled ≤ t.counted) :
    (use.apply rule t bucket).2.Sound ∧ (use.apply rule t bucket).2.lastRefill ≤ t.counted := by
  cases use with
  | peek => exact ⟨h.refill t.refilled, ht⟩
  | check =>
    refine ⟨sound_checkBucket h rule t, ?_⟩
    rcases lastRefill_checkBucket rule t bucket with hlast | hlast
    · exact hlast.trans_le ht
    · exact hlast.le

theorem SoundUnder.serve (h : SoundUnder text s) {op : LimiterOp} {reply : op.Reply}
    (hserve : ClockedLimiter.serve s op reply s') : SoundUnder text s' := by
  intro bucket hb
  cases ClockedLimiter.touches_of_serve text hserve with
  | leaves hclock hsame =>
    obtain ⟨hsound, hpast⟩ := h bucket (hsame ▸ hb)
    exact ⟨hsound, hpast.trans hclock⟩
  | @uses use _ rule _ t _ htime hclock _ hbucket =>
    obtain rfl := Option.some.inj (hbucket.symm.trans hb)
    rw [hclock]
    have hstart : (s.bucketAt text rule t).Sound :=
      ClockedLimiter.bucketAt_cases (fun bucket hlookup => (h bucket hlookup).1)
        fun _ => TokenBucket.sound_newBucket rule t.created
    exact sound_use hstart use rule htime.2.2
  | forgets _ _ hnone =>
    rw [hnone] at hb
    cases hb

theorem soundUnder_of_isNew (hnew : IsNew s.limiter) : SoundUnder text s := by
  have hnone : s.limiter.buckets = ∅ := by
    rcases hnew with h | ⟨defaultRule, h⟩ <;> rw [h] <;> rfl
  intro bucket hb
  rw [hnone] at hb
  cases hb

/-! ### What is allowed -/

theorem allowedIn_of_allowedTo {a b : ℚ} {ev : Event LimiterOp.Reply}
    (h : allowedTo key a b ev = true) : allowedIn key.asString a b ev = true := by
  unfold allowedTo at h
  split at h
  · simp only [decide_eq_true_eq] at h
    obtain ⟨rfl, hrest⟩ := h
    exact decide_eq_true ⟨rfl, hrest⟩
  · cases h

/-- A bucket that is created for a use is within the bounds of the rule. -/
theorem OwnUse.createsWithin {ev : Event LimiterOp.Reply} (h : OwnUse key rule s ev) :
    CreatesWithin rule.capacity.toNat rule.rate key.asString s ev := by
  obtain ⟨op, reply⟩ := ev
  cases op with
  | withBucket use key' rule' =>
    intro hkey hnone
    have hof := h.2 hkey
    rw [ClockedLimiter.bucketAt_of_none hnone] at hof
    exact within_of_isOf_newBucket hof
  | _ => trivial

theorem OwnUse.not_resets {ev : Event LimiterOp.Reply} (h : OwnUse key rule s ev) :
    resets key.asString ev = false := by
  obtain ⟨op, reply⟩ := ev
  cases op with
  | reset key' => exact decide_eq_false h
  | _ => rfl

/-- A bucket of another rule is neither used nor reset. -/
theorem OwnUse.not_allowedIn {a b : ℚ} {op : LimiterOp} {reply : op.Reply}
    (h : OwnUse key rule s ⟨op, reply⟩) (hserve : ClockedLimiter.serve s op reply s')
    (hbucket : s.limiter.buckets.lookup key.asString = some bucket) (hnot : ¬ bucket.IsOf rule) :
    s'.limiter.buckets.lookup key.asString = some bucket ∧
      allowedIn key.asString a b ⟨op, reply⟩ = false := by
  cases ClockedLimiter.touches_of_serve key.asString hserve with
  | leaves _ hsame hallowed => exact ⟨hsame.trans hbucket, hallowed a b⟩
  | @uses _ _ rule' _ t hkey =>
    have hof := h.2 hkey
    rw [ClockedLimiter.bucketAt_of_some hbucket] at hof
    exact absurd hof hnot
  | forgets hkey => exact absurd hkey h

section Calls

variable {a b : ℚ} (hserves : Serves ClockedLimiter.serve s tr s')
  (hown : AtEach ClockedLimiter.serve s tr (OwnUse key rule))

include hserves hown

theorem countP_resets : tr.countP (resets key.asString) = 0 := by
  refine List.countP_eq_zero.mpr fun ev hev => ?_
  obtain ⟨tr₁, tr₂, s₁, _, htr, hs₁, -⟩ := hserves.exists_of_mem hev
  rw [(hown tr₁ ev tr₂ s₁ htr hs₁).not_resets]
  exact Bool.false_ne_true

/-- From a bucket as the rule has it no more is allowed than the rule allows. -/
theorem countP_allowedIn_le (hab : a ≤ b) (hsound : SoundUnder key.asString s)
    (hstart : BucketOf key rule s) :
    (tr.countP (allowedIn key.asString a b) : ℚ) ≤ rule.capacity.toNat + (b - a) * rule.rate := by
  have hwithin : s.Within rule.capacity.toNat rule.rate key.asString := fun bucket hb =>
    within_of_isOf (hstart bucket hb) (hsound bucket hb).1 (hsound bucket hb).2
  have hcreates : AtEach ClockedLimiter.serve s tr
      (CreatesWithin rule.capacity.toNat rule.rate key.asString) :=
    fun tr₁ ev tr₂ s₁ htr hs₁ => (hown tr₁ ev tr₂ s₁ htr hs₁).createsWithin
  obtain ⟨hend, hspent⟩ :=
    ClockedLimiter.Within.spent rule.rate_nonneg hab hserves hcreates hwithin
  have hle := (hwithin.allowance_le rule.rate_nonneg hab).2
  have hnonneg := (hend.allowance_le rule.rate_nonneg hab).1
  rw [countP_resets hserves hown] at hspent
  push_cast at hspent
  linarith

/-- With a bucket of another rule nothing is allowed. -/
theorem countP_allowedIn_nonpos (hbucket : s.limiter.buckets.lookup key.asString = some bucket)
    (hnot : ¬ bucket.IsOf rule) : (tr.countP (allowedIn key.asString a b) : ℚ) ≤ 0 := by
  have hspent := (hserves.potential
    (I := fun s => s.limiter.buckets.lookup key.asString = some bucket) (fun _ => (0 : ℚ))
    (fun ev => if allowedIn key.asString a b ev then 1 else 0) (fun _ => 0) hbucket hown
    fun s op reply s' hserve huse hs => by
      obtain ⟨hsame, hallowed⟩ := huse.not_allowedIn (a := a) (b := b) hserve hs hnot
      exact ⟨hsame, by simp [hallowed]⟩).2
  have hzero : (tr.map fun _ => (0 : ℚ)).sum = 0 := by simp
  rwa [sum_ite, mul_one, hzero, add_zero, add_zero] at hspent

/-- What is allowed while only buckets of the rule are used. -/
theorem countP_allowedTo_le (hab : a ≤ b) (hsound : SoundUnder key.asString s) :
    (tr.countP (allowedTo key a b) : ℚ) ≤ rule.capacity.toNat + (b - a) * rule.rate := by
  have hto : (tr.countP (allowedTo key a b) : ℚ) ≤ tr.countP (allowedIn key.asString a b) :=
    Nat.cast_le.mpr (List.countP_mono_left fun ev _ => allowedIn_of_allowedTo)
  refine hto.trans ?_
  by_cases hstart : BucketOf key rule s
  · exact countP_allowedIn_le hserves hown hab hsound hstart
  · unfold BucketOf at hstart
    push Not at hstart
    obtain ⟨bucket, hbucket, hnot⟩ := hstart
    have hrate := mul_nonneg (sub_nonneg.mpr hab) rule.rate_nonneg
    exact (countP_allowedIn_nonpos hserves hown hbucket hnot).trans
      (add_nonneg (Nat.cast_nonneg _) hrate)

end Calls

theorem reports_of_ownUse (hserves : Serves ClockedLimiter.serve s tr s')
    (hselected : Selected key rule s tr) (hown : AtEach ClockedLimiter.serve s tr (OwnUse key rule)) :
    ∀ ev ∈ tr, Reports key rule ev := by
  rintro ⟨op, reply⟩ hev
  obtain ⟨tr₁, tr₂, s₁, s₂, htr, hs₁, hserve⟩ := hserves.exists_of_mem hev
  cases op with
  | withBucket use key' rule' =>
    obtain ⟨result, t⟩ := reply
    rintro rfl
    have hstands := (hown tr₁ _ tr₂ s₁ htr hs₁).1 rfl
    obtain rfl := Option.some.inj (hstands.symm.trans (hselected tr₁ _ s₁ htr hs₁))
    obtain ⟨-, hresult, -⟩ := hserve
    rw [(Prod.mk.inj hresult).1]
    cases use <;> exact ⟨rfl, rfl⟩
  | _ => trivial

end Uses

section Runs

variable {key : RateLimitKey} {rule : RateLimitRule} {tasks : ℕ → LimiterTask}
  {s₀ s s' : ClockedLimiter} {h h' : LimiterHistory}
  {P Q : ℕ → Prog LimiterOp LimiterOp.Reply LimiterOut}

/-- However many clients call the limiter side by side: from the moment a rule is selected for a key
until that changes, it is enforced if the calls for the key come with it, every bucket that is used
under the text of the key is as it has it, and none is reset. -/
theorem enforced_of_ownBucket (hnew : IsNew s₀.limiter) (hbefore : LimiterRun tasks s₀ h P s)
    (hrun : Interleaves ClockedLimiter.serve P s h' Q s')
    (hselected : Selected key rule s (h'.map Prod.snd))
    (hown : AtEach ClockedLimiter.serve s (h'.map Prod.snd) (OwnUse key rule)) :
    Enforced key rule (h'.map Prod.snd) where
  reported := reports_of_ownUse hrun.served hselected hown
  bounded a b hab := by
    have hsound : SoundUnder key.asString s :=
      hbefore.served.invariant (P := fun _ => True) (soundUnder_of_isNew hnew) (fun _ _ => trivial)
        fun _ _ _ _ hserve _ hs => hs.serve hserve
    exact countP_allowedTo_le hrun.served hown hab hsound

/-! ## When the bucket is as the rule has it -/

/-- The call uses the bucket of `key` for `key` only, and does not reset it. -/
def OwnText (key : RateLimitKey) : Event LimiterOp.Reply → Prop
  | ⟨.withBucket _ key' _, _⟩ => key'.asString = key.asString → key' = key
  | ⟨.reset key', _⟩ => key'.asString ≠ key.asString
  | _ => True

/-- The call uses the bucket of `key` for `key` and with `rule` only, and does not reset it. -/
def OwnCall (key : RateLimitKey) (rule : RateLimitRule) : Event LimiterOp.Reply → Prop
  | ⟨.withBucket _ key' rule', _⟩ => key'.asString = key.asString → key' = key ∧ rule' = rule
  | ⟨.reset key', _⟩ => key'.asString ≠ key.asString
  | _ => True

/-- The client is not between its two locks for the bucket under `text`. -/
def OffBucket (text : String) (p : Prog LimiterOp LimiterOp.Reply LimiterOut) : Prop :=
  ∀ use key rule k, p = .call (.withBucket use key rule) k → key.asString ≠ text

/-- A use of the bucket for the key comes with the selected rule, if no client was between its locks
when the rule was selected. -/
theorem rule_of_use (hbefore : LimiterRun tasks s₀ h P s)
    (hrun : Interleaves ClockedLimiter.serve P s h' Q s')
    (hselected : Selected key rule s (h'.map Prod.snd)) (hoff : ∀ i, OffBucket key.asString (P i))
    {use : BucketUse} {rule' : RateLimitRule} {reply : LimiterOp.Reply (.withBucket use key rule')}
    (huse : ⟨.withBucket use key rule', reply⟩ ∈ h'.map Prod.snd) : rule' = rule := by
  obtain ⟨⟨i, ev⟩, hmem, rfl⟩ := List.mem_map.mp huse
  obtain ⟨h₁, h₂, rfl⟩ := List.append_of_mem hmem
  obtain ⟨k, hcall⟩ := hrun.exists_call
  obtain ⟨now, hcalls⟩ := found_of_use ((hbefore.thread i).trans hcall)
  obtain ⟨-, hfound⟩ | ⟨-, hnone⟩ := List.append_eq_singleton_iff.mp hcalls
  · -- the rule was found in the period, where it is the selected one
    have hmem := mem_callsOf.mp (hfound ▸ List.mem_singleton_self _)
    obtain ⟨h₃, h₄, rfl⟩ := List.append_of_mem hmem
    rw [List.append_assoc, List.cons_append] at hrun hselected
    obtain ⟨s₁, s₂, hs₁, ⟨hrule, -, -⟩, -⟩ := hrun.answered
    rw [List.map_append] at hselected
    exact Option.some.inj (hrule.trans (hselected _ _ s₁ rfl hs₁))
  · rw [hnone] at hcall
    exact absurd rfl (hoff i use key rule' k hcall.eq_of_nil)

theorem ownCall_of_ownText (hbefore : LimiterRun tasks s₀ h P s)
    (hrun : Interleaves ClockedLimiter.serve P s h' Q s')
    (hselected : Selected key rule s (h'.map Prod.snd)) (hoff : ∀ i, OffBucket key.asString (P i))
    {ev : Event LimiterOp.Reply} (hev : ev ∈ h'.map Prod.snd) (htext : OwnText key ev) :
    OwnCall key rule ev := by
  obtain ⟨op, reply⟩ := ev
  cases op with
  | withBucket use key' rule' =>
    intro hkey
    obtain rfl := htext hkey
    exact ⟨rfl, rule_of_use hbefore hrun hselected hoff hev⟩
  | reset key' => exact htext
  | _ => trivial

theorem isOf_bucketAt (hwin : 1 ≤ rule.windowSeconds) (hstart : BucketOf key rule s) (t : Readings) :
    (s.bucketAt key.asString rule t).IsOf rule :=
  ClockedLimiter.bucketAt_cases hstart fun _ => (TokenBucket.fits_newBucket hwin t.created).isOf

/-- The bucket stays as the rule has it. -/
theorem BucketOf.serve (hwin : 1 ≤ rule.windowSeconds) {op : LimiterOp} {reply : op.Reply}
    (hserve : ClockedLimiter.serve s op reply s') (hcall : OwnCall key rule ⟨op, reply⟩)
    (hstart : BucketOf key rule s) : BucketOf key rule s' := by
  intro bucket hb
  cases ClockedLimiter.touches_of_serve key.asString hserve with
  | leaves _ hsame => exact hstart bucket (hsame ▸ hb)
  | @uses use key' rule' _ t hkey _ _ _ hbucket =>
    obtain ⟨-, rfl⟩ := hcall hkey
    obtain rfl := Option.some.inj (hbucket.symm.trans hb)
    exact isOf_use (isOf_bucketAt hwin hstart t) use rule' t
  | forgets hkey => exact absurd hkey hcall

/-- It is enough that at the moment when the rule is selected the bucket is absent or as the rule has
it and no client is between its locks, and that from then on no other key with the text of the key is
checked or peeked and none is reset. -/
theorem ownUse_of_start (hbefore : LimiterRun tasks s₀ h P s)
    (hrun : Interleaves ClockedLimiter.serve P s h' Q s')
    (hselected : Selected key rule s (h'.map Prod.snd)) (hwin : 1 ≤ rule.windowSeconds)
    (hoff : ∀ i, OffBucket key.asString (P i)) (htexts : ∀ ev ∈ h'.map Prod.snd, OwnText key ev)
    (hstart : BucketOf key rule s) :
    AtEach ClockedLimiter.serve s (h'.map Prod.snd) (OwnUse key rule) := by
  rintro tr₁ ⟨op, reply⟩ tr₂ s₁ htr hs₁
  have hcalls : ∀ ev ∈ h'.map Prod.snd, OwnCall key rule ev := fun ev hev =>
    ownCall_of_ownText hbefore hrun hselected hoff hev (htexts ev hev)
  rw [htr] at hcalls
  have hnow : BucketOf key rule s₁ :=
    hs₁.invariant hstart (fun ev hev => hcalls ev (List.mem_append_left _ hev))
      fun _ _ _ _ hserve hcall hs => hs.serve hwin hserve hcall
  have hcall := hcalls _ (List.mem_append_right _ List.mem_cons_self)
  cases op with
  | withBucket use key' rule' =>
    refine ⟨?_, fun hkey => ?_⟩
    · rintro rfl
      obtain ⟨-, rfl⟩ := hcall rfl
      exact hselected tr₁ _ s₁ htr hs₁
    · obtain ⟨-, rfl⟩ := hcall hkey
      exact isOf_bucketAt hwin hnow reply.2
  | reset key' => exact hcall
  | _ => trivial

end Runs

/-! ## A rule that comes too late -/

/-- A rule of `user` keys with so many requests each minute. -/
def minuteRule (ruleId : String) (requestsPerWindow : UInt64) (priority : Int32) : RateLimitRule :=
  { ruleId, scope := "user", scopeValue := none, algorithm := .tokenBucket, requestsPerWindow,
    windowSeconds := 60, burstAllowance := none, action := .reject, priority, enabled := true }

/-- The rule that comes. -/
def strictRule : RateLimitRule := minuteRule "strict" 1 10

/-- A limiter with a generous rule. -/
def generousLimiter : ClockedLimiter where
  limiter := .withDefaultRule (minuteRule "generous" 100 0)
  clock := 0

/-- One client adds the strict rule, and the others check the key. -/
def strictTasks : ℕ → LimiterTask
  | 0 => .addRule strictRule
  | _ => .bucket .check alice

/-- The clients run in the order of a schedule. -/
def strictRun (schedule : List ℕ) :
    LimiterHistory × (ℕ → Prog LimiterOp LimiterOp.Reply LimiterOut) × ClockedLimiter :=
  runSchedule ClockedLimiter.answer (fun i => (strictTasks i).program) generousLimiter schedule

/-- Two more of them run after that. -/
def twoChecks (schedule : List ℕ) :
    LimiterHistory × (ℕ → Prog LimiterOp LimiterOp.Reply LimiterOut) × ClockedLimiter :=
  runSchedule ClockedLimiter.answer (strictRun schedule).2.1 (strictRun schedule).2.2 [2, 2, 3, 3]

theorem selected_of_keepsRules {key : RateLimitKey} {rule : RateLimitRule} {s : ClockedLimiter}
    {tr : List (Event LimiterOp.Reply)} (hrule : s.limiter.findMatchingRule key = some rule)
    (hkeeps : ∀ ev ∈ tr, KeepsRules ev) : Selected key rule s tr := by
  rintro tr₁ tr₂ s₁ rfl hs₁
  rw [findMatchingRule_serves hs₁ fun ev hev => hkeeps ev (List.mem_append_left tr₂ hev), hrule]

/-- A key that is new when the strict rule is added. -/
theorem enforced_tightened : Enforced alice strictRule ((twoChecks [0]).1.map Prod.snd) := by
  have hbefore : LimiterRun strictTasks generousLimiter (strictRun [0]).1 (strictRun [0]).2.1
      (strictRun [0]).2.2 := interleaves_runSchedule ClockedLimiter.serve_answer _ _ [0]
  have hrun := interleaves_runSchedule ClockedLimiter.serve_answer (strictRun [0]).2.1
    (strictRun [0]).2.2 [2, 2, 3, 3]
  have hselected : Selected alice strictRule (strictRun [0]).2.2
      ((twoChecks [0]).1.map Prod.snd) := by
    refine selected_of_keepsRules rfl (List.forall_iff_forall_mem.mp ?_)
    exact ⟨⟨nofun, nofun⟩, ⟨nofun, nofun⟩, ⟨nofun, nofun⟩, ⟨nofun, nofun⟩⟩
  refine enforced_of_ownBucket (.inr ⟨_, rfl⟩) hbefore hrun hselected ?_
  refine ownUse_of_start hbefore hrun hselected (by decide) ?_ ?_ ?_
  · rintro (_ | i) use key rule k heq
    · cases heq
    · cases heq
  · exact List.forall_iff_forall_mem.mp ⟨trivial, fun _ => rfl, trivial, fun _ => rfl⟩
  · intro bucket hb
    cases hb

/-- A key that has been in use under the generous rule is still allowed what that rule allows. -/
theorem tightened_not_enforced :
    IsNew generousLimiter.limiter ∧
      LimiterRun strictTasks generousLimiter (strictRun [1, 1, 0]).1 (strictRun [1, 1, 0]).2.1
        (strictRun [1, 1, 0]).2.2 ∧
      Interleaves ClockedLimiter.serve (strictRun [1, 1, 0]).2.1 (strictRun [1, 1, 0]).2.2
        (twoChecks [1, 1, 0]).1 (twoChecks [1, 1, 0]).2.1 (twoChecks [1, 1, 0]).2.2 ∧
      Selected alice strictRule (strictRun [1, 1, 0]).2.2 ((twoChecks [1, 1, 0]).1.map Prod.snd) ∧
      1 ≤ strictRule.windowSeconds ∧
      ¬ Enforced alice strictRule ((twoChecks [1, 1, 0]).1.map Prod.snd) := by
  refine ⟨.inr ⟨_, rfl⟩, interleaves_runSchedule ClockedLimiter.serve_answer _ _ _,
    interleaves_runSchedule ClockedLimiter.serve_answer _ _ _, ?_, by decide, fun henforced => ?_⟩
  · refine selected_of_keepsRules rfl (List.forall_iff_forall_mem.mp ?_)
    exact ⟨⟨nofun, nofun⟩, ⟨nofun, nofun⟩, ⟨nofun, nofun⟩, ⟨nofun, nofun⟩⟩
  · have hallowed : ((twoChecks [1, 1, 0]).1.map Prod.snd).countP (allowedTo alice 0 0) = 2 := by
      decide +kernel
    have hbound := henforced.bounded 0 0 le_rfl
    rw [hallowed, sub_self, zero_mul, add_zero, show strictRule.capacity.toNat = 1 from rfl] at hbound
    norm_num at hbound

end TokenBucketRateLimiter

end McpShield
