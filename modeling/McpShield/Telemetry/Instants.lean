import McpShield.Telemetry.KeyIndependence

/-!
# Calls at one instant

A check or a peek that acts at one instant begins with a refill up to that instant, and refilling in
two steps is refilling once.  So a peek, and a check that is denied, leave no trace in what the
later calls answer: `answers_of_kept`.
-/

namespace McpShield

/-- The readings of a call that acts at one instant. -/
def Readings.instant (t : ℚ) : Readings := { created := t, refilled := t, counted := t }

/-- A check or a peek of some key at one instant. -/
structure KeyUse where
  peeks : Bool
  time : ℚ

namespace KeyUse

variable {rule : RateLimitRule} {b b' : TokenBucket}

/-- The call that it is. -/
def call (key : RateLimitKey) (u : KeyUse) : LimiterCall :=
  if u.peeks then .peek key (.instant u.time) else .check key (.instant u.time)

/-- What it does with the bucket. -/
def op (u : KeyUse) (rule : RateLimitRule) (b : TokenBucket) : RateLimitResult × TokenBucket :=
  if u.peeks then TokenBucketRateLimiter.peekBucket rule (.instant u.time) b
  else TokenBucketRateLimiter.checkBucket rule (.instant u.time) b

/-- A peek, or a check that is denied. -/
def Silent (u : KeyUse) (answer : Except RateLimitError (Option RateLimitResult)) : Prop :=
  u.peeks = true ∨ ∃ result, answer = .ok (some result) ∧ result.allowed = false

instance (u : KeyUse) (answer : Except RateLimitError (Option RateLimitResult)) :
    Decidable (u.Silent answer) :=
  match answer with
  | .ok (some result) => decidable_of_iff (u.peeks = true ∨ result.allowed = false) (by simp [Silent])
  | .ok none => decidable_of_iff (u.peeks = true) (by simp [Silent])
  | .error _ => decidable_of_iff (u.peeks = true) (by simp [Silent])

/-- The bucket is only seen as it is once it is refilled. -/
theorem op_congr (u : KeyUse) (h : b.refill u.time = b'.refill u.time) :
    u.op rule b = u.op rule b' := by
  unfold op
  split_ifs
  · unfold TokenBucketRateLimiter.peekBucket TokenBucket.remaining
    dsimp only [Readings.instant]
    rw [h]
  · unfold TokenBucketRateLimiter.checkBucket TokenBucket.tryConsume
    dsimp only [Readings.instant]
    rw [h]

/-- A silent use refills the bucket. -/
theorem op_of_silent (u : KeyUse) (h : u.peeks = true ∨ (u.op rule b).1.allowed = false) :
    (u.op rule b).2 = b.refill u.time := by
  cases hpeeks : u.peeks with
  | true =>
    rw [op, if_pos hpeeks]
    rfl
  | false =>
    have hdenied : (u.op rule b).1.allowed = false := h.resolve_left (by simp [hpeeks])
    rw [op, if_neg (by simp [hpeeks])] at hdenied ⊢
    unfold TokenBucketRateLimiter.checkBucket at hdenied ⊢
    unfold TokenBucket.tryConsume at hdenied ⊢
    by_cases htoken : 1 ≤ (b.refill u.time).tokens
    · simp [Readings.instant, htoken] at hdenied
    · simp [Readings.instant, htoken]

theorem lastRefill_op (u : KeyUse) : (u.op rule b).2.lastRefill = u.time := by
  unfold op
  split_ifs
  · rfl
  · rcases TokenBucketRateLimiter.lastRefill_checkBucket rule (.instant u.time) b with h | h
    · exact h
    · exact h

theorem sound_op (h : b.Sound) (u : KeyUse) (rule : RateLimitRule) : (u.op rule b).2.Sound := by
  unfold op
  split_ifs
  · exact h.refill u.time
  · exact TokenBucketRateLimiter.sound_checkBucket h rule _

end KeyUse

/-! ## Refilling in two steps -/

namespace TokenBucket

variable {b : TokenBucket} {t t' : ℚ}

theorem Sound.refill_refill (h : b.Sound) (hlast : b.lastRefill ≤ t) (ht : t ≤ t') :
    (b.refill t).refill t' = b.refill t' := by
  have hfirst : max (t - b.lastRefill) 0 = t - b.lastRefill := max_eq_left (sub_nonneg.mpr hlast)
  have hsecond : max (t' - t) 0 = t' - t := max_eq_left (sub_nonneg.mpr ht)
  have hboth : max (t' - b.lastRefill) 0 = (t - b.lastRefill) + (t' - t) := by
    rw [max_eq_left (sub_nonneg.mpr (hlast.trans ht))]
    ring
  unfold TokenBucket.refill
  cases hrate : b.refillRate with
  | finite rate =>
    simp only [hfirst, hsecond, hboth]
    rw [Bucket.refill_refill (h.rate_nonneg rate hrate) (sub_nonneg.mpr ht)]
  | infinite => rfl
  | undefined => rfl

/-- A new bucket stays full. -/
theorem refill_newBucket (rule : RateLimitRule) (t t' : ℚ) :
    (rule.newBucket t).refill t' = rule.newBucket t' := by
  have htokens : ((rule.newBucket t).refill t').tokens = (rule.newBucket t').tokens := by
    unfold TokenBucket.refill
    cases hrate : (rule.newBucket t).refillRate with
    | finite rate =>
      have hrate_nonneg := (sound_newBucket rule t).rate_nonneg rate hrate
      exact min_eq_right (le_add_of_nonneg_right (mul_nonneg (le_max_right _ _) hrate_nonneg))
    | infinite => rfl
    | undefined => rfl
  calc (rule.newBucket t).refill t'
      = { rule.newBucket t with
          tokens := ((rule.newBucket t).refill t').tokens, lastRefill := t' } := rfl
    _ = rule.newBucket t' := by
      rw [htokens]
      rfl

end TokenBucket

/-! ## Limiters that answer alike -/

namespace TokenBucketRateLimiter

variable {L L' : TokenBucketRateLimiter} {key : RateLimitKey} {rule : RateLimitRule} {u : KeyUse}
  {t t' : ℚ}

theorem step_use (hrule : L.findMatchingRule key = some rule) (u : KeyUse) :
    limiterMachine.step L (u.call key) =
      (.ok (some (u.op rule (L.bucketOf key rule (.instant u.time))).1),
        L.setBucket key.asString (u.op rule (L.bucketOf key rule (.instant u.time))).2) := by
  unfold KeyUse.call KeyUse.op
  split_ifs
  · simp only [limiterMachine, peek_of_rule hrule]
    rfl
  · simp only [limiterMachine, check_of_rule hrule]
    rfl

theorem step_use_of_noRule (hrule : L.findMatchingRule key = none) (u : KeyUse) :
    limiterMachine.step L (u.call key) = (.error noRule, L) := by
  unfold KeyUse.call
  split_ifs
  · simp only [limiterMachine, peek, hrule]
    rfl
  · simp only [limiterMachine, check, hrule]
    rfl

/-- The bucket of `key`, if there is one, is sound and has last been refilled by `t`. -/
def Timely (key : RateLimitKey) (t : ℚ) (L : TokenBucketRateLimiter) : Prop :=
  ∀ bucket, L.buckets.lookup key.asString = some bucket → bucket.Sound ∧ bucket.lastRefill ≤ t

theorem Timely.mono (h : Timely key t L) (ht : t ≤ t') : Timely key t' L :=
  fun bucket hb => ⟨(h bucket hb).1, (h bucket hb).2.trans ht⟩

theorem Timely.sound_bucketOf (h : Timely key t L) (rule : RateLimitRule) (r : Readings) :
    (L.bucketOf key rule r).Sound := by
  unfold bucketOf
  cases hlookup : L.buckets.lookup key.asString with
  | none => exact TokenBucket.sound_newBucket rule r.created
  | some bucket => exact (h bucket hlookup).1

theorem Timely.use (h : Timely key t L) (rule : RateLimitRule) (u : KeyUse) :
    Timely key u.time (L.setBucket key.asString
      (u.op rule (L.bucketOf key rule (.instant u.time))).2) := by
  intro bucket hb
  rw [lookup_setBucket] at hb
  obtain rfl := Option.some.inj hb
  exact ⟨KeyUse.sound_op (h.sound_bucketOf rule _) u rule, u.lastRefill_op.le⟩

/-- A refill on the way makes no difference to a bucket that is there or is to be created. -/
theorem Timely.refill_bucketOf (h : Timely key t L) (rule : RateLimitRule) (ht : t ≤ u.time)
    (ht' : u.time ≤ t') :
    ((L.bucketOf key rule (.instant u.time)).refill u.time).refill t' =
      (L.bucketOf key rule (.instant t')).refill t' := by
  unfold bucketOf
  cases hlookup : L.buckets.lookup key.asString with
  | none =>
    simp only [Option.getD_none, Readings.instant, TokenBucket.refill_newBucket]
  | some bucket =>
    obtain ⟨hsound, hlast⟩ := h bucket hlookup
    exact hsound.refill_refill (hlast.trans ht) ht'

/-- From `t` on the limiters have the same rule for `key` and buckets that are refilled to the
same. -/
structure SameFrom (key : RateLimitKey) (t : ℚ) (L L' : TokenBucketRateLimiter) : Prop where
  rule_eq : L.findMatchingRule key = L'.findMatchingRule key
  timely : Timely key t L
  timely' : Timely key t L'
  refill_eq : ∀ rule, L.findMatchingRule key = some rule → ∀ t', t ≤ t' →
    (L.bucketOf key rule (.instant t')).refill t' = (L'.bucketOf key rule (.instant t')).refill t'

theorem SameFrom.refl (h : Timely key t L) : SameFrom key t L L := ⟨rfl, h, h, fun _ _ _ _ => rfl⟩

/-- They answer a use alike and go on so. -/
theorem SameFrom.use (h : SameFrom key t L L') (ht : t ≤ u.time) :
    (limiterMachine.step L (u.call key)).1 = (limiterMachine.step L' (u.call key)).1 ∧
      SameFrom key u.time (limiterMachine.step L (u.call key)).2
        (limiterMachine.step L' (u.call key)).2 := by
  cases hrule : L.findMatchingRule key with
  | none =>
    have hrule' : L'.findMatchingRule key = none := h.rule_eq.symm.trans hrule
    rw [step_use_of_noRule hrule, step_use_of_noRule hrule']
    exact ⟨rfl, h.rule_eq, h.timely.mono ht, h.timely'.mono ht,
      fun rule hsome t' ht' => h.refill_eq rule hsome t' (ht.trans ht')⟩
  | some rule =>
    have hrule' : L'.findMatchingRule key = some rule := h.rule_eq.symm.trans hrule
    have hsame : u.op rule (L.bucketOf key rule (.instant u.time)) =
        u.op rule (L'.bucketOf key rule (.instant u.time)) :=
      u.op_congr (h.refill_eq rule hrule u.time ht)
    have htimely' := h.timely'.use rule u
    rw [step_use hrule, step_use hrule', hsame]
    refine ⟨rfl, h.rule_eq, hsame ▸ h.timely.use rule u, htimely', fun rule' _ t' _ => ?_⟩
    simp only [bucketOf, lookup_setBucket]

/-- A silent use of one of them makes no difference. -/
theorem SameFrom.silent (h : SameFrom key t L L') (ht : t ≤ u.time)
    (hsilent : u.Silent (limiterMachine.step L (u.call key)).1) :
    SameFrom key u.time (limiterMachine.step L (u.call key)).2 L' := by
  cases hrule : L.findMatchingRule key with
  | none =>
    rw [step_use_of_noRule hrule]
    exact ⟨h.rule_eq, h.timely.mono ht, h.timely'.mono ht,
      fun rule hsome t' ht' => h.refill_eq rule hsome t' (ht.trans ht')⟩
  | some rule =>
    rw [step_use hrule] at hsilent ⊢
    have hrefill := u.op_of_silent (hsilent.imp_right fun ⟨result, hresult, hdenied⟩ =>
      Option.some.inj (Except.ok.inj hresult) ▸ hdenied)
    refine ⟨h.rule_eq, h.timely.use rule u, h.timely'.mono ht, fun rule' hrule' t' ht' => ?_⟩
    obtain rfl := Option.some.inj (hrule.symm.trans hrule')
    rw [← h.refill_eq rule hrule t' (ht.trans ht'), ← h.timely.refill_bucketOf rule ht ht', hrefill]
    simp only [bucketOf, lookup_setBucket, Option.getD_some]

/-! ## Runs without the silent uses -/

/-- The answers to the marked uses of a run. -/
def keptAnswers (key : RateLimitKey) (L : TokenBucketRateLimiter) (uses : List (Bool × KeyUse)) :
    List (Except RateLimitError (Option RateLimitResult)) :=
  ((uses.zip (limiterMachine.answers L (uses.map (·.2.call key)))).filter (·.1.1)).map (·.2)

theorem SameFrom.keptAnswers_eq {uses : List (Bool × KeyUse)} (h : SameFrom key t L L')
    (htimes : (t :: uses.map (·.2.time)).Pairwise (· ≤ ·))
    (hsilent : ∀ p ∈ uses.zip (limiterMachine.answers L (uses.map (·.2.call key))),
      p.1.1 = false → p.1.2.Silent p.2) :
    keptAnswers key L uses =
      limiterMachine.answers L' ((uses.filter (·.1)).map (·.2.call key)) := by
  induction uses generalizing t L L' with
  | nil => rfl
  | cons use uses ih =>
    obtain ⟨kept, u⟩ := use
    rw [List.map_cons, List.pairwise_cons] at htimes
    have ht : t ≤ u.time := htimes.1 _ (List.mem_cons_self ..)
    simp only [List.map_cons, Machine.answers_cons, List.zip_cons_cons, List.forall_mem_cons]
      at hsilent
    cases kept with
    | true =>
      obtain ⟨hanswer, hsame⟩ := h.use ht
      have hrest := ih hsame htimes.2 hsilent.2
      simp only [keptAnswers, List.map_cons, Machine.answers_cons, List.zip_cons_cons,
        List.filter_cons_of_pos, ← hanswer] at hrest ⊢
      rw [hrest]
    | false =>
      have hrest := ih (h.silent ht (hsilent.1 rfl)) htimes.2 hsilent.2
      simp only [keptAnswers, List.map_cons, Machine.answers_cons, List.zip_cons_cons,
        Bool.false_eq_true, not_false_eq_true, List.filter_cons_of_neg] at hrest ⊢
      exact hrest

/-- Peeks and denied checks are invisible: without any of them the other uses of the key are
answered the same. -/
theorem answers_of_kept {key : RateLimitKey} {L : TokenBucketRateLimiter} {t : ℚ}
    {uses : List (Bool × KeyUse)} (hL : Timely key t L)
    (htimes : (t :: uses.map (·.2.time)).Pairwise (· ≤ ·))
    (hsilent : ∀ p ∈ uses.zip (limiterMachine.answers L (uses.map (·.2.call key))),
      p.1.1 = false → p.1.2.Silent p.2) :
    keptAnswers key L uses =
      limiterMachine.answers L ((uses.filter (·.1)).map (·.2.call key)) :=
  (SameFrom.refl hL).keptAnswers_eq htimes hsilent

/-- A check that is allowed, a peek, a check that is denied, and another one that is allowed. -/
def fourUses : List (Bool × KeyUse) :=
  [(true, ⟨false, 0⟩), (false, ⟨true, 1 / 2⟩), (false, ⟨false, 1 / 2⟩), (true, ⟨false, 1⟩)]

theorem answers_of_kept_fourUses :
    keptAnswers ⟨"user", "alice"⟩ (withDefaultRule singleRule) fourUses =
      limiterMachine.answers (withDefaultRule singleRule)
        ((fourUses.filter (·.1)).map (·.2.call ⟨"user", "alice"⟩)) :=
  answers_of_kept (t := 0) (fun bucket h => by cases h) (by decide +kernel) (by decide +kernel)

end TokenBucketRateLimiter

end McpShield
