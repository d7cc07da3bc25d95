import McpShield.Lib.Concurrent
import McpShield.Telemetry.RateLimiter

/-!
# The rate limiter, called by many

A check reads the rules under one lock and uses the bucket of its key under another one.  Between the
two anything may happen: other checks, resets, and changes of the rules.
-/

open Effect Effect.Prog

namespace McpShield

/-! ## The calls -/

/-- What is done with a bucket. -/
inductive BucketUse where
  | check
  | peek
deriving DecidableEq

/-- The use, as a call on the limiter. -/
def BucketUse.call : BucketUse → RateLimitKey → Readings → LimiterCall
  | check => .check
  | peek => .peek

/-- What the use does with the bucket. -/
def BucketUse.apply : BucketUse → RateLimitRule → Readings → TokenBucket →
    RateLimitResult × TokenBucket
  | check => TokenBucketRateLimiter.checkBucket
  | peek => TokenBucketRateLimiter.peekBucket

/-- What is done while one lock is held. -/
inductive LimiterOp where
  | findMatchingRule (use : BucketUse) (key : RateLimitKey)
  | withBucket (use : BucketUse) (key : RateLimitKey) (rule : RateLimitRule)
  | reset (key : RateLimitKey)
  | addRule (rule : RateLimitRule)
  | removeRule (ruleId : String)

/-- The answers, with the readings of the clock.  Finding a rule does not read the clock; its answer
comes with the time nevertheless. -/
def LimiterOp.Reply : LimiterOp → Type
  | findMatchingRule _ _ => Option RateLimitRule × ℚ
  | withBucket _ _ _ => RateLimitResult × Readings
  | reset _ => Unit
  | addRule _ => Except RateLimitError Unit
  | removeRule _ => Except RateLimitError Unit

/-- The outcome of a call on the limiter; one without a result is `none`. -/
abbrev LimiterOut : Type := Except RateLimitError (Option RateLimitResult)

/-- A call on the limiter by one of its clients. -/
inductive LimiterTask where
  | bucket (use : BucketUse) (key : RateLimitKey)
  | reset (key : RateLimitKey)
  | addRule (rule : RateLimitRule)
  | removeRule (ruleId : String)

/-- Find the rule of the key, then use its bucket. -/
def bucketProgram (use : BucketUse) (key : RateLimitKey) :
    Prog LimiterOp LimiterOp.Reply LimiterOut :=
  .call (.findMatchingRule use key) fun
    | (none, _) => .done (.error TokenBucketRateLimiter.noRule)
    | (some rule, _) => .call (.withBucket use key rule) fun reply => .done (.ok (some reply.1))

/-- The program of a call. -/
def LimiterTask.program : LimiterTask → Prog LimiterOp LimiterOp.Reply LimiterOut
  | bucket use key => bucketProgram use key
  | reset key => .call (.reset key) fun _ => .done (.ok none)
  | addRule rule => .call (.addRule rule) fun
      | .ok () => .done (.ok none)
      | .error e => .done (.error e)
  | removeRule ruleId => .call (.removeRule ruleId) fun
      | .ok () => .done (.ok none)
      | .error e => .done (.error e)

/-! ## The shared limiter -/

/-- The limiter, and the time up to which the clock has been read. -/
structure ClockedLimiter where
  limiter : TokenBucketRateLimiter
  clock : ℚ

/-- The clock is read in this order, and never goes back. -/
def Readings.InOrder (clock : ℚ) (t : Readings) : Prop :=
  clock ≤ t.created ∧ t.created ≤ t.refilled ∧ t.refilled ≤ t.counted

namespace ClockedLimiter

/-- The limiter answers. -/
def serve : Component ClockedLimiter LimiterOp.Reply
  | s, .findMatchingRule _ key, (found, now), s' =>
      found = s.limiter.findMatchingRule key ∧ s.clock ≤ now ∧ s' = { s with clock := now }
  | s, .withBucket use key rule, (result, t), s' => t.InOrder s.clock ∧
      (result, s'.limiter) = s.limiter.withBucket key.asString rule t.created (use.apply rule t) ∧
        s'.clock = t.counted
  | s, .reset key, _, s' => s' = { s with limiter := s.limiter.reset key }
  | s, .addRule rule, r, s' =>
      r = (s.limiter.addRule rule).1 ∧ s' = { s with limiter := (s.limiter.addRule rule).2 }
  | s, .removeRule ruleId, r, s' => r = (s.limiter.removeRule ruleId).1 ∧
      s' = { s with limiter := (s.limiter.removeRule ruleId).2 }

/-- The limiter answers, and the clock stands still. -/
def answer (s : ClockedLimiter) : (op : LimiterOp) → op.Reply × ClockedLimiter
  | .findMatchingRule _ key => ((s.limiter.findMatchingRule key, s.clock), s)
  | .withBucket use key rule =>
      let t : Readings := ⟨s.clock, s.clock, s.clock⟩
      let (result, limiter) := s.limiter.withBucket key.asString rule t.created (use.apply rule t)
      ((result, t), { s with limiter })
  | .reset key => ((), { s with limiter := s.limiter.reset key })
  | .addRule rule =>
      let (r, limiter) := s.limiter.addRule rule
      (r, { s with limiter })
  | .removeRule ruleId =>
      let (r, limiter) := s.limiter.removeRule ruleId
      (r, { s with limiter })

theorem serve_answer (s : ClockedLimiter) (op : LimiterOp) :
    serve s op (s.answer op).1 (s.answer op).2 := by
  cases op with
  | findMatchingRule => exact ⟨rfl, le_rfl, rfl⟩
  | withBucket => exact ⟨⟨le_rfl, le_rfl, le_rfl⟩, rfl, rfl⟩
  | reset => rfl
  | addRule | removeRule => exact ⟨rfl, rfl⟩

end ClockedLimiter

/-- What has been done to the limiter, with the client that did it. -/
abbrev LimiterHistory : Type := List (ℕ × Event LimiterOp.Reply)

/-- The calls of the clients are run side by side. -/
abbrev LimiterRun (tasks : ℕ → LimiterTask) (s : ClockedLimiter) (h : LimiterHistory)
    (Q : ℕ → Prog LimiterOp LimiterOp.Reply LimiterOut) (s' : ClockedLimiter) : Prop :=
  Interleaves ClockedLimiter.serve (fun i => (tasks i).program) s h Q s'

/-! ## One call after the other -/

/-- The call that takes effect, with its outcome.  A check without a rule ends at once; one with a
rule takes effect when it uses the bucket. -/
def commit : Event LimiterOp.Reply → Option (LimiterCall × LimiterOut)
  | ⟨.findMatchingRule use key, (none, now)⟩ =>
      some (use.call key ⟨now, now, now⟩, .error TokenBucketRateLimiter.noRule)
  | ⟨.findMatchingRule _ _, (some _, _)⟩ => none
  | ⟨.withBucket use key _, (result, t)⟩ => some (use.call key t, .ok (some result))
  | ⟨.reset key, _⟩ => some (.reset key, .ok none)
  | ⟨.addRule rule, r⟩ => some (.addRule rule, r.map fun _ => none)
  | ⟨.removeRule ruleId, r⟩ => some (.removeRule ruleId, r.map fun _ => none)

/-- The calls that have taken effect, in this order, with their outcomes and the clients that made
them. -/
def committed (h : LimiterHistory) : List (ℕ × LimiterCall × LimiterOut) := tagged commit h

/-- The call is the one that the client makes, with some readings of the clock. -/
def LimiterTask.Makes : LimiterTask → LimiterCall → Prop
  | bucket use key, c => ∃ t, c = use.call key t
  | reset key, c => c = .reset key
  | addRule rule, c => c = .addRule rule
  | removeRule ruleId, c => c = .removeRule ruleId

/-- The rule with which a bucket is used is still the rule of the key. -/
def RuleStands (s : ClockedLimiter) : Event LimiterOp.Reply → Prop
  | ⟨.withBucket _ key rule, _⟩ => s.limiter.findMatchingRule key = some rule
  | _ => True

section OneCall

variable {s s' : ClockedLimiter} {use : BucketUse} {key : RateLimitKey} {rule : RateLimitRule}
  {L : TokenBucketRateLimiter}

/-- A use of a bucket is one call of the machine. -/
theorem step_use_of_rule (hrule : L.findMatchingRule key = some rule) (t : Readings) :
    limiterMachine.step L (use.call key t) =
      (.ok (some (L.withBucket key.asString rule t.created (use.apply rule t)).1),
        (L.withBucket key.asString rule t.created (use.apply rule t)).2) := by
  cases use with
  | check =>
    simp only [BucketUse.call, limiterMachine, TokenBucketRateLimiter.check, hrule]
    rfl
  | peek =>
    simp only [BucketUse.call, limiterMachine, TokenBucketRateLimiter.peek, hrule]
    rfl

theorem step_use_of_no_rule (hrule : L.findMatchingRule key = none) (t : Readings) :
    limiterMachine.step L (use.call key t) = (.error TokenBucketRateLimiter.noRule, L) := by
  cases use with
  | check =>
    simp only [BucketUse.call, limiterMachine, TokenBucketRateLimiter.check, hrule]
    rfl
  | peek =>
    simp only [BucketUse.call, limiterMachine, TokenBucketRateLimiter.peek, hrule]
    rfl

/-- A call that takes effect is a step of the machine, and the others change nothing. -/
theorem commit_serve {op : LimiterOp} {r : op.Reply} (hserve : ClockedLimiter.serve s op r s')
    (hstands : RuleStands s ⟨op, r⟩) :
    limiterMachine.Commits s.limiter (commit ⟨op, r⟩) s'.limiter := by
  cases op with
  | findMatchingRule use key =>
    obtain ⟨found, now⟩ := r
    obtain ⟨rfl, -, rfl⟩ := hserve
    cases hrule : s.limiter.findMatchingRule key with
    | none => exact step_use_of_no_rule hrule _
    | some rule => rfl
  | withBucket use key rule =>
    obtain ⟨result, t⟩ := r
    obtain ⟨-, hresult, -⟩ := hserve
    have hstep : limiterMachine.step s.limiter (use.call key t) = _ := step_use_of_rule hstands t
    rwa [← hresult] at hstep
  | reset key =>
    obtain rfl : s' = { s with limiter := s.limiter.reset key } := hserve
    rfl
  | addRule rule =>
    obtain ⟨rfl, rfl⟩ := hserve
    rfl
  | removeRule ruleId =>
    obtain ⟨rfl, rfl⟩ := hserve
    rfl

/-- The readings of a call that takes effect. -/
def readingsOf (ev : Event LimiterOp.Reply) : List ℚ :=
  (commit ev).toList.flatMap fun effect => effect.1.readings

/-- The clock is read after the calls before, and in order. -/
theorem readings_serve {op : LimiterOp} {r : op.Reply} (hserve : ClockedLimiter.serve s op r s') :
    (s.clock :: (readingsOf ⟨op, r⟩ ++ [s'.clock])).Pairwise (· ≤ ·) := by
  have hthree : ∀ {a b c d e : ℚ}, a ≤ b → b ≤ c → c ≤ d → d = e →
      [a, b, c, d, e].Pairwise (· ≤ ·) := by
    intro a b c d e hab hbc hcd hde
    subst hde
    simp only [List.pairwise_cons, List.forall_mem_cons, List.not_mem_nil, false_implies,
      implies_true, List.Pairwise.nil, and_true]
    exact ⟨⟨hab, hab.trans hbc, (hab.trans hbc).trans hcd, (hab.trans hbc).trans hcd⟩,
      ⟨hbc, hbc.trans hcd, hbc.trans hcd⟩, ⟨hcd, hcd⟩, le_rfl⟩
  cases op with
  | findMatchingRule use key =>
    obtain ⟨found, now⟩ := r
    obtain ⟨-, hnow, rfl⟩ := hserve
    cases found with
    | none =>
      cases use with
      | check => exact hthree hnow le_rfl le_rfl rfl
      | peek => exact hthree hnow le_rfl le_rfl rfl
    | some rule => simpa [readingsOf, commit] using hnow
  | withBucket use key rule =>
    obtain ⟨result, t⟩ := r
    obtain ⟨⟨hcreated, hrefilled, hcounted⟩, -, hclock⟩ := hserve
    cases use with
    | check => exact hthree hcreated hrefilled hcounted hclock.symm
    | peek => exact hthree hcreated hrefilled hcounted hclock.symm
  | reset key =>
    obtain rfl : s' = { s with limiter := s.limiter.reset key } := hserve
    simp [readingsOf, commit, LimiterCall.readings]
  | addRule rule =>
    obtain ⟨-, rfl⟩ := hserve
    simp [readingsOf, commit, LimiterCall.readings]
  | removeRule ruleId =>
    obtain ⟨-, rfl⟩ := hserve
    simp [readingsOf, commit, LimiterCall.readings]

end OneCall

section ManyCalls

variable {s s' : ClockedLimiter} {tr : List (Event LimiterOp.Reply)} {task : LimiterTask}
  {q : Prog LimiterOp LimiterOp.Reply LimiterOut}

theorem readings_serves (hserves : Serves ClockedLimiter.serve s tr s') :
    (s.clock :: tr.flatMap readingsOf).Pairwise (· ≤ ·) := by
  induction hserves with
  | nil s => simp
  | @cons s s₁ s' op r tr hserve _ ih =>
    have hfirst := readings_serve hserve
    rw [List.flatMap_cons, ← List.cons_append, List.pairwise_append]
    rw [← List.cons_append, List.pairwise_append] at hfirst
    refine ⟨hfirst.1, ih.of_cons, fun a ha b hb => ?_⟩
    exact (hfirst.2.2 a ha s₁.clock (List.mem_singleton_self _)).trans
      (List.rel_of_pairwise_cons ih hb)

/-- A client's call takes effect as the last thing that it does. -/
theorem commit_task (hsteps : Steps task.program tr q) :
    (tr.filterMap commit = [] ∧ ∀ out, q ≠ .done out) ∨
      ∃ c out, tr.filterMap commit = [(c, out)] ∧ q = .done out ∧ task.Makes c := by
  cases task with
  | bucket use key =>
    cases hsteps with
    | refl => exact .inl ⟨rfl, nofun⟩
    | @call _ _ r _ _ hrest =>
      obtain ⟨found, now⟩ := r
      cases found with
      | none =>
        cases hrest
        exact .inr ⟨_, _, rfl, rfl, _, rfl⟩
      | some rule =>
        cases hrest with
        | refl => exact .inl ⟨rfl, nofun⟩
        | @call _ _ r _ _ hrest =>
          cases hrest
          exact .inr ⟨_, _, rfl, rfl, _, rfl⟩
  | reset key =>
    cases hsteps with
    | refl => exact .inl ⟨rfl, nofun⟩
    | call hrest =>
      cases hrest
      exact .inr ⟨_, _, rfl, rfl, rfl⟩
  | addRule rule | removeRule ruleId =>
    cases hsteps with
    | refl => exact .inl ⟨rfl, nofun⟩
    | @call _ _ r _ _ hrest =>
      cases r with
      | ok =>
        cases hrest
        exact .inr ⟨_, _, rfl, rfl, rfl⟩
      | error e =>
        cases hrest
        exact .inr ⟨_, _, rfl, rfl, rfl⟩

end ManyCalls

section Runs

variable {tasks : ℕ → LimiterTask} {s s' : ClockedLimiter} {h h' : LimiterHistory}
  {Q : ℕ → Prog LimiterOp LimiterOp.Reply LimiterOut}

/-- The calls that have taken effect. -/
def committedCalls (h : LimiterHistory) : List LimiterCall := (committed h).map fun c => c.2.1

theorem committedCalls_eq :
    committedCalls h = ((h.map Prod.snd).filterMap commit).map Prod.fst := by
  rw [← map_snd_tagged, List.map_map]
  rfl

theorem readings_committedCalls :
    (committedCalls h).flatMap LimiterCall.readings = (h.map Prod.snd).flatMap readingsOf := by
  rw [committedCalls_eq, List.filterMap_eq_flatMap_toList, List.map_flatMap, List.flatMap_assoc]
  refine congrFun (congrArg _ (funext fun ev => ?_)) _
  exact List.flatMap_map _ _ _

/-- If no rule of a key is changed while the key is between its two locks, the clients might as well
have called the limiter one after the other, each as a whole and in the order in which they used the
buckets: they got the same outcomes, and left the limiter in the same state. -/
theorem limiter_linearizes (hrun : LimiterRun tasks s h Q s')
    (hstands : AtEach ClockedLimiter.serve s (h.map Prod.snd) RuleStands) :
    limiterMachine.answers s.limiter (committedCalls h) = ((committed h).map fun c => c.2.2) ∧
      limiterMachine.run s.limiter (committedCalls h) = s'.limiter ∧
      (s.clock :: (committedCalls h).flatMap LimiterCall.readings).Pairwise (· ≤ ·) ∧
      ((committed h).map Prod.fst).Nodup ∧
      ∀ i out, Q i = .done out ↔ ∃ c, (tasks i).Makes c ∧ (i, c, out) ∈ committed h := by
  obtain ⟨hanswers, hstate⟩ := hrun.served.linearize (m := limiterMachine) ClockedLimiter.limiter
    commit hstands fun _ _ _ _ hserve => commit_serve hserve
  rw [← committedCalls_eq] at hanswers hstate
  refine ⟨hanswers.trans ?_, hstate, ?_, nodup_tagged fun i => ?_, fun i out => ⟨fun hdone => ?_, ?_⟩⟩
  · rw [← map_snd_tagged, List.map_map]
    rfl
  · rw [readings_committedCalls]
    exact readings_serves hrun.served
  · rcases commit_task (hrun.thread i) with ⟨hnone, -⟩ | ⟨c, out, hone, -, -⟩
    · rw [hnone]
      exact Nat.zero_le _
    · rw [hone]
      exact le_refl _
  · rcases commit_task (hrun.thread i) with ⟨-, hnot⟩ | ⟨c, out', hone, hout, hmakes⟩
    · exact absurd hdone (hnot out)
    · obtain rfl := Prog.done.inj (hdone.symm.trans hout)
      have hmem : (c, out) ∈ (callsOf i h).filterMap commit := by
        rw [hone]
        exact List.mem_singleton_self _
      obtain ⟨ev, hev, hcommit⟩ := List.mem_filterMap.mp hmem
      exact ⟨c, hmakes, mem_tagged.mpr ⟨ev, hev, hcommit⟩⟩
  · rintro ⟨c, -, hmem⟩
    obtain ⟨ev, hev, hcommit⟩ := mem_tagged.mp hmem
    have hmem : (c, out) ∈ (callsOf i h).filterMap commit :=
      List.mem_filterMap.mpr ⟨ev, hev, hcommit⟩
    rcases commit_task (hrun.thread i) with ⟨hnone, -⟩ | ⟨c', out', hone, hout, -⟩
    · rw [hnone] at hmem
      exact absurd hmem List.not_mem_nil
    · rw [hone] at hmem
      obtain ⟨-, rfl⟩ := Prod.mk.inj (List.mem_singleton.mp hmem)
      exact hout

/-! ### Rules that stay as they are -/

/-- The call changes no rule. -/
def KeepsRules (ev : Event LimiterOp.Reply) : Prop :=
  (∀ rule, ev.1 ≠ .addRule rule) ∧ ∀ ruleId, ev.1 ≠ .removeRule ruleId

theorem findMatchingRule_serve {op : LimiterOp} {r : op.Reply}
    (hserve : ClockedLimiter.serve s op r s') (hkeeps : KeepsRules ⟨op, r⟩) (key : RateLimitKey) :
    s'.limiter.findMatchingRule key = s.limiter.findMatchingRule key := by
  cases op with
  | findMatchingRule use key =>
    obtain ⟨-, -, rfl⟩ := hserve
    rfl
  | withBucket use key rule =>
    obtain ⟨-, hresult, -⟩ := hserve
    rw [(Prod.mk.inj hresult).2]
    rfl
  | reset key =>
    obtain rfl : s' = { s with limiter := s.limiter.reset key } := hserve
    rfl
  | addRule rule => exact absurd rfl (hkeeps.1 rule)
  | removeRule ruleId => exact absurd rfl (hkeeps.2 ruleId)

theorem findMatchingRule_serves {tr : List (Event LimiterOp.Reply)}
    (hserves : Serves ClockedLimiter.serve s tr s') (hkeeps : ∀ ev ∈ tr, KeepsRules ev)
    (key : RateLimitKey) :
    s'.limiter.findMatchingRule key = s.limiter.findMatchingRule key :=
  hserves.invariant
    (I := fun s' => s'.limiter.findMatchingRule key = s.limiter.findMatchingRule key) rfl hkeeps
    fun _ _ _ _ hserve hev hs => (findMatchingRule_serve hserve hev key).trans hs

/-- A bucket is used right after its rule has been found. -/
theorem found_of_use {task : LimiterTask} {tr : List (Event LimiterOp.Reply)} {use : BucketUse}
    {key : RateLimitKey} {rule : RateLimitRule}
    {k : LimiterOp.Reply (.withBucket use key rule) → Prog LimiterOp LimiterOp.Reply LimiterOut}
    (hsteps : Steps task.program tr (.call (.withBucket use key rule) k)) :
    ∃ now, tr = [⟨.findMatchingRule use key, (some rule, now)⟩] := by
  cases task with
  | bucket use key =>
    cases hsteps with
    | @call _ _ r _ _ hrest =>
      obtain ⟨found, now⟩ := r
      cases found with
      | none => cases hrest
      | some rule =>
        cases hrest with
        | refl => exact ⟨now, rfl⟩
        | call hrest => cases hrest
  | reset key =>
    cases hsteps with
    | call hrest => cases hrest
  | addRule rule | removeRule ruleId =>
    cases hsteps with
    | @call _ _ r _ _ hrest => cases r <;> cases hrest

theorem keepsRules_of_task {task : LimiterTask} {tr : List (Event LimiterOp.Reply)}
    {q : Prog LimiterOp LimiterOp.Reply LimiterOut} (hsteps : Steps task.program tr q)
    (htask : (∀ rule, task ≠ .addRule rule) ∧ ∀ ruleId, task ≠ .removeRule ruleId) :
    ∀ ev ∈ tr, KeepsRules ev := by
  have hkeeps : Ensures (fun _ op => (∀ rule, op ≠ .addRule rule) ∧ ∀ ruleId, op ≠ .removeRule ruleId)
      (fun _ _ => True) task.program [] := by
    cases task with
    | bucket use key =>
      refine ⟨⟨nofun, nofun⟩, fun found => ?_⟩
      obtain ⟨found, now⟩ := found
      cases found with
      | none => trivial
      | some rule => exact ⟨⟨nofun, nofun⟩, fun _ => trivial⟩
    | reset key => exact ⟨⟨nofun, nofun⟩, fun _ => trivial⟩
    | addRule rule => exact absurd rfl (htask.1 rule)
    | removeRule ruleId => exact absurd rfl (htask.2 ruleId)
  intro ev hev
  obtain ⟨tr₁, tr₂, rfl⟩ := List.append_of_mem hev
  obtain ⟨k, hcall⟩ := hsteps.exists_call
  exact hkeeps.may_of_steps hcall

/-- While nobody changes the rules, the rule of a key stands. -/
theorem ruleStands_of_fixed (hrun : LimiterRun tasks s h Q s')
    (hfixed : ∀ i, (∀ rule, tasks i ≠ .addRule rule) ∧ ∀ ruleId, tasks i ≠ .removeRule ruleId) :
    AtEach ClockedLimiter.serve s (h.map Prod.snd) RuleStands := by
  rintro tr₁ ⟨op, r⟩ tr₂ s₁ htr hserves
  cases op with
  | withBucket use key rule =>
    obtain ⟨h₁, h₂, rfl, rfl, hrest⟩ := List.map_eq_append_iff.mp htr
    obtain ⟨⟨i, ev⟩, h₃, rfl, rfl, rfl⟩ := List.map_eq_cons_iff.mp hrest
    obtain ⟨k, hcall⟩ := hrun.exists_call
    obtain ⟨now, hcalls⟩ := found_of_use hcall
    have hfound := mem_callsOf.mp (hcalls ▸ List.mem_singleton_self _)
    have hkeeps : ∀ ev ∈ h₁.map Prod.snd, KeepsRules ev := by
      intro ev hev
      obtain ⟨entry, hentry, rfl⟩ := List.mem_map.mp hev
      exact keepsRules_of_task (hrun.thread entry.1) (hfixed entry.1) entry.2
        (mem_callsOf.mpr (List.mem_append_left _ hentry))
    -- the rule has been found before, and it has not been changed since
    obtain ⟨h₄, h₅, rfl⟩ := List.append_of_mem hfound
    rw [List.map_append, List.map_cons] at hserves hkeeps
    obtain ⟨s₂, hbefore, hafter⟩ := serves_append_iff.mp hserves
    obtain ⟨s₃, ⟨hrule, -, -⟩, -⟩ := serves_cons_iff.mp hafter
    show s₁.limiter.findMatchingRule key = some rule
    rw [findMatchingRule_serves hserves hkeeps, hrule, findMatchingRule_serves hbefore fun ev hev =>
      hkeeps ev (List.mem_append_left _ hev)]
  | _ => trivial

/-! ### Three clients -/

/-- A limiter with the rule for two requests at once. -/
def burstLimiter : ClockedLimiter where
  limiter := .withDefaultRule TokenBucketRateLimiter.burstRule
  clock := 0

def alice : RateLimitKey := ⟨"user", "alice"⟩

/-- Each client checks the key. -/
def aliceTasks (_ : ℕ) : LimiterTask := .bucket .check alice

/-- The second client overtakes the first one. -/
def aliceRun : LimiterHistory × (ℕ → Prog LimiterOp LimiterOp.Reply LimiterOut) × ClockedLimiter :=
  runSchedule ClockedLimiter.answer (fun i => (aliceTasks i).program) burstLimiter
    [0, 1, 1, 0, 2, 2]

theorem limiter_linearizes_alice :
    limiterMachine.answers burstLimiter.limiter (committedCalls aliceRun.1) =
        ((committed aliceRun.1).map fun c => c.2.2) ∧
      limiterMachine.run burstLimiter.limiter (committedCalls aliceRun.1) = aliceRun.2.2.limiter ∧
      (burstLimiter.clock ::
        (committedCalls aliceRun.1).flatMap LimiterCall.readings).Pairwise (· ≤ ·) ∧
      ((committed aliceRun.1).map Prod.fst).Nodup ∧
      ∀ i out, aliceRun.2.1 i = .done out ↔
        ∃ c, (aliceTasks i).Makes c ∧ (i, c, out) ∈ committed aliceRun.1 := by
  have hrun := interleaves_runSchedule ClockedLimiter.serve_answer
    (fun i => (aliceTasks i).program) burstLimiter [0, 1, 1, 0, 2, 2]
  exact limiter_linearizes hrun (ruleStands_of_fixed hrun fun _ => ⟨nofun, nofun⟩)

end Runs

/-! ## What is allowed -/

/-- A bucket with at most room for `C` tokens and at most the rate `r`, refilled before `now`. -/
structure TokenBucket.Within (C : ℕ) (r now : ℚ) (b : TokenBucket) : Prop where
  sound : b.Sound
  room : b.capacity.toNat ≤ C
  slow : ∃ rate, b.refillRate = .finite rate ∧ rate ≤ r
  past : b.lastRefill ≤ now

/-- A rule for such buckets. -/
structure RateLimitRule.Within (C : ℕ) (r : ℚ) (rule : RateLimitRule) : Prop where
  window : 1 ≤ rule.windowSeconds
  room : rule.capacity.toNat ≤ C
  slow : rule.rate ≤ r

/-- What can be taken out of the bucket between `a` and `b`. -/
def TokenBucket.allowance (C : ℕ) (r a b now : ℚ) (bucket : TokenBucket) : ℚ :=
  Bucket.allowance (C : ℚ) r a b now bucket.lastRefill bucket.tokens

namespace TokenBucket

variable {C : ℕ} {r a b now : ℚ} {bucket : TokenBucket} {rule : RateLimitRule} {t : Readings}
  (hr : 0 ≤ r) (hab : a ≤ b)

theorem within_newBucket (hrule : rule.Within C r) (now : ℚ) : (rule.newBucket now).Within C r now where
  sound := sound_newBucket rule now
  room := hrule.room
  slow := ⟨rule.rate, (fits_newBucket hrule.window now).rate_eq, hrule.slow⟩
  past := le_refl _

theorem Within.later (h : bucket.Within C r now) {now' : ℚ} (hnow : now ≤ now') :
    bucket.Within C r now' :=
  ⟨h.sound, h.room, h.slow, h.past.trans hnow⟩

theorem Within.refill (h : bucket.Within C r now) (now' : ℚ) :
    (bucket.refill now').Within C r now' :=
  ⟨h.sound.refill now', h.room, h.slow, le_refl _⟩

theorem Within.tokens_refill_le (h : bucket.Within C r now) {now' : ℚ} (hnow : now ≤ now') :
    (bucket.refill now').tokens ≤ bucket.tokens + (now' - bucket.lastRefill) * r := by
  obtain ⟨rate, hrate, hslow⟩ := h.slow
  have hpast : 0 ≤ now' - bucket.lastRefill := sub_nonneg.mpr (h.past.trans hnow)
  simp only [TokenBucket.refill, hrate, max_eq_left hpast]
  exact (min_le_left _ _).trans (add_le_add_right (mul_le_mul_of_nonneg_left hslow hpast) _)

theorem Within.tokens_le (h : bucket.Within C r now) : bucket.tokens ≤ C :=
  h.sound.le.trans (Nat.cast_le.mpr h.room)

include hr hab

/-- The allowance does not grow as time passes. -/
theorem Within.allowance_later (h : bucket.Within C r now) {now' : ℚ} (hnow : now ≤ now') :
    bucket.allowance C r a b now' ≤ bucket.allowance C r a b now :=
  Bucket.allowance_anti hr (Nat.cast_nonneg C) hab h.sound.nonneg h.past hnow (by simp)

theorem Within.allowance_refill (h : bucket.Within C r now) {now' : ℚ} (hnow : now ≤ now') :
    (bucket.refill now').allowance C r a b now' ≤ bucket.allowance C r a b now :=
  Bucket.allowance_anti hr (Nat.cast_nonneg C) hab h.sound.nonneg h.past hnow
    (h.tokens_refill_le hnow)

/-- A token that is taken in time lowers the allowance by one. -/
theorem Within.tryConsume (h : bucket.Within C r now) {now' : ℚ} (hnow : now ≤ now') :
    (bucket.tryConsume 1 now').2.Within C r now' ∧
      (if (bucket.tryConsume 1 now').1 ∧ a ≤ now' ∧ now' ≤ b then 1 else 0) +
          (bucket.tryConsume 1 now').2.allowance C r a b now' ≤ bucket.allowance C r a b now := by
  have hrefill := h.refill now'
  have hless := h.allowance_refill hr hab hnow
  by_cases htoken : 1 ≤ (bucket.refill now').tokens
  · have hafter : ({ bucket.refill now' with tokens := (bucket.refill now').tokens - 1 }).Within
        C r now' := by
      have hsound := h.sound.tryConsume now'
      simp only [TokenBucket.tryConsume, if_pos htoken] at hsound
      exact ⟨hsound, hrefill.room, hrefill.slow, hrefill.past⟩
    simp only [TokenBucket.tryConsume, if_pos htoken, true_and]
    refine ⟨hafter, le_trans ?_ hless⟩
    split_ifs with htime
    · exact (Bucket.allowance_sub_one htime.1 htime.2 hrefill.tokens_le).le
    · rw [zero_add]
      exact Bucket.allowance_anti hr (Nat.cast_nonneg C) hab hrefill.sound.nonneg hrefill.past
        le_rfl (by simp)
  · simp only [TokenBucket.tryConsume, if_neg htoken, Bool.false_eq_true, false_and, if_false,
      zero_add]
    exact ⟨hrefill, hless⟩

/-- A use of the bucket that takes a token in time lowers the allowance by one, and no use lets it
grow. -/
theorem Within.use (h : bucket.Within C r now) (use : BucketUse) (rule : RateLimitRule)
    (hnow : now ≤ t.refilled) (hcounted : t.refilled ≤ t.counted) :
    (use.apply rule t bucket).2.Within C r t.counted ∧
      (if use = .check ∧ (use.apply rule t bucket).1.allowed ∧ a ≤ t.refilled ∧ t.refilled ≤ b
          then 1 else 0) + (use.apply rule t bucket).2.allowance C r a b t.counted ≤
        bucket.allowance C r a b now := by
  cases use with
  | check =>
    obtain ⟨hwithin, hless⟩ := h.tryConsume hr hab hnow
    simp only [BucketUse.apply, TokenBucketRateLimiter.checkBucket, true_and]
    by_cases hallowed : (bucket.tryConsume 1 t.refilled).1 = true
    · simp only [hallowed, true_and, if_true, TokenBucket.remaining] at hless ⊢
      refine ⟨hwithin.refill t.counted, le_trans ?_ hless⟩
      exact add_le_add_right (hwithin.allowance_refill hr hab hcounted) _
    · simp only [hallowed, if_false, Bool.false_eq_true, false_and] at hless ⊢
      refine ⟨hwithin.later hcounted, le_trans ?_ hless⟩
      exact add_le_add_right (hwithin.allowance_later hr hab hcounted) _
  | peek =>
    have hwithin := h.refill t.refilled
    simp only [BucketUse.apply, TokenBucketRateLimiter.peekBucket, TokenBucket.remaining, reduceCtorEq,
      false_and, if_false, zero_add]
    exact ⟨hwithin.later hcounted, (hwithin.allowance_later hr hab hcounted).trans
      (h.allowance_refill hr hab hnow)⟩

end TokenBucket

/-- What can be taken between `a` and `b` out of the bucket that is kept under `text`; a new bucket is
full. -/
def ClockedLimiter.allowance (C : ℕ) (r a b : ℚ) (text : String) (s : ClockedLimiter) : ℚ :=
  match s.limiter.buckets.lookup text with
  | some bucket => bucket.allowance C r a b s.clock
  | none => Bucket.allowance (C : ℚ) r a b s.clock s.clock C

/-- The bucket that is kept under `text`, if there is one, is within the bounds. -/
def ClockedLimiter.Within (C : ℕ) (r : ℚ) (text : String) (s : ClockedLimiter) : Prop :=
  ∀ bucket, s.limiter.buckets.lookup text = some bucket → bucket.Within C r s.clock

/-- A check was allowed between `a` and `b`, out of the bucket that is kept under `text`. -/
def allowedIn (text : String) (a b : ℚ) : Event LimiterOp.Reply → Bool
  | ⟨.withBucket .check key _, (result, t)⟩ =>
      key.asString = text ∧ result.allowed ∧ a ≤ t.refilled ∧ t.refilled ≤ b
  | _ => false

theorem allowedIn_use_iff {text : String} {a b : ℚ} {use : BucketUse} {key : RateLimitKey}
    {rule : RateLimitRule} {result : RateLimitResult} {t : Readings} :
    allowedIn text a b ⟨.withBucket use key rule, (result, t)⟩ = true ↔
      key.asString = text ∧ use = .check ∧ result.allowed ∧ a ≤ t.refilled ∧ t.refilled ≤ b := by
  cases use <;> simp [allowedIn]

/-- The bucket that is kept under `text` is forgotten. -/
def resets (text : String) : Event LimiterOp.Reply → Bool
  | ⟨.reset key, _⟩ => key.asString = text
  | _ => false

/-- A rule that is found for the bucket under `text` is within the bounds. -/
def FindsWithin (C : ℕ) (r : ℚ) (text : String) : Event LimiterOp.Reply → Prop
  | ⟨.findMatchingRule _ key, (some rule, _)⟩ => key.asString = text → rule.Within C r
  | _ => True

theorem sum_ite {α : Type} (p : α → Bool) (c : ℚ) (l : List α) :
    (l.map fun x => if p x then c else 0).sum = l.countP p * c := by
  induction l with
  | nil => simp
  | cons x l ih =>
    rw [List.map_cons, List.sum_cons, ih, List.countP_cons]
    split_ifs <;> push_cast <;> ring

/-- A rule with which the bucket under `text` is created is within the bounds. -/
def CreatesWithin (C : ℕ) (r : ℚ) (text : String) (s : ClockedLimiter) :
    Event LimiterOp.Reply → Prop
  | ⟨.withBucket _ key rule, _⟩ =>
      key.asString = text → s.limiter.buckets.lookup text = none → rule.Within C r
  | _ => True

namespace ClockedLimiter

variable {C : ℕ} {r a b : ℚ} {text : String} {s s' : ClockedLimiter} (hr : 0 ≤ r) (hab : a ≤ b)

/-- The bucket with which a use under `text` starts. -/
def bucketAt (s : ClockedLimiter) (text : String) (rule : RateLimitRule) (t : Readings) :
    TokenBucket :=
  (s.limiter.buckets.lookup text).getD (rule.newBucket t.created)

theorem bucketAt_of_some {bucket : TokenBucket} (h : s.limiter.buckets.lookup text = some bucket)
    (rule : RateLimitRule) (t : Readings) : s.bucketAt text rule t = bucket := by
  rw [bucketAt, h, Option.getD_some]

theorem bucketAt_of_none (h : s.limiter.buckets.lookup text = none) (rule : RateLimitRule)
    (t : Readings) : s.bucketAt text rule t = rule.newBucket t.created := by
  rw [bucketAt, h, Option.getD_none]

/-- What holds of the bucket that is kept under `text`, and of a new one if there is none. -/
theorem bucketAt_cases {p : TokenBucket → Prop} {rule : RateLimitRule} {t : Readings}
    (hkept : ∀ bucket, s.limiter.buckets.lookup text = some bucket → p bucket)
    (hnew : s.limiter.buckets.lookup text = none → p (rule.newBucket t.created)) :
    p (s.bucketAt text rule t) := by
  cases hlookup : s.limiter.buckets.lookup text with
  | none => exact bucketAt_of_none hlookup rule t ▸ hnew hlookup
  | some bucket => exact bucketAt_of_some hlookup rule t ▸ hkept bucket hlookup

/-- What a call does to the bucket that is kept under `text`. -/
inductive Touches (text : String) (s s' : ClockedLimiter) : Event LimiterOp.Reply → Prop where
  | leaves {ev : Event LimiterOp.Reply} (hclock : s.clock ≤ s'.clock)
      (hsame : s'.limiter.buckets.lookup text = s.limiter.buckets.lookup text)
      (hallowed : ∀ a b, allowedIn text a b ev = false) (hresets : resets text ev = false) :
      Touches text s s' ev
  | uses {use : BucketUse} {key : RateLimitKey} {rule : RateLimitRule} {result : RateLimitResult}
      {t : Readings} (hkey : key.asString = text) (htime : t.InOrder s.clock)
      (hclock : s'.clock = t.counted)
      (hresult : result = (use.apply rule t (s.bucketAt text rule t)).1)
      (hbucket : s'.limiter.buckets.lookup text =
        some (use.apply rule t (s.bucketAt text rule t)).2) :
      Touches text s s' ⟨.withBucket use key rule, (result, t)⟩
  | forgets {key : RateLimitKey} {reply : LimiterOp.Reply (.reset key)} (hkey : key.asString = text)
      (hclock : s'.clock = s.clock) (hnone : s'.limiter.buckets.lookup text = none) :
      Touches text s s' ⟨.reset key, reply⟩

theorem touches_of_serve (text : String) {op : LimiterOp} {reply : op.Reply}
    (hserve : ClockedLimiter.serve s op reply s') : Touches text s s' ⟨op, reply⟩ := by
  cases op with
  | findMatchingRule use key =>
    obtain ⟨found, now⟩ := reply
    obtain ⟨-, hnow, rfl⟩ := hserve
    exact .leaves hnow rfl (fun _ _ => rfl) rfl
  | withBucket use key rule =>
    obtain ⟨result, t⟩ := reply
    obtain ⟨htime, hresult, hclock⟩ := hserve
    obtain ⟨hresult, hlimiter⟩ := Prod.mk.inj hresult
    by_cases hkey : key.asString = text
    · subst hkey
      refine .uses rfl htime hclock hresult ?_
      rw [hlimiter]
      exact AList.lookup_insert _
    · refine .leaves ?_ ?_ (fun a b => ?_) rfl
      · rw [hclock]
        exact htime.1.trans (htime.2.1.trans htime.2.2)
      · rw [hlimiter]
        exact AList.lookup_insert_ne (Ne.symm hkey)
      · rw [Bool.eq_false_iff, Ne, allowedIn_use_iff]
        exact fun hallowed => hkey hallowed.1
  | reset key =>
    obtain rfl : s' = { s with limiter := s.limiter.reset key } := hserve
    by_cases hkey : key.asString = text
    · subst hkey
      exact .forgets rfl rfl (AList.lookup_erase _ _)
    · exact .leaves le_rfl (AList.lookup_erase_ne (Ne.symm hkey)) (fun _ _ => rfl)
        (by simp [resets, hkey])
  | addRule rule =>
    obtain ⟨-, rfl⟩ := hserve
    exact .leaves le_rfl (congrArg (AList.lookup _) (s.limiter.addRule_buckets rule))
      (fun _ _ => rfl) rfl
  | removeRule ruleId =>
    obtain ⟨-, rfl⟩ := hserve
    exact .leaves le_rfl (congrArg (AList.lookup _) (s.limiter.removeRule_buckets ruleId))
      (fun _ _ => rfl) rfl

theorem allowance_of_some {bucket : TokenBucket}
    (h : s.limiter.buckets.lookup text = some bucket) :
    s.allowance C r a b text = bucket.allowance C r a b s.clock := by
  rw [ClockedLimiter.allowance, h]

theorem allowance_of_none (h : s.limiter.buckets.lookup text = none) :
    s.allowance C r a b text = Bucket.allowance (C : ℚ) r a b s.clock s.clock C := by
  rw [ClockedLimiter.allowance, h]

/-- Time passes, and the bucket stays as it is. -/
theorem Within.later (h : s.Within C r text) (hclock : s.clock ≤ s'.clock)
    (hsame : s'.limiter.buckets.lookup text = s.limiter.buckets.lookup text) :
    s'.Within C r text := by
  intro bucket hbucket
  exact (h bucket (hsame ▸ hbucket)).later hclock

include hr hab

theorem Within.allowance_later (h : s.Within C r text) (hclock : s.clock ≤ s'.clock)
    (hsame : s'.limiter.buckets.lookup text = s.limiter.buckets.lookup text) :
    s'.allowance C r a b text ≤ s.allowance C r a b text := by
  cases hbucket : s.limiter.buckets.lookup text with
  | some bucket =>
    rw [allowance_of_some hbucket, allowance_of_some (hsame.trans hbucket)]
    exact (h bucket hbucket).allowance_later hr hab hclock
  | none =>
    rw [allowance_of_none hbucket, allowance_of_none (hsame.trans hbucket)]
    refine Bucket.allowance_anti hr (Nat.cast_nonneg C) hab (Nat.cast_nonneg C) le_rfl hclock ?_
    exact le_add_of_nonneg_right (mul_nonneg (sub_nonneg.mpr hclock) hr)

theorem Within.start (h : s.Within C r text) {rule : RateLimitRule} {t : Readings}
    (hrule : s.limiter.buckets.lookup text = none → rule.Within C r) (hcreated : s.clock ≤ t.created) :
    (s.bucketAt text rule t).Within C r t.created ∧
      (s.bucketAt text rule t).allowance C r a b t.created ≤ s.allowance C r a b text := by
  cases hbucket : s.limiter.buckets.lookup text with
  | some bucket =>
    have hwithin := h bucket hbucket
    rw [allowance_of_some hbucket, bucketAt_of_some hbucket]
    exact ⟨hwithin.later hcreated, hwithin.allowance_later hr hab hcreated⟩
  | none =>
    have hnew := hrule hbucket
    rw [allowance_of_none hbucket, bucketAt_of_none hbucket]
    refine ⟨TokenBucket.within_newBucket hnew t.created, ?_⟩
    refine Bucket.allowance_anti hr (Nat.cast_nonneg C) hab (Nat.cast_nonneg C) le_rfl hcreated ?_
    refine le_trans (Nat.cast_le.mpr hnew.room) (le_add_of_nonneg_right ?_)
    exact mul_nonneg (sub_nonneg.mpr hcreated) hr

/-- One call: a check that is allowed in time lowers the allowance by one, a reset raises it by the
capacity at most, and nothing else lets it grow. -/
theorem allowance_serve {op : LimiterOp} {reply : op.Reply}
    (hserve : ClockedLimiter.serve s op reply s') (hcreates : CreatesWithin C r text s ⟨op, reply⟩)
    (h : s.Within C r text) :
    s'.Within C r text ∧
      (if allowedIn text a b ⟨op, reply⟩ then 1 else 0) + s'.allowance C r a b text ≤
        s.allowance C r a b text + (if resets text ⟨op, reply⟩ then (C : ℚ) else 0) := by
  cases touches_of_serve text hserve with
  | leaves hclock hsame hallowed hresets =>
    refine ⟨h.later hclock hsame, ?_⟩
    rw [hallowed, hresets]
    simpa using h.allowance_later hr hab hclock hsame
  | @uses use key rule result t hkey htime hclock hresult hbucket =>
    obtain ⟨hstart, hless⟩ := h.start hr hab (hcreates hkey) htime.1
    obtain ⟨hafter, htaken⟩ := hstart.use hr hab use rule htime.2.1 htime.2.2
    refine ⟨fun bucket hb => ?_, ?_⟩
    · obtain rfl := Option.some.inj (hbucket.symm.trans hb)
      rwa [hclock]
    · have hnot : resets text ⟨.withBucket use key rule, (result, t)⟩ = false := rfl
      rw [allowance_of_some hbucket, hclock, hnot, hresult]
      simp only [allowedIn_use_iff, hkey, true_and, Bool.false_eq_true, if_false, add_zero]
      exact htaken.trans hless
  | @forgets key reply hkey hclock hnone =>
    refine ⟨fun bucket hb => ?_, ?_⟩
    · rw [hnone] at hb
      cases hb
    · have hreset : resets text ⟨.reset key, reply⟩ = true := by simp [resets, hkey]
      have hnot : allowedIn text a b ⟨.reset key, reply⟩ = false := rfl
      rw [hreset, hnot, if_pos rfl, if_neg Bool.false_ne_true, zero_add, allowance_of_none hnone,
        hclock]
      cases hbucket : s.limiter.buckets.lookup text with
      | some bucket =>
        have hwithin := h bucket hbucket
        rw [allowance_of_some hbucket]
        exact Bucket.allowance_le_add hr (Nat.cast_nonneg C) hwithin.sound.nonneg hwithin.past
      | none =>
        rw [allowance_of_none hbucket]
        exact le_add_of_nonneg_right (Nat.cast_nonneg C)

/-- What is spent in any number of calls. -/
theorem Within.spent {tr : List (Event LimiterOp.Reply)}
    (hserves : Serves ClockedLimiter.serve s tr s')
    (hcreates : AtEach ClockedLimiter.serve s tr (CreatesWithin C r text)) (h : s.Within C r text) :
    s'.Within C r text ∧ (tr.countP (allowedIn text a b) : ℚ) + s'.allowance C r a b text ≤
      s.allowance C r a b text + tr.countP (resets text) * C := by
  have hspent := hserves.potential (I := ClockedLimiter.Within C r text)
    (ClockedLimiter.allowance C r a b text) (fun ev => if allowedIn text a b ev then 1 else 0)
    (fun ev => if resets text ev then (C : ℚ) else 0) h hcreates
    fun _ _ _ _ hserve hcreate hs => allowance_serve hr hab hserve hcreate hs
  rwa [sum_ite, sum_ite, mul_one] at hspent

theorem Within.allowance_le (h : s.Within C r text) :
    0 ≤ s.allowance C r a b text ∧ s.allowance C r a b text ≤ C + (b - a) * r := by
  have hcap : (0 : ℚ) ≤ C := Nat.cast_nonneg C
  cases hbucket : s.limiter.buckets.lookup text with
  | some bucket =>
    have hwithin := h bucket hbucket
    rw [allowance_of_some hbucket]
    exact ⟨Bucket.allowance_nonneg hr hcap hab hwithin.sound.nonneg hwithin.past,
      Bucket.allowance_le hr hcap hab⟩
  | none =>
    rw [allowance_of_none hbucket]
    exact ⟨Bucket.allowance_nonneg hr hcap hab hcap le_rfl, Bucket.allowance_le hr hcap hab⟩

end ClockedLimiter

section Bound

variable {tasks : ℕ → LimiterTask} {s₀ s s' : ClockedLimiter} {h h' : LimiterHistory}
  {P Q : ℕ → Prog LimiterOp LimiterOp.Reply LimiterOut} {C : ℕ} {r a b : ℚ} {key : RateLimitKey}

/-- A bucket is created with a rule that has been found before. -/
theorem createsWithin_of_found {text : String} (hrun : LimiterRun tasks s₀ h P s)
    (hrules : ∀ entry ∈ h, FindsWithin C r text entry.2) :
    ∀ ev ∈ h.map Prod.snd, ∀ s₁, CreatesWithin C r text s₁ ev := by
  intro ev hev s₁
  obtain ⟨⟨i, op, reply⟩, hmem, rfl⟩ := List.mem_map.mp hev
  cases op with
  | withBucket use key' rule =>
    obtain ⟨h₁, h₂, rfl⟩ := List.append_of_mem hmem
    obtain ⟨k, hcall⟩ := hrun.exists_call
    obtain ⟨now, hcalls⟩ := found_of_use hcall
    have hfound := mem_callsOf.mp (hcalls ▸ List.mem_singleton_self _)
    exact fun hkey _ => hrules _ (List.mem_append_left _ hfound) hkey
  | _ => trivial

/-- However the checks of any number of clients are interleaved, and whatever rules are added and
removed between and within them: in every interval, no more checks of the keys that share a bucket
are allowed than the rules found for them have ever allowed, and as much as a full bucket more for
every reset. -/
theorem concurrent_rate_bound (hr : 0 ≤ r) (hab : a ≤ b)
    (hbucket : ∀ bucket, s₀.limiter.buckets.lookup key.asString = some bucket →
      bucket.Within C r s₀.clock)
    (hbefore : LimiterRun tasks s₀ h P s) (hrun : Interleaves ClockedLimiter.serve P s h' Q s')
    (hrules : ∀ entry ∈ h ++ h', FindsWithin C r key.asString entry.2) :
    ((h'.map Prod.snd).countP (allowedIn key.asString a b) : ℚ) ≤
      ((h'.map Prod.snd).countP (resets key.asString) + 1) * C + (b - a) * r := by
  have hcreates := createsWithin_of_found (hbefore.trans hrun) hrules
  rw [List.map_append] at hcreates
  have hstart := (ClockedLimiter.Within.spent hr hab hbefore.served (atEach_of_forall fun ev hev =>
    hcreates ev (List.mem_append_left _ hev)) hbucket).1
  obtain ⟨hend, hspent⟩ := ClockedLimiter.Within.spent hr hab hrun.served
    (atEach_of_forall fun ev hev => hcreates ev (List.mem_append_right _ hev)) hstart
  have hle := (hstart.allowance_le (a := a) (b := b) hr hab).2
  have hnonneg := (hend.allowance_le (a := a) (b := b) hr hab).1
  linarith

end Bound

/-! ### A rule that comes too late -/

/-- One request each minute, before all other rules. -/
def tightRule : RateLimitRule :=
  { TokenBucketRateLimiter.burstRule with
    ruleId := "tight", burstAllowance := none, priority := 1 }

/-- Two clients check the key, and another one adds the rule. -/
def tightTasks : ℕ → LimiterTask
  | 1 => .addRule tightRule
  | _ => .bucket .check alice

/-- The clients run in the order of a schedule. -/
def tightRun (schedule : List ℕ) :
    LimiterHistory × (ℕ → Prog LimiterOp LimiterOp.Reply LimiterOut) × ClockedLimiter :=
  runSchedule ClockedLimiter.answer (fun i => (tightTasks i).program) burstLimiter schedule

/-- The first client has found the rule before it is replaced, and uses the bucket after. -/
theorem concurrent_rate_bound_tight :
    (((runSchedule ClockedLimiter.answer (tightRun [0, 1]).2.1 (tightRun [0, 1]).2.2
        [0, 2, 2]).1.map Prod.snd).countP (allowedIn alice.asString 0 60) : ℚ) ≤
      (((runSchedule ClockedLimiter.answer (tightRun [0, 1]).2.1 (tightRun [0, 1]).2.2
        [0, 2, 2]).1.map Prod.snd).countP (resets alice.asString) + 1) * (2 : ℕ) +
          (60 - 0) * (1 / 60) := by
  have hburst : TokenBucketRateLimiter.burstRule.Within 2 (1 / 60) :=
    ⟨by decide, by decide, le_refl _⟩
  have htight : tightRule.Within 2 (1 / 60) := ⟨by decide, by decide, le_refl _⟩
  have hbefore := interleaves_runSchedule ClockedLimiter.serve_answer
    (fun i => (tightTasks i).program) burstLimiter [0, 1]
  have hrun := interleaves_runSchedule ClockedLimiter.serve_answer (tightRun [0, 1]).2.1
    (tightRun [0, 1]).2.2 [0, 2, 2]
  have hrules : ∀ entry ∈ (tightRun [0, 1]).1 ++ (runSchedule ClockedLimiter.answer
      (tightRun [0, 1]).2.1 (tightRun [0, 1]).2.2 [0, 2, 2]).1,
      FindsWithin 2 (1 / 60) alice.asString entry.2 :=
    List.forall_iff_forall_mem.mp ⟨fun _ => hburst, trivial, trivial, fun _ => htight, trivial⟩
  have hnew : ∀ bucket, burstLimiter.limiter.buckets.lookup alice.asString = some bucket →
      bucket.Within 2 (1 / 60) burstLimiter.clock :=
    fun bucket (hbucket : none = some bucket) => nomatch hbucket
  exact concurrent_rate_bound (by norm_num) (by norm_num) hnew hbefore hrun hrules

end McpShield
