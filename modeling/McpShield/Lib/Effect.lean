import Mathlib.Data.List.Induction

/-!
# Programs over external calls

A `Prog` is a program that talks to components it does not contain: it is either finished or has
issued a call and waits for the reply.  `Steps p tr q` says that `p` becomes `q` by exchanging the
calls and replies `tr`, whatever the components are: a call may stay unanswered for ever, and
nothing relates two replies.  `Ensures` is the program logic: which call may be issued after which
exchanges, and what holds of the exchanges and the value when the program ends.
-/

namespace Effect

/-- A program that issues calls `op`, each answered by a `Reply op`, and ends with an `α`. -/
inductive Prog (Op : Type) (Reply : Op → Type) (α : Type) : Type where
  | done (a : α)
  | call (op : Op) (k : Reply op → Prog Op Reply α)

/-- An answered call. -/
abbrev Event {Op : Type} (Reply : Op → Type) : Type := Σ op : Op, Reply op

namespace Prog

variable {Op : Type} {Reply : Op → Type} {α β : Type} {ε : Type}

/-! ## The monad -/

/-- Run `p`, then `f` on its value. -/
protected def bind : Prog Op Reply α → (α → Prog Op Reply β) → Prog Op Reply β
  | done a, f => f a
  | call op k, f => call op fun r => (k r).bind f

instance : Monad (Prog Op Reply) where
  pure := done
  bind := Prog.bind

/-- Issue one call and return its reply. -/
def perform (op : Op) : Prog Op Reply (Reply op) := call op done

@[simp] theorem pure_eq (a : α) : (pure a : Prog Op Reply α) = done a := rfl

@[simp] theorem done_bind (a : α) (f : α → Prog Op Reply β) : done a >>= f = f a := rfl

@[simp] theorem call_bind (op : Op) (k : Reply op → Prog Op Reply α) (f : α → Prog Op Reply β) :
    call op k >>= f = call op fun r => k r >>= f := rfl

theorem bind_bind {γ : Type} (p : Prog Op Reply α) (f : α → Prog Op Reply β)
    (g : β → Prog Op Reply γ) : p >>= f >>= g = p >>= fun a => f a >>= g := by
  induction p with
  | done a => rfl
  | call op k ih => exact congrArg (call op) (funext ih)

theorem bind_done (p : Prog Op Reply α) : p >>= done = p := by
  induction p with
  | done a => rfl
  | call op k ih => exact congrArg (call op) (funext ih)

/-- A program over components that are among those of a larger system. -/
def embed {Op' : Type} {Reply' : Op' → Type} (f : Op → Op') (g : ∀ op, Reply' (f op) → Reply op) :
    Prog Op Reply α → Prog Op' Reply' α
  | done a => done a
  | call op k => call (f op) fun r => embed f g (k (g op r))

/-! ## Exchanges -/

/-- `p` becomes `q` by exchanging `tr`. -/
inductive Steps : Prog Op Reply α → List (Event Reply) → Prog Op Reply α → Prop where
  | refl (p) : Steps p [] p
  | call {op : Op} {k : Reply op → Prog Op Reply α} {r : Reply op} {tr q} (h : Steps (k r) tr q) :
      Steps (.call op k) (⟨op, r⟩ :: tr) q

theorem Steps.trans {p q s : Prog Op Reply α} {tr tr' : List (Event Reply)} (h : Steps p tr q)
    (h' : Steps q tr' s) : Steps p (tr ++ tr') s := by
  induction h with
  | refl => exact h'
  | call _ ih => exact .call (ih h')

theorem Steps.bind_right {p q : Prog Op Reply α} {tr : List (Event Reply)} (h : Steps p tr q)
    (f : α → Prog Op Reply β) : Steps (p >>= f) tr (q >>= f) := by
  induction h with
  | refl => exact .refl _
  | call _ ih => exact .call ih

theorem Steps.eq_of_nil {p q : Prog Op Reply α} (h : Steps p [] q) : p = q := by
  cases h
  rfl

/-- A program that has ended makes no further exchange. -/
theorem Steps.eq_nil_of_done {p : Prog Op Reply α} {tr tr' : List (Event Reply)} {a a' : α}
    (h : Steps p tr (done a)) (h' : Steps p (tr ++ tr') (done a')) : tr' = [] := by
  induction tr generalizing p with
  | nil =>
    cases h
    cases h'
    rfl
  | cons ev tr ih =>
    cases h with
    | call h =>
      cases h' with
      | call h' => exact ih h h'

theorem Steps.value_eq {p : Prog Op Reply α} {tr : List (Event Reply)} {a a' : α}
    (h : Steps p tr (done a)) (h' : Steps p tr (done a')) : a = a' := by
  induction tr generalizing p with
  | nil =>
    cases h
    cases h'
    rfl
  | cons ev tr ih =>
    cases h with
    | call h =>
      cases h' with
      | call h' => exact ih h h'

/-- The value of a program depends on its exchanges only. -/
theorem Steps.value_unique {p : Prog Op Reply α} {tr tr₁ tr₂ : List (Event Reply)} {a₁ a₂ : α}
    (h₁ : Steps p tr₁ (done a₁)) (h₂ : Steps p tr₂ (done a₂)) (hpre₁ : tr₁ <+: tr)
    (hpre₂ : tr₂ <+: tr) : a₁ = a₂ := by
  obtain ⟨rest, hrest⟩ | ⟨rest, hrest⟩ := List.prefix_or_prefix_of_prefix hpre₁ hpre₂
  · subst hrest
    obtain rfl := h₁.eq_nil_of_done h₂
    rw [List.append_nil] at h₂
    exact h₁.value_eq h₂
  · subst hrest
    obtain rfl := h₂.eq_nil_of_done h₁
    rw [List.append_nil] at h₁
    exact h₁.value_eq h₂

/-- A sequence that has ended is a first part that has ended and a second one. -/
theorem Steps.bind_inv {p : Prog Op Reply α} {f : α → Prog Op Reply β} {tr : List (Event Reply)}
    {b : β} (h : Steps (p >>= f) tr (done b)) :
    ∃ tr₁ tr₂ a, tr = tr₁ ++ tr₂ ∧ Steps p tr₁ (done a) ∧ Steps (f a) tr₂ (done b) := by
  induction p generalizing tr with
  | done a => exact ⟨[], tr, a, rfl, .refl _, h⟩
  | call op k ih =>
    cases h with
    | call h =>
      obtain ⟨tr₁, tr₂, a, rfl, h₁, h₂⟩ := ih _ h
      exact ⟨_ :: tr₁, tr₂, a, rfl, .call h₁, h₂⟩

/-- A program whose value is only passed on. -/
theorem Steps.map_inv {p : Prog Op Reply α} {f : α → β} {tr : List (Event Reply)}
    {q : Prog Op Reply β} (h : Steps (p >>= fun a => done (f a)) tr q) :
    ∃ p', Steps p tr p' ∧ q = p' >>= fun a => done (f a) := by
  induction p generalizing tr with
  | done a =>
    cases h
    exact ⟨done a, .refl _, rfl⟩
  | call op k ih =>
    cases h with
    | refl => exact ⟨Prog.call op k, .refl _, rfl⟩
    | call h =>
      obtain ⟨p', hp', hq⟩ := ih _ h
      exact ⟨p', .call hp', hq⟩

/-- An embedded program exchanges what the program itself does, under other names. -/
theorem Steps.embed_inv {Op' : Type} {Reply' : Op' → Type} {f : Op → Op'}
    {g : ∀ op, Reply' (f op) → Reply op} {p : Prog Op Reply α} {tr : List (Event Reply')}
    {q : Prog Op' Reply' α} (h : Steps (embed f g p) tr q) :
    ∃ (exchanges : List (Σ op, Reply' (f op))) (p' : Prog Op Reply α),
      tr = exchanges.map (fun x => ⟨f x.1, x.2⟩) ∧
        Steps p (exchanges.map fun x => ⟨x.1, g x.1 x.2⟩) p' ∧ q = embed f g p' := by
  induction p generalizing tr with
  | done a =>
    cases h
    exact ⟨[], done a, rfl, .refl _, rfl⟩
  | call op k ih =>
    cases h with
    | refl => exact ⟨[], Prog.call op k, rfl, .refl _, rfl⟩
    | @call _ _ r _ _ h =>
      obtain ⟨exchanges, p', rfl, hp', hq⟩ := ih _ h
      exact ⟨⟨op, r⟩ :: exchanges, p', rfl, .call hp', hq⟩

/-- The call that an exchange answers. -/
theorem Steps.exists_call {p q : Prog Op Reply α} {tr tr' : List (Event Reply)} {op : Op}
    {r : Reply op} (h : Steps p (tr ++ ⟨op, r⟩ :: tr') q) : ∃ k, Steps p tr (Prog.call op k) := by
  induction tr generalizing p with
  | nil =>
    cases h with
    | call h => exact ⟨_, .refl _⟩
  | cons ev tr ih =>
    cases h with
    | call h =>
      obtain ⟨k, hk⟩ := ih h
      exact ⟨k, .call hk⟩

/-- Answer up to `n` calls of `p` with `answer`. -/
def stepWith (answer : (op : Op) → Reply op) : ℕ → Prog Op Reply α →
    List (Event Reply) × Prog Op Reply α
  | 0, p => ([], p)
  | _ + 1, done a => ([], done a)
  | n + 1, call op k =>
      let rest := stepWith answer n (k (answer op))
      (⟨op, answer op⟩ :: rest.1, rest.2)

theorem steps_stepWith (answer : (op : Op) → Reply op) (n : ℕ) (p : Prog Op Reply α) :
    Steps p (stepWith answer n p).1 (stepWith answer n p).2 := by
  induction n generalizing p with
  | zero => exact .refl _
  | succ n ih =>
    cases p with
    | done a => exact .refl _
    | call op k => exact .call (ih _)

theorem eq_answer_of_mem_stepWith {answer : (op : Op) → Reply op} {n : ℕ}
    {p : Prog Op Reply α} {op : Op} {r : Reply op} (h : ⟨op, r⟩ ∈ (stepWith answer n p).1) :
    r = answer op := by
  induction n generalizing p with
  | zero => simp [stepWith] at h
  | succ n ih =>
    cases p with
    | done a => simp [stepWith] at h
    | call op' k =>
      rcases List.mem_cons.mp h with h | h
      · cases h
        rfl
      · exact ih h

/-- A program whose calls are all answered ends. -/
theorem exists_steps_done (answer : (op : Op) → Reply op) (p : Prog Op Reply α) :
    ∃ tr a, Steps p tr (done a) ∧ ∀ op (r : Reply op), ⟨op, r⟩ ∈ tr → r = answer op := by
  induction p with
  | done a => exact ⟨[], a, .refl _, by simp⟩
  | call op k ih =>
    obtain ⟨tr, a, hsteps, hanswer⟩ := ih (answer op)
    refine ⟨⟨op, answer op⟩ :: tr, a, .call hsteps, fun op' r hmem => ?_⟩
    rcases List.mem_cons.mp hmem with h | h
    · cases h
      rfl
    · exact hanswer op' r h

/-! ## The program logic -/

/-- After the exchanges `h`, every call `p` issues is one that `may` admits then, and if `p` ends,
`post` holds of all the exchanges and the value. -/
def Ensures (may : List (Event Reply) → Op → Prop) (post : List (Event Reply) → α → Prop) :
    Prog Op Reply α → List (Event Reply) → Prop
  | done a, h => post h a
  | call op k, h => may h op ∧ ∀ r, Ensures may post (k r) (h ++ [⟨op, r⟩])

section Rules

variable {may : List (Event Reply) → Op → Prop} {post : List (Event Reply) → α → Prop}
  {p q : Prog Op Reply α} {h : List (Event Reply)}

@[simp] theorem ensures_done {a : α} : Ensures may post (done a) h ↔ post h a := Iff.rfl

@[simp] theorem ensures_call {op : Op} {k : Reply op → Prog Op Reply α} :
    Ensures may post (call op k) h ↔ may h op ∧ ∀ r, Ensures may post (k r) (h ++ [⟨op, r⟩]) :=
  Iff.rfl

/-- The rule of sequencing.  The exchanges before `f` runs extend those before `p` ran. -/
theorem Ensures.bind {mid : List (Event Reply) → α → Prop} {post : List (Event Reply) → β → Prop}
    {f : α → Prog Op Reply β} (hp : Ensures may mid p h)
    (hf : ∀ h' a, h <+: h' → mid h' a → Ensures may post (f a) h') :
    Ensures may post (p >>= f) h := by
  induction p generalizing h with
  | done a => exact hf h a (List.prefix_refl h) hp
  | call op k ih =>
    refine ⟨hp.1, fun r => ih r (hp.2 r) fun h' a hh' => ?_⟩
    exact hf h' a ((List.prefix_append h _).trans hh')

/-- What every admitted call preserves holds whenever a call is made, and at the end. -/
theorem Ensures.with_invariant {I : List (Event Reply) → Prop}
    (step : ∀ h op (r : Reply op), I h → may h op → I (h ++ [⟨op, r⟩])) (hI : I h)
    (hp : Ensures may post p h) :
    Ensures (fun h' op => I h' ∧ may h' op) (fun h' a => I h' ∧ post h' a) p h := by
  induction p generalizing h with
  | done a => exact ⟨hI, hp⟩
  | call op k ih => exact ⟨⟨hI, hp.1⟩, fun r => ih r (step h op r hI hp.1) (hp.2 r)⟩

theorem Ensures.mono_may {may' : List (Event Reply) → Op → Prop}
    (hmay : ∀ h op, may h op → may' h op) (hp : Ensures may post p h) :
    Ensures may' post p h := by
  induction p generalizing h with
  | done a => exact hp
  | call op k ih => exact ⟨hmay h op hp.1, fun r => ih r (hp.2 r)⟩

/-- What every admitted call preserves may be added to the postcondition. -/
theorem Ensures.and_invariant {I : List (Event Reply) → Prop}
    (step : ∀ h op (r : Reply op), I h → may h op → I (h ++ [⟨op, r⟩])) (hI : I h)
    (hp : Ensures may post p h) : Ensures may (fun h' a => I h' ∧ post h' a) p h :=
  (hp.with_invariant step hI).mono_may fun _ _ hmay => hmay.2

theorem Ensures.mono {post' : List (Event Reply) → α → Prop} (hp : Ensures may post p h)
    (hpost : ∀ h' a, h <+: h' → post h' a → post' h' a) : Ensures may post' p h := by
  induction p generalizing h with
  | done a => exact hpost h a (List.prefix_refl h) hp
  | call op k ih =>
    refine ⟨hp.1, fun r => ih r (hp.2 r) fun h' a hh' => ?_⟩
    exact hpost h' a ((List.prefix_append h _).trans hh')

theorem Ensures.steps {tr : List (Event Reply)} (hp : Ensures may post p h) (hs : Steps p tr q) :
    Ensures may post q (h ++ tr) := by
  induction hs generalizing h with
  | refl => simpa using hp
  | call _ ih => simpa using ih (hp.2 _)

/-- Every call issued is admitted at the moment it is issued. -/
theorem Ensures.may_of_steps {tr : List (Event Reply)} {op : Op} {k : Reply op → Prog Op Reply α}
    (hp : Ensures may post p []) (hs : Steps p tr (.call op k)) : may tr op := by
  simpa using (hp.steps hs).1

/-- The postcondition holds of every run that ends. -/
theorem Ensures.post_of_steps {tr : List (Event Reply)} {a : α} (hp : Ensures may post p [])
    (hs : Steps p tr (.done a)) : post tr a := by
  simpa using hp.steps hs

/-- If a contributing call is admitted only while nothing has been contributed, a program
contributes at most once. -/
theorem Ensures.filterMap_length_le {f : Event Reply → Option β} {tr : List (Event Reply)}
    (hp : Ensures may post p [])
    (hmay : ∀ tr op (r : Reply op), may tr op → f ⟨op, r⟩ ≠ none → tr.filterMap f = [])
    (hs : Steps p tr q) : (tr.filterMap f).length ≤ 1 := by
  induction tr using List.reverseRecOn generalizing q with
  | nil => exact Nat.zero_le _
  | append_singleton tr ev ih =>
    obtain ⟨op, r⟩ := ev
    obtain ⟨k, hcall⟩ := hs.exists_call
    rw [List.filterMap_append, List.length_append]
    cases hf : f ⟨op, r⟩ with
    | none => simpa [hf] using ih hcall
    | some b =>
      have hnone := hmay tr op r (hp.may_of_steps hcall) (by simp [hf])
      simp [hnone, hf]

/-- A program makes the calls, and ends with the values, of its runs. -/
theorem ensures_steps (p : Prog Op Reply α) :
    Ensures (fun tr op => ∃ k, Steps p tr (call op k)) (fun tr a => Steps p tr (done a)) p [] := by
  have hrest : ∀ (q : Prog Op Reply α) tr, Steps p tr q →
      Ensures (fun tr op => ∃ k, Steps p tr (call op k)) (fun tr a => Steps p tr (done a)) q
        tr := by
    intro q
    induction q with
    | done a => exact fun tr hrun => hrun
    | call op k ih =>
      exact fun tr hrun => ⟨⟨k, hrun⟩, fun r => ih r _ (hrun.trans (.call (.refl _)))⟩
  exact hrest p [] (.refl p)

/-- What is admitted from now on may be called at any time. -/
theorem ensures_of_extension (hmay : ∀ tr op, h <+: tr → may tr op) :
    Ensures may (fun _ _ => True) p h := by
  induction p generalizing h with
  | done a => trivial
  | call op k ih =>
    refine ⟨hmay h op (List.prefix_refl h), fun r => ih r fun tr op' htr => ?_⟩
    exact hmay tr op' ((List.prefix_append h _).trans htr)

/-- The rule of embedding, for calls that are admitted whatever was exchanged before. -/
theorem Ensures.embed {Op' : Type} {Reply' : Op' → Type} {f : Op → Op'}
    {g : ∀ op, Reply' (f op) → Reply op} {may : Op → Prop} {may' : Op' → Prop}
    {h' : List (Event Reply')} (hp : Ensures (fun _ op => may op) (fun _ _ => True) p h)
    (hmay : ∀ op, may op → may' (f op)) :
    Ensures (fun _ op => may' op) (fun _ _ => True) (p.embed f g) h' := by
  induction p generalizing h h' with
  | done a => trivial
  | call op k ih => exact ⟨hmay op hp.1, fun r => ih (g op r) (hp.2 (g op r))⟩

/-- What holds of every complete run. -/
theorem ensures_of_steps {post : List (Event Reply) → α → Prop}
    (hall : ∀ tr a, Steps p tr (done a) → post (h ++ tr) a) :
    Ensures (fun _ _ => True) post p h := by
  induction p generalizing h with
  | done a => simpa using hall [] a (.refl _)
  | call op k ih =>
    refine ⟨trivial, fun r => ih r fun tr a hrun => ?_⟩
    simpa using hall (⟨op, r⟩ :: tr) a (.call hrun)

end Rules

/-! ## Programs that may fail -/

section Fail

variable {may : List (Event Reply) → Op → Prop} {post : List (Event Reply) → Except ε β → Prop}
  {h : List (Event Reply)}

/-- A postcondition on successful values that asks nothing of failures. -/
def onOk (post : List (Event Reply) → α → Prop) : List (Event Reply) → Except ε α → Prop
  | h, .ok a => post h a
  | _, .error _ => True

/-- Issue one call in a program that may fail. -/
def request (op : Op) : ExceptT ε (Prog Op Reply) (Reply op) := ExceptT.lift (perform op)

/-- A result that needs no call. -/
def result (r : Except ε α) : ExceptT ε (Prog Op Reply) α := ExceptT.mk (pure r)

@[simp] theorem run_pure (b : β) :
    (pure b : ExceptT ε (Prog Op Reply) β).run = done (.ok b) := rfl

@[simp] theorem run_throw (e : ε) :
    (throw e : ExceptT ε (Prog Op Reply) β).run = done (.error e) := rfl

@[simp] theorem run_result (r : Except ε β) :
    (result r : ExceptT ε (Prog Op Reply) β).run = done r := rfl

@[simp] theorem run_request_bind (op : Op) (f : Reply op → ExceptT ε (Prog Op Reply) β) :
    (request op >>= f).run = call op fun r => (f r).run := rfl

@[simp] theorem run_result_ok_bind (a : α) (f : α → ExceptT ε (Prog Op Reply) β) :
    (result (.ok a) >>= f).run = (f a).run := rfl

@[simp] theorem run_result_error_bind (e : ε) (f : α → ExceptT ε (Prog Op Reply) β) :
    (result (.error e) >>= f).run = done (.error e) := rfl

theorem run_lift_bind (p : Prog Op Reply α) (f : α → ExceptT ε (Prog Op Reply) β) :
    (ExceptT.lift p >>= f).run = p >>= fun a => (f a).run := by
  induction p with
  | done a => rfl
  | call op k ih => exact congrArg (call op) (funext ih)

/-- The rule for a check that needs no call. -/
theorem Ensures.result_bind {x : Except ε α} {f : α → ExceptT ε (Prog Op Reply) β}
    (herr : ∀ e, x = .error e → post h (.error e))
    (hok : ∀ a, x = .ok a → Ensures may post (f a).run h) :
    Ensures may post (result x >>= f).run h := by
  cases x with
  | error e => exact herr e rfl
  | ok a => exact hok a rfl

/-- A first part that succeeds is followed by the second. -/
theorem Steps.bind_ok {x : ExceptT ε (Prog Op Reply) α} {f : α → ExceptT ε (Prog Op Reply) β}
    {a : α} {tr tr' : List (Event Reply)} {q : Prog Op Reply (Except ε β)}
    (hx : Steps x.run tr (done (.ok a))) (hf : Steps (f a).run tr' q) :
    Steps (x >>= f).run (tr ++ tr') q :=
  (hx.bind_right _).trans hf

/-- A call of the first part is one of the sequence. -/
theorem Steps.bindExcept_call {x : ExceptT ε (Prog Op Reply) α}
    {f : α → ExceptT ε (Prog Op Reply) β} {tr : List (Event Reply)} {op : Op}
    {k : Reply op → Prog Op Reply (Except ε α)} (h : Steps x.run tr (Prog.call op k)) :
    ∃ k', Steps (x >>= f).run tr (Prog.call op k') :=
  ⟨_, h.bind_right _⟩

/-- A sequence that has ended is a first part that has failed, or both parts. -/
theorem Steps.bindExcept_inv {x : ExceptT ε (Prog Op Reply) α}
    {f : α → ExceptT ε (Prog Op Reply) β} {tr : List (Event Reply)} {r : Except ε β}
    (h : Steps (x >>= f).run tr (done r)) :
    (∃ e, Steps x.run tr (done (.error e)) ∧ r = .error e) ∨
      ∃ tr₁ tr₂ a, tr = tr₁ ++ tr₂ ∧ Steps x.run tr₁ (done (.ok a)) ∧
        Steps (f a).run tr₂ (done r) := by
  obtain ⟨tr₁, tr₂, first, rfl, h₁, h₂⟩ := Steps.bind_inv (p := x.run) h
  cases first with
  | ok a => exact .inr ⟨tr₁, tr₂, a, rfl, h₁, h₂⟩
  | error e =>
    cases h₂
    exact .inl ⟨e, by rwa [List.append_nil], rfl⟩

theorem Steps.lift_bind_inv {p : Prog Op Reply α} {f : α → ExceptT ε (Prog Op Reply) β}
    {tr : List (Event Reply)} {r : Except ε β}
    (h : Steps (ExceptT.lift p >>= f).run tr (done r)) :
    ∃ tr₁ tr₂ a, tr = tr₁ ++ tr₂ ∧ Steps p tr₁ (done a) ∧ Steps (f a).run tr₂ (done r) := by
  rw [run_lift_bind] at h
  exact h.bind_inv

/-- The rule of sequencing where an error of the first part ends the whole. -/
theorem Ensures.bindExcept {x : ExceptT ε (Prog Op Reply) α} {f : α → ExceptT ε (Prog Op Reply) β}
    {mid : List (Event Reply) → Except ε α → Prop} (hx : Ensures may mid x.run h)
    (herr : ∀ h' e, h <+: h' → mid h' (.error e) → post h' (.error e))
    (hok : ∀ h' a, h <+: h' → mid h' (.ok a) → Ensures may post (f a).run h') :
    Ensures may post (x >>= f).run h := by
  refine Ensures.bind hx fun h' r hh' hr => ?_
  cases r with
  | ok a => exact hok h' a hh' hr
  | error e => exact herr h' e hh' hr

end Fail

/-! ## Environments -/

section Env

variable {env : Event Reply → Prop} {h : List (Event Reply)}

/-- The postcondition, where every reply so far is one that the environment gives. -/
def InEnv (env : Event Reply → Prop) (post : List (Event Reply) → α → Prop)
    (h : List (Event Reply)) (a : α) : Prop :=
  (∀ ev ∈ h, env ev) → post h a

/-- Only the replies of the environment matter. -/
theorem ensures_call_inEnv {post : List (Event Reply) → α → Prop} {op : Op}
    {k : Reply op → Prog Op Reply α}
    (hk : ∀ r, env ⟨op, r⟩ → Ensures (fun _ _ => True) (InEnv env post) (k r) (h ++ [⟨op, r⟩])) :
    Ensures (fun _ _ => True) (InEnv env post) (call op k) h := by
  refine ⟨trivial, fun r => ?_⟩
  by_cases hr : env ⟨op, r⟩
  · exact hk r hr
  · exact ensures_of_steps fun tr a _ henv => absurd (henv ⟨op, r⟩ (by simp)) hr

/-- The rule of sequencing in an environment. -/
theorem Ensures.bindExcept_inEnv {post : List (Event Reply) → Except ε β → Prop}
    {x : ExceptT ε (Prog Op Reply) α} {f : α → ExceptT ε (Prog Op Reply) β}
    {mid : List (Event Reply) → Except ε α → Prop}
    (hx : Ensures (fun _ _ => True) (InEnv env mid) x.run h)
    (herr : ∀ h' e, mid h' (.error e) → post h' (.error e))
    (hok : ∀ h' a, mid h' (.ok a) →
      Ensures (fun _ _ => True) (InEnv env post) (f a).run h') :
    Ensures (fun _ _ => True) (InEnv env post) (x >>= f).run h := by
  refine Ensures.bindExcept hx (fun h' e _ hmid henv => herr h' e (hmid henv)) fun h' a _ hmid => ?_
  by_cases henv : ∀ ev ∈ h', env ev
  · exact hok h' a (hmid henv)
  · exact ensures_of_steps fun tr a _ hall =>
      absurd (fun ev hev => hall ev (List.mem_append_left tr hev)) henv

end Env

end Prog

end Effect
