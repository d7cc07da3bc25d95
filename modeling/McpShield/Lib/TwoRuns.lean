import McpShield.Lib.Effect

/-!
# Two runs of a program

`runWith` runs a program against components that answer each call by its number.  `Coupled` compares
two programs run against the same kind of components: they end with the same value, and their
exchanges show an observer the same, call by call.  `Mirrors` compares them for all answers: one
does what the other does, with every exchange relabelled.
-/

namespace Effect.Prog

variable {Op : Type} {Reply : Op → Type} {α β : Type} {ε : Type}

/-- The exchanges and the value of a program whose `n`-th call is answered by `answer n`. -/
def runWith (answer : ℕ → (op : Op) → Reply op) : ℕ → Prog Op Reply α → List (Event Reply) × α
  | _, done a => ([], a)
  | n, call op k =>
      let rest := runWith answer (n + 1) (k (answer n op))
      (⟨op, answer n op⟩ :: rest.1, rest.2)

variable {answer answer' : ℕ → (op : Op) → Reply op} {n : ℕ}

@[simp] theorem runWith_done (a : α) : runWith answer n (done a) = ([], a) := rfl

theorem runWith_call (op : Op) (k : Reply op → Prog Op Reply α) :
    runWith answer n (call op k) =
      (⟨op, answer n op⟩ :: (runWith answer (n + 1) (k (answer n op))).1,
        (runWith answer (n + 1) (k (answer n op))).2) := rfl

/-- Such a run is one of the runs of the program. -/
theorem steps_runWith (answer : ℕ → (op : Op) → Reply op) (n : ℕ) (p : Prog Op Reply α) :
    Steps p (runWith answer n p).1 (done (runWith answer n p).2) := by
  induction p generalizing n with
  | done a => exact .refl _
  | call op k ih => exact .call (ih _ (n + 1))

theorem runWith_bind (answer : ℕ → (op : Op) → Reply op) (n : ℕ) (p : Prog Op Reply α)
    (f : α → Prog Op Reply β) :
    runWith answer n (p >>= f) =
      let first := runWith answer n p
      let second := runWith answer (n + first.1.length) (f first.2)
      (first.1 ++ second.1, second.2) := by
  induction p generalizing n with
  | done a => rfl
  | call op k ih =>
    have hcount : ∀ tr : List (Event Reply), n + (tr.length + 1) = n + 1 + tr.length :=
      fun tr => by omega
    simp only [call_bind, runWith_call, ih, List.length_cons, List.cons_append, hcount]

/-! ## Coupled programs -/

variable {O : Type} {observe : Event Reply → O}

/-- Two programs end with the same value after exchanges that look the same. -/
def Coupled (observe : Event Reply → O) (answer answer' : ℕ → (op : Op) → Reply op) (n : ℕ)
    (p p' : Prog Op Reply α) : Prop :=
  (runWith answer n p).1.map observe = (runWith answer' n p').1.map observe ∧
    (runWith answer n p).2 = (runWith answer' n p').2

theorem Coupled.refl (p : Prog Op Reply α) : Coupled observe answer answer n p p := ⟨rfl, rfl⟩

/-- The rule for two calls that look the same. -/
theorem Coupled.call {op op' : Op} {k : Reply op → Prog Op Reply α}
    {k' : Reply op' → Prog Op Reply α}
    (hop : observe ⟨op, answer n op⟩ = observe ⟨op', answer' n op'⟩)
    (hk : Coupled observe answer answer' (n + 1) (k (answer n op)) (k' (answer' n op'))) :
    Coupled observe answer answer' n (.call op k) (.call op' k') :=
  ⟨congrArg₂ List.cons hop hk.1, hk.2⟩

/-- The rule of sequencing. -/
theorem Coupled.bind {p p' : Prog Op Reply α} {f f' : α → Prog Op Reply β}
    (hp : Coupled observe answer answer' n p p')
    (hf : ∀ m a, Coupled observe answer answer' m (f a) (f' a)) :
    Coupled observe answer answer' n (p >>= f) (p' >>= f') := by
  obtain ⟨htrace, hvalue⟩ := hp
  have hlength : (runWith answer n p).1.length = (runWith answer' n p').1.length := by
    simpa using congrArg List.length htrace
  obtain ⟨htrace', hvalue'⟩ := hf (n + (runWith answer n p).1.length) (runWith answer n p).2
  unfold Coupled
  rw [runWith_bind, runWith_bind]
  rw [hlength, hvalue] at htrace' hvalue'
  simp only [List.map_append, htrace, hlength, hvalue, htrace', hvalue', and_self]

/-- The rule of sequencing for programs that may fail. -/
theorem Coupled.bindExcept {x x' : ExceptT ε (Prog Op Reply) α}
    {f f' : α → ExceptT ε (Prog Op Reply) β}
    (hx : Coupled observe answer answer' n x.run x'.run)
    (hf : ∀ m a, Coupled observe answer answer' m (f a).run (f' a).run) :
    Coupled observe answer answer' n (x >>= f).run (x' >>= f').run := by
  refine Coupled.bind hx fun m r => ?_
  cases r with
  | ok a => exact hf m a
  | error e => exact ⟨rfl, rfl⟩

/-! ## Mirrored programs -/

variable {relabel : Event Reply → Event Reply}

/-- The second program does what the first one does, with every exchange relabelled. -/
inductive Mirrors (relabel : Event Reply → Event Reply) : Prog Op Reply α → Prog Op Reply α → Prop where
  | done (a : α) : Mirrors relabel (done a) (done a)
  | call {op op' : Op} {k : Reply op → Prog Op Reply α} {k' : Reply op' → Prog Op Reply α}
      (image : Reply op → Reply op') (hop : ∀ r, relabel ⟨op, r⟩ = ⟨op', image r⟩)
      (hk : ∀ r, Mirrors relabel (k r) (k' (image r))) : Mirrors relabel (call op k) (call op' k')

/-- A call that keeps its label. -/
theorem Mirrors.same {op : Op} {k k' : Reply op → Prog Op Reply α}
    (hop : ∀ r, relabel ⟨op, r⟩ = ⟨op, r⟩) (hk : ∀ r, Mirrors relabel (k r) (k' r)) :
    Mirrors relabel (.call op k) (.call op k') :=
  .call id hop hk

/-- A program none of whose calls is relabelled. -/
theorem Mirrors.of_ensures {p : Prog Op Reply α} {post : List (Event Reply) → α → Prop}
    {h : List (Event Reply)}
    (hp : Ensures (fun _ op => ∀ r, relabel ⟨op, r⟩ = ⟨op, r⟩) post p h) :
    Mirrors relabel p p := by
  induction p generalizing h with
  | done a => exact .done a
  | call op k ih => exact .same hp.1 fun r => ih r (hp.2 r)

/-- The rule of sequencing. -/
theorem Mirrors.bind {p p' : Prog Op Reply α} {f f' : α → Prog Op Reply β}
    (hp : Mirrors relabel p p') (hf : ∀ a, Mirrors relabel (f a) (f' a)) :
    Mirrors relabel (p >>= f) (p' >>= f') := by
  induction hp with
  | done a => exact hf a
  | call image hop _ ih => exact .call image hop ih

/-- A next call that keeps its label. -/
theorem Mirrors.call_inv {op : Op} {k : Reply op → Prog Op Reply α} {q : Prog Op Reply α}
    (h : Mirrors relabel (.call op k) q) (r : Reply op) (hop : relabel ⟨op, r⟩ = ⟨op, r⟩) :
    ∃ k', q = .call op k' := by
  cases h with
  | call image himage hk =>
    obtain ⟨rfl, -⟩ := Sigma.mk.inj (hop.symm.trans (himage r))
    exact ⟨_, rfl⟩

/-- Whatever the first program does, the second one does. -/
theorem Mirrors.steps {p p' q : Prog Op Reply α} {tr : List (Event Reply)}
    (hp : Mirrors relabel p p') (h : Steps p tr q) :
    ∃ q', Steps p' (tr.map relabel) q' ∧ Mirrors relabel q q' := by
  induction h generalizing p' with
  | refl => exact ⟨p', .refl _, hp⟩
  | call _ ih =>
    cases hp with
    | call image hop hk =>
      obtain ⟨q', hsteps, hq⟩ := ih (hk _)
      exact ⟨q', by rw [List.map_cons, hop]; exact .call hsteps, hq⟩

end Effect.Prog
