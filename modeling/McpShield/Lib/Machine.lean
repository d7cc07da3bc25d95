import Mathlib.Data.List.Basic

/-!
# Deterministic state machines

A component is a machine whose operations are atomic: an operation is answered and changes the
state.  A run is a list of operations, so whatever holds of every list of operations holds of every
interleaving of the operations of several callers.
-/

/-- A machine with states `S`, operations `Op` and answers `Out`. -/
structure Machine (S Op Out : Type) where
  step : S → Op → Out × S

namespace Machine

variable {S Op Out : Type} (m : Machine S Op Out)

/-- The state after a list of operations. -/
def run : S → List Op → S
  | s, [] => s
  | s, op :: ops => run (m.step s op).2 ops

/-- The answers to a list of operations, in order. -/
def answers : S → List Op → List Out
  | _, [] => []
  | s, op :: ops => (m.step s op).1 :: answers (m.step s op).2 ops

@[simp] theorem run_nil (s : S) : m.run s [] = s := rfl

@[simp] theorem run_cons (s : S) (op : Op) (ops : List Op) :
    m.run s (op :: ops) = m.run (m.step s op).2 ops := rfl

@[simp] theorem answers_nil (s : S) : m.answers s [] = [] := rfl

@[simp] theorem answers_cons (s : S) (op : Op) (ops : List Op) :
    m.answers s (op :: ops) = (m.step s op).1 :: m.answers (m.step s op).2 ops := rfl

theorem run_append (s : S) (ops ops' : List Op) :
    m.run s (ops ++ ops') = m.run (m.run s ops) ops' := by
  induction ops generalizing s with
  | nil => rfl
  | cons op ops ih => exact ih _

theorem answers_append (s : S) (ops ops' : List Op) :
    m.answers s (ops ++ ops') = m.answers s ops ++ m.answers (m.run s ops) ops' := by
  induction ops generalizing s with
  | nil => rfl
  | cons op ops ih => exact congrArg _ (ih _)

@[simp] theorem length_answers (s : S) (ops : List Op) :
    (m.answers s ops).length = ops.length := by
  induction ops generalizing s with
  | nil => rfl
  | cons op ops ih => exact congrArg (· + 1) (ih _)

/-- The operations of a longer run with their answers. -/
theorem zip_answers_concat (s : S) (ops : List Op) (op : Op) :
    (ops ++ [op]).zip (m.answers s (ops ++ [op])) =
      ops.zip (m.answers s ops) ++ [(op, (m.step (m.run s ops) op).1)] := by
  rw [answers_append, List.zip_append (m.length_answers s ops).symm]
  rfl

/-- The answer to an operation of a run, by its position. -/
theorem answers_getElem? (s : S) (ops : List Op) (op : Op) (ops' : List Op) :
    (m.answers s (ops ++ op :: ops'))[ops.length]? = some (m.step (m.run s ops) op).1 := by
  induction ops generalizing s with
  | nil => rfl
  | cons op' ops ih => simpa using ih (m.step s op').2

/-- What every operation with `P` preserves holds after every run of such operations. -/
theorem run_induction {I : S → Prop} {P : Op → Prop}
    (step : ∀ s op, P op → I s → I (m.step s op).2) {s : S} (hs : I s) {ops : List Op}
    (hops : ∀ op ∈ ops, P op) : I (m.run s ops) := by
  induction ops generalizing s with
  | nil => exact hs
  | cons op ops ih =>
    exact ih (step s op (hops op (by simp)) hs) fun op' h => hops op' (by simp [h])

/-- `P` holds of every operation of a run and the state in which it is called. -/
def Along (P : S → Op → Prop) : S → List Op → Prop
  | _, [] => True
  | s, op :: ops => P s op ∧ Along P (m.step s op).2 ops

variable {m} {P Q : S → Op → Prop} {s : S}

theorem along_append {ops ops' : List Op} :
    m.Along P s (ops ++ ops') ↔ m.Along P s ops ∧ m.Along P (m.run s ops) ops' := by
  induction ops generalizing s with
  | nil => simp [Along]
  | cons op ops ih => simp only [List.cons_append, Along, run_cons, ih, and_assoc]

theorem along_concat {ops : List Op} {op : Op} :
    m.Along P s (ops ++ [op]) ↔ m.Along P s ops ∧ P (m.run s ops) op := by
  simp [along_append, Along]

theorem Along.mono {ops : List Op} (h : m.Along P s ops) (hPQ : ∀ s op, P s op → Q s op) :
    m.Along Q s ops := by
  induction ops generalizing s with
  | nil => trivial
  | cons op ops ih => exact ⟨hPQ _ _ h.1, ih h.2⟩

/-- What holds of the operations alone. -/
theorem Along.forall_mem {R : Op → Prop} {ops : List Op} (h : m.Along (fun _ => R) s ops) :
    ∀ op ∈ ops, R op := by
  induction ops generalizing s with
  | nil => simp
  | cons op ops ih => exact List.forall_mem_cons.mpr ⟨h.1, ih h.2⟩

/-- What an invariant gives for every operation with `P` holds along a run of such operations. -/
theorem along_of_induction {I : S → Prop} {R : Op → Prop} (hs : I s) {ops : List Op}
    (hops : ∀ op ∈ ops, R op) (step : ∀ s op, R op → I s → P s op ∧ I (m.step s op).2) :
    m.Along P s ops := by
  induction ops generalizing s with
  | nil => trivial
  | cons op ops ih =>
    obtain ⟨hP, hI⟩ := step s op (hops op (by simp)) hs
    exact ⟨hP, ih hI fun op' h => hops op' (by simp [h])⟩

/-- Properties that an invariant makes equivalent hold along the same runs. -/
theorem along_congr {I : S → Prop} (hs : I s) (step : ∀ s op, I s → I (m.step s op).2)
    (h : ∀ s op, I s → (P s op ↔ Q s op)) {ops : List Op} : m.Along P s ops ↔ m.Along Q s ops := by
  induction ops generalizing s with
  | nil => rfl
  | cons op ops ih => exact and_congr (h s op hs) (ih (step s op hs))

/-- An invariant that the operations with `P` preserve, along a run of such operations. -/
theorem Along.run_induction {I : S → Prop} {ops : List Op} (h : m.Along P s ops) (hs : I s)
    (step : ∀ s op, P s op → I s → I (m.step s op).2) : I (m.run s ops) := by
  induction ops generalizing s with
  | nil => exact hs
  | cons op ops ih => exact ih h.2 (step s op h.1 hs)

/-- The operations of a run, each with the state in which it is called. -/
def calls (m : Machine S Op Out) : S → List Op → List (S × Op)
  | _, [] => []
  | s, op :: ops => (s, op) :: calls m (m.step s op).2 ops

/-- Credits.  If no operation that keeps the invariant spends more than the credit that is there and
what it earns, a run spends no more than the credit at its start and what its operations earn. -/
theorem spends_le {I : S → Prop} (credit : S → ℕ) (spends : S → Op → Bool) (earns : Op → Bool)
    (step : ∀ s op, I s → I (m.step s op).2 ∧
      (spends s op).toNat + credit (m.step s op).2 ≤ credit s + (earns op).toNat)
    {s : S} (hs : I s) (ops : List Op) :
    (m.calls s ops).countP (fun call => spends call.1 call.2) + credit (m.run s ops) ≤
      credit s + ops.countP earns := by
  induction ops generalizing s with
  | nil => simp [calls]
  | cons op ops ih =>
    obtain ⟨hnext, hop⟩ := step s op hs
    have hrest := ih hnext
    have hspends : (if spends s op then 1 else 0) = (spends s op).toNat := by
      cases spends s op <;> rfl
    have hearns : (if earns op then 1 else 0) = (earns op).toNat := by
      cases earns op <;> rfl
    rw [calls, List.countP_cons, List.countP_cons, run_cons, hspends, hearns]
    omega

/-- What relates the state to a record of the past, if every operation keeps it with what it adds to
the record. -/
theorem run_with_history {H : Type} {I : List H → S → Prop} (adds : Op → List H)
    (step : ∀ past s op, I past s → I (past ++ adds op) (m.step s op).2) {past : List H} {s : S}
    (hs : I past s) (ops : List Op) : I (past ++ ops.flatMap adds) (m.run s ops) := by
  induction ops generalizing past s with
  | nil => simpa using hs
  | cons op ops ih =>
    rw [List.flatMap_cons, ← List.append_assoc]
    exact ih (step past s op hs)

/-- A step of something that is compared with the machine: an operation that takes effect and its
answer, or nothing. -/
def Commits (m : Machine S Op Out) (s : S) : Option (Op × Out) → S → Prop
  | some effect, s' => m.step s effect.1 = (effect.2, s')
  | none, s' => s' = s

/-- `s` is reached from one of the states `start`. -/
def Reachable (start : S → Prop) (s : S) : Prop := ∃ s₀ ops, start s₀ ∧ m.run s₀ ops = s

variable {start : S → Prop}

theorem Reachable.run {s : S} (h : m.Reachable start s) (ops : List Op) :
    m.Reachable start (m.run s ops) := by
  obtain ⟨s₀, ops₀, h₀, rfl⟩ := h
  exact ⟨s₀, ops₀ ++ ops, h₀, m.run_append _ _ _⟩

/-- An invariant of the initial states that every operation preserves holds of every reachable
state. -/
theorem Reachable.induction {I : S → Prop} {s : S} (h : m.Reachable start s)
    (base : ∀ s, start s → I s) (step : ∀ s op, I s → I (m.step s op).2) : I s := by
  obtain ⟨s₀, ops, h₀, rfl⟩ := h
  exact m.run_induction (P := fun _ => True) (fun s op _ => step s op) (base s₀ h₀)
    fun _ _ => trivial

end Machine
