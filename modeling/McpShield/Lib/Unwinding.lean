import Mathlib.Data.List.Basic
import McpShield.Lib.Machine

/-!
# Unwinding

An observer sees a machine through a view of its state.  If the operations that are not seen leave
the view alone, and the seen ones depend on the view only, then a run looks the same to the observer
without the operations that are not seen.
-/

/-- `ops'` is `ops` with some operations with `P` inserted. -/
inductive Inserted {Op : Type} (P : Op → Prop) : List Op → List Op → Prop where
  | nil : Inserted P [] []
  | keep (op : Op) {ops ops' : List Op} (h : Inserted P ops ops') :
      Inserted P (op :: ops) (op :: ops')
  | insert {op : Op} {ops ops' : List Op} (hop : P op) (h : Inserted P ops ops') :
      Inserted P ops (op :: ops')

namespace Inserted

variable {Op : Type} {P : Op → Prop}

theorem refl : ∀ ops : List Op, Inserted P ops ops
  | [] => .nil
  | op :: ops => .keep op (refl ops)

theorem append_left {ops ops' : List Op} (h : Inserted P ops ops') :
    ∀ pre : List Op, Inserted P (pre ++ ops) (pre ++ ops')
  | [] => h
  | op :: pre => .keep op (append_left h pre)

theorem filter_eq {seen : Op → Bool} {ops ops' : List Op} (h : Inserted P ops ops')
    (hunseen : ∀ op, P op → seen op = false) : ops'.filter seen = ops.filter seen := by
  induction h with
  | nil => rfl
  | keep op _ ih => rw [List.filter_cons, List.filter_cons, ih]
  | insert hop _ ih => rw [List.filter_cons_of_neg (by simp [hunseen _ hop]), ih]

end Inserted

namespace Machine

variable {S Op Out V : Type}

/-- The answers to the operations with `p`, in order. -/
def answersTo (m : Machine S Op Out) (p : Op → Bool) : S → List Op → List Out
  | _, [] => []
  | s, op :: ops =>
      if p op then (m.step s op).1 :: answersTo m p (m.step s op).2 ops
      else answersTo m p (m.step s op).2 ops

theorem answersTo_append (m : Machine S Op Out) (p : Op → Bool) (s : S) (ops ops' : List Op) :
    m.answersTo p s (ops ++ ops') = m.answersTo p s ops ++ m.answersTo p (m.run s ops) ops' := by
  induction ops generalizing s with
  | nil => rfl
  | cons op ops ih =>
    rw [List.cons_append, answersTo, answersTo, run_cons, ih]
    split_ifs <;> rfl

/-- The unwinding conditions of an observer with `view` who sees the operations `seen`. -/
structure Unwinding (m : Machine S Op Out) (view : S → V) (seen : Op → Bool) : Prop where
  unseen : ∀ s op, seen op = false → view (m.step s op).2 = view s
  state : ∀ s s' op, seen op = true → view s = view s' →
    view (m.step s op).2 = view (m.step s' op).2
  answer : ∀ s s' op, seen op = true → view s = view s' → (m.step s op).1 = (m.step s' op).1

namespace Unwinding

variable {m : Machine S Op Out} {view : S → V} {seen p : Op → Bool}

/-- The view after a run is the one after its seen operations. -/
theorem view_run (h : m.Unwinding view seen) (ops : List Op) {s s' : S} (hs : view s = view s') :
    view (m.run s ops) = view (m.run s' (ops.filter seen)) := by
  induction ops generalizing s s' with
  | nil => exact hs
  | cons op ops ih =>
    cases hop : seen op with
    | true =>
      rw [List.filter_cons_of_pos hop]
      exact ih (h.state s s' op hop hs)
    | false =>
      rw [List.filter_cons_of_neg (by simp [hop])]
      exact ih ((h.unseen s op hop).trans hs)

/-- Operations that are seen are answered as in the run of the seen operations. -/
theorem answersTo_filter (h : m.Unwinding view seen) (hp : ∀ op, p op = true → seen op = true)
    (ops : List Op) {s s' : S} (hs : view s = view s') :
    m.answersTo p s ops = m.answersTo p s' (ops.filter seen) := by
  induction ops generalizing s s' with
  | nil => rfl
  | cons op ops ih =>
    cases hop : seen op with
    | true =>
      rw [List.filter_cons_of_pos hop, answersTo, answersTo, h.answer s s' op hop hs,
        ih (h.state s s' op hop hs)]
    | false =>
      have hnot : ¬ p op = true := fun hpop => by simp [hp op hpop] at hop
      rw [List.filter_cons_of_neg (by simp [hop]), answersTo, if_neg hnot,
        ih ((h.unseen s op hop).trans hs)]

/-- Inserted operations that are not seen do not change the view. -/
theorem view_inserted (h : m.Unwinding view seen) {P : Op → Prop} {ops ops' : List Op}
    (hins : Inserted P ops ops') (hunseen : ∀ op, P op → seen op = false) (s : S) :
    view (m.run s ops') = view (m.run s ops) := by
  rw [h.view_run ops' rfl, h.view_run ops rfl, hins.filter_eq hunseen]

/-- Inserted operations that are not seen do not change the answers to those that are. -/
theorem answersTo_inserted (h : m.Unwinding view seen) (hp : ∀ op, p op = true → seen op = true)
    {P : Op → Prop} {ops ops' : List Op} (hins : Inserted P ops ops')
    (hunseen : ∀ op, P op → seen op = false) (s : S) :
    m.answersTo p s ops' = m.answersTo p s ops := by
  rw [h.answersTo_filter hp ops' rfl, h.answersTo_filter hp ops rfl, hins.filter_eq hunseen]

end Unwinding

end Machine
