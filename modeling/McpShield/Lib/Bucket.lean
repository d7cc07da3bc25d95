import Mathlib.Algebra.Order.Field.Basic
import Mathlib.Tactic.Linarith
import Mathlib.Tactic.Ring

/-!
# Token buckets

A bucket gains `rate` units a second, up to its capacity.  The credit of a bucket bounds what can
be taken out of it until a deadline: refilling does not raise it, and taking a unit lowers it by
one.  The allowance bounds what can be taken between a start and a deadline, if the bucket has at most
some capacity and at most some rate.
-/

namespace Bucket

variable {K : Type} [Field K] [LinearOrder K]

/-- The level after `elapsed` seconds. -/
def refill (capacity rate elapsed level : K) : K := min (level + elapsed * rate) capacity

/-- What can be taken until `deadline` out of a bucket that had `level` at the time `last`. -/
def credit (rate deadline last level : K) : K :=
  if last ≤ deadline then level + (deadline - last) * rate else 0

variable {capacity rate elapsed deadline last now level : K}

theorem refill_le : refill capacity rate elapsed level ≤ capacity := min_le_right _ _

theorem credit_of_le (h : last ≤ deadline) :
    credit rate deadline last level = level + (deadline - last) * rate := if_pos h

theorem credit_of_lt (h : deadline < last) : credit rate deadline last level = 0 :=
  if_neg (not_le.mpr h)

/-- A unit taken before the deadline lowers the credit by one. -/
theorem credit_sub_one (h : last ≤ deadline) :
    credit rate deadline last (level - 1) + 1 = credit rate deadline last level := by
  rw [credit_of_le h, credit_of_le h]
  ring

variable [IsStrictOrderedRing K]

theorem refill_nonneg (hrate : 0 ≤ rate) (helapsed : 0 ≤ elapsed) (hlevel : 0 ≤ level)
    (hcap : 0 ≤ capacity) : 0 ≤ refill capacity rate elapsed level :=
  le_min (add_nonneg hlevel (mul_nonneg helapsed hrate)) hcap

theorem credit_nonneg (hrate : 0 ≤ rate) (hlevel : 0 ≤ level) :
    0 ≤ credit rate deadline last level := by
  rcases le_or_gt last deadline with h | h
  · rw [credit_of_le h]
    exact add_nonneg hlevel (mul_nonneg (sub_nonneg.mpr h) hrate)
  · rw [credit_of_lt h]

/-- Refilling in two steps is refilling once. -/
theorem refill_refill {later : K} (hrate : 0 ≤ rate) (hlater : 0 ≤ later) :
    refill capacity rate later (refill capacity rate elapsed level) =
      refill capacity rate (elapsed + later) level := by
  have hfull : capacity ≤ capacity + later * rate :=
    le_add_of_nonneg_right (mul_nonneg hlater hrate)
  unfold refill
  rw [min_add, min_assoc, min_eq_right hfull, add_assoc, ← add_mul]

/-- A full bucket has the most credit. -/
theorem credit_le_of_le (h : last ≤ deadline) (hlevel : level ≤ capacity) :
    credit rate deadline last level ≤ capacity + (deadline - last) * rate := by
  rw [credit_of_le h]
  linarith

/-- Refilling does not raise the credit. -/
theorem credit_refill_le (hrate : 0 ≤ rate) (hnow : last ≤ now) (hlevel : 0 ≤ level) :
    credit rate deadline now (refill capacity rate (now - last) level) ≤
      credit rate deadline last level := by
  rcases le_or_gt now deadline with h | h
  · rw [credit_of_le h, credit_of_le (hnow.trans h)]
    have hrefill : refill capacity rate (now - last) level ≤ level + (now - last) * rate :=
      min_le_left _ _
    calc refill capacity rate (now - last) level + (deadline - now) * rate
        ≤ level + (now - last) * rate + (deadline - now) * rate := by linarith
      _ = level + (deadline - last) * rate := by ring
  · rw [credit_of_lt h]
    exact credit_nonneg hrate hlevel

/-- A unit taken does not raise the credit. -/
theorem credit_sub_one_le :
    credit rate deadline last (level - 1) ≤ credit rate deadline last level := by
  rcases le_or_gt last deadline with h | h
  · rw [credit_of_le h, credit_of_le h]
    linarith
  · rw [credit_of_lt h, credit_of_lt h]

/-! ## Allowances -/

/-- What can be taken from `start` to `deadline`, as it is at the time `now`, out of a bucket that had
`level` at the time `last`. -/
def allowance (capacity rate start deadline now last level : K) : K :=
  if now ≤ deadline then
    min capacity (level + (max start now - last) * rate) + (deadline - max start now) * rate
  else 0

variable {start : K}

omit [IsStrictOrderedRing K] in
theorem allowance_of_le (h : now ≤ deadline) :
    allowance capacity rate start deadline now last level =
      min capacity (level + (max start now - last) * rate) +
        (deadline - max start now) * rate := if_pos h

omit [IsStrictOrderedRing K] in
theorem allowance_of_lt (h : deadline < now) :
    allowance capacity rate start deadline now last level = 0 := if_neg (not_le.mpr h)

section Allowance

variable (hrate : 0 ≤ rate) (hcap : 0 ≤ capacity)

include hrate hcap

/-- What is there at some time is there as long as nothing is taken. -/
theorem share_le (hlevel : 0 ≤ level) (hlast : last ≤ now) (h : now ≤ deadline) :
    (deadline - max start now) * rate ≤
      allowance capacity rate start deadline now last level := by
  rw [allowance_of_le h]
  refine le_add_of_nonneg_left (le_min hcap (add_nonneg hlevel ?_))
  exact mul_nonneg (sub_nonneg.mpr (hlast.trans (le_max_right start now))) hrate

/-- A bucket that is filled anew may give its capacity once more. -/
theorem allowance_le_add {last' level' : K} (hlevel : 0 ≤ level) (hlast : last ≤ now) :
    allowance capacity rate start deadline now last' level' ≤
      allowance capacity rate start deadline now last level + capacity := by
  rcases le_or_gt now deadline with h | h
  · have hshare : (deadline - max start now) * rate ≤ _ := share_le hrate hcap hlevel hlast h
    rw [allowance_of_le h]
    have hfull : min capacity (level' + (max start now - last') * rate) ≤ capacity :=
      min_le_left _ _
    linarith
  · rw [allowance_of_lt h, allowance_of_lt h, zero_add]
    exact hcap

variable (hspan : start ≤ deadline)

include hspan

theorem allowance_nonneg (hlevel : 0 ≤ level) (hlast : last ≤ now) :
    0 ≤ allowance capacity rate start deadline now last level := by
  rcases le_or_gt now deadline with h | h
  · refine le_trans ?_ (share_le hrate hcap hlevel hlast h)
    exact mul_nonneg (sub_nonneg.mpr (max_le hspan h)) hrate
  · rw [allowance_of_lt h]

theorem allowance_le :
    allowance capacity rate start deadline now last level ≤
      capacity + (deadline - start) * rate := by
  rcases le_or_gt now deadline with h | h
  · rw [allowance_of_le h]
    refine add_le_add (min_le_left _ _) (mul_le_mul_of_nonneg_right ?_ hrate)
    exact sub_le_sub_left (le_max_left start now) deadline
  · rw [allowance_of_lt h]
    exact add_nonneg hcap (mul_nonneg (sub_nonneg.mpr hspan) hrate)

/-- As time passes the allowance does not grow, if the level grows no faster than the rate. -/
theorem allowance_anti {now' last' level' : K} (hlevel : 0 ≤ level) (hlast : last ≤ now)
    (hnow : now ≤ now') (hgrows : level' ≤ level + (last' - last) * rate) :
    allowance capacity rate start deadline now' last' level' ≤
      allowance capacity rate start deadline now last level := by
  rcases le_or_gt now' deadline with h | h
  · rw [allowance_of_le h, allowance_of_le (hnow.trans h)]
    have hlater : 0 ≤ (max start now' - max start now) * rate :=
      mul_nonneg (sub_nonneg.mpr (max_le_max_left start hnow)) hrate
    have hlevels : level' + (max start now' - last') * rate ≤
        level + (max start now - last) * rate + (max start now' - max start now) * rate := by
      linarith
    have hmin : min capacity (level' + (max start now' - last') * rate) ≤
        min capacity (level + (max start now - last) * rate) +
          (max start now' - max start now) * rate := by
      rw [min_add]
      exact min_le_min (le_add_of_nonneg_right hlater) hlevels
    linarith
  · rw [allowance_of_lt h]
    exact allowance_nonneg hrate hcap hspan hlevel hlast

end Allowance

/-- A unit that is taken in time lowers the allowance by one. -/
theorem allowance_sub_one (hstart : start ≤ now) (hdeadline : now ≤ deadline)
    (hlevel : level ≤ capacity) :
    1 + allowance capacity rate start deadline now now (level - 1) =
      allowance capacity rate start deadline now now level := by
  rw [allowance_of_le hdeadline, allowance_of_le hdeadline, max_eq_right hstart, sub_self,
    zero_mul, add_zero, add_zero, min_eq_right hlevel,
    min_eq_right ((sub_le_self _ zero_le_one).trans hlevel)]
  ring

end Bucket
