import Mathlib.Data.List.Perm.Basic

/-!
# Attribute-based policies

A policy permits or forbids requests.  It applies to a request if the principal, the action and the
resource are those it names and its conditions hold; a policy with a condition that cannot be
evaluated does not apply.  A request is allowed if a policy that permits applies and no policy that
forbids does, so it does not matter in which order the policies stand, or how often.
-/

namespace AttributePolicy

variable {E : Type}

/-! ## Expressions -/

/-- A primitive value. -/
inductive Prim (E : Type) where
  | bool (b : Bool)
  | string (s : String)
  | entity (e : E)
deriving DecidableEq

/-- A value. -/
inductive Value (E : Type) where
  | prim (p : Prim E)
  | set (elements : List (Prim E))
deriving DecidableEq

/-- An expression over a request. -/
inductive Expr (E : Type) where
  | lit (p : Prim E)
  | principal
  | action
  | resource
  | hasAttr (e : Expr E) (name : String)
  | getAttr (e : Expr E) (name : String)
  | contains (e x : Expr E)
  | and (a b : Expr E)

/-- A request and the attributes of the entities. -/
structure Request (E : Type) where
  principal : E
  action : E
  resource : E
  attrs : E → String → Option (Value E)

/-- The value of an expression, if it has one. -/
def Expr.eval [DecidableEq E] (R : Request E) : Expr E → Option (Value E)
  | lit p => some (.prim p)
  | principal => some (.prim (.entity R.principal))
  | action => some (.prim (.entity R.action))
  | resource => some (.prim (.entity R.resource))
  | hasAttr e name =>
      match e.eval R with
      | some (.prim (.entity u)) => some (.prim (.bool (R.attrs u name).isSome))
      | _ => none
  | getAttr e name =>
      match e.eval R with
      | some (.prim (.entity u)) => R.attrs u name
      | _ => none
  | contains e x =>
      match e.eval R, x.eval R with
      | some (.set elements), some (.prim p) => some (.prim (.bool (decide (p ∈ elements))))
      | _, _ => none
  | and a b =>
      match a.eval R with
      | some (.prim (.bool false)) => some (.prim (.bool false))
      | some (.prim (.bool true)) =>
          match b.eval R with
          | some (.prim (.bool r)) => some (.prim (.bool r))
          | _ => none
      | _ => none

/-- The principal has an attribute, and it is a set with the string. -/
def principalHas (name s : String) : Expr E :=
  .and (.hasAttr .principal name) (.contains (.getAttr .principal name) (.lit (.string s)))

section Eval

variable [DecidableEq E] {R : Request E} {name s : String}

theorem eval_principalHas_of_none (hattr : R.attrs R.principal name = none) :
    (principalHas name s).eval R = some (.prim (.bool false)) := by
  simp [principalHas, Expr.eval, hattr]

theorem eval_principalHas_of_set {elements : List (Prim E)}
    (hattr : R.attrs R.principal name = some (.set elements)) :
    (principalHas name s).eval R = some (.prim (.bool (decide (.string s ∈ elements)))) := by
  simp [principalHas, Expr.eval, hattr]

theorem eval_principalHas_of_prim {p : Prim E}
    (hattr : R.attrs R.principal name = some (.prim p)) :
    (principalHas name s).eval R = none := by
  simp [principalHas, Expr.eval, hattr]

theorem eval_principalHas_eq_true_iff :
    (principalHas name s).eval R = some (.prim (.bool true)) ↔
      ∃ elements, R.attrs R.principal name = some (.set elements) ∧ .string s ∈ elements := by
  cases hattr : R.attrs R.principal name with
  | none => simp [eval_principalHas_of_none hattr]
  | some value =>
    cases value with
    | prim p => simp [eval_principalHas_of_prim hattr]
    | set elements => simp [eval_principalHas_of_set hattr]

end Eval

/-! ## Policies -/

/-- What a policy does with the requests it applies to. -/
inductive Effect where
  | permit
  | forbid
deriving DecidableEq

/-- A condition that must hold, or one that must not. -/
inductive Clause (E : Type) where
  | «when» (e : Expr E)
  | «unless» (e : Expr E)

/-- A policy; a part of the request that it does not name may be anything. -/
structure Policy (E : Type) where
  effect : Effect
  principal : Option E
  action : Option E
  resource : Option E
  clauses : List (Clause E)

variable [DecidableEq E]

/-- The clause lets the policy apply. -/
def Clause.Holds (R : Request E) : Clause E → Prop
  | «when» e => e.eval R = some (.prim (.bool true))
  | «unless» e => e.eval R = some (.prim (.bool false))

instance (R : Request E) : (c : Clause E) → Decidable (c.Holds R)
  | .«when» e => inferInstanceAs (Decidable (e.eval R = some (.prim (.bool true))))
  | .«unless» e => inferInstanceAs (Decidable (e.eval R = some (.prim (.bool false))))

/-- An entity is the one that is named, if one is. -/
def Names (named : Option E) (e : E) : Prop := named = none ∨ named = some e

instance (named : Option E) (e : E) : Decidable (Names named e) :=
  inferInstanceAs (Decidable (_ ∨ _))

omit [DecidableEq E] in
@[simp] theorem names_none (e : E) : Names none e := .inl rfl

omit [DecidableEq E] in
@[simp] theorem names_some {u e : E} : Names (some u) e ↔ e = u := by
  simp [Names, eq_comm]

/-- The policy applies to the request. -/
def Policy.Applies (R : Request E) (P : Policy E) : Prop :=
  Names P.principal R.principal ∧ Names P.action R.action ∧ Names P.resource R.resource ∧
    ∀ c ∈ P.clauses, c.Holds R

instance (R : Request E) (P : Policy E) : Decidable (P.Applies R) :=
  inferInstanceAs (Decidable (_ ∧ _ ∧ _ ∧ _))

/-! ## Decisions -/

variable {ι : Type} (R : Request E) (Ps : List (ι × Policy E))

/-- The names of the policies with an effect that apply. -/
def applying (effect : Effect) : List ι :=
  (Ps.filter fun P => decide (P.2.effect = effect ∧ P.2.Applies R)).map Prod.fst

/-- The request is allowed. -/
def Allows : Prop := applying R Ps .permit ≠ [] ∧ applying R Ps .forbid = []

instance [DecidableEq ι] : Decidable (Allows R Ps) := inferInstanceAs (Decidable (_ ∧ _))

/-- The names of the policies that decide: those that forbid if there are any, else those that
permit. -/
def deciding : List ι :=
  if applying R Ps .forbid = [] then applying R Ps .permit else applying R Ps .forbid

variable {R Ps}

theorem applying_eq_nil_iff {effect : Effect} : applying R Ps effect = [] ↔
    ∀ P ∈ Ps.map Prod.snd, P.effect = effect → ¬ P.Applies R := by
  rw [applying, List.map_eq_nil_iff, List.filter_eq_nil_iff, List.forall_mem_map]
  simp only [decide_eq_true_eq, not_and]

/-- A request is allowed if a policy that permits applies, and none that forbids. -/
theorem allows_iff : Allows R Ps ↔
    (∃ P ∈ Ps.map Prod.snd, P.effect = .permit ∧ P.Applies R) ∧
      ∀ P ∈ Ps.map Prod.snd, P.effect = .forbid → ¬ P.Applies R := by
  rw [Allows, Ne, applying_eq_nil_iff, applying_eq_nil_iff]
  simp only [not_forall, not_not, exists_prop]

/-- The same policies decide alike, in whatever order and under whatever names they stand. -/
theorem allows_congr {κ : Type} {Qs : List (κ × Policy E)}
    (h : ∀ P, P ∈ Ps.map Prod.snd ↔ P ∈ Qs.map Prod.snd) : Allows R Ps ↔ Allows R Qs := by
  simp only [allows_iff, h]

end AttributePolicy
