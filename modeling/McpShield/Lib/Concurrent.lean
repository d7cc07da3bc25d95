import McpShield.Lib.Effect
import McpShield.Lib.Machine
import Mathlib.Algebra.BigOperators.Group.List.Basic
import Mathlib.Algebra.Order.Monoid.Defs
import Mathlib.Data.List.Nodup
import Mathlib.Logic.Function.Basic

/-!
# Programs side by side

Several programs call one shared component.  A step answers the next call of one of them: the
component says which answers it may give in its state, and which states it may pass to.  A history
lists the answered calls with the program that made each.  `interleaves_iff` reduces a history to
what each program has done, seen alone, and to what the component has done.
-/

namespace Effect.Prog

variable {S Op : Type} {Reply : Op → Type} {ι α : Type}

/-- What a component may answer to a call in a state, and the state after. -/
abbrev Component (S : Type) {Op : Type} (Reply : Op → Type) : Type :=
  S → (op : Op) → Reply op → S → Prop

variable {serve : Component S Reply}

/-! ## The component -/

/-- The component answers the calls one after the other. -/
inductive Serves (serve : Component S Reply) : S → List (Event Reply) → S → Prop where
  | nil (s) : Serves serve s [] s
  | cons {s s' s'' : S} {op : Op} {r : Reply op} {tr} (h : serve s op r s')
      (hrest : Serves serve s' tr s'') : Serves serve s (⟨op, r⟩ :: tr) s''

theorem serves_nil_iff {s s' : S} : Serves serve s [] s' ↔ s = s' := by
  constructor
  · rintro ⟨⟩
    rfl
  · rintro rfl
    exact .nil s

theorem serves_cons_iff {s s'' : S} {ev : Event Reply} {tr : List (Event Reply)} :
    Serves serve s (ev :: tr) s'' ↔ ∃ s', serve s ev.1 ev.2 s' ∧ Serves serve s' tr s'' := by
  constructor
  · rintro ⟨⟩
    exact ⟨_, ‹_›, ‹_›⟩
  · rintro ⟨s', h, hrest⟩
    exact .cons h hrest

theorem serves_append_iff {s s'' : S} {tr tr' : List (Event Reply)} :
    Serves serve s (tr ++ tr') s'' ↔ ∃ s', Serves serve s tr s' ∧ Serves serve s' tr' s'' := by
  induction tr generalizing s with
  | nil => simp [serves_nil_iff]
  | cons ev tr ih =>
    simp only [List.cons_append, serves_cons_iff, ih]
    constructor
    · rintro ⟨s₁, h, s', htr, hrest⟩
      exact ⟨s', ⟨s₁, h, htr⟩, hrest⟩
    · rintro ⟨s', ⟨s₁, h, htr⟩, hrest⟩
      exact ⟨s₁, h, s', htr, hrest⟩

/-- What every call with `P` preserves holds after any number of such calls. -/
theorem Serves.invariant {I : S → Prop} {P : Event Reply → Prop} {s s' : S}
    {tr : List (Event Reply)} (h : Serves serve s tr s') (hs : I s) (hP : ∀ ev ∈ tr, P ev)
    (step : ∀ s op (r : Reply op) s', serve s op r s' → P ⟨op, r⟩ → I s → I s') : I s' := by
  induction h with
  | nil => exact hs
  | cons h _ ih =>
    obtain ⟨hfirst, hrest⟩ := List.forall_mem_cons.mp hP
    exact ih (step _ _ _ _ h hfirst hs) hrest

/-- A queue that the component keeps: if what a call takes out of it and what is left then are what
was there and what the call puts in, the same holds of any number of calls. -/
theorem Serves.conserves {β : Type} (queue : S → List β) (takes puts : Event Reply → List β)
    {s s' : S} {tr : List (Event Reply)} (h : Serves serve s tr s')
    (step : ∀ s op (r : Reply op) s', serve s op r s' →
      takes ⟨op, r⟩ ++ queue s' = queue s ++ puts ⟨op, r⟩) :
    tr.flatMap takes ++ queue s' = queue s ++ tr.flatMap puts := by
  induction h with
  | nil => simp
  | @cons s s₁ s' op r tr h _ ih =>
    calc (⟨op, r⟩ :: tr).flatMap takes ++ queue s'
        = takes ⟨op, r⟩ ++ (tr.flatMap takes ++ queue s') := by
          rw [List.flatMap_cons, List.append_assoc]
      _ = takes ⟨op, r⟩ ++ queue s₁ ++ tr.flatMap puts := by rw [ih, List.append_assoc]
      _ = queue s ++ (⟨op, r⟩ :: tr).flatMap puts := by
          rw [step _ _ _ _ h, List.flatMap_cons, List.append_assoc]

/-- What holds of every call in the state that the component is in then. -/
def AtEach (serve : Component S Reply) (s : S) (tr : List (Event Reply))
    (φ : S → Event Reply → Prop) : Prop :=
  ∀ tr₁ ev tr₂ s₁, tr = tr₁ ++ ev :: tr₂ → Serves serve s tr₁ s₁ → φ s₁ ev

theorem AtEach.head {φ : S → Event Reply → Prop} {s : S} {ev : Event Reply}
    {tr : List (Event Reply)} (h : AtEach serve s (ev :: tr) φ) : φ s ev :=
  h [] ev tr s rfl (.nil s)

theorem AtEach.tail {φ : S → Event Reply → Prop} {s s₁ : S} {op : Op} {r : Reply op}
    {tr : List (Event Reply)} (h : AtEach serve s (⟨op, r⟩ :: tr) φ) (hserve : serve s op r s₁) :
    AtEach serve s₁ tr φ :=
  fun tr₁ ev tr₂ s₂ htr hserves =>
    h (⟨op, r⟩ :: tr₁) ev tr₂ s₂ (congrArg _ htr) (.cons hserve hserves)

theorem atEach_of_forall {φ : S → Event Reply → Prop} {s : S} {tr : List (Event Reply)}
    (h : ∀ ev ∈ tr, ∀ s₁, φ s₁ ev) : AtEach serve s tr φ :=
  fun tr₁ ev _ s₁ htr _ => h ev (htr ▸ List.mem_append_right tr₁ List.mem_cons_self) s₁

/-- A call that has been answered was answered in some state. -/
theorem Serves.exists_of_mem {s s' : S} {tr : List (Event Reply)} (h : Serves serve s tr s')
    {ev : Event Reply} (hev : ev ∈ tr) :
    ∃ tr₁ tr₂ s₁ s₂, tr = tr₁ ++ ev :: tr₂ ∧ Serves serve s tr₁ s₁ ∧ serve s₁ ev.1 ev.2 s₂ := by
  obtain ⟨tr₁, tr₂, rfl⟩ := List.append_of_mem hev
  obtain ⟨s₁, hbefore, hafter⟩ := serves_append_iff.mp h
  obtain ⟨s₂, hserve, -⟩ := serves_cons_iff.mp hafter
  exact ⟨tr₁, tr₂, s₁, s₂, rfl, hbefore, hserve⟩

/-- A potential.  If no call spends more than the potential drops by and what the call earns, any
number of calls spends no more than the potential at the start and what the calls earn. -/
theorem Serves.potential {M : Type} [AddCommMonoid M] [PartialOrder M] [IsOrderedAddMonoid M]
    {I : S → Prop} {φ : S → Event Reply → Prop} (potential : S → M) (spends earns : Event Reply → M)
    {s s' : S} {tr : List (Event Reply)} (h : Serves serve s tr s') (hs : I s)
    (hφ : AtEach serve s tr φ)
    (step : ∀ s op (r : Reply op) s', serve s op r s' → φ s ⟨op, r⟩ → I s → I s' ∧
      spends ⟨op, r⟩ + potential s' ≤ potential s + earns ⟨op, r⟩) :
    I s' ∧ (tr.map spends).sum + potential s' ≤ potential s + (tr.map earns).sum := by
  induction h with
  | nil => exact ⟨hs, by simp⟩
  | @cons s s₁ s' op r tr h _ ih =>
    obtain ⟨hs₁, hstep⟩ := step _ _ _ _ h hφ.head hs
    obtain ⟨hs', hrest⟩ := ih hs₁ (hφ.tail h)
    refine ⟨hs', ?_⟩
    calc ((⟨op, r⟩ :: tr).map spends).sum + potential s'
        = spends ⟨op, r⟩ + ((tr.map spends).sum + potential s') := by
          rw [List.map_cons, List.sum_cons, add_assoc]
      _ ≤ spends ⟨op, r⟩ + (potential s₁ + (tr.map earns).sum) := add_le_add_right hrest _
      _ = spends ⟨op, r⟩ + potential s₁ + (tr.map earns).sum := (add_assoc _ _ _).symm
      _ ≤ potential s + earns ⟨op, r⟩ + (tr.map earns).sum := add_le_add_left hstep _
      _ = potential s + ((⟨op, r⟩ :: tr).map earns).sum := by
          rw [List.map_cons, List.sum_cons, add_assoc]

/-! ## Linearization -/

/-- The calls that take effect, in their order, are a run of a machine with the same answers, if each
of them is a step of the machine and the other calls change nothing. -/
theorem Serves.linearize {A Call Out : Type} {m : Machine A Call Out} (abs : S → A)
    (commit : Event Reply → Option (Call × Out)) {φ : S → Event Reply → Prop} {s s' : S}
    {tr : List (Event Reply)} (h : Serves serve s tr s') (hφ : AtEach serve s tr φ)
    (step : ∀ s op (r : Reply op) s', serve s op r s' → φ s ⟨op, r⟩ →
      m.Commits (abs s) (commit ⟨op, r⟩) (abs s')) :
    m.answers (abs s) ((tr.filterMap commit).map Prod.fst) = (tr.filterMap commit).map Prod.snd ∧
      m.run (abs s) ((tr.filterMap commit).map Prod.fst) = abs s' := by
  induction h with
  | nil => exact ⟨rfl, rfl⟩
  | @cons s s₁ s' op r tr h _ ih =>
    obtain ⟨hanswers, hrun⟩ := ih (hφ.tail h)
    have hstep := step _ _ _ _ h hφ.head
    cases hcommit : commit ⟨op, r⟩ with
    | none =>
      rw [hcommit] at hstep
      have hsame : abs s₁ = abs s := hstep
      rw [List.filterMap_cons_none hcommit, ← hsame]
      exact ⟨hanswers, hrun⟩
    | some effect =>
      rw [hcommit] at hstep
      have hstep : m.step (abs s) effect.1 = (effect.2, abs s₁) := hstep
      rw [List.filterMap_cons_some hcommit, List.map_cons, List.map_cons, Machine.answers_cons,
        Machine.run_cons, hstep]
      exact ⟨congrArg _ hanswers, hrun⟩

/-! ## The programs -/

section Threads

variable [DecidableEq ι]

/-- The programs become others by exchanging `h` with the component. -/
inductive Interleaves (serve : Component S Reply) :
    (ι → Prog Op Reply α) → S → List (ι × Event Reply) → (ι → Prog Op Reply α) → S → Prop where
  | refl (P s) : Interleaves serve P s [] P s
  | step {P Q : ι → Prog Op Reply α} {s s' s'' : S} {i : ι} {op : Op}
      {k : Reply op → Prog Op Reply α} {r : Reply op} {h} (hP : P i = .call op k)
      (hserve : serve s op r s')
      (hrest : Interleaves serve (Function.update P i (k r)) s' h Q s'') :
      Interleaves serve P s ((i, ⟨op, r⟩) :: h) Q s''

/-- What program `i` has exchanged. -/
def callsOf (i : ι) (h : List (ι × Event Reply)) : List (Event Reply) :=
  h.filterMap fun entry => if entry.1 = i then some entry.2 else none

@[simp] theorem callsOf_nil (i : ι) : callsOf i ([] : List (ι × Event Reply)) = [] := rfl

@[simp] theorem callsOf_cons_self (i : ι) (ev : Event Reply) (h : List (ι × Event Reply)) :
    callsOf i ((i, ev) :: h) = ev :: callsOf i h := by
  simp [callsOf]

theorem callsOf_cons_ne {i j : ι} (hne : j ≠ i) (ev : Event Reply) (h : List (ι × Event Reply)) :
    callsOf i ((j, ev) :: h) = callsOf i h := by
  simp [callsOf, hne]

@[simp] theorem callsOf_append (i : ι) (h h' : List (ι × Event Reply)) :
    callsOf i (h ++ h') = callsOf i h ++ callsOf i h' := by
  simp [callsOf]

theorem mem_callsOf {i : ι} {ev : Event Reply} {h : List (ι × Event Reply)} :
    ev ∈ callsOf i h ↔ (i, ev) ∈ h := by
  simp only [callsOf, List.mem_filterMap]
  constructor
  · rintro ⟨⟨j, ev'⟩, hmem, heq⟩
    obtain ⟨rfl, rfl⟩ : j = i ∧ ev' = ev := by simpa using heq
    exact hmem
  · exact fun hmem => ⟨(i, ev), hmem, by simp⟩

/-- The history is a run of each program, seen alone, and of the component. -/
theorem interleaves_iff {P Q : ι → Prog Op Reply α} {s s' : S} {h : List (ι × Event Reply)} :
    Interleaves serve P s h Q s' ↔
      (∀ i, Steps (P i) (callsOf i h) (Q i)) ∧ Serves serve s (h.map Prod.snd) s' := by
  induction h generalizing P s with
  | nil =>
    simp only [callsOf_nil, List.map_nil, serves_nil_iff]
    constructor
    · rintro ⟨⟩
      exact ⟨fun i => .refl _, rfl⟩
    · rintro ⟨hsteps, rfl⟩
      obtain rfl : P = Q := funext fun i => (hsteps i).eq_of_nil
      exact .refl P s
  | cons entry h ih =>
    obtain ⟨i, op, r⟩ := entry
    simp only [List.map_cons, serves_cons_iff]
    constructor
    · intro hrun
      cases hrun with
      | step hP hserve hrest =>
        obtain ⟨hsteps, hserves⟩ := ih.mp hrest
        refine ⟨fun j => ?_, _, hserve, hserves⟩
        by_cases hj : i = j
        · subst hj
          have hlater := hsteps i
          rw [Function.update_self] at hlater
          rw [callsOf_cons_self, hP]
          exact .call hlater
        · have hlater := hsteps j
          rw [Function.update_of_ne (Ne.symm hj)] at hlater
          rwa [callsOf_cons_ne hj]
    · rintro ⟨hsteps, s₁, hserve, hserves⟩
      -- the first call of program `i` is the one that is answered
      have hfirst := hsteps i
      rw [callsOf_cons_self] at hfirst
      generalize hPi : P i = p at hfirst
      cases hfirst with
      | @call _ k _ _ _ hlater =>
        refine .step hPi hserve (ih.mpr ⟨fun j => ?_, hserves⟩)
        by_cases hj : i = j
        · subst hj
          rwa [Function.update_self]
        · rw [Function.update_of_ne (Ne.symm hj)]
          simpa only [callsOf_cons_ne hj] using hsteps j

variable {P Q : ι → Prog Op Reply α} {s s' : S} {h h' : List (ι × Event Reply)}

/-- What a program has done so far. -/
theorem Interleaves.thread (hrun : Interleaves serve P s h Q s') (i : ι) :
    Steps (P i) (callsOf i h) (Q i) :=
  (interleaves_iff.mp hrun).1 i

/-- What the component has done so far. -/
theorem Interleaves.served (hrun : Interleaves serve P s h Q s') :
    Serves serve s (h.map Prod.snd) s' :=
  (interleaves_iff.mp hrun).2

/-- A history that goes on from another one. -/
theorem Interleaves.split (hrun : Interleaves serve P s (h ++ h') Q s') :
    ∃ P₁ s₁, Interleaves serve P s h P₁ s₁ ∧ Interleaves serve P₁ s₁ h' Q s' := by
  induction h generalizing P s with
  | nil => exact ⟨P, s, .refl P s, hrun⟩
  | cons entry h ih =>
    cases hrun with
    | step hP hserve hrest =>
      obtain ⟨P₁, s₁, hfirst, hsecond⟩ := ih hrest
      exact ⟨P₁, s₁, .step hP hserve hfirst, hsecond⟩

theorem Interleaves.trans {P₁ : ι → Prog Op Reply α} {s₁ : S}
    (hfirst : Interleaves serve P s h P₁ s₁) (hsecond : Interleaves serve P₁ s₁ h' Q s') :
    Interleaves serve P s (h ++ h') Q s' := by
  induction hfirst with
  | refl => exact hsecond
  | step hP hserve _ ih => exact .step hP hserve (ih hsecond)

/-- A call of a program in the history is its next call at that moment. -/
theorem Interleaves.exists_call {i : ι} {op : Op} {r : Reply op}
    (hrun : Interleaves serve P s (h ++ (i, ⟨op, r⟩) :: h') Q s') :
    ∃ k, Steps (P i) (callsOf i h) (.call op k) := by
  have hsteps := hrun.thread i
  rw [callsOf_append, callsOf_cons_self] at hsteps
  exact hsteps.exists_call

/-- A call of a program in the history is answered by the component as it is at that moment. -/
theorem Interleaves.answered {i : ι} {op : Op} {r : Reply op}
    (hrun : Interleaves serve P s (h ++ (i, ⟨op, r⟩) :: h') Q s') :
    ∃ s₁ s₂, Serves serve s (h.map Prod.snd) s₁ ∧ serve s₁ op r s₂ ∧
      Serves serve s₂ (h'.map Prod.snd) s' := by
  have hserves := hrun.served
  rw [List.map_append, List.map_cons, serves_append_iff] at hserves
  obtain ⟨s₁, hbefore, hafter⟩ := hserves
  obtain ⟨s₂, hserve, hlater⟩ := serves_cons_iff.mp hafter
  exact ⟨s₁, s₂, hbefore, hserve, hlater⟩

/-! ## Schedules -/

/-- Answer the next call of each program of a schedule in turn; a program that is done is passed
over. -/
def runSchedule (answer : S → (op : Op) → Reply op × S) :
    (ι → Prog Op Reply α) → S → List ι → List (ι × Event Reply) × (ι → Prog Op Reply α) × S
  | P, s, [] => ([], P, s)
  | P, s, i :: rest =>
      match P i with
      | .done _ => runSchedule answer P s rest
      | .call op k =>
          let (r, s') := answer s op
          let (h, Q, s'') := runSchedule answer (Function.update P i (k r)) s' rest
          ((i, ⟨op, r⟩) :: h, Q, s'')

theorem interleaves_runSchedule {answer : S → (op : Op) → Reply op × S}
    (hanswer : ∀ s op, serve s op (answer s op).1 (answer s op).2) (P : ι → Prog Op Reply α) (s : S)
    (schedule : List ι) :
    Interleaves serve P s (runSchedule answer P s schedule).1 (runSchedule answer P s schedule).2.1
      (runSchedule answer P s schedule).2.2 := by
  induction schedule generalizing P s with
  | nil => exact .refl P s
  | cons i rest ih =>
    unfold runSchedule
    split
    · exact ih P s
    · next op k hP => exact .step hP (hanswer s op) (ih _ _)

/-- Every call of a schedule is answered in some state. -/
theorem mem_runSchedule {answer : S → (op : Op) → Reply op × S} {P : ι → Prog Op Reply α} {s : S}
    {schedule : List ι} {i : ι} {op : Op} {r : Reply op}
    (hmem : (i, ⟨op, r⟩) ∈ (runSchedule answer P s schedule).1) : ∃ s, r = (answer s op).1 := by
  induction schedule generalizing P s with
  | nil => exact absurd hmem List.not_mem_nil
  | cons j rest ih =>
    unfold runSchedule at hmem
    split at hmem
    · exact ih hmem
    · rcases List.mem_cons.mp hmem with heq | hmem
      · cases heq
        exact ⟨s, rfl⟩
      · exact ih hmem

/-! ## What the programs contribute -/

/-- The contributions to a history, with the program that made each. -/
def tagged {β : Type} (f : Event Reply → Option β) (h : List (ι × Event Reply)) : List (ι × β) :=
  h.filterMap fun entry => (f entry.2).map fun b => (entry.1, b)

section Tagged

variable {β : Type} {f : Event Reply → Option β} {h h' : List (ι × Event Reply)} {i : ι} {b : β}

omit [DecidableEq ι] in
theorem tagged_append : tagged f (h ++ h') = tagged f h ++ tagged f h' := List.filterMap_append

theorem mem_tagged : (i, b) ∈ tagged f h ↔ ∃ ev ∈ callsOf i h, f ev = some b := by
  simp only [tagged, List.mem_filterMap, mem_callsOf, Option.map_eq_some_iff]
  constructor
  · rintro ⟨⟨j, ev⟩, hmem, b', hb', heq⟩
    obtain ⟨rfl, rfl⟩ := Prod.mk.inj heq
    exact ⟨ev, hmem, hb'⟩
  · rintro ⟨ev, hmem, hb⟩
    exact ⟨(i, ev), hmem, b, hb, rfl⟩

omit [DecidableEq ι] in
theorem map_snd_tagged : (tagged f h).map Prod.snd = (h.map Prod.snd).filterMap f := by
  induction h with
  | nil => rfl
  | cons entry h ih =>
    unfold tagged at ih ⊢
    cases hf : f entry.2 <;> simp [hf, ih]

theorem count_tagged :
    ((tagged f h).map Prod.fst).count i = ((callsOf i h).filterMap f).length := by
  induction h with
  | nil => rfl
  | cons entry h ih =>
    obtain ⟨j, ev⟩ := entry
    by_cases hj : j = i
    · subst hj
      rw [callsOf_cons_self]
      unfold tagged at ih ⊢
      cases hf : f ev <;> simp [hf, ih]
    · rw [callsOf_cons_ne hj]
      unfold tagged at ih ⊢
      cases hf : f ev <;> simp [hf, ih, hj]

/-- If no program contributes twice, all contributions are by different programs. -/
theorem nodup_tagged (hone : ∀ i, ((callsOf i h).filterMap f).length ≤ 1) :
    ((tagged f h).map Prod.fst).Nodup := by
  rw [List.nodup_iff_count]
  intro i
  rw [count_tagged]
  exact hone i

end Tagged

end Threads

end Effect.Prog
