import Mathlib.Data.List.Induction

/-!
# Labelled partial machines, their runs and their invariants

A *machine* is a partial step function `step : σ → α → Option σ`: `none` says that the label is not
enabled in the state.  Everything nondeterministic about a system is carried by the label, so a
concrete run can be evaluated.

* `exec` runs a list of labels, stopping at the first one that is not enabled.
* `Run guard` is the same as a relation, where every step meets `guard` in the state it is taken
  from.
* `Run.invariant`, `Run.related` and `Run.history` are the induction rules: for a property of single
  states, of the pair (earlier state, later state), and of a state with the labels that led to it.
* `Always` says that a property holds in every state of an execution.  Where a step keeps it exactly
  if it meets a guard, these executions are the guarded runs (`run_iff_always`).
-/

namespace Havn.Lib

universe u v

variable {σ : Type u} {α : Type v}

theorem mem_snoc {a b : α} {log : List α} : a ∈ log ++ [b] ↔ a ∈ log ∨ a = b := by simp

def exec (step : σ → α → Option σ) : σ → List α → Option σ
  | s, [] => some s
  | s, a :: as => (step s a).bind fun s' => exec step s' as

theorem exec_cons (step : σ → α → Option σ) (s : σ) (a : α) (as : List α) :
    exec step s (a :: as) = (step s a).bind fun s' => exec step s' as := rfl

def anyStep : σ → α → Prop := fun _ _ => True

/-- The labels `as` lead from `s` to `t`, and each met `guard` in the state it was taken from. -/
inductive Run (step : σ → α → Option σ) (guard : σ → α → Prop) :
    σ → List α → σ → Prop
  | nil (s : σ) : Run step guard s [] s
  | snoc {s t u : σ} {as : List α} {a : α} (run : Run step guard s as t)
      (ok : guard t a) (next : step t a = some u) :
      Run step guard s (as ++ [a]) u

namespace Run

variable {step : σ → α → Option σ} {guard : σ → α → Prop} {s t u : σ} {as bs : List α}
/-- **The invariant rule.** -/
theorem invariant {Inv : σ → Prop}
    (preserved : ∀ s a s', Inv s → guard s a → step s a = some s' → Inv s')
    (initial : Inv s) (run : Run step guard s as t) : Inv t := by
  induction run with
  | nil => exact initial
  | snoc _ ok next ih => exact preserved _ _ _ ih ok next

/-- **The two-state rule**: a reflexive and transitive relation that every guarded step respects
relates the ends of a run. -/
theorem related (Inv : σ → Prop) {rel : σ → σ → Prop}
    (refl : ∀ s, rel s s) (trans : ∀ s t u, rel s t → rel t u → rel s u)
    (preserved : ∀ s a s', Inv s → guard s a → step s a = some s' → Inv s')
    (stepRel : ∀ s a s', Inv s → guard s a → step s a = some s' → rel s s')
    (initial : Inv s) (run : Run step guard s as t) : rel s t := by
  induction run with
  | nil => exact refl _
  | snoc earlier ok next ih =>
    have inv := earlier.invariant preserved initial
    exact trans _ _ _ ih (stepRel _ _ _ inv ok next)

/-- **The history rule**, for an invariant that also speaks about the labels taken so far. -/
theorem history (Inv : List α → σ → Prop)
    (preserved : ∀ as t a u, Inv as t → Run step guard s as t → guard t a →
      step t a = some u → Inv (as ++ [a]) u)
    (initial : Inv [] s) (run : Run step guard s as t) : Inv as t := by
  induction run with
  | nil => exact initial
  | snoc earlier ok next ih => exact preserved _ _ _ _ ih earlier ok next

theorem imp {guard' : σ → α → Prop} (weaker : ∀ s a, guard s a → guard' s a)
    (run : Run step guard s as t) : Run step guard' s as t := by
  induction run with
  | nil => exact .nil _
  | snoc _ ok next ih => exact .snoc ih (weaker _ _ ok) next

/-- What holds at the end, and of a state whenever of its successor, may be used at every step. -/
theorem imp_of_inherited (Inv : σ → Prop) {P : σ → Prop} {guard' : σ → α → Prop}
    (preserved : ∀ s a s', Inv s → guard s a → step s a = some s' → Inv s')
    (inherited : ∀ s a s', Inv s → step s a = some s' → P s' → P s)
    (weaker : ∀ s a, P s → guard s a → guard' s a) (initial : Inv s)
    (run : Run step guard s as t) (last : P t) : Run step guard' s as t := by
  induction run with
  | nil => exact .nil _
  | snoc earlier ok next ih =>
    have inv := earlier.invariant preserved initial
    have before := inherited _ _ _ inv next last
    exact .snoc (ih before) (weaker _ _ before ok) next

theorem append (first : Run step guard s as t) (second : Run step guard t bs u) :
    Run step guard s (as ++ bs) u := by
  induction second with
  | nil => simpa using first
  | snoc _ ok next ih =>
    rw [← List.append_assoc]
    exact .snoc ih ok next

theorem split : ∀ {as bs : List α} {u : σ}, Run step guard s (as ++ bs) u →
    ∃ t, Run step guard s as t ∧ Run step guard t bs u := by
  intro as bs
  induction bs using List.reverseRecOn with
  | nil => intro u run; exact ⟨u, by simpa using run, .nil u⟩
  | append_singleton bs b ih =>
    intro u run
    rw [← List.append_assoc] at run
    generalize labels : as ++ bs ++ [b] = cs at run
    cases run with
    | nil => simp at labels
    | snoc earlier ok next =>
      obtain ⟨rfl, hb⟩ := List.append_inj' labels rfl
      cases hb
      obtain ⟨t, before, after⟩ := ih earlier
      exact ⟨t, before, .snoc after ok next⟩

end Run

variable {guard : σ → α → Prop}

variable {step : σ → α → Option σ}

theorem Run.single {s t : σ} {a : α} (ok : guard s a)
    (next : step s a = some t) : Run step guard s [a] t :=
  .snoc (.nil s) ok next

variable {as : List α}

theorem Run.cons {s t u : σ} {a : α} (ok : guard s a)
    (next : step s a = some t) (rest : Run step guard t as u) : Run step guard s (a :: as) u :=
  (Run.single ok next).append rest

theorem run_of_exec :
    ∀ {as : List α} {s t : σ}, exec step s as = some t → Run step anyStep s as t := by
  intro as
  induction as with
  | nil => intro s t h; cases h; exact .nil s
  | cons a as ih =>
    intro s t h
    rw [exec_cons, Option.bind_eq_some_iff] at h
    obtain ⟨s', next, rest⟩ := h
    exact Run.cons trivial next (ih rest)

theorem exec_append (step : σ → α → Option σ) (s : σ) (as bs : List α) :
    exec step s (as ++ bs) = (exec step s as).bind fun t => exec step t bs := by
  induction as generalizing s with
  | nil => rfl
  | cons a as ih =>
    rw [List.cons_append, exec_cons, exec_cons, Option.bind_assoc]
    exact congrArg (step s a).bind (funext fun s' => ih s')

theorem exec_of_run {s t : σ} (run : Run step guard s as t) : exec step s as = some t := by
  induction run with
  | nil => rfl
  | snoc _ _ next ih =>
    rw [exec_append, ih, Option.bind_some, exec_cons, next]
    rfl

def checkedExec (step : σ → α → Option σ) (guard : σ → α → Prop)
    [∀ s a, Decidable (guard s a)] : σ → List α → Option σ
  | s, [] => some s
  | s, a :: as =>
    if guard s a then (step s a).bind fun s' => checkedExec step guard s' as else none

theorem run_of_checkedExec [∀ s a, Decidable (guard s a)] :
    ∀ {as : List α} {s t : σ}, checkedExec step guard s as = some t → Run step guard s as t := by
  intro as
  induction as with
  | nil => intro s t h; cases h; exact .nil s
  | cons a as ih =>
    intro s t h
    rw [checkedExec] at h
    split at h
    · rename_i ok
      obtain ⟨s', next, rest⟩ := Option.bind_eq_some_iff.mp h
      exact Run.cons ok next (ih rest)
    · cases h

variable {s : σ} {P Q : σ → Prop} [DecidablePred P]

theorem exists_exec (computed : (exec step s as).any (P ·) = true) :
    ∃ t, exec step s as = some t ∧ P t := by
  cases reached : exec step s as with
  | none => simp [reached] at computed
  | some t => exact ⟨t, rfl, by simpa [reached] using computed⟩

instance (s : σ) (a : α) : Decidable (anyStep s a) := .isTrue trivial

variable [∀ s a, Decidable (guard s a)]

/-- A run that is computed. -/
theorem exists_run (computed : (checkedExec step guard s as).any (P ·) = true) :
    ∃ t, Run step guard s as t ∧ P t := by
  cases reached : checkedExec step guard s as with
  | none => simp [reached] at computed
  | some t => exact ⟨t, run_of_checkedExec reached, by simpa [reached] using computed⟩

theorem exists_run_and (computed : (checkedExec step guard s as).any (P ·) = true)
    (follows : ∀ {t}, Run step guard s as t → P t → Q t) :
    ∃ t, Run step guard s as t ∧ P t ∧ Q t := by
  obtain ⟨t, run, holds⟩ := exists_run computed
  exact ⟨t, run, holds, follows run holds⟩

def Always (step : σ → α → Option σ) (P : σ → Prop) (s : σ) (as : List α) : Prop :=
  ∀ before after t, as = before ++ after → exec step s before = some t → P t

section Always

variable {step : σ → α → Option σ} {guard : σ → α → Prop} {P : σ → Prop} {s s' t : σ}
  {a : α} {as : List α}

theorem always_nil : Always step P s [] ↔ P s := by
  constructor
  · intro always
    exact always [] [] s rfl rfl
  · intro holds before after t parts ran
    obtain ⟨rfl, rfl⟩ := List.append_eq_nil_iff.mp parts.symm
    cases ran
    exact holds

theorem always_cons (next : step s a = some s') :
    Always step P s (a :: as) ↔ P s ∧ Always step P s' as := by
  constructor
  · intro always
    refine ⟨always [] (a :: as) s rfl rfl, fun before after t parts ran => ?_⟩
    refine always (a :: before) after t (by rw [parts]; rfl) ?_
    rw [exec_cons, next]
    exact ran
  · rintro ⟨holds, always⟩ before after t parts ran
    cases before with
    | nil =>
      cases ran
      exact holds
    | cons b before =>
      obtain ⟨rfl, rfl⟩ := List.cons.inj parts
      rw [exec_cons, next] at ran
      exact always before after t rfl ran

theorem run_cons_iff (next : step s a = some s') :
    Run step guard s (a :: as) t ↔ guard s a ∧ Run step guard s' as t := by
  constructor
  · intro run
    obtain ⟨u, first, rest⟩ := Run.split (show Run step guard s ([a] ++ as) t from run)
    generalize labels : [a] = bs at first
    cases first with
    | nil => cases labels
    | snoc earlier ok step' =>
      obtain ⟨rfl, last⟩ := List.append_inj' (show [] ++ [a] = _ ++ [_] from labels) rfl
      cases last
      generalize none : ([] : List α) = bs at earlier
      cases earlier with
      | nil =>
        cases next.symm.trans step'
        exact ⟨ok, rest⟩
      | snoc => simp at none
  · rintro ⟨ok, rest⟩
    exact Run.cons ok next rest

/-- **The runs on which a property always holds**, among those that meet an outer
guard. -/
theorem run_iff_always {outer : σ → α → Prop} (Inv : σ → Prop)
    (preserved : ∀ s a s', Inv s → outer s a → step s a = some s' → Inv s')
    (sharp : ∀ s a s', Inv s → P s → outer s a → step s a = some s' → (P s' ↔ guard s a)) :
    ∀ {as : List α} {s : σ}, Inv s → P s → Run step outer s as t →
      (Run step guard s as t ↔ Always step P s as) := by
  intro as
  induction as with
  | nil =>
    intro s _ holds ran
    cases exec_of_run ran
    exact ⟨fun _ => always_nil.mpr holds, fun _ => .nil t⟩
  | cons a as ih =>
    intro s inv holds ran
    have executed := exec_of_run ran
    rw [exec_cons, Option.bind_eq_some_iff] at executed
    obtain ⟨s', next, -⟩ := executed
    obtain ⟨ok, ran⟩ := (run_cons_iff next).mp ran
    have inv' := preserved s a s' inv ok next
    have here := sharp s a s' inv holds ok next
    rw [run_cons_iff next, always_cons next, and_iff_right holds]
    constructor
    · rintro ⟨guarded, run⟩
      exact (ih inv' (here.mpr guarded) ran).mp run
    · intro always
      have holds' : P s' := always [] as s' rfl rfl
      exact ⟨here.mp holds', (ih inv' holds' ran).mpr always⟩

end Always

end Havn.Lib
