import Havn.Lib.Machine

/-!
# Handlers side by side

A server answers any number of requests at once, each by a handler that runs from one await to the
next.  What a handler has learned of the shared value may be out of date when it acts on it.

`Respects.sustained` is a rule of rely and guarantee: a property of the shared value, and for every
call what it relies on.  A call keeps its own part by its own steps; that its steps leave the others
what *they* rely on is where a guard on the runs comes in.
-/

namespace Havn.Lib

open List

universe u

/-- `σ` is shared, `ρ` a request, `κ` a call under way, `ε` what an awaited operation answers, `ω`
what else can happen. -/
structure Handlers (σ ρ κ ε ω : Type u) where
  begin : ρ → κ
  act : σ → κ → ε → Option (σ × κ)
  outside : ω → σ → σ

namespace Handlers

variable {σ ρ κ ε ω : Type u}

structure State (σ κ : Type u) where
  shared : σ
  calls : List κ := []

inductive Label (ρ ε ω : Type u)
  | arrive (request : ρ)
  | act (n : ℕ) (answer : ε)
  | outside (event : ω)

def step (handlers : Handlers σ ρ κ ε ω) (s : State σ κ) : Label ρ ε ω → Option (State σ κ)
  | .arrive request => some { s with calls := s.calls ++ [handlers.begin request] }
  | .act n answer => s.calls[n]?.bind fun call =>
    (handlers.act s.shared call answer).map fun after =>
      { shared := after.1, calls := s.calls.set n after.2 }
  | .outside event => some { s with shared := handlers.outside event s.shared }

variable {handlers : Handlers σ ρ κ ε ω} {s s' : State σ κ}

theorem step_act {n : ℕ} {answer : ε} (next : handlers.step s (.act n answer) = some s') :
    ∃ call after, s.calls[n]? = some call ∧ handlers.act s.shared call answer = some after ∧
      s' = { shared := after.1, calls := s.calls.set n after.2 } := by
  obtain ⟨call, found, moved⟩ := Option.bind_eq_some_iff.mp next
  obtain ⟨after, acted, rfl⟩ := Option.map_eq_some_iff.mp moved
  exact ⟨call, after, found, acted, rfl⟩

theorem mem_set {calls : List κ} {n : ℕ} {new call : κ} (mem : call ∈ calls.set n new) :
    call = new ∨ call ∈ calls.eraseIdx n := by
  obtain ⟨i, bound, rfl⟩ := mem_iff_getElem.mp mem
  by_cases same : n = i
  · exact .inl (by rw [getElem_set, if_pos same])
  · rw [length_set] at bound
    rw [getElem_set, if_neg same]
    exact .inr (mem_eraseIdx_iff_getElem.mpr ⟨i, bound, Ne.symm same, rfl⟩)

structure Sustained (Inv : σ → Prop) (Relies : σ → κ → Prop) (s : State σ κ) : Prop where
  shared : Inv s.shared
  calls : ∀ call ∈ s.calls, Relies s.shared call

section Sustained

variable {guard : State σ κ → Label ρ ε ω → Prop} {Inv : σ → Prop} {Relies : σ → κ → Prop}

/-- A request begins with what it relies on, and a call's step keeps the shared property and its own
and leaves the other calls theirs. -/
structure Respects (handlers : Handlers σ ρ κ ε ω) (guard : State σ κ → Label ρ ε ω → Prop)
    (Inv : σ → Prop) (Relies : σ → κ → Prop) : Prop where
  begins : ∀ shared request, Inv shared → Relies shared (handlers.begin request)
  acts : ∀ s n call answer after, guard s (.act n answer) → s.calls[n]? = some call →
    Inv s.shared → Relies s.shared call → handlers.act s.shared call answer = some after →
    Inv after.1 ∧ Relies after.1 after.2
  spares : ∀ s n call answer after, guard s (.act n answer) → s.calls[n]? = some call →
    Inv s.shared → Relies s.shared call → handlers.act s.shared call answer = some after →
    ∀ other ∈ s.calls.eraseIdx n, Relies s.shared other → Relies after.1 other
  outside : ∀ s event, guard s (.outside event) → Inv s.shared →
    Inv (handlers.outside event s.shared) ∧ ∀ call ∈ s.calls, Relies s.shared call →
      Relies (handlers.outside event s.shared) call

theorem Respects.step (respects : Respects handlers guard Inv Relies) {label : Label ρ ε ω}
    (sustained : Sustained Inv Relies s) (ok : guard s label)
    (next : handlers.step s label = some s') : Sustained Inv Relies s' := by
  obtain ⟨holds, relied⟩ := sustained
  cases label with
  | arrive request =>
    cases next
    refine ⟨holds, fun call mem => ?_⟩
    rcases mem_snoc.mp mem with old | rfl
    · exact relied call old
    · exact respects.begins s.shared request holds
  | act n answer =>
    obtain ⟨call, after, found, acted, rfl⟩ := step_act next
    have mine := relied call (mem_of_getElem? found)
    obtain ⟨kept, moved⟩ := respects.acts s n call answer after ok found holds mine acted
    refine ⟨kept, fun other mem => ?_⟩
    rcases mem_set mem with rfl | others
    · exact moved
    · exact respects.spares s n call answer after ok found holds mine acted other others
        (relied other (mem_of_mem_eraseIdx others))
  | outside event =>
    cases next
    obtain ⟨kept, spared⟩ := respects.outside s event ok holds
    exact ⟨kept, fun call mem => spared call mem (relied call mem)⟩

theorem Sustained.initial {shared : σ} (holds : Inv shared) :
    Sustained Inv Relies ({ shared := shared } : State σ κ) :=
  ⟨holds, fun _ mem => absurd mem not_mem_nil⟩

/-- **The rely-guarantee rule.**  What the steps respect holds in every state of a guarded
run. -/
theorem Respects.sustained (respects : Respects handlers guard Inv Relies) {shared : σ}
    (holds : Inv shared) {labels : List (Label ρ ε ω)} {t : State σ κ}
    (run : Run handlers.step guard { shared := shared } labels t) : Sustained Inv Relies t :=
  run.invariant (fun _ _ _ sustained ok next => respects.step sustained ok next)
    (Sustained.initial holds)

end Sustained

end Handlers

end Havn.Lib
