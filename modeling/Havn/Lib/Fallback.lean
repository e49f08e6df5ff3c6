import Mathlib.Data.List.Basic

/-!
# Trying the members of a chain in turn

A loop that gives each member of a list a turn until one decides the result.  A turn may read and
change a world `σ`; `decides` says which outcomes end the loop and with what.  `run` keeps the log
of the turns, with the world each started in.
-/

namespace Havn.Lib.Fallback

open List

universe u v w x

variable {α : Type u} {σ : Type v} {τ : Type w} {ρ : Type x}

structure Turn (α : Type u) (σ : Type v) (τ : Type w) where
  member : α
  world : σ
  outcome : τ

structure Ended (α : Type u) (σ : Type v) (τ : Type w) (ρ : Type x) where
  result : Option ρ
  log : List (Turn α σ τ)
  world : σ

variable (turn : α → σ → τ × σ) (decides : τ → Option ρ)

def run : List α → σ → Ended α σ τ ρ
  | [], world => ⟨none, [], world⟩
  | a :: chain, world =>
    match decides (turn a world).1 with
    | some r => ⟨some r, [⟨a, world, (turn a world).1⟩], (turn a world).2⟩
    | none =>
      let rest := run chain (turn a world).2
      { rest with log := ⟨a, world, (turn a world).1⟩ :: rest.log }

variable {chain : List α} {world : σ} {a : α}

theorem run_cons_of_decides {r : ρ} (h : decides (turn a world).1 = some r) :
    run turn decides (a :: chain) world =
      ⟨some r, [⟨a, world, (turn a world).1⟩], (turn a world).2⟩ := by
  simp only [run, h]

theorem run_cons_of_passes (h : decides (turn a world).1 = none) :
    run turn decides (a :: chain) world =
      { run turn decides chain (turn a world).2 with
        log := ⟨a, world, (turn a world).1⟩ ::
          (run turn decides chain (turn a world).2).log } := by
  simp only [run, h]

structure Laws (chain : List α) (ended : Ended α σ τ ρ) : Prop where
  reached : ended.log.map Turn.member <+: chain
  outcome_eq : ∀ t ∈ ended.log, t.outcome = (turn t.member t.world).1
  last : ∀ earlier t later, ended.log = earlier ++ t :: later →
    (decides t.outcome).isSome → later = []
  result_iff : ∀ r, ended.result = some r ↔ ∃ t ∈ ended.log, decides t.outcome = some r
  exhausted : ended.result = none → ended.log.map Turn.member = chain

variable {turn decides}

theorem Laws.nil (world : σ) : Laws turn decides [] (⟨none, [], world⟩ : Ended α σ τ ρ) where
  reached := prefix_rfl
  outcome_eq := by simp
  last := by simp
  result_iff := by simp
  exhausted := fun _ => rfl

theorem Laws.single {world' : σ} {r : ρ} (h : decides (turn a world).1 = some r) :
    Laws turn decides (a :: chain) ⟨some r, [⟨a, world, (turn a world).1⟩], world'⟩ where
  reached := ⟨chain, rfl⟩
  outcome_eq := by simp
  last := by
    intro earlier t later split _
    cases earlier with
    | nil => simp only [nil_append, List.cons.injEq] at split; exact split.2.symm
    | cons first earlier => simp at split
  result_iff := by simp [h]
  exhausted := by simp

variable {ended : Ended α σ τ ρ}

theorem Laws.cons (passes : decides (turn a world).1 = none)
    (laws : Laws turn decides chain ended) :
    Laws turn decides (a :: chain)
      { ended with log := ⟨a, world, (turn a world).1⟩ :: ended.log } where
  reached := by
    rw [map_cons]
    exact (prefix_cons_inj a).mpr laws.reached
  outcome_eq := by
    intro t mem
    rcases mem_cons.mp mem with rfl | mem
    · rfl
    · exact laws.outcome_eq t mem
  last := by
    intro earlier t later split decisive
    cases earlier with
    | nil =>
      simp only [nil_append, List.cons.injEq] at split
      rw [← split.1, passes] at decisive
      cases decisive
    | cons first earlier =>
      simp only [cons_append, List.cons.injEq] at split
      exact laws.last earlier t later split.2 decisive
  result_iff := by
    intro r
    rw [laws.result_iff r]
    simp [passes]
  exhausted := by
    intro silent
    rw [map_cons, laws.exhausted silent]

variable (turn decides) in
/-- **The laws of a fallback loop.** -/
theorem run_laws : ∀ (chain : List α) (world : σ),
    Laws turn decides chain (run turn decides chain world) := by
  intro chain
  induction chain with
  | nil => exact Laws.nil
  | cons a chain ih =>
    intro world
    cases h : decides (turn a world).1 with
    | some =>
      rw [run_cons_of_decides turn decides h]
      exact Laws.single h
    | none =>
      rw [run_cons_of_passes turn decides h]
      exact Laws.cons h (ih _)

theorem Laws.decided {r : ρ} (laws : Laws turn decides chain ended)
    (h : ended.result = some r) :
    ∃ earlier t, ended.log = earlier ++ [t] ∧ decides t.outcome = some r ∧
      ∀ t' ∈ earlier, decides t'.outcome = none := by
  obtain ⟨t, mem, decisive⟩ := (laws.result_iff r).mp h
  obtain ⟨earlier, later, split⟩ := append_of_mem mem
  obtain rfl := laws.last earlier t later split (by rw [decisive]; rfl)
  refine ⟨earlier, t, split, decisive, ?_⟩
  intro t' mem'
  by_contra other
  obtain ⟨before, between, rfl⟩ := append_of_mem mem'
  rw [append_assoc, cons_append] at split
  have := laws.last before t' _ split (Option.isSome_iff_ne_none.mpr other)
  simp at this

theorem Laws.passes_of_undecided (laws : Laws turn decides chain ended)
    (h : ended.result = none) : ∀ t ∈ ended.log, decides t.outcome = none := by
  intro t mem
  cases decisive : decides t.outcome with
  | none => rfl
  | some r =>
    have := (laws.result_iff r).mpr ⟨t, mem, decisive⟩
    rw [h] at this
    cases this

end Havn.Lib.Fallback
