import Mathlib.Data.List.Forall2

/-!
# Successful computations in `Except`

Inversion of the two combinators of fallible code, the passage to `Option`, and the loops that
collect results of fallible calls.
-/

namespace Havn.Lib

open List

variable {ε α β : Type} {f : α → Except ε β} {x : Except ε α} {xs : List α} {ys : List β}

theorem bind_eq_ok {b : β} : x >>= f = .ok b ↔ ∃ a, x = .ok a ∧ f a = .ok b := by
  cases x with
  | error => exact ⟨nofun, nofun⟩
  | ok a => exact ⟨fun h => ⟨a, rfl, h⟩, fun ⟨_, rfl, h⟩ => h⟩

theorem map_eq_ok {f : α → β} {b : β} : x.map f = .ok b ↔ ∃ a, x = .ok a ∧ f a = b := by
  cases x with
  | error => exact ⟨nofun, nofun⟩
  | ok => simp [Except.map]

theorem toOption_eq_some {a : α} : x.toOption = some a ↔ x = .ok a := by
  cases x with
  | error => exact ⟨nofun, nofun⟩
  | ok => simp [Except.toOption]

/-- The loop `for x in xs { out.extend(f(x)?) }`. -/
def gather (f : α → Except ε (List β)) : List α → Except ε (List β)
  | [] => .ok []
  | x :: xs => f x >>= fun part => (gather f xs).map (part ++ ·)

theorem eq_flatMap_of_gather {f : α → Except ε (List β)} {g : α → List β}
    (each : ∀ x part, f x = .ok part → part = g x) :
    ∀ {xs : List α} {ys : List β}, gather f xs = .ok ys → ys = xs.flatMap g := by
  intro xs
  induction xs with
  | nil =>
    intro ys gathered
    cases gathered
    rfl
  | cons x xs ih =>
    intro ys gathered
    obtain ⟨part, first, rest⟩ := bind_eq_ok.mp gathered
    obtain ⟨parts, later, rfl⟩ := map_eq_ok.mp rest
    rw [flatMap_cons, ← each x part first, ← ih later]

theorem exists_gather_eq_ok {f : α → Except ε (List β)} (each : ∀ x ∈ xs, ∃ part, f x = .ok part) :
    ∃ ys, gather f xs = .ok ys := by
  induction xs with
  | nil => exact ⟨[], rfl⟩
  | cons x xs ih =>
    obtain ⟨part, first⟩ := each x mem_cons_self
    obtain ⟨ys, rest⟩ := ih fun x' mem => each x' (mem_cons_of_mem x mem)
    refine ⟨part ++ ys, ?_⟩
    rw [gather, first, rest]
    rfl

theorem mem_of_gather {f : α → Except ε (List β)} {y : β} :
    ∀ {xs : List α} {ys : List β}, gather f xs = .ok ys → y ∈ ys →
      ∃ x ∈ xs, ∃ part, f x = .ok part ∧ y ∈ part := by
  intro xs
  induction xs with
  | nil =>
    intro ys gathered mem
    cases gathered
    simp at mem
  | cons x xs ih =>
    intro ys gathered mem
    obtain ⟨part, first, rest⟩ := bind_eq_ok.mp gathered
    obtain ⟨parts, later, rfl⟩ := map_eq_ok.mp rest
    rcases mem_append.mp mem with here | there
    · exact ⟨x, mem_cons_self, part, first, here⟩
    · obtain ⟨x', mem', found⟩ := ih later there
      exact ⟨x', mem_cons_of_mem x mem', found⟩

theorem exists_mapM_eq_ok (each : ∀ x ∈ xs, ∃ y, f x = .ok y) : ∃ ys, xs.mapM f = .ok ys := by
  induction xs with
  | nil => exact ⟨[], rfl⟩
  | cons x xs ih =>
    obtain ⟨y, first⟩ := each x mem_cons_self
    obtain ⟨ys, rest⟩ := ih fun x' mem => each x' (mem_cons_of_mem x mem)
    refine ⟨y :: ys, ?_⟩
    rw [mapM_cons, first, rest]
    rfl

theorem mapM_map_eq_ok {γ : Type} {f : β → Except ε γ} {g : α → β} {h : α → γ}
    (each : ∀ x ∈ xs, f (g x) = .ok (h x)) : (xs.map g).mapM f = .ok (xs.map h) := by
  induction xs with
  | nil => rfl
  | cons x xs ih =>
    obtain ⟨first, rest⟩ := forall_mem_cons.mp each
    rw [map_cons, mapM_cons, first, ih rest]
    rfl

theorem mapM_eq_ok_of_mapM_eq_some {γ : Type} {read : α → Option γ} {g : γ → β}
    (each : ∀ x y, read x = some y → f x = .ok (g y)) {ys : List γ}
    (collected : xs.mapM read = some ys) : xs.mapM f = .ok (ys.map g) := by
  induction xs generalizing ys with
  | nil =>
    obtain rfl := Option.some.inj collected
    rfl
  | cons x xs ih =>
    rw [mapM_cons] at collected
    obtain ⟨y, first, rest⟩ := Option.bind_eq_some_iff.mp collected
    obtain ⟨ys', later, whole⟩ := Option.bind_eq_some_iff.mp rest
    obtain rfl := Option.some.inj whole
    rw [mapM_cons, each x y first, ih later]
    rfl

theorem forall₂_of_mapM_eq_ok (collected : xs.mapM f = .ok ys) :
    List.Forall₂ (fun x y => f x = .ok y) xs ys := by
  induction xs generalizing ys with
  | nil =>
    cases collected
    exact .nil
  | cons x xs ih =>
    rw [mapM_cons] at collected
    obtain ⟨y, first, rest⟩ := bind_eq_ok.mp collected
    obtain ⟨ys', later, whole⟩ := bind_eq_ok.mp rest
    cases whole
    exact .cons first (ih later)

theorem exists_of_mem_forall₂ {R : α → β → Prop} {y : β} (pairs : List.Forall₂ R xs ys)
    (mem : y ∈ ys) : ∃ x ∈ xs, R x y := by
  induction pairs with
  | nil => exact absurd mem not_mem_nil
  | cons first _ ih =>
    rcases mem_cons.mp mem with rfl | there
    · exact ⟨_, mem_cons_self, first⟩
    · obtain ⟨x, inRest, found⟩ := ih there
      exact ⟨x, mem_cons_of_mem _ inRest, found⟩

theorem filterMap_flatMap_of_forall₂ {γ δ : Type} {R : α → β → Prop} {part : β → List γ}
    {f : γ → Option δ} {g : α → List δ} (each : ∀ x y, R x y → (part y).filterMap f = g x)
    (pairs : List.Forall₂ R xs ys) : (ys.flatMap part).filterMap f = xs.flatMap g := by
  induction pairs with
  | nil => rfl
  | cons first _ ih =>
    rw [flatMap_cons, flatMap_cons, filterMap_append, each _ _ first, ih]

theorem mem_of_mapM_eq_ok {y : β} (collected : xs.mapM f = .ok ys)
    (mem : y ∈ ys) : ∃ x ∈ xs, f x = .ok y := by
  obtain ⟨x, inList, found⟩ := exists_of_mem_forall₂ (forall₂_of_mapM_eq_ok collected) mem
  exact ⟨x, inList, found⟩

theorem mem_iff_of_mapM_eq_ok {y : β} (collected : xs.mapM f = .ok ys) :
    y ∈ ys ↔ ∃ x ∈ xs, f x = .ok y := by
  refine ⟨mem_of_mapM_eq_ok collected, ?_⟩
  rintro ⟨x, mem, found⟩
  obtain ⟨y', mem', found'⟩ := exists_of_mem_forall₂ (forall₂_of_mapM_eq_ok collected).flip mem
  obtain rfl : y = y' := Except.ok.inj (found.symm.trans found')
  exact mem'

theorem length_of_mapM {f : α → Option β} (read : xs.mapM f = some ys) : ys.length = xs.length := by
  induction xs generalizing ys with
  | nil =>
    obtain rfl := Option.some.inj read
    rfl
  | cons x xs ih =>
    rw [mapM_cons] at read
    obtain ⟨y, -, rest⟩ := Option.bind_eq_some_iff.mp read
    obtain ⟨ys', later, whole⟩ := Option.bind_eq_some_iff.mp rest
    obtain rfl := Option.some.inj whole
    rw [length_cons, length_cons, ih later]

theorem mapM_drop {f : α → Option β} (read : xs.mapM f = some ys) (n : ℕ) :
    (xs.drop n).mapM f = some (ys.drop n) := by
  induction xs generalizing ys n with
  | nil =>
    obtain rfl : ([] : List β) = ys := Option.some.inj read
    rw [drop_nil, drop_nil]
    rfl
  | cons x xs ih =>
    cases n with
    | zero => exact read
    | succ n =>
      rw [mapM_cons] at read
      obtain ⟨y, -, rest⟩ := Option.bind_eq_some_iff.mp read
      obtain ⟨ys', later, whole⟩ := Option.bind_eq_some_iff.mp rest
      obtain rfl := Option.some.inj whole
      rw [drop_succ_cons, drop_succ_cons]
      exact ih later n

theorem forM_eq_ok {f : α → Except ε Unit} : xs.forM f = .ok () ↔ ∀ x ∈ xs, f x = .ok () := by
  induction xs with
  | nil => exact ⟨fun _ => forall_mem_nil _, fun _ => rfl⟩
  | cons x xs ih =>
    show (f x >>= fun _ => xs.forM f) = .ok () ↔ _
    rw [bind_eq_ok, forall_mem_cons, ← ih]
    exact ⟨fun ⟨(), first, rest⟩ => ⟨first, rest⟩, fun ⟨first, rest⟩ => ⟨(), first, rest⟩⟩

theorem mapError_eq_ok {ε' : Type} {f : ε → ε'} {a : α} : x.mapError f = .ok a ↔ x = .ok a := by
  cases x with
  | error => exact ⟨nofun, nofun⟩
  | ok => simp [Except.mapError]

/-- A computation with a state returned, and what it returned and left passes a test. -/
def returned {σ : Type} (check : α → σ → Bool) : Except ε α × σ → Bool
  | (.ok result, state) => check result state
  | (.error _, _) => false

theorem exists_of_returned {σ : Type} {check : α → σ → Bool} {run : Except ε α × σ}
    (passes : returned check run = true) :
    ∃ result state, run = (.ok result, state) ∧ check result state = true := by
  obtain ⟨outcome, state⟩ := run
  cases outcome with
  | error => cases passes
  | ok result => exact ⟨result, state, rfl, passes⟩

end Havn.Lib
