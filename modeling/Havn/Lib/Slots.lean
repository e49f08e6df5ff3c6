import Mathlib.Data.List.Basic

/-!
# Slots shared by sessions

Several sessions may be open under one key at once; the slot of the key holds the one to be reached.
Opening a session takes the slot; closing one empties it, whichever session it held.
-/

namespace Havn.Lib

open Function

universe u

variable {κ : Type u} [DecidableEq κ]

def latest (sessions : List (ℕ × κ)) (key : κ) : Option ℕ :=
  (sessions.find? (·.2 = key)).map Prod.fst

variable {sessions : List (ℕ × κ)}

theorem latest_eq_none {key : κ} : latest sessions key = none ↔ ∀ n, (n, key) ∉ sessions := by
  rw [latest, Option.map_eq_none_iff, List.find?_eq_none]
  constructor
  · intro absent n mem
    exact absent (n, key) mem (decide_eq_true rfl)
  · rintro absent ⟨n, key'⟩ mem same
    obtain rfl : key' = key := of_decide_eq_true same
    exact absent n mem

theorem latest_cons_self (n : ℕ) (key : κ) (sessions : List (ℕ × κ)) :
    latest ((n, key) :: sessions) key = some n := by
  simp [latest]

theorem latest_cons_of_ne {key key' : κ} (other : key' ≠ key) (n : ℕ) (sessions : List (ℕ × κ)) :
    latest ((n, key) :: sessions) key' = latest sessions key' := by
  simp [latest, Ne.symm other]

theorem latest_filter {key : κ} {kept : ℕ × κ → Bool}
    (all : ∀ session ∈ sessions, session.2 = key → kept session = true) :
    latest (sessions.filter kept) key = latest sessions key := by
  induction sessions with
  | nil => rfl
  | cons session sessions ih =>
    obtain ⟨first, rest⟩ := List.forall_mem_cons.mp all
    obtain ⟨n, key'⟩ := session
    by_cases same : key' = key
    · subst same
      rw [List.filter_cons_of_pos (first rfl), latest_cons_self, latest_cons_self]
    · rw [latest_cons_of_ne (Ne.symm same), ← ih rest, List.filter_cons]
      split
      · exact latest_cons_of_ne (Ne.symm same) _ _
      · rfl

omit [DecidableEq κ] in
theorem forall_alone_iff {n : ℕ} {key : κ} (mem : (n, key) ∈ sessions)
    (own : ∀ key', (n, key') ∈ sessions → key' = key) :
    (∀ m, (m, key) ∈ sessions → m = n) ↔
      ∀ session ∈ sessions, session.1 = n →
        ∀ other ∈ sessions, other.2 = session.2 → other.1 = n := by
  constructor
  · rintro alone ⟨_, key'⟩ inSessions rfl ⟨m, key''⟩ inSessions' same
    obtain rfl : key' = key := own key' inSessions
    obtain rfl : key'' = key' := same
    exact alone m inSessions'
  · intro alone m inSessions
    exact alone _ mem rfl _ inSessions rfl

structure Slots (κ : Type u) where
  slot : κ → Option ℕ
  sessions : List (ℕ × κ)

namespace Slots

def opened (s : Slots κ) (n : ℕ) (key : κ) : Slots κ where
  slot := update s.slot key (some n)
  sessions := (n, key) :: s.sessions

def closed (s : Slots κ) (n : ℕ) (key : κ) : Slots κ where
  slot := update s.slot key none
  sessions := s.sessions.filter (·.1 ≠ n)

def Reaches (s : Slots κ) : Prop :=
  ∀ key n, latest s.sessions key = some n → s.slot key = some n

variable {s : Slots κ} {n : ℕ} {key : κ}

theorem reaches_opened (reaches : s.Reaches) : (s.opened n key).Reaches := by
  intro key' m isLatest
  by_cases same : key' = key
  · subst same
    show update s.slot key' (some n) key' = some m
    rw [update_self, ← isLatest]
    exact (latest_cons_self n key' s.sessions).symm
  · show update s.slot key (some n) key' = some m
    rw [update_of_ne same]
    exact reaches key' m ((latest_cons_of_ne same n s.sessions).symm.trans isLatest)

section Close

-- the session's number is under its own key only
variable (own : ∀ key', (n, key') ∈ s.sessions → key' = key)

include own

theorem latest_closed_of_ne {key' : κ} (other : key' ≠ key) :
    latest (s.closed n key).sessions key' = latest s.sessions key' := by
  refine latest_filter fun session mem same => decide_eq_true ?_
  rintro rfl
  exact other (same ▸ own session.2 mem)

/-- **When a close keeps the slots on the latest sessions**: when no other session
of the key is open. -/
theorem reaches_closed_iff (reaches : s.Reaches) :
    (s.closed n key).Reaches ↔ ∀ m, (m, key) ∈ s.sessions → m = n := by
  constructor
  · intro kept m mem
    by_contra differs
    have left : (m, key) ∈ (s.closed n key).sessions :=
      List.mem_filter.mpr ⟨mem, decide_eq_true differs⟩
    cases isLatest : latest (s.closed n key).sessions key with
    | none => exact latest_eq_none.mp isLatest m left
    | some latest =>
      have held : update s.slot key none key = some latest := kept key latest isLatest
      rw [update_self] at held
      cases held
  · intro alone key' m isLatest
    by_cases same : key' = key
    · subst same
      have closed : latest (s.closed n key').sessions key' = none := by
        refine latest_eq_none.mpr fun m mem => ?_
        obtain ⟨mem, kept⟩ := List.mem_filter.mp mem
        exact of_decide_eq_true kept (alone m mem)
      rw [closed] at isLatest
      cases isLatest
    · rw [latest_closed_of_ne own same] at isLatest
      show update s.slot key none key' = some m
      rw [update_of_ne same]
      exact reaches key' m isLatest

end Close

end Slots

end Havn.Lib
