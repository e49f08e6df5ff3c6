import Havn.Db.Memory

/-!
# The aging pass

`age_expired` (`havn-db/src/agent/memory.rs`) archives the active rows whose TTL has run out.  The
TTL is meant to count from the later of the last write and the last recall; the statement counts
from `COALESCE(last_recalled_at, updated_at)`, so a recall, however old, hides every later write.
-/

namespace Havn.Db.Memory

open Lib List

/-! ## What the pass is for -/

def Entry.anchor (row : Entry) : ℕ :=
  match row.lastRecalledAt with
  | none => row.updatedAt
  | some recalled => max row.updatedAt recalled

def Stale (now : ℕ) (row : Entry) : Prop :=
  row.Active ∧ ∃ ttl ∈ row.ttlDays, ttl * dayMillis ≤ (now : ℤ) - (row.anchor : ℤ)
  deriving Decidable

def archiveIf (selected : Entry → Prop) [DecidablePred selected] (now : ℕ) (row : Entry) : Entry :=
  if selected row then { row with archivedAt := some now } else row

structure AgingLaws (strftime : ℕ → String) (t : Table) (now : ℕ) (t' : Table) : Prop where
  rows : t' = t.map (archiveIf (Stale now) now)
  fresh : ∀ row ∈ t, ∀ ttl ∈ row.ttlDays, (now : ℤ) - row.updatedAt < ttl * dayMillis → row ∈ t'
  reconfirmed : ∀ t₀ new id told returned, remember strftime t₀ new id told = .ok (t, returned) →
    ∀ row, get t new.key = some row → ∀ ttl ∈ row.ttlDays,
      (now : ℤ) - told.insert < ttl * dayMillis → row ∈ t'

/-- Recalled, written again since, and out of its TTL since the recall only. -/
def Overlooked (now : ℕ) (row : Entry) : Prop :=
  row.Active ∧ ∃ ttl ∈ row.ttlDays, ∃ recalled ∈ row.lastRecalledAt,
    ttl * dayMillis ≤ (now : ℤ) - (recalled : ℤ) ∧
      (now : ℤ) - (row.updatedAt : ℤ) < ttl * dayMillis
  deriving Decidable

/-! ## What the pass does -/

section Aging

variable {t t' : Table} {now : ℕ} {row : Entry}

theorem Entry.coalesce_le_anchor (row : Entry) :
    row.lastRecalledAt.getD row.updatedAt ≤ row.anchor := by
  unfold anchor
  cases row.lastRecalledAt with
  | none => exact le_rfl
  | some => exact le_max_right _ _

theorem Expired.of_stale (stale : Stale now row) : Expired now row := by
  obtain ⟨active, ttl, isTtl, out⟩ := stale
  refine ⟨active, ttl, isTtl, out.trans ?_⟩
  have le := row.coalesce_le_anchor
  omega

/-- **The statement takes too many rows exactly when a row is overlooked.** -/
theorem overlooked_iff : Overlooked now row ↔ Expired now row ∧ ¬ Stale now row := by
  unfold Overlooked Expired Stale Entry.anchor
  cases row.lastRecalledAt with
  | none =>
    simp only [Option.mem_def, reduceCtorEq, false_and, exists_false, and_false,
      Option.getD_none, and_not_self]
  | some =>
    cases row.ttlDays with
    | none => simp
    | some =>
      simp only [Option.mem_def, Option.some.injEq, exists_eq_left', Option.getD_some]
      constructor
      · rintro ⟨active, out, within⟩
        refine ⟨⟨active, out⟩, fun stale => ?_⟩
        have both := stale.2
        omega
      · rintro ⟨⟨active, out⟩, notStale⟩
        refine ⟨active, out, ?_⟩
        by_contra written
        refine notStale ⟨active, ?_⟩
        omega

theorem ageExpired_eq (unique : (keys t).Nodup) (now : ℕ) :
    ageExpired t now = .ok (t.map (archiveIf (Expired now) now)) := by
  have sameKeys : keys (t.map (archiveIf (Expired now) now)) = keys t := by
    refine keys_map fun row _ => ?_
    unfold archiveIf
    split <;> rfl
  have mapped : (t.map fun row => if decide (Expired now row) = true then
      { row with archivedAt := some now } else row) = t.map (archiveIf (Expired now) now) := by
    refine map_congr_left fun row _ => ?_
    simp only [decide_eq_true_eq, archiveIf]
  unfold ageExpired update
  dsimp only
  rw [mapped, sameKeys, if_pos unique]

theorem archiveIf_eq_iff :
    archiveIf (Expired now) now row = archiveIf (Stale now) now row ↔ ¬ Overlooked now row := by
  rw [overlooked_iff]
  unfold archiveIf
  by_cases expired : Expired now row
  · by_cases stale : Stale now row
    · simp [expired, stale]
    · rw [if_pos expired, if_neg stale]
      refine ⟨fun same => ?_, fun kept => absurd ⟨expired, stale⟩ kept⟩
      have active := congrArg Entry.archivedAt same
      rw [expired.1] at active
      cases active
  · have fresh : ¬ Stale now row := mt Expired.of_stale expired
    simp [expired, fresh]

theorem not_stale_of_written {ttl : ℤ} (isTtl : ttl ∈ row.ttlDays)
    (within : (now : ℤ) - row.updatedAt < ttl * dayMillis) : ¬ Stale now row := by
  rintro ⟨-, ttl', isTtl', out⟩
  cases isTtl.symm.trans isTtl'
  have le : row.updatedAt ≤ row.anchor := by
    unfold Entry.anchor
    cases row.lastRecalledAt with
    | none => exact le_rfl
    | some => exact le_max_left _ _
  omega

end Aging

theorem updatedAt_of_remember {strftime : ℕ → String} {t t' : Table} {new : NewEntry} {id : String}
    {told : Readings} (spec : RememberSpec strftime t new id told t') {row : Entry}
    (mem : row ∈ t') (sameKey : row.key = new.key) : row.updatedAt = told.insert := by
  -- an inserted row is the only one with the key
  have ofInsert : ∀ {s : Table} {link : Option String},
      insert s (newRow new id link told.insert) = .ok t' → row.updatedAt = told.insert := by
    intro s link inserted
    obtain ⟨rfl, -, freshKey, -⟩ := insert_eq_ok inserted
    rcases mem_snoc.mp mem with before | rfl
    · refine absurd ?_ freshKey
      show new.key ∈ keys s
      rw [← sameKey]
      exact mem_map_of_mem before
    · rfl
  cases spec with
  | fresh absent inserted => exact ofInsert inserted
  | superseded old mem sameKey active t₁ t₂ archived renamed inserted => exact ofInsert inserted
  | reactivated old mem sameKey inactive t₁ renamed inserted => exact ofInsert inserted
  | refreshed old _ _ active sameValue sameKind updated =>
    rw [(update_eq_ok updated).1] at mem
    obtain ⟨before, -, rfl⟩ := mem_map.mp mem
    split at sameKey
    · rename_i selected
      rw [if_pos selected]
    · rename_i other
      exact absurd (decide_eq_true sameKey) other

/-- **When the aging pass does what it is meant to do**: exactly when no row is overlooked. -/
theorem ageExpired_laws_iff (strftime : ℕ → String) {t : Table} (unique : (keys t).Nodup)
    (now : ℕ) : (∃ t', ageExpired t now = .ok t' ∧ AgingLaws strftime t now t') ↔
      ∀ row ∈ t, ¬ Overlooked now row := by
  rw [ageExpired_eq unique]
  constructor
  · rintro ⟨t', same, laws⟩ row mem
    cases same
    exact archiveIf_eq_iff.mp (map_inj_left.mp laws.rows row mem)
  · intro agree
    have rows : t.map (archiveIf (Expired now) now) = t.map (archiveIf (Stale now) now) :=
      map_congr_left fun row mem => archiveIf_eq_iff.mpr (agree row mem)
    have fresh : ∀ row ∈ t, ∀ ttl ∈ row.ttlDays, (now : ℤ) - row.updatedAt < ttl * dayMillis →
        row ∈ t.map (archiveIf (Expired now) now) := by
      intro row mem ttl isTtl within
      rw [rows]
      refine mem_map.mpr ⟨row, mem, ?_⟩
      exact if_neg (not_stale_of_written isTtl within)
    refine ⟨_, rfl, rows, fresh, ?_⟩
    intro t₀ new id told returned remembered row found ttl isTtl within
    obtain ⟨_, transacted, result⟩ := bind_eq_ok.mp remembered
    cases result
    have mem := mem_of_find?_eq_some found
    have sameKey : row.key = new.key := by
      have selected := find?_some found
      exact (of_decide_eq_true selected).1
    have stamped := updatedAt_of_remember (rememberTx_spec transacted) mem sameKey
    rw [← stamped] at within
    exact fresh row mem ttl isTtl within

/-! ## A fact that is told again -/

def startOfDay (day : ℕ) : ℕ := day * 86400000

def retoldHistory (again : ℕ) : List Op :=
  [.remember ⟨"offsite", "in May", .event, .agentInferred, none⟩ "a" ⟨0, 0, 0⟩,
    .search ["a"] [] 10 (startOfDay 1),
    .remember ⟨"offsite", "in May", .event, .agentInferred, none⟩ "b"
      ⟨startOfDay again, startOfDay again, startOfDay again⟩]

theorem aging_of_sameDay : ∃ t : Table, Run (step epochStamp) anyStep [] (retoldHistory 1) t ∧
    ∃ t', ageExpired t (startOfDay 31) = .ok t' ∧ AgingLaws epochStamp t (startOfDay 31) t' := by
  obtain ⟨t, ran, unique, settled⟩ : ∃ t, Run (step epochStamp) anyStep [] (retoldHistory 1) t ∧
      (keys t).Nodup ∧ ∀ row ∈ t, ¬ Overlooked (startOfDay 31) row := exists_run (by decide +kernel)
  exact ⟨t, ran, (ageExpired_laws_iff epochStamp unique _).mpr settled⟩

/-- **Told again two days ago, it is archived all the same**: it was recalled thirty days ago. -/
theorem reconfirmed_archived :
    ∃ t : Table, Run (step epochStamp) anyStep [] (retoldHistory 29) t ∧
      ∃ row t', get t "offsite" = some row ∧ row.ttlDays = some 30 ∧
        row.updatedAt = startOfDay 29 ∧ ageExpired t (startOfDay 31) = .ok t' ∧
        get t' "offsite" = none ∧ row ∉ t' := by
  obtain ⟨t, ran, row, found, t', aged, ttl, told, gone, absent⟩ :
      ∃ t, Run (step epochStamp) anyStep [] (retoldHistory 29) t ∧
        ∃ row ∈ get t "offsite", ∃ t' ∈ (ageExpired t (startOfDay 31)).toOption,
          row.ttlDays = some 30 ∧ row.updatedAt = startOfDay 29 ∧
            get t' "offsite" = none ∧ row ∉ t' := exists_run (by decide +kernel)
  exact ⟨t, ran, row, t', found, ttl, told, toOption_eq_some.mp aged, gone, absent⟩

end Havn.Db.Memory
