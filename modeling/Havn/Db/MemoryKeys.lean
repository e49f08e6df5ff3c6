import Havn.Lib.Delimited
import Havn.Lib.Rfc3339
import Havn.Db.MemoryChain

/-!
# The keys of the memory table

`UNIQUE(key)` leaves room for one row per key, so a row that makes room has its key extended by a
mark and the time of the statement.  That the time makes the new key unique is assumed, and holds
as far as the clock tells the calls apart.
-/

namespace Havn.Db.Memory

open Lib List

/-! ## Renames -/

inductive Mark where
  | archived
  | reactivated
  | forgotten
  deriving DecidableEq

def Mark.text : Mark → String
  | .archived => "@archived:"
  | .reactivated => "@reactivated:"
  | .forgotten => "@forgotten:"

structure Rename where
  key : String
  mark : Mark
  now : ℕ
  deriving DecidableEq

def Rename.target (strftime : ℕ → String) (r : Rename) : String :=
  r.key ++ r.mark.text ++ strftime r.now

def renameOf (t : Table) : Op → Option Rename
  | .remember new _ now =>
    match t.find? (·.key = new.key) with
    | none => none
    | some old =>
      if old.Active then
        if old.value = new.value ∧ old.kind = new.kind then none
        else some ⟨new.key, .archived, now.suffix⟩
      else some ⟨new.key, .reactivated, now.suffix⟩
  | .forget key now => if (get t key).isSome then some ⟨key, .forgotten, now⟩ else none
  | .ageExpired _ | .search _ _ _ _ | .setEmbedding _ _ | .setEmbeddingById _ _ => none

variable {r : Rename}

/-- Which calls rename, and which key: the one that is told, or that of the row that is
forgotten. -/
theorem renameOf_eq_some {t : Table} {op : Op} (moves : renameOf t op = some r) :
    (∃ new id now, op = .remember new id now ∧ r.key = new.key ∧ r.now = now.suffix) ∨
      ∃ now, op = .forget r.key now ∧ r.now = now ∧ ∃ row ∈ t, row.Active ∧ row.key = r.key := by
  cases op with
  | remember new id now =>
    refine .inl ⟨new, id, now, rfl, ?_⟩
    simp only [renameOf] at moves
    split at moves
    · cases moves
    split at moves
    · split at moves
      · cases moves
      · cases moves
        exact ⟨rfl, rfl⟩
    · cases moves
      exact ⟨rfl, rfl⟩
  | forget key now =>
    simp only [renameOf] at moves
    split at moves
    · rename_i present
      cases moves
      obtain ⟨row, found⟩ := Option.isSome_iff_exists.mp present
      obtain ⟨isKey, active⟩ : row.key = key ∧ row.Active := by simpa using find?_some found
      exact .inr ⟨now, rfl, rfl, row, mem_of_find?_eq_some found, active, isKey⟩
    · cases moves
  | ageExpired | search | setEmbedding | setEmbeddingById => cases moves

def renames (strftime : ℕ → String) : Table → List Op → List Rename
  | _, [] => []
  | t, op :: ops =>
    (renameOf t op).toList ++ ((step strftime t op).elim [] fun t' => renames strftime t' ops)

theorem renames_append {strftime : ℕ → String} {t t' : Table} {ops : List Op}
    (ran : exec (step strftime) t ops = some t') (op : Op) :
    renames strftime t (ops ++ [op]) = renames strftime t ops ++ (renameOf t' op).toList := by
  induction ops generalizing t with
  | nil =>
    cases ran
    rw [nil_append, renames, renames, nil_append]
    cases step strftime t' op with
    | none | some => exact append_nil _
  | cons first ops ih =>
    obtain ⟨t₁, stepped, rest⟩ := Option.bind_eq_some_iff.mp ran
    rw [cons_append, renames, renames, stepped, Option.elim_some, Option.elim_some, ih rest,
      append_assoc]

def uniqueKey : DbError := .sqlx "UNIQUE constraint failed: memory.key"

/-! ## What a call does to the keys -/

structure InPlace (row row' : Entry) : Prop where
  id : row'.id = row.id
  key : row'.key = row.key
  active : row'.Active → row.Active

structure MadeRoom (strftime : ℕ → String) (r : Rename) (row row' : Entry) : Prop where
  id : row'.id = row.id
  key : row.key = r.key
  target : row'.key = r.target strftime
  archived : ¬ row'.Active

structure Moved (strftime : ℕ → String) (t : Table) (op : Op) (g : Entry → Entry)
    (added : List Entry) : Prop where
  row : ∀ row ∈ t, InPlace row (g row) ∨
    ∃ r, renameOf t op = some r ∧ MadeRoom strftime r row (g row)
  renamed : ∀ r, renameOf t op = some r →
    r.target strftime ∉ keys t ∧ ∃ row ∈ t, MadeRoom strftime r row (g row)
  added : ∀ row ∈ added, row.Active ∧ row.id ∉ ids t ∧
    ∃ new id now, op = .remember new id now ∧ row.key = new.key

inductive Outcome (strftime : ℕ → String) (t : Table) (op : Op) : Except DbError Table → Prop
  | done (g : Entry → Entry) (added : List Entry) (moved : Moved strftime t op g added) :
      Outcome strftime t op (.ok (t.map g ++ added))
  | collided (r : Rename) (moves : renameOf t op = some r) (taken : r.target strftime ∈ keys t) :
      Outcome strftime t op (.error uniqueKey)
  | refused (error : DbError) (other : error ≠ uniqueKey)
      (free : ∀ r, renameOf t op = some r → r.target strftime ∉ keys t) :
      Outcome strftime t op (.error error)

section Calls

variable {strftime : ℕ → String} {t : Table} {op : Op} {old : Entry} {set : Entry → Entry}
  {selected : Entry → Bool}

theorem nodup_map_replace {α : Type} [DecidableEq α] {a b : α} {l : List α} (nodup : l.Nodup)
    (mem : a ∈ l) (differs : b ≠ a) : (l.map fun x => if x = a then b else x).Nodup ↔ b ∉ l := by
  constructor
  · intro mapped memB
    refine differs (inj_on_of_nodup_map mapped memB mem ?_)
    rw [if_neg differs, if_pos rfl]
  · intro absent
    refine nodup.map_on fun x memX y memY same => ?_
    split at same <;> split at same
    · rename_i isX isY
      rw [isX, isY]
    · exact absurd (same ▸ memY) absent
    · exact absurd (same ▸ memX) absent
    · exact same

/-- **A statement that gives one row another key** fails exactly if that key is
taken. -/
theorem update_rename (wf : WellFormed t) (mem : old ∈ t) (differs : (set old).key ≠ old.key)
    (selects : ∀ row ∈ t, selected row = true ↔ row.id = old.id) :
    update t selected set =
      if (set old).key ∈ keys t then .error uniqueKey else .ok (t.map (touch old set)) := by
  have mapped : (t.map fun row => if selected row then set row else row) = t.map (touch old set) :=
    map_congr_left fun row rowMem => by simp only [touch, selects row rowMem]
  have newKeys : keys (t.map (touch old set)) =
      (keys t).map fun key => if key = old.key then (set old).key else key := by
    rw [keys, keys, map_map, map_map]
    refine map_congr_left fun row rowMem => ?_
    by_cases isOld : row = old
    · simp [isOld, touch_self]
    · have otherKey : row.key ≠ old.key := fun same =>
        isOld (inj_on_of_nodup_map wf.nodupKeys rowMem mem same)
      simp [touch_other wf mem rowMem isOld, otherKey]
  have unique := nodup_map_replace wf.nodupKeys (mem_map_of_mem mem) differs
  rw [← newKeys] at unique
  simp only [update, mapped]
  by_cases taken : (set old).key ∈ keys t
  · rw [if_neg fun nodup => unique.mp nodup taken, if_pos taken]
    rfl
  · rw [if_pos (unique.mpr taken), if_neg taken]

theorem update_inPlace (wf : WellFormed t) (sameKey : ∀ row, (set row).key = row.key) :
    update t selected set = .ok (t.map fun row => if selected row then set row else row) := by
  have same : keys (t.map fun row => if selected row then set row else row) = keys t := by
    refine keys_map fun row _ => ?_
    split
    · exact sameKey row
    · rfl
  simp only [update, same, if_pos wf.nodupKeys]

theorem outcome_inPlace (wf : WellFormed t) (unmoved : renameOf t op = none)
    (inPlace : ∀ row, InPlace row (set row)) : Outcome strftime t op (update t selected set) := by
  rw [update_inPlace wf fun row => (inPlace row).key, ← append_nil (t.map _)]
  refine .done _ _ ⟨fun row _ => .inl ?_, fun r moves => ?_, forall_mem_nil _⟩
  · split
    · exact inPlace row
    · exact ⟨rfl, rfl, fun active => active⟩
  · rw [unmoved] at moves
    cases moves

theorem outcome_unchanged (unmoved : renameOf t op = none) : Outcome strftime t op (.ok t) := by
  have moved : Moved strftime t op (fun row => row) [] :=
    ⟨fun row _ => .inl ⟨rfl, rfl, fun active => active⟩,
      fun r moves => (nomatch unmoved.symm.trans moves), forall_mem_nil _⟩
  have outcome := Outcome.done _ _ moved
  rwa [map_id', append_nil] at outcome

theorem insert_of_free (row : Entry) (free : row.key ∉ keys t) :
    (∃ error, insert t row = .error error ∧ error ≠ uniqueKey) ∨
      insert t row = .ok (t ++ [row]) ∧ row.id ∉ ids t := by
  rw [insert]
  by_cases usedId : row.id ∈ ids t
  · rw [if_pos usedId]
    exact .inl ⟨_, rfl, by decide⟩
  · rw [if_neg usedId, if_neg free]
    split
    · exact .inl ⟨_, rfl, by decide⟩
    · exact .inr ⟨rfl, usedId⟩

theorem moved_touch {added : List Entry} (wf : WellFormed t) (mem : old ∈ t)
    (moves : renameOf t op = some r) (free : r.target strftime ∉ keys t)
    (madeRoom : MadeRoom strftime r old (set old))
    (newRows : ∀ row ∈ added, row.Active ∧ row.id ∉ ids t ∧
      ∃ new id now, op = .remember new id now ∧ row.key = new.key) :
    Moved strftime t op (touch old set) added := by
  refine ⟨fun row rowMem => ?_, fun r' moves' => ?_, newRows⟩
  · by_cases isOld : row = old
    · subst isOld
      rw [touch_self]
      exact .inr ⟨r, moves, madeRoom⟩
    · rw [touch_other wf mem rowMem isOld]
      exact .inl ⟨rfl, rfl, fun active => active⟩
  · cases moves'.symm.trans moves
    refine ⟨free, old, mem, ?_⟩
    rwa [touch_self]

theorem outcome_replaced {new : NewEntry} {id : String} {now : Readings} {f : Entry → Entry}
    (wf : WellFormed t) (mem : old ∈ t) (moves : renameOf t (.remember new id now) = some r)
    (isKey : r.key = new.key) (madeRoom : MadeRoom strftime r old (f old)) :
    Outcome strftime t (.remember new id now)
      (if r.target strftime ∈ keys t then .error uniqueKey
        else insert (t.map (touch old f)) (newRow new id (some old.id) now.insert)) := by
  split
  · exact .collided r moves (by assumption)
  · rename_i free
    -- the key is free now: its only row has the target
    have freeKey : new.key ∉ keys (t.map (touch old f)) := by
      intro taken
      obtain ⟨row', mem', sameKey⟩ := mem_map.mp taken
      obtain ⟨row, rowMem, rfl⟩ := mem_map.mp mem'
      have oldKey : old.key = new.key := madeRoom.key.trans isKey
      by_cases isOld : row = old
      · rw [isOld, touch_self, madeRoom.target, ← oldKey] at sameKey
        exact free (sameKey ▸ mem_map_of_mem mem)
      · rw [touch_other wf mem rowMem isOld] at sameKey
        exact isOld (inj_on_of_nodup_map wf.nodupKeys rowMem mem (sameKey.trans oldKey.symm))
    have sameIds : ids (t.map (touch old f)) = ids t := by
      refine ids_map fun row rowMem => ?_
      by_cases isOld : row = old
      · rw [isOld, touch_self, madeRoom.id]
      · rw [touch_other wf mem rowMem isOld]
    rcases insert_of_free (newRow new id (some old.id) now.insert) freeKey with
      ⟨error, failed, other⟩ | ⟨inserted, freshId⟩
    · rw [failed]
      refine .refused error other fun r' moves' => ?_
      rwa [Option.some.inj (moves'.symm.trans moves)]
    · rw [inserted]
      refine .done _ _ (moved_touch wf mem moves free madeRoom fun row isNew => ?_)
      obtain rfl := mem_singleton.mp isNew
      exact ⟨rfl, sameIds ▸ freshId, new, id, now, rfl, rfl⟩

theorem Rename.target_ne (r : Rename) : r.target strftime ≠ r.key := by
  intro same
  have lengths := congrArg String.length same
  have marked : 0 < r.mark.text.length := by cases r.mark <;> decide
  simp only [Rename.target, String.length_append] at lengths
  omega

def mark (strftime : ℕ → String) (r : Rename) (row : Entry) : Entry :=
  { row with key := row.key ++ r.mark.text ++ strftime r.now }

theorem mark_key {row : Entry} (isKey : row.key = r.key) :
    (mark strftime r row).key = r.target strftime := by
  rw [mark, isKey]
  rfl

theorem markKey_eq (wf : WellFormed t) (mem : old ∈ t) (r : Rename) (isKey : old.key = r.key) :
    markKey strftime t old.id r.mark.text r.now =
      if r.target strftime ∈ keys t then .error uniqueKey
      else .ok (t.map (touch old (mark strftime r))) := by
  have differs : (mark strftime r old).key ≠ old.key := by
    rw [mark_key isKey, isKey]
    exact r.target_ne
  rw [← mark_key isKey]
  exact update_rename wf mem differs fun row _ => decide_eq_true_iff

section Remember

variable {new : NewEntry} {id : String} {now : Readings} (wf : WellFormed t)

theorem outcome_fresh (unmoved : renameOf t (.remember new id now) = none)
    (free : new.key ∉ keys t) :
    Outcome strftime t (.remember new id now) (insert t (newRow new id none now.insert)) := by
  rcases insert_of_free (newRow new id none now.insert) free with
    ⟨error, failed, other⟩ | ⟨inserted, freshId⟩
  · rw [failed]
    exact .refused error other fun r moves => nomatch unmoved.symm.trans moves
  · have moved : Moved strftime t (.remember new id now) (fun row => row)
        [newRow new id none now.insert] := by
      refine ⟨fun row _ => .inl ⟨rfl, rfl, fun active => active⟩,
        fun r moves => (nomatch unmoved.symm.trans moves), fun row isNew => ?_⟩
      obtain rfl := mem_singleton.mp isNew
      exact ⟨rfl, freshId, new, id, now, rfl, rfl⟩
    have outcome := Outcome.done _ _ moved
    rw [map_id'] at outcome
    rwa [inserted]

include wf

theorem outcome_reactivated (mem : old ∈ t) (sameKey : old.key = new.key) (inactive : ¬ old.Active)
    (moves : renameOf t (.remember new id now) = some ⟨new.key, .reactivated, now.suffix⟩) :
    Outcome strftime t (.remember new id now)
      (markKey strftime t old.id "@reactivated:" now.suffix >>= fun t₁ =>
        insert t₁ (newRow new id (some old.id) now.insert)) := by
  let r : Rename := ⟨new.key, .reactivated, now.suffix⟩
  have renamed : markKey strftime t old.id "@reactivated:" now.suffix = _ :=
    markKey_eq wf mem r sameKey
  have madeRoom : MadeRoom strftime r old (mark strftime r old) :=
    ⟨rfl, sameKey, mark_key sameKey, inactive⟩
  have outcome := outcome_replaced wf mem moves rfl madeRoom
  rw [renamed]
  convert outcome using 1
  split <;> rfl

theorem outcome_superseded (mem : old ∈ t) (sameKey : old.key = new.key) (active : old.Active)
    (moves : renameOf t (.remember new id now) = some ⟨new.key, .archived, now.suffix⟩) :
    Outcome strftime t (.remember new id now)
      (update t (·.id = old.id) (fun row => { row with archivedAt := some now.archive }) >>=
        fun t₁ => markKey strftime t₁ old.id "@archived:" now.suffix >>= fun t₂ =>
          insert t₂ (newRow new id (some old.id) now.insert)) := by
  let r : Rename := ⟨new.key, .archived, now.suffix⟩
  let archive : Entry → Entry := fun row => { row with archivedAt := some now.archive }
  have keepsKey : ∀ row, (archive row).key = row.key := fun _ => rfl
  have archived : update t (·.id = old.id) archive = .ok (t.map (touch old archive)) := by
    rw [update_inPlace wf keepsKey]
    refine congrArg Except.ok (map_congr_left fun row _ => ?_)
    simp only [touch, decide_eq_true_eq]
  -- the archived row stands where the active one stood
  have wf₁ : WellFormed (t.map (touch old archive)) := by
    refine (wf.of_update archived fun row rowMem isOld => ?_).1
    obtain rfl := inj_on_of_nodup_map wf.nodupIds rowMem mem (of_decide_eq_true isOld)
    exact ⟨rfl, rfl, rfl, rfl, fun _ set => by cases active.symm.trans set⟩
  have mem₁ : archive old ∈ t.map (touch old archive) :=
    mem_map.mpr ⟨old, mem, touch_self old archive⟩
  have keys₁ : keys (t.map (touch old archive)) = keys t := by
    refine keys_map fun row _ => ?_
    rw [touch]
    split <;> rfl
  have renamed : markKey strftime (t.map (touch old archive)) old.id "@archived:" now.suffix = _ :=
    markKey_eq wf₁ mem₁ r sameKey
  have both : (t.map (touch old archive)).map (touch (archive old) (mark strftime r)) =
      t.map (touch old fun row => mark strftime r (archive row)) := by
    rw [map_map]
    refine map_congr_left fun row _ => ?_
    by_cases sameId : row.id = old.id <;> simp [touch, archive, sameId]
  have madeRoom : MadeRoom strftime r old (mark strftime r (archive old)) :=
    ⟨rfl, sameKey, mark_key sameKey, Option.some_ne_none _⟩
  have outcome := outcome_replaced (f := fun row => mark strftime r (archive row)) wf mem moves rfl
    madeRoom
  rw [archived]
  show Outcome strftime t _ (markKey strftime _ old.id "@archived:" now.suffix >>= _)
  rw [renamed, keys₁, both]
  convert outcome using 1
  split <;> rfl

theorem outcome_rememberTx :
    Outcome strftime t (.remember new id now) (rememberTx strftime t new id now) := by
  cases found : t.find? (·.key = new.key) with
  | none =>
    simp only [rememberTx, found]
    refine outcome_fresh (by simp only [renameOf, found]) fun taken => ?_
    obtain ⟨row, rowMem, sameKey⟩ := mem_map.mp taken
    exact find?_eq_none.mp found row rowMem (decide_eq_true sameKey)
  | some old =>
    have mem := mem_of_find?_eq_some found
    have sameKey : old.key = new.key := by simpa using find?_some found
    by_cases active : old.Active
    · by_cases same : old.value = new.value ∧ old.kind = new.kind
      · simp only [rememberTx, found, if_pos active, if_pos same]
        exact outcome_inPlace wf (by simp only [renameOf, found, if_pos active, if_pos same])
          fun row => ⟨rfl, rfl, fun active => active⟩
      · simp only [rememberTx, found, if_pos active, if_neg same]
        exact outcome_superseded wf mem sameKey active
          (by simp only [renameOf, found, if_pos active, if_neg same])
    · simp only [rememberTx, found, if_neg active]
      exact outcome_reactivated wf mem sameKey active
        (by simp only [renameOf, found, if_neg active])

end Remember

theorem outcome_forget (wf : WellFormed t) (key : String) (now : ℕ) :
    Outcome strftime t (.forget key now) (forget strftime t key now) := by
  cases found : get t key with
  | none =>
    -- no active row: the statement selects nothing
    have unchanged : forget strftime t key now = .ok t := by
      have mapped : (t.map fun row => if decide (row.key = key ∧ row.Active) = true then
          { row with archivedAt := some now, key := row.key ++ "@forgotten:" ++ strftime now }
          else row) = t := by
        refine (map_congr_left fun row rowMem => ?_).trans (map_id' t)
        exact if_neg (find?_eq_none.mp found row rowMem)
      simp only [forget, update, mapped, if_pos wf.nodupKeys]
    rw [unchanged]
    exact outcome_unchanged (by simp [renameOf, found])
  | some old =>
    have mem := mem_of_find?_eq_some found
    obtain ⟨isKey, active⟩ : old.key = key ∧ old.Active := by simpa using find?_some found
    let r : Rename := ⟨key, .forgotten, now⟩
    let set : Entry → Entry := fun row => { mark strftime r row with archivedAt := some now }
    have moves : renameOf t (.forget key now) = some r := by simp [renameOf, found, r]
    have selects : ∀ row ∈ t, decide (row.key = key ∧ row.Active) = true ↔ row.id = old.id := by
      intro row rowMem
      rw [decide_eq_true_iff, ← isKey]
      exact selects_active wf mem active rowMem
    have madeRoom : MadeRoom strftime r old (set old) :=
      ⟨rfl, isKey, mark_key isKey, Option.some_ne_none _⟩
    have differs : (set old).key ≠ old.key := by
      rw [madeRoom.target, madeRoom.key]
      exact r.target_ne
    have renamed : forget strftime t key now =
        if r.target strftime ∈ keys t then .error uniqueKey else .ok (t.map (touch old set)) := by
      rw [← madeRoom.target]
      exact update_rename wf mem differs selects
    rw [renamed]
    split
    · exact .collided r moves (by assumption)
    · rename_i free
      have outcome := Outcome.done _ _
        (moved_touch wf mem moves free madeRoom (forall_mem_nil _))
      rwa [append_nil] at outcome

/-- **What a call does to the keys.** -/
theorem outcome_of_run (wf : WellFormed t) (op : Op) :
    Outcome strftime t op (op.run strftime t) := by
  cases op with
  | remember new id now =>
    have transacted : (Op.remember new id now).run strftime t =
        rememberTx strftime t new id now := by
      simp only [Op.run, remember]
      cases rememberTx strftime t new id now <;> rfl
    rw [transacted]
    exact outcome_rememberTx wf
  | forget key now => exact outcome_forget wf key now
  | ageExpired => exact outcome_inPlace wf rfl fun row => ⟨rfl, rfl, nofun⟩
  | search =>
    simp only [Op.run, search, bumpRecall]
    split
    · exact outcome_unchanged rfl
    · exact outcome_inPlace wf rfl fun row => ⟨rfl, rfl, fun active => active⟩
  | setEmbedding | setEmbeddingById =>
    exact outcome_inPlace wf rfl fun row => ⟨rfl, rfl, fun active => active⟩

theorem run_eq_uniqueKey_iff (wf : WellFormed t) (op : Op) :
    op.run strftime t = .error uniqueKey ↔
      ∃ r, renameOf t op = some r ∧ r.target strftime ∈ keys t := by
  have outcome : Outcome strftime t op (op.run strftime t) := outcome_of_run wf op
  constructor
  · intro failed
    rw [failed] at outcome
    cases outcome with
    | collided r moves taken => exact ⟨r, moves, taken⟩
    | refused error other => exact absurd rfl other
  · rintro ⟨r, moves, taken⟩
    generalize op.run strftime t = result at outcome
    cases outcome with
    | done g added moved => exact absurd taken (moved.renamed r moves).1
    | collided => rfl
    | refused error other free => exact absurd taken (free r moves)

theorem moved_of_step {t' : Table} (wf : WellFormed t) (stepped : step strftime t op = some t') :
    ∃ g added, t' = t.map g ++ added ∧ Moved strftime t op g added := by
  have outcome : Outcome strftime t op (op.run strftime t) := outcome_of_run wf op
  rw [toOption_eq_some.mp stepped] at outcome
  cases outcome with
  | done g added moved => exact ⟨g, added, rfl, moved⟩

end Calls

/-! ## Reading a key back -/

def Mangled (strftime : ℕ → String) (key : String) : Prop :=
  ∃ r : Rename, r.target strftime = key

/-- Readings in a valid range print differently, and none contains the first character of a mark. -/
structure Stamps (strftime : ℕ → String) (valid : ℕ → Prop) : Prop where
  inj : ∀ a b, valid a → valid b → strftime a = strftime b → a = b
  unmarked : ∀ now, Unmarked (strftime now)

def Mark.word : Mark → String
  | .archived => "archived:"
  | .reactivated => "reactivated:"
  | .forgotten => "forgotten:"

theorem Mark.toList_text (m : Mark) : m.text.toList = '@' :: m.word.toList := by
  cases m <;> decide

theorem Mark.unmarked_word (m : Mark) : Unmarked m.word := by
  cases m <;> decide

theorem Mark.word_append_inj {m m' : Mark} {cs cs' : List Char}
    (same : m.word.toList ++ cs = m'.word.toList ++ cs') : m = m' ∧ cs = cs' := by
  have letter : ∀ {m m' : Mark}, m.word.toList.head? = m'.word.toList.head? → m = m' := by
    intro m m'
    cases m <;> cases m' <;> decide
  have begins : ∀ (m : Mark) (cs : List Char),
      (m.word.toList ++ cs).head? = m.word.toList.head? := by
    intro m cs
    cases m <;> rfl
  obtain rfl : m = m' := by
    apply letter
    rw [← begins m cs, same, begins]
  exact ⟨rfl, append_cancel_left same⟩

theorem Rename.toList_target (strftime : ℕ → String) (r : Rename) :
    (r.target strftime).toList =
      r.key.toList ++ '@' :: (r.mark.word.toList ++ (strftime r.now).toList) := by
  rw [Rename.target, String.toList_append, String.toList_append, Mark.toList_text]
  simp

section Targets

variable {strftime : ℕ → String} {valid : ℕ → Prop} {r r' : Rename}

theorem not_mem_suffix (unmarked : ∀ now, Unmarked (strftime now)) (r : Rename) :
    '@' ∉ r.mark.word.toList ++ (strftime r.now).toList := by
  rw [mem_append]
  exact not_or.mpr ⟨r.mark.unmarked_word, unmarked r.now⟩

/-- **A key that a rename gave tells which one.** -/
theorem Rename.target_inj (stamps : Stamps strftime valid) (inRange : valid r.now)
    (inRange' : valid r'.now) (same : r.target strftime = r'.target strftime) : r = r' := by
  have texts := congrArg String.toList same
  rw [Rename.toList_target, Rename.toList_target, delimiter_append_inj
    (not_mem_suffix stamps.unmarked r) (not_mem_suffix stamps.unmarked r')] at texts
  obtain ⟨sameMark, sameTime⟩ := Mark.word_append_inj texts.2
  have sameNow := stamps.inj _ _ inRange inRange' (String.toList_inj.mp sameTime)
  have sameKey := String.toList_inj.mp texts.1
  cases r
  cases r'
  simp_all

theorem not_mangled_of_unmarked {key : String} (unmarked : Unmarked key) :
    ¬ Mangled strftime key := by
  rintro ⟨r, rfl⟩
  refine unmarked ?_
  rw [Rename.toList_target]
  simp

end Targets

def sqlTime (ms : ℕ) : String := Rfc3339.stamp ms

theorem stamps_sqlTime : Stamps sqlTime (· < 253402300800000) := by
  constructor
  · intro a b inRange inRange' same
    have within : ∀ {ms : ℕ}, ms < 253402300800000 → Rfc3339.FourDigitMillis ms := by
      intro ms inRange
      constructor <;> omega
    have le : ∀ {a b : ℕ}, a < 253402300800000 → b < 253402300800000 → sqlTime a = sqlTime b →
        a ≤ b := by
      intro a b inRange inRange' same
      have ordered :=
        (Rfc3339.stamp_le_stamp_iff (within inRange) (within inRange')).mp (le_of_eq same)
      omega
    exact Nat.le_antisymm (le inRange inRange' same) (le inRange' inRange same.symm)
  · intro now mem
    rcases Rfc3339.mem_stamp mem with digit | other
    · exact absurd digit (by decide)
    · exact absurd other (by decide)

/-! ## The history of a key -/

def HeldKey (strftime : ℕ → String) (ops : List Op) (id key : String) : Prop :=
  ∃ before after s, ops = before ++ after ∧ exec (step strftime) [] before = some s ∧
    ∃ row ∈ s, row.id = id ∧ row.Active ∧ row.key = key

def Ordinary (strftime : ℕ → String) (_ : Table) (op : Op) : Prop :=
  ∀ new id now, op = .remember new id now → ¬ Mangled strftime new.key

/-- The key of every row is the one it was active under, or what a rename of that gave; none is
lost. -/
structure Filed (strftime : ℕ → String) (ops : List Op) (t : Table) : Prop where
  wf : WellFormed t
  row : ∀ row ∈ t, ∃ held, HeldKey strftime ops row.id held ∧ ¬ Mangled strftime held ∧
    (row.key = held ∨ ¬ row.Active ∧
      ∃ r ∈ renames strftime [] ops, r.key = held ∧ row.key = r.target strftime)
  renamed : ∀ r ∈ renames strftime [] ops, r.target strftime ∈ keys t

section Histories

variable {strftime : ℕ → String} {ops : List Op} {op : Op} {t t' : Table} {r : Rename}

theorem HeldKey.append {id key : String} (held : HeldKey strftime ops id key) (op : Op) :
    HeldKey strftime (ops ++ [op]) id key := by
  obtain ⟨before, after, s, rfl, ran, there⟩ := held
  exact ⟨before, after ++ [op], s, append_assoc _ _ _, ran, there⟩

theorem Filed.not_mangled (filed : Filed strftime ops t) (ordinary : Ordinary strftime t op)
    (moves : renameOf t op = some r) : ¬ Mangled strftime r.key := by
  rcases renameOf_eq_some moves with
    ⟨new, id, now, isRemember, isKey, -⟩ | ⟨-, -, -, row, mem, active, isKey⟩
  · rw [isKey]
    exact ordinary new id now isRemember
  · obtain ⟨held, -, plain, isHeld | ⟨archived, -⟩⟩ := filed.row row mem
    · rwa [← isKey, isHeld]
    · exact absurd active archived

section Step

variable {g : Entry → Entry} {added : List Entry} {row : Entry} (filed : Filed strftime ops t)
  (recorded : renames strftime [] (ops ++ [op]) = renames strftime [] ops ++ (renameOf t op).toList)
  (ordinary : Ordinary strftime t op) (moved : Moved strftime t op g added)

include filed recorded ordinary moved

theorem Filed.row_of_moved (mem : row ∈ t) :
    ∃ held, HeldKey strftime (ops ++ [op]) (g row).id held ∧ ¬ Mangled strftime held ∧
      ((g row).key = held ∨ ¬ (g row).Active ∧
        ∃ r ∈ renames strftime [] (ops ++ [op]),
          r.key = held ∧ (g row).key = r.target strftime) := by
  obtain ⟨held, isHeld, plain, origin⟩ := filed.row row mem
  refine ⟨held, ?_⟩
  rw [recorded]
  rcases moved.row row mem with inPlace | ⟨r, moves, madeRoom⟩
  · rw [inPlace.id, inPlace.key]
    refine ⟨isHeld.append op, plain, origin.imp_right ?_⟩
    rintro ⟨archived, r, before, isKey, isTarget⟩
    exact ⟨fun active => archived (inPlace.active active), r, mem_append_left _ before, isKey,
      isTarget⟩
  · rw [madeRoom.id, moves]
    refine ⟨isHeld.append op, plain, .inr ⟨madeRoom.archived, r,
      mem_append_right _ (mem_singleton_self r), ?_, madeRoom.target⟩⟩
    -- a row that made room before has a mangled key
    rcases origin with isKey | ⟨-, r', -, -, isTarget⟩
    · exact madeRoom.key.symm.trans isKey
    · refine absurd ⟨r', ?_⟩ (filed.not_mangled ordinary moves)
      exact isTarget.symm.trans madeRoom.key

theorem Filed.renamed_of_moved (mem : r ∈ renames strftime [] (ops ++ [op])) :
    ∃ row ∈ t, (g row).key = r.target strftime := by
  rw [recorded, mem_append, Option.mem_toList] at mem
  rcases mem with before | moves
  · obtain ⟨row, mem, isTarget⟩ := mem_map.mp (filed.renamed r before)
    rcases moved.row row mem with inPlace | ⟨r', moves, madeRoom⟩
    · exact ⟨row, mem, inPlace.key.trans isTarget⟩
    · refine absurd ⟨r, ?_⟩ (filed.not_mangled ordinary moves)
      exact isTarget.symm.trans madeRoom.key
  · obtain ⟨row, mem, madeRoom⟩ := (moved.renamed r moves).2
    exact ⟨row, mem, madeRoom.target⟩

end Step

/-- **Ordinary calls keep the rows filed.** -/
theorem Filed.of_step (filed : Filed strftime ops t) (ran : exec (step strftime) [] ops = some t)
    (ordinary : Ordinary strftime t op) (stepped : step strftime t op = some t') :
    Filed strftime (ops ++ [op]) t' := by
  have ran' : exec (step strftime) [] (ops ++ [op]) = some t' := by
    rw [exec_append, ran, Option.bind_some, exec_cons, stepped]
    rfl
  have recorded := renames_append ran op
  have wf' := (filed.wf.of_step stepped).1
  obtain ⟨g, added, rfl, moved⟩ := moved_of_step filed.wf stepped
  refine ⟨wf', fun row' mem' => ?_, fun r mem => ?_⟩
  · rcases mem_append.mp mem' with updated | isNew
    · obtain ⟨row, mem, rfl⟩ := mem_map.mp updated
      exact filed.row_of_moved recorded ordinary moved mem
    · obtain ⟨active, -, new, id, now, isRemember, isKey⟩ := moved.added row' isNew
      refine ⟨row'.key, ?_, isKey ▸ ordinary new id now isRemember, .inl rfl⟩
      exact ⟨ops ++ [op], [], _, (append_nil _).symm, ran', row', mem', rfl, active, rfl⟩
  · obtain ⟨row, mem, isTarget⟩ := filed.renamed_of_moved recorded ordinary moved mem
    rw [← isTarget]
    exact mem_map_of_mem (mem_append_left _ (mem_map_of_mem mem))

theorem filed_of_history (history : Run (step strftime) (Ordinary strftime) [] ops t) :
    Filed strftime ops t := by
  refine history.history (Filed strftime) (fun ops t op t' filed ran ordinary stepped => ?_) ?_
  · exact filed.of_step (exec_of_run ran) ordinary stepped
  · exact ⟨wellFormed_nil, forall_mem_nil _, forall_mem_nil _⟩

def Op.Stamped (valid : ℕ → Prop) : Op → Prop
  | .remember _ _ now => valid now.suffix
  | .forget _ now => valid now
  | .ageExpired _ | .search _ _ _ _ | .setEmbedding _ _ | .setEmbeddingById _ _ => True

def OrdinaryWithin (strftime : ℕ → String) (valid : ℕ → Prop) (t : Table) (op : Op) : Prop :=
  Ordinary strftime t op ∧ op.Stamped valid

variable {valid : ℕ → Prop}

theorem Op.Stamped.now (stamped : op.Stamped valid) (moves : renameOf t op = some r) :
    valid r.now := by
  rcases renameOf_eq_some moves with ⟨new, id, now, rfl, -, isNow⟩ | ⟨now, rfl, isNow, -⟩
  · exact isNow ▸ stamped
  · exact isNow ▸ stamped

theorem stamped_of_history
    (history : Run (step strftime) (OrdinaryWithin strftime valid) [] ops t) :
    ∀ r ∈ renames strftime [] ops, valid r.now := by
  refine history.history (fun ops _ => ∀ r ∈ renames strftime [] ops, valid r.now) ?_
    (forall_mem_nil _)
  intro ops t op t' inRange ran ordinary _ r mem
  rw [renames_append (exec_of_run ran), mem_append, Option.mem_toList] at mem
  rcases mem with before | moves
  · exact inRange r before
  · exact ordinary.2.now moves

/-- **When the store refuses a key**: exactly if the call renames a row and an earlier call
renamed one of the same key, for the same reason, at the same reading of the clock. -/
theorem uniqueKey_iff_renamed_before (stamps : Stamps strftime valid)
    (history : Run (step strftime) (OrdinaryWithin strftime valid) [] ops t)
    (ordinary : OrdinaryWithin strftime valid t op) :
    op.run strftime t = .error uniqueKey ↔
      ∃ r, renameOf t op = some r ∧ r ∈ renames strftime [] ops := by
  have filed := filed_of_history (history.imp fun _ _ guard => guard.1)
  rw [run_eq_uniqueKey_iff filed.wf]
  refine exists_congr fun r => and_congr_right fun moves => ?_
  constructor
  · intro taken
    obtain ⟨row, mem, isTarget⟩ := mem_map.mp taken
    obtain ⟨held, -, plain, isHeld | ⟨-, r', renamed, -, isTarget'⟩⟩ := filed.row row mem
    · exact absurd ⟨r, isTarget.symm.trans isHeld⟩ plain
    · have same : r = r' := Rename.target_inj stamps (ordinary.2.now moves)
        (stamped_of_history history r' renamed) (isTarget.symm.trans isTarget')
      rwa [same]
  · exact filed.renamed r

def Op.UnmarkedKey : Op → Prop
  | .remember new _ _ => Unmarked new.key
  | .forget .. | .ageExpired _ | .search .. | .setEmbedding .. | .setEmbeddingById .. => True

instance : ∀ op : Op, Decidable op.UnmarkedKey
  | .remember new _ _ => inferInstanceAs (Decidable (Unmarked new.key))
  | .forget _ _ | .ageExpired _ | .search _ _ _ _ | .setEmbedding _ _ | .setEmbeddingById _ _ =>
    isTrue trivial

instance [DecidablePred valid] : ∀ op : Op, Decidable (op.Stamped valid)
  | .remember _ _ now => inferInstanceAs (Decidable (valid now.suffix))
  | .forget _ now => inferInstanceAs (Decidable (valid now))
  | .ageExpired _ | .search _ _ _ _ | .setEmbedding _ _ | .setEmbeddingById _ _ => isTrue trivial

theorem Op.UnmarkedKey.ordinary (unmarked : op.UnmarkedKey) : Ordinary strftime t op := by
  rintro new id now rfl
  exact not_mangled_of_unmarked unmarked

end Histories

/-! ## One millisecond -/

def hastyNote (value id : String) : Op :=
  .remember ⟨"editor", value, .project, .userTold, none⟩ id ⟨5, 5, 5⟩

theorem corrected_and_forgotten :
    ∃ t : Table, Run (step sqlTime) (OrdinaryWithin sqlTime (· < 253402300800000)) []
        [hastyNote "vim" "a", hastyNote "emacs" "b"] t ∧
      (Op.forget "editor" 5).run sqlTime t ≠ .error uniqueKey := by
  obtain ⟨t, history, moves, before⟩ : ∃ t, Run (step sqlTime)
      (fun _ op => op.UnmarkedKey ∧ op.Stamped (· < 253402300800000)) []
      [hastyNote "vim" "a", hastyNote "emacs" "b"] t ∧
        renameOf t (.forget "editor" 5) = some ⟨"editor", .forgotten, 5⟩ ∧
          renames sqlTime [] [hastyNote "vim" "a", hastyNote "emacs" "b"] =
            [⟨"editor", .archived, 5⟩] := exists_run (by decide +kernel)
  have ordinary : Run (step sqlTime) (OrdinaryWithin sqlTime (· < 253402300800000)) [] _ t :=
    history.imp fun _ _ guard => ⟨guard.1.ordinary, guard.2⟩
  have next : OrdinaryWithin sqlTime (· < 253402300800000) t (.forget "editor" 5) :=
    ⟨nofun, by decide⟩
  refine ⟨t, ordinary, fun failed => ?_⟩
  obtain ⟨r, moves', again⟩ := (uniqueKey_iff_renamed_before stamps_sqlTime ordinary next).mp failed
  cases moves.symm.trans moves'
  rw [before] at again
  exact absurd again (by decide)

def squattingNote : Op :=
  .remember ⟨"editor@archived:1970-01-01T00:00:00.005Z", "ed", .event, .userTold, none⟩ "a"
    ⟨3, 3, 3⟩

/-- **A third value within one millisecond is refused**, and so is the first correction if the key
for the corrected row is taken. -/
theorem third_value_refused :
    (∃ t : Table, Run (step sqlTime) anyStep [] [hastyNote "vim" "a", hastyNote "emacs" "b"] t ∧
      (hastyNote "ed" "c").run sqlTime t = .error uniqueKey) ∧
    ∃ t : Table, Run (step sqlTime) anyStep [] [squattingNote, hastyNote "vim" "b"] t ∧
      (hastyNote "emacs" "c").run sqlTime t = .error uniqueKey :=
  ⟨exists_run (by decide +kernel), exists_run (by decide +kernel)⟩

end Havn.Db.Memory
