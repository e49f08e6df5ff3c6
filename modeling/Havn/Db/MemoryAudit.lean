import Havn.Lib.Like
import Havn.Db.MemoryKeys

/-!
# The archived rows of a key

`list_archived_for_key` of `havn-db/src/agent/memory.rs` asks for the archived rows whose key is the
given one or `LIKE` the given one followed by `@%`, the marks that archiving appends.
-/

namespace Havn.Db.Memory

open Lib List

def listArchivedForKey (t : Table) (key : String) : List Entry :=
  (t.filter fun row => ¬ row.Active ∧
    (row.key = key ∨ like (key.toList ++ ['@', '%']) row.key.toList = true)).insertionSort
      fun row row' => archiveTime row' ≤ archiveTime row

structure ListsExactly (strftime : ℕ → String) (ops : List Op) (t : Table) (key : String) :
    Prop where
  once : (listArchivedForKey t key).Nodup
  mem_iff : ∀ row, row ∈ listArchivedForKey t key ↔
    row ∈ t ∧ ¬ row.Active ∧ HeldKey strftime ops row.id key

/-- A row that was active under `held` is found under `key`, which matches `held` or a part of it in
front of some `@`. -/
def Caught (key held : String) (row : Entry) : Prop :=
  (row.key ≠ held ∧ like key.toList held.toList = true) ∨
    ∃ u v, held.toList = u ++ '@' :: v ∧ like key.toList u = true

/-! ## What the query selects -/

section Query

variable {strftime : ℕ → String} {t : Table} {row : Entry} {key held : String}

theorem mem_listArchivedForKey :
    row ∈ listArchivedForKey t key ↔ row ∈ t ∧ ¬ row.Active ∧
      (row.key = key ∨ ∃ u v, row.key.toList = u ++ '@' :: v ∧ like key.toList u = true) := by
  rw [listArchivedForKey, mem_insertionSort, mem_filter, decide_eq_true_iff,
    like_separated (by decide) (by decide) (by decide)]

theorem nodup_listArchivedForKey (wf : WellFormed t) (key : String) :
    (listArchivedForKey t key).Nodup :=
  (perm_insertionSort _ _).nodup_iff.mpr ((List.Nodup.of_map _ wf.nodupIds).filter _)

/-- **A row of another key is selected if it is caught.** -/
theorem selected_iff_caught (unmarked : ∀ now, Unmarked (strftime now))
    (plain : ¬ Mangled strftime key) (other : held ≠ key)
    (origin : row.key = held ∨ ∃ r : Rename, r.key = held ∧ row.key = r.target strftime) :
    (row.key = key ∨ ∃ u v, row.key.toList = u ++ '@' :: v ∧ like key.toList u = true) ↔
      Caught key held row := by
  rcases origin with inPlace | ⟨r, rfl, isTarget⟩
  · rw [Caught, inPlace, or_iff_right other, or_iff_right fun moved => moved.1 rfl]
  · rw [Caught, or_iff_right fun isKey => plain ⟨r, isTarget.symm.trans isKey⟩, isTarget,
      Rename.toList_target]
    constructor
    · rintro ⟨u, v, text, matched⟩
      rcases (append_delimiter_eq_iff (not_mem_suffix unmarked r)).mp text with
        ⟨rfl, -⟩ | ⟨rest, inKey, -⟩
      · exact .inl ⟨r.target_ne, matched⟩
      · exact .inr ⟨u, rest, inKey, matched⟩
    · rintro (⟨-, matched⟩ | ⟨u, v, inKey, matched⟩)
      · exact ⟨_, _, rfl, matched⟩
      · exact ⟨u, _, (append_delimiter_eq_iff (not_mem_suffix unmarked r)).mpr
          (.inr ⟨v, inKey, rfl⟩), matched⟩

theorem selected_of_origin
    (origin : row.key = key ∨ ∃ r : Rename, r.key = key ∧ row.key = r.target strftime) :
    row.key = key ∨ ∃ u v, row.key.toList = u ++ '@' :: v ∧ like key.toList u = true := by
  rcases origin with inPlace | ⟨r, rfl, isTarget⟩
  · exact .inl inPlace
  · have text := Rename.toList_target strftime r
    rw [← isTarget] at text
    exact .inr ⟨_, _, text, like_self r.key.toList⟩

theorem not_caught_of_unmarked (unmarked : Unmarked held)
    (differs : like key.toList held.toList = false) : ¬ Caught key held row := by
  rintro (⟨-, matched⟩ | ⟨u, v, text, -⟩)
  · exact absurd matched (by simp [differs])
  · refine unmarked ?_
    rw [text]
    exact mem_append_right u mem_cons_self

end Query

/-! ## Histories -/

section Histories

variable {strftime : ℕ → String} {ops : List Op} {op : Op} {t t' : Table} {id key key' : String}

def ActiveKept (t t' : Table) : Prop :=
  ∀ row ∈ t, ∃ row' ∈ t', row'.id = row.id ∧ (row'.Active → row.Active ∧ row'.key = row.key)

theorem activeKept_of_step (wf : WellFormed t) (stepped : step strftime t op = some t') :
    ActiveKept t t' := by
  obtain ⟨g, added, rfl, moved⟩ := moved_of_step wf stepped
  intro row mem
  refine ⟨g row, mem_append_left _ (mem_map_of_mem mem), ?_⟩
  rcases moved.row row mem with inPlace | ⟨r, -, madeRoom⟩
  · exact ⟨inPlace.id, fun active => ⟨inPlace.active active, inPlace.key⟩⟩
  · exact ⟨madeRoom.id, fun active => absurd active madeRoom.archived⟩

theorem activeKept_of_exec (wf : WellFormed t) (ran : exec (step strftime) t ops = some t') :
    ActiveKept t t' := by
  refine (run_of_exec ran).related WellFormed ?_ ?_ ?_ ?_ wf
  · exact fun t row mem => ⟨row, mem, rfl, fun active => ⟨active, rfl⟩⟩
  · intro t₁ t₂ t₃ first second row mem
    obtain ⟨row₂, mem₂, sameId₂, kept₂⟩ := first row mem
    obtain ⟨row₃, mem₃, sameId₃, kept₃⟩ := second row₂ mem₂
    refine ⟨row₃, mem₃, sameId₃.trans sameId₂, fun active => ?_⟩
    obtain ⟨active₂, sameKey₃⟩ := kept₃ active
    obtain ⟨active₁, sameKey₂⟩ := kept₂ active₂
    exact ⟨active₁, sameKey₃.trans sameKey₂⟩
  · exact fun t op t' wf _ stepped => (wf.of_step stepped).1
  · exact fun t op t' wf _ stepped => activeKept_of_step wf stepped

theorem HeldKey.unique (held : HeldKey strftime ops id key)
    (held' : HeldKey strftime ops id key') : key = key' := by
  -- the row of the earlier point, seen at the later one
  have ordered : ∀ {before mid : List Op} {s s' : Table} {row row' : Entry},
      exec (step strftime) [] before = some s → exec (step strftime) s mid = some s' →
      row ∈ s → row' ∈ s' → row.id = row'.id → row'.Active → row.key = row'.key := by
    intro before mid s s' row row' ran later mem mem' sameId active
    have wf := wellFormed_nil.of_run (run_of_exec ran)
    have wf' := wf.of_run (run_of_exec later)
    obtain ⟨row₁, mem₁, sameId₁, kept⟩ := activeKept_of_exec wf later row mem
    obtain rfl := inj_on_of_nodup_map wf'.nodupIds mem₁ mem' (sameId₁.trans sameId)
    exact (kept active).2.symm
  obtain ⟨before, after, s, rfl, ran, row, mem, isId, active, isKey⟩ := held
  obtain ⟨before', after', s', parts, ran', row', mem', isId', active', isKey'⟩ := held'
  have sameId := isId.trans isId'.symm
  rw [← isKey, ← isKey']
  rcases append_eq_append_iff.mp parts with ⟨mid, rfl, -⟩ | ⟨mid, rfl, -⟩
  · rw [exec_append, ran, Option.bind_some] at ran'
    exact ordered ran ran' mem mem' sameId active'
  · rw [exec_append, ran', Option.bind_some] at ran
    exact (ordered ran' ran mem' mem sameId.symm active).symm

theorem HeldKey.told (held : HeldKey strftime ops id key) :
    ∃ new id now, Op.remember new id now ∈ ops ∧ new.key = key := by
  obtain ⟨before, after, s, rfl, ran, row, mem, -, active, rfl⟩ := held
  have told : ∀ row ∈ s, row.Active → ∃ new id now, Op.remember new id now ∈ before ∧
      new.key = row.key := by
    refine (run_of_exec ran).history (fun ops t => ∀ row ∈ t, row.Active →
      ∃ new id now, Op.remember new id now ∈ ops ∧ new.key = row.key) ?_ (forall_mem_nil _)
    intro ops t op t' told earlier _ stepped row' mem' active
    obtain ⟨g, added, rfl, moved⟩ := moved_of_step (wellFormed_nil.of_run earlier) stepped
    rcases mem_append.mp mem' with updated | isNew
    · obtain ⟨row, mem, rfl⟩ := mem_map.mp updated
      rcases moved.row row mem with inPlace | ⟨r, -, madeRoom⟩
      · obtain ⟨new, id, now, before, isKey⟩ := told row mem (inPlace.active active)
        exact ⟨new, id, now, mem_append_left _ before, isKey.trans inPlace.key.symm⟩
      · exact absurd active madeRoom.archived
    · obtain ⟨-, -, new, id, now, rfl, isKey⟩ := moved.added row' isNew
      exact ⟨new, id, now, mem_append_right _ (mem_singleton_self _), isKey.symm⟩
  obtain ⟨new, id, now, mem, isKey⟩ := told row mem active
  exact ⟨new, id, now, mem_append_left _ mem, isKey⟩

/-- **What the dashboard is shown**: exactly the archived rows that were active under the key, each
once, iff no archived row of another key is caught. -/
theorem listsExactly_iff_none_caught (unmarked : ∀ now, Unmarked (strftime now))
    (history : Run (step strftime) (Ordinary strftime) [] ops t) (plain : ¬ Mangled strftime key) :
    ListsExactly strftime ops t key ↔ ∀ row ∈ t, ¬ row.Active → ∀ held,
      HeldKey strftime ops row.id held → held ≠ key → ¬ Caught key held row := by
  have filed := filed_of_history history
  -- the key a row was active under, and where its present key comes from
  have origin : ∀ row ∈ t, ∀ held, HeldKey strftime ops row.id held →
      row.key = held ∨ ∃ r : Rename, r.key = held ∧ row.key = r.target strftime := by
    intro row mem held isHeld
    obtain ⟨held', isHeld', -, from'⟩ := filed.row row mem
    rw [isHeld.unique isHeld']
    exact from'.imp_right fun ⟨_, r, _, isKey, isTarget⟩ => ⟨r, isKey, isTarget⟩
  constructor
  · intro exactly row mem archived held isHeld other caught
    have selected :=
      (selected_iff_caught unmarked plain other (origin row mem held isHeld)).mpr caught
    have isKey := (exactly.mem_iff row).mp (mem_listArchivedForKey.mpr ⟨mem, archived, selected⟩)
    exact other (isHeld.unique isKey.2.2)
  · intro uncaught
    refine ⟨nodup_listArchivedForKey filed.wf key, fun row => ?_⟩
    rw [mem_listArchivedForKey]
    refine and_congr_right fun mem => and_congr_right fun archived => ?_
    constructor
    · intro selected
      obtain ⟨held, isHeld, -⟩ := filed.row row mem
      by_cases isKey : held = key
      · rwa [← isKey]
      · refine absurd ?_ (uncaught row mem archived held isHeld isKey)
        exact (selected_iff_caught unmarked plain isKey (origin row mem held isHeld)).mp selected
    · intro isHeld
      exact selected_of_origin (origin row mem key isHeld)

end Histories

/-! ## Two keys, and keys that look alike -/

def auditHistory : List Op :=
  [.remember ⟨"editor", "vim", .project, .userTold, none⟩ "a" ⟨1, 1, 1⟩,
    .remember ⟨"shell", "bash", .project, .userTold, none⟩ "b" ⟨2, 2, 2⟩,
    .remember ⟨"editor", "emacs", .project, .userTold, some 0⟩ "c" ⟨3, 3, 3⟩,
    .forget "shell" 4,
    .ageExpired 5]

theorem editor_listed :
    ∃ t : Table, Run (step sqlTime) (Ordinary sqlTime) [] auditHistory t ∧
      (listArchivedForKey t "editor").map Entry.value = ["emacs", "vim"] ∧
      ListsExactly sqlTime auditHistory t "editor" := by
  obtain ⟨t, unmarked, there⟩ : ∃ t,
      Run (step sqlTime) (fun _ op => op.UnmarkedKey) [] auditHistory t ∧
      (listArchivedForKey t "editor").map Entry.value = ["emacs", "vim"] :=
    exists_run (by decide +kernel)
  have history : Run (step sqlTime) (Ordinary sqlTime) [] auditHistory t :=
    unmarked.imp fun _ _ unmarked => unmarked.ordinary
  have told : ∀ {new id now}, Op.remember new id now ∈ auditHistory →
      new.key = "editor" ∨ new.key = "shell" := by
    intro new id now mem
    simp only [auditHistory, mem_cons, Op.remember.injEq, reduceCtorEq, not_mem_nil,
      or_false] at mem
    rcases mem with ⟨rfl, -⟩ | ⟨rfl, -⟩ | ⟨rfl, -⟩
    · exact .inl rfl
    · exact .inr rfl
    · exact .inl rfl
  refine ⟨t, history, there, (listsExactly_iff_none_caught
    stamps_sqlTime.unmarked history (not_mangled_of_unmarked (by decide))).mpr ?_⟩
  intro row _ _ held isHeld other
  obtain ⟨new, id, now, mem, rfl⟩ := isHeld.told
  rcases told mem with isEditor | isShell
  · exact absurd isEditor other
  · rw [isShell]
    exact not_caught_of_unmarked (by decide) (by decide)

def lapsedNote (key : String) : List Op :=
  [.remember ⟨key, "vim", .project, .userTold, none⟩ "a" ⟨1, 1, 1⟩, .forget key 2]

/-- **Rows of other keys are listed**: of one the pattern matches, one that differs in case, and one
that goes on after an `@`. -/
theorem other_keys_listed :
    (∃ t row, Run (step sqlTime) anyStep [] (lapsedNote "my-notes") t ∧
      row ∈ listArchivedForKey t "my_notes" ∧
      ¬ HeldKey sqlTime (lapsedNote "my-notes") row.id "my_notes") ∧
    (∃ t row, Run (step sqlTime) anyStep [] (lapsedNote "editor") t ∧
      row ∈ listArchivedForKey t "Editor" ∧
      ¬ HeldKey sqlTime (lapsedNote "editor") row.id "Editor") ∧
    ∃ t row, Run (step sqlTime) anyStep [] (lapsedNote "mail@home") t ∧
      row ∈ listArchivedForKey t "mail" ∧
      ¬ HeldKey sqlTime (lapsedNote "mail@home") row.id "mail" := by
  have listed : ∀ {key other : String}, other ≠ key →
      (checkedExec (step sqlTime) anyStep [] (lapsedNote other)).any
        (listArchivedForKey · key ≠ []) = true →
      ∃ t row, Run (step sqlTime) anyStep [] (lapsedNote other) t ∧
        row ∈ listArchivedForKey t key ∧ ¬ HeldKey sqlTime (lapsedNote other) row.id key := by
    intro key other differs computed
    obtain ⟨t, ran, listed⟩ := exists_run computed
    obtain ⟨row, mem⟩ := exists_mem_of_ne_nil _ listed
    refine ⟨t, row, ran, mem, fun held => ?_⟩
    -- the only key that was told is the other one
    obtain ⟨new, id, now, told, rfl⟩ := held.told
    simp only [lapsedNote, mem_cons, Op.remember.injEq, reduceCtorEq, not_mem_nil,
      or_false] at told
    exact differs (by rw [told.1])
  exact ⟨listed (by decide) (by decide +kernel), listed (by decide) (by decide +kernel),
    listed (by decide) (by decide +kernel)⟩

end Havn.Db.Memory
