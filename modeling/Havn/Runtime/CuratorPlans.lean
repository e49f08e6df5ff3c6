import Havn.Runtime.CuratorLaws

/-!
# What an applied consolidation leaves

An entry of a plan is reported as applied when its umbrella was written.  What it left can be undone
by a later entry, or was never there: upserting does not bring back an archived row.  `Clear` says
that neither happens, and where no operation fails it is exactly what makes every reported entry
`Done` at the end of the pass.
-/

namespace Havn.Runtime.Curator

open Lib Db Db.SkillsIndex Skills List

def Gone (index : Index) (name : String) : Prop :=
  ∃ row, index.find name = some row ∧ row.active = false

/-- The umbrella is active and has the plan's body, and its sources are archived. -/
structure Done (index : Index) (c : Consolidation) : Prop where
  umbrella : ∃ row, index.find c.into = some row ∧ row.active = true ∧ row.body = c.umbrellaBody
  sources : ∀ source ∈ c.sources, Gone index source

/-- No umbrella of the entries has the name of an archived row, or one that carrying them out
archives, and those of one name have one body. -/
structure Clear (index : Index) (known : List String) (plan : Plan)
    (entries : List Consolidation) : Prop where
  active : ∀ c ∈ entries, ¬ Gone index c.into
  kept : ∀ c ∈ entries, ¬ plan.Archives known entries c.into
  agree : ∀ c ∈ entries, ∀ c' ∈ entries, c.into = c'.into → c.umbrellaBody = c'.umbrellaBody

variable {host : Host} {index index' : Index} {known : List String} {plan : Plan}
  {entries : List Consolidation} {c : Consolidation} {world world' : World}

theorem Clear.mono {entries' : List Consolidation} (clear : Clear index known plan entries)
    (fewer : entries' ⊆ entries) : Clear index known plan entries' where
  active c mem := clear.active c (fewer mem)
  kept c mem archives := clear.kept c (fewer mem) (archives.mono fewer)
  agree c mem c' mem' := clear.agree c (fewer mem) c' (fewer mem')

theorem Edits.gone {given : String → Prop} {written : Consolidation → Prop}
    (edits : Edits given written index index') {name : String} (gone : Gone index name) :
    Gone index' name := by
  obtain ⟨row, found, archived⟩ := gone
  obtain ⟨row', found', stays⟩ := edits.found found
  exact ⟨row', found', stays archived⟩

theorem gone_archive (now : ℤ) {name : String} {row : SkillRow}
    (found : index.find name = some row) : Gone (archive now name index).2 name := by
  rw [Gone, find_archive, found, Option.map_some]
  refine ⟨_, rfl, ?_⟩
  split
  · rfl
  · rename_i stays
    simpa [(Table.find_eq_some.mp found).2] using stays

/-! ## The umbrellas -/

/-- Every umbrella has a row, with the body of an entry of its name. -/
def Stands (entries : List Consolidation) (index : Index) : Prop :=
  ∀ c ∈ entries, ∃ row, index.find c.into = some row ∧
    ∃ c' ∈ entries, c'.into = c.into ∧ row.body = c'.umbrellaBody

theorem stands_nil (index : Index) : Stands [] index := forall_mem_nil _

theorem Stands.archive (now : ℤ) (name : String) (stands : Stands entries index) :
    Stands entries (archive now name index).2 := by
  intro c mem
  obtain ⟨row, found, c', mem', named, body⟩ := stands c mem
  rw [find_archive, found, Option.map_some]
  refine ⟨_, rfl, c', mem', named, ?_⟩
  split
  · exact body
  · exact body

theorem Stands.upsert (now : ℤ) (id : String) (stands : Stands entries index) :
    Stands (entries ++ [c])
      (upsertText now id c.into c.umbrellaDescription c.umbrellaBody index) := by
  have isNew : c ∈ entries ++ [c] := mem_append_right _ mem_cons_self
  intro d mem
  rw [find_upsertText]
  split
  · rename_i same
    refine ⟨_, rfl, c, isNew, same.symm, ?_⟩
    cases index.find c.into <;> rfl
  · rename_i other
    rcases mem_append.mp mem with mem | mem
    · obtain ⟨row, found, c', mem', named, body⟩ := stands d mem
      exact ⟨row, found, c', mem_append_left _ mem', named, body⟩
    · rw [mem_singleton.mp mem] at other
      exact absurd rfl other

theorem carries_stands : Carries host known plan fun entries world =>
    Stands entries world.index where
  archives {_ name world} _ _ stands := by
    unfold archiveSkill
    split
    · rename_i ran
      rcases Host.statement_cases ran with ⟨text, -, -, rfl⟩ | ⟨-, failed, -⟩
      · exact stands
      · cases failed
    · rename_i ran
      rw [index_moveAway]
      rcases Host.statement_cases ran with ⟨text, -, -, rfl⟩ | ⟨-, -, rfl⟩
      · exact stands
      · exact stands.archive _ name
  fails _ ran stands := by
    rw [index_writeUmbrella_error ran]
    exact stands
  writes _ ran stands := by
    obtain ⟨now, id, wrote⟩ := exists_upsert_of_writeUmbrella ran
    rw [wrote]
    exact stands.upsert now id

theorem Done.of_clear (clear : Clear index known plan entries)
    (edits : Edits (plan.Archives known entries) (· ∈ entries) index index')
    (stands : Stands entries index') (gone : ∀ source ∈ c.sources, Gone index' source)
    (mem : c ∈ entries) : Done index' c := by
  refine ⟨?_, gone⟩
  obtain ⟨row, found, c', mem', named, body⟩ := stands c mem
  refine ⟨row, found, ?_, body.trans (clear.agree c' mem' c mem named)⟩
  by_contra inactive
  have archived : row.active = false := by simpa using inactive
  rcases edits.archived_was_given found archived with ⟨before, old, same⟩ | archives
  · refine clear.active c mem ⟨before, old, ?_⟩
    rwa [SkillRow.active, same]
  · exact clear.kept c mem archives

/-! ## The sources and the pruned skills -/

theorem forEach_pruning_consolidations (prunings : List Pruning) (report : CuratorReport)
    (world : World) : (forEach (applyPruning host known) prunings report world).1.consolidations =
      report.consolidations := by
  refine forEach_keeps (fun report' _ => report'.consolidations = report.consolidations) prunings
    report world (fun p _ report' world same => ?_) rfl
  rw [← same]
  unfold applyPruning
  split
  · rfl
  · split
    · rfl
    · rfl

section Calm

variable (calm : ∀ n, host.fault n = none)

include calm

theorem gone_archiveSkill {name : String} (present : ∃ row, world.index.find name = some row) :
    Gone (archiveSkill host name world).2.index name := by
  obtain ⟨row, found⟩ := present
  rcases index_archiveSkill name world with ⟨-, faulty⟩ | ⟨now, archived⟩
  · exact absurd (calm world.ops) faulty
  · rw [archived]
    exact gone_archive now found

/-- The known names have rows, and those of `due` are archived. -/
structure Retires (known : List String) (due : String → Prop) (index : Index) : Prop where
  present : ∀ name ∈ known, ∃ row, index.find name = some row
  gone : ∀ name, due name → Gone index name

omit calm in
theorem Retires.edits {due given : String → Prop} {written : Consolidation → Prop}
    (retires : Retires known due index) (edits : Edits given written index index') :
    Retires known due index' := by
  refine ⟨fun name mem => ?_, fun name isDue => edits.gone (retires.gone name isDue)⟩
  obtain ⟨row, found⟩ := retires.present name mem
  obtain ⟨row', found', -⟩ := edits.found found
  exact ⟨row', found'⟩

theorem Retires.archiveSkill {due : String → Prop} {name : String} (isKnown : name ∈ known)
    (retires : Retires known due world.index) :
    Retires known (fun k => due k ∨ k = name) (archiveSkill host name world).2.index := by
  have edits : Edits (name = ·) (fun _ => False) world.index
    (Curator.archiveSkill host name world).2.index := archiveSkill_edits rfl world
  have kept := retires.edits edits
  refine ⟨kept.present, ?_⟩
  rintro k (isDue | rfl)
  · exact kept.gone k isDue
  · exact gone_archiveSkill calm (retires.present k isKnown)

theorem Retires.archiveSources : ∀ (sources : List String) (due : String → Prop)
    (report : CuratorReport) (world : World), (∀ source ∈ sources, source ∈ known) →
      Retires known due world.index → Retires known (fun k => due k ∨ k ∈ sources)
        (archiveSources host sources report world).2.index := by
  intro sources
  induction sources with
  | nil =>
    intro due report world _ retires
    exact ⟨retires.present, fun k isDue => retires.gone k (isDue.resolve_right not_mem_nil)⟩
  | cons source sources ih =>
    intro due report world isKnown retires
    have first := retires.archiveSkill calm (isKnown source mem_cons_self)
    have rest := fun report => ih _ report _ (fun k mem => isKnown k (mem_cons_of_mem _ mem)) first
    have all : ∀ report, Retires known (fun k => due k ∨ k ∈ source :: sources)
        (Curator.archiveSources host sources report
          (Curator.archiveSkill host source world).2).2.index := by
      intro report
      refine ⟨(rest report).present, fun k isDue => (rest report).gone k ?_⟩
      rwa [or_assoc, ← mem_cons]
    unfold Curator.archiveSources
    split
    · rename_i ran
      rw [ran] at all
      exact all _
    · rename_i ran
      rw [ran] at all
      exact all _

theorem Retires.applyConsolidation {report : CuratorReport} (c : Consolidation)
    (retires : Retires known (fun k => ∃ c ∈ report.consolidations, k ∈ c.sources) world.index) :
    Retires known (fun k => ∃ c' ∈ (applyConsolidation host known c report world).1.consolidations,
      k ∈ c'.sources) (applyConsolidation host known c report world).2.index := by
  unfold Curator.applyConsolidation
  split
  · exact retires
  rename_i accepted
  split
  · rename_i ran
    rw [index_writeUmbrella_error ran]
    exact retires
  · rename_i written ran
    have upserted : Retires known (fun k => ∃ c ∈ report.consolidations, k ∈ c.sources)
        written.index := by
      obtain ⟨now, id, wrote⟩ := exists_upsert_of_writeUmbrella ran
      rw [wrote]
      have edits : Edits (fun _ => False) (c = ·) world.index (upsertText now id c.into
        c.umbrellaDescription c.umbrellaBody world.index) := (Edits.refl _).umbrella now id rfl
      exact retires.edits edits
    have archived := Retires.archiveSources calm c.sources _ report written
      (known_of_refusal_eq_none accepted) upserted
    refine ⟨archived.present, ?_⟩
    rintro k ⟨c', mem, source⟩
    refine archived.gone k ?_
    have mem' : c' ∈ report.consolidations ++ [c] := by
      rwa [← archiveSources_consolidations c.sources report written]
    rcases mem_append.mp mem' with earlier | isNew
    · exact .inl ⟨c', earlier, source⟩
    · rw [← mem_singleton.mp isNew]
      exact .inr source

theorem Retires.forEach_consolidation {report : CuratorReport} (planned : List Consolidation)
    (retires : Retires known (fun k => ∃ c ∈ report.consolidations, k ∈ c.sources) world.index) :
    Retires known (fun k => ∃ c ∈ (forEach (Curator.applyConsolidation host known) planned report
        world).1.consolidations, k ∈ c.sources)
      (forEach (Curator.applyConsolidation host known) planned report world).2.index :=
  forEach_keeps (fun report world => Retires known
    (fun k => ∃ c ∈ report.consolidations, k ∈ c.sources) world.index) planned report world
    (fun c _ _ _ => Retires.applyConsolidation calm c) retires

theorem Retires.forEach_pruning : ∀ (prunings : List Pruning) (due : String → Prop)
    (report : CuratorReport) (world : World), Retires known due world.index →
      Retires known (fun k => due k ∨ (k ∈ known ∧ ∃ p ∈ prunings, p.skill = k))
        (forEach (applyPruning host known) prunings report world).2.index := by
  intro prunings
  induction prunings with
  | nil =>
    intro due report world retires
    refine ⟨retires.present, fun k isDue => retires.gone k (isDue.resolve_right ?_)⟩
    rintro ⟨-, p, mem, -⟩
    exact absurd mem not_mem_nil
  | cons p prunings ih =>
    intro due report world retires
    have first : Retires known (fun k => due k ∨ (k ∈ known ∧ k = p.skill))
        (applyPruning host known p report world).2.index := by
      unfold applyPruning
      split
      · rename_i unknown
        refine ⟨retires.present, fun k isDue => retires.gone k (isDue.resolve_right ?_)⟩
        rintro ⟨isKnown, rfl⟩
        exact unknown isKnown
      · rename_i isKnown
        have archived := retires.archiveSkill calm (not_not.mp isKnown)
        have weaker : Retires known (fun k => due k ∨ (k ∈ known ∧ k = p.skill))
            (Curator.archiveSkill host p.skill world).2.index :=
          ⟨archived.present, fun k isDue => archived.gone k (isDue.imp id And.right)⟩
        split
        · rename_i ran
          rw [ran] at weaker
          exact weaker
        · rename_i ran
          rw [ran] at weaker
          exact weaker
    have rest := ih _ (applyPruning host known p report world).1 _ first
    refine ⟨rest.present, fun k isDue => rest.gone k ?_⟩
    rcases isDue with isDue | ⟨isKnown, p', mem, named⟩
    · exact .inl (.inl isDue)
    · rcases mem_cons.mp mem with rfl | mem
      · exact .inl (.inr ⟨isKnown, named.symm⟩)
      · exact .inr ⟨isKnown, p', mem, named⟩

/-- **What carrying out a plan archives**, where nothing fails: all that it is to. -/
theorem Retires.applyConsolidations (plan : Plan) {survivors : List CuratableSkill}
    {report : CuratorReport}
    (blank : report.consolidations = [])
    (present : ∀ name ∈ survivors.map (·.name), ∃ row, world.index.find name = some row) :
    Retires (survivors.map (·.name)) (plan.Archives (survivors.map (·.name))
        (applyConsolidations host survivors plan report world).1.consolidations)
      (applyConsolidations host survivors plan report world).2.index := by
  have begun : Retires (survivors.map (·.name))
      (fun k => ∃ c ∈ report.consolidations, k ∈ c.sources) world.index := by
    refine ⟨present, ?_⟩
    rintro k ⟨c, mem, -⟩
    rw [blank] at mem
    exact absurd mem not_mem_nil
  have merged := Retires.forEach_consolidation calm plan.consolidations begun
  have pruned := Retires.forEach_pruning calm plan.prunings _ (forEach (Curator.applyConsolidation
    host (survivors.map (·.name))) plan.consolidations report world).1 _ merged
  unfold Curator.applyConsolidations
  unfold Plan.Archives
  rw [forEach_pruning_consolidations]
  exact pruned

end Calm

/-! ## The pass -/

/-- A pass that reports an entry as applied went by a plan, from an index where the names it knows
have rows. -/
theorem runPass_applied {bridge : Bridge} {report : CuratorReport}
    (ran : runPass bridge world = (.ok report, world')) :
    report.consolidations = [] ∨ ∃ survivors plan begun opening after,
      planned bridge world = some (survivors.map (·.name), plan, begun) ∧
        opening.consolidations = [] ∧
        (∀ name ∈ survivors.map (·.name), ∃ row, begun.index.find name = some row) ∧
        applyConsolidations bridge.host survivors plan opening begun = (report, after) ∧
        world'.index = after.index := by
  unfold runPass at ran
  split at ran
  · cases ran
  rename_i now opening survivors world₁ ruled
  split at ran
  rename_i final world₂ merged
  split at ran
  rename_i outcome world₃ wrote
  obtain ⟨rfl, rfl⟩ : final = report ∧ world₃ = world' := by simpa using ran
  obtain ⟨first, survived, blank⟩ := rulePhase_edits ruled (fun _ => False)
  have reported := index_writeReport bridge.host final world₂
  rw [wrote] at reported
  unfold consolidate at merged
  split at merged
  · cases merged
    exact .inl blank
  rename_i several
  split at merged
  · rename_i plan begun asked
    have isPlanned : planned bridge world = some (survivors.map (·.name), plan, begun) := by
      simp only [planned, ruled, if_neg several, asked]
    obtain ⟨-, rfl⟩ := Prod.mk.inj asked
    refine .inr ⟨survivors, plan, _, opening, world₂, isPlanned, blank, ?_, merged, reported⟩
    intro name mem
    obtain ⟨skill, survivor, rfl⟩ := mem_map.mp mem
    obtain ⟨row, stored, -, named⟩ := survived skill survivor
    obtain ⟨row', found, -⟩ := first.found (Table.find_key stored)
    exact ⟨row', named ▸ found⟩
  · cases merged
    exact .inl blank

theorem applied_done_iff (calm : ∀ n, host.fault n = none) {survivors : List CuratableSkill}
    {opening report : CuratorReport} (blank : opening.consolidations = [])
    (present : ∀ name ∈ survivors.map (·.name), ∃ row, world.index.find name = some row)
    (ran : applyConsolidations host survivors plan opening world = (report, world')) :
    (∀ c ∈ report.consolidations, Done world'.index c) ↔
      Clear world.index (survivors.map (·.name)) plan report.consolidations := by
  have edited : Carries host (survivors.map (·.name)) plan fun entries after =>
      Edits (plan.Archives (survivors.map (·.name)) entries) (· ∈ entries) world.index
        after.index :=
    carries_edits world.index (fun _ _ _ => Plan.Archives.mono (subset_append_left _ _))
      fun _ _ _ due => due
  have edits := (edited.applyConsolidations blank (.refl world.index)).2
  have stands := (carries_stands.applyConsolidations blank (stands_nil world.index) :
    Carries.Holds host (survivors.map (·.name)) plan _
      (applyConsolidations host survivors plan opening world).1 _).2
  have retires := Retires.applyConsolidations calm plan blank present
  rw [ran] at edits stands retires
  constructor
  · intro done
    have notGone : ∀ c ∈ report.consolidations, ¬ Gone world'.index c.into := by
      rintro c mem ⟨row, found, archived⟩
      obtain ⟨row', found', active, -⟩ := (done c mem).umbrella
      cases found.symm.trans found'
      rw [archived] at active
      cases active
    refine ⟨fun c mem gone => notGone c mem (edits.gone gone),
      fun c mem archives => notGone c mem (retires.gone _ archives), ?_⟩
    intro c mem c' mem' same
    obtain ⟨row, found, -, body⟩ := (done c mem).umbrella
    obtain ⟨row', found', -, body'⟩ := (done c' mem').umbrella
    rw [same] at found
    cases found.symm.trans found'
    exact body.symm.trans body'
  · exact fun clear c mem => Done.of_clear clear edits stands
      (fun source isSource => retires.gone source (.inl ⟨c, mem, isSource⟩)) mem

end Havn.Runtime.Curator
