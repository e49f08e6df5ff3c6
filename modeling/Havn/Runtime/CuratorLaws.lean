import Havn.Runtime.Curator

/-!
# What a curator pass does to the index

A pass archives skills that were curatable when it began and upserts the texts of umbrellas.
`Edits` is that relation, and every pass is within it, whatever the model answers (`runPass_edits`).
-/

namespace Havn.Runtime.Curator

open Lib Db Db.SkillsIndex Skills List

/-! ## The statements of a pass -/

/-- By archiving names that are `given` and upserting umbrellas that are `written`. -/
inductive Edits (given : String → Prop) (written : Consolidation → Prop) :
    Index → Index → Prop
  | refl (index : Index) : Edits given written index index
  | archived {index index' : Index} (edits : Edits given written index index') (now : ℤ)
      {name : String} (isGiven : given name) :
      Edits given written index (archive now name index').2
  | umbrella {index index' : Index} (edits : Edits given written index index') (now : ℤ)
      (id : String) {c : Consolidation} (isWritten : written c) :
      Edits given written index
        (upsertText now id c.into c.umbrellaDescription c.umbrellaBody index')

variable {row : SkillRow}

namespace Edits

variable {given given' : String → Prop} {written written' : Consolidation → Prop}
  {index index' index'' : Index}

theorem trans (first : Edits given written index index')
    (second : Edits given written index' index'') : Edits given written index index'' := by
  induction second with
  | refl => exact first
  | archived _ now isGiven ih => exact ih.archived now isGiven
  | umbrella _ now id isWritten ih => exact ih.umbrella now id isWritten

section

variable (edits : Edits given written index index')

include edits

theorem mono (names : ∀ name, given name → given' name) (umbrellas : ∀ c, written c → written' c) :
    Edits given' written' index index' := by
  induction edits with
  | refl => exact .refl _
  | archived _ now isGiven ih => exact ih.archived now (names _ isGiven)
  | umbrella _ now id isWritten ih => exact ih.umbrella now id (umbrellas _ isWritten)

/-- A row that may not be archived keeps all but its text, and that too unless an umbrella took its
name. -/
theorem keeps {k : String} (outside : ¬ given k) (found : index.find k = some row) :
    index'.find k = some row ∨ ∃ c, written c ∧ c.into = k ∧
      index'.find k = some { row with
        description := c.umbrellaDescription, body := c.umbrellaBody } := by
  induction edits with
  | refl => exact .inl found
  | archived _ now isGiven ih =>
    rename_i name
    have other : k ≠ name := by
      rintro rfl
      exact outside isGiven
    rw [find_archive_of_ne now other]
    exact ih
  | umbrella _ now id isWritten ih =>
    rename_i c'
    by_cases same : k = c'.into
    · refine .inr ⟨c', isWritten, same.symm, ?_⟩
      rw [find_upsertText, if_pos same, ← same]
      rcases ih with kept | ⟨c, -, -, changed⟩
      · rw [kept]
        rfl
      · rw [changed]
        rfl
    · rw [find_upsertText, if_neg same]
      exact ih

theorem archived_was_given {k : String}
    {row' : SkillRow} (found : index'.find k = some row') (gone : row'.active = false) :
    (∃ row, index.find k = some row ∧ row.archivedAt = row'.archivedAt) ∨ given k := by
  induction edits generalizing row' with
  | refl => exact .inl ⟨row', found, rfl⟩
  | archived _ now isGiven ih =>
    rename_i name
    rw [find_archive, Option.map_eq_some_iff] at found
    obtain ⟨old, found, rfl⟩ := found
    by_cases flipped : (old.name = name && old.active) = true
    · refine .inr ?_
      have named : old.name = k := (Table.find_eq_some.mp found).2
      rw [Bool.and_eq_true, decide_eq_true_eq, named] at flipped
      rw [flipped.1]
      exact isGiven
    · rw [if_neg flipped] at gone ⊢
      exact ih found gone
  | umbrella _ now id isWritten ih =>
    rename_i c'
    rw [find_upsertText] at found
    split at found
    · rename_i same
      cases old : Table.find _ c'.into with
      | none =>
        rw [old] at found
        cases found
        cases gone
      | some =>
        rw [old] at found
        cases found
        rw [← same] at old
        have before := ih old gone
        exact before
    · exact ih found gone

theorem found {k : String} (found : index.find k = some row) :
    ∃ row', index'.find k = some row' ∧ (row.active = false → row'.active = false) := by
  induction edits with
  | refl => exact ⟨row, found, id⟩
  | archived _ now isGiven ih =>
    obtain ⟨row', found', gone⟩ := ih
    rw [find_archive, found', Option.map_some]
    refine ⟨_, rfl, fun archived => ?_⟩
    split
    · rfl
    · exact gone archived
  | umbrella _ now id isWritten ih =>
    obtain ⟨row', found', gone⟩ := ih
    rw [find_upsertText]
    split
    · rename_i same
      rw [← same, found']
      exact ⟨_, rfl, gone⟩
    · exact ⟨row', found', gone⟩

end

end Edits

variable {survivors : List CuratableSkill} {world world' : World} {known : List String}

section Steps

variable {host : Host} {given : String → Prop} {written : Consolidation → Prop}

theorem index_moveAway (name : String) (world : World) :
    (moveAway host name world).2.index = world.index := by
  unfold moveAway
  split
  rename_i looked
  have kept := Host.index_of_io looked
  split
  · exact kept
  · split
    · rename_i made
      exact (Host.index_of_io made).trans kept
    · rename_i made
      split
      rename_i read
      obtain ⟨-, rfl⟩ := Prod.mk.inj read
      have ready := (Host.index_of_io made).trans kept
      split
      · rename_i moved
        exact (Host.index_of_io moved).trans ready
      · rename_i moved
        exact (Host.index_of_io moved).trans ready

/-- An archiving writes the row, unless the database has a fault. -/
theorem index_archiveSkill (name : String) (world : World) :
    (archiveSkill host name world).2.index = world.index ∧ host.fault world.ops ≠ none ∨
      ∃ now, (archiveSkill host name world).2.index = (archive now name world.index).2 := by
  unfold archiveSkill
  split
  · rename_i ran
    rcases Host.statement_cases ran with ⟨text, faulty, -, rfl⟩ | ⟨-, failed, -⟩
    · exact .inl ⟨rfl, by rw [faulty]; exact Option.some_ne_none text⟩
    · cases failed
  · rename_i ran
    rw [index_moveAway]
    rcases Host.statement_cases ran with ⟨text, -, failed, -⟩ | ⟨-, -, rfl⟩
    · cases failed
    · exact .inr ⟨_, rfl⟩

theorem archiveSkill_edits {name : String} (isGiven : given name) (world : World) :
    Edits given written world.index (archiveSkill host name world).2.index := by
  rcases index_archiveSkill name world with ⟨same, -⟩ | ⟨now, archived⟩
  · rw [same]
    exact .refl _
  · rw [archived]
    exact (Edits.refl world.index).archived _ isGiven

theorem agePhase_keeps (keeps : World → Prop) (cutoff : ℤ) : ∀ (skills : List CuratableSkill)
    (report : CuratorReport) (world : World), (∀ skill ∈ skills, ages cutoff skill = true →
      ∀ world, keeps world → keeps (archiveSkill host skill.name world).2) →
        keeps world → keeps (agePhase host cutoff skills report world).2.2 := by
  intro skills
  induction skills with
  | nil => exact fun report world _ start => start
  | cons skill skills ih =>
    intro report world each start
    have rest := fun skill mem => each skill (mem_cons_of_mem _ mem)
    unfold agePhase
    split
    · rename_i old
      have first := each skill mem_cons_self old world start
      split
      · rename_i ran
        rw [ran] at first
        exact ih _ _ rest first
      · rename_i ran
        rw [ran] at first
        exact ih _ _ rest first
    · exact ih report world rest start

variable (host written) in
theorem agePhase_edits (cutoff : ℤ) (skills : List CuratableSkill) (report : CuratorReport)
    (world : World) (selected : ∀ skill ∈ skills, ages cutoff skill = true → given skill.name) :
    Edits given written world.index (agePhase host cutoff skills report world).2.2.index :=
  agePhase_keeps (Edits given written world.index ·.index) cutoff skills report world
    (fun skill mem old world' edits => edits.trans
      (archiveSkill_edits (selected skill mem old) world')) (.refl world.index)

theorem writeUmbrella_cases {c : Consolidation} {result : Except String Unit}
    (ran : writeUmbrella host c world = (result, world')) :
    ((∃ e, result = .error e) ∧ world'.index = world.index) ∨
      (result = .ok () ∧ ∃ now id, world'.index =
        upsertText now id c.into c.umbrellaDescription c.umbrellaBody world.index) := by
  unfold writeUmbrella at ran
  split at ran
  rename_i looked
  have kept := Host.index_of_io looked
  split at ran
  · cases ran
    exact .inl ⟨⟨_, rfl⟩, kept⟩
  · split at ran
    · rename_i made
      cases ran
      exact .inl ⟨⟨_, rfl⟩, (Host.index_of_io made).trans kept⟩
    · rename_i made
      split at ran
      · rename_i wrote
        cases ran
        exact .inl ⟨⟨_, rfl⟩,
          (Host.index_of_io wrote).trans ((Host.index_of_io made).trans kept)⟩
      · rename_i wrote
        have ready := (Host.index_of_io wrote).trans ((Host.index_of_io made).trans kept)
        split at ran
        rename_i drawn
        obtain ⟨-, rfl⟩ := Prod.mk.inj drawn
        split at ran
        · rename_i stated
          rcases Host.statement_cases stated with ⟨text, -, -, rfl⟩ | ⟨-, failed, -⟩
          · cases ran
            exact .inl ⟨⟨_, rfl⟩, ready⟩
          · cases failed
        · rename_i stated
          rcases Host.statement_cases stated with ⟨text, -, failed, -⟩ | ⟨-, -, rfl⟩
          · cases failed
          · cases ran
            rw [← ready]
            exact .inr ⟨rfl, _, _, rfl⟩

theorem archiveSources_keeps (keeps : World → Prop) (sources : List String) :
    ∀ (report : CuratorReport) (world : World), (∀ source ∈ sources, ∀ world, keeps world →
      keeps (archiveSkill host source world).2) →
        keeps world → keeps (archiveSources host sources report world).2 := by
  induction sources with
  | nil => exact fun report world _ start => start
  | cons source sources ih =>
    intro report world each start
    have first := each source mem_cons_self world start
    have rest := fun source mem => each source (mem_cons_of_mem _ mem)
    unfold archiveSources
    split
    · rename_i ran
      rw [ran] at first
      exact ih _ _ rest first
    · rename_i ran
      rw [ran] at first
      exact ih _ _ rest first

theorem archiveSources_consolidations (sources : List String) :
    ∀ (report : CuratorReport) (world : World),
      (archiveSources host sources report world).1.consolidations = report.consolidations := by
  induction sources with
  | nil => exact fun report world => rfl
  | cons source sources ih =>
    intro report world
    unfold archiveSources
    split
    · exact ih _ _
    · exact ih _ _

/-! ## The second phase -/

theorem forEach_keeps {α : Type} {act : α → CuratorReport → World → CuratorReport × World}
    (keeps : CuratorReport → World → Prop) : ∀ (items : List α) (report : CuratorReport)
      (world : World), (∀ item ∈ items, ∀ report world, keeps report world →
        keeps (act item report world).1 (act item report world).2) → keeps report world →
          keeps (forEach act items report world).1 (forEach act items report world).2 := by
  intro items
  induction items with
  | nil => exact fun report world _ start => start
  | cons item items ih =>
    intro report world each start
    exact ih _ _ (fun item mem => each item (mem_cons_of_mem _ mem))
      (each item mem_cons_self report world start)

/-- The entries of a plan that pass the checks. -/
def Plan.accepted (plan : Plan) (host : Host) (known : List String) : List Consolidation :=
  plan.consolidations.filter fun c => refusal host known c = none

/-- The names that carrying out a plan archives, when it applies these entries. -/
def Plan.Archives (plan : Plan) (known : List String) (applied : List Consolidation)
    (name : String) : Prop :=
  (∃ c ∈ applied, name ∈ c.sources) ∨ (name ∈ known ∧ ∃ p ∈ plan.prunings, p.skill = name)

theorem Plan.Archives.mono {plan : Plan} {entries entries' : List Consolidation} {name : String}
    (more : entries ⊆ entries') (archives : plan.Archives known entries name) :
    plan.Archives known entries' name := by
  refine archives.imp ?_ id
  rintro ⟨c, mem, source⟩
  exact ⟨c, more mem, source⟩

/-- **What carrying out a plan keeps**, of the applied entries and the world: archiving a name that
is due, and writing an umbrella or failing to. -/
structure Carries (host : Host) (known : List String) (plan : Plan)
    (keeps : List Consolidation → World → Prop) : Prop where
  archives : ∀ {applied : List Consolidation} {name : String} {world : World},
    applied ⊆ plan.accepted host known → plan.Archives known applied name → keeps applied world →
      keeps applied (archiveSkill host name world).2
  fails : ∀ {applied : List Consolidation} {c : Consolidation} {world world' : World} {e : String},
    c ∈ plan.accepted host known → writeUmbrella host c world = (.error e, world') →
      keeps applied world → keeps applied world'
  writes : ∀ {applied : List Consolidation} {c : Consolidation} {world world' : World},
    c ∈ plan.accepted host known → writeUmbrella host c world = (.ok (), world') →
      keeps applied world → keeps (applied ++ [c]) world'

namespace Carries

variable {plan : Plan} {keeps : List Consolidation → World → Prop} {report : CuratorReport}

/-- The entries reported so far are accepted ones, and the invariant holds of them. -/
def Holds (host : Host) (known : List String) (plan : Plan)
    (keeps : List Consolidation → World → Prop) (report : CuratorReport) (world : World) : Prop :=
  report.consolidations ⊆ plan.accepted host known ∧ keeps report.consolidations world

theorem applyConsolidation (carries : Carries host known plan keeps) {c : Consolidation}
    (planned : c ∈ plan.consolidations) (start : Holds host known plan keeps report world) :
    Holds host known plan keeps (applyConsolidation host known c report world).1
      (applyConsolidation host known c report world).2 := by
  obtain ⟨bound, kept⟩ := start
  unfold Curator.applyConsolidation
  split
  · exact ⟨bound, kept⟩
  rename_i accepted
  have isAccepted : c ∈ plan.accepted host known :=
    mem_filter.mpr ⟨planned, decide_eq_true accepted⟩
  split
  · rename_i ran
    exact ⟨bound, carries.fails isAccepted ran kept⟩
  · rename_i world' ran
    have bound' : report.consolidations ++ [c] ⊆ plan.accepted host known :=
      append_subset.mpr ⟨bound, by simpa using isAccepted⟩
    have archived := archiveSources_keeps (keeps (report.consolidations ++ [c])) c.sources report
      world' (fun source mem _ => carries.archives bound' (.inl ⟨c, by simp, mem⟩))
      (carries.writes isAccepted ran kept)
    show _ ++ [c] ⊆ _ ∧ keeps (_ ++ [c]) _
    rw [archiveSources_consolidations]
    exact ⟨bound', archived⟩

theorem applyPruning (carries : Carries host known plan keeps) {p : Pruning}
    (planned : p ∈ plan.prunings) (start : Holds host known plan keeps report world) :
    Holds host known plan keeps (applyPruning host known p report world).1
      (applyPruning host known p report world).2 := by
  obtain ⟨bound, kept⟩ := start
  unfold Curator.applyPruning
  split
  · exact ⟨bound, kept⟩
  · rename_i isKnown
    have archived := carries.archives bound (.inr ⟨not_not.mp isKnown, p, planned, rfl⟩) kept
    split
    · rename_i ran
      rw [ran] at archived
      exact ⟨bound, archived⟩
    · rename_i ran
      rw [ran] at archived
      exact ⟨bound, archived⟩

theorem forEach_consolidation (carries : Carries host known plan keeps)
    (start : Holds host known plan keeps report world) :
    Holds host known plan keeps
      (forEach (Curator.applyConsolidation host known) plan.consolidations report world).1
      (forEach (Curator.applyConsolidation host known) plan.consolidations report world).2 :=
  forEach_keeps (Holds host known plan keeps) _ _ _
    (fun _ mem _ _ => carries.applyConsolidation mem) start

theorem forEach_pruning (carries : Carries host known plan keeps)
    (start : Holds host known plan keeps report world) :
    Holds host known plan keeps
      (forEach (Curator.applyPruning host known) plan.prunings report world).1
      (forEach (Curator.applyPruning host known) plan.prunings report world).2 :=
  forEach_keeps (Holds host known plan keeps) _ _ _
    (fun _ mem _ _ => carries.applyPruning mem) start

/-- **Carrying out a whole plan.** -/
theorem applyConsolidations (carries : Carries host (survivors.map (·.name)) plan keeps)
    (blank : report.consolidations = []) (start : keeps [] world) :
    Holds host (survivors.map (·.name)) plan keeps
      (applyConsolidations host survivors plan report world).1
      (applyConsolidations host survivors plan report world).2 := by
  have begun : Holds host (survivors.map (·.name)) plan keeps report world := by
    rw [Holds, blank]
    exact ⟨nil_subset _, start⟩
  exact carries.forEach_pruning (carries.forEach_consolidation begun)

end Carries

theorem known_of_refusal_eq_none {c : Consolidation} (accepted : refusal host known c = none) :
    ∀ source ∈ c.sources, source ∈ known := by
  intro source mem
  by_contra unknown
  have listed : c.sources.filter (fun source => source ∉ known) ≠ [] :=
    ne_nil_of_mem (mem_filter.mpr ⟨mem, decide_eq_true unknown⟩)
  unfold refusal at accepted
  simp only [listed, ne_eq, not_false_eq_true, if_true] at accepted
  split at accepted
  · cases accepted
  · split at accepted <;> cases accepted

theorem known_of_archives {plan : Plan} {applied : List Consolidation} {name : String}
    (bound : applied ⊆ plan.accepted host known) (archives : plan.Archives known applied name) :
    name ∈ known := by
  rcases archives with ⟨c, mem, source⟩ | ⟨isKnown, -⟩
  · have accepted := of_decide_eq_true (mem_filter.mp (bound mem)).2
    exact known_of_refusal_eq_none accepted name source
  · exact isKnown

end Steps

/-! ## The pass -/

def GivenIn (index : Index) (name : String) : Prop :=
  ∃ row ∈ index.rows, row.curatable = true ∧ row.name = name

theorem index_writeReport (host : Host) (report : CuratorReport) (world : World) :
    (writeReport host report world).2.index = world.index := by
  unfold writeReport
  split
  · rename_i made
    exact Host.index_of_io made
  · rename_i made
    exact (host.index_io _ _).trans (Host.index_of_io made)

theorem agePhase_survivors (host : Host) (cutoff : ℤ) : ∀ (skills : List CuratableSkill)
    (report : CuratorReport) (world : World),
      (agePhase host cutoff skills report world).2.1 ⊆ skills ∧
        (agePhase host cutoff skills report world).1.consolidations = report.consolidations := by
  intro skills
  induction skills with
  | nil => exact fun report world => ⟨List.Subset.refl _, rfl⟩
  | cons skill skills ih =>
    intro report world
    have later : ∀ report world,
        (agePhase host cutoff skills report world).2.1 ⊆ skill :: skills :=
      fun report world survivor mem => mem_cons_of_mem _ ((ih report world).1 mem)
    unfold agePhase
    split
    · split
      · exact ⟨later _ _, (ih _ _).2⟩
      · exact ⟨later _ _, (ih _ _).2⟩
    · exact ⟨cons_subset_cons _ (ih report world).1, (ih report world).2⟩

variable {report : CuratorReport} {bridge : Bridge} {now : ℤ}

theorem rulePhase_eq_ok
    (ran : rulePhase bridge world = (.ok (now, report, survivors), world')) :
    ∃ opening, opening.consolidations = [] ∧
      agePhase bridge.host (now - staleThreshold) (listCuratable passCap world.index) opening
        world.tick.tick.tick = (report, survivors, world') := by
  unfold rulePhase at ran
  split at ran
  rename_i ranAt world₀ read
  obtain ⟨rfl, rfl⟩ := Prod.mk.inj read
  split at ran
  · cases ran
  rename_i candidates world₁ listed
  rcases Host.statement_cases listed with ⟨text, -, failed, -⟩ | ⟨-, found, rfl⟩
  · cases failed
  split at ran
  rename_i now' world₂ read'
  obtain ⟨rfl, rfl⟩ := Prod.mk.inj read'
  split at ran
  rename_i report' survivors' world₃ aged
  obtain ⟨same, rfl⟩ := Prod.mk.inj ran
  cases same
  cases found
  exact ⟨_, rfl, aged⟩

theorem rulePhase_eq_error {e : String} (ran : rulePhase bridge world = (.error e, world')) :
    world' = world.tick.tick := by
  unfold rulePhase at ran
  split at ran
  rename_i read
  obtain ⟨-, rfl⟩ := Prod.mk.inj read
  split at ran
  · rename_i listed
    cases ran
    rcases Host.statement_cases listed with ⟨text, -, -, rfl⟩ | ⟨-, failed, -⟩
    · rfl
    · cases failed
  · cases ran

theorem rulePhase_edits
    (ran : rulePhase bridge world = (.ok (now, report, survivors), world'))
    (written : Consolidation → Prop) :
    Edits (GivenIn world.index) written world.index world'.index ∧
      (∀ skill ∈ survivors, GivenIn world.index skill.name) ∧ report.consolidations = [] := by
  obtain ⟨opening, blank, aged⟩ := rulePhase_eq_ok ran
  have listed : ∀ skill ∈ listCuratable passCap world.index, GivenIn world.index skill.name := by
    intro skill mem
    obtain ⟨row, stored, curatable, rfl⟩ := mem_listCuratable mem
    exact ⟨row, stored, curatable, rfl⟩
  have edits := agePhase_edits bridge.host written (now - staleThreshold)
    (listCuratable passCap world.index) opening world.tick.tick.tick
    fun skill mem _ => listed skill mem
  obtain ⟨survived, unchanged⟩ := agePhase_survivors bridge.host (now - staleThreshold)
    (listCuratable passCap world.index) opening world.tick.tick.tick
  rw [aged] at edits survived unchanged
  exact ⟨edits, fun skill mem => listed skill (survived mem), unchanged.trans blank⟩

/-- The rule of the first phase applies to the skill. -/
def Aged (bridge : Bridge) (world : World) (name : String) : Prop :=
  ∃ now report survivors world', rulePhase bridge world = (.ok (now, report, survivors), world') ∧
    ∃ skill ∈ listCuratable passCap world.index,
      ages (now - staleThreshold) skill = true ∧ skill.name = name

/-- What the second phase goes by, if there is one: the names it knows, the plan, and the world it
begins in. -/
def planned (bridge : Bridge) (world : World) : Option (List String × Plan × World) :=
  match rulePhase bridge world with
  | (.ok (_, _, survivors), world) =>
    if survivors.length < 2 then none
    else
      match runConsolidation bridge survivors world with
      | (.ok plan, world) => some (survivors.map (·.name), plan, world)
      | (.error _, _) => none
  | (.error _, _) => none

/-- The entries that a pass reports as applied. -/
def applied : Except String CuratorReport → List Consolidation
  | .ok report => report.consolidations
  | .error _ => []

/-- **What a pass keeps**: what both its phases keep, the report and the passing of time. -/
structure PassKeeps (bridge : Bridge) (start : World)
    (keeps : List Consolidation → World → Prop) : Prop where
  ages : ∀ {name : String} {world : World}, Aged bridge start name → keeps [] world →
    keeps [] (archiveSkill bridge.host name world).2
  carries : ∀ {known : List String} {plan : Plan} {world : World},
    planned bridge start = some (known, plan, world) → Carries bridge.host known plan keeps
  ticks : ∀ {applied : List Consolidation} {world : World}, keeps applied world →
    keeps applied world.tick
  reports : ∀ {applied : List Consolidation} {world : World} (report : CuratorReport),
    keeps applied world → keeps applied (writeReport bridge.host report world).2

theorem consolidate_keeps {keeps : List Consolidation → World → Prop}
    (rule : PassKeeps bridge world keeps)
    (ruled : rulePhase bridge world = (.ok (now, report, survivors), world'))
    (blank : report.consolidations = []) (start : keeps [] world') :
    keeps (consolidate bridge survivors report world').1.consolidations
        (consolidate bridge survivors report world').2 ∧
      ∀ c ∈ (consolidate bridge survivors report world').1.consolidations, ∃ known plan begun,
        planned bridge world = some (known, plan, begun) ∧ c ∈ plan.accepted bridge.host known := by
  unfold consolidate
  split
  · rw [blank]
    exact ⟨start, forall_mem_nil _⟩
  rename_i several
  split
  · rename_i plan begun asked
    have isPlanned : planned bridge world = some (survivors.map (·.name), plan, begun) := by
      simp only [planned, ruled, if_neg several, asked]
    obtain ⟨-, rfl⟩ := Prod.mk.inj asked
    obtain ⟨bound, kept⟩ := (rule.carries isPlanned).applyConsolidations blank (rule.ticks start)
    exact ⟨kept, fun c mem => ⟨_, _, _, isPlanned, bound mem⟩⟩
  · rename_i asked
    obtain ⟨-, rfl⟩ := Prod.mk.inj asked
    show keeps report.consolidations _ ∧ ∀ c ∈ report.consolidations, _
    rw [blank]
    exact ⟨rule.ticks start, forall_mem_nil _⟩

/-- **The rule for passes**; and what is applied are entries of the plan that pass the checks. -/
theorem runPass_keeps {keeps : List Consolidation → World → Prop}
    {result : Except String CuratorReport} (rule : PassKeeps bridge world keeps)
    (start : keeps [] world) (ran : runPass bridge world = (result, world')) :
    keeps (applied result) world' ∧ ∀ c ∈ applied result, ∃ known plan begun,
      planned bridge world = some (known, plan, begun) ∧ c ∈ plan.accepted bridge.host known := by
  unfold runPass at ran
  split at ran
  · rename_i ruled
    cases ran
    rw [rulePhase_eq_error ruled]
    exact ⟨rule.ticks (rule.ticks start), forall_mem_nil _⟩
  rename_i now opening survivors world₁ ruled
  have blank := (rulePhase_edits ruled fun _ => False).2.2
  have aged : keeps [] world₁ := by
    obtain ⟨first, -, ran⟩ := rulePhase_eq_ok ruled
    have kept := agePhase_keeps (keeps []) (now - staleThreshold)
      (listCuratable passCap world.index) first _
      (fun skill mem old _ =>
        rule.ages ⟨now, opening, survivors, world₁, ruled, skill, mem, old, rfl⟩)
      (rule.ticks (rule.ticks (rule.ticks start)))
    rwa [ran] at kept
  obtain ⟨kept, accepted⟩ := consolidate_keeps rule ruled blank aged
  split at ran
  rename_i final world₂ merged
  split at ran
  rename_i wrote
  obtain ⟨rfl, rfl⟩ := Prod.mk.inj ran
  rw [merged] at kept accepted
  have reported := rule.reports final kept
  rw [wrote] at reported
  exact ⟨reported, accepted⟩

theorem planned_eq_some {known' : List String} {plan : Plan} {begun : World}
    (isPlanned : planned bridge world = some (known', plan, begun)) :
    ∃ now report survivors before, rulePhase bridge world = (.ok (now, report, survivors), before) ∧
      2 ≤ survivors.length ∧ known' = survivors.map (·.name) ∧ begun = before.tick ∧
      planOf bridge (bridge.exchange (consolidationRequest bridge.model (bridge.host.fresh before).1
        (buildConsolidationPrompt survivors))) = .ok plan := by
  unfold planned at isPlanned
  split at isPlanned
  · rename_i now report survivors before ruled
    split at isPlanned
    · cases isPlanned
    · rename_i several
      split at isPlanned
      · rename_i asked
        cases isPlanned
        obtain ⟨same, rfl⟩ := Prod.mk.inj asked
        exact ⟨now, report, survivors, before, ruled, Nat.not_lt.mp several, rfl, rfl, same⟩
      · cases isPlanned
  · cases isPlanned

/-- What a pass may archive, on its inputs: what the rule applies to, and what the plan names in an
entry that passes the checks. -/
def Doomed (bridge : Bridge) (world : World) (name : String) : Prop :=
  Aged bridge world name ∨ ∃ known plan begun,
    planned bridge world = some (known, plan, begun) ∧
      plan.Archives known (plan.accepted bridge.host known) name

theorem givenIn_of_doomed {name : String} (doomed : Doomed bridge world name) :
    GivenIn world.index name := by
  rcases doomed with ⟨-, -, -, -, -, skill, listed, -, rfl⟩ | ⟨known, plan, begun, isPlanned, due⟩
  · obtain ⟨row, stored, curatable, rfl⟩ := mem_listCuratable listed
    exact ⟨row, stored, curatable, rfl⟩
  · obtain ⟨now, report, survivors, before, ruled, -, rfl, -⟩ := planned_eq_some isPlanned
    obtain ⟨skill, survived, rfl⟩ := mem_map.mp (known_of_archives (List.Subset.refl _) due)
    exact (rulePhase_edits ruled fun _ => False).2.1 skill survived

theorem doomed_of_archives {known' : List String} {plan : Plan} {begun : World} {name : String}
    {entries : List Consolidation} (isPlanned : planned bridge world = some (known', plan, begun))
    (bound : entries ⊆ plan.accepted bridge.host known') (due : plan.Archives known' entries name) :
    Doomed bridge world name :=
  .inr ⟨known', plan, begun, isPlanned, due.mono bound⟩

/-! ## Edits as an invariant -/

theorem index_writeUmbrella_error {host : Host} {c : Consolidation} {e : String}
    (ran : writeUmbrella host c world = (.error e, world')) : world'.index = world.index := by
  rcases writeUmbrella_cases ran with ⟨-, kept⟩ | ⟨wrote, -⟩
  · exact kept
  · cases wrote

theorem exists_upsert_of_writeUmbrella {host : Host} {c : Consolidation}
    (ran : writeUmbrella host c world = (.ok (), world')) : ∃ now id, world'.index =
      upsertText now id c.into c.umbrellaDescription c.umbrellaBody world.index := by
  rcases writeUmbrella_cases ran with ⟨⟨e, failed⟩, -⟩ | ⟨-, wrote⟩
  · cases failed
  · exact wrote

theorem carries_edits {host : Host} {plan : Plan} {given : List Consolidation → String → Prop}
    (index : Index) (grows : ∀ entries c name, given entries name → given (entries ++ [c]) name)
    (isGiven : ∀ entries name, entries ⊆ plan.accepted host known →
      plan.Archives known entries name → given entries name) :
    Carries host known plan fun entries world =>
      Edits (given entries) (· ∈ entries) index world.index where
  archives bound due edits := edits.trans (archiveSkill_edits (isGiven _ _ bound due) _)
  fails _ ran edits := by
    rw [index_writeUmbrella_error ran]
    exact edits
  writes _ ran edits := by
    obtain ⟨now, id, wrote⟩ := exists_upsert_of_writeUmbrella ran
    rw [wrote]
    exact (edits.mono (grows _ _) fun _ mem => mem_append_left _ mem).umbrella now id
      (mem_append_right _ mem_cons_self)

/-- **A pass edits the index within bounds**: it archives what is doomed, and upserts the umbrellas
it reports. -/
theorem runPass_edits {result : Except String CuratorReport}
    (ran : runPass bridge world = (result, world')) :
    Edits (Doomed bridge world) (· ∈ applied result) world.index world'.index := by
  have rule : PassKeeps bridge world fun entries w =>
      Edits (Doomed bridge world) (· ∈ entries) world.index w.index :=
    { ages := fun aged edits => edits.trans (archiveSkill_edits (.inl aged) _)
      carries := fun isPlanned => carries_edits world.index (fun _ _ _ given => given)
        fun _ _ bound due => doomed_of_archives isPlanned bound due
      ticks := id
      reports := fun report edits => by
        rw [index_writeReport]
        exact edits }
  exact (runPass_keeps rule (.refl _) ran).1

/-! ## What a pass leaves alone -/

def Protected (row : SkillRow) : Prop :=
  row.pinned = true ∨ row.source = .bundled ∨ row.active = false

theorem not_curatable_of_protected (isProtected : Protected row) : row.curatable = false := by
  unfold SkillRow.curatable
  rcases isProtected with pinned | bundled | archived
  · simp [pinned]
  · simp [bundled]
  · simp [archived]

structure Framed (index index' : Index) : Prop where
  protects : ∀ row ∈ index.rows, Protected row → row ∈ index'.rows
  archives : ∀ row' ∈ index'.rows, row'.active = false → ∃ row ∈ index.rows,
    row.name = row'.name ∧ (row.archivedAt = row'.archivedAt ∨ row.curatable = true)

theorem not_givenIn {index : Index} (mem : row ∈ index.rows)
    (isProtected : Protected row) : ¬ GivenIn index row.name := by
  rintro ⟨other, mem', curatable, named⟩
  obtain rfl := inj_on_of_nodup_map index.unique mem' mem named
  rw [not_curatable_of_protected isProtected] at curatable
  cases curatable

/-- The entry has the text of the row. -/
def SameText (c : Consolidation) (row : SkillRow) : Prop :=
  c.umbrellaDescription = row.description ∧ c.umbrellaBody = row.body

/-- The last entry that was applied under a name. -/
def lastInto (name : String) (entries : List Consolidation) : Option Consolidation :=
  entries.reverse.find? (·.into = name)

theorem lastInto_eq_some {name : String} {entries : List Consolidation} {c : Consolidation}
    (last : lastInto name entries = some c) : c ∈ entries ∧ c.into = name :=
  ⟨mem_reverse.mp (mem_of_find?_eq_some last), by simpa using find?_some last⟩

/-- The row with the text of the last umbrella of its name. -/
def rewritten (entries : List Consolidation) (row : SkillRow) : SkillRow :=
  (lastInto row.name entries).elim row fun c =>
    { row with description := c.umbrellaDescription, body := c.umbrellaBody }

theorem rewritten_concat (entries : List Consolidation) (c : Consolidation) (row : SkillRow) :
    rewritten (entries ++ [c]) row = if c.into = row.name then
      { row with description := c.umbrellaDescription, body := c.umbrellaBody }
    else rewritten entries row := by
  rw [rewritten, lastInto, reverse_append, reverse_singleton, singleton_append, find?_cons]
  split
  · rename_i same
    rw [if_pos (of_decide_eq_true same)]
    rfl
  · rename_i other
    rw [if_neg (of_decide_eq_false other)]
    rfl

theorem rewritten_eq_self_iff {entries : List Consolidation} :
    rewritten entries row = row ↔ ∀ c ∈ lastInto row.name entries, SameText c row := by
  obtain ⟨id, name, description, body⟩ := row
  unfold rewritten SameText
  cases lastInto name entries with
  | none => simp
  | some => simp

/-- The protected rows are those of the start, with the texts of umbrellas. -/
def Rewrites (index : Index) (entries : List Consolidation) (world : World) : Prop :=
  ∀ row ∈ index.rows, Protected row → world.index.find row.name = some (rewritten entries row)

theorem Rewrites.archiving {host : Host} {index : Index} {entries : List Consolidation}
    {name : String} (isGiven : GivenIn index name) (rewrites : Rewrites index entries world) :
    Rewrites index entries (archiveSkill host name world).2 := by
  intro row mem isProtected
  have edits : Edits (name = ·) (fun _ => False) world.index
    (archiveSkill host name world).2.index := archiveSkill_edits rfl world
  have other : name ≠ row.name := by
    rintro rfl
    exact not_givenIn mem isProtected isGiven
  refine (edits.keeps other (rewrites row mem isProtected)).resolve_right ?_
  rintro ⟨_, impossible, -⟩
  exact impossible

theorem Rewrites.writing {host : Host} {index : Index} {entries : List Consolidation}
    {c : Consolidation} (rewrites : Rewrites index entries world)
    (ran : writeUmbrella host c world = (.ok (), world')) :
    Rewrites index (entries ++ [c]) world' := by
  obtain ⟨now, id, wrote⟩ := exists_upsert_of_writeUmbrella ran
  intro row mem isProtected
  have found := rewrites row mem isProtected
  rw [wrote, find_upsertText, rewritten_concat]
  by_cases same : c.into = row.name
  · rw [if_pos same.symm, if_pos same, same, found]
    unfold rewritten
    cases lastInto row.name entries <;> rfl
  · rw [if_neg (Ne.symm same), if_neg same, found]

theorem runPass_rewrites {result : Except String CuratorReport}
    (ran : runPass bridge world = (result, world')) :
    Rewrites world.index (applied result) world' ∧ ∀ c ∈ applied result, ∃ known plan begun,
      planned bridge world = some (known, plan, begun) ∧ c ∈ plan.accepted bridge.host known := by
  have rule : PassKeeps bridge world (Rewrites world.index) :=
    { ages := fun aged => Rewrites.archiving (givenIn_of_doomed (.inl aged))
      carries := fun isPlanned =>
        { archives := fun bound due =>
            Rewrites.archiving (givenIn_of_doomed (doomed_of_archives isPlanned bound due))
          fails := fun _ ran rewrites row mem isProtected => by
            rw [index_writeUmbrella_error ran]
            exact rewrites row mem isProtected
          writes := fun _ ran rewrites => rewrites.writing ran }
      ticks := id
      reports := fun report rewrites row mem isProtected => by
        rw [index_writeReport]
        exact rewrites row mem isProtected }
  exact runPass_keeps rule (fun row mem _ => Table.find_key mem) ran

/-- The last applied entry under the name of a protected row has the row's text. -/
def Harmless (index : Index) (entries : List Consolidation) : Prop :=
  ∀ row ∈ index.rows, Protected row → ∀ c ∈ lastInto row.name entries, SameText c row

/-- No entry of the plan that passes the checks has the name of a protected row, or it has its
text too. -/
def PlanSpares (bridge : Bridge) (world : World) : Prop :=
  ∀ known plan begun, planned bridge world = some (known, plan, begun) →
    ∀ c ∈ plan.accepted bridge.host known, ∀ row ∈ world.index.rows, Protected row →
      c.into = row.name → SameText c row

def calmHost (yaml : String → Except String FrontMatter) (now : ℤ) : Host where
  workspace := ⟨"/w", by decide, by decide⟩
  fault := fun _ => none
  clock := fun _ => now
  newId := fun _ => ""
  yaml := yaml
  embedder := none
  debug := id

def calmBridge (host : Host) (plan : Plan) : Bridge where
  host := host
  model := "claude-sonnet-4-6"
  exchange := fun request => .response
    { requestId := request.requestId
      outcome := .ok
      providerResponse := .object [("content", .array
        [.object [("type", .string "text"), ("text", .string "plan")]])] }
  readPlan := fun _ => .ok plan

def someTime : ℤ := 1700000000000

def someBridge (plan : Plan) : Bridge :=
  calmBridge (calmHost (fun _ => .error "") (someTime * 1000000)) plan

def skillRow (name : String) (useCount : ℤ) (archivedAt : Option ℤ) : SkillRow where
  id := name
  name := name
  description := "Take a note."
  body := "Write it down."
  installedAt := someTime
  useCount := useCount
  archivedAt := archivedAt

def holding (rows : List SkillRow) (unique : (rows.map SkillRow.name).Nodup) : World :=
  ⟨∅, ⟨rows, unique⟩, 0⟩

def library : World :=
  holding [skillRow "note" 0 (some 0), skillRow "draft" 9 none, skillRow "memo" 9 none] (by decide)

def mergeInto (name : String) : Plan where
  consolidations := [
    { into := name
      umbrellaDescription := "Write."
      umbrellaBody := "Write it all down."
      sources := ["draft", "memo"] }]

theorem exists_merged : ∃ report world', runPass (someBridge (mergeInto "writing")) library =
    (.ok report, world') ∧ report.consolidations = (mergeInto "writing").consolidations := by
  have computed : returned (fun report _ =>
      report.consolidations = (mergeInto "writing").consolidations)
      (runPass (someBridge (mergeInto "writing")) library) = true := by decide +kernel
  obtain ⟨report, world', ran, checked⟩ := exists_of_returned computed
  exact ⟨report, world', ran, of_decide_eq_true checked⟩

def overwritten : SkillRow :=
  { skillRow "note" 0 (some 0) with description := "Write.", body := "Write it all down." }

def Idle (now : ℤ) (row : SkillRow) : Prop :=
  row.lastUsedAt.getD row.installedAt * 1000000 ≤ now - staleThreshold
  deriving Decidable

theorem ages_of_archived
    (ran : rulePhase bridge world = (.ok (now, report, survivors), world')) {row row' : SkillRow}
    (stored : row ∈ world.index.rows) (active : row.active = true)
    (found : world'.index.find row.name = some row') (gone : row'.active = false) :
    ages (now - staleThreshold) (.fromRow row) = true := by
  obtain ⟨opening, -, aged⟩ := rulePhase_eq_ok ran
  have edits : Edits (fun name => ∃ skill ∈ listCuratable passCap world.index,
      ages (now - staleThreshold) skill = true ∧ skill.name = name) (fun _ => False) world.index
        (agePhase bridge.host (now - staleThreshold) (listCuratable passCap world.index) opening
          world.tick.tick.tick).2.2.index :=
    agePhase_edits bridge.host _ _ _ opening world.tick.tick.tick
      fun skill mem old => ⟨skill, mem, old, rfl⟩
  rw [aged] at edits
  rcases edits.archived_was_given found gone with
    ⟨old, before, unchanged⟩ | ⟨skill, listed, old, named⟩
  · -- it was active, so it was not archived before
    cases (Table.find_key stored).symm.trans before
    rw [SkillRow.active, ← unchanged] at gone
    rw [SkillRow.active, gone] at active
    cases active
  · obtain ⟨row₀, stored₀, -, rfl⟩ := mem_listCuratable listed
    obtain rfl := inj_on_of_nodup_map world.index.unique stored₀ stored named
    exact old

/-- **When what the rule archives is idle**: exactly when it was used, or was installed long enough
ago. -/
theorem archived_by_rule_idle_iff {bridge : Bridge} {world world' : World} {now : ℤ}
    {report : CuratorReport} {survivors : List CuratableSkill}
    (ran : rulePhase bridge world = (.ok (now, report, survivors), world'))
    {row row' : SkillRow} (stored : row ∈ world.index.rows) (active : row.active = true)
    (found : world'.index.find row.name = some row') (gone : row'.active = false) :
    Idle now row ↔
      (row.lastUsedAt = none → row.installedAt * 1000000 ≤ now - staleThreshold) := by
  have old := (Bool.and_eq_true_iff.mp (ages_of_archived ran stored active found gone)).1
  unfold Idle
  cases used : row.lastUsedAt with
  | none => simp
  | some t =>
    have before : t * 1000000 < now - staleThreshold := by
      simpa [stale, CuratableSkill.fromRow, used] using old
    simpa using before.le

def noteUsed (useCount : ℤ) (lastUsedAt : Option ℤ) : SkillRow :=
  { skillRow "note" useCount none with lastUsedAt := lastUsedAt }

def ruled (idle : Bool) (row : SkillRow) : Bool :=
  returned (fun result world' => (world'.index.find row.name).any (fun row' => !row'.active) &&
    decide (Idle result.1 row) == idle)
    (rulePhase (someBridge {}) (holding [row] (nodup_singleton _)))

theorem exists_of_ruled {idle : Bool} (computed : ruled idle row = true) :
    ∃ now report survivors world' row',
      rulePhase (someBridge {}) (holding [row] (nodup_singleton _)) =
          (.ok (now, report, survivors), world') ∧
        world'.index.find row.name = some row' ∧ row'.active = false ∧
        decide (Idle now row) = idle := by
  obtain ⟨⟨now, report, survivors⟩, world', ran, checked⟩ := exists_of_returned computed
  obtain ⟨archived, isIdle⟩ := Bool.and_eq_true_iff.mp checked
  obtain ⟨row', found, gone⟩ := (Option.any_eq_true _ _).mp archived
  exact ⟨now, report, survivors, world', row', ran, found, by simpa using gone, eq_of_beq isIdle⟩

theorem old_skill_idle : ∃ now report survivors world' row',
    rulePhase (someBridge {}) (holding [noteUsed 1 (some (someTime - 8640000000))]
        (nodup_singleton _)) = (.ok (now, report, survivors), world') ∧
      world'.index.find "note" = some row' ∧ row'.active = false ∧
      Idle now (noteUsed 1 (some (someTime - 8640000000))) := by
  have computed : ruled true (noteUsed 1 (some (someTime - 8640000000))) = true := by
    decide +kernel
  obtain ⟨now, report, survivors, world', row', ran, found, gone, -⟩ := exists_of_ruled computed
  refine ⟨now, report, survivors, world', row', ran, found, gone, ?_⟩
  exact (archived_by_rule_idle_iff ran mem_cons_self rfl found gone).mpr nofun

/-- **A skill is archived as soon as it is installed.** -/
theorem new_skill_archived : ∃ now report survivors world' row',
    rulePhase (someBridge {}) (holding [noteUsed 0 none] (nodup_singleton _)) =
        (.ok (now, report, survivors), world') ∧
      world'.index.find "note" = some row' ∧ row'.active = false ∧
      ¬ Idle now (noteUsed 0 none) := by
  have computed : ruled false (noteUsed 0 none) = true := by decide +kernel
  obtain ⟨now, report, survivors, world', row', ran, found, gone, notIdle⟩ :=
    exists_of_ruled computed
  exact ⟨now, report, survivors, world', row', ran, found, gone, of_decide_eq_false notIdle⟩

end Havn.Runtime.Curator
