import Havn.Lib.Machine
import Havn.Runtime.CuratorLaws

/-!
# Pins during a pass

The candidates of a pass are a snapshot, and `archive` asks only that the row be active.  Here pins
and use bumps of other tasks come between the statements: a pin is heeded if it lands before the
listing.  Undisturbed, the statements are those of the pass (`follows_runPass`).
-/

namespace Havn.Runtime.Curator

open Lib Db Db.SkillsIndex Skills List

/-! ## The pass, statement by statement -/

inductive Stage
  | listing
  | aging (cutoff : ℤ) (skills survivors : List CuratableSkill)
  | asking (survivors : List CuratableSkill)
  | applying (known : List String) (consolidations : List Consolidation) (prunings : List Pruning)
  | absorbing (known sources : List String) (consolidations : List Consolidation)
      (prunings : List Pruning)
  | ended

structure Progress where
  index : Index
  stage : Stage := .listing
  archived : List SkillRow := []

inductive Event
  /-- The pass goes on without a statement. -/
  | next
  | failed
  | listed (now : ℤ)
  | archived (now : ℤ)
  | planned (plan : Plan)
  | wrote (now : ℤ) (id : String)
  | setPinned (name : String) (pinned : Bool)
  | bumpUse (now : ℤ) (ids : List String)

namespace Progress

def goTo (s : Progress) (stage : Stage) : Progress := { s with stage }

def archive (s : Progress) (now : ℤ) (name : String) (stage : Stage) : Progress where
  index := (SkillsIndex.archive now name s.index).2
  stage := stage
  archived := s.archived ++ ((s.index.find name).filter SkillRow.active).toList

def tryArchive (s : Progress) (name : String) (stage : Stage) : Event → Option Progress
  | .archived now => some (s.archive now name stage)
  | .failed => some (s.goTo stage)
  | _ => none

def pass (host : Host) (s : Progress) (event : Event) : Option Progress :=
  match s.stage, event with
  | .listing, .listed now =>
    some (s.goTo (.aging (now - staleThreshold) (listCuratable passCap s.index) []))
  | .listing, .failed => some (s.goTo .ended)
  | .aging cutoff (skill :: skills) survivors, .next =>
    if ages cutoff skill then none
    else some (s.goTo (.aging cutoff skills (survivors ++ [skill])))
  | .aging cutoff (skill :: skills) survivors, event =>
    if ages cutoff skill then s.tryArchive skill.name (.aging cutoff skills survivors) event
    else none
  | .aging _ [] survivors, .next =>
    some (s.goTo (if survivors.length < 2 then .ended else .asking survivors))
  | .asking survivors, .planned plan =>
    some (s.goTo (.applying (survivors.map (·.name)) plan.consolidations plan.prunings))
  | .asking _, .failed => some (s.goTo .ended)
  | .applying known (c :: cs) ps, .wrote now id =>
    if refusal host known c = none then
      some { s with
        index := upsertText now id c.into c.umbrellaDescription c.umbrellaBody s.index
        stage := .absorbing known c.sources cs ps }
    else none
  -- It is refused, or its umbrella could not be written.
  | .applying known (_ :: cs) ps, .failed => some (s.goTo (.applying known cs ps))
  | .absorbing known (source :: sources) cs ps, event =>
    s.tryArchive source (.absorbing known sources cs ps) event
  | .absorbing known [] cs ps, .next => some (s.goTo (.applying known cs ps))
  | .applying known [] (p :: ps), .next =>
    if p.skill ∈ known then none else some (s.goTo (.applying known [] ps))
  | .applying known [] (p :: ps), event =>
    if p.skill ∈ known then s.tryArchive p.skill (.applying known [] ps) event else none
  | .applying _ [] [], .next => some (s.goTo .ended)
  | _, _ => none

def step (host : Host) (s : Progress) : Event → Option Progress
  | .setPinned name pinned => some { s with index := (SkillsIndex.setPinned name pinned s.index).2 }
  | .bumpUse now ids => some { s with index := bumpUseFor now ids s.index }
  | event => s.pass host event

end Progress

variable {index : Index}

/-! ## The pass on its own -/

/-- A statement of the pass, not of another task. -/
def Own (_ : Progress) : Event → Prop
  | .setPinned .. | .bumpUse .. => False
  | _ => True

/-- The pass gets from `s` to this index and stage, with no other task in between. -/
def Follows (host : Host) (s : Progress) (index : Index) (stage : Stage) : Prop :=
  ∃ events s', Run (Progress.step host) Own s events s' ∧ s'.index = index ∧ s'.stage = stage

section Follows

variable {host : Host} {s s' : Progress} {stage stage' : Stage} {index' : Index} {world : World}
  {known : List String} {cs : List Consolidation} {ps : List Pruning}
theorem Follows.refl (isIndex : s.index = index) (isStage : s.stage = stage) :
    Follows host s index stage :=
  ⟨[], s, .nil s, isIndex, isStage⟩

theorem Follows.trans (first : Follows host s index stage)
    (second : ∀ s', s'.index = index → s'.stage = stage → Follows host s' index' stage') :
    Follows host s index' stage' := by
  obtain ⟨events, s₁, ran, isIndex, isStage⟩ := first
  obtain ⟨events', s₂, ran', reached⟩ := second s₁ isIndex isStage
  exact ⟨events ++ events', s₂, ran.append ran', reached⟩

theorem follows_of_pass (event : Event) (own : Own s event) (next : s.pass host event = some s') :
    Follows host s s'.index s'.stage := by
  have step : s.step host event = some s' := by
    cases event with
    | setPinned | bumpUse => exact own.elim
    | next | failed | listed | archived | planned | wrote => exact next
  exact ⟨[event], s', .single own step, rfl, rfl⟩

theorem follows_goTo (event : Event) (isIndex : s.index = index) (own : Own s event)
    (next : s.pass host event = some (s.goTo stage)) : Follows host s index stage :=
  isIndex ▸ follows_of_pass event own next

/-- An archiving is followed by its `UPDATE`, or by the failure of it. -/
theorem follows_archiveSkill {name : String} (isIndex : s.index = world.index)
    (failed : s.pass host .failed = s.tryArchive name stage .failed)
    (archived : ∀ now, s.pass host (.archived now) = s.tryArchive name stage (.archived now)) :
    Follows host s (archiveSkill host name world).2.index stage := by
  rcases index_archiveSkill name world with ⟨same, -⟩ | ⟨now, written⟩
  · rw [same]
    exact follows_goTo .failed isIndex trivial failed
  · rw [written, ← isIndex]
    exact follows_of_pass (.archived now) trivial (archived now)

theorem follows_agePhase {cutoff : ℤ} : ∀ (skills survivors : List CuratableSkill)
    (report : CuratorReport) (world : World) (s : Progress), s.index = world.index →
      s.stage = .aging cutoff skills survivors →
        Follows host s (agePhase host cutoff skills report world).2.2.index
          (.aging cutoff [] (survivors ++ (agePhase host cutoff skills report world).2.1)) := by
  intro skills
  induction skills with
  | nil =>
    intro survivors report world s isIndex isStage
    rw [agePhase, append_nil]
    exact .refl isIndex isStage
  | cons skill skills ih =>
    intro survivors report world s isIndex isStage
    rw [agePhase]
    split
    · rename_i old
      have first : Follows host s (archiveSkill host skill.name world).2.index
          (.aging cutoff skills survivors) := by
        refine follows_archiveSkill isIndex ?_ fun now => ?_ <;>
          simp only [Progress.pass, isStage, old, if_true]
      split <;> rename_i ran <;> rw [ran] at first <;> exact first.trans (ih survivors _ _)
    · rename_i young
      have first : Follows host s world.index (.aging cutoff skills (survivors ++ [skill])) := by
        refine follows_goTo .next isIndex trivial ?_
        simp only [Progress.pass, isStage, if_neg young]
      have rest := first.trans (ih (survivors ++ [skill]) report world)
      rwa [append_assoc] at rest

theorem follows_archiveSources : ∀ (sources : List String) (report : CuratorReport) (world : World)
    (s : Progress), s.index = world.index → s.stage = .absorbing known sources cs ps →
      Follows host s (archiveSources host sources report world).2.index
        (.applying known cs ps) := by
  intro sources
  induction sources with
  | nil =>
    intro report world s isIndex isStage
    refine follows_goTo .next isIndex trivial ?_
    simp only [Progress.pass, isStage]
  | cons source sources ih =>
    intro report world s isIndex isStage
    have first : Follows host s (archiveSkill host source world).2.index
        (.absorbing known sources cs ps) := by
      refine follows_archiveSkill isIndex ?_ fun now => ?_ <;> simp only [Progress.pass, isStage]
    rw [archiveSources]
    split <;> rename_i ran <;> rw [ran] at first <;> exact first.trans (ih _ _)

theorem follows_applyConsolidation (c : Consolidation) (report : CuratorReport)
    (isIndex : s.index = world.index) (isStage : s.stage = .applying known (c :: cs) ps) :
    Follows host s (applyConsolidation host known c report world).2.index
      (.applying known cs ps) := by
  have failed : s.pass host .failed = some (s.goTo (.applying known cs ps)) := by
    simp only [Progress.pass, isStage]
  unfold applyConsolidation
  split
  · exact follows_goTo .failed isIndex trivial failed
  · rename_i accepted
    split <;> rename_i ran
    · rcases writeUmbrella_cases ran with ⟨-, same⟩ | ⟨wrote, -⟩
      · rw [same]
        exact follows_goTo .failed isIndex trivial failed
      · cases wrote
    · rcases writeUmbrella_cases ran with ⟨⟨_, wrote⟩, -⟩ | ⟨-, now, id, written⟩
      · cases wrote
      · have next : s.pass host (.wrote now id) = some { s with
            index := upsertText now id c.into c.umbrellaDescription c.umbrellaBody s.index
            stage := .absorbing known c.sources cs ps } := by
          simp only [Progress.pass, isStage, accepted, if_true]
        have first := follows_of_pass (.wrote now id) trivial next
        rw [isIndex, ← written] at first
        exact first.trans (follows_archiveSources c.sources report _)

theorem follows_applyPruning (p : Pruning) (report : CuratorReport)
    (isIndex : s.index = world.index) (isStage : s.stage = .applying known [] (p :: ps)) :
    Follows host s (applyPruning host known p report world).2.index (.applying known [] ps) := by
  unfold applyPruning
  split
  · rename_i unknown
    refine follows_goTo .next isIndex trivial ?_
    simp only [Progress.pass, isStage, unknown, if_false]
  · rename_i isKnown
    have archived : Follows host s (archiveSkill host p.skill world).2.index
        (.applying known [] ps) := by
      refine follows_archiveSkill isIndex ?_ fun now => ?_ <;>
        simp only [Progress.pass, isStage, not_not.mp isKnown, if_true]
    split <;> rename_i ran <;> rwa [ran] at archived

theorem follows_consolidations : ∀ (cs : List Consolidation) (report : CuratorReport)
    (world : World) (s : Progress), s.index = world.index → s.stage = .applying known cs ps →
      Follows host s (forEach (applyConsolidation host known) cs report world).2.index
        (.applying known [] ps) := by
  intro cs
  induction cs with
  | nil => exact fun _ _ _ isIndex isStage => .refl isIndex isStage
  | cons c cs ih =>
    intro report world s isIndex isStage
    exact (follows_applyConsolidation c report isIndex isStage).trans (ih _ _)

theorem follows_prunings : ∀ (ps : List Pruning) (report : CuratorReport) (world : World)
    (s : Progress), s.index = world.index → s.stage = .applying known [] ps →
      Follows host s (forEach (applyPruning host known) ps report world).2.index .ended := by
  intro ps
  induction ps with
  | nil =>
    intro report world s isIndex isStage
    refine follows_goTo .next isIndex trivial ?_
    simp only [Progress.pass, isStage]
  | cons p ps ih =>
    intro report world s isIndex isStage
    exact (follows_applyPruning p report isIndex isStage).trans (ih _ _)

theorem follows_consolidate (bridge : Bridge) (survivors : List CuratableSkill)
    (report : CuratorReport) (world : World) {cutoff : ℤ} (s : Progress)
    (isIndex : s.index = world.index) (isStage : s.stage = .aging cutoff [] survivors) :
    Follows bridge.host s (consolidate bridge survivors report world).2.index .ended := by
  unfold consolidate
  split
  · rename_i few
    refine follows_goTo .next isIndex trivial ?_
    simp only [Progress.pass, isStage, few, if_true]
  rename_i several
  have asks : Follows bridge.host s world.index (.asking survivors) := by
    refine follows_goTo .next isIndex trivial ?_
    simp only [Progress.pass, isStage, several, if_false]
  split <;> rename_i asked
  · rename_i plan _
    obtain ⟨-, rfl⟩ := Prod.mk.inj asked
    refine asks.trans fun s' isIndex' isStage' => ?_
    have planned : Follows bridge.host s' world.index
        (.applying (survivors.map (·.name)) plan.consolidations plan.prunings) := by
      refine follows_goTo (.planned plan) isIndex' trivial ?_
      simp only [Progress.pass, isStage']
    exact (planned.trans (follows_consolidations _ report world.tick)).trans
      (follows_prunings _ _ _)
  · obtain ⟨-, rfl⟩ := Prod.mk.inj asked
    refine asks.trans fun s' isIndex' isStage' => ?_
    refine follows_goTo .failed isIndex' trivial ?_
    simp only [Progress.pass, isStage']

/-- **The statements are those of the pass**: undisturbed, they end with the index it leaves. -/
theorem follows_runPass (bridge : Bridge) (world : World) :
    Follows bridge.host { index := world.index } (runPass bridge world).2.index .ended := by
  unfold runPass
  split <;> rename_i ruled
  · rw [rulePhase_eq_error ruled]
    exact follows_goTo .failed rfl trivial rfl
  · obtain ⟨opening, -, aged⟩ := rulePhase_eq_ok ruled
    rename_i now report survivors _
    have listed : Follows bridge.host { index := world.index } world.index
        (.aging (now - staleThreshold) (listCuratable passCap world.index) []) :=
      follows_goTo (.listed now) rfl trivial rfl
    have ages := listed.trans (follows_agePhase _ _ opening world.tick.tick.tick)
    rw [aged] at ages
    show Follows bridge.host _ (writeReport bridge.host _ _).2.index .ended
    rw [index_writeReport]
    exact ages.trans (follows_consolidate bridge survivors report _)

end Follows

/-! ## What the pass still holds -/

def Stage.held : Stage → List String
  | .listing | .ended => []
  | .aging _ skills survivors => (skills ++ survivors).map (·.name)
  | .asking survivors => survivors.map (·.name)
  | .applying known _ _ => known
  | .absorbing known sources _ _ => known ++ sources

def Timely (s : Progress) : Event → Prop
  | .setPinned name true => name ∉ s.stage.held
  | _ => True

instance (s : Progress) (event : Event) : Decidable (Timely s event) := by
  unfold Timely
  split <;> infer_instance

def pinnedAt (index : Index) (name : String) : Bool := (index.find name).any SkillRow.pinned

variable {k name : String} {host : Host} {s s' : Progress} {stage stage' : Stage} {event : Event}

theorem pinnedAt_update {selected : SkillRow → Bool} {set : SkillRow → SkillRow}
    (keeps : ∀ row, (set row).name = row.name) (same : ∀ row, (set row).pinned = row.pinned) :
    pinnedAt (index.update selected set keeps) k = pinnedAt index k := by
  rw [pinnedAt, pinnedAt, Table.find_update]
  cases index.find k with
  | none => rfl
  | some row =>
    by_cases taken : selected row = true
    · simp [taken, same]
    · simp [taken]

theorem pinnedAt_upsertText (now : ℤ) (id description body : String) :
    pinnedAt (upsertText now id name description body index) k = pinnedAt index k := by
  rw [pinnedAt, pinnedAt, find_upsertText]
  split
  · rename_i same
    rw [same]
    cases index.find name <;> rfl
  · rfl

theorem pinnedAt_setPinned {pinned : Bool} (free : pinned = true → k ≠ name)
    (before : pinnedAt index k = false) : pinnedAt (setPinned name pinned index).2 k = false := by
  rw [pinnedAt, setPinned, Table.find_update]
  cases found : index.find k with
  | none => rfl
  | some row =>
    have named := (Table.find_eq_some.mp found).2
    by_cases same : row.name = name
    · cases pinned with
      | true => exact absurd (named.symm.trans same) (free rfl)
      | false => simp [same]
    · rw [pinnedAt, found] at before
      simpa [same] using before

theorem pinnedAt_of_listed {skill : CuratableSkill} (listed : skill ∈ listCuratable passCap index) :
    pinnedAt index skill.name = false := by
  obtain ⟨row, mem, curatable, rfl⟩ := mem_listCuratable listed
  have found : index.find row.name = some row := Table.find_key mem
  rw [pinnedAt, CuratableSkill.fromRow, found, Option.any_some]
  simp only [SkillRow.curatable, Bool.and_eq_true, Bool.not_eq_true'] at curatable
  exact curatable.1.2

/-- What the pass holds is not pinned, and neither was what it archived. -/
structure Heeded (s : Progress) : Prop where
  held : ∀ name ∈ s.stage.held, pinnedAt s.index name = false
  archived : ∀ row ∈ s.archived, row.pinned = false

theorem Heeded.goTo (heeded : Heeded s) (isStage : s.stage = stage)
    (fewer : stage'.held ⊆ stage.held) : Heeded (s.goTo stage') where
  held name mem := heeded.held name (isStage ▸ fewer mem)
  archived := heeded.archived

theorem Heeded.tryArchive (heeded : Heeded s) (isStage : s.stage = stage)
    (isHeld : name ∈ stage.held) (fewer : stage'.held ⊆ stage.held)
    (next : s.tryArchive name stage' event = some s') : Heeded s' := by
  cases event with
  | failed =>
    cases next
    exact heeded.goTo isStage fewer
  | archived =>
    cases next
    subst isStage
    refine ⟨fun other mem => ?_, fun row mem => ?_⟩
    · rw [← heeded.held other (fewer mem)]
      exact pinnedAt_update (by exact fun _ => rfl) fun _ => rfl
    · rcases mem_append.mp mem with old | new
      · exact heeded.archived row old
      · have unpinned := heeded.held name isHeld
        have found := (Option.filter_eq_some_iff.mp (Option.mem_toList.mp new)).1
        rw [pinnedAt, found] at unpinned
        exact unpinned
  | next | listed | planned | wrote | setPinned | bumpUse => cases next

theorem Heeded.pass (heeded : Heeded s) (next : s.pass host event = some s') : Heeded s' := by
  unfold Progress.pass at next
  split at next
  · -- The candidates are taken: none of them is pinned.
    cases next
    refine ⟨fun name mem => ?_, heeded.archived⟩
    obtain ⟨skill, listed, rfl⟩ := mem_map.mp mem
    rw [append_nil] at listed
    exact pinnedAt_of_listed listed
  · cases next
    exact heeded.goTo rfl (nil_subset _)
  · rename_i isStage
    split at next <;> cases next
    refine heeded.goTo isStage fun name => ?_
    simp only [Stage.held, map_append, map_cons, mem_append, mem_cons]
    tauto
  · rename_i isStage _
    split at next
    · exact heeded.tryArchive isStage mem_cons_self (subset_cons_self _ _) next
    · cases next
  · rename_i isStage
    cases next
    refine heeded.goTo isStage ?_
    split
    · exact nil_subset _
    · exact List.Subset.refl _
  · rename_i isStage
    cases next
    exact heeded.goTo isStage (List.Subset.refl _)
  · cases next
    exact heeded.goTo rfl (nil_subset _)
  · -- The sources of an umbrella are among the survivors.
    rename_i isStage
    split at next <;> cases next
    rename_i accepted
    refine ⟨fun name mem => ?_, heeded.archived⟩
    rw [pinnedAt_upsertText]
    refine heeded.held name ?_
    rw [isStage]
    exact (mem_append.mp mem).elim id (known_of_refusal_eq_none accepted name)
  · rename_i isStage
    cases next
    exact heeded.goTo isStage (List.Subset.refl _)
  · rename_i isStage
    refine heeded.tryArchive isStage (mem_append_right _ mem_cons_self) ?_ next
    exact append_subset.mpr ⟨subset_append_left _ _,
      subset_append_of_subset_right _ (subset_cons_self _ _)⟩
  · rename_i isStage
    cases next
    exact heeded.goTo isStage (subset_append_left _ _)
  · rename_i isStage
    split at next <;> cases next
    exact heeded.goTo isStage (List.Subset.refl _)
  · rename_i isStage _
    split at next
    · rename_i known
      refine heeded.tryArchive isStage known ?_ next
      exact fun _ mem => mem
    · cases next
  · cases next
    exact heeded.goTo rfl (nil_subset _)
  · cases next

theorem Heeded.step (heeded : Heeded s) (timely : Timely s event)
    (next : s.step host event = some s') : Heeded s' := by
  cases event with
  | setPinned =>
    cases next
    refine ⟨fun other mem => pinnedAt_setPinned ?_ (heeded.held other mem), heeded.archived⟩
    rintro rfl rfl
    exact timely mem
  | bumpUse =>
    cases next
    refine ⟨fun other mem => ?_, heeded.archived⟩
    rw [← heeded.held other mem]
    exact pinnedAt_update (by exact fun _ => rfl) fun _ => rfl
  | next | failed | listed | archived | planned | wrote => exact heeded.pass next

/-- **A pin is heeded** in every interleaving in which no skill is pinned while the pass
holds it. -/
theorem archived_not_pinned {events : List Event}
    (ran : Run (Progress.step host) Timely { index } events s) :
    ∀ row ∈ s.archived, row.pinned = false := by
  have heeded : Heeded s := ran.invariant (fun _ _ _ heeded timely next => heeded.step timely next)
    ⟨forall_mem_nil _, forall_mem_nil _⟩
  exact heeded.archived

def notes : Index := ⟨[skillRow "note" 0 none, skillRow "memo" 0 none], by decide⟩

/-- One skill is pinned and the other used before the pass lists them. -/
def pinnedInTime : List Event :=
  [.setPinned "note" true, .bumpUse someTime ["note", "memo"], .listed (1000 * staleThreshold),
    .setPinned "note" false, .archived someTime, .next]

theorem pinned_in_time_kept : ∃ s : Progress,
    Run (Progress.step (someBridge {}).host) Timely { index := notes } pinnedInTime s ∧
      s.archived.map (·.name) = ["memo"] ∧ ∀ row ∈ s.archived, row.pinned = false :=
  exists_run_and (by decide +kernel) fun ran _ => archived_not_pinned ran

/-- **Pinned after the listing, archived all the same.** -/
theorem pinned_late_archived : ∃ s : Progress,
    Run (Progress.step (someBridge {}).host) anyStep { index := notes }
      [.listed (1000 * staleThreshold), .setPinned "memo" true, .archived someTime] s ∧
      { skillRow "memo" 0 none with pinned := true } ∈ s.archived :=
  exists_run (by decide +kernel)

end Havn.Runtime.Curator
