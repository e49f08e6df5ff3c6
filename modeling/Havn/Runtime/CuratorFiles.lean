import Havn.Runtime.CuratorPlans

/-!
# What a curator pass does to the files

Archiving a skill moves the directory `skills/<name>` away, and the name comes from the front matter
of some `SKILL.md`.  `Housed` is what that takes for granted of the skills that the pass may
archive: the names are names of directories, and the directory of that name is where the skill's own
file is.

Under it a pass is `Tidied`: it makes directories and writes files below `skills`, `.archive` and
`.curator`, and moves directories of skills that it archives from the first into the second.
-/

namespace Havn.Runtime.Curator

open Lib Lib.FileTree Db Db.SkillsIndex Skills List
open Files (FileName)

/-! ## The places of a workspace -/

variable (host : Host)

def home : Place := Files.names host.workspace.path

def Within (home place : Place) : Prop :=
  ∃ dir ∈ ["skills", ".archive", ".curator"], home ++ [dir.toList] <+: place

def Standing (home : Place) (tree : Tree) : Prop :=
  ∀ place, place <+: home → node? tree place = some .dir

/-- By making directories and writing files within bounds, and moving the directories of `retired`
skills to the archive. -/
inductive Tidied (home : Place) (retired : String → Prop) : Tree → Tree → Prop
  | refl (tree : Tree) : Tidied home retired tree tree
  | put {tree tree' : Tree} (tidied : Tidied home retired tree tree') {place : Place}
      (within : Within home place) (noDir : node? tree' place ≠ some .dir) (node : Node) :
      Tidied home retired tree (put tree' place node)
  | moved {tree tree' : Tree} (tidied : Tidied home retired tree tree') {name : String}
      (isRetired : retired name) (entry : Name) :
      Tidied home retired tree (transplant tree' (home ++ ["skills".toList, name.toList])
        (home ++ [".archive".toList, entry]))

theorem not_within_of_isPrefix {home place : Place} (above : place <+: home) :
    ¬ Within home place := by
  rintro ⟨dir, -, below⟩
  have longer := (below.trans above).length_le
  rw [length_append, length_singleton] at longer
  omega

theorem within_of_isPrefix {home place rest : Place} (dir : String)
    (one : dir ∈ ["skills", ".archive", ".curator"])
    (below : home ++ dir.toList :: rest <+: place) : Within home place := by
  refine ⟨dir, one, List.IsPrefix.trans ?_ below⟩
  exact ⟨rest, by simp⟩

namespace Tidied

variable {home : Place} {retired retired' : String → Prop} {tree tree' tree'' : Tree}

theorem trans (first : Tidied home retired tree tree') (second : Tidied home retired tree' tree'') :
    Tidied home retired tree tree'' := by
  induction second with
  | refl => exact first
  | put _ within noDir node ih => exact ih.put within noDir node
  | moved _ isRetired entry ih => exact ih.moved isRetired entry

theorem mono (weaker : ∀ name, retired name → retired' name)
    (tidied : Tidied home retired tree tree') : Tidied home retired' tree tree' := by
  induction tidied with
  | refl => exact .refl _
  | put _ within noDir node ih => exact ih.put within noDir node
  | moved _ isRetired entry ih => exact ih.moved (weaker _ isRetired) entry

section

variable (tidied : Tidied home retired tree tree')

include tidied

theorem outside {place : Place}
    (apart : ¬ Within home place) : node? tree' place = node? tree place := by
  induction tidied with
  | refl => rfl
  | put _ within noDir node ih =>
    have elsewhere : ¬ place = _ := fun same => apart (same ▸ within)
    rw [node?_put, if_neg elsewhere, ← ih]
    split
    · rename_i root
      rw [root]
      rfl
    · rfl
  | moved _ isRetired entry ih =>
    rw [node?_transplant, ih]
    · exact fun below => apart (within_of_isPrefix "skills" (by decide) below)
    · exact fun below => apart (within_of_isPrefix ".archive" (by decide) below)

theorem standing (standing : Standing home tree) : Standing home tree' :=
  fun place above => (tidied.outside (not_within_of_isPrefix above)).trans (standing place above)

theorem stays {name : String} (kept : ¬ retired name)
    (rest : Place) (there : (node? tree (home ++ "skills".toList :: name.toList :: rest)).isSome) :
    (node? tree' (home ++ "skills".toList :: name.toList :: rest)).isSome := by
  induction tidied with
  | refl => exact there
  | put _ within noDir node ih =>
    rw [node?_put]
    split
    · rfl
    · split
      · rfl
      · exact ih
  | moved _ isRetired entry ih =>
    rename_i other
    rw [node?_transplant]
    · exact ih
    · intro below
      simp only [prefix_append_right_inj, cons_prefix_cons, true_and] at below
      exact kept (String.toList_inj.mp below.1 ▸ isRetired)
    · intro below
      simp only [prefix_append_right_inj, cons_prefix_cons] at below
      exact absurd below.1 (by decide)

end

end Tidied

/-! ## The operations of a pass -/

variable {names : List Name}

section Operations

variable {host : Host} {tree tree' : Tree} {retired : String → Prop}
  (standing : Standing (home host) tree)

theorem moves_workspace (host : Host) :
    moves host.workspace.path = .root :: (home host).map .down := by
  rw [moves, if_pos host.workspace.absolute]
  refine congrArg (List.cons _) (map_congr_left fun name mem => ?_)
  exact if_neg (host.workspace.plain name mem)

def inside (host : Host) (names : List Name) : List Move :=
  moves host.workspace.path ++ names.map .down

include standing

theorem locate_workspace : locate tree [] (moves host.workspace.path) = .ok (home host) := by
  rw [moves_workspace]
  exact locate_down fun more begins => standing more begins

theorem eq_of_locate_inside : ∀ {place : Place},
    locate tree [] (inside host names) = .ok place → place = home host ++ names := by
  induction names using List.reverseRecOn with
  | nil =>
    intro place located
    rw [inside, map_nil, append_nil, locate_workspace standing] at located
    cases located
    exact (append_nil _).symm
  | append_singleton names name ih =>
    intro place located
    rw [inside, map_append, ← append_assoc] at located
    obtain ⟨before, led, -, rfl⟩ := locate_concat_eq_ok.mp located
    rw [ih led, enter, append_assoc]

theorem tidied_write {dir content : String} (one : dir ∈ ["skills", ".archive", ".curator"])
    (wrote : FileTree.write tree (inside host (dir.toList :: names)) content = .ok tree') :
    Tidied (home host) retired tree tree' := by
  obtain ⟨place, located, noDir, rfl⟩ := write_eq_ok.mp wrote
  obtain rfl := eq_of_locate_inside standing located
  exact (Tidied.refl tree).put (within_of_isPrefix dir one (prefix_refl _)) noDir _

theorem tidied_rename {name : String} (isRetired : retired name) {entry : Name}
    (renamed : FileTree.rename tree (inside host ["skills".toList, name.toList])
      (inside host [".archive".toList, entry]) = .ok tree') :
    Tidied (home host) retired tree tree' := by
  obtain ⟨source, target, atSource, atTarget, same | moved⟩ := rename_eq_ok renamed
  · rw [same]
    exact .refl _
  · rw [moved, eq_of_locate_inside standing atSource, eq_of_locate_inside standing atTarget]
    exact (Tidied.refl tree).moved isRetired entry

theorem tidied_createDirAll {dir : String} (one : dir ∈ ["skills", ".archive", ".curator"])
    (made : FileTree.createDirAll tree [] (inside host (dir.toList :: names)) = .ok tree') :
    Tidied (home host) retired tree tree' := by
  rw [inside, createDirAll_append (locate_workspace standing)
    (standing _ (prefix_refl _))] at made
  -- below the workspace every directory that is made is within the three
  have below : ∀ (names : List Name) (place : Place) (tree : Tree),
      (∀ more ≠ [], more <+: names → Within (home host) (place ++ more)) →
        FileTree.createDirAll tree place (names.map .down) = .ok tree' →
          Tidied (home host) retired tree tree' := by
    intro names
    induction names with
    | nil =>
      intro place tree _ made
      cases made
      exact .refl _
    | cons name names ih =>
      intro place tree within made
      have next : ∀ more ≠ [], more <+: names →
          Within (home host) (enter place (.down name) ++ more) := by
        intro more nonempty begins
        rw [enter, append_assoc]
        exact within (name :: more) (cons_ne_nil _ _) (cons_prefix_cons.mpr ⟨rfl, begins⟩)
      rw [map_cons, FileTree.createDirAll] at made
      split at made
      · exact ih _ _ next made
      · cases made
      · rename_i absent
        refine ((Tidied.refl tree).put (within [name] (by simp) ⟨names, rfl⟩) ?_ .dir).trans
          (ih _ _ next made)
        rw [show node? tree (place ++ [name]) = none from absent]
        intro there
        cases there
  refine below _ _ _ (fun more nonempty begins => ?_) made
  obtain ⟨first, rest, rfl⟩ := exists_cons_of_ne_nil nonempty
  obtain ⟨rfl, -⟩ := cons_prefix_cons.mp begins
  exact within_of_isPrefix dir one (prefix_refl _)

end Operations

/-! ## The files after a pass -/

variable {known : List String} {c : Consolidation} {path : String}

theorem fileName_of_chars {name : String} (nonempty : name.toList ≠ [])
    (isName : ∀ c ∈ name.toList, isNameChar c = true) : FileName name := by
  obtain ⟨c, mem⟩ := exists_mem_of_ne_nil _ nonempty
  refine .of_mem mem ?_ fun slash => absurd (isName _ slash) (by decide)
  rintro rfl
  exact absurd (isName _ mem) (by decide)

theorem valid_of_refusal_eq_none {host : Host}
    (accepted : refusal host known c = none) : validateKebabName c.into = true := by
  unfold refusal at accepted
  dsimp only at accepted
  split at accepted
  · cases accepted
  split at accepted
  · cases accepted
  · rename_i valid
    simpa using valid

/-- The workspace stands, the skills given still have rows, and the files come from those at the
start by tidying, where what was moved has been archived. -/
structure Tidy (given : String → Prop) (start world : World) : Prop where
  standing : Standing (home host) world.tree
  present : ∀ name, given name → ∃ row, world.index.find name = some row
  tidied : Tidied (home host) (fun name => given name ∧ Gone world.index name) start.tree world.tree

section Steps

variable {host : Host} {given retired : String → Prop} {start world world' : World}
  {result : Except IoError Unit} {name : String}

theorem Tidy.step (tidy : Tidy host given start world)
    (edits : Edits (fun _ => True) (fun _ => True) world.index world'.index)
    (tidied : Tidied (home host) (fun name => given name ∧ Gone world'.index name) world.tree
      world'.tree) : Tidy host given start world' := by
  refine ⟨tidied.standing tidy.standing, fun name isGiven => ?_, ?_⟩
  · obtain ⟨row, found⟩ := tidy.present name isGiven
    obtain ⟨row', found', -⟩ := edits.found found
    exact ⟨row', found'⟩
  · exact (tidy.tidied.mono fun name ⟨isGiven, gone⟩ => ⟨isGiven, edits.gone gone⟩).trans tidied

theorem tidied_io {α : Type} {act : Tree → Except IoError (α × Tree)} {result : Except IoError α}
    (ran : host.io act world = (result, world'))
    (tidies : ∀ a, act world.tree = .ok (a, world'.tree) →
      Tidied (home host) retired world.tree world'.tree) :
    Tidied (home host) retired world.tree world'.tree := by
  cases result with
  | ok a => exact tidies a (Host.io_eq_ok ran)
  | error =>
    unfold Host.io at ran
    split at ran
    · cases ran
      exact .refl _
    · split at ran
      · cases ran
        exact .refl _
      · cases ran

theorem tidied_tryExists {result : Except IoError Bool}
    (ran : host.tryExists path world = (result, world')) :
    Tidied (home host) retired world.tree world'.tree := by
  refine tidied_io ran fun a looked => ?_
  obtain ⟨_, -, same⟩ := Lib.map_eq_ok.mp looked
  rw [(Prod.mk.inj same).2]
  exact .refl _

theorem tidied_act {act : Tree → Except IoError Tree}
    (ran : host.io (fun tree => (act tree).map ((), ·)) world = (result, world'))
    (tidies : ∀ tree', act world.tree = .ok tree' → Tidied (home host) retired world.tree tree') :
    Tidied (home host) retired world.tree world'.tree := by
  refine tidied_io ran fun a acted => ?_
  obtain ⟨tree', made, same⟩ := Lib.map_eq_ok.mp acted
  obtain rfl := (Prod.mk.inj same).2
  exact tidies _ made

theorem moves_skillDir_inside (file : FileName name) :
    moves (host.skillDir name) = inside host ["skills".toList, name.toList] := by
  rw [Host.skillDir, moves_join file, moves_join ⟨by decide, by decide, by decide⟩, inside,
    append_assoc]
  rfl

theorem not_slash_compactStamp (t : Calendar.Instant) : '/' ∉ (compactStamp t).toList := by
  have longer : Rfc3339.compactText t = (compactStamp t).toList ++ ['Z'] := by
    simp [compactStamp, Rfc3339.compactText, Rfc3339.compactLayout, Rfc3339.clock,
      FixedWidth.render]
  intro slash
  have mem : '/' ∈ Rfc3339.compactText t := longer ▸ mem_append_left _ slash
  exact absurd (Rfc3339.mem_compactText mem) (by decide)

theorem moves_archivePath (file : FileName name) (now : ℤ) :
    moves (archivePath host name now) = inside host [".archive".toList,
      (name ++ "-" ++ compactStamp (utc now)).toList] := by
  have entry : FileName (name ++ "-" ++ compactStamp (utc now)) := by
    refine .of_mem (c := '-') (by simp) (by decide) ?_
    simp [file.single, not_slash_compactStamp]
  rw [archivePath, archiveRoot, moves_join entry, moves_join ⟨by decide, by decide, by decide⟩,
    inside, append_assoc]
  rfl

theorem moves_archiveRoot : moves (archiveRoot host) = inside host [".archive".toList] :=
  moves_join ⟨by decide, by decide, by decide⟩

theorem tidied_mkdir {dir : String} (one : dir ∈ ["skills", ".archive", ".curator"])
    (isPath : moves path = inside host (dir.toList :: names))
    (standing : Standing (home host) world.tree)
    (ran : host.createDirAll path world = (result, world')) :
    Tidied (home host) retired world.tree world'.tree :=
  tidied_act ran fun _ made => tidied_createDirAll standing one (isPath ▸ made)

theorem tidied_save {dir content : String} (one : dir ∈ ["skills", ".archive", ".curator"])
    (isPath : moves path = inside host (dir.toList :: names))
    (standing : Standing (home host) world.tree)
    (ran : host.write path content world = (result, world')) :
    Tidied (home host) retired world.tree world'.tree :=
  tidied_act ran fun _ wrote => tidied_write standing one (isPath ▸ wrote)

theorem tidied_mv {now : ℤ} (file : FileName name)
    (standing : Standing (home host) world.tree) (isRetired : retired name)
    (ran : host.rename (host.skillDir name) (archivePath host name now) world.tick =
      (result, world')) : Tidied (home host) retired world.tree world'.tree := by
  have moved : Tidied (home host) retired world.tick.tree world'.tree := by
    refine tidied_act ran fun tree' moving => ?_
    rw [moves_skillDir_inside file, moves_archivePath file] at moving
    exact tidied_rename standing isRetired moving
  exact moved

theorem tidied_moveAway (file : FileName name) (standing : Standing (home host) world.tree)
    (isRetired : retired name) :
    Tidied (home host) retired world.tree (moveAway host name world).2.tree := by
  unfold moveAway
  split
  rename_i looked
  have first : Tidied (home host) retired world.tree _ := tidied_tryExists looked
  split
  · exact first
  · split
    · rename_i made
      exact first.trans (tidied_mkdir (by decide) moves_archiveRoot (first.standing standing) made)
    · rename_i made
      have second := first.trans
        (tidied_mkdir (by decide) moves_archiveRoot (first.standing standing) made)
      split
      rename_i read
      obtain ⟨-, rfl⟩ := Prod.mk.inj read
      split
      all_goals
        rename_i moved
        exact second.trans (tidied_mv file (second.standing standing) isRetired moved)

theorem Tidy.archiveSkill (file : FileName name) (isGiven : given name)
    (tidy : Tidy host given start world) :
    Tidy host given start (archiveSkill host name world).2 := by
  refine tidy.step (archiveSkill_edits trivial world) ?_
  obtain ⟨row, found⟩ := tidy.present name isGiven
  unfold Curator.archiveSkill
  split
  · rename_i ran
    rcases Host.statement_cases ran with ⟨text, -, -, rfl⟩ | ⟨-, failed, -⟩
    · exact .refl _
    · cases failed
  · rename_i world₁ ran
    rw [index_moveAway]
    rcases Host.statement_cases ran with ⟨text, -, failed, -⟩ | ⟨-, -, archived⟩
    · cases failed
    have same : world₁.tree = world.tree := by
      rw [archived]
      rfl
    have gone : Gone world₁.index name := by
      rw [archived]
      exact gone_archive _ found
    rw [← same]
    exact tidied_moveAway file (same ▸ tidy.standing) ⟨isGiven, gone⟩

theorem tidied_writeUmbrella (file : FileName c.into) (standing : Standing (home host) world.tree) :
    Tidied (home host) retired world.tree (writeUmbrella host c world).2.tree := by
  have isDir : moves (host.skillDir c.into) = _ := moves_skillDir_inside file
  have isPath : moves (host.skillPath c.into) =
      inside host ["skills".toList, c.into.toList, "SKILL.md".toList] := by
    rw [Host.moves_skillPath, isDir, inside, append_assoc]
    rfl
  unfold writeUmbrella
  split
  rename_i looked
  have first : Tidied (home host) retired world.tree _ := tidied_tryExists looked
  split
  · exact first
  · split
    · rename_i made
      exact first.trans (tidied_mkdir (by decide) isDir (first.standing standing) made)
    · rename_i made
      have second := first.trans (tidied_mkdir (by decide) isDir (first.standing standing) made)
      split
      · rename_i wrote
        exact second.trans (tidied_save (by decide) isPath (second.standing standing) wrote)
      · rename_i wrote
        have third := second.trans
          (tidied_save (by decide) isPath (second.standing standing) wrote)
        split
        rename_i drawn
        obtain ⟨-, rfl⟩ := Prod.mk.inj drawn
        split
        all_goals
          rename_i stated
          rcases Host.statement_cases stated with ⟨text, -, -, rfl⟩ | ⟨-, -, rfl⟩
          · exact third
          · exact third

theorem Tidy.writeUmbrella (valid : validateKebabName c.into = true)
    (tidy : Tidy host given start world) :
    Tidy host given start (writeUmbrella host c world).2 := by
  have file : FileName c.into := by
    simp only [validateKebabName, Bool.and_eq_true, decide_eq_true_eq, all_eq_true] at valid
    exact fileName_of_chars (fun empty => valid.1.1 (String.toList_eq_nil_iff.mp empty)) valid.2
  refine tidy.step ?_ (tidied_writeUmbrella file tidy.standing)
  cases ran : Curator.writeUmbrella host c world with
  | mk result world' =>
    show Edits _ _ world.index world'.index
    rcases writeUmbrella_cases ran with ⟨-, same⟩ | ⟨-, now, id, wrote⟩
    · rw [same]
      exact .refl _
    · rw [wrote]
      exact (Edits.refl _).umbrella now id trivial

theorem tidied_writeReport (report : CuratorReport) (standing : Standing (home host) world.tree) :
    Tidied (home host) retired world.tree (writeReport host report world).2.tree := by
  have file : FileName (compactStamp (utc report.ranAt) ++ "Z.md") := by
    refine .of_mem (c := 'Z') (by simp) (by decide) ?_
    simp [not_slash_compactStamp]
  have isDir : moves (Files.join host.workspace.path ".curator") =
      inside host [".curator".toList] := moves_join ⟨by decide, by decide, by decide⟩
  have isPath : moves (Files.join (Files.join host.workspace.path ".curator")
      (compactStamp (utc report.ranAt) ++ "Z.md")) =
      inside host [".curator".toList, (compactStamp (utc report.ranAt) ++ "Z.md").toList] := by
    rw [moves_join file, isDir, inside, append_assoc]
    rfl
  unfold writeReport
  split
  · rename_i made
    exact tidied_mkdir (by decide) isDir standing made
  · rename_i made
    have first : Tidied (home host) retired world.tree _ :=
      tidied_mkdir (by decide) isDir standing made
    exact first.trans (tidied_save (by decide) isPath (first.standing standing)
      Prod.mk.eta.symm)

end Steps

/-- The skill whose file is in a directory of `skills`. -/
def skillIn (tree : Tree) (entry : Name) : Option LoadedSkill :=
  (FileTree.readToString tree (moves (host.skillPath (String.ofList entry)))).toOption.bind
    fun content => (parseSkill host.yaml content).toOption

def skillPlace (name : String) : Place :=
  home host ++ ["skills".toList, name.toList]

/-- The workspace stands, and the skills that the pass may archive have names of directories, where
their own files are. -/
structure Housed (bridge : Bridge) (world : World) : Prop where
  standing : Standing (home bridge.host) world.tree
  named : ∀ name, Doomed bridge world name → FileName name
  houses : ∀ name, Doomed bridge world name →
    (node? world.tree (skillPlace bridge.host name)).isSome = true →
      (skillIn bridge.host world.tree name.toList).map (·.name) = some name

structure Retired (world world' : World) (name : String) : Prop where
  given : GivenIn world.index name
  gone : Gone world'.index name
  held : (node? world.tree (skillPlace host name)).isSome = true →
    (skillIn host world.tree name.toList).map (·.name) = some name

structure Confined (world world' : World) : Prop where
  tidied : Tidied (home host) (Retired host world world') world.tree world'.tree
  outside : ∀ place, ¬ Within (home host) place → node? world'.tree place = node? world.tree place
  stays : ∀ dir skill, FileName dir → skillIn host world.tree dir.toList = some skill →
    (∃ row, world'.index.find skill.name = some row ∧ row.active = true) →
      (node? world'.tree (skillPlace host dir ++ ["SKILL.md".toList])).isSome = true

theorem Housed.passKeeps {bridge : Bridge} {world : World} (housed : Housed bridge world) :
    PassKeeps bridge world fun _ => Tidy bridge.host (Doomed bridge world) world where
  ages aged tidy := tidy.archiveSkill (housed.named _ (.inl aged)) (.inl aged)
  carries isPlanned :=
    { archives := fun bound due tidy =>
        have doomed := doomed_of_archives isPlanned bound due
        tidy.archiveSkill (housed.named _ doomed) doomed
      fails := fun isAccepted ran tidy => by
        have accepted := of_decide_eq_true (mem_filter.mp isAccepted).2
        have wrote := tidy.writeUmbrella (valid_of_refusal_eq_none accepted)
        rwa [ran] at wrote
      writes := fun isAccepted ran tidy => by
        have accepted := of_decide_eq_true (mem_filter.mp isAccepted).2
        have wrote := tidy.writeUmbrella (valid_of_refusal_eq_none accepted)
        rwa [ran] at wrote }
  ticks tidy := tidy.step (.refl _) (.refl _)
  reports {_ w} report tidy := tidy.step (index_writeReport bridge.host report w ▸ .refl _)
    (tidied_writeReport report tidy.standing)

def namingHost : Host :=
  calmHost (fun text => .ok
    { name := some (trim (String.ofList (text.toList.drop 5)))
      description := some "Take a note." }) (someTime * 1000000)

def started (name : String) : World :=
  namingHost.startup ⟨⟨[
    (["home".toList], .dir), (["w".toList], .dir), (["w".toList, "skills".toList], .dir),
    (["w".toList, "skills".toList, "note".toList], .dir),
    (["w".toList, "skills".toList, "note".toList, "SKILL.md".toList],
      .file ("---\nname: " ++ name ++ "\n---\n\nWrite it down.\n"))],
    by simp only [List.map]; decide⟩, ∅, 0⟩

end Havn.Runtime.Curator
