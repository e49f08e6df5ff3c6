import Havn.Lib.Machine
import Havn.Runtime.Curator

/-!
# The vectors of the skills

`skill_manage` embeds what it writes; the backfill embeds the active rows that have no vector of the
provider's dimension.  Start-up indexing and the curator write texts only, so a text that they
change keeps the vector of the old one.  What is read from the disk at a start-up may be anything.
-/

namespace Havn.Runtime.SkillVectors

open Lib Db Db.SkillsIndex List
open Curator (Consolidation)
open Skills (LoadedSkill)

/-! ## The statements -/

/-- An `EmbeddingProvider` that answers, text by text. -/
structure Provider where
  dimensions : ℕ
  embed : String → List UInt32

def embedText (name description : String) : String := name ++ ": " ++ description

variable (provider : Provider) (dim : ℕ)

def Provider.vectorOf (row : SkillRow) : List UInt32 :=
  provider.embed (embedText row.name row.description)

def batchSize : ℕ := 50

def needsVector (row : SkillRow) : Bool :=
  row.active && (row.embedding.isNone || row.embeddingDim ≠ some dim)

/-- `SELECT name, name || ': ' || description … ORDER BY name LIMIT ?`. -/
def skillsNextBatch (index : Index) : List (String × String) :=
  (((index.rows.filter (needsVector dim)).insertionSort fun a b => a.name ≤ b.name).take
    batchSize).map fun row => (row.name, embedText row.name row.description)

structure State where
  index : Index
  /-- What the backfill has embedded and not yet written. -/
  batch : List (String × List UInt32) := []
  /-- What `skill_manage` has upserted and is having embedded. -/
  pending : List (String × List UInt32) := []

/-- The vectors that are under way. -/
def State.underway (s : State) : List (String × List UInt32) := s.batch ++ s.pending

inductive Event
  /-- A new process; the backfill and the tool calls of the old one are gone. -/
  | restarted
  /-- `index_into`, one skill as its file is then. -/
  | indexed (now : ℤ) (id : String) (skill : LoadedSkill)
  /-- What `reindex_one` parsed is upserted, and the provider is asked to embed the arguments,
  unless it is going to fail. -/
  | managed (now : ℤ) (id : String) (parsed : LoadedSkill) (name description : String)
      (embeds : Bool)
  /-- The provider has answered: `set_embedding`. -/
  | embedded (name : String)
  /-- `write_umbrella`. -/
  | consolidated (now : ℤ) (id : String) (c : Consolidation)
  | archived (now : ℤ) (name : String)
  | pinned (name : String) (pinned : Bool)
  | used (now : ℤ) (ids : List String)
  | deleted (name : String)
  /-- The backfill's query, and the provider's answer. -/
  | queried
  | wrote
  /-- A write of the backfill fails. -/
  | skipped

def step (s : State) : Event → Option State
  | .restarted => some { s with batch := [], pending := [] }
  | .indexed now id skill => some { s with
      index := upsertSkill now id skill.name skill.description skill.body .workspace s.index }
  | .managed now id parsed name description embeds => some { s with
      index := upsertText now id parsed.name parsed.description parsed.body s.index
      pending := if embeds then
        (name, provider.embed (embedText name description)) :: s.pending else s.pending }
  | .embedded name =>
    (s.pending.find? (·.1 = name)).map fun item => { s with
      index := (setEmbedding name item.2 s.index).2
      pending := s.pending.eraseP (·.1 = name) }
  | .consolidated now id c => some { s with
      index := upsertText now id c.into c.umbrellaDescription c.umbrellaBody s.index }
  | .archived now name => some { s with index := (archive now name s.index).2 }
  | .pinned name pinned => some { s with index := (setPinned name pinned s.index).2 }
  | .used now ids => some { s with index := bumpUseFor now ids s.index }
  | .deleted name => some { s with index := deleteByName name s.index }
  | .queried => if s.batch ≠ [] then none else some { s with
      batch := (skillsNextBatch provider.dimensions s.index).map fun item =>
        (item.1, provider.embed item.2) }
  | .wrote =>
    match s.batch with
    | [] => none
    | (name, vector) :: batch =>
      some { s with index := (setEmbedding name vector s.index).2, batch := batch }
  | .skipped => some { s with batch := s.batch.tail }

/-! ## Rows under their vectors -/

/-- The row is active and has a vector of that dimension. -/
def Carries (row : SkillRow) : Prop := row.active = true ∧ row.embeddingDim = some dim
  deriving Decidable

/-- Such rows have the vector of their name and description, unless a tool call is getting it. -/
def Fresh (s : State) : Prop :=
  ∀ name, ∀ row ∈ s.index.find name, row.name ∉ s.pending.map Prod.fst →
    Carries provider.dimensions row → row.embedding = some (provider.vectorOf row)

/-- The row has no vector or has this description, and no vector for it is under way. -/
def Writable (s : State) (name description : String) : Prop :=
  (∀ row ∈ s.index.find name, Carries dim row → row.description = description) ∧
    name ∉ s.underway.map Prod.fst

/-- Texts are written with their vectors, or do not change under one. -/
def Careful (s : State) : Event → Prop
  | .restarted => s.pending = []
  | .indexed _ _ skill => Writable provider.dimensions s skill.name skill.description
  | .managed _ _ parsed name description true =>
    parsed.name = name ∧ parsed.description = description ∧ name ∉ s.underway.map Prod.fst
  | .managed _ _ parsed _ _ false =>
    Writable provider.dimensions s parsed.name parsed.description
  | .consolidated _ _ c => Writable provider.dimensions s c.into c.umbrellaDescription
  | _ => True

instance (provider : Provider) (s : State) (event : Event) :
    Decidable (Careful provider s event) := by
  unfold Careful Writable
  split <;> infer_instance

/-- The row has the vector of its text or a tool call is getting it, and no other vector is under
way. -/
def Sound (s : State) (row : SkillRow) : Prop :=
  (row.name ∉ s.pending.map Prod.fst → Carries provider.dimensions row →
    row.embedding = some (provider.vectorOf row)) ∧
    ∀ item ∈ s.underway, item.1 = row.name → item.2 = provider.vectorOf row

def Every (P : SkillRow → Prop) (index : Index) : Prop := ∀ name, ∀ row ∈ index.find name, P row

variable {provider : Provider} {index : Index} {P Q : SkillRow → Prop} {row row' : SkillRow}
  {s s' : State} {name description : String} {set : SkillRow → SkillRow}
  {keeps : ∀ row, (set row).name = row.name}
theorem Every.update {selected : SkillRow → Bool}
    (every : Every P index) (keeps : ∀ row, (set row).name = row.name)
    (changed : ∀ row, selected row = true → P row → Q (set row))
    (others : ∀ row, selected row = false → P row → Q row) :
    Every Q (index.update selected set keeps) := by
  intro name row' found'
  rw [Table.find_update, Option.mem_def, Option.map_eq_some_iff] at found'
  obtain ⟨row, found, rfl⟩ := found'
  cases isSelected : selected row with
  | true => exact changed row isSelected (every name row found)
  | false => exact others row isSelected (every name row found)

theorem Every.upsert {new : SkillRow} (every : Every P index) (inserted : Q new)
    (changed : ∀ row ∈ index.find new.name, P row → Q (set row))
    (others : ∀ row, row.name ≠ new.name → P row → Q row) :
    Every Q (index.upsert new set keeps) := by
  intro name row' found'
  rw [Table.find_upsert, Option.mem_def] at found'
  split at found'
  · cases found : index.find new.name with
    | none =>
      rw [found] at found'
      cases found'
      exact inserted
    | some row =>
      rw [found] at found'
      cases found'
      exact changed row found (every _ row found)
  · rename_i other
    refine others row' (fun same => other ?_) (every name row' found')
    exact (Table.find_eq_some.mp found').2.symm.trans same

theorem Sound.of_same (sound : Sound provider s row) (named : row'.name = row.name)
    (text : row'.description = row.description) (active : row'.active = true → row.active = true)
    (vector : row'.embedding = row.embedding) (dim : row'.embeddingDim = row.embeddingDim) :
    Sound provider s row' := by
  have same : provider.vectorOf row' = provider.vectorOf row := by
    rw [Provider.vectorOf, Provider.vectorOf, named, text]
  rw [Sound, same, named, vector]
  exact ⟨fun idle carries => sound.1 idle ⟨active carries.1, dim.symm.trans carries.2⟩, sound.2⟩

theorem every_upsert {new : SkillRow} (every : Every (Sound provider s) s.index)
    (writable : Writable provider.dimensions s new.name new.description)
    (bare : new.embeddingDim = none)
    (sets : ∀ row, (set row).active = row.active ∧ (set row).description = new.description ∧
      (set row).embedding = row.embedding ∧ (set row).embeddingDim = row.embeddingDim) :
    Every (Sound provider s) (s.index.upsert new set keeps) := by
  have free : ∀ row : SkillRow, row.name = new.name → ∀ item ∈ s.underway, item.1 ≠ row.name := by
    rintro row named item mem same
    exact writable.2 (named ▸ same ▸ mem_map_of_mem mem)
  refine every.upsert ⟨fun _ carries => ?_, fun item mem same => ?_⟩ (fun row found sound => ?_)
    fun row _ sound => sound
  · rw [Carries, bare] at carries
    cases carries.2
  · exact absurd same (free new rfl item mem)
  · obtain ⟨active, text, vector, dim⟩ := sets row
    have named := (Table.find_eq_some.mp found).2
    by_cases carries : Carries provider.dimensions row
    · exact sound.of_same (keeps row) (text.trans (writable.1 row found carries).symm)
        (fun on => active ▸ on) vector dim
    · refine ⟨fun _ carries' => absurd ?_ carries, fun item mem same => ?_⟩
      · exact ⟨active.symm.trans carries'.1, dim.symm.trans carries'.2⟩
      · exact absurd same (free _ ((keeps row).trans named) item mem)

theorem Every.setEmbedding {vector : List UInt32} (every : Every (Sound provider s) s.index)
    (own : ∀ row, row.name = name → Sound provider s row → vector = provider.vectorOf row)
    (fewer : s'.underway ⊆ s.underway)
    (others : ∀ item ∈ s.pending, item.1 ≠ name → item ∈ s'.pending) :
    Every (Sound provider s') (setEmbedding name vector s.index).2 := by
  refine every.update (by exact fun _ => rfl) (fun row isSelected sound => ?_)
    fun row unselected sound => ?_
  · simp only [Bool.and_eq_true, decide_eq_true_eq] at isSelected
    refine ⟨fun _ _ => congrArg some (own row isSelected.1 sound), fun item mem same => ?_⟩
    exact sound.2 item (fewer mem) same
  · refine ⟨fun idle carries => ?_, fun item mem same => sound.2 item (fewer mem) same⟩
    by_cases named : row.name = name
    · -- such a row is not active
      simp only [named, decide_true, Bool.true_and] at unselected
      cases unselected.symm.trans carries.1
    · refine sound.1 (fun isPending => idle ?_) carries
      obtain ⟨item, mem, same⟩ := mem_map.mp isPending
      exact mem_map.mpr ⟨item, others item mem (same ▸ named), same⟩

theorem sound_managed {now : ℤ} {id : String} {parsed : LoadedSkill}
    (every : Every (Sound provider s) s.index) (free : parsed.name ∉ s.underway.map Prod.fst) :
    Every (Sound provider { s with
      pending := (parsed.name, provider.embed (embedText parsed.name parsed.description)) ::
        s.pending })
      (upsertText now id parsed.name parsed.description parsed.body s.index) := by
  have own : ∀ row : SkillRow, row.name = parsed.name → row.description = parsed.description →
      Sound provider { s with
        pending := (parsed.name, provider.embed (embedText parsed.name parsed.description)) ::
          s.pending } row := by
    intro row named text
    refine ⟨fun idle => absurd (named ▸ mem_cons_self) idle, fun item mem same => ?_⟩
    rcases mem_append.mp mem with inBatch | isPending
    · exact absurd (mem_map.mpr ⟨item, mem_append_left _ inBatch, same.trans named⟩) free
    · rcases mem_cons.mp isPending with rfl | earlier
      · rw [Provider.vectorOf, named, text]
      · exact absurd (mem_map.mpr ⟨item, mem_append_right _ earlier, same.trans named⟩) free
  refine every.upsert (own _ rfl rfl) (fun row found _ => ?_) fun row other sound => ⟨?_, ?_⟩
  · exact own _ (Table.find_eq_some.mp found).2 rfl
  · exact fun idle => sound.1 fun isPending => idle (mem_cons_of_mem _ isPending)
  · intro item mem same
    refine sound.2 item ?_ same
    rcases mem_append.mp mem with inBatch | isPending
    · exact mem_append_left _ inBatch
    · rcases mem_cons.mp isPending with rfl | earlier
      · exact absurd same.symm other
      · exact mem_append_right _ earlier

theorem sound_queried (every : Every (Sound provider s) s.index) :
    Every (Sound provider { s with
      batch := (skillsNextBatch provider.dimensions s.index).map fun item =>
        (item.1, provider.embed item.2) }) s.index := by
  refine fun k row found => ⟨(every k row found).1, fun item mem same => ?_⟩
  rcases mem_append.mp mem with inBatch | isPending
  · obtain ⟨asked, isAsked, rfl⟩ := mem_map.mp inBatch
    obtain ⟨row', taken, rfl⟩ := mem_map.mp isAsked
    have sorted := (mem_insertionSort _).mp (mem_of_mem_take taken)
    have found' := Table.find_key (mem_of_mem_filter sorted)
    have named := (Table.find_eq_some.mp found).2
    rw [show row'.name = k from same.trans named] at found'
    cases found.symm.trans found'
    rfl
  · exact (every k row found).2 item (mem_append_right _ isPending) same

theorem sound_step {event : Event} (every : Every (Sound provider s) s.index)
    (careful : Careful provider s event) (next : step provider s event = some s') :
    Every (Sound provider s') s'.index := by
  cases event with
  | restarted =>
    cases next
    have quiet : s.pending = [] := careful
    refine fun name row found => ⟨fun _ => (every name row found).1 ?_, forall_mem_nil _⟩
    rw [quiet]
    exact not_mem_nil
  | indexed | consolidated =>
    cases next
    exact every_upsert every careful rfl fun row => ⟨rfl, rfl, rfl, rfl⟩
  | managed now id parsed name description embeds =>
    cases embeds with
    | false =>
      cases next
      exact every_upsert every careful rfl fun row => ⟨rfl, rfl, rfl, rfl⟩
    | true =>
      cases next
      obtain ⟨rfl, rfl, free⟩ := careful
      exact sound_managed every free
  | embedded name =>
    obtain ⟨item, found, rfl⟩ := Option.map_eq_some_iff.mp next
    have isItem : item ∈ s.underway := mem_append_right _ (mem_of_find?_eq_some found)
    have named : item.1 = name := by simpa using find?_some found
    refine every.setEmbedding (fun row same sound => ?_) ?_ fun other mem ne => ?_
    · exact sound.2 item isItem (named.trans same.symm)
    · exact append_subset.mpr ⟨subset_append_left _ _,
        fun _ mem => mem_append_right _ (mem_of_mem_eraseP mem)⟩
    · exact (mem_eraseP_of_neg (by simpa using ne)).mpr mem
  | archived =>
    cases next
    exact every.update (by exact fun _ => rfl)
      (fun row _ sound => sound.of_same rfl rfl (fun active => by cases active) rfl rfl)
      fun _ _ sound => sound
  | pinned | used =>
    cases next
    exact every.update (by exact fun _ => rfl)
      (fun row _ sound => sound.of_same rfl rfl id rfl rfl) fun _ _ sound => sound
  | deleted =>
    cases next
    intro k row found
    rw [deleteByName, Table.find_delete, Option.mem_def, Option.filter_eq_some_iff] at found
    exact every k row found.1
  | queried =>
    simp only [step] at next
    split at next
    · cases next
    · cases next
      exact sound_queried every
  | wrote =>
    simp only [step] at next
    split at next
    · cases next
    rename_i name vector batch isBatch
    cases next
    have isItem : (name, vector) ∈ s.underway :=
      mem_append_left _ (isBatch ▸ mem_cons_self)
    refine every.setEmbedding (fun row same sound => sound.2 _ isItem same.symm) ?_
      fun _ mem _ => mem
    rw [State.underway, State.underway, isBatch]
    exact subset_cons_self _ _
  | skipped =>
    cases next
    intro name row found
    obtain ⟨vector, items⟩ := every name row found
    refine ⟨vector, fun item mem => items item ?_⟩
    exact (mem_append.mp mem).elim (fun inTail => mem_append_left _ (mem_of_mem_tail inTail))
      (mem_append_right _)

/-- **The vectors are up to date** if no text is changed under a vector without being embedded. -/
theorem fresh_of_careful {events : List Event} {s : State} (fresh : Fresh provider { index })
    (ran : Run (step provider) (Careful provider) { index } events s) : Fresh provider s := by
  have start : Every (Sound provider { index }) index :=
    fun name row found => ⟨fresh name row found, forall_mem_nil _⟩
  let Inv (s : State) : Prop := Every (Sound provider s) s.index
  have every : Inv s :=
    ran.invariant (fun _ _ _ every careful next => sound_step every careful next) start
  exact fun name row found => (every name row found).1

/-! ## A description that is edited on disk -/

def lengths : Provider := ⟨1, fun text => [UInt32.ofNat text.length]⟩

/-- A start-up with a file of one skill, and its backfill. -/
def started (description : String) : List Event :=
  [.restarted, .indexed 0 "a" ⟨"note", description, none, true, [], "Write it down."⟩, .queried]

def bare : Index := ⟨[], nodup_nil⟩

theorem fresh_bare : Fresh lengths { index := bare } :=
  fun _ _ found => absurd found (Option.not_mem_none _)

/-- Started again after the tool gave the skill another description. -/
theorem restarted_fresh : ∃ s : State,
    Run (step lengths) (Careful lengths) { index := bare } (started "Take a note." ++ [.wrote,
      .managed 0 "b" ⟨"note", "Keep it.", none, true, [], "Write it down."⟩ "note" "Keep it." true,
      .embedded "note"] ++ started "Keep it.") s ∧
    (s.index.find "note").any (·.embedding = some [14]) ∧ Fresh lengths s :=
  exists_run_and (by decide +kernel) fun ran _ => fresh_of_careful fresh_bare ran

/-- **The vector of the old description stays**: the backfill after the edit finds nothing to do. -/
theorem edited_stale : ∃ s : State,
    Run (step lengths) anyStep { index := bare }
      (started "Take a note." ++ [.wrote] ++ started "Keep it.") s ∧
    skillsNextBatch lengths.dimensions s.index = [] ∧ s.pending = [] ∧ ¬ Fresh lengths s := by
  obtain ⟨s, ran, ⟨idle, quiet⟩, row, found, carries, other⟩ : ∃ s, Run (step lengths) anyStep
      { index := bare } (started "Take a note." ++ [.wrote] ++ started "Keep it.") s ∧
      (skillsNextBatch lengths.dimensions s.index = [] ∧ s.pending = []) ∧
      ∃ row ∈ s.index.find "note", Carries lengths.dimensions row ∧
        row.embedding ≠ some (lengths.vectorOf row) := exists_run (by decide +kernel)
  refine ⟨s, ran, idle, quiet, fun fresh => other (fresh "note" row found ?_ carries)⟩
  rw [quiet]
  exact not_mem_nil

end Havn.Runtime.SkillVectors
