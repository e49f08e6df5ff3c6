import Havn.Lib.Handlers
import Havn.Runtime.MemoryTool

/-!
# The vectors of the memory table

`memory_remember` commits its row, reads back the row's id, asks the provider, and writes the vector
to the row of that id; the backfill (`embedding/backfill.rs`) reads a batch, asks the provider, and
writes each vector to the row of its key, which may be another one by then.
-/

namespace Havn.Runtime.MemoryVectors

open Db Db.Memory Lib MemoryTool List
open ToolLoop (ToolResult)

/-! ## The calls -/

structure Provider where
  embed : String → List UInt32
  dimensions : ℕ

variable (provider : Provider)

def Provider.embedBatch (texts : List String) : List (List UInt32) :=
  texts.map provider.embed

def embedText (key value : String) : String := key ++ ": " ++ value

def batchSize : ℕ := 50

def needsVector (dim : ℕ) (row : Entry) : Bool :=
  row.Active ∧ row.embedding.map Prod.snd ≠ some dim

def nextBatch (dim : ℕ) (t : Table) : List (String × String) :=
  (((t.filter (needsVector dim)).insertionSort fun row row' => row.updatedAt ≤ row'.updatedAt).take
    batchSize).map fun row => (row.key, embedText row.key row.value)

inductive Call
  | remembering (request : Request)
  | committed (request : Request)
  | embedding (request : Request) (id : String)
  | storing (request : Request) (id : String) (vector : List UInt32)
  | replied (result : ToolResult)
  | scanning
  | fetched (batch : List (String × String))
  | writing (batch : List (String × List UInt32))
  | finished

inductive Arrival
  | remember (input : Json)
  | backfill

inductive Answer
  | transaction (id : String) (now : Readings)
  | done
  | failed (error : DbError)

inductive Event
  | forget (key : String) (now : ℕ)
  | ageExpired (now : ℕ)
  | search (ranked : List String) (kinds : List Kind) (limit now : ℕ)

section Handlers

variable (strftime : ℕ → String) (debug : String → String) (provider : Provider)

def readBack (request : Request) (id : String) : Call :=
  if id = "" then .replied (request.reply debug) else .embedding request id

def act (t : Table) : Call → Answer → Option (Table × Call)
  | .remembering request, .transaction id now =>
    match rememberTx strftime t request.new id now with
    | .ok t' => some (t', .committed request)
    | .error e => some (t, .replied (.error ("memory_remember failed: " ++ e.display)))
  | .remembering _, .failed e =>
    some (t, .replied (.error ("memory_remember failed: " ++ e.display)))
  | .committed request, .done =>
    some (t, readBack debug request (((get t request.new.key).map Entry.id).getD ""))
  | .committed request, .failed _ => some (t, readBack debug request "")
  | .embedding request id, .done =>
    some (t, .storing request id (provider.embed (embedText request.new.key request.new.value)))
  | .embedding request _, .failed _ => some (t, .replied (request.reply debug))
  | .storing request id vector, .done =>
    some ((setEmbeddingById t id vector).toOption.getD t, .replied (request.reply debug))
  | .storing request _ _, .failed _ => some (t, .replied (request.reply debug))
  | .scanning, .done =>
    let batch := nextBatch provider.dimensions t
    some (t, if batch = [] then .finished else .fetched batch)
  | .fetched batch, .done =>
    let vectors := provider.embedBatch (batch.map Prod.snd)
    some (t, if vectors.length ≠ batch.length then .finished
      else .writing ((batch.map Prod.fst).zip vectors))
  | .scanning, .failed _ | .fetched _, .failed _ => some (t, .finished)
  | .writing ((key, vector) :: rest), .done =>
    some ((setEmbedding t key vector).toOption.getD t, .writing rest)
  | .writing (_ :: rest), .failed _ => some (t, .writing rest)
  | .writing [], .done => some (t, .scanning)
  | _, _ => none

def begin : Arrival → Call
  | .remember input =>
    match accept debug input with
    | .ok request => .remembering request
    | .error e => .replied (.error e)
  | .backfill => .scanning

def outside (event : Event) (t : Table) : Table :=
  (match event with
    | .forget key now => forget strftime t key now
    | .ageExpired now => ageExpired t now
    | .search ranked kinds limit now => search t ranked kinds limit now).toOption.getD t

def handlers : Handlers Table Arrival Call Answer Event where
  begin := begin debug
  act := act strftime debug provider
  outside := outside strftime

end Handlers

abbrev State := Handlers.State Table Call
abbrev Label := Handlers.Label Arrival Answer Event

variable (t : Table)

def start : State := { shared := t }

/-- **The property**: the vector of an active row is that of its own key and value. -/
def Current : Prop :=
  ∀ row ∈ t, row.Active → ∀ stored ∈ row.embedding,
    stored.1 = provider.embed (embedText row.key row.value)
  deriving Decidable

/-! ## What a statement leaves of the active rows -/

structure Same (row row' : Entry) : Prop where
  active : row.Active
  id : row'.id = row.id
  key : row'.key = row.key
  value : row'.value = row.value

structure Held (row row' : Entry) : Prop extends Same row row' where
  embedding : row'.embedding = row.embedding

variable (new : NewEntry)

structure Told (t : Table) (row' : Entry) : Prop where
  fresh : row'.id ∉ ids t
  key : row'.key = new.key
  value : row'.value = new.value
  embedding : row'.embedding = none

section Statements

variable {strftime : ℕ → String} {t t' : Table} {selected : Entry → Bool} {set : Entry → Entry}
  {row' : Entry}

theorem Held.refl {row : Entry} (active : row.Active) : Held row row :=
  ⟨⟨active, rfl, rfl, rfl⟩, rfl⟩

theorem exists_of_update {R : Entry → Entry → Prop} (done : update t selected set = .ok t')
    (unselected : ∀ row, row.Active → R row row)
    (keeps : ∀ row ∈ t, selected row → (set row).Active → R row (set row))
    (mem : row' ∈ t') (active : row'.Active) : ∃ row ∈ t, R row row' := by
  rw [(update_eq_ok done).1] at mem
  obtain ⟨row, rowMem, rfl⟩ := mem_map.mp mem
  refine ⟨row, rowMem, ?_⟩
  revert active
  split
  · rename_i isSelected
    exact keeps row rowMem isSelected
  · exact unselected row

theorem told_or_held {s : Table} {new : NewEntry} {id : String} {link : Option String} {now : ℕ}
    (inserted : insert s (newRow new id link now) = .ok t') (sameIds : ids s = ids t)
    (before : ∀ row' ∈ s, row'.Active → ∃ row ∈ t, Held row row') (mem : row' ∈ t')
    (active : row'.Active) : (∃ row ∈ t, Held row row') ∨ Told new t row' := by
  obtain ⟨rfl, fresh, -, -⟩ := insert_eq_ok inserted
  rcases mem_snoc.mp mem with old | rfl
  · exact .inl (before row' old active)
  · exact .inr ⟨sameIds ▸ fresh, rfl, rfl, rfl⟩

theorem ids_of_update (done : update t selected set = .ok t')
    (sameId : ∀ row, (set row).id = row.id) : ids t' = ids t := by
  rw [(update_eq_ok done).1]
  refine ids_map fun row _ => ?_
  split
  · exact sameId row
  · rfl

/-- **An active row after a `remember` was there before, or is the one told.** -/
theorem held_or_told (wf : WellFormed t) {new : NewEntry} {id : String} {now : Readings}
    (spec : RememberSpec strftime t new id now t') (mem : row' ∈ t') (active : row'.Active) :
    (∃ row ∈ t, Held row row') ∨ Told new t row' := by
  cases spec with
  | fresh absent inserted =>
    exact told_or_held inserted rfl (fun row mem active => ⟨row, mem, .refl active⟩) mem active
  | refreshed old memOld sameKey isActive sameValue sameKind updated =>
    exact .inl (exists_of_update updated (fun _ => .refl)
      (fun _ _ _ active => ⟨⟨active, rfl, rfl, rfl⟩, rfl⟩) mem active)
  | superseded old memOld sameKey isActive t₁ t₂ archived renamed inserted =>
    have sameIds : ids t₁ = ids t := ids_of_update archived fun _ => rfl
    have archivedOld : ∀ row ∈ t₁, row.id = old.id → ¬ row.Active := by
      intro row rowMem isOld
      rw [(update_eq_ok archived).1] at rowMem
      obtain ⟨before, -, rfl⟩ := mem_map.mp rowMem
      split
      · exact Option.some_ne_none _
      · rename_i other
        rw [if_neg other] at isOld
        exact absurd (decide_eq_true isOld) other
    refine told_or_held inserted ((ids_of_update renamed fun _ => rfl).trans sameIds) ?_ mem active
    intro row₂ mem₂ active₂
    -- the renamed row is archived, so an active one has been in place all along
    obtain ⟨row₁, mem₁, held₁⟩ := exists_of_update renamed (fun _ => Held.refl)
      (fun row rowMem isOld active => absurd active (archivedOld row rowMem (by simpa using isOld)))
      mem₂ active₂
    obtain ⟨row, rowMem, held⟩ := exists_of_update archived (fun _ => Held.refl)
      (fun _ _ _ active => absurd active (Option.some_ne_none _)) mem₁ held₁.active
    exact ⟨row, rowMem, ⟨held.active, held₁.id.trans held.id, held₁.key.trans held.key,
      held₁.value.trans held.value⟩, held₁.embedding.trans held.embedding⟩
  | reactivated old memOld sameKey inactive t₁ renamed inserted =>
    refine told_or_held inserted (ids_of_update renamed fun _ => rfl) ?_ mem active
    intro row₁ mem₁ active₁
    refine exists_of_update renamed (fun _ => Held.refl) (fun row rowMem isOld active => ?_)
      mem₁ active₁
    obtain rfl : row = old :=
      inj_on_of_nodup_map wf.nodupIds rowMem memOld (by simpa using isOld)
    exact absurd active inactive

end Statements

/-! ## What a call relies on -/

structure Pinned (id : String) : Prop where
  there : id ∈ ids t
  content : ∀ row ∈ t, row.Active → row.id = id → row.key = new.key ∧ row.value = new.value

def AtKey (key : String) (P : Entry → Prop) : Prop :=
  ∀ row ∈ t, row.Active → row.key = key → P row

def Call.Relies : Call → Prop
  | .committed request => AtKey t request.new.key (·.value = request.new.value)
  | .embedding request id => Pinned t request.new id
  | .storing request id vector => Pinned t request.new id ∧
      vector = provider.embed (embedText request.new.key request.new.value)
  | .fetched batch => ∀ item ∈ batch, AtKey t item.1 fun row =>
    item.2 = embedText row.key row.value
  | .writing batch => ∀ item ∈ batch, AtKey t item.1 fun row =>
    item.2 = provider.embed (embedText row.key row.value)
  | .remembering _ | .replied _ | .scanning | .finished => True

def Call.Tolerates : Call → Prop
  | .committed request => request.new.key = new.key → request.new.value = new.value
  | .fetched batch => ∀ item ∈ batch, item.1 = new.key → item.2 = embedText new.key new.value
  | .writing batch => ∀ item ∈ batch, item.1 = new.key →
      item.2 = provider.embed (embedText new.key new.value)
  | .remembering _ | .embedding _ _ | .storing _ _ _ | .replied _ | .scanning | .finished => True

instance (provider : Provider) (new : NewEntry) (call : Call) :
    Decidable (call.Tolerates provider new) := by
  unfold Call.Tolerates
  split <;> infer_instance

def Call.telling : Call → Option NewEntry
  | .remembering request => some request.new
  | _ => none

/-- No transaction gives a key another value while another call holds it: between its commit and the
readback, or in a batch that is not yet written. -/
def Undisturbed (s : State) : Label → Prop
  | .act n (.transaction _ _) => ∀ call ∈ s.calls[n]?, ∀ new ∈ call.telling,
      ∀ other ∈ s.calls.eraseIdx n, other.Tolerates provider new
  | .act _ .done | .act _ (.failed _) | .arrive _ | .outside _ => True

instance (provider : Provider) (s : State) (label : Label) :
    Decidable (Undisturbed provider s label) := by
  unfold Undisturbed
  split <;> infer_instance

structure Sound : Prop where
  wellFormed : WellFormed t
  current : Current provider t

section Calls

variable {strftime : ℕ → String} {debug : String → String} {provider : Provider} {t t' : Table}
  {told : Entry → Prop} {id : String}

/-- Rows stay, and the active ones were active with the same content, or have been told. -/
structure Changed (told : Entry → Prop) (t t' : Table) : Prop where
  wellFormed : WellFormed t'
  there : ∀ id ∈ ids t, id ∈ ids t'
  active : ∀ row' ∈ t', row'.Active →
    (∃ row ∈ t, Same row row') ∨ row'.id ∉ ids t ∧ told row'

theorem AtKey.changed {told P : Entry → Prop} {key : String} (before : AtKey t key P)
    (changed : Changed told t t') (told_ok : ∀ row', told row' → row'.key = key → P row')
    (content : ∀ row row', Same row row' → P row → P row') : AtKey t' key P := by
  intro row' mem active isKey
  rcases changed.active row' mem active with ⟨row, rowMem, same⟩ | ⟨-, told'⟩
  · exact content row row' same (before row rowMem same.active (same.key ▸ isKey))
  · exact told_ok row' told' isKey

theorem Pinned.changed {new : NewEntry}
    (pinned : Pinned t new id) (changed : Changed told t t') : Pinned t' new id := by
  refine ⟨changed.there id pinned.there, fun row' mem active isId => ?_⟩
  rcases changed.active row' mem active with ⟨row, rowMem, same⟩ | ⟨fresh, -⟩
  · rw [same.key, same.value]
    exact pinned.content row rowMem same.active (same.id ▸ isId)
  · exact absurd (isId ▸ pinned.there) fresh

theorem Call.Relies.changed {call : Call} (relies : call.Relies provider t)
    (changed : Changed told t t')
    (tolerates : ∀ row', told row' → ∃ new : NewEntry, row'.key = new.key ∧
      row'.value = new.value ∧ call.Tolerates provider new) : call.Relies provider t' := by
  cases call with
  | committed =>
    refine AtKey.changed relies changed (fun row' told isKey => ?_) fun row row' same isValue =>
      same.value.trans isValue
    obtain ⟨new, sameKey, sameValue, agrees⟩ := tolerates row' told
    exact sameValue.trans (agrees (isKey.symm.trans sameKey)).symm
  | embedding => exact Pinned.changed relies changed
  | storing => exact ⟨Pinned.changed relies.1 changed, relies.2⟩
  | fetched | writing =>
    refine fun item mem => AtKey.changed (relies item mem) changed (fun row' told isKey => ?_)
      fun row row' same here => ?_
    · obtain ⟨new, sameKey, sameValue, agrees⟩ := tolerates row' told
      rw [sameKey, sameValue]
      exact agrees item mem (isKey.symm.trans sameKey)
    · rw [same.key, same.value]
      exact here
  | remembering | replied | scanning | finished => trivial

theorem Changed.refl (wf : WellFormed t) : Changed told t t :=
  ⟨wf, fun _ mem => mem, fun row mem active => .inl ⟨row, mem, active, rfl, rfl, rfl⟩⟩

theorem ids_of_evolves (evolves : Evolves t t') : ∀ id ∈ ids t, id ∈ ids t' := by
  intro id mem
  obtain ⟨row, rowMem, rfl⟩ := mem_map.mp mem
  obtain ⟨row', mem', continues⟩ := evolves row rowMem
  exact mem_map.mpr ⟨row', mem', continues.id⟩

theorem sound_of_update {selected : Entry → Bool} {set : Entry → Entry}
    (sound : Sound provider t) (done : update t selected set = .ok t')
    (continues : ∀ row ∈ t, selected row → Continues row (set row))
    (keeps : ∀ row ∈ t, selected row → (set row).Active → Held row (set row)) :
    Sound provider t' ∧ Changed told t t' := by
  obtain ⟨wf', evolves⟩ := sound.wellFormed.of_update done continues
  have held : ∀ row' ∈ t', row'.Active → ∃ row ∈ t, Held row row' := fun row' mem active =>
    exists_of_update done (fun _ => Held.refl) keeps mem active
  refine ⟨⟨wf', fun row' mem active stored isStored => ?_⟩, wf', ids_of_evolves evolves,
    fun row' mem active => ?_⟩
  · obtain ⟨row, rowMem, held⟩ := held row' mem active
    rw [held.key, held.value]
    exact sound.current row rowMem held.active stored (held.embedding ▸ isStored)
  · obtain ⟨row, rowMem, held⟩ := held row' mem active
    exact .inl ⟨row, rowMem, held.toSame⟩

theorem sound_of_write {selected : Entry → Bool} {vector : List UInt32}
    (sound : Sound provider t) (done : update t selected (fun row =>
      { row with embedding := some (vector, vector.length) }) = .ok t')
    (right : ∀ row ∈ t, selected row → row.Active →
      vector = provider.embed (embedText row.key row.value)) :
    Sound provider t' ∧ Changed told t t' := by
  obtain ⟨wf', evolves⟩ := sound.wellFormed.of_update done
    fun _ _ _ => ⟨rfl, rfl, rfl, rfl, fun _ h => h⟩
  refine ⟨⟨wf', fun row' mem active stored isStored => ?_⟩, wf', ids_of_evolves evolves,
    fun row' mem active => .inl ?_⟩
  · rw [(update_eq_ok done).1] at mem
    obtain ⟨row, rowMem, rfl⟩ := mem_map.mp mem
    revert active isStored
    split
    · rename_i isSelected
      intro active isStored
      obtain rfl : (vector, vector.length) = stored := Option.some.inj isStored
      exact right row rowMem isSelected active
    · exact fun active isStored => sound.current row rowMem active stored isStored
  · exact exists_of_update done (fun row active => ⟨active, rfl, rfl, rfl⟩)
      (fun row _ _ active => ⟨active, rfl, rfl, rfl⟩) mem active

theorem sound_of_remember (sound : Sound provider t) {new : NewEntry}
    {now : Readings} (spec : RememberSpec strftime t new id now t') :
    Sound provider t' ∧
      Changed (fun row' => row'.key = new.key ∧ row'.value = new.value) t t' := by
  obtain ⟨wf', evolves⟩ := sound.wellFormed.of_remember spec
  refine ⟨⟨wf', fun row' mem active stored isStored => ?_⟩, wf', ids_of_evolves evolves,
    fun row' mem active => ?_⟩
  · rcases held_or_told sound.wellFormed spec mem active with ⟨row, rowMem, held⟩ | told
    · rw [held.key, held.value]
      exact sound.current row rowMem held.active stored (held.embedding ▸ isStored)
    · rw [told.embedding] at isStored
      exact absurd isStored (Option.not_mem_none _)
  · rcases held_or_told sound.wellFormed spec mem active with ⟨row, rowMem, held⟩ | told
    · exact .inl ⟨row, rowMem, held.toSame⟩
    · exact .inr ⟨told.fresh, told.key, told.value⟩

theorem atKey_of_remember (wf : WellFormed t) {new : NewEntry} {now : Readings}
    (spec : RememberSpec strftime t new id now t') : AtKey t' new.key (·.value = new.value) := by
  intro row mem active isKey
  obtain ⟨found, isFound, isValue, -⟩ := get_of_remember wf spec
  have here := get_eq_some (wf.of_remember spec).1 mem active
  rw [isKey, isFound] at here
  cases here
  exact isValue

theorem pinned_of_get (wf : WellFormed t) {new : NewEntry} {row : Entry}
    (held : AtKey t new.key (·.value = new.value)) (found : get t new.key = some row) :
    Pinned t new row.id := by
  have mem := mem_of_find?_eq_some found
  obtain ⟨isKey, active⟩ : row.key = new.key ∧ row.Active := by
    simpa using find?_some found
  refine ⟨mem_map_of_mem mem, fun other otherMem _ sameId => ?_⟩
  obtain rfl : other = row := inj_on_of_nodup_map wf.nodupIds otherMem mem sameId
  exact ⟨isKey, held other mem active isKey⟩

theorem relies_readBack {request : Request} (pinned : id = "" ∨ Pinned t request.new id) :
    (readBack debug request id).Relies provider t := by
  rw [readBack]
  split
  · trivial
  · exact pinned.resolve_left ‹_›

theorem mem_nextBatch {dim : ℕ} {item : String × String} (mem : item ∈ nextBatch dim t) :
    ∃ row ∈ t, row.Active ∧ item = (row.key, embedText row.key row.value) := by
  obtain ⟨row, taken, rfl⟩ := mem_map.mp mem
  have sorted := (mem_insertionSort _).mp (mem_of_mem_take taken)
  obtain ⟨rowMem, needs⟩ := mem_filter.mp sorted
  exact ⟨row, rowMem, (of_decide_eq_true needs).1, rfl⟩

theorem relies_fetched (wf : WellFormed t) (dim : ℕ) :
    (Call.fetched (nextBatch dim t)).Relies provider t := by
  intro item mem row' mem' active' sameKey
  obtain ⟨row, rowMem, -, rfl⟩ := mem_nextBatch mem
  obtain rfl : row' = row := inj_on_of_nodup_map wf.nodupKeys mem' rowMem sameKey
  rfl

theorem relies_writing {batch : List (String × String)}
    (fetched : (Call.fetched batch).Relies provider t) :
    (Call.writing ((batch.map Prod.fst).zip (provider.embedBatch (batch.map Prod.snd)))).Relies
      provider t := by
  have zipped : (batch.map Prod.fst).zip (provider.embedBatch (batch.map Prod.snd)) =
      batch.map fun item => (item.1, provider.embed item.2) := by
    rw [Provider.embedBatch, map_map, zip_map']
    rfl
  rw [zipped]
  intro item mem row rowMem active isKey
  obtain ⟨source, sourceMem, rfl⟩ := mem_map.mp mem
  exact congrArg provider.embed (fetched source sourceMem row rowMem active isKey)

theorem of_attempt {P : Table → Prop} {result : Except DbError Table}
    (done : ∀ t', result = .ok t' → P t') (failed : P t) : P (result.toOption.getD t) := by
  cases result with
  | ok t' => exact done t' rfl
  | error => exact failed

def Tells : Call → Answer → Entry → Prop
  | .remembering request, .transaction _ _, row' =>
    row'.key = request.new.key ∧ row'.value = request.new.value
  | _, _, _ => False

/-- **One step of a call** keeps the table sound and leaves the call what it relies on next. -/
theorem act_spec {call : Call} {answer : Answer} {after : Table × Call}
    (sound : Sound provider t) (relies : call.Relies provider t)
    (acted : act strftime debug provider t call answer = some after) :
    Sound provider after.1 ∧ after.2.Relies provider after.1 ∧
      Changed (Tells call answer) t after.1 := by
  -- all steps but the transaction and the two writes leave the table alone
  have idle : ∀ {call' : Call}, call'.Relies provider t →
      Sound provider t ∧ call'.Relies provider t ∧ Changed (Tells call answer) t t :=
    fun relies' => ⟨sound, relies', .refl sound.wellFormed⟩
  -- the arms of `act`, in its order
  unfold act at acted
  split at acted
  case h_1 =>
    split at acted <;> cases acted
    · rename_i done
      have spec := rememberTx_spec done
      obtain ⟨sound', changed⟩ := sound_of_remember sound spec
      exact ⟨sound', atKey_of_remember sound.wellFormed spec, changed⟩
    · exact idle trivial
  all_goals cases acted
  case h_2 | h_6 | h_8 | h_11 | h_12 | h_15 => exact idle trivial
  case h_3 request =>
    refine idle (relies_readBack ?_)
    cases found : get t request.new.key with
    | none => exact .inl rfl
    | some => exact .inr (pinned_of_get sound.wellFormed relies found)
  case h_4 => exact idle (relies_readBack (.inl rfl))
  case h_5 => exact idle ⟨relies, rfl⟩
  case h_7 =>
    obtain ⟨pinned, rfl⟩ := relies
    refine of_attempt (P := fun t' => Sound provider t' ∧ True ∧ Changed _ t t')
      (fun t' done => ?_) ⟨sound, trivial, .refl sound.wellFormed⟩
    obtain ⟨sound', changed⟩ := sound_of_write sound done fun row mem isRow active => by
      obtain ⟨isKey, isValue⟩ := pinned.content row mem active (of_decide_eq_true isRow).1
      rw [isKey, isValue]
    exact ⟨sound', trivial, changed⟩
  case h_9 =>
    refine idle ?_
    split
    · trivial
    · exact relies_fetched sound.wellFormed _
  case h_10 =>
    refine idle ?_
    split
    · trivial
    · exact relies_writing relies
  case h_13 key vector rest =>
    have restRelies : (Call.writing rest).Relies provider t :=
      fun item mem => relies item (mem_cons_of_mem _ mem)
    refine of_attempt (P := fun t' => Sound provider t' ∧
      (Call.writing rest).Relies provider t' ∧ Changed _ t t') (fun t' done => ?_) (idle restRelies)
    obtain ⟨sound', changed⟩ := sound_of_write sound done fun row mem isRow active =>
      relies _ mem_cons_self row mem active (of_decide_eq_true isRow).1
    exact ⟨sound', restRelies.changed changed fun _ told => told.elim, changed⟩
  case h_14 => exact idle fun item mem => relies item (mem_cons_of_mem _ mem)

theorem outside_spec (sound : Sound provider t) (event : Event) :
    Sound provider (outside strftime event t) ∧
      Changed (fun _ => False) t (outside strftime event t) := by
  refine of_attempt (P := fun t' => Sound provider t' ∧ Changed (fun _ => False) t t')
    (fun t' done => ?_) ⟨sound, .refl sound.wellFormed⟩
  cases event with
  | forget =>
    refine sound_of_update sound done (fun row _ isActive => ?_)
      fun _ _ _ active => absurd active (Option.some_ne_none _)
    have active := (of_decide_eq_true isActive).2
    exact ⟨rfl, rfl, rfl, rfl, fun _ h => absurd (active.symm.trans h) (Option.some_ne_none _).symm⟩
  | ageExpired =>
    refine sound_of_update sound done (fun row _ expired => ?_)
      fun _ _ _ active => absurd active (Option.some_ne_none _)
    have active := (of_decide_eq_true expired).1
    exact ⟨rfl, rfl, rfl, rfl, fun _ h => absurd (active.symm.trans h) (Option.some_ne_none _).symm⟩
  | search =>
    simp only [search, bumpRecall] at done
    split at done
    · cases done
      exact ⟨sound, .refl sound.wellFormed⟩
    · exact sound_of_update sound done (fun _ _ _ => ⟨rfl, rfl, rfl, rfl, fun _ h => h⟩)
        fun _ _ _ active => ⟨⟨active, rfl, rfl, rfl⟩, rfl⟩

theorem tolerates_of_undisturbed {s : State} {n : ℕ} {call other : Call} {answer : Answer}
    (undisturbed : Undisturbed provider s (.act n answer)) (found : s.calls[n]? = some call)
    (mem : other ∈ s.calls.eraseIdx n) (row' : Entry) (told : Tells call answer row') :
    ∃ new : NewEntry, row'.key = new.key ∧ row'.value = new.value ∧
      other.Tolerates provider new := by
  cases call with
  | remembering request =>
    cases answer with
    | transaction =>
      exact ⟨request.new, told.1, told.2, undisturbed _ found _ rfl other mem⟩
    | done | failed => exact told.elim
  | committed | embedding | storing | replied | scanning | fetched | writing | finished =>
    exact told.elim

theorem respects_vectors :
    Handlers.Respects (handlers strftime debug provider) (Undisturbed provider) (Sound provider)
      fun t call => call.Relies provider t where
  begins := by
    intro t arrival sound
    cases arrival with
    | remember input =>
      show (begin debug (.remember input)).Relies provider t
      rw [begin]
      split <;> trivial
    | backfill => trivial
  acts := by
    intro s n call answer after undisturbed found sound relies acted
    obtain ⟨sound', relies', -⟩ := act_spec sound relies acted
    exact ⟨sound', relies'⟩
  spares := by
    intro s n call answer after undisturbed found sound relies acted other mem relied
    obtain ⟨-, -, changed⟩ := act_spec sound relies acted
    exact relied.changed changed (tolerates_of_undisturbed undisturbed found mem)
  outside := by
    intro s event _ sound
    obtain ⟨sound', changed⟩ : Sound provider (outside strftime event s.shared) ∧ _ :=
      outside_spec sound event
    exact ⟨sound', fun call _ relied => relied.changed changed fun _ told => told.elim⟩

end Calls

/-- **Vectors are current** in every interleaving in which no transaction gives a key another value
while another call holds it. -/
theorem current_of_undisturbed {strftime : ℕ → String} {debug : String → String}
    {provider : Provider} {t : Table} {labels : List Label} {s : State} (sound : Sound provider t)
    (ran : Run (handlers strftime debug provider).step (Undisturbed provider) (start t) labels s) :
    Current provider s.shared :=
  (respects_vectors.sustained sound ran).shared.current

def letters : Provider where
  embed text := text.toList.map (·.val)
  dimensions := 3

def answered (n : ℕ) (id : String) (now : ℕ) : List Label :=
  [.act n (.transaction id ⟨now, now, now⟩), .act n .done, .act n .done, .act n .done]

def calmDay : List Label :=
  .arrive (.remember (noteInput "tea")) :: answered 0 "a" 1 ++
    [.arrive (.remember (noteInput "rum")), .arrive .backfill] ++
    answered 1 "b" 2 ++ List.replicate 4 (.act 2 .done) ++
    [.arrive (.remember (noteInput "tea")), .act 3 (.transaction "c" ⟨3, 3, 3⟩),
      .outside (.forget "notes" 4), .act 3 .done]

theorem current_after_calmDay : ∃ s : State,
    Run (handlers epochStamp id letters).step (Undisturbed letters) (start []) calmDay s ∧
      s.shared.length = 3 ∧ Current letters s.shared :=
  exists_run_and (by decide +kernel) fun ran _ =>
    current_of_undisturbed ⟨wellFormed_nil, forall_mem_nil _⟩ ran

def overtaken : List Label :=
  [.arrive (.remember (noteInput "tea")), .arrive (.remember (noteInput "rum")),
    .act 0 (.transaction "a" ⟨1, 1, 1⟩), .act 1 (.transaction "b" ⟨2, 2, 2⟩),
    .act 0 .done, .act 0 .done, .act 0 .done]

def readTooEarly : List Label :=
  [.arrive (.remember (noteInput "tea")), .act 0 (.transaction "a" ⟨1, 1, 1⟩),
    .act 0 .done, .act 0 (.failed .notFound), .arrive .backfill, .act 1 .done, .act 1 .done,
    .arrive (.remember (noteInput "rum")), .act 2 (.transaction "b" ⟨2, 2, 2⟩), .act 1 .done]

def Mistaken : Prop :=
  ∃ row ∈ t, row.Active ∧ row.key = "notes" ∧ row.value = "rum" ∧
    row.embedding.map Prod.fst = some (letters.embed (embedText "notes" "tea"))
  deriving Decidable

theorem Mistaken.not_current {t : Table} (mistaken : Mistaken t) : ¬ Current letters t := by
  obtain ⟨row, mem, active, isKey, isValue, isTea⟩ := mistaken
  obtain ⟨stored, isStored, isVector⟩ := Option.map_eq_some_iff.mp isTea
  intro current
  have isRum := current row mem active stored isStored
  rw [isVector, isKey, isValue] at isRum
  exact absurd isRum (by decide +kernel)

/-- **A vector on the row of another value**, by either way. -/
theorem vector_of_other_value :
    (∃ s : State, Run (handlers epochStamp id letters).step anyStep (start []) overtaken s ∧
      Mistaken s.shared ∧ ¬ Current letters s.shared) ∧
    (∃ s : State, Run (handlers epochStamp id letters).step anyStep (start []) readTooEarly s ∧
      Mistaken s.shared ∧ ¬ Current letters s.shared) :=
  ⟨exists_run_and (by decide +kernel) fun _ mistaken => mistaken.not_current,
    exists_run_and (by decide +kernel) fun _ mistaken => mistaken.not_current⟩

end Havn.Runtime.MemoryVectors
