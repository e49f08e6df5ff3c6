import Havn.Lib.Except
import Havn.Lib.Machine
import Havn.Lib.Table
import Havn.Db.Gateway

/-!
# Encrypting the stored keys

`encrypt_legacy_credential_rows` of `havn-gateway/src/main.rs`: every start-up encrypts the
credentials whose key is not an age ciphertext yet, without a transaction.  The gateway may be
killed between two statements, and a failure ends the start-up; the next one reads the table afresh.
-/

namespace Havn.Gateway.KeyMigration

open Db Lib List

/-! ## The key ring -/

def ageHeader : List UInt8 :=
  "age-encryption.org/v1\n".toList.map fun c => UInt8.ofNat c.toNat

/-- An encryption draws a seed, so it may give a different ciphertext each time; it may also
fail. -/
structure Age where
  Seed : Type
  wrap : String → Seed → List UInt8 → Except String (List UInt8)
  unwrap : String → List UInt8 → Except String (List UInt8)
  header_of_wrap : ∀ {passphrase seed plaintext ciphertext},
    wrap passphrase seed plaintext = .ok ciphertext → ageHeader.isPrefixOf ciphertext = true
  unwrap_of_wrap : ∀ {passphrase seed plaintext ciphertext},
    wrap passphrase seed plaintext = .ok ciphertext → unwrap passphrase ciphertext = .ok plaintext

inductive KeyringError where
  | encrypt (error : String)
  | decrypt (error : String)

def KeyringError.display : KeyringError → String
  | .encrypt error => "encryption: " ++ error
  | .decrypt error => "decryption: " ++ error

structure KeyRing where
  passphrase : String

section KeyRing

variable (age : Age) (ring : KeyRing)

def KeyRing.encrypt (seed : age.Seed) (plaintext : List UInt8) : Except KeyringError (List UInt8) :=
  (age.wrap ring.passphrase seed plaintext).mapError .encrypt

def KeyRing.decrypt (ciphertext : List UInt8) : Except KeyringError (List UInt8) :=
  (age.unwrap ring.passphrase ciphertext).mapError .decrypt

def isAgeCiphertext (bytes : List UInt8) : Bool := ageHeader.isPrefixOf bytes

variable {age ring} {seed : age.Seed} {plaintext ciphertext : List UInt8}

theorem isAgeCiphertext_of_encrypt (sealed : ring.encrypt age seed plaintext = .ok ciphertext) :
    isAgeCiphertext ciphertext = true :=
  age.header_of_wrap (mapError_eq_ok.mp sealed)

theorem decrypt_of_encrypt (sealed : ring.encrypt age seed plaintext = .ok ciphertext) :
    ring.decrypt age ciphertext = .ok plaintext :=
  mapError_eq_ok.mpr (age.unwrap_of_wrap (mapError_eq_ok.mp sealed))

end KeyRing

/-! ## Start-ups -/

structure Row where
  id : String
  apiKey : List UInt8
  deriving DecidableEq

abbrev Credentials := Table Row Row.id

inductive Process where
  | down
  | migrating (rows : List Row) (migrated : ℕ)
  | failed (error : String)
  | done (migrated : ℕ)
  deriving DecidableEq

structure State where
  table : Credentials
  process : Process := .down
  updates : List String := []

inductive Label (age : Age) where
  /-- A start-up reads the table; a statement without an order gives the rows in
  any. -/
  | start (read : Except DbError (List Row))
  | visit (seed : age.Seed) (fault : Except DbError Unit)
  | finish
  | kill

def setApiKey (table : Credentials) (id : String) (ciphertext : List UInt8) : Credentials :=
  table.update (·.id = id) (fun row => { row with apiKey := ciphertext }) fun _ => rfl

section Machine

variable (age : Age) (ring : KeyRing)

def visit (s : State) (row : Row) (rows : List Row) (migrated : ℕ) (seed : age.Seed)
    (fault : Except DbError Unit) : State :=
  if isAgeCiphertext row.apiKey then { s with process := .migrating rows migrated }
  else
    match ring.encrypt age seed row.apiKey with
    | .error e =>
      { s with process := .failed ("encrypting credential row " ++ row.id ++ ": " ++ e.display) }
    | .ok ciphertext =>
      match fault with
      | .error e => { s with process := .failed e.display }
      | .ok _ =>
        { table := setApiKey s.table row.id ciphertext
          process := .migrating rows (migrated + 1)
          updates := s.updates ++ [row.id] }

def step (s : State) : Label age → Option State
  | .start read =>
    match s.process, read with
    | .migrating _ _, _ => none
    | _, .error e => some { s with process := .failed e.display }
    | _, .ok rows =>
      if rows.Perm s.table.rows then some { s with process := .migrating rows 0 } else none
  | .visit seed fault =>
    match s.process with
    | .migrating (row :: rows) migrated => some (visit age ring s row rows migrated seed fault)
    | _ => none
  | .finish =>
    match s.process with
    | .migrating [] migrated => some { s with process := .done migrated }
    | _ => none
  | .kill => some { s with process := .down }

end Machine

/-! ## What a step can do -/

variable {ciphertext : List UInt8} {table : Credentials} {migrated : ℕ}

section Steps

variable {age : Age} {ring : KeyRing} {s s' : State} {label : Label age} {row : Row}
  {rows : List Row}

/-- A start-up leaves the table alone, skips a row or encrypts it. -/
inductive StepSpec (age : Age) (ring : KeyRing) (s : State) : State → Prop
  | ends (process : Process) (ended : ∀ rows migrated, process ≠ .migrating rows migrated)
      (finished : ∀ migrated, process = .done migrated → s.process = .migrating [] migrated) :
      StepSpec age ring s { s with process }
  | starts {rows : List Row} (read : rows.Perm s.table.rows) :
      StepSpec age ring s { s with process := .migrating rows 0 }
  | skips {row : Row} {rows : List Row} {migrated : ℕ}
      (here : s.process = .migrating (row :: rows) migrated)
      (done : isAgeCiphertext row.apiKey = true) :
      StepSpec age ring s { s with process := .migrating rows migrated }
  | encrypts {row : Row} {rows : List Row} {migrated : ℕ} {seed : age.Seed}
      {ciphertext : List UInt8} (here : s.process = .migrating (row :: rows) migrated)
      (legacy : isAgeCiphertext row.apiKey = false)
      (sealed : ring.encrypt age seed row.apiKey = .ok ciphertext) :
      StepSpec age ring s
        { table := setApiKey s.table row.id ciphertext
          process := .migrating rows (migrated + 1)
          updates := s.updates ++ [row.id] }

theorem visit_spec (seed : age.Seed) (fault : Except DbError Unit)
    (here : s.process = .migrating (row :: rows) migrated) :
    StepSpec age ring s (visit age ring s row rows migrated seed fault) := by
  unfold visit
  split
  · rename_i done
    exact .skips here done
  · rename_i legacy
    split
    · exact .ends (.failed _) nofun nofun
    · rename_i sealed
      split
      · exact .ends (.failed _) nofun nofun
      · exact .encrypts here (Bool.eq_false_of_not_eq_true legacy) sealed

theorem step_spec (stepped : step age ring s label = some s') : StepSpec age ring s s' := by
  cases label with
  | start read =>
    simp only [step] at stepped
    split at stepped
    · cases stepped
    · cases stepped
      exact .ends (.failed _) nofun nofun
    · split at stepped
      · rename_i read
        cases stepped
        exact .starts read
      · cases stepped
  | visit seed fault =>
    simp only [step] at stepped
    split at stepped
    · rename_i here
      cases stepped
      exact visit_spec seed fault here
    · cases stepped
  | finish =>
    simp only [step] at stepped
    split at stepped
    · rename_i here
      cases stepped
      refine .ends (.done _) nofun ?_
      rintro _ ⟨⟩
      exact here
    · cases stepped
  | kill =>
    cases stepped
    exact .ends .down nofun nofun

/-! ## The fate of a row -/

def Fate (age : Age) (ring : KeyRing) (updates : List String) (before after : Row) : Prop :=
  after.id = before.id ∧
    (after = before ∧ before.id ∉ updates ∨
      isAgeCiphertext before.apiKey = false ∧ before.id ∈ updates ∧
        ∃ seed, ring.encrypt age seed before.apiKey = .ok after.apiKey)

/-- The rows it has still to visit are stored as it read them, and the others are encrypted. -/
structure Walk (table : Credentials) (rows : List Row) : Prop where
  distinct : (rows.map Row.id).Nodup
  stored : ∀ row ∈ rows, row ∈ table.rows
  others : ∀ row ∈ table.rows, row ∈ rows ∨ isAgeCiphertext row.apiKey = true

structure Tracked (age : Age) (ring : KeyRing) (original : Credentials) (s : State) : Prop where
  rows : List.Forall₂ (Fate age ring s.updates) original.rows s.table.rows
  once : s.updates.Nodup
  walk : ∀ rows migrated, s.process = .migrating rows migrated → Walk s.table rows
  done : ∀ migrated, s.process = .done migrated →
    ∀ row ∈ s.table.rows, isAgeCiphertext row.apiKey = true

variable {original : Credentials}

theorem mem_setApiKey {id : String} (mem : row ∈ (setApiKey table id ciphertext).rows) :
    row.id = id ∧ row.apiKey = ciphertext ∨ row.id ≠ id ∧ row ∈ table.rows := by
  obtain ⟨old, isOld, rfl⟩ := mem_map.mp mem
  by_cases same : old.id = id
  · rw [if_pos (decide_eq_true same)]
    exact .inl ⟨same, rfl⟩
  · rw [if_neg (by simpa using same)]
    exact .inr ⟨same, isOld⟩

theorem mem_setApiKey_of_ne {id : String} (mem : row ∈ table.rows) (other : row.id ≠ id) :
    row ∈ (setApiKey table id ciphertext).rows := by
  refine mem_map.mpr ⟨row, mem, ?_⟩
  rw [if_neg (by simpa using other)]

theorem Walk.setApiKey (walk : Walk table (row :: rows))
    (sealed : isAgeCiphertext ciphertext = true) :
    Walk (KeyMigration.setApiKey table row.id ciphertext) rows := by
  have apart := nodup_cons.mp walk.distinct
  refine ⟨apart.2, fun row' mem => ?_, fun row' mem => ?_⟩
  · refine mem_setApiKey_of_ne (walk.stored row' (mem_cons_of_mem _ mem)) fun same => ?_
    exact apart.1 (same ▸ mem_map_of_mem mem)
  · rcases mem_setApiKey mem with ⟨-, isKey⟩ | ⟨other, old⟩
    · rw [isKey]
      exact .inr sealed
    · rcases walk.others row' old with mem | done
      · rcases mem_cons.mp mem with rfl | rest
        · exact absurd rfl other
        · exact .inl rest
      · exact .inr done

theorem Fate.of_legacy {updates : List String} {before after : Row}
    (fate : Fate age ring updates before after)
    (legacy : isAgeCiphertext after.apiKey = false) : after = before ∧ before.id ∉ updates := by
  rcases fate.2 with untouched | ⟨-, -, seed, sealed⟩
  · exact untouched
  · rw [isAgeCiphertext_of_encrypt sealed] at legacy
    cases legacy

theorem exists_fate (tracked : Tracked age ring original s)
    (mem : row ∈ s.table.rows) : ∃ before ∈ original.rows, Fate age ring s.updates before row :=
  exists_of_mem_forall₂ tracked.rows mem

theorem Tracked.encrypts {seed : age.Seed}
    (tracked : Tracked age ring original s) (here : s.process = .migrating (row :: rows) migrated)
    (legacy : isAgeCiphertext row.apiKey = false)
    (sealed : ring.encrypt age seed row.apiKey = .ok ciphertext) :
    Tracked age ring original
      { table := setApiKey s.table row.id ciphertext
        process := .migrating rows (migrated + 1)
        updates := s.updates ++ [row.id] } := by
  have walk := tracked.walk _ _ here
  have stored := walk.stored row mem_cons_self
  constructor
  · refine forall₂_map_right_iff.mpr (forall₂_iff_zip.mpr ⟨tracked.rows.length_eq, ?_⟩)
    intro before after mem
    have fate := forall₂_zip tracked.rows mem
    have isAfter : after ∈ s.table.rows := (of_mem_zip mem).2
    by_cases same : after.id = row.id
    · -- the updated row is the one the walk read
      obtain rfl := inj_on_of_nodup_map s.table.unique isAfter stored same
      obtain ⟨rfl, -⟩ := fate.of_legacy legacy
      rw [if_pos (by simp)]
      exact ⟨rfl, .inr ⟨legacy, mem_append_right _ mem_cons_self, seed, sealed⟩⟩
    · rw [if_neg (by simpa using same)]
      refine ⟨fate.1, fate.2.imp ?_ ?_⟩
      · rintro ⟨rfl, fresh⟩
        refine ⟨rfl, fun mem => ?_⟩
        rcases mem_append.mp mem with old | new
        · exact fresh old
        · exact same (mem_singleton.mp new)
      · rintro ⟨isLegacy, updated, wrapped⟩
        exact ⟨isLegacy, mem_append_left _ updated, wrapped⟩
  · obtain ⟨before, -, fate⟩ := exists_fate tracked stored
    obtain ⟨rfl, fresh⟩ := fate.of_legacy legacy
    rw [nodup_append']
    refine ⟨tracked.once, nodup_singleton _, ?_⟩
    simpa using fresh
  · rintro _ _ ⟨⟩
    exact walk.setApiKey (isAgeCiphertext_of_encrypt sealed)
  · nofun

theorem Tracked.step (tracked : Tracked age ring original s)
    (stepped : step age ring s label = some s') : Tracked age ring original s' := by
  cases step_spec stepped with
  | ends process ended finished =>
    refine ⟨tracked.rows, tracked.once, fun rows migrated loops => absurd loops (ended _ _),
      fun migrated isDone row mem => ?_⟩
    have walk := tracked.walk _ _ (finished migrated isDone)
    rcases walk.others row mem with still | done
    · cases still
    · exact done
  | starts read =>
    refine ⟨tracked.rows, tracked.once, ?_, nofun⟩
    rintro _ _ ⟨⟩
    exact ⟨(read.map Row.id).nodup_iff.mpr s.table.unique, fun row => read.mem_iff.mp,
      fun row mem => .inl (read.mem_iff.mpr mem)⟩
  | skips here done =>
    have walk := tracked.walk _ _ here
    refine ⟨tracked.rows, tracked.once, ?_, nofun⟩
    rintro _ _ ⟨⟩
    refine ⟨(nodup_cons.mp walk.distinct).2,
      fun row mem => walk.stored row (mem_cons_of_mem _ mem), fun row mem => ?_⟩
    rcases walk.others row mem with mem | isDone
    · rcases mem_cons.mp mem with rfl | rest
      · exact .inr done
      · exact .inl rest
    · exact .inr isDone
  | encrypts here legacy sealed => exact tracked.encrypts here legacy sealed

theorem tracked_initial (original : Credentials) :
    Tracked age ring original { table := original } :=
  ⟨forall₂_same.mpr fun _ _ => ⟨rfl, .inl ⟨rfl, not_mem_nil⟩⟩, nodup_nil, nofun,
    nofun⟩

structure Settled (settled s : State) : Prop where
  table : s.table = settled.table
  updates : s.updates = settled.updates
  walk : ∀ rows migrated, s.process = .migrating rows migrated →
    ∀ row ∈ rows, row ∈ settled.table.rows

theorem Settled.step {settled : State} (same : Settled settled s)
    (all : ∀ row ∈ settled.table.rows, isAgeCiphertext row.apiKey = true)
    (stepped : KeyMigration.step age ring s label = some s') : Settled settled s' := by
  cases step_spec stepped with
  | ends process ended _ =>
    exact ⟨same.table, same.updates, fun rows migrated loops => absurd loops (ended _ _)⟩
  | starts read =>
    refine ⟨same.table, same.updates, ?_⟩
    rintro _ _ ⟨⟩ row mem
    exact same.table ▸ read.mem_iff.mp mem
  | skips here _ =>
    refine ⟨same.table, same.updates, ?_⟩
    rintro _ _ ⟨⟩ row mem
    exact same.walk _ _ here row (mem_cons_of_mem _ mem)
  | encrypts here legacy _ =>
    rw [all _ (same.walk _ _ here _ mem_cons_self)] at legacy
    cases legacy

end Steps

/-! ## A complete run -/

section Complete

variable (age : Age) (ring : KeyRing)

/-- Some keys in plain, which do not start like a ciphertext, and the others encrypted with the
ring. -/
def Mixed (plain : String → List UInt8) (table : Credentials) : Prop :=
  ∀ row ∈ table.rows, row.apiKey = plain row.id ∧ isAgeCiphertext row.apiKey = false ∨
    ∃ seed, ring.encrypt age seed (plain row.id) = .ok row.apiKey

/-- **The migration is complete.** -/
structure Migrated (plain : String → List UInt8) (original : Credentials) (s : State) : Prop where
  ids : s.table.rows.map Row.id = original.rows.map Row.id
  opens : ∀ row ∈ s.table.rows, ring.decrypt age row.apiKey = .ok (plain row.id)
  sealed : ∀ row ∈ s.table.rows, ∃ seed, ring.encrypt age seed (plain row.id) = .ok row.apiKey
  once : s.updates.Nodup
  untouched : ∀ row ∈ original.rows, isAgeCiphertext row.apiKey = true →
    row ∈ s.table.rows ∧ row.id ∉ s.updates
  stable : ∀ labels s', Run (step age ring) anyStep s labels s' →
    s'.table = s.table ∧ s'.updates = s.updates

variable {age ring} {plain : String → List UInt8} {original : Credentials} {s : State}

theorem Fate.sealed {updates : List String} {before after : Row}
    (fate : Fate age ring updates before after) (mixed : Mixed age ring plain original)
    (mem : before ∈ original.rows) (done : isAgeCiphertext after.apiKey = true) :
    ∃ seed, ring.encrypt age seed (plain after.id) = .ok after.apiKey := by
  rcases mixed before mem with ⟨inPlain, free⟩ | ⟨seed, wrapped⟩
  · rcases fate.2 with ⟨rfl, -⟩ | ⟨-, -, sealed⟩
    · rw [free] at done
      cases done
    · rw [fate.1, ← inPlain]
      exact sealed
  · rcases fate.2 with ⟨rfl, -⟩ | ⟨legacy, -, -⟩
    · exact ⟨seed, wrapped⟩
    · rw [isAgeCiphertext_of_encrypt wrapped] at legacy
      cases legacy

theorem stable_of_done (tracked : Tracked age ring original s)
    (complete : s.process = .done migrated) {labels : List (Label age)} {s' : State}
    (run : Run (step age ring) anyStep s labels s') :
    s'.table = s.table ∧ s'.updates = s.updates := by
  have initial : Settled s s := by
    refine ⟨rfl, rfl, fun rows _ loops => ?_⟩
    rw [complete] at loops
    cases loops
  have settled := run.invariant
    (fun _ _ _ same _ next => same.step (tracked.done migrated complete) next) initial
  exact ⟨settled.table, settled.updates⟩

end Complete

/-- **Start-ups may be killed anywhere**: once one has come to the end of its walk every row is one
encryption of its key, and that stays so. -/
theorem migrated_of_complete (age : Age) (ring : KeyRing) {plain : String → List UInt8}
    {original : Credentials} (mixed : Mixed age ring plain original) {labels : List (Label age)}
    {s : State} {migrated : ℕ} (run : Run (step age ring) anyStep { table := original } labels s)
    (complete : s.process = .done migrated) : Migrated age ring plain original s := by
  have tracked : Tracked age ring original s :=
    run.invariant (fun _ _ _ tracked _ next => tracked.step next) (tracked_initial original)
  have sealed : ∀ row ∈ s.table.rows,
      ∃ seed, ring.encrypt age seed (plain row.id) = .ok row.apiKey := by
    intro row mem
    obtain ⟨before, isBefore, fate⟩ := exists_fate tracked mem
    exact fate.sealed mixed isBefore (tracked.done migrated complete row mem)
  refine ⟨?_, fun row mem => ?_, sealed, tracked.once, fun row mem done => ?_,
    fun labels s' => stable_of_done tracked complete⟩
  · have same : List.Forall₂ (fun before after : Row => before.id = after.id) original.rows
        s.table.rows := tracked.rows.imp fun _ _ fate => fate.1.symm
    exact (forall₂_eq_eq_eq ▸ forall₂_map_left_iff.mpr
      (forall₂_map_right_iff.mpr same) : _ = _).symm
  · obtain ⟨seed, wrapped⟩ := sealed row mem
    exact decrypt_of_encrypt wrapped
  · obtain ⟨after, isAfter, fate⟩ := exists_of_mem_forall₂ tracked.rows.flip mem
    rcases fate.2 with ⟨rfl, fresh⟩ | ⟨legacy, -, -⟩
    · exact ⟨isAfter, fresh⟩
    · rw [done] at legacy
      cases legacy

section Example

def transparent : Age where
  Seed := UInt8
  wrap _ seed plaintext := .ok (ageHeader ++ seed :: plaintext)
  unwrap _ ciphertext := .ok (ciphertext.drop (ageHeader.length + 1))
  header_of_wrap := by
    rintro _ seed plaintext _ ⟨⟩
    exact isPrefixOf_iff_prefix.mpr (prefix_append _ _)
  unwrap_of_wrap := by
    rintro _ seed plaintext _ ⟨⟩
    rw [← drop_drop, drop_left]
    rfl

def keys (id : String) : List UInt8 := if id = "cred-1" then [1] else [2, 3]

def someEncrypted : Credentials where
  rows := [⟨"cred-1", keys "cred-1"⟩, ⟨"cred-2", ageHeader ++ 7 :: keys "cred-2"⟩,
    ⟨"cred-3", keys "cred-3"⟩]
  unique := by decide

def killedOnce : List (Label transparent) :=
  let visits : Label transparent := .visit (42 : UInt8) (.ok ())
  [.start (.ok someEncrypted.rows), visits, .kill,
    .start (.ok (setApiKey someEncrypted "cred-1" (ageHeader ++ 42 :: keys "cred-1")).rows),
    visits, visits, visits, .finish]

theorem migrated_of_killedOnce :
    ∃ s, s.process = .done 1 ∧ Migrated transparent ⟨"passphrase"⟩ keys someEncrypted s := by
  obtain ⟨s, ran, complete⟩ : ∃ s, Run (step transparent ⟨"passphrase"⟩) anyStep
      { table := someEncrypted } killedOnce s ∧ s.process = .done 1 :=
    exists_run (by decide +kernel)
  refine ⟨s, complete, migrated_of_complete transparent ⟨"passphrase"⟩ ?_ ran complete⟩
  intro row mem
  simp only [someEncrypted, mem_cons, not_mem_nil, or_false] at mem
  rcases mem with rfl | rfl | rfl
  · exact .inl ⟨rfl, by decide +kernel⟩
  · exact .inr ⟨(7 : UInt8), rfl⟩
  · exact .inl ⟨rfl, by decide +kernel⟩

end Example

end Havn.Gateway.KeyMigration
