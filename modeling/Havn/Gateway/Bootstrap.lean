import Havn.Gateway.Api
import Havn.Lib.Except
import Havn.Lib.FileTree

/-!
# Reading and writing the bootstrap files

`havn-gateway/src/api/bootstrap.rs`: the texts behind an agent's prompt, each a file of its
workspace.  The persona is read from `SOUL.md` or else the older `SYSTEM.md`, and written to
`SOUL.md` only.
-/

namespace Havn.Gateway.Bootstrap

open Lib Lib.FileTree Api

inductive Field
  | system
  | user
  | heartbeat
deriving DecidableEq

def Field.file : Field → String
  | .system => "SOUL.md"
  | .user => "USER.md"
  | .heartbeat => "HEARTBEAT.md"

def legacySystemMd : String := "SYSTEM.md"

def maxBootstrapBytes : ℕ := 100 * 1024

structure BootstrapView where
  system : Option String
  user : Option String
  heartbeat : Option String
deriving DecidableEq

structure BootstrapPatch where
  system : Option String := none
  user : Option String := none
  heartbeat : Option String := none

def BootstrapPatch.get (patch : BootstrapPatch) : Field → Option String
  | .system => patch.system
  | .user => patch.user
  | .heartbeat => patch.heartbeat

/-- A workspace as `read_to_string` sees it. -/
structure Workspace where
  present : Bool := true
  file : String → Except IoError String

/-- What the file system refuses: to create the workspace, to write or remove a file. -/
structure Refusals where
  create : Option IoError := none
  write : String → Option IoError := fun _ => none

def unblank (content : String) : Option String :=
  if (trim content).isEmpty then none else some content

def readOptional (ws : Workspace) (name : String) : Except ApiError (Option String) :=
  match ws.file name with
  | .ok content => .ok (unblank content)
  | .error .notFound => .ok none
  | .error e => .error (.internal ("reading " ++ name ++ ": " ++ e.display))

def readSoulWithFallback (ws : Workspace) : Except ApiError (Option String) :=
  match readOptional ws Field.system.file with
  | .error e => .error e
  | .ok (some soul) => .ok (some soul)
  | .ok none => readOptional ws legacySystemMd

def readField (ws : Workspace) : Field → Except ApiError (Option String)
  | .system => readSoulWithFallback ws
  | .user => readOptional ws Field.user.file
  | .heartbeat => readOptional ws Field.heartbeat.file

def get (ws : Workspace) : Except ApiError BootstrapView := do
  let system ← readField ws .system
  let user ← readField ws .user
  let heartbeat ← readField ws .heartbeat
  return { system, user, heartbeat }

section Put

variable (refused : Refusals)

def writeOrClear (ws : Workspace) (name content : String) : Except ApiError Workspace :=
  if maxBootstrapBytes < content.utf8ByteSize then
    .error (.badRequest (name ++ " body exceeds " ++ toString maxBootstrapBytes ++
      " byte cap (got " ++ toString content.utf8ByteSize ++ ")"))
  else
    match (trim content).isEmpty, refused.write name with
    | true, none | true, some .notFound =>
      .ok { ws with file := Function.update ws.file name (.error .notFound) }
    | true, some e => .error (.internal ("removing " ++ name ++ ": " ++ e.display))
    | false, none => .ok { ws with file := Function.update ws.file name (.ok content) }
    | false, some e => .error (.internal ("writing " ++ name ++ ": " ++ e.display))

def createMissing (ws : Workspace) : Except (Workspace × ApiError) Workspace :=
  match if ws.present then none else refused.create with
  | some e => .error (ws, .internal ("creating workspace: " ++ e.display))
  | none => .ok { ws with present := true }

/-- One field of the patch.  What was written before a failure stays. -/
def writeField (patch : BootstrapPatch) (ws : Workspace) (field : Field) :
    Except (Workspace × ApiError) Workspace :=
  match patch.get field with
  | none => .ok ws
  | some content => (writeOrClear refused ws field.file content).mapError (ws, ·)

def put (ws : Workspace) (patch : BootstrapPatch) :
    Except (Workspace × ApiError) (Workspace × BootstrapView) := do
  let ws ← createMissing refused ws
  let ws ← writeField refused patch ws .system
  let ws ← writeField refused patch ws .user
  let ws ← writeField refused patch ws .heartbeat
  let view ← (get ws).mapError (ws, ·)
  return (ws, view)

end Put

variable {refused : Refusals} {ws ws' : Workspace} {patch : BootstrapPatch}

/-- What a file should read after the patch, its older version aside. -/
def patched (ws : Workspace) (patch : BootstrapPatch) (field : Field) :
    Except ApiError (Option String) :=
  ((patch.get field).map fun content => .ok (unblank content)).getD (readOptional ws field.file)

theorem readOptional_writeOrClear {name content : String}
    (written : writeOrClear refused ws name content = .ok ws') (other : String) :
    readOptional ws' other =
      if other = name then .ok (unblank content) else readOptional ws other := by
  unfold writeOrClear at written
  split at written
  · cases written
  split at written
  all_goals
    cases written <;> by_cases same : other = name <;> simp [readOptional, unblank, *]

theorem readOptional_writeField {field : Field}
    (written : writeField refused patch ws field = .ok ws')
    (name : String) :
    readOptional ws' name = if name = field.file then patched ws patch field
      else readOptional ws name := by
  unfold writeField at written
  unfold patched
  split at written
  · rename_i unset
    cases written
    split <;> simp_all
  · rename_i content set
    rw [readOptional_writeOrClear (mapError_eq_ok.mp written), set]
    rfl

/-! ## Reading back a patch -/

/-- The patched text, where a blank one is none, or what the field read before. -/
def expected (ws : Workspace) (patch : BootstrapPatch) (field : Field) :
    Except ApiError (Option String) :=
  ((patch.get field).map fun content => .ok (unblank content)).getD (readField ws field)

/-- **A patch reads back exactly when it does not uncover the older persona**: it is laid over the
previous view unless it clears the persona while `SYSTEM.md` has a text or cannot be read. -/
theorem put_get_iff (refused : Refusals) (ws ws' : Workspace) (patch : BootstrapPatch)
    (view : BootstrapView) (accepted : put refused ws patch = .ok (ws', view)) :
    get ws' = .ok view ∧
      ((∀ field, readField ws' field = expected ws patch field) ↔
        (patch.system.bind unblank = none → patch.system ≠ none →
          readOptional ws legacySystemMd = .ok none)) := by
  simp only [put, bind_eq_ok] at accepted
  obtain ⟨ws₀, opened, ws₁, system, ws₂, user, ws₃, heartbeat, view', got, done⟩ := accepted
  obtain ⟨rfl, rfl⟩ := Prod.mk.inj (Except.ok.inj done)
  refine ⟨mapError_eq_ok.mp got, ?_⟩
  have same : readOptional ws₀ = readOptional ws := by
    unfold createMissing at opened
    split at opened <;> cases opened
    rfl
  have reads := fun name => readOptional_writeField heartbeat name
  simp only [readOptional_writeField user, readOptional_writeField system, patched, same] at reads
  have soul : readOptional ws₃ Field.system.file = patched ws patch .system := reads _
  have legacy : readOptional ws₃ legacySystemMd = readOptional ws legacySystemMd := reads _
  have system : readField ws₃ .system = expected ws patch .system ↔
      (patch.system.bind unblank = none → patch.system ≠ none →
        readOptional ws legacySystemMd = .ok none) := by
    unfold readField readSoulWithFallback expected
    rw [soul, legacy, patched]
    cases given : patch.system with
    | none => simp [BootstrapPatch.get, given, readField, readSoulWithFallback]
    | some content =>
      cases shown : unblank content with
      | none | some => simp [BootstrapPatch.get, given, shown]
  rw [← system]
  refine ⟨fun law => law .system, fun law field => ?_⟩
  cases field with
  | system => exact law
  | user | heartbeat => exact reads _

def plainWorkspace (files : List (String × String)) : Workspace where
  file name := ((files.lookup name).map Except.ok).getD (.error .notFound)

theorem tea_reads_back : let ws := plainWorkspace [("SYSTEM.md", "Be brief.")]
    let patch : BootstrapPatch := { user := some "Likes tea." }
    ∃ ws' view, put {} ws patch = .ok (ws', view) ∧
      ∀ field, readField ws' field = expected ws patch field := by
  refine ⟨_, _, rfl, (put_get_iff {} _ _ _ _ rfl).2.mpr fun _ set => ?_⟩
  exact absurd rfl set

/-- **A cleared persona comes back from the older file**. -/
theorem cleared_persona_returns :
    let ws := plainWorkspace [("SOUL.md", "Be kind."), ("SYSTEM.md", "Be brief.")]
    get ws = .ok { system := some "Be kind.", user := none, heartbeat := none } ∧
      (put {} ws { system := some "" }).map (fun done => get done.1) =
        .ok (.ok { system := some "Be brief.", user := none, heartbeat := none }) :=
  ⟨rfl, rfl⟩

end Havn.Gateway.Bootstrap
