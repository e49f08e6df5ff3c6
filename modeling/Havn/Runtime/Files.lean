import Havn.Lib.Except

/-!
# Workspace paths

`safe_join` of `havn-runtime/src/tools/files.rs` puts a path that the model wrote under the
workspace, refusing whatever could lead out of it.

What a path names is decided by its components as the standard library computes them on Unix: empty
parts and `.` are left out, except a leading `.`.  Two paths are equal when their components are
(`SamePath`); a file has one `Canonical` spelling (`eq_of_samePath`).
-/

namespace Havn.Runtime.Files

open Lib List

inductive Component where
  | rootDir
  | curDir
  | parentDir
  | normal (name : List Char)
  deriving DecidableEq

variable (path : String)

def isAbsolute : Bool := path.toList.head? = some '/'

def parts : List (List Char) := path.toList.splitOn '/'

def isName (part : List Char) : Bool := part ≠ [] ∧ part ≠ ['.']

def toComponent (name : List Char) : Component :=
  if name = ['.', '.'] then .parentDir else .normal name

def start : List Component :=
  if isAbsolute path then [.rootDir]
  else if (parts path).head? = some ['.'] then [.curDir]
  else []

def components : List Component :=
  start path ++ ((parts path).filter isName).map toComponent

def join (base path : String) : String :=
  if isAbsolute path then path
  else if base.toList = [] ∨ base.toList.getLast? = some '/' then base ++ path
  else base ++ "/" ++ path

def checkComponent : Component → Except String Unit
  | .normal _ | .curDir => .ok ()
  | .parentDir => .error "parent-directory ('..') components are not allowed"
  | .rootDir => .error "root or prefix components are not allowed"

def safeJoin (workspace userPath : String) : Except String String :=
  if userPath = "" then .error "path must be non-empty"
  else if isAbsolute userPath then .error "absolute paths are not allowed"
  else do
    (components userPath).forM checkComponent
    .ok (join workspace userPath)

def SamePath (path other : String) : Prop := components path = components other
  deriving Decidable

def Canonical : Prop := ∀ part ∈ parts path, isName part = true
  deriving Decidable

structure FileName (text : String) : Prop where
  named : isName text.toList = true
  single : '/' ∉ text.toList
  down : text.toList ≠ ['.', '.']

theorem FileName.of_mem {text : String} {c : Char} (mem : c ∈ text.toList) (notDot : c ≠ '.')
    (single : '/' ∉ text.toList) : FileName text := by
  refine ⟨decide_eq_true ⟨ne_nil_of_mem mem, fun dot => ?_⟩, single, fun dots => ?_⟩
  · rw [dot, mem_singleton] at mem
    exact notDot mem
  · rw [dots] at mem
    simp [notDot] at mem

/-! ## Names -/

def names : List (List Char) := (parts path).filter isName

def Component.name? : Component → Option (List Char)
  | .normal name => some name
  | .parentDir => some ['.', '.']
  | .rootDir | .curDir => none

theorem name?_toComponent (name : List Char) : (toComponent name).name? = some name := by
  unfold toComponent
  split
  · rename_i up
    rw [up]
    rfl
  · rfl

theorem filterMap_start : (start path).filterMap Component.name? = [] := by
  unfold start
  split
  · rfl
  · split <;> rfl

theorem filterMap_components : (components path).filterMap Component.name? = names path := by
  rw [components, filterMap_append, filterMap_start, nil_append, filterMap_map]
  show List.filterMap (fun name => (toComponent name).name?) (names path) = _
  simp only [name?_toComponent, filterMap_some]

variable {path : String}

theorem SamePath.names_eq {other : String} (same : SamePath path other) :
    names path = names other := by
  rw [← filterMap_components, ← filterMap_components, same]

theorem names_append_slash (base rest : String)
    (spelt : path.toList = base.toList ++ '/' :: rest.toList) :
    names path = names base ++ names rest := by
  rw [names, parts, spelt, splitOn_append_cons_self, filter_append]
  rfl

theorem names_join (base : String) (relative : isAbsolute path = false) :
    names (join base path) = names base ++ names path := by
  unfold join
  rw [if_neg (by simp [relative])]
  split
  · rename_i ends
    rcases ends with empty | slash
    · obtain rfl : base = "" := String.toList_inj.mp empty
      rw [String.empty_append]
      rfl
    · -- the base is a shorter path and a slash
      obtain ⟨front, spelt⟩ := getLast?_eq_some_iff.mp slash
      have alone : names base = names (String.ofList front) := by
        rw [names_append_slash (String.ofList front) "" (by simp [spelt])]
        exact append_nil _
      rw [alone, names_append_slash (String.ofList front) path (by simp [spelt])]
  · exact names_append_slash base path (by simp)

theorem names_of_isName (named : isName path.toList = true) (single : '/' ∉ path.toList) :
    names path = [path.toList] := by
  rw [names, parts, splitOn_eq_singleton single, filter_cons_of_pos named,
    filter_nil]

theorem isAbsolute_join_of_relative (base : String) (relative : isAbsolute path = false) :
    isAbsolute (join base path) = isAbsolute base := by
  unfold join
  rw [if_neg (by simp [relative])]
  split
  · rename_i ends
    rcases ends with empty | slash
    · obtain rfl : base = "" := String.toList_inj.mp empty
      rw [String.empty_append, relative]
      rfl
    · obtain ⟨front, spelt⟩ := getLast?_eq_some_iff.mp slash
      cases front with
      | nil | cons => simp [isAbsolute, spelt]
  · rename_i ends
    cases spelt : base.toList with
    | nil => exact absurd (.inl spelt) ends
    | cons c rest => simp [isAbsolute, spelt]

theorem toList_of_canonical (canonical : Canonical path) :
    path.toList = ['/'].intercalate (names path) := by
  rw [names, filter_eq_self.mpr canonical]
  exact (intercalate_splitOn '/').symm

theorem eq_join_of_safeJoin {workspace resolved : String}
    (accepted : safeJoin workspace path = .ok resolved) :
    isAbsolute path = false ∧ resolved = join workspace path := by
  unfold safeJoin at accepted
  split at accepted
  · cases accepted
  split at accepted
  · cases accepted
  rename_i relative
  obtain ⟨-, -, joined⟩ := bind_eq_ok.mp accepted
  cases joined
  exact ⟨Bool.eq_false_iff.mpr relative, rfl⟩

/-- **A workspace file has one canonical spelling.** -/
theorem eq_of_samePath {workspace other resolved resolved' : String}
    (accepted : safeJoin workspace path = .ok resolved)
    (accepted' : safeJoin workspace other = .ok resolved') (same : SamePath resolved resolved')
    (canonical : Canonical path) (canonical' : Canonical other) : path = other := by
  obtain ⟨relative, rfl⟩ := eq_join_of_safeJoin accepted
  obtain ⟨relative', rfl⟩ := eq_join_of_safeJoin accepted'
  have namesEq := same.names_eq
  rw [names_join workspace relative, names_join workspace relative'] at namesEq
  have spelt : path.toList = other.toList := by
    rw [toList_of_canonical canonical, toList_of_canonical canonical',
      append_cancel_left namesEq]
  exact String.toList_inj.mp spelt

end Havn.Runtime.Files
