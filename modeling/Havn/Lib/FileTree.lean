import Havn.Lib.Table
import Mathlib.Data.List.Infix

/-!
# File trees

A file tree is a table of the directories and files that there are, keyed by the names on the way
from the root.  A path is a list of moves, each of which starts from a directory (`locate`).  There
are no links.
-/

namespace Havn.Lib.FileTree

open Table List

abbrev Name := List Char

abbrev Place := List Name

inductive Node
  | dir
  | file (content : String)
deriving DecidableEq

abbrev Tree := Table (Place × Node) (Prod.fst : Place × Node → Place)

inductive IoError
  | notFound
  | alreadyExists
  | notADirectory
  | isADirectory
  | invalidInput
  | directoryNotEmpty
  | other (text : String)
deriving DecidableEq

def IoError.display : IoError → String
  | .notFound => "No such file or directory (os error 2)"
  | .alreadyExists => "File exists (os error 17)"
  | .notADirectory => "Not a directory (os error 20)"
  | .isADirectory => "Is a directory (os error 21)"
  | .invalidInput => "Invalid argument (os error 22)"
  | .directoryNotEmpty => "Directory not empty (os error 39)"
  | .other text => text

inductive Move
  | root
  | up
  | down (name : Name)
deriving DecidableEq

def node? (tree : Tree) (place : Place) : Option Node :=
  if place = [] then some .dir else (tree.find place).map Prod.snd

def enter (place : Place) : Move → Place
  | .root => []
  | .up => place.dropLast
  | .down name => place ++ [name]

def locate (tree : Tree) : Place → List Move → Except IoError Place
  | place, [] => .ok place
  | place, move :: moves =>
    match node? tree place with
    | some .dir => locate tree (enter place move) moves
    | some (.file _) => .error .notADirectory
    | none => .error .notFound

/-! ## Operations -/

def tryExists (tree : Tree) (path : List Move) : Except IoError Bool :=
  match locate tree [] path with
  | .ok place => .ok (node? tree place).isSome
  | .error .notFound => .ok false
  | .error e => .error e

def readToString (tree : Tree) (path : List Move) : Except IoError String :=
  match locate tree [] path with
  | .error e => .error e
  | .ok place =>
    match node? tree place with
    | some (.file content) => .ok content
    | some .dir => .error .isADirectory
    | none => .error .notFound

variable {tree : Tree} {path : List Move} {content : String} {place : Place}

theorem readToString_eq_ok :
    readToString tree path = .ok content ↔
      ∃ place, locate tree [] path = .ok place ∧ node? tree place = some (.file content) := by
  unfold readToString
  cases locate tree [] path with
  | error => simp
  | ok place =>
    cases here : node? tree place with
    | none => simp [here]
    | some node =>
      cases node with
      | dir | file => simp [here]

def put (tree : Tree) (place : Place) (node : Node) : Tree :=
  tree.upsert (place, node) (fun row => (row.1, node)) fun _ => rfl

def write (tree : Tree) (path : List Move) (content : String) : Except IoError Tree :=
  match locate tree [] path with
  | .error e => .error e
  | .ok place =>
    match node? tree place with
    | some .dir => .error .isADirectory
    | some (.file _) | none => .ok (put tree place (.file content))

def createDirAll (tree : Tree) : Place → List Move → Except IoError Tree
  | _, [] => .ok tree
  | place, move :: moves =>
    match node? tree (enter place move) with
    | some .dir => createDirAll tree (enter place move) moves
    | some (.file _) => .error (if moves = [] then .alreadyExists else .notADirectory)
    | none => createDirAll (put tree (enter place move) .dir) (enter place move) moves

def removeDirAll (tree : Tree) (path : List Move) : Except IoError Tree :=
  match locate tree [] path with
  | .error e => .error e
  | .ok place =>
    match node? tree place with
    | some .dir => .ok (tree.delete fun row => place <+: row.1)
    | some (.file _) => .error .notADirectory
    | none => .error .notFound

def childrenOf (tree : Tree) (place : Place) : List Name :=
  (tree.rows.filter fun row => row.1 ≠ [] ∧ row.1.dropLast = place).filterMap
    fun row => row.1.getLast?

def readDir (tree : Tree) (path : List Move) : Except IoError (List Name) :=
  match locate tree [] path with
  | .error e => .error e
  | .ok place =>
    match node? tree place with
    | some .dir => .ok (childrenOf tree place)
    | some (.file _) => .error .notADirectory
    | none => .error .notFound

def relocate (source target place : Place) : Place :=
  if source <+: place then target ++ place.drop source.length else place

theorem relocate_of_isPrefix {source place : Place} (target : Place) (below : source <+: place) :
    ∃ rest, place = source ++ rest ∧ relocate source target place = target ++ rest := by
  obtain ⟨rest, rfl⟩ := below
  refine ⟨rest, rfl, ?_⟩
  rw [relocate, if_pos (prefix_append source rest), drop_left]

theorem relocate_inj {source target place place' : Place} (clear : ¬ target <+: place)
    (clear' : ¬ target <+: place')
    (same : relocate source target place = relocate source target place') : place = place' := by
  by_cases below : source <+: place
  · obtain ⟨rest, rfl, moved⟩ := relocate_of_isPrefix target below
    by_cases below' : source <+: place'
    · obtain ⟨rest', rfl, moved'⟩ := relocate_of_isPrefix target below'
      rw [moved, moved', append_cancel_left_eq] at same
      rw [same]
    · rw [moved, relocate, if_neg below'] at same
      exact absurd ⟨rest, same⟩ clear'
  · rw [relocate, if_neg below] at same
    by_cases below' : source <+: place'
    · obtain ⟨rest', rfl, moved'⟩ := relocate_of_isPrefix target below'
      rw [moved'] at same
      exact absurd ⟨rest', same.symm⟩ clear
    · rw [same, relocate, if_neg below']

def transplant (tree : Tree) (source target : Place) : Tree where
  rows := (tree.rows.filter fun row => ¬ target <+: row.1).map
    fun row => (relocate source target row.1, row.2)
  unique := by
    rw [map_map]
    have kept : ((tree.rows.filter fun row => ¬ target <+: row.1).map Prod.fst).Nodup :=
      (filter_sublist.map Prod.fst).nodup tree.unique
    have factored : (Prod.fst ∘ fun row : Place × Node => (relocate source target row.1, row.2)) =
        relocate source target ∘ Prod.fst := rfl
    rw [factored, ← map_map]
    refine kept.map_on ?_
    intro place mem place' mem' same
    obtain ⟨row, kept, rfl⟩ := mem_map.mp mem
    obtain ⟨row', kept', rfl⟩ := mem_map.mp mem'
    exact relocate_inj (of_decide_eq_true (mem_filter.mp kept).2)
      (of_decide_eq_true (mem_filter.mp kept').2) same

def replaceable (tree : Tree) (target : Place) : Node → Option Node → Except IoError Unit
  | _, none => .ok ()
  | .dir, some .dir => if childrenOf tree target = [] then .ok () else .error .directoryNotEmpty
  | .dir, some (.file _) => .error .notADirectory
  | .file _, some .dir => .error .isADirectory
  | .file _, some (.file _) => .ok ()

def rename (tree : Tree) (source target : List Move) : Except IoError Tree :=
  match locate tree [] source, locate tree [] target with
  | .error e, _ => .error e
  | .ok _, .error e => .error e
  | .ok source, .ok target =>
    match node? tree source with
    | none => .error .notFound
    | some node =>
      if source = target then .ok tree
      else if source <+: target then .error .invalidInput
      else
        match replaceable tree target node (node? tree target) with
        | .error e => .error e
        | .ok () => .ok (transplant tree source target)

/-! ## What stays -/

theorem node?_put (tree : Tree) (place : Place) (node : Node) (other : Place) :
    node? (put tree place node) other =
      if other = [] then some .dir else if other = place then some node else node? tree other := by
  unfold node?
  split
  · rfl
  unfold put
  rw [find_upsert]
  split
  · cases tree.find place with
    | none => rfl
    | some => rfl
  · rfl

variable {tree' : Tree} {moves : List Move}

theorem write_eq_ok :
    write tree path content = .ok tree' ↔ ∃ place, locate tree [] path = .ok place ∧
      node? tree place ≠ some .dir ∧ tree' = put tree place (.file content) := by
  unfold write
  cases locate tree [] path with
  | error => simp
  | ok place =>
    cases here : node? tree place with
    | none => simp [here, eq_comm]
    | some node =>
      cases node with
      | dir => simp [here]
      | file => simp [here, eq_comm]

theorem node?_write (written : write tree path content = .ok tree') :
    ∃ place, locate tree [] path = .ok place ∧ node? tree' place = some (.file content) ∧
      (∀ other, node? tree other = some .dir → node? tree' other = some .dir) ∧
      ∀ other, other ≠ place → node? tree' other = node? tree other := by
  obtain ⟨place, located, noDir, rfl⟩ := write_eq_ok.mp written
  have notRoot : place ≠ [] := by
    rintro rfl
    exact noDir rfl
  have elsewhere : ∀ other, other ≠ place →
      node? (put tree place (.file content)) other = node? tree other := by
    intro other apart
    rw [node?_put, if_neg apart]
    split
    · rename_i isRoot
      rw [isRoot]
      rfl
    · rfl
  refine ⟨place, located, ?_, fun other isDir => ?_, elsewhere⟩
  · rw [node?_put, if_neg notRoot, if_pos rfl]
  · rw [elsewhere other fun same => noDir (same ▸ isDir), isDir]

theorem node?_createDirAll : ∀ {tree tree' : Tree} {place : Place},
    createDirAll tree place moves = .ok tree' →
      ∀ other node, node? tree other = some node → node? tree' other = some node := by
  induction moves with
  | nil =>
    intro tree tree' place made other node present
    cases made
    exact present
  | cons move moves ih =>
    intro tree tree' place made other node present
    unfold createDirAll at made
    split at made
    · exact ih made other node present
    · cases made
    · rename_i absent
      refine ih made other node ?_
      rw [node?_put]
      split
      · rename_i isRoot
        rw [isRoot] at present
        exact present
      · split
        · rename_i same
          rw [same, absent] at present
          cases present
        · exact present

/-! ## Paths through directories -/

variable {there : Place}

theorem locate_concat_eq_ok {move : Move} :
    ∀ {place : Place}, locate tree place (moves ++ [move]) = .ok there ↔
      ∃ before, locate tree place moves = .ok before ∧ node? tree before = some .dir ∧
        there = enter before move := by
  induction moves with
  | nil =>
    intro place
    simp only [nil_append, locate]
    cases here : node? tree place with
    | none => simp [here]
    | some node =>
      cases node with
      | dir => simp [here, eq_comm]
      | file => simp [here]
  | cons first moves ih =>
    intro place
    simp only [cons_append, locate]
    cases node? tree place with
    | none => simp
    | some node =>
      cases node with
      | dir => exact ih
      | file => simp

theorem locate_of_dirs_stay
    (stay : ∀ other, node? tree other = some .dir → node? tree' other = some .dir) :
    ∀ {place : Place}, locate tree place moves = .ok there →
      locate tree' place moves = .ok there := by
  induction moves with
  | nil => exact id
  | cons move moves ih =>
    intro place located
    unfold locate at located ⊢
    split at located
    · rename_i isDir
      rw [stay place isDir]
      exact ih located
    · cases located
    · cases located

theorem locate_createDirAll : ∀ {tree tree' : Tree} {place : Place},
    createDirAll tree place moves = .ok tree' → node? tree place = some .dir →
      ∃ there, locate tree' place moves = .ok there ∧ node? tree' there = some .dir := by
  induction moves with
  | nil =>
    intro tree tree' place made isDir
    cases made
    exact ⟨place, rfl, isDir⟩
  | cons move moves ih =>
    intro tree tree' place made isDir
    have start := node?_createDirAll made place .dir isDir
    unfold createDirAll at made
    unfold locate
    rw [start]
    split at made
    · rename_i entered
      exact ih made entered
    · cases made
    · refine ih made ?_
      rw [node?_put]
      split
      · rfl
      · rw [if_pos rfl]

theorem createDirAll_append {moves more : List Move} :
    ∀ {place : Place}, locate tree place moves = .ok there → node? tree there = some .dir →
      createDirAll tree place (moves ++ more) = createDirAll tree there more := by
  induction moves with
  | nil =>
    intro place located _
    cases located
    rfl
  | cons move moves ih =>
    intro place located isDir
    unfold locate at located
    split at located
    · have entered : node? tree (enter place move) = some .dir := by
        cases moves with
        | nil =>
          cases located
          exact isDir
        | cons next moves =>
          unfold locate at located
          split at located
          · assumption
          · cases located
          · cases located
      rw [cons_append, createDirAll, entered]
      exact ih located isDir
    · cases located
    · cases located

theorem createDirAll_of_locate
    (located : locate tree place moves = .ok there) (isDir : node? tree there = some .dir) :
    createDirAll tree place moves = .ok tree := by
  rw [← append_nil moves, createDirAll_append located isDir]
  rfl

theorem locate_down {names : List Name} : ∀ {place : Place},
    (∀ more, more <+: names → node? tree (place ++ more) = some .dir) →
      locate tree place (names.map .down) = .ok (place ++ names) := by
  induction names with
  | nil => exact fun {place} _ => congrArg Except.ok (append_nil place).symm
  | cons name names ih =>
    intro place dirs
    have here := dirs [] List.nil_prefix
    rw [append_nil] at here
    rw [map_cons, locate, here]
    show locate tree (place ++ [name]) _ = _
    rw [ih fun more begins => ?_, append_assoc]
    · rfl
    · rw [append_assoc]
      exact dirs (name :: more) (cons_prefix_cons.mpr ⟨rfl, begins⟩)

/-! ## Renaming -/

theorem rename_eq_ok {source target : List Move} (renamed : rename tree source target = .ok tree') :
    ∃ place place', locate tree [] source = .ok place ∧ locate tree [] target = .ok place' ∧
      (tree' = tree ∨ tree' = transplant tree place place') := by
  unfold rename at renamed
  split at renamed
  · cases renamed
  · cases renamed
  rename_i place place' atSource atTarget
  refine ⟨place, place', atSource, atTarget, ?_⟩
  split at renamed
  · cases renamed
  split at renamed
  · cases renamed
    exact .inl rfl
  · split at renamed
    · cases renamed
    split at renamed
    · cases renamed
    · cases renamed
      exact .inr rfl

theorem node?_transplant (tree : Tree) {source target place : Place}
    (apart : ¬ source <+: place) (apart' : ¬ target <+: place) :
    node? (transplant tree source target) place = node? tree place := by
  have unmoved : relocate source target place = place := if_neg apart
  unfold node?
  congr 2
  ext row
  rw [find_eq_some, find_eq_some]
  constructor
  · rintro ⟨mem, rfl⟩
    obtain ⟨old, kept, rfl⟩ := mem_map.mp mem
    by_cases below : source <+: old.1
    · obtain ⟨rest, -, moved⟩ := relocate_of_isPrefix target below
      exact absurd ⟨rest, moved.symm⟩ apart'
    · simp only [relocate, if_neg below]
      exact ⟨mem_of_mem_filter kept, trivial⟩
  · rintro ⟨mem, rfl⟩
    refine ⟨mem_map.mpr ⟨row, mem_filter.mpr ⟨mem, decide_eq_true apart'⟩, ?_⟩, rfl⟩
    rw [unmoved]

/-! ## Reading after writing -/

theorem readToString_of_write (written : write tree path content = .ok tree') :
    readToString tree' path = .ok content := by
  obtain ⟨place, located, isFile, stay, -⟩ := node?_write written
  exact readToString_eq_ok.mpr ⟨place, locate_of_dirs_stay stay located, isFile⟩

theorem readToString_of_write_elsewhere {other : List Move} {content text : String}
    (written : write tree path content = .ok tree') (read : readToString tree other = .ok text)
    (apart : ∀ place, locate tree [] path = .ok place → locate tree [] other ≠ .ok place) :
    readToString tree' other = .ok text := by
  obtain ⟨place, located, -, stay, elsewhere⟩ := node?_write written
  obtain ⟨there, leads, isFile⟩ := readToString_eq_ok.mp read
  refine readToString_eq_ok.mpr ⟨there, locate_of_dirs_stay stay leads, ?_⟩
  rw [elsewhere there fun same => apart place located (same ▸ leads), isFile]

theorem readToString_of_createDirAll {text : String}
    (made : createDirAll tree place moves = .ok tree') (read : readToString tree path = .ok text) :
    readToString tree' path = .ok text := by
  obtain ⟨there, leads, isFile⟩ := readToString_eq_ok.mp read
  have stay := node?_createDirAll made
  exact readToString_eq_ok.mpr ⟨there, locate_of_dirs_stay (fun other => stay other .dir) leads,
    stay there _ isFile⟩

theorem eq_of_locate_below {base : List Move} {a b a' b' : Name}
    (first : locate tree [] (base ++ [.down a] ++ [.down b]) = .ok place)
    (second : locate tree [] (base ++ [.down a'] ++ [.down b']) = .ok place) : a = a' ∧ b = b' := by
  obtain ⟨dir, atDir, -, rfl⟩ := locate_concat_eq_ok.mp first
  obtain ⟨dir', atDir', -, same⟩ := locate_concat_eq_ok.mp second
  obtain ⟨up, atUp, -, rfl⟩ := locate_concat_eq_ok.mp atDir
  obtain ⟨up', atUp', -, rfl⟩ := locate_concat_eq_ok.mp atDir'
  obtain rfl : up = up' := Except.ok.inj (atUp.symm.trans atUp')
  simp only [enter, append_assoc, append_cancel_left_eq, cons_append,
    nil_append, List.cons.injEq, and_true] at same
  exact same

end Havn.Lib.FileTree
