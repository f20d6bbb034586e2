/-
# The template store

The templates a board holds, by name. The ending of a template file may be given with a name and is
dropped. Templates are compiled into the store from a source, or from the files below a root folder,
one at a time or all at once. A template that does not compile leaves the store as it is. Loading
all templates ends early if a folder cannot be listed; what was loaded until then stays.

Key definitions: `Store`, `Store.lookup?`, `Store.compile`, `Store.load`, `Store.getOrLoad`,
`Store.loadAll`.
-/
import BulletinBoard.Files.Disk
import BulletinBoard.Log

namespace BulletinBoard

/-- Templates by name, in ascending order of names, and the folder of template files, if any. -/
structure Store where
  entries : List (String × Template)
  root : Option String
  deriving DecidableEq, Repr

namespace Store

/-- The ending of template files. -/
def extension : String := "mec"

/-- A store without templates. -/
def empty (root : Option String) : Store := ⟨[], root⟩

/-- A name without the ending of template files, if it has it. -/
def baseName (name : String) : String :=
  match name.toList.reverse with
  | 'c' :: 'e' :: 'm' :: '.' :: rest => String.ofList rest.reverse
  | _ => name

/-- Puts a template under a name into an ascending list. -/
def insert (name : String) (t : Template) : List (String × Template) → List (String × Template)
  | [] => [(name, t)]
  | (n, u) :: rest =>
    if name < n then (name, t) :: (n, u) :: rest
    else if name = n then (name, t) :: rest
    else (n, u) :: insert name t rest

/-- Putting a template under a name changes what that name stands for, and nothing else. -/
theorem lookup_insert (name other : String) (t : Template) (entries : List (String × Template)) :
    (insert name t entries).lookup other =
      if other = name then some t else entries.lookup other := by
  induction entries with
  | nil => exact lookup_entry name other t []
  | cons entry rest ih =>
    obtain ⟨n, u⟩ := entry
    unfold insert
    split
    · rw [lookup_entry]
    · split
      · rename_i hn
        subst hn
        rw [lookup_entry, lookup_entry]
        by_cases h : other = name <;> simp [h]
      · rename_i hn
        rw [lookup_entry, lookup_entry, ih]
        by_cases hu : other = n
        · subst hu
          simp [Ne.symm hn]
        · simp [hu]

/-- The template of a name. -/
def lookup? (s : Store) (name : String) : Option Template :=
  s.entries.lookup (baseName name)

/-- The template of a name, or the error that there is none. -/
def find (s : Store) (name : String) : Except RunError Template :=
  match s.lookup? name with
  | some t => .ok t
  | none => .error (.notCompiled (baseName name))

/-- Whether the store holds a template of a name. -/
def contains (s : Store) (name : String) : Bool :=
  (s.lookup? name).isSome

/-- The names in the store, in ascending order. -/
def names (s : Store) : List String :=
  s.entries.map Prod.fst

/-- What an operation on a store leads to. -/
structure Reply (ε : Type) where
  store : Store
  result : Except ε Template
  log : Log

/-! ### Compiling -/

/-- Compiles a source into the store. -/
def compile (s : Store) (name source : String) : Reply CompileError :=
  match Template.compile (baseName name) source with
  | .ok t =>
    ⟨{ s with entries := insert (baseName name) t s.entries }, .ok t,
      .count { Tally.zero with compiled := 1 }⟩
  | .error e => ⟨s, .error e, .count { Tally.zero with rejected := 1 }⟩

/-! ### Loading -/

/-- The path of the file of a template. -/
def path (root name : String) : String :=
  Disk.join root (name ++ "." ++ extension)

/-- The source of a template in the folder of template files. -/
def source (disk : Disk) (s : Store) (name : String) : Except ReadError String :=
  match s.root with
  | none => .error .noRoot
  | some root => disk.readText (path root name)

/-- Reads a template file and compiles it into the store. -/
def load (disk : Disk) (s : Store) (name : String) : Reply CompileError :=
  match s.source disk (baseName name) with
  | .error e => ⟨s, .error (.unreadable (baseName name) e), .empty⟩
  | .ok text => s.compile (baseName name) text

/-- Loads a template that the store does not hold. -/
def loadMissing (disk : Disk) (s : Store) (name : String) : Reply RunError :=
  match s.root with
  | none => ⟨s, .error (.notCompiled (baseName name)), .empty⟩
  | some _ =>
    let reply := s.load disk name
    match reply.result with
    | .ok t => ⟨reply.store, .ok t, reply.log⟩
    | .error e =>
      ⟨reply.store, .error (.notCompiled (baseName name)), reply.log ++ .warn (.notLoaded name e)⟩

/-- The template of a name. One that the store does not hold is loaded. -/
def getOrLoad (disk : Disk) (s : Store) (name : String) : Reply RunError :=
  match s.lookup? name with
  | some t => ⟨s, .ok t, .empty⟩
  | none => s.loadMissing disk name

/-! ### Loading all -/

/-- A file name parted at its last dot. A name that begins with its only dot is not parted. -/
def splitExtension? (file : String) : Option (String × String) :=
  let reversed := file.toList.reverse
  let ending := reversed.takeWhile (· != '.')
  match reversed.dropWhile (· != '.') with
  | _ :: c :: rest => some (String.ofList (c :: rest).reverse, String.ofList ending.reverse)
  | _ => none

/-- What is left of a file name without its ending. The dot before the ending goes too, unless all
that is left are two dots. -/
def withoutEnding (stem : String) : String :=
  if stem = "." then ".." else stem

/-- The template that a file holds, if it is a template file. `folders` leads from the root to the
folder of the file. -/
def templateName? (folders : List String) (file : String) : Option String :=
  match splitExtension? file with
  | some (stem, ending) =>
    if ending = extension then some ("/".intercalate (folders ++ [withoutEnding stem])) else none
  | none => none

/-- The templates that are files of a folder, in listing order. -/
def templatesIn (folders : List String) (f : Folder) : List String :=
  f.fileNames.filterMap (templateName? folders)

/-- How loading all templates went. -/
structure Census where
  store : Store
  compiled : Nat
  failed : Nat
  log : Log
  /-- Why a folder could not be listed, if one could not. -/
  stopped : Option ReadError
  deriving DecidableEq, Repr

/-- Loads one more template. -/
def Census.next (disk : Disk) (c : Census) (name : String) : Census :=
  let reply := c.store.load disk name
  match reply.result with
  | .ok _ => { c with store := reply.store, compiled := c.compiled + 1, log := c.log ++ reply.log }
  | .error e =>
    { c with
      store := reply.store
      failed := c.failed + 1
      log := c.log ++ reply.log ++ .warn (.skipped name e) }

/-- Loads the templates of one more folder below the root, unless an earlier one could not be
listed. -/
def Census.folder (disk : Disk) (root : String) (c : Census) (folders : List String) : Census :=
  match c.stopped with
  | some _ => c
  | none =>
    match disk.list (folders.foldl Disk.join root) with
    | .error e => { c with stopped := some e }
    | .ok f => (templatesIn folders f).foldl (next disk) c

/-- Loads every template below the root, folder by folder. The first folder that cannot be listed
ends it. -/
def loadAll (disk : Disk) (s : Store) : Census :=
  let start : Census := ⟨s, 0, 0, .empty, none⟩
  match s.root with
  | none => start
  | some root =>
    match disk.list root with
    | .error e => { start with stopped := some e }
    | .ok f => (f.folders.map Prod.fst).foldl (Census.folder disk root) start

end Store

end BulletinBoard
