/-
# Folders

A folder tree, with the entries of each folder in the order they are listed.

Key definitions: `Folder`, `Folder.find?`, `Folder.locate`, `Folder.put`, `Folder.folders`.
-/
import BulletinBoard.Template.Basic

namespace BulletinBoard

/-- The entries of a folder. -/
inductive Folder where
  | empty
  /-- A file, before further entries. -/
  | file (name : String) (content : List UInt8) (rest : Folder)
  /-- A folder, before further entries. -/
  | folder (name : String) (inside : Folder) (rest : Folder)
  deriving DecidableEq, Repr

/-- What a name in a folder stands for. -/
inductive Entry where
  | file (content : List UInt8)
  | folder (inside : Folder)
  deriving DecidableEq, Repr

namespace Folder

/-- The entry of a name. -/
def find? (name : String) : Folder → Option Entry
  | empty => none
  | file n content rest => if n = name then some (.file content) else find? name rest
  | folder n inside rest => if n = name then some (.folder inside) else find? name rest

/-- The same folder without the entry of a name. -/
def erase (name : String) : Folder → Folder
  | empty => empty
  | file n content rest => if n = name then rest else file n content (erase name rest)
  | folder n inside rest => if n = name then rest else folder n inside (erase name rest)

/-- The same folder with a last entry. -/
def append (name : String) (entry : Entry) : Folder → Folder
  | empty =>
    match entry with
    | .file content => file name content empty
    | .folder inside => folder name inside empty
  | file n content rest => file n content (append name entry rest)
  | folder n inside rest => folder n inside (append name entry rest)

/-- The same folder with an entry of a name, in place of the one it had. -/
def insert (name : String) (entry : Entry) (f : Folder) : Folder :=
  (f.erase name).append name entry

/-- The folder of a name, empty if no folder has it. -/
def inside (name : String) (f : Folder) : Folder :=
  match f.find? name with
  | some (.folder g) => g
  | _ => empty

/-! ### Paths -/

/-- The longest name of an entry, in bytes. -/
def longestName : Nat := 255

/-- Follows the parts of a path. `above` holds the folders that lead here, the nearest first. Empty
parts and single dots stay, and two dots go up. -/
def locate (above : List Folder) (here : Folder) : List String → Except ReadError Entry
  | [] => .ok (.folder here)
  | part :: rest =>
    if part = "" ∨ part = "." then locate above here rest
    else if part = ".." then
      match above with
      | [] => locate [] here rest
      | up :: further => locate further up rest
    else if longestName < part.utf8ByteSize then .error .nameTooLong
    else
      match here.find? part with
      | none => .error .missing
      | some (.folder inside) => locate (here :: above) inside rest
      | some (.file content) => if rest.isEmpty then .ok (.file content) else .error .notFolder

/-- The same tree with an entry at a path, and with the folders that lead to it. -/
def put (entry : Entry) : List String → Folder → Folder
  | [], f => f
  | [name], f => f.insert name entry
  | name :: further, f => f.insert name (.folder (put entry further (f.inside name)))

/-- The same tree without the file at a path. -/
def remove : List String → Folder → Folder
  | [], f => f
  | [name], f =>
    match f.find? name with
    | some (.file _) => f.erase name
    | _ => f
  | name :: further, f =>
    match f.find? name with
    | some (.folder g) => f.insert name (.folder (remove further g))
    | _ => f

/-! ### Visiting -/

/-- The names of the files in a folder, in listing order. -/
def fileNames : Folder → List String
  | empty => []
  | file name _ rest => name :: fileNames rest
  | folder _ _ rest => fileNames rest

/-- The folders below a folder that is reached by `above`, each with the names that lead to it. Of
two folders in one folder the later comes first, with all that is below it. -/
def foldersBelow (above : List String) : Folder → List (List String × Folder)
  | empty => []
  | file _ _ rest => foldersBelow above rest
  | folder name inside rest =>
    foldersBelow above rest ++ (above ++ [name], inside) :: foldersBelow (above ++ [name]) inside

/-- A folder and the folders below it, each with the names that lead to it, in visiting order. -/
def folders (f : Folder) : List (List String × Folder) :=
  ([], f) :: foldersBelow [] f

end Folder

end BulletinBoard
