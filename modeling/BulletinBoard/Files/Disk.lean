/-
# The disk

A folder tree and the folder that paths without a leading slash start from.

Key definitions: `Disk`, `Disk.read`, `Disk.readText`, `Disk.list`, `Disk.makeFolder`, `Disk.save`,
`Disk.remove`.
-/
import BulletinBoard.Files.Folder
import BulletinBoard.Text.Utf8

namespace BulletinBoard

open Text

/-- The files a board can reach. `home` leads from the top to where relative paths start. -/
structure Disk where
  top : Folder
  home : List String
  deriving DecidableEq, Repr

namespace Disk

/-- Splits a text at a character. -/
def splitAt (separator : Char) : List Char → List (List Char)
  | [] => [[]]
  | c :: rest =>
    match splitAt separator rest with
    | [] => [[c]]
    | part :: parts => if c = separator then [] :: part :: parts else (c :: part) :: parts

/-- The parts of a path. -/
def partsOf (path : String) : List String :=
  (splitAt '/' path.toList).map String.ofList

/-- The longest path, in bytes. -/
def longestPath : Nat := 4095

/-- Whether a path starts from the top. -/
def isAbsolute (path : String) : Bool :=
  path.toList.head? == some '/'

/-- A path below a folder. An absolute path stays as it is. -/
def join (folder path : String) : String :=
  if isAbsolute path || folder.isEmpty then path
  else if folder.toList.getLast? == some '/' then folder ++ path
  else folder ++ "/" ++ path

/-- The parts to follow from the top to a path. -/
def walk (d : Disk) (path : String) : List String :=
  (if isAbsolute path then [] else d.home) ++ partsOf path

/-- The entry at a path. -/
def entry (d : Disk) (path : String) : Except ReadError Entry :=
  if path.toList.contains '\x00' then .error .endsEarly
  else if longestPath < path.utf8ByteSize then .error .nameTooLong
  else if path.isEmpty then .error .missing
  else
    d.top.locate [] (d.walk path)

/-- The bytes of the file at a path. -/
def read (d : Disk) (path : String) : Except ReadError (List UInt8) :=
  match d.entry path with
  | .ok (.file content) => .ok content
  | .ok (.folder _) => .error .isFolder
  | .error e => .error e

/-- The text of the file at a path. -/
def readText (d : Disk) (path : String) : Except ReadError String :=
  match d.read path with
  | .error e => .error e
  | .ok content =>
    match Utf8.decode? content with
    | some text => .ok text
    | none => .error .notText

/-- The folder at a path. -/
def list (d : Disk) (path : String) : Except ReadError Folder :=
  match d.entry path with
  | .ok (.folder inside) => .ok inside
  | .ok (.file _) => .error .notFolder
  | .error e => .error e

/-! ### Writing -/

/-- Takes empty parts and single dots out of a path, and each pair of dots with the part before
it. `done` holds the parts kept so far, the last first. -/
def normalize (done : List String) : List String → List String
  | [] => done.reverse
  | part :: rest =>
    if part = "" ∨ part = "." then normalize done rest
    else if part = ".." then normalize (done.drop 1) rest
    else normalize (part :: done) rest

/-- The names that lead from the top to a path that goes through folders only. -/
def fromTop (d : Disk) (path : String) : List String :=
  normalize [] (d.walk path)

/-- The tree with a folder wherever a path comes to nothing. `passed` holds the parts of the path
up to here. -/
def makeWay (passed : List String) (top : Folder) : List String → Folder
  | [] => top
  | part :: rest =>
    let here := passed ++ [part]
    match top.locate [] here with
    | .error .missing => makeWay here (top.put (.folder .empty) (normalize [] here)) rest
    | _ => makeWay here top rest

/-- The disk with a folder at a path, and with every folder that the path goes through, also where
it turns back from one. Nothing is made behind a file or a name that is too long, and nothing at all
for a path that is too long or ends early. -/
def makeFolder (d : Disk) (path : String) : Disk :=
  match d.entry path with
  | .error .missing => { d with top := makeWay [] d.top (d.walk path) }
  | _ => d

/-- The disk with an entry at a path whose folders are there. -/
def put (d : Disk) (path : String) (entry : Entry) : Disk :=
  { d with top := d.top.put entry (d.fromTop path) }

/-- The disk without the file at a path. It is the same disk if no file is there. -/
def remove (d : Disk) (path : String) : Disk :=
  match d.entry path with
  | .ok (.file _) => { d with top := d.top.remove (d.fromTop path) }
  | _ => d

/-- The disk with a file at a path. The folders that lead to it must be there, and no folder may be
in its place. -/
def save (d : Disk) (path : String) (content : List UInt8) : Except ReadError Disk :=
  match d.entry path with
  | .ok (.folder _) => .error .isFolder
  | .ok (.file _) => .ok (d.put path (.file content))
  | .error .missing =>
    if (partsOf path).getLastD "" = "" then .error .isFolder
    else
      match d.top.locate [] (d.walk path).dropLast with
      | .ok (.folder _) => .ok (d.put path (.file content))
      | .ok (.file _) => .error .notFolder
      | .error e => .error e
  | .error e => .error e

/-- The path of the folder that a path leads to an entry of. -/
def folderOf (path : String) : String :=
  String.ofList (path.toList.reverse.dropWhile (· != '/')).reverse

/-- The disk with a file at a path, and with every folder that the path goes through. If the file
cannot be written, the folders stay. -/
def provide (d : Disk) (path : String) (content : List UInt8) : Disk :=
  let d := d.makeFolder (folderOf path)
  match d.save path content with
  | .ok d => d
  | .error _ => d

end Disk

end BulletinBoard
