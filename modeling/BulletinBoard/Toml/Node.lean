/-
# TOML documents as trees

A document is a table of values. Tables remember how they came to be, since that decides what may
still be added to them. Numbers with a fraction and dates are told apart from the other values and
not looked into.

Key definitions: `Node`, `Table`, `Table.descend`, `Table.addPair`.
-/
namespace BulletinBoard.Toml

/-- How a table came to be. -/
inductive Form where
  /-- Written as a value in braces. Nothing can be added. -/
  | inline
  /-- Opened by a header. -/
  | header
  /-- Passed through by the header of a table inside it. -/
  | implied
  /-- Made by a key with dots. -/
  | dotted
  deriving DecidableEq, Repr

/-- A value in a document. -/
inductive Node where
  | string (text : String)
  | integer (value : Int)
  | boolean (value : Bool)
  | float
  | time
  | array (items : List Node)
  /-- The tables of a header in double brackets. -/
  | tables (items : List Node)
  | table (form : Form) (entries : List (String × Node))

/-- A table that is being filled. -/
structure Table where
  form : Form
  entries : List (String × Node)

namespace Table

/-- A table as a value. -/
def node (t : Table) : Node := .table t.form t.entries

/-- The value of a key. -/
def find? (t : Table) (key : String) : Option Node :=
  t.entries.lookup key

/-- The table without a key. -/
def erase (t : Table) (key : String) : Table :=
  { t with entries := t.entries.filter fun e => e.1 != key }

/-- Gives a key of an entry list a value. A new key comes last. -/
def setEntry (key : String) (value : Node) : List (String × Node) → List (String × Node)
  | [] => [(key, value)]
  | e :: rest => if e.1 = key then (key, value) :: rest else e :: setEntry key value rest

/-- The table with a value for a key. -/
def set (t : Table) (key : String) (value : Node) : Table :=
  { t with entries := setEntry key value t.entries }

/-- The form of a table that a path makes. -/
def made (dotted : Bool) : Form :=
  if dotted then .dotted else .implied

/-- Whether a path may go on into a table. A dotted key does not add to what a header opened. -/
def passable (dotted : Bool) : Form → Bool
  | .inline => false
  | .header => !dotted
  | .implied | .dotted => true

/-- Changes the table at the end of a path. Missing tables are made, and a list of tables stands for
its last. -/
def descend (dotted : Bool) (change : Table → Option Table) : List String → Table → Option Table
  | [], t => change t
  | key :: path, t =>
    match t.find? key with
    | none => do
      let inner ← descend dotted change path ⟨made dotted, []⟩
      some (t.set key inner.node)
    | some (.table form entries) =>
      if passable dotted form then do
        let inner ← descend dotted change path ⟨form, entries⟩
        some (t.set key inner.node)
      else none
    | some (.tables items) =>
      match items.getLast? with
      | some (.table form entries) => do
        let inner ← descend dotted change path ⟨form, entries⟩
        some (t.set key (.tables (items.dropLast ++ [inner.node])))
      | _ => none
    | some _ => none

/-- The table at the end of a path, if the path leads through tables that are there. -/
def reach? : List String → Table → Option Table
  | [], t => some t
  | key :: path, t =>
    match t.find? key with
    | some (.table form entries) => reach? path ⟨form, entries⟩
    | some (.tables items) =>
      match items.getLast? with
      | some (.table form entries) => reach? path ⟨form, entries⟩
      | _ => none
    | _ => none

/-- Adds a key with a value below a path of dotted keys. The key must be new, and the path must end
at a table that dotted keys made. -/
def addPair (t : Table) (path : List String) (key : String) (value : Node) : Option Table :=
  descend true
    (fun u =>
      if (u.form == .dotted) == path.isEmpty then none
      else
        match u.find? key with
        | none => some (u.set key value)
        | some _ => none)
    path t

end Table

end BulletinBoard.Toml
