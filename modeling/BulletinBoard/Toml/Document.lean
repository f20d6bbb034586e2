/-
# Reading TOML documents

Values, key and value pairs, headers, and the lines of a document.

Key definitions: `value?`, `Draft`, `Draft.open?`, `Draft.close?`, `document?`.
-/
import BulletinBoard.Toml.Number

namespace BulletinBoard.Toml

/-- Reads a word that stands for a value. -/
def word? (word : String) (value : Node) (s : List Char) : Option (Node × List Char) :=
  if word.toList.isPrefixOf s then some (value, s.drop word.length) else none

mutual

/-- Reads a value. `depth` counts the brackets that may still be opened, and `fuel` bounds the
number of nested and consecutive readings. -/
def value? (fuel depth : Nat) (s : List Char) : Option (Node × List Char) :=
  match fuel, s with
  | 0, _ => none
  | fuel + 1, '[' :: rest =>
    match depth with
    | 0 => none
    | depth + 1 => items? fuel depth [] (skipGap false rest)
  | fuel + 1, '\x7b' :: rest =>
    match depth with
    | 0 => none
    | depth + 1 =>
      match skipSpace rest with
      | '\x7d' :: rest => some (.table .inline [], rest)
      | rest => pairs? fuel depth ⟨.inline, []⟩ rest
  | _ + 1, 't' :: rest => word? "true" (.boolean true) ('t' :: rest)
  | _ + 1, 'f' :: rest => word? "false" (.boolean false) ('f' :: rest)
  | _ + 1, s =>
    match s with
    | '\x22' :: _ | '\x27' :: _ => (text? s).map fun (text, rest) => (.string text, rest)
    | _ => number? s

/-- Reads the rest of an array. `held` has the items before, in reverse. -/
def items? (fuel depth : Nat) (held : List Node) (s : List Char) : Option (Node × List Char) :=
  match fuel, s with
  | 0, _ => none
  | _ + 1, ']' :: rest => some (.array held.reverse, rest)
  | fuel + 1, s =>
    match value? fuel depth s with
    | none => none
    | some (item, rest) =>
      match skipGap false rest with
      | ',' :: rest => items? fuel depth (item :: held) (skipGap false rest)
      | ']' :: rest => some (.array (item :: held).reverse, rest)
      | _ => none

/-- Reads the rest of a table in braces. -/
def pairs? (fuel depth : Nat) (t : Table) (s : List Char) : Option (Node × List Char) :=
  match fuel with
  | 0 => none
  | fuel + 1 =>
    match key? s with
    | some (key, '=' :: rest) =>
      match value? fuel depth (skipSpace rest) with
      | none => none
      | some (value, rest) =>
        match t.addPair key.dropLast (key.getLastD "") value with
        | none => none
        | some t =>
          match skipSpace rest with
          | ',' :: rest => pairs? fuel depth t rest
          | '\x7d' :: rest => some (t.node, rest)
          | _ => none
    | _ => none

end

/-! ### Headers -/

/-- A document as far as it has been read. The table that is being filled stands apart from the
others; `path` is where it belongs, and `many` whether it is one of several there. -/
structure Draft where
  root : Table
  path : List String
  many : Bool
  current : Table

namespace Draft

/-- Before the first line. -/
def start : Draft := ⟨⟨.header, []⟩, [], false, ⟨.header, []⟩⟩

/-- Puts a table at a key, beside others if there are several. -/
def place (many : Bool) (key : String) (t : Table) (parent : Table) : Option Table :=
  if many then
    match parent.find? key with
    | none => some (parent.set key (.tables [t.node]))
    | some (.tables items) => some (parent.set key (.tables (items ++ [t.node])))
    | some _ => none
  else some (parent.set key t.node)

/-- The document with the table that was being filled in its place. -/
def close? (d : Draft) : Option Table :=
  match d.path.getLast? with
  | none => some d.current
  | some key => d.root.descend false (place d.many key d.current) d.path.dropLast

/-- Begins the table of a header. Only a table that other headers passed through may be there, or,
for one of several, its fellows. -/
def open? (d : Draft) (many : Bool) (path : List String) : Option Draft := do
  let root ← d.close?
  let root ← root.descend false some path.dropLast
  let parent ← root.reach? path.dropLast
  let key := path.getLastD ""
  match parent.find? key, many with
  | none, _ => some ⟨root, path, many, ⟨.header, []⟩⟩
  | some (.tables _), true => some ⟨root, path, many, ⟨.header, []⟩⟩
  | some (.table .implied entries), false => do
    let root ← root.descend false (fun t => some (t.erase key)) path.dropLast
    some ⟨root, path, many, ⟨.header, entries⟩⟩
  | some _, _ => none

end Draft

/-- Reads the header of one of several tables, from behind its first bracket. -/
def manyHeader? (s : List Char) : Option (List String × List Char) :=
  match key? s with
  | some (path, ']' :: ']' :: rest) => some (path, rest)
  | _ => none

/-- Reads the header of a table, from behind its bracket. -/
def header? (s : List Char) : Option (List String × List Char) :=
  match key? s with
  | some (path, ']' :: rest) => some (path, rest)
  | _ => none

/-! ### Lines -/

/-- The fuel for values in a text: no reading comes without a character. -/
def fuelFor (s : List Char) : Nat := 2 * s.length + 2

/-- Takes in the header or the pair that a line begins with. -/
def line? (d : Draft) (s : List Char) : Option (Draft × List Char) :=
  match s with
  | '[' :: '[' :: rest => do
    let (path, rest) ← manyHeader? rest
    some (← d.open? true path, rest)
  | '[' :: rest => do
    let (path, rest) ← header? rest
    some (← d.open? false path, rest)
  | s =>
    match key? s with
    | some (key, '=' :: rest) => do
      let (value, rest) ← value? (fuelFor rest) (depthLimit - 1) (skipSpace rest)
      let current ← d.current.addPair key.dropLast (key.getLastD "") value
      some ({ d with current }, rest)
    | _ => none

/-- Reads lines up to the end. `fuel` bounds their number. -/
def lines? : Nat → Draft → List Char → Option Draft
  | 0, _, _ => none
  | fuel + 1, d, s =>
    match skipSpace s with
    | [] => some d
    | s => do
      let (d, rest) ← if s.head? = some '#' ∨ (lineEnd? s).isSome then some (d, s) else line? d s
      match skipComment (skipSpace rest) with
      | [] => some d
      | rest => lines? fuel d (← lineEnd? rest)

/-- The mark that some files begin with. -/
def byteOrderMark : Char := '\uFEFF'

/-- Reads a document. -/
def document? (source : String) : Option Table := do
  let s := match source.toList with
    | c :: rest => if c = byteOrderMark then rest else c :: rest
    | [] => []
  (← lines? (s.length + 1) .start s).close?

end BulletinBoard.Toml
