/-
# JSON

JSON values and how they are printed: an entry on a line, two spaces for each level. The fields of
an object come in the order they are given.

Key definitions: `Json`, `Json.pretty`.
-/
namespace BulletinBoard

/-- The JSON values that reports are made of. -/
inductive Json where
  | number (n : Nat)
  | string (s : String)
  | list (items : List Json)
  | object (fields : List (String × Json))

namespace Json

/-- A character inside a string. -/
def escapeChar (c : Char) : List Char :=
  match c with
  | '\x22' => ['\\', '\x22']
  | '\\' => ['\\', '\\']
  | '\x08' => ['\\', 'b']
  | '\t' => ['\\', 't']
  | '\n' => ['\\', 'n']
  | '\x0c' => ['\\', 'f']
  | '\r' => ['\\', 'r']
  | c =>
    if c.toNat < 0x20 then
      ['\\', 'u', '0', '0', Nat.digitChar (c.toNat / 16), Nat.digitChar (c.toNat % 16)]
    else [c]

/-- A string between quotes. -/
def quote (s : String) : String :=
  String.ofList ('\x22' :: s.toList.flatMap escapeChar ++ ['\x22'])

/-- The space before a line of a level. -/
def indent (level : Nat) : String :=
  String.ofList (List.replicate (2 * level) ' ')

mutual

/-- The text of a value that stands at a level. -/
def pretty (level : Nat) : Json → String
  | number n => toString n
  | string s => quote s
  | list [] => "[]"
  | list (v :: rest) => "[\n" ++ prettyItems (level + 1) (v :: rest) ++ "\n" ++ indent level ++ "]"
  | object [] => "\x7b\x7d"
  | object (f :: rest) =>
    "\x7b\n" ++ prettyFields (level + 1) (f :: rest) ++ "\n" ++ indent level ++ "\x7d"

/-- The lines of a list. -/
def prettyItems (level : Nat) : List Json → String
  | [] => ""
  | [v] => indent level ++ pretty level v
  | v :: w :: rest => indent level ++ pretty level v ++ ",\n" ++ prettyItems level (w :: rest)

/-- The lines of an object. -/
def prettyFields (level : Nat) : List (String × Json) → String
  | [] => ""
  | [(name, v)] => indent level ++ quote name ++ ": " ++ pretty level v
  | (name, v) :: f :: rest =>
    indent level ++ quote name ++ ": " ++ pretty level v ++ ",\n" ++ prettyFields level (f :: rest)

end

end Json

end BulletinBoard
