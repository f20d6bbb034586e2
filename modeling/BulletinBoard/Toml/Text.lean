/-
# TOML texts and keys

White space, comments, the four kinds of quoted text, and keys. Each reader takes characters and
gives what it has read with the characters after it, or nothing if they are not in order.

Key definitions: `skipGap`, `Escape.next?`, `basicText?`, `longBasicText?`, `literalText?`,
`longLiteralText?`, `key?`.
-/
namespace BulletinBoard.Toml

/-- A space or a tab. -/
def isSpace (c : Char) : Bool := c == ' ' || c == '\t'

/-- Drops spaces and tabs. -/
def skipSpace (s : List Char) : List Char := s.dropWhile isSpace

/-- The characters that may stand in comments: all but the controls, and the tab. -/
def isPlain (c : Char) : Bool :=
  c == '\t' || (0x20 ≤ c.toNat && c.toNat ≠ 0x7F)

/-- What follows a line end, if one is there. -/
def lineEnd? : List Char → Option (List Char)
  | '\n' :: rest => some rest
  | '\r' :: '\n' :: rest => some rest
  | _ => none

/-- Drops a comment, if one is there. -/
def skipComment : List Char → List Char
  | '#' :: rest => rest.dropWhile isPlain
  | s => s

/-- Drops white space, line ends and comments. -/
def skipGap (inComment : Bool) : List Char → List Char
  | [] => []
  | '\r' :: '\n' :: rest => skipGap false rest
  | '\n' :: rest => skipGap false rest
  | c :: rest =>
    if inComment then
      if isPlain c then skipGap true rest else c :: rest
    else if isSpace c then skipGap false rest
    else if c = '#' then skipGap true rest
    else c :: rest

/-! ### Escapes -/

/-- The value of a hexadecimal digit. -/
def hexValue? (c : Char) : Option Nat :=
  if c.isDigit then some (c.toNat - 48)
  else if 'a' ≤ c ∧ c ≤ 'f' then some (c.toNat - 87)
  else if 'A' ≤ c ∧ c ≤ 'F' then some (c.toNat - 55)
  else none

/-- The character of a code point, surrogates being none. -/
def scalar? (n : Nat) : Option Char :=
  if n < 0xD800 ∨ (0xDFFF < n ∧ n < 0x110000) then some (Char.ofNat n) else none

/-- The character that a letter behind a backslash stands for. -/
def escapeLetter? : Char → Option Char
  | 'b' => some '\x08'
  | 't' => some '\t'
  | 'n' => some '\n'
  | 'f' => some '\x0c'
  | 'r' => some '\r'
  | '\x22' => some '\x22'
  | '\\' => some '\\'
  | _ => none

/-- What an unfinished escape is short of. -/
inductive Escape where
  /-- No escape is open. -/
  | none
  /-- A backslash has been read. -/
  | opened
  /-- So many digits of a number are due, after the value read so far. -/
  | number (due value : Nat)
  /-- A backslash ends the line; only space may follow up to the line end. -/
  | lineEnd
  /-- The space at the beginning of the next line is dropped. -/
  | space

/-- What one character does to an unfinished escape: a character of the text, if it completes one,
and what is open then. `long` texts may go on on another line. -/
def Escape.next? (long : Bool) : Escape → Char → Option (Option Char × Escape)
  | .opened, c =>
    if c = 'u' then some (Option.none, .number 4 0)
    else if c = 'U' then some (Option.none, .number 8 0)
    else if long && isSpace c then some (Option.none, .lineEnd)
    else if long && c == '\n' then some (Option.none, .space)
    else (escapeLetter? c).map fun d => (some d, .none)
  | .number due value, c => do
    let value := value * 16 + (← hexValue? c)
    if due ≤ 1 then some (some (← scalar? value), .none)
    else some (Option.none, .number (due - 1) value)
  | .lineEnd, c =>
    if isSpace c then some (Option.none, .lineEnd)
    else if c = '\n' then some (Option.none, .space)
    else Option.none
  | .none, _ | .space, _ => Option.none

/-- What is open before a character: dropped space ends where something else comes. -/
def Escape.settle (c : Char) : Escape → Escape
  | .space => if isSpace c || c == '\n' then .space else .none
  | other => other

/-! ### Quoted texts -/

/-- Reads the rest of a text in double quotes. `held` has the characters before, in reverse. -/
def basicText? (escape : Escape) (held : List Char) : List Char → Option (String × List Char)
  | [] => none
  | c :: rest =>
    match escape with
    | .none =>
      if c = '\x22' then some (String.ofList held.reverse, rest)
      else if c = '\\' then basicText? .opened held rest
      else if isPlain c then basicText? .none (c :: held) rest
      else none
    | unfinished =>
      match unfinished.next? false c with
      | some (done, next) => basicText? next (done.toList ++ held) rest
      | none => none

/-- How a run of quotes ends a long text: the last three quotes end it, and up to two before them
belong to it. The quotes that belong to it and what follows, if the run is long enough. -/
def closing? (quote : Char) (s : List Char) : Option (List Char × List Char) :=
  let run := ((s.take 5).takeWhile (· == quote)).length
  if run < 3 then none else some (List.replicate (run - 3) quote, s.drop run)

/-- Reads the rest of a text in three double quotes. Line ends are line feeds. -/
def longBasicText? (escape : Escape) (held : List Char) : List Char → Option (String × List Char)
  | [] => none
  | '\r' :: '\n' :: rest =>
    match escape with
    | .none => longBasicText? .none ('\n' :: held) rest
    | .opened | .lineEnd | .space => longBasicText? .space held rest
    | .number .. => none
  | c :: rest =>
    match escape.settle c with
    | .space => longBasicText? .space held rest
    | .none =>
      if c = '\x22' then
        match closing? c (c :: rest) with
        | some (last, rest) => some (String.ofList (last ++ held).reverse, rest)
        | none => longBasicText? .none (c :: held) rest
      else if c = '\\' then longBasicText? .opened held rest
      else if isPlain c || c == '\n' then longBasicText? .none (c :: held) rest
      else none
    | unfinished =>
      match unfinished.next? true c with
      | some (done, next) => longBasicText? next (done.toList ++ held) rest
      | none => none

/-- Reads the rest of a text in single quotes. -/
def literalText? (held : List Char) : List Char → Option (String × List Char)
  | [] => none
  | c :: rest =>
    if c = '\x27' then some (String.ofList held.reverse, rest)
    else if isPlain c then literalText? (c :: held) rest
    else none

/-- Reads the rest of a text in three single quotes. -/
def longLiteralText? (held : List Char) : List Char → Option (String × List Char)
  | [] => none
  | '\r' :: '\n' :: rest => longLiteralText? ('\n' :: held) rest
  | c :: rest =>
    match closing? '\x27' (c :: rest) with
    | some (last, rest) => some (String.ofList (last ++ held).reverse, rest)
    | none => if isPlain c || c == '\n' then longLiteralText? (c :: held) rest else none

/-- Drops the line end that may follow the opening quotes of a long text. -/
def skipFirstLineEnd (s : List Char) : List Char :=
  (lineEnd? s).getD s

/-- Reads a text in quotes of any kind. -/
def text? : List Char → Option (String × List Char)
  | '\x22' :: '\x22' :: '\x22' :: rest => longBasicText? .none [] (skipFirstLineEnd rest)
  | '\x27' :: '\x27' :: '\x27' :: rest => longLiteralText? [] (skipFirstLineEnd rest)
  | '\x22' :: rest => basicText? .none [] rest
  | '\x27' :: rest => literalText? [] rest
  | _ => none

/-! ### Keys -/

/-- The characters of a key without quotes. -/
def isBare (c : Char) : Bool :=
  c.isAlphanum || c == '_' || c == '-'

/-- Reads a key without dots. -/
def simpleKey? : List Char → Option (String × List Char)
  | '\x22' :: rest => basicText? .none [] rest
  | '\x27' :: rest => literalText? [] rest
  | s =>
    match s.takeWhile isBare with
    | [] => none
    | word => some (String.ofList word, s.dropWhile isBare)

/-- Reads the parts of a key, with white space around each. `fuel` bounds their number. -/
def keyParts? : Nat → List Char → Option (List String × List Char)
  | 0, _ => none
  | fuel + 1, s => do
    let (part, rest) ← simpleKey? (skipSpace s)
    match skipSpace rest with
    | '.' :: further => do
      let (parts, rest) ← keyParts? fuel further
      some (part :: parts, rest)
    | rest => some ([part], rest)

/-- How deep keys and values may go. -/
def depthLimit : Nat := 80

/-- Reads a key. It has fewer parts than the depth limit. -/
def key? (s : List Char) : Option (List String × List Char) :=
  keyParts? (depthLimit - 1) s

end BulletinBoard.Toml
