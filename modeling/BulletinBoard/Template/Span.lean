/-
# Spans

A template's source is text with instruction words in brackets. Reading it gives spans: stretches of
literal text, and words, which spaces part inside a bracket. Two opening brackets in a row stand for
one as a character, outside brackets and inside. A bracket still open at the end, and a single
opening bracket inside a bracket, are errors at a place in the source.

Key definitions: `Place`, `Span`, `BracketError`, `Span.scan`, `Span.ofSource`.
-/
namespace BulletinBoard.Template

/-- A place in a source: a row, counted from 1, and how many characters of it have been read. -/
structure Place where
  row : Nat
  column : Nat
  deriving DecidableEq, Repr

namespace Place

/-- Before the first character. -/
def start : Place := ⟨1, 0⟩

/-- The place after one more character. -/
def after (p : Place) (c : Char) : Place :=
  if c = '\n' then ⟨p.row + 1, 0⟩ else ⟨p.row, p.column + 1⟩

end Place

/-- A stretch of literal text, or a word in brackets. -/
inductive Span where
  | literal (text : String)
  | word (text : String)
  deriving DecidableEq, Repr

/-- How a span is named in messages. -/
def Span.describe : Span → String
  | .literal text => "literal(" ++ text ++ ")"
  | .word text => "bracketed(" ++ text ++ ")"

/-- What can be wrong with the brackets of a source. -/
inductive BracketError where
  /-- The bracket opened at the place is never closed. -/
  | unclosed (place : Place)
  /-- A bracket opens at the place, inside another. -/
  | nested (place : Place)
  deriving DecidableEq, Repr

/-- The text of an error. -/
def BracketError.message : BracketError → String
  | .unclosed p =>
    "unexpected end of input inside instruction block opened at row " ++ toString p.row ++
      " col " ++ toString p.column
  | .nested p =>
    "start of an instruction inside an existing instruction block at row " ++ toString p.row ++
      " col " ++ toString p.column

namespace Span

/-- The literal made of characters read in reverse, if there are any. -/
def literalOf (reversed : List Char) : List Span :=
  if reversed.isEmpty then [] else [.literal (String.ofList reversed.reverse)]

/-- The word made of characters read in reverse, if there are any. -/
def wordOf (reversed : List Char) : List Span :=
  if reversed.isEmpty then [] else [.word (String.ofList reversed.reverse)]

/-- Reads on from a place, with the characters of the unfinished span in reverse. `opened` is the
place of the bracket that is open, if one is. -/
def scan (opened : Option Place) (p : Place) (held : List Char) :
    List Char → Except BracketError (List Span)
  | [] =>
    match opened with
    | some q => .error (.unclosed q)
    | none => .ok (literalOf held)
  | '[' :: '[' :: rest => scan opened ((p.after '[').after '[') ('[' :: held) rest
  | c :: rest =>
    let here := p.after c
    match opened, c with
    | some _, '[' => .error (.nested here)
    | none, '[' => (literalOf held ++ ·) <$> scan (some here) here [] rest
    | some _, ']' => (wordOf held ++ ·) <$> scan none here [] rest
    | some q, ' ' => (wordOf held ++ ·) <$> scan (some q) here [] rest
    | _, c => scan opened here (c :: held) rest

/-- The spans of a source. -/
def ofSource (source : String) : Except BracketError (List Span) :=
  scan none .start [] source.toList

end Span

end BulletinBoard.Template
