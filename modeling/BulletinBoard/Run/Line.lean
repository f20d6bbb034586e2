/-
# The line to a caller

What a run reads from and writes to: the bytes the caller sends, how they end, how many bytes the
caller still takes, and the hangup signal. Input is read a line at a time. Output is written whole,
or up to the byte that is refused, and then flushed, which may fail too.

Key definitions: `Line`, `Line.send`, `Line.hear`.
Key theorems: `Line.splitLine?_eq_none_iff`.
-/
namespace BulletinBoard

/-- What comes after the last byte of the input. -/
inductive Ending where
  /-- The input ends. -/
  | closed
  /-- Reading fails. -/
  | broken
  /-- Nothing comes any more, and reading goes on waiting. -/
  | silent
  deriving DecidableEq, Repr

/-- The hangup signal. -/
inductive Signal where
  /-- It is never given. -/
  | never
  /-- It is given once the caller has fallen silent. -/
  | whenSilent
  /-- It has been given. -/
  | given
  deriving DecidableEq, Repr

/-- A line to a caller. -/
structure Line where
  /-- The bytes that can still be read. -/
  incoming : List UInt8
  ending : Ending
  /-- How many bytes the caller still takes, `none` if any number. -/
  room : Option Nat
  /-- How many flushes still succeed, `none` if any number. -/
  flushes : Option Nat
  /-- The error text of a refused byte or a failed flush. -/
  refusal : String
  /-- The bytes the caller has taken. -/
  outgoing : List UInt8
  signal : Signal
  deriving DecidableEq, Repr

namespace Line

/-- Writes bytes, as many as the caller takes. The text of the error is given if one is refused. -/
def write (l : Line) (bytes : List UInt8) : Line × Option String :=
  match l.room with
  | none => ({ l with outgoing := l.outgoing ++ bytes }, none)
  | some n =>
    ({ l with outgoing := l.outgoing ++ bytes.take n, room := some (n - bytes.length) },
      if bytes.length ≤ n then none else some l.refusal)

/-- Flushes what was written. The text of the error is given if that fails. -/
def flush (l : Line) : Line × Option String :=
  match l.flushes with
  | none => (l, none)
  | some 0 => (l, some l.refusal)
  | some (n + 1) => ({ l with flushes := some n }, none)

/-- Writes bytes and flushes them. The text of the first error is given, if there is one. -/
def send (l : Line) (bytes : List UInt8) : Line × Option String :=
  match l.write bytes with
  | (l, none) => l.flush
  | failed => failed

/-- What comes of reading a line. -/
inductive Heard where
  /-- A line with its line feed, or the last bytes without one. -/
  | bytes (line : List UInt8)
  /-- The input has ended. -/
  | closed
  /-- Reading failed. -/
  | broken
  /-- No whole line comes, and the input does not end. -/
  | silence
  deriving DecidableEq, Repr

/-- The line feed. -/
def lineFeed : UInt8 := 10

/-- Splits bytes behind the first line feed, if there is one. -/
def splitLine? : List UInt8 → Option (List UInt8 × List UInt8)
  | [] => none
  | b :: rest =>
    if b = lineFeed then some ([b], rest)
    else (splitLine? rest).map fun (line, others) => (b :: line, others)

/-- There is no line to split off just where there is no line feed. -/
theorem splitLine?_eq_none_iff {bytes : List UInt8} :
    splitLine? bytes = none ↔ lineFeed ∉ bytes := by
  induction bytes with
  | nil => simp [splitLine?]
  | cons b rest ih =>
    unfold splitLine?
    by_cases hb : b = lineFeed
    · simp [hb]
    · simp [hb, ih, Ne.symm hb]

/-- Reads a line. Bytes without a line feed count as a line if the input ends behind them, and are
lost if it does not. -/
def hear (l : Line) : Heard × Line :=
  match splitLine? l.incoming with
  | some (line, others) => (.bytes line, { l with incoming := others })
  | none =>
    let rest := { l with incoming := [] }
    match l.ending with
    | .closed => (if l.incoming.isEmpty then .closed else .bytes l.incoming, rest)
    | .broken => (.broken, rest)
    | .silent => (.silence, rest)

end Line

end BulletinBoard
