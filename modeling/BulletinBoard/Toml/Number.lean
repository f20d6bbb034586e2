/-
# TOML numbers, dates and times

Key definitions: `integer?`, `float?`, `time?`, `number?`.
-/
import BulletinBoard.Toml.Node
import BulletinBoard.Toml.Text

namespace BulletinBoard.Toml

/-- Reads digits with single underscores between them. `due` says that a digit must come. -/
def digits? (isDigit : Char → Bool) (due : Bool) (held : List Char) :
    List Char → Option (List Char × List Char)
  | [] => if due then none else some (held.reverse, [])
  | c :: rest =>
    if isDigit c then digits? isDigit false (c :: held) rest
    else if due then none
    else if c = '_' then digits? isDigit true held rest
    else some (held.reverse, c :: rest)

/-- The number of digits in a base. -/
def numberOf (base : Nat) (digits : List Char) : Nat :=
  digits.foldl (fun n c => n * base + (hexValue? c).getD 0) 0

/-- A sign, if one is there: whether it is a minus, and what follows. -/
def sign : List Char → Bool × List Char
  | '-' :: rest => (true, rest)
  | '+' :: rest => (false, rest)
  | s => (false, s)

/-- Reads the whole part of a decimal number. It begins with a zero only if it is zero. -/
def whole? (s : List Char) : Option (List Char × List Char) := do
  let (digits, rest) ← digits? Char.isDigit true [] s
  match digits with
  | '0' :: _ :: _ => none
  | _ => some (digits, rest)

/-- The whole numbers of a document are those of sixty-four bits with a sign. -/
def inRange (n : Int) : Bool :=
  -9223372036854775808 ≤ n && n ≤ 9223372036854775807

/-- A whole number, if it is in range. -/
def ranged? (n : Int) (rest : List Char) : Option (Node × List Char) :=
  if inRange n then some (.integer n, rest) else none

/-- Reads a whole number in another base behind its mark. -/
def based? (base : Nat) (isDigit : Char → Bool) (s : List Char) : Option (Node × List Char) := do
  let (digits, rest) ← digits? isDigit true [] s
  ranged? (numberOf base digits) rest

/-- Reads a whole number. -/
def integer? (s : List Char) : Option (Node × List Char) :=
  match s with
  | '0' :: 'x' :: rest => based? 16 (fun c => (hexValue? c).isSome) rest
  | '0' :: 'o' :: rest => based? 8 (fun c => '0' ≤ c && c ≤ '7') rest
  | '0' :: 'b' :: rest => based? 2 (fun c => c == '0' || c == '1') rest
  | _ => do
    let (negative, rest) := sign s
    let (digits, rest) ← whole? rest
    let n : Int := numberOf 10 digits
    ranged? (if negative then -n else n) rest

/-! ### Numbers with a fraction or an exponent -/

/-- The least number that a float of sixty-four bits rounds to infinity. -/
def floatOverflow : Nat := Nat.pow 2 1024 - Nat.pow 2 970

/-- Whether a decimal number, given by digits and a power of ten, is beyond every finite float. -/
def overflows (digits : List Char) (exponent : Int) : Bool :=
  let significant := digits.dropWhile (· == '0')
  let magnitude : Int := significant.length + exponent
  if significant.isEmpty then false
  else if 400 < magnitude then true
  else if magnitude < 300 then false
  else
    let n := numberOf 10 significant
    if 0 ≤ exponent then floatOverflow ≤ n * Nat.pow 10 exponent.toNat
    else floatOverflow * Nat.pow 10 (-exponent).toNat ≤ n

/-- Reads an exponent, if one is there. -/
def exponent? (s : List Char) : Option (Option Int × List Char) :=
  match s with
  | e :: rest =>
    if e = 'e' ∨ e = 'E' then do
      let (negative, rest) := sign rest
      let (digits, rest) ← digits? Char.isDigit true [] rest
      let n : Int := numberOf 10 digits
      some (some (if negative then -n else n), rest)
    else some (none, s)
  | [] => some (none, s)

/-- Reads a number with a fraction or an exponent. One that is too great is not in order; one that
is too small is. -/
def float? (s : List Char) : Option (Node × List Char) :=
  let (negative, unsigned) := sign s
  match unsigned with
  | 'i' :: 'n' :: 'f' :: rest => some (.float, rest)
  | 'n' :: 'a' :: 'n' :: rest => some (.float, rest)
  | _ => do
    let (digits, rest) ← whole? unsigned
    let (fraction, rest, hasFraction) ← match rest with
      | '.' :: rest => do
        let (fraction, rest) ← digits? Char.isDigit true [] rest
        some (fraction, rest, true)
      | rest => some ([], rest, false)
    let (exponent, rest) ← exponent? rest
    if !hasFraction && exponent.isNone then none
    else if !negative && overflows (digits ++ fraction) (exponent.getD 0 - fraction.length) then
      none
    else some (.float, rest)

/-! ### Dates and times -/

/-- Reads a number of so many digits within bounds. -/
def fixed? (length least greatest : Nat) (s : List Char) : Option (Nat × List Char) :=
  let digits := s.take length
  let n := numberOf 10 digits
  if digits.length = length ∧ digits.all Char.isDigit ∧ least ≤ n ∧ n ≤ greatest then
    some (n, s.drop length)
  else none

/-- Reads a character that must come. -/
def expect? (c : Char) : List Char → Option (List Char)
  | d :: rest => if d = c then some rest else none
  | [] => none

/-- The days of a month. -/
def daysOf (year month : Nat) : Nat :=
  if month = 2 then
    if year % 4 = 0 ∧ (year % 100 ≠ 0 ∨ year % 400 = 0) then 29 else 28
  else if month = 4 ∨ month = 6 ∨ month = 9 ∨ month = 11 then 30
  else 31

/-- Drops the fraction of a second, if one is there. -/
def skipFraction? : List Char → Option (List Char)
  | '.' :: c :: rest => if c.isDigit then some (rest.dropWhile Char.isDigit) else none
  | '.' :: [] => none
  | s => some s

/-- What follows a time of day. -/
def clock? (s : List Char) : Option (List Char) := do
  let (_, s) ← fixed? 2 0 23 s
  let s ← expect? ':' s
  let (_, s) ← fixed? 2 0 59 s
  let s ← expect? ':' s
  let (_, s) ← fixed? 2 0 60 s
  skipFraction? s

/-- What follows a date. -/
def date? (s : List Char) : Option (List Char) := do
  let (year, s) ← fixed? 4 0 9999 s
  let s ← expect? '-' s
  let (month, s) ← fixed? 2 1 12 s
  let s ← expect? '-' s
  let (_, s) ← fixed? 2 1 (daysOf year month) s
  some s

/-- What follows a time zone, if one is there. -/
def skipZone? : List Char → Option (List Char)
  | [] => some []
  | c :: rest =>
    if c = 'Z' ∨ c = 'z' then some rest
    else if c = '+' ∨ c = '-' then do
      let (_, s) ← fixed? 2 0 23 rest
      let s ← expect? ':' s
      let (_, s) ← fixed? 2 0 59 s
      some s
    else some (c :: rest)

/-- What follows a date, perhaps with a time of day and a time zone, or a time of day alone. -/
def time? (s : List Char) : Option (List Char) :=
  match date? s with
  | some (c :: rest) =>
    if c = 'T' ∨ c = 't' ∨ c = ' ' then
      match clock? rest with
      | some rest => skipZone? rest
      | none => some (c :: rest)
    else some (c :: rest)
  | some [] => some []
  | none => clock? s

/-- Reads a number, a date or a time. -/
def number? (s : List Char) : Option (Node × List Char) :=
  match time? s with
  | some rest => some (.time, rest)
  | none => (float? s).or (integer? s)

end BulletinBoard.Toml
