/-
# Texts on one line

What keeps a log line whole. The log form of a text has no control character, and it can be read
back: a backslash begins an escape and nothing else does (`LogForm.unescape?`), so each character of
the text is read off its own escape (`LogForm.unescapeChars?_escapeChar`). The text is cut before it is
escaped, so the cut falls between two escapes and the ellipsis is read as itself.

A quoted text has no control character either (`isOneLine_quote`), nor has a numeral.

Key definitions: `IsOneLine`, `LogForm.unescape?`.
Key theorems: `LogForm.unescapeChars?_escapeChar`, `LogForm.escape_reads_back`, `isOneLine_quote`.
-/
import BulletinBoard.Text.LogForm
import BulletinBoard.Text.Quoted

namespace BulletinBoard.Text

open LogForm

/-! ### Control characters -/

/-- The text has no control character, so it does not break the line it is shown on. -/
def IsOneLine (s : String) : Prop := ∀ c ∈ s.toList, isControl c = false

instance (s : String) : Decidable (IsOneLine s) :=
  List.decidableBAll (fun c => isControl c = false) s.toList

theorem isOneLine_append {s t : String} : IsOneLine (s ++ t) ↔ IsOneLine s ∧ IsOneLine t := by
  simp [IsOneLine, or_imp, forall_and]

theorem isOneLine_append_of_left {s t : String} (h : IsOneLine s) :
    IsOneLine (s ++ t) ↔ IsOneLine t := by
  simp [isOneLine_append, h]

theorem isOneLine_append_of_right {s t : String} (h : IsOneLine t) :
    IsOneLine (s ++ t) ↔ IsOneLine s := by
  simp [isOneLine_append, h]

theorem isOneLine_ofList {cs : List Char} :
    IsOneLine (String.ofList cs) ↔ ∀ c ∈ cs, isControl c = false := by
  rw [IsOneLine, String.toList_ofList]

theorem isControl_eq_false_iff {c : Char} :
    isControl c = false ↔ 0x20 ≤ c.toNat ∧ ¬ (0x7F ≤ c.toNat ∧ c.toNat ≤ 0x9F) := by
  simp [isControl]

/-- Digits are no control characters, in any base up to sixteen. -/
theorem isControl_of_mem_toDigits {b n : Nat} {c : Char} (hb : 1 < b) (hmost : b ≤ 16)
    (h : c ∈ Nat.toDigits b n) : isControl c = false := by
  have hdigit : ∀ d < 16, isControl d.digitChar = false := by decide
  induction n using Nat.strongRecOn with
  | _ n ih =>
    rw [Nat.toDigits_eq_if hb] at h
    by_cases hn : n < b
    · rw [if_pos hn, List.mem_singleton] at h
      rw [h]
      exact hdigit n (by omega)
    · have hless : n / b < n := Nat.div_lt_self (by omega) hb
      have hlast : n % b < 16 := Nat.lt_of_lt_of_le (Nat.mod_lt n (by omega)) hmost
      rw [if_neg hn, List.mem_append, List.mem_singleton] at h
      rcases h with h | h
      · exact ih (n / b) hless h
      · rw [h]
        exact hdigit (n % b) hlast

theorem isOneLine_repr (n : Nat) : IsOneLine n.repr := by
  intro c hc
  have hdigits : c ∈ Nat.toDigits 10 n := by simpa [Nat.repr] using hc
  exact isControl_of_mem_toDigits (by decide) (by decide) hdigits

/-! ### Quoted texts -/

/-- What is not printable in a quoted text is shown by its number, and a control character is not
printable. -/
theorem isPrintable_of_isControl {c : Char} (h : isControl c = true) : isPrintable c = false := by
  have hranges : isControl c = true → c.toNat ≤ 0x1F ∨ 0x7F ≤ c.toNat ∧ c.toNat ≤ 0xA0 := by
    simp only [isControl, Bool.or_eq_true, Bool.and_eq_true, decide_eq_true_eq]
    omega
  have hplain : ¬ (0x20 ≤ c.toNat ∧ c.toNat < 0x7F) := by
    have := hranges h
    omega
  have hin : inRanges unprintableRanges c.toNat = true := by
    unfold inRanges
    rw [List.any_eq_true]
    rcases hranges h with hlow | hhigh
    · exact ⟨(0x0, 0x1F), .head _, by simpa using hlow⟩
    · exact ⟨(0x7F, 0xA0), .tail _ (.head _), by simpa using hhigh⟩
  simp [isPrintable, hin]
  omega

theorem isControl_of_mem_byNumber {c d : Char} (h : d ∈ Quoted.byNumber c) :
    isControl d = false := by
  unfold Quoted.byNumber at h
  rw [List.mem_append, List.mem_append] at h
  simp only [List.mem_cons, List.not_mem_nil, or_false] at h
  rcases h with ((rfl | rfl | rfl) | h) | rfl
  · decide
  · decide
  · decide
  · exact isControl_of_mem_toDigits (by decide) (by decide) h
  · decide

theorem isControl_of_mem_quoted {c d : Char} (h : d ∈ Quoted.escapeChar c) :
    isControl d = false := by
  unfold Quoted.escapeChar at h
  split at h
  case h_7 =>
    split at h
    · exact isControl_of_mem_byNumber h
    · rename_i hshown
      rw [List.mem_singleton] at h
      rw [h]
      cases hc : isControl c with
      | false => rfl
      | true => simp [isPrintable_of_isControl hc] at hshown
  -- the characters with a letter of their own
  all_goals
    simp only [List.mem_cons, List.not_mem_nil, or_false] at h
    rcases h with rfl | rfl <;> decide

/-- A quoted text stays on one line, whatever it holds. -/
theorem isOneLine_quote (s : String) : IsOneLine (Quoted.quote s) := by
  have hquote : isControl '\x22' = false := by decide
  unfold Quoted.quote
  rw [isOneLine_ofList]
  intro d hd
  simp only [List.cons_append, List.mem_cons, List.mem_append, List.mem_flatMap,
    List.not_mem_nil, or_false] at hd
  rcases hd with rfl | ⟨c, -, hd⟩ | rfl
  · exact hquote
  · exact isControl_of_mem_quoted hd
  · exact hquote

namespace LogForm

/-! ### Reading a log form -/

/-- The value of a hexadecimal digit with a capital letter. -/
def hexValue? (c : Char) : Option Nat :=
  let n := c.toNat
  if 48 ≤ n ∧ n ≤ 57 then some (n - 48)
  else if 65 ≤ n ∧ n ≤ 70 then some (n - 55)
  else none

/-- The characters that a log form stands for. A backslash begins an escape, and a text in which it
begins none is no log form. -/
def unescapeChars? : List Char → Option (List Char)
  | [] => some []
  | '\\' :: '\\' :: rest => (unescapeChars? rest).map ('\\' :: ·)
  | '\\' :: 'n' :: rest => (unescapeChars? rest).map ('\n' :: ·)
  | '\\' :: 'r' :: rest => (unescapeChars? rest).map ('\r' :: ·)
  | '\\' :: 't' :: rest => (unescapeChars? rest).map ('\t' :: ·)
  | '\\' :: 'x' :: high :: low :: rest =>
    match hexValue? high, hexValue? low with
    | some h, some l => (unescapeChars? rest).map (Char.ofNat (16 * h + l) :: ·)
    | _, _ => none
  | '\\' :: _ => none
  | c :: rest => (unescapeChars? rest).map (c :: ·)

/-- The text that a log form stands for. -/
def unescape? (s : String) : Option String :=
  (unescapeChars? s.toList).map String.ofList

theorem hexValue?_hexDigit {n : Nat} (h : n < 16) : hexValue? (hexDigit n) = some n := by
  have hall : ∀ n < 16, hexValue? (hexDigit n) = some n := by decide
  exact hall n h

theorem isControl_hexDigit {n : Nat} (h : n < 16) : isControl (hexDigit n) = false := by
  have hall : ∀ n < 16, isControl (hexDigit n) = false := by decide
  exact hall n h

theorem unescapeChars?_cons {c : Char} (h : c ≠ '\\') (rest : List Char) :
    unescapeChars? (c :: rest) = (unescapeChars? rest).map (c :: ·) := by
  rw [unescapeChars?.eq_def]
  split <;> simp_all

theorem unescapeChars?_hex {n : Nat} (h : n < 256) (rest : List Char) :
    unescapeChars? ('\\' :: 'x' :: hexDigit (n / 16) :: hexDigit (n % 16) :: rest) =
      (unescapeChars? rest).map (Char.ofNat n :: ·) := by
  have hhigh : hexValue? (hexDigit (n / 16)) = some (n / 16) := hexValue?_hexDigit (by omega)
  have hlow : hexValue? (hexDigit (n % 16)) = some (n % 16) := hexValue?_hexDigit (by omega)
  have hn : 16 * (n / 16) + n % 16 = n := by omega
  simp [unescapeChars?, hhigh, hlow, hn]

/-- The characters that have a letter behind the backslash, with the letters. -/
def letters : List (Char × Char) := [('\\', '\\'), ('\n', 'n'), ('\r', 'r'), ('\t', 't')]

theorem unescapeChars?_letter {c l : Char} (h : (c, l) ∈ letters) (rest : List Char) :
    unescapeChars? ('\\' :: l :: rest) = (unescapeChars? rest).map (c :: ·) := by
  simp only [letters, List.mem_cons, Prod.mk.injEq, List.not_mem_nil, or_false] at h
  rcases h with ⟨rfl, rfl⟩ | ⟨rfl, rfl⟩ | ⟨rfl, rfl⟩ | ⟨rfl, rfl⟩ <;> rfl

/-- The form of one character: a letter, a number, or the character itself. -/
theorem escapeChar_cases (c : Char) :
    (∃ l, (c, l) ∈ letters ∧ escapeChar c = ['\\', l]) ∨
    (isControl c = true ∧
      escapeChar c = ['\\', 'x', hexDigit (c.toNat / 16), hexDigit (c.toNat % 16)]) ∨
    (c ≠ '\\' ∧ isControl c = false ∧ escapeChar c = [c]) := by
  unfold escapeChar
  split
  case h_5 hbackslash _ _ _ =>
    by_cases h : isControl c = true
    · rw [if_pos h]
      exact .inr (.inl ⟨h, rfl⟩)
    · rw [if_neg h]
      exact .inr (.inr ⟨hbackslash, Bool.eq_false_iff.mpr h, rfl⟩)
  all_goals exact .inl ⟨_, by decide, rfl⟩

theorem toNat_lt_of_isControl {c : Char} (h : isControl c = true) : c.toNat < 160 := by
  simp only [isControl, Bool.or_eq_true, Bool.and_eq_true, decide_eq_true_eq] at h
  omega

/-- The form of one character has no control character. -/
theorem isControl_of_mem_escapeChar {c d : Char} (h : d ∈ escapeChar c) :
    isControl d = false := by
  have hbackslash : isControl '\\' = false := by decide
  have hx : isControl 'x' = false := by decide
  rcases escapeChar_cases c with ⟨l, hl, hc⟩ | ⟨hcontrol, hc⟩ | ⟨-, hplain, hc⟩
  · have hall : ∀ p ∈ letters, isControl p.2 = false := by decide
    rw [hc] at h
    simp only [List.mem_cons, List.not_mem_nil, or_false] at h
    rcases h with rfl | rfl
    · exact hbackslash
    · exact hall _ hl
  · have hlt := toNat_lt_of_isControl hcontrol
    rw [hc] at h
    simp only [List.mem_cons, List.not_mem_nil, or_false] at h
    rcases h with rfl | rfl | rfl | rfl
    · exact hbackslash
    · exact hx
    · exact isControl_hexDigit (by omega)
    · exact isControl_hexDigit (by omega)
  · rw [hc, List.mem_singleton] at h
    rwa [h]

/-- The form of one character is read as that character, whatever follows it. -/
theorem unescapeChars?_escapeChar (c : Char) (rest : List Char) :
    unescapeChars? (escapeChar c ++ rest) = (unescapeChars? rest).map (c :: ·) := by
  rcases escapeChar_cases c with ⟨l, hl, hc⟩ | ⟨hcontrol, hc⟩ | ⟨hbackslash, -, hc⟩
  · rw [hc]
    exact unescapeChars?_letter hl rest
  · have hlt := toNat_lt_of_isControl hcontrol
    have hread := unescapeChars?_hex (show c.toNat < 256 by omega) rest
    rw [Char.ofNat_toNat] at hread
    rw [hc]
    exact hread
  · rw [hc]
    exact unescapeChars?_cons hbackslash rest

/-- Characters are read off their forms, whatever follows them. -/
theorem unescapeChars?_flatMap (cs rest : List Char) :
    unescapeChars? (cs.flatMap escapeChar ++ rest) = (unescapeChars? rest).map (cs ++ ·) := by
  induction cs with
  | nil => simp
  | cons c cs ih =>
    rw [List.flatMap_cons, List.append_assoc, unescapeChars?_escapeChar, ih, Option.map_map]
    rfl

/-! ### Whole texts -/

/-- What is shown of a text: all of it, or its beginning and an ellipsis. -/
def kept (s : String) : List Char :=
  if shown < s.length then s.toList.take shown ++ [ellipsis] else s.toList

/-- The log form of a text is made of the forms of the characters that are shown. -/
theorem toList_escape (s : String) : (escape s).toList = (kept s).flatMap escapeChar := by
  have hellipsis : escapeChar ellipsis = [ellipsis] := by decide
  unfold escape kept
  rw [String.toList_ofList, String.length_toList]
  by_cases h : shown < s.length
  · simp [h, hellipsis]
  · have hall : s.toList.take shown = s.toList :=
      List.take_of_length_le (by rw [String.length_toList]; omega)
    simp [h, hall]

theorem unescape?_escape (s : String) : unescape? (escape s) = some (String.ofList (kept s)) := by
  have hread := unescapeChars?_flatMap (kept s) []
  rw [List.append_nil] at hread
  rw [unescape?, toList_escape, hread]
  simp [unescapeChars?]

theorem isOneLine_escape (s : String) : IsOneLine (escape s) := by
  intro d hd
  rw [toList_escape, List.mem_flatMap] at hd
  obtain ⟨c, -, hd⟩ := hd
  exact isControl_of_mem_escapeChar hd

/-- **A log form is safe and can be read back.** It has no control character of ASCII or of the
upper Latin half. A text of at most 120 characters is read back from it as it was, and of a longer
one the first 120 characters and an ellipsis. So no two texts of at most 120 characters have the
same log form. -/
theorem escape_reads_back (s : String) :
    (∀ c ∈ (escape s).toList, 0x20 ≤ c.toNat ∧ ¬ (0x7F ≤ c.toNat ∧ c.toNat ≤ 0x9F)) ∧
    (s.length ≤ 120 → unescape? (escape s) = some s) ∧
    (120 < s.length →
      unescape? (escape s) = some (String.ofList (s.toList.take 120 ++ ['…']))) ∧
    (s.length ≤ 120 → ∀ t : String, t.length ≤ 120 → escape t = escape s → t = s) := by
  have hwhole : ∀ t : String, t.length ≤ 120 → unescape? (escape t) = some t := by
    intro t ht
    have hkept : kept t = t.toList := if_neg (Nat.not_lt.mpr ht)
    rw [unescape?_escape, hkept, String.ofList_toList]
  refine ⟨fun c hc => isControl_eq_false_iff.mp (isOneLine_escape s c hc), hwhole s, ?_, ?_⟩
  · intro hs
    have hkept : kept s = s.toList.take 120 ++ ['…'] := if_pos hs
    rw [unescape?_escape, hkept]
  · intro hs t ht hsame
    have hread : some t = some s := by rw [← hwhole t ht, hsame, hwhole s hs]
    exact Option.some.inj hread

/-- A text with every kind of escape, and a longer one that is cut behind an escape. -/
theorem escape_reads_back_bell :
    escape "a\\x41\n\x07" = "a\\\\x41\\n\\x07" ∧
    unescape? (escape "a\\x41\n\x07") = some "a\\x41\n\x07" ∧
    (∀ t : String, t.length ≤ 120 → escape t = escape "a\\x41\n\x07" → t = "a\\x41\n\x07") ∧
    120 < (String.ofList (List.replicate 121 '\x07')).length ∧
    unescape? (escape (String.ofList (List.replicate 121 '\x07'))) =
      some (String.ofList (List.replicate 120 '\x07' ++ ['…'])) := by
  have hform : escape "a\\x41\n\x07" = "a\\\\x41\\n\\x07" := by decide +kernel
  have hshort : "a\\x41\n\x07".length ≤ 120 := by decide +kernel
  have hlong : 120 < (String.ofList (List.replicate 121 '\x07')).length := by decide +kernel
  obtain ⟨-, hread, -, honly⟩ := escape_reads_back "a\\x41\n\x07"
  obtain ⟨-, -, hcut, -⟩ := escape_reads_back (String.ofList (List.replicate 121 '\x07'))
  refine ⟨hform, hread hshort, honly hshort, hlong, ?_⟩
  rw [hcut hlong, String.toList_ofList]
  decide +kernel

end LogForm

end BulletinBoard.Text
