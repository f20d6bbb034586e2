/-
# What texts are sent as

A text sent as UTF-8 is read back from its bytes: the reader takes the bytes of a character, opened
by the first of them and no shorter than they may be, to that character. Control sequences and
numerals are ASCII, and ASCII is sent as the same bytes in every character set.

Key definitions: `IsAscii`, `IsAsciiBytes`.
Key theorems: `Utf8.scan_utf8EncodeChar`, `Utf8.decode?_encode`, `encode_of_isAscii`.
-/
import BulletinBoard.Text.Charset

namespace BulletinBoard.Text

/-! ### UTF-8 -/

namespace Utf8

variable {p : Unfinished} {byte : UInt8} {rest : List UInt8}

theorem scan_whole {c : Char} (h : lead byte = .whole c) :
    scan none (byte :: rest) = some c :: scan none rest := by
  simp [scan, step, fresh, h]

theorem scan_opens (h : lead byte = .opens p) : scan none (byte :: rest) = scan (some p) rest := by
  simp [scan, step, fresh, h]

theorem scan_last {low high bits : Nat} (hl : low ≤ byte.toNat) (hh : byte.toNat ≤ high) :
    scan (some ⟨0, low, high, bits⟩) (byte :: rest) =
      some (Char.ofNat (bits * 64 + (byte.toNat - 0x80))) :: scan none rest := by
  have hnext : ¬ (byte.toNat < low ∨ high < byte.toNat) := by omega
  simp [scan, step, Unfinished.next?, hnext]

theorem scan_further {owed low high bits : Nat} (hl : low ≤ byte.toNat) (hh : byte.toNat ≤ high) :
    scan (some ⟨owed + 1, low, high, bits⟩) (byte :: rest) =
      scan (some ⟨owed, 0x80, 0xBF, bits * 64 + (byte.toNat - 0x80)⟩) rest := by
  have hnext : ¬ (byte.toNat < low ∨ high < byte.toNat) := by omega
  simp [scan, step, Unfinished.next?, hnext]

theorem toNat_ofNat {n : Nat} (h : n < 256) : (UInt8.ofNat n).toNat = n :=
  UInt8.toNat_ofNat_of_lt' h

/-- The first of two bytes opens a character whose other byte may be any. -/
theorem lead_two (n : Nat) (hlow : 2 ≤ n) (hhigh : n < 0x20) :
    lead (UInt8.ofNat (n + 0xC0)) = .opens ⟨0, 0x80, 0xBF, n⟩ := by
  have hbyte : (UInt8.ofNat (n + 0xC0)).toNat = n + 0xC0 := toNat_ofNat (by omega)
  unfold lead
  dsimp only
  rw [hbyte, if_neg (by omega), if_neg (by omega), if_pos (by omega), Nat.add_sub_cancel]

/-- The first of three bytes opens a character whose second byte must not make it too short or a
surrogate. -/
theorem lead_three (n second : Nat) (hn : n < 0x10) (hs : second < 0x40)
    (hshort : 0x20 ≤ n * 64 + second) (hsurrogate : n = 13 → second < 0x20) :
    ∃ low high, lead (UInt8.ofNat (n + 0xE0)) = .opens ⟨1, low, high, n⟩ ∧
      low ≤ second + 0x80 ∧ second + 0x80 ≤ high := by
  have hbyte : (UInt8.ofNat (n + 0xE0)).toNat = n + 0xE0 := toNat_ofNat (by omega)
  by_cases hzero : n = 0
  · subst hzero
    exact ⟨0xA0, 0xBF, rfl, by omega, by omega⟩
  by_cases hthirteen : n = 13
  · subst hthirteen
    exact ⟨0x80, 0x9F, rfl, by omega, by omega⟩
  refine ⟨0x80, 0xBF, ?_, by omega, by omega⟩
  unfold lead
  dsimp only
  rw [hbyte, if_neg (by omega), if_neg (by omega), if_neg (by omega), if_neg (by omega),
    if_neg (by omega), if_pos (by omega), Nat.add_sub_cancel]

/-- The first of four bytes opens a character whose second byte must not make it too short or too
great. -/
theorem lead_four (n second : Nat) (hs : second < 0x40) (hshort : 0x10 ≤ n * 64 + second)
    (hgreat : n * 64 + second < 0x110) :
    ∃ low high, lead (UInt8.ofNat (n + 0xF0)) = .opens ⟨2, low, high, n⟩ ∧
      low ≤ second + 0x80 ∧ second + 0x80 ≤ high := by
  have hbyte : (UInt8.ofNat (n + 0xF0)).toNat = n + 0xF0 := toNat_ofNat (by omega)
  by_cases hzero : n = 0
  · subst hzero
    exact ⟨0x90, 0xBF, rfl, by omega, by omega⟩
  by_cases hfour : n = 4
  · subst hfour
    exact ⟨0x80, 0x8F, rfl, by omega, by omega⟩
  refine ⟨0x80, 0xBF, ?_, by omega, by omega⟩
  unfold lead
  dsimp only
  rw [hbyte, if_neg (by omega), if_neg (by omega), if_neg (by omega), if_neg (by omega),
    if_neg (by omega), if_neg (by omega), if_neg (by omega), if_pos (by omega), Nat.add_sub_cancel]

theorem toNat_tail (n : Nat) : (UInt8.ofNat (n % 64 + 0x80)).toNat = n % 64 + 0x80 :=
  toNat_ofNat (by omega)

theorem scan_tail_last {low high bits n : Nat} (hl : low ≤ n % 64 + 0x80)
    (hh : n % 64 + 0x80 ≤ high) :
    scan (some ⟨0, low, high, bits⟩) (UInt8.ofNat (n % 64 + 0x80) :: rest) =
      some (Char.ofNat (bits * 64 + n % 64)) :: scan none rest := by
  rw [scan_last (by rwa [toNat_tail]) (by rwa [toNat_tail]), toNat_tail, Nat.add_sub_cancel]

theorem scan_tail {owed low high bits n : Nat} (hl : low ≤ n % 64 + 0x80)
    (hh : n % 64 + 0x80 ≤ high) :
    scan (some ⟨owed + 1, low, high, bits⟩) (UInt8.ofNat (n % 64 + 0x80) :: rest) =
      scan (some ⟨owed, 0x80, 0xBF, bits * 64 + n % 64⟩) rest := by
  rw [scan_further (by rwa [toNat_tail]) (by rwa [toNat_tail]), toNat_tail, Nat.add_sub_cancel]

/-- What a character is written as is read as the character. -/
theorem scan_utf8EncodeChar (c : Char) :
    scan none (String.utf8EncodeChar c ++ rest) = some c :: scan none rest := by
  have hvalid : c.val.toNat < 0xD800 ∨ 0xDFFF < c.val.toNat ∧ c.val.toNat < 0x110000 := c.valid
  have hc : Char.ofNat c.val.toNat = c := Char.ofNat_toNat c
  unfold String.utf8EncodeChar
  generalize c.val.toNat = v at hvalid hc ⊢
  dsimp only
  by_cases hone : v ≤ 0x7F
  · have hbyte : (UInt8.ofNat v).toNat = v := toNat_ofNat (by omega)
    have hlead : lead (UInt8.ofNat v) = .whole c := by
      unfold lead
      dsimp only
      rw [hbyte, if_pos (by omega), hc]
    rw [if_pos hone, List.singleton_append, scan_whole hlead]
  rw [if_neg hone]
  by_cases htwo : v ≤ 0x7FF
  · have hfirst : v / 64 % 32 = v / 64 := by omega
    have hlead := lead_two (v / 64) (by omega) (by omega)
    have hbits : v / 64 * 64 + v % 64 = v := by omega
    rw [if_pos htwo, hfirst, List.cons_append, scan_opens hlead, List.singleton_append,
      scan_tail_last (by omega) (by omega), hbits, hc]
  rw [if_neg htwo]
  by_cases hthree : v ≤ 0xFFFF
  · have hfirst : v / 4096 % 16 = v / 4096 := by omega
    obtain ⟨low, high, hlead, hlow, hhigh⟩ :=
      lead_three (v / 4096) (v / 64 % 64) (by omega) (by omega) (by omega) (by omega)
    have hbits : (v / 4096 * 64 + v / 64 % 64) * 64 + v % 64 = v := by omega
    rw [if_pos hthree, hfirst, List.cons_append, scan_opens hlead, List.cons_append,
      scan_tail hlow hhigh, List.singleton_append, scan_tail_last (by omega) (by omega), hbits, hc]
  rw [if_neg hthree]
  have hfirst : v / 262144 % 8 = v / 262144 := by omega
  obtain ⟨low, high, hlead, hlow, hhigh⟩ :=
    lead_four (v / 262144) (v / 4096 % 64) (by omega) (by omega) (by omega)
  have hbits :
      ((v / 262144 * 64 + v / 4096 % 64) * 64 + v / 64 % 64) * 64 + v % 64 = v := by omega
  rw [hfirst, List.cons_append, scan_opens hlead, List.cons_append, scan_tail hlow hhigh,
    List.cons_append, scan_tail (by omega) (by omega), List.singleton_append,
    scan_tail_last (by omega) (by omega), hbits, hc]

/-- **A text is read back from its bytes.** -/
theorem decode?_encode (s : String) : decode? (encode s) = some s := by
  have hscan : ∀ cs : List Char,
      scan none (cs.flatMap String.utf8EncodeChar) = cs.map some := by
    intro cs
    induction cs with
    | nil => rfl
    | cons c cs ih => rw [List.flatMap_cons, scan_utf8EncodeChar, ih, List.map_cons]
  have hwhole : ∀ cs : List Char, (cs.map some).mapM id = some cs := by
    intro cs
    induction cs with
    | nil => rfl
    | cons c cs ih => simp [ih]
  rw [decode?, encode, hscan, hwhole, Option.map_some, String.ofList_toList]

end Utf8

/-! ### ASCII -/

/-- A text of ASCII characters. -/
def IsAscii (s : String) : Prop := ∀ c ∈ s.toList, c.toNat < 0x80

instance (s : String) : Decidable (IsAscii s) :=
  List.decidableBAll (fun c : Char => c.toNat < 0x80) s.toList

theorem IsAscii.append {s t : String} (hs : IsAscii s) (ht : IsAscii t) : IsAscii (s ++ t) := by
  intro c hc
  rw [String.toList_append] at hc
  rcases List.mem_append.mp hc with hc | hc
  · exact hs c hc
  · exact ht c hc

theorem isAscii_toString (n : Nat) : IsAscii (toString n) := by
  intro c hc
  have hdigits : c ∈ Nat.toDigits 10 n := by
    simpa [Nat.repr] using hc
  have hdigit : c.isDigit = true :=
    Nat.isDigit_of_mem_toDigits (by decide) (by decide) hdigits
  have hle : c.toNat ≤ 57 := by
    simp only [Char.isDigit, Bool.and_eq_true, decide_eq_true_eq] at hdigit
    exact hdigit.2
  omega

/-- ASCII characters are sent as the same bytes in any character set. -/
theorem encode_of_isAscii {s : String} (h : IsAscii s) (charset : Charset) :
    charset.encode s = Utf8.encode s := by
  cases charset with
  | utf8 => rfl
  | cp437 =>
    have hchars : ∀ cs : List Char, (∀ c ∈ cs, c.toNat < 0x80) →
        cs.map CodePage437.byteOf = cs.flatMap String.utf8EncodeChar := by
      intro cs hcs
      induction cs with
      | nil => rfl
      | cons c cs ih =>
        obtain ⟨hc, hcs⟩ := List.forall_mem_cons.mp hcs
        have hbyte : CodePage437.byteOf c = UInt8.ofNat c.toNat := if_pos hc
        have hwritten : String.utf8EncodeChar c = [UInt8.ofNat c.toNat] :=
          if_pos (Nat.le_of_lt_succ hc)
        rw [List.map_cons, List.flatMap_cons, ih hcs, hbyte, hwritten, List.singleton_append]
    exact hchars s.toList h

/-- Bytes that stand for an ASCII text. -/
def IsAsciiBytes (bytes : List UInt8) : Prop := ∃ s, IsAscii s ∧ bytes = Utf8.encode s

end BulletinBoard.Text
