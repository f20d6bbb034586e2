/-
# Reading code page 437

What a terminal makes of the bytes of a text. Every byte stands for one character of the code page
and every character of the code page for one byte (`charOf_byteOf`, `byteOf_charOf`), so a text that
keeps to the code page comes back as it was. Any other comes back with the substitute in the place
of each character that the code page lacks, and is otherwise as it was.

Key definitions: `CodePage437.Covers`, `CodePage437.substituted`, `CodePage437.decode`.
Key theorems: `CodePage437.charOf_byteOf`, `CodePage437.byteOf_charOf`,
`CodePage437.decode_encode_substituted`.
-/
import BulletinBoard.Text.Charset

namespace BulletinBoard.Text.CodePage437

/-- The code page has the character. -/
def Covers (c : Char) : Prop := c.toNat < 0x80 ∨ c ∈ upperHalf

instance (c : Char) : Decidable (Covers c) := inferInstanceAs (Decidable (_ ∨ _))

/-- What is shown in the place of a character: the control character SUB if the code page lacks
it. -/
def substituted (c : Char) : Char :=
  if Covers c then c else '\x1A'

/-- The text that bytes stand for. -/
def decode (bytes : List UInt8) : String :=
  String.ofList (bytes.map charOf)

/-! ### Characters and bytes -/

theorem length_upperHalf : upperHalf.length = 128 := by decide +kernel

theorem charOf_lower {n : Nat} (h : n < 0x80) : charOf (UInt8.ofNat n) = Char.ofNat n := by
  have hn : (UInt8.ofNat n).toNat = n := UInt8.toNat_ofNat_of_lt' (Nat.lt_trans h (by decide))
  simp [charOf, hn, h]

theorem charOf_upper {i : Nat} (h : i < upperHalf.length) :
    charOf (UInt8.ofNat (0x80 + i)) = upperHalf[i] := by
  have hbyte : 0x80 + i < UInt8.size := by
    rw [length_upperHalf] at h
    exact Nat.add_lt_add_left h 0x80
  have hn : (UInt8.ofNat (0x80 + i)).toNat = 0x80 + i := UInt8.toNat_ofNat_of_lt' hbyte
  have hupper : ¬ 0x80 + i < 0x80 := by omega
  unfold charOf
  rw [hn, if_neg hupper, Nat.add_sub_cancel_left]
  simp [h]

/-- The byte of a character is read as that character, or as SUB. -/
theorem charOf_byteOf (c : Char) : charOf (byteOf c) = substituted c := by
  by_cases hascii : c.toNat < 0x80
  · have hbyte : byteOf c = UInt8.ofNat c.toNat := if_pos hascii
    have hc : substituted c = c := if_pos (.inl hascii)
    rw [hbyte, charOf_lower hascii, Char.ofNat_toNat, hc]
  cases hi : upperHalf.idxOf? c with
  | some i =>
    obtain ⟨hlt, hget, -⟩ := List.idxOf?_eq_some_iff.mp hi
    have hbyte : byteOf c = UInt8.ofNat (0x80 + i) := by simp [byteOf, hascii, hi]
    have hmem : c ∈ upperHalf := hget ▸ List.getElem_mem hlt
    have hc : substituted c = c := if_pos (.inr hmem)
    rw [hbyte, charOf_upper hlt, hget, hc]
  | none =>
    have hmem : c ∉ upperHalf := List.idxOf?_eq_none_iff.mp hi
    have hbyte : byteOf c = substitute := by simp [byteOf, hascii, hi]
    have hc : substituted c = '\x1A' := if_neg (by simp [Covers, hascii, hmem])
    rw [hbyte, hc]
    rfl

/-- Every byte is the byte of the character it is read as. -/
theorem byteOf_charOf (b : UInt8) : byteOf (charOf b) = b := by
  have hall : ∀ n < 256, byteOf (charOf (UInt8.ofNat n)) = UInt8.ofNat n := by decide +kernel
  have hb := hall b.toNat b.toNat_lt
  rwa [UInt8.ofNat_toNat] at hb

theorem substituted_eq_self_iff {c : Char} : substituted c = c ↔ Covers c := by
  by_cases h : Covers c
  · simp [substituted, h]
  · -- SUB is in the code page itself, so it is shown in the place of other characters only.
    have hne : '\x1A' ≠ c := fun hc => h (hc ▸ .inl (by decide))
    simp [substituted, h, hne]

/-! ### Texts -/

variable {s : String}

theorem decode_encode_eq (s : String) :
    decode (Charset.cp437.encode s) = String.ofList (s.toList.map substituted) := by
  simp [decode, Charset.encode, Function.comp_def, charOf_byteOf]

/-- A text keeps to the code page just where nothing in it is substituted. -/
theorem map_substituted_eq_iff {cs : List Char} :
    cs.map substituted = cs ↔ ∀ c ∈ cs, Covers c := by
  induction cs with
  | nil => simp
  | cons c cs ih => simp [ih, substituted_eq_self_iff]

theorem decode_encode_eq_self_iff :
    decode (Charset.cp437.encode s) = s ↔ ∀ c ∈ s.toList, Covers c := by
  have hs : String.ofList s.toList = s := String.ofList_toList
  rw [decode_encode_eq, ← map_substituted_eq_iff]
  constructor
  · intro h
    have hlist := congrArg String.toList h
    rwa [String.toList_ofList] at hlist
  · intro h
    rw [h, hs]

/-- Any bytes are those of the text they stand for. -/
theorem encode_decode (bytes : List UInt8) : Charset.cp437.encode (decode bytes) = bytes := by
  simp [decode, Charset.encode, Function.comp_def, byteOf_charOf]

/-- **Code page 437 is read back, up to substitution.** A text is sent as one byte for each
character, and one text behind another as their bytes one behind the other. What is read back is the
text with SUB in the place of each character that the code page lacks, so it is the text itself just
if the text keeps to the code page. No two texts that do are sent as the same bytes. -/
theorem decode_encode_substituted (s : String) :
    (Charset.cp437.encode s).length = s.length ∧
    (∀ t, Charset.cp437.encode (s ++ t) = Charset.cp437.encode s ++ Charset.cp437.encode t) ∧
    decode (Charset.cp437.encode s) = String.ofList (s.toList.map substituted) ∧
    (decode (Charset.cp437.encode s) = s ↔ ∀ c ∈ s.toList, Covers c) ∧
    ((∀ c ∈ s.toList, Covers c) → ∀ t, (∀ c ∈ t.toList, Covers c) →
      Charset.cp437.encode t = Charset.cp437.encode s → t = s) := by
  have hlength : (Charset.cp437.encode s).length = s.length := by
    simp [Charset.encode, String.length_toList]
  refine ⟨hlength, Charset.cp437.encode_append s, decode_encode_eq s,
    decode_encode_eq_self_iff, ?_⟩
  intro hs t ht hsame
  calc t = decode (Charset.cp437.encode t) := (decode_encode_eq_self_iff.mpr ht).symm
    _ = decode (Charset.cp437.encode s) := by rw [hsame]
    _ = s := decode_encode_eq_self_iff.mpr hs

/-- A text of the code page comes back, and no other such text has its bytes. -/
theorem decode_encode_shade :
    Charset.cp437.encode "a░é" = [0x61, 0xB0, 0x82] ∧ (∀ c ∈ "a░é".toList, Covers c) ∧
      decode (Charset.cp437.encode "a░é") = "a░é" ∧
      ∀ t, (∀ c ∈ t.toList, Covers c) → Charset.cp437.encode t = [0x61, 0xB0, 0x82] →
        t = "a░é" := by
  have hbytes : Charset.cp437.encode "a░é" = [0x61, 0xB0, 0x82] := by decide +kernel
  have hlist : "a░é".toList = ['a', '░', 'é'] := by decide +kernel
  have hcovers : ∀ c ∈ "a░é".toList, Covers c := by
    rw [hlist]
    simp only [List.forall_mem_cons]
    exact ⟨by decide, by decide, by decide, by simp⟩
  obtain ⟨-, -, -, hback, honly⟩ := decode_encode_substituted "a░é"
  refine ⟨hbytes, hcovers, hback.mpr hcovers, fun t ht h => ?_⟩
  exact honly hcovers t ht (h.trans hbytes.symm)

/-- A heart is none of its characters. -/
example : decode (Charset.cp437.encode "╣❤") = "╣\x1A" := by decide +kernel

end BulletinBoard.Text.CodePage437
