/-
# Lines as they are read

What becomes of a line of bytes. Read as UTF-8, however broken, its bytes give a line feed where
they have one and nowhere else: a line feed ends a broken character, and no character that takes
more than one byte comes to one (`Utf8.Unfinished.IsWide`). So the content of a line, which is the
line without its end, has no line feed (`IsLine.lineFeed_not_mem`).

White space is told from the rest by the first character that is none (`isBlank_or_leads`). A line
end is white space, so a line and its content agree on that.

Key definitions: `Utf8.Unfinished.IsWide`, `IsContent`, `IsLine`, `IsBlank`, `Leads`.
Key theorems: `Utf8.decodeLossy_append_lineFeed`, `IsContent.eq_trimLineEnd`,
`IsLine.lineFeed_not_mem`, `isBlank_or_leads`, `trim_isEmpty_iff`.
-/
import BulletinBoard.Text.Blank
import BulletinBoard.Text.Utf8
import Mathlib.Data.List.DropRight
import Mathlib.Tactic.SplitIfs

namespace BulletinBoard.Text

/-! ### Line feeds in UTF-8 -/

namespace Utf8

/-- The unfinished character will be no line feed, whatever its other bytes. -/
structure Unfinished.IsWide (p : Unfinished) : Prop where
  low : 0x80 ≤ p.low
  bits : 10 < p.bits * 64 + (p.low - 0x80)

theorem eq_ten_of_ofNat {n : Nat} (h : Char.ofNat n = '\n') : n = 10 := by
  rw [Char.ofNat] at h
  by_cases hn : n.isValidChar
  · rw [dif_pos hn] at h
    exact congrArg Char.toNat h
  · rw [dif_neg hn] at h
    cases h

variable {byte : UInt8} {p : Unfinished} {state : Option Unfinished}

/-- The first byte of a character leads to a line feed only if it is one. -/
theorem lead_keeps (byte : UInt8) :
    match lead byte with
    | .whole c => c = '\n' → byte = 10
    | .opens p => p.IsWide
    | .invalid => True := by
  unfold lead
  dsimp only
  by_cases hwhole : byte.toNat < 0x80
  · rw [if_pos hwhole]
    exact fun hc => UInt8.toNat_inj.mp (eq_ten_of_ofNat hc)
  rw [if_neg hwhole]
  by_cases hcontinues : byte.toNat < 0xC2
  · rw [if_pos hcontinues]
    trivial
  rw [if_neg hcontinues]
  -- The others open a character, all but the last.
  split_ifs
  case neg => trivial
  all_goals exact ⟨by dsimp only; omega, by dsimp only; omega⟩

/-- A byte where a character begins gives a line feed only if it is one. -/
theorem fresh_keeps (byte : UInt8) :
    (some '\n' ∈ (fresh byte).1 → byte = 10) ∧ ∀ p ∈ (fresh byte).2, p.IsWide := by
  have hlead := lead_keeps byte
  unfold fresh
  cases hb : lead byte with
  | whole c =>
    rw [hb] at hlead
    exact ⟨fun h => hlead (Option.some.inj (List.mem_singleton.mp h)).symm, by simp⟩
  | opens p =>
    rw [hb] at hlead
    refine ⟨by simp, fun q hq => ?_⟩
    cases hq
    exact hlead
  | invalid => exact ⟨by simp, by simp⟩

/-- What a byte adds to a character that will be no line feed leaves it so. -/
theorem Unfinished.IsWide.next? (h : p.IsWide) {result : Char ⊕ Unfinished}
    (hn : p.next? byte = some result) :
    match result with
    | .inl c => c ≠ '\n'
    | .inr q => q.IsWide := by
  obtain ⟨hlow, hbits⟩ := h
  unfold Unfinished.next? at hn
  dsimp only at hn
  split at hn
  · cases hn
  rename_i hrange
  have hin : p.low ≤ byte.toNat := by
    simp only [Bool.or_eq_true, decide_eq_true_eq, not_or] at hrange
    omega
  have hmore : 10 < p.bits * 64 + (byte.toNat - 0x80) := by omega
  split at hn <;> cases hn
  · exact fun hc => absurd (eq_ten_of_ofNat hc) (by omega)
  · exact ⟨Nat.le_refl _, by dsimp only; omega⟩

/-- A byte anywhere gives a line feed only if it is one. -/
theorem step_keeps (h : ∀ p ∈ state, p.IsWide) (byte : UInt8) :
    (some '\n' ∈ (step state byte).1 → byte = 10) ∧ ∀ p ∈ (step state byte).2, p.IsWide := by
  cases state with
  | none => exact fresh_keeps byte
  | some p =>
    have hwide : p.IsWide := h p rfl
    unfold step
    dsimp only
    split
    · rename_i c hc
      have hne : c ≠ '\n' := hwide.next? hc
      exact ⟨fun hm => absurd (by simpa using hm) hne.symm, by simp⟩
    · rename_i q hq
      refine ⟨by simp, fun q' hq' => ?_⟩
      cases hq'
      exact hwide.next? hq
    · obtain ⟨hfeed, hwide⟩ := fresh_keeps byte
      exact ⟨fun hm => hfeed (by simpa using hm), hwide⟩

/-- A line feed ends what is unfinished. -/
theorem step_lineFeed (h : ∀ p ∈ state, p.IsWide) :
    step state 10 = (scan state [] ++ [some '\n'], none) := by
  cases state with
  | none => rfl
  | some p =>
    have hbroken : p.next? 10 = none := by
      have hten : (10 : UInt8).toNat < p.low := Nat.lt_of_lt_of_le (by decide) (h p rfl).low
      unfold Unfinished.next?
      dsimp only
      rw [if_pos]
      rw [Bool.or_eq_true, decide_eq_true_eq]
      exact .inl hten
    unfold step
    dsimp only
    rw [hbroken]
    rfl

theorem scan_append_lineFeed (h : ∀ p ∈ state, p.IsWide) (bytes : List UInt8) :
    scan state (bytes ++ [10]) = scan state bytes ++ [some '\n'] := by
  induction bytes generalizing state with
  | nil =>
    show (step state 10).1 ++ scan (step state 10).2 [] = _
    rw [step_lineFeed h]
    exact List.append_nil _
  | cons b rest ih =>
    rw [List.cons_append, scan, ih (step_keeps h b).2, scan, List.append_assoc]

theorem lineFeed_not_mem_scan (h : ∀ p ∈ state, p.IsWide) {bytes : List UInt8}
    (hb : (10 : UInt8) ∉ bytes) : some '\n' ∉ scan state bytes := by
  induction bytes generalizing state with
  | nil =>
    unfold scan
    split <;> simp
  | cons b rest ih =>
    rw [List.mem_cons, not_or] at hb
    obtain ⟨hfeed, hwide⟩ := step_keeps h b
    rw [scan, List.mem_append, not_or]
    exact ⟨fun hm => hb.1 (hfeed hm).symm, ih hwide hb.2⟩

/-- A line feed is read as a line feed, whatever is in front of it. -/
theorem decodeLossy_append_lineFeed (bytes : List UInt8) :
    (decodeLossy (bytes ++ [10])).toList = (decodeLossy bytes).toList ++ ['\n'] := by
  unfold decodeLossy
  rw [scan_append_lineFeed (by simp), String.toList_ofList, String.toList_ofList, List.map_append]
  rfl

theorem lineFeed_not_mem_decodeLossy {bytes : List UInt8} (h : (10 : UInt8) ∉ bytes) :
    '\n' ∉ (decodeLossy bytes).toList := by
  unfold decodeLossy
  rw [String.toList_ofList]
  intro hm
  obtain ⟨c, hc, heq⟩ := List.mem_map.mp hm
  cases c with
  | none => exact absurd heq (by decide)
  | some c =>
    obtain rfl : c = '\n' := heq
    exact lineFeed_not_mem_scan (by simp) h hc

end Utf8

/-! ### Line ends -/

/-- A text is the content of a line: the line without the carriage returns and line feeds at its
end. -/
structure IsContent (content line : String) : Prop where
  ends : ∃ ends, line.toList = content.toList ++ ends ∧ ∀ c ∈ ends, isLineEnd c = true
  last : ∀ c ∈ content.toList.getLast?, isLineEnd c = false

theorem isContent_trimLineEnd (line : String) : IsContent (trimLineEnd line) line := by
  have htrim : (trimLineEnd line).toList = line.toList.rdropWhile isLineEnd :=
    String.toList_ofList
  constructor
  · refine ⟨line.toList.rtakeWhile isLineEnd, ?_, fun c hc => List.mem_rtakeWhile_imp hc⟩
    rw [htrim]
    exact (List.rdropWhile_append_rtakeWhile ..).symm
  · intro c hc
    rw [htrim] at hc
    obtain ⟨hne, hlast⟩ := List.mem_getLast?_eq_getLast hc
    rw [hlast]
    exact Bool.eq_false_iff.mpr (List.rdropWhile_last_not isLineEnd _ hne)

/-- A line has one content. -/
theorem IsContent.eq_trimLineEnd {content line : String} (h : IsContent content line) :
    content = trimLineEnd line := by
  obtain ⟨ends, hline, hends⟩ := h.ends
  have hdrop : (content.toList ++ ends).rdropWhile isLineEnd = content.toList := by
    have hcut : ((content.toList ++ ends).reverse.dropWhile isLineEnd).reverse =
        (content.toList.reverse.dropWhile isLineEnd).reverse := by
      rw [List.reverse_append, List.dropWhile_append_of_pos]
      exact fun c hc => hends c (List.mem_reverse.mp hc)
    refine Eq.trans hcut (List.rdropWhile_eq_self_iff.mpr fun hne => ?_)
    rw [h.last _ (List.getLast?_eq_some_getLast hne)]
    exact Bool.false_ne_true
  rw [← String.toList_inj, ← hdrop, ← hline]
  exact String.toList_ofList.symm

/-- Bytes are a line: their only line feed, if they have one, is the last of them. -/
def IsLine (bytes : List UInt8) : Prop :=
  ∃ front, (10 : UInt8) ∉ front ∧ (bytes = front ++ [10] ∨ bytes = front)

/-- The content of a line has no line feed. -/
theorem IsLine.lineFeed_not_mem {bytes : List UInt8} (h : IsLine bytes) {content : String}
    (hc : IsContent content (Utf8.decodeLossy bytes)) : '\n' ∉ content.toList := by
  obtain ⟨front, hfront, hbytes⟩ := h
  obtain ⟨ends, hends, -⟩ := hc.ends
  have hnot : '\n' ∉ (Utf8.decodeLossy front).toList := Utf8.lineFeed_not_mem_decodeLossy hfront
  have hstart : content.toList <+: (Utf8.decodeLossy bytes).toList := ⟨ends, hends.symm⟩
  rcases hbytes with rfl | rfl
  · rw [Utf8.decodeLossy_append_lineFeed, List.prefix_concat_iff] at hstart
    rcases hstart with hall | hstart
    · -- The content would end with the line feed.
      have hlast := hc.last '\n' (by rw [hall, List.getLast?_concat]; rfl)
      exact absurd hlast (by decide)
    · exact fun hm => hnot (hstart.subset hm)
  · exact fun hm => hnot (hstart.subset hm)

/-! ### White space -/

/-- All of a text is white space. -/
def IsBlank (s : String) : Prop := ∀ c ∈ s.toList, isBlank c = true

/-- A character is the first of a text that is not white space. -/
def Leads (c : Char) (s : String) : Prop :=
  ∃ before after, s.toList = before ++ c :: after ∧ (∀ b ∈ before, isBlank b = true) ∧
    isBlank c = false

theorem isBlank_or_leads (s : String) : IsBlank s ∨ ∃ c, Leads c s := by
  have hsplit : s.toList = s.toList.takeWhile isBlank ++ s.toList.dropWhile isBlank :=
    List.takeWhile_append_dropWhile.symm
  have hbefore : ∀ b ∈ s.toList.takeWhile isBlank, isBlank b = true := fun b hb =>
    List.mem_takeWhile_imp hb
  have hhead := List.head?_dropWhile_not isBlank s.toList
  cases hrest : s.toList.dropWhile isBlank with
  | nil =>
    rw [hrest, List.append_nil] at hsplit
    exact .inl fun c hc => hbefore c (hsplit ▸ hc)
  | cons c after =>
    rw [hrest] at hsplit hhead
    exact .inr ⟨c, _, after, hsplit, hbefore, by simpa using hhead⟩

theorem isBlank_of_isLineEnd {c : Char} (h : isLineEnd c = true) : isBlank c = true := by
  rw [isLineEnd, Bool.or_eq_true, beq_iff_eq, beq_iff_eq] at h
  rcases h with rfl | rfl <;> decide

theorem IsContent.isBlank_iff {content line : String} (h : IsContent content line) :
    IsBlank content ↔ IsBlank line := by
  obtain ⟨ends, hline, hends⟩ := h.ends
  unfold IsBlank
  rw [hline]
  refine ⟨fun hb c hc => ?_, fun hb c hc => hb c (List.mem_append_left _ hc)⟩
  exact (List.mem_append.mp hc).elim (hb c) fun hc => isBlank_of_isLineEnd (hends c hc)

theorem IsContent.leads {content line : String} (h : IsContent content line) {c : Char}
    (hc : Leads c content) : Leads c line := by
  obtain ⟨ends, hline, -⟩ := h.ends
  obtain ⟨before, after, hsplit, hbefore, hc⟩ := hc
  refine ⟨before, after ++ ends, ?_, hbefore, hc⟩
  rw [hline, hsplit, List.append_assoc, List.cons_append]

theorem trimChars_of_isBlank {s : String} (h : IsBlank s) : trimChars s.toList = [] := by
  rw [trimChars, List.dropWhile_eq_nil_iff.mpr h]
  rfl

/-- What leads a text leads what is left of it. -/
theorem trimChars_of_leads {s : String} {c : Char} (h : Leads c s) :
    ∃ more, trimChars s.toList = c :: more := by
  obtain ⟨before, after, hsplit, hbefore, hc⟩ := h
  have hdrop : s.toList.dropWhile isBlank = c :: after := by
    rw [hsplit, List.dropWhile_append_of_pos hbefore, List.dropWhile_cons_of_neg]
    exact Bool.eq_false_iff.mp hc
  have hkept : (c :: after).rdropWhile isBlank <+: c :: after := List.rdropWhile_prefix isBlank _
  have hne : (c :: after).rdropWhile isBlank ≠ [] := fun hnil =>
    Bool.eq_false_iff.mp hc (List.rdropWhile_eq_nil_iff.mp hnil c List.mem_cons_self)
  obtain ⟨d, more, hd⟩ := List.exists_cons_of_ne_nil hne
  rw [hd] at hkept
  obtain ⟨rfl, -⟩ := List.cons_prefix_cons.mp hkept
  exact ⟨more, by rw [trimChars, hdrop]; exact hd⟩

/-- One character at most leads a text, and none a blank one. -/
theorem Leads.eq {s : String} {c d : Char} (hc : Leads c s) (hd : Leads d s) : c = d := by
  obtain ⟨_, hc⟩ := trimChars_of_leads hc
  obtain ⟨_, hd⟩ := trimChars_of_leads hd
  exact (List.cons.inj (hc.symm.trans hd)).1

theorem Leads.not_isBlank {s : String} {c : Char} (hc : Leads c s) : ¬ IsBlank s := fun hb => by
  obtain ⟨_, hc⟩ := trimChars_of_leads hc
  exact absurd (hc.symm.trans (trimChars_of_isBlank hb)) (List.cons_ne_nil _ _)

/-- Nothing is left of a blank text, and of any other something is. -/
theorem trim_isEmpty_iff {s : String} : (trim s).isEmpty = true ↔ IsBlank s := by
  have htrim : (trim s).isEmpty = true ↔ trimChars s.toList = [] := by
    rw [String.isEmpty_iff, trim, ← String.toList_inj, String.toList_ofList]
    rfl
  rw [htrim]
  refine ⟨fun hnil => (isBlank_or_leads s).resolve_right ?_, trimChars_of_isBlank⟩
  rintro ⟨c, hc⟩
  obtain ⟨more, hmore⟩ := trimChars_of_leads hc
  exact absurd (hmore.symm.trans hnil) (List.cons_ne_nil _ _)

end BulletinBoard.Text
