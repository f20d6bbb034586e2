/-
# Where brackets go wrong

A source that cannot be read is laid out up to some bracket, and the error is about the block this
opens. Either the block is never closed, and the error is at its bracket
(`Span.ofSource_eq_unclosed_iff`); or another bracket opens in it, and the error is at that one
(`Span.ofSource_eq_nested_iff`). In front of the place of an error there is only what can be read,
or a block that is still open.

While a source is read the place moves with every character. What it has come to is said here
without the reading: the row is counted by line feeds, and the column from the last of them
(`Place.past_start`). So no two characters of a source have one place (`Place.behind_inj`).

Key definitions: `Place.behind`, `Place.IsBehind`.
Key theorems: `Place.past_start`, `Place.behind_inj`, `Span.ofSource_eq_unclosed_iff`,
`Span.ofSource_eq_nested_iff`, `Span.errors_stand_at_brackets`.
-/
import BulletinBoard.Proofs.Template.Layout
import Mathlib.Data.List.DropRight

namespace BulletinBoard.Template

/-! ### Places -/

namespace Place

/-- The characters behind the last line feed. -/
def lastRow (cs : List Char) : List Char := cs.rtakeWhile (· != '\n')

/-- The place of the character that stands behind others: the row is counted from 1 by the line
feeds in front of it, and the column from 1 in the row. -/
def behind (before : List Char) : Place :=
  ⟨before.count '\n' + 1, (lastRow before).length + 1⟩

/-- The place is that of the character of a source that stands behind `before`, and of no other. -/
def IsBehind (place : Place) (before source : List Char) : Prop :=
  ∀ other, other <+: source → (behind other = place ↔ other = before)

theorem lastRow_concat (cs : List Char) (c : Char) :
    lastRow (cs ++ [c]) = if c = '\n' then [] else lastRow cs ++ [c] := by
  by_cases h : c = '\n' <;> simp [lastRow, h]

theorem lastRow_append {mid : List Char} (h : '\n' ∉ mid) (cs : List Char) :
    lastRow (cs ++ mid) = lastRow cs ++ mid := by
  induction mid using List.reverseRecOn with
  | nil => simp
  | append_singleton mid c ih =>
    rw [List.mem_append, not_or, List.mem_singleton] at h
    rw [← List.append_assoc, lastRow_concat, if_neg (Ne.symm h.2), ih h.1, List.append_assoc]

/-- What the place has come to after some characters. -/
theorem past_start (cs : List Char) :
    start.past cs = ⟨cs.count '\n' + 1, (lastRow cs).length⟩ := by
  induction cs using List.reverseRecOn with
  | nil => rfl
  | append_singleton cs c ih =>
    rw [past_append, ih, past_cons, past_nil, after, lastRow_concat]
    by_cases h : c = '\n' <;> simp [h]

theorem after_past_start (cs : List Char) : (start.past cs).after '[' = behind cs := by
  rw [past_start]
  rfl

theorem behind_append_ne (cs : List Char) {mid : List Char} (h : mid ≠ []) :
    behind (cs ++ mid) ≠ behind cs := by
  intro heq
  obtain ⟨hrow, hcolumn⟩ := Place.mk.inj heq
  by_cases hm : '\n' ∈ mid
  · have hcount : 0 < mid.count '\n' := List.count_pos_iff.mpr hm
    rw [List.count_append] at hrow
    omega
  · have hlength : 0 < mid.length := List.length_pos_iff.mpr h
    rw [lastRow_append hm, List.length_append] at hcolumn
    omega

/-- **No two characters of a source have one place.** -/
theorem behind_inj {before other source : List Char} (hb : before <+: source)
    (ho : other <+: source) (h : behind other = behind before) : other = before := by
  rcases List.prefix_or_prefix_of_prefix ho hb with ⟨mid, rfl⟩ | ⟨mid, rfl⟩
  · by_cases hm : mid = []
    · simp [hm]
    · exact absurd h.symm (behind_append_ne other hm)
  · by_cases hm : mid = []
    · simp [hm]
    · exact absurd h (behind_append_ne before hm)

theorem isBehind_iff {place : Place} {before source : List Char} (h : before <+: source) :
    place.IsBehind before source ↔ place = behind before := by
  constructor
  · exact fun hp => ((hp before h).mpr rfl).symm
  · rintro rfl other ho
    exact ⟨behind_inj h ho, fun he => he ▸ rfl⟩

end Place

/-! ### Errors -/

namespace Span

variable {source : String} {place : Place}

/-- Reading finds a block that is never closed just where a layout ends in one, and the error is at
its bracket. -/
theorem ofSource_eq_unclosed_iff : ofSource source = .error (.unclosed place) ↔
    ∃ (l : Layout) (b : Block), source.toList = l.characters ++ b.opening ∧
      place = .behind l.characters := by
  have herror : ∀ (l : Layout) (b : Block), scan none .start [] (l.characters ++ b.opening) =
      .error (.unclosed (.behind l.characters)) := by
    intro l b
    rw [scan_unclosed, Place.after_past_start]
  constructor
  · intro h
    unfold ofSource at h
    obtain ⟨l, rest, hsource, hrest⟩ := exists_layout_append source.toList
    rw [hsource] at h
    cases hrest with
    | nothing =>
      rw [List.append_nil, scan_layout] at h
      cases h
    | unclosed b =>
      rw [herror] at h
      cases h
      exact ⟨l, b, hsource, rfl⟩
    | nested b hb behind hbehind =>
      rw [scan_nested_in l b hb hbehind] at h
      cases h
  · rintro ⟨l, b, hsource, rfl⟩
    unfold ofSource
    rw [hsource, herror]

/-- Reading finds a bracket inside a block just where a layout ends in such a block, and the error
is at the bracket inside. -/
theorem ofSource_eq_nested_iff : ofSource source = .error (.nested place) ↔
    ∃ (l : Layout) (b : Block) (behind : List Char), b.body ≠ [] ∧
      source.toList = l.characters ++ b.opening ++ '[' :: behind ∧ behind.head? ≠ some '[' ∧
      place = .behind (l.characters ++ b.opening) := by
  have herror : ∀ (l : Layout) (b : Block), b.body ≠ [] → ∀ behind : List Char,
      behind.head? ≠ some '[' →
      scan none .start [] (l.characters ++ (b.opening ++ '[' :: behind)) =
        .error (.nested (.behind (l.characters ++ b.opening))) := by
    intro l b hb behind hbehind
    rw [scan_nested_in l b hb hbehind, Place.after_past_start]
  constructor
  · intro h
    unfold ofSource at h
    obtain ⟨l, rest, hsource, hrest⟩ := exists_layout_append source.toList
    rw [hsource] at h
    cases hrest with
    | nothing =>
      rw [List.append_nil, scan_layout] at h
      cases h
    | unclosed b =>
      rw [scan_unclosed] at h
      cases h
    | nested b hb behind hbehind =>
      rw [herror l b hb behind hbehind] at h
      cases h
      exact ⟨l, b, behind, hb, hsource.trans (List.append_assoc ..).symm, hbehind, rfl⟩
  · rintro ⟨l, b, behind, hb, hsource, hbehind, rfl⟩
    unfold ofSource
    rw [hsource, List.append_assoc, herror l b hb behind hbehind]

/-- Characters can be read just where they have a layout. -/
theorem reads_iff {cs : List Char} :
    (∃ spans, ofSource (String.ofList cs) = .ok spans) ↔ ∃ l : Layout, cs = l.characters := by
  constructor
  · rintro ⟨spans, h⟩
    unfold ofSource at h
    rw [String.toList_ofList] at h
    exact exists_layout h
  · rintro ⟨l, rfl⟩
    exact ⟨l.spans, ofSource_layout l⟩

/-- Nothing in a block that is still open closes it. -/
theorem closing_not_mem_body (b : Block) : ']' ∉ written b.body := by
  intro h
  obtain ⟨i, hi, hc⟩ := List.mem_flatMap.mp h
  have hinside := b.inside i hi
  cases i with
  | bracket => simp [Item.characters] at hc
  | plain c _ => exact hinside (List.mem_singleton.mp hc).symm

theorem written_ne_nil {items : List Item} (h : items ≠ []) : written items ≠ [] := by
  obtain ⟨i, items, rfl⟩ := List.exists_cons_of_ne_nil h
  cases i <;> simp [Item.characters]

/-- **Errors stand at the bracket that is wrong.** A source ends inside a block, and the error is at
a place, just where a bracket stands there, what is in front of it can be read, and what is behind
it is the body of a block to the end, with no closing bracket. A block opens inside another, and the
error is at a place, just where a bracket stands there that the next character does not double, and
what is in front of it ends inside a block that has begun with something; reading what is in front
then gives the place where that block opens. No place is that of two characters. -/
theorem errors_stand_at_brackets (source : String) (place : Place) :
    (ofSource source = .error (.unclosed place) ↔
      ∃ before behind, source.toList = before ++ '[' :: behind ∧
        place.IsBehind before source.toList ∧
        (∃ spans, ofSource (String.ofList before) = .ok spans) ∧
        ']' ∉ behind ∧ ∃ b : Block, behind = written b.body) ∧
    (ofSource source = .error (.nested place) ↔
      ∃ before behind, source.toList = before ++ '[' :: behind ∧
        place.IsBehind before source.toList ∧ behind.head? ≠ some '[' ∧
        ∃ outer inner opened, before = outer ++ '[' :: inner ∧ inner ≠ [] ∧
          (∃ spans, ofSource (String.ofList outer) = .ok spans) ∧
          opened.IsBehind outer source.toList ∧
          ofSource (String.ofList before) = .error (.unclosed opened)) := by
  constructor
  · rw [ofSource_eq_unclosed_iff]
    constructor
    · rintro ⟨l, b, hsource, rfl⟩
      have hpre : l.characters <+: source.toList := ⟨_, hsource.symm⟩
      exact ⟨l.characters, written b.body, hsource, (Place.isBehind_iff hpre).mpr rfl,
        reads_iff.mpr ⟨l, rfl⟩, closing_not_mem_body b, b, rfl⟩
    · rintro ⟨before, behind, hsource, hplace, hreads, -, b, rfl⟩
      obtain ⟨l, rfl⟩ := reads_iff.mp hreads
      exact ⟨l, b, hsource, (Place.isBehind_iff ⟨_, hsource.symm⟩).mp hplace⟩
  · rw [ofSource_eq_nested_iff]
    constructor
    · rintro ⟨l, b, behind, hb, hsource, hbehind, rfl⟩
      have hpre : l.characters ++ b.opening <+: source.toList := ⟨_, hsource.symm⟩
      have houter : l.characters <+: source.toList := (List.prefix_append _ _).trans hpre
      have hinner : written b.body ≠ [] := written_ne_nil hb
      exact ⟨_, behind, hsource, (Place.isBehind_iff hpre).mpr rfl, hbehind, l.characters,
        written b.body, .behind l.characters, rfl, hinner, reads_iff.mpr ⟨l, rfl⟩,
        (Place.isBehind_iff houter).mpr rfl,
        ofSource_eq_unclosed_iff.mpr ⟨l, b, String.toList_ofList, rfl⟩⟩
    · rintro ⟨before, behind, hsource, hplace, hbehind, outer, inner, opened, hbefore, hinner, -,
        hopened, herror⟩
      obtain ⟨l, b, hbefore', hopened'⟩ := ofSource_eq_unclosed_iff.mp herror
      rw [String.toList_ofList] at hbefore'
      have hpre : before <+: source.toList := ⟨_, hsource.symm⟩
      have hl : l.characters = outer :=
        (hopened _ (List.IsPrefix.trans ⟨_, hbefore'.symm⟩ hpre)).mp hopened'.symm
      have hbody : '[' :: inner = b.opening := by
        rw [hbefore, ← hl] at hbefore'
        exact List.append_cancel_left hbefore'
      have hne : b.body ≠ [] := by
        intro hb
        rw [Block.opening, hb] at hbody
        exact hinner (List.cons.inj hbody).2
      refine ⟨l, b, behind, hne, ?_, hbehind, ?_⟩
      · rw [hsource, hbefore']
      · rw [← hbefore']
        exact (Place.isBehind_iff hpre).mp hplace

/-- Both errors are behind a line feed, the one at the block that is open and the other inside. -/
example : ofSource "ok\ntext [ token" = .error (.unclosed ⟨2, 6⟩) ∧
    ofSource "ok\ntext [ token [ invalid ] text" = .error (.nested ⟨2, 14⟩) := by decide

end Span

end BulletinBoard.Template
