/-
# Instructions of compiled templates

What compiling can give. Literal texts are not empty; a label has a name that can stand as a word in
brackets; every other instruction was written as a word that names its kind, with as many words for
arguments as the kind calls for (`Instruction.WellFormed`).

The spans of a source are such words and texts, as its layout shows (`Span.isProper_of_ofSource`).
Reading them, what is still called for keeps the shape of an instruction begun
(`Instruction.Pending.IsSound`), one span at a time, so whatever is completed is well formed.

Key definitions: `IsWord`, `Span.IsProper`, `Instruction.WellFormed`, `Instruction.Pending.IsSound`.
Key theorems: `Kind.isWord_of_ofWord?`, `Span.isProper_of_ofSource`, `Instruction.sound_step`,
`Instruction.wellFormed_read`, `wellFormed_of_compile`.
-/
import BulletinBoard.Proofs.Template.Layout
import BulletinBoard.Template.Basic

namespace BulletinBoard.Template

open Text

theorem ok_of_map {ε α β : Type} {f : α → β} {x : Except ε α} {b : β} (h : f <$> x = .ok b) :
    ∃ a, x = .ok a ∧ f a = b := by
  cases x with
  | error e => cases h
  | ok a => exact ⟨a, rfl, Except.ok.inj h⟩

/-- A text that can stand as one word in brackets. -/
structure IsWord (text : String) : Prop where
  ne_empty : text ≠ ""
  space : ' ' ∉ text.toList
  closing : ']' ∉ text.toList

theorem ofList_ne_empty {cs : List Char} (h : cs ≠ []) : String.ofList cs ≠ "" := by
  intro hs
  have hl := congrArg String.toList hs
  rw [String.toList_ofList] at hl
  exact h hl

theorem IsWord.ofList {cs : List Char} (hn : cs ≠ []) (hs : ' ' ∉ cs) (hc : ']' ∉ cs) :
    IsWord (String.ofList cs) := by
  refine ⟨ofList_ne_empty hn, ?_, ?_⟩
  · rwa [String.toList_ofList]
  · rwa [String.toList_ofList]

/-! ### Words of the vocabulary -/

namespace Kind

theorem vocabulary_kinds : ∀ entry ∈ vocabulary, entry.2 ≠ .text ∧ entry.2 ≠ .label := by
  decide +kernel

theorem vocabulary_words : ∀ entry ∈ vocabulary,
    entry.1 ≠ "" ∧ ' ' ∉ entry.1.toList ∧ ']' ∉ entry.1.toList := by
  decide +kernel

variable {word : String} {kind : Kind}

theorem mem_vocabulary_of_ofWord? (h : ofWord? word = some kind) :
    (foldCase word, kind) ∈ vocabulary := by
  obtain ⟨before, after, hl, -⟩ := List.lookup_eq_some_iff.mp h
  rw [hl]
  exact List.mem_append_right _ List.mem_cons_self

theorem ne_of_ofWord? (h : ofWord? word = some kind) : kind ≠ .text ∧ kind ≠ .label :=
  vocabulary_kinds _ (mem_vocabulary_of_ofWord? h)

/-- A word that names a kind can stand in brackets. Making its letters small touches neither spaces
nor brackets. -/
theorem isWord_of_ofWord? (h : ofWord? word = some kind) : IsWord word := by
  obtain ⟨hn, hs, hc⟩ := vocabulary_words _ (mem_vocabulary_of_ofWord? h)
  have hfold : (foldCase word).toList = word.toList.map Char.toLower := by
    rw [foldCase, String.toList_ofList]
  rw [hfold] at hs hc
  refine ⟨?_, fun hm => hs ?_, fun hm => hc ?_⟩
  · rintro rfl
    exact hn rfl
  · exact List.mem_map.mpr ⟨' ', hm, rfl⟩
  · exact List.mem_map.mpr ⟨']', hm, rfl⟩

theorem eq_repeatSequence (h : kind.arity = .sequence) : kind = .repeatSequence := by
  cases kind <;> first | rfl | cases h

end Kind

/-! ### Spans of a source -/

namespace Span

/-- What a span of a source can be: a text that is not empty, or a word. -/
inductive IsProper : Span → Prop where
  | literal {text : String} (h : text ≠ "") : IsProper (.literal text)
  | word {text : String} (h : IsWord text) : IsProper (.word text)

theorem isProper_of_mem_textSpans {text : List Char} {s : Span} (h : s ∈ textSpans text) :
    s.IsProper := by
  unfold textSpans at h
  split at h
  · cases h
  · rename_i hn
    obtain rfl := List.mem_singleton.mp h
    exact .literal (ofList_ne_empty (by simpa using hn))

/-- What stands between spaces holds none, and of its characters all are of the whole. -/
theorem mem_of_mem_splitOn {cs part : List Char} (h : part ∈ cs.splitOn ' ') :
    ' ' ∉ part ∧ ∀ c ∈ part, c ∈ cs := by
  induction cs generalizing part with
  | nil =>
    obtain rfl := List.mem_singleton.mp h
    simp
  | cons d cs ih =>
    rw [List.splitOn_cons_eq_if_modifyHead] at h
    split at h
    · rcases List.mem_cons.mp h with rfl | h
      · simp
      · obtain ⟨hspace, hsub⟩ := ih h
        exact ⟨hspace, fun c hc => List.mem_cons_of_mem _ (hsub c hc)⟩
    · rename_i hd
      obtain ⟨first, more, hparts⟩ := List.exists_cons_of_ne_nil (List.splitOn_ne_nil ' ' cs)
      rw [hparts] at h ih
      rcases List.mem_cons.mp h with rfl | h
      · obtain ⟨hspace, hsub⟩ := ih List.mem_cons_self
        have hne : ' ' ≠ d := fun he => hd (by simp [← he])
        refine ⟨by simp [hne, hspace], fun c hc => ?_⟩
        rcases List.mem_cons.mp hc with rfl | hc
        · exact List.mem_cons_self
        · exact List.mem_cons_of_mem _ (hsub c hc)
      · obtain ⟨hspace, hsub⟩ := ih (List.mem_cons_of_mem _ h)
        exact ⟨hspace, fun c hc => List.mem_cons_of_mem _ (hsub c hc)⟩

theorem isProper_of_mem_words {b : Block} {s : Span} (h : s ∈ b.words) : s.IsProper := by
  obtain ⟨part, hpart, rfl⟩ := List.mem_map.mp h
  obtain ⟨hpart, hn⟩ := List.mem_filter.mp hpart
  obtain ⟨hspace, hsub⟩ := mem_of_mem_splitOn hpart
  refine .word (.ofList (by simpa using hn) hspace fun hc => ?_)
  obtain ⟨i, hi, heq⟩ := List.mem_map.mp (hsub _ hc)
  exact b.inside i hi heq

theorem isProper_of_mem_spans {l : Layout} {s : Span} (h : s ∈ l.spans) : s.IsProper := by
  rcases List.mem_append.mp h with h | h
  · exact isProper_of_mem_textSpans h
  · obtain ⟨⟨b, text⟩, -, h⟩ := List.mem_flatMap.mp h
    rcases List.mem_append.mp h with h | h
    · exact isProper_of_mem_words h
    · exact isProper_of_mem_textSpans h

theorem isProper_of_ofSource {source : String} {spans : List Span}
    (h : ofSource source = .ok spans) : ∀ s ∈ spans, s.IsProper := by
  obtain ⟨l, -, rfl⟩ := exists_layout_of_ofSource h
  exact fun s hs => isProper_of_mem_spans hs

end Span

/-! ### Instructions -/

namespace Instruction

/-- What a compiled template can hold. -/
inductive WellFormed : Instruction → Prop where
  /-- A literal text that is not empty. -/
  | text {text : String} (h : text ≠ "") : WellFormed (literal text)
  /-- A label whose name is a word. -/
  | label {name : String} (h : IsWord name) : WellFormed (mark name)
  /-- A repeated sequence with its length, a text that is not empty, and its count. -/
  | sequence {word length text count : String} (hw : Kind.ofWord? word = some .repeatSequence)
      (hl : isCount length = true) (ht : text ≠ "") (hc : isCount count = true) :
      WellFormed ⟨.repeatSequence, [length, text, count], word⟩
  /-- A word of the vocabulary with as many words behind it as its kind calls for. -/
  | word {kind : Kind} {args : List String} {word : String}
      (hk : kind ∉ [.text, .label, .comment, .declareLabel])
      (hw : Kind.ofWord? word = some kind) (ha : kind.arity = .fixed args.length)
      (hargs : ∀ a ∈ args, IsWord a) : WellFormed ⟨kind, args, word⟩

/-- What may be called for: the rest of an instruction that was begun as such a word. -/
def Pending.IsSound : Pending → Prop
  | .nothing | .comment => True
  | .arguments kind word given missing =>
    Kind.ofWord? word = some kind ∧ kind.arity = .fixed (given.length + missing + 1) ∧
      ∀ a ∈ given, IsWord a
  | .sequenceLength word => Kind.ofWord? word = some .repeatSequence
  | .sequenceText word length =>
    Kind.ofWord? word = some .repeatSequence ∧ isCount length = true
  | .repeatCount word length text =>
    Kind.ofWord? word = some .repeatSequence ∧ isCount length = true ∧ text ≠ ""

/-- What a span leads to is sound: what it completes is well formed, and what is then called for is
sound. -/
structure Progress.IsSound (p : Progress) : Prop where
  done : ∀ i ∈ p.done, i.WellFormed
  pending : p.pending.IsSound

theorem wellFormed_complete {kind : Kind} {word : String} {args : List String}
    (hw : Kind.ofWord? word = some kind) (ha : kind.arity = .fixed args.length)
    (hargs : ∀ a ∈ args, IsWord a) : (complete kind word args).WellFormed := by
  unfold complete
  split
  · rename_i hk
    subst hk
    have hlen : args.length = 1 := (Arity.fixed.inj ha).symm
    obtain ⟨name, rfl⟩ := List.length_eq_one_iff.mp hlen
    exact .label (hargs name List.mem_cons_self)
  · rename_i hk
    obtain ⟨ht, hl⟩ := Kind.ne_of_ofWord? hw
    refine .word ?_ hw ha hargs
    have hcomment : kind ≠ .comment := by
      rintro rfl
      cases ha
    simp [ht, hl, hk, hcomment]

theorem isWord_of_labelName? {word name : String} (hw : IsWord word)
    (h : labelName? word = some name) : IsWord name := by
  unfold labelName? at h
  split at h
  · rename_i c rest hl
    cases h
    have hsub : ∀ d ∈ c :: rest, d ∈ word.toList := fun d hd => hl ▸ List.mem_cons_of_mem _ hd
    exact .ofList (List.cons_ne_nil _ _) (fun hs => hw.space (hsub _ hs))
      fun hc => hw.closing (hsub _ hc)
  · cases h

theorem sound_begin {word : String} (hw : IsWord word) {p : Progress} (h : begin word = .ok p) :
    p.IsSound := by
  unfold begin at h
  split at h
  · split at h
    · rename_i name hname
      cases h
      exact ⟨by simpa using WellFormed.label (isWord_of_labelName? hw hname), trivial⟩
    · cases h
  · rename_i kind hkind
    split at h
    · rename_i ha
      cases h
      have hi : (complete kind word []).WellFormed := wellFormed_complete hkind ha (by simp)
      exact ⟨by simpa using hi, trivial⟩
    · rename_i missing ha
      cases h
      refine ⟨by simp, hkind, ?_, by simp⟩
      simpa using ha
    · cases h
      exact ⟨by simp, trivial⟩
    · rename_i ha
      cases h
      obtain rfl := Kind.eq_repeatSequence ha
      exact ⟨by simp, hkind⟩

theorem sound_arguments {kind : Kind} {word : String} {given : List String} {missing : Nat}
    (hp : (Pending.arguments kind word given missing).IsSound) {w : String} (hw : IsWord w)
    {p : Progress} (h : step (.arguments kind word given missing) (.word w) = .ok p) :
    p.IsSound := by
  obtain ⟨hkind, harity, hgiven⟩ := hp
  have hargs : ∀ a ∈ given ++ [w], IsWord a := by
    intro a ha
    rcases List.mem_append.mp ha with ha | ha
    · exact hgiven a ha
    · exact List.mem_singleton.mp ha ▸ hw
  cases missing with
  | zero =>
    cases h
    have hlen : kind.arity = .fixed (given ++ [w]).length := by
      simpa using harity
    have hi := wellFormed_complete hkind hlen hargs
    exact ⟨by simpa using hi, trivial⟩
  | succ missing =>
    cases h
    refine ⟨by simp, hkind, ?_, hargs⟩
    rw [harity, List.length_append, List.length_singleton]
    congr 1
    omega

/-- **One span keeps the reading sound.** -/
theorem sound_step {pending : Pending} (hp : pending.IsSound) {s : Span} (hs : s.IsProper)
    {p : Progress} (h : step pending s = .ok p) : p.IsSound := by
  cases pending with
  | nothing =>
    cases hs with
    | literal ht =>
      cases h
      exact ⟨by simpa using WellFormed.text ht, trivial⟩
    | word hw => exact sound_begin hw h
  | comment =>
    cases hs with
    | literal ht =>
      cases h
      exact ⟨by simpa using WellFormed.text ht, trivial⟩
    | word hw =>
      cases h
      exact ⟨by simp, trivial⟩
  | arguments kind word given missing =>
    cases hs with
    | literal ht => cases missing <;> cases h
    | word hw => exact sound_arguments hp hw h
  | sequenceLength word =>
    cases hs with
    | literal ht => cases h
    | word hw =>
      simp only [step] at h
      split at h
      · rename_i hcount
        cases h
        exact ⟨by simp, hp, hcount⟩
      · cases h
  | sequenceText word length =>
    cases hs with
    | literal ht =>
      cases h
      exact ⟨by simp, hp.1, hp.2, ht⟩
    | word hw => cases h
  | repeatCount word length text =>
    cases hs with
    | literal ht => cases h
    | word hw =>
      simp only [step] at h
      split at h
      · rename_i hcount
        cases h
        exact ⟨by simpa using WellFormed.sequence hp.1 hp.2.1 hp.2.2 hcount, trivial⟩
      · cases h

/-- Whatever is read from proper spans is well formed. -/
theorem wellFormed_read {spans : List Span} (hs : ∀ s ∈ spans, s.IsProper) {pending : Pending}
    (hp : pending.IsSound) {is : List Instruction} (h : read pending spans = .ok is) :
    ∀ i ∈ is, i.WellFormed := by
  induction spans generalizing pending is with
  | nil =>
    obtain ⟨-, -, rfl⟩ := ok_of_map h
    simp
  | cons s spans ih =>
    have hrest : ∀ s ∈ spans, s.IsProper := fun s h => hs s (List.mem_cons_of_mem _ h)
    unfold read at h
    split at h
    · cases h
    · rename_i p hstep
      obtain ⟨hdone, hpending⟩ := sound_step hp (hs s List.mem_cons_self) hstep
      obtain ⟨later, hlater, rfl⟩ := ok_of_map h
      intro i hi
      rcases List.mem_append.mp hi with hi | hi
      · exact hdone i (by simpa using hi)
      · exact ih hrest hpending hlater i hi

end Instruction

/-- A compiled template holds well-formed instructions only. -/
theorem wellFormed_of_compile {name source : String} {t : Template}
    (h : compile name source = .ok t) : ∀ i ∈ t.instructions, i.WellFormed := by
  unfold compile at h
  split at h
  · cases h
  · rename_i spans hspans
    split at h
    · cases h
    · rename_i is his
      cases h
      have hproper := Span.isProper_of_ofSource hspans
      have hopen : Instruction.Pending.nothing.IsSound := trivial
      exact Instruction.wellFormed_read hproper hopen his

end BulletinBoard.Template
