/-
# Printing instructions

How instructions are written as a source. A literal text is written with every opening bracket
doubled, any other instruction as words in brackets. Two texts in a row would be read as one, so an
empty bracket parts them.

A bracket ends the literal in front of it, and a literal is held until the next bracket or the end.
So every instruction is read by itself, as its spans, and reading these gives it back, since it is
well formed.

Key definitions: `Instruction.print`, `Instruction.printAll`, `printed`, `Instruction.spans`.
Key theorems: `Span.scan_bracketed`, `Instruction.scan_printAll`, `Instruction.read_spans`,
`compile_printed`, `compile_image`.
-/
import BulletinBoard.Proofs.Template.WellFormed

namespace BulletinBoard.Template

open Text

/-- A text as it is written in a source. -/
def doubled (text : String) : List Char :=
  text.toList.flatMap fun c => if c = '[' then ['[', '['] else [c]

/-- Words as they are written in brackets. -/
def bracketed (words : List String) : List Char :=
  '[' :: ' ' :: (words.flatMap (fun word => doubled word ++ [' ']) ++ [']'])

namespace Instruction

/-- An instruction as it is written. -/
def print (i : Instruction) : List Char :=
  match i.kind with
  | .text => doubled i.word
  | .label => bracketed ["label", i.word]
  | .repeatSequence => bracketed [i.word, i.arg 0] ++ doubled (i.arg 1) ++ bracketed [i.arg 2]
  | _ => bracketed (i.word :: i.args)

/-- What parts an instruction from those behind it. Only texts have to be parted. -/
def parting (i : Instruction) : List Instruction → List Char
  | [] => []
  | j :: _ => if i.kind = .text ∧ j.kind = .text then bracketed [] else []

/-- Instructions as they are written. -/
def printAll : List Instruction → List Char
  | [] => []
  | i :: rest => i.print ++ parting i rest ++ printAll rest

/-- The spans of an instruction as it is written. -/
def spans (i : Instruction) : List Span :=
  match i.kind with
  | .text => [.literal i.word]
  | .label => [.word "label", .word i.word]
  | .repeatSequence => [.word i.word, .word (i.arg 0), .literal (i.arg 1), .word (i.arg 2)]
  | _ => (i.word :: i.args).map .word

end Instruction

/-- The source of an instruction list. -/
def printed (is : List Instruction) : String := String.ofList (Instruction.printAll is)

/-! ### Words -/

theorem isWord_label : IsWord "label" :=
  Kind.isWord_of_ofWord? (show Kind.ofWord? "label" = some .declareLabel by decide)

theorem isDigit_of_ofDigits? {value n : Nat} {cs : List Char}
    (h : Numeral.ofDigits? value cs = some n) : ∀ c ∈ cs, c.isDigit = true := by
  induction cs generalizing value with
  | nil => simp
  | cons c cs ih =>
    unfold Numeral.ofDigits? at h
    split at h
    · rename_i hc
      exact List.forall_mem_cons.mpr ⟨hc, ih h⟩
    · cases h

theorem mem_unsigned {c : Char} {cs : List Char} (h : c ∈ cs) :
    c = '+' ∨ c ∈ Numeral.unsigned cs := by
  unfold Numeral.unsigned
  split
  · simpa using h
  · exact .inr h

/-- A count can stand in brackets: it has digits, and perhaps a plus sign. -/
theorem isWord_of_isCount {text : String} (h : Instruction.isCount text = true) : IsWord text := by
  obtain ⟨n, hn⟩ := Option.isSome_iff_exists.mp h
  unfold Numeral.read? at hn
  dsimp only at hn
  split at hn
  · cases hn
  rename_i hne
  have hdigits := isDigit_of_ofDigits? (Option.filter_eq_some_iff.mp hn).1
  have hchars : ∀ c ∈ text.toList, c = '+' ∨ c.isDigit = true := by
    intro c hc
    rcases mem_unsigned hc with hplus | hc
    · exact .inl hplus
    · exact .inr (hdigits c hc)
  refine ⟨?_, fun hs => ?_, fun hc => ?_⟩
  · rintro rfl
    exact hne (by decide)
  · simpa using hchars _ hs
  · simpa using hchars _ hc

/-! ### Reading what is written -/

namespace Span

variable {p : Place} {held rest : List Char}

theorem doubled_eq (text : String) : doubled text = written (text.toList.map Item.ofChar) := by
  unfold doubled written
  rw [List.flatMap_map]
  congr 1
  funext c
  by_cases hc : c = '[' <;> simp [Item.ofChar, Item.characters, hc]

theorem scan_doubled (text : String) :
    scan none p held (doubled text ++ rest) =
      scan none (p.past (doubled text)) (text.toList.reverse ++ held) rest := by
  rw [doubled_eq, scan_written, meant_ofChar]

theorem literalOf_reverse {text : String} (h : text ≠ "") :
    literalOf text.toList.reverse = [.literal text] := by
  simp [literalOf, h]

/-- The items between the brackets that words are written in. -/
def bodyOf (words : List String) : List Item :=
  .plain ' ' (by decide) ::
    words.flatMap fun word => word.toList.map Item.ofChar ++ [.plain ' ' (by decide)]

theorem written_bodyOf (words : List String) :
    '[' :: (written (bodyOf words) ++ [']']) = bracketed words := by
  simp [bracketed, bodyOf, doubled_eq, written, Item.characters, List.flatMap_assoc]

theorem meant_bodyOf (words : List String) :
    meant (bodyOf words) = ' ' :: words.flatMap fun word => word.toList ++ [' '] := by
  simp [bodyOf, meant, List.map_flatMap, Function.comp_def]

theorem partSpans_words {words : List String} (h : ∀ w ∈ words, IsWord w) :
    partSpans ((words.flatMap fun word => word.toList ++ [' ']).splitOn ' ') = words.map .word := by
  induction words with
  | nil => rfl
  | cons word words ih =>
    obtain ⟨hword, hrest⟩ := List.forall_mem_cons.mp h
    have hsplit : ((word :: words).flatMap fun word => word.toList ++ [' ']).splitOn ' ' =
        word.toList :: (words.flatMap fun word => word.toList ++ [' ']).splitOn ' ' := by
      rw [List.flatMap_cons, List.append_assoc, List.singleton_append,
        List.splitOn_append_cons_self_of_not_mem hword.space]
    have hfirst : wordOf word.toList.reverse = [.word word] := by
      simp [wordOf, hword.ne_empty]
    rw [hsplit, partSpans_cons, hfirst, ih hrest, List.map_cons, List.singleton_append]

/-- Words in brackets end the literal in front of them and are read as they are. -/
theorem scan_bracketed {words : List String} (h : ∀ w ∈ words, IsWord w) :
    scan none p held (bracketed words ++ rest) =
      (literalOf held ++ words.map .word ++ ·) <$>
        scan none (p.past (bracketed words)) [] rest := by
  have hinside : ∀ i ∈ bodyOf words, i.character ≠ ']' := by
    intro i hi hc
    have hmem : ']' ∈ meant (bodyOf words) := List.mem_map.mpr ⟨i, hi, hc⟩
    rw [meant_bodyOf] at hmem
    obtain ⟨w, hw, hwc⟩ : ∃ w ∈ words, ']' ∈ w.toList := by
      simpa using hmem
    exact (h w hw).closing hwc
  let b : Block := ⟨bodyOf words, hinside, by simp [bodyOf]⟩
  have hb : b.characters = bracketed words := written_bodyOf words
  have hw : b.words = words.map .word := by
    have hspace : (meant (bodyOf words)).splitOn ' ' =
        [] :: (words.flatMap fun word => word.toList ++ [' ']).splitOn ' ' := by
      rw [meant_bodyOf]
      exact List.splitOn_append_cons_self [] _
    show partSpans ((meant (bodyOf words)).splitOn ' ') = _
    rw [hspace, partSpans_cons, partSpans_words h]
    rfl
  rw [← hb, scan_block, hw]

end Span

namespace Instruction

open BulletinBoard.Template.Span

variable {p : Place} {held rest : List Char}

theorem kind_ne_of_arity {kind : Kind} {count : Nat} (h : kind.arity = .fixed count) :
    kind ≠ .repeatSequence := by
  rintro rfl
  cases h

/-- Texts, labels and repeated sequences apart, an instruction is a word with its arguments. -/
theorem print_and_spans {kind : Kind} (ht : kind ≠ .text) (hl : kind ≠ .label)
    (hs : kind ≠ .repeatSequence) (args : List String) (word : String) :
    (Instruction.mk kind args word).print = bracketed (word :: args) ∧
      (Instruction.mk kind args word).spans = (word :: args).map .word := by
  unfold print spans
  split <;> simp_all

/-- An instruction that is no text begins and ends with brackets. So it ends the literal in front of
it and leaves nothing held. -/
theorem scan_print {i : Instruction} (hi : i.WellFormed) (ht : i.kind ≠ .text) :
    scan none p held (i.print ++ rest) =
      (literalOf held ++ i.spans ++ ·) <$> scan none (p.past i.print) [] rest := by
  cases hi with
  | text => exact absurd rfl ht
  | @label name hname =>
    have hwords : ∀ w ∈ ["label", name], IsWord w := by
      simp [isWord_label, hname]
    exact scan_bracketed hwords
  | @sequence word length text count hw hl htext hc =>
    have hfront : ∀ w ∈ [word, length], IsWord w := by
      simp [Kind.isWord_of_ofWord? hw, isWord_of_isCount hl]
    have hback : ∀ w ∈ [count], IsWord w := by
      simp [isWord_of_isCount hc]
    show scan none p held
      (bracketed [word, length] ++ doubled text ++ bracketed [count] ++ rest) = _
    rw [List.append_assoc, List.append_assoc, scan_bracketed hfront, scan_doubled,
      scan_bracketed hback, List.append_nil, literalOf_reverse htext, map_append_map]
    simp [print, spans, arg]
  | @word kind args word hk hw ha hargs =>
    have hwords : ∀ w ∈ word :: args, IsWord w :=
      List.forall_mem_cons.mpr ⟨Kind.isWord_of_ofWord? hw, hargs⟩
    obtain ⟨ht, hl⟩ := Kind.ne_of_ofWord? hw
    obtain ⟨hprint, hspans⟩ := print_and_spans ht hl (kind_ne_of_arity ha) args word
    rw [hprint, hspans]
    exact scan_bracketed hwords

theorem eq_literal_of_kind {i : Instruction} (hi : i.WellFormed) (ht : i.kind = .text) :
    ∃ text, text ≠ "" ∧ i = literal text := by
  cases hi with
  | text htext => exact ⟨_, htext, rfl⟩
  | label => cases ht
  | sequence => cases ht
  | word _ hw => exact absurd ht (Kind.ne_of_ofWord? hw).1

theorem parting_eq_nil {i : Instruction} {is : List Instruction}
    (h : i.kind = .text → ∀ j ∈ is.head?, j.kind ≠ .text) : i.parting is = [] := by
  cases is with
  | nil => rfl
  | cons j is => exact if_neg fun hk => h hk.1 j rfl hk.2

/-- An empty bracket parts two texts. -/
theorem parting_eq_bracketed {i : Instruction} {is : List Instruction} (ht : i.kind = .text)
    (h : ¬ ∀ j ∈ is.head?, j.kind ≠ .text) : i.parting is = bracketed [] := by
  cases is with
  | nil => simp at h
  | cons j is =>
    have hj : j.kind = .text := by
      simpa using h
    exact if_pos ⟨ht, hj⟩

/-- Instructions are read one by one. A text that is held is not followed by another: it is held
until the next bracket, which may be the one that parts it from the next text. -/
theorem scan_printAll {is : List Instruction} (h : ∀ i ∈ is, i.WellFormed)
    (hheld : held = [] ∨ ∀ i ∈ is.head?, i.kind ≠ .text) :
    scan none p held (printAll is) = .ok (literalOf held ++ is.flatMap spans) := by
  induction is generalizing p held with
  | nil =>
    rw [List.flatMap_nil, List.append_nil, printAll, scan]
  | cons i is ih =>
    obtain ⟨hi, his⟩ := List.forall_mem_cons.mp h
    rw [printAll, List.append_assoc, List.flatMap_cons]
    by_cases ht : i.kind = .text
    · obtain ⟨text, htext, rfl⟩ := eq_literal_of_kind hi ht
      obtain rfl : held = [] := by
        simpa [ht] using hheld
      show scan none p [] (doubled text ++ (parting (literal text) is ++ printAll is)) = _
      rw [scan_doubled, List.append_nil]
      by_cases hnext : ∀ j ∈ is.head?, j.kind ≠ .text
      · have hparting := parting_eq_nil (i := literal text) fun _ => hnext
        rw [hparting, List.nil_append, ih his (.inr hnext), literalOf_reverse htext]
        rfl
      · have hparting := parting_eq_bracketed (i := literal text) rfl hnext
        rw [hparting, scan_bracketed (by simp), ih his (.inl rfl), literalOf_reverse htext]
        rfl
    · have hparting : i.parting is = [] := parting_eq_nil fun hk => absurd hk ht
      rw [hparting, List.nil_append, scan_print hi ht, ih his (.inl rfl)]
      exact congrArg Except.ok (List.append_assoc _ _ _)

/-! ### Reading spans back -/

variable {pending further : Pending} {s : Span} {later : List Span}

theorem read_of_none (h : step pending s = .ok ⟨none, further⟩) :
    read pending (s :: later) = read further later := by
  rw [read, h]
  exact id_map _

theorem read_of_some {i : Instruction} (h : step pending s = .ok ⟨some i, further⟩) :
    read pending (s :: later) = (i :: ·) <$> read further later := by
  rw [read, h]
  rfl

variable {kind : Kind} {word : String}

/-- The words that are due make the instruction complete. -/
theorem read_arguments (args given : List String) {missing : Nat}
    (h : args.length = missing + 1) :
    read (.arguments kind word given missing) (args.map .word ++ later) =
      (complete kind word (given ++ args) :: ·) <$> read .nothing later := by
  induction args generalizing given missing with
  | nil => cases h
  | cons a args ih =>
    have hlen : args.length = missing := by
      simpa using h
    cases missing with
    | zero =>
      obtain rfl := List.length_eq_zero_iff.mp hlen
      have hstep : step (.arguments kind word given 0) (.word a) =
          .ok ⟨some (complete kind word (given ++ [a])), .nothing⟩ := rfl
      exact read_of_some hstep
    | succ missing =>
      have hstep : step (.arguments kind word given (missing + 1)) (.word a) =
          .ok ⟨none, .arguments kind word (given ++ [a]) missing⟩ := rfl
      rw [List.map_cons, List.cons_append, read_of_none hstep, ih _ hlen, List.append_assoc,
        List.singleton_append]

/-- A word with as many words behind it as its kind calls for is one instruction. -/
theorem read_word (hw : Kind.ofWord? word = some kind) {args : List String}
    (ha : kind.arity = .fixed args.length) :
    read .nothing ((word :: args).map .word ++ later) =
      (complete kind word args :: ·) <$> read .nothing later := by
  cases args with
  | nil =>
    have hstep : step .nothing (.word word) = .ok ⟨some (complete kind word []), .nothing⟩ := by
      simp [step, begin, hw, ha]
    exact read_of_some hstep
  | cons a args =>
    have hstep : step .nothing (.word word) =
        .ok ⟨none, .arguments kind word [] args.length⟩ := by
      simp [step, begin, hw, ha]
    rw [List.map_cons, List.cons_append, read_of_none hstep,
      read_arguments (a :: args) [] rfl, List.nil_append]

/-- What is written of an instruction is read as the instruction. -/
theorem read_spans_append {i : Instruction} (hi : i.WellFormed) :
    read .nothing (i.spans ++ later) = (i :: ·) <$> read .nothing later := by
  cases hi with
  | @text text htext =>
    have hstep : step .nothing (.literal text) = .ok ⟨some (literal text), .nothing⟩ := rfl
    exact read_of_some hstep
  | @label name hname =>
    have hlabel : Kind.ofWord? "label" = some .declareLabel := by
      decide
    have harity : Kind.arity .declareLabel = .fixed [name].length := rfl
    exact read_word hlabel harity
  | @sequence word length text count hw hl htext hc =>
    have hbegin : step .nothing (.word word) = .ok ⟨none, .sequenceLength word⟩ := by
      simp [step, begin, hw, Kind.arity]
    have hlength : step (.sequenceLength word) (.word length) =
        .ok ⟨none, .sequenceText word length⟩ := by
      simp [step, hl]
    have htext : step (.sequenceText word length) (.literal text) =
        .ok ⟨none, .repeatCount word length text⟩ := rfl
    have hcount : step (.repeatCount word length text) (.word count) =
        .ok ⟨some ⟨.repeatSequence, [length, text, count], word⟩, .nothing⟩ := by
      simp [step, hc]
    show read .nothing (.word word :: .word length :: .literal text :: .word count :: later) = _
    rw [read_of_none hbegin, read_of_none hlength, read_of_none htext, read_of_some hcount]
  | @word kind args word hk hw ha hargs =>
    obtain ⟨ht, hl⟩ := Kind.ne_of_ofWord? hw
    obtain ⟨-, hspans⟩ := print_and_spans ht hl (kind_ne_of_arity ha) args word
    have hcomplete : complete kind word args = ⟨kind, args, word⟩ := by
      have hdeclare : kind ≠ .declareLabel := by
        rintro rfl
        simp at hk
      simp [complete, hdeclare]
    rw [hspans, read_word hw ha, hcomplete]

theorem read_spans {is : List Instruction} (h : ∀ i ∈ is, i.WellFormed) :
    read .nothing (is.flatMap spans) = .ok is := by
  induction is with
  | nil => rfl
  | cons i is ih =>
    obtain ⟨hi, his⟩ := List.forall_mem_cons.mp h
    rw [List.flatMap_cons, read_spans_append hi, ih his]
    rfl

end Instruction

/-- Well-formed instructions are what their source is compiled to. -/
theorem compile_printed (name : String) {is : List Instruction} (h : ∀ i ∈ is, i.WellFormed) :
    compile name (printed is) = .ok (.of name (printed is) is) := by
  have hspans : Span.ofSource (printed is) = .ok (is.flatMap Instruction.spans) := by
    rw [Span.ofSource, printed, String.toList_ofList, Instruction.scan_printAll h (.inl rfl)]
    rfl
  rw [compile, hspans]
  dsimp only
  rw [Instruction.ofSpans, Instruction.read_spans h]

/-- **What compiling can give is just what can be printed.** Compiled instructions are well formed,
and well-formed instructions are compiled from their source. -/
theorem compile_image (name : String) :
    (∀ source t, compile name source = .ok t → ∀ i ∈ t.instructions, i.WellFormed) ∧
      ∀ is, (∀ i ∈ is, Instruction.WellFormed i) →
        compile name (printed is) = .ok (.of name (printed is) is) := by
  constructor
  · intro source t h
    exact wellFormed_of_compile h
  · intro is h
    exact compile_printed name h

/-- Brackets where one may be taken for another. -/
def crowded : List Instruction :=
  [.literal "a[", .literal "]b", .mark "[x", ⟨.goto, ["[x"], "GOTO"⟩,
    ⟨.repeatSequence, ["2", "-[", "+3"], "repeatseq"⟩, .literal "c"]

theorem compile_image_crowded :
    (∀ i ∈ crowded, i.WellFormed) ∧
      printed crowded = "a[[[ ]]b[ label [[x ][ GOTO [[x ][ repeatseq 2 ]-[[[ +3 ]c" ∧
      compile "t" (printed crowded) = .ok (.of "t" (printed crowded) crowded) := by
  have hword : IsWord "[x" := ⟨by decide, by decide, by decide⟩
  have hgoto : ∀ a ∈ ["[x"], IsWord a := by
    simpa using hword
  have hcrowded : ∀ i ∈ crowded, i.WellFormed := by
    simp only [crowded, List.forall_mem_cons]
    refine ⟨.text (by decide), .text (by decide), .label hword, ?_, ?_, .text (by decide), ?_⟩
    · exact .word (by decide) (by decide +kernel) rfl hgoto
    · exact .sequence (by decide +kernel) (by decide) (by decide) (by decide)
    · simp
  have hcompile := (compile_image "t").2 crowded hcrowded
  have hagain := (compile_image "t").1 _ _ hcompile
  exact ⟨hagain, by decide +kernel, hcompile⟩

end BulletinBoard.Template
