/-
# The grammar of spans

Spans are read a phrase at a time: a literal text, a word of the vocabulary with as many words
behind it as its kind calls for, a comment with all the words behind it, a repeated sequence, or a
label that is declared with a slash. Each phrase but a comment is an instruction.

Whatever the spans are, they are phrases in a row up to their end, or up to a word that begins no
phrase (`exists_phrases`). In the one case reading gives the instructions of the phrases, in the
other the error says what is wrong with the first word that begins none
(`Instruction.ofSpans_eq_iff`). The reader takes one span at a time and knows nothing of phrases:
that it goes from phrase to phrase is `Instruction.read_phrase`, and that it stops at the word is
`Instruction.read_of_breaks`.

Key definitions: `Phrase`, `Phrase.spans`, `Phrase.instruction?`, `Parted`, `Breaks`.
Key theorems: `Instruction.read_phrase`, `Instruction.read_of_breaks`, `exists_phrases`,
`Instruction.ofSpans_eq_iff`.
-/
import BulletinBoard.Proofs.Template.Printing

namespace BulletinBoard.Template

open Text Instruction

/-! ### Phrases -/

/-- One thing that spans say, with all that it takes. -/
inductive Phrase where
  /-- A literal text. -/
  | text (text : String)
  /-- A word of the vocabulary and as many words as its kind calls for. -/
  | word (kind : Kind) (word : String) (args : List String) (hk : Kind.ofWord? word = some kind)
    (ha : kind.arity = .fixed args.length) (hd : kind ≠ .declareLabel)
  /-- The word that declares a label, and the name. -/
  | declaration (word name : String) (hk : Kind.ofWord? word = some .declareLabel)
  /-- A comment and the words it passes over. -/
  | comment (word : String) (passed : List String) (hk : Kind.ofWord? word = some .comment)
  /-- A repeated sequence with its length, its text and its count. -/
  | sequence (word length text count : String) (hk : Kind.ofWord? word = some .repeatSequence)
    (hl : isCount length = true) (hc : isCount count = true)
  /-- A slash and a name, in a word that is not in the vocabulary. -/
  | slash (name : String) (hn : name ≠ "") (hk : Kind.ofWord? ("/" ++ name) = none)

namespace Phrase

/-- The spans of a phrase. -/
def spans : Phrase → List Span
  | text t => [.literal t]
  | word _ w args _ _ _ => .word w :: args.map .word
  | declaration w name _ => [.word w, .word name]
  | comment w passed _ => .word w :: passed.map .word
  | sequence w length t count _ _ _ => [.word w, .word length, .literal t, .word count]
  | slash name _ _ => [.word ("/" ++ name)]

/-- The instruction a phrase stands for. A comment stands for none. -/
def instruction? : Phrase → Option Instruction
  | text t => some (.literal t)
  | word kind w args _ _ _ => some ⟨kind, args, w⟩
  | declaration _ name _ => some (.mark name)
  | comment _ _ _ => none
  | sequence w length t count _ _ _ => some ⟨.repeatSequence, [length, t, count], w⟩
  | slash name _ _ => some (.mark name)

/-- The phrase takes all that it may: a comment leaves no word behind it. -/
def TakesAll (behind : List Span) : Phrase → Prop
  | comment _ _ _ => ∀ w, behind.head? ≠ some (.word w)
  | _ => True

end Phrase

/-- Phrases in a row, with more spans behind them, each of which takes all that it may. -/
def Parted (behind : List Span) : List Phrase → Prop
  | [] => True
  | p :: ps => p.TakesAll (ps.flatMap Phrase.spans ++ behind) ∧ Parted behind ps

/-! ### Words that begin no phrase -/

/-- What stands first among spans. -/
def Found.first : List Span → Found
  | [] => .nothing
  | s :: _ => .span s

/-- A count is wanted, and there is no word, or one that is no numeral. -/
inductive LacksCount : List Span → Found → Prop where
  | noWord {rest : List Span} (h : ∀ w, rest.head? ≠ some (.word w)) :
    LacksCount rest (.first rest)
  | noNumeral {w : String} {rest : List Span} (h : isCount w = false) :
    LacksCount (.word w :: rest) (.notNumeral w)

/-- The first of the spans is a word that begins no phrase, and the error says what is wrong. -/
inductive Breaks : List Span → WordError → Prop where
  /-- The word is not in the vocabulary, and is no slash with a name. -/
  | unknown {word : String} {rest : List Span} (hk : Kind.ofWord? word = none)
    (hn : ∀ name, name ≠ "" → word ≠ "/" ++ name) : Breaks (.word word :: rest) (.unknown word)
  /-- After some of the arguments that are due there is no other word. -/
  | argument {kind : Kind} {word : String} {args : List String} {total : Nat} {rest : List Span}
    (hk : Kind.ofWord? word = some kind) (ha : kind.arity = .fixed total)
    (hl : args.length < total) (hr : ∀ w, rest.head? ≠ some (.word w)) :
    Breaks (.word word :: (args.map .word ++ rest))
      (.incomplete word (.argument (args.length + 1) total) (.first rest))
  /-- A repeated sequence lacks its length. -/
  | length {word : String} {rest : List Span} {found : Found}
    (hk : Kind.ofWord? word = some .repeatSequence) (hr : LacksCount rest found) :
    Breaks (.word word :: rest) (.incomplete word .sequenceLength found)
  /-- It lacks its text. -/
  | text {word length : String} {rest : List Span}
    (hk : Kind.ofWord? word = some .repeatSequence) (hl : isCount length = true)
    (hr : ∀ t, rest.head? ≠ some (.literal t)) :
    Breaks (.word word :: .word length :: rest)
      (.incomplete word .sequenceText (.first rest))
  /-- It lacks its count. -/
  | count {word length text : String} {rest : List Span} {found : Found}
    (hk : Kind.ofWord? word = some .repeatSequence) (hl : isCount length = true)
    (hr : LacksCount rest found) :
    Breaks (.word word :: .word length :: .literal text :: rest)
      (.incomplete word .repeatCount found)

/-- A label is declared by a slash and a name that is not empty. -/
theorem labelName?_eq_some_iff {word name : String} :
    labelName? word = some name ↔ name ≠ "" ∧ word = "/" ++ name := by
  have hslash : ("/" : String).toList = ['/'] := rfl
  constructor
  · intro h
    unfold labelName? at h
    split at h
    · rename_i c rest hword
      cases h
      refine ⟨ofList_ne_empty (List.cons_ne_nil c rest), String.toList_inj.mp ?_⟩
      rw [hword, String.toList_append, hslash, String.toList_ofList]
      rfl
    · cases h
  · rintro ⟨hn, rfl⟩
    have hlist : name.toList ≠ [] := fun h => hn (String.toList_eq_nil_iff.mp h)
    obtain ⟨c, rest, hname⟩ := List.exists_cons_of_ne_nil hlist
    have hword : ("/" ++ name).toList = '/' :: c :: rest := by
      rw [String.toList_append, hslash, hname]
      rfl
    unfold labelName?
    rw [hword]
    simp only
    rw [← hname, String.ofList_toList]

namespace Instruction

variable {behind : List Span} {kind : Kind} {word : String}

/-! ### Reading from phrase to phrase -/

theorem read_passed (passed : List String) :
    read .comment (passed.map .word ++ behind) = read .comment behind := by
  induction passed with
  | nil => rfl
  | cons w passed ih =>
    have hstep : step .comment (.word w) = .ok ⟨none, .comment⟩ := rfl
    rw [List.map_cons, List.cons_append, read_of_none hstep, ih]

theorem read_comment (h : ∀ w, behind.head? ≠ some (.word w)) :
    read .comment behind = read .nothing behind := by
  cases behind with
  | nil => rfl
  | cons s behind =>
    cases s with
    | literal text => rfl
    | word w => exact absurd rfl (h w)

theorem step_sequence (hk : Kind.ofWord? word = some .repeatSequence) :
    step .nothing (.word word) = .ok ⟨none, .sequenceLength word⟩ := by
  simp [step, begin, hk, Kind.arity]

theorem step_sequenceLength {length : String} (hl : isCount length = true) :
    step (.sequenceLength word) (.word length) = .ok ⟨none, .sequenceText word length⟩ := by
  simp [step, hl]

/-- **A phrase is read as its instruction**, and what is behind it is read as if nothing were in
front of it. -/
theorem read_phrase {p : Phrase} (h : p.TakesAll behind) :
    read .nothing (p.spans ++ behind) =
      (p.instruction?.toList ++ ·) <$> read .nothing behind := by
  cases p with
  | text text =>
    have hstep : step .nothing (.literal text) = .ok ⟨some (literal text), .nothing⟩ := rfl
    exact read_of_some hstep
  | word kind w args hk ha hd =>
    have hcomplete : complete kind w args = ⟨kind, args, w⟩ := by
      simp [complete, hd]
    show read .nothing ((w :: args).map .word ++ behind) = _
    rw [read_word hk ha, hcomplete]
    rfl
  | declaration w name hk =>
    have hcomplete : complete .declareLabel w [name] = mark name := rfl
    have harity : Kind.declareLabel.arity = .fixed [name].length := rfl
    show read .nothing ([w, name].map .word ++ behind) = _
    rw [read_word hk harity, hcomplete]
    rfl
  | comment w passed hk =>
    have hstep : step .nothing (.word w) = .ok ⟨none, .comment⟩ := by
      simp [step, begin, hk, Kind.arity]
    show read .nothing (.word w :: (passed.map .word ++ behind)) = id <$> read .nothing behind
    rw [read_of_none hstep, read_passed, read_comment h, id_map]
  | sequence w length text count hk hl hc =>
    have htext : step (.sequenceText w length) (.literal text) =
        .ok ⟨none, .repeatCount w length text⟩ := rfl
    have hcount : step (.repeatCount w length text) (.word count) =
        .ok ⟨some ⟨.repeatSequence, [length, text, count], w⟩, .nothing⟩ := by
      simp [step, hc]
    show read .nothing (.word w :: .word length :: .literal text :: .word count :: behind) = _
    rw [read_of_none (step_sequence hk), read_of_none (step_sequenceLength hl),
      read_of_none htext, read_of_some hcount]
    rfl
  | slash name hn hk =>
    have hname : labelName? ("/" ++ name) = some name := labelName?_eq_some_iff.mpr ⟨hn, rfl⟩
    have hstep : step .nothing (.word ("/" ++ name)) = .ok ⟨some (mark name), .nothing⟩ := by
      simp [step, begin, hk, hname]
    exact read_of_some hstep

theorem read_phrases {ps : List Phrase} (h : Parted behind ps) :
    read .nothing (ps.flatMap Phrase.spans ++ behind) =
      (ps.filterMap Phrase.instruction? ++ ·) <$> read .nothing behind := by
  induction ps with
  | nil => exact (id_map _).symm
  | cons p ps ih =>
    obtain ⟨hp, hps⟩ := h
    rw [List.flatMap_cons, List.append_assoc, read_phrase hp, ih hps]
    cases read .nothing behind with
    | error e => rfl
    | ok is =>
      refine congrArg Except.ok ?_
      cases hi : p.instruction? <;> simp [hi]

/-! ### Where reading stops -/

theorem read_of_error {pending : Pending} {s : Span} {e : WordError}
    (h : step pending s = .error e) : read pending (s :: behind) = .error e := by
  rw [read, h]

/-- Where what is called for is missing, the error tells what stands in its place. -/
theorem read_of_lack {pending : Pending} {e : Found → WordError}
    (hend : finish pending = .error (e .nothing))
    (hspan : ∀ s, behind.head? = some s → step pending s = .error (e (.span s))) :
    read pending behind = .error (e (.first behind)) := by
  cases behind with
  | nil =>
    rw [read, hend]
    rfl
  | cons s behind => exact read_of_error (hspan s rfl)

theorem read_of_noWord {pending : Pending} {e : Found → WordError}
    (h : ∀ w, behind.head? ≠ some (.word w)) (hend : finish pending = .error (e .nothing))
    (hliteral : ∀ t, step pending (.literal t) = .error (e (.span (.literal t)))) :
    read pending behind = .error (e (.first behind)) := by
  refine read_of_lack hend fun s hs => ?_
  cases s with
  | literal text => exact hliteral text
  | word w => exact absurd hs (h w)

/-- The length and the count of a sequence are missing where there is no numeral. -/
theorem read_of_lacksCount {pending : Pending} {e : Found → WordError} {found : Found}
    (h : LacksCount behind found) (hend : finish pending = .error (e .nothing))
    (hliteral : ∀ t, step pending (.literal t) = .error (e (.span (.literal t))))
    (hword : ∀ w, isCount w = false → step pending (.word w) = .error (e (.notNumeral w))) :
    read pending behind = .error (e found) := by
  cases h with
  | noWord h => exact read_of_noWord h hend hliteral
  | noNumeral h => exact read_of_error (hword _ h)

/-- Words that are due are missing where there is no word. -/
theorem read_arguments_of_lack (args given : List String) {missing : Nat}
    (hl : args.length ≤ missing) (hr : ∀ w, behind.head? ≠ some (.word w)) :
    read (.arguments kind word given missing) (args.map .word ++ behind) =
      .error (.incomplete word
        (.argument (given.length + args.length + 1) (given.length + missing + 1))
        (.first behind)) := by
  induction args generalizing given missing with
  | nil => exact read_of_noWord hr rfl fun t => by cases missing <;> rfl
  | cons a args ih =>
    obtain ⟨less, rfl⟩ : ∃ less, missing = less + 1 := Nat.exists_eq_succ_of_ne_zero (by
      intro hz
      simp [hz] at hl)
    have hless : args.length ≤ less := by simpa using hl
    have hstep : step (.arguments kind word given (less + 1)) (.word a) =
        .ok ⟨none, .arguments kind word (given ++ [a]) less⟩ := rfl
    have hfirst : (given ++ [a]).length + args.length + 1 =
        given.length + (a :: args).length + 1 := by
      simp
      omega
    have htotal : (given ++ [a]).length + less + 1 = given.length + (less + 1) + 1 := by
      simp
      omega
    rw [List.map_cons, List.cons_append, read_of_none hstep, ih _ hless, hfirst, htotal]

/-- **A word that begins no phrase cannot be read.** -/
theorem read_of_breaks {spans : List Span} {e : WordError} (h : Breaks spans e) :
    read .nothing spans = .error e := by
  cases h with
  | @unknown word rest hk hn =>
    have hname : labelName? word = none := by
      rw [Option.eq_none_iff_forall_ne_some]
      intro name h
      obtain ⟨hne, hword⟩ := labelName?_eq_some_iff.mp h
      exact hn name hne hword
    exact read_of_error (by simp [step, begin, hk, hname])
  | @argument kind word args total rest hk ha hl hr =>
    obtain ⟨missing, rfl⟩ : ∃ missing, total = missing + 1 :=
      Nat.exists_eq_succ_of_ne_zero (by omega)
    have hstep : step .nothing (.word word) = .ok ⟨none, .arguments kind word [] missing⟩ := by
      simp [step, begin, hk, ha]
    rw [read_of_none hstep, read_arguments_of_lack args [] (by omega) hr]
    simp
  | length hk hr =>
    rw [read_of_none (step_sequence hk)]
    exact read_of_lacksCount hr rfl (fun t => rfl) fun w hw => by simp [step, hw]
  | text hk hl hr =>
    rw [read_of_none (step_sequence hk), read_of_none (step_sequenceLength hl)]
    refine read_of_lack rfl fun s hs => ?_
    cases s with
    | literal text => exact absurd hs (hr text)
    | word w => rfl
  | @count word length text rest found hk hl hr =>
    have htext : step (.sequenceText word length) (.literal text) =
        .ok ⟨none, .repeatCount word length text⟩ := rfl
    rw [read_of_none (step_sequence hk), read_of_none (step_sequenceLength hl), read_of_none htext]
    exact read_of_lacksCount hr rfl (fun t => rfl) fun w hw => by simp [step, hw]

end Instruction

/-! ### Taking spans apart -/

theorem exists_words (spans : List Span) : ∃ (ws : List String) (rest : List Span),
    spans = ws.map .word ++ rest ∧ ∀ w, rest.head? ≠ some (.word w) := by
  induction spans with
  | nil => exact ⟨[], [], rfl, by simp⟩
  | cons s spans ih =>
    cases s with
    | literal text => exact ⟨[], .literal text :: spans, rfl, by simp⟩
    | word w =>
      obtain ⟨ws, rest, rfl, hrest⟩ := ih
      exact ⟨w :: ws, rest, rfl, hrest⟩

theorem count_or_lacksCount (spans : List Span) :
    (∃ w rest, spans = .word w :: rest ∧ isCount w = true) ∨ ∃ found, LacksCount spans found := by
  by_cases h : ∃ w, spans.head? = some (.word w)
  · obtain ⟨w, hw⟩ := h
    obtain ⟨rest, rfl⟩ := List.head?_eq_some_iff.mp hw
    by_cases hc : isCount w = true
    · exact .inl ⟨w, rest, rfl, hc⟩
    · exact .inr ⟨_, .noNumeral (Bool.eq_false_iff.mpr hc)⟩
  · exact .inr ⟨_, .noWord fun w hw => h ⟨w, hw⟩⟩

theorem Kind.eq_comment {kind : Kind} (h : kind.arity = .discard) : kind = .comment := by
  cases kind with
  | comment => rfl
  | _ => cases h

/-- Behind a word there is what it takes, or the word begins no phrase. -/
theorem phrase_or_breaks_of_word (word : String) (spans : List Span) :
    (∃ (p : Phrase) (rest : List Span), .word word :: spans = p.spans ++ rest ∧
      p.TakesAll rest ∧ rest.length ≤ spans.length) ∨ ∃ e, Breaks (.word word :: spans) e := by
  cases hk : Kind.ofWord? word with
  | none =>
    cases hname : labelName? word with
    | some name =>
      obtain ⟨hn, rfl⟩ := labelName?_eq_some_iff.mp hname
      exact .inl ⟨.slash name hn hk, spans, rfl, trivial, Nat.le_refl _⟩
    | none =>
      refine .inr ⟨_, .unknown hk fun name hn hword => ?_⟩
      have hsome := labelName?_eq_some_iff.mpr ⟨hn, hword⟩
      rw [hname] at hsome
      cases hsome
  | some kind =>
    cases ha : kind.arity with
    | fixed total =>
      obtain ⟨ws, rest, rfl, hrest⟩ := exists_words spans
      by_cases hl : ws.length < total
      · exact .inr ⟨_, .argument hk ha hl hrest⟩
      · have htake : (ws.take total).length = total := by
          rw [List.length_take]
          omega
        have hspans : ws.map Span.word ++ rest =
            (ws.take total).map .word ++ ((ws.drop total).map .word ++ rest) := by
          rw [← List.append_assoc, ← List.map_append, List.take_append_drop]
        have hlen : ((ws.drop total).map Span.word ++ rest).length ≤
            (ws.map Span.word ++ rest).length := by
          simp
        by_cases hd : kind = .declareLabel
        · subst hd
          obtain rfl : 1 = total := Arity.fixed.inj ha
          obtain ⟨name, hname⟩ := List.length_eq_one_iff.mp htake
          rw [hname] at hspans
          refine .inl ⟨.declaration word name hk, _, ?_, trivial, hlen⟩
          rw [hspans]
          rfl
        · refine .inl ⟨.word kind word (ws.take total) hk (by rw [htake, ha]) hd, _, ?_,
            trivial, hlen⟩
          rw [hspans]
          rfl
    | discard =>
      obtain rfl := Kind.eq_comment ha
      obtain ⟨ws, rest, rfl, hrest⟩ := exists_words spans
      exact .inl ⟨.comment word ws hk, rest, rfl, hrest, by simp⟩
    | sequence =>
      obtain rfl := Kind.eq_repeatSequence ha
      rcases count_or_lacksCount spans with ⟨length, spans, rfl, hl⟩ | ⟨found, hlack⟩
      · by_cases htext : ∃ t, spans.head? = some (.literal t)
        · obtain ⟨text, ht⟩ := htext
          obtain ⟨spans, rfl⟩ := List.head?_eq_some_iff.mp ht
          rcases count_or_lacksCount spans with ⟨count, rest, rfl, hc⟩ | ⟨found, hlack⟩
          · refine .inl ⟨.sequence word length text count hk hl hc, rest, rfl, trivial, ?_⟩
            simp only [List.length_cons]
            omega
          · exact .inr ⟨_, .count hk hl hlack⟩
        · exact .inr ⟨_, .text hk hl fun t ht => htext ⟨t, ht⟩⟩
      · exact .inr ⟨_, .length hk hlack⟩

/-- **Spans are phrases up to their end, or up to a word that begins none.** -/
theorem exists_phrases (spans : List Span) :
    ∃ ps rest, Parted rest ps ∧ ps.flatMap Phrase.spans ++ rest = spans ∧
      (rest = [] ∨ ∃ e, Breaks rest e) := by
  induction hn : spans.length using Nat.strongRecOn generalizing spans with
  | ind n ih =>
    have hmore : ∀ (p : Phrase) (behind : List Span), spans = p.spans ++ behind →
        p.TakesAll behind → behind.length < n →
        ∃ ps rest, Parted rest ps ∧ ps.flatMap Phrase.spans ++ rest = spans ∧
          (rest = [] ∨ ∃ e, Breaks rest e) := by
      intro p behind hspans htakes hlt
      obtain ⟨ps, rest, hparted, hbehind, hend⟩ := ih _ hlt behind rfl
      refine ⟨p :: ps, rest, ⟨hbehind.symm ▸ htakes, hparted⟩, ?_, hend⟩
      rw [List.flatMap_cons, List.append_assoc, hbehind, hspans]
    cases spans with
    | nil => exact ⟨[], [], trivial, rfl, .inl rfl⟩
    | cons s spans =>
      rw [List.length_cons] at hn
      cases s with
      | literal text => exact hmore (.text text) spans rfl trivial (by omega)
      | word word =>
        rcases phrase_or_breaks_of_word word spans with ⟨p, rest, hspans, htakes, hlen⟩ | hbreaks
        · exact hmore p rest hspans htakes (by omega)
        · exact ⟨[], .word word :: spans, trivial, rfl, .inr hbreaks⟩

/-- **Spans are read just where they are phrases, and as these say.** Whatever the spans are, they
are read as instructions just where they are phrases in a row, of which these are the instructions.
They are refused with an error just where they are phrases up to a word that begins none, for the
reason that the error gives. So every span is used once, and in order. An error shows an unknown
word as it was written, and the word that lacks something in small letters. -/
theorem Instruction.ofSpans_eq_iff (spans : List Span) :
    (∀ is, ofSpans spans = .ok is ↔ ∃ ps, Parted [] ps ∧ ps.flatMap Phrase.spans = spans ∧
      ps.filterMap Phrase.instruction? = is) ∧
    (∀ e, ofSpans spans = .error e ↔ ∃ ps rest, Parted rest ps ∧
      ps.flatMap Phrase.spans ++ rest = spans ∧ Breaks rest e) ∧
    ∀ word, (WordError.unknown word).message = "unknown token: " ++ word ∧
      ∀ wanted found, (WordError.incomplete word wanted found).message =
        "instruction '" ++ foldCase word ++ "' requires arguments: " ++
          WordError.detail wanted found := by
  have hok : ∀ ps, Parted [] ps →
      ofSpans (ps.flatMap Phrase.spans) = .ok (ps.filterMap Phrase.instruction?) := by
    intro ps hps
    have hread := read_phrases hps
    have hend : read .nothing [] = .ok [] := rfl
    rw [hend, List.append_nil] at hread
    exact hread.trans (congrArg Except.ok (List.append_nil _))
  have herror : ∀ ps rest e, Parted rest ps → Breaks rest e →
      ofSpans (ps.flatMap Phrase.spans ++ rest) = .error e := by
    intro ps rest e hps he
    rw [ofSpans, read_phrases hps, read_of_breaks he]
    rfl
  refine ⟨fun is => ⟨fun h => ?_, ?_⟩, fun e => ⟨fun h => ?_, ?_⟩, fun word => ⟨rfl, ?_⟩⟩
  · obtain ⟨ps, rest, hps, rfl, rfl | ⟨e, he⟩⟩ := exists_phrases spans
    · rw [List.append_nil] at h ⊢
      exact ⟨ps, hps, rfl, Except.ok.inj ((hok ps hps).symm.trans h)⟩
    · rw [herror ps rest e hps he] at h
      cases h
  · rintro ⟨ps, hps, rfl, rfl⟩
    exact hok ps hps
  · obtain ⟨ps, rest, hps, rfl, rfl | ⟨e', he⟩⟩ := exists_phrases spans
    · rw [List.append_nil, hok ps hps] at h
      cases h
    · rw [herror ps rest e' hps he] at h
      cases h
      exact ⟨ps, rest, hps, rfl, he⟩
  · rintro ⟨ps, rest, hps, rfl, he⟩
    exact herror ps rest e hps he
  · exact fun wanted found => rfl

/-- A comment takes a word that would be an instruction, and an argument may be one. -/
example : (ofSpans [.word "comment", .word "fg", .literal "a", .word "GoTo", .word "top",
    .word "/x", .word "top"]).toOption =
      some [.literal "a", ⟨.goto, ["top"], "GoTo"⟩, .mark "x", ⟨.top, [], "top"⟩] := by
  decide +kernel

end BulletinBoard.Template
