/-
# How sources are laid out

A source that can be read is text with blocks in it. Text is a row of items, each the written form
of one character: an opening bracket is written twice, every other character as it is. A block is a
row of items between brackets. Its body has no closing bracket, and does not begin with a bracket
that is written twice, since the two would be read as an item of the text in front of it.

Reading succeeds on the sources that are so laid out and on no others, and the spans are what the
layout says: one literal for every stretch of text that is not empty, and one word for whatever
stands between the spaces of a block (`Span.ofSource_eq_ok_iff`). One way, reading is followed along
a layout (`Span.scan_written`, `Span.scan_block`). The other way, characters are taken apart: text
ends at a bracket or at the end (`Span.exists_written`), and so does the body of a block, so
characters have a layout up to their end or up to a block that does not end
(`Span.exists_layout_append`), and such a block is an error.

Key definitions: `Item`, `Block`, `Layout`, `Layout.source`, `Layout.spans`, `Layout.Rest`.
Key theorems: `Span.scan_layout_append`, `Span.ofSource_layout`, `Span.exists_layout_append`,
`Span.scan_unclosed`, `Span.scan_nested_in`, `Span.ofSource_eq_ok_iff`.
-/
import BulletinBoard.Template.Span

namespace BulletinBoard.Template

/-- The place after more characters. -/
def Place.past (p : Place) (cs : List Char) : Place := cs.foldl Place.after p

@[simp] theorem Place.past_nil (p : Place) : p.past [] = p := rfl

@[simp] theorem Place.past_cons (p : Place) (c : Char) (cs : List Char) :
    p.past (c :: cs) = (p.after c).past cs := rfl

@[simp] theorem Place.past_append (p : Place) (cs ds : List Char) :
    p.past (cs ++ ds) = (p.past cs).past ds := List.foldl_append

/-! ### Items -/

/-- One character of a text or of a word, as it is written in a source. -/
inductive Item where
  /-- An opening bracket, written twice. -/
  | bracket
  /-- Any other character. -/
  | plain (c : Char) (h : c ≠ '[')

namespace Item

/-- The characters that are written. -/
def characters : Item → List Char
  | bracket => ['[', '[']
  | plain c _ => [c]

/-- The character that is meant. -/
def character : Item → Char
  | bracket => '['
  | plain c _ => c

/-- How a character is written. -/
def ofChar (c : Char) : Item :=
  if h : c = '[' then bracket else plain c h

@[simp] theorem character_bracket : bracket.character = '[' := rfl

@[simp] theorem character_plain (c : Char) (h : c ≠ '[') : (plain c h).character = c := rfl

@[simp] theorem character_ofChar (c : Char) : (ofChar c).character = c := by
  unfold ofChar
  split
  · rename_i h
    exact h.symm
  · rfl

end Item

/-- Items as they are written, one behind the other. -/
def written (items : List Item) : List Char := items.flatMap Item.characters

/-- What items in a row mean. -/
def meant (items : List Item) : List Char := items.map Item.character

@[simp] theorem written_nil : written [] = [] := rfl

@[simp] theorem written_cons (i : Item) (items : List Item) :
    written (i :: items) = i.characters ++ written items := rfl

@[simp] theorem meant_nil : meant [] = [] := rfl

@[simp] theorem meant_cons (i : Item) (items : List Item) :
    meant (i :: items) = i.character :: meant items := rfl

@[simp] theorem meant_ofChar (cs : List Char) : meant (cs.map Item.ofChar) = cs := by
  simp [meant, Function.comp_def]

/-! ### Blocks and layouts -/

/-- What stands between an opening and a closing bracket. -/
structure Block where
  body : List Item
  /-- The first closing bracket ends the block. -/
  inside : ∀ i ∈ body, i.character ≠ ']'
  /-- Two opening brackets at the beginning would be an item of text. -/
  start : body.head? ≠ some .bracket

/-- The literal of a stretch of text, if the stretch is not empty. -/
def textSpans (text : List Char) : List Span :=
  if text.isEmpty then [] else [.literal (String.ofList text)]

/-- The words of a list of parts, one for each part that is not empty. -/
def partSpans (parts : List (List Char)) : List Span :=
  (parts.filter fun part => !part.isEmpty).map fun part => .word (String.ofList part)

namespace Block

/-- A block as it is written. -/
def characters (b : Block) : List Char := '[' :: (written b.body ++ [']'])

/-- A block as it is written, up to its closing bracket. -/
def opening (b : Block) : List Char := '[' :: written b.body

/-- The words of a block. Spaces part them, and nothing else does. -/
def words (b : Block) : List Span := partSpans ((meant b.body).splitOn ' ')

end Block

/-- A source, taken apart: a stretch of text, and blocks, each with the stretch of text behind
it. -/
structure Layout where
  text : List Item
  blocks : List (Block × List Item)

namespace Layout

/-- The characters of a source that is so laid out. -/
def characters (l : Layout) : List Char :=
  written l.text ++ l.blocks.flatMap fun (b, text) => b.characters ++ written text

/-- The source that is so laid out. -/
def source (l : Layout) : String := String.ofList l.characters

/-- What the source says: a literal for every stretch of text that is not empty, and the words of
every block. -/
def spans (l : Layout) : List Span :=
  textSpans (meant l.text) ++ l.blocks.flatMap fun (b, text) => b.words ++ textSpans (meant text)

/-- What can stand behind a layout that is as long as can be: nothing, or a block that does not end
because the characters do, or because another bracket opens in it. -/
inductive Rest : List Char → Prop where
  | nothing : Rest []
  | unclosed (b : Block) : Rest b.opening
  | nested (b : Block) (hb : b.body ≠ []) (behind : List Char) (h : behind.head? ≠ some '[') :
    Rest (b.opening ++ '[' :: behind)

end Layout

namespace Span

/-! ### Reading, character by character -/

variable {p q : Place} {held rest : List Char} {c : Char}

theorem scan_item (opened : Option Place) :
    scan opened p held ('[' :: '[' :: rest) =
      scan opened ((p.after '[').after '[') ('[' :: held) rest := by
  rfl

theorem scan_opening (h : rest.head? ≠ some '[') :
    scan none p held ('[' :: rest) =
      (literalOf held ++ ·) <$> scan (some (p.after '[')) (p.after '[') [] rest := by
  rw [scan]
  rintro r - rfl
  exact h rfl

theorem scan_nested (h : rest.head? ≠ some '[') :
    scan (some q) p held ('[' :: rest) = .error (.nested (p.after '[')) := by
  rw [scan]
  rintro r - rfl
  exact h rfl

theorem scan_closing :
    scan (some q) p held (']' :: rest) =
      (wordOf held ++ ·) <$> scan none (p.after ']') [] rest := by
  rfl

theorem scan_space :
    scan (some q) p held (' ' :: rest) =
      (wordOf held ++ ·) <$> scan (some q) (p.after ' ') [] rest := by
  rfl

theorem scan_outside (h : c ≠ '[') :
    scan none p held (c :: rest) = scan none (p.after c) (c :: held) rest := by
  rw [scan]
  all_goals simp_all

theorem scan_inside (ho : c ≠ '[') (hc : c ≠ ']') (hs : c ≠ ' ') :
    scan (some q) p held (c :: rest) = scan (some q) (p.after c) (c :: held) rest := by
  rw [scan]
  all_goals simp_all

/-! ### Reading along a layout -/

theorem literalOf_eq (held : List Char) : literalOf held = textSpans held.reverse := by
  simp [literalOf, textSpans]

@[simp] theorem partSpans_nil : partSpans [] = [] := rfl

theorem partSpans_cons (part : List Char) (parts : List (List Char)) :
    partSpans (part :: parts) = wordOf part.reverse ++ partSpans parts := by
  by_cases h : part = [] <;> simp [partSpans, wordOf, h]

theorem map_append_map {ε : Type} (a b : List Span) (x : Except ε (List Span)) :
    (a ++ ·) <$> (b ++ ·) <$> x = (a ++ b ++ ·) <$> x := by
  cases x with
  | error e => rfl
  | ok c => exact congrArg Except.ok (List.append_assoc a b c).symm

/-- The items of a text are held for its literal. -/
theorem scan_written (items : List Item) :
    scan none p held (written items ++ rest) =
      scan none (p.past (written items)) ((meant items).reverse ++ held) rest := by
  induction items generalizing p held with
  | nil => rfl
  | cons i items ih =>
    cases i with
    | bracket =>
      show scan none p held ('[' :: '[' :: (written items ++ rest)) = _
      rw [scan_item, ih]
      simp [Item.characters, Item.character]
    | plain c hc =>
      show scan none p held (c :: (written items ++ rest)) = _
      rw [scan_outside hc, ih]
      simp [Item.characters, Item.character]

/-- The items of a body are read as words, the last of which is still held. What is held before is
the beginning of the first word. -/
theorem scan_body (items : List Item) (h : ∀ i ∈ items, i.character ≠ ']') (held : List Char) :
    ∃ words last,
      words ++ wordOf last = partSpans (List.splitOnPPrepend (· == ' ') (meant items) held) ∧
      ∀ p rest, scan (some q) p held (written items ++ rest) =
        (words ++ ·) <$> scan (some q) (p.past (written items)) last rest := by
  induction items generalizing held with
  | nil =>
    refine ⟨[], held, ?_, fun p rest => ?_⟩
    · rw [meant_nil, List.splitOnPPrepend_nil, partSpans_cons, List.reverse_reverse, partSpans_nil,
        List.append_nil, List.nil_append]
    · show scan (some q) p held rest = id <$> scan (some q) p held rest
      rw [id_map]
  | cons i items ih =>
    have hrest : ∀ j ∈ items, j.character ≠ ']' := fun j hj => h j (List.mem_cons_of_mem _ hj)
    cases i with
    | bracket =>
      obtain ⟨words, last, hwords, hscan⟩ := ih hrest ('[' :: held)
      refine ⟨words, last, ?_, fun p rest => ?_⟩
      · rw [hwords, meant_cons, Item.character_bracket,
          List.splitOnPPrepend_cons_neg (by decide)]
      · show scan (some q) p held ('[' :: '[' :: (written items ++ rest)) = _
        rw [scan_item, hscan]
        rfl
    | plain c ho =>
      have hc : c ≠ ']' := h _ List.mem_cons_self
      by_cases hs : c = ' '
      · subst hs
        obtain ⟨words, last, hwords, hscan⟩ := ih hrest []
        refine ⟨wordOf held ++ words, last, ?_, fun p rest => ?_⟩
        · rw [List.append_assoc, hwords, meant_cons, Item.character_plain,
            List.splitOnPPrepend_cons_pos (by decide), partSpans_cons, List.reverse_reverse,
            List.splitOnPPrepend_nil_right]
        · show scan (some q) p held (' ' :: (written items ++ rest)) = _
          rw [scan_space, hscan, map_append_map]
          rfl
      · obtain ⟨words, last, hwords, hscan⟩ := ih hrest (c :: held)
        refine ⟨words, last, ?_, fun p rest => ?_⟩
        · rw [hwords, meant_cons, Item.character_plain,
            List.splitOnPPrepend_cons_neg (by simpa using hs)]
        · show scan (some q) p held (c :: (written items ++ rest)) = _
          rw [scan_inside ho hc hs, hscan]
          rfl

/-- The first bracket of a block stands alone, if something stands in the block or nothing that
would join it stands behind it. -/
theorem head?_written_append (b : Block) (h : b.body = [] → rest.head? ≠ some '[') :
    (written b.body ++ rest).head? ≠ some '[' := by
  have hbody := b.start
  cases hb : b.body with
  | nil => exact h hb
  | cons i items =>
    rw [hb] at hbody
    cases i with
    | bracket => exact absurd rfl hbody
    | plain c hc => simpa [Item.characters] using hc

/-- A block ends the literal in front of it, and up to its closing bracket it is read as its words,
the last of which is still held. -/
theorem scan_block_opening (b : Block) (p : Place) (held : List Char) : ∃ words last,
    words ++ wordOf last = b.words ∧
      ∀ rest, (b.body = [] → rest.head? ≠ some '[') →
        scan none p held (b.opening ++ rest) =
          (literalOf held ++ words ++ ·) <$>
            scan (some (p.after '[')) (p.past b.opening) last rest := by
  obtain ⟨words, last, hwords, hscan⟩ := scan_body (q := p.after '[') b.body b.inside []
  refine ⟨words, last, hwords, fun rest hrest => ?_⟩
  show scan none p held ('[' :: (written b.body ++ rest)) = _
  rw [scan_opening (head?_written_append b hrest), hscan, map_append_map]
  rfl

/-- A block ends the literal in front of it and is read as its words. -/
theorem scan_block (b : Block) :
    scan none p held (b.characters ++ rest) =
      (literalOf held ++ b.words ++ ·) <$> scan none (p.past b.characters) [] rest := by
  have hsource : b.characters ++ rest = b.opening ++ ']' :: rest := by
    simp [Block.characters, Block.opening]
  have hplace : p.past b.characters = (p.past b.opening).after ']' := by
    simp [Block.characters, Block.opening]
  obtain ⟨words, last, hwords, hscan⟩ := scan_block_opening b p held
  rw [hsource, hscan _ (by simp), scan_closing, map_append_map, ← hwords, hplace,
    List.append_assoc]

/-- What is laid out is read as the layout says, up to the last text, which is still held. -/
theorem scan_layout_append (l : Layout) (p : Place) : ∃ spans held,
    spans ++ literalOf held = l.spans ∧
      ∀ rest, scan none p [] (l.characters ++ rest) =
        (spans ++ ·) <$> scan none (p.past l.characters) held rest := by
  obtain ⟨text, blocks⟩ := l
  unfold Layout.characters Layout.spans
  dsimp only
  induction blocks generalizing p text with
  | nil =>
    refine ⟨[], (meant text).reverse, by simp [literalOf_eq], fun rest => ?_⟩
    rw [List.flatMap_nil, List.append_nil, scan_written, List.append_nil]
    exact (id_map _).symm
  | cons first blocks ih =>
    obtain ⟨b, behind⟩ := first
    obtain ⟨spans, held, hspans, hscan⟩ := ih ((p.past (written text)).past b.characters) behind
    refine ⟨literalOf (meant text).reverse ++ b.words ++ spans, held, ?_, fun rest => ?_⟩
    · rw [List.append_assoc, hspans, literalOf_eq]
      simp
    · rw [List.flatMap_cons, List.append_assoc, scan_written, List.append_assoc, List.append_assoc,
        scan_block, List.append_nil, ← List.append_assoc (written behind), hscan, map_append_map]
      simp

theorem scan_layout (l : Layout) : scan none p [] l.characters = .ok l.spans := by
  obtain ⟨spans, held, hspans, hscan⟩ := scan_layout_append l p
  have h := hscan []
  rw [List.append_nil, scan] at h
  exact h.trans (congrArg Except.ok hspans)

/-- A source is read as its layout says. -/
theorem ofSource_layout (l : Layout) : ofSource l.source = .ok l.spans := by
  unfold ofSource Layout.source
  rw [String.toList_ofList]
  exact scan_layout l

/-! ### Taking a source apart -/

/-- Characters are items up to the end, up to one of a kind that stops, or up to an opening bracket
that stands alone. -/
theorem exists_written (stops : Char → Bool) (hb : stops '[' = false) :
    ∀ cs : List Char, ∃ items rest, cs = written items ++ rest ∧
      (∀ i ∈ items, stops i.character = false) ∧
      (rest = [] ∨ (∃ c further, rest = c :: further ∧ stops c = true) ∨
        ∃ further, rest = '[' :: further ∧ further.head? ≠ some '[')
  | [] => ⟨[], [], rfl, by simp, .inl rfl⟩
  | c :: cs => by
    by_cases hstop : stops c = true
    · exact ⟨[], c :: cs, rfl, by simp, .inr (.inl ⟨c, cs, rfl, hstop⟩)⟩
    have hc : stops c = false := Bool.eq_false_iff.mpr hstop
    by_cases ho : c = '['
    · subst ho
      by_cases hcs : cs.head? = some '['
      · obtain ⟨further, rfl⟩ := List.head?_eq_some_iff.mp hcs
        obtain ⟨items, rest, heq, hitems, hrest⟩ := exists_written stops hb further
        refine ⟨.bracket :: items, rest, ?_, ?_, hrest⟩
        · rw [heq]
          rfl
        · simpa [hc] using hitems
      · exact ⟨[], '[' :: cs, rfl, by simp, .inr (.inr ⟨cs, rfl, hcs⟩)⟩
    · obtain ⟨items, rest, heq, hitems, hrest⟩ := exists_written stops hb cs
      refine ⟨.plain c ho :: items, rest, ?_, ?_, hrest⟩
      · rw [heq]
        rfl
      · simpa [hc] using hitems
termination_by cs => cs.length

/-- Characters have a layout up to their end, or up to a block that does not end. The induction is
on their length, from one block to the next. -/
theorem exists_layout_append (cs : List Char) :
    ∃ (l : Layout) (rest : List Char), cs = l.characters ++ rest ∧ Layout.Rest rest := by
  induction hn : cs.length using Nat.strongRecOn generalizing cs with
  | ind n ih =>
    obtain ⟨text, rest, rfl, -, hrest⟩ := exists_written (fun _ => false) rfl cs
    rcases hrest with rfl | ⟨c, further, -, hc⟩ | ⟨inner, rfl, hinner⟩
    · exact ⟨⟨text, []⟩, [], by simp [Layout.characters], .nothing⟩
    · exact absurd hc Bool.false_ne_true
    obtain ⟨body, rest, rfl, hbody, hrest⟩ := exists_written (· == ']') rfl inner
    have hinside : ∀ i ∈ body, i.character ≠ ']' := by simpa using hbody
    have hstart : body.head? ≠ some .bracket := by
      intro hb
      obtain ⟨items, rfl⟩ := List.head?_eq_some_iff.mp hb
      exact hinner rfl
    let b : Block := ⟨body, hinside, hstart⟩
    have htext : (⟨text, []⟩ : Layout).characters = written text := by simp [Layout.characters]
    rcases hrest with rfl | ⟨c, further, rfl, hc⟩ | ⟨further, rfl, hfurther⟩
    · exact ⟨⟨text, []⟩, b.opening, by simp [htext, b, Block.opening], .unclosed b⟩
    · -- the block is closed, and what is behind it is shorter
      obtain rfl : c = ']' := by simpa using hc
      have hlen : further.length < n := by
        simp at hn
        omega
      obtain ⟨l, rest, hl, hrest⟩ := ih _ hlen further rfl
      refine ⟨⟨text, (b, l.text) :: l.blocks⟩, rest, ?_, hrest⟩
      rw [hl]
      simp [Layout.characters, b, Block.characters]
    · have hne : body ≠ [] := by
        rintro rfl
        exact hinner rfl
      exact ⟨⟨text, []⟩, b.opening ++ '[' :: further, by simp [htext, b, Block.opening],
        .nested b hne further hfurther⟩

/-- A block that is not closed is an error at its opening bracket. -/
theorem scan_unclosed (l : Layout) (b : Block) : scan none p [] (l.characters ++ b.opening) =
    .error (.unclosed ((p.past l.characters).after '[')) := by
  obtain ⟨spans, held, -, hlayout⟩ := scan_layout_append l p
  obtain ⟨words, last, -, hblock⟩ := scan_block_opening b (p.past l.characters) held
  have hopening := hblock [] (by simp)
  rw [List.append_nil, scan] at hopening
  rw [hlayout, hopening]
  rfl

/-- A bracket that opens inside a block is an error at its place. -/
theorem scan_nested_in (l : Layout) (b : Block) (hb : b.body ≠ []) {behind : List Char}
    (h : behind.head? ≠ some '[') :
    scan none p [] (l.characters ++ (b.opening ++ '[' :: behind)) =
      .error (.nested ((p.past (l.characters ++ b.opening)).after '[')) := by
  obtain ⟨spans, held, -, hlayout⟩ := scan_layout_append l p
  obtain ⟨words, last, -, hblock⟩ := scan_block_opening b (p.past l.characters) held
  rw [hlayout, hblock _ (fun hn => absurd hn hb), scan_nested h, Place.past_append]
  rfl

theorem exists_layout {cs : List Char} {spans : List Span} (h : scan none p [] cs = .ok spans) :
    ∃ l : Layout, cs = l.characters := by
  obtain ⟨l, rest, rfl, hrest⟩ := exists_layout_append cs
  cases hrest with
  | nothing => exact ⟨l, List.append_nil _⟩
  | unclosed b =>
    rw [scan_unclosed] at h
    cases h
  | nested b hb behind hbehind =>
    rw [scan_nested_in l b hb hbehind] at h
    cases h

theorem exists_layout_of_ofSource {source : String} {spans : List Span}
    (h : ofSource source = .ok spans) : ∃ l : Layout, l.source = source ∧ l.spans = spans := by
  obtain ⟨l, hl⟩ := exists_layout h
  have hsource : l.source = source := by
    rw [Layout.source, ← hl, String.ofList_toList]
  have hspans : (.ok l.spans : Except BracketError (List Span)) = .ok spans := calc
    .ok l.spans = ofSource l.source := (ofSource_layout l).symm
    _ = .ok spans := by rw [hsource, h]
  exact ⟨l, hsource, Except.ok.inj hspans⟩

/-- **A source is read just where it has a layout, and as the layout says.** So the layout is the
grammar of sources, and all layouts of a source say the same. -/
theorem ofSource_eq_ok_iff (source : String) (spans : List Span) :
    ofSource source = .ok spans ↔ ∃ l : Layout, l.source = source ∧ l.spans = spans := by
  constructor
  · exact exists_layout_of_ofSource
  · rintro ⟨l, rfl, rfl⟩
    exact ofSource_layout l

/-- Of three brackets two are text and the third opens a block. An empty block parts two texts. -/
example : ofSource "[[[a  b[[]c[]d]" =
    .ok [.literal "[", .word "a", .word "b[", .literal "c", .literal "d]"] := by rfl

end Span

end BulletinBoard.Template
