/-
# Synonyms

A template can say the same in other words: go to a label or jump there, ask for a key as a menu or
as a choice, name a level by its number or by its class, and a color by its own word or as the
argument of another. How a word is written does not matter at all, but for texts and for the names
of labels. Runs of templates that differ in such words only send the same bytes, stand in the same
way at the same positions, hold the same answers, and count the same (`Stage.synonyms_run_alike`).
They may warn in other words.

Instructions that are synonymous do the same, on open lines and on hidden ones, and count the same;
so a step keeps two runs alike, and so does everything that is done with them.

Key definitions: `Instruction.Synonymous`, `Template.Synonymous`, `Store.Synonymous`,
`Operation.Synonymous`, `Stage.counts`.
Key theorems: `Instruction.Synonymous.actsAs`, `Execution.Alike.advance_synonymous`,
`Stage.synonyms_run_alike`.
-/
import BulletinBoard.Proofs.Run.Alike
import BulletinBoard.Proofs.Run.Charsets
import BulletinBoard.Proofs.Run.Counts
import BulletinBoard.Proofs.Template.LastDraft

namespace BulletinBoard

open Text Template

/-! ### Instructions -/

namespace Template.Instruction

/-- The instruction asks for a key, by one of the words for that. -/
def AsksKey (i : Instruction) : Prop := i.kind = .prompt .menu ∨ i.kind = .prompt .choice

/-- The instruction is a gate that asks for a privilege level, by one of the words for that. -/
def AsksLevel (i : Instruction) : Prop := ∃ g, i.kind = .privilegeGate g

/-- The instruction selects a color, by its own word or by the word in its argument. -/
def Selects (i : Instruction) (c : Color) : Prop :=
  i.kind = .color c ∨ i.kind = .foreground ∧ Color.ofWord? (i.arg 0) = some c

/-- Two instructions that say the same. -/
inductive Synonymous (i j : Instruction) : Prop where
  /-- The same kind with the same arguments. The word may be written in another way, unless it is a
  text or the name of a label. -/
  | spelled (hk : i.kind = j.kind) (ha : i.args = j.args)
    (hw : i.kind = .text ∨ i.kind = .label → i.word = j.word)
  /-- Both go to the same label. -/
  | branch (hi : i.Branches) (hj : j.Branches) (ha : i.arg 0 = j.arg 0)
  /-- Both ask for a key. -/
  | key (hi : i.AsksKey) (hj : j.AsksKey)
  /-- Both ask for the same privilege level, or for none. -/
  | level (hi : i.AsksLevel) (hj : j.AsksLevel)
    (ha : Privilege.read? (i.arg 0) = Privilege.read? (j.arg 0))
  /-- Both select the same color. -/
  | color {c : Color} (hi : i.Selects c) (hj : j.Selects c)

variable {facts : Facts} {name : String} {r : Registers} {answer : Option String}
  {i j : Instruction}

/-! ### What each of them does -/

theorem deed_of_branches (h : i.Branches) :
    i.deed facts name r answer = .ok (.branch (i.arg 0)) := by
  unfold deed
  rcases h with hk | hk <;> simp only [hk]

theorem deed_of_asksKey (h : i.AsksKey) : i.deed facts name r answer = .ok (.wait .key) := by
  unfold deed
  rcases h with hk | hk <;> simp only [hk, Prompt.wait]

theorem deed_of_asksLevel (h : i.AsksLevel) :
    i.deed facts name r answer = .ok (i.passPrivilege facts r) := by
  obtain ⟨g, hk⟩ := h
  unfold deed
  simp only [hk]

theorem color?_of_selects {c : Color} (h : i.Selects c) : i.color? = .ok (some c) := by
  unfold color?
  rcases h with hk | ⟨hk, ha⟩
  · rw [hk]
  · rw [hk]
    dsimp only
    rw [ha]

theorem deed_of_selects {c : Color} (h : i.Selects c) :
    i.deed facts name r answer =
      .ok (.send { r with color := some c } [.control c.foreground] .empty) := by
  have hcolor := color?_of_selects h
  have hsequence : i.sequence = .ok c.foreground := by
    unfold sequence
    rw [hcolor]
    rfl
  unfold deed
  rcases h with hk | ⟨hk, -⟩
  all_goals
    rw [hk]
    dsimp only
    rw [hsequence, hcolor]
    rfl

/-- Gates that ask for the same level let the same callers pass. -/
theorem passPrivilege_muted (h : Privilege.read? (i.arg 0) = Privilege.read? (j.arg 0)) :
    (i.passPrivilege facts r).muted = (j.passPrivilege facts r).muted := by
  have hopens : opens? facts (i.arg 0) = opens? facts (j.arg 0) := by
    unfold opens?
    rw [h]
  unfold passPrivilege
  rw [hopens]
  cases opens? facts (j.arg 0) with
  | none => rfl
  | some passes => cases passes <;> rfl

section

variable (hk : i.kind = j.kind) (ha : i.args = j.args)
include ha

theorem arg_of_spelled (position : Nat) : i.arg position = j.arg position := by
  unfold arg
  rw [ha]

theorem repetition_of_spelled : i.repetition = j.repetition := by
  unfold repetition count
  simp only [arg_of_spelled ha]

include hk

theorem color?_of_spelled : i.color? = j.color? := by
  unfold color?
  rw [hk, arg_of_spelled ha]

theorem sequence_of_spelled : i.sequence = j.sequence := by
  unfold sequence coordinate
  simp only [color?_of_spelled hk ha, hk, arg_of_spelled ha]

theorem passPrivilege_of_spelled : i.passPrivilege facts r = j.passPrivilege facts r := by
  unfold passPrivilege
  rw [hk, arg_of_spelled ha]

/-- What an instruction does depends on its word only if that is a text. -/
theorem deed_of_spelled (hw : i.kind = .text → i.word = j.word) :
    i.deed facts name r answer = j.deed facts name r answer := by
  unfold deed
  rw [sequence_of_spelled hk ha, color?_of_spelled hk ha, repetition_of_spelled ha,
    passPrivilege_of_spelled hk ha, arg_of_spelled ha, hk]
  cases hj : j.kind with
  | text =>
    dsimp only
    rw [hw (hk.trans hj)]
  | halt reason => cases reason <;> rfl
  | _ => rfl

omit ha in
theorem hide_of_spelled (hw : i.kind = .text → i.word = j.word) (e : Execution) :
    e.hide i = e.hide j := by
  unfold Execution.hide
  rw [hk]
  split
  · rw [hw (hk.trans ‹_›)]
  · rfl
  · rfl

omit ha in
theorem tally_of_spelled : i.tally = j.tally := by
  unfold Instruction.tally Instruction.ignored
  rw [hk]

omit ha in
theorem marks_of_spelled (hw : i.kind = .label → i.word = j.word) (label : String) :
    marks label i = marks label j := by
  by_cases hl : i.kind = .label
  · rw [marks, marks, hw hl, hk]
  · have hi : marks label i = false := by simp [marks, hl]
    have hj : marks label j = false := by simp [marks, hk ▸ hl]
    rw [hi, hj]

end

/-! ### What none of them does -/

/-- The instruction does nothing but what it does on an open line: it marks no label, counts
nothing, and is passed over on a hidden line. -/
structure Ordinary (i : Instruction) : Prop where
  text : i.kind ≠ .text
  label : i.kind ≠ .label
  lineFeed : i.kind ≠ .control .lineFeed
  ignored : i.ignored = false

theorem Branches.ordinary (h : i.Branches) : i.Ordinary := by
  rcases h with hk | hk <;> constructor <;> simp [hk, Instruction.ignored]

theorem AsksKey.ordinary (h : i.AsksKey) : i.Ordinary := by
  rcases h with hk | hk <;> constructor <;> simp [hk, Instruction.ignored]

theorem AsksLevel.ordinary (h : i.AsksLevel) : i.Ordinary := by
  obtain ⟨g, hk⟩ := h
  constructor <;> simp [hk, Instruction.ignored]

theorem Selects.ordinary {c : Color} (h : i.Selects c) : i.Ordinary := by
  rcases h with hk | ⟨hk, -⟩ <;> constructor <;> simp [hk, Instruction.ignored]

theorem Ordinary.hide (h : i.Ordinary) (e : Execution) : e.hide i = .quiet e.next := by
  unfold Execution.hide
  split
  · exact absurd ‹_› h.text
  · exact absurd ‹_› h.lineFeed
  · rfl

theorem Ordinary.tally (h : i.Ordinary) : i.tally = .zero := by
  simp [Instruction.tally, h.ignored]

theorem Ordinary.marks (h : i.Ordinary) (label : String) : Template.marks label i = false := by
  simp [Template.marks, h.label]

namespace Synonymous

/-- Synonymous instructions are one kind with one list of arguments, or they are ordinary. -/
theorem cases_ordinary (h : i.Synonymous j) :
    (i.kind = j.kind ∧ i.args = j.args ∧ (i.kind = .text ∨ i.kind = .label → i.word = j.word)) ∨
      i.Ordinary ∧ j.Ordinary := by
  cases h with
  | spelled hk ha hw => exact .inl ⟨hk, ha, hw⟩
  | branch hi hj => exact .inr ⟨hi.ordinary, hj.ordinary⟩
  | key hi hj => exact .inr ⟨hi.ordinary, hj.ordinary⟩
  | level hi hj => exact .inr ⟨hi.ordinary, hj.ordinary⟩
  | color hi hj => exact .inr ⟨hi.ordinary, hj.ordinary⟩

/-- **Synonymous instructions do the same**, on open lines and on hidden ones. -/
theorem actsAs (h : i.Synonymous j) (facts : Facts) : i.ActsAs facts j := by
  refine ⟨fun name r answer => ?_, fun e => ?_⟩
  · cases h with
    | spelled hk ha hw => rw [deed_of_spelled hk ha fun ht => hw (.inl ht)]
    | branch hi hj ha => rw [deed_of_branches hi, deed_of_branches hj, ha]
    | key hi hj => rw [deed_of_asksKey hi, deed_of_asksKey hj]
    | level hi hj ha =>
      rw [deed_of_asksLevel hi, deed_of_asksLevel hj]
      exact congrArg Except.ok (passPrivilege_muted ha)
    | color hi hj => rw [deed_of_selects hi, deed_of_selects hj]
  · rcases h.cases_ordinary with ⟨hk, -, hw⟩ | ⟨hi, hj⟩
    · exact hide_of_spelled hk (fun ht => hw (.inl ht)) e
    · rw [hi.hide, hj.hide]

theorem tally (h : i.Synonymous j) : i.tally = j.tally := by
  rcases h.cases_ordinary with ⟨hk, -, -⟩ | ⟨hi, hj⟩
  · exact tally_of_spelled hk
  · rw [hi.tally, hj.tally]

theorem marks (h : i.Synonymous j) (label : String) :
    Template.marks label i = Template.marks label j := by
  rcases h.cases_ordinary with ⟨hk, -, hw⟩ | ⟨hi, hj⟩
  · exact marks_of_spelled hk (fun hl => hw (.inr hl)) label
  · rw [hi.marks, hj.marks]

end Synonymous

end Template.Instruction

/-! ### Templates and stores -/

/-- Two templates of one name that say the same, instruction by instruction. -/
structure Template.Synonymous (t u : Template) : Prop where
  name : t.name = u.name
  instructions : List.Forall₂ Instruction.Synonymous t.instructions u.instructions

/-- Two frames that stand at the same position of templates that say the same. -/
structure Frame.Synonymous (f g : Frame) : Prop where
  template : f.template.Synonymous g.template
  position : f.position = g.position

/-- Two stores with templates that say the same under the same names. -/
def Store.Synonymous (store₁ store₂ : Store) : Prop :=
  ∀ name, Option.Rel Template.Synonymous (store₁.lookup? name) (store₂.lookup? name)

namespace Template

theorem rel_getElem? {α β : Type} {R : α → β → Prop} {as : List α} {bs : List β}
    (h : List.Forall₂ R as bs) (n : Nat) : Option.Rel R as[n]? bs[n]? := by
  induction h generalizing n with
  | nil => exact .none
  | cons hab _ ih =>
    cases n with
    | zero => exact .some hab
    | succ n => exact ih n

theorem lastMark?_of_synonymous {is js : List Instruction}
    (h : List.Forall₂ Instruction.Synonymous is js) (label : String) :
    lastMark? label is = lastMark? label js := by
  induction h with
  | nil => rfl
  | cons hij _ ih => rw [lastMark?, lastMark?, ih, hij.marks]

namespace Synonymous

variable {t u : Template} (h : t.Synonymous u)
include h

theorem at? (position : Nat) :
    Option.Rel Instruction.Synonymous (t.at? position) (u.at? position) :=
  rel_getElem? h.instructions position

theorem label? (label : String) : t.label? label = u.label? label := by
  rw [label?_eq_lastMark?, label?_eq_lastMark?]
  exact lastMark?_of_synonymous h.instructions label

theorem start : Frame.Synonymous ⟨t, 0⟩ ⟨u, 0⟩ := ⟨h, rfl⟩

end Synonymous

end Template

namespace Frame.Synonymous

variable {f g : Frame}

theorem moved (h : f.Synonymous g) (position : Nat) :
    Frame.Synonymous { f with position } { g with position } := ⟨h.template, rfl⟩

theorem along (h : f.Synonymous g) (facts : Facts) : Along facts Frame.Synonymous f g := by
  have hat : Option.Rel Instruction.Synonymous (f.template.at? f.position)
      (g.template.at? g.position) := h.position ▸ h.template.at? f.position
  exact ⟨rel_imp (fun _ _ hij => hij.actsAs facts) hat,
    fun _ => ⟨h.template, congrArg (· + 1) h.position⟩⟩

end Frame.Synonymous

namespace Store.Synonymous

variable {store₁ store₂ : Store}

theorem corresponds (h : store₁.Synonymous store₂) :
    Corresponds Frame.Synonymous store₁ store₂ := by
  refine ⟨fun hf => hf.template.name, fun {f g} hf name => ?_, fun hf => hf.moved 0,
    fun name => ?_⟩
  · rw [hf.template.label?]
    cases g.template.label? name with
    | none => exact .none
    | some p => exact .some (hf.moved p)
  · exact rel_imp (fun _ _ ht => ht.start) (h name)

theorem of_entries (h : List.Forall₂ (fun e₁ e₂ : String × Template =>
    e₁.1 = e₂.1 ∧ e₁.2.Synonymous e₂.2) store₁.entries store₂.entries) :
    store₁.Synonymous store₂ := by
  intro name
  unfold Store.lookup?
  generalize store₁.entries = entries₁ at h ⊢
  generalize store₂.entries = entries₂ at h ⊢
  induction h with
  | nil => exact .none
  | @cons e₁ e₂ _ _ he _ ih =>
    obtain ⟨n₁, t₁⟩ := e₁
    obtain ⟨n₂, t₂⟩ := e₂
    obtain ⟨rfl, ht⟩ := he
    rw [lookup_entry, lookup_entry]
    split
    · exact .some ht
    · exact ih

end Store.Synonymous

/-! ### Runs -/

/-- Two operations that send the same, count the same, and lead to runs that say the same. -/
structure Advance.Synonymous (a₁ a₂ : Advance) : Prop where
  alike : a₁.Alike Frame.Synonymous a₂
  tally : a₁.log.tally = a₂.log.tally

namespace Execution.Alike

variable {e₁ e₂ : Execution} (h : e₁.Alike Frame.Synonymous e₂)
include h

theorem positions :
    e₁.frames.map Frame.position = e₂.frames.map Frame.position := by
  obtain ⟨frames, hf, rfl⟩ := h
  generalize e₁.frames = frames₁ at hf ⊢
  induction hf with
  | nil => rfl
  | cons hff _ ih =>
    rw [List.map_cons, hff.position, ih]
    rfl

/-- What is due of runs that say the same is the same. -/
theorem due_synonymous : e₁.due = e₂.due := by
  obtain ⟨frames, hf, rfl⟩ := h
  unfold Execution.due
  cases hf₁ : e₁.frames with
  | nil =>
    rw [hf₁] at hf
    cases hf
    rfl
  | cons f below =>
    rw [hf₁] at hf
    cases hf with
    | @cons _ g _ _ hfg _ =>
      have hat := hfg.template.at? f.position
      dsimp only
      rw [← hfg.position]
      generalize f.template.at? f.position = x at hat ⊢
      generalize g.template.at? f.position = y at hat ⊢
      cases hat with
      | none => rfl
      | some hij => rw [Option.map_some, Option.map_some, hij.tally]

variable {store₁ store₂ : Store} (hs : store₁.Synonymous store₂)
include hs

theorem step_synonymous (facts : Facts) (hr : e₁.state = .running) :
    (e₁.step store₁ facts).Synonymous (e₂.step store₂ facts) := by
  have halike := h.step_along hs.corresponds fun f₁ h₁ f₂ h₂ => (h.head f₁ h₁ f₂ h₂).along facts
  refine ⟨halike, ?_⟩
  rw [tally_step hr, tally_step (h.state ▸ hr), h.due_synonymous, halike.2.state]

/-- **A stretch of steps of runs that say the same sends the same and counts the same.** -/
theorem advance_synonymous (facts : Facts) (budget : Nat) :
    (e₁.advance store₁ facts budget).Synonymous (e₂.advance store₂ facts budget) := by
  induction budget generalizing e₁ e₂ with
  | zero => exact ⟨⟨rfl, h⟩, rfl⟩
  | succ budget ih =>
    by_cases hr : e₁.state = .running
    · have hfirst := h.step_synonymous hs facts hr
      have hrest := ih hfirst.alike.2
      rw [advance_succ hr, advance_succ (h.state ▸ hr)]
      refine ⟨⟨?_, hrest.alike.2⟩, ?_⟩
      · exact congrArg₂ (· ++ ·) hfirst.alike.1 hrest.alike.1
      · exact congrArg₂ (· + ·) hfirst.tally hrest.tally
    · rw [advance_of_ne_running hr, advance_of_ne_running (h.state ▸ hr)]
      exact ⟨⟨rfl, h⟩, rfl⟩

end Execution.Alike

/-! ### Whatever is done -/

/-- Two operations that do the same, with templates that say the same. -/
inductive Operation.Synonymous : Operation → Operation → Prop where
  | advance : Synonymous .advance .advance
  | deliver (line : String) : Synonymous (.deliver line) (.deliver line)
  | enter {t u : Template} (h : t.Synonymous u) : Synonymous (.enter t) (.enter u)
  | abort (error : RunError) : Synonymous (.abort error) (.abort error)
  /-- Sources under one name that both compile, to templates that say the same, or both do not. -/
  | compile (name : String) {source₁ source₂ : String}
    (h : Option.Rel Template.Synonymous (Draft.compiled ⟨name, source₁⟩).toOption
      (Draft.compiled ⟨name, source₂⟩).toOption) :
    Synonymous (.compile name source₁) (.compile name source₂)
  | inform (facts : Facts) : Synonymous (.inform facts) (.inform facts)

namespace Store.Synonymous

variable {store₁ store₂ : Store} {name source₁ source₂ : String}

/-- Sources that say the same are counted alike and leave stores that say the same. -/
theorem compile (hs : store₁.Synonymous store₂)
    (h : Option.Rel Template.Synonymous (Draft.compiled ⟨name, source₁⟩).toOption
      (Draft.compiled ⟨name, source₂⟩).toOption) :
    (store₁.compile name source₁).store.Synonymous (store₂.compile name source₂).store ∧
      (store₁.compile name source₁).log.tally = (store₂.compile name source₂).log.tally := by
  cases h₁ : Draft.compiled ⟨name, source₁⟩ <;> cases h₂ : Draft.compiled ⟨name, source₂⟩ <;>
    rw [h₁, h₂] at h
  · have hkept₁ := store_compile_of_not_succeeds (s := store₁) (Draft.not_succeeds_of_error h₁)
    have hkept₂ := store_compile_of_not_succeeds (s := store₂) (Draft.not_succeeds_of_error h₂)
    refine ⟨?_, (tally_compile_of_error h₁).trans (tally_compile_of_error h₂).symm⟩
    rw [hkept₁, hkept₂]
    exact hs
  · cases h
  · cases h
  · cases h with
    | some ht =>
      refine ⟨fun other => ?_, (tally_compile_of_ok h₁).trans (tally_compile_of_ok h₂).symm⟩
      rw [lookup?_compile_of_ok h₁, lookup?_compile_of_ok h₂]
      unfold Draft.key
      dsimp only
      split
      · exact .some ht
      · exact hs other

end Store.Synonymous

/-- Two stages with runs, stores and facts that say the same. -/
structure Stage.Synonymous (s₁ s₂ : Stage) : Prop where
  store : s₁.store.Synonymous s₂.store
  facts : s₁.facts = s₂.facts
  execution : s₁.execution.Alike Frame.Synonymous s₂.execution

namespace Stage.Synonymous

variable {s₁ s₂ : Stage} {o₁ o₂ : Operation} (h : s₁.Synonymous s₂) (ho : o₁.Synonymous o₂)
include h ho

/-- What is done with runs that say the same sends the same and counts the same. -/
theorem does : (s₁.does o₁).Alike Frame.Synonymous (s₂.does o₂) ∧
    s₁.counts o₁ = s₂.counts o₂ := by
  cases ho with
  | advance =>
    have ha := h.execution.advance_synonymous h.store s₁.facts stepBudget
    simp only [Stage.does, Stage.counts, ← h.facts]
    exact ⟨ha.alike, ha.tally⟩
  | deliver line =>
    refine ⟨⟨?_, h.execution.deliver line⟩, ?_⟩
    · exact (Execution.sent_deliver line).trans (Execution.sent_deliver line).symm
    · exact (Execution.tally_deliver _ line).trans (Execution.tally_deliver _ line).symm
  | enter ht =>
    refine ⟨⟨?_, h.execution.enter ht.start⟩, ?_⟩
    · exact (Execution.sent_enter _).trans (Execution.sent_enter _).symm
    · exact (Execution.tally_enter _ _).trans (Execution.tally_enter _ _).symm
  | abort error =>
    refine ⟨⟨?_, h.execution.abort error⟩, ?_⟩
    · exact (Execution.sent_abort error).trans (Execution.sent_abort error).symm
    · have houtcome : s₁.execution.outcome? = s₂.execution.outcome? := by
        rw [Execution.outcome?, Execution.outcome?, h.execution.state]
      simp only [Stage.does, Stage.counts, Execution.tally_abort, houtcome]
  | compile name hc => exact ⟨⟨rfl, h.execution⟩, (h.store.compile hc).2⟩
  | inform facts => exact ⟨⟨rfl, h.execution⟩, rfl⟩

theorem operate : (s₁.operate o₁).Synonymous (s₂.operate o₂) := by
  have hdoes := (h.does ho).1.2
  cases ho with
  | compile name hc => exact ⟨(h.store.compile hc).1, h.facts, h.execution⟩
  | inform facts => exact ⟨h.store, rfl, h.execution⟩
  | _ => exact ⟨h.store, h.facts, hdoes⟩

omit ho in
theorem operations {operations₁ operations₂ : List Operation}
    (ho : List.Forall₂ Operation.Synonymous operations₁ operations₂) :
    (operations₁.foldl Stage.operate s₁).Synonymous (operations₂.foldl Stage.operate s₂) := by
  induction ho generalizing s₁ s₂ with
  | nil => exact h
  | cons hfirst _ ih => exact ih (h.operate hfirst)

end Stage.Synonymous

namespace Stage

/-- **Synonyms run alike.** Let two stores hold templates that say the same under the same names,
and let runs be started, in one character set and with the same facts, of two templates that say the
same. Whatever is done with both, with templates and sources that say the same, the next thing that
is done sends the same bytes, leaves both in the same state (which is what an advance answers, and
tells how the run ended), at the same positions in all their templates and with the same answer of
the caller, and counts the same. -/
theorem synonyms_run_alike {store₁ store₂ : Store} (hs : store₁.Synonymous store₂)
    {t u : Template} (ht : t.Synonymous u) (facts : Facts) (charset : Charset)
    {before₁ before₂ : List Operation}
    (hb : List.Forall₂ Operation.Synonymous before₁ before₂) {o₁ o₂ : Operation}
    (ho : o₁.Synonymous o₂) :
    let s₁ := before₁.foldl operate ⟨store₁, facts, .start t charset⟩
    let s₂ := before₂.foldl operate ⟨store₂, facts, .start u charset⟩
    (s₁.does o₁).bytes = (s₂.does o₂).bytes ∧
      (s₁.does o₁).execution.state = (s₂.does o₂).execution.state ∧
      (s₁.does o₁).execution.frames.map Frame.position =
        (s₂.does o₂).execution.frames.map Frame.position ∧
      (s₁.does o₁).execution.response = (s₂.does o₂).execution.response ∧
      s₁.counts o₁ = s₂.counts o₂ := by
  intro s₁ s₂
  have hstart : Synonymous ⟨store₁, facts, .start t charset⟩ ⟨store₂, facts, .start u charset⟩ :=
    ⟨hs, rfl, _, .cons ht.start .nil, rfl⟩
  have hbefore : s₁.Synonymous s₂ := hstart.operations hb
  obtain ⟨halike, hcounts⟩ := hbefore.does ho
  exact ⟨halike.bytes, halike.2.state, halike.2.positions, halike.2.response, hcounts⟩

/-! ### A menu in other words -/

/-- A menu with a line for the one who runs the board. -/
def menuPlain : Template :=
  .of "menu" "[acs sysop]Secrets\n[white][menu][copy x]"
    [⟨.privilegeGate .acs, ["sysop"], "acs"⟩, .literal "Secrets\n",
    ⟨.color .white, [], "white"⟩, ⟨.prompt .menu, [], "menu"⟩, ⟨.unsupported "copy", ["x"], "copy"⟩]

/-- The menu in other words. -/
def menuReworded : Template :=
  .of "menu" "[access 100]Secrets\n[fg WHITE][choice][Copy x]"
    [⟨.privilegeGate .access, ["100"], "access"⟩, .literal "Secrets\n",
    ⟨.foreground, ["WHITE"], "fg"⟩, ⟨.prompt .choice, [], "choice"⟩,
    ⟨.unsupported "copy", ["x"], "Copy"⟩]

theorem menuPlain_synonymous : menuPlain.Synonymous menuReworded := by
  have hlevel : Privilege.read? "sysop" = Privilege.read? "100" := by decide +kernel
  have hwhite : Color.ofWord? "WHITE" = some .white := by decide +kernel
  refine ⟨rfl, .cons (.level ⟨_, rfl⟩ ⟨_, rfl⟩ hlevel) (.cons (.spelled rfl rfl fun _ => rfl)
    (.cons (.color (.inl rfl) (.inr ⟨rfl, hwhite⟩)) (.cons (.key (.inl rfl) (.inr rfl))
      (.cons (.spelled rfl rfl fun h => ?_) .nil))))⟩
  rcases h with h | h <;> cases h

/-- A template that includes the menu and goes to its end. -/
def mainPlain : Template :=
  .of "main" "[include menu][goto end][/end]bye"
    [⟨.includes, ["menu"], "include"⟩, ⟨.goto, ["end"], "goto"⟩, .mark "end",
    .literal "bye"]

/-- The template in other words. -/
def mainReworded : Template :=
  .of "main" "[include menu][jump end][/end]bye"
    [⟨.includes, ["menu"], "include"⟩, ⟨.jump, ["end"], "jump"⟩, .mark "end",
    .literal "bye"]

theorem mainPlain_synonymous : mainPlain.Synonymous mainReworded :=
  ⟨rfl, .cons (.spelled rfl rfl fun _ => rfl) (.cons (.branch (.inl rfl) (.inr rfl) rfl)
    (.cons (.spelled rfl rfl fun _ => rfl) (.cons (.spelled rfl rfl fun _ => rfl) .nil)))⟩

/-- A run of the template, and one in other words, over a store with the menu in the same words.
They end alike after a key was given, and have met one instruction that the board does not act
on. -/
theorem synonyms_run_alike_menu :
    Store.Synonymous ⟨[("menu", menuPlain)], none⟩ ⟨[("menu", menuReworded)], none⟩ ∧
      mainPlain.Synonymous mainReworded ∧
      (([.advance, .deliver "k"].foldl operate
          ⟨⟨[("menu", menuPlain)], none⟩, Facts.empty, .start mainPlain .utf8⟩).does
            .advance).bytes =
        (([.advance, .deliver "k"].foldl operate
          ⟨⟨[("menu", menuReworded)], none⟩, Facts.empty, .start mainReworded .utf8⟩).does
            .advance).bytes ∧
      ([.advance, .deliver "k"].foldl operate
          ⟨⟨[("menu", menuReworded)], none⟩, Facts.empty, .start mainReworded .utf8⟩).counts
            .advance = { Tally.zero with completed := 1, unsupported := 1 } := by
  have hstores : Store.Synonymous ⟨[("menu", menuPlain)], none⟩ ⟨[("menu", menuReworded)], none⟩ :=
    .of_entries (.cons ⟨rfl, menuPlain_synonymous⟩ .nil)
  obtain ⟨hbytes, -, -, -, hcounts⟩ := synonyms_run_alike hstores mainPlain_synonymous Facts.empty
    .utf8 (.cons .advance (.cons (.deliver "k") .nil)) .advance
  refine ⟨hstores, mainPlain_synonymous, hbytes, hcounts.symm.trans ?_⟩
  decide +kernel

end Stage

end BulletinBoard
