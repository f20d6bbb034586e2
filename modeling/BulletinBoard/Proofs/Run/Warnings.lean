/-
# Warnings on one line

Which texts a warning shows as they are, and which it does not. A warning stays on one line just if
every text that it shows bare does (`Warning.isOneLine_message_iff`): kinds and facts have names of
their own, states are shown with their texts quoted, and the level of a gate in its log form.

What a step tells is told of the instruction the run stands at (`Execution.tells_step`), so what a
stretch of steps tells is told of instructions of the templates that are being run. Of the words in
those, warnings echo few: what selects a color by its name, places the cursor or names a label to go
to. Beside these they echo a privilege level that cannot be read, and what the error of an abort
holds. Nothing else can break a line (`Stage.isOneLine_warning_iff`).

Key definitions: `Warning.bare`, `Instruction.Tells`, `Instruction.Echoes`, `Stage.Echoes`.
Key theorems: `Warning.isOneLine_message_iff`, `Execution.tells_step`, `Execution.tells_advance`,
`Stage.isOneLine_warning_iff`.
-/
import BulletinBoard.Proofs.Run.Charsets
import BulletinBoard.Proofs.Run.Faults
import BulletinBoard.Proofs.Run.Supply
import BulletinBoard.Proofs.Template.Printing
import BulletinBoard.Proofs.Text.LogForm

namespace BulletinBoard

open Text Text.LogForm Template

/-! ### Names -/

theorem Template.Kind.isOneLine_of_mem_vocabulary :
    ∀ entry ∈ Kind.vocabulary, IsOneLine entry.1 := by
  decide +kernel

theorem Template.Kind.isOneLine_name (kind : Kind) : IsOneLine kind.name := by
  unfold name
  split
  · decide
  · decide
  · split
    · rename_i entry hentry
      exact isOneLine_of_mem_vocabulary entry (List.mem_of_find?_eq_some hentry)
    · decide

theorem Fact.isOneLine_name (f : Fact) : IsOneLine f.name := by
  cases f <;> decide

theorem RunError.isOneLine_describe (e : RunError) : IsOneLine e.describe := by
  unfold describe
  cases e with
  | cancelled => decide
  | inputClosed => decide
  | _ =>
    simp only [isOneLine_append, isOneLine_quote]
    decide +kernel

theorem Outcome.isOneLine_describe (o : Outcome) : IsOneLine o.describe := by
  unfold describe
  cases o with
  | completed => decide
  | halted r => cases r <;> decide
  | aborted e =>
    simp only [isOneLine_append, e.isOneLine_describe]
    decide

/-- A state is shown on one line, whatever names and texts it holds: they are quoted. -/
theorem RunState.isOneLine_describe (state : RunState) : IsOneLine state.describe := by
  unfold describe
  cases state with
  | running => decide
  | suspended w => cases w <;> decide
  | including name =>
    simp only [isOneLine_append, isOneLine_quote]
    decide
  | finished o =>
    simp only [isOneLine_append, o.isOneLine_describe]
    decide

/-- A numeral stays on one line: it has digits, and perhaps a plus sign. -/
theorem Text.Numeral.isOneLine_of_read? {greatest n : Nat} {s : String}
    (h : read? greatest s = some n) : IsOneLine s := by
  have hdigit (c : Char) (hc : c.isDigit = true) : isControl c = false := by
    have hrange : 48 ≤ c.toNat ∧ c.toNat ≤ 57 := by
      simpa [Char.isDigit, UInt32.le_iff_toNat_le] using hc
    exact isControl_eq_false_iff.mpr (by omega)
  unfold read? at h
  dsimp only at h
  split at h
  · cases h
  · have hdigits := isDigit_of_ofDigits? (Option.filter_eq_some_iff.mp h).1
    intro c hc
    rcases mem_unsigned hc with rfl | hc
    · decide
    · exact hdigit c (hdigits c hc)

/-! ### Texts that are shown bare -/

/-- The texts that an error shows as they are. -/
def RunError.bare : RunError → List String
  | notCompiled name => [name]
  | unresolvedLabel template label => [template, label]
  | cancelled | inputClosed => []
  | output text => [text]

/-- The texts that a fault shows as they are. -/
def Fault.bare : Fault → List String
  | invalidArgument instruction value => [instruction, value]
  | factUnavailable _ | includeDepth _ | notControl _ => []

/-- The texts that a warning shows as they are. -/
def Warning.bare : Warning → List String
  | fault template _ _ f => template :: f.bare
  | unsupported template _ => [template]
  | invalidGate _ _ => []
  | aborted e => e.bare
  | cannotRun name e => name :: e.bare
  | notLoaded name e => [name, e.message]
  | skipped path e => [path, e.message]
  | unexpectedLine _ => []
  | unexpectedTemplate name _ => [name]

theorem RunError.isOneLine_message_iff (e : RunError) :
    IsOneLine e.message ↔ ∀ text ∈ e.bare, IsOneLine text := by
  unfold message bare
  cases e with
  | cancelled | inputClosed =>
    simp only [List.not_mem_nil, false_imp_iff, implies_true, iff_true]
    decide +kernel
  | _ =>
    simp (disch := decide +kernel) [isOneLine_append_of_left, isOneLine_append_of_right,
      isOneLine_append, and_comm]

theorem Fault.isOneLine_message_iff (f : Fault) :
    IsOneLine f.message ↔ ∀ text ∈ f.bare, IsOneLine text := by
  unfold message bare
  cases f <;>
    simp (disch := decide +kernel) [isOneLine_append_of_left, isOneLine_append_of_right,
      isOneLine_append, isOneLine_repr, Fact.isOneLine_name, Kind.isOneLine_name, and_comm]

/-- A warning stays on one line just if the texts do that it shows as they are. -/
theorem Warning.isOneLine_message_iff (w : Warning) :
    IsOneLine w.message ↔ ∀ text ∈ w.bare, IsOneLine text := by
  unfold message bare
  cases w <;>
    simp (disch := decide +kernel) [isOneLine_append_of_left, isOneLine_append_of_right,
      isOneLine_append, isOneLine_repr, isOneLine_escape, Kind.isOneLine_name,
      RunState.isOneLine_describe, Fault.isOneLine_message_iff, RunError.isOneLine_message_iff]

/-! ### What an instruction tells -/

namespace Template.Instruction

/-- What is told of an instruction of the template of a name. -/
inductive Tells (facts : Facts) (name : String) (i : Instruction) : Warning → Prop where
  /-- It cannot be carried out. -/
  | fault {depth : Nat} {f : Fault} (h : i.Raises facts depth f) (position : Nat) :
    Tells facts name i (.fault name i.kind position f)
  /-- The board does not act on it. -/
  | ignored (h : i.ignored = true) : Tells facts name i (.unsupported name i.kind)
  /-- It is a gate that asks for no level. -/
  | gate {g : PrivilegeGate} (hk : i.kind = .privilegeGate g)
    (h : Privilege.read? (i.arg 0) = none) : Tells facts name i (.invalidGate i.kind (i.arg 0))
  /-- It goes to a label that is not there. -/
  | lost {label : String} (hb : i.Branches) (ha : i.args = [label]) :
    Tells facts name i (.aborted (.unresolvedLabel name label))

variable {facts : Facts} {name : String} {r r' : Registers} {answer : Option String}
  {i : Instruction} {sent : List Emission} {log : Log}

theorem tells_of_passPrivilege {g : PrivilegeGate} (hk : i.kind = .privilegeGate g)
    (h : i.passPrivilege facts r = .send r' sent log) :
    ∀ w ∈ log.warnings, i.Tells facts name w := by
  unfold passPrivilege at h
  split at h
  case h_3 hlevel =>
    cases h
    intro w hw
    cases List.mem_singleton.mp hw
    exact .gate hk (Option.map_eq_none_iff.mp hlevel)
  all_goals
    cases h
    simp [Log.empty]

/-- What an instruction tells that goes on behind itself. -/
theorem tells_of_deed (h : i.deed facts name r answer = .ok (.send r' sent log)) :
    ∀ w ∈ log.warnings, i.Tells facts name w := by
  cases sends_of_deed h with
  | hides hg warnings =>
    rcases hg with ⟨g, hk⟩ | ⟨g, hk⟩
    · simp only [deed, hk] at h
      exact tells_of_passPrivilege hk (Except.ok.inj h)
    · -- a gate that asks for a fact tells nothing
      have hlog : Log.empty = ⟨warnings, .zero⟩ := by
        simp only [deed, hk] at h
        split at h <;> exact (Deed.send.inj (Except.ok.inj h)).2.2
      have hnone : warnings = [] := (Log.mk.inj hlog).1.symm
      simp [hnone]
  | ignored hi =>
    intro w hw
    cases List.mem_singleton.mp hw
    exact .ignored hi
  | _ => simp [Log.empty]

end Template.Instruction

/-! ### What a run tells -/

@[simp] theorem Advance.warnings_quiet (e : Execution) : (quiet e).log.warnings = [] := rfl

namespace Execution

open Instruction

variable {P : Template → Prop} {store : Store} {facts : Facts} {e : Execution}

theorem warnings_finish {o : Outcome} (h : ∀ error, o ≠ .aborted error) :
    (e.finish o).log.warnings = [] := by
  cases o with
  | aborted error => exact absurd rfl (h error)
  | completed | halted => rfl

theorem warnings_leave {o : Outcome} (h : ∀ error, o ≠ .aborted error) :
    (e.leave o).log.warnings = [] := by
  unfold leave
  dsimp only
  split
  · exact warnings_finish h
  · rfl

theorem warnings_includeNamed {name : String} {a : Advance}
    (h : e.includeNamed store name = .ok a) : a.log.warnings = [] := by
  unfold includeNamed at h
  split at h
  · cases h
  · split at h <;> cases h <;> rfl

theorem warnings_hide (i : Instruction) : (e.hide i).log.warnings = [] := by
  unfold hide
  split
  · split <;> rfl
  · rfl
  · rfl

section

variable {f : Frame} {below : List Frame} {i : Instruction} (hf : e.frames = f :: below)
  (hw : i.WellFormed)
include hf hw

theorem tells_branch (hb : i.Branches) :
    ∀ w ∈ (e.branch (i.arg 0)).log.warnings, i.Tells facts f.template.name w := by
  have hlen : i.args.length = 1 := by
    rcases hb with hk | hk <;> exact hw.length_args (by rw [hk]; rfl)
  obtain ⟨label, ha⟩ := List.length_eq_one_iff.mp hlen
  unfold branch
  rw [hf]
  dsimp only
  split
  · simp
  · intro w hw
    cases List.mem_singleton.mp hw
    rw [arg_of_args ha]
    exact .lost hb ha

theorem tells_obey {d : Deed} {a : Advance}
    (hd : i.deed facts f.template.name e.registers e.response = .ok d)
    (h : e.obey store d = .ok a) : ∀ w ∈ a.log.warnings, i.Tells facts f.template.name w := by
  rcases deed_cases hd with ⟨r, sent, log, rfl, -⟩ | hm
  · cases h
    exact tells_of_deed hd
  cases d with
  | send => exact absurd hm move?_ne_send
  | branch label =>
    obtain ⟨hb, rfl⟩ := branches_of_move? hm
    cases h
    exact tells_branch hf hw hb
  -- whatever else sends the run elsewhere tells nothing
  | call name => simp [warnings_includeNamed h]
  | leave =>
    cases h
    simp [warnings_leave]
  | top | wait =>
    cases h
    simp
  | stop =>
    cases h
    simp [warnings_finish]

theorem tells_attempt :
    ∀ w ∈ (e.attempt store facts f i).log.warnings, i.Tells facts f.template.name w := by
  cases hp : e.perform store facts f.template.name i with
  | ok a =>
    rw [attempt_of_ok hf hp]
    obtain ⟨d, hd, ha⟩ := ok_of_bind hp
    exact tells_obey hf hw hd ha
  | error fault =>
    rw [attempt_of_error hf hp]
    intro w hwarning
    cases List.mem_singleton.mp hwarning
    exact .fault (raises_of_perform hw hp) f.position

end

/-- What a step tells is told of the instruction the run stands at. -/
theorem tells_step (hc : e.Runs IsCompiled) : ∀ w ∈ (e.step store facts).log.warnings,
    ∃ f ∈ e.frames.head?, ∃ i, f.template.at? f.position = some i ∧
      i.Tells facts f.template.name w := by
  unfold step
  split
  · simp [warnings_finish]
  rename_i f below hf
  have hhead : f ∈ e.frames.head? := by
    rw [hf]
    rfl
  split
  · simp [warnings_leave]
  rename_i i hi
  have hwf : i.WellFormed := (hc f (List.mem_of_mem_head? hhead)).wellFormed hi
  split
  · simp [warnings_hide]
  · intro w hw
    exact ⟨f, hhead, i, hi, tells_attempt hf hwf w hw⟩

/-- What a stretch of steps tells is told of instructions of the templates of the run. -/
theorem tells_advance (h : e.Runs P) (hP : ∀ t, P t → t.IsCompiled)
    (hs : ∀ name t, store.lookup? name = some t → P t) (budget : Nat) :
    ∀ w ∈ (e.advance store facts budget).log.warnings,
      ∃ t, P t ∧ ∃ i ∈ t.instructions, i.Tells facts t.name w := by
  induction budget generalizing e with
  | zero => exact fun w hw => by cases hw
  | succ budget ih =>
    by_cases hr : e.state = .running
    · rw [advance_succ hr]
      intro w hw
      rcases List.mem_append.mp hw with hfirst | hrest
      · obtain ⟨f, hf, i, hi, htells⟩ := tells_step (fun g hg => hP _ (h g hg)) w hfirst
        have hf : f ∈ e.frames := List.mem_of_mem_head? hf
        exact ⟨f.template, h f hf, i, List.mem_of_getElem? hi, htells⟩
      · exact ih (h.step hs) w hrest
    · rw [advance_of_ne_running hr]
      simp

end Execution

/-! ### What can break a line -/

theorem Fault.eq_of_mem_bare {word value text : String} (hword : IsOneLine word)
    (h : text ∈ (invalidArgument word value).bare) : IsOneLine text ∨ text = value := by
  rcases List.mem_cons.mp h with rfl | h
  · exact .inl hword
  · exact .inr (List.mem_singleton.mp h)

namespace Template.Instruction

/-- What a warning about an instruction may echo. -/
inductive Echoes (facts : Facts) (i : Instruction) : String → Prop where
  /-- An argument, if the instruction selects a color by its name, places the cursor or goes to a
  label. -/
  | argument {text : String} (hk : i.kind = .foreground ∨ i.kind = .locate ∨ i.Branches)
    (ha : text ∈ i.args) : Echoes facts i text
  /-- The caller's privilege level, if it cannot be read and the name of its class is asked for. -/
  | level {text : String} (hk : i.kind = .classAbbreviation ∨ i.kind = .className)
    (h : facts .privilegeLevel = some text) (hr : Privilege.read? text = none) :
    Echoes facts i text

variable {facts : Facts} {i : Instruction} {text : String}

/-- Whatever a fault shows as it is stays on one line, or is echoed. The count of a repeated
sequence is a numeral. -/
theorem Raises.bare_cases {depth : Nat} {f : Fault} (h : i.Raises facts depth f)
    (ht : text ∈ f.bare) : IsOneLine text ∨ i.Echoes facts text := by
  cases h with
  | color hk ha =>
    rcases Fault.eq_of_mem_bare (by decide) ht with hline | rfl
    · exact .inl hline
    · exact .inr (.argument (.inl hk) (by simp [ha]))
  | row hk ha | column hk ha =>
    rcases Fault.eq_of_mem_bare (by decide) ht with hline | rfl
    · exact .inl hline
    · exact .inr (.argument (.inr (.inl hk)) (by simp [ha]))
  | unreadablePrivilege hk hlevel hr =>
    rcases Fault.eq_of_mem_bare (by decide) ht with hline | rfl
    · exact .inl hline
    · exact .inr (.level hk hlevel hr)
  | count _ _ hn =>
    rcases Fault.eq_of_mem_bare (by decide) ht with hline | rfl
    · exact .inl hline
    · exact .inl (Numeral.isOneLine_of_read? hn)
  | fact | unknownPrivilege | depth => cases ht

/-- Whatever a warning about an instruction shows as it is stays on one line, or is echoed, if the
name of the template does. -/
theorem Tells.bare_cases {name : String} {w : Warning} (h : i.Tells facts name w)
    (hname : IsOneLine name) (ht : text ∈ w.bare) : IsOneLine text ∨ i.Echoes facts text := by
  cases h with
  | fault hraises =>
    rcases List.mem_cons.mp ht with rfl | ht
    · exact .inl hname
    · exact hraises.bare_cases ht
  | ignored =>
    cases List.mem_singleton.mp ht
    exact .inl hname
  | gate => cases ht
  | lost hb ha =>
    rcases List.mem_cons.mp ht with rfl | ht
    · exact .inl hname
    · cases List.mem_singleton.mp ht
      exact .inr (.argument (.inr (.inr hb)) (by simp [ha]))

end Template.Instruction

namespace Stage

/-- What the warnings of an operation may echo. The templates around are of a kind. -/
inductive Echoes (P : Template → Prop) (s : Stage) : Operation → String → Prop where
  /-- What an instruction of one of these templates echoes. -/
  | word {t : Template} {i : Instruction} {text : String} (ht : P t) (hi : i ∈ t.instructions)
    (h : i.Echoes s.facts text) : Echoes P s .advance text
  /-- What the error holds that the run is aborted with. -/
  | error {e : RunError} {text : String} (h : text ∈ e.bare) : Echoes P s (.abort e) text

variable {P : Template → Prop} {s : Stage} {o : Operation}

/-- Whatever a warning shows as it is stays on one line, or is echoed. -/
theorem Supplied.bare_cases (h : s.Supplied P) (hP : ∀ t, P t → t.IsCompiled ∧ IsOneLine t.name)
    (ho : o.Brings P) {w : Warning} (hw : w ∈ (s.does o).log.warnings) {text : String}
    (ht : text ∈ w.bare) : IsOneLine text ∨ s.Echoes P o text := by
  cases o with
  | advance =>
    obtain ⟨t, htemplate, i, hi, htells⟩ := Execution.tells_advance h.execution
      (fun t ht => (hP t ht).1) (fun _ _ => h.store.of_lookup?) stepBudget w hw
    rcases htells.bare_cases (hP t htemplate).2 ht with hline | hechoes
    · exact .inl hline
    · exact .inr (.word htemplate hi hechoes)
  | deliver line =>
    simp only [does, Execution.deliver] at hw
    split at hw
    · split at hw <;> cases hw
    · cases List.mem_singleton.mp hw
      cases ht
  | enter t =>
    simp only [does, Execution.enter] at hw
    split at hw
    · cases hw
    · cases List.mem_singleton.mp hw
      cases List.mem_singleton.mp ht
      exact .inl (hP t ho).2
  | abort error =>
    simp only [does, Execution.abort] at hw
    split at hw
    · cases hw
    · cases List.mem_singleton.mp hw
      exact .inr (.error ht)
  | compile | inform => cases hw

/-- **Which warnings stay on one line.** Let every template that is around be compiled under a name
that does. Whatever was done with a run before, a warning of the next operation stays on one line
just if the texts do that it shows as they are and that are echoed: arguments of instructions that
select a color by its name, place the cursor or go to a label, a privilege level that cannot be
read, and what the error of an abort holds. So the levels that gates ask for, all other words, facts
and texts, the lines that are handed to the run and its answers may hold anything, and neither a
line nor a template that comes out of turn breaks a line of the log. -/
theorem isOneLine_warning_iff (hP : ∀ u, P u → u.IsCompiled ∧ IsOneLine u.name) {t : Template}
    (ht : P t) {store : Store} (hs : store.Holds P) (facts : Facts) (charset : Charset)
    (before : List Operation) (hb : ∀ x ∈ before, x.Brings P) (ho : o.Brings P) :
    let s : Stage := before.foldl operate ⟨store, facts, .start t charset⟩
    ∀ w ∈ (s.does o).log.warnings,
      IsOneLine w.message ↔ ∀ text ∈ w.bare, s.Echoes P o text → IsOneLine text := by
  intro s w hw
  have hstart : Supplied P ⟨store, facts, .start t charset⟩ := ⟨hs, .start ht charset⟩
  have hsupplied : s.Supplied P := hstart.operations hb
  rw [w.isOneLine_message_iff]
  constructor
  · exact fun hall text htext _ => hall text htext
  · intro hall text htext
    rcases hsupplied.bare_cases hP ho hw htext with hline | hechoes
    · exact hline
    · exact hall text htext hechoes

/-- A template with a gate and a color whose arguments break lines. -/
def gaudy : Template :=
  .of "t" "[acs a\nb]\n[fg a\nb]"
    [⟨.privilegeGate .acs, ["a\nb"], "acs"⟩, .literal "\n", ⟨.foreground, ["a\nb"], "fg"⟩]

/-- The gate is warned about on one line, and the color is not. -/
theorem isOneLine_warning_iff_gaudy :
    (∀ u, u = gaudy → u.IsCompiled ∧ IsOneLine u.name) ∧ (Store.empty none).Holds (· = gaudy) ∧
    ∃ gate color : Warning,
      (does ⟨.empty none, Facts.empty, .start gaudy .utf8⟩ .advance).log.warnings = [gate, color] ∧
      IsOneLine gate.message ∧ ¬ IsOneLine color.message := by
  have hcompiled : gaudy.IsCompiled := ⟨"t", "[acs a\nb]\n[fg a\nb]", by decide +kernel⟩
  have hkind : ∀ u, u = gaudy → u.IsCompiled ∧ IsOneLine u.name := by
    rintro u rfl
    exact ⟨hcompiled, by decide⟩
  have hstore : (Store.empty none).Holds (· = gaudy) := by
    intro name u hu
    cases hu
  have hiff := isOneLine_warning_iff (o := .advance) hkind rfl hstore Facts.empty .utf8 []
    (by simp) trivial
  have hwarnings : (does ⟨.empty none, Facts.empty, .start gaudy .utf8⟩ .advance).log.warnings =
      [.invalidGate (.privilegeGate .acs) "a\nb",
        .fault "t" .foreground 2 (.invalidArgument "fg" "a\nb")] := by
    decide +kernel
  dsimp only [List.foldl_nil] at hiff
  rw [hwarnings] at hiff
  refine ⟨hkind, hstore, _, _, hwarnings, ?_, ?_⟩
  · refine (hiff _ (.head _)).mpr ?_
    intro text htext
    cases htext
  · intro hline
    have hall := (hiff _ (.tail _ (.head _))).mp hline
    have hargument : IsOneLine "a\nb" :=
      hall "a\nb" (.tail _ (.tail _ (.head _)))
        (.word rfl (.tail _ (.tail _ (.head _))) (.argument (.inl rfl) (.head _)))
    exact absurd hargument (by decide)

/-- A template that selects a color of no such name, written over two lines. -/
def garish : Template := .of "t" "[fg a\nb]" [⟨.foreground, ["a\nb"], "fg"⟩]

/-- The warning about it goes over two lines too. -/
theorem breaks_line_garish :
    compile "t" "[fg a\nb]" = .ok garish ∧ IsOneLine garish.name ∧
    ∃ w : Warning,
      (does ⟨.empty none, Facts.empty, .start garish .utf8⟩ .advance).log.warnings = [w] ∧
      w.message = "template t instruction fg at 0: invalid argument 'a\nb' for fg" ∧
      ¬ IsOneLine w.message := by
  refine ⟨by decide +kernel, by decide,
    .fault "t" .foreground 0 (.invalidArgument "fg" "a\nb"), ?_, ?_, ?_⟩
  · decide +kernel
  · decide +kernel
  · decide +kernel

end Stage

end BulletinBoard
