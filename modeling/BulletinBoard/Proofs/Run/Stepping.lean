/-
# Steps and stretches of steps

What a step can do, once for all that is proved about runs. An instruction sends and remembers, or
it sends the run where its kind says (`Instruction.deed_cases`); so a step passes the instruction,
goes elsewhere in the template, runs another, waits, leaves the template, or ends the run
(`Execution.StepsTo`). A stretch of steps is its first step and the rest.

Key definitions: `Instruction.Sends`, `Instruction.move?`, `Execution.StepsTo`, `Execution.Keeps`.
Key theorems: `Instruction.deed_cases`, `Execution.step_of_move?`, `Execution.stepsTo_step`,
`Execution.keeps_step`, `Execution.advance_succ`.
-/
import BulletinBoard.Proofs.Run.Deeds
import BulletinBoard.Proofs.Template.Marks
import BulletinBoard.Run.Advance

namespace BulletinBoard

open Text Template

theorem ok_of_bind {ε α β : Type} {x : Except ε α} {f : α → Except ε β} {b : β}
    (h : x >>= f = .ok b) : ∃ a, x = .ok a ∧ f a = .ok b := by
  cases x with
  | error e => cases h
  | ok a => exact ⟨a, rfl, h⟩

/-! ### Deeds -/

namespace Template.Instruction

/-- Where an instruction sends the run, if that is what it does. -/
def move? (i : Instruction) : Option Deed :=
  match i.kind with
  | .goto | .jump => some (.branch (i.arg 0))
  | .top => some .top
  | .prompt p => some (.wait p.wait)
  | .includes => some (.call (i.arg 0))
  | .halt .exit => some .leave
  | .halt reason => some (.stop reason)
  | _ => none

/-- The instruction hides the rest of the line from some callers. -/
def IsGate (i : Instruction) : Prop :=
  (∃ g, i.kind = .privilegeGate g) ∨ ∃ g, i.kind = .factGate g

/-- The board does not act on the instruction. -/
def ignored (i : Instruction) : Bool :=
  match i.kind with
  | .declareLabel | .comment | .unsupported _ => true
  | _ => false

/-- What an instruction of the template of a name remembers, sends and tells, if it goes on behind
itself. -/
inductive Sends (i : Instruction) (name : String) (r : Registers) :
    Registers → List Emission → Log → Prop where
  | nothing : Sends i name r r [] .empty
  | text (s : String) : Sends i name r r [.text s] .empty
  | sequence {bytes : List UInt8} (h : i.sequence = .ok bytes) (color : Option Color) :
    Sends i name r { r with color } [.control bytes] .empty
  /-- The color that was saved is selected again. -/
  | load (c : Color) : Sends i name r { r with color := some c } [.control c.foreground] .empty
  | save : Sends i name r { r with saved := r.color } [] .empty
  | repeated {sent : List Emission} (h : i.repetition = .ok sent) : Sends i name r r sent .empty
  | hides (h : i.IsGate) (warnings : List Warning) :
    Sends i name r { r with hidden := true } [] ⟨warnings, .zero⟩
  | ignored (h : i.ignored = true) :
    Sends i name r r [] ⟨[.unsupported name i.kind], { Tally.zero with unsupported := 1 }⟩

variable {facts : Facts} {name : String} {r : Registers} {answer : Option String} {i : Instruction}

theorem sends_of_passPrivilege (facts : Facts) (name : String) (r : Registers) (h : i.IsGate) :
    ∃ r' sent log, i.passPrivilege facts r = .send r' sent log ∧ i.Sends name r r' sent log := by
  unfold passPrivilege
  split
  · exact ⟨_, _, _, rfl, .nothing⟩
  · exact ⟨_, _, _, rfl, .hides h []⟩
  · exact ⟨_, _, _, rfl, .hides h _⟩

/-- An instruction goes on behind itself, or it sends the run where its kind says. -/
theorem deed_cases {d : Deed} (h : i.deed facts name r answer = .ok d) :
    (∃ r' sent log, d = .send r' sent log ∧ i.Sends name r r' sent log) ∨ i.move? = some d := by
  unfold deed at h
  unfold move?
  split at h
  case h_1 =>
    cases h
    exact .inl ⟨_, _, _, rfl, .text _⟩
  case h_2 =>
    cases h
    exact .inl ⟨_, _, _, rfl, .nothing⟩
  -- the control sequences
  case h_3 | h_4 | h_5 | h_6 =>
    obtain ⟨bytes, hbytes, h⟩ := ok_of_bind h
    obtain ⟨selected, -, h⟩ := ok_of_bind h
    cases h
    exact .inl ⟨_, _, _, rfl, .sequence hbytes _⟩
  case h_7 =>
    cases h
    exact .inl ⟨_, _, _, rfl, .save⟩
  case h_8 =>
    split at h <;> cases h
    · exact .inl ⟨_, _, _, rfl, .nothing⟩
    · exact .inl ⟨_, _, _, rfl, .load _⟩
  -- facts and the answer
  case h_9 =>
    split at h <;> cases h
    exact .inl ⟨_, _, _, rfl, .text _⟩
  case h_12 =>
    split at h <;> cases h
    · exact .inl ⟨_, _, _, rfl, .nothing⟩
    · exact .inl ⟨_, _, _, rfl, .text _⟩
  -- the texts of a privilege class, and repeated sequences
  case h_10 | h_11 =>
    obtain ⟨level, -, h⟩ := ok_of_bind h
    cases h
    exact .inl ⟨_, _, _, rfl, .text _⟩
  case h_16 =>
    obtain ⟨sent, hsent, h⟩ := ok_of_bind h
    cases h
    exact .inl ⟨_, _, _, rfl, .repeated hsent⟩
  -- the gates
  case h_17 g hk =>
    obtain ⟨r', sent, log, hd, hsends⟩ := sends_of_passPrivilege facts name r (.inl ⟨g, hk⟩)
    exact .inl ⟨r', sent, log, (Except.ok.inj h).symm.trans hd, hsends⟩
  case h_18 g hk =>
    split at h <;> cases h
    · exact .inl ⟨_, _, _, rfl, .nothing⟩
    · exact .inl ⟨_, _, _, rfl, .hides (.inr ⟨g, hk⟩) []⟩
  -- what the board does not act on
  case h_23 hk | h_24 hk | h_25 hk =>
    cases h
    exact .inl ⟨_, _, _, rfl, .ignored (by simp [Instruction.ignored, hk])⟩
  -- the others send the run elsewhere
  all_goals
    rename_i hk
    cases h
    exact .inr (by simp [hk])

theorem move?_ne_send {sent : List Emission} {log : Log} : i.move? ≠ some (.send r sent log) := by
  unfold move?
  split <;> simp

theorem sends_of_deed {r' : Registers} {sent : List Emission} {log : Log}
    (h : i.deed facts name r answer = .ok (.send r' sent log)) : i.Sends name r r' sent log := by
  rcases deed_cases h with ⟨_, _, _, hd, hsends⟩ | hm
  · cases hd
    exact hsends
  · exact absurd hm move?_ne_send

theorem deed_of_ignored (h : i.ignored = true) : i.deed facts name r answer =
    .ok (.send r [] ⟨[.unsupported name i.kind], { Tally.zero with unsupported := 1 }⟩) := by
  unfold Instruction.ignored at h
  unfold deed
  split at h <;> simp_all

theorem kind_of_move?_call {n : String} (h : i.move? = some (.call n)) :
    i.kind = .includes ∧ i.arg 0 = n := by
  unfold move? at h
  split at h <;> simp_all

theorem kind_of_move?_wait {w : Wait} (h : i.move? = some (.wait w)) :
    ∃ p, i.kind = .prompt p ∧ p.wait = w := by
  unfold move? at h
  split at h <;> simp_all

/-- The instruction goes to the label its argument names. -/
def Branches (i : Instruction) : Prop := i.kind = .goto ∨ i.kind = .jump

instance (i : Instruction) : Decidable i.Branches := inferInstanceAs (Decidable (_ ∨ _))

theorem branches_of_move? {label : String} (h : i.move? = some (.branch label)) :
    i.Branches ∧ i.arg 0 = label := by
  unfold move? at h
  unfold Branches
  split at h <;> simp_all

theorem kind_of_move?_top (h : i.move? = some .top) : i.kind = .top := by
  unfold move? at h
  split at h <;> simp_all

theorem kind_of_move?_stop {r : HaltReason} (h : i.move? = some (.stop r)) : i.kind = .halt r := by
  unfold move? at h
  split at h <;> simp_all

theorem kind_of_move?_leave (h : i.move? = some .leave) : i.kind = .halt .exit := by
  unfold move? at h
  split at h <;> simp_all

theorem ne_exit_of_move? {r : HaltReason} (h : i.move? = some (.stop r)) : r ≠ .exit := by
  rintro rfl
  have hk := kind_of_move?_stop h
  simp [move?, hk] at h

/-- An instruction sends the run where its kind says. -/
theorem deed_of_move? {d : Deed} (h : i.move? = some d) : i.deed facts name r answer = .ok d := by
  unfold move? at h
  unfold deed
  split at h <;> simp_all

end Template.Instruction

/-! ### Steps -/

namespace Execution

variable {store : Store} {facts : Facts} {e : Execution}

theorem perform_of_deed {name : String} {i : Instruction} {d : Deed}
    (h : i.deed facts name e.registers e.response = .ok d) :
    e.perform store facts name i = e.obey store d := by
  unfold perform
  rw [h]
  rfl

theorem perform_of_fault {name : String} {i : Instruction} {fault : Fault}
    (h : i.deed facts name e.registers e.response = .error fault) :
    e.perform store facts name i = .error fault := by
  unfold perform
  rw [h]
  rfl

/-- What an attempt leads to: what there is to do is done, or the instruction is passed. -/
theorem attempt_eq {f : Frame} {below : List Frame} (hf : e.frames = f :: below)
    (store : Store) (facts : Facts) (i : Instruction) :
    e.attempt store facts f i =
      match e.perform store facts f.template.name i with
      | .ok a => a
      | .error fault => ⟨e.next, [], .warn (.fault f.template.name i.kind f.position fault)⟩ := by
  have hresolve := resolve_handle hf store facts i
  unfold attempt
  cases hh : i.handle store facts f.template (.quiet e) <;>
    cases hp : e.perform store facts f.template.name i <;> rw [hh, hp] at hresolve <;> cases hresolve
  · rfl
  · simp only [Advance.quiet_andThen]
    rw [← goTo_succ_of_frames hf]
    rfl

theorem attempt_of_ok {f : Frame} {below : List Frame} {i : Instruction} {a : Advance}
    (hf : e.frames = f :: below) (h : e.perform store facts f.template.name i = .ok a) :
    e.attempt store facts f i = a := by
  rw [attempt_eq hf, h]

theorem attempt_of_error {f : Frame} {below : List Frame} {i : Instruction} {fault : Fault}
    (hf : e.frames = f :: below) (h : e.perform store facts f.template.name i = .error fault) :
    e.attempt store facts f i =
      ⟨e.next, [], .warn (.fault f.template.name i.kind f.position fault)⟩ := by
  rw [attempt_eq hf, h]

theorem step_of_none {f : Frame} {below : List Frame} (hf : e.frames = f :: below)
    (hi : f.template.at? f.position = none) : e.step store facts = e.leave .completed := by
  unfold step
  rw [hf]
  dsimp only
  rw [hi]

theorem step_of_hidden {f : Frame} {below : List Frame} {i : Instruction}
    (hf : e.frames = f :: below) (hi : f.template.at? f.position = some i)
    (hh : e.hidden = true) : e.step store facts = e.hide i := by
  unfold step
  rw [hf]
  dsimp only
  rw [hi]
  dsimp only
  rw [if_pos hh]

theorem step_of_open {f : Frame} {below : List Frame} {i : Instruction}
    (hf : e.frames = f :: below) (hi : f.template.at? f.position = some i)
    (ho : e.hidden = false) : e.step store facts = e.attempt store facts f i := by
  unfold step
  rw [hf]
  dsimp only
  rw [hi]
  dsimp only
  rw [if_neg (by simp [ho])]

/-- On an open line a step goes where the instruction sends the run. -/
theorem step_of_move? {f : Frame} {below : List Frame} {i : Instruction} {d : Deed} {a : Advance}
    (hf : e.frames = f :: below) (hi : f.template.at? f.position = some i) (ho : e.hidden = false)
    (hm : i.move? = some d) (ha : e.obey store d = .ok a) : e.step store facts = a := by
  rw [step_of_open hf hi ho]
  exact attempt_of_ok hf ((perform_of_deed (Instruction.deed_of_move? hm)).trans ha)

/-- What a step leads to: the run passes its instruction, goes elsewhere in its template, runs
another, waits, leaves the template, or ends. -/
inductive StepsTo (store : Store) (e : Execution) : Advance → Prop where
  /-- No template is left. -/
  | ended (hf : e.frames = []) : StepsTo store e (e.finish .completed)
  /-- The template is at its end, or exits. -/
  | left {f : Frame} {below : List Frame} {o : Outcome} (hf : e.frames = f :: below)
      (ho : o = .completed ∨ o = .halted .exit) : StepsTo store e (e.leave o)
  /-- The instruction is passed, carried out or not. -/
  | passed {f : Frame} {below : List Frame} {i : Instruction} (hf : e.frames = f :: below)
      (hi : f.template.at? f.position = some i) (r : Registers) (sent : List Emission) (log : Log) :
      StepsTo store e ⟨(e.remember r).next, sent, log⟩
  /-- The run goes to the top or to a label. -/
  | moved {f : Frame} {below : List Frame} {i : Instruction} {p : Nat} (hf : e.frames = f :: below)
      (hi : f.template.at? f.position = some i) (ho : e.hidden = false)
      (hp : i.kind = .top ∧ p = 0 ∨ i.Branches ∧ f.template.label? (i.arg 0) = some p) :
      StepsTo store e (.quiet (e.goTo p))
  /-- A template of the store is included. -/
  | called {f : Frame} {below : List Frame} {i : Instruction} {t : Template}
      (hf : e.frames = f :: below) (hi : f.template.at? f.position = some i)
      (ho : e.hidden = false) (hk : i.kind = .includes) (hd : e.frames.length < includeLimit)
      (ht : store.lookup? (i.arg 0) = some t) :
      StepsTo store e (.quiet { e.next with frames := ⟨t, 0⟩ :: e.next.frames })
  /-- A template that the store does not hold is asked for. -/
  | asked {f : Frame} {below : List Frame} {i : Instruction} (hf : e.frames = f :: below)
      (hi : f.template.at? f.position = some i) (ho : e.hidden = false) (hk : i.kind = .includes)
      (hd : e.frames.length < includeLimit) (ht : store.lookup? (i.arg 0) = none) :
      StepsTo store e (.quiet { e.next with state := .including (i.arg 0) })
  /-- The run waits for the caller. -/
  | waited {f : Frame} {below : List Frame} {i : Instruction} {p : Prompt}
      (hf : e.frames = f :: below) (hi : f.template.at? f.position = some i)
      (ho : e.hidden = false) (hk : i.kind = .prompt p) :
      StepsTo store e (.quiet { e.next with state := .suspended p.wait })
  /-- The run is halted. -/
  | halted {f : Frame} {below : List Frame} {i : Instruction} {r : HaltReason}
      (hf : e.frames = f :: below) (hi : f.template.at? f.position = some i)
      (ho : e.hidden = false) (hk : i.kind = .halt r) : StepsTo store e (e.finish (.halted r))
  /-- The run goes to a label that is not there. -/
  | lost {f : Frame} {below : List Frame} {i : Instruction} (hf : e.frames = f :: below)
      (hi : f.template.at? f.position = some i) (ho : e.hidden = false) (hb : i.Branches)
      (hl : f.template.label? (i.arg 0) = none) :
      StepsTo store e (e.finish (.aborted (.unresolvedLabel f.template.name (i.arg 0))))

section

variable {f : Frame} {below : List Frame} {i : Instruction} (hf : e.frames = f :: below)
  (hi : f.template.at? f.position = some i)
include hf hi

theorem stepsTo_branch (ho : e.hidden = false) (hb : i.Branches) :
    e.StepsTo store (e.branch (i.arg 0)) := by
  unfold branch
  rw [hf]
  dsimp only
  split
  · rename_i p hp
    exact .moved hf hi ho (.inr ⟨hb, hp⟩)
  · rename_i hl
    exact .lost hf hi ho hb hl

theorem stepsTo_includeNamed (ho : e.hidden = false) (hk : i.kind = .includes) {a : Advance}
    (h : e.includeNamed store (i.arg 0) = .ok a) : e.StepsTo store a := by
  unfold includeNamed at h
  split at h
  · cases h
  rename_i hd
  have hlt : e.frames.length < includeLimit := Nat.lt_of_not_le hd
  split at h <;> cases h
  · rename_i t ht
    exact .called hf hi ho hk hlt ht
  · rename_i ht
    exact .asked hf hi ho hk hlt ht

theorem stepsTo_obey (ho : e.hidden = false) {name : String} {d : Deed}
    (hd : i.deed facts name e.registers e.response = .ok d) {a : Advance}
    (h : e.obey store d = .ok a) : e.StepsTo store a := by
  rcases Instruction.deed_cases hd with ⟨r, sent, log, rfl, -⟩ | hm
  · cases h
    exact .passed hf hi r sent log
  cases d with
  | send r sent log =>
    cases h
    exact .passed hf hi r sent log
  | branch label =>
    obtain ⟨hb, rfl⟩ := Instruction.branches_of_move? hm
    cases h
    exact stepsTo_branch hf hi ho hb
  | top =>
    cases h
    exact .moved hf hi ho (.inl ⟨Instruction.kind_of_move?_top hm, rfl⟩)
  | call n =>
    obtain ⟨hk, rfl⟩ := Instruction.kind_of_move?_call hm
    exact stepsTo_includeNamed hf hi ho hk h
  | wait w =>
    obtain ⟨p, hk, rfl⟩ := Instruction.kind_of_move?_wait hm
    cases h
    exact .waited hf hi ho hk
  | leave =>
    cases h
    exact .left hf (.inr rfl)
  | stop r =>
    cases h
    exact .halted hf hi ho (Instruction.kind_of_move?_stop hm)

theorem stepsTo_attempt (ho : e.hidden = false) : e.StepsTo store (e.attempt store facts f i) := by
  cases hp : e.perform store facts f.template.name i with
  | ok a =>
    rw [attempt_of_ok hf hp]
    obtain ⟨d, hd, ha⟩ := ok_of_bind hp
    exact stepsTo_obey hf hi ho hd ha
  | error fault =>
    rw [attempt_of_error hf hp]
    exact .passed hf hi e.registers [] _

theorem stepsTo_hide : e.StepsTo store (e.hide i) := by
  have hshow : { e.next with hidden := false } =
      (e.remember { e.registers with hidden := false }).next := by
    rw [next_of_frames hf, next_of_frames (show (e.remember _).frames = f :: below from hf)]
    rfl
  unfold hide
  split
  · split
    · rw [hshow]
      exact .passed hf hi _ _ _
    · exact .passed hf hi e.registers [] _
  · rw [hshow]
    exact .passed hf hi _ [] _
  · exact .passed hf hi e.registers [] _

end

/-- Whatever a step does is one of these. -/
theorem stepsTo_step (e : Execution) (store : Store) (facts : Facts) :
    e.StepsTo store (e.step store facts) := by
  unfold step
  split
  · rename_i hf
    exact .ended hf
  rename_i f below hf
  split
  · exact .left hf (.inl rfl)
  rename_i i hi
  split
  · exact stepsTo_hide hf hi
  · rename_i ho
    exact stepsTo_attempt hf hi (Bool.eq_false_iff.mpr ho)

/-- Leaving a template leaves the run as it is, or ends it. -/
theorem state_leave (e : Execution) (o : Outcome) :
    (e.leave o).execution.state = e.state ∨ (e.leave o).execution.state = .finished o := by
  unfold leave
  dsimp only
  split
  · exact .inr rfl
  · exact .inl rfl

/-- What operations on a run that only move leave as it is. -/
def Keeps (e e' : Execution) : Prop :=
  e'.charset = e.charset ∧ e'.response = e.response

theorem keeps_next (e : Execution) : e.Keeps e.next := by
  unfold next
  split <;> exact ⟨rfl, rfl⟩

theorem keeps_goTo (e : Execution) (p : Nat) : e.Keeps (e.goTo p) := by
  unfold goTo
  split <;> exact ⟨rfl, rfl⟩

theorem keeps_leave (e : Execution) (o : Outcome) : e.Keeps (e.leave o).execution := by
  unfold leave
  dsimp only
  split <;> exact ⟨rfl, rfl⟩

/-- A step leaves the character set and the answer as they are. -/
theorem keeps_step (e : Execution) (store : Store) (facts : Facts) :
    e.Keeps (e.step store facts).execution := by
  have hstep := e.stepsTo_step store facts
  generalize e.step store facts = a at hstep ⊢
  cases hstep with
  | ended => exact ⟨rfl, rfl⟩
  | left => exact e.keeps_leave _
  | passed _ _ r => exact (e.remember r).keeps_next
  | moved => exact e.keeps_goTo _
  | called => exact e.keeps_next
  | asked => exact e.keeps_next
  | waited => exact e.keeps_next
  | halted => exact ⟨rfl, rfl⟩
  | lost => exact ⟨rfl, rfl⟩

/-! ### Stretches of steps -/

theorem proceed_of_ne_running {facts : ChangingFacts} (h : e.state ≠ .running)
    (budget made : Nat) : e.proceed store facts budget made = (.quiet e, made) := by
  cases budget with
  | zero => rfl
  | succ budget =>
    unfold proceed
    split
    · contradiction
    · rfl

theorem proceed_succ {facts : ChangingFacts} (h : e.state = .running) (budget made : Nat) :
    e.proceed store facts (budget + 1) made =
      ((e.step store (facts made)).andThen
          ((e.step store (facts made)).execution.proceed store facts budget (made + 1)).1,
        ((e.step store (facts made)).execution.proceed store facts budget (made + 1)).2) := by
  rw [proceed, h]

/-- What is so of a run that makes no step, and what a step before it preserves, is so of every
stretch of steps, however the answers of the board change. -/
theorem proceed_induction {P : Execution → Advance → Prop} (hquiet : ∀ e, P e (.quiet e))
    (hstep : ∀ facts e rest, e.state = .running → P (e.step store facts).execution rest →
      P e ((e.step store facts).andThen rest))
    (facts : ChangingFacts) (budget made : Nat) (e : Execution) :
    P e (e.proceed store facts budget made).1 := by
  induction budget generalizing made e with
  | zero => exact hquiet e
  | succ budget ih =>
    by_cases h : e.state = .running
    · rw [proceed_succ h]
      exact hstep _ e _ h (ih _ _)
    · rw [proceed_of_ne_running h]
      exact hquiet e

/-- While the answers stay as they are it does not matter how many steps were made before. -/
theorem proceed_eq_advance (budget made : Nat) (e : Execution) :
    (e.proceed store facts budget made).1 = e.advance store facts budget := by
  unfold advance
  generalize 0 = made'
  induction budget generalizing made made' e with
  | zero => rfl
  | succ budget ih =>
    by_cases h : e.state = .running
    · rw [proceed_succ h, proceed_succ h]
      exact congrArg (Advance.andThen _) (ih _ _ _)
    · rw [proceed_of_ne_running h, proceed_of_ne_running h]

theorem proceed_of_finished {facts : ChangingFacts} {o : Outcome} (h : e.state = .finished o)
    (budget made : Nat) : e.proceed store facts budget made = (.quiet e, made) :=
  proceed_of_ne_running (by rw [h]; exact fun hr => by cases hr) budget made

theorem advance_of_ne_running (h : e.state ≠ .running) (budget : Nat) :
    e.advance store facts budget = .quiet e :=
  congrArg Prod.fst (proceed_of_ne_running h budget 0)

theorem advance_of_finished {o : Outcome} (h : e.state = .finished o) (budget : Nat) :
    e.advance store facts budget = .quiet e :=
  congrArg Prod.fst (proceed_of_finished h budget 0)

theorem advance_succ (h : e.state = .running) (budget : Nat) :
    e.advance store facts (budget + 1) =
      ⟨((e.step store facts).execution.advance store facts budget).execution,
        (e.step store facts).sent ++
          ((e.step store facts).execution.advance store facts budget).sent,
        (e.step store facts).log ++
          ((e.step store facts).execution.advance store facts budget).log⟩ := by
  rw [advance, proceed_succ h]
  dsimp only [Facts.steady_apply]
  rw [proceed_eq_advance]
  rfl

theorem advance_one (h : e.state = .running) : e.advance store facts 1 = e.step store facts := by
  rw [advance_succ h]
  show (⟨_, _ ++ [], _ ++ Log.empty⟩ : Advance) = _
  rw [List.append_nil, Log.append_empty]
  rfl

theorem keeps_proceed (e : Execution) (store : Store) (facts : ChangingFacts) (budget made : Nat) :
    e.Keeps (e.proceed store facts budget made).1.execution := by
  refine proceed_induction (P := fun e a => e.Keeps a.execution) (fun e => ⟨rfl, rfl⟩) ?_ facts
    budget made e
  intro facts e rest _ ⟨hc, hr⟩
  obtain ⟨hc', hr'⟩ := e.keeps_step store facts
  exact ⟨hc.trans hc', hr.trans hr'⟩

theorem keeps_advance (e : Execution) (store : Store) (facts : Facts) (budget : Nat) :
    e.Keeps (e.advance store facts budget).execution := e.keeps_proceed store facts budget 0

theorem bytes_advance_succ (h : e.state = .running) (budget : Nat) :
    (e.advance store facts (budget + 1)).bytes =
      (e.step store facts).bytes ++
        ((e.step store facts).execution.advance store facts budget).bytes := by
  have hc := ((e.step store facts).execution.keeps_advance store facts budget).1
  rw [advance_succ h]
  simp only [Advance.bytes, List.flatMap_append, hc]

end Execution

end BulletinBoard
