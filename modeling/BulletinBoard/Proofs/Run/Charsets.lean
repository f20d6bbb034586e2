/-
# Runs in two character sets

The character set of a run decides about bytes only. The same run in another set does the same, step
by step and operation by operation (`Execution.step_inCharset`, `Stage.does_inCharset`), and what it
sends is one text, encoded in its set: control sequences go out as they are, but they are ASCII
(`exists_text`).

Key definitions: `Emission.IsPlain`, `Execution.inCharset`, `Stage.does`.
Key theorems: `Instruction.Sends.isPlain`, `Execution.step_inCharset`, `Execution.isPlain_step`,
`exists_text`, `Stage.does_in_two_charsets`.
-/
import BulletinBoard.Proofs.Run.Sound
import BulletinBoard.Proofs.Text.Encoding

namespace BulletinBoard

open Text Template

/-! ### Control sequences -/

theorem Color.isAsciiBytes_foreground (c : Color) : IsAsciiBytes c.foreground := by
  refine ⟨_, ?_, rfl⟩
  cases c <;> decide

theorem Control.isAsciiBytes_sequence (c : Control) : IsAsciiBytes c.sequence := by
  refine ⟨_, ?_, rfl⟩
  cases c <;> decide

theorem isAsciiBytes_placeCursor (row column : Nat) : IsAsciiBytes (placeCursor row column) := by
  have hopen : IsAscii "\x1b[" := by decide
  have hcomma : IsAscii ";" := by decide
  have hclose : IsAscii "H" := by decide
  have hrow := (hopen.append (isAscii_toString row)).append hcomma
  have hcolumn := (hrow.append (isAscii_toString column)).append hclose
  exact ⟨_, hcolumn, rfl⟩

namespace Template.Instruction

variable {i : Instruction}

theorem isAsciiBytes_sequence {bytes : List UInt8} (h : i.sequence = .ok bytes) :
    IsAsciiBytes bytes := by
  obtain ⟨selected, -, h⟩ := ok_of_bind h
  cases selected with
  | some c =>
    cases h
    exact c.isAsciiBytes_foreground
  | none =>
    dsimp only at h
    split at h
    · rename_i c hk
      cases h
      exact c.isAsciiBytes_sequence
    · obtain ⟨row, -, h⟩ := ok_of_bind h
      obtain ⟨column, -, h⟩ := ok_of_bind h
      cases h
      exact isAsciiBytes_placeCursor row column
    · cases h

end Template.Instruction

/-! ### What is sent -/

/-- What is sent as a text is, in every character set. -/
def Emission.IsPlain : Emission → Prop
  | text _ => True
  | control bytes => IsAsciiBytes bytes

theorem isPlain_text (s : String) : ∀ m ∈ [Emission.text s], m.IsPlain := by
  simp [Emission.IsPlain]

theorem isPlain_control {bytes : List UInt8} (h : IsAsciiBytes bytes) :
    ∀ m ∈ [Emission.control bytes], m.IsPlain := by
  simpa [Emission.IsPlain] using h

/-- Plain emissions one behind the other are one text. -/
theorem exists_text {sent : List Emission} (h : ∀ m ∈ sent, m.IsPlain) :
    ∃ text, ∀ charset : Charset, sent.flatMap (Emission.bytes charset) = charset.encode text := by
  induction sent with
  | nil =>
    refine ⟨"", fun charset => ?_⟩
    cases charset <;> rfl
  | cons m sent ih =>
    obtain ⟨hm, hsent⟩ := List.forall_mem_cons.mp h
    obtain ⟨later, hlater⟩ := ih hsent
    cases m with
    | text s =>
      refine ⟨s ++ later, fun charset => ?_⟩
      rw [List.flatMap_cons, hlater, charset.encode_append]
      rfl
    | control bytes =>
      obtain ⟨s, hs, rfl⟩ := hm
      refine ⟨s ++ later, fun charset => ?_⟩
      rw [List.flatMap_cons, hlater, charset.encode_append, encode_of_isAscii hs]
      rfl

namespace Template.Instruction

variable {facts : Facts} {name : String} {r r' : Registers} {answer : Option String}
  {i : Instruction} {sent : List Emission} {log : Log}

theorem isPlain_repetition (h : i.repetition = .ok sent) : ∀ m ∈ sent, m.IsPlain := by
  obtain ⟨length, -, h⟩ := ok_of_bind h
  obtain ⟨count, -, h⟩ := ok_of_bind h
  split at h
  · cases h
  · cases h
    intro m hm
    rcases List.mem_append.mp hm with hm | hm
    · obtain rfl := (List.mem_replicate.mp hm).2
      trivial
    · exact isPlain_text _ m hm

/-- Whatever an instruction sends is plain. -/
theorem Sends.isPlain (h : i.Sends name r r' sent log) : ∀ m ∈ sent, m.IsPlain := by
  cases h with
  | text s => exact isPlain_text s
  | sequence hbytes => exact isPlain_control (isAsciiBytes_sequence hbytes)
  | load c => exact isPlain_control c.isAsciiBytes_foreground
  | repeated hsent => exact isPlain_repetition hsent
  | _ => simp

end Template.Instruction

/-! ### The same run in another character set -/

/-- The run, in a character set. -/
def Execution.inCharset (charset : Charset) (e : Execution) : Execution := { e with charset }

/-- The operation, on a run in a character set. -/
def Advance.inCharset (charset : Charset) (a : Advance) : Advance :=
  { a with execution := a.execution.inCharset charset }

namespace Execution

variable {store : Store} {facts : Facts} {charset : Charset} {e : Execution}

@[simp] theorem frames_inCharset : (e.inCharset charset).frames = e.frames := rfl

@[simp] theorem state_inCharset : (e.inCharset charset).state = e.state := rfl

@[simp] theorem hidden_inCharset : (e.inCharset charset).hidden = e.hidden := rfl

@[simp] theorem response_inCharset : (e.inCharset charset).response = e.response := rfl

theorem next_inCharset : (e.inCharset charset).next = e.next.inCharset charset := by
  unfold next
  rw [frames_inCharset]
  split <;> rfl

theorem goTo_inCharset (position : Nat) :
    (e.inCharset charset).goTo position = (e.goTo position).inCharset charset := by
  unfold goTo
  rw [frames_inCharset]
  split <;> rfl

theorem leave_inCharset (o : Outcome) :
    (e.inCharset charset).leave o = (e.leave o).inCharset charset := by
  unfold leave
  dsimp only [frames_inCharset]
  split <;> rfl

theorem branch_inCharset (label : String) :
    (e.inCharset charset).branch label = (e.branch label).inCharset charset := by
  unfold branch
  rw [frames_inCharset]
  split
  · rfl
  · split
    · rw [goTo_inCharset]
      rfl
    · rfl

theorem includeNamed_inCharset (name : String) :
    (e.inCharset charset).includeNamed store name =
      (e.includeNamed store name).map (Advance.inCharset charset) := by
  unfold includeNamed
  rw [frames_inCharset, next_inCharset]
  split
  · rfl
  · split <;> rfl

theorem obey_inCharset (d : Deed) :
    (e.inCharset charset).obey store d = (e.obey store d).map (Advance.inCharset charset) := by
  cases d with
  | send r sent log =>
    show Except.ok (⟨((e.remember r).inCharset charset).next, sent, log⟩ : Advance) = _
    rw [next_inCharset]
    rfl
  | branch label => exact congrArg Except.ok (branch_inCharset label)
  | top =>
    show Except.ok (Advance.quiet ((e.inCharset charset).goTo 0)) = _
    rw [goTo_inCharset]
    rfl
  | call name => exact includeNamed_inCharset name
  | wait w =>
    show Except.ok (Advance.quiet { (e.inCharset charset).next with state := .suspended w }) = _
    rw [next_inCharset]
    rfl
  | leave => exact congrArg Except.ok (leave_inCharset _)
  | stop r => rfl

theorem perform_inCharset (name : String) (i : Instruction) :
    (e.inCharset charset).perform store facts name i =
      (e.perform store facts name i).map (Advance.inCharset charset) := by
  cases hd : i.deed facts name e.registers e.response with
  | ok d =>
    rw [perform_of_deed hd, perform_of_deed (e := e.inCharset charset) hd, obey_inCharset]
  | error fault =>
    rw [perform_of_fault hd, perform_of_fault (e := e.inCharset charset) hd]
    rfl

theorem attempt_inCharset {f : Frame} {below : List Frame} (hf : e.frames = f :: below)
    (i : Instruction) :
    (e.inCharset charset).attempt store facts f i =
      (e.attempt store facts f i).inCharset charset := by
  rw [attempt_eq hf, attempt_eq (e := e.inCharset charset) hf, perform_inCharset, next_inCharset]
  cases e.perform store facts f.template.name i <;> rfl

theorem hide_inCharset (i : Instruction) :
    (e.inCharset charset).hide i = (e.hide i).inCharset charset := by
  unfold hide
  rw [next_inCharset]
  split
  · split <;> rfl
  all_goals rfl

/-- A step does the same in another character set. -/
theorem step_inCharset :
    (e.inCharset charset).step store facts = (e.step store facts).inCharset charset := by
  unfold step
  rw [frames_inCharset, hidden_inCharset]
  split
  · rfl
  · rename_i hf
    split
    · exact leave_inCharset _
    · split
      · exact hide_inCharset _
      · exact attempt_inCharset hf _

theorem advance_inCharset (budget : Nat) :
    (e.inCharset charset).advance store facts budget =
      (e.advance store facts budget).inCharset charset := by
  induction budget generalizing e with
  | zero => rfl
  | succ budget ih =>
    by_cases hs : e.state = .running
    · rw [advance_succ hs, advance_succ (e := e.inCharset charset) hs, step_inCharset]
      dsimp only [Advance.inCharset]
      rw [ih]
      rfl
    · rw [advance_of_ne_running hs, advance_of_ne_running (e := e.inCharset charset) hs]
      rfl

theorem deliver_inCharset (line : String) :
    (e.inCharset charset).deliver line = (e.deliver line).inCharset charset := by
  unfold deliver
  rw [state_inCharset, response_inCharset]
  split
  · split <;> rfl
  · rfl

theorem enter_inCharset (t : Template) :
    (e.inCharset charset).enter t = (e.enter t).inCharset charset := by
  unfold enter
  rw [state_inCharset]
  split <;> rfl

theorem abort_inCharset (error : RunError) :
    (e.inCharset charset).abort error = (e.abort error).inCharset charset := by
  unfold abort
  rw [state_inCharset]
  split <;> rfl

/-! ### What operations send -/

theorem sent_deliver (line : String) : (e.deliver line).sent = [] := by
  unfold deliver
  split
  · split <;> rfl
  · rfl

theorem sent_enter (t : Template) : (e.enter t).sent = [] := by
  unfold enter
  split <;> rfl

theorem sent_abort (error : RunError) : (e.abort error).sent = [] := by
  unfold abort
  split <;> rfl

theorem sent_leave (o : Outcome) : (e.leave o).sent = [] := by
  unfold leave
  dsimp only
  split <;> rfl

theorem sent_branch (label : String) : (e.branch label).sent = [] := by
  unfold branch
  split
  · rfl
  · split <;> rfl

theorem sent_includeNamed {name : String} {a : Advance}
    (h : e.includeNamed store name = .ok a) : a.sent = [] := by
  unfold includeNamed at h
  split at h
  · cases h
  · split at h <;> cases h <;> rfl

/-- What an instruction asks for is sent, if it asks for anything to be sent. -/
theorem isPlain_obey {name : String} {i : Instruction} {d : Deed} {a : Advance}
    (hd : i.deed facts name e.registers e.response = .ok d) (h : e.obey store d = .ok a) :
    ∀ m ∈ a.sent, m.IsPlain := by
  cases d with
  | send r sent log =>
    cases h
    exact (Instruction.sends_of_deed hd).isPlain
  | branch label =>
    cases h
    simp [sent_branch]
  | call name => simp [sent_includeNamed h]
  | leave =>
    cases h
    simp [sent_leave]
  | top | wait | stop =>
    cases h
    simp [Advance.quiet, finish]

theorem isPlain_attempt {f : Frame} {below : List Frame} (hf : e.frames = f :: below)
    (i : Instruction) :
    ∀ m ∈ (e.attempt store facts f i).sent, m.IsPlain := by
  cases hp : e.perform store facts f.template.name i with
  | ok a =>
    rw [attempt_of_ok hf hp]
    obtain ⟨d, hd, ha⟩ := ok_of_bind hp
    exact isPlain_obey hd ha
  | error fault =>
    rw [attempt_of_error hf hp]
    simp

theorem isPlain_hide (i : Instruction) : ∀ m ∈ (e.hide i).sent, m.IsPlain := by
  unfold hide
  split
  · split
    · exact isPlain_text _
    · simp [Advance.quiet]
  all_goals simp [Advance.quiet]

/-- Whatever a step sends is plain. -/
theorem isPlain_step : ∀ m ∈ (e.step store facts).sent, m.IsPlain := by
  unfold step
  split
  · simp [finish]
  · rename_i hf
    split
    · simp [sent_leave]
    · split
      · exact isPlain_hide _
      · exact isPlain_attempt hf _

theorem isPlain_advance (budget : Nat) :
    ∀ m ∈ (e.advance store facts budget).sent, m.IsPlain := by
  induction budget generalizing e with
  | zero => exact fun m hm => by cases hm
  | succ budget ih =>
    by_cases hs : e.state = .running
    · rw [advance_succ hs]
      intro m hm
      rcases List.mem_append.mp hm with hm | hm
      · exact isPlain_step m hm
      · exact ih m hm
    · rw [advance_of_ne_running hs]
      simp [Advance.quiet]

end Execution

namespace Stage

/-- What an operation does with the run. -/
def does (s : Stage) : Operation → Advance
  | .advance => s.execution.advance s.store s.facts stepBudget
  | .deliver line => s.execution.deliver line
  | .enter t => s.execution.enter t
  | .abort error => s.execution.abort error
  | .compile _ _ | .inform _ => .quiet s.execution

variable {s : Stage} {charset : Charset}

/-- The stage, with its run in a character set. -/
def inCharset (charset : Charset) (s : Stage) : Stage :=
  { s with execution := s.execution.inCharset charset }

theorem does_inCharset (o : Operation) :
    (s.inCharset charset).does o = (s.does o).inCharset charset := by
  cases o with
  | advance => exact Execution.advance_inCharset _
  | deliver line => exact Execution.deliver_inCharset line
  | enter t => exact Execution.enter_inCharset t
  | abort error => exact Execution.abort_inCharset error
  | compile => rfl
  | inform => rfl

theorem operate_inCharset (o : Operation) :
    (s.inCharset charset).operate o = (s.operate o).inCharset charset := by
  have hsame := congrArg (fun a : Advance => ({ s with execution := a.execution } : Stage))
    (@does_inCharset s charset o)
  cases o with
  | compile => rfl
  | inform => rfl
  | _ => exact hsame

theorem foldl_operate_inCharset (operations : List Operation) :
    operations.foldl operate (s.inCharset charset) =
      (operations.foldl operate s).inCharset charset := by
  induction operations generalizing s with
  | nil => rfl
  | cons o rest ih => rw [List.foldl_cons, List.foldl_cons, operate_inCharset, ih]

theorem isPlain_does (o : Operation) : ∀ m ∈ (s.does o).sent, m.IsPlain := by
  cases o with
  | advance => exact Execution.isPlain_advance _
  | deliver line => simp [does, Execution.sent_deliver]
  | enter t => simp [does, Execution.sent_enter]
  | abort error => simp [does, Execution.sent_abort]
  | compile => simp [does, Advance.quiet]
  | inform => simp [does, Advance.quiet]

theorem does_of_start (t : Template) (store : Store) (facts : Facts) (before : List Operation)
    (o : Operation) (charset : Charset) :
    (before.foldl operate ⟨store, facts, .start t charset⟩).does o =
      ((before.foldl operate ⟨store, facts, .start t .utf8⟩).does o).inCharset charset := by
  have hstart : (⟨store, facts, .start t charset⟩ : Stage) =
      inCharset charset ⟨store, facts, .start t .utf8⟩ := rfl
  rw [hstart, foldl_operate_inCharset, does_inCharset]

/-- **The character set of a run decides about bytes only.** Whatever was done with two runs of a
template, one in each character set, the next operation leaves them in the same state (which is what
an advance answers: that it has yielded, if the run is still running), at the same position, with
the same answer of the caller, and tells the same. What the one sends in UTF-8 is some text, and
what the other sends is that text in the code page. -/
theorem does_in_two_charsets (t : Template) (store : Store) (facts : Facts)
    (before : List Operation) (o : Operation) :
    let u := (before.foldl operate ⟨store, facts, .start t .utf8⟩).does o
    let c := (before.foldl operate ⟨store, facts, .start t .cp437⟩).does o
    c.execution.state = u.execution.state ∧ c.execution.position? = u.execution.position? ∧
      c.execution.response = u.execution.response ∧ c.log = u.log ∧
      ∃ text, Utf8.decode? u.bytes = some text ∧ c.bytes = Charset.cp437.encode text := by
  intro u c
  have hu : u = u.inCharset .utf8 := does_of_start t store facts before o .utf8
  have hc : c = u.inCharset .cp437 := does_of_start t store facts before o .cp437
  have hplain : ∀ m ∈ u.sent, m.IsPlain := isPlain_does o
  obtain ⟨text, htext⟩ := exists_text hplain
  have hutf8 : u.bytes = Utf8.encode text := by
    rw [hu]
    exact htext .utf8
  rw [hc]
  refine ⟨rfl, rfl, rfl, rfl, text, ?_, htext .cp437⟩
  rw [hutf8, Utf8.decode?_encode]

end Stage

end BulletinBoard
