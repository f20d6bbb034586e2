/-
# Deeds

What the handlers do, told apart from the order they do it in and from the stack of templates they
do it on. Most instructions send something, set a register and go on; the others say where the run
goes, and send and set nothing.

Key definitions: `repeated`, `Registers`, `Deed`, `Instruction.deed`, `Execution.perform`,
`Execution.resolve`.
Key theorem: `Execution.resolve_handle`.
-/
import BulletinBoard.Run.Step

namespace BulletinBoard

open Text Template

/-! ### Repeated sequences -/

/-- What a repeated sequence sends: the first `length` characters of the text `count` times, then
the other characters once. -/
def repeated (length count : Nat) (text : String) : List Emission :=
  List.replicate count (.text (String.ofList (text.toList.take length))) ++
    [.text (String.ofList (text.toList.drop length))]

/-- What a repeated sequence sends, its limit kept. -/
def Template.Instruction.repetition (i : Instruction) : Except Fault (List Emission) := do
  let length ← i.count 0
  let count ← i.count 2
  if repeatLimit < count then .error (.invalidArgument "repeatseq" (i.arg 2))
  else .ok (repeated length count (i.arg 1))

/-! ### Registers -/

/-- What instructions remember. -/
structure Registers where
  color : Option Color
  saved : Option Color
  hidden : Bool
  deriving DecidableEq, Repr

namespace Execution

/-- What is remembered in a run. -/
def registers (e : Execution) : Registers := ⟨e.color, e.saved, e.hidden⟩

/-- The same run with something else remembered. -/
def remember (e : Execution) (r : Registers) : Execution :=
  { e with color := r.color, saved := r.saved, hidden := r.hidden }

@[simp] theorem remember_registers (e : Execution) : e.remember e.registers = e := rfl

end Execution

/-! ### Deeds -/

/-- What an instruction does. -/
inductive Deed where
  /-- Remembers and sends something, tells something, and goes on behind the instruction. -/
  | send (r : Registers) (sent : List Emission) (log : Log)
  /-- Goes on at a label. -/
  | branch (label : String)
  /-- Goes on at the first instruction. -/
  | top
  /-- Runs another template and comes back. -/
  | call (name : String)
  /-- Waits for the caller. -/
  | wait (w : Wait)
  /-- Leaves the template. -/
  | leave
  /-- Ends the run. -/
  | stop (r : HaltReason)
  deriving DecidableEq, Repr

namespace Template.Instruction

/-- Passes a privilege gate or stops before it. -/
def passPrivilege (facts : Facts) (r : Registers) (i : Instruction) : Deed :=
  match opens? facts (i.arg 0) with
  | some true => .send r [] .empty
  | some false => .send { r with hidden := true } [] .empty
  | none => .send { r with hidden := true } [] (.warn (.invalidGate i.kind (i.arg 0)))

/-- What an instruction of the template of a name does on an open line. `answer` is the caller's
last answer. -/
def deed (facts : Facts) (name : String) (r : Registers) (answer : Option String)
    (i : Instruction) : Except Fault Deed :=
  match i.kind with
  | .text => .ok (.send r [.text i.word] .empty)
  | .label => .ok (.send r [] .empty)
  | .color _ | .foreground | .control _ | .locate => do
    let bytes ← i.sequence
    let selected ← i.color?
    .ok (.send { r with color := selected.or r.color } [.control bytes] .empty)
  | .saveColor => .ok (.send { r with saved := r.color } [] .empty)
  | .loadColor =>
    match r.saved with
    | none => .ok (.send r [] .empty)
    | some c => .ok (.send { r with color := some c } [.control c.foreground] .empty)
  | .fact f =>
    match facts f with
    | none => .error (.factUnavailable f)
    | some value => .ok (.send r [.text value] .empty)
  | .classAbbreviation => do
    let level ← privilege facts
    .ok (.send r [.text (Privilege.abbreviation level)] .empty)
  | .className => do
    let level ← privilege facts
    .ok (.send r [.text (Privilege.className level)] .empty)
  | .response =>
    match answer with
    | none => .ok (.send r [] .empty)
    | some text => .ok (.send r [.text text] .empty)
  | .goto | .jump => .ok (.branch (i.arg 0))
  | .top => .ok .top
  | .repeatSequence => do
    let sent ← i.repetition
    .ok (.send r sent .empty)
  | .privilegeGate _ => .ok (i.passPrivilege facts r)
  | .factGate g =>
    if g.test.holds facts then .ok (.send r [] .empty)
    else .ok (.send { r with hidden := true } [] .empty)
  | .prompt p => .ok (.wait p.wait)
  | .includes => .ok (.call (i.arg 0))
  | .halt .exit => .ok .leave
  | .halt reason => .ok (.stop reason)
  | .declareLabel | .comment | .unsupported _ =>
    .ok (.send r [] ⟨[.unsupported name i.kind], { Tally.zero with unsupported := 1 }⟩)

end Template.Instruction

namespace Execution

/-- Goes to a label of the innermost template. -/
def branch (e : Execution) (label : String) : Advance :=
  match e.frames with
  | [] => .quiet e
  | f :: _ =>
    match f.template.label? label with
    | some position => .quiet (e.goTo position)
    | none => e.finish (.aborted (.unresolvedLabel f.template.name label))

/-- Runs a template of the store on top of the others, or waits for it if the store lacks it. -/
def includeNamed (store : Store) (e : Execution) (name : String) : Except Fault Advance :=
  if includeLimit ≤ e.frames.length then .error (.includeDepth includeLimit)
  else
    match store.lookup? name with
    | some t => .ok (.quiet { e.next with frames := ⟨t, 0⟩ :: e.next.frames })
    | none => .ok (.quiet { e.next with state := .including name })

/-- Does what an instruction asks for. -/
def obey (store : Store) (e : Execution) : Deed → Except Fault Advance
  | .send r sent log => .ok ⟨(e.remember r).next, sent, log⟩
  | .branch label => .ok (e.branch label)
  | .top => .ok (.quiet (e.goTo 0))
  | .call name => e.includeNamed store name
  | .wait w => .ok (.quiet { e.next with state := .suspended w })
  | .leave => .ok (e.leave (.halted .exit))
  | .stop r => .ok (e.finish (.halted r))

/-- What carrying out an instruction of the template of a name leads to. -/
def perform (store : Store) (facts : Facts) (e : Execution) (name : String) (i : Instruction) :
    Except Fault Advance :=
  i.deed facts name e.registers e.response >>= e.obey store

end Execution

/-! ### Handlers -/

namespace Handler

variable {e : Execution} {a : Advance} {f : Frame} {below : List Frame} {i : Instruction}
  {facts : Facts} {store : Store}

theorem bind_of_ok {α β : Type} {x : Handler α} {v : α} {b : Advance} (h : x a = .ok v b)
    (g : α → Handler β) : (x >>= g) a = g v b := by
  simp [bind, EStateM.bind, h]

theorem bind_of_error {α β : Type} {x : Handler α} {fault : Fault} {b : Advance}
    (h : x a = .error fault b) (g : α → Handler β) : (x >>= g) a = .error fault b := by
  simp [bind, EStateM.bind, h]

theorem check_ok_bind {α β : Type} (v : α) (g : α → Handler β) : check (.ok v) >>= g = g v := rfl

/-- A handler does to a run what a deed says, or fails with its fault before it has done
anything. -/
def Does (e : Execution) (x : Handler Unit) : Except Fault Deed → Prop
  | .ok (.send r sent log) => x (.quiet e) = .ok () ⟨e.remember r, sent, log⟩
  | .ok _ => False
  | .error fault => x (.quiet e) = .error fault (.quiet e)

theorem does_send (e : Execution) (m : Emission) :
    Does e (send m) (.ok (.send e.registers [m] .empty)) := rfl

theorem does_saveColor (e : Execution) : Does e (change fun e => { e with saved := e.color })
    (.ok (.send { e.registers with saved := e.registers.color } [] .empty)) := rfl

theorem does_unsupported (e : Execution) (t : Template) (i : Instruction) :
    Does e (unsupported t i) (.ok (.send e.registers []
      ⟨[.unsupported t.name i.kind], { Tally.zero with unsupported := 1 }⟩)) := rfl

theorem does_control (e : Execution) (i : Instruction) : Does e (control i) (do
    let bytes ← i.sequence
    let selected ← i.color?
    .ok (.send { e.registers with color := selected.or e.registers.color } [.control bytes]
      .empty)) := by
  unfold control
  cases i.sequence with
  | error fault => rfl
  | ok bytes =>
    cases i.color? with
    | error fault => rfl
    | ok selected => cases selected <;> rfl

theorem does_loadColor (e : Execution) : Does e loadColor
    (match e.registers.saved with
      | none => .ok (.send e.registers [] .empty)
      | some c => .ok (.send { e.registers with color := some c } [.control c.foreground]
          .empty)) := by
  obtain ⟨frames, charset, state, color, saved, response, hidden⟩ := e
  cases saved <;> rfl

theorem does_response (e : Execution) : Does e response
    (match e.response with
      | none => .ok (.send e.registers [] .empty)
      | some text => .ok (.send e.registers [.text text] .empty)) := by
  obtain ⟨frames, charset, state, color, saved, response, hidden⟩ := e
  cases response <;> rfl

theorem sendTimes_eq (m : Emission) (n : Nat) (a : Advance) :
    sendTimes m n a = .ok () { a with sent := a.sent ++ List.replicate n m } := by
  induction n generalizing a with
  | zero =>
    rw [List.replicate_zero, List.append_nil]
    rfl
  | succ n ih =>
    show sendTimes m n { a with sent := a.sent ++ [m] } = _
    rw [ih, List.append_assoc, List.singleton_append, ← List.replicate_succ]

theorem does_repeatSequence (e : Execution) (i : Instruction) : Does e (repeatSequence i) (do
    let sent ← i.repetition
    .ok (.send e.registers sent .empty)) := by
  unfold repeatSequence Instruction.repetition
  cases i.count 0 with
  | error fault => rfl
  | ok length =>
    cases i.count 2 with
    | error fault => rfl
    | ok times =>
      rw [check_ok_bind, check_ok_bind]
      show Does e _ ((if repeatLimit < times then _ else _) >>= _)
      by_cases h : repeatLimit < times
      · rw [if_pos h, if_pos h]
        rfl
      · rw [if_neg h, if_neg h]
        exact bind_of_ok (sendTimes_eq _ _ _) _

theorem does_privilegeGate (e : Execution) (facts : Facts) (i : Instruction) :
    Does e (do gate (← privilegePasses facts i)) (.ok (i.passPrivilege facts e.registers)) := by
  unfold privilegePasses Instruction.passPrivilege
  cases opens? facts (i.arg 0) with
  | none => rfl
  | some passes => cases passes <;> rfl

theorem does_factGate (e : Execution) (passes : Bool) : Does e (gate passes)
    (if passes then .ok (.send e.registers [] .empty)
      else .ok (.send { e.registers with hidden := true } [] .empty)) := by
  cases passes <;> rfl

theorem does_fact (e : Execution) (facts : Facts) (f : Fact) :
    Does e (do send (.text (← check (known facts f))))
      (match facts f with
        | none => .error (.factUnavailable f)
        | some value => .ok (.send e.registers [.text value] .empty)) := by
  unfold known
  cases facts f <;> rfl

theorem does_privilegeText (e : Execution) (facts : Facts) (word : Nat → String) :
    Does e (do send (.text (word (← check (privilege facts))))) (do
      let level ← privilege facts
      .ok (.send e.registers [.text (word level)] .empty)) := by
  cases privilege facts <;> rfl

end Handler

namespace Execution

variable {e : Execution} {f : Frame} {below : List Frame} {store : Store} {facts : Facts}
  {i : Instruction}

/-- What a handler leads to at a position: the run where it goes from there, or its fault and what
was done before. -/
def resolve (position : Nat) : EStateM.Result Fault Advance Flow → Except (Fault × Advance) Advance
  | .ok flow done => .ok (done.andThen (done.execution.follow position flow))
  | .error fault done => .error (fault, done)

theorem goTo_succ_of_frames (hf : e.frames = f :: below) : e.goTo (f.position + 1) = e.next := by
  rw [goTo_of_frames hf, next_of_frames hf]

open Handler in
theorem resolve_onward (hf : e.frames = f :: below) {x : Handler Unit} {d : Except Fault Deed}
    (h : Does e x d) (store : Store) :
    resolve f.position (onward x (.quiet e)) =
      (d >>= e.obey store).mapError fun fault => (fault, .quiet e) := by
  unfold onward
  match d, h with
  | .ok (.send r sent log), h =>
    have hframes : (e.remember r).frames = f :: below := hf
    rw [bind_of_ok h]
    show Except.ok (Advance.andThen _ (.quiet _)) = _
    rw [goTo_succ_of_frames hframes]
    show Except.ok (⟨(e.remember r).next, sent ++ [], log ++ .empty⟩ : Advance) = _
    rw [List.append_nil, Log.append_empty]
    rfl
  | .error fault, h =>
    rw [bind_of_error h]
    rfl

theorem resolve_pure (flow : Flow) (position : Nat) :
    resolve position ((pure flow : Handler Flow) (.quiet e)) = .ok (e.follow position flow) :=
  congrArg Except.ok (Advance.quiet_andThen e)

theorem follow_branch (hf : e.frames = f :: below) (label : String) (position : Nat) :
    e.follow position (Handler.branch f.template label) = e.branch label := by
  unfold Handler.branch branch
  rw [hf]
  dsimp only
  cases f.template.label? label <;> rfl

open Handler in
theorem resolve_includeNamed (store : Store) (name : String) (position : Nat) :
    resolve position (Handler.includeNamed store name (.quiet e)) =
      (e.includeNamed store name).mapError fun fault => (fault, .quiet e) := by
  unfold Handler.includeNamed includeNamed
  have hcurrent : current (.quiet e) = .ok e (.quiet e) := rfl
  rw [bind_of_ok hcurrent]
  by_cases h : includeLimit ≤ e.frames.length
  · rw [if_pos h, if_pos h]
    rfl
  · rw [if_neg h, if_neg h]
    cases store.lookup? name <;> rfl

open Handler in
/-- **A handler does what the deed of its instruction says.** It goes through where the deed can be
done and leads to the same, and otherwise fails with the same fault and leaves the run untouched. -/
theorem resolve_handle (hf : e.frames = f :: below) (store : Store) (facts : Facts)
    (i : Instruction) :
    resolve f.position (i.handle store facts f.template (.quiet e)) =
      (e.perform store facts f.template.name i).mapError fun fault => (fault, .quiet e) := by
  unfold Instruction.handle perform Instruction.deed
  cases hk : i.kind with
  | text => exact resolve_onward hf (does_send e _) store
  | color _ | foreground | control _ | locate => exact resolve_onward hf (does_control e i) store
  | saveColor => exact resolve_onward hf (does_saveColor e) store
  | loadColor => exact resolve_onward hf (does_loadColor e) store
  | fact g => exact resolve_onward hf (does_fact e facts g) store
  | classAbbreviation | className => exact resolve_onward hf (does_privilegeText e facts _) store
  | response => exact resolve_onward hf (does_response e) store
  | goto | jump =>
    refine (resolve_pure _ _).trans ?_
    rw [follow_branch hf]
    rfl
  | top => exact resolve_pure _ _
  | label =>
    refine (resolve_pure _ _).trans ?_
    exact congrArg (Except.ok ∘ Advance.quiet) (goTo_succ_of_frames hf)
  | repeatSequence => exact resolve_onward hf (does_repeatSequence e i) store
  | privilegeGate => exact resolve_onward hf (does_privilegeGate e facts i) store
  | factGate g => exact resolve_onward hf (does_factGate e _) store
  | prompt p =>
    refine (resolve_pure _ _).trans ?_
    rw [follow, goTo_succ_of_frames hf]
    rfl
  | includes => exact resolve_includeNamed store _ _
  | halt r => cases r <;> exact resolve_pure _ _
  | declareLabel | comment | unsupported =>
    have hdoes := does_unsupported e f.template i
    rw [hk] at hdoes
    exact resolve_onward hf hdoes store

end Execution

end BulletinBoard
