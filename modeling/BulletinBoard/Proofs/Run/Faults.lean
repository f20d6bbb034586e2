/-
# Instructions that cannot be carried out

An instruction that cannot be carried out is passed with a warning, and nothing else happens
(`Execution.step_of_fault`): its handler finds out whatever can go wrong before it sends or sets
anything (`Instruction.checksFirst_handle`), so what it leaves is the run it was given.

What can go wrong is little once a template has been compiled (`Instruction.Raises`). Compiling sees
to it that no argument is missing and that the numbers of a repeated sequence are numbers; so the
faults left are those of what the words of a template mean and of what is known of the caller. They
are told function by function (`Instruction.color?_eq_error_iff`, `privilege_eq_error_iff`,
`Instruction.repetition_eq_error_iff`), for every instruction that `Instruction.WellFormed` allows.

Key definitions: `Template.IsCompiled`, `Instruction.Raises`.
Key theorems: `Execution.step_of_fault`, `Execution.fails_iff_raises`,
`Execution.faults_are_recoverable`.
-/
import BulletinBoard.Proofs.Run.Alike
import BulletinBoard.Proofs.Run.Budget
import BulletinBoard.Proofs.Run.Checks
import BulletinBoard.Proofs.Template.WellFormed

namespace BulletinBoard

open Text Template

theorem error_of_bind {ε α β : Type} {x : Except ε α} {f : α → Except ε β} {error : ε}
    (h : x >>= f = .error error) : x = .error error ∨ ∃ a, x = .ok a ∧ f a = .error error := by
  cases x with
  | error e =>
    cases h
    exact .inl rfl
  | ok a => exact .inr ⟨a, rfl, h⟩

theorem bind_of_ok {ε α β : Type} {x : Except ε α} {a : α} (h : x = .ok a) (f : α → Except ε β) :
    x >>= f = f a := by
  rw [h]
  rfl

theorem Text.Numeral.read?_of_le {m m' n : Nat} {s : String} (hle : m ≤ m')
    (h : read? m s = some n) : read? m' s = some n := by
  have hn : n ≤ m' := Nat.le_trans (read?_le h) hle
  unfold read? at h ⊢
  dsimp only at h ⊢
  split at h
  · cases h
  · rename_i hdigits
    rw [if_neg hdigits]
    exact Option.filter_eq_some_iff.mpr ⟨(Option.filter_eq_some_iff.mp h).1, decide_eq_true hn⟩

theorem privilege_eq_error_iff {facts : Facts} {fault : Fault} : privilege facts = .error fault ↔
    facts .privilegeLevel = none ∧ fault = .factUnavailable .privilegeLevel ∨
      ∃ text, facts .privilegeLevel = some text ∧ Privilege.read? text = none ∧
        fault = .invalidArgument "priv_level" text := by
  unfold privilege known
  cases facts .privilegeLevel with
  | none => simp [bind, Except.bind, eq_comm]
  | some text => cases hr : Privilege.read? text <;> simp [bind, Except.bind, hr, eq_comm]

/-! ### What can go wrong -/

namespace Template

/-- The template was compiled. -/
def IsCompiled (t : Template) : Prop := ∃ name source, compile name source = .ok t

theorem IsCompiled.wellFormed {t : Template} (h : t.IsCompiled) {p : Nat} {i : Instruction}
    (hi : t.at? p = some i) : i.WellFormed := by
  obtain ⟨name, source, hcompile⟩ := h
  exact wellFormed_of_compile hcompile i (List.mem_of_getElem? hi)

namespace Instruction

/-- The fault of an instruction of a compiled template that cannot be carried out, with so many
templates stacked. -/
inductive Raises (facts : Facts) (depth : Nat) (i : Instruction) : Fault → Prop where
  /-- The argument of `fg` names no color. -/
  | color {name : String} (hk : i.kind = .foreground) (ha : i.args = [name])
      (h : Color.ofWord? name = none) : Raises facts depth i (.invalidArgument "fg" name)
  /-- The row is no number of sixteen bits. -/
  | row {row column : String} (hk : i.kind = .locate) (ha : i.args = [row, column])
      (h : Numeral.read? Numeral.max16 (trim row) = none) :
      Raises facts depth i (.invalidArgument "locate" row)
  /-- The row is, and the column is none. -/
  | column {row column : String} {n : Nat} (hk : i.kind = .locate) (ha : i.args = [row, column])
      (hrow : Numeral.read? Numeral.max16 (trim row) = some n)
      (h : Numeral.read? Numeral.max16 (trim column) = none) :
      Raises facts depth i (.invalidArgument "locate" column)
  /-- The fact is not known. -/
  | fact {f : Fact} (hk : i.kind = .fact f) (h : facts f = none) :
      Raises facts depth i (.factUnavailable f)
  /-- The caller's privilege is not known. -/
  | unknownPrivilege (hk : i.kind = .classAbbreviation ∨ i.kind = .className)
      (h : facts .privilegeLevel = none) : Raises facts depth i (.factUnavailable .privilegeLevel)
  /-- The caller's privilege cannot be read. -/
  | unreadablePrivilege {text : String} (hk : i.kind = .classAbbreviation ∨ i.kind = .className)
      (h : facts .privilegeLevel = some text) (hr : Privilege.read? text = none) :
      Raises facts depth i (.invalidArgument "priv_level" text)
  /-- The count of a repeated sequence is above the limit. -/
  | count {length text count : String} {n : Nat} (hk : i.kind = .repeatSequence)
      (ha : i.args = [length, text, count]) (hn : Numeral.read? Numeral.max64 count = some n)
      (h : repeatLimit < n) : Raises facts depth i (.invalidArgument "repeatseq" count)
  /-- No more templates may be stacked. -/
  | depth (hk : i.kind = .includes) (h : includeLimit ≤ depth) :
      Raises facts depth i (.includeDepth includeLimit)

variable {facts : Facts} {i : Instruction} {fault : Fault}

/-! ### Arguments -/

theorem WellFormed.length_args (hw : i.WellFormed) {n : Nat} (ha : i.kind.arity = .fixed n) :
    i.args.length = n := by
  cases hw with
  | text | label => exact Arity.fixed.inj ha
  | sequence => cases ha
  | word _ _ harity => exact Arity.fixed.inj (harity.symm.trans ha)

theorem WellFormed.sequence_args (hw : i.WellFormed) (hk : i.kind = .repeatSequence) :
    ∃ length text count, i.args = [length, text, count] ∧ isCount length = true ∧
      isCount count = true := by
  cases hw with
  | text | label => cases hk
  | sequence _ hl _ hc => exact ⟨_, _, _, rfl, hl, hc⟩
  | word _ _ harity =>
    cases hk
    cases harity

/-! ### Function by function -/

theorem color?_eq_error_iff : i.color? = .error fault ↔
    i.kind = .foreground ∧ Color.ofWord? (i.arg 0) = none ∧
      fault = .invalidArgument "fg" (i.arg 0) := by
  unfold color?
  split
  · rename_i hk
    simp [hk]
  · rename_i hk
    cases Color.ofWord? (i.arg 0) <;> simp [hk, eq_comm]
  · rename_i hk
    simpa using fun h => absurd h hk

theorem coordinate_eq_error_iff {p : Nat} : i.coordinate p = .error fault ↔
    Numeral.read? Numeral.max16 (trim (i.arg p)) = none ∧
      fault = .invalidArgument "locate" (i.arg p) := by
  unfold coordinate
  cases Numeral.read? Numeral.max16 (trim (i.arg p)) <;> simp [eq_comm]

/-- A count that was read when the template was compiled is read again when it is needed, and is the
same. -/
theorem count_of_isCount {p : Nat} (h : isCount (i.arg p) = true) : ∃ n, i.count p = .ok n ∧
    Numeral.read? Numeral.max32 (i.arg p) = some n ∧
    Numeral.read? Numeral.max64 (i.arg p) = some n := by
  obtain ⟨n, hn⟩ := Option.isSome_iff_exists.mp h
  have hread : Numeral.read? Numeral.max64 (i.arg p) = some n :=
    Numeral.read?_of_le (by decide) hn
  refine ⟨n, ?_, hn, hread⟩
  unfold count
  rw [hread]

/-- What a sequence with two counts sends, if it is not repeated too often. -/
theorem repetition_of_count {length count : Nat} (hl : i.count 0 = .ok length)
    (hc : i.count 2 = .ok count) :
    i.repetition = if repeatLimit < count then .error (.invalidArgument "repeatseq" (i.arg 2))
      else .ok (repeated length count (i.arg 1)) := by
  unfold repetition
  rw [hl, hc]
  rfl

theorem repetition_eq_error_iff (hl : isCount (i.arg 0) = true) (hc : isCount (i.arg 2) = true) :
    i.repetition = .error fault ↔
      ∃ n, Numeral.read? Numeral.max64 (i.arg 2) = some n ∧ repeatLimit < n ∧
        fault = .invalidArgument "repeatseq" (i.arg 2) := by
  obtain ⟨length, hlength, -⟩ := count_of_isCount hl
  obtain ⟨count, hcount, -, hread⟩ := count_of_isCount hc
  rw [repetition_of_count hlength hcount, hread]
  by_cases h : repeatLimit < count <;> simp [h, eq_comm]

/-- The instruction is for the terminal. -/
def IsControl (i : Instruction) : Prop :=
  (∃ c, i.kind = .color c) ∨ i.kind = .foreground ∨ (∃ c, i.kind = .control c) ∨ i.kind = .locate

theorem sequence_of_locate (hk : i.kind = .locate) :
    i.sequence = i.coordinate 0 >>= fun row =>
      i.coordinate 1 >>= fun column => .ok (placeCursor row column) := by
  have hcolor : i.color? = .ok none := by
    unfold color?
    rw [hk]
  unfold Instruction.sequence
  rw [bind_of_ok hcolor, hk]

/-- An instruction for the terminal fails for a color or a place that it cannot read. -/
theorem sequence_eq_error (hk : i.IsControl) (h : i.sequence = .error fault) :
    i.color? = .error fault ∨ i.kind = .locate ∧ (i.coordinate 0 = .error fault ∨
      ∃ row, i.coordinate 0 = .ok row ∧ i.coordinate 1 = .error fault) := by
  rcases hk with ⟨c, hk⟩ | hk | ⟨c, hk⟩ | hk
  · simp [sequence, color?, hk] at h
    cases h
  · rcases error_of_bind h with hcolor | ⟨selected, hcolor, h⟩
    · exact .inl hcolor
    · unfold color? at hcolor
      rw [hk] at hcolor
      dsimp only at hcolor
      split at hcolor <;> cases hcolor
      cases h
  · simp [sequence, color?, hk] at h
    cases h
  · rw [sequence_of_locate hk] at h
    refine .inr ⟨hk, ?_⟩
    rcases error_of_bind h with hrow | ⟨row, hrow, h⟩
    · exact .inl hrow
    rcases error_of_bind h with hcolumn | ⟨column, -, h⟩
    · exact .inr ⟨row, hrow, hcolumn⟩
    · cases h

variable {name : String} {r : Registers} {answer : Option String}

theorem deed_of_isControl (hk : i.IsControl) :
    i.deed facts name r answer = i.sequence >>= fun bytes => i.color? >>= fun selected =>
      .ok (.send { r with color := selected.or r.color } [.control bytes] .empty) := by
  unfold deed
  rcases hk with ⟨c, hk⟩ | hk | ⟨c, hk⟩ | hk <;> rw [hk]

/-! ### Instructions of compiled templates -/

theorem arg_of_args {args : List String} (h : i.args = args) (p : Nat) :
    i.arg p = args.getD p "" := by
  rw [arg, h]

/-- A fault of a color, of a control or of a place. -/
theorem raises_of_sequence (hw : i.WellFormed) (depth : Nat)
    (hk : i.IsControl) (h : i.sequence = .error fault) : i.Raises facts depth fault := by
  rcases sequence_eq_error hk h with hcolor | ⟨hlocate, hplace⟩
  · obtain ⟨hforeground, hname, rfl⟩ := color?_eq_error_iff.mp hcolor
    have hlen : i.args.length = 1 := hw.length_args (by rw [hforeground]; rfl)
    obtain ⟨name, ha⟩ := List.length_eq_one_iff.mp hlen
    rw [arg_of_args ha] at hname ⊢
    exact .color hforeground ha hname
  · have hlen : i.args.length = 2 := hw.length_args (by rw [hlocate]; rfl)
    obtain ⟨row, column, ha⟩ := List.length_eq_two.mp hlen
    rcases hplace with hrow | ⟨n, hrow, hcolumn⟩
    · obtain ⟨hread, rfl⟩ := coordinate_eq_error_iff.mp hrow
      rw [arg_of_args ha] at hread ⊢
      exact .row hlocate ha hread
    · obtain ⟨hread, rfl⟩ := coordinate_eq_error_iff.mp hcolumn
      unfold coordinate at hrow
      rw [arg_of_args ha] at hread hrow ⊢
      split at hrow
      · rename_i m hm
        exact .column hlocate ha hm hread
      · cases hrow

theorem raises_of_deed (hw : i.WellFormed) (depth : Nat)
    (h : i.deed facts name r answer = .error fault) : i.Raises facts depth fault := by
  unfold deed at h
  split at h
  -- the control sequences
  case h_3 | h_4 | h_5 | h_6 =>
    rename_i hk
    rcases error_of_bind h with hs | ⟨bytes, hs, h⟩
    · exact raises_of_sequence hw depth (by simp [IsControl, hk]) hs
    · obtain ⟨selected, hselected, -⟩ := ok_of_bind hs
      rw [hselected] at h
      cases h
  case h_9 f hk =>
    split at h <;> cases h
    exact .fact hk ‹_›
  -- the texts of a privilege class
  case h_10 | h_11 =>
    rename_i hk
    rcases error_of_bind h with hp | ⟨level, -, h⟩
    · rcases privilege_eq_error_iff.mp hp with ⟨hnone, rfl⟩ | ⟨text, hsome, hread, rfl⟩
      · exact .unknownPrivilege (by simp [hk]) hnone
      · exact .unreadablePrivilege (by simp [hk]) hsome hread
    · cases h
  case h_16 hk =>
    rcases error_of_bind h with hs | ⟨sent, -, h⟩
    · obtain ⟨length, text, count, ha, hl, hc⟩ := hw.sequence_args hk
      rw [repetition_eq_error_iff (by rwa [arg_of_args ha]) (by rwa [arg_of_args ha]),
        arg_of_args ha] at hs
      obtain ⟨n, hn, hlt, rfl⟩ := hs
      exact .count hk ha hn hlt
    · cases h
  -- the others can be carried out
  all_goals first
    | cases h
    | split at h <;> cases h

end Instruction

end Template

/-! ### Carrying out -/

namespace Execution

open Instruction

variable {store : Store} {facts : Facts} {e : Execution} {name : String} {i : Instruction}
  {fault : Fault}

theorem includeNamed_eq_error_iff {n : String} : e.includeNamed store n = .error fault ↔
    includeLimit ≤ e.frames.length ∧ fault = .includeDepth includeLimit := by
  unfold includeNamed
  split
  · rename_i h
    simp [h, eq_comm]
  · rename_i h
    split <;> simp [h]

theorem raises_of_perform (hw : i.WellFormed) (h : e.perform store facts name i = .error fault) :
    i.Raises facts e.frames.length fault := by
  rcases error_of_bind h with hdeed | ⟨d, hdeed, hobey⟩
  · exact Instruction.raises_of_deed hw _ hdeed
  -- only a call can still go wrong
  cases d with
  | call n =>
    obtain ⟨hlimit, rfl⟩ := includeNamed_eq_error_iff.mp hobey
    rcases Instruction.deed_cases hdeed with ⟨_, _, _, hsend, -⟩ | hm
    · cases hsend
    · exact .depth (Instruction.kind_of_move?_call hm).1 hlimit
  | send | branch | top | wait | leave | stop => cases hobey

theorem perform_of_raises (hw : i.WellFormed) (h : i.Raises facts e.frames.length fault) :
    e.perform store facts name i = .error fault := by
  cases h with
  | @color color hk ha h =>
    have hcolor : i.color? = .error (.invalidArgument "fg" color) := by
      simp [color?, hk, arg_of_args ha, h]
    refine perform_of_fault ?_
    rw [deed_of_isControl (.inr (.inl hk)), Instruction.sequence, hcolor]
    rfl
  | @row row column hk ha h =>
    have hrow : i.coordinate 0 = .error (.invalidArgument "locate" row) := by
      simp [coordinate, arg_of_args ha, h]
    refine perform_of_fault ?_
    rw [deed_of_isControl (.inr (.inr (.inr hk))), sequence_of_locate hk, hrow]
    rfl
  | @column row column n hk ha hrow h =>
    have hfirst : i.coordinate 0 = .ok n := by simp [coordinate, arg_of_args ha, hrow]
    have hcolumn : i.coordinate 1 = .error (.invalidArgument "locate" column) := by
      simp [coordinate, arg_of_args ha, h]
    refine perform_of_fault ?_
    rw [deed_of_isControl (.inr (.inr (.inr hk))), sequence_of_locate hk, bind_of_ok hfirst,
      hcolumn]
    rfl
  | fact hk h => exact perform_of_fault (by simp [deed, hk, h])
  | unknownPrivilege hk h =>
    have hlevel := privilege_eq_error_iff.mpr (.inl ⟨h, rfl⟩)
    refine perform_of_fault ?_
    rcases hk with hk | hk <;> simp only [deed, hk, hlevel] <;> rfl
  | unreadablePrivilege hk h hr =>
    have hlevel := privilege_eq_error_iff.mpr (.inr ⟨_, h, hr, rfl⟩)
    refine perform_of_fault ?_
    rcases hk with hk | hk <;> simp only [deed, hk, hlevel] <;> rfl
  | count hk ha hn h =>
    obtain ⟨length, text, count, ha', hl, hc⟩ := hw.sequence_args hk
    have hrepetition := (repetition_eq_error_iff (i := i) (by rwa [arg_of_args ha'])
      (by rwa [arg_of_args ha'])).mpr ⟨_, by rwa [arg_of_args ha], h, rfl⟩
    rw [arg_of_args ha] at hrepetition
    refine perform_of_fault ?_
    simp only [deed, hk, hrepetition]
    rfl
  | depth hk h =>
    have hmove : i.move? = some (.call (i.arg 0)) := by
      simp only [move?, hk]
    rw [perform_of_deed (deed_of_move? hmove)]
    exact includeNamed_eq_error_iff.mpr ⟨h, rfl⟩

/-- The handler of an instruction fails where there is nothing to be done. -/
theorem fails_iff {f : Frame} {below : List Frame} (hf : e.frames = f :: below) :
    (∃ left, i.handle store facts f.template (.quiet e) = .error fault left) ↔
      e.perform store facts f.template.name i = .error fault := by
  have hresolve := resolve_handle hf store facts i
  cases hh : i.handle store facts f.template (.quiet e) <;>
    cases hp : e.perform store facts f.template.name i <;> rw [hh, hp] at hresolve <;>
    cases hresolve <;> simp

/-- What can go wrong with an instruction of a compiled template. -/
theorem fails_iff_raises {f : Frame} {below : List Frame} (hf : e.frames = f :: below)
    (hw : i.WellFormed) :
    (∃ left, i.handle store facts f.template (.quiet e) = .error fault left) ↔
      i.Raises facts e.frames.length fault :=
  (fails_iff hf).trans ⟨raises_of_perform hw, perform_of_raises hw⟩

/-- An instruction that cannot be carried out is passed with a warning, and that is all. -/
theorem step_of_fault {f : Frame} {below : List Frame} {left : Advance} (hf : e.frames = f :: below)
    (hi : f.template.at? f.position = some i) (ho : e.hidden = false)
    (h : i.handle store facts f.template (.quiet e) = .error fault left) :
    e.step store facts = ⟨{ e with frames := f.next :: below }, [],
      .warn (.fault f.template.name i.kind f.position fault)⟩ := by
  have hleft : left = .quiet e := i.checksFirst_handle store facts f.template _ _ _ h
  rw [step_of_open hf hi ho, attempt, h, hleft]
  dsimp only
  rw [Advance.quiet_andThen]
  show (⟨e.goTo (f.position + 1), [], _⟩ : Advance) = _
  rw [goTo_of_frames hf]
  rfl

/-- **Faults are recoverable, and few.** Let a run stand at an instruction on an open line. If its
handler fails, it leaves the run as it was given it, with nothing sent and nothing told. So the run
goes on behind the instruction, and all that happens is a warning: nothing is sent, counted or
remembered, and the templates below stay where they are. And if the template was compiled, the
handler fails just where `Instruction.Raises` says so; then the instruction has its control sequence,
and what cannot be read is one of its arguments or the caller's privilege. -/
theorem faults_are_recoverable (store : Store) (facts : Facts) {f : Frame} {below : List Frame}
    (hs : e.state = .running) (hf : e.frames = f :: below)
    (hi : f.template.at? f.position = some i) (ho : e.hidden = false) :
    (∀ fault left, i.handle store facts f.template (.quiet e) = .error fault left →
      left = .quiet e ∧
        e.step store facts = ⟨{ e with frames := f.next :: below }, [],
          .warn (.fault f.template.name i.kind f.position fault)⟩ ∧
        ∀ budget, e.advance store facts (budget + 1) = (e.step store facts).andThen
          (advance store facts budget { e with frames := f.next :: below })) ∧
    (f.template.IsCompiled →
      (∀ fault, (∃ left, i.handle store facts f.template (.quiet e) = .error fault left) ↔
        i.Raises facts e.frames.length fault) ∧
      (∀ kind left, i.handle store facts f.template (.quiet e) ≠ .error (.notControl kind) left) ∧
      ∀ instruction value left, i.handle store facts f.template (.quiet e) =
          .error (.invalidArgument instruction value) left →
        value ∈ i.args ∨ instruction = "priv_level" ∧ facts .privilegeLevel = some value) := by
  refine ⟨fun fault left hfault => ?_, fun hcompiled => ?_⟩
  · have hstep := step_of_fault hf hi ho hfault
    refine ⟨i.checksFirst_handle store facts f.template _ _ _ hfault, hstep, fun budget => ?_⟩
    rw [advance_succ hs, hstep]
    rfl
  · have hraises (fault : Fault) :
        (∃ left, i.handle store facts f.template (.quiet e) = .error fault left) ↔
          i.Raises facts e.frames.length fault := fails_iff_raises hf (hcompiled.wellFormed hi)
    refine ⟨hraises, fun kind left hfault => ?_, fun instruction value left hfault => ?_⟩
    · cases (hraises _).mp ⟨left, hfault⟩
    · cases (hraises _).mp ⟨left, hfault⟩ with
      | color _ ha | row _ ha | column _ ha | count _ ha => exact .inl (by simp [ha])
      | unreadablePrivilege _ htext => exact .inr ⟨rfl, htext⟩

/-- A template that places the cursor in a column there is not. -/
def misplacing : Template :=
  .of "t" "[locate 7 70000]here" [⟨.locate, ["7", "70000"], "locate"⟩, .literal "here"]

/-- A run of it goes on behind that instruction, and the text is sent. -/
theorem faults_are_recoverable_misplacing :
    (start misplacing .utf8).state = .running ∧
      (start misplacing .utf8).frames = [⟨misplacing, 0⟩] ∧
      misplacing.at? 0 = some ⟨.locate, ["7", "70000"], "locate"⟩ ∧
      (start misplacing .utf8).hidden = false ∧ misplacing.IsCompiled ∧
      Instruction.Raises Facts.empty 1 ⟨.locate, ["7", "70000"], "locate"⟩
        (.invalidArgument "locate" "70000") ∧
      ((start misplacing .utf8).advance (.empty none) Facts.empty 2).bytes =
        Charset.utf8.encode "here" := by
  have hcompiled : misplacing.IsCompiled := ⟨"t", "[locate 7 70000]here", by decide +kernel⟩
  obtain ⟨hrecovers, hfew⟩ := faults_are_recoverable (e := start misplacing .utf8)
    (f := ⟨misplacing, 0⟩) (.empty none) Facts.empty rfl rfl rfl rfl
  have hraises : Instruction.Raises Facts.empty 1 ⟨.locate, ["7", "70000"], "locate"⟩
      (.invalidArgument "locate" "70000") :=
    .column (n := 7) rfl rfl (by decide +kernel) (by decide +kernel)
  obtain ⟨left, hfault⟩ := ((hfew hcompiled).1 _).mpr hraises
  refine ⟨rfl, rfl, rfl, rfl, hcompiled, hraises, ?_⟩
  obtain ⟨-, hstep, hon⟩ := hrecovers _ left hfault
  rw [hon 1, hstep]
  decide +kernel

end Execution

end BulletinBoard
