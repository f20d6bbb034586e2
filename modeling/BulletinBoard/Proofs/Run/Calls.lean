/-
# Calls and returns

An include is a call. A template is entered on top of the one that includes it, at once or when it
is handed to the run (`Execution.Enters`), and the one below has been moved behind the include
before. From then on, whatever the run and others do, the templates below stay where they are
(`Execution.Inside`), until the run leaves the template that was entered: at its end, or at an exit
on an open line (`Execution.Leaves`). Then the run goes on behind the include, on an open line and
with everything else as it was left.

Every step that does not leave the innermost template stays in it or above it
(`Execution.inside_step`). So one event either stays inside or is the step that returns
(`Execution.Inside.meet`, `Execution.Inside.length_meet_le_iff`), and by induction on the events the
run stays inside for as long as there is a template above the one that waits
(`Execution.Inside.meets`).

Key definitions: `Execution.Leaves`, `Execution.Inside`, `Execution.Returns`, `Execution.Enters`.
Key theorems: `Execution.inside_step`, `Execution.Inside.meet`,
`Execution.Inside.length_meet_le_iff`, `Execution.Inside.meets`, `Execution.calls_and_returns`.
-/
import BulletinBoard.Proofs.Run.Events
import BulletinBoard.Proofs.Run.Privileges
import Mathlib.Data.List.Infix

namespace BulletinBoard

open Text Template

namespace Execution

variable {store : Store} {facts : Facts} {e : Execution} {f : Frame} {below : List Frame}

/-! ### Leaving a template -/

/-- The run is about to leave its innermost template: it is at the end of it, or at an exit on an
open line. -/
def Leaves (f : Frame) (e : Execution) : Prop :=
  f.template.at? f.position = none ∨
    e.hidden = false ∧ ∃ i, f.template.at? f.position = some i ∧ i.kind = .halt .exit

theorem step_of_leaves (store : Store) (facts : Facts) (hf : e.frames = f :: below)
    (h : e.Leaves f) : ∃ o, e.step store facts = e.leave o := by
  rcases h with hend | ⟨ho, i, hi, hk⟩
  · exact ⟨_, step_of_none hf hend⟩
  · have hmove : i.move? = some .leave := by
      simp only [Instruction.move?, hk]
    exact ⟨_, step_of_move? hf hi ho hmove rfl⟩

theorem leave_of_below {g : Frame} {rest : List Frame} (hf : e.frames = f :: g :: rest)
    (o : Outcome) : e.leave o = .quiet { e with frames := g :: rest, hidden := false } := by
  unfold leave
  rw [hf]
  rfl

/-! ### Inside of a template -/

/-- A template is being run above others, and the run has not been ended from there but by a word
that ends it all, or from outside. -/
structure Inside (t : Template) (lower : List Frame) (e : Execution) : Prop where
  frames : ∃ above p, e.frames = above ++ ⟨t, p⟩ :: lower
  ended : ∀ o, e.state = .finished o →
    o = .halted .quit ∨ o = .halted .hangup ∨ ∃ error, o = .aborted error

namespace Inside

variable {t u : Template} {lower above : List Frame} {p : Nat}

theorem of_state (above : List Frame) (hf : e.frames = above ++ ⟨t, p⟩ :: lower)
    (hs : ∀ o, e.state ≠ .finished o) : e.Inside t lower :=
  ⟨⟨above, p, hf⟩, fun o ho => absurd ho (hs o)⟩

theorem of_running (above : List Frame) (hf : e.frames = above ++ ⟨t, p⟩ :: lower)
    (hs : e.state = .running) : e.Inside t lower :=
  of_state above hf fun o ho => by cases hs.symm.trans ho

theorem trans (h : e.Inside u (above ++ ⟨t, p⟩ :: lower)) : e.Inside t lower := by
  obtain ⟨higher, q, hf⟩ := h.frames
  exact ⟨⟨higher ++ ⟨u, q⟩ :: above, p, by simp [hf]⟩, h.ended⟩

theorem length_lt (h : e.Inside t lower) : lower.length < e.frames.length := by
  obtain ⟨above, p, hf⟩ := h.frames
  rw [hf, List.length_append, List.length_cons]
  omega

end Inside

section

variable (hf : e.frames = f :: below) (hs : e.state = .running)
include hf hs

theorem inside_next (r : Registers) : (e.remember r).next.Inside f.template below := by
  rw [next_of_frames (show (e.remember r).frames = f :: below from hf)]
  exact .of_running [] rfl hs

theorem inside_goTo (p : Nat) : (e.goTo p).Inside f.template below := by
  rw [goTo_of_frames hf]
  exact .of_running [] rfl hs

theorem inside_branch (label : String) : (e.branch label).execution.Inside f.template below := by
  unfold branch
  rw [hf]
  dsimp only
  split
  · exact inside_goTo hf hs _
  · refine ⟨⟨[], _, hf⟩, fun o ho => ?_⟩
    cases ho
    exact .inr (.inr ⟨_, rfl⟩)

theorem inside_includeNamed {name : String} {a : Advance} (h : e.includeNamed store name = .ok a) :
    a.execution.Inside f.template below := by
  unfold includeNamed at h
  rw [next_of_frames hf] at h
  split at h
  · cases h
  split at h <;> cases h
  · exact .of_running [_] rfl hs
  · exact .of_state [] rfl (by simp [Advance.quiet])

/-- What an instruction does other than leave its template stays inside. -/
theorem inside_obey {i : Instruction} {name : String} {d : Deed} {a : Advance}
    (hk : i.kind ≠ .halt .exit) (hd : i.deed facts name e.registers e.response = .ok d)
    (h : e.obey store d = .ok a) : a.execution.Inside f.template below := by
  rcases Instruction.deed_cases hd with ⟨r, sent, log, rfl, -⟩ | hm
  · cases h
    exact inside_next hf hs r
  cases d with
  | send => exact absurd hm Instruction.move?_ne_send
  | branch label =>
    cases h
    exact inside_branch hf hs label
  | top =>
    cases h
    exact inside_goTo hf hs 0
  | call name => exact inside_includeNamed hf hs h
  | wait w =>
    cases h
    rw [next_of_frames hf]
    exact .of_state [] rfl (by simp [Advance.quiet])
  | leave => exact absurd (Instruction.kind_of_move?_leave hm) hk
  | stop r =>
    cases h
    refine ⟨⟨[], _, hf⟩, fun o ho => ?_⟩
    cases ho
    cases r with
    | exit => exact absurd rfl (Instruction.ne_exit_of_move? hm)
    | quit => exact .inl rfl
    | hangup => exact .inr (.inl rfl)

/-- **A step that does not leave the innermost template stays inside of it.** -/
theorem inside_step (h : ¬ e.Leaves f) :
    (e.step store facts).execution.Inside f.template below := by
  have hpassed : e.next.Inside f.template below := inside_next hf hs e.registers
  cases hi : f.template.at? f.position with
  | none => exact absurd (.inl hi) h
  | some i =>
    cases hh : e.hidden with
    | true =>
      rw [step_of_hidden hf hi hh, hide_eq]
      split
      · exact ⟨hpassed.frames, hpassed.ended⟩
      · exact hpassed
    | false =>
      rw [step_of_open hf hi hh]
      cases hp : e.perform store facts f.template.name i with
      | error fault =>
        rw [attempt_of_error hf hp]
        exact hpassed
      | ok a =>
        rw [attempt_of_ok hf hp]
        obtain ⟨d, hd, ha⟩ := ok_of_bind hp
        exact inside_obey hf hs (fun hk => h (.inr ⟨hh, i, hi, hk⟩)) hd ha

end

/-! ### Returning -/

variable {t : Template} {lower : List Frame}

/-- The next step leaves the template for those below. -/
def Returns (t : Template) (lower : List Frame) (e : Execution) : Prop :=
  e.state = .running ∧ ∃ p, e.frames = ⟨t, p⟩ :: lower ∧ e.Leaves ⟨t, p⟩

/-- A run that returns goes on below, on an open line and with all else as it is. -/
theorem Returns.step (h : e.Returns t lower) (hl : lower ≠ []) :
    e.step store facts = .quiet { e with frames := lower, hidden := false } := by
  obtain ⟨-, p, hf, hleaves⟩ := h
  obtain ⟨g, rest, rfl⟩ := List.exists_cons_of_ne_nil hl
  obtain ⟨o, hstep⟩ := step_of_leaves store facts hf hleaves
  rw [hstep, leave_of_below hf]

namespace Inside

variable (h : e.Inside t lower)
include h

theorem step (hs : e.state = .running) (hr : ¬ e.Returns t lower) :
    (e.step store facts).execution.Inside t lower := by
  obtain ⟨above, p, hf⟩ := h.frames
  cases above with
  | nil => exact inside_step hf hs fun hleaves => hr ⟨hs, p, hf, hleaves⟩
  | cons g above =>
    have hf' : e.frames = g :: (above ++ ⟨t, p⟩ :: lower) := hf
    by_cases hleaves : e.Leaves g
    · -- the run leaves a template above, so it is still inside
      obtain ⟨o, hstep⟩ := step_of_leaves store facts hf' hleaves
      obtain ⟨first, rest, hrest⟩ := List.exists_cons_of_ne_nil
        (List.append_ne_nil_of_right_ne_nil above (List.cons_ne_nil (⟨t, p⟩ : Frame) lower))
      rw [hrest] at hf'
      rw [hstep, leave_of_below hf', ← hrest]
      exact .of_running above rfl hs
    · exact (inside_step hf' hs hleaves).trans

theorem deliver (line : String) : (e.deliver line).execution.Inside t lower := by
  obtain ⟨above, p, hf⟩ := h.frames
  unfold Execution.deliver
  split
  · split
    · exact of_running above hf rfl
    · exact h
  · exact h

theorem enter (u : Template) : (e.enter u).execution.Inside t lower := by
  obtain ⟨above, p, hf⟩ := h.frames
  unfold Execution.enter
  split
  · exact of_running (p := p) (⟨u, 0⟩ :: above) (by simp [Advance.quiet, hf]) rfl
  · exact h

theorem abort (error : RunError) : (e.abort error).execution.Inside t lower := by
  unfold Execution.abort
  split
  · exact h
  · refine ⟨h.frames, fun o ho => ?_⟩
    cases ho
    exact .inr (.inr ⟨error, rfl⟩)

/-- **An event stays inside, or it is the step that returns.** -/
theorem meet (x : Event) (hr : ¬ ((∃ around, x = .step around) ∧ e.Returns t lower)) :
    (e.meet x).execution.Inside t lower := by
  cases x with
  | step around =>
    by_cases hs : e.state = .running
    · rw [meet_step hs]
      exact h.step hs fun hreturns => hr ⟨⟨around, rfl⟩, hreturns⟩
    · show (e.advance around.store around.facts 1).execution.Inside t lower
      rw [advance_of_ne_running hs]
      exact h
  | deliver line => exact h.deliver line
  | enter u => exact h.enter u
  | abort error => exact h.abort error

/-- The next event returns just where it is a step from the end of the template or from an exit. -/
theorem length_meet_le_iff (hl : lower ≠ []) (x : Event) :
    (e.meet x).execution.frames.length ≤ lower.length ↔
      (∃ around, x = .step around) ∧ e.Returns t lower := by
  refine ⟨fun hle => ?_, ?_⟩
  · by_contra hr
    exact absurd (h.meet x hr).length_lt (Nat.not_lt.mpr hle)
  · rintro ⟨⟨around, rfl⟩, hreturns⟩
    rw [meet_step hreturns.1, hreturns.step hl]
    exact Nat.le_refl _

/-- **A run stays inside for as long as there is a template above the lower ones.** -/
theorem meets (hl : lower ≠ []) (events : List Event)
    (hdeep : ∀ earlier, earlier <+: events →
      lower.length < (e.meets earlier).execution.frames.length) :
    (e.meets events).execution.Inside t lower := by
  induction events generalizing e with
  | nil => exact h
  | cons x rest ih =>
    have hfirst : lower.length < (e.meet x).execution.frames.length :=
      hdeep [x] ⟨rest, rfl⟩
    have hinside := h.meet x fun hr =>
      Nat.not_le.mpr hfirst ((h.length_meet_le_iff hl x).mpr hr)
    exact ih hinside fun earlier hearlier =>
      hdeep (x :: earlier) (List.cons_prefix_cons.mpr ⟨rfl, hearlier⟩)

end Inside

/-! ### Calling -/

/-- What happens from an include of a name until a template is entered: the store has one, or one is
handed to the run that waits for it. Lines that come and steps tried in the meantime do nothing. -/
inductive Enters (name : String) (t : Template) : List Event → Prop where
  | found {around : Circumstances} (h : around.store.lookup? name = some t) :
      Enters name t [.step around]
  | handed {around : Circumstances} {meanwhile : List Event} (h : around.store.lookup? name = none)
      (hm : ∀ x ∈ meanwhile, (∃ around, x = .step around) ∨ ∃ line, x = .deliver line) :
      Enters name t (.step around :: (meanwhile ++ [.enter t]))

/-- Nothing that comes while a run waits for a template changes it, but a template. -/
theorem meets_of_including {name : String} (hs : e.state = .including name) {events : List Event}
    (h : ∀ x ∈ events, (∃ around, x = .step around) ∨ ∃ line, x = .deliver line) :
    (e.meets events).execution = e := by
  induction events with
  | nil => rfl
  | cons x rest ih =>
    have hx : (e.meet x).execution = e := by
      rcases h x List.mem_cons_self with ⟨around, rfl⟩ | ⟨line, rfl⟩
      · show (e.advance around.store around.facts 1).execution = e
        rw [advance_of_ne_running (by rw [hs]; exact fun hr => by cases hr)]
        rfl
      · show (e.deliver line).execution = e
        rw [Execution.deliver, hs]
    show ((e.meet x).execution.meets rest).execution = e
    rw [hx]
    exact ih fun y hy => h y (List.mem_cons_of_mem _ hy)

section

variable {i : Instruction} (hf : e.frames = f :: below)
  (hi : f.template.at? f.position = some i) (hk : i.kind = .includes) (ho : e.hidden = false)
  (hd : e.frames.length < includeLimit)
include hf hi hk ho hd

theorem step_of_missing (facts : Facts) (hn : store.lookup? (i.arg 0) = none) :
    e.step store facts =
      .quiet { e with frames := f.next :: below, state := .including (i.arg 0) } := by
  have hmove : i.move? = some (.call (i.arg 0)) := by
    simp only [Instruction.move?, hk]
  have hasked : e.includeNamed store (i.arg 0) =
      .ok (.quiet { e with frames := f.next :: below, state := .including (i.arg 0) }) := by
    unfold includeNamed
    rw [if_neg (Nat.not_le.mpr hd), hn, next_of_frames hf]
    rfl
  exact step_of_move? hf hi ho hmove hasked

/-- Found or handed over, the template is entered above the one that includes it, which has been
moved on. -/
theorem meets_of_enters (hs : e.state = .running) {call : List Event}
    (hcall : Enters (i.arg 0) t call) :
    (e.meets call).execution = { e with frames := ⟨t, 0⟩ :: f.next :: below } := by
  cases hcall with
  | @found around h =>
    show ((e.meet (.step around)).andThen _).execution = _
    rw [meet_step hs, step_of_includes _ hf hi hk ho hd h]
    rfl
  | @handed around meanwhile h hm =>
    have hasked := step_of_missing hf hi hk ho hd around.facts h
    have hwaits := meets_of_including
      (e := { e with frames := f.next :: below, state := .including (i.arg 0) }) rfl hm
    show ((e.meet (.step around)).execution.meets (meanwhile ++ [.enter t])).execution = _
    rw [meet_step hs, hasked, Advance.quiet, meets_append, Advance.execution_andThen, hwaits]
    show { e with frames := ⟨t, 0⟩ :: f.next :: below, state := .running } = _
    rw [← hs]

end

/-- **Calls and returns.** Let a run be at an include that enters a template, at once or when the
template is handed to it. Then for as long as more templates are stacked than at the include, the
run is inside of the template that was entered: those below stay as they are, the one that includes
it standing behind the include, and if the run has ended, it was by a word that ends the screen or
the call, or it was aborted. And whatever happens next, the stack is as low as at the include just
where a step leaves the template, at its end or at an exit, and then the run goes on behind the
include, on an open line, with everything else as the template left it. -/
theorem calls_and_returns {i : Instruction} {call : List Event} (hs : e.state = .running)
    (hf : e.frames = f :: below) (hi : f.template.at? f.position = some i)
    (hk : i.kind = .includes) (ho : e.hidden = false) (hd : e.frames.length < includeLimit)
    (hcall : Enters (i.arg 0) t call) :
    (e.meets call).execution = { e with frames := ⟨t, 0⟩ :: f.next :: below } ∧
      ∀ events e', (e.meets (call ++ events)).execution = e' →
        (∀ earlier, earlier <+: events →
          e.frames.length < (e.meets (call ++ earlier)).execution.frames.length) →
        e'.Inside t (f.next :: below) ∧
          ∀ x : Event, ((e'.meet x).execution.frames.length ≤ e.frames.length ↔
              (∃ around, x = .step around) ∧ e'.Returns t (f.next :: below)) ∧
            ((e'.meet x).execution.frames.length ≤ e.frames.length →
              e'.meet x = .quiet { e' with frames := f.next :: below, hidden := false }) := by
  have hentered := meets_of_enters hf hi hk ho hd hs hcall
  have hlength : e.frames.length = (f.next :: below).length := by simp [hf]
  have hl : f.next :: below ≠ [] := List.cons_ne_nil _ _
  refine ⟨hentered, fun events e' he' hdeep => ?_⟩
  simp only [meets_append, Advance.execution_andThen, hentered, hlength] at he' hdeep ⊢
  have hinside : Inside t (f.next :: below) { e with frames := ⟨t, 0⟩ :: f.next :: below } :=
    .of_running [] rfl hs
  have h : e'.Inside t (f.next :: below) := he' ▸ hinside.meets hl events hdeep
  refine ⟨h, fun x => ⟨h.length_meet_le_iff hl x, fun hle => ?_⟩⟩
  obtain ⟨⟨around, rfl⟩, hreturns⟩ := (h.length_meet_le_iff hl x).mp hle
  rw [meet_step hreturns.1]
  exact hreturns.step hl

/-- A template that includes another. -/
def including : Template :=
  .of "t" "[include name]Bye" [⟨.includes, ["name"], "include"⟩, .literal "Bye"]

/-- One that asks for a line and exits. -/
def askingForName : Template :=
  .of "name" "[readln][exit]?"
    [⟨.prompt .readLine, [], "readln"⟩, ⟨.halt .exit, [], "exit"⟩, .literal "?"]

/-- Circumstances with nothing in them. -/
def nowhere : Circumstances := ⟨.empty none, Facts.empty⟩

/-- It is asked for, a line comes too early, and it is handed to the run. -/
def handingOver : List Event := [.step nowhere, .deliver "?", .enter askingForName]

/-- It asks for a line and is given one. -/
def answeringIt : List Event := [.step nowhere, .deliver "Ada"]

/-- The run comes back from its exit with the line that was given. -/
theorem calls_and_returns_asking :
    (start including .utf8).state = .running ∧
      (start including .utf8).frames = [⟨including, 0⟩] ∧
      including.at? 0 = some ⟨.includes, ["name"], "include"⟩ ∧
      (start including .utf8).hidden = false ∧
      (start including .utf8).frames.length < includeLimit ∧
      Enters "name" askingForName handingOver ∧
      (∀ earlier, earlier <+: answeringIt →
        1 < ((start including .utf8).meets (handingOver ++ earlier)).execution.frames.length) ∧
      ((start including .utf8).meets (handingOver ++ answeringIt)).execution.meet (.step nowhere) =
        .quiet { start including .utf8 with
          frames := [⟨including, 1⟩], response := some "Ada" } := by
  have hcall : Enters "name" askingForName
      (.step nowhere :: ([.deliver "?"] ++ [.enter askingForName])) :=
    .handed rfl fun x hx => .inr ⟨"?", List.mem_singleton.mp hx⟩
  have hdeep : ∀ earlier, earlier <+: answeringIt →
      1 < ((start including .utf8).meets (handingOver ++ earlier)).execution.frames.length := by
    have hall : ∀ earlier ∈ answeringIt.inits,
        1 < ((start including .utf8).meets (handingOver ++ earlier)).execution.frames.length := by
      decide
    exact fun earlier hearlier => hall earlier ((List.mem_inits _ _).mpr hearlier)
  obtain ⟨-, hlater⟩ := calls_and_returns (e := start including .utf8) (f := ⟨including, 0⟩)
    (i := ⟨.includes, ["name"], "include"⟩) rfl rfl rfl rfl rfl (by decide) hcall
  obtain ⟨-, hnext⟩ := hlater _ _ rfl hdeep
  refine ⟨rfl, rfl, rfl, rfl, by decide, hcall, hdeep, ?_⟩
  exact ((hnext (.step nowhere)).2 (by decide)).trans (by decide)

end Execution

end BulletinBoard
