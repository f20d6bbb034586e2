/-
# A snippet that is included, and one that is written out

A snippet is a template whose instructions stay on one line and go nowhere but on. To include it is
to write it out: a run of a template shows the same as a run of the template with the snippet's
instructions in the place of every include (`Template.shows_iff_inlined`).

The two runs stand at corresponding places (`Spliced`): outside of the snippet at an instruction and
where it stands in the other template, or inside of it, the one with the snippet on top of the
template and the other at the instruction that took the include's place. Entering and leaving the
snippet takes the one run a step and the other none; passing over an include on a hidden line takes
the other run as many steps as the snippet is long. In between, the instructions of the snippet do
the same wherever they stand (`Execution.step_of_snippet`).

Key definitions: `Instruction.OfSnippet`, `Instruction.effect`, `Spliced`, `InStep`, `Round`.
Key theorems: `Execution.step_of_snippet`, `InStep.round`, `InStep.follows`,
`Template.shows_iff_inlined`.
-/
import BulletinBoard.Proofs.Run.Budget
import BulletinBoard.Proofs.Run.HiddenText
import BulletinBoard.Proofs.Run.Lookups
import BulletinBoard.Proofs.Template.Splice

namespace BulletinBoard

open Text Template

/-! ### Instructions of a snippet -/

/-- What an instruction does with a run, but for where it stands. -/
structure Effect where
  registers : Registers
  state : RunState
  sent : List Emission

/-- The run after that: behind the instruction, unless it has ended. -/
def Effect.apply (x : Effect) (e : Execution) : Execution :=
  match x.state with
  | .finished o => { e.remember x.registers with state := .finished o }
  | state => { (e.remember x.registers).next with state }

namespace Template.Instruction

/-- The instruction may stand in a snippet: it stays on the line, hides nothing, and goes nowhere
but on, to the caller, or to the end of the run. -/
structure OfSnippet (i : Instruction) : Prop extends IsInline i where
  includes : i.kind ≠ .includes
  branches : ¬ i.Branches
  top : i.kind ≠ .top
  exit : i.kind ≠ .halt .exit
  gate : ¬ i.IsGate

/-- What an instruction of a snippet does. -/
def effect (facts : Facts) (r : Registers) (answer : Option String) (i : Instruction) : Effect :=
  match i.deed facts "" r answer with
  | .ok (.send r' sent _) => ⟨r', .running, sent⟩
  | .ok (.wait w) => ⟨r, .suspended w, []⟩
  | .ok (.stop reason) => ⟨r, .finished (.halted reason), []⟩
  | _ => ⟨r, .running, []⟩

variable {facts : Facts} {name : String} {r : Registers} {answer : Option String} {i : Instruction}

/-- In which template an instruction stands shows in what it tells, if in anything. -/
theorem muted_deed (name name' : String) :
    (i.deed facts name r answer).map Deed.muted = (i.deed facts name' r answer).map Deed.muted := by
  unfold deed
  split <;> rfl

theorem Sends.hidden {r' : Registers} {sent : List Emission} {log : Log} (hg : ¬ i.IsGate)
    (h : i.Sends name r r' sent log) : r'.hidden = r.hidden := by
  cases h with
  | hides h => exact absurd h hg
  | _ => rfl

namespace OfSnippet

variable (h : i.OfSnippet)
include h

theorem move?_cases {d : Deed} (hm : i.move? = some d) :
    (∃ w, d = .wait w) ∨ ∃ reason, d = .stop reason := by
  unfold move? at hm
  split at hm
  · exact absurd (.inl ‹_›) h.branches
  · exact absurd (.inr ‹_›) h.branches
  · exact absurd ‹_› h.top
  · exact .inl ⟨_, (Option.some.inj hm).symm⟩
  · exact absurd ‹_› h.includes
  · exact absurd ‹_› h.exit
  · exact .inr ⟨_, (Option.some.inj hm).symm⟩
  · cases hm

theorem hidden_effect : (i.effect facts r answer).registers.hidden = r.hidden := by
  unfold effect
  split
  · rename_i hd
    exact (sends_of_deed hd).hidden h.gate
  all_goals rfl

omit h in
theorem state_effect (n : String) : (i.effect facts r answer).state ≠ .including n := by
  unfold effect
  split <;> simp

end OfSnippet

end Template.Instruction

namespace Execution

variable {store : Store} {facts : Facts} {e : Execution} {f : Frame} {below : List Frame}
  {i : Instruction}

theorem next_running (hr : e.state = .running) : e.next = { e.next with state := .running } := by
  rw [← hr, ← e.state_next]

/-- **An instruction of a snippet does the same wherever it stands.** -/
theorem step_of_snippet (store : Store) (facts : Facts) (hf : e.frames = f :: below)
    (hi : f.template.at? f.position = some i) (hr : e.state = .running) (ho : e.hidden = false)
    (h : i.OfSnippet) :
    (e.step store facts).sent = (i.effect facts e.registers e.response).sent ∧
      (e.step store facts).execution = (i.effect facts e.registers e.response).apply e := by
  have hsend {r : Registers} {sent : List Emission} {log log' : Log}
      (hd : i.deed facts f.template.name e.registers e.response = .ok (.send r sent log))
      (hd' : i.deed facts "" e.registers e.response = .ok (.send r sent log')) :
      (e.attempt store facts f i).sent = (i.effect facts e.registers e.response).sent ∧
        (e.attempt store facts f i).execution =
          (i.effect facts e.registers e.response).apply e := by
    rw [attempt_of_ok hf (perform_of_deed hd)]
    unfold Instruction.effect
    rw [hd']
    have hrunning : (e.remember r).state = .running := hr
    exact ⟨rfl, next_running hrunning⟩
  rw [step_of_open hf hi ho]
  rcases Deed.muted_cases (Instruction.muted_deed f.template.name "") with
    ⟨fault, hd, hd'⟩ | ⟨r, sent, log, log', hd, hd'⟩ | ⟨d, hd, hd'⟩
  · rw [attempt_of_error hf (perform_of_fault hd)]
    unfold Instruction.effect
    rw [hd']
    exact ⟨rfl, next_running hr⟩
  · exact hsend hd hd'
  rcases Instruction.deed_cases hd with ⟨r, sent, log, rfl, -⟩ | hm
  · exact hsend hd hd'
  rcases h.move?_cases hm with ⟨w, rfl⟩ | ⟨reason, rfl⟩
  all_goals
    rw [attempt_of_ok hf (perform_of_deed hd)]
    unfold Instruction.effect
    rw [hd']
    exact ⟨rfl, rfl⟩

/-! ### Steps that include nothing -/

/-- The run is not at an instruction that includes a template. -/
def IncludesNothing (e : Execution) : Prop :=
  ∀ f ∈ e.frames.head?, ∀ i, f.template.at? f.position = some i → i.kind ≠ .includes

theorem not_includesNothing (h : ¬ e.IncludesNothing) :
    ∃ f ∈ e.frames.head?, ∃ i, f.template.at? f.position = some i ∧ i.kind = .includes := by
  unfold IncludesNothing at h
  push Not at h
  exact h

namespace IncludesNothing

variable (h : e.IncludesNothing)
include h

theorem seeks?_eq_none : e.seeks? = none := by
  unfold seeks?
  split
  · rfl
  rename_i f below hf
  split
  · rfl
  rename_i i hi
  have hk : i.kind ≠ .includes := h f (by rw [hf]; rfl) i hi
  rw [if_neg fun hall => hk hall.1]

theorem step_eq (store₁ store₂ : Store) : e.step store₁ facts = e.step store₂ facts := by
  apply step_of_lookups
  rw [h.seeks?_eq_none]
  intro name hname
  cases hname

/-- No template is put on top of the others, and none is waited for. -/
theorem step_stays (hr : e.state = .running) (store : Store) (facts : Facts) :
    (e.step store facts).execution.frames.length ≤ e.frames.length ∧
      ∀ name, (e.step store facts).execution.state ≠ .including name := by
  have hnone {f : Frame} {below : List Frame} {i : Instruction} (hf : e.frames = f :: below)
      (hi : f.template.at? f.position = some i) : i.kind ≠ .includes := h f (by rw [hf]; rfl) i hi
  have hstep := e.stepsTo_step store facts
  generalize e.step store facts = a at hstep ⊢
  cases hstep with
  | ended => exact ⟨Nat.le_refl _, by simp [finish]⟩
  | @left f below o hf =>
    refine ⟨?_, fun name => ?_⟩
    · unfold leave
      dsimp only
      split <;> simp [finish, Advance.quiet]
    · rcases e.state_leave o with hs | hs <;> simp [hs, hr]
  | passed hf hi r =>
    have hs : (e.remember r).next.state = .running := (e.remember r).state_next.trans hr
    refine ⟨?_, fun name hname => ?_⟩
    · rw [length_frames_next]
      exact Nat.le_refl _
    · cases hs.symm.trans hname
  | moved => exact ⟨by simp [Advance.quiet], by simp [Advance.quiet, hr]⟩
  | called hf hi _ hk => exact absurd hk (hnone hf hi)
  | asked hf hi _ hk => exact absurd hk (hnone hf hi)
  | waited => exact ⟨by simp [Advance.quiet], by simp [Advance.quiet]⟩
  | halted => exact ⟨Nat.le_refl _, by simp [finish]⟩
  | lost => exact ⟨Nat.le_refl _, by simp [finish]⟩

end IncludesNothing

end Execution

/-! ### Corresponding places -/

section

variable (t snippet : Template) (source : String)

/-- Outside of the snippet: at an instruction of the template and where it stands when the snippet
is written out. -/
def Outside (f g : Frame) : Prop :=
  ∃ p, f = ⟨t, p⟩ ∧ g = ⟨t.inlined snippet source, t.shifted snippet p⟩

/-- Where two runs stand that did the same, on a line that is hidden or not. -/
inductive Spliced : Bool → List Frame → List Frame → Prop where
  | outside {hidden : Bool} {fs gs : List Frame}
    (hfs : List.Forall₂ (Outside t snippet source) fs gs) (hd : fs.length ≤ 1) :
    Spliced hidden fs gs
  /-- Inside of the snippet, which stands on the template in the one run and in the place of the
  include in the other. -/
  | inside {p k : Nat} {i : Instruction} (hi : t.at? p = some i) (hk : i.kind = .includes)
    (hle : k ≤ snippet.size) :
    Spliced false [⟨snippet, k⟩, ⟨t, p + 1⟩]
      [⟨t.inlined snippet source, t.shifted snippet p + k⟩]

/-- Two runs that did the same: they stand at corresponding places, are equal in all else, and wait
for no template. -/
def InStep (e₁ e₂ : Execution) : Prop :=
  (∀ name, e₁.state ≠ .including name) ∧
    ∃ frames, Spliced t snippet source e₁.hidden e₁.frames frames ∧ e₂ = { e₁ with frames }

end

/-- How much of the template is ahead of a run, inside and outside of the snippet. -/
def toGo (e : Execution) : Nat :=
  match e.frames with
  | [f] => 2 * (f.template.size - f.position)
  | [_, g] => 2 * (g.template.size - g.position) + 1
  | _ => 0

/-- A step of one run and so many steps of the other, that keep them in step. If the other makes
none, the one comes closer to the end of the template. -/
structure Round (t snippet : Template) (source : String) (store : Store) (facts : Facts)
    (e₁ e₂ : Execution) (k : Nat) : Prop where
  sent : (e₁.step store facts).sent = (e₂.advance store facts k).sent
  inStep : InStep t snippet source (e₁.step store facts).execution
    (e₂.advance store facts k).execution
  progress : 0 < k ∨ (e₁.step store facts).execution.state = .running ∧
    toGo (e₁.step store facts).execution < toGo e₁

section

variable {t snippet : Template} {source : String} {store : Store} {facts : Facts}

/-! ### Outside of the snippet -/

theorem corresponds_outside (hs : ∀ i ∈ snippet.instructions, i.OfSnippet) :
    Corresponds (Outside t snippet source) (.empty none) (.empty none) := by
  refine ⟨?_, ?_, ?_, fun name => .none⟩
  · rintro f g ⟨p, rfl, rfl⟩
    rfl
  · rintro f g ⟨p, rfl, rfl⟩ name
    rw [label?_inlined (fun i hi => (hs i hi).label) name]
    cases t.label? name with
    | none => exact .none
    | some q => exact .some ⟨q, rfl, rfl⟩
  · rintro f g ⟨p, rfl, rfl⟩
    exact ⟨0, rfl, rfl⟩

/-- Away from includes, frames outside of the snippet are abreast. -/
theorem abreast_outside {f g : Frame} (h : Outside t snippet source f g)
    (hn : ∀ i, f.template.at? f.position = some i → i.kind ≠ .includes) :
    Abreast (Outside t snippet source) f g := by
  obtain ⟨p, rfl, rfl⟩ := h
  cases hi : t.at? p with
  | none =>
    refine ⟨hi.trans (at?_inlined_of_none hi).symm, fun hsome => ?_⟩
    rw [hi] at hsome
    cases hsome
  | some i =>
    have hk : i.kind ≠ .includes := hn i hi
    refine ⟨hi.trans (at?_inlined_of_ne hi hk).symm, fun _ => ⟨p + 1, rfl, ?_⟩⟩
    rw [shifted_succ hi, splice_of_ne hk]
    rfl

theorem kind_inlined (hs : ∀ i ∈ snippet.instructions, i.OfSnippet) {q : Nat} {i : Instruction}
    (hi : (t.inlined snippet source).at? q = some i) : i.kind ≠ .includes := by
  have hmem : i ∈ t.instructions.flatMap snippet.splice := List.mem_of_getElem? hi
  obtain ⟨j, -, hij⟩ := List.mem_flatMap.mp hmem
  by_cases hk : j.kind = .includes
  · rw [splice_of_includes hk] at hij
    exact (hs i hij).includes
  · rw [splice_of_ne hk] at hij
    cases List.mem_singleton.mp hij
    exact hk

/-- Away from includes, both runs make one step. -/
theorem round_outside (hs : ∀ i ∈ snippet.instructions, i.OfSnippet) {e : Execution}
    {gs : List Frame} (hfs : List.Forall₂ (Outside t snippet source) e.frames gs)
    (hd : e.frames.length ≤ 1) (hr : e.state = .running) (hn : e.IncludesNothing) :
    Round t snippet source store facts e { e with frames := gs } 1 := by
  let e' : Execution := { e with frames := gs }
  have hn' : e'.IncludesNothing := by
    intro g hg i hi
    obtain ⟨rest, rfl⟩ := List.head?_eq_some_iff.mp hg
    obtain ⟨f, -, ⟨p, -, rfl⟩, -⟩ := List.forall₂_cons_right_iff.mp hfs
    exact kind_inlined hs hi
  have halike : e.Alike (Outside t snippet source) e' := ⟨gs, hfs, rfl⟩
  have hr' : e'.state = .running := hr
  have hone : e'.advance store facts 1 = e'.step (.empty none) facts :=
    (Execution.advance_one hr').trans (hn'.step_eq _ _)
  have hstep : (e.step store facts).Alike (Outside t snippet source)
      (e'.advance store facts 1) := by
    rw [hone, hn.step_eq store (.empty none)]
    -- neither run looks into the store here, so both may be taken over an empty one
    exact halike.step (corresponds_outside hs) fun f hf g hg =>
      abreast_outside (halike.head f hf g hg) (hn f hf)
  obtain ⟨hsent, frames, hframes, he⟩ := hstep
  obtain ⟨hlength, hstate⟩ := hn.step_stays hr store facts
  exact ⟨hsent, ⟨hstate, frames, .outside hframes (hlength.trans hd), he⟩, .inl Nat.one_pos⟩

/-! ### At an include -/

theorem Execution.step_of_includes {e : Execution} {f : Frame} {below : List Frame}
    {i : Instruction} {u : Template} (facts : Facts) (hf : e.frames = f :: below)
    (hi : f.template.at? f.position = some i) (hk : i.kind = .includes) (ho : e.hidden = false)
    (hd : e.frames.length < includeLimit) (hu : store.lookup? (i.arg 0) = some u) :
    e.step store facts = .quiet { e with frames := ⟨u, 0⟩ :: f.next :: below } := by
  have hmove : i.move? = some (.call (i.arg 0)) := by
    simp only [Instruction.move?, hk]
  have hincluded : e.includeNamed store (i.arg 0) =
      .ok (.quiet { e with frames := ⟨u, 0⟩ :: f.next :: below }) := by
    unfold Execution.includeNamed
    rw [if_neg (Nat.not_le.mpr hd), hu, Execution.next_of_frames hf]
    rfl
  exact Execution.step_of_move? hf hi ho hmove hincluded

theorem outside_behind {p : Nat} {i : Instruction} (hi : t.at? p = some i)
    (hk : i.kind = .includes) : Outside t snippet source ⟨t, p + 1⟩
      ⟨t.inlined snippet source, t.shifted snippet p + snippet.size⟩ := by
  refine ⟨p + 1, rfl, ?_⟩
  rw [shifted_succ hi, splice_of_includes hk]
  rfl

section

variable {e : Execution} {p : Nat} {i : Instruction} (hf : e.frames = [⟨t, p⟩])
  (hi : t.at? p = some i) (hk : i.kind = .includes) (hr : e.state = .running)
include hf hi hk hr

/-- On an open line the snippet is entered, while the other run stays where it is. -/
theorem round_enter (ho : e.hidden = false) (hu : store.lookup? (i.arg 0) = some snippet) :
    Round t snippet source store facts e
      { e with frames := [⟨t.inlined snippet source, t.shifted snippet p⟩] } 0 := by
  have hlt : p < t.size := Frame.position_lt (f := ⟨t, p⟩) hi
  have hroom : e.frames.length < includeLimit := by
    rw [hf]
    exact (by decide : 1 < includeLimit)
  have hstep : e.step store facts = .quiet { e with frames := [⟨snippet, 0⟩, ⟨t, p + 1⟩] } :=
    Execution.step_of_includes facts hf hi hk ho hroom hu
  refine ⟨?_, ?_, .inr ?_⟩ <;> rw [hstep]
  · rfl
  · refine ⟨by simp [Advance.quiet, hr], _, ?_, rfl⟩
    show Spliced t snippet source e.hidden _ _
    rw [ho]
    exact .inside hi hk (Nat.zero_le _)
  · refine ⟨hr, ?_⟩
    simp only [toGo, Advance.quiet, hf]
    omega

/-- On a hidden line the include is passed over, and so is what takes its place. -/
theorem round_pass (hs : ∀ j ∈ snippet.instructions, j.OfSnippet) (hh : e.hidden = true) :
    Round t snippet source store facts e
      { e with frames := [⟨t.inlined snippet source, t.shifted snippet p⟩] } snippet.size := by
  let e' : Execution := { e with frames := [⟨t.inlined snippet source, t.shifted snippet p⟩] }
  have hlt : p < t.size := Frame.position_lt (f := ⟨t, p⟩) hi
  have hinline : i.IsInline := ⟨by simp [hk], by simp [hk], by simp [hk]⟩
  have hstep : e.step store facts = .quiet { e with frames := [⟨t, p + 1⟩] } := by
    rw [Execution.step_of_isInline hf hi hh hinline, Execution.next_of_frames hf]
  have hplace : ∀ k < snippet.size, ∃ j,
      (t.inlined snippet source).at? (t.shifted snippet p + k) = some j ∧ j.IsInline := by
    intro k hk'
    have hj : snippet.at? k = some snippet.instructions[k] := List.getElem?_eq_getElem hk'
    have hof : snippet.instructions[k].OfSnippet := hs _ (List.getElem_mem hk')
    exact ⟨_, (at?_inlined_of_includes hi hk hk').trans hj, hof.toIsInline⟩
  have hr' : e'.state = .running := hr
  have hh' : e'.hidden = true := hh
  obtain ⟨hsent, hrun⟩ := Execution.advance_inline store facts snippet.size hr' hh' rfl hplace
  have hplaces : Outside t snippet source ⟨t, p + 1⟩
      ⟨t.inlined snippet source, t.shifted snippet p + snippet.size⟩ := outside_behind hi hk
  refine ⟨?_, ?_, ?_⟩
  · rw [hstep]
    exact hsent.symm
  · rw [hstep]
    show InStep t snippet source _ (e'.advance store facts snippet.size).execution
    rw [hrun]
    exact ⟨by simp [Advance.quiet, hr], _, .outside (.cons hplaces .nil) (Nat.le_refl 1), rfl⟩
  · rcases Nat.eq_zero_or_pos snippet.size with hzero | hpos
    · refine .inr ?_
      rw [hstep]
      refine ⟨hr, ?_⟩
      simp only [toGo, Advance.quiet, hf]
      omega
    · exact .inl hpos

end

/-! ### Inside of the snippet -/

/-- What an instruction of the snippet does keeps the runs in step. -/
theorem inStep_apply {e : Execution} {p k : Nat} {i : Instruction}
    (hf : e.frames = [⟨snippet, k⟩, ⟨t, p + 1⟩]) (hi : t.at? p = some i)
    (hk : i.kind = .includes) (hlt : k < snippet.size) {x : Effect}
    (hh : x.registers.hidden = false) (hx : ∀ name, x.state ≠ .including name) :
    InStep t snippet source (x.apply e)
      (x.apply { e with frames := [⟨t.inlined snippet source, t.shifted snippet p + k⟩] }) := by
  obtain ⟨frames, charset, state, color, saved, response, hidden⟩ := e
  obtain ⟨⟨color', saved', hidden'⟩, state', sent⟩ := x
  obtain rfl : frames = _ := hf
  obtain rfl : hidden' = false := hh
  cases state' with
  | including name => exact absurd rfl (hx name)
  | finished o => exact ⟨hx, _, .inside hi hk (Nat.le_of_lt hlt), rfl⟩
  | running => exact ⟨hx, _, .inside hi hk hlt, rfl⟩
  | suspended w => exact ⟨hx, _, .inside hi hk hlt, rfl⟩

section

variable {e : Execution} {p k : Nat} {i : Instruction} (hf : e.frames = [⟨snippet, k⟩, ⟨t, p + 1⟩])
  (hi : t.at? p = some i) (hk : i.kind = .includes) (hr : e.state = .running)
  (ho : e.hidden = false)
include hf hi hk hr ho

/-- Both runs carry out the same instruction of the snippet. -/
theorem round_inside (hs : ∀ j ∈ snippet.instructions, j.OfSnippet) (hlt : k < snippet.size) :
    Round t snippet source store facts e
      { e with frames := [⟨t.inlined snippet source, t.shifted snippet p + k⟩] } 1 := by
  let e' : Execution :=
    { e with frames := [⟨t.inlined snippet source, t.shifted snippet p + k⟩] }
  obtain ⟨j, hj, hof⟩ : ∃ j, snippet.at? k = some j ∧ j.OfSnippet :=
    ⟨_, List.getElem?_eq_getElem hlt, hs _ (List.getElem_mem hlt)⟩
  have hj' : (t.inlined snippet source).at? (t.shifted snippet p + k) = some j :=
    (at?_inlined_of_includes hi hk hlt).trans hj
  obtain ⟨hsent, hrun⟩ := Execution.step_of_snippet store facts hf hj hr ho hof
  obtain ⟨hsent', hrun'⟩ := Execution.step_of_snippet (e := e') store facts rfl hj' hr ho hof
  have hone : e'.advance store facts 1 = e'.step store facts := Execution.advance_one hr
  have hhidden : (j.effect facts e.registers e.response).registers.hidden = false :=
    hof.hidden_effect.trans ho
  refine ⟨?_, ?_, .inl Nat.one_pos⟩
  · show _ = (e'.advance store facts 1).sent
    rw [hone, hsent, hsent']
    rfl
  · show InStep t snippet source _ (e'.advance store facts 1).execution
    rw [hone, hrun, hrun']
    exact inStep_apply hf hi hk hlt hhidden Instruction.OfSnippet.state_effect

/-- At the end of the snippet it is left, while the other run stays where it is. -/
theorem round_leave (hend : k = snippet.size) :
    Round t snippet source store facts e
      { e with frames := [⟨t.inlined snippet source, t.shifted snippet p + k⟩] } 0 := by
  have hnone : snippet.at? k = none := List.getElem?_eq_none (Nat.le_of_eq hend.symm)
  have hstep : e.step store facts = .quiet { e with frames := [⟨t, p + 1⟩] } := by
    rw [Execution.step_of_none hf hnone]
    unfold Execution.leave
    rw [hf, ← ho]
    rfl
  have hplaces : Outside t snippet source ⟨t, p + 1⟩
      ⟨t.inlined snippet source, t.shifted snippet p + k⟩ := hend ▸ outside_behind hi hk
  refine ⟨?_, ?_, .inr ?_⟩ <;> rw [hstep]
  · rfl
  · exact ⟨by simp [Advance.quiet, hr], _, .outside (.cons hplaces .nil) (Nat.le_refl 1), rfl⟩
  · refine ⟨hr, ?_⟩
    simp only [toGo, Advance.quiet, hf]
    omega

end

/-! ### Both runs -/

/-- The instructions of the snippet may stand in one, and it is what all includes of the template
find. -/
structure Includes (store : Store) (t snippet : Template) : Prop where
  ofSnippet : ∀ i ∈ snippet.instructions, i.OfSnippet
  found : ∀ i ∈ t.instructions, i.kind = .includes → store.lookup? (i.arg 0) = some snippet

namespace InStep

variable {e₁ e₂ : Execution} (h : InStep t snippet source e₁ e₂)
include h

theorem state : e₁.state = e₂.state := by
  obtain ⟨-, frames, -, rfl⟩ := h
  rfl

theorem charset : e₁.charset = e₂.charset := by
  obtain ⟨-, frames, -, rfl⟩ := h
  rfl

theorem response : e₁.response = e₂.response := by
  obtain ⟨-, frames, -, rfl⟩ := h
  rfl

theorem give (x : Answer) : InStep t snippet source (x.give e₁) (x.give e₂) := by
  obtain ⟨hstate, frames, hframes, rfl⟩ := h
  obtain ⟨frames₁, charset, state, color, saved, response, hidden⟩ := e₁
  cases x with
  | line text =>
    show InStep t snippet source (Execution.deliver _ text).execution
      (Execution.deliver _ text).execution
    unfold Execution.deliver
    cases state with
    | suspended w =>
      dsimp only
      cases Execution.answer w response (trimLineEnd text) with
      | none => exact ⟨hstate, frames, hframes, rfl⟩
      | some answer => exact ⟨by simp [Advance.quiet], frames, hframes, rfl⟩
    | _ => exact ⟨hstate, frames, hframes, rfl⟩
  | template u =>
    show InStep t snippet source (Execution.enter _ u).execution (Execution.enter _ u).execution
    unfold Execution.enter
    cases state with
    | including name => exact absurd rfl (hstate name)
    | _ => exact ⟨hstate, frames, hframes, rfl⟩
  | abort error =>
    show InStep t snippet source (Execution.abort _ error).execution
      (Execution.abort _ error).execution
    unfold Execution.abort
    cases state with
    | finished o => exact ⟨hstate, frames, hframes, rfl⟩
    | _ => exact ⟨by simp [Execution.finish], frames, hframes, rfl⟩

/-- **Runs that are in step stay so**: a step of the one goes with some steps of the other. -/
theorem round (hi : Includes store t snippet) (facts : Facts) (hr : e₁.state = .running) :
    ∃ k, Round t snippet source store facts e₁ e₂ k := by
  obtain ⟨-, frames, hframes, he⟩ := h
  generalize hf : e₁.frames = frames₁ at hframes
  generalize hh : e₁.hidden = hidden at hframes
  rw [he]
  cases hframes with
  | outside hfs hd =>
    by_cases hn : e₁.IncludesNothing
    · exact ⟨1, round_outside hi.ofSnippet (hf ▸ hfs) (hf ▸ hd) hr hn⟩
    · -- the one run is at an include, and there is nothing below
      obtain ⟨f, hhead, i, hat, hk⟩ := Execution.not_includesNothing hn
      obtain ⟨below, rfl⟩ : ∃ below, frames₁ = f :: below := by
        rw [hf] at hhead
        exact List.head?_eq_some_iff.mp hhead
      obtain rfl : below = [] := by
        rw [List.length_cons] at hd
        exact List.eq_nil_of_length_eq_zero (by omega)
      cases hfs with
      | cons hfg hrest =>
        cases hrest
        obtain ⟨p, rfl, rfl⟩ := hfg
        cases hidden with
        | true => exact ⟨_, round_pass hf hat hk hr hi.ofSnippet hh⟩
        | false =>
          have hfound := hi.found i (List.mem_of_getElem? hat) hk
          exact ⟨0, round_enter hf hat hk hr hh hfound⟩
  | @inside p k i hat hk hle =>
    rcases Nat.lt_or_eq_of_le hle with hlt | hend
    · exact ⟨1, round_inside hf hat hk hr hh hi.ofSnippet hlt⟩
    · exact ⟨0, round_leave hf hat hk hr hh hend⟩

theorem steps (hi : Includes store t snippet) (hr : e₁.state = .running) :
    ∃ k₁ k₂, 0 < k₁ ∧ 0 < k₂ ∧
      (e₁.advance store facts k₁).sent = (e₂.advance store facts k₂).sent ∧
      InStep t snippet source (e₁.advance store facts k₁).execution
        (e₂.advance store facts k₂).execution := by
  -- a step that the other run leaves without an answer leaves less ahead, so there is an end to them
  induction hgo : toGo e₁ using Nat.strongRecOn generalizing e₁ e₂ with
  | ind go ih =>
    obtain ⟨k, hround⟩ := h.round hi facts hr
    have hone : e₁.advance store facts 1 = e₁.step store facts := Execution.advance_one hr
    rcases hround.progress with hpos | ⟨hrunning, hless⟩
    · exact ⟨1, k, Nat.one_pos, hpos, hone ▸ hround.sent, hone ▸ hround.inStep⟩
    · obtain ⟨k₁, k₂, hk₁, hk₂, hsent, hinStep⟩ := ih _ (hgo ▸ hless) hround.inStep hrunning rfl
      refine ⟨1 + k₁, k + k₂, by omega, by omega, ?_⟩
      rw [Execution.advance_add, Execution.advance_add, hone]
      exact ⟨congrArg₂ (· ++ ·) hround.sent hsent, hinStep⟩

omit h in
/-- A run can follow the run that includes the snippet, and the other way round. -/
theorem follows (hi : Includes store t snippet) :
    Follows (InStep t snippet source) Eq store store facts := by
  refine ⟨fun h => ⟨h.state, h.response⟩, fun h hr => ?_, fun h hx => hx ▸ h.give _⟩
  obtain ⟨k₁, k₂, hk₁, hk₂, hsent, hinStep⟩ := h.steps hi hr
  refine ⟨k₁, k₂, hk₁, hk₂, ?_, hinStep⟩
  rw [Advance.bytes, Advance.bytes, hsent, hinStep.charset]

end InStep

end

namespace Template

/-- **To include a snippet is to write it out.** Let all includes of a template find one snippet,
whose instructions stay on the line, hide nothing and go nowhere but on, to the caller or to the end
of the run. Then a run of the template shows the same as a run of the template with the snippet's
instructions in the place of every include, whatever the facts, the character set and the answers:
the same bytes, and the same state and answer after every call that does not yield. -/
theorem shows_iff_inlined {t snippet : Template} {store : Store}
    (hs : ∀ i ∈ snippet.instructions, i.OfSnippet)
    (ht : ∀ i ∈ t.instructions, i.kind = .includes → store.lookup? (i.arg 0) = some snippet)
    (source : String) (facts : Facts) (charset : Charset) (answers : List Answer)
    (seen : List Sight) :
    Shows store facts answers (.start t charset) seen ↔
      Shows store facts answers (.start (t.inlined snippet source) charset) seen := by
  have hstart : InStep t snippet source (.start t charset)
      (.start (t.inlined snippet source) charset) := by
    refine ⟨by simp [Execution.start], _, .outside (.cons ⟨0, rfl, rfl⟩ .nil) (Nat.le_refl 1), rfl⟩
  have hsame : List.Forall₂ Eq answers answers := List.forall₂_refl answers
  exact (InStep.follows ⟨hs, ht⟩).shows_iff hstart hsame

/-! ### A snippet that asks -/

/-- A snippet that asks for a line and sends it. -/
def askingSnippet : Template :=
  .of "ask" "?[readln][response]"
    [.literal "?", ⟨.prompt .readLine, [], "readln"⟩, ⟨.response, [], "response"⟩]

/-- A template that includes the snippet, then includes it on a line for experts, and goes back to
where it included it. -/
def askingTwice : Template :=
  .of "main" "[/again]Name[include ask]\n[expert][include ask]\n[goto again]"
    [.mark "again", .literal "Name", ⟨.includes, ["ask"], "include"⟩, .literal "\n",
    ⟨.factGate .expert, [], "expert"⟩, ⟨.includes, ["ask"], "include"⟩, .literal "\n",
    ⟨.goto, ["again"], "goto"⟩]

/-- What shows: the template asks, waits, sends the line it is given, and asks again. -/
def askedTwice : List Sight := [.byte 78, .byte 97, .byte 109, .byte 101, .byte 63,
  .call (.suspended .line) none, .call .running (some "x"), .byte 120, .byte 10, .byte 78,
  .byte 97, .byte 109, .byte 101, .byte 63, .call (.suspended .line) (some "x")]

/-- A novice who gives a line sees this, whether the snippet is included or written out. -/
theorem shows_iff_inlined_askingTwice :
    (∀ i ∈ askingSnippet.instructions, i.OfSnippet) ∧
      (∀ i ∈ askingTwice.instructions, i.kind = .includes →
        Store.lookup? ⟨[("ask", askingSnippet)], none⟩ (i.arg 0) = some askingSnippet) ∧
      Shows ⟨[("ask", askingSnippet)], none⟩ (Facts.empty.set .helpLevel "novice") [.line "x"]
        (.start askingTwice .utf8) askedTwice ∧
      Shows ⟨[("ask", askingSnippet)], none⟩ (Facts.empty.set .helpLevel "novice") [.line "x"]
        (.start (askingTwice.inlined askingSnippet
          "[/again]Name?[readln][response]\n[expert]?[readln][response]\n[goto again]") .utf8)
        askedTwice := by
  have hsnippet : ∀ i ∈ askingSnippet.instructions, i.OfSnippet := by
    intro i hi
    simp only [askingSnippet, instructions_of, List.mem_cons, List.not_mem_nil, or_false] at hi
    rcases hi with rfl | rfl | rfl
    all_goals
      refine ⟨⟨by decide, by decide, by decide⟩, by decide, by decide, by decide, by decide, ?_⟩
      rintro (⟨g, hg⟩ | ⟨g, hg⟩) <;> cases hg
  have hfound : ∀ i ∈ askingTwice.instructions, i.kind = .includes →
      Store.lookup? ⟨[("ask", askingSnippet)], none⟩ (i.arg 0) = some askingSnippet := by
    decide +kernel
  have hshows : Shows ⟨[("ask", askingSnippet)], none⟩ (Facts.empty.set .helpLevel "novice")
      [.line "x"] (.start askingTwice .utf8) askedTwice := ⟨2, [], rfl⟩
  exact ⟨hsnippet, hfound, hshows, (shows_iff_inlined hsnippet hfound _ _ _ _ _).mp hshows⟩

end Template

end BulletinBoard
