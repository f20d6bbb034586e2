/-
# Runs on corresponding stacks

Two runs whose stacks correspond frame by frame, by a relation `ρ`, and which are equal in all else.
If both stand at instructions that do the same, carrying them out sends the same from both and
leaves the stacks corresponding, as long as `ρ` holds from one position to the next and follows
labels, the way to the top, and the entries of the stores (`Alike.step_along`). The instructions may
tell the operator different things.

Key definitions: `Deed.muted`, `Instruction.ActsAs`, `Execution.Alike`, `Corresponds`, `Along`,
`Abreast`.
Key theorems: `Execution.Alike.step_along`, `Execution.Alike.step`.
-/
import BulletinBoard.Proofs.Run.Stepping
import Mathlib.Data.List.Forall2

namespace BulletinBoard

open Text Template

/-! ### Instructions that do the same -/

/-- The deed, without what it tells. -/
def Deed.muted : Deed → Deed
  | .send r sent _ => .send r sent .empty
  | d => d

/-- Two instructions that do the same but for what they tell: neither can be carried out, both send
the same, or both go the same way. -/
theorem Deed.muted_cases {d₁ d₂ : Except Fault Deed}
    (h : d₁.map Deed.muted = d₂.map Deed.muted) :
    (∃ fault, d₁ = .error fault ∧ d₂ = .error fault) ∨
      (∃ r sent log₁ log₂, d₁ = .ok (.send r sent log₁) ∧ d₂ = .ok (.send r sent log₂)) ∨
      ∃ d, d₁ = .ok d ∧ d₂ = .ok d := by
  cases d₁ with
  | error fault =>
    cases d₂ with
    | error => exact .inl ⟨fault, rfl, (congrArg Except.error (Except.error.inj h)).symm⟩
    | ok => cases h
  | ok d₁ =>
    cases d₂ with
    | error => cases h
    | ok d₂ =>
      have hmuted : d₁.muted = d₂.muted := Except.ok.inj h
      refine .inr ?_
      cases d₁ with
      | send r sent log₁ =>
        cases d₂ with
        | send =>
          cases hmuted
          exact .inl ⟨_, _, _, _, rfl, rfl⟩
        | _ => cases hmuted
      | _ =>
        cases d₂ with
        | send => cases hmuted
        | _ => exact .inr ⟨_, rfl, congrArg Except.ok hmuted.symm⟩

/-- Wherever they stand, two instructions do the same, on open lines and on hidden ones. They may
tell different things. -/
structure Template.Instruction.ActsAs (facts : Facts) (i j : Instruction) : Prop where
  deed : ∀ name r answer, (i.deed facts name r answer).map Deed.muted =
    (j.deed facts name r answer).map Deed.muted
  hide : ∀ e : Execution, e.hide i = e.hide j

theorem Template.Instruction.ActsAs.refl (facts : Facts) (i : Instruction) : i.ActsAs facts i :=
  ⟨fun _ _ _ => rfl, fun _ => rfl⟩

/-! ### Stacks that correspond -/

theorem rel_imp {α β : Type} {R S : α → β → Prop} (h : ∀ a b, R a b → S a b) {x : Option α}
    {y : Option β} (hr : Option.Rel R x y) : Option.Rel S x y := by
  cases hr with
  | none => exact .none
  | some hab => exact .some (h _ _ hab)

/-- The frame behind its instruction. -/
def Frame.next (f : Frame) : Frame := { f with position := f.position + 1 }

namespace Execution

/-- Two runs with stacks that correspond, and equal in all else. -/
def Alike (ρ : Frame → Frame → Prop) (e₁ e₂ : Execution) : Prop :=
  ∃ frames, List.Forall₂ ρ e₁.frames frames ∧ e₂ = { e₁ with frames }

end Execution

/-- Two operations that send the same and lead to runs on corresponding stacks. -/
def Advance.Alike (ρ : Frame → Frame → Prop) (a₁ a₂ : Advance) : Prop :=
  a₁.sent = a₂.sent ∧ a₁.execution.Alike ρ a₂.execution

theorem Advance.Alike.bytes {ρ : Frame → Frame → Prop} {a₁ a₂ : Advance} (h : a₁.Alike ρ a₂) :
    a₁.bytes = a₂.bytes := by
  obtain ⟨hsent, frames, -, he⟩ := h
  rw [Advance.bytes, Advance.bytes, hsent, he]

/-- The relation of frames goes along when runs with these stores jump and include. -/
structure Corresponds (ρ : Frame → Frame → Prop) (store₁ store₂ : Store) : Prop where
  name : ∀ {f₁ f₂}, ρ f₁ f₂ → f₁.template.name = f₂.template.name
  label : ∀ {f₁ f₂}, ρ f₁ f₂ → ∀ name, Option.Rel
    (fun p₁ p₂ => ρ { f₁ with position := p₁ } { f₂ with position := p₂ })
    (f₁.template.label? name) (f₂.template.label? name)
  top : ∀ {f₁ f₂}, ρ f₁ f₂ → ρ { f₁ with position := 0 } { f₂ with position := 0 }
  lookup : ∀ name, Option.Rel (fun t₁ t₂ => ρ ⟨t₁, 0⟩ ⟨t₂, 0⟩)
    (store₁.lookup? name) (store₂.lookup? name)

/-- Both frames stand at instructions that do the same, if at any, and correspond behind them. -/
def Along (facts : Facts) (ρ : Frame → Frame → Prop) (f₁ f₂ : Frame) : Prop :=
  Option.Rel (Instruction.ActsAs facts) (f₁.template.at? f₁.position)
      (f₂.template.at? f₂.position) ∧
    ((f₁.template.at? f₁.position).isSome → ρ f₁.next f₂.next)

/-- Both frames stand at the same instruction, if at any, and correspond behind it. -/
def Abreast (ρ : Frame → Frame → Prop) (f₁ f₂ : Frame) : Prop :=
  f₁.template.at? f₁.position = f₂.template.at? f₂.position ∧
    ((f₁.template.at? f₁.position).isSome → ρ f₁.next f₂.next)

theorem Abreast.along {ρ : Frame → Frame → Prop} {f₁ f₂ : Frame} (h : Abreast ρ f₁ f₂)
    (facts : Facts) : Along facts ρ f₁ f₂ := by
  refine ⟨?_, h.2⟩
  rw [← h.1]
  cases f₁.template.at? f₁.position with
  | none => exact .none
  | some i => exact .some (.refl facts i)

namespace Execution.Alike

variable {ρ : Frame → Frame → Prop} {store₁ store₂ : Store} {facts : Facts} {e₁ e₂ : Execution}

theorem state (h : e₁.Alike ρ e₂) : e₁.state = e₂.state := by
  obtain ⟨frames, -, rfl⟩ := h
  rfl

theorem response (h : e₁.Alike ρ e₂) : e₁.response = e₂.response := by
  obtain ⟨frames, -, rfl⟩ := h
  rfl

theorem head (h : e₁.Alike ρ e₂) :
    ∀ f₁ ∈ e₁.frames.head?, ∀ f₂ ∈ e₂.frames.head?, ρ f₁ f₂ := by
  obtain ⟨frames, hf, rfl⟩ := h
  generalize e₁.frames = frames₁ at hf ⊢
  intro f₁ h₁ f₂ h₂
  cases hf with
  | nil => cases h₁
  | cons hff _ =>
    cases h₁
    cases h₂
    exact hff

theorem finish (h : e₁.Alike ρ e₂) (o : Outcome) : (e₁.finish o).Alike ρ (e₂.finish o) := by
  obtain ⟨frames, hf, rfl⟩ := h
  exact ⟨rfl, frames, hf, rfl⟩

theorem leave (h : e₁.Alike ρ e₂) (o : Outcome) : (e₁.leave o).Alike ρ (e₂.leave o) := by
  obtain ⟨frames, hf, rfl⟩ := h
  unfold Execution.leave
  cases hf' : e₁.frames with
  | nil =>
    rw [hf'] at hf
    cases hf
    exact ⟨rfl, [], .nil, rfl⟩
  | cons f below =>
    rw [hf'] at hf
    cases hf with
    | cons _ hb =>
      cases hb with
      | nil => exact ⟨rfl, [], .nil, rfl⟩
      | cons hg hb => exact ⟨rfl, _, .cons hg hb, rfl⟩

/-! ### Operations out of steps -/

theorem deliver (h : e₁.Alike ρ e₂) (line : String) :
    (e₁.deliver line).execution.Alike ρ (e₂.deliver line).execution := by
  obtain ⟨frames, hf, rfl⟩ := h
  obtain ⟨frames₁, charset, state, color, saved, response, hidden⟩ := e₁
  unfold Execution.deliver
  cases state with
  | suspended w =>
    dsimp only
    cases answer w response (trimLineEnd line) <;> exact ⟨frames, hf, rfl⟩
  | _ => exact ⟨frames, hf, rfl⟩

theorem enter (h : e₁.Alike ρ e₂) {t₁ t₂ : Template} (ht : ρ ⟨t₁, 0⟩ ⟨t₂, 0⟩) :
    (e₁.enter t₁).execution.Alike ρ (e₂.enter t₂).execution := by
  obtain ⟨frames, hf, rfl⟩ := h
  obtain ⟨frames₁, charset, state, color, saved, response, hidden⟩ := e₁
  unfold Execution.enter
  cases state with
  | including name => exact ⟨_, .cons ht hf, rfl⟩
  | _ => exact ⟨frames, hf, rfl⟩

theorem abort (h : e₁.Alike ρ e₂) (error : RunError) :
    (e₁.abort error).execution.Alike ρ (e₂.abort error).execution := by
  obtain ⟨frames, hf, rfl⟩ := h
  obtain ⟨frames₁, charset, state, color, saved, response, hidden⟩ := e₁
  unfold Execution.abort
  cases state <;> exact ⟨frames, hf, rfl⟩

/-! ### One instruction

Both runs stand at the same instruction of corresponding frames, which also correspond behind it. -/

variable {e : Execution} {f₁ f₂ : Frame} {b₁ b₂ : List Frame}

theorem next (he : e.frames = f₁ :: b₁) (hn : ρ f₁.next f₂.next) (hb : List.Forall₂ ρ b₁ b₂) :
    e.next.Alike ρ ({ e with frames := f₂ :: b₂ } : Execution).next := by
  rw [next_of_frames he, next_of_frames rfl]
  exact ⟨_, .cons hn hb, rfl⟩

theorem branch (hρ : Corresponds ρ store₁ store₂) (he : e.frames = f₁ :: b₁) (hf : ρ f₁ f₂)
    (hb : List.Forall₂ ρ b₁ b₂) (label : String) :
    (e.branch label).Alike ρ (({ e with frames := f₂ :: b₂ } : Execution).branch label) := by
  have hl := hρ.label hf label
  unfold Execution.branch
  rw [he]
  dsimp only
  cases h₁ : f₁.template.label? label <;> cases h₂ : f₂.template.label? label <;>
    rw [h₁, h₂] at hl
  · rw [hρ.name hf]
    exact ⟨rfl, _, he ▸ .cons hf hb, rfl⟩
  · cases hl
  · cases hl
  · cases hl with
    | some hp =>
      dsimp only
      rw [goTo_of_frames he, goTo_of_frames rfl]
      exact ⟨rfl, _, .cons hp hb, rfl⟩

theorem includeNamed (hρ : Corresponds ρ store₁ store₂) (he : e.frames = f₁ :: b₁)
    (hn : ρ f₁.next f₂.next) (hb : List.Forall₂ ρ b₁ b₂) (name : String) :
    (∃ fault, e.includeNamed store₁ name = .error fault ∧
      ({ e with frames := f₂ :: b₂ } : Execution).includeNamed store₂ name = .error fault) ∨
    ∃ a₁ a₂, e.includeNamed store₁ name = .ok a₁ ∧
      ({ e with frames := f₂ :: b₂ } : Execution).includeNamed store₂ name = .ok a₂ ∧
      a₁.Alike ρ a₂ := by
  have hl := hρ.lookup name
  have hlen : e.frames.length = (f₂ :: b₂).length := by
    rw [he, List.length_cons, List.length_cons, hb.length_eq]
  unfold Execution.includeNamed
  rw [hlen, next_of_frames he, next_of_frames rfl]
  split
  · exact .inl ⟨_, rfl, rfl⟩
  refine .inr ?_
  cases h₁ : store₁.lookup? name <;> cases h₂ : store₂.lookup? name <;> rw [h₁, h₂] at hl
  · exact ⟨_, _, rfl, rfl, rfl, _, .cons hn hb, rfl⟩
  · cases hl
  · cases hl
  · cases hl with
    | some ht => exact ⟨_, _, rfl, rfl, rfl, _, .cons ht (.cons hn hb), rfl⟩

/-- Doing what an instruction asks for goes wrong from both or from none, and leads to runs that are
alike. -/
theorem obey (hρ : Corresponds ρ store₁ store₂) (he : e.frames = f₁ :: b₁) (hf : ρ f₁ f₂)
    (hn : ρ f₁.next f₂.next) (hb : List.Forall₂ ρ b₁ b₂) (d : Deed) :
    (∃ fault, e.obey store₁ d = .error fault ∧
      ({ e with frames := f₂ :: b₂ } : Execution).obey store₂ d = .error fault) ∨
    ∃ a₁ a₂, e.obey store₁ d = .ok a₁ ∧
      ({ e with frames := f₂ :: b₂ } : Execution).obey store₂ d = .ok a₂ ∧ a₁.Alike ρ a₂ := by
  have hall : e.Alike ρ { e with frames := f₂ :: b₂ } := ⟨_, he ▸ .cons hf hb, rfl⟩
  cases d with
  | send r sent log =>
    exact .inr ⟨_, _, rfl, rfl, rfl, next (e := e.remember r) he hn hb⟩
  | branch label => exact .inr ⟨_, _, rfl, rfl, branch hρ he hf hb label⟩
  | top =>
    refine .inr ⟨_, _, rfl, rfl, rfl, ?_⟩
    show (e.goTo 0).Alike ρ (({ e with frames := f₂ :: b₂ } : Execution).goTo 0)
    rw [goTo_of_frames he, goTo_of_frames rfl]
    exact ⟨_, .cons (hρ.top hf) hb, rfl⟩
  | call name => exact includeNamed hρ he hn hb name
  | wait w =>
    refine .inr ⟨_, _, rfl, rfl, rfl, ?_⟩
    show Alike ρ { e.next with state := .suspended w }
      { ({ e with frames := f₂ :: b₂ } : Execution).next with state := .suspended w }
    rw [next_of_frames he, next_of_frames rfl]
    exact ⟨_, .cons hn hb, rfl⟩
  | leave => exact .inr ⟨_, _, rfl, rfl, hall.leave _⟩
  | stop r => exact .inr ⟨_, _, rfl, rfl, hall.finish _⟩

theorem attempt (hρ : Corresponds ρ store₁ store₂) (he : e.frames = f₁ :: b₁) (hf : ρ f₁ f₂)
    (hn : ρ f₁.next f₂.next) (hb : List.Forall₂ ρ b₁ b₂) {i j : Instruction}
    (hij : i.ActsAs facts j) :
    (e.attempt store₁ facts f₁ i).Alike ρ
      (({ e with frames := f₂ :: b₂ } : Execution).attempt store₂ facts f₂ j) := by
  have hname : f₁.template.name = f₂.template.name := hρ.name hf
  let e' : Execution := { e with frames := f₂ :: b₂ }
  have he' : e'.frames = f₂ :: b₂ := rfl
  rcases Deed.muted_cases (hij.deed f₁.template.name e.registers e.response) with
    ⟨fault, hi, hj⟩ | ⟨r, sent, log₁, log₂, hi, hj⟩ | ⟨d, hi, hj⟩
  all_goals rw [hname] at hj
  · have hperform : e'.perform store₂ facts f₂.template.name j = .error fault :=
      perform_of_fault hj
    rw [attempt_of_error he (perform_of_fault hi), attempt_of_error he' hperform]
    exact ⟨rfl, next he hn hb⟩
  · have hperform : e'.perform store₂ facts f₂.template.name j =
        e'.obey store₂ (.send r sent log₂) := perform_of_deed hj
    rw [attempt_of_ok he (perform_of_deed hi), attempt_of_ok he' hperform]
    exact ⟨rfl, next (e := e.remember r) he hn hb⟩
  · have hperform₁ : e.perform store₁ facts f₁.template.name i = e.obey store₁ d :=
      perform_of_deed hi
    have hperform₂ : e'.perform store₂ facts f₂.template.name j = e'.obey store₂ d :=
      perform_of_deed hj
    rcases obey hρ he hf hn hb d with ⟨fault, h₁, h₂⟩ | ⟨a₁, a₂, h₁, h₂, ha⟩
    · rw [attempt_of_error he (hperform₁.trans h₁), attempt_of_error he' (hperform₂.trans h₂)]
      exact ⟨rfl, next he hn hb⟩
    · rw [attempt_of_ok he (hperform₁.trans h₁), attempt_of_ok he' (hperform₂.trans h₂)]
      exact ha

theorem hide (he : e.frames = f₁ :: b₁) (hn : ρ f₁.next f₂.next) (hb : List.Forall₂ ρ b₁ b₂)
    (i : Instruction) :
    (e.hide i).Alike ρ (({ e with frames := f₂ :: b₂ } : Execution).hide i) := by
  unfold Execution.hide
  rw [next_of_frames he, next_of_frames rfl]
  split
  · split <;> exact ⟨rfl, _, .cons hn hb, rfl⟩
  all_goals exact ⟨rfl, _, .cons hn hb, rfl⟩

/-- **A step from instructions that do the same keeps runs alike and sends the same.** -/
theorem step_along (h : e₁.Alike ρ e₂) (hρ : Corresponds ρ store₁ store₂)
    (hab : ∀ f₁ ∈ e₁.frames.head?, ∀ f₂ ∈ e₂.frames.head?, Along facts ρ f₁ f₂) :
    (e₁.step store₁ facts).Alike ρ (e₂.step store₂ facts) := by
  obtain ⟨frames, hf, rfl⟩ := h
  unfold Execution.step
  cases hf₁ : e₁.frames with
  | nil =>
    rw [hf₁] at hf
    cases hf
    exact Alike.finish ⟨[], by rw [hf₁]; exact .nil, rfl⟩ _
  | cons f₁ b₁ =>
    rw [hf₁] at hf
    cases hf with
    | @cons _ f₂ _ b₂ hf hb =>
      obtain ⟨hat, hnext⟩ := hab f₁ (by rw [hf₁]; rfl) f₂ rfl
      dsimp only
      cases hi : f₁.template.at? f₁.position <;> cases hj : f₂.template.at? f₂.position <;>
        rw [hi, hj] at hat
      · exact Alike.leave ⟨_, hf₁ ▸ .cons hf hb, rfl⟩ _
      · cases hat
      · cases hat
      · cases hat with
        | some hij =>
          have hn : ρ f₁.next f₂.next := hnext (by rw [hi]; rfl)
          dsimp only
          split
          · rw [hij.hide]
            exact hide hf₁ hn hb _
          · exact attempt hρ hf₁ hf hn hb hij

/-- **A step from frames abreast keeps runs alike and sends the same.** -/
theorem step (h : e₁.Alike ρ e₂) (hρ : Corresponds ρ store₁ store₂)
    (hab : ∀ f₁ ∈ e₁.frames.head?, ∀ f₂ ∈ e₂.frames.head?, Abreast ρ f₁ f₂) :
    (e₁.step store₁ facts).Alike ρ (e₂.step store₂ facts) :=
  h.step_along hρ fun f₁ h₁ f₂ h₂ => (hab f₁ h₁ f₂ h₂).along facts

theorem advance_one (h : e₁.Alike ρ e₂) (hρ : Corresponds ρ store₁ store₂)
    (hs : e₁.state = .running)
    (hab : ∀ f₁ ∈ e₁.frames.head?, ∀ f₂ ∈ e₂.frames.head?, Abreast ρ f₁ f₂) :
    (e₁.advance store₁ facts 1).Alike ρ (e₂.advance store₂ facts 1) := by
  rw [Execution.advance_one hs, Execution.advance_one (h.state ▸ hs)]
  exact h.step hρ hab

end Execution.Alike

end BulletinBoard
