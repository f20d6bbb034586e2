/-
# Checks before effects

An instruction that fails has done nothing: whatever a handler checks it checks before it sends,
tells or changes anything (`Instruction.checksFirst_handle`). A handler is put together from checks
and from parts that always go through, and the law is one of how they are put together: checks may
follow checks, and what always goes through may follow anything.

Key definitions: `Handler.Sure`, `Handler.ChecksFirst`.
Key theorem: `Instruction.checksFirst_handle`.
-/
import BulletinBoard.Proofs.Run.Deeds

namespace BulletinBoard

open Text Template

namespace Handler

/-- The handler goes through. -/
def Sure {α : Type} (x : Handler α) : Prop := ∀ a, ∃ v b, x a = .ok v b

/-- The handler fails only before it has done anything. -/
def ChecksFirst {α : Type} (x : Handler α) : Prop := ∀ a fault b, x a = .error fault b → b = a

section

variable {α β : Type} {x : Handler α} {g : α → Handler β}

theorem Sure.checksFirst (h : Sure x) : ChecksFirst x := by
  intro a fault b hx
  obtain ⟨v, c, hok⟩ := h a
  cases hx.symm.trans hok

theorem Sure.bind (h : Sure x) (hg : ∀ v, Sure (g v)) : Sure (x >>= g) := by
  intro a
  obtain ⟨v, b, hok⟩ := h a
  rw [bind_of_ok hok]
  exact hg v b

/-- Behind what can fail stands only what cannot. -/
theorem ChecksFirst.bind (h : ChecksFirst x) (hg : ∀ v, Sure (g v)) : ChecksFirst (x >>= g) := by
  intro a fault b hx
  cases hfirst : x a with
  | ok v c =>
    rw [bind_of_ok hfirst] at hx
    exact absurd hx (by obtain ⟨_, _, hok⟩ := hg v c; simp [hok])
  | error fault' c =>
    rw [bind_of_error hfirst] at hx
    cases hx
    exact h a fault b hfirst

theorem checksFirst_check (r : Except Fault α) (hg : ∀ v, ChecksFirst (g v)) :
    ChecksFirst (check r >>= g) := by
  cases r with
  | ok v => exact hg v
  | error fault =>
    intro a fault' b hx
    cases hx
    rfl

theorem checksFirst_current {g : Execution → Handler β} (hg : ∀ e, ChecksFirst (g e)) :
    ChecksFirst (current >>= g) := fun a => hg a.execution a

theorem checksFirst_throw (fault : Fault) (g : α → Handler β) : ChecksFirst (throw fault >>= g) := by
  intro a fault' b hx
  cases hx
  rfl

end

/-! ### What cannot fail -/

theorem sure_pure {α : Type} (v : α) : Sure (pure v) := fun a => ⟨v, a, rfl⟩

theorem sure_change (g : Execution → Execution) : Sure (change g) := fun _ => ⟨_, _, rfl⟩

theorem sure_send (m : Emission) : Sure (send m) := fun _ => ⟨_, _, rfl⟩

theorem sure_tell (log : Log) : Sure (tell log) := fun _ => ⟨_, _, rfl⟩

theorem sure_current : Sure current := fun _ => ⟨_, _, rfl⟩

theorem sure_sendTimes (m : Emission) (n : Nat) : Sure (sendTimes m n) :=
  fun a => ⟨_, _, sendTimes_eq m n a⟩

theorem sure_loadColor : Sure loadColor := by
  refine sure_current.bind fun e => ?_
  cases e.saved with
  | none => exact sure_pure ()
  | some c => exact (sure_change _).bind fun _ => sure_send _

theorem sure_response : Sure response := by
  refine sure_current.bind fun e => ?_
  cases e.response with
  | none => exact sure_pure ()
  | some text => exact sure_send _

theorem sure_privilegePasses (facts : Facts) (i : Instruction) : Sure (privilegePasses facts i) := by
  unfold privilegePasses
  cases opens? facts (i.arg 0) with
  | none => exact (sure_tell _).bind fun _ => sure_pure false
  | some passes => exact sure_pure passes

theorem sure_gate (passes : Bool) : Sure (gate passes) := by
  cases passes with
  | true => exact sure_pure ()
  | false => exact fun _ => ⟨_, _, rfl⟩

/-! ### What can -/

theorem checksFirst_control (i : Instruction) : ChecksFirst (control i) := by
  refine checksFirst_check _ fun bytes => checksFirst_check _ fun selected => ?_
  cases selected with
  | none => exact (sure_send _).checksFirst
  | some c => exact ((sure_change _).bind fun _ => sure_send _).checksFirst

theorem checksFirst_repeatSequence (i : Instruction) : ChecksFirst (repeatSequence i) := by
  refine checksFirst_check _ fun length => checksFirst_check _ fun times => ?_
  by_cases h : repeatLimit < times
  · simp only [if_pos h]
    exact checksFirst_throw _ _
  · simp only [if_neg h]
    exact ((sure_sendTimes _ _).bind fun _ => sure_send _).checksFirst

theorem checksFirst_includeNamed (store : Store) (name : String) :
    ChecksFirst (includeNamed store name) := by
  refine checksFirst_current fun e => ?_
  by_cases h : includeLimit ≤ e.frames.length
  · simp only [if_pos h]
    exact checksFirst_throw _ _
  · simp only [if_neg h]
    refine ((sure_change _).bind fun _ => ?_).checksFirst
    cases store.lookup? name with
    | none => exact sure_pure _
    | some t => exact (sure_change _).bind fun _ => sure_pure _

theorem ChecksFirst.onward {x : Handler Unit} (h : ChecksFirst x) : ChecksFirst (onward x) :=
  h.bind fun _ => sure_pure _

end Handler

open Handler in
/-- **Every handler makes its checks before it does anything.** -/
theorem Template.Instruction.checksFirst_handle (store : Store) (facts : Facts) (t : Template)
    (i : Instruction) : ChecksFirst (i.handle store facts t) := by
  unfold Instruction.handle
  cases i.kind with
  | text => exact (sure_send _).checksFirst.onward
  | color | foreground | control | locate => exact (checksFirst_control i).onward
  | saveColor => exact (sure_change _).checksFirst.onward
  | loadColor => exact sure_loadColor.checksFirst.onward
  | fact | classAbbreviation | className =>
    exact (checksFirst_check _ fun _ => (sure_send _).checksFirst).onward
  | response => exact sure_response.checksFirst.onward
  | repeatSequence => exact (checksFirst_repeatSequence i).onward
  | privilegeGate =>
    exact ((sure_privilegePasses facts i).bind fun _ => sure_gate _).checksFirst.onward
  | factGate => exact (sure_gate _).checksFirst.onward
  | includes => exact checksFirst_includeNamed store _
  | halt r => cases r <;> exact (sure_pure _).checksFirst
  | goto | jump | top | label | prompt => exact (sure_pure _).checksFirst
  | declareLabel | comment | unsupported => exact (sure_tell _).checksFirst.onward

end BulletinBoard
