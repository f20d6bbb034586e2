/-
# What a closed gate hides does not show

Two versions of a template differ behind a gate that stays closed, in instructions that neither mark
a label nor end the line. Whatever those instructions are, a run shows the same with either version,
whether it starts from it or includes it (`Gated.shows_iff_of_staysClosed`): the same bytes, and the
same state and answer after every call.

Both runs carry out the same instructions, at positions that are shifted behind the hidden part
(`Gated.Aligned`). At the gate each of them passes over its own hidden part, in as many steps as
that is long (`Gated.advance_gate`), and the shift holds again.

Key definitions: `Instruction.StaysClosed`, `Instruction.IsInline`, `Gated`, `Gated.Versions`,
`Gated.Aligned`.
Key theorems: `Execution.advance_inline`, `Gated.follows`, `Gated.shows_iff_of_staysClosed`.
-/
import BulletinBoard.Proofs.Run.Alike
import BulletinBoard.Proofs.Run.Conversation
import BulletinBoard.Proofs.Run.Sound
import Mathlib.Data.List.TakeWhile

namespace BulletinBoard

open Text Template

/-! ### Gates and lines -/

namespace Template.Instruction

/-- The instruction is a gate and does not let the caller pass. -/
def StaysClosed (facts : Facts) (i : Instruction) : Prop :=
  match i.kind with
  | .privilegeGate _ => opens? facts (i.arg 0) ≠ some true
  | .factGate g => g.test.holds facts = false
  | _ => False

/-- The instruction neither marks a label nor ends a line. -/
structure IsInline (i : Instruction) : Prop where
  label : i.kind ≠ .label
  control : i.kind ≠ .control .lineFeed
  text : i.kind = .text → '\n' ∉ i.word.toList

variable {facts : Facts} {i : Instruction}

theorem StaysClosed.kind_ne_label (h : i.StaysClosed facts) : i.kind ≠ .label := by
  intro hk
  rw [StaysClosed, hk] at h
  exact h

theorem StaysClosed.deed (h : i.StaysClosed facts) (name : String) (r : Registers)
    (answer : Option String) :
    ∃ log, i.deed facts name r answer = .ok (.send { r with hidden := true } [] log) := by
  unfold StaysClosed at h
  split at h
  · rename_i g hk
    unfold Instruction.deed
    rw [hk]
    dsimp only
    unfold passPrivilege
    split
    · contradiction
    · exact ⟨_, rfl⟩
    · exact ⟨_, rfl⟩
  · rename_i g hk
    unfold Instruction.deed
    rw [hk]
    dsimp only
    rw [h]
    exact ⟨_, rfl⟩
  · exact h.elim

end Template.Instruction

theorem Execution.afterLineFeed?_eq_none {text : String} (h : '\n' ∉ text.toList) :
    afterLineFeed? text = none := by
  have hall : text.toList.dropWhile (· != '\n') = [] := by
    rw [List.dropWhile_eq_nil_iff]
    intro c hc
    simpa using fun he : c = '\n' => h (he ▸ hc)
  rw [afterLineFeed?, hall]

namespace Execution

variable {store : Store} {facts : Facts} {e : Execution} {f : Frame} {below : List Frame}
  {i : Instruction}

theorem hide_of_isInline (h : i.IsInline) : e.hide i = .quiet e.next := by
  unfold hide
  split
  · rename_i hk
    rw [afterLineFeed?_eq_none (h.text hk)]
  · rename_i hk
    exact absurd hk h.control
  · rfl

theorem step_of_isInline (hf : e.frames = f :: below) (hi : f.template.at? f.position = some i)
    (hh : e.hidden = true) (h : i.IsInline) : e.step store facts = .quiet e.next := by
  rw [step_of_hidden hf hi hh, hide_of_isInline h]

/-- **A hidden stretch that stays on the line is passed over, one instruction a step.** Nothing is
sent, and nothing changes but the position. -/
theorem advance_inline (store : Store) (facts : Facts) (n : Nat) (hs : e.state = .running)
    (hh : e.hidden = true) (hf : e.frames = f :: below)
    (hn : ∀ k < n, ∃ i, f.template.at? (f.position + k) = some i ∧ i.IsInline) :
    (e.advance store facts n).sent = [] ∧ (e.advance store facts n).execution =
      { e with frames := { f with position := f.position + n } :: below } := by
  induction n generalizing e f with
  | zero =>
    refine ⟨rfl, ?_⟩
    show e = { e with frames := f :: below }
    rw [← hf]
  | succ n ih =>
    obtain ⟨i, hi, hin⟩ := hn 0 (Nat.succ_pos n)
    have hstep : e.step store facts = .quiet e.next := step_of_isInline hf hi hh hin
    rw [next_of_frames hf] at hstep
    have hp (k : Nat) : f.next.position + k = f.position + (k + 1) := by
      simp only [Frame.next]
      omega
    have hframes : (e.step store facts).execution.frames = f.next :: below := by
      rw [hstep]
      rfl
    have hrest : ∀ k < n, ∃ i, f.template.at? (f.next.position + k) = some i ∧ i.IsInline :=
      fun k hk => hp k ▸ hn (k + 1) (by omega)
    obtain ⟨hsent, hrun⟩ := ih (by rw [hstep]; exact hs) (by rw [hstep]; exact hh) hframes hrest
    rw [advance_succ hs]
    refine ⟨by rw [hsent, hstep]; rfl, ?_⟩
    rw [hrun, hstep, hp]
    rfl

/-- At a gate that stays closed a run hides the rest of the line, if it is not hidden already. -/
theorem step_of_staysClosed (store : Store) (hf : e.frames = f :: below)
    (hi : f.template.at? f.position = some i) (h : i.StaysClosed facts) :
    (e.step store facts).sent = [] ∧
      (e.step store facts).execution = { e with frames := f.next :: below, hidden := true } := by
  cases hh : e.hidden with
  | true =>
    have hq : e.hide i = .quiet e.next := by
      unfold hide
      unfold Instruction.StaysClosed at h
      split <;> simp_all
    rw [step_of_hidden hf hi hh, hq, next_of_frames hf]
    refine ⟨rfl, ?_⟩
    show _ = { e with frames := f.next :: below, hidden := true }
    rw [← hh]
    rfl
  | false =>
    obtain ⟨log, hd⟩ := h.deed f.template.name e.registers e.response
    have hr : (e.remember { e.registers with hidden := true }).frames = f :: below := hf
    rw [step_of_open hf hi hh, attempt_of_ok hf (perform_of_deed hd)]
    show [] = [] ∧ (e.remember { e.registers with hidden := true }).next = _
    rw [next_of_frames hr]
    exact ⟨rfl, rfl⟩

end Execution

/-! ### Two versions of a template -/

/-- A template with a gate, but for what stands between it and the instructions `after`. -/
structure Gated where
  name : String
  before : List Instruction
  gate : Instruction
  after : List Instruction

/-- What completes a gated template: the part behind the gate, and the source of the whole. -/
structure Fill where
  source : String
  part : List Instruction

namespace Gated

/-- A version of the template. -/
def template (v : Gated) (x : Fill) : Template :=
  .of v.name x.source (v.before ++ v.gate :: (x.part ++ v.after))

/-- Equal templates, or the two versions of the gated template. -/
inductive Versions (v : Gated) (x y : Fill) : Template → Template → Prop where
  | same (t : Template) : v.Versions x y t t
  | filled : v.Versions x y (v.template x) (v.template y)

/-- Equal answers, or answers with the two versions of the gated template. -/
inductive Answers (v : Gated) (x y : Fill) : Answer → Answer → Prop where
  | line (text : String) : v.Answers x y (.line text) (.line text)
  | template {t₁ t₂ : Template} (h : v.Versions x y t₁ t₂) :
    v.Answers x y (.template t₁) (.template t₂)
  | abort (error : RunError) : v.Answers x y (.abort error) (.abort error)

/-- Where two runs stand that did the same: at equal frames, or in the two versions, up to the gate
or equally far behind the hidden part. -/
inductive Aligned (v : Gated) (x y : Fill) : Frame → Frame → Prop where
  | same (f : Frame) : v.Aligned x y f f
  | before {p : Nat} (h : p ≤ v.before.length) :
    v.Aligned x y ⟨v.template x, p⟩ ⟨v.template y, p⟩
  | after (k : Nat) :
    v.Aligned x y ⟨v.template x, v.before.length + 1 + x.part.length + k⟩
      ⟨v.template y, v.before.length + 1 + y.part.length + k⟩

variable {v : Gated} {x y : Fill}

theorem Versions.symm {t₁ t₂ : Template} (h : v.Versions x y t₁ t₂) : v.Versions y x t₂ t₁ := by
  cases h with
  | same => exact .same _
  | filled => exact .filled

theorem Versions.aligned {t₁ t₂ : Template} (h : v.Versions x y t₁ t₂) :
    v.Aligned x y ⟨t₁, 0⟩ ⟨t₂, 0⟩ := by
  cases h with
  | same => exact .same _
  | filled => exact .before (Nat.zero_le _)

theorem Answers.symm {a₁ a₂ : Answer} (h : v.Answers x y a₁ a₂) : v.Answers y x a₂ a₁ := by
  cases h with
  | line text => exact .line text
  | template h => exact .template h.symm
  | abort error => exact .abort error

/-! ### Instructions and labels of a version -/

theorem at?_before {p : Nat} (h : p < v.before.length) : (v.template x).at? p = v.before[p]? :=
  List.getElem?_append_left h

theorem at?_gate : (v.template x).at? v.before.length = some v.gate := by
  show (v.before ++ v.gate :: (x.part ++ v.after))[v.before.length]? = some v.gate
  rw [List.getElem?_append_right (Nat.le_refl _), Nat.sub_self]
  rfl

theorem at?_behind (k : Nat) :
    (v.template x).at? (v.before.length + 1 + k) = (x.part ++ v.after)[k]? := by
  show (v.before ++ v.gate :: (x.part ++ v.after))[v.before.length + 1 + k]? = _
  rw [List.getElem?_append_right (by omega),
    show v.before.length + 1 + k - v.before.length = k + 1 by omega]
  rfl

theorem at?_after (k : Nat) :
    (v.template x).at? (v.before.length + 1 + x.part.length + k) = v.after[k]? := by
  rw [Nat.add_assoc, at?_behind, List.getElem?_append_right (by omega), Nat.add_sub_cancel_left]

variable {facts : Facts}

/-- A label stands in front of the gate or after the hidden part. -/
theorem label?_template (hg : v.gate.StaysClosed facts) (hx : ∀ i ∈ x.part, i.IsInline)
    (name : String) :
    (v.template x).label? name =
      match lastMark? name v.after with
      | some k => some (v.before.length + 1 + x.part.length + k)
      | none => lastMark? name v.before := by
  have hpart : lastMark? name x.part = none := lastMark?_eq_none name fun i hi => (hx i hi).label
  have hgate : marks name v.gate = false := by simp [marks, hg.kind_ne_label]
  rw [label?_eq_lastMark?, template, instructions_of, lastMark?_append, lastMark?, lastMark?_append,
    hpart, hgate]
  cases lastMark? name v.after with
  | none => rfl
  | some k =>
    dsimp only
    congr 1
    omega

/-! ### The two runs -/

variable {store₁ store₂ : Store}

/-- The alignment goes along with jumps and includes. -/
theorem corresponds (hg : v.gate.StaysClosed facts) (hx : ∀ i ∈ x.part, i.IsInline)
    (hy : ∀ i ∈ y.part, i.IsInline)
    (hs : ∀ name, Option.Rel (v.Versions x y) (store₁.lookup? name) (store₂.lookup? name)) :
    Corresponds (v.Aligned x y) store₁ store₂ := by
  -- a label's place depends on the version alone
  have hlabel : ∀ name, Option.Rel
      (fun p₁ p₂ => v.Aligned x y ⟨v.template x, p₁⟩ ⟨v.template y, p₂⟩)
      ((v.template x).label? name) ((v.template y).label? name) := by
    intro name
    rw [label?_template hg hx, label?_template hg hy]
    cases lastMark? name v.after with
    | some k => exact .some (.after k)
    | none =>
      dsimp only
      cases h : lastMark? name v.before with
      | none => exact .none
      | some p => exact .some (.before (Nat.le_of_lt (lastMark?_lt h)))
  refine ⟨fun h => ?_, fun {f₁ f₂} h name => ?_, fun h => ?_, fun name => ?_⟩
  · cases h <;> rfl
  · cases h with
    | same =>
      cases f₁.template.label? name with
      | none => exact .none
      | some p => exact .some (.same _)
    | before _ => exact hlabel name
    | after _ => exact hlabel name
  · cases h with
    | same => exact .same _
    | before _ => exact .before (Nat.zero_le _)
    | after _ => exact .before (Nat.zero_le _)
  · exact rel_imp (fun _ _ h => h.aligned) (hs name)

/-- Frames that are aligned are abreast, but at the gate. -/
theorem Aligned.abreast {f₁ f₂ : Frame} (h : v.Aligned x y f₁ f₂) :
    Abreast (v.Aligned x y) f₁ f₂ ∨
      f₁ = ⟨v.template x, v.before.length⟩ ∧ f₂ = ⟨v.template y, v.before.length⟩ := by
  cases h with
  | same => exact .inl ⟨rfl, fun _ => .same _⟩
  | @before p h =>
    rcases Nat.lt_or_ge p v.before.length with hp | hp
    · exact .inl ⟨by rw [at?_before hp, at?_before hp], fun _ => .before hp⟩
    · obtain rfl : p = v.before.length := Nat.le_antisymm h hp
      exact .inr ⟨rfl, rfl⟩
  | after k => exact .inl ⟨by rw [at?_after, at?_after], fun _ => .after (k + 1)⟩

/-- **From the gate a run comes to the end of the hidden part**, in one step more than that is long,
and sends nothing. -/
theorem advance_gate (hg : v.gate.StaysClosed facts) (hx : ∀ i ∈ x.part, i.IsInline)
    (store : Store) {e : Execution} {below : List Frame} (hs : e.state = .running)
    (hf : e.frames = ⟨v.template x, v.before.length⟩ :: below) :
    (e.advance store facts (x.part.length + 1)).sent = [] ∧
      (e.advance store facts (x.part.length + 1)).execution =
        { e with
          frames := ⟨v.template x, v.before.length + 1 + x.part.length + 0⟩ :: below
          hidden := true } := by
  obtain ⟨hsent, hrun⟩ := Execution.step_of_staysClosed store hf at?_gate hg
  have hpart : ∀ k < x.part.length, ∃ i,
      (v.template x).at? (v.before.length + 1 + k) = some i ∧ i.IsInline := fun k hk => by
    refine ⟨x.part[k], ?_, hx _ (List.getElem_mem hk)⟩
    rw [at?_behind, List.getElem?_append_left hk, List.getElem?_eq_getElem hk]
  have hframes : (e.step store facts).execution.frames =
      ⟨v.template x, v.before.length + 1⟩ :: below := by
    rw [hrun]
    rfl
  obtain ⟨hsent', hrun'⟩ := Execution.advance_inline store facts x.part.length
    (by rw [hrun]; exact hs) (by rw [hrun]) hframes hpart
  rw [Execution.advance_succ hs]
  refine ⟨by rw [hsent, hsent']; rfl, ?_⟩
  rw [hrun', hrun]
  rfl

/-- A run with one version can be followed by the run with the other. -/
theorem follows (hg : v.gate.StaysClosed facts) (hx : ∀ i ∈ x.part, i.IsInline)
    (hy : ∀ i ∈ y.part, i.IsInline)
    (hs : ∀ name, Option.Rel (v.Versions x y) (store₁.lookup? name) (store₂.lookup? name)) :
    Follows (Execution.Alike (v.Aligned x y)) (v.Answers x y) store₁ store₂ facts := by
  refine ⟨fun h => ⟨h.state, h.response⟩, fun {e₁ e₂} h hr => ?_, fun h ha => ?_⟩
  · -- one step of each run, if they are abreast
    have hstep (hab : ∀ f₁ ∈ e₁.frames.head?, ∀ f₂ ∈ e₂.frames.head?,
        Abreast (v.Aligned x y) f₁ f₂) :
        (e₁.advance store₁ facts 1).Alike (v.Aligned x y) (e₂.advance store₂ facts 1) :=
      h.advance_one (corresponds hg hx hy hs) hr hab
    obtain ⟨frames, hf, rfl⟩ := h
    cases hf₁ : e₁.frames with
    | nil =>
      have ha := hstep fun f₁ hf' => by
        rw [hf₁] at hf'
        cases hf'
      exact ⟨1, 1, Nat.one_pos, Nat.one_pos, ha.bytes, ha.2⟩
    | cons f₁ b₁ =>
      rw [hf₁] at hf
      cases hf with
      | @cons _ f₂ _ b₂ hff hb =>
        rcases hff.abreast with hab | ⟨rfl, rfl⟩
        · have ha := hstep fun f hf' f' hf'' => by
            rw [hf₁] at hf'
            cases hf'
            cases hf''
            exact hab
          exact ⟨1, 1, Nat.one_pos, Nat.one_pos, ha.bytes, ha.2⟩
        · -- each run passes over its own hidden part
          obtain ⟨hsent₁, hrun₁⟩ := advance_gate hg hx store₁ hr hf₁
          obtain ⟨hsent₂, hrun₂⟩ := advance_gate hg hy store₂
            (e := { e₁ with frames := ⟨v.template y, v.before.length⟩ :: b₂ }) hr rfl
          have ha : Advance.Alike (v.Aligned x y)
              (e₁.advance store₁ facts (x.part.length + 1))
              (({ e₁ with frames := ⟨v.template y, v.before.length⟩ :: b₂ } : Execution).advance
                store₂ facts (y.part.length + 1)) := by
            refine ⟨hsent₁.trans hsent₂.symm, ?_⟩
            rw [hrun₁, hrun₂]
            exact ⟨_, .cons (.after 0) hb, rfl⟩
          exact ⟨_, _, Nat.succ_pos _, Nat.succ_pos _, ha.bytes, ha.2⟩
  · cases ha with
    | line text => exact h.deliver text
    | template ht => exact h.enter ht.aligned
    | abort error => exact h.abort error

/-- A run with one version shows nothing that the run with the other does not show. -/
theorem shows_of_shows (hg : v.gate.StaysClosed facts) (hx : ∀ i ∈ x.part, i.IsInline)
    (hy : ∀ i ∈ y.part, i.IsInline)
    (hs : ∀ name, Option.Rel (v.Versions x y) (store₁.lookup? name) (store₂.lookup? name))
    {t₁ t₂ : Template} (ht : v.Versions x y t₁ t₂) {answers₁ answers₂ : List Answer}
    (ha : List.Forall₂ (v.Answers x y) answers₁ answers₂) {charset : Charset} {seen : List Sight}
    (h : Shows store₁ facts answers₁ (.start t₁ charset) seen) :
    Shows store₂ facts answers₂ (.start t₂ charset) seen := by
  have halike : (Execution.start t₁ charset).Alike (v.Aligned x y) (.start t₂ charset) :=
    ⟨_, .cons ht.aligned .nil, rfl⟩
  exact (follows hg hx hy hs).shows halike ha h

/-- **What a closed gate hides does not show.** Let the store, the template a run starts from and
the templates it is given be the same but for the two versions, and the facts and the lines it is
given be the same. Then it shows the same. -/
theorem shows_iff_of_staysClosed (hg : v.gate.StaysClosed facts) (hx : ∀ i ∈ x.part, i.IsInline)
    (hy : ∀ i ∈ y.part, i.IsInline)
    (hs : ∀ name, Option.Rel (v.Versions x y) (store₁.lookup? name) (store₂.lookup? name))
    {t₁ t₂ : Template} (ht : v.Versions x y t₁ t₂) {answers₁ answers₂ : List Answer}
    (ha : List.Forall₂ (v.Answers x y) answers₁ answers₂) (charset : Charset)
    (seen : List Sight) :
    Shows store₁ facts answers₁ (.start t₁ charset) seen ↔
      Shows store₂ facts answers₂ (.start t₂ charset) seen := by
  refine ⟨shows_of_shows hg hx hy hs ht ha, shows_of_shows hg hy hx (fun name => ?_) ht.symm ?_⟩
  · have h := hs name
    revert h
    cases store₁.lookup? name <;> cases store₂.lookup? name <;> intro h <;> cases h
    · exact .none
    · rename_i h
      exact .some h.symm
  · exact ha.flip.imp fun _ _ h => h.symm

/-! ### A menu with a part for experts -/

/-- A menu that asks again and again, with a gate for experts. -/
def expertMenu : Gated where
  name := "menu"
  before := [.mark "again", .literal "Menu"]
  gate := ⟨.factGate .expert, [], "expert"⟩
  after := [.literal "\n", ⟨.prompt .readLine, [], "readln"⟩, ⟨.goto, ["again"], "goto"⟩]

/-- Behind the gate a secret is told, and the run is ended. -/
def secretFill : Fill where
  source := "[/again]Menu[expert] of secrets[quit]\n[readln][goto again]"
  part := [.literal " of secrets", ⟨.halt .quit, [], "quit"⟩]

/-- Nothing stands behind the gate. -/
def emptyFill : Fill := ⟨"[/again]Menu[expert]\n[readln][goto again]", []⟩

/-- A novice who gets to the menu from another template sees it without the secret: the menu, a
wait, and after an answer the menu again. -/
theorem shows_iff_expertMenu :
    expertMenu.gate.StaysClosed (Facts.empty.set .helpLevel "novice") ∧
      (∀ i ∈ secretFill.part, i.IsInline) ∧ (∀ i ∈ emptyFill.part, i.IsInline) ∧
      (Shows ⟨[("menu", expertMenu.template secretFill)], none⟩
          (Facts.empty.set .helpLevel "novice") [.line "x"]
          (.start (.of "main" "[include menu]" [⟨.includes, ["menu"], "include"⟩]) .utf8)
          [.byte 77, .byte 101, .byte 110, .byte 117, .call (.suspended .line) none,
            .call .running (some "x"), .byte 77, .byte 101, .byte 110, .byte 117,
            .call (.suspended .line) (some "x")] ↔
        Shows ⟨[("menu", expertMenu.template emptyFill)], none⟩
          (Facts.empty.set .helpLevel "novice") [.line "x"]
          (.start (.of "main" "[include menu]" [⟨.includes, ["menu"], "include"⟩]) .utf8)
          [.byte 77, .byte 101, .byte 110, .byte 117, .call (.suspended .line) none,
            .call .running (some "x"), .byte 77, .byte 101, .byte 110, .byte 117,
            .call (.suspended .line) (some "x")]) := by
  have hgate : expertMenu.gate.StaysClosed (Facts.empty.set .helpLevel "novice") := by
    show FactTest.holds _ FactGate.expert.test = false
    decide
  have hsecret : ∀ i ∈ secretFill.part, i.IsInline := by
    intro i hi
    rcases List.mem_pair.mp hi with rfl | rfl
    · exact ⟨by decide, by decide, fun _ => by decide⟩
    · exact ⟨by decide, by decide, fun h => by cases h⟩
  have hempty : ∀ i ∈ emptyFill.part, i.IsInline := fun i hi => by cases hi
  have hlookup (x : Fill) (name : String) :
      (⟨[("menu", expertMenu.template x)], none⟩ : Store).lookup? name =
        if Store.baseName name = "menu" then some (expertMenu.template x) else none :=
    lookup_entry "menu" _ _ []
  refine ⟨hgate, hsecret, hempty, shows_iff_of_staysClosed hgate hsecret hempty (fun name => ?_)
    (.same _) (.cons (.line "x") .nil) .utf8 _⟩
  rw [hlookup, hlookup]
  split
  · exact .some .filled
  · exact .none

end Gated

end BulletinBoard
