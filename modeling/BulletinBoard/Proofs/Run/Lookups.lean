/-
# Where a run looks into the store

A run takes its templates along: it looks into the store only at an instruction that includes a
template, on an open line and with room above (`Execution.seeks?`). So what others do to the store
between its steps shows in what its includes find, and in nothing else. A template that is compiled
anew while it runs goes on as it was.

A run amid others is therefore determined by what its includes find, one after the other
(`Execution.proceedAmid_of_finds`, `Stage.determined_by_finds`). If none is carried out, the run is
the one that has the store to itself.

Key definitions: `Execution.seeks?`, `Execution.findsAmid`, `Stage.findsAmid`, `Stage.repliesAmid`.
Key theorems: `Execution.step_of_lookups`, `Execution.proceedAmid_of_finds`,
`Stage.determined_by_finds`.
-/
import BulletinBoard.Proofs.Run.Amid
import BulletinBoard.Proofs.Run.Charsets
import BulletinBoard.Proofs.Template.LastDraft

namespace BulletinBoard

open Text Template

namespace Execution

/-! ### One step -/

/-- The name of the template that the next step looks for in the store, if it looks for one. -/
def seeks? (e : Execution) : Option String :=
  match e.frames with
  | [] => none
  | f :: _ =>
    match f.template.at? f.position with
    | none => none
    | some i =>
      if i.kind = .includes ∧ e.hidden = false ∧ e.frames.length < includeLimit then
        some (i.arg 0)
      else none

variable {store₁ store₂ : Store} {facts : Facts} {e : Execution}

theorem mem_seeks? {f : Frame} {below : List Frame} {i : Instruction} (hf : e.frames = f :: below)
    (hi : f.template.at? f.position = some i) (hk : i.kind = .includes) (ho : e.hidden = false)
    (hd : e.frames.length < includeLimit) : i.arg 0 ∈ e.seeks? := by
  have hall : i.kind = .includes ∧ e.hidden = false ∧ e.frames.length < includeLimit :=
    ⟨hk, ho, hd⟩
  unfold seeks?
  rw [hf] at hall ⊢
  dsimp only
  rw [hi]
  dsimp only
  rw [if_pos hall]
  rfl

theorem includeNamed_of_lookup {name : String}
    (h : e.frames.length < includeLimit → store₁.lookup? name = store₂.lookup? name) :
    e.includeNamed store₁ name = e.includeNamed store₂ name := by
  unfold includeNamed
  split
  · rfl
  · rename_i hd
    rw [h (Nat.lt_of_not_le hd)]

theorem obey_of_lookup {d : Deed}
    (h : ∀ name, d = .call name → e.frames.length < includeLimit →
      store₁.lookup? name = store₂.lookup? name) :
    e.obey store₁ d = e.obey store₂ d := by
  cases d with
  | call name => exact includeNamed_of_lookup (h name rfl)
  | _ => rfl

/-- **A step depends on the store only by what it looks for there.** -/
theorem step_of_lookups (h : ∀ name ∈ e.seeks?, store₁.lookup? name = store₂.lookup? name) :
    e.step store₁ facts = e.step store₂ facts := by
  unfold step
  split
  · rfl
  rename_i f below hf
  split
  · rfl
  rename_i i hi
  split
  · rfl
  rename_i ho
  have hopen : e.hidden = false := Bool.eq_false_iff.mpr ho
  have hsame : e.perform store₁ facts f.template.name i =
      e.perform store₂ facts f.template.name i := by
    cases hd : i.deed facts f.template.name e.registers e.response with
    | error fault => rw [perform_of_fault hd, perform_of_fault hd]
    | ok d =>
      rw [perform_of_deed hd, perform_of_deed hd]
      apply obey_of_lookup
      intro name hcall hroom
      rcases Instruction.deed_cases hd with ⟨r, sent, log, hsend, -⟩ | hmove
      · cases hcall.symm.trans hsend
      · rw [hcall] at hmove
        obtain ⟨hk, rfl⟩ := Instruction.kind_of_move?_call hmove
        exact h _ (mem_seeks? hf hi hk hopen hroom)
  rw [attempt_eq hf, attempt_eq hf, hsame]

/-! ### Stretches of steps amid others -/

/-- What the includes find that are carried out in at most `budget` steps, while others change the
store. `made` steps were made before. -/
def findsAmid (facts : ChangingFacts) (others : Others) :
    Nat → Nat → Store → Execution → List (Option Template)
  | 0, _, _, _ => []
  | budget + 1, made, s, e =>
    match e.state with
    | .running =>
      let s := others (.step budget) s
      (e.seeks?.map s.lookup?).toList ++
        findsAmid facts others budget (made + 1) s (e.step s (facts made)).execution
    | _ => []

section

variable {facts : ChangingFacts}

theorem findsAmid_of_ne_running {others : Others} (h : e.state ≠ .running) (budget made : Nat)
    (s : Store) : e.findsAmid facts others budget made s = [] := by
  cases budget with
  | zero => rfl
  | succ budget =>
    unfold findsAmid
    split
    · contradiction
    · rfl

theorem findsAmid_succ {others : Others} (h : e.state = .running) (budget made : Nat) (s : Store) :
    e.findsAmid facts others (budget + 1) made s =
      (e.seeks?.map (others (.step budget) s).lookup?).toList ++
        (e.step (others (.step budget) s) (facts made)).execution.findsAmid facts others budget
          (made + 1) (others (.step budget) s) := by
  rw [findsAmid, h]

/-- What one name stands for in two stores, told with what comes after it. -/
theorem lookups_of_append {sought : Option String} {xs ys : List (Option Template)}
    (h : (sought.map store₁.lookup?).toList ++ xs = (sought.map store₂.lookup?).toList ++ ys) :
    (∀ name ∈ sought, store₁.lookup? name = store₂.lookup? name) ∧ xs = ys := by
  cases sought with
  | none =>
    refine ⟨fun name hname => ?_, h⟩
    cases hname
  | some name =>
    obtain ⟨hfirst, hrest⟩ := List.cons.inj h
    refine ⟨fun other hother => ?_, hrest⟩
    cases hother
    exact hfirst

/-- **A stretch of steps amid others is determined by what its includes find.** What is found
afterwards, `xs` and `ys`, may be told along with it. -/
theorem proceedAmid_of_finds {others₁ others₂ : Others} {xs ys : List (Option Template)}
    (budget made : Nat) (e : Execution) (s₁ s₂ : Store)
    (h : e.findsAmid facts others₁ budget made s₁ ++ xs =
      e.findsAmid facts others₂ budget made s₂ ++ ys) :
    (e.proceedAmid facts others₁ budget made s₁).1 =
        (e.proceedAmid facts others₂ budget made s₂).1 ∧ xs = ys := by
  induction budget generalizing made e s₁ s₂ with
  | zero => exact ⟨rfl, h⟩
  | succ budget ih =>
    by_cases hr : e.state = .running
    · rw [findsAmid_succ hr, findsAmid_succ hr, List.append_assoc, List.append_assoc] at h
      obtain ⟨hlookups, hlater⟩ := lookups_of_append h
      have hstep : e.step (others₁ (.step budget) s₁) (facts made) =
          e.step (others₂ (.step budget) s₂) (facts made) := step_of_lookups hlookups
      rw [hstep] at hlater
      obtain ⟨hrest, hend⟩ := ih _ _ _ _ hlater
      rw [proceedAmid_succ hr, proceedAmid_succ hr, hstep]
      dsimp only
      rw [hrest]
      exact ⟨rfl, hend⟩
    · rw [findsAmid_of_ne_running hr, findsAmid_of_ne_running hr] at h
      rw [proceedAmid_of_ne_running hr, proceedAmid_of_ne_running hr]
      exact ⟨rfl, h⟩

end

end Execution

/-! ### Operations amid others -/

/-- The facts after an operation. -/
def Operation.facts (facts : Facts) : Operation → Facts
  | .inform facts => facts
  | _ => facts

namespace Stage

/-- What an operation does with the run while others change the store, and the store behind it. -/
def doesAmid (others : Others) (s : Stage) : Operation → Advance × Store
  | .advance =>
    let (a, _, store) := s.execution.proceedAmid s.facts others stepBudget 0 s.store
    (a, store)
  | o => (s.does o, (s.operate o).store)

/-- Does one thing while others change the store. -/
def operateAmid (others : Others) (s : Stage) (o : Operation) : Stage :=
  ⟨(s.doesAmid others o).2, o.facts s.facts, (s.doesAmid others o).1.execution⟩

/-- What the includes find that are carried out in an operation. -/
def finds (others : Others) (s : Stage) : Operation → List (Option Template)
  | .advance => s.execution.findsAmid s.facts others stepBudget 0 s.store
  | _ => []

/-- What operations do with the run, one after the other. -/
def replies (s : Stage) : List Operation → List Advance
  | [] => []
  | o :: rest => s.does o :: (s.operate o).replies rest

/-- What operations do with the run while others change the store. `others` says operation by
operation what others do. -/
def repliesAmid : (Nat → Others) → Stage → List Operation → List Advance
  | _, _, [] => []
  | others, s, o :: rest =>
    (s.doesAmid (others 0) o).1 ::
      repliesAmid (fun n => others (n + 1)) (s.operateAmid (others 0) o) rest

/-- What the includes find that are carried out in operations, one after the other. -/
def findsAmid : (Nat → Others) → Stage → List Operation → List (Option Template)
  | _, _, [] => []
  | others, s, o :: rest =>
    s.finds (others 0) o ++
      findsAmid (fun n => others (n + 1)) (s.operateAmid (others 0) o) rest

variable {facts : Facts} {e : Execution} {store₁ store₂ : Store}

/-- An operation is determined by what its includes find. -/
theorem doesAmid_of_finds {others₁ others₂ : Others} {xs ys : List (Option Template)}
    (o : Operation)
    (h : finds others₁ ⟨store₁, facts, e⟩ o ++ xs = finds others₂ ⟨store₂, facts, e⟩ o ++ ys) :
    (doesAmid others₁ ⟨store₁, facts, e⟩ o).1 = (doesAmid others₂ ⟨store₂, facts, e⟩ o).1 ∧
      xs = ys := by
  cases o with
  | advance =>
    simp only [finds, doesAmid] at h ⊢
    exact Execution.proceedAmid_of_finds stepBudget 0 e store₁ store₂ h
  | _ => exact ⟨rfl, h⟩

/-- Operations are determined by what their includes find, whatever the stores. What is found
afterwards may be told along. -/
theorem repliesAmid_of_finds {others₁ others₂ : Nat → Others} {xs ys : List (Option Template)}
    (operations : List Operation) (facts : Facts) (e : Execution) (store₁ store₂ : Store)
    (h : findsAmid others₁ ⟨store₁, facts, e⟩ operations ++ xs =
      findsAmid others₂ ⟨store₂, facts, e⟩ operations ++ ys) :
    repliesAmid others₁ ⟨store₁, facts, e⟩ operations =
      repliesAmid others₂ ⟨store₂, facts, e⟩ operations ∧ xs = ys := by
  induction operations generalizing others₁ others₂ facts e store₁ store₂ with
  | nil => exact ⟨rfl, h⟩
  | cons o rest ih =>
    rw [findsAmid, findsAmid, List.append_assoc, List.append_assoc] at h
    obtain ⟨hdoes, hlater⟩ := doesAmid_of_finds o h
    rw [operateAmid, operateAmid, ← hdoes] at hlater
    obtain ⟨hrest, hend⟩ := ih _ _ _ _ hlater
    rw [repliesAmid, repliesAmid, operateAmid, operateAmid, ← hdoes]
    exact ⟨congrArg (_ :: ·) hrest, hend⟩

/-! ### Operations that nobody disturbs -/

theorem doesAmid_undisturbed (s : Stage) (o : Operation) :
    s.doesAmid undisturbed o = (s.does o, (s.operate o).store) := by
  cases o with
  | advance =>
    unfold doesAmid
    dsimp only
    rw [Execution.proceedAmid_undisturbed]
    rfl
  | _ => rfl

theorem operateAmid_undisturbed (s : Stage) (o : Operation) :
    s.operateAmid undisturbed o = s.operate o := by
  unfold operateAmid
  rw [doesAmid_undisturbed]
  cases o <;> rfl

theorem repliesAmid_undisturbed (s : Stage) (operations : List Operation) :
    s.repliesAmid (fun _ => undisturbed) operations = s.replies operations := by
  induction operations generalizing s with
  | nil => rfl
  | cons o rest ih =>
    rw [repliesAmid, replies, doesAmid_undisturbed, operateAmid_undisturbed]
    exact congrArg (_ :: ·) (ih _)

/-- **What others do to the store shows in what includes find, and in nothing else.** Let the same
be done twice with a run, while others compile what they like into the store before every single
step: once as `others₁` do and once as `others₂` do. If the includes that are carried out find the
same, one after the other, then the run does the same in both: what it sends and tells, how it
stands, where, with which answer, and how it ends. If no include is carried out, it does what it
does when the store stays as it was. -/
theorem determined_by_finds (s : Stage) (others₁ others₂ : Nat → Others)
    (operations : List Operation) :
    (s.findsAmid others₁ operations = s.findsAmid others₂ operations →
      s.repliesAmid others₁ operations = s.repliesAmid others₂ operations) ∧
    (s.findsAmid others₁ operations = [] →
      s.repliesAmid others₁ operations = s.replies operations) := by
  constructor
  · intro h
    have happend : s.findsAmid others₁ operations ++ [] = s.findsAmid others₂ operations ++ [] := by
      rw [h]
    exact (repliesAmid_of_finds operations s.facts s.execution s.store s.store happend).1
  · intro h
    have happend : s.findsAmid others₁ operations ++
        s.findsAmid (fun _ => undisturbed) operations =
          s.findsAmid (fun _ => undisturbed) operations ++ [] := by
      rw [h, List.nil_append, List.append_nil]
    have hsame := (repliesAmid_of_finds operations s.facts s.execution s.store s.store happend).1
    exact hsame.trans (repliesAmid_undisturbed s operations)

/-! ### A menu that is compiled anew -/

/-- Others who compile drafts in the gaps. -/
def compiling (drafts : Gap → List Draft) : Others := fun gap s => s.compileAll (drafts gap)

/-- A menu that asks for a line. -/
def oldMenu : Template :=
  .of "menu" "one[readln]two" [.literal "one", ⟨.prompt .readLine, [], "readln"⟩, .literal "two"]

/-- A template that includes the menu. -/
def aboveMenu : Template :=
  .of "main" "[include menu]bye" [⟨.includes, ["menu"], "include"⟩, .literal "bye"]

/-- A run of a template over a store that holds the menu. -/
def overMenu (t : Template) : Stage := ⟨⟨[("menu", oldMenu)], none⟩, Facts.empty, .start t .utf8⟩

/-- While the menu runs, another is compiled under its name. -/
def whileRunning (n : Nat) : Others :=
  compiling fun gap => if n = 0 ∧ gap = .step 4093 then [⟨"menu.mec", "three"⟩] else []

/-- While the menu waits, another is compiled under its name, and one that does not compile. -/
def whileWaiting (n : Nat) : Others :=
  compiling fun gap =>
    if n = 2 ∧ gap = .step 4095 then [⟨"menu", "four"⟩, ⟨"menu", "[white"⟩] else []

/-- The menu goes on as it was, whether it was included or is the template of the run. -/
theorem determined_by_finds_menu :
    ((overMenu aboveMenu).findsAmid whileRunning [.advance, .deliver "x", .advance] =
        [some oldMenu] ∧
      (overMenu aboveMenu).repliesAmid whileRunning [.advance, .deliver "x", .advance] =
        (overMenu aboveMenu).repliesAmid whileWaiting [.advance, .deliver "x", .advance]) ∧
    (overMenu oldMenu).findsAmid whileRunning [.advance, .deliver "x", .advance] = [] ∧
      (overMenu oldMenu).repliesAmid whileRunning [.advance, .deliver "x", .advance] =
        (overMenu oldMenu).replies [.advance, .deliver "x", .advance] := by
  have hrunning : (overMenu aboveMenu).findsAmid whileRunning
      [.advance, .deliver "x", .advance] = [some oldMenu] := by decide +kernel
  have hwaiting : (overMenu aboveMenu).findsAmid whileWaiting
      [.advance, .deliver "x", .advance] = [some oldMenu] := by decide +kernel
  have hnothing : (overMenu oldMenu).findsAmid whileRunning
      [.advance, .deliver "x", .advance] = [] := by decide +kernel
  have hincluded := (determined_by_finds (overMenu aboveMenu) whileRunning whileWaiting
    [.advance, .deliver "x", .advance]).1 (hrunning.trans hwaiting.symm)
  have hstarted := (determined_by_finds (overMenu oldMenu) whileRunning whileWaiting
    [.advance, .deliver "x", .advance]).2 hnothing
  exact ⟨⟨hrunning, hincluded⟩, hnothing, hstarted⟩

end Stage

end BulletinBoard
