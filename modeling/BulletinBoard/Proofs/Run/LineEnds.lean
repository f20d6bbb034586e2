/-
# Where a hidden line ends

A gate that stays closed hides the rest of the line. The line ends at the first instruction that
sends a line feed or is a text with one in it (`Instruction.EndsLine`, `Template.LineEndsAt`), and
if the template has none from here on, it ends with the template.

One step on a hidden line passes one instruction. It changes nothing but the position as long as the
line goes on (`Execution.step_of_not_endsLine`), so by induction the run comes to the end of the
line without a trace (`Execution.makes_hidden`), whatever others do to the store and the facts in
the meantime. The step that ends the line sends what stands behind the first line feed
(`Execution.step_of_endsLine`). Leaving the template ends the line too, and where it is the
outermost one that completes the run, which is counted (`Execution.counted_at_hidden_end`).

Key definitions: `Instruction.EndsLine`, `Template.LineEndsAt`.
Key theorems: `Instruction.reopens?_eq_none_iff`, `Execution.makes_hidden`,
`Execution.extent_of_hidden_line`.
-/
import BulletinBoard.Proofs.Run.Events
import BulletinBoard.Proofs.Run.Privileges

namespace BulletinBoard

open Text Template

/-! ### Instructions that end a line -/

namespace Execution

theorem afterLineFeed?_append {before rest : String} (h : '\n' ∉ before.toList) :
    afterLineFeed? (before ++ "\n" ++ rest) = some rest := by
  have hkeep : ∀ c ∈ before.toList, (c != '\n') = true := by
    intro c hc
    simpa using fun he : c = '\n' => h (he ▸ hc)
  have hdrop : (before ++ "\n" ++ rest).toList.dropWhile (· != '\n') = '\n' :: rest.toList := by
    rw [String.toList_append, String.toList_append, List.append_assoc,
      List.dropWhile_append_of_pos hkeep]
    rfl
  rw [afterLineFeed?, hdrop]
  simp

/-- Something follows a line feed of a text just where the text has one. -/
theorem afterLineFeed?_eq_none_iff {text : String} :
    afterLineFeed? text = none ↔ '\n' ∉ text.toList := by
  refine ⟨fun h hmem => ?_, afterLineFeed?_eq_none⟩
  have hdrop : text.toList.dropWhile (· != '\n') = [] := by
    unfold afterLineFeed? at h
    split at h
    · assumption
    · cases h
  have hkeep := List.dropWhile_eq_nil_iff.mp hdrop '\n' hmem
  simp at hkeep

end Execution

namespace Template.Instruction

variable {i : Instruction}

/-- The instruction sends a line feed, or is a text with one in it. -/
def EndsLine (i : Instruction) : Prop :=
  i.kind = .control .lineFeed ∨ i.kind = .text ∧ '\n' ∈ i.word.toList

instance : DecidablePred EndsLine := fun i =>
  inferInstanceAs (Decidable (i.kind = .control .lineFeed ∨ _))

/-- A hidden line goes on behind an instruction just where that does not end a line. -/
theorem reopens?_eq_none_iff : i.reopens? = none ↔ ¬ i.EndsLine := by
  unfold reopens? EndsLine
  split
  · rename_i hk
    simp [hk, Execution.afterLineFeed?_eq_none_iff]
  · rename_i hk
    simp [hk]
  · rename_i htext hfeed
    refine iff_of_true rfl ?_
    rintro (h | ⟨h, -⟩)
    · exact hfeed h
    · exact htext h

end Template.Instruction

namespace Template

/-- The line that a position of a template stands on ends here, and no instruction in between ends
it. -/
structure LineEndsAt (t : Template) (position j : Nat) (i : Instruction) : Prop where
  le : position ≤ j
  at? : t.at? j = some i
  ends : i.EndsLine
  first : ∀ k, position ≤ k → k < j → ∀ i', t.at? k = some i' → ¬ i'.EndsLine

variable {t : Template} {position j : Nat} {i : Instruction}

theorem not_endsLine_of_forall (h : ∀ j i, ¬ t.LineEndsAt position j i) (hj : position ≤ j)
    (hi : t.at? j = some i) : ¬ i.EndsLine := by
  -- the least position with such an instruction would be the end of the line
  induction j using Nat.strong_induction_on generalizing i with
  | h j ih => exact fun hends => h j i ⟨hj, hi, hends, fun k hk hlt i' hi' => ih k hlt hk hi'⟩

theorem exists_at?_of_lt (h : position < t.size) : ∃ i, t.at? position = some i :=
  ⟨_, List.getElem?_eq_getElem h⟩

theorem LineEndsAt.before (h : t.LineEndsAt position j i) {k : Nat} (hk : position + k < j) :
    ∃ i', t.at? (position + k) = some i' ∧ ¬ i'.EndsLine := by
  have hsize : j < t.size := (List.getElem?_eq_some_iff.mp h.at?).1
  obtain ⟨i', hi'⟩ := exists_at?_of_lt (hk.trans hsize)
  exact ⟨i', hi', h.first _ (Nat.le_add_right _ _) hk i' hi'⟩

end Template

/-! ### Steps on a hidden line -/

namespace Execution

variable {store : Store} {facts : Facts} {e : Execution} {f : Frame} {below : List Frame}
  {i : Instruction}

section

variable (hf : e.frames = f :: below) (hh : e.hidden = true)
include hf hh

/-- As long as the line goes on, a step changes nothing but the position. -/
theorem step_of_not_endsLine (hi : f.template.at? f.position = some i) (h : ¬ i.EndsLine) :
    e.step store facts = .quiet { e with frames := f.next :: below } := by
  rw [step_of_hidden hf hi hh, hide_eq, Instruction.reopens?_eq_none_iff.mpr h, next_of_frames hf]
  rfl

/-- The step that ends the line sends what stands behind the first line feed. -/
theorem step_of_endsLine (hi : f.template.at? f.position = some i) (h : i.EndsLine) :
    ∃ sent, e.step store facts =
        .send { e with frames := f.next :: below, hidden := false } sent ∧
      (i.kind = .control .lineFeed → sent = []) ∧
      ∀ before rest, i.kind = .text → i.word = before ++ "\n" ++ rest → '\n' ∉ before.toList →
        sent = [.text rest] := by
  cases hr : i.reopens? with
  | none => exact absurd h (Instruction.reopens?_eq_none_iff.mp hr)
  | some sent =>
    refine ⟨sent, ?_, fun hk => ?_, fun before rest hk hword hbefore => ?_⟩
    · rw [step_of_hidden hf hi hh, hide_eq, hr, next_of_frames hf]
      rfl
    · simpa [Instruction.reopens?, hk, eq_comm] using hr
    · simpa [Instruction.reopens?, hk, hword, afterLineFeed?_append hbefore, eq_comm] using hr

/-- **A hidden line leaves no trace.** Steps that stay on it pass one instruction each, and change
nothing but the position. -/
theorem makes_hidden (hs : e.state = .running) (around : List Circumstances)
    (hn : ∀ k < around.length, ∃ i, f.template.at? (f.position + k) = some i ∧ ¬ i.EndsLine) :
    e.makes around = .quiet
      { e with frames := { f with position := f.position + around.length } :: below } := by
  induction around generalizing e f with
  | nil =>
    show Advance.quiet e = .quiet { e with frames := f :: below }
    rw [← hf]
  | cons first rest ih =>
    obtain ⟨i, hi, hends⟩ := hn 0 (Nat.succ_pos _)
    have hstep : e.step first.store first.facts = .quiet { e with frames := f.next :: below } :=
      step_of_not_endsLine hf hh hi hends
    have hp (k : Nat) : f.next.position + k = f.position + (k + 1) := by
      simp only [Frame.next]
      omega
    have hrest : ∀ k < rest.length, ∃ i,
        f.next.template.at? (f.next.position + k) = some i ∧ ¬ i.EndsLine := by
      intro k hk
      rw [hp]
      exact hn (k + 1) (Nat.succ_lt_succ hk)
    have hlater := ih (e := { e with frames := f.next :: below }) rfl hh hs hrest
    rw [makes_cons hs, hstep, Advance.quiet_andThen]
    dsimp only [Advance.quiet] at hlater ⊢
    rw [hlater, hp]
    rfl

end

/-! ### The extent of a hidden line -/

theorem exists_step_of_makes {n : Nat} (e' : Execution) (hs : e'.state = .running)
    (h : ∀ around : List Circumstances, around.length = n → e.makes around = .quiet e')
    {around : List Circumstances} (hn : around.length = n + 1) :
    ∃ last : Circumstances, e.makes around = e'.step last.store last.facts := by
  rcases around.eq_nil_or_concat with rfl | ⟨first, last, rfl⟩
  · cases hn
  rw [List.concat_eq_append] at hn ⊢
  have hfirst : e.makes first = .quiet e' := h first (by simpa using hn)
  refine ⟨last, ?_⟩
  rw [makes_append, hfirst, Advance.quiet_andThen]
  exact makes_singleton hs last

section

variable {f : Frame} {below : List Frame} {i : Instruction} {j : Nat} {around : List Circumstances}
  (hs : e.state = .running) (hf : e.frames = f :: below) (hh : e.hidden = true)
include hs hf hh

theorem makes_before_lineEnd (hline : f.template.LineEndsAt f.position j i)
    (hn : around.length ≤ j - f.position) :
    e.makes around = .quiet
      { e with frames := { f with position := f.position + around.length } :: below } :=
  makes_hidden hf hh hs around fun _ hk => hline.before (by omega)

theorem makes_lineEnd (hline : f.template.LineEndsAt f.position j i)
    (hn : around.length = j - f.position + 1) :
    ∃ sent, e.makes around =
        .send { e with frames := { f with position := j + 1 } :: below, hidden := false } sent ∧
      (i.kind = .control .lineFeed → sent = []) ∧
      ∀ before rest, i.kind = .text → i.word = before ++ "\n" ++ rest → '\n' ∉ before.toList →
        sent = [.text rest] := by
  have hj : f.position + (j - f.position) = j := Nat.add_sub_cancel' hline.le
  obtain ⟨last, hlast⟩ := exists_step_of_makes (n := j - f.position)
    { e with frames := { f with position := j } :: below } hs
    (fun around hn => by rw [makes_before_lineEnd hs hf hh hline hn.le, hn, hj]) hn
  rw [hlast]
  exact step_of_endsLine (f := { f with position := j }) rfl hh hline.at? hline.ends

variable (hnone : ∀ j i, ¬ f.template.LineEndsAt f.position j i)
include hnone

theorem makes_before_templateEnd (hn : around.length ≤ f.template.size - f.position) :
    e.makes around = .quiet
      { e with frames := { f with position := f.position + around.length } :: below } := by
  refine makes_hidden hf hh hs around fun k hk => ?_
  obtain ⟨i, hi⟩ : ∃ i, f.template.at? (f.position + k) = some i := exists_at?_of_lt (by omega)
  exact ⟨i, hi, not_endsLine_of_forall hnone (Nat.le_add_right _ _) hi⟩

theorem makes_templateEnd (hn : around.length = f.template.size - f.position + 1) :
    ∃ p, e.makes around =
      leave { e with frames := { f with position := p } :: below } .completed := by
  obtain ⟨last, hlast⟩ := exists_step_of_makes
    { e with
      frames := { f with position := f.position + (f.template.size - f.position) } :: below } hs
    (fun around hn => by rw [makes_before_templateEnd hs hf hh hnone hn.le, hn]) hn
  have hend : f.template.size ≤ f.position + (f.template.size - f.position) := by omega
  rw [hlast]
  exact ⟨_, step_of_none rfl (List.getElem?_eq_none hend)⟩

end

/-- **The extent of a hidden line.** Let the run be on a hidden line. Up to the end of the line its
steps leave no trace, and the next sends what stands behind the first line feed and opens the line.
If no instruction ends the line, the steps leave no trace up to the end of the template, and the
next leaves it and opens the line; where no template waits below, that completes the run. -/
theorem extent_of_hidden_line {f : Frame} {below : List Frame} (hs : e.state = .running)
    (hf : e.frames = f :: below) (hh : e.hidden = true) :
    (∀ j i, f.template.LineEndsAt f.position j i →
      (∀ around : List Circumstances, around.length ≤ j - f.position →
        e.makes around = .quiet
          { e with frames := { f with position := f.position + around.length } :: below }) ∧
      ∀ around : List Circumstances, around.length = j - f.position + 1 →
        (∃ sent, e.makes around =
          .send { e with frames := { f with position := j + 1 } :: below, hidden := false } sent) ∧
        (i.kind = .control .lineFeed → (e.makes around).bytes = []) ∧
        ∀ before rest, i.kind = .text → i.word = before ++ "\n" ++ rest → '\n' ∉ before.toList →
          (e.makes around).bytes = e.charset.encode rest) ∧
    ((∀ j i, ¬ f.template.LineEndsAt f.position j i) →
      (∀ around : List Circumstances, around.length ≤ f.template.size - f.position →
        e.makes around = .quiet
          { e with frames := { f with position := f.position + around.length } :: below }) ∧
      ∀ around : List Circumstances, around.length = f.template.size - f.position + 1 →
        (below ≠ [] → e.makes around = .quiet { e with frames := below, hidden := false }) ∧
        (below = [] → e.makes around =
          ⟨{ e with frames := [], state := .finished .completed, hidden := false }, [],
            .count { Tally.zero with completed := 1 }⟩)) := by
  refine ⟨fun j i hline => ⟨fun around => makes_before_lineEnd hs hf hh hline, fun around hn => ?_⟩,
    fun hnone => ⟨fun around => makes_before_templateEnd hs hf hh hnone, fun around hn => ?_⟩⟩
  · obtain ⟨sent, hmakes, hfeed, htext⟩ := makes_lineEnd hs hf hh hline hn
    rw [hmakes]
    refine ⟨⟨sent, rfl⟩, fun hk => ?_, fun before rest hk hword hbefore => ?_⟩
    · rw [hfeed hk]
      rfl
    · rw [htext before rest hk hword hbefore]
      exact List.append_nil _
  · obtain ⟨p, hmakes⟩ := makes_templateEnd hs hf hh hnone hn
    rw [hmakes]
    refine ⟨fun hbelow => ?_, fun hbelow => ?_⟩
    · obtain ⟨g, rest, rfl⟩ := List.exists_cons_of_ne_nil hbelow
      rfl
    · rw [hbelow]
      rfl

/-- A template that hides a word that ends the screen, up to a line feed within a text. -/
def hidingQuit : Template :=
  .of "t" "[expert]secret[quit]dark\nshown"
    [⟨.factGate .expert, [], "expert"⟩, .literal "secret", ⟨.halt .quit, [], "quit"⟩,
      .literal "dark\nshown"]

/-- A run at the first instruction behind its gate. -/
def hidingQuitGated : Execution :=
  ((start hidingQuit .utf8).advance (.empty none) Facts.empty 1).execution

/-- The screen does not end, and the last three steps send what stands behind the line feed. -/
theorem extent_of_hidden_line_quit :
    hidingQuitGated.state = .running ∧ hidingQuitGated.frames = [⟨hidingQuit, 1⟩] ∧
      hidingQuitGated.hidden = true ∧
      hidingQuit.LineEndsAt 1 3 (.literal "dark\nshown") ∧
      ∀ around : List Circumstances, around.length = 3 →
        (hidingQuitGated.makes around).bytes = Charset.utf8.encode "shown" := by
  have hline : hidingQuit.LineEndsAt 1 3 (.literal "dark\nshown") := by
    refine ⟨by decide, rfl, by decide, fun k hle hlt i hi => ?_⟩
    have hk : k = 1 ∨ k = 2 := by omega
    rcases hk with rfl | rfl <;> cases hi <;> decide
  have hs : hidingQuitGated.state = .running := by decide
  have hf : hidingQuitGated.frames = [⟨hidingQuit, 1⟩] := by decide
  have hh : hidingQuitGated.hidden = true := by decide
  have hextent := extent_of_hidden_line hs hf hh
  refine ⟨hs, hf, hh, hline, fun around hn => ?_⟩
  obtain ⟨-, -, htext⟩ := (hextent.1 3 _ hline).2 around hn
  exact htext "dark" "shown" rfl (by decide) (by decide)

/-! ### Lines that end with the outermost template -/

/-- A template that hides its end. -/
def hidingEnd : Template :=
  .of "t" "[expert]secret" [⟨.factGate .expert, [], "expert"⟩, .literal "secret"]

/-- A run of it behind its gate. -/
def hidingEndGated : Execution :=
  ((start hidingEnd .utf8).advance (.empty none) Facts.empty 1).execution

/-- Where a hidden line ends with the outermost template, a completed run is counted. -/
theorem counted_at_hidden_end :
    compile "t" "[expert]secret" = .ok hidingEnd ∧
      hidingEndGated.state = .running ∧ hidingEndGated.frames = [⟨hidingEnd, 1⟩] ∧
      hidingEndGated.hidden = true ∧
      (∀ j i, ¬ hidingEnd.LineEndsAt 1 j i) ∧
      (hidingEndGated.advance (.empty none) Facts.empty 2).log.tally.completed = 1 := by
  refine ⟨by decide +kernel, by decide, by decide, by decide, fun j i hline => ?_, by decide⟩
  have hends : ¬ ∃ i ∈ hidingEnd.instructions, i.EndsLine := by decide
  exact hends ⟨i, List.mem_of_getElem? hline.at?, hline.ends⟩

end Execution

end BulletinBoard
