/-
# More privilege never shows less

A template displays if it is made of texts, labels, colors, control sequences, repeated sequences,
facts other than the caller's privilege, gates, and words that the board does not act on. A run of
it goes from one instruction to the next up to the end, whatever the facts
(`Execution.At.state_advance`), and of what an instruction shows on an open line a hidden line lets
through an end at most (`Instruction.reopens?_suffix`).

Of two callers who differ in privilege alone, the one with more sees all that the other sees, in
the same order (`Template.bytes_sublist_of_privilege`). Their runs are at the same instruction at
all times, and the line of the one with more privilege is hidden only where that of the other is
(`Execution.Within`): a gate that opens for less privilege opens for more, and what ends a hidden
line leaves an open line open.

Key definitions: `Instruction.displays`, `Instruction.shown`, `Instruction.reopens?`,
`Facts.PrivilegeLE`, `Execution.Within`.
Key theorems: `Execution.At.step_of_displays`, `Instruction.StaysClosed.of_le`,
`Execution.Within.step`, `Template.bytes_sublist_of_privilege`.
-/
import BulletinBoard.Proofs.Run.Budget
import BulletinBoard.Proofs.Run.HiddenText
import BulletinBoard.Proofs.Run.Inlining

namespace BulletinBoard

open Text Template

/-! ### Instructions that display -/

namespace Template.Instruction

/-- The instruction shows something or hides something, goes nowhere but on, and does not tell the
caller's privilege. -/
def displays (i : Instruction) : Bool :=
  match i.kind with
  | .text | .label | .color _ | .foreground | .control _ | .locate | .repeatSequence
  | .privilegeGate _ | .factGate _ => true
  | .fact f => f != .privilegeLevel
  | _ => i.ignored

/-- What an instruction that displays sends where it is carried out. -/
def shown (facts : Facts) (i : Instruction) : List Emission :=
  match i.kind with
  | .text => [.text i.word]
  | .color _ | .foreground | .control _ | .locate => (i.sequence.toOption.map .control).toList
  | .fact f => ((facts f).map .text).toList
  | .repeatSequence => i.repetition.toOption.getD []
  | _ => []

variable {facts : Facts} {name : String} {r r' : Registers} {answer : Option String}
  {i : Instruction}

theorem color?_of_sequence {bytes : List UInt8} (h : i.sequence = .ok bytes) :
    ∃ selected, i.color? = .ok selected := by
  obtain ⟨selected, hselected, -⟩ := ok_of_bind h
  exact ⟨selected, hselected⟩

theorem shown_of_ignored (facts : Facts) (h : i.ignored = true) : i.shown facts = [] := by
  unfold ignored at h
  unfold shown
  split at h
  case h_4 => cases h
  all_goals
    rename_i hk
    rw [hk]

/-- An instruction that displays goes on behind itself, or cannot be carried out. -/
theorem deed_of_displays (h : i.displays = true) (facts : Facts) (name : String) (r : Registers)
    (answer : Option String) :
    (∃ fault, i.deed facts name r answer = .error fault ∧ i.shown facts = []) ∨
      ∃ r' log, i.deed facts name r answer = .ok (.send r' (i.shown facts) log) := by
  unfold displays at h
  split at h
  case h_11 => exact .inr ⟨_, _, shown_of_ignored facts h ▸ deed_of_ignored h⟩
  all_goals
    rename_i hk
    unfold deed shown
    rw [hk]
    dsimp only
  case h_1 | h_2 => exact .inr ⟨_, _, rfl⟩
  -- the control sequences
  case h_3 | h_4 | h_5 | h_6 =>
    cases hs : i.sequence with
    | error fault => exact .inl ⟨fault, rfl, rfl⟩
    | ok bytes =>
      obtain ⟨selected, hselected⟩ := color?_of_sequence hs
      rw [hselected]
      exact .inr ⟨_, _, rfl⟩
  case h_7 =>
    cases i.repetition with
    | error fault => exact .inl ⟨fault, rfl, rfl⟩
    | ok sent => exact .inr ⟨_, _, rfl⟩
  -- the gates
  case h_8 =>
    unfold passPrivilege
    split <;> exact .inr ⟨_, _, rfl⟩
  case h_9 => split <;> exact .inr ⟨_, _, rfl⟩
  case h_10 f =>
    cases facts f with
    | none => exact .inl ⟨_, rfl, rfl⟩
    | some value => exact .inr ⟨_, _, rfl⟩

/-- A line that is open stays open where no gate closes it. -/
theorem hidden_of_deed {sent : List Emission} {log : Log}
    (h : i.deed facts name r answer = .ok (.send r' sent log)) (ho : ¬ i.StaysClosed facts) :
    r'.hidden = r.hidden := by
  by_cases hg : i.IsGate
  · unfold deed at h
    unfold StaysClosed at ho
    rcases hg with ⟨g, hk⟩ | ⟨g, hk⟩
    · rw [hk] at h ho
      have hopens : opens? facts (i.arg 0) = some true := not_not.mp ho
      unfold passPrivilege at h
      rw [hopens] at h
      cases h
      rfl
    · rw [hk] at h ho
      have hholds : g.test.holds facts = true := eq_true_of_ne_false ho
      dsimp only at h
      rw [if_pos hholds] at h
      cases h
      rfl
  · exact (sends_of_deed h).hidden hg

theorem StaysClosed.isGate (h : i.StaysClosed facts) : i.IsGate := by
  unfold StaysClosed at h
  split at h
  · rename_i g hk
    exact .inl ⟨g, hk⟩
  · rename_i g hk
    exact .inr ⟨g, hk⟩
  · exact h.elim

/-- What an instruction sends on a hidden line that it ends. -/
def reopens? (i : Instruction) : Option (List Emission) :=
  match i.kind with
  | .text => (Execution.afterLineFeed? i.word).map fun rest => [.text rest]
  | .control .lineFeed => some []
  | _ => none

theorem reopens?_of_isGate (h : i.IsGate) : i.reopens? = none := by
  rcases h with ⟨g, hk⟩ | ⟨g, hk⟩ <;> simp [reopens?, hk]

end Template.Instruction

/-- What follows a line feed of a text is sent as the end of what the text is sent as. -/
theorem Execution.encode_suffix_of_afterLineFeed? {text rest : String}
    (h : afterLineFeed? text = some rest) (charset : Charset) :
    charset.encode rest <:+ charset.encode text := by
  unfold afterLineFeed? at h
  split at h
  · cases h
  · rename_i c cs hdrop
    cases h
    have hsplit : text.toList.takeWhile (· != '\n') ++ text.toList.dropWhile (· != '\n') =
        text.toList := List.takeWhile_append_dropWhile
    have htext : text = String.ofList (text.toList.takeWhile (· != '\n') ++ [c]) ++
        String.ofList cs := by
      rw [← String.ofList_append, List.append_assoc, List.singleton_append, ← hdrop, hsplit,
        String.ofList_toList]
    rw [htext, Charset.encode_append]
    exact List.suffix_append _ _

/-- What shows of an instruction on a hidden line is the end of what shows of it on an open one. -/
theorem Template.Instruction.reopens?_suffix {i : Instruction} (facts : Facts) (charset : Charset) :
    (i.reopens?.getD []).flatMap (Emission.bytes charset) <:+
      (i.shown facts).flatMap (Emission.bytes charset) := by
  cases h : i.reopens? with
  | none => exact List.nil_suffix
  | some sent =>
    unfold reopens? at h
    split at h
    · rename_i hk
      obtain ⟨rest, hrest, rfl⟩ := Option.map_eq_some_iff.mp h
      have hsuffix := Execution.encode_suffix_of_afterLineFeed? hrest charset
      simpa [shown, hk, Emission.bytes] using hsuffix
    · cases h
      exact List.nil_suffix
    · cases h

/-! ### Runs that display -/

namespace Execution

variable {store : Store} {facts : Facts} {e : Execution} {t : Template} {p : Nat} {i : Instruction}

/-- An instruction is passed over on a hidden line, or ends it. -/
theorem hide_eq (e : Execution) (i : Instruction) :
    e.hide i =
      match i.reopens? with
      | some sent => .send { e.next with hidden := false } sent
      | none => .quiet e.next := by
  unfold hide
  split
  · rename_i hk
    simp only [Instruction.reopens?, hk]
    cases afterLineFeed? i.word <;> rfl
  · rename_i hk
    simp only [Instruction.reopens?, hk]
    rfl
  · rename_i htext hfeed
    have hnone : i.reopens? = none := by
      unfold Instruction.reopens?
      split
      · exact absurd ‹_› htext
      · exact absurd ‹_› hfeed
      · rfl
    rw [hnone]

/-- The run is running, at a place of its only template. -/
structure At (t : Template) (p : Nat) (e : Execution) : Prop where
  frames : e.frames = [⟨t, p⟩]
  running : e.state = .running

namespace At

variable (h : e.At t p)
include h

theorem next (r : Registers) : (e.remember r).next.At t (p + 1) := by
  have hframes : (e.remember r).frames = [⟨t, p⟩] := h.frames
  rw [next_of_frames hframes]
  exact ⟨rfl, h.running⟩

theorem step_of_end (hi : t.at? p = none) :
    e.step store facts = { e with frames := [], hidden := false }.finish .completed := by
  rw [step_of_none h.frames hi, leave, h.frames]
  rfl

theorem step_of_hidden (hi : t.at? p = some i) (hh : e.hidden = true) :
    e.step store facts =
      .send (e.remember { e.registers with hidden := i.reopens?.isNone }).next
        (i.reopens?.getD []) := by
  have hnext (r : Registers) : (e.remember r).next =
      { e.remember r with frames := [⟨t, p + 1⟩] } :=
    next_of_frames (show (e.remember r).frames = _ from h.frames)
  rw [Execution.step_of_hidden h.frames hi hh, hide_eq, hnext, next_of_frames h.frames]
  cases i.reopens? with
  | some sent => rfl
  | none =>
    show Advance.quiet { e with frames := [⟨t, p + 1⟩] } =
      .quiet { e with frames := [⟨t, p + 1⟩], hidden := true }
    rw [← hh]

/-- On an open line the run passes an instruction that displays, and hides the rest of the line
just at a gate that stays closed. -/
theorem step_of_displays (hi : t.at? p = some i) (ho : e.hidden = false) (hd : i.displays = true)
    (store : Store) (facts : Facts) :
    ∃ r log, e.step store facts = ⟨(e.remember r).next, i.shown facts, log⟩ ∧
      (r.hidden = true ↔ i.StaysClosed facts) := by
  rw [step_of_open h.frames hi ho]
  have hr : e.registers.hidden = false := ho
  rcases i.deed_of_displays hd facts t.name e.registers e.response with
    ⟨fault, hdeed, hshown⟩ | ⟨r, log, hdeed⟩
  · rw [attempt_of_error h.frames (perform_of_fault hdeed), hshown]
    refine ⟨e.registers, _, rfl, fun hh => ?_, fun hc => ?_⟩
    · rw [hr] at hh
      cases hh
    · obtain ⟨log, hclosed⟩ := hc.deed t.name e.registers e.response
      cases hdeed.symm.trans hclosed
  · rw [attempt_of_ok h.frames (perform_of_deed hdeed)]
    refine ⟨r, log, rfl, fun hh => ?_, fun hc => ?_⟩
    · by_contra hc
      rw [Instruction.hidden_of_deed hdeed hc, hr] at hh
      cases hh
    · obtain ⟨log', hclosed⟩ := hc.deed t.name e.registers e.response
      have hsend := Except.ok.inj (hdeed.symm.trans hclosed)
      rw [(Deed.send.inj hsend).1]

/-- On a hidden line and on an open one, a step leaves the run behind the instruction. -/
theorem step (hi : t.at? p = some i) (hd : i.displays = true) :
    (e.step store facts).execution.At t (p + 1) := by
  cases hh : e.hidden with
  | true =>
    rw [h.step_of_hidden hi hh]
    exact h.next _
  | false =>
    obtain ⟨r, log, hstep, -⟩ := h.step_of_displays hi hh hd store facts
    rw [hstep]
    exact h.next r

/-- **A run that displays is completed**, in a step for each instruction and one for the end. -/
theorem state_advance (hd : ∀ i ∈ t.instructions, i.displays = true) (hp : p ≤ t.size) {n : Nat}
    (hn : t.size < p + n) :
    (e.advance store facts n).execution.state = .finished .completed := by
  induction n generalizing e p with
  | zero => omega
  | succ n ih =>
    rw [advance_succ h.running]
    cases hi : t.at? p with
    | none =>
      rw [h.step_of_end hi, advance_of_finished rfl]
      rfl
    | some i =>
      have hlt : p < t.size := (List.getElem?_eq_some_iff.mp hi).1
      exact ih (h.step hi (hd i (List.mem_of_getElem? hi))) hlt (by omega)

end At

end Execution

/-! ### Two callers -/

/-- The same but for the caller's privilege, which is as high with the second at least. A privilege
that is not told, or cannot be read, is the lowest. -/
structure Facts.PrivilegeLE (facts₁ facts₂ : Facts) : Prop where
  same : ∀ f, f ≠ .privilegeLevel → facts₁ f = facts₂ f
  level : privilegeOrLowest facts₁ ≤ privilegeOrLowest facts₂

namespace Template.Instruction

variable {facts₁ facts₂ : Facts} {i : Instruction} (h : facts₁.PrivilegeLE facts₂)
include h

/-- **A gate that stays closed for more privilege stays closed for less.** -/
theorem StaysClosed.of_le (hc : i.StaysClosed facts₂) : i.StaysClosed facts₁ := by
  unfold StaysClosed at hc ⊢
  split at hc
  · intro hopens
    obtain ⟨level, hlevel, hle⟩ := Option.map_eq_some_iff.mp hopens
    refine hc (Option.map_eq_some_iff.mpr ⟨level, hlevel, ?_⟩)
    exact decide_eq_true ((of_decide_eq_true hle).trans h.level)
  · rename_i g hk
    have hfact : g.test.fact ≠ .privilegeLevel := by
      cases g <;> decide
    rw [← hc, FactTest.holds, FactTest.holds, h.same _ hfact]
  · exact hc

theorem shown_eq (hd : i.displays = true) : i.shown facts₁ = i.shown facts₂ := by
  unfold shown
  split
  case h_6 f hk =>
    have hf : (f != .privilegeLevel) = true := by
      simpa only [displays, hk] using hd
    rw [h.same f (bne_iff_ne.mp hf)]
  all_goals rfl

end Template.Instruction

namespace Execution

variable {store : Store} {facts₁ facts₂ : Facts} {e₁ e₂ : Execution} {t : Template} {p : Nat}
  {i : Instruction}

/-- Two runs at one place, of which the first is on a hidden line if the second is. -/
structure Within (t : Template) (p : Nat) (e₁ e₂ : Execution) : Prop where
  first : e₁.At t p
  second : e₂.At t p
  charset : e₁.charset = e₂.charset
  hidden : e₂.hidden = true → e₁.hidden = true

theorem charset_passed (e : Execution) (r : Registers) :
    (e.remember r).next.charset = e.charset := (e.remember r).keeps_next.1

theorem bytes_passed (e : Execution) (r : Registers) (sent : List Emission) (log : Log) :
    Advance.bytes ⟨(e.remember r).next, sent, log⟩ = sent.flatMap (Emission.bytes e.charset) := by
  rw [Advance.bytes, charset_passed]

namespace Within

variable (h : Within t p e₁ e₂) (hle : facts₁.PrivilegeLE facts₂)
include h

theorem passed {r₁ r₂ : Registers} (hr : r₂.hidden = true → r₁.hidden = true) :
    Within t (p + 1) (e₁.remember r₁).next (e₂.remember r₂).next := by
  refine ⟨h.first.next r₁, h.second.next r₂, ?_, ?_⟩
  · rw [charset_passed, charset_passed, h.charset]
  · rw [next_of_frames (show (e₁.remember r₁).frames = _ from h.first.frames),
      next_of_frames (show (e₂.remember r₂).frames = _ from h.second.frames)]
    exact hr

include hle

/-- **A step shows the caller with more privilege all that it shows the other**, and keeps the line
of the one open where it leaves that of the other open. -/
theorem step (hi : t.at? p = some i) (hd : i.displays = true) :
    (e₁.step store facts₁).bytes.Sublist (e₂.step store facts₂).bytes ∧
      Within t (p + 1) (e₁.step store facts₁).execution (e₂.step store facts₂).execution := by
  cases hh₁ : e₁.hidden with
  | true =>
    rw [h.first.step_of_hidden hi hh₁]
    cases hh₂ : e₂.hidden with
    | true =>
      -- both lines are hidden, and both or none end here
      rw [h.second.step_of_hidden hi hh₂, Advance.send, Advance.send, bytes_passed, bytes_passed,
        h.charset]
      exact ⟨List.Sublist.refl _, h.passed id⟩
    | false =>
      -- the first line may end here, and the second be closed at a gate, but not both
      obtain ⟨r, log, hstep, hr⟩ := h.second.step_of_displays hi hh₂ hd store facts₂
      rw [hstep, Advance.send, bytes_passed, bytes_passed, h.charset]
      refine ⟨(Instruction.reopens?_suffix facts₂ _).sublist, h.passed fun hhidden => ?_⟩
      have hgate : i.IsGate := (hr.mp hhidden).isGate
      show i.reopens?.isNone = true
      rw [Instruction.reopens?_of_isGate hgate]
      rfl
  | false =>
    have hh₂ : e₂.hidden = false := by
      by_contra hne
      rw [h.hidden (by simpa using hne)] at hh₁
      cases hh₁
    -- both lines are open, and the instruction is carried out twice
    obtain ⟨r₁, log₁, hstep₁, hr₁⟩ := h.first.step_of_displays hi hh₁ hd store facts₁
    obtain ⟨r₂, log₂, hstep₂, hr₂⟩ := h.second.step_of_displays hi hh₂ hd store facts₂
    rw [hstep₁, hstep₂, bytes_passed, bytes_passed, h.charset, Instruction.shown_eq hle hd]
    exact ⟨List.Sublist.refl _, h.passed fun hhidden => hr₁.mpr ((hr₂.mp hhidden).of_le hle)⟩

theorem advance (hd : ∀ i ∈ t.instructions, i.displays = true) (n : Nat) :
    (e₁.advance store facts₁ n).bytes.Sublist (e₂.advance store facts₂ n).bytes := by
  induction n generalizing e₁ e₂ p with
  | zero => exact List.Sublist.refl _
  | succ n ih =>
    rw [bytes_advance_succ h.first.running, bytes_advance_succ h.second.running]
    cases hi : t.at? p with
    | none =>
      rw [h.first.step_of_end hi, h.second.step_of_end hi, advance_of_finished rfl,
        advance_of_finished rfl]
      exact List.Sublist.refl _
    | some i =>
      obtain ⟨hbytes, hwithin⟩ := h.step hle hi (hd i (List.mem_of_getElem? hi))
      exact hbytes.append (ih hwithin)

end Within

end Execution

namespace Template

/-- **More privilege never shows less.** Let a template be made of instructions that display, and
let two callers differ in their privilege alone. Then a run for either is completed, and what it
sends the caller with less privilege is, at all times and in the end, what it sends the other with
some bytes left out. -/
theorem bytes_sublist_of_privilege {t : Template} (hd : ∀ i ∈ t.instructions, i.displays = true)
    {facts₁ facts₂ : Facts} (hle : facts₁.PrivilegeLE facts₂) (store : Store) (charset : Charset) :
    (∀ calls, ((Execution.start t charset).advances store facts₁ stepBudget calls).bytes.Sublist
      ((Execution.start t charset).advances store facts₂ stepBudget calls).bytes) ∧
    ∀ calls, t.size < calls * stepBudget →
      ((Execution.start t charset).advances store facts₁ stepBudget calls).execution.state =
          .finished .completed ∧
        ((Execution.start t charset).advances store facts₂ stepBudget calls).execution.state =
          .finished .completed := by
  have hstart : (Execution.start t charset).At t 0 := ⟨rfl, rfl⟩
  have hwithin : Execution.Within t 0 (.start t charset) (.start t charset) :=
    ⟨hstart, hstart, rfl, id⟩
  simp only [Execution.advances_eq_advance]
  refine ⟨fun calls => hwithin.advance hle hd _, fun calls hc => ?_⟩
  have hlong : t.size < 0 + calls * stepBudget := by rwa [Nat.zero_add]
  exact ⟨hstart.state_advance hd (Nat.zero_le _) hlong,
    hstart.state_advance hd (Nat.zero_le _) hlong⟩

/-- A template with two gates on a line, one of them for a level there is not, and with lines that
end in a text and by an instruction. -/
def gatedBoard : Template :=
  .of "board" "[acs sysop]Logs\nNews[access 300000]x[lf][acs twit]Hi [acs Worthy][fg red]you[lf]Bye"
    [⟨.privilegeGate .acs, ["sysop"], "acs"⟩, .literal "Logs\nNews",
    ⟨.privilegeGate .access, ["300000"], "access"⟩, .literal "x", ⟨.control .lineFeed, [], "lf"⟩,
    ⟨.privilegeGate .acs, ["twit"], "acs"⟩, .literal "Hi ",
    ⟨.privilegeGate .acs, ["Worthy"], "acs"⟩, ⟨.foreground, ["red"], "fg"⟩, .literal "you",
    ⟨.control .lineFeed, [], "lf"⟩, .literal "Bye"]

/-- A caller whose level cannot be read is shown a part of what one at level 45 is shown. -/
theorem bytes_sublist_gatedBoard :
    (∀ i ∈ gatedBoard.instructions, i.displays = true) ∧
      (Facts.empty.set .privilegeLevel "?").PrivilegeLE (Facts.empty.set .privilegeLevel "45") ∧
      ((Execution.start gatedBoard .utf8).advances (.empty none)
          (Facts.empty.set .privilegeLevel "?") stepBudget 1).bytes.Sublist
        ((Execution.start gatedBoard .utf8).advances (.empty none)
          (Facts.empty.set .privilegeLevel "45") stepBudget 1).bytes ∧
      gatedBoard.size < 1 * stepBudget ∧
      ((Execution.start gatedBoard .utf8).advances (.empty none)
          (Facts.empty.set .privilegeLevel "?") stepBudget 1).execution.state =
            .finished .completed ∧
        ((Execution.start gatedBoard .utf8).advances (.empty none)
          (Facts.empty.set .privilegeLevel "45") stepBudget 1).execution.state =
            .finished .completed := by
  have hd : ∀ i ∈ gatedBoard.instructions, i.displays = true := by decide
  have hle : (Facts.empty.set .privilegeLevel "?").PrivilegeLE
      (Facts.empty.set .privilegeLevel "45") := by
    refine ⟨fun f hf => ?_, by decide +kernel⟩
    rw [Facts.set_of_ne _ _ hf, Facts.set_of_ne _ _ hf]
  have hsize : gatedBoard.size < 1 * stepBudget := by decide
  obtain ⟨hbytes, hcompleted⟩ := bytes_sublist_of_privilege hd hle (.empty none) .utf8
  exact ⟨hd, hle, hbytes 1, hsize, hcompleted 1 hsize⟩

end Template

end BulletinBoard
