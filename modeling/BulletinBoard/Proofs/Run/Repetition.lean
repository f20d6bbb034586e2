/-
# Repeated sequences

A repeated sequence has a length, a text and a count. Compiling sees to it that the length and the
count are numerals of thirty-two bits, and when the instruction is carried out they are read as
sixty-four bits, with the same result; so what can go wrong then is that the count is above the
limit, and this is found out before anything is sent.

The length counts characters and the text goes out as bytes, but the text is divided between two
characters, so the bytes of the whole are those of both parts (`bytes_repeated`).

Key theorems: `bytes_repeated`, `Execution.step_of_repetition`,
`Execution.repeats_beginning_of_text`.
-/
import BulletinBoard.Proofs.Run.Faults

namespace BulletinBoard

open Text Template

/-- The beginning of a text is sent so often, and the rest of it once. -/
theorem bytes_repeated (charset : Charset) (length count : Nat) (text : String) :
    ∃ first rest : String, text = first ++ rest ∧
      first.toList.length = min length text.toList.length ∧
      (repeated length count text).flatMap (Emission.bytes charset) =
        (List.replicate count (charset.encode first)).flatten ++ charset.encode rest := by
  refine ⟨String.ofList (text.toList.take length), String.ofList (text.toList.drop length),
    ?_, ?_, ?_⟩
  · rw [← String.ofList_append, List.take_append_drop, String.ofList_toList]
  · rw [String.toList_ofList, List.length_take]
  · rw [repeated, List.flatMap_append, List.flatMap_replicate, List.flatMap_singleton]
    rfl

namespace Execution

open Instruction

variable {store : Store} {facts : Facts} {e : Execution} {f : Frame} {below : List Frame}
  {i : Instruction}

/-- A sequence that can be repeated is sent, and that is all. -/
theorem step_of_repetition {sent : List Emission} (hf : e.frames = f :: below)
    (hi : f.template.at? f.position = some i) (ho : e.hidden = false)
    (hk : i.kind = .repeatSequence) (hs : i.repetition = .ok sent) :
    e.step store facts = .send { e with frames := f.next :: below } sent := by
  have hdeed : i.deed facts f.template.name e.registers e.response =
      .ok (.send e.registers sent .empty) := by
    simp only [deed, hk, hs]
    rfl
  have hperform : e.perform store facts f.template.name i = .ok (.send e.next sent) := by
    rw [perform_of_deed hdeed, obey, remember_registers]
    rfl
  rw [step_of_open hf hi ho, attempt_of_ok hf hperform, next_of_frames hf]
  rfl

/-- A sequence that cannot be repeated is passed with a warning. -/
theorem step_of_no_repetition {fault : Fault} (hf : e.frames = f :: below)
    (hi : f.template.at? f.position = some i) (ho : e.hidden = false)
    (hk : i.kind = .repeatSequence) (hs : i.repetition = .error fault) :
    e.step store facts = ⟨{ e with frames := f.next :: below }, [],
      .warn (.fault f.template.name .repeatSequence f.position fault)⟩ := by
  have hdeed : i.deed facts f.template.name e.registers e.response = .error fault := by
    simp only [deed, hk, hs]
    rfl
  rw [step_of_open hf hi ho, attempt_of_error hf (perform_of_fault hdeed), hk, next_of_frames hf]
  rfl

/-- **The beginning of the text is repeated, and the rest follows.** Let a run stand at a repeated
sequence of a compiled template, on an open line. The length and the count are numerals, and are the
same number whether they are read as thirty-two bits or as sixty-four. If the count is within the
limit, the run sends the first characters of the text, as many as the length says or all there are,
so many times, and then the others once, and goes on behind the instruction. If the count is above
the limit, it sends nothing, and goes on behind the instruction with a warning. -/
theorem repeats_beginning_of_text (store : Store) (facts : Facts) (hf : e.frames = f :: below)
    (hc : f.template.IsCompiled) (hi : f.template.at? f.position = some i)
    (hk : i.kind = .repeatSequence) (ho : e.hidden = false) :
    ∃ length text count n k, i.args = [length, text, count] ∧
      (Numeral.read? Numeral.max32 length = some n ∧
        Numeral.read? Numeral.max64 length = some n) ∧
      (Numeral.read? Numeral.max32 count = some k ∧
        Numeral.read? Numeral.max64 count = some k) ∧
      (k ≤ repeatLimit → ∃ sent first rest,
        e.step store facts = .send { e with frames := f.next :: below } sent ∧
        text = first ++ rest ∧ first.toList.length = min n text.toList.length ∧
        (e.step store facts).bytes =
          (List.replicate k (e.charset.encode first)).flatten ++ e.charset.encode rest) ∧
      (repeatLimit < k → e.step store facts = ⟨{ e with frames := f.next :: below }, [],
        .warn (.fault f.template.name .repeatSequence f.position
          (.invalidArgument "repeatseq" count))⟩) := by
  obtain ⟨length, text, count, ha, hl, hn⟩ := (hc.wellFormed hi).sequence_args hk
  have harg (p : Nat) : i.arg p = [length, text, count].getD p "" := arg_of_args ha p
  obtain ⟨n, hlength, hn32, hn64⟩ := count_of_isCount (i := i) (p := 0) (by rwa [harg])
  obtain ⟨k, hcount, hk32, hk64⟩ := count_of_isCount (i := i) (p := 2) (by rwa [harg])
  have hrepetition := repetition_of_count hlength hcount
  rw [harg] at hn32 hn64 hk32 hk64
  rw [harg 1, harg 2] at hrepetition
  refine ⟨length, text, count, n, k, ha, ⟨hn32, hn64⟩, ⟨hk32, hk64⟩, fun hle => ?_, fun hlt => ?_⟩
  · rw [if_neg (Nat.not_lt.mpr hle)] at hrepetition
    have hstep : e.step store facts = _ := step_of_repetition hf hi ho hk hrepetition
    obtain ⟨first, rest, htext, hfirst, hbytes⟩ := bytes_repeated e.charset n k text
    refine ⟨repeated n k text, first, rest, hstep, htext, hfirst, ?_⟩
    rw [hstep]
    exact hbytes
  · rw [if_pos hlt] at hrepetition
    exact step_of_no_repetition hf hi ho hk hrepetition

/-- A template that draws a line, and one that would go on for ever. -/
def drawing : Template :=
  .of "t" "[repeatseq +2]─é!?[03][repeatseq 1]─[1025]"
    [⟨.repeatSequence, ["+2", "─é!?", "03"], "repeatseq"⟩,
      ⟨.repeatSequence, ["1", "─", "1025"], "repeatseq"⟩]

/-- The first is sent, three times two characters and then two others, and the second is not. -/
theorem repeats_beginning_of_text_drawing :
    drawing.IsCompiled ∧ (start drawing .cp437).hidden = false ∧
      drawing.at? 0 = some ⟨.repeatSequence, ["+2", "─é!?", "03"], "repeatseq"⟩ ∧
      3 ≤ repeatLimit ∧ repeatLimit < 1025 ∧
      ((start drawing .cp437).step (.empty none) Facts.empty).bytes =
        [0xC4, 0x82, 0xC4, 0x82, 0xC4, 0x82, 0x21, 0x3F] ∧
      (((start drawing .cp437).goTo 1).step (.empty none) Facts.empty).log =
        .warn (.fault "t" .repeatSequence 1 (.invalidArgument "repeatseq" "1025")) := by
  have hcompiled : drawing.IsCompiled := ⟨"t", drawing.source, by decide +kernel⟩
  have hlimit : 3 ≤ repeatLimit ∧ repeatLimit < 1025 := by decide
  refine ⟨hcompiled, rfl, rfl, hlimit.1, hlimit.2, ?_, ?_⟩
  · obtain ⟨_, _, _, n, k, ha, ⟨hn, -⟩, ⟨hk, -⟩, hsends, -⟩ :=
      repeats_beginning_of_text (e := start drawing .cp437) (f := ⟨drawing, 0⟩) (.empty none)
        Facts.empty rfl hcompiled rfl rfl rfl
    cases ha
    have hk3 : k = 3 := Option.some.inj (hk.symm.trans (by decide +kernel))
    have hn2 : n = 2 := Option.some.inj (hn.symm.trans (by decide +kernel))
    obtain ⟨sent, first, rest, -, htext, hfirst, hbytes⟩ := hsends (hk3 ▸ hlimit.1)
    have hparts : first.toList ++ rest.toList = "─é".toList ++ "!?".toList := by
      rw [← String.toList_append, ← htext]
      rfl
    have htwo : first.toList.length = "─é".toList.length := hfirst.trans (by rw [hn2]; rfl)
    obtain ⟨hfirst, hrest⟩ := List.append_inj hparts htwo
    rw [hbytes, String.toList_inj.mp hfirst, String.toList_inj.mp hrest, hk3]
    decide +kernel
  · obtain ⟨_, _, _, n, k, ha, -, ⟨hk, -⟩, -, hwarns⟩ :=
      repeats_beginning_of_text (e := (start drawing .cp437).goTo 1) (f := ⟨drawing, 1⟩)
        (.empty none) Facts.empty rfl hcompiled rfl rfl rfl
    cases ha
    have hk1025 : k = 1025 := Option.some.inj (hk.symm.trans (by decide +kernel))
    rw [hwarns (hk1025 ▸ hlimit.2)]
    rfl

end Execution

end BulletinBoard
