/-
# A line that gives out

A line takes so many bytes and then refuses. What it has taken of a run is the beginning of what a
line that takes everything is sent, to the byte, wherever it gives out (`conduct_narrowed`). As long
as all fits, the two runs do the same but for the room that is left (`Run.turn_narrowed`). Of the
first bytes that do not fit the beginning is taken (`Run.refusal?_narrowed`), and the run is over
with them and reads and fetches nothing any more (`Run.drive_of_refusal`).

Key definitions: `Line.narrowed`, `Run.narrowed`, `Run.Narrows`.
Key theorems: `Run.respond_narrowed`, `Run.turn_narrowed`, `Run.drive_of_refusal`,
`Run.drive_narrowed`, `conduct_narrowed`.
-/
import BulletinBoard.Proofs.Run.Hangup
import BulletinBoard.Proofs.Run.Refusal
import BulletinBoard.Proofs.Run.Transcript

namespace BulletinBoard

open Text Template

/-! ### Narrow lines -/

namespace Line

/-- The same line, where the caller takes so many bytes more. -/
def narrowed (n : Nat) (l : Line) : Line := { l with room := some n }

variable {l : Line} {n : Nat} {bytes : List UInt8}

theorem hear_narrowed (l : Line) (n : Nat) :
    (l.narrowed n).hear = (l.hear.1, l.hear.2.narrowed n) := by
  have hsplit : splitLine? (l.narrowed n).incoming = splitLine? l.incoming := rfl
  have hending : (l.narrowed n).ending = l.ending := rfl
  unfold hear
  rw [hsplit]
  split
  · rfl
  · dsimp only
    rw [hending]
    cases l.ending <;> rfl

theorem send_narrowed (hf : l.flushes = none) (h : bytes.length ≤ n) :
    (l.narrowed n).send bytes = ((l.told bytes).narrowed (n - bytes.length), none) := by
  have hw : (l.narrowed n).write bytes = ((l.told bytes).narrowed (n - bytes.length), none) := by
    unfold write narrowed told
    dsimp only
    rw [if_pos h, List.take_of_length_le h]
  have hflush : ((l.told bytes).narrowed (n - bytes.length)).flushes = none := hf
  unfold send flush
  rw [hw]
  dsimp only
  rw [hflush]

/-- Of what does not fit the beginning is taken. -/
theorem send_of_narrow (h : n < bytes.length) :
    (l.narrowed n).send bytes = ((l.told (bytes.take n)).narrowed 0, some l.refusal) := by
  have hw : (l.narrowed n).write bytes =
      ((l.told (bytes.take n)).narrowed 0, some l.refusal) := by
    unfold write narrowed told
    dsimp only
    rw [if_neg (Nat.not_le.mpr h), Nat.sub_eq_zero_of_le (Nat.le_of_lt h)]
  unfold send
  rw [hw]

end Line

namespace Run

variable {disk : Disk} {facts : ChangingFacts} {r : Run} {n : Nat}

/-- The same run on a line that takes so many bytes more. -/
def narrowed (n : Nat) (r : Run) : Run := { r with line := r.line.narrowed n }

theorem counted_narrowed (facts : ChangingFacts) (r : Run) (n : Nat) :
    (r.narrowed n).counted facts stepBudget = (r.counted facts stepBudget).narrowed n := rfl

theorem spoken_narrowed (facts : ChangingFacts) (r : Run) (n : Nat) :
    (r.narrowed n).spoken facts = r.spoken facts := rfl

/-! ### Turns in which all fits -/

theorem utter_narrowed (hl : r.line.IsOpen) {a : Advance} (h : a.bytes.length ≤ n) :
    (r.narrowed n).utter a = (r.utter a).narrowed (n - a.bytes.length) := by
  rw [utter_of_unbounded hl.room hl.flushes]
  unfold utter
  dsimp only
  split
  · rename_i hb
    rw [List.isEmpty_iff.mp hb, List.append_nil]
    rfl
  · rw [show ((r.narrowed n).take a).line = r.line.narrowed n from rfl,
      Line.send_narrowed hl.flushes h]
    rfl

theorem fallSilent_narrowed (r : Run) (n : Nat) :
    (r.narrowed n).fallSilent = r.fallSilent.narrowed n := by
  have hsignal : (r.narrowed n).line.signal = r.line.signal := rfl
  unfold fallSilent
  rw [hsignal]
  cases r.line.signal <;> rfl

theorem listen_narrowed (r : Run) (n : Nat) (hangupFirst : Bool) :
    (r.narrowed n).listen hangupFirst = (r.listen hangupFirst).narrowed n := by
  have hline : (r.narrowed n).line = r.line.narrowed n := rfl
  have hsignal : (r.line.narrowed n).signal = r.line.signal := rfl
  unfold listen
  rw [hline, Line.hear_narrowed, hsignal]
  dsimp only
  split
  · rfl
  split
  · rfl
  · rfl
  · rfl
  · exact fallSilent_narrowed { r with line := r.line.hear.2 } n

/-- What a run is given does not depend on how much its line still takes. -/
theorem respond_narrowed (r : Run) (n : Nat) (disk : Disk) (hangupFirst : Bool) :
    (r.narrowed n).respond disk hangupFirst = (r.respond disk hangupFirst).narrowed n := by
  have hstate : (r.narrowed n).execution.state = r.execution.state := rfl
  have hsignal : (r.narrowed n).line.signal = r.line.signal := rfl
  unfold respond
  rw [hstate]
  split
  · rfl
  · rw [hsignal]
    split <;> rfl
  · rename_i name hi
    have hstore : (r.narrowed n).store = r.store := rfl
    unfold fetch receive
    rw [hstore]
    split
    · rfl
    · rfl
  · exact listen_narrowed r n hangupFirst

/-- What a run is given takes from what comes in at most. -/
theorem line_respond (r : Run) (disk : Disk) (hangupFirst : Bool) :
    ∃ incoming, (r.respond disk hangupFirst).line = { r.line with incoming } := by
  unfold respond
  split
  · exact ⟨_, rfl⟩
  · split <;> exact ⟨_, rfl⟩
  · unfold fetch receive
    dsimp only
    split <;> exact ⟨_, rfl⟩
  · obtain ⟨incoming, hheard⟩ := r.line.hear_cases
    unfold listen fallSilent
    dsimp only
    rw [hheard]
    split
    · exact ⟨_, rfl⟩
    split
    · exact ⟨_, rfl⟩
    · exact ⟨_, rfl⟩
    · exact ⟨_, rfl⟩
    · dsimp only
      split <;> exact ⟨_, rfl⟩

theorem line_turn (hl : r.line.IsOpen) (hg : r.phase = .going) (disk : Disk) (facts : ChangingFacts)
    (hangupFirst : Bool) : ∃ incoming, (r.turn disk facts hangupFirst).line =
      { r.line.told (r.spoken facts).bytes with incoming } := by
  have hspeak := speak_of_isOpen hl facts
  have hgoing : (r.speak facts stepBudget).phase = .going := by rw [hspeak]; exact hg
  obtain ⟨incoming, hline⟩ := (r.speak facts stepBudget).line_respond disk hangupFirst
  refine ⟨incoming, ?_⟩
  rw [turn_of_going hg hgoing, hline, hspeak]

/-- **While all fits, a turn on the narrow line is the turn on a line that takes everything.** -/
theorem turn_narrowed (hl : r.line.IsOpen) (hg : r.phase = .going)
    (h : (r.spoken facts).bytes.length ≤ n) (disk : Disk) (hangupFirst : Bool) :
    (r.narrowed n).turn disk facts hangupFirst =
      (r.turn disk facts hangupFirst).narrowed (n - (r.spoken facts).bytes.length) := by
  have hspeak : (r.narrowed n).speak facts stepBudget =
      (r.speak facts stepBudget).narrowed (n - (r.spoken facts).bytes.length) := by
    rw [speak_eq_utter_spoken, speak_eq_utter_spoken, spoken_narrowed, counted_narrowed]
    exact utter_narrowed (r := r.counted facts stepBudget) hl h
  have hgoing : (r.speak facts stepBudget).phase = .going := by
    rw [speak_of_isOpen hl]
    exact hg
  have hg' : (r.narrowed n).phase = .going := hg
  have hgoing' : ((r.narrowed n).speak facts stepBudget).phase = .going := by
    rw [hspeak]
    exact hgoing
  rw [turn_of_going hg hgoing, turn_of_going hg' hgoing', hspeak, respond_narrowed]

/-! ### The turn in which something does not fit -/

/-- What does not fit is refused, with its beginning on the line. -/
theorem refusal?_narrowed (h : n < (r.spoken facts).bytes.length) :
    (r.narrowed n).refusal? facts = some r.line.refusal ∧
      ((r.narrowed n).speak facts stepBudget).line.outgoing =
        r.line.outgoing ++ (r.spoken facts).bytes.take n := by
  have hsend := Line.send_of_narrow (l := r.line) h
  have hb : (r.spoken facts).bytes.isEmpty = false :=
    List.isEmpty_eq_false_iff.mpr (List.ne_nil_of_length_pos (Nat.zero_lt_of_lt h))
  constructor
  · unfold refusal?
    rw [spoken_narrowed, show (r.narrowed n).line = r.line.narrowed n from rfl, hb, hsend]
    rfl
  · have hline : (((r.counted facts stepBudget).narrowed n).take (r.spoken facts)).line =
        r.line.narrowed n := rfl
    rw [speak_eq_utter_spoken, spoken_narrowed, counted_narrowed]
    unfold utter
    dsimp only
    rw [hb, hline, hsend]
    rfl

theorem turn_eq_speak_of_refusal {text : String} (hg : r.phase = .going)
    (hw : r.refusal? facts = some text) (disk : Disk) (hangupFirst : Bool) :
    r.turn disk facts hangupFirst = r.speak facts stepBudget ∧
      (r.speak facts stepBudget).phase = .over := by
  obtain ⟨hb, hs⟩ := refused_of_refusal? hw
  have hover : (r.speak facts stepBudget).phase = .over :=
    (speak_of_refused (List.isEmpty_eq_false_iff.mpr hb) hs).1
  exact ⟨turn_of_spoken hg (by rw [hover]; decide) hangupFirst, hover⟩

/-- **After a refusal nothing is read or fetched any more.** Whatever the line refuses, the run is
over with that, and has the store and what comes in as they were before the turn. -/
theorem drive_of_refusal {races : Nat → Bool} {k turns : Nat} {text : String}
    (hg : (r.drive disk facts races k).phase = .going)
    (hw : (r.drive disk facts races k).refusal? facts = some text) (hk : k < turns) :
    r.drive disk facts races turns = (r.drive disk facts races k).speak facts stepBudget ∧
      (r.drive disk facts races turns).phase = .over ∧
      (r.drive disk facts races turns).store = (r.drive disk facts races k).store ∧
      (r.drive disk facts races turns).line.incoming =
        (r.drive disk facts races k).line.incoming := by
  obtain ⟨more, rfl⟩ := Nat.exists_eq_add_of_lt hk
  obtain ⟨hturn, hover⟩ := turn_eq_speak_of_refusal hg hw disk (races (0 + k))
  have hdrive : r.drive disk facts races (k + more + 1) =
      (r.drive disk facts races k).speak facts stepBudget := by
    rw [Nat.add_assoc, drive_add, drive_succ hg, hturn, drive_of_not_going]
    rw [hover]
    decide
  rw [hdrive]
  exact ⟨rfl, hover, (utter_cases _ _).1, (utter_keeps _ _).1⟩

/-! ### Runs -/

/-- What a line that takes `n` bytes more has of the bytes a run says in so many turns: all of them,
and the run is the same, or the beginning, and some turn is refused. -/
structure Narrows (disk : Disk) (facts : ChangingFacts) (races : Nat → Bool) (turns : Nat) (r : Run)
    (said : List UInt8) (n : Nat) : Prop where
  taken : ((r.narrowed n).drive disk facts races turns).line.outgoing =
    r.line.outgoing ++ said.take n
  same : said.length ≤ n → (r.narrowed n).drive disk facts races turns =
    (r.drive disk facts races turns).narrowed (n - said.length)
  refused : n < said.length → ∃ k < turns,
    ((r.narrowed n).drive disk facts races k).phase = .going ∧
      ((r.narrowed n).drive disk facts races k).refusal? facts = some r.line.refusal

section

variable {races : Nat → Bool} {turns : Nat} {said : List UInt8}

theorem narrows_nil (hr : r.drive disk facts races turns = r)
    (hn : (r.narrowed n).drive disk facts races turns = r.narrowed n) :
    Narrows disk facts races turns r [] n where
  taken := by
    rw [hn, List.take_nil, List.append_nil]
    rfl
  same _ := by
    rw [hr, hn]
    rfl
  refused h := by cases h

/-- The first turn may be refused, whatever was said in the others. -/
theorem narrows_of_narrow (hg : r.phase = .going) (h : n < (r.spoken facts).bytes.length)
    (said : List UInt8) :
    Narrows disk facts races (turns + 1) r ((r.spoken facts).bytes ++ said) n := by
  obtain ⟨hrefused, hbegun⟩ := refusal?_narrowed h
  have hgoing : ((r.narrowed n).drive disk facts races 0).phase = .going := hg
  have hlast := (drive_of_refusal hgoing hrefused (Nat.succ_pos turns)).1
  refine ⟨?_, fun hle => ?_, fun _ => ⟨0, Nat.succ_pos turns, hgoing, hrefused⟩⟩
  · rw [hlast, List.take_append_of_le_length (Nat.le_of_lt h)]
    exact hbegun
  · rw [List.length_append] at hle
    omega

/-- If the first turn fits, the others have what is left. -/
theorem Narrows.turn (hl : r.line.IsOpen) (hg : r.phase = .going)
    (hle : (r.spoken facts).bytes.length ≤ n)
    (h : Narrows disk facts (fun k => races (k + 1)) turns (r.turn disk facts (races 0)) said
      (n - (r.spoken facts).bytes.length)) :
    Narrows disk facts races (turns + 1) r ((r.spoken facts).bytes ++ said) n := by
  have hg' : (r.narrowed n).phase = .going := hg
  obtain ⟨incoming, hline⟩ := line_turn hl hg disk facts (races 0)
  have hturn := turn_narrowed hl hg hle disk (races 0)
  refine ⟨?_, fun hall => ?_, fun hmore => ?_⟩
  · rw [drive_succ hg', hturn, h.taken, hline, List.take_append, List.take_of_length_le hle]
    exact List.append_assoc _ _ _
  · rw [List.length_append] at hall ⊢
    rw [drive_succ hg', drive_succ hg, hturn, h.same (by omega), Nat.sub_sub]
  · rw [List.length_append] at hmore
    obtain ⟨k, hk, hgoing, hrefused⟩ := h.refused (by omega)
    refine ⟨k + 1, by omega, ?_⟩
    rw [drive_succ hg', hturn]
    rw [hline] at hrefused
    exact ⟨hgoing, hrefused⟩

/-- **What a narrow line has taken is the beginning of what was said**, after any number of turns
and for any number of bytes. -/
theorem drive_narrowed (hl : r.line.IsOpen) (disk : Disk) (facts : ChangingFacts)
    (races : Nat → Bool) (turns : Nat) :
    ∃ said, (r.drive disk facts races turns).line.outgoing = r.line.outgoing ++ said ∧
      ∀ n, Narrows disk facts races turns r said n := by
  induction turns generalizing r races with
  | zero => exact ⟨[], (List.append_nil _).symm, fun n => narrows_nil rfl rfl⟩
  | succ turns ih =>
    by_cases hg : r.phase = .going
    · obtain ⟨incoming, hline⟩ := line_turn hl hg disk facts (races 0)
      have hopen : (r.turn disk facts (races 0)).line.IsOpen := by
        rw [hline]
        exact ⟨hl.room, hl.flushes, hl.signal⟩
      obtain ⟨said, hsaid, hnarrows⟩ := ih hopen (fun k => races (k + 1))
      refine ⟨(r.spoken facts).bytes ++ said, ?_, fun n => ?_⟩
      · rw [drive_succ hg, hsaid, hline]
        exact List.append_assoc _ _ _
      · rcases Nat.lt_or_ge n (r.spoken facts).bytes.length with hlt | hle
        · exact narrows_of_narrow hg hlt said
        · exact (hnarrows _).turn hl hg hle
    · refine ⟨[], ?_, fun n => narrows_nil (drive_of_not_going hg _ _) ?_⟩
      · rw [drive_of_not_going hg, List.append_nil]
      · exact drive_of_not_going (r := r.narrowed n) hg _ _

/-- What is left behind by a run that is over, on the line and on the same line with less room. -/
theorem conducted?_narrowed {c : Conducted} (hl : r.line.IsOpen)
    (h : (r.drive disk facts races turns).conducted? = some c) :
    ∃ said, c.line.outgoing = r.line.outgoing ++ said ∧ ∀ n, ∃ c',
      ((r.narrowed n).drive disk facts races turns).conducted? = some c' ∧
      c'.line.outgoing = r.line.outgoing ++ said.take n ∧
      (said.length ≤ n → c' = { c with line := c.line.narrowed (n - said.length) }) ∧
      (n < said.length → ∃ k < turns,
        ((r.narrowed n).drive disk facts races k).phase = .going ∧
        ((r.narrowed n).drive disk facts races k).refusal? facts = some r.line.refusal ∧
        c'.store = ((r.narrowed n).drive disk facts races k).store ∧
        c'.line.incoming = ((r.narrowed n).drive disk facts races k).line.incoming) := by
  obtain ⟨hover, rfl⟩ := over_of_conducted? h
  obtain ⟨said, hsaid, hnarrows⟩ := drive_narrowed hl disk facts races turns
  refine ⟨said, hsaid, fun n => ?_⟩
  obtain ⟨htaken, hsame, hrefused⟩ := hnarrows n
  rcases Nat.lt_or_ge n said.length with hlt | hle
  · obtain ⟨k, hk, hgoing, hrefusal⟩ := hrefused hlt
    obtain ⟨-, hlast, hstore, hincoming⟩ := drive_of_refusal hgoing hrefusal hk
    refine ⟨_, conducted?_of_over hlast, htaken, fun hle => ?_,
      fun _ => ⟨k, hk, hgoing, hrefusal, hstore, hincoming⟩⟩
    omega
  · have hlast : ((r.narrowed n).drive disk facts races turns).phase = .over := by
      rw [hsame hle]
      exact hover
    refine ⟨_, conducted?_of_over hlast, htaken, fun _ => ?_, fun hlt => ?_⟩
    · rw [hsame hle]
      rfl
    · omega

end

/-- How much is taken does not matter to whether the template can be had. -/
theorem begin_narrowed (disk : Disk) (charset : Charset) (store : Store) (line : Line)
    (name : String) :
    (∃ begun, Run.begin disk charset store line name = .inl begun ∧ begun.line = line ∧
      ∀ n, Run.begin disk charset store (line.narrowed n) name = .inl (begun.narrowed n)) ∨
    ∃ c, Run.begin disk charset store line name = .inr c ∧ c.line = line ∧
      ∀ n, Run.begin disk charset store (line.narrowed n) name =
        .inr { c with line := line.narrowed n } := by
  cases hreply : (store.getOrLoad disk name).result with
  | ok t =>
    exact .inl ⟨_, opening_of_ok hreply, rfl, fun n => opening_of_ok hreply⟩
  | error e =>
    exact .inr ⟨_, opening_of_error hreply, rfl, fun n => opening_of_error hreply⟩

end Run

/-- **What a failing line has taken is an exact beginning.** Let a run end on a line that takes
everything and is never hung up, and let `said` be what it puts on the line. On the same line with
room for `n` bytes the run ends too, and the line has taken the first `n` bytes of `said`. If that
is all of `said` the run leaves the same behind but for the room: its outcome, the answer, what can
still be read, the store and the log. If it is not, some turn of the run was refused, and since that
turn began nothing has been read or fetched. -/
theorem conduct_narrowed {disk : Disk} {facts : ChangingFacts} {races : Nat → Bool} {turns : Nat}
    {charset : Charset} {store : Store} {line : Line} {name : String} {c : Conducted}
    (hl : line.IsOpen) (h : conduct disk facts races turns charset store line name = some c) :
    ∃ said, c.line.outgoing = line.outgoing ++ said ∧ ∀ n, ∃ c',
      conduct disk facts races turns charset store (line.narrowed n) name = some c' ∧
      c'.line.outgoing = line.outgoing ++ said.take n ∧
      (said.length ≤ n → c' = { c with line := c.line.narrowed (n - said.length) }) ∧
      (n < said.length → ∃ begun k,
        Run.begin disk charset store (line.narrowed n) name = .inl begun ∧ k < turns ∧
        (begun.drive disk facts races k).phase = .going ∧
        (begun.drive disk facts races k).refusal? facts = some line.refusal ∧
        c'.store = (begun.drive disk facts races k).store ∧
        c'.line.incoming = (begun.drive disk facts races k).line.incoming) := by
  unfold conduct at h ⊢
  rcases Run.begin_narrowed disk charset store line name with
    ⟨begun, hbegin, rfl, hnarrowed⟩ | ⟨opened, hbegin, rfl, hnarrowed⟩
  · rw [hbegin] at h
    obtain ⟨said, hsaid, hcut⟩ := Run.conducted?_narrowed hl h
    refine ⟨said, hsaid, fun n => ?_⟩
    obtain ⟨c', hc, htaken, hsame, hrefused⟩ := hcut n
    rw [hnarrowed n]
    refine ⟨c', hc, htaken, hsame, fun hlt => ?_⟩
    obtain ⟨k, hk⟩ := hrefused hlt
    exact ⟨_, k, rfl, hk⟩
  · -- the template cannot be had, and nothing is said
    rw [hbegin] at h
    obtain rfl := Option.some.inj h
    refine ⟨[], (List.append_nil _).symm, fun n => ?_⟩
    rw [hnarrowed n]
    refine ⟨_, rfl, ?_, fun _ => rfl, fun hlt => ?_⟩
    · rw [List.take_nil, List.append_nil]
      rfl
    · cases hlt

/-- A greeting waits for an answer before its last byte. A line with room for one byte takes the
first, in a run that loads what it includes, and is refused before it waits. -/
theorem conduct_narrowed_greetingDisk :
    answeringLine.IsOpen ∧ ∃ c, conduct greetingDisk Facts.empty (fun _ => false) 5 .utf8
        (.empty (some "/")) answeringLine "main" = some c ∧
      c.line.outgoing = [104, 105, 33] ∧ ∃ c', conduct greetingDisk Facts.empty (fun _ => false) 5
          .utf8 (.empty (some "/")) (answeringLine.narrowed 1) "main" = some c' ∧
        c'.line.outgoing = [104] ∧ ∃ begun k,
          Run.begin greetingDisk .utf8 (.empty (some "/")) (answeringLine.narrowed 1) "main" =
            .inl begun ∧ k < 5 ∧
          (begun.drive greetingDisk Facts.empty (fun _ => false) k).phase = .going ∧
          (begun.drive greetingDisk Facts.empty (fun _ => false) k).refusal? Facts.empty =
            some "" ∧
          c'.store = (begun.drive greetingDisk Facts.empty (fun _ => false) k).store ∧
          c'.line.incoming =
            (begun.drive greetingDisk Facts.empty (fun _ => false) k).line.incoming := by
  have hopen : answeringLine.IsOpen := ⟨rfl, rfl, rfl⟩
  have hrun : (conduct greetingDisk Facts.empty (fun _ => false) 5 .utf8 (.empty (some "/"))
      answeringLine "main").map (fun c => c.line.outgoing) = some [104, 105, 33] := by decide
  obtain ⟨c, hc, hout⟩ := Option.map_eq_some_iff.mp hrun
  obtain ⟨said, hsaid, hcut⟩ := conduct_narrowed hopen hc
  obtain rfl : said = [104, 105, 33] := hsaid.symm.trans hout
  obtain ⟨c', hc', htaken, -, hrefused⟩ := hcut 1
  exact ⟨hopen, c, hc, hout, c', hc', htaken, hrefused (by decide)⟩

end BulletinBoard
