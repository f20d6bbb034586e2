/-
# Runs that are hung up

Once the hangup signal is given a run is over before long. In a turn in which it has yielded it is
aborted, and in one in which it waits it is aborted or takes a line from what comes in. In every
other turn it asks for a template that the store lacks, and then it is aborted or the store lacks one
name less. So the names that are missing and the bytes that are still to be read become fewer turn by
turn (`Run.pending`), whichever of a line and the signal counts.

This needs every name that is loaded to be found from then on. A name that ends twice is not. A
template that goes round including one waits for it again and again, never yields, and is run for
ever (`endless_circling`).

Key definitions: `Execution.Lacks`, `Run.HungUp`, `Run.pending`, `Run.Nears`.
Key theorems: `Run.HungUp.nears_turn`, `Run.HungUp.over_of_pending`, `exists_conduct_of_given`.
-/
import BulletinBoard.Proofs.Run.Includes
import BulletinBoard.Proofs.Run.OnDemand

namespace BulletinBoard

open Text Template

variable {disk : Disk} {names : Finset String}

/-! ### Lines -/

namespace Line

variable {l : Line}

/-- What is sent leaves what comes in and the signal as they are. -/
theorem send_keeps (l : Line) (bytes : List UInt8) :
    (l.send bytes).1.incoming = l.incoming ∧ (l.send bytes).1.signal = l.signal := by
  have hwrite : (l.write bytes).1.incoming = l.incoming ∧ (l.write bytes).1.signal = l.signal := by
    unfold write
    split <;> exact ⟨rfl, rfl⟩
  have hflush : ∀ m : Line, m.flush.1.incoming = m.incoming ∧ m.flush.1.signal = m.signal := by
    intro m
    unfold flush
    split <;> exact ⟨rfl, rfl⟩
  unfold send
  split
  · rename_i m hm
    rw [hm] at hwrite
    exact ⟨(hflush m).1.trans hwrite.1, (hflush m).2.trans hwrite.2⟩
  · exact hwrite

theorem signal_hear (l : Line) : l.hear.2.signal = l.signal := by
  obtain ⟨incoming, hl⟩ := l.hear_cases
  rw [hl]

theorem length_splitLine? {bytes line others : List UInt8}
    (h : splitLine? bytes = some (line, others)) : others.length < bytes.length := by
  induction bytes generalizing line with
  | nil => cases h
  | cons b rest ih =>
    unfold splitLine? at h
    rw [List.length_cons]
    split at h
    · cases h
      omega
    · obtain ⟨⟨l, o⟩, hl, ho⟩ := Option.map_eq_some_iff.mp h
      cases ho
      have := ih hl
      omega

theorem length_hear {b : List UInt8} {line : Line} (h : l.hear = (.bytes b, line)) :
    line.incoming.length < l.incoming.length := by
  unfold hear at h
  split at h
  · rename_i hsplit
    cases h
    exact length_splitLine? hsplit
  · dsimp only at h
    split at h
    · split at h
      · cases h
      · rename_i hne
        cases h
        exact List.length_pos_iff.mpr fun hnil => hne (by rw [hnil]; rfl)
    · cases h
    · cases h

end Line

/-! ### What a run waits for -/

namespace Execution

variable {store : Store} {e : Execution}

/-- If the run waits for a template, the store lacks it. -/
def Lacks (store : Store) (e : Execution) : Prop :=
  ∀ name, e.state = .including name → store.lookup? name = none

theorem lacks_of_ne_including (h : ∀ name, e.state ≠ .including name) : e.Lacks store :=
  fun name hname => absurd hname (h name)

theorem lacks_of_running (hr : e.state = .running) : e.Lacks store :=
  lacks_of_ne_including fun name => by simp [hr]

/-- A step waits for a template only where the store lacks it. -/
theorem lacks_step {facts : Facts} (hr : e.state = .running) :
    (e.step store facts).execution.Lacks store := by
  have hstep := e.stepsTo_step store facts
  generalize e.step store facts = a at hstep ⊢
  cases hstep with
  | ended => exact fun _ h => by cases h
  | left =>
    intro name h
    rcases e.state_leave _ with hs | hs
    · cases (hs.trans hr).symm.trans h
    · cases hs.symm.trans h
  | passed _ _ r => exact lacks_of_running ((e.remember r).state_next.trans hr)
  | moved => exact lacks_of_running ((e.state_goTo _).trans hr)
  | called => exact lacks_of_running (e.state_next.trans hr)
  | asked _ _ _ _ _ ht =>
    intro name h
    cases h
    exact ht
  | waited => exact fun _ h => by cases h
  | halted => exact fun _ h => by cases h
  | lost => exact fun _ h => by cases h

theorem Lacks.proceed (h : e.Lacks store) (facts : ChangingFacts) (budget made : Nat) :
    (e.proceed store facts budget made).1.execution.Lacks store := by
  refine proceed_induction (P := fun e a => e.Lacks store → a.execution.Lacks store)
    (fun _ h => h) ?_ facts budget made e h
  exact fun facts e rest hr hrest _ => hrest (lacks_step hr)

theorem finished_abort (e : Execution) (error : RunError) :
    ∃ o, (e.abort error).execution.state = .finished o := by
  unfold abort
  split
  · rename_i o ho
    exact ⟨o, ho⟩
  · exact ⟨_, rfl⟩

end Execution

/-! ### Turns -/

namespace Run

variable {r : Run}

/-- What is sent leaves a run where it was advanced to, or is the end of its turns. -/
theorem utter_keeps (r : Run) (a : Advance) :
    (r.utter a).line.incoming = r.line.incoming ∧ (r.utter a).line.signal = r.line.signal ∧
      ((r.utter a).phase = .over ∨
        (r.utter a).phase = r.phase ∧ (r.utter a).execution = a.execution) := by
  have hsend := r.line.send_keeps a.bytes
  unfold utter
  dsimp only
  split
  · exact ⟨rfl, rfl, .inr ⟨rfl, rfl⟩⟩
  rw [show (r.take a).line = r.line from rfl]
  split
  · rename_i hl
    rw [hl] at hsend
    exact ⟨hsend.1, hsend.2, .inr ⟨rfl, rfl⟩⟩
  · rename_i hl
    rw [hl] at hsend
    exact ⟨hsend.1, hsend.2, .inl rfl⟩

theorem over_of_finished (hg : r.phase = .going) {o : Outcome} (ho : r.execution.state = .finished o)
    (disk : Disk) (facts : ChangingFacts) (hangupFirst : Bool) :
    (r.turn disk facts hangupFirst).phase = .over := by
  have hspeak : r.speak facts stepBudget = r.take (.quiet r.execution) := by
    rw [speak_eq, counted, Execution.proceed_of_finished ho]
    rfl
  have hphase : (r.speak facts stepBudget).phase = .going := by
    rw [hspeak]
    exact hg
  have hstate : (r.speak facts stepBudget).execution.state = .finished o := by
    rw [hspeak]
    exact ho
  rw [turn_of_going hg hphase]
  unfold respond
  rw [hstate]

/-- A run that is hung up, with templates that include names among some, and nothing else to be had
from its store. -/
structure HungUp (disk : Disk) (names : Finset String) (r : Run) : Prop where
  signal : r.line.signal = .given
  sound : r.execution.Sound
  lacks : r.execution.Lacks r.store
  templates : r.execution.Runs (IncludesAmong names)
  store : r.store.Holds (IncludesAmong names)
  files : r.store.Finds disk (IncludesAmong names)

/-- What can still keep a run that is hung up: names that are missing and bytes to be read. -/
def pending (names : Finset String) (r : Run) : Nat :=
  (r.store.missing names).card + r.line.incoming.length

/-- A run after a turn is over, or it has ended, or there is less to keep it. -/
def Nears (disk : Disk) (names : Finset String) (r r' : Run) : Prop :=
  r'.phase = .over ∨ r'.phase = .going ∧ r'.HungUp disk names ∧
    ((∃ o, r'.execution.state = .finished o) ∨ r'.pending names < r.pending names)

theorem nears_of_abort (hg : r.phase = .going) (hl : r.line.signal = .given)
    (he : r.execution.Sound) (ht : r.execution.Runs (IncludesAmong names))
    (hs : r.store.Holds (IncludesAmong names)) (hf : r.store.Finds disk (IncludesAmong names))
    (r₀ : Run) (error : RunError) :
    r₀.Nears disk names (r.take (r.execution.abort error)) := by
  have hlacks : (r.execution.abort error).execution.Lacks r.store :=
    Execution.lacks_of_ne_including (Execution.abort_ne_including error)
  have hhung : (r.take (r.execution.abort error)).HungUp disk names :=
    ⟨hl, he.abort error, hlacks, ht.abort error, hs, hf⟩
  exact .inr ⟨hg, hhung, .inl (r.execution.finished_abort error)⟩

namespace HungUp

theorem speak (h : r.HungUp disk names) (facts : ChangingFacts) (budget : Nat) :
    (r.speak facts budget).phase = .over ∨
    (r.speak facts budget).phase = r.phase ∧ (r.speak facts budget).HungUp disk names ∧
      (r.speak facts budget).pending names = r.pending names := by
  have hsound := h.sound.proceed r.store facts budget r.steps
  have hlacks := h.lacks.proceed facts budget r.steps
  have htemplates := h.templates.proceed (fun _ _ => h.store.of_lookup?) facts budget r.steps
  rw [speak_eq, counted]
  generalize r.execution.proceed r.store facts budget r.steps = spoken at hsound hlacks htemplates ⊢
  have hutter := utter_keeps { r with steps := spoken.2 } spoken.1
  obtain ⟨hincoming, hsignal, hover | ⟨hphase, hexecution⟩⟩ := hutter
  · exact .inl hover
  have hstore : (({ r with steps := spoken.2 } : Run).utter spoken.1).store = r.store :=
    (utter_cases _ spoken.1).1
  refine .inr ⟨hphase, ?_, ?_⟩
  · refine ⟨hsignal.trans h.signal, ?_, ?_, ?_, ?_, ?_⟩
    · rwa [hexecution]
    · rwa [hexecution, hstore]
    · rwa [hexecution]
    · rw [hstore]
      exact h.store
    · rw [hstore]
      exact h.files
  · unfold pending
    rw [hstore, hincoming]

theorem nears_abort (h : r.HungUp disk names) (hg : r.phase = .going) (r₀ : Run)
    (error : RunError) : r₀.Nears disk names (r.take (r.execution.abort error)) :=
  nears_of_abort hg h.signal h.sound h.templates h.store h.files r₀ error

theorem heard (h : r.HungUp disk names) :
    ({ r with line := r.line.hear.2 } : Run).HungUp disk names :=
  ⟨(r.line.signal_hear).trans h.signal, h.sound, h.lacks, h.templates, h.store, h.files⟩

/-- A run that waits for a line is aborted, or takes the line from what comes in. -/
theorem nears_listen (h : r.HungUp disk names) (hg : r.phase = .going) {w : Wait}
    (hw : r.execution.state = .suspended w) (hangupFirst : Bool) :
    r.Nears disk names (r.listen hangupFirst) := by
  have hheard := h.heard
  unfold listen
  rcases hh : r.line.hear with ⟨heard, line⟩
  rw [hh] at hheard
  dsimp only at hheard ⊢
  split
  · exact h.nears_abort hg r _
  cases heard with
  | bytes b =>
    have hshorter : line.incoming.length < r.line.incoming.length := Line.length_hear hh
    have hlacks : (r.execution.deliver (Utf8.decodeLossy b)).execution.Lacks r.store :=
      Execution.lacks_of_ne_including (Execution.deliver_ne_including hw _)
    refine .inr ⟨hg, ⟨hheard.signal, h.sound.deliver _, hlacks, h.templates.deliver _, h.store,
      h.files⟩, .inr ?_⟩
    exact Nat.add_lt_add_left hshorter _
  | closed => exact hheard.nears_abort hg r _
  | broken => exact hheard.nears_abort hg r _
  | silence =>
    unfold fallSilent
    rw [hheard.signal]
    exact hheard.nears_abort hg r _

/-- A run that waits for a template is aborted, or the store lacks one less. -/
theorem nears_fetch (hn : ∀ name ∈ names, ¬ Store.EndsTwice name) (h : r.HungUp disk names)
    (hg : r.phase = .going) {name : String} (hname : r.execution.state = .including name) :
    r.Nears disk names (r.fetch disk name) := by
  have hmem : name ∈ names := Execution.mem_of_including h.sound h.templates hname
  obtain ⟨hstore, hgives⟩ := h.store.getOrLoad h.files name
  have hfiles := h.files.of_root (r.store.root_getOrLoad disk name)
  unfold fetch receive
  dsimp only
  split
  · rename_i t ht
    -- the name does not end twice, so it is found from now on
    have hless := Store.card_missing_getOrLoad hmem (hn name hmem) (h.lacks name hname) ht
    have hrunning : (r.execution.enter t).execution.state = .running := by
      unfold Execution.enter
      rw [hname]
      rfl
    refine .inr ⟨hg, ⟨h.signal, h.sound.enter t, Execution.lacks_of_running hrunning,
      h.templates.enter (hgives t ht), hstore, hfiles⟩, .inr ?_⟩
    exact Nat.add_lt_add_right hless _
  · exact nears_of_abort (r := { r with store := (r.store.getOrLoad disk name).store, log := _ }) hg
      h.signal h.sound h.templates hstore hfiles r _

theorem nears_respond (hn : ∀ name ∈ names, ¬ Store.EndsTwice name) (h : r.HungUp disk names)
    (hg : r.phase = .going) (hangupFirst : Bool) :
    r.Nears disk names (r.respond disk hangupFirst) := by
  unfold respond
  split
  · exact .inl rfl
  · rw [if_pos h.signal]
    exact h.nears_abort hg r _
  · rename_i name hname
    exact h.nears_fetch hn hg hname
  · rename_i w hw
    exact h.nears_listen hg hw hangupFirst

/-- Every turn brings a run that is hung up nearer to its end. -/
theorem nears_turn (hn : ∀ name ∈ names, ¬ Store.EndsTwice name) (h : r.HungUp disk names)
    (hg : r.phase = .going) (facts : ChangingFacts) (hangupFirst : Bool) :
    r.Nears disk names (r.turn disk facts hangupFirst) := by
  rcases h.speak facts stepBudget with hover | ⟨hphase, hspoken, hpending⟩
  · rw [turn_of_spoken hg (by simp [hover])]
    exact .inl hover
  · have hnears := hspoken.nears_respond hn (hphase.trans hg) hangupFirst
    rw [turn_of_going hg (hphase.trans hg)]
    unfold Nears at hnears ⊢
    rwa [← hpending]

/-- A run that is hung up is over in two turns more than there is to keep it. -/
theorem over_of_pending (hn : ∀ name ∈ names, ¬ Store.EndsTwice name) (h : r.HungUp disk names)
    (hg : r.phase = .going) (facts : ChangingFacts) (races : Nat → Bool) {n : Nat}
    (hp : r.pending names < n) : (r.drive disk facts races (n + 1)).phase = .over := by
  induction n generalizing r races with
  | zero => omega
  | succ n ih =>
    rw [drive_succ hg]
    rcases h.nears_turn hn hg facts (races 0) with hover | ⟨hg', h', ⟨o, ho⟩ | hless⟩
    · rw [drive_of_not_going (by simp [hover])]
      exact hover
    · have hover := over_of_finished hg' ho disk facts (races 1)
      rw [drive_succ hg', drive_of_not_going (by simp [hover])]
      exact hover
    · exact ih h' hg' _ (by omega)

end HungUp

end Run

/-- **A run that is hung up ends.** If the hangup signal is given before a run and no template that
it can have includes a name that ends twice, there is a number of turns in which the run is over,
whatever the files hold, whatever the caller sends and takes, and whichever of a line and the signal
counts each time they are both there. -/
theorem exists_conduct_of_given {store : Store} {line : Line} (hs : store.Holds IncludesPlainly)
    (hf : store.Finds disk IncludesPlainly) (hl : line.signal = .given) (facts : ChangingFacts)
    (charset : Charset) (name : String) :
    ∃ turns, ∀ races, ∃ c, conduct disk facts races turns charset store line name = some c := by
  obtain ⟨hstore, hgives⟩ := hs.getOrLoad hf name
  have hfiles := hf.of_root (store.root_getOrLoad disk name)
  unfold conduct Run.begin Run.opening
  cases hr : (store.getOrLoad disk name).result with
  | error e => exact ⟨0, fun races => ⟨_, rfl⟩⟩
  | ok t =>
    obtain ⟨names, hn, ht, hnames, hfound⟩ := Store.exists_names (hgives t hr) hstore hfiles
    have hhung : Run.HungUp disk names ⟨.start t charset, (store.getOrLoad disk name).store, line,
        (store.getOrLoad disk name).log, .going, 0⟩ :=
      ⟨hl, .start t charset, Execution.lacks_of_running rfl, .start ht charset, hnames, hfound⟩
    have hover := fun races => hhung.over_of_pending hn rfl facts races (Nat.lt_succ_self _)
    exact ⟨_, fun races => ⟨_, Run.conducted?_of_over (hover races)⟩⟩

/-! ### A template that includes itself -/

/-- It goes round including a file that reads a line. -/
def revolving : Template :=
  .of "loop" "[include sub][top]" [⟨.includes, ["sub"], "include"⟩, ⟨.top, [], "top"⟩]

/-- A line that is hung up, to a caller who takes so many bytes. -/
def hungUpLine (room : Option Nat) : Line :=
  ⟨[120, 10, 121], .silent, room, none, "scripted write failure", [], .given⟩

/-- It is over before long, although nothing in it ends. -/
theorem exists_conduct_of_given_revolving :
    (⟨[("loop", revolving)], some "/"⟩ : Store).Holds IncludesPlainly ∧
    (⟨[("loop", revolving)], some "/"⟩ : Store).Finds greetingDisk IncludesPlainly ∧
    (hungUpLine none).signal = .given ∧
    ∃ turns, ∀ races, ∃ c, conduct greetingDisk Facts.empty races turns .utf8
      ⟨[("loop", revolving)], some "/"⟩ (hungUpLine none) "loop" = some c := by
  have hstore : (⟨[("loop", revolving)], some "/"⟩ : Store).Holds IncludesPlainly := by
    intro name t ht
    cases List.mem_singleton.mp ht
    dsimp only [IncludesPlainly]
    decide
  have hfiles : (⟨[("loop", revolving)], some "/"⟩ : Store).Finds greetingDisk IncludesPlainly :=
    fun _ _ htext => includesPlainly_greetingDisk htext
  exact ⟨hstore, hfiles, rfl, exists_conduct_of_given hstore hfiles rfl Facts.empty .utf8 "loop"⟩

/-! ### A name that is missing again and again -/

/-- A file whose name ends twice, and one that goes round including it. -/
def circlingDisk : Disk :=
  ⟨.file "main.mec" (Charset.utf8.encode "[include a.mec.mec][top]")
    (.file "a.mec.mec" (Charset.utf8.encode "x") .empty), []⟩

def circling : Template :=
  .of "main" "[include a.mec.mec][top]"
    [⟨.includes, ["a.mec.mec"], "include"⟩, ⟨.top, [], "top"⟩]

def circled : Template := .of "a" "x" [.literal "x"]

namespace Run

/-- Between two turns the run has got the file again, under a name that it does not ask for. -/
structure Circles (r : Run) : Prop where
  phase : r.phase = .going
  execution : r.execution =
    ⟨[⟨circled, 0⟩, ⟨circling, 1⟩], .utf8, .running, none, none, none, false⟩
  store : r.store = ⟨[("a", circled), ("main", circling)], some "/"⟩

namespace Circles

variable {r : Run} {line : Line}

/-- A round ends where the file is missing again. -/
theorem proceed (h : r.Circles) :
    (r.execution.proceed r.store Facts.empty stepBudget r.steps).1 =
      ⟨⟨[⟨circling, 1⟩], .utf8, .including "a.mec.mec", none, none, none, false⟩, [.text "x"],
        .empty⟩ := by
  rw [Execution.proceed_eq_advance, h.execution, h.store]
  decide

theorem getOrLoad (h : r.Circles) :
    (r.store.getOrLoad circlingDisk "a.mec.mec").store = r.store ∧
      (r.store.getOrLoad circlingDisk "a.mec.mec").result = .ok circled := by
  rw [h.store]
  decide

/-- As long as the caller takes what is sent, a turn brings the run round. -/
theorem turn (h : r.Circles) (hs : r.line.send [120] = (line, none)) (hangupFirst : Bool) :
    (r.turn circlingDisk Facts.empty hangupFirst).Circles ∧
      (r.turn circlingDisk Facts.empty hangupFirst).line = line := by
  obtain ⟨hstore, hresult⟩ := h.getOrLoad
  have hspeak : r.speak Facts.empty stepBudget =
      { (r.counted Facts.empty stepBudget).take
          (r.execution.proceed r.store Facts.empty stepBudget r.steps).1 with line } := by
    rw [speak_eq, h.proceed]
    unfold utter
    rw [show Advance.bytes _ = [120] from rfl]
    dsimp only [take, counted]
    rw [hs]
    rfl
  have hphase : (r.speak Facts.empty stepBudget).phase = .going := by
    rw [hspeak]
    exact h.phase
  rw [turn_of_going h.phase hphase, hspeak, h.proceed]
  unfold respond take fetch receive counted
  dsimp only
  rw [hresult, hstore]
  exact ⟨⟨h.phase, rfl, h.store⟩, rfl⟩

/-- A turn in which the caller takes no more is the last. -/
theorem turn_of_refused (h : r.Circles) {text : String}
    (hs : r.line.send [120] = (line, some text)) (hangupFirst : Bool) :
    (r.turn circlingDisk Facts.empty hangupFirst).phase = .over ∧
      (r.turn circlingDisk Facts.empty hangupFirst).report = ⟨.aborted (.output text), none⟩ ∧
      (r.turn circlingDisk Facts.empty hangupFirst).line = line := by
  have hbytes : (r.execution.proceed r.store Facts.empty stepBudget r.steps).1.bytes = [120] := by
    rw [h.proceed]
    rfl
  have hspeak : (r.speak Facts.empty stepBudget).phase = .over ∧
      (r.speak Facts.empty stepBudget).report = ⟨.aborted (.output text), none⟩ ∧
      (r.speak Facts.empty stepBudget).line = line := by
    rw [speak_eq]
    unfold utter
    dsimp only [take, counted]
    rw [hbytes, hs, h.proceed]
    exact ⟨rfl, rfl, rfl⟩
  rw [turn_of_spoken h.phase (by simp [hspeak])]
  exact hspeak

/-- A caller who takes everything is sent the file for ever. -/
theorem drive (h : r.Circles) (hr : r.line.room = none) (hf : r.line.flushes = none)
    (races : Nat → Bool) (turns : Nat) : (r.drive circlingDisk Facts.empty races turns).Circles := by
  induction turns generalizing r races with
  | zero => exact h
  | succ turns ih =>
    obtain ⟨h', hline⟩ := h.turn (Line.send_of_unbounded hr hf [120]) (races 0)
    rw [drive_succ h.phase]
    apply ih h'
    · rw [hline]
      exact hr
    · rw [hline]
      exact hf

/-- A caller who takes `k` bytes is sent the file `k` times. -/
theorem drive_of_room {k : Nat} (h : r.Circles) (hr : r.line.room = some k)
    (hf : r.line.flushes = none) (races : Nat → Bool) :
    (r.drive circlingDisk Facts.empty races (k + 1)).phase = .over ∧
      (r.drive circlingDisk Facts.empty races (k + 1)).report =
        ⟨.aborted (.output r.line.refusal), none⟩ ∧
      (r.drive circlingDisk Facts.empty races (k + 1)).line.outgoing =
        r.line.outgoing ++ List.replicate k 120 := by
  induction k generalizing r races with
  | zero =>
    have hs : r.line.send [120] =
        ({ r.line with outgoing := r.line.outgoing ++ [], room := some 0 },
          some r.line.refusal) := by
      unfold Line.send Line.write
      rw [hr]
      rfl
    obtain ⟨hover, hreport, hline⟩ := h.turn_of_refused hs (races 0)
    rw [drive_succ h.phase, drive_of_not_going (by simp [hover])]
    exact ⟨hover, hreport, by rw [hline]; rfl⟩
  | succ k ih =>
    have hs : r.line.send [120] =
        ({ r.line with outgoing := r.line.outgoing ++ [120], room := some k }, none) := by
      unfold Line.send Line.write Line.flush
      simp [hr, hf]
    obtain ⟨h', hline⟩ := h.turn hs (races 0)
    have hrest := ih h' (by rw [hline]) (by rw [hline]; exact hf) fun n => races (n + 1)
    rw [drive_succ h.phase]
    rw [hline] at hrest
    refine ⟨hrest.1, hrest.2.1, ?_⟩
    rw [hrest.2.2, List.replicate_succ]
    simp

end Circles

theorem circles_circling (room : Option Nat) :
    ∃ begun, Run.begin circlingDisk .utf8 (.empty (some "/")) (hungUpLine room) "main" =
        .inl begun ∧ begun.phase = .going ∧
      ∀ hangupFirst, (begun.turn circlingDisk Facts.empty hangupFirst).Circles ∧
        (begun.turn circlingDisk Facts.empty hangupFirst).line = hungUpLine room :=
  ⟨_, rfl, rfl, fun _ => ⟨⟨rfl, rfl, rfl⟩, rfl⟩⟩

end Run

/-- A run that is hung up from the start loads a file again and again that it does not find, and is
not over after any number of turns, whichever of a line and the signal counts. It ends only where
the caller takes no more, and by then the caller has taken all there was room for. -/
theorem endless_circling :
    (∀ races turns, conduct circlingDisk Facts.empty races turns .utf8 (.empty (some "/"))
      (hungUpLine none) "main" = none) ∧
    ∀ races k, ∃ c, conduct circlingDisk Facts.empty races (k + 2) .utf8 (.empty (some "/"))
        (hungUpLine (some k)) "main" = some c ∧
      c.report = ⟨.aborted (.output "scripted write failure"), none⟩ ∧
      c.line.outgoing = List.replicate k 120 := by
  constructor
  · intro races turns
    obtain ⟨begun, hbegin, hg, hfirst⟩ := Run.circles_circling none
    unfold conduct
    rw [hbegin]
    cases turns with
    | zero =>
      dsimp only [Run.drive, Run.conducted?]
      rw [hg]
    | succ turns =>
      obtain ⟨hcircles, hline⟩ := hfirst (races 0)
      have hdriven := hcircles.drive (by rw [hline]; rfl) (by rw [hline]; rfl)
        (fun n => races (n + 1)) turns
      dsimp only
      rw [Run.drive_succ hg, Run.conducted?, hdriven.phase]
  · intro races k
    obtain ⟨begun, hbegin, hg, hfirst⟩ := Run.circles_circling (some k)
    obtain ⟨hcircles, hline⟩ := hfirst (races 0)
    obtain ⟨hover, hreport, hout⟩ := hcircles.drive_of_room (by rw [hline]; rfl)
      (by rw [hline]; rfl) fun n => races (n + 1)
    rw [← Run.drive_succ hg] at hover hreport hout
    rw [hline] at hreport hout
    exact ⟨_, conduct_of_over hbegin hover, hreport, hout⟩

end BulletinBoard
