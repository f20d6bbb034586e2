/-
# Templates on demand

It does not show in a run how its templates got into the store: before it, because they were loaded
at the start or by other runs, while it runs, by others, or because the run itself waited for them.
As long as the store agrees with the files, which everybody who loads from them sees to, a run does
what the exchange does in which every template is simply there.

Turn by turn a run makes some number of ticks of that exchange (`Run.Undisturbed.turnAmid`). How
many depends on the store, since a template that is missing ends the turn, but the exchange is the
same for any two runs, and so is where it ends.

Key definitions: `Line.IsOpen`, `Run.Rests`, `Run.Undisturbed`.
Key theorems: `Run.Undisturbed.turnAmid`, `Run.Undisturbed.over_of_finished`, `conductAmid_congr`,
`Disk.NamedPlainly.conduct_on_demand`.
-/
import BulletinBoard.Proofs.Files.Texts
import BulletinBoard.Proofs.Run.OnFiles

namespace BulletinBoard

open Text Template

variable {disk : Disk} {root : String} {facts : ChangingFacts} {others : Others}

/-! ### Open lines -/

namespace Line

/-- A line that takes everything and is never hung up. -/
structure IsOpen (l : Line) : Prop where
  room : l.room = none
  flushes : l.flushes = none
  signal : l.signal = .never

variable {l : Line}

theorem send_of_unbounded (hr : l.room = none) (hf : l.flushes = none) (bytes : List UInt8) :
    l.send bytes = ({ l with outgoing := l.outgoing ++ bytes }, none) := by
  have hw : l.write bytes = ({ l with outgoing := l.outgoing ++ bytes }, none) := by
    unfold write
    rw [hr]
  unfold Line.send flush
  rw [hw]
  dsimp only
  rw [hf]

theorem hear_cases (l : Line) : ∃ incoming, l.hear.2 = { l with incoming } := by
  unfold hear
  split
  · exact ⟨_, rfl⟩
  · dsimp only
    split <;> exact ⟨_, rfl⟩

theorem IsOpen.hear (h : l.IsOpen) : l.hear.2.IsOpen := by
  obtain ⟨incoming, hl⟩ := l.hear_cases
  rw [hl]
  exact ⟨h.room, h.flushes, h.signal⟩

theorem hear_of_silence {line : Line} (h : l.hear = (.silence, line)) :
    line.hear = (.silence, line) := by
  unfold hear at h
  split at h
  · cases h
  dsimp only at h
  split at h
  · split at h <;> cases h
  · cases h
  · rename_i he
    cases h
    unfold hear
    dsimp only [splitLine?]
    rw [he]

end Line

namespace Execution

variable {e : Execution}

theorem deliver_ne_including {w : Wait} (h : e.state = .suspended w) (line name : String) :
    (e.deliver line).execution.state ≠ .including name := by
  unfold deliver
  rw [h]
  dsimp only
  split
  · exact fun hn => by cases hn
  · exact fun hn => by cases h.symm.trans hn

theorem abort_ne_including (error : RunError) (name : String) :
    (e.abort error).execution.state ≠ .including name := by
  unfold abort
  split
  · rename_i o ho
    exact fun hn => by cases ho.symm.trans hn
  · exact fun hn => by cases hn

/-- A run does not wait for a template that is there, or once it is known that it is not. -/
theorem settle_ne_including (find : String → Except RunError Template) (name : String) :
    (e.settle find).state ≠ .including name := by
  unfold settle
  split
  · rename_i n hn
    split
    · unfold enter
      rw [hn]
      exact fun h => by cases h
    · exact abort_ne_including _ name
  · rename_i h
    exact h name

end Execution

/-! ### Turns and ticks -/

namespace Run

/-- A run and its line, without the store. -/
def exchange (r : Run) : Exchange := ⟨r.execution, r.line, r.steps⟩

/-- How a run over an open line stands between two turns. -/
def Rests (find : String → Except RunError Template) (facts : ChangingFacts) (r : Run) : Prop :=
  match r.phase with
  | .going => ∀ name, r.execution.state ≠ .including name
  | .over => ∃ o, r.execution.state = .finished o
  | .stuck => r.exchange.tick find facts = r.exchange ∧ ∀ o, r.execution.state ≠ .finished o

variable {r : Run} {find : String → Except RunError Template}

theorem rests_of_going (hg : r.phase = .going) (h : ∀ name, r.execution.state ≠ .including name) :
    r.Rests find facts := by
  unfold Rests
  rw [hg]
  exact h

theorem utter_of_unbounded (hr : r.line.room = none) (hf : r.line.flushes = none) (a : Advance) :
    r.utter a =
      { r.take a with line := { r.line with outgoing := r.line.outgoing ++ a.bytes } } := by
  unfold utter
  dsimp only
  split
  · rename_i hb
    rw [List.isEmpty_iff.mp hb, List.append_nil]
    rfl
  · rw [show (r.take a).line = r.line from rfl, Line.send_of_unbounded hr hf]

theorem speakAmid_of_isOpen (hl : r.line.IsOpen) (facts : ChangingFacts) (others : Others)
    (budget : Nat) :
    (r.speakAmid facts others budget).phase = r.phase ∧
    (r.speakAmid facts others budget).execution =
      (r.execution.proceedAmid facts others budget r.steps r.store).1.execution ∧
    (r.speakAmid facts others budget).steps =
      (r.execution.proceedAmid facts others budget r.steps r.store).2.1 ∧
    (r.speakAmid facts others budget).line = { r.line with outgoing := r.line.outgoing ++
      (r.execution.proceedAmid facts others budget r.steps r.store).1.bytes } := by
  rw [speakAmid_eq, utter_of_unbounded (r := r.countedAmid facts others budget) hl.room hl.flushes]
  exact ⟨rfl, rfl, rfl, rfl⟩

/-- Advancing a run is a number of ticks, once the template it stops for is there. -/
theorem exchange_speakAmid (ho : others.Keep disk root) (hs : r.store.Consistent disk root)
    (hl : r.line.IsOpen) (hi : ∀ name, r.execution.state ≠ .including name) (facts : ChangingFacts)
    {budget : Nat} (hb : 0 < budget) :
    (r.speakAmid facts others budget).phase = r.phase ∧
    (r.speakAmid facts others budget).line.IsOpen ∧
    (r.execution.state ≠ .running →
      (r.speakAmid facts others budget).execution = r.execution) ∧
    ∃ k, (r.execution.state = .running → 0 < k) ∧
      (Exchange.tick (Store.findFile disk root) facts)^[k] r.exchange =
        ⟨(r.speakAmid facts others budget).execution.settle (Store.findFile disk root),
          (r.speakAmid facts others budget).line, (r.speakAmid facts others budget).steps⟩ := by
  obtain ⟨hp, he, hsteps, hline⟩ := speakAmid_of_isOpen hl facts others budget
  rw [hp, he, hsteps, hline]
  refine ⟨rfl, ⟨hl.room, hl.flushes, hl.signal⟩, fun hr => ?_, ?_⟩
  · rw [Execution.proceedAmid_of_ne_running hr]
    rfl
  by_cases hr : r.execution.state = .running
  · obtain ⟨k, hk, ht⟩ := Exchange.iterate_tick_proceedAmid ho hs r.exchange hr budget
    refine ⟨k, fun _ => hk hb, ?_⟩
    rw [ht]
    dsimp only [Exchange.send, exchange]
  · refine ⟨0, fun h => absurd h hr, ?_⟩
    rw [Execution.proceedAmid_of_ne_running hr, Function.iterate_zero_apply]
    dsimp only [Advance.quiet]
    rw [Execution.settle_eq_self hi]
    exact (Exchange.send_nil r.exchange).symm

/-- Listening on an open line is a tick of a run that waits. -/
theorem exchange_listen (hl : r.line.IsOpen) (hg : r.phase = .going) {w : Wait}
    (hw : r.execution.state = .suspended w) (hangupFirst : Bool) :
    (r.listen hangupFirst).line.IsOpen ∧ (r.listen hangupFirst).Rests find facts ∧
      r.exchange.tick find facts = (r.listen hangupFirst).exchange := by
  have hopen := hl.hear
  unfold listen Exchange.tick exchange
  dsimp only
  rw [hw, hl.signal, show (hangupFirst && (Signal.never == Signal.given)) = false by
    cases hangupFirst <;> rfl, if_neg Bool.false_ne_true]
  dsimp only
  rcases hh : r.line.hear with ⟨heard, line⟩
  rw [hh] at hopen
  cases heard with
  | bytes b => exact ⟨hopen, rests_of_going hg (Execution.deliver_ne_including hw _), rfl⟩
  | closed => exact ⟨hopen, rests_of_going hg (Execution.abort_ne_including _), rfl⟩
  | broken => exact ⟨hopen, rests_of_going hg (Execution.abort_ne_including _), rfl⟩
  | silence =>
    have hstuck : ({ r with line } : Run).fallSilent = { r with line, phase := .stuck } := by
      unfold fallSilent
      rw [show ({ r with line } : Run).line.signal = .never from hopen.signal]
    dsimp only
    rw [hstuck]
    refine ⟨hopen, ⟨?_, fun o ho => by cases hw.symm.trans ho⟩, rfl⟩
    unfold Exchange.tick exchange
    dsimp only
    rw [hw, Line.hear_of_silence hh]

/-- What a run is given over an open line is a tick if the run waits, and otherwise nothing but the
template it stopped for. -/
theorem exchange_respondAmid (ho : others.Keep disk root) (h : r.OnFiles disk root)
    (hl : r.line.IsOpen) (hg : r.phase = .going) (facts : ChangingFacts) (hangupFirst : Bool) :
    (r.respondAmid disk hangupFirst others).line.IsOpen ∧
    (r.respondAmid disk hangupFirst others).Rests (Store.findFile disk root) facts ∧
    ((r.respondAmid disk hangupFirst others).phase = .going →
      ∀ o, r.execution.state ≠ .finished o) ∧
    ∃ k, ((∃ w, r.execution.state = .suspended w) → 0 < k) ∧
      (Exchange.tick (Store.findFile disk root) facts)^[k]
          ⟨r.execution.settle (Store.findFile disk root), r.line, r.steps⟩ =
        (r.respondAmid disk hangupFirst others).exchange := by
  unfold respondAmid
  cases hs : r.execution.state with
  | running =>
    dsimp only
    have hr : r.respond disk hangupFirst = r := by
      unfold respond
      rw [hs]
      dsimp only
      rw [hl.signal, if_neg (by decide)]
    rw [hr, Execution.settle_of_running hs]
    refine ⟨hl, rests_of_going hg (fun n hn => by cases hs.symm.trans hn), ?_, 0, ?_, rfl⟩
    · exact fun _ o ho => by cases ho
    · exact fun ⟨w, hw⟩ => by cases hw
  | finished o =>
    dsimp only
    have hr : r.respond disk hangupFirst = { r with phase := .over } := by
      unfold respond
      rw [hs]
    rw [hr, Execution.settle_eq_self fun n hn => by cases hs.symm.trans hn]
    refine ⟨hl, ⟨o, hs⟩, ?_, 0, ?_, rfl⟩
    · exact fun hp => by cases hp
    · exact fun ⟨w, hw⟩ => by cases hw
  | including name =>
    dsimp only
    have hplain := Execution.not_endsTwice_of_including h.sound h.templates hs
    obtain ⟨-, hresult⟩ := h.store.getOrLoadAmid ho hplain
    obtain ⟨he, hline, hphase, -, hsteps⟩ := execution_receive hs hresult
    refine ⟨hline ▸ hl, rests_of_going (hphase.trans hg) ?_, ?_, 0, ?_, ?_⟩
    · rw [he]
      exact Execution.settle_ne_including _
    · exact fun _ o ho => by cases ho
    · exact fun ⟨w, hw⟩ => by cases hw
    · unfold exchange
      rw [he, hline, hsteps]
      rfl
  | suspended w =>
    dsimp only
    have hr : r.respond disk hangupFirst = r.listen hangupFirst := by
      unfold respond
      rw [hs]
    rw [hr, Execution.settle_eq_self fun n hn => by cases hs.symm.trans hn]
    obtain ⟨hopen, hrests, htick⟩ := exchange_listen hl hg hs hangupFirst
    refine ⟨hopen, hrests, ?_, 1, fun _ => Nat.one_pos, htick⟩
    exact fun _ o ho => by cases ho

/-- A run on files over an open line, between two turns. -/
structure Undisturbed (disk : Disk) (root : String) (facts : ChangingFacts) (r : Run) : Prop
    extends r.OnFiles disk root where
  line : r.line.IsOpen
  rests : r.Rests (Store.findFile disk root) facts

theorem OnFiles.undisturbed (h : r.OnFiles disk root) (facts : ChangingFacts) (hl : r.line.IsOpen)
    (hg : r.phase = .going) (hr : r.execution.state = .running) :
    r.Undisturbed disk root facts :=
  ⟨h, hl, rests_of_going hg fun n hn => by cases hr.symm.trans hn⟩

/-- A turn is a number of ticks, and at least one if more turns follow. -/
theorem Undisturbed.turnAmid (hd : disk.NamedPlainly root) (ho : others.Keep disk root)
    (h : r.Undisturbed disk root facts) (hg : r.phase = .going) (hangupFirst : Bool) :
    (r.turnAmid disk facts hangupFirst others).Undisturbed disk root facts ∧
    ∃ k, (Exchange.tick (Store.findFile disk root) facts)^[k] r.exchange =
        (r.turnAmid disk facts hangupFirst others).exchange ∧
      ((r.turnAmid disk facts hangupFirst others).phase = .going →
        0 < k ∧ ∀ o, r.execution.state ≠ .finished o) := by
  have hi : ∀ name, r.execution.state ≠ .including name := by
    have := h.rests
    unfold Rests at this
    rwa [hg] at this
  have hon := h.toOnFiles.turnAmid hd ho facts hangupFirst
  have hspoken := h.toOnFiles.speakAmid hd ho facts stepBudget
  obtain ⟨hp, hl, hsame, k, hk, htick⟩ :=
    exchange_speakAmid ho h.store h.line hi facts (by decide : 0 < stepBudget)
  obtain ⟨hl', hrests, hgoing, j, hj, htick'⟩ :=
    exchange_respondAmid ho hspoken hl (hp.trans hg) facts hangupFirst
  rw [turnAmid_of_going hg (hp.trans hg)] at hon ⊢
  refine ⟨⟨hon, hl', hrests⟩, j + k, ?_, fun hgo => ?_⟩
  · rw [Function.iterate_add_apply, htick, htick']
  · have hne := hgoing hgo
    cases hs : r.execution.state with
    | running =>
      have := hk hs
      exact ⟨by omega, fun o ho => by cases ho⟩
    | suspended w =>
      have hw : (r.speakAmid facts others stepBudget).execution.state = .suspended w := by
        rw [hsame (by simp [hs])]
        exact hs
      have := hj ⟨w, hw⟩
      exact ⟨by omega, fun o ho => by cases ho⟩
    | including name => exact absurd hs (hi name)
    | finished o =>
      refine absurd ?_ (hne o)
      rw [hsame (by simp [hs])]
      exact hs

/-- However many turns a run gets, it makes some number of ticks. -/
theorem Undisturbed.driveAmid (hd : disk.NamedPlainly root) (h : r.Undisturbed disk root facts)
    (races : Nat → Bool) {others : Nat → Others} (ho : ∀ n, (others n).Keep disk root)
    (turns : Nat) :
    (r.driveAmid disk facts races others turns).Undisturbed disk root facts ∧
    ∃ k, (Exchange.tick (Store.findFile disk root) facts)^[k] r.exchange =
      (r.driveAmid disk facts races others turns).exchange := by
  induction turns generalizing r races others with
  | zero => exact ⟨h, 0, rfl⟩
  | succ turns ih =>
    by_cases hg : r.phase = .going
    · obtain ⟨h', k, hk, -⟩ := h.turnAmid hd (ho 0) hg (races 0)
      obtain ⟨h'', j, hj⟩ := ih h' (fun n => races (n + 1)) fun n => ho (n + 1)
      rw [driveAmid_succ hg]
      refine ⟨h'', j + k, ?_⟩
      rw [Function.iterate_add_apply, hk, hj]
    · rw [driveAmid_of_not_going hg]
      exact ⟨h, 0, rfl⟩

/-- Where the exchange ends after some ticks, the next turn ends the run, or some of the ticks are
behind it then. -/
theorem Undisturbed.over_or_going (hd : disk.NamedPlainly root) (ho : others.Keep disk root)
    (h : r.Undisturbed disk root facts) (hg : r.phase = .going) {k : Nat} {o : Outcome}
    (hk : ((Exchange.tick (Store.findFile disk root) facts)^[k] r.exchange).execution.state =
      .finished o) (hangupFirst : Bool) :
    (r.turnAmid disk facts hangupFirst others).phase = .over ∨
    (r.turnAmid disk facts hangupFirst others).phase = .going ∧ ∃ m, k = m + 1 ∧
      ((Exchange.tick (Store.findFile disk root) facts)^[m]
        (r.turnAmid disk facts hangupFirst others).exchange).execution.state = .finished o := by
  obtain ⟨h', j, hj, hgoing⟩ := h.turnAmid hd ho hg hangupFirst
  generalize r.turnAmid disk facts hangupFirst others = r' at h' hj hgoing
  have hfixed : Exchange.tick (Store.findFile disk root) facts
      ((Exchange.tick (Store.findFile disk root) facts)^[k] r.exchange) =
        (Exchange.tick (Store.findFile disk root) facts)^[k] r.exchange :=
    Exchange.tick_of_finished hk
  cases hp : r'.phase
  · obtain ⟨hpos, hne⟩ := hgoing hp
    cases k with
    | zero => exact absurd hk (hne o)
    | succ m =>
      refine .inr ⟨rfl, m, rfl, ?_⟩
      rw [← hj, ← Function.iterate_add_apply, show m + j = j - 1 + (m + 1) by omega,
        Function.iterate_add_apply, Function.iterate_fixed hfixed]
      exact hk
  · exact .inl rfl
  · -- where a run is stuck the exchange stands still for ever, and has not ended
    have hrests := h'.rests
    unfold Rests at hrests
    rw [hp] at hrests
    have heq := Exchange.iterate_eq_of_fixed hj rfl hrests.1 hfixed
    exact absurd (heq ▸ hk : r'.exchange.execution.state = .finished o) (hrests.2 o)

/-- Where the exchange ends after some ticks, one more turn than these is enough for any run. -/
theorem Undisturbed.over_of_finished (hd : disk.NamedPlainly root) {k : Nat}
    (h : r.Undisturbed disk root facts) (hg : r.phase = .going) {o : Outcome}
    (hk : ((Exchange.tick (Store.findFile disk root) facts)^[k] r.exchange).execution.state =
      .finished o)
    (races : Nat → Bool) {others : Nat → Others} (ho : ∀ n, (others n).Keep disk root) :
    (r.driveAmid disk facts races others (k + 1)).phase = .over := by
  induction k generalizing r races others with
  | zero =>
    rw [driveAmid_succ hg]
    rcases h.over_or_going hd (ho 0) hg hk (races 0) with hp | ⟨-, m, hm, -⟩
    · exact hp
    · omega
  | succ k ih =>
    rw [driveAmid_succ hg]
    rcases h.over_or_going hd (ho 0) hg hk (races 0) with hp | ⟨hp, m, hm, hk'⟩
    · rw [driveAmid_of_not_going (by rw [hp]; decide)]
      exact hp
    · cases hm
      exact ih (h.turnAmid hd (ho 0) hg (races 0)).1 hp hk' _ fun n => ho (n + 1)

end Run

/-! ### Whole runs -/

section

variable {line : Line} {name : String} {s : Store} {others : Nat → Others}
  (hd : disk.NamedPlainly root) (ho : ∀ n, (others n).Keep disk root)
  (hs : s.Consistent disk root) (hn : ¬ Store.EndsTwice name)
include hd ho hs hn

theorem consistent_storeAmid (facts : ChangingFacts) (races : Nat → Bool) (turns : Nat)
    (charset : Charset) (line : Line) :
    (storeAmid disk facts races others turns charset s line name).Consistent disk root := by
  obtain ⟨hstore, hresult⟩ := hs.getOrLoadAmid (ho 0) hn
  unfold storeAmid
  rcases Run.OnFiles.opening hd hstore hresult charset line with ⟨t, -, he, hon⟩ | ⟨e, log, -, he⟩
  · rw [he]
    exact (hon.driveAmid hd facts races (fun n => ho (n + 1)) turns).store
  · rw [he]
    exact hstore

/-- A run over an open line reports what there is where the exchange ends. -/
theorem endsAs_of_conductAmid (hl : line.IsOpen) {races : Nat → Bool} {turns : Nat}
    {charset : Charset} {t : Template} (ht : Store.findFile disk root name = .ok t) {c : Conducted}
    (h : conductAmid disk facts races others turns charset s line name = some c) :
    ∃ y, Exchange.EndsAs (Store.findFile disk root) facts ⟨.start t charset, line, 0⟩ y ∧
      c.report = y.report ∧ c.line = y.line := by
  obtain ⟨hstore, hresult⟩ := hs.getOrLoadAmid (ho 0) hn
  unfold conductAmid at h
  rcases Run.OnFiles.opening hd hstore hresult charset line with ⟨u, hu, he, hon⟩ | ⟨e, log, hu, -⟩
  · cases ht.symm.trans hu
    rw [he] at h
    obtain ⟨h', k, hk⟩ := (hon.undisturbed facts hl rfl rfl).driveAmid hd races
      (fun n => ho (n + 1)) turns
    obtain ⟨hover, rfl⟩ := Run.over_of_conducted? h
    have hrests := h'.rests
    unfold Run.Rests at hrests
    rw [hover] at hrests
    exact ⟨_, ⟨⟨k, hk⟩, hrests⟩, rfl, rfl⟩
  · cases ht.symm.trans hu

/-- Where the exchange ends, a run over an open line is over in some number of turns. -/
theorem exists_conductAmid_of_endsAs (hl : line.IsOpen) (races : Nat → Bool) {charset : Charset}
    {t : Template} (ht : Store.findFile disk root name = .ok t) {y : Exchange}
    (h : Exchange.EndsAs (Store.findFile disk root) facts ⟨.start t charset, line, 0⟩ y) :
    ∃ turns c, conductAmid disk facts races others turns charset s line name = some c := by
  obtain ⟨hstore, hresult⟩ := hs.getOrLoadAmid (ho 0) hn
  obtain ⟨⟨k, hk⟩, o, hy⟩ := h
  unfold conductAmid
  rcases Run.OnFiles.opening hd hstore hresult charset line with ⟨u, hu, he, hon⟩ | ⟨e, log, hu, -⟩
  · cases ht.symm.trans hu
    have hover := (hon.undisturbed facts hl rfl rfl).over_of_finished hd rfl (hk ▸ hy) races
      fun n => ho (n + 1)
    refine ⟨k + 1, ?_⟩
    rw [he]
    exact ⟨_, Run.conducted?_of_over hover⟩
  · cases ht.symm.trans hu

theorem conductAmid_of_missing {e : RunError} (hf : Store.findFile disk root name = .error e)
    (facts : ChangingFacts) (races : Nat → Bool) (turns : Nat) (charset : Charset) (line : Line) :
    ∃ c, conductAmid disk facts races others turns charset s line name = some c ∧
      c.report = ⟨.aborted e, none⟩ ∧ c.line = line := by
  obtain ⟨hstore, hresult⟩ := hs.getOrLoadAmid (ho 0) hn
  unfold conductAmid
  rcases Run.OnFiles.opening hd hstore hresult charset line with ⟨t, ht, -⟩ | ⟨e', log, he, ho⟩
  · cases hf.symm.trans ht
  · cases hf.symm.trans he
    rw [ho]
    exact ⟨_, rfl, rfl, rfl⟩

end

/-- Two runs of one name over open lines that are the same end both or neither, and alike. -/
theorem conductAmid_congr (hd : disk.NamedPlainly root) {line : Line} {name : String}
    {s₁ s₂ : Store} {others₁ others₂ : Nat → Others} (ho₁ : ∀ n, (others₁ n).Keep disk root)
    (ho₂ : ∀ n, (others₂ n).Keep disk root) (hs₁ : s₁.Consistent disk root)
    (hs₂ : s₂.Consistent disk root) (hn : ¬ Store.EndsTwice name) (hl : line.IsOpen)
    (facts : ChangingFacts) (races₁ races₂ : Nat → Bool) (charset : Charset) :
    ((∃ turns c, conductAmid disk facts races₁ others₁ turns charset s₁ line name = some c) ↔
      ∃ turns c, conductAmid disk facts races₂ others₂ turns charset s₂ line name = some c) ∧
    ∀ turns₁ turns₂ c₁ c₂,
      conductAmid disk facts races₁ others₁ turns₁ charset s₁ line name = some c₁ →
      conductAmid disk facts races₂ others₂ turns₂ charset s₂ line name = some c₂ →
      c₁.report = c₂.report ∧ c₁.line = c₂.line := by
  cases hf : Store.findFile disk root name with
  | error e =>
    have h₁ := conductAmid_of_missing hd ho₁ hs₁ hn hf facts races₁
    have h₂ := conductAmid_of_missing hd ho₂ hs₂ hn hf facts races₂
    refine ⟨⟨fun _ => ?_, fun _ => ?_⟩, fun m n c₁ c₂ hc₁ hc₂ => ?_⟩
    · obtain ⟨c, hc, -⟩ := h₂ 0 charset line
      exact ⟨0, c, hc⟩
    · obtain ⟨c, hc, -⟩ := h₁ 0 charset line
      exact ⟨0, c, hc⟩
    · obtain ⟨d₁, hd₁, hr₁, hl₁⟩ := h₁ m charset line
      obtain ⟨d₂, hd₂, hr₂, hl₂⟩ := h₂ n charset line
      cases hc₁.symm.trans hd₁
      cases hc₂.symm.trans hd₂
      exact ⟨hr₁.trans hr₂.symm, hl₁.trans hl₂.symm⟩
  | ok t =>
    refine ⟨⟨fun ⟨m, c, hc⟩ => ?_, fun ⟨m, c, hc⟩ => ?_⟩, fun m n c₁ c₂ hc₁ hc₂ => ?_⟩
    · obtain ⟨y, hy, -⟩ := endsAs_of_conductAmid hd ho₁ hs₁ hn hl hf hc
      exact exists_conductAmid_of_endsAs hd ho₂ hs₂ hn hl races₂ hf hy
    · obtain ⟨y, hy, -⟩ := endsAs_of_conductAmid hd ho₂ hs₂ hn hl hf hc
      exact exists_conductAmid_of_endsAs hd ho₁ hs₁ hn hl races₁ hf hy
    · obtain ⟨y, hy, hr₁, hl₁⟩ := endsAs_of_conductAmid hd ho₁ hs₁ hn hl hf hc₁
      obtain ⟨z, hz, hr₂, hl₂⟩ := endsAs_of_conductAmid hd ho₂ hs₂ hn hl hf hc₂
      cases hy.unique hz
      exact ⟨hr₁.trans hr₂.symm, hl₁.trans hl₂.symm⟩

/-- **Nothing shows of how templates came into the store.** Loading, and running a template whatever
becomes of the run, keep a store consistent with the files. Over any two consistent stores, whatever
others do to them as long as they stay consistent, runs of one name for the same caller over an
open line end both or neither, having sent the same and with the same report. A run among others
who do nothing is the run as it is conducted. -/
theorem Disk.NamedPlainly.conduct_on_demand (hd : disk.NamedPlainly root) :
    (Store.empty (some root)).Consistent disk root ∧
    (∀ s, s.Consistent disk root → (s.loadAll disk).store.Consistent disk root ∧
      ∀ name, ¬ Store.EndsTwice name →
        (s.load disk name).store.Consistent disk root ∧
        (s.getOrLoad disk name).store.Consistent disk root ∧
        ∀ facts races others turns charset line, (∀ n, (others n).Keep disk root) →
          (storeAmid disk facts races others turns charset s line name).Consistent disk root ∧
          ∀ c, conductAmid disk facts races others turns charset s line name = some c →
            c.store.Consistent disk root) ∧
    (∀ facts races₁ races₂ others₁ others₂ charset s₁ s₂ line name,
      (∀ n, (others₁ n).Keep disk root) → (∀ n, (others₂ n).Keep disk root) →
      s₁.Consistent disk root → s₂.Consistent disk root → ¬ Store.EndsTwice name → line.IsOpen →
      ((∃ turns c, conductAmid disk facts races₁ others₁ turns charset s₁ line name = some c) ↔
        ∃ turns c, conductAmid disk facts races₂ others₂ turns charset s₂ line name = some c) ∧
      ∀ turns₁ turns₂ c₁ c₂,
        conductAmid disk facts races₁ others₁ turns₁ charset s₁ line name = some c₁ →
        conductAmid disk facts races₂ others₂ turns₂ charset s₂ line name = some c₂ →
        c₁.line.outgoing = c₂.line.outgoing ∧ c₁.report.outcome = c₂.report.outcome ∧
          c₁.report.response = c₂.report.response) ∧
    ∀ facts races turns charset s line name,
      conductAmid disk facts races (fun _ => undisturbed) turns charset s line name =
        conduct disk facts races turns charset s line name := by
  refine ⟨Store.consistent_empty disk root, fun s hs => ⟨hs.loadAll hd.files, fun name hn => ?_⟩,
    ?_, conductAmid_undisturbed disk⟩
  · refine ⟨(hs.load hn).1, (hs.getOrLoad hn).1, fun facts races others turns charset line ho => ?_⟩
    have hstore := consistent_storeAmid hd ho hs hn facts races turns charset line
    exact ⟨hstore, fun c hc => store_of_conductAmid hc ▸ hstore⟩
  · intro facts races₁ races₂ others₁ others₂ charset s₁ s₂ line name ho₁ ho₂ hs₁ hs₂ hn hl
    obtain ⟨hends, halike⟩ :=
      conductAmid_congr hd ho₁ ho₂ hs₁ hs₂ hn hl facts races₁ races₂ charset
    refine ⟨hends, fun m n c₁ c₂ hc₁ hc₂ => ?_⟩
    obtain ⟨hr, hline⟩ := halike m n c₁ c₂ hc₁ hc₂
    rw [hr, hline]
    exact ⟨rfl, rfl, rfl⟩

/-! ### A file that includes another -/

/-- A file that includes another, which asks for a line. -/
def greetingDisk : Disk :=
  ⟨.file "main.mec" (Charset.utf8.encode "[include sub]!")
    (.file "sub.mec" (Charset.utf8.encode "hi[readln]") .empty), []⟩

/-- Whatever path leads to a text there, no name that it includes ends twice. -/
theorem includesPlainly_greetingDisk {path text : String}
    (htext : greetingDisk.readText path = .ok text) (name : String) (t : Template)
    (ht : Template.compile name text = .ok t) : t.IncludesPlainly := by
  have htexts : greetingDisk.texts = ["[include sub]!", "hi[readln]"] := by decide
  have hmem := Disk.mem_texts_of_readText htext
  simp only [htexts, List.mem_cons, List.not_mem_nil, or_false] at hmem
  rcases hmem with rfl | rfl
  · have hc : Template.compile name "[include sub]!" = .ok (.of name "[include sub]!"
        [⟨.includes, ["sub"], "include"⟩, .literal "!"]) := rfl
    rw [hc] at ht
    cases ht
    simp only [IncludesPlainly, instructions_of]
    decide
  · have hc : Template.compile name "hi[readln]" = .ok (.of name "hi[readln]"
        [.literal "hi", ⟨.prompt .readLine, [], "readln"⟩]) := rfl
    rw [hc] at ht
    cases ht
    simp only [IncludesPlainly, instructions_of]
    decide

theorem namedPlainly_greetingDisk : greetingDisk.NamedPlainly "/" := by
  have hlist : greetingDisk.list "/" = .ok greetingDisk.top := rfl
  refine ⟨?_, fun name t ht => ?_⟩
  · rintro file ⟨f, g, folders, hf, hm, hg, hfile⟩
    cases hlist.symm.trans hf
    cases List.mem_singleton.mp hm
    cases hlist.symm.trans hg
    have hnames : file ∈ ["main.mec", "sub.mec"] := hfile
    revert hnames
    revert file
    decide
  · unfold Store.fileTemplate? at ht
    split at ht
    · rename_i text htext
      cases hc : Template.compile name text with
      | error e =>
        rw [hc] at ht
        cases ht
      | ok u =>
        rw [hc] at ht
        cases ht
        exact includesPlainly_greetingDisk htext name t hc
    · cases ht

/-- A caller who answers. -/
def answeringLine : Line := ⟨[120, 10], .closed, none, none, "", [], .never⟩

/-- The run finds both files in a store they were loaded into before, and none of them in an empty
store. -/
theorem conduct_on_demand_greetingDisk :
    greetingDisk.NamedPlainly "/" ∧
      ∃ turns c, conduct greetingDisk Facts.empty (fun _ => false) turns .utf8
          ((Store.empty (some "/")).loadAll greetingDisk).store answeringLine "main" = some c ∧
        c.line.outgoing = [104, 105, 33] ∧ c.report.outcome = .completed ∧
        c.report.response = some "x" := by
  have hd := namedPlainly_greetingDisk
  obtain ⟨hempty, hstores, hruns, halone⟩ := hd.conduct_on_demand
  have hloaded := (hstores _ hempty).1
  have hkeep : undisturbed.Keep greetingDisk "/" := fun _ _ h => h
  obtain ⟨hends, halike⟩ := hruns Facts.empty (fun _ => false) (fun _ => false)
    (fun _ => undisturbed) (fun _ => undisturbed) .utf8 _ _ answeringLine "main" (fun _ => hkeep)
    (fun _ => hkeep) hempty hloaded (by decide) ⟨rfl, rfl, rfl⟩
  simp only [halone] at hends halike
  have hrun : (conduct greetingDisk Facts.empty (fun _ => false) 5 .utf8 (Store.empty (some "/"))
      answeringLine "main").map (fun c => (c.line.outgoing, c.report)) =
        some ([104, 105, 33], ⟨.completed, some "x"⟩) := by decide
  obtain ⟨c, hc, hcval⟩ := Option.map_eq_some_iff.mp hrun
  obtain ⟨turns, c', hc'⟩ := hends.mp ⟨5, c, hc⟩
  obtain ⟨hout, houtcome, hresponse⟩ := halike 5 turns c c' hc hc'
  injection hcval with hbytes hreport
  rw [hbytes] at hout
  rw [hreport] at houtcome hresponse
  exact ⟨hd, turns, c', hc', hout.symm, houtcome.symm, hresponse.symm⟩

end BulletinBoard
