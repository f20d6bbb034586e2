/-
# Runs on files

A run over a store that agrees with the files below a root has templates of the files only, and
waits for names the files include. So whatever comes of it, whether the line is open or not and
whatever others do to the store meanwhile, as long as they keep it consistent, it keeps it so too.

Key definitions: `Disk.NamedPlainly`, `Run.OnFiles`.
Key theorems: `Run.OnFiles.turnAmid`, `Run.OnFiles.driveAmid`, `Run.OnFiles.opening`.
-/
import BulletinBoard.Proofs.Run.Exchange
import BulletinBoard.Proofs.Run.Sound
import BulletinBoard.Proofs.Run.Templates

namespace BulletinBoard

open Text Template

/-! ### Names that do not end twice -/

/-- No instruction includes a name that ends twice. -/
def Template.IncludesPlainly (t : Template) : Prop :=
  ∀ i ∈ t.instructions, i.kind = .includes → ¬ Store.EndsTwice (i.arg 0)

/-- No template file below a root ends twice, nor does a name that one of the files includes. -/
structure Disk.NamedPlainly (disk : Disk) (root : String) : Prop where
  files : ∀ file, Store.IsBelow disk root file → ¬ Store.EndsTwice file
  includes : ∀ name t, Store.fileTemplate? disk root name = some t → t.IncludesPlainly

theorem Execution.Sound.exists_includes {P : Template → Prop} {e : Execution} (hs : e.Sound)
    (ht : e.Runs P) {name : String} (h : e.state = .including name) :
    ∃ t, P t ∧ ∃ i ∈ t.instructions, i.kind = .includes ∧ i.arg 0 = name := by
  obtain ⟨-, -, f, hf, i, hi, hk, ha⟩ := hs.including name h
  refine ⟨f.template, ht f (List.mem_of_mem_head? hf), i, ?_, hk, ha⟩
  unfold Frame.passed? at hi
  split at hi
  · cases hi
  · exact List.mem_of_getElem? hi

theorem Execution.not_endsTwice_of_including {e : Execution} (hs : e.Sound)
    (ht : e.Runs IncludesPlainly) {name : String} (h : e.state = .including name) :
    ¬ Store.EndsTwice name := by
  obtain ⟨t, ht, i, hi, hk, rfl⟩ := hs.exists_includes ht h
  exact ht i hi hk

variable {disk : Disk} {root : String} {facts : ChangingFacts} {others : Others}

/-! ### Runs on files -/

/-- A run over a store that agrees with the files, with templates of the files. -/
structure Run.OnFiles (disk : Disk) (root : String) (r : Run) : Prop where
  store : r.store.Consistent disk root
  sound : r.execution.Sound
  templates : r.execution.Runs IncludesPlainly

namespace Execution

theorem includesPlainly_of_lookup? (hd : disk.NamedPlainly root) {s : Store}
    (hs : s.Consistent disk root) (name : String) (t : Template)
    (h : s.lookup? name = some t) : t.IncludesPlainly :=
  hd.includes _ t (hs.of_lookup? h)

variable {e : Execution}

theorem Sound.proceedAmid (h : e.Sound) (facts : ChangingFacts) (others : Others)
    (budget made : Nat) (s : Store) :
    (e.proceedAmid facts others budget made s).1.execution.Sound := by
  induction budget generalizing made e s with
  | zero => exact h
  | succ budget ih =>
    by_cases hr : e.state = .running
    · rw [proceedAmid_succ hr]
      exact ih (h.step hr _ _) _ _
    · rw [proceedAmid_of_ne_running hr]
      exact h

theorem Runs.proceedAmid (hd : disk.NamedPlainly root) (ho : others.Keep disk root)
    (h : e.Runs IncludesPlainly) (facts : ChangingFacts) (budget made : Nat) {s : Store}
    (hs : s.Consistent disk root) :
    (e.proceedAmid facts others budget made s).1.execution.Runs IncludesPlainly := by
  induction budget generalizing made e s with
  | zero => exact h
  | succ budget ih =>
    by_cases hr : e.state = .running
    · have hs' := ho (.step budget) s hs
      rw [proceedAmid_succ hr]
      exact ih (h.step (includesPlainly_of_lookup? hd hs')) _ hs'
    · rw [proceedAmid_of_ne_running hr]
      exact h

theorem Sound.settle (h : e.Sound) (find : String → Except RunError Template) :
    (e.settle find).Sound := by
  unfold Execution.settle
  split
  · split
    · exact h.enter _
    · exact h.abort _
  · exact h

theorem Runs.settle {P : Template → Prop} (h : e.Runs P) {find : String → Except RunError Template}
    (hf : ∀ name t, find name = .ok t → P t) : (e.settle find).Runs P := by
  unfold Execution.settle
  split
  · split
    · rename_i t ht
      exact h.enter (hf _ t ht)
    · exact h.abort _
  · exact h

end Execution

theorem Disk.NamedPlainly.includesPlainly_of_findFile (hd : disk.NamedPlainly root) (name : String)
    (t : Template) (h : Store.findFile disk root name = .ok t) : t.IncludesPlainly := by
  unfold Store.findFile at h
  split at h
  · rename_i hu
    cases h
    exact hd.includes _ t hu
  · cases h

/-- Looking for a template and loading it amid others keeps a store consistent, and gives what the
file compiles to. -/
theorem Store.Consistent.getOrLoadAmid {s : Store} (h : s.Consistent disk root)
    (ho : others.Keep disk root) {name : String} (hn : ¬ EndsTwice name) :
    (s.getOrLoadAmid disk others name).store.Consistent disk root ∧
      (s.getOrLoadAmid disk others name).result = findFile disk root name := by
  have hl := ho .lookup s h
  unfold Store.getOrLoadAmid
  dsimp only
  split
  · rename_i t ht
    exact ⟨hl, (hl.agrees _ t ht).symm⟩
  · exact (ho .load _ hl).loadMissing hn

namespace Run

variable {r : Run}

/-- What is sent changes a run at most by aborting it. -/
theorem utter_cases (r : Run) (a : Advance) :
    (r.utter a).store = r.store ∧
      ((r.utter a).execution = a.execution ∨
        ∃ error, (r.utter a).execution = (a.execution.abort error).execution) := by
  unfold utter
  dsimp only
  split
  · exact ⟨rfl, .inl rfl⟩
  split
  · exact ⟨rfl, .inl rfl⟩
  · exact ⟨rfl, .inr ⟨_, rfl⟩⟩

/-- What a run is given other than templates changes it at most by a line or by aborting it. -/
theorem respond_cases (r : Run) (disk : Disk) (hangupFirst : Bool)
    (h : ∀ name, r.execution.state ≠ .including name) :
    (r.respond disk hangupFirst).store = r.store ∧
      ((r.respond disk hangupFirst).execution = r.execution ∨
        (∃ line, (r.respond disk hangupFirst).execution = (r.execution.deliver line).execution) ∨
        ∃ error, (r.respond disk hangupFirst).execution = (r.execution.abort error).execution) := by
  unfold respond
  split
  · exact ⟨rfl, .inl rfl⟩
  · split
    · exact ⟨rfl, .inr (.inr ⟨_, rfl⟩)⟩
    · exact ⟨rfl, .inl rfl⟩
  · rename_i name hn
    exact absurd hn (h name)
  · unfold listen
    dsimp only
    split
    · exact ⟨rfl, .inr (.inr ⟨_, rfl⟩)⟩
    split
    · exact ⟨rfl, .inr (.inl ⟨_, rfl⟩)⟩
    · exact ⟨rfl, .inr (.inr ⟨_, rfl⟩)⟩
    · exact ⟨rfl, .inr (.inr ⟨_, rfl⟩)⟩
    · unfold fallSilent
      dsimp only
      split
      · exact ⟨rfl, .inl rfl⟩
      · exact ⟨rfl, .inr (.inr ⟨_, rfl⟩)⟩
      · exact ⟨rfl, .inr (.inr ⟨_, rfl⟩)⟩

theorem execution_receive {find : String → Except RunError Template} {name : String}
    (h : r.execution.state = .including name) {reply : Store.Reply RunError}
    (hr : reply.result = find name) :
    (r.receive reply).execution = r.execution.settle find ∧ (r.receive reply).line = r.line ∧
      (r.receive reply).phase = r.phase ∧ (r.receive reply).store = reply.store ∧
      (r.receive reply).steps = r.steps := by
  unfold receive Execution.settle
  rw [h]
  dsimp only
  rw [← hr]
  cases reply.result <;> exact ⟨rfl, rfl, rfl, rfl, rfl⟩

namespace OnFiles

theorem utter (h : r.OnFiles disk root) {a : Advance} (hs : a.execution.Sound)
    (ht : a.execution.Runs IncludesPlainly) : (r.utter a).OnFiles disk root := by
  obtain ⟨hstore, he | ⟨error, he⟩⟩ := r.utter_cases a
  · exact ⟨hstore ▸ h.store, he ▸ hs, he ▸ ht⟩
  · exact ⟨hstore ▸ h.store, he ▸ hs.abort error, he ▸ ht.abort error⟩

theorem speakAmid (hd : disk.NamedPlainly root) (ho : others.Keep disk root)
    (h : r.OnFiles disk root) (facts : ChangingFacts) (budget : Nat) :
    (r.speakAmid facts others budget).OnFiles disk root := by
  have hcounted : (r.countedAmid facts others budget).OnFiles disk root :=
    ⟨Execution.consistent_proceedAmid ho h.store r.execution budget r.steps, h.sound, h.templates⟩
  exact hcounted.utter (h.sound.proceedAmid facts others budget r.steps r.store)
    (h.templates.proceedAmid hd ho facts budget r.steps h.store)

theorem respondAmid (hd : disk.NamedPlainly root) (ho : others.Keep disk root)
    (h : r.OnFiles disk root) (hangupFirst : Bool) :
    (r.respondAmid disk hangupFirst others).OnFiles disk root := by
  unfold Run.respondAmid
  split
  · rename_i name hn
    have hplain := Execution.not_endsTwice_of_including h.sound h.templates hn
    obtain ⟨hstore, hresult⟩ := h.store.getOrLoadAmid ho hplain
    obtain ⟨he, -, -, hs, -⟩ := execution_receive hn hresult
    refine ⟨hs ▸ hstore, he ▸ h.sound.settle _, he ▸ h.templates.settle ?_⟩
    exact hd.includesPlainly_of_findFile
  · rename_i hn
    obtain ⟨hs, he | ⟨line, he⟩ | ⟨error, he⟩⟩ := respond_cases r disk hangupFirst hn
    · exact ⟨hs ▸ h.store, he ▸ h.sound, he ▸ h.templates⟩
    · exact ⟨hs ▸ h.store, he ▸ h.sound.deliver line, he ▸ h.templates.deliver line⟩
    · exact ⟨hs ▸ h.store, he ▸ h.sound.abort error, he ▸ h.templates.abort error⟩

/-- A turn keeps the store consistent, whatever comes of it. -/
theorem turnAmid (hd : disk.NamedPlainly root) (ho : others.Keep disk root)
    (h : r.OnFiles disk root) (facts : ChangingFacts) (hangupFirst : Bool) :
    (r.turnAmid disk facts hangupFirst others).OnFiles disk root := by
  have hspoken := h.speakAmid hd ho facts stepBudget
  by_cases hg : r.phase = .going
  · by_cases hp : (r.speakAmid facts others stepBudget).phase = .going
    · rw [turnAmid_of_going hg hp]
      exact hspoken.respondAmid hd ho hangupFirst
    · rw [turnAmid_of_spoken hg hp]
      exact hspoken
  · rw [turnAmid_of_not_going hg]
    exact h

theorem driveAmid (hd : disk.NamedPlainly root) (h : r.OnFiles disk root) (facts : ChangingFacts)
    (races : Nat → Bool) {others : Nat → Others} (ho : ∀ n, (others n).Keep disk root)
    (turns : Nat) : (r.driveAmid disk facts races others turns).OnFiles disk root := by
  induction turns generalizing r races others with
  | zero => exact h
  | succ turns ih =>
    by_cases hg : r.phase = .going
    · rw [driveAmid_succ hg]
      exact ih (h.turnAmid hd (ho 0) facts (races 0)) _ fun n => ho (n + 1)
    · rw [driveAmid_of_not_going hg]
      exact h

/-- A run is on files before its first turn, and the store is consistent also if it has none. -/
theorem opening (hd : disk.NamedPlainly root) {name : String} {reply : Store.Reply RunError}
    (hs : reply.store.Consistent disk root) (hr : reply.result = Store.findFile disk root name)
    (charset : Charset) (line : Line) :
    (∃ t, Store.findFile disk root name = .ok t ∧
      Run.opening charset line name reply =
        .inl ⟨.start t charset, reply.store, line, reply.log, .going, 0⟩ ∧
      Run.OnFiles disk root ⟨.start t charset, reply.store, line, reply.log, .going, 0⟩) ∨
    ∃ e log, Store.findFile disk root name = .error e ∧
      Run.opening charset line name reply =
        .inr ⟨⟨.aborted e, none⟩, reply.store, line, log, 0⟩ := by
  unfold Run.opening
  cases hresult : reply.result with
  | ok t =>
    have ht := hr.symm.trans hresult
    exact .inl ⟨t, ht, rfl, hs, .start t charset,
      .start (hd.includesPlainly_of_findFile _ t ht) charset⟩
  | error e => exact .inr ⟨e, _, hr.symm.trans hresult, rfl⟩

end OnFiles

end Run

end BulletinBoard
