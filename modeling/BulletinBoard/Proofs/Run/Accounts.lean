/-
# What there is to count

What the counts are of, said without them: drafts that are compiled, instructions that are carried
out, and ends of runs. Every operation on a store counts its drafts (`Store.tally_drafts`), whether
they are handed to it or read from files; a file that cannot be read holds none. Every operation on
a run counts the instructions it carries out, and the end of the run if it leads there and the run
had not ended before (`Advance.Balances`). The same is true of half a turn of a run that is
conducted, with the drafts it reads from files (`Run.balances_speak`, `Run.balances_respond`).

Key definitions: `Tally.ofDrafts`, `Tally.ofInstructions`, `Store.drafts`, `Execution.carriedOut`,
`Advance.Balances`, `Run.Balances`.
Key theorems: `Store.tally_drafts`, `Store.tally_loadAll`, `Execution.balances_proceed`,
`Run.balances_speak`, `Run.balances_respond`.
-/
import BulletinBoard.Proofs.Run.Counts
import BulletinBoard.Proofs.Run.Supply
import BulletinBoard.Proofs.Run.Turns

namespace BulletinBoard

open Text Template

/-- Balances of two stretches, one after the other, add up. `a` is counted before, between and after
them, `s` is what has ended by then, and `w` and `m` is the work they do. -/
theorem Tally.balance_trans {a a' a'' s s' s'' w m : Tally} (h : a' + s = a + w + s')
    (h' : a'' + s' = a' + m + s'') : a'' + s = a + (w + m) + s'' := by
  apply add_right_cancel
  calc a'' + s + s'
      = a'' + s' + s := by ac_rfl
    _ = a' + s + (m + s'') := by
        rw [h']
        ac_rfl
    _ = a + (w + m) + s'' + s' := by
        rw [h]
        ac_rfl

/-! ### Drafts -/

namespace Draft

/-- The brackets or the words of the draft are not those of a template. -/
def Fails (d : Draft) : Prop :=
  (∃ e, d.compiled = .error (.brackets e)) ∨ ∃ e, d.compiled = .error (.words e)

instance (d : Draft) : Decidable d.Succeeds :=
  match h : d.compiled with
  | .ok t => .isTrue ⟨t, h⟩
  | .error _ => .isFalse (not_succeeds_of_error h)

theorem fails_iff {d : Draft} : d.Fails ↔ ¬ d.Succeeds := by
  constructor
  · rintro (⟨e, he⟩ | ⟨e, he⟩) <;> exact not_succeeds_of_error he
  · intro h
    have hc : d.compiled = Template.compile d.key d.source := rfl
    unfold Fails
    unfold Succeeds at h
    rw [hc] at h ⊢
    unfold Template.compile at h ⊢
    split
    · rename_i e _
      exact .inl ⟨e, rfl⟩
    · split
      · rename_i e _
        exact .inr ⟨e, rfl⟩
      · rename_i hs _ _ hi
        rw [hs] at h
        dsimp only at h
        rw [hi] at h
        exact absurd ⟨_, rfl⟩ h

instance (d : Draft) : Decidable d.Fails := decidable_of_iff _ fails_iff.symm

end Draft

/-- What is counted of drafts: how many compile, and how many do not. -/
def Tally.ofDrafts (ds : List Draft) : Tally :=
  { Tally.zero with
    compiled := ds.countP fun d => d.Succeeds
    rejected := ds.countP fun d => d.Fails }

theorem Tally.ofDrafts_append (ds es : List Draft) :
    ofDrafts (ds ++ es) = ofDrafts ds + ofDrafts es := by
  simp [ofDrafts, add_def, add, zero]

/-! ### Stores -/

namespace Store

theorem tally_compile (s : Store) (d : Draft) :
    (s.compile d.name d.source).log.tally = .ofDrafts [d] := by
  unfold Tally.ofDrafts
  cases h : d.compiled with
  | ok t =>
    have hs : d.Succeeds := ⟨t, h⟩
    have hf : ¬ d.Fails := fun hf => Draft.fails_iff.mp hf hs
    rw [tally_compile_of_ok h]
    simp [hs, hf, Tally.zero]
  | error e =>
    have hs : ¬ d.Succeeds := Draft.not_succeeds_of_error h
    have hf : d.Fails := Draft.fails_iff.mpr hs
    rw [tally_compile_of_error h]
    simp [hs, hf, Tally.zero]

/-- The draft in the file of a name, if it can be read. -/
def fileDraft (disk : Disk) (s : Store) (name : String) : List Draft :=
  match s.source disk (baseName name) with
  | .ok text => [⟨baseName name, text⟩]
  | .error _ => []

/-- The drafts that are compiled when the store is asked for something. -/
def drafts (disk : Disk) (s : Store) : Call → List Draft
  | .compile name source => [⟨name, source⟩]
  | .load name => s.fileDraft disk name
  | .getOrLoad name =>
    match s.lookup? name with
    | some _ => []
    | none => s.fileDraft disk name

/-- What there is to tell when the store was asked for something. -/
def logOf (disk : Disk) (s : Store) : Call → Log
  | .compile name source => (s.compile name source).log
  | .load name => (s.load disk name).log
  | .getOrLoad name => (s.getOrLoad disk name).log

variable {disk : Disk} {s : Store}

theorem tally_load (disk : Disk) (s : Store) (name : String) :
    (s.load disk name).log.tally = .ofDrafts (s.fileDraft disk name) := by
  unfold load fileDraft
  cases s.source disk (baseName name) with
  | error e => rfl
  | ok text => exact s.tally_compile ⟨baseName name, text⟩

/-- A store without a root reads no files. -/
theorem fileDraft_of_root (h : s.root = none) (name : String) : s.fileDraft disk name = [] := by
  unfold fileDraft source
  rw [h]

/-- What the store is asked for counts the drafts that are compiled for it. -/
theorem tally_drafts (disk : Disk) (s : Store) (call : Call) :
    (s.logOf disk call).tally = .ofDrafts (s.drafts disk call) := by
  cases call with
  | compile name source => exact s.tally_compile ⟨name, source⟩
  | load name => exact s.tally_load disk name
  | getOrLoad name =>
    unfold logOf drafts getOrLoad
    dsimp only
    cases hl : s.lookup? name with
    | some t => rfl
    | none =>
      dsimp only
      rw [← s.tally_load disk name]
      unfold loadMissing
      split
      · rename_i hr
        rw [s.tally_load disk name, fileDraft_of_root hr]
        rfl
      · dsimp only
        split
        · rfl
        · exact Tally.add_zero _

/-! ### Loading all -/

/-- The templates in the files of folders, up to the first that cannot be listed. -/
def namesIn (disk : Disk) (root : String) : List (List String) → List String
  | [] => []
  | folders :: rest =>
    match disk.list (folders.foldl Disk.join root) with
    | .ok f => templatesIn folders f ++ namesIn disk root rest
    | .error _ => []

/-- The drafts in the files below the root, up to the first folder that cannot be listed. -/
def allDrafts (disk : Disk) (s : Store) : List Draft :=
  match s.root with
  | none => []
  | some root =>
    match disk.list root with
    | .ok f => (namesIn disk root (f.folders.map Prod.fst)).flatMap (s.fileDraft disk)
    | .error _ => []

theorem fileDraft_congr {s s' : Store} (h : s'.root = s.root) :
    s'.fileDraft disk = s.fileDraft disk := by
  funext name
  unfold fileDraft source
  rw [h]

theorem next_census (disk : Disk) (c : Census) (name : String) :
    (c.next disk name).log.tally = c.log.tally + .ofDrafts (c.store.fileDraft disk name) ∧
      (c.next disk name).store.root = c.store.root ∧ (c.next disk name).stopped = c.stopped := by
  unfold Census.next
  dsimp only
  split
  · refine ⟨?_, c.store.root_load disk name, rfl⟩
    rw [← c.store.tally_load disk name]
    rfl
  · refine ⟨?_, c.store.root_load disk name, rfl⟩
    rw [← c.store.tally_load disk name]
    exact Tally.add_zero _

theorem names_census (disk : Disk) (c : Census) (names : List String) :
    (names.foldl (Census.next disk) c).log.tally =
        c.log.tally + .ofDrafts (names.flatMap (c.store.fileDraft disk)) ∧
      (names.foldl (Census.next disk) c).store.root = c.store.root ∧
      (names.foldl (Census.next disk) c).stopped = c.stopped := by
  induction names generalizing c with
  | nil => exact ⟨(Tally.add_zero _).symm, rfl, rfl⟩
  | cons name rest ih =>
    obtain ⟨htally, hroot, hstopped⟩ := next_census disk c name
    obtain ⟨hrest, hroots, hstops⟩ := ih (c.next disk name)
    refine ⟨?_, hroots.trans hroot, hstops.trans hstopped⟩
    rw [List.foldl_cons, hrest, htally, fileDraft_congr hroot, List.flatMap_cons,
      Tally.ofDrafts_append, Tally.add_assoc]

/-- Behind a folder that cannot be listed nothing is loaded. -/
theorem folders_of_stopped {c : Census} {e : ReadError} (h : c.stopped = some e) (root : String)
    (ways : List (List String)) : ways.foldl (Census.folder disk root) c = c := by
  induction ways with
  | nil => rfl
  | cons folders rest ih =>
    have hc : c.folder disk root folders = c := by
      unfold Census.folder
      rw [h]
    rw [List.foldl_cons, hc, ih]

theorem folders_census {c : Census} (hc : c.stopped = none) (disk : Disk) (root : String)
    (ways : List (List String)) :
    (ways.foldl (Census.folder disk root) c).log.tally =
      c.log.tally + .ofDrafts ((namesIn disk root ways).flatMap (c.store.fileDraft disk)) := by
  induction ways generalizing c with
  | nil => exact (Tally.add_zero _).symm
  | cons folders rest ih =>
    rw [List.foldl_cons, namesIn]
    cases hl : disk.list (folders.foldl Disk.join root) with
    | error e =>
      have hstop : c.folder disk root folders = { c with stopped := some e } := by
        unfold Census.folder
        rw [hc, hl]
      rw [hstop, folders_of_stopped rfl]
      exact (Tally.add_zero _).symm
    | ok f =>
      have hnext : c.folder disk root folders =
          (templatesIn folders f).foldl (Census.next disk) c := by
        unfold Census.folder
        rw [hc, hl]
      obtain ⟨htally, hroot, hstopped⟩ := names_census disk c (templatesIn folders f)
      rw [hnext, ih (hstopped.trans hc), htally, fileDraft_congr hroot, List.flatMap_append,
        Tally.ofDrafts_append, Tally.add_assoc]

/-- Loading all templates counts the drafts in the files it comes to. -/
theorem tally_loadAll (disk : Disk) (s : Store) :
    (s.loadAll disk).log.tally = .ofDrafts (s.allDrafts disk) := by
  unfold loadAll allDrafts
  dsimp only
  cases s.root with
  | none => rfl
  | some root =>
    dsimp only
    cases disk.list root with
    | error e => rfl
    | ok f =>
      dsimp only
      rw [folders_census rfl]
      exact Tally.zero_add _

end Store

/-! ### Runs -/

/-- What is counted of instructions that are carried out: those the board does not act on. -/
def Tally.ofInstructions (is : List Instruction) : Tally :=
  { Tally.zero with unsupported := is.countP Instruction.ignored }

theorem Tally.ofInstructions_append (is js : List Instruction) :
    ofInstructions (is ++ js) = ofInstructions is + ofInstructions js := by
  simp [ofInstructions, add_def, add, zero]

/-- What an operation on a run counts is the work it does, and the end of the run if it leads there
and the run had not ended before. -/
def Advance.Balances (e : Execution) (work : Tally) (a : Advance) : Prop :=
  a.log.tally + e.state.tally = work + a.execution.state.tally

namespace Execution

/-- The instruction a run stands at, unless its line is hidden. -/
def current? (e : Execution) : Option Instruction :=
  if e.hidden then none
  else
    match e.frames with
    | [] => none
    | f :: _ => f.template.at? f.position

/-- The instructions that are carried out when a run is advanced. `made` steps were made before. -/
def carriedOut (store : Store) (facts : ChangingFacts) : Nat → Nat → Execution → List Instruction
  | 0, _, _ => []
  | budget + 1, made, e =>
    match e.state with
    | .running =>
      e.current?.toList ++
        carriedOut store facts budget (made + 1) (e.step store (facts made)).execution
    | _ => []

variable {e : Execution}

theorem due_eq (e : Execution) : e.due = .ofInstructions e.current?.toList := by
  have hone : ∀ i : Instruction, i.tally = .ofInstructions [i] := fun i => by
    unfold Instruction.tally Tally.ofInstructions
    cases hi : i.ignored <;> simp [hi, Tally.zero]
  unfold due current?
  split
  · rfl
  · cases e.frames with
    | nil => rfl
    | cons f below =>
      dsimp only
      cases f.template.at? f.position with
      | none => rfl
      | some i => exact hone i

theorem tally_of_running (h : e.state = .running) : e.state.tally = .zero := by
  rw [h]
  rfl

theorem balances_quiet (e : Execution) : (Advance.quiet e).Balances e .zero := rfl

theorem balances_proceed (store : Store) (facts : ChangingFacts) (budget made : Nat)
    (e : Execution) : (e.proceed store facts budget made).1.Balances e
      (.ofInstructions (e.carriedOut store facts budget made)) := by
  induction budget generalizing made e with
  | zero => exact e.balances_quiet
  | succ budget ih =>
    by_cases hr : e.state = .running
    · have hcarried : e.carriedOut store facts (budget + 1) made = e.current?.toList ++
          (e.step store (facts made)).execution.carriedOut store facts budget (made + 1) := by
        rw [carriedOut, hr]
      have htally : (e.step store (facts made)).log.tally =
          e.due + (e.step store (facts made)).execution.state.tally := tally_step hr store _
      rw [proceed_succ hr, hcarried]
      generalize e.step store (facts made) = first at htally ⊢
      have hrest := ih (made + 1) first.execution
      generalize first.execution.proceed store facts budget (made + 1) = rest at hrest ⊢
      unfold Advance.Balances at hrest ⊢
      rw [tally_of_running hr, Tally.ofInstructions_append, ← due_eq, Tally.add_zero]
      calc first.log.tally + rest.1.log.tally
          = e.due + (rest.1.log.tally + first.execution.state.tally) := by
            rw [htally]
            ac_rfl
        _ = _ := by rw [hrest, Tally.add_assoc]; rfl
    · have hcarried : e.carriedOut store facts (budget + 1) made = [] := by
        unfold carriedOut
        split
        · contradiction
        · rfl
      rw [proceed_of_ne_running hr, hcarried]
      exact e.balances_quiet

theorem balances_deliver (e : Execution) (line : String) : (e.deliver line).Balances e .zero := by
  unfold deliver
  split
  · rename_i w hw
    split
    · unfold Advance.Balances
      rw [hw]
      rfl
    · exact e.balances_quiet
  · rfl

theorem balances_enter (e : Execution) (t : Template) : (e.enter t).Balances e .zero := by
  unfold enter
  split
  · rename_i name hn
    unfold Advance.Balances
    rw [hn]
    rfl
  · rfl

theorem balances_abort (e : Execution) (error : RunError) :
    (e.abort error).Balances e .zero := by
  unfold abort
  split
  · exact e.balances_quiet
  · rename_i hne
    have hzero : e.state.tally = .zero := by
      cases hs : e.state with
      | finished o => exact absurd hs (hne o)
      | _ => rfl
    unfold Advance.Balances
    rw [hzero, Tally.add_zero, Tally.zero_add]
    exact e.tally_finish _

end Execution

/-! ### Conducted runs -/

namespace Run

/-- What half a turn counts is the work it does, and the end of the run if it leads there and the
run had not ended before. -/
def Balances (r : Run) (work : Tally) (r' : Run) : Prop :=
  r'.log.tally + r.execution.state.tally = r.log.tally + work + r'.execution.state.tally

variable {r r' r'' : Run} {work more : Tally}

theorem Balances.trans (h : r.Balances work r') (h' : r'.Balances more r'') :
    r.Balances (work + more) r'' :=
  Tally.balance_trans h h'

theorem balances_take (r : Run) {a : Advance} (h : a.Balances r.execution work) :
    r.Balances work (r.take a) := by
  show r.log.tally + a.log.tally + r.execution.state.tally =
    r.log.tally + work + a.execution.state.tally
  rw [Tally.add_assoc, h, Tally.add_assoc]

/-- What is sent counts for nothing, but a run whose output is refused is aborted. -/
theorem balances_utter (r : Run) {a : Advance} (h : a.Balances r.execution work) :
    r.Balances work (r.utter a) := by
  have htake := r.balances_take h
  unfold utter
  dsimp only
  split
  · exact htake
  · split
    · exact htake
    · rename_i line text _
      have habort : (r.take a).Balances .zero
          (({ r.take a with line } : Run).take (a.execution.abort (.output text))) :=
        balances_take { r.take a with line } (a.execution.balances_abort _)
      rw [← Tally.add_zero work]
      exact htake.trans habort

/-- Speaking counts the instructions that are carried out. -/
theorem balances_speak (facts : ChangingFacts) (budget : Nat) (r : Run) :
    r.Balances (.ofInstructions (r.execution.carriedOut r.store facts budget r.steps))
      (r.speak facts budget) :=
  balances_utter (r.counted facts budget)
    (r.execution.balances_proceed r.store facts budget r.steps)

/-- The drafts that are compiled for the template a run waits for. -/
def drafts (disk : Disk) (r : Run) : List Draft :=
  match r.execution.state with
  | .including name => r.store.drafts disk (.getOrLoad name)
  | _ => []

theorem balances_fetch (disk : Disk) (r : Run) (name : String) :
    r.Balances (.ofDrafts (r.store.drafts disk (.getOrLoad name))) (r.fetch disk name) := by
  have hstore : r.Balances (.ofDrafts (r.store.drafts disk (.getOrLoad name)))
      { r with
        store := (r.store.getOrLoad disk name).store
        log := r.log ++ (r.store.getOrLoad disk name).log } := by
    rw [← r.store.tally_drafts disk (.getOrLoad name)]
    rfl
  unfold fetch receive
  dsimp only
  rw [← Tally.add_zero (.ofDrafts _)]
  split
  · rename_i t _
    exact hstore.trans (balances_take _ (r.execution.balances_enter t))
  · rename_i e _
    exact hstore.trans (balances_take _ (r.execution.balances_abort e))

theorem balances_self (r : Run) : r.Balances .zero r := by
  unfold Balances
  rw [Tally.add_zero]

theorem balances_fallSilent (r : Run) : r.Balances .zero r.fallSilent := by
  unfold fallSilent
  split
  · exact r.balances_self
  · exact r.balances_take (r.execution.balances_abort _)
  · exact r.balances_take (r.execution.balances_abort _)

theorem balances_listen (hangupFirst : Bool) (r : Run) :
    r.Balances .zero (r.listen hangupFirst) := by
  unfold listen
  dsimp only
  split
  · exact r.balances_take (r.execution.balances_abort _)
  · split
    · exact balances_take { r with line := r.line.hear.2 } (r.execution.balances_deliver _)
    · exact balances_take { r with line := r.line.hear.2 } (r.execution.balances_abort _)
    · exact balances_take { r with line := r.line.hear.2 } (r.execution.balances_abort _)
    · exact balances_fallSilent { r with line := r.line.hear.2 }

/-- Giving a run what it needs counts the drafts that are compiled for it. -/
theorem balances_respond (disk : Disk) (hangupFirst : Bool) (r : Run) :
    r.Balances (.ofDrafts (r.drafts disk)) (r.respond disk hangupFirst) := by
  unfold respond drafts
  cases r.execution.state with
  | finished o => exact r.balances_self
  | running =>
    dsimp only
    split
    · exact r.balances_take (r.execution.balances_abort _)
    · exact r.balances_self
  | including name => exact r.balances_fetch disk name
  | suspended w => exact r.balances_listen hangupFirst

end Run

end BulletinBoard
