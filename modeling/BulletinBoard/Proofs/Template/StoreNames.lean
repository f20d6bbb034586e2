/-
# Names under which templates are found

A template that is compiled, loaded, or fetched on demand is found again under the name that was
asked for, and a store finds every name it lists, with the template of that name.

A name is asked for with or without its ending, and every call takes the ending off. Loading does so
twice, since it compiles under the name it has read the file by, so what it puts into the store is
not found under a name that ends twice (`not_found_of_endsTwice`). Compiling under such a name
leaves one ending, and then the store lists a name that it takes for another.

Key definitions: `Call`, `gives?`, `after`, `afterAll`, `NamesItself`.
Key theorems: `find_after`, `NamesItself.afterAll`, `found_by_name`.
-/
import BulletinBoard.Proofs.Template.StoreFiles

namespace BulletinBoard.Store

open Text Template

/-! ### Calls -/

/-- What can be asked of a store that may put a template into it. -/
inductive Call where
  | compile (name source : String)
  | load (name : String)
  | getOrLoad (name : String)

namespace Call

/-- The name that is asked for. -/
def name : Call → String
  | compile name _ => name
  | load name => name
  | getOrLoad name => name

/-- Whether a file may be read. -/
def reads : Call → Bool
  | compile _ _ => false
  | load _ => true
  | getOrLoad _ => true

end Call

/-- The template that a call gives, if it gives one. -/
def gives? (disk : Disk) (s : Store) : Call → Option Template
  | .compile name source => (s.compile name source).result.toOption
  | .load name => (s.load disk name).result.toOption
  | .getOrLoad name => (s.getOrLoad disk name).result.toOption

/-- The store after a call. -/
def after (disk : Disk) (s : Store) : Call → Store
  | .compile name source => (s.compile name source).store
  | .load name => (s.load disk name).store
  | .getOrLoad name => (s.getOrLoad disk name).store

/-- The store after calls, one after the other. -/
def afterAll (disk : Disk) (s : Store) (calls : List Call) : Store :=
  calls.foldl (after disk) s

variable {disk : Disk} {s : Store} {name : String} {t : Template}

/-! ### What is found -/

theorem find_eq_ok_iff : s.find name = .ok t ↔ s.lookup? name = some t := by
  unfold find
  split <;> rename_i h <;> simp [h]

theorem find_eq_error_iff {e : RunError} :
    s.find name = .error e ↔ s.lookup? name = none ∧ e = .notCompiled (baseName name) := by
  unfold find
  split <;> rename_i h <;> simp [h, eq_comm]

theorem find_of_lookup? (h : s.lookup? name = some t) : s.find name = .ok t :=
  find_eq_ok_iff.mpr h

theorem find_baseName (h : ¬ EndsTwice name) : s.find (baseName name) = s.find name := by
  unfold find lookup?
  rw [baseName_baseName h]

/-- Compiling puts the template under its name into the store, or leaves the store as it is. -/
theorem compile_cases (s : Store) (name source : String) :
    (∃ t, (s.compile name source).result = .ok t ∧
      Template.compile (baseName name) source = .ok t ∧
      (s.compile name source).store = { s with entries := insert (baseName name) t s.entries }) ∨
    (s.compile name source).result.toOption = none ∧ (s.compile name source).store = s := by
  unfold compile
  split
  · rename_i t ht
    exact .inl ⟨t, rfl, ht, rfl⟩
  · exact .inr ⟨rfl, rfl⟩

theorem find_compile {source : String}
    (h : (s.compile name source).result.toOption = some t) :
    (s.compile name source).store.find name = .ok t := by
  rcases s.compile_cases name source with ⟨u, hu, -, hs⟩ | ⟨hn, -⟩
  · rw [hu] at h
    cases h
    rw [hs]
    refine find_of_lookup? ?_
    unfold lookup?
    rw [lookup_insert, if_pos rfl]
  · rw [hn] at h
    cases h

/-- Loading compiles what it reads, under the name without its ending, or leaves the store as it
is. -/
theorem load_cases (disk : Disk) (s : Store) (name : String) :
    (∃ source, s.source disk (baseName name) = .ok source ∧
      s.load disk name = s.compile (baseName name) source) ∨
    (s.load disk name).result.toOption = none ∧ (s.load disk name).store = s := by
  unfold load
  split
  · exact .inr ⟨rfl, rfl⟩
  · rename_i source hsource
    exact .inl ⟨source, hsource, rfl⟩

theorem find_load (hn : ¬ EndsTwice name) (h : (s.load disk name).result.toOption = some t) :
    (s.load disk name).store.find name = .ok t := by
  rcases s.load_cases disk name with ⟨source, -, hl⟩ | ⟨hnone, -⟩
  · rw [hl] at h ⊢
    rw [← find_baseName hn]
    exact find_compile h
  · rw [hnone] at h
    cases h

/-- What a store lacks is loaded, if it has a folder of template files. -/
theorem loadMissing_cases (disk : Disk) (s : Store) (name : String) :
    ((s.loadMissing disk name).store = (s.load disk name).store ∧
      (s.loadMissing disk name).result.toOption = (s.load disk name).result.toOption) ∨
    (s.loadMissing disk name).store = s ∧ (s.loadMissing disk name).result.toOption = none := by
  unfold loadMissing
  split
  · exact .inr ⟨rfl, rfl⟩
  · dsimp only
    split
    · rename_i t ht
      rw [ht]
      exact .inl ⟨rfl, rfl⟩
    · rename_i e he
      rw [he]
      exact .inl ⟨rfl, rfl⟩

theorem find_getOrLoad (hn : ¬ EndsTwice name)
    (h : (s.getOrLoad disk name).result.toOption = some t) :
    (s.getOrLoad disk name).store.find name = .ok t := by
  unfold getOrLoad at h ⊢
  split at h
  · rename_i u hu
    cases h
    exact find_of_lookup? hu
  · rcases s.loadMissing_cases disk name with ⟨hs, hr⟩ | ⟨-, hr⟩
    · rw [hr] at h
      rw [hs]
      exact find_load hn h
    · rw [hr] at h
      cases h

/-- What a call gives is found right after it. -/
theorem find_after {c : Call} (hn : c.reads = true → ¬ EndsTwice c.name)
    (h : s.gives? disk c = some t) : (s.after disk c).find c.name = .ok t := by
  cases c with
  | compile name source => exact find_compile h
  | load name => exact find_load (hn rfl) h
  | getOrLoad name => exact find_getOrLoad (hn rfl) h

/-! ### Names that are listed -/

/-- Every template is kept under its own name, which has no ending. -/
def NamesItself (s : Store) : Prop :=
  ∀ name t, (name, t) ∈ s.entries → t.name = name ∧ baseName name = name

namespace NamesItself

theorem compile (h : s.NamesItself) (hn : baseName (baseName name) = baseName name)
    (source : String) : (s.compile name source).store.NamesItself := by
  rcases s.compile_cases name source with ⟨t, -, ht, hs⟩ | ⟨-, hs⟩
  · rw [hs]
    intro n u hu
    rcases mem_insert hu with he | hm
    · cases he
      exact ⟨(Template.name_source_of_compile ht).1, hn⟩
    · exact h n u hm
  · rwa [hs]

theorem load (h : s.NamesItself) (hn : ¬ EndsTwice name) :
    (s.load disk name).store.NamesItself := by
  rcases s.load_cases disk name with ⟨source, -, hl⟩ | ⟨-, hs⟩
  · rw [hl]
    exact h.compile (congrArg baseName (baseName_baseName hn)) source
  · rwa [hs]

theorem getOrLoad (h : s.NamesItself) (hn : ¬ EndsTwice name) :
    (s.getOrLoad disk name).store.NamesItself := by
  unfold Store.getOrLoad
  split
  · exact h
  · rcases s.loadMissing_cases disk name with ⟨hs, -⟩ | ⟨hs, -⟩
    · rw [hs]
      exact h.load hn
    · rwa [hs]

theorem after (h : s.NamesItself) {c : Call} (hn : ¬ EndsTwice c.name) :
    (s.after disk c).NamesItself := by
  cases c with
  | compile name source => exact h.compile (baseName_baseName hn) source
  | load name => exact h.load hn
  | getOrLoad name => exact h.getOrLoad hn

theorem afterAll (h : s.NamesItself) {calls : List Call}
    (hn : ∀ c ∈ calls, ¬ EndsTwice c.name) : (s.afterAll disk calls).NamesItself := by
  induction calls generalizing s with
  | nil => exact h
  | cons c calls ih =>
    obtain ⟨hc, hcalls⟩ := List.forall_mem_cons.mp hn
    exact ih (h.after hc) hcalls

theorem find_of_mem_names (h : s.NamesItself) (hn : name ∈ s.names) :
    ∃ t, s.find name = .ok t ∧ t.name = name := by
  obtain ⟨⟨n, u⟩, hu, rfl⟩ := List.mem_map.mp hn
  have hbase : baseName n = n := (h n u hu).2
  cases hl : s.entries.lookup n with
  | none =>
    have hne := List.lookup_eq_none_iff.mp hl _ hu
    simp at hne
  | some t =>
    obtain ⟨before, later, hentries, -⟩ := List.lookup_eq_some_iff.mp hl
    have hmem : (n, t) ∈ s.entries := by
      rw [hentries]
      exact List.mem_append_right _ List.mem_cons_self
    refine ⟨t, find_of_lookup? ?_, (h n t hmem).1⟩
    rw [lookup?, hbase, hl]

end NamesItself

theorem namesItself_empty (root : Option String) : (empty root).NamesItself :=
  fun _ _ h => by cases h

/-- **What is asked for is found, and what is listed is found.** After any calls, what a call gives
is found under the name it was asked for by, unless the call may read a file and the name ends
twice. After calls for names that do not end twice, every name in the store stands for a template of
that name. -/
theorem found_by_name (disk : Disk) (root : Option String) (calls : List Call) :
    (∀ c t, (c.reads = true → ¬ EndsTwice c.name) →
      ((empty root).afterAll disk calls).gives? disk c = some t →
      (((empty root).afterAll disk calls).after disk c).find c.name = .ok t) ∧
    ((∀ c ∈ calls, ¬ EndsTwice c.name) →
      ∀ name ∈ ((empty root).afterAll disk calls).names,
        ∃ t, ((empty root).afterAll disk calls).find name = .ok t ∧ t.name = name) := by
  constructor
  · intro c t hn h
    exact find_after hn h
  · intro hn name hname
    have hnames : ((empty root).afterAll disk calls).NamesItself :=
      (namesItself_empty root).afterAll hn
    exact hnames.find_of_mem_names hname

/-- Two files, one of which ends twice. -/
def twiceDisk : Disk :=
  ⟨.file "menu.mec" (Utf8.encode "hello") (.file "a.mec.mec" (Utf8.encode "hi") .empty), []⟩

theorem found_by_name_menu :
    (((empty (some "/")).afterAll twiceDisk [.compile "b.mec" "x"]).after twiceDisk
      (.getOrLoad "menu.mec")).find "menu.mec" = .ok (.of "menu" "hello" [.literal "hello"]) ∧
    ((empty (some "/")).afterAll twiceDisk
      [.compile "b.mec" "x", .getOrLoad "menu.mec"]).names = ["b", "menu"] ∧
    ∀ name ∈ ["b", "menu"], ∃ t, ((empty (some "/")).afterAll twiceDisk
      [.compile "b.mec" "x", .getOrLoad "menu.mec"]).find name = .ok t ∧ t.name = name := by
  have hfound := (found_by_name twiceDisk (some "/") [.compile "b.mec" "x"]).1
    (.getOrLoad "menu.mec") (.of "menu" "hello" [.literal "hello"]) (by decide) (by decide +kernel)
  have hlisted := (found_by_name twiceDisk (some "/")
    [.compile "b.mec" "x", .getOrLoad "menu.mec"]).2
  have hnames : ((empty (some "/")).afterAll twiceDisk
      [.compile "b.mec" "x", .getOrLoad "menu.mec"]).names = ["b", "menu"] := by
    decide +kernel
  rw [hnames] at hlisted
  refine ⟨hfound, hnames, hlisted ?_⟩
  simp only [List.forall_mem_cons]
  exact ⟨by decide, by decide, by simp⟩

/-- A file that ends twice is fetched and then not found. A name that ends twice is kept with one
ending, and then the name that is listed is not found. -/
theorem not_found_of_endsTwice :
    ((empty (some "/")).gives? twiceDisk (.getOrLoad "a.mec.mec") =
        some (.of "a" "hi" [.literal "hi"]) ∧
      ((empty (some "/")).after twiceDisk (.getOrLoad "a.mec.mec")).find "a.mec.mec" =
        .error (.notCompiled "a.mec")) ∧
    ((empty none).after twiceDisk (.compile "a.mec.mec" "hi")).names = ["a.mec"] ∧
      ((empty none).after twiceDisk (.compile "a.mec.mec" "hi")).find "a.mec" =
        .error (.notCompiled "a") :=
  ⟨⟨rfl, rfl⟩, rfl, rfl⟩

end BulletinBoard.Store
