/-
# The names that templates include

What the templates of a run can ever ask for is settled before it starts. The texts of a disk are
finitely many, and what a text compiles to includes the same names whatever it is compiled as. So all
the templates that a store holds or can find include finitely many names (`Store.exists_names`), and
a store that gives what it lacked lacks one of them less (`Store.card_missing_getOrLoad`).

Key definitions: `Template.included`, `Template.IncludesAmong`, `Store.missing`.
Key theorems: `Template.included_of_compile`, `Store.exists_names`, `Store.card_missing_getOrLoad`.
-/
import BulletinBoard.Proofs.Files.Texts
import BulletinBoard.Proofs.Run.OnFiles
import BulletinBoard.Proofs.Run.Supply
import Mathlib.Data.Finset.Card

namespace BulletinBoard

open Text Template

/-! ### Included names -/

namespace Template

/-- The names that a template includes. -/
def included (t : Template) : List String :=
  (t.instructions.filter fun i => i.kind = .includes).map fun i => i.arg 0

/-- All the names that a template includes are among some. -/
def IncludesAmong (names : Finset String) (t : Template) : Prop := ∀ name ∈ t.included, name ∈ names

variable {t : Template} {name source : String}

theorem mem_included {i : Instruction} (hi : i ∈ t.instructions) (hk : i.kind = .includes) :
    i.arg 0 ∈ t.included :=
  List.mem_map_of_mem (List.mem_filter.mpr ⟨hi, decide_eq_true hk⟩)

theorem IncludesPlainly.not_endsTwice (h : t.IncludesPlainly) (hn : name ∈ t.included) :
    ¬ Store.EndsTwice name := by
  obtain ⟨i, hi, rfl⟩ := List.mem_map.mp hn
  obtain ⟨hi, hk⟩ := List.mem_filter.mp hi
  exact h i hi (of_decide_eq_true hk)

/-- The names that a source includes. -/
def includedBy (source : String) : List String :=
  match compile "" source with
  | .ok t => t.included
  | .error _ => []

/-- A source includes the same names whatever it is compiled as. -/
theorem included_of_compile (h : compile name source = .ok t) : t.included = includedBy source := by
  unfold compile at h
  unfold includedBy compile
  split at h
  · cases h
  · split at h
    · cases h
    · cases h
      rfl

end Template

theorem Execution.mem_of_including {e : Execution} {names : Finset String} (hs : e.Sound)
    (ht : e.Runs (IncludesAmong names)) {name : String} (h : e.state = .including name) :
    name ∈ names := by
  obtain ⟨t, ht, i, hi, hk, rfl⟩ := hs.exists_includes ht h
  exact ht _ (mem_included hi hk)

/-! ### Missing names -/

namespace Store

variable {disk : Disk} {s : Store} {name other : String} {t : Template} {names : Finset String}

theorem mem_texts_of_source {file text : String} (h : s.source disk file = .ok text) :
    text ∈ disk.texts := by
  unfold source at h
  split at h
  · cases h
  · exact Disk.mem_texts_of_readText h

/-- If no template that a store holds or can find includes a name that ends twice, all of them
include names among finitely many, and none of these ends twice. -/
theorem exists_names (ht : t.IncludesPlainly) (hs : s.Holds IncludesPlainly)
    (hf : s.Finds disk IncludesPlainly) :
    ∃ names : Finset String, (∀ name ∈ names, ¬ EndsTwice name) ∧ t.IncludesAmong names ∧
      s.Holds (IncludesAmong names) ∧ s.Finds disk (IncludesAmong names) := by
  refine ⟨((t.included ++ s.entries.flatMap (fun entry => entry.2.included) ++
    disk.texts.flatMap includedBy).filter fun name => ¬ EndsTwice name).toFinset, ?_, ?_, ?_, ?_⟩
  all_goals simp only [IncludesAmong, Holds, Finds, List.mem_toFinset, List.mem_filter,
    List.mem_append, List.mem_flatMap, decide_eq_true_eq]
  · exact fun name h => h.2
  · exact fun name h => ⟨.inl (.inl h), ht.not_endsTwice h⟩
  · exact fun n u hu name h => ⟨.inl (.inr ⟨_, hu, h⟩), (hs n u hu).not_endsTwice h⟩
  · intro file text htext n u hu name h
    refine ⟨.inr ⟨text, mem_texts_of_source htext, ?_⟩, (hf file text htext n u hu).not_endsTwice h⟩
    rwa [← included_of_compile hu]

/-- The names that a store has no template for. -/
def missing (s : Store) (names : Finset String) : Finset String :=
  names.filter fun name => s.lookup? name = none

theorem lookup?_compile_ne_none (h : s.lookup? other ≠ none) (name source : String) :
    (s.compile name source).store.lookup? other ≠ none := by
  rcases s.compile_cases name source with ⟨t, -, -, hs⟩ | ⟨-, hs⟩
  · rw [hs]
    unfold lookup? at h ⊢
    rw [lookup_insert]
    split
    · exact Option.some_ne_none t
    · exact h
  · rwa [hs]

theorem lookup?_getOrLoad_ne_none (h : s.lookup? other ≠ none) (disk : Disk) (name : String) :
    (s.getOrLoad disk name).store.lookup? other ≠ none := by
  rcases s.getOrLoad_cases disk name with ⟨hs, -⟩ | ⟨hs, -⟩
  · rwa [hs]
  · rw [hs]
    rcases s.load_cases disk name with ⟨source, -, hl⟩ | ⟨-, hl⟩
    · rw [hl]
      exact lookup?_compile_ne_none h _ _
    · rwa [hl]

/-- A store that gives a template it lacked lacks one name less. -/
theorem card_missing_getOrLoad (hm : name ∈ names) (hn : ¬ EndsTwice name)
    (hl : s.lookup? name = none) (hr : (s.getOrLoad disk name).result = .ok t) :
    ((s.getOrLoad disk name).store.missing names).card < (s.missing names).card := by
  have hsub : (s.getOrLoad disk name).store.missing names ⊆ s.missing names := by
    intro other ho
    obtain ⟨hmem, hnone⟩ := Finset.mem_filter.mp ho
    refine Finset.mem_filter.mpr ⟨hmem, ?_⟩
    by_contra hsome
    exact lookup?_getOrLoad_ne_none hsome disk name hnone
  have hfound : (s.getOrLoad disk name).store.find name = .ok t :=
    find_getOrLoad hn (by rw [hr]; rfl)
  refine Finset.card_lt_card ((Finset.ssubset_iff_of_subset hsub).mpr ⟨name, ?_, fun h => ?_⟩)
  · exact Finset.mem_filter.mpr ⟨hm, hl⟩
  · unfold find at hfound
    rw [(Finset.mem_filter.mp h).2] at hfound
    cases hfound

end Store

end BulletinBoard
