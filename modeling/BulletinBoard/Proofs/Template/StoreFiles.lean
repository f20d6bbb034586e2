/-
# Stores that agree with the files

A store is consistent with the files below a root if every template in it is what the file of its
name compiles to. The empty store is, and loading keeps it so, one template at a time or all of
them, whether the files can be read and compiled or not. What a consistent store gives for a name,
by looking or by loading, is what the file of the name compiles to.

A name is looked for without its ending. The ending is taken off again when a template is compiled
into the store, so a name that ends twice would be kept under another name than the one its file
was read by. Such names are left out everywhere (`EndsTwice`).

Key definitions: `EndsTwice`, `fileTemplate?`, `Consistent`.
Key theorems: `baseName_baseName`, `Consistent.load`, `Consistent.getOrLoad`,
`Consistent.loadAll`.
-/
import BulletinBoard.Template.Store
import Mathlib.Data.List.TakeWhile

namespace BulletinBoard

namespace Store

/-! ### Names and their endings -/

/-- A name has the ending of template files twice. -/
def EndsTwice (name : String) : Prop := ∃ stem, name = stem ++ ".mec.mec"

theorem endsTwice_iff {name : String} : EndsTwice name ↔ ".mec.mec".toList <:+ name.toList := by
  constructor
  · rintro ⟨stem, rfl⟩
    rw [String.toList_append]
    exact List.suffix_append _ _
  · rintro ⟨stem, hs⟩
    refine ⟨String.ofList stem, String.toList_inj.mp ?_⟩
    rw [← hs, String.toList_append]
    exact congrArg (· ++ _) String.toList_ofList.symm

instance : DecidablePred EndsTwice := fun _ => decidable_of_iff _ endsTwice_iff.symm

theorem baseName_cases (name : String) :
    name = baseName name ++ ".mec" ∨ (∀ stem, name ≠ stem ++ ".mec") ∧ baseName name = name := by
  unfold baseName
  split
  · rename_i rest h
    refine .inl (String.toList_inj.mp ?_)
    rw [← List.reverse_reverse name.toList, h]
    simp
  · rename_i h
    refine .inr ⟨fun stem hs => h stem.toList.reverse ?_, rfl⟩
    rw [hs]
    simp

theorem append_twice (stem : String) : stem ++ ".mec" ++ ".mec" = stem ++ ".mec.mec" :=
  String.append_assoc

/-- A name that does not end twice has no ending left once it is taken off. -/
theorem baseName_baseName {name : String} (h : ¬ EndsTwice name) :
    baseName (baseName name) = baseName name := by
  rcases baseName_cases name with hn | ⟨-, hn⟩
  · rcases baseName_cases (baseName name) with hb | ⟨-, hb⟩
    · refine absurd ⟨baseName (baseName name), ?_⟩ h
      calc name = baseName name ++ ".mec" := hn
        _ = baseName (baseName name) ++ ".mec" ++ ".mec" := by rw [← hb]
        _ = baseName (baseName name) ++ ".mec.mec" := append_twice _
    · exact hb
  · rw [hn, hn]

/-! ### Consistent stores -/

/-- What the file of a name compiles to under that name, if it can be read and compiled. -/
def fileTemplate? (disk : Disk) (root name : String) : Option Template :=
  match disk.readText (path root name) with
  | .ok text => (Template.compile name text).toOption
  | .error _ => none

/-- The template of a name as the files have it, or the error that there is none. -/
def findFile (disk : Disk) (root name : String) : Except RunError Template :=
  match fileTemplate? disk root (baseName name) with
  | some t => .ok t
  | none => .error (.notCompiled (baseName name))

/-- Every template of the store is what the file of its name compiles to. -/
structure Consistent (disk : Disk) (root : String) (s : Store) : Prop where
  root_eq : s.root = some root
  entry : ∀ name t, (name, t) ∈ s.entries → fileTemplate? disk root name = some t

variable {disk : Disk} {root : String} {s : Store}

theorem consistent_empty (disk : Disk) (root : String) :
    (empty (some root)).Consistent disk root :=
  ⟨rfl, fun _ _ h => by cases h⟩

theorem mem_insert {name : String} {t : Template} {entries : List (String × Template)}
    {entry : String × Template} (h : entry ∈ insert name t entries) :
    entry = (name, t) ∨ entry ∈ entries := by
  induction entries with
  | nil => exact .inl (List.mem_singleton.mp h)
  | cons first rest ih =>
    obtain ⟨n, u⟩ := first
    unfold insert at h
    split at h
    · exact List.mem_cons.mp h
    · split at h
      · exact (List.mem_cons.mp h).imp id (List.mem_cons_of_mem _)
      · rcases List.mem_cons.mp h with rfl | h
        · exact .inr List.mem_cons_self
        · exact (ih h).imp id (List.mem_cons_of_mem _)

namespace Consistent

theorem insert (h : s.Consistent disk root) {name : String} {t : Template}
    (ht : fileTemplate? disk root name = some t) :
    ({ s with entries := Store.insert name t s.entries } : Store).Consistent disk root := by
  refine ⟨h.root_eq, fun n u hu => ?_⟩
  rcases mem_insert hu with he | hm
  · cases he
    exact ht
  · exact h.entry n u hm

theorem of_lookup? (h : s.Consistent disk root) {name : String} {t : Template}
    (ht : s.lookup? name = some t) : fileTemplate? disk root (baseName name) = some t := by
  obtain ⟨before, after, hl, -⟩ := List.lookup_eq_some_iff.mp ht
  exact h.entry _ _ (hl ▸ List.mem_append_right _ List.mem_cons_self)

/-- Loading a template keeps a store consistent and gives what the file compiles to. -/
theorem load (h : s.Consistent disk root) {name : String} (hn : ¬ EndsTwice name) :
    (s.load disk name).store.Consistent disk root ∧
      (s.load disk name).result.toOption = fileTemplate? disk root (baseName name) := by
  have hsource : s.source disk (baseName name) = disk.readText (path root (baseName name)) := by
    unfold source
    rw [h.root_eq]
  unfold Store.load fileTemplate?
  rw [hsource]
  split
  · rename_i e he
    rw [he]
    exact ⟨h, rfl⟩
  · rename_i text htext
    unfold Store.compile
    rw [htext, baseName_baseName hn]
    dsimp only
    split
    · rename_i t ht
      refine ⟨h.insert ?_, by rw [ht]⟩
      unfold fileTemplate?
      rw [htext]
      dsimp only
      rw [ht]
      rfl
    · rename_i e he
      exact ⟨h, by rw [he]⟩

theorem loadMissing (h : s.Consistent disk root) {name : String} (hn : ¬ EndsTwice name) :
    (s.loadMissing disk name).store.Consistent disk root ∧
      (s.loadMissing disk name).result = findFile disk root name := by
  obtain ⟨hs, hr⟩ := h.load hn
  unfold Store.loadMissing findFile
  rw [h.root_eq, ← hr]
  dsimp only
  split
  · rename_i t ht
    rw [ht]
    exact ⟨hs, rfl⟩
  · rename_i e he
    rw [he]
    exact ⟨hs, rfl⟩

theorem getOrLoad (h : s.Consistent disk root) {name : String} (hn : ¬ EndsTwice name) :
    (s.getOrLoad disk name).store.Consistent disk root ∧
      (s.getOrLoad disk name).result = findFile disk root name := by
  unfold Store.getOrLoad
  split
  · rename_i t ht
    unfold findFile
    rw [h.of_lookup? ht]
    exact ⟨h, rfl⟩
  · exact h.loadMissing hn

end Consistent

/-! ### Loading all -/

/-- A file name is its parts with the last dot between them. -/
theorem eq_append_of_splitExtension? {file stem ending : String}
    (h : splitExtension? file = some (stem, ending)) : file = stem ++ "." ++ ending := by
  unfold splitExtension? at h
  dsimp only at h
  split at h
  · rename_i d c rest hd
    cases h
    have hdot : d = '.' := by
      have := List.head?_dropWhile_not (· != '.') file.toList.reverse
      rw [hd] at this
      simpa using this
    have hsplit := List.takeWhile_append_dropWhile (p := (· != '.')) (l := file.toList.reverse)
    rw [hd, hdot] at hsplit
    refine String.toList_inj.mp ?_
    calc file.toList = file.toList.reverse.reverse := (List.reverse_reverse _).symm
      _ = (file.toList.reverse.takeWhile (· != '.') ++ '.' :: c :: rest).reverse := by rw [hsplit]
      _ = _ := by simp
  · cases h

/-- A path whose last part has no ending does not end twice. -/
theorem not_endsTwice_intercalate {folders : List String} {part : String}
    (h : ∀ stem, part ≠ stem ++ ".mec") :
    ¬ EndsTwice ("/".intercalate (folders ++ [part])) := by
  rintro ⟨stem, hs⟩
  by_cases hf : folders = []
  · subst hf
    rw [List.nil_append, String.intercalate_singleton] at hs
    exact h (stem ++ ".mec") (hs.trans (append_twice stem).symm)
  · rw [String.intercalate_append_of_ne_nil hf (List.cons_ne_nil _ _),
      String.intercalate_singleton] at hs
    have hl : part.toList.reverse ++ '/' :: ("/".intercalate folders).toList.reverse =
        'c' :: 'e' :: 'm' :: '.' :: 'c' :: 'e' :: 'm' :: '.' :: stem.toList.reverse := by
      have := congrArg (List.reverse ∘ String.toList) hs
      simpa using this
    -- the last four characters of the path are those of the part, or one of them is the slash
    match hp : part.toList.reverse with
    | [] | [_] | [_, _] | [_, _, _] =>
      rw [hp] at hl
      simp at hl
    | a :: b :: c :: d :: rest =>
      rw [hp] at hl
      simp only [List.cons_append, List.cons.injEq] at hl
      obtain ⟨rfl, rfl, rfl, rfl, -⟩ := hl
      refine h (String.ofList rest.reverse) (String.toList_inj.mp ?_)
      rw [← List.reverse_reverse part.toList, hp]
      simp

theorem not_endsTwice_of_templateName? {folders : List String} {file name : String}
    (hf : ¬ EndsTwice file) (h : templateName? folders file = some name) : ¬ EndsTwice name := by
  unfold templateName? at h
  split at h
  · rename_i stem ending hsplit
    split at h
    · rename_i he
      cases h
      refine not_endsTwice_intercalate fun x hx => ?_
      unfold withoutEnding at hx
      split at hx
      · have hlen := congrArg String.length hx
        rw [String.length_append, show "..".length = 2 from rfl,
          show ".mec".length = 4 from rfl] at hlen
        omega
      · refine hf ⟨x, ?_⟩
        rw [eq_append_of_splitExtension? hsplit, hx, he]
        exact String.append_assoc.trans (append_twice x)
    · cases h
  · cases h

/-- A file that is listed below a root. -/
def IsBelow (disk : Disk) (root file : String) : Prop :=
  ∃ f g folders, disk.list root = .ok f ∧ folders ∈ f.folders.map Prod.fst ∧
    disk.list (folders.foldl Disk.join root) = .ok g ∧ file ∈ g.fileNames

namespace Consistent

theorem next {c : Census} (h : c.store.Consistent disk root) {name : String}
    (hn : ¬ EndsTwice name) : (c.next disk name).store.Consistent disk root := by
  unfold Census.next
  dsimp only
  split <;> exact (h.load hn).1

theorem templates {c : Census} (h : c.store.Consistent disk root) {names : List String}
    (hn : ∀ name ∈ names, ¬ EndsTwice name) :
    (names.foldl (Census.next disk) c).store.Consistent disk root := by
  induction names generalizing c with
  | nil => exact h
  | cons name rest ih =>
    exact ih (h.next (hn name List.mem_cons_self)) fun n hm => hn n (List.mem_cons_of_mem _ hm)

theorem folder {c : Census} (h : c.store.Consistent disk root) {folders : List String}
    (hf : ∀ g, disk.list (folders.foldl Disk.join root) = .ok g →
      ∀ file ∈ g.fileNames, ¬ EndsTwice file) :
    (c.folder disk root folders).store.Consistent disk root := by
  unfold Census.folder
  split
  · exact h
  split
  · exact h
  · rename_i g hg
    refine h.templates fun name hm => ?_
    obtain ⟨file, hfile, hname⟩ := List.mem_filterMap.mp hm
    exact not_endsTwice_of_templateName? (hf g hg file hfile) hname

theorem folders {c : Census} (h : c.store.Consistent disk root) {ways : List (List String)}
    (hw : ∀ folders ∈ ways, ∀ g, disk.list (folders.foldl Disk.join root) = .ok g →
      ∀ file ∈ g.fileNames, ¬ EndsTwice file) :
    (ways.foldl (Census.folder disk root) c).store.Consistent disk root := by
  induction ways generalizing c with
  | nil => exact h
  | cons way rest ih =>
    exact ih (h.folder (hw way List.mem_cons_self)) fun w hm => hw w (List.mem_cons_of_mem _ hm)

/-- Loading all templates keeps a store consistent, also if a folder cannot be listed. -/
theorem loadAll (h : s.Consistent disk root)
    (hf : ∀ file, IsBelow disk root file → ¬ EndsTwice file) :
    (s.loadAll disk).store.Consistent disk root := by
  unfold Store.loadAll
  rw [h.root_eq]
  dsimp only
  split
  · exact h
  · rename_i f hlist
    refine folders h fun folders hm g hg file hfile => hf file ?_
    exact ⟨f, g, folders, hlist, hm, hg, hfile⟩

end Consistent

end Store

end BulletinBoard
