/-
# Loading all templates

Loading all templates walks through the folders below the root and loads the template files it
finds, and nothing else, each once. A template file is one whose name ends in `.mec` and has
something before that (`Store.stem?_eq_some_iff`); its template is asked for by the names on the way
to it and what is left of its own.

If every folder can be listed the walk does not stop (`Store.folders_eq_foldl`), so what it leads to
is what the loads lead to, one after the other (`Store.foldl_next_loads`). A load that fails is
counted and leaves the store as it is (`Store.after_of_gives?`).

Key definitions: `Store.stem?`, `Store.templateFiles`, `Store.templatePath`, `Store.given`.
Key theorems: `Store.stem?_eq_some_iff`, `Store.mem_templateFiles_iff`, `Store.nodup_templateFiles`,
`Store.loadAll_visits_every_template`.
-/
import BulletinBoard.Proofs.Files.Listing
import BulletinBoard.Proofs.Run.Accounts
import Mathlib.Data.List.Nodup

namespace BulletinBoard.Store

open Text Template

/-! ### Template files -/

/-- What is left of the name of a template file without its ending. -/
def stem? (file : String) : Option String :=
  match splitExtension? file with
  | some (stem, ending) => if ending = extension then some stem else none
  | none => none

theorem ne_empty_of_splitExtension? {file stem ending : String}
    (h : splitExtension? file = some (stem, ending)) : stem ≠ "" := by
  unfold splitExtension? at h
  dsimp only at h
  split at h
  · cases h
    exact fun hempty => by simpa using congrArg String.toList hempty
  · cases h

theorem splitExtension?_append {stem : String} (h : stem ≠ "") :
    splitExtension? (stem ++ ".mec") = some (stem, "mec") := by
  obtain ⟨c, cs, hcs⟩ := List.exists_cons_of_ne_nil
    (fun hnil => h (String.toList_inj.mp (List.reverse_eq_nil_iff.mp hnil)) :
      stem.toList.reverse ≠ [])
  have hreversed : (stem ++ ".mec").toList.reverse = 'c' :: 'e' :: 'm' :: '.' :: c :: cs := by
    simp [← hcs]
  have hstem : String.ofList (c :: cs).reverse = stem := by
    rw [← hcs, List.reverse_reverse, String.ofList_toList]
  unfold splitExtension?
  rw [hreversed]
  simp [← hstem]

/-- **A template file is one whose name ends in `.mec` and has something before that.** -/
theorem stem?_eq_some_iff {file stem : String} :
    stem? file = some stem ↔ stem ≠ "" ∧ file = stem ++ ".mec" := by
  constructor
  · intro h
    unfold stem? at h
    split at h
    · rename_i hsplit
      split at h
      · rename_i hending
        cases h
        refine ⟨ne_empty_of_splitExtension? hsplit, ?_⟩
        rw [eq_append_of_splitExtension? hsplit, hending, String.append_assoc]
        rfl
      · cases h
    · cases h
  · rintro ⟨hne, rfl⟩
    rw [stem?, splitExtension?_append hne]
    rfl

/-- The name a template is asked for by: the names on the way to its file, and its own. -/
def templatePath (file : List String × String) : String := "/".intercalate (file.1 ++ [file.2])

theorem templateName?_eq (way : List String) (file : String) :
    templateName? way file =
      (stem? file).map fun stem => templatePath (way, withoutEnding stem) := by
  unfold templateName? stem?
  cases splitExtension? file with
  | none => rfl
  | some parts =>
    dsimp only
    split <;> rfl

/-- The template files of folders, each with the way to it, and without their ending. -/
def templateFiles (visited : List (List String × Folder)) : List (List String × String) :=
  visited.flatMap fun w => (w.2.fileNames.filterMap stem?).map fun stem => (w.1, stem)

/-- The template files come in the order of the files. -/
theorem templateFiles_sublist (visited : List (List String × Folder)) :
    ((templateFiles visited).map fun file => (file.1, file.2 ++ ".mec")).Sublist
      (visited.flatMap fun w => w.2.fileNames.map fun file => (w.1, file)) := by
  have hfolder (way : List String) (files : List String) :
      (((files.filterMap stem?).map fun stem => (way, stem)).map fun file =>
        (file.1, file.2 ++ ".mec")).Sublist (files.map fun file => (way, file)) := by
    induction files with
    | nil => exact List.Sublist.refl _
    | cons file rest ih =>
      cases hstem : stem? file with
      | none =>
        rw [List.filterMap_cons_none hstem]
        exact ih.cons _
      | some stem =>
        rw [List.filterMap_cons_some hstem, (stem?_eq_some_iff.mp hstem).2]
        exact ih.cons_cons _
  induction visited with
  | nil => exact List.Sublist.refl _
  | cons w rest ih =>
    rw [templateFiles, List.flatMap_cons, List.flatMap_cons, List.map_append]
    exact (hfolder w.1 w.2.fileNames).append ih

variable {f : Folder}

/-- The template files below a folder. -/
theorem mem_templateFiles_iff (hp : f.IsProper) {way : List String} {stem : String} :
    (way, stem) ∈ templateFiles f.folders ↔ stem ≠ "" ∧ f.HasFile way (stem ++ ".mec") := by
  have hmem : (way, stem) ∈ templateFiles f.folders ↔
      ∃ g, f.sub? way = some g ∧ stem ++ ".mec" ∈ g.fileNames ∧ stem ≠ "" := by
    simp only [templateFiles, List.mem_flatMap, List.mem_map, List.mem_filterMap, stem?_eq_some_iff,
      Prod.exists, Prod.mk.injEq, Folder.mem_folders_iff hp]
    constructor
    · rintro ⟨w, g, hg, _, ⟨_, hfile, hne, rfl⟩, rfl, rfl⟩
      exact ⟨g, hg, hfile, hne⟩
    · rintro ⟨g, hg, hfile, hne⟩
      exact ⟨way, g, hg, stem, ⟨_, hfile, hne, rfl⟩, rfl, rfl⟩
  rw [hmem]
  constructor
  · rintro ⟨g, hg, hfile, hne⟩
    obtain ⟨content, hcontent⟩ := (hp.sub? hg).mem_fileNames_iff.mp hfile
    exact ⟨hne, g, content, hg, hcontent⟩
  · rintro ⟨hne, g, content, hg, hcontent⟩
    exact ⟨g, hg, (hp.sub? hg).mem_fileNames_iff.mpr ⟨content, hcontent⟩, hne⟩

/-- Each of them comes once. -/
theorem nodup_templateFiles (hp : f.IsProper) : (templateFiles f.folders).Nodup := by
  have hfiles : (f.folders.flatMap fun w => w.2.fileNames.map fun file => (w.1, file)).Nodup := by
    refine List.nodup_flatMap.mpr ⟨fun w hw => ?_, ?_⟩
    · have hsub := (Folder.mem_folders_iff hp).mp hw
      exact (hp.sub? hsub).nodup_fileNames.map fun _ _ h => (Prod.mk.inj h).2
    · -- files on different ways are different
      have hways := List.pairwise_map.mp (Folder.nodup_folders hp)
      refine hways.imp fun hne file hfile hfile' => hne ?_
      obtain ⟨_, -, rfl⟩ := List.mem_map.mp hfile
      obtain ⟨_, -, heq⟩ := List.mem_map.mp hfile'
      exact (Prod.mk.inj heq).1.symm
  exact List.Nodup.of_map _ (hfiles.sublist (templateFiles_sublist f.folders))

/-! ### Loads -/

variable {disk : Disk} {s : Store}

/-- What calls give, one after the other. -/
def given (disk : Disk) (s : Store) : List Call → List (Option Template)
  | [] => []
  | call :: rest => s.gives? disk call :: given disk (s.after disk call) rest

theorem after_of_gives? {name : String} (h : s.gives? disk (.load name) = none) :
    s.after disk (.load name) = s := by
  rcases s.load_cases disk name with ⟨source, -, hl⟩ | ⟨-, hs⟩
  · unfold gives? at h
    dsimp only at h
    show (s.load disk name).store = s
    rw [hl] at h ⊢
    rcases s.compile_cases (baseName name) source with ⟨t, ht, -, -⟩ | ⟨-, hs⟩
    · rw [ht] at h
      cases h
    · exact hs
  · exact hs

theorem next_load (disk : Disk) (c : Census) (name : String) :
    (c.next disk name).store = c.store.after disk (.load name) ∧
      (c.next disk name).compiled =
        c.compiled + [c.store.gives? disk (.load name)].countP Option.isSome ∧
      (c.next disk name).failed =
        c.failed + [c.store.gives? disk (.load name)].countP Option.isNone := by
  unfold Census.next gives? after
  dsimp only
  cases (c.store.load disk name).result <;> exact ⟨rfl, rfl, rfl⟩

/-- Loads are counted as they went, one after the other. -/
theorem foldl_next_loads (disk : Disk) (c : Census) (names : List String) :
    (names.foldl (Census.next disk) c).store = c.store.afterAll disk (names.map .load) ∧
      (names.foldl (Census.next disk) c).compiled =
        c.compiled + (c.store.given disk (names.map .load)).countP Option.isSome ∧
      (names.foldl (Census.next disk) c).failed =
        c.failed + (c.store.given disk (names.map .load)).countP Option.isNone := by
  induction names generalizing c with
  | nil => exact ⟨rfl, rfl, rfl⟩
  | cons name rest ih =>
    obtain ⟨hstore, hcompiled, hfailed⟩ := next_load disk c name
    obtain ⟨hstores, hcompileds, hfaileds⟩ := ih (c.next disk name)
    rw [hstore] at hstores hcompileds hfaileds
    have hgiven : c.store.given disk ((name :: rest).map .load) =
        [c.store.gives? disk (.load name)] ++
          given disk (c.store.after disk (.load name)) (rest.map .load) := rfl
    rw [List.foldl_cons, hgiven]
    refine ⟨hstores, ?_, ?_⟩
    · rw [hcompileds, hcompiled, List.countP_append, Nat.add_assoc]
    · rw [hfaileds, hfailed, List.countP_append, Nat.add_assoc]

theorem length_given (disk : Disk) (s : Store) (calls : List Call) :
    (s.given disk calls).length = calls.length := by
  induction calls generalizing s with
  | nil => rfl
  | cons call rest ih => rw [given, List.length_cons, List.length_cons, ih]

/-! ### The walk -/

/-- A walk through folders that can be listed loads their templates, one after the other. -/
theorem folders_eq_foldl {c : Census} (hc : c.stopped = none) {root : String}
    {visited : List (List String × Folder)}
    (h : ∀ w ∈ visited, disk.list (w.1.foldl Disk.join root) = .ok w.2) :
    (visited.map Prod.fst).foldl (Census.folder disk root) c =
      (visited.flatMap fun w => templatesIn w.1 w.2).foldl (Census.next disk) c := by
  induction visited generalizing c with
  | nil => rfl
  | cons w rest ih =>
    obtain ⟨hw, hrest⟩ := List.forall_mem_cons.mp h
    have hfirst : c.folder disk root w.1 =
        (templatesIn w.1 w.2).foldl (Census.next disk) c := by
      unfold Census.folder
      rw [hc, hw]
    have hgoes : (c.folder disk root w.1).stopped = none := by
      rw [hfirst]
      exact (names_census disk c _).2.2.trans hc
    rw [List.map_cons, List.foldl_cons, ih hgoes hrest, hfirst, List.flatMap_cons,
      List.foldl_append]

/-- The templates of folders are those of their template files, if none of these is named by dots
only. -/
theorem flatMap_templatesIn {visited : List (List String × Folder)}
    (h : ∀ w ∈ visited, "..mec" ∉ w.2.fileNames) :
    (visited.flatMap fun w => templatesIn w.1 w.2) =
      (templateFiles visited).map templatePath := by
  have hfolder (way : List String) (files : List String) (hdots : "..mec" ∉ files) :
      files.filterMap (templateName? way) =
        ((files.filterMap stem?).map fun stem => (way, stem)).map templatePath := by
    rw [List.map_map, List.map_filterMap]
    refine List.filterMap_congr fun file hfile => ?_
    rw [templateName?_eq]
    refine Option.map_congr fun stem hstem => ?_
    have hdot : stem ≠ "." := by
      rintro rfl
      have hname : file = "..mec" := (stem?_eq_some_iff.mp hstem).2.trans rfl
      exact hdots (hname ▸ hfile)
    rw [withoutEnding, if_neg hdot]
    rfl
  rw [templateFiles, List.map_flatMap]
  exact List.flatMap_congr fun w hw => hfolder w.1 w.2.fileNames (h w hw)

theorem loadAll_eq_foldl {root : String} (hroot : s.root = some root)
    (hlist : disk.list root = .ok f) (hp : f.IsProper)
    (hread : ∀ way g, f.sub? way = some g → ∃ g', disk.list (way.foldl Disk.join root) = .ok g')
    (hdots : ∀ way, ¬ f.HasFile way "..mec") :
    s.loadAll disk =
      ((templateFiles f.folders).map templatePath).foldl (Census.next disk)
        ⟨s, 0, 0, .empty, none⟩ := by
  have hlists : ∀ w ∈ f.folders, disk.list (w.1.foldl Disk.join root) = .ok w.2 := fun w hw =>
    Disk.list_of_sub? hp hlist hread ((Folder.mem_folders_iff hp).mp hw)
  have hplain : ∀ w ∈ f.folders, "..mec" ∉ w.2.fileNames := fun w hw hmem => by
    have hsub := (Folder.mem_folders_iff hp).mp hw
    obtain ⟨content, hcontent⟩ := (hp.sub? hsub).mem_fileNames_iff.mp hmem
    exact hdots w.1 ⟨w.2, content, hsub, hcontent⟩
  unfold loadAll
  rw [hroot]
  dsimp only
  rw [hlist]
  dsimp only
  rw [folders_eq_foldl rfl hlists, flatMap_templatesIn hplain]

/-- **Loading all templates visits every template once.** Let there be a proper tree below the root,
of folders that can be listed and without a template file named by dots only. Then the walk visits
the folders in the order of a stack and loads the template files it comes by in the order they are
listed, each file with a name in `.mec` at the end of whatever way once, as the names on the way to
it and what is left of its own, and nothing else. It counts the loads that give a template and those
that do not, which are as many as there are such files, and does not stop before its end; a load
that gives none leaves the store as it is, and the store in the end is that after the loads. -/
theorem loadAll_visits_every_template {root : String} (hroot : s.root = some root)
    (hlist : disk.list root = .ok f) (hp : f.IsProper)
    (hread : ∀ way g, f.sub? way = some g → ∃ g', disk.list (way.foldl Disk.join root) = .ok g')
    (hdots : ∀ way, ¬ f.HasFile way "..mec") :
    ∃ (visited : List (List String × Folder)) (files : List (List String × String)),
      Folder.Drains [([], f)] visited ∧
      (files.map fun file => (file.1, file.2 ++ ".mec")).Sublist
        (visited.flatMap fun w => w.2.fileNames.map fun file => (w.1, file)) ∧
      files.Nodup ∧
      (∀ way stem, (way, stem) ∈ files ↔ stem ≠ "" ∧ f.HasFile way (stem ++ ".mec")) ∧
      s.loadAll disk = (files.map fun file => "/".intercalate (file.1 ++ [file.2])).foldl
        (Census.next disk) ⟨s, 0, 0, .empty, none⟩ ∧
      ∀ calls, calls = files.map (fun file => .load ("/".intercalate (file.1 ++ [file.2]))) →
        (s.loadAll disk).store = s.afterAll disk calls ∧
        (s.loadAll disk).compiled = (s.given disk calls).countP Option.isSome ∧
        (s.loadAll disk).failed = (s.given disk calls).countP Option.isNone ∧
        (s.loadAll disk).compiled + (s.loadAll disk).failed = files.length ∧
        (s.loadAll disk).stopped = none ∧
        ∀ before name after, calls = before ++ .load name :: after →
          (s.afterAll disk before).gives? disk (.load name) = none →
          s.afterAll disk (before ++ [.load name]) = s.afterAll disk before := by
  have hloads := loadAll_eq_foldl hroot hlist hp hread hdots
  refine ⟨f.folders, templateFiles f.folders, f.drains_folders, templateFiles_sublist _,
    nodup_templateFiles hp, fun way stem => mem_templateFiles_iff hp, hloads, ?_⟩
  rintro calls rfl
  obtain ⟨hstore, hcompiled, hfailed⟩ := foldl_next_loads disk ⟨s, 0, 0, .empty, none⟩
    ((templateFiles f.folders).map templatePath)
  have hstopped := (names_census disk ⟨s, 0, 0, .empty, none⟩
    ((templateFiles f.folders).map templatePath)).2.2
  rw [← hloads] at hstore hcompiled hfailed hstopped
  rw [List.map_map] at hstore hcompiled hfailed
  rw [Nat.zero_add] at hcompiled hfailed
  refine ⟨hstore, hcompiled, hfailed, ?_, hstopped, fun before name after hcalls hnone => ?_⟩
  · have hall := List.length_eq_countP_add_countP Option.isSome
      (l := s.given disk ((templateFiles f.folders).map (.load ∘ templatePath)))
    rw [length_given, List.length_map] at hall
    rw [hcompiled, hfailed, hall]
    congr 1
    exact List.countP_congr fun t _ => by cases t <;> simp
  · rw [afterAll, List.foldl_append]
    exact after_of_gives? hnone

/-! ### A tree of templates -/

/-- A tree with a template, one that does not compile, files that are no templates, and a folder
that is named like one. -/
def shelf : Folder :=
  .folder "b.mec" (.file "x.mec.mec" (Utf8.encode "y") .empty)
    (.file "a.mec" (Utf8.encode "[cls]Hi")
      (.folder "misc" (.file "broken.mec" (Utf8.encode "[white")
        (.file ".mec" [] (.file "notes.txt" [] .empty))) .empty))

/-- A disk with that tree. -/
def shelfDisk : Disk := ⟨.folder "srv" shelf .empty, []⟩

/-- Three template files are visited there. -/
theorem loadAll_visits_shelf :
    (empty (some "/srv")).root = some "/srv" ∧ shelfDisk.list "/srv" = .ok shelf ∧
      shelf.IsProper ∧
      (∀ way g, shelf.sub? way = some g →
        ∃ g', shelfDisk.list (way.foldl Disk.join "/srv") = .ok g') ∧
      (∀ way, ¬ shelf.HasFile way "..mec") ∧
      ∃ files : List (List String × String), files.Nodup ∧ (["b.mec"], "x.mec") ∈ files ∧
        ((empty (some "/srv")).loadAll shelfDisk).compiled = 1 ∧
        ((empty (some "/srv")).loadAll shelfDisk).failed = 2 ∧ files.length = 3 := by
  have hlist : shelfDisk.list "/srv" = .ok shelf := by decide
  have hp : shelf.IsProper := by decide
  have hread : ∀ way g, shelf.sub? way = some g →
      ∃ g', shelfDisk.list (way.foldl Disk.join "/srv") = .ok g' := by
    have hall : ∀ w ∈ shelf.folders, shelfDisk.list (w.1.foldl Disk.join "/srv") = .ok w.2 := by
      decide
    exact fun way g hsub => ⟨g, hall (way, g) ((Folder.mem_folders_iff hp).mpr hsub)⟩
  have hdots : ∀ way, ¬ shelf.HasFile way "..mec" := by
    have hall : ∀ w ∈ shelf.folders, "..mec" ∉ w.2.fileNames := by decide
    rintro way ⟨g, content, hsub, hcontent⟩
    exact hall (way, g) ((Folder.mem_folders_iff hp).mpr hsub)
      ((hp.sub? hsub).mem_fileNames_iff.mpr ⟨content, hcontent⟩)
  obtain ⟨-, files, -, -, hnodup, hmem, -, hcalls⟩ :=
    loadAll_visits_every_template (s := empty (some "/srv")) rfl hlist hp hread hdots
  obtain ⟨-, -, -, hsum, -⟩ := hcalls _ rfl
  have hcompiled : ((empty (some "/srv")).loadAll shelfDisk).compiled = 1 := by decide
  have hfailed : ((empty (some "/srv")).loadAll shelfDisk).failed = 2 := by decide
  rw [hcompiled, hfailed] at hsum
  have hfile : (["b.mec"], "x.mec") ∈ files := by
    refine (hmem _ _).mpr ⟨by decide, .file "x.mec.mec" (Utf8.encode "y") .empty, ?_⟩
    exact ⟨Utf8.encode "y", by decide⟩
  exact ⟨rfl, hlist, hp, hread, hdots, files, hnodup, hfile, hcompiled, hfailed, hsum.symm⟩

end BulletinBoard.Store
