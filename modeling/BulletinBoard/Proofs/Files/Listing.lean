/-
# Folders below a folder

In a tree as a disk holds it, every entry has a name of its own that can stand as a part of a path
(`Folder.IsProper`). Then a folder below another is reached by one way only (`Folder.sub?`), the
folders below one are listed once each (`Folder.mem_folders_iff`, `Folder.nodup_folders`), and the
path that joins the names on the way leads to it on the disk (`Disk.list_of_sub?`).

The order they are listed in is that of a walk that keeps the folders still to be visited on a
stack: it takes the top one and puts those inside of it on top, as they are listed
(`Folder.Drains`). Every such walk ends, and `Folder.folders` is what it visits
(`Folder.drains_folders`).

Key definitions: `IsEntryName`, `Folder.IsProper`, `Folder.sub?`, `Folder.HasFile`, `Folder.Drains`.
Key theorems: `Disk.list_of_sub?`, `Folder.mem_folders_iff`, `Folder.nodup_folders`,
`Folder.drains_folders`.
-/
import BulletinBoard.Files.Disk
import Mathlib.Data.List.Induction

namespace BulletinBoard

/-- A name that an entry of a folder can have. -/
def IsEntryName (name : String) : Prop :=
  name ≠ "" ∧ name ≠ "." ∧ name ≠ ".." ∧ '/' ∉ name.toList

instance : DecidablePred IsEntryName := fun name =>
  inferInstanceAs (Decidable (name ≠ "" ∧ _))

/-! ### Paths -/

namespace Disk

theorem splitAt_ne_nil (separator : Char) (cs : List Char) : splitAt separator cs ≠ [] := by
  cases cs with
  | nil => simp [splitAt]
  | cons c rest =>
    unfold splitAt
    split
    · simp
    · split <;> simp

theorem splitAt_of_not_mem {separator : Char} {cs : List Char} (h : separator ∉ cs) :
    splitAt separator cs = [cs] := by
  induction cs with
  | nil => rfl
  | cons c rest ih =>
    rw [List.mem_cons, not_or] at h
    rw [splitAt, ih h.2]
    dsimp only
    rw [if_neg (Ne.symm h.1)]

theorem splitAt_append (separator : Char) (cs ds : List Char) :
    splitAt separator (cs ++ separator :: ds) = splitAt separator cs ++ splitAt separator ds := by
  induction cs with
  | nil =>
    obtain ⟨part, parts, hparts⟩ := List.exists_cons_of_ne_nil (splitAt_ne_nil separator ds)
    simp [splitAt, hparts]
  | cons c rest ih =>
    obtain ⟨part, parts, hparts⟩ := List.exists_cons_of_ne_nil (splitAt_ne_nil separator rest)
    rw [List.cons_append, splitAt, ih, splitAt, hparts]
    dsimp only [List.cons_append]
    split <;> rfl

theorem partsOf_append_slash (path name : String) :
    partsOf (path ++ "/" ++ name) = partsOf path ++ partsOf name := by
  have hl : (path ++ "/" ++ name).toList = path.toList ++ '/' :: name.toList := by simp
  rw [partsOf, hl, splitAt_append, List.map_append]
  rfl

theorem partsOf_of_isEntryName {name : String} (h : IsEntryName name) : partsOf name = [name] := by
  rw [partsOf, splitAt_of_not_mem h.2.2.2]
  simp

theorem isAbsolute_of_isEntryName {name : String} (h : IsEntryName name) :
    isAbsolute name = false := by
  unfold isAbsolute
  rw [beq_eq_false_iff_ne]
  exact fun hhead => h.2.2.2 (List.mem_of_mem_head? hhead)

/-- A name goes behind a path with a slash before it, unless the path ends in one. -/
theorem join_of_isEntryName {path name : String} (hpath : path ≠ "") (hname : IsEntryName name) :
    join path name =
      if path.toList.getLast? = some '/' then path ++ name else path ++ "/" ++ name := by
  have hnonempty : path.isEmpty = false := by simpa using hpath
  unfold join
  rw [isAbsolute_of_isEntryName hname, hnonempty]
  simp

theorem isAbsolute_append {path : String} (h : path ≠ "") (rest : String) :
    isAbsolute (path ++ rest) = isAbsolute path := by
  obtain ⟨c, cs, hcs⟩ := List.exists_cons_of_ne_nil
    (fun hnil => h (String.toList_inj.mp hnil) : path.toList ≠ [])
  simp [isAbsolute, hcs]

/-- A path and one that goes on from it have the same parts, up to the name behind them and empty
parts in its place. -/
theorem exists_walk_join (d : Disk) {path name : String} (hpath : path ≠ "")
    (hname : IsEntryName name) :
    ∃ parts blank, d.walk path = parts ++ blank ∧ (∀ part ∈ blank, part = "") ∧
      d.walk (join path name) = parts ++ [name] := by
  rw [join_of_isEntryName hpath hname]
  split
  · -- the path ends in a slash, and the name takes the place of the empty part behind it
    rename_i hslash
    obtain ⟨front, hfront⟩ := List.getLast?_eq_some_iff.mp hslash
    have hsplit : path = String.ofList front ++ "/" ++ "" := by
      refine String.toList_inj.mp ?_
      simpa using hfront
    have hjoined : path ++ name = String.ofList front ++ "/" ++ name := by
      refine String.toList_inj.mp ?_
      simp [hfront]
    have hparts : partsOf path = partsOf (String.ofList front) ++ [""] :=
      (congrArg partsOf hsplit).trans (partsOf_append_slash _ _)
    refine ⟨(if isAbsolute path then [] else d.home) ++ partsOf (String.ofList front), [""], ?_,
      by simp, ?_⟩
    · rw [walk, hparts, List.append_assoc]
    · rw [walk, isAbsolute_append hpath, hjoined, partsOf_append_slash,
        partsOf_of_isEntryName hname, List.append_assoc]
  · refine ⟨d.walk path, [], (List.append_nil _).symm, by simp, ?_⟩
    rw [walk, String.append_assoc, isAbsolute_append hpath, ← String.append_assoc,
      partsOf_append_slash, partsOf_of_isEntryName hname, ← List.append_assoc]
    rfl

end Disk

/-! ### Following a path -/

namespace Folder

variable {above : List Folder} {f g here inside : Folder} {name : String}

theorem locate_blank {blank : List String} (h : ∀ part ∈ blank, part = "") :
    locate above here blank = .ok (.folder here) := by
  induction blank with
  | nil => rfl
  | cons part rest ih =>
    unfold locate
    rw [if_pos (.inl (h part List.mem_cons_self))]
    exact ih fun p hp => h p (List.mem_cons_of_mem _ hp)

/-- A name does not lead back, so what lies above does not matter. -/
theorem locate_name (above : List Folder) (here : Folder) (h : IsEntryName name) :
    locate above here [name] =
      if longestName < name.utf8ByteSize then .error .nameTooLong
      else
        match here.find? name with
        | none => .error .missing
        | some entry => .ok entry := by
  unfold locate
  rw [if_neg (by simp [h.1, h.2.1]), if_neg h.2.2.1]
  split
  · rfl
  · cases here.find? name with
    | none => rfl
    | some entry => cases entry <;> rfl

/-- Behind a way to a folder a name leads to the entry it has there. -/
theorem locate_concat {parts blank : List String} (hb : ∀ part ∈ blank, part = "")
    (hn : IsEntryName name) (h : locate above here (parts ++ blank) = .ok (.folder g)) :
    locate above here (parts ++ [name]) = locate [] g [name] := by
  induction parts generalizing above here with
  | nil =>
    rw [List.nil_append, locate_blank hb] at h
    cases h
    rw [List.nil_append, locate_name _ _ hn, locate_name _ _ hn]
  | cons part rest ih =>
    generalize locate [] g [name] = entry at ih ⊢
    rw [List.cons_append] at h ⊢
    unfold locate at h ⊢
    split at h
    · rename_i hdot
      rw [if_pos hdot]
      exact ih h
    rename_i hdot
    rw [if_neg hdot]
    split at h
    · rename_i hdots
      rw [if_pos hdots]
      cases above <;> exact ih h
    rename_i hdots
    rw [if_neg hdots]
    split at h
    · cases h
    rename_i hlong
    rw [if_neg hlong]
    split at h
    · cases h
    · exact ih h
    · split at h <;> cases h

end Folder

namespace Disk

variable {d : Disk} {path name : String} {g g' inside : Folder}

theorem locate_of_list (h : d.list path = .ok g) :
    path ≠ "" ∧ d.top.locate [] (d.walk path) = .ok (.folder g) := by
  have hentry : d.entry path = .ok (.folder g) := by
    unfold list at h
    split at h <;> cases h
    assumption
  unfold entry at hentry
  split at hentry
  · cases hentry
  split at hentry
  · cases hentry
  split at hentry
  · cases hentry
  · rename_i hempty
    exact ⟨by simpa using hempty, hentry⟩

theorem list_join (h : d.list path = .ok g) (hn : IsEntryName name)
    (hfind : g.find? name = some (.folder inside)) (hread : d.list (join path name) = .ok g') :
    g' = inside := by
  obtain ⟨hpath, hlocate⟩ := locate_of_list h
  obtain ⟨parts, blank, hwalk, hblank, hjoin⟩ := d.exists_walk_join hpath hn
  have hread := (locate_of_list hread).2
  rw [hwalk] at hlocate
  rw [hjoin, Folder.locate_concat hblank hn hlocate, Folder.locate_name _ _ hn, hfind] at hread
  split at hread <;> cases hread
  rfl

end Disk

/-! ### Trees -/

namespace Folder

/-- Every entry of the folder, and of those below it, has a name of its own that can stand as a
part of a path. -/
def IsProper : Folder → Prop
  | empty => True
  | file name _ rest => IsEntryName name ∧ rest.find? name = none ∧ rest.IsProper
  | folder name inside rest =>
    IsEntryName name ∧ rest.find? name = none ∧ inside.IsProper ∧ rest.IsProper

instance decidableIsProper : DecidablePred IsProper
  | empty => isTrue trivial
  | file name _ rest =>
    have := decidableIsProper rest
    inferInstanceAs (Decidable (IsEntryName name ∧ rest.find? name = none ∧ rest.IsProper))
  | folder name inside rest =>
    have := decidableIsProper inside
    have := decidableIsProper rest
    inferInstanceAs (Decidable
      (IsEntryName name ∧ rest.find? name = none ∧ inside.IsProper ∧ rest.IsProper))

/-- The folder that a way leads to, name by name. -/
def sub? : List String → Folder → Option Folder
  | [], f => some f
  | name :: way, f =>
    match f.find? name with
    | some (.folder inside) => sub? way inside
    | _ => none

/-- A file stands at the end of a way. -/
def HasFile (f : Folder) (way : List String) (file : String) : Prop :=
  ∃ g content, f.sub? way = some g ∧ g.find? file = some (.file content)

variable {f g : Folder} {name : String} {way : List String} {entry : Entry}

namespace IsProper

theorem isEntryName (h : f.IsProper) (hfind : f.find? name = some entry) : IsEntryName name := by
  induction f with
  | empty => cases hfind
  | file n content rest ih =>
    unfold find? at hfind
    split at hfind
    · rename_i hn
      exact hn ▸ h.1
    · exact ih h.2.2 hfind
  | folder n inner rest _ ih =>
    unfold find? at hfind
    split at hfind
    · rename_i hn
      exact hn ▸ h.1
    · exact ih h.2.2.2 hfind

theorem inside (h : f.IsProper) (hfind : f.find? name = some (.folder g)) : g.IsProper := by
  induction f with
  | empty => cases hfind
  | file n content rest ih =>
    unfold find? at hfind
    split at hfind
    · cases hfind
    · exact ih h.2.2 hfind
  | folder n inner rest _ ih =>
    unfold find? at hfind
    split at hfind
    · cases hfind
      exact h.2.2.1
    · exact ih h.2.2.2 hfind

theorem sub? (h : f.IsProper) (hway : f.sub? way = some g) : g.IsProper := by
  induction way generalizing f with
  | nil =>
    cases hway
    exact h
  | cons name way ih =>
    unfold Folder.sub? at hway
    split at hway
    · rename_i inner hfind
      exact ih (h.inside hfind) hway
    · cases hway

theorem mem_fileNames_iff (h : f.IsProper) {file : String} :
    file ∈ f.fileNames ↔ ∃ content, f.find? file = some (.file content) := by
  induction f with
  | empty => simp [fileNames, find?]
  | file n content rest ih =>
    rw [fileNames, List.mem_cons, ih h.2.2, find?]
    by_cases hn : n = file
    · simp [hn]
    · simp [hn, Ne.symm hn]
  | folder n inner rest _ ih =>
    rw [fileNames, ih h.2.2.2, find?]
    by_cases hn : n = file
    · have hnone := hn ▸ h.2.1
      simp [hn, hnone]
    · simp [hn]

theorem nodup_fileNames (h : f.IsProper) : f.fileNames.Nodup := by
  induction f with
  | empty => exact List.nodup_nil
  | file n content rest ih =>
    refine List.nodup_cons.mpr ⟨fun hmem => ?_, ih h.2.2⟩
    obtain ⟨c, hfind⟩ := h.2.2.mem_fileNames_iff.mp hmem
    rw [h.2.1] at hfind
    cases hfind
  | folder n inner rest _ ih => exact ih h.2.2.2

end IsProper

/-! ### Ways -/

/-- The last name of a way stands in the folder that the others lead to. -/
theorem sub?_concat (f : Folder) (way : List String) (name : String) :
    f.sub? (way ++ [name]) = (f.sub? way).bind fun g =>
      match g.find? name with
      | some (.folder inside) => some inside
      | _ => none := by
  induction way generalizing f with
  | nil => rfl
  | cons first rest ih =>
    rw [List.cons_append, sub?, sub?]
    split
    · exact ih _
    · rfl

theorem sub?_cons_eq (h : f.find? name = g.find? name) (way : List String) :
    f.sub? (name :: way) = g.sub? (name :: way) := by
  rw [sub?, sub?, h]

/-- The folders below a folder are those that ways lead to. -/
theorem mem_foldersBelow_iff (h : f.IsProper) {above : List String} :
    (way, g) ∈ f.foldersBelow above ↔
      ∃ name tail, way = above ++ name :: tail ∧ f.sub? (name :: tail) = some g := by
  induction f generalizing above with
  | empty => simp [foldersBelow, sub?, find?]
  | file n content rest ih =>
    rw [foldersBelow, ih h.2.2]
    refine exists_congr fun name => exists_congr fun tail => and_congr_right fun _ => ?_
    by_cases hn : n = name
    · subst hn
      simp [sub?, find?, h.2.1]
    · rw [sub?_cons_eq (f := file n content rest) (g := rest) (by simp [find?, hn])]
  | folder n inner rest ihInner ihRest =>
    obtain ⟨-, hnone, hinner, hrest⟩ := h
    rw [foldersBelow, List.mem_append, List.mem_cons, ihRest hrest, ihInner hinner]
    constructor
    · rintro (⟨name, tail, rfl, hsub⟩ | heq | ⟨name, tail, rfl, hsub⟩)
      · have hn : n ≠ name := by
          rintro rfl
          simp [sub?, hnone] at hsub
        refine ⟨name, tail, rfl, ?_⟩
        rwa [sub?_cons_eq (g := rest) (by simp [find?, hn])]
      · cases heq
        exact ⟨n, [], rfl, by simp [sub?, find?]⟩
      · refine ⟨n, name :: tail, by simp, ?_⟩
        rw [sub?, find?, if_pos rfl]
        exact hsub
    · rintro ⟨name, tail, rfl, hsub⟩
      by_cases hn : n = name
      · subst hn
        rw [sub?, find?, if_pos rfl] at hsub
        cases tail with
        | nil =>
          cases hsub
          exact .inr (.inl rfl)
        | cons next tail => exact .inr (.inr ⟨next, tail, by simp, hsub⟩)
      · refine .inl ⟨name, tail, rfl, ?_⟩
        rwa [sub?_cons_eq (g := rest) (by simp [find?, hn])] at hsub

/-- **The folders that are listed are those that ways lead to.** -/
theorem mem_folders_iff (h : f.IsProper) : (way, g) ∈ f.folders ↔ f.sub? way = some g := by
  rw [folders, List.mem_cons, mem_foldersBelow_iff h]
  cases way with
  | nil => simp [sub?, eq_comm]
  | cons name tail =>
    refine ⟨?_, fun hsub => .inr ⟨name, tail, rfl, hsub⟩⟩
    rintro (heq | ⟨_, _, heq, hsub⟩)
    · cases heq
    · cases heq
      exact hsub

theorem nodup_foldersBelow (h : f.IsProper) (above : List String) :
    ((f.foldersBelow above).map Prod.fst).Nodup := by
  induction f generalizing above with
  | empty => exact List.nodup_nil
  | file n content rest ih => exact ih h.2.2 above
  | folder n inner rest ihInner ihRest =>
    obtain ⟨-, hnone, hinner, hrest⟩ := h
    rw [foldersBelow, List.map_append, List.map_cons]
    refine List.nodup_append.mpr ⟨ihRest hrest above,
      List.nodup_cons.mpr ⟨fun hmem => ?_, ihInner hinner _⟩, ?_⟩
    · obtain ⟨⟨w, g⟩, hmem, hw⟩ := List.mem_map.mp hmem
      obtain ⟨name, tail, rfl, -⟩ := (mem_foldersBelow_iff hinner).mp hmem
      simp at hw
    · -- ways through later entries begin with another name
      rintro w hlater w' hown rfl
      obtain ⟨⟨w, g⟩, hmem, rfl⟩ := List.mem_map.mp hlater
      obtain ⟨name, tail, rfl, hsub⟩ := (mem_foldersBelow_iff hrest).mp hmem
      have hname : name = n := by
        rcases List.mem_cons.mp hown with heq | hown
        · exact (show name = n ∧ tail = [] by simpa using heq).1
        · obtain ⟨⟨w', g'⟩, hown, heq⟩ := List.mem_map.mp hown
          obtain ⟨name', tail', rfl, -⟩ := (mem_foldersBelow_iff hinner).mp hown
          exact (show name = n ∧ tail = name' :: tail' by simpa using heq.symm).1
      subst hname
      simp [sub?, hnone] at hsub

/-- **Each is listed once.** -/
theorem nodup_folders (h : f.IsProper) : (f.folders.map Prod.fst).Nodup := by
  refine List.nodup_cons.mpr ⟨fun hmem => ?_, nodup_foldersBelow h []⟩
  obtain ⟨⟨w, g⟩, hmem, hw⟩ := List.mem_map.mp hmem
  obtain ⟨name, tail, rfl, -⟩ := (mem_foldersBelow_iff h).mp hmem
  cases hw

/-! ### The order of visits -/

/-- A stack of folders to visit with those of a folder on top, put there as they are listed. -/
def stacked (way : List String) : Folder → List (List String × Folder) → List (List String × Folder)
  | empty, pending => pending
  | file _ _ rest, pending => rest.stacked way pending
  | folder name inside rest, pending => rest.stacked way ((way ++ [name], inside) :: pending)

/-- A stack of folders to visit comes to these visits: the top one is visited, and the folders
inside of it are put on top, until none is left. -/
inductive Drains : List (List String × Folder) → List (List String × Folder) → Prop where
  | done : Drains [] []
  | visit {way : List String} {g : Folder} {pending visited : List (List String × Folder)}
      (h : Drains (g.stacked way pending) visited) :
      Drains ((way, g) :: pending) ((way, g) :: visited)

theorem Drains.stacked {pending visited : List (List String × Folder)} (h : Drains pending visited)
    (way : List String) (f : Folder) :
    Drains (f.stacked way pending) (f.foldersBelow way ++ visited) := by
  induction f generalizing way pending visited with
  | empty => exact h
  | file n content rest ih => exact ih h way
  | folder n inner rest ihInner ihRest =>
    rw [Folder.stacked, foldersBelow, List.append_assoc, List.cons_append]
    exact ihRest (.visit (ihInner h _)) way

/-- **The folders are listed in the order in which they are visited.** -/
theorem drains_folders (f : Folder) : Drains [([], f)] f.folders := by
  have h := Drains.done.stacked [] f
  rw [List.append_nil] at h
  exact .visit h

end Folder

/-- **The names on a way, joined to a path, lead to the folder on the disk.** -/
theorem Disk.list_of_sub? {disk : Disk} {root : String} {f : Folder} (hp : f.IsProper)
    (hroot : disk.list root = .ok f)
    (hread : ∀ way g, f.sub? way = some g → ∃ g', disk.list (way.foldl join root) = .ok g')
    {way : List String} {g : Folder} (hway : f.sub? way = some g) :
    disk.list (way.foldl join root) = .ok g := by
  induction way using List.reverseRecOn generalizing g with
  | nil =>
    cases hway
    exact hroot
  | append_singleton way name ih =>
    obtain ⟨g', hg'⟩ := hread _ _ hway
    rw [Folder.sub?_concat] at hway
    obtain ⟨h, hh, hname⟩ := Option.bind_eq_some_iff.mp hway
    split at hname
    · rename_i inside hfind
      cases hname
      have hentry : IsEntryName name := (hp.sub? hh).isEntryName hfind
      rw [hg']
      rw [List.foldl_append] at hg'
      rw [list_join (ih hh) hentry hfind hg']
    · cases hname

end BulletinBoard
