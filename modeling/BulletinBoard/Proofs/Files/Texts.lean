/-
# The texts of a disk

A disk holds finitely many files, and every text that is read from it is that of one of them, however
its path turns.

Key definitions: `Folder.contents`, `Disk.texts`.
Key theorems: `Folder.mem_contents_of_locate`, `Disk.mem_texts_of_readText`.
-/
import BulletinBoard.Files.Disk

namespace BulletinBoard

open Text

namespace Folder

/-- The contents of the files in a folder and below it. -/
def contents : Folder → List (List UInt8)
  | empty => []
  | file _ content rest => content :: contents rest
  | folder _ inside rest => contents inside ++ contents rest

variable {f g top here : Folder} {name : String} {content : List UInt8}

theorem mem_contents_of_find? (h : f.find? name = some (.file content)) :
    content ∈ f.contents := by
  induction f with
  | empty => cases h
  | file n c rest ih =>
    unfold find? at h
    split at h
    · cases h
      exact List.mem_cons_self
    · exact List.mem_cons_of_mem _ (ih h)
  | folder n inside rest _ ih =>
    unfold find? at h
    split at h
    · cases h
    · exact List.mem_append_right _ (ih h)

theorem contents_subset_of_find? (h : f.find? name = some (.folder g)) :
    g.contents ⊆ f.contents := by
  induction f with
  | empty => cases h
  | file n c rest ih =>
    unfold find? at h
    split at h
    · cases h
    · exact List.subset_cons_of_subset _ (ih h)
  | folder n inside rest _ ih =>
    unfold find? at h
    split at h
    · cases h
      exact List.subset_append_left _ _
    · exact List.subset_append_of_subset_right _ (ih h)

/-- Whatever path leads to a file, its content is one of those below the top. -/
theorem mem_contents_of_locate {above : List Folder} {parts : List String}
    (ha : ∀ f ∈ above, f.contents ⊆ top.contents) (hh : here.contents ⊆ top.contents)
    (h : locate above here parts = .ok (.file content)) : content ∈ top.contents := by
  induction parts generalizing above here with
  | nil => cases h
  | cons part rest ih =>
    unfold locate at h
    split at h
    · exact ih ha hh h
    split at h
    · cases above with
      | nil => exact ih ha hh h
      | cons up further =>
        obtain ⟨hup, hfurther⟩ := List.forall_mem_cons.mp ha
        exact ih hfurther hup h
    split at h
    · cases h
    split at h
    · cases h
    · rename_i inside hinside
      exact ih (List.forall_mem_cons.mpr ⟨hh, ha⟩)
        (List.Subset.trans (contents_subset_of_find? hinside) hh) h
    · rename_i c hc
      split at h <;> cases h
      exact hh (mem_contents_of_find? hc)

end Folder

namespace Disk

/-- The texts of the files of a disk. -/
def texts (d : Disk) : List String := d.top.contents.filterMap Utf8.decode?

theorem mem_texts_of_readText {d : Disk} {path text : String} (h : d.readText path = .ok text) :
    text ∈ d.texts := by
  unfold readText at h
  split at h
  · cases h
  rename_i content hread
  have hentry : d.entry path = .ok (.file content) := by
    unfold read at hread
    split at hread <;> cases hread
    assumption
  have hmem : content ∈ d.top.contents := by
    unfold entry at hentry
    split at hentry
    · cases hentry
    split at hentry
    · cases hentry
    split at hentry
    · cases hentry
    exact Folder.mem_contents_of_locate (by simp) (List.Subset.refl _) hentry
  split at h
  · rename_i hdecode
    cases h
    exact List.mem_filterMap.mpr ⟨content, hmem, hdecode⟩
  · cases h

end Disk

end BulletinBoard
