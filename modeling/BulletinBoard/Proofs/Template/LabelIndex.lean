/-
# Where labels stand

A template looks its labels up in an index that was built instruction by instruction when it was
compiled. A name that is declared again overwrites its entry, so there is one entry for each name
(`nodup_indexLabels`) and the last declaration counts: a name leads to a position just where its
label stands there and nowhere behind (`label?_eq_some_iff`). The list of labels that is shown for a
template is the entries, sorted by position. It has every name that is declared once, and as no two
have one position, it is the same in whatever order the entries come (`mergeSort_eq_labels`).

Which instructions are labels is said of the source: they are its phrases that declare one, with a
slash or with the word for it, and nothing else is (`Phrase.declares?`, `labelAt_iff`).

Key definitions: `LabelAt`, `Phrase.declares?`.
Key theorems: `label?_eq_some_iff`, `nodup_indexLabels`, `mem_labels_iff`, `pairwise_labels`,
`mergeSort_eq_labels`, `labelAt_iff`, `label_index_exact`.
-/
import BulletinBoard.CommandLine.Execute
import BulletinBoard.Proofs.Run.Labels
import BulletinBoard.Proofs.Template.Phrases

namespace BulletinBoard.Template

/-! ### Positions -/

/-- The label of a name stands at a position. -/
def LabelAt (t : Template) (name : String) (position : Nat) : Prop :=
  ∃ i, t.at? position = some i ∧ i.kind = .label ∧ i.word = name

/-- A mark that is found is there, and there is none behind it. -/
theorem marks_of_lastMark? {name : String} {is : List Instruction} {p : Nat}
    (h : lastMark? name is = some p) :
    (∃ i, is[p]? = some i ∧ marks name i = true) ∧
      ∀ q, p < q → ∀ i, is[q]? = some i → marks name i = false := by
  induction is generalizing p with
  | nil => cases h
  | cons first rest ih =>
    unfold lastMark? at h
    split at h
    · rename_i p' hp'
      cases h
      obtain ⟨hmark, hlater⟩ := ih hp'
      refine ⟨hmark, fun q hq i hi => ?_⟩
      obtain ⟨q, rfl⟩ : ∃ q', q = q' + 1 := ⟨q - 1, by omega⟩
      exact hlater q (by omega) i hi
    · rename_i hnone
      split at h <;> cases h
      rename_i hfirst
      refine ⟨⟨first, rfl, hfirst⟩, fun q hq i hi => ?_⟩
      obtain ⟨q, rfl⟩ : ∃ q', q = q' + 1 := ⟨q - 1, by omega⟩
      have hi' : i ∈ rest := List.mem_of_getElem? hi
      rw [Bool.eq_false_iff, ne_eq, marks_eq_true_iff, not_and]
      exact lastMark?_eq_none_iff.mp hnone i hi'

variable {t : Template} {name : String} {p : Nat}

/-- **A name leads to the last of its labels.** -/
theorem label?_eq_some_iff :
    t.label? name = some p ↔ t.LabelAt name p ∧ ∀ q, p < q → ¬ t.LabelAt name q := by
  have hlast : ∀ p, t.label? name = some p →
      t.LabelAt name p ∧ ∀ q, p < q → ¬ t.LabelAt name q := by
    intro p h
    rw [label?_eq_lastMark?] at h
    obtain ⟨⟨i, hi, hmark⟩, hlater⟩ := marks_of_lastMark? h
    refine ⟨⟨i, hi, marks_eq_true_iff.mp hmark⟩, ?_⟩
    rintro q hq ⟨j, hj, hm⟩
    have hnot := hlater q hq j hj
    rw [marks_eq_true_iff.mpr hm] at hnot
    cases hnot
  refine ⟨hlast p, fun ⟨⟨i, hi, hk, hw⟩, hlater⟩ => ?_⟩
  cases h : t.label? name with
  | none => exact absurd ⟨i, List.mem_of_getElem? hi, hk, hw⟩ (label?_eq_none_iff.mp h)
  | some p' =>
    obtain ⟨hat, hnone⟩ := hlast p' h
    rcases Nat.lt_trichotomy p p' with hlt | rfl | hlt
    · exact absurd hat (hlater p' hlt)
    · rfl
    · exact absurd ⟨i, hi, hk, hw⟩ (hnone p hlt)

theorem eq_of_label?_eq {other : String} (h : t.label? name = some p)
    (ho : t.label? other = some p) : name = other := by
  obtain ⟨⟨i, hi, -, rfl⟩, -⟩ := label?_eq_some_iff.mp h
  obtain ⟨⟨j, hj, -, rfl⟩, -⟩ := label?_eq_some_iff.mp ho
  rw [hi] at hj
  cases hj
  rfl

/-! ### The index -/

theorem mem_keys_insertLabel {other : String} {index : List (String × Nat)} :
    other ∈ (insertLabel name p index).map Prod.fst ↔
      other = name ∨ other ∈ index.map Prod.fst := by
  induction index with
  | nil => simp [insertLabel]
  | cons entry rest ih =>
    unfold insertLabel
    split
    · rename_i hn
      simp [hn]
    · rw [List.map_cons, List.mem_cons, ih, List.map_cons, List.mem_cons]
      exact or_left_comm

theorem nodup_insertLabel {index : List (String × Nat)} (h : (index.map Prod.fst).Nodup) :
    ((insertLabel name p index).map Prod.fst).Nodup := by
  induction index with
  | nil => simp [insertLabel]
  | cons entry rest ih =>
    obtain ⟨hfirst, hrest⟩ := List.nodup_cons.mp h
    unfold insertLabel
    split
    · rename_i hn
      subst hn
      exact h
    · rename_i hn
      refine List.nodup_cons.mpr ⟨fun hmem => ?_, ih hrest⟩
      rcases mem_keys_insertLabel.mp hmem with heq | hmem
      · exact hn heq
      · exact hfirst hmem

theorem nodup_indexLabels (is : List Instruction) : ((indexLabels is).map Prod.fst).Nodup := by
  unfold indexLabels
  generalize is.zipIdx = numbered
  have hfold : ∀ index : List (String × Nat), (index.map Prod.fst).Nodup →
      ((numbered.foldl indexInstruction index).map Prod.fst).Nodup := by
    induction numbered with
    | nil => exact fun index h => h
    | cons first rest ih =>
      refine fun index h => ih _ ?_
      unfold indexInstruction
      split
      · exact nodup_insertLabel h
      · exact h
  exact hfold [] List.nodup_nil

/-- In a list that has every name once, what a name stands for is its entry. -/
theorem mem_iff_lookup {index : List (String × Nat)} (h : (index.map Prod.fst).Nodup) :
    (name, p) ∈ index ↔ index.lookup name = some p := by
  induction index with
  | nil => simp
  | cons entry rest ih =>
    obtain ⟨n, q⟩ := entry
    obtain ⟨hfirst, hrest⟩ := List.nodup_cons.mp h
    rw [lookup_entry, List.mem_cons, ih hrest, Prod.mk.injEq]
    by_cases hn : name = n
    · subst hn
      have hgone : rest.lookup name ≠ some p := fun hl =>
        hfirst (List.mem_map.mpr ⟨_, (ih hrest).mpr hl, rfl⟩)
      simp [hgone, eq_comm]
    · simp [hn]

/-! ### The list of labels -/

/-- The list has each name with the position it leads to. -/
theorem mem_labels_iff : (name, p) ∈ t.labels ↔ t.label? name = some p := by
  unfold labels label?
  rw [List.mem_mergeSort, mem_iff_lookup (t.index_eq ▸ nodup_indexLabels t.instructions)]

theorem nodup_labels (t : Template) : (t.labels.map Prod.fst).Nodup := by
  have hperm := (List.mergeSort_perm t.index fun a b => a.2 ≤ b.2).map Prod.fst
  exact hperm.nodup_iff.mpr (t.index_eq ▸ nodup_indexLabels t.instructions)

theorem pairwise_mergeSort (entries : List (String × Nat)) :
    (entries.mergeSort fun a b => a.2 ≤ b.2).Pairwise fun a b => decide (a.2 ≤ b.2) = true := by
  refine List.pairwise_mergeSort (fun a b c => ?_) (fun a b => ?_) entries
  · simpa using Nat.le_trans
  · simpa using Nat.le_total a.2 b.2

/-- The list is in the order of the positions. -/
theorem pairwise_labels (t : Template) : t.labels.Pairwise fun a b => a.2 < b.2 := by
  have hsorted := pairwise_mergeSort t.index
  have hnames := List.pairwise_map.mp (nodup_labels t)
  refine (hsorted.and hnames).imp_of_mem ?_
  rintro ⟨x, p⟩ ⟨y, q⟩ hx hy ⟨hle, hne⟩
  -- two names never lead to one position
  refine Nat.lt_of_le_of_ne (of_decide_eq_true hle) ?_
  rintro (rfl : p = q)
  exact hne (eq_of_label?_eq (mem_labels_iff.mp hx) (mem_labels_iff.mp hy))

/-- Entries that come in another order are sorted into the same list. -/
theorem mergeSort_eq_labels {entries : List (String × Nat)} (h : entries.Perm t.index) :
    entries.mergeSort (fun a b => a.2 ≤ b.2) = t.labels := by
  have hperm : (entries.mergeSort fun a b => a.2 ≤ b.2).Perm t.labels :=
    (List.mergeSort_perm _ _).trans (h.trans (List.mergeSort_perm _ _).symm)
  refine hperm.eq_of_pairwise ?_ (pairwise_mergeSort entries)
    ((pairwise_labels t).imp fun hlt => decide_eq_true (Nat.le_of_lt hlt))
  rintro ⟨x, p⟩ ⟨y, q⟩ hx hy hpq hqp
  obtain rfl : p = q := Nat.le_antisymm (of_decide_eq_true hpq) (of_decide_eq_true hqp)
  have hxl := mem_labels_iff.mp (hperm.mem_iff.mp hx)
  rw [eq_of_label?_eq hxl (mem_labels_iff.mp hy)]

/-! ### Declarations -/

namespace Phrase

/-- The label a phrase declares, with a slash or with the word for it. -/
def declares? : Phrase → Option String
  | slash name _ _ | declaration _ name _ => some name
  | _ => none

/-- A phrase is a label just where it declares one. -/
theorem declares?_eq_some_iff {phrase : Phrase} : phrase.declares? = some name ↔
    ∃ i, phrase.instruction? = some i ∧ i.kind = .label ∧ i.word = name := by
  cases phrase with
  | word kind w args hk _ _ =>
    have hne : kind ≠ .label := (Kind.ne_of_ofWord? hk).2
    simp [declares?, instruction?, hne]
  | text | declaration | comment | sequence | slash =>
    simp [declares?, instruction?, Instruction.literal, Instruction.mark]

end Phrase

theorem getElem?_filterMap_iff {ps : List Phrase} {i : Instruction} :
    (ps.filterMap Phrase.instruction?)[p]? = some i ↔
      ∃ before phrase behind, ps = before ++ phrase :: behind ∧ phrase.instruction? = some i ∧
        (before.filterMap Phrase.instruction?).length = p := by
  induction ps generalizing p with
  | nil => simp
  | cons first ps ih =>
    constructor
    · intro h
      cases hfirst : first.instruction? with
      | none =>
        rw [List.filterMap_cons_none hfirst, ih] at h
        obtain ⟨before, phrase, behind, rfl, hi, hlength⟩ := h
        exact ⟨first :: before, phrase, behind, rfl, hi, by simp [hfirst, hlength]⟩
      | some j =>
        rw [List.filterMap_cons_some hfirst] at h
        cases p with
        | zero => exact ⟨[], first, ps, rfl, hfirst.trans h, rfl⟩
        | succ p =>
          obtain ⟨before, phrase, behind, rfl, hi, hlength⟩ := ih.mp h
          exact ⟨first :: before, phrase, behind, rfl, hi, by simp [hfirst, hlength]⟩
    · rintro ⟨before, phrase, behind, hps, hi, rfl⟩
      rw [hps, List.filterMap_append, List.filterMap_cons_some hi]
      simp

/-- The labels of a template are the phrases of its source that declare one. -/
theorem labelAt_iff {ps : List Phrase} (h : t.instructions = ps.filterMap Phrase.instruction?) :
    t.LabelAt name p ↔ ∃ before phrase behind, ps = before ++ phrase :: behind ∧
      phrase.declares? = some name ∧ (before.filterMap Phrase.instruction?).length = p := by
  unfold LabelAt at?
  simp only [h, getElem?_filterMap_iff, Phrase.declares?_eq_some_iff]
  constructor
  · rintro ⟨i, ⟨before, phrase, behind, hps, hi, hlength⟩, hk, hw⟩
    exact ⟨before, phrase, behind, hps, ⟨i, hi, hk, hw⟩, hlength⟩
  · rintro ⟨before, phrase, behind, hps, ⟨i, hi, hk, hw⟩, hlength⟩
    exact ⟨i, ⟨before, phrase, behind, hps, hi, hlength⟩, hk, hw⟩

/-- What compiles is phrases in a row. -/
theorem exists_phrases_of_compile {source : String} (h : compile name source = .ok t) :
    ∃ ps, Parted [] ps ∧ Span.ofSource source = .ok (ps.flatMap Phrase.spans) ∧
      t.instructions = ps.filterMap Phrase.instruction? := by
  unfold compile at h
  split at h
  · cases h
  rename_i spans hspans
  split at h
  · cases h
  rename_i is his
  cases h
  obtain ⟨ps, rest, hparted, rfl, hend⟩ := exists_phrases spans
  rw [Instruction.ofSpans, Instruction.read_phrases hparted] at his
  rcases hend with rfl | ⟨e, he⟩
  · rw [List.append_nil] at hspans
    cases his
    exact ⟨ps, hparted, hspans, List.append_nil _⟩
  · rw [Instruction.read_of_breaks he] at his
    cases his

/-- How a label is shown. -/
def labelEntry (entry : String × Nat) : Json :=
  .object [("index", .number entry.2), ("name", .string entry.1)]

/-- **The labels of a template are exact.** Let a source compile. Its labels stand where its phrases
declare them, be it with a slash or with the word for it. A name leads to a position just where its
label stands there and not again behind, and to none just where it is not declared; so a position is
one of the template, and that of one name. The list that is shown of them has every name that is
declared, once, with its position, and the positions go up; it is what sorting makes of the entries
of the index, in whatever order they come. -/
theorem label_index_exact {source : String} (h : compile name source = .ok t) :
    (∃ ps, Parted [] ps ∧ Span.ofSource source = .ok (ps.flatMap Phrase.spans) ∧
      ∀ label p, t.LabelAt label p ↔ ∃ before phrase behind, ps = before ++ phrase :: behind ∧
        phrase.declares? = some label ∧ (before.filterMap Phrase.instruction?).length = p) ∧
    (∀ label p, t.label? label = some p ↔
      t.LabelAt label p ∧ ∀ q, p < q → ¬ t.LabelAt label q) ∧
    (∀ label, t.label? label = none ↔ ¬ t.Declares label) ∧
    (∀ label p, t.label? label = some p → p < t.size ∧
      ∀ other, t.label? other = some p → label = other) ∧
    (∀ label p, (label, p) ∈ t.labels ↔ t.label? label = some p) ∧
    (t.labels.map Prod.fst).Nodup ∧ (t.labels.Pairwise fun a b => a.2 < b.2) ∧
    (∀ entries : List (String × Nat), entries.Perm t.index →
      entries.mergeSort (fun a b => a.2 ≤ b.2) = t.labels) ∧
    ∃ fields, CommandLine.passReport name t = .object fields ∧
      ("labels", .list (t.labels.map labelEntry)) ∈ fields := by
  obtain ⟨ps, hparted, hspans, hinstructions⟩ := exists_phrases_of_compile h
  refine ⟨⟨ps, hparted, hspans, fun label p => labelAt_iff hinstructions⟩,
    fun label p => label?_eq_some_iff, fun label => label?_eq_none_iff,
    fun label p hp => ⟨label?_lt hp, fun other ho => eq_of_label?_eq hp ho⟩,
    fun label p => mem_labels_iff, nodup_labels t, pairwise_labels t,
    fun entries => mergeSort_eq_labels, _, rfl, ?_⟩
  exact List.mem_cons_of_mem _ List.mem_cons_self

/-- A template that declares a name again, and one in two letter cases. -/
def redeclaring : Template :=
  .of "t" "[/a]x[Label b][/A][comment /c]y[label a]"
    [.mark "a", .literal "x", .mark "b", .mark "A", .literal "y", .mark "a"]

/-- The first declaration of the name is not shown, and the cases are two names. -/
theorem label_index_redeclaring :
    compile "t" redeclaring.source = .ok redeclaring ∧
      redeclaring.labels = [("b", 2), ("A", 3), ("a", 5)] ∧ redeclaring.LabelAt "a" 0 ∧
      redeclaring.label? "a" = some 5 ∧ redeclaring.label? "c" = none ∧
      redeclaring.label? "A" ≠ some 5 := by
  have hcompiles : compile "t" redeclaring.source = .ok redeclaring := by decide +kernel
  have hlabels : redeclaring.labels = [("b", 2), ("A", 3), ("a", 5)] := by
    have hperm : [("b", 2), ("A", 3), ("a", 5)].Perm redeclaring.index := by decide
    rw [← mergeSort_eq_labels hperm]
    exact List.mergeSort_of_pairwise (by decide)
  obtain ⟨-, -, hnone, hone, hlist, -⟩ := label_index_exact hcompiles
  have ha : redeclaring.label? "a" = some 5 := (hlist "a" 5).mp (by rw [hlabels]; decide)
  refine ⟨hcompiles, hlabels, ⟨.mark "a", rfl, rfl, rfl⟩, ha, (hnone "c").mpr (by decide),
    fun hA => ?_⟩
  exact absurd ((hone "a" 5 ha).2 "A" hA) (by decide)

end BulletinBoard.Template
