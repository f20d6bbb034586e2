/-
# The last draft that compiles counts

Sources are compiled into a store one after the other, under names that may repeat and may be given
with or without their ending. Some do not compile. Whatever the order, a name stands for the last of
its drafts that compiled (`Store.find_eq_ok_iff_latest`), a draft that does not compile changes
nothing, and the names that are listed, in ascending order, are those of the drafts that compiled.
What a draft is answered with depends on no other draft, so a template that was handed out stays as
it is.

Key definitions: `Draft`, `Draft.compiled`, `Store.compileAll`, `Store.replies`, `Latest`.
Key theorems: `Store.lookup?_compileAll_of_latest`, `Store.names_compileAll`,
`Store.last_draft_counts`.
-/
import BulletinBoard.Proofs.Template.StoreNames

namespace BulletinBoard

open Template

/-- A source, and the name to compile it under. -/
structure Draft where
  name : String
  source : String

namespace Draft

/-- The name of a draft without the ending of template files. -/
def key (d : Draft) : String := Store.baseName d.name

/-- What a draft compiles to. -/
def compiled (d : Draft) : Except CompileError Template := Template.compile d.key d.source

/-- The draft compiles. -/
def Succeeds (d : Draft) : Prop := ∃ t, d.compiled = .ok t

theorem not_succeeds_of_error {d : Draft} {e : CompileError} (h : d.compiled = .error e) :
    ¬ d.Succeeds := by
  rintro ⟨t, ht⟩
  rw [h] at ht
  cases ht

end Draft

/-- Among the drafts of a name, with or without its ending, this is the last that compiles. -/
def Latest (drafts : List Draft) (name : String) (d : Draft) : Prop :=
  ∃ earlier later, drafts = earlier ++ d :: later ∧ d.key = Store.baseName name ∧ d.Succeeds ∧
    ∀ d' ∈ later, d'.key = Store.baseName name → ¬ d'.Succeeds

/-- If any draft of a name compiles, one of them is the last. -/
theorem exists_latest {drafts : List Draft} {name : String}
    (h : ∃ d ∈ drafts, d.key = Store.baseName name ∧ d.Succeeds) :
    ∃ d, Latest drafts name d := by
  induction drafts with
  | nil =>
    obtain ⟨d, hd, -⟩ := h
    cases hd
  | cons d rest ih =>
    by_cases hrest : ∃ d ∈ rest, d.key = Store.baseName name ∧ d.Succeeds
    · obtain ⟨d', earlier, later, hsplit, hlast⟩ := ih hrest
      have hcons : d :: rest = (d :: earlier) ++ d' :: later := by rw [hsplit]; rfl
      exact ⟨d', d :: earlier, later, hcons, hlast⟩
    · -- no later draft of the name compiles, so the first one does
      have hlater : ∀ d' ∈ rest, d'.key = Store.baseName name → ¬ d'.Succeeds :=
        fun d' hd' hkey hs => hrest ⟨d', hd', hkey, hs⟩
      obtain ⟨d', hd', hkey, hs⟩ := h
      rcases List.mem_cons.mp hd' with rfl | hmem
      · exact ⟨d', [], rest, rfl, hkey, hs, hlater⟩
      · exact absurd hs (hlater d' hmem hkey)

namespace Store

/-- The store after drafts were compiled into it, one after the other. -/
def compileAll (s : Store) (drafts : List Draft) : Store :=
  drafts.foldl (fun s d => (s.compile d.name d.source).store) s

/-- What the drafts are answered with. -/
def replies (s : Store) : List Draft → List (Except CompileError Template)
  | [] => []
  | d :: rest =>
    let reply := s.compile d.name d.source
    reply.result :: reply.store.replies rest

variable {s : Store} {d : Draft} {drafts : List Draft} {name : String} {t : Template}

/-! ### One draft -/

theorem result_compile (s : Store) (d : Draft) :
    (s.compile d.name d.source).result = d.compiled := by
  have hd : d.compiled = Template.compile (baseName d.name) d.source := rfl
  rw [hd]
  unfold compile
  split <;> rename_i h <;> rw [h]

theorem store_compile_of_ok (h : d.compiled = .ok t) :
    (s.compile d.name d.source).store = { s with entries := insert d.key t s.entries } := by
  unfold compile
  rw [show Template.compile (baseName d.name) d.source = .ok t from h]
  rfl

theorem store_compile_of_not_succeeds (h : ¬ d.Succeeds) :
    (s.compile d.name d.source).store = s := by
  rcases s.compile_cases d.name d.source with ⟨t, -, ht, -⟩ | ⟨-, hs⟩
  · exact absurd ⟨t, ht⟩ h
  · exact hs

theorem lookup?_compile_of_ok (h : d.compiled = .ok t) :
    (s.compile d.name d.source).store.lookup? name =
      if d.key = baseName name then some t else s.lookup? name := by
  rw [store_compile_of_ok h]
  unfold lookup?
  rw [lookup_insert]
  simp only [eq_comm]

theorem lookup?_compile_of_other (h : d.key = baseName name → ¬ d.Succeeds) :
    (s.compile d.name d.source).store.lookup? name = s.lookup? name := by
  by_cases hs : d.Succeeds
  · obtain ⟨t, ht⟩ := hs
    have hkey : d.key ≠ baseName name := fun hkey => h hkey ⟨t, ht⟩
    rw [lookup?_compile_of_ok ht, if_neg hkey]
  · rw [store_compile_of_not_succeeds hs]

/-! ### Drafts, one after the other -/

theorem compileAll_append (s : Store) (earlier later : List Draft) :
    s.compileAll (earlier ++ later) = (s.compileAll earlier).compileAll later :=
  List.foldl_append

/-- Drafts that are of other names, or do not compile, leave a name as it is. -/
theorem lookup?_compileAll_of_others (h : ∀ d ∈ drafts, d.key = baseName name → ¬ d.Succeeds) :
    (s.compileAll drafts).lookup? name = s.lookup? name := by
  induction drafts generalizing s with
  | nil => rfl
  | cons d rest ih =>
    obtain ⟨hd, hrest⟩ := List.forall_mem_cons.mp h
    have hfirst : (s.compile d.name d.source).store.lookup? name = s.lookup? name :=
      lookup?_compile_of_other hd
    exact (ih hrest).trans hfirst

/-- A name stands for the last of its drafts that compiles. -/
theorem lookup?_compileAll_of_latest (h : Latest drafts name d) (ht : d.compiled = .ok t) :
    (s.compileAll drafts).lookup? name = some t := by
  obtain ⟨earlier, later, rfl, hkey, -, hlater⟩ := h
  have hput : ((s.compileAll earlier).compile d.name d.source).store.lookup? name = some t := by
    rw [lookup?_compile_of_ok ht, if_pos hkey]
  rw [compileAll_append]
  exact (lookup?_compileAll_of_others hlater).trans hput

theorem lookup?_empty (root : Option String) (name : String) :
    (empty root).lookup? name = none := rfl

/-- In a store that was empty, what a name stands for is told by its last draft that compiles. -/
theorem find_eq_ok_iff_latest (root : Option String) :
    ((empty root).compileAll drafts).find name = .ok t ↔
      ∃ d, Latest drafts name d ∧ d.compiled = .ok t := by
  rw [find_eq_ok_iff]
  constructor
  · intro hfound
    have hsome : ∃ d ∈ drafts, d.key = baseName name ∧ d.Succeeds := by
      by_contra hnone
      have hothers : ∀ d ∈ drafts, d.key = baseName name → ¬ d.Succeeds :=
        fun d hd hkey hs => hnone ⟨d, hd, hkey, hs⟩
      rw [lookup?_compileAll_of_others hothers, lookup?_empty] at hfound
      cases hfound
    obtain ⟨d, hd⟩ := exists_latest hsome
    obtain ⟨-, -, -, -, ⟨u, hu⟩, -⟩ := id hd
    have hput := lookup?_compileAll_of_latest (s := empty root) hd hu
    rw [hfound] at hput
    cases hput
    exact ⟨d, hd, hu⟩
  · rintro ⟨d, hd, ht⟩
    exact lookup?_compileAll_of_latest hd ht

/-- A name is missing just where none of its drafts compiles. -/
theorem find_eq_error_iff_forall (root : Option String) {e : RunError} :
    ((empty root).compileAll drafts).find name = .error e ↔
      (∀ d ∈ drafts, d.key = baseName name → ¬ d.Succeeds) ∧
        e = .notCompiled (baseName name) := by
  rw [find_eq_error_iff]
  refine and_congr_left fun _ => ⟨fun hnone => ?_, fun hothers => ?_⟩
  · intro d hd hkey hs
    obtain ⟨d', hd'⟩ := exists_latest ⟨d, hd, hkey, hs⟩
    obtain ⟨-, -, -, -, ⟨u, hu⟩, -⟩ := id hd'
    rw [lookup?_compileAll_of_latest hd' hu] at hnone
    cases hnone
  · rw [lookup?_compileAll_of_others hothers, lookup?_empty]

/-- What the drafts are answered with is what each of them compiles to, whatever the store holds and
whatever comes after. -/
theorem replies_eq (s : Store) (drafts : List Draft) :
    s.replies drafts = drafts.map Draft.compiled := by
  induction drafts generalizing s with
  | nil => rfl
  | cons d rest ih =>
    rw [replies, List.map_cons, result_compile, ih]

/-! ### Names -/

theorem mem_names_insert {other : String} {entries : List (String × Template)} :
    other ∈ (insert name t entries).map Prod.fst ↔
      other = name ∨ other ∈ entries.map Prod.fst := by
  induction entries with
  | nil => simp [insert]
  | cons entry rest ih =>
    obtain ⟨n, u⟩ := entry
    unfold insert
    split
    · simp
    · split
      · rename_i hn
        simp [hn]
      · simp only [List.map_cons, List.mem_cons, ih]
        exact or_left_comm

theorem pairwise_insert {entries : List (String × Template)}
    (h : (entries.map Prod.fst).Pairwise (· < ·)) :
    ((insert name t entries).map Prod.fst).Pairwise (· < ·) := by
  induction entries with
  | nil => exact List.pairwise_singleton _ _
  | cons entry rest ih =>
    obtain ⟨n, u⟩ := entry
    obtain ⟨hn, hrest⟩ := List.pairwise_cons.mp h
    unfold insert
    split
    · rename_i hlt
      refine List.pairwise_cons.mpr ⟨fun other hother => ?_, h⟩
      rcases List.mem_cons.mp hother with rfl | hother
      · exact hlt
      · exact String.lt_trans hlt (hn other hother)
    · split
      · rename_i heq
        subst heq
        exact h
      · rename_i hlt hne
        have hgt : n < name := Std.lt_of_le_of_ne (Std.not_lt.mp hlt) (Ne.symm hne)
        refine List.pairwise_cons.mpr ⟨fun other hother => ?_, ih hrest⟩
        rcases mem_names_insert.mp hother with rfl | hother
        · exact hgt
        · exact hn other hother

theorem names_compile : name ∈ (s.compile d.name d.source).store.names ↔
    d.key = name ∧ d.Succeeds ∨ name ∈ s.names := by
  by_cases hs : d.Succeeds
  · obtain ⟨t, ht⟩ := id hs
    rw [store_compile_of_ok ht]
    unfold names
    rw [mem_names_insert]
    simp [hs, eq_comm]
  · rw [store_compile_of_not_succeeds hs]
    simp [hs]

/-- The names behind some drafts are those before and those of the drafts that compile. -/
theorem names_compileAll : name ∈ (s.compileAll drafts).names ↔
    (∃ d ∈ drafts, d.key = name ∧ d.Succeeds) ∨ name ∈ s.names := by
  induction drafts generalizing s with
  | nil => simp [compileAll]
  | cons d rest ih =>
    have hsplit : s.compileAll (d :: rest) =
        (s.compile d.name d.source).store.compileAll rest := rfl
    rw [hsplit, ih, names_compile]
    simp only [List.mem_cons, exists_eq_or_imp]
    exact or_left_comm.trans or_assoc.symm

theorem pairwise_names_compile (h : s.names.Pairwise (· < ·)) (d : Draft) :
    (s.compile d.name d.source).store.names.Pairwise (· < ·) := by
  by_cases hs : d.Succeeds
  · obtain ⟨t, ht⟩ := hs
    rw [store_compile_of_ok ht]
    exact pairwise_insert h
  · rwa [store_compile_of_not_succeeds hs]

theorem pairwise_names_compileAll (h : s.names.Pairwise (· < ·)) (drafts : List Draft) :
    (s.compileAll drafts).names.Pairwise (· < ·) := by
  induction drafts generalizing s with
  | nil => exact h
  | cons d rest ih => exact ih (pairwise_names_compile h d)

/-! ### The law of the store -/

/-- **The last draft that compiles counts.** Let drafts be compiled, one after the other, into a
store that is empty. A name then stands for the last of its drafts that compiled, under the name
without its ending and with the source of that draft, and it is missing if there is none. A further
draft that does not compile changes nothing that is found or listed. The names ascend, and they are
those of the drafts that compiled. And each draft was answered with what it compiles to by itself:
nothing that came later has changed that. -/
theorem last_draft_counts (root : Option String) (drafts : List Draft) :
    (∀ name t, ((empty root).compileAll drafts).find name = .ok t ↔
      ∃ d, Latest drafts name d ∧ d.compiled = .ok t ∧
        t.name = baseName name ∧ t.source = d.source) ∧
    (∀ name e, ((empty root).compileAll drafts).find name = .error e ↔
      (∀ d ∈ drafts, d.key = baseName name → ¬ d.Succeeds) ∧
        e = .notCompiled (baseName name)) ∧
    (∀ d, ¬ d.Succeeds →
      (∀ name, ((empty root).compileAll (drafts ++ [d])).find name =
        ((empty root).compileAll drafts).find name) ∧
      (∀ name, ((empty root).compileAll (drafts ++ [d])).contains name =
        ((empty root).compileAll drafts).contains name) ∧
      ((empty root).compileAll (drafts ++ [d])).names = ((empty root).compileAll drafts).names) ∧
    ((empty root).compileAll drafts).names.Pairwise (· < ·) ∧
    (∀ name, name ∈ ((empty root).compileAll drafts).names ↔
      ∃ d ∈ drafts, d.key = name ∧ d.Succeeds) ∧
    (empty root).replies drafts = drafts.map Draft.compiled := by
  refine ⟨fun name t => ?_, fun name e => find_eq_error_iff_forall root, fun d hd => ?_,
    pairwise_names_compileAll List.Pairwise.nil drafts, fun name => ?_, replies_eq _ drafts⟩
  · rw [find_eq_ok_iff_latest]
    refine exists_congr fun d => and_congr_right fun hd => ?_
    obtain ⟨-, -, -, hkey, -⟩ := hd
    constructor
    · intro ht
      obtain ⟨hname, hsource⟩ := Template.name_source_of_compile ht
      exact ⟨ht, hname.trans hkey, hsource⟩
    · exact And.left
  · have hsame : (empty root).compileAll (drafts ++ [d]) = (empty root).compileAll drafts := by
      rw [compileAll_append]
      exact store_compile_of_not_succeeds hd
    rw [hsame]
    exact ⟨fun _ => rfl, fun _ => rfl, rfl⟩
  · rw [names_compileAll]
    simp [empty, names]

/-- A menu that is compiled twice, the second time under its name with the ending, and a logo. -/
def menuDrafts : List Draft := [⟨"menu", "first"⟩, ⟨"menu.mec", "second"⟩, ⟨"logo.mec", "hi"⟩]

/-- The menu is the second one, also after a third that does not compile, and the first one was
handed out as it is. -/
theorem last_draft_counts_menu :
    ¬ (⟨"menu", "broken [white"⟩ : Draft).Succeeds ∧
    ((empty none).compileAll (menuDrafts ++ [⟨"menu", "broken [white"⟩])).find "menu.mec" =
      .ok (.of "menu" "second" [.literal "second"]) ∧
    ((empty none).compileAll menuDrafts).names = ["logo", "menu"] ∧
    ((empty none).replies menuDrafts).head? = some (.ok (.of "menu" "first" [.literal "first"])) := by
  have hfails : ¬ (⟨"menu", "broken [white"⟩ : Draft).Succeeds :=
    Draft.not_succeeds_of_error (e := .brackets (.unclosed ⟨1, 8⟩)) rfl
  obtain ⟨hfound, -, hkept, -, -, hreplies⟩ := last_draft_counts none menuDrafts
  have hlatest : Latest menuDrafts "menu.mec" ⟨"menu.mec", "second"⟩ := by
    refine ⟨[⟨"menu", "first"⟩], [⟨"logo.mec", "hi"⟩], rfl, rfl, ⟨_, rfl⟩, fun d hd hkey => ?_⟩
    cases List.mem_singleton.mp hd
    exact absurd hkey (by decide)
  have hmenu : ((empty none).compileAll menuDrafts).find "menu.mec" =
      .ok (.of "menu" "second" [.literal "second"]) :=
    (hfound _ _).mpr ⟨_, hlatest, rfl, rfl, rfl⟩
  refine ⟨hfails, ?_, by decide, ?_⟩
  · rw [(hkept _ hfails).1]
    exact hmenu
  · rw [hreplies]
    rfl

end Store

end BulletinBoard
