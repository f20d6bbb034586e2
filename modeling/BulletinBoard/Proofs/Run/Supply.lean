/-
# Where templates come from

The templates of a run come from its store and from whoever hands it one, those of a store from
sources that are compiled into it and from files. So if all of these are of a kind, the templates of
the run and of the store stay of that kind, whatever is done with them and in whatever order.

Key definitions: `Store.Holds`, `Store.Finds`, `Operation.Brings`, `Stage.Supplied`.
Key theorems: `Store.Holds.getOrLoad`, `Stage.Supplied.operations`.
-/
import BulletinBoard.Proofs.Run.Sound
import BulletinBoard.Proofs.Run.Templates
import BulletinBoard.Proofs.Template.StoreNames

namespace BulletinBoard

open Text Template

variable {P : Template → Prop}

/-! ### Stores -/

namespace Store

/-- Every template of the store is of a kind. -/
def Holds (P : Template → Prop) (s : Store) : Prop := ∀ name t, (name, t) ∈ s.entries → P t

/-- Every template that a file below the root of the store compiles to is of a kind, under whatever
name. -/
def Finds (disk : Disk) (P : Template → Prop) (s : Store) : Prop :=
  ∀ file text, s.source disk file = .ok text →
    ∀ name t, Template.compile name text = .ok t → P t

variable {disk : Disk} {s : Store} {name : String} {t : Template}

theorem Finds.of_root {s' : Store} (h : s.Finds disk P) (hr : s'.root = s.root) :
    s'.Finds disk P := by
  intro file text htext
  refine h file text ?_
  unfold source at htext ⊢
  rwa [← hr]

theorem root_compile (s : Store) (name source : String) :
    (s.compile name source).store.root = s.root := by
  rcases s.compile_cases name source with ⟨t, -, -, hs⟩ | ⟨-, hs⟩ <;> rw [hs]

theorem root_load (disk : Disk) (s : Store) (name : String) :
    (s.load disk name).store.root = s.root := by
  rcases s.load_cases disk name with ⟨source, -, hl⟩ | ⟨-, hs⟩
  · rw [hl, root_compile]
  · rw [hs]

theorem getOrLoad_cases (disk : Disk) (s : Store) (name : String) :
    ((s.getOrLoad disk name).store = s ∧
      ∀ t, (s.getOrLoad disk name).result = .ok t → s.lookup? name = some t) ∨
    ((s.getOrLoad disk name).store = (s.load disk name).store ∧
      (s.getOrLoad disk name).result.toOption = (s.load disk name).result.toOption) := by
  unfold getOrLoad
  split
  · rename_i u hu
    refine .inl ⟨rfl, fun t ht => ?_⟩
    cases ht
    exact hu
  · rcases s.loadMissing_cases disk name with hl | ⟨hs, hr⟩
    · exact .inr hl
    · refine .inl ⟨hs, fun t ht => ?_⟩
      rw [ht] at hr
      cases hr

theorem root_getOrLoad (disk : Disk) (s : Store) (name : String) :
    (s.getOrLoad disk name).store.root = s.root := by
  rcases s.getOrLoad_cases disk name with ⟨hs, -⟩ | ⟨hs, -⟩
  · rw [hs]
  · rw [hs, root_load]

namespace Holds

theorem of_lookup? (h : s.Holds P) (ht : s.lookup? name = some t) : P t := by
  obtain ⟨before, later, hl, -⟩ := List.lookup_eq_some_iff.mp ht
  exact h _ _ (hl ▸ List.mem_append_right _ List.mem_cons_self)

theorem compile (h : s.Holds P) {source : String}
    (hc : ∀ t, Template.compile (baseName name) source = .ok t → P t) :
    (s.compile name source).store.Holds P := by
  rcases s.compile_cases name source with ⟨t, -, ht, hs⟩ | ⟨-, hs⟩
  · rw [hs]
    intro n u hu
    rcases mem_insert hu with he | hm
    · cases he
      exact hc t ht
    · exact h n u hm
  · rwa [hs]

theorem load (h : s.Holds P) (hf : s.Finds disk P) (name : String) :
    (s.load disk name).store.Holds P ∧ ∀ t, (s.load disk name).result.toOption = some t → P t := by
  rcases s.load_cases disk name with ⟨source, hsource, hl⟩ | ⟨hn, hs⟩
  · have hc := hf _ source hsource
    rw [hl]
    refine ⟨h.compile fun t ht => hc _ t ht, fun t ht => ?_⟩
    rcases s.compile_cases (baseName name) source with ⟨u, hu, hcu, -⟩ | ⟨hn, -⟩
    · rw [hu] at ht
      cases ht
      exact hc _ _ hcu
    · rw [hn] at ht
      cases ht
  · rw [hs, hn]
    exact ⟨h, fun t ht => by cases ht⟩

theorem getOrLoad (h : s.Holds P) (hf : s.Finds disk P) (name : String) :
    (s.getOrLoad disk name).store.Holds P ∧
      ∀ t, (s.getOrLoad disk name).result = .ok t → P t := by
  rcases s.getOrLoad_cases disk name with ⟨hs, hr⟩ | ⟨hs, hr⟩
  · rw [hs]
    exact ⟨h, fun t ht => h.of_lookup? (hr t ht)⟩
  · obtain ⟨hload, hgives⟩ := h.load hf name
    rw [hs]
    refine ⟨hload, fun t ht => hgives t ?_⟩
    rw [← hr, ht]
    rfl

end Holds

end Store

/-! ### Operations -/

/-- What an operation brings along is of a kind: the template it hands to the run, or what its
source compiles to. -/
def Operation.Brings (P : Template → Prop) : Operation → Prop
  | .enter t => P t
  | .compile name source => ∀ t, Template.compile (Store.baseName name) source = .ok t → P t
  | _ => True

/-- The templates of a run and of its store are of a kind. -/
structure Stage.Supplied (P : Template → Prop) (s : Stage) : Prop where
  store : s.store.Holds P
  execution : s.execution.Runs P

namespace Stage.Supplied

variable {s : Stage}

theorem operate (h : s.Supplied P) {o : Operation} (ho : o.Brings P) : (s.operate o).Supplied P := by
  cases o with
  | advance => exact ⟨h.store, h.execution.advance (fun _ _ => h.store.of_lookup?) _⟩
  | deliver line => exact ⟨h.store, h.execution.deliver line⟩
  | enter t => exact ⟨h.store, h.execution.enter ho⟩
  | abort error => exact ⟨h.store, h.execution.abort error⟩
  | compile name source => exact ⟨h.store.compile ho, h.execution⟩
  | inform facts => exact ⟨h.store, h.execution⟩

theorem operations (h : s.Supplied P) {operations : List Operation}
    (ho : ∀ o ∈ operations, o.Brings P) : (operations.foldl Stage.operate s).Supplied P := by
  induction operations generalizing s with
  | nil => exact h
  | cons o rest ih =>
    obtain ⟨hfirst, hrest⟩ := List.forall_mem_cons.mp ho
    exact ih (h.operate hfirst) hrest

end Stage.Supplied

end BulletinBoard
