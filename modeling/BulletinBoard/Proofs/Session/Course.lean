/-
# A caller's way through the screens

Whatever is reported of the screens a caller is shown, the caller goes from one to the next or is
disconnected, and then stays disconnected. A name is had at the main menu only, by those whom the
login screen let on with an answer that is not blank, and a level only with a name.

What a report leads to is said once (`Session.advancesTo_advance`); what is true of a caller after
any number of reports follows from it, report by report.

Key definitions: `Screen.ahead`, `Report.Admits`, `Session.AdvancesTo`, `Session.Sound`,
`Session.after`, `Session.screens`.
Key theorems: `Session.advancesTo_advance`, `Session.Sound.after`, `Session.screens_eq`,
`Session.named_after_iff`.
-/
import BulletinBoard.Session.Basic

namespace BulletinBoard

open Text

/-- The screens that a caller at this one may still be shown, this one first. -/
def Screen.ahead : Screen → List Screen
  | connect => [connect, login, mainMenu]
  | login => [login, mainMenu]
  | mainMenu => [mainMenu]
  | disconnected => []

/-- A screen is the first of those ahead of it, but for the one that is none. -/
theorem Screen.ahead_eq_cons (x : Screen) : x = .disconnected ∨ x.ahead = x :: x.ahead.tail := by
  cases x <;> simp [ahead]

/-- What is reported of the login screen gives the caller a name: the screen was left by its end or
an exit, with an answer of which this is left without the white space around it. -/
structure Report.Admits (r : Report) (name : String) : Prop where
  outcome : r.outcome = .completed ∨ r.outcome = .halted .exit
  answer : ∃ text, r.response = some text ∧ trim text = name
  nonempty : name ≠ ""

namespace Session

variable {s : Session} {r : Report} {level : Nat}

/-! ### One report -/

theorem lets_eq_true_iff {o : Outcome} :
    lets o = true ↔ o = .completed ∨ o = .halted .exit := by
  unfold lets
  split <;> simp_all

theorem nameIn?_eq_some_iff {response : Option String} {name : String} :
    nameIn? response = some name ↔
      (∃ text, response = some text ∧ trim text = name) ∧ name ≠ "" := by
  cases response with
  | none => simp [nameIn?]
  | some text =>
    have hname : nameIn? (some text) = if (trim text).isEmpty then none else some (trim text) := rfl
    rw [hname]
    split
    · rename_i hb
      rw [String.isEmpty_iff] at hb
      simp [hb, eq_comm]
    · rename_i hb
      rw [String.isEmpty_iff] at hb
      constructor
      · rintro ⟨⟩
        exact ⟨⟨text, rfl, rfl⟩, hb⟩
      · rintro ⟨⟨_, ⟨⟩, rfl⟩, -⟩
        rfl

theorem admits_iff {name : String} :
    r.Admits name ↔ lets r.outcome = true ∧ nameIn? r.response = some name := by
  rw [lets_eq_true_iff, nameIn?_eq_some_iff]
  exact ⟨fun h => ⟨h.outcome, h.answer, h.nonempty⟩, fun ⟨ho, ha, hn⟩ => ⟨ho, ha, hn⟩⟩

theorem eq_of_admits {name other : String} (h : r.Admits name) (h' : r.Admits other) :
    name = other := by
  have hname := (admits_iff.mp h).2
  have hother := (admits_iff.mp h').2
  exact Option.some.inj (hname.symm.trans hother)

/-- What a report leads to. -/
inductive AdvancesTo (s : Session) (r : Report) (level : Nat) : Session → Prop where
  /-- The caller goes on to the login screen. -/
  | greeted (hs : s.screen = .connect) : AdvancesTo s r level { s with screen := .login }
  /-- The caller goes on to the main menu with a name. -/
  | admitted {name : String} (hs : s.screen = .login) (h : r.Admits name) :
    AdvancesTo s r level { s.login name level with screen := .mainMenu }
  /-- The caller goes on to the main menu without a name. -/
  | passed (hs : s.screen = .login) (h : ∀ name, ¬ r.Admits name) :
    AdvancesTo s r level { s with screen := .mainMenu }
  /-- The caller is disconnected. -/
  | dismissed (h : s.screen = .login → ∀ name, ¬ r.Admits name) : AdvancesTo s r level s.logout

/-- Whatever a report leads to is one of these. -/
theorem advancesTo_advance (s : Session) (r : Report) (level : Nat) :
    s.AdvancesTo r level (s.advance r level) := by
  unfold advance
  split
  · rename_i hl
    split
    · rename_i hs
      exact .greeted hs
    · rename_i hs
      split
      · rename_i name hn
        exact .admitted hs (admits_iff.mpr ⟨hl, hn⟩)
      · rename_i hn
        refine .passed hs fun name h => ?_
        cases hn.symm.trans (admits_iff.mp h).2
    · rename_i hs
      exact .dismissed fun h => by cases hs.symm.trans h
    · rename_i hs
      exact .dismissed fun h => by cases hs.symm.trans h
  · rename_i hl
    exact .dismissed fun _ name h => hl (admits_iff.mp h).1

/-- What is true of a caller between two screens. -/
structure Sound (s : Session) : Prop where
  /-- A name is had at the main menu only. -/
  named : s.user ≠ none → s.screen = .mainMenu
  /-- Without a name there is no level. -/
  level : s.user = none → s.level = 0

namespace Sound

theorem start (node : Nat) (peer : String) (timeLimit : Nat) (now : Moment) :
    (Session.start node peer timeLimit now).Sound :=
  ⟨fun h => absurd rfl h, fun _ => rfl⟩

theorem logout (s : Session) : s.logout.Sound := ⟨fun h => absurd rfl h, fun _ => rfl⟩

theorem user_eq_none (h : s.Sound) (hs : s.screen ≠ .mainMenu) : s.user = none :=
  Decidable.byContradiction fun hu => hs (h.named hu)

theorem advance (h : s.Sound) (r : Report) (level : Nat) : (s.advance r level).Sound := by
  have hadvance := s.advancesTo_advance r level
  generalize s.advance r level = s' at hadvance ⊢
  cases hadvance with
  | greeted hs =>
    have hu : s.user = none := h.user_eq_none (by rw [hs]; decide)
    exact ⟨fun hn => absurd hu hn, h.level⟩
  | admitted => exact ⟨fun _ => rfl, fun hn => by cases hn⟩
  | passed => exact ⟨fun _ => rfl, h.level⟩
  | dismissed => exact logout s

end Sound

theorem ahead_advance (s : Session) (r : Report) (level : Nat) :
    (s.advance r level).screen.ahead = s.screen.ahead.tail ∨
      (s.advance r level).screen = .disconnected := by
  have hadvance := s.advancesTo_advance r level
  generalize s.advance r level = s' at hadvance ⊢
  cases hadvance with
  | greeted hs => exact .inl (by rw [hs]; rfl)
  | admitted hs => exact .inl (by rw [hs]; rfl)
  | passed hs => exact .inl (by rw [hs]; rfl)
  | dismissed => exact .inr rfl

/-! ### Any number of reports -/

/-- The session after reports, one after the other. With each comes the level that a login gives. -/
def after (s : Session) (reports : List (Report × Nat)) : Session :=
  reports.foldl (fun s r => s.advance r.1 r.2) s

/-- The screens a caller is at, before the first of some reports and after each of them. -/
def screens (s : Session) : List (Report × Nat) → List Screen
  | [] => [s.screen]
  | (r, level) :: rest => s.screen :: (s.advance r level).screens rest

theorem after_concat (s : Session) (reports : List (Report × Nat)) (r : Report) (level : Nat) :
    s.after (reports ++ [(r, level)]) = (s.after reports).advance r level :=
  List.foldl_append

theorem Sound.after (h : s.Sound) (reports : List (Report × Nat)) : (s.after reports).Sound := by
  induction reports generalizing s with
  | nil => exact h
  | cons r rest ih => exact ih (h.advance r.1 r.2)

/-- A caller is at some of the screens ahead, in order, and is disconnected ever after. -/
theorem screens_eq (s : Session) (reports : List (Report × Nat)) :
    ∃ shown ended, s.screens reports =
      s.screen.ahead.take shown ++ List.replicate ended .disconnected := by
  induction reports generalizing s with
  | nil =>
    rcases s.screen.ahead_eq_cons with hs | hs
    · exact ⟨0, 1, by rw [List.take_zero, screens, hs]; rfl⟩
    · exact ⟨1, 0, by rw [hs]; rfl⟩
  | cons entry rest ih =>
    obtain ⟨r, level⟩ := entry
    obtain ⟨shown, ended, hrest⟩ := ih (s.advance r level)
    have hscreens : s.screens ((r, level) :: rest) =
        s.screen :: ((s.advance r level).screen.ahead.take shown ++
          List.replicate ended .disconnected) := by
      rw [screens, hrest]
    rcases s.screen.ahead_eq_cons with hs | hs
    · -- a caller who is disconnected stays so, and nothing is ahead
      have hnext : (s.advance r level).screen.ahead = [] := by
        rcases s.ahead_advance r level with ha | ha
        · rw [ha, hs]
          rfl
        · rw [ha]
          rfl
      exact ⟨0, ended + 1, by rw [hscreens, hnext, hs, List.take_nil]; rfl⟩
    · rcases s.ahead_advance r level with ha | ha
      · exact ⟨shown + 1, ended, by rw [hscreens, ha, hs]; rfl⟩
      · exact ⟨1, ended, by rw [hscreens, ha, hs, Screen.ahead, List.take_nil]; rfl⟩

/-- A caller has a name just if the last report was of the login screen and gave it, with the
level that came with that report. -/
theorem named_after_iff (h : s.Sound) (hs : s.user = none) (reports : List (Report × Nat))
    (name : String) (level : Nat) :
    (s.after reports).user = some name ∧ (s.after reports).level = level ↔
      ∃ before r, reports = before ++ [(r, level)] ∧ (s.after before).screen = .login ∧
        r.Admits name := by
  rcases List.eq_nil_or_concat reports with rfl | ⟨before, ⟨r, given⟩, rfl⟩
  · have hleft : ¬ (s.after []).user = some name := by
      rw [show (s.after []).user = none from hs]
      exact fun hn => by cases hn
    simp [hleft]
  · have hbefore := h.after before
    rw [List.concat_eq_append, after_concat]
    have hright : (∃ before' r', before ++ [(r, given)] = before' ++ [(r', level)] ∧
        (s.after before').screen = .login ∧ r'.Admits name) ↔
        given = level ∧ (s.after before).screen = .login ∧ r.Admits name := by
      constructor
      · rintro ⟨before', r', happend, hlogin, hadmits⟩
        obtain ⟨rfl, hlast⟩ := List.append_inj' happend rfl
        cases hlast
        exact ⟨rfl, hlogin, hadmits⟩
      · rintro ⟨rfl, hlogin, hadmits⟩
        exact ⟨before, r, rfl, hlogin, hadmits⟩
    rw [hright]
    generalize s.after before = t at hbefore
    have hadvance := t.advancesTo_advance r given
    generalize t.advance r given = t' at hadvance ⊢
    cases hadvance with
    | greeted ht =>
      have hu : t.user = none := hbefore.user_eq_none (by rw [ht]; decide)
      simp [hu, ht]
    | admitted ht hadmits =>
      simp only [login, Option.some.injEq, ht, true_and]
      constructor
      · rintro ⟨rfl, rfl⟩
        exact ⟨rfl, hadmits⟩
      · rintro ⟨rfl, hother⟩
        exact ⟨eq_of_admits hadmits hother, rfl⟩
    | passed ht hnone =>
      have hu : t.user = none := hbefore.user_eq_none (by rw [ht]; decide)
      simp [hu, hnone]
    | dismissed hnone =>
      simp only [logout, reduceCtorEq, false_and, false_iff]
      rintro ⟨-, ht, hadmits⟩
      exact hnone ht name hadmits

end Session

end BulletinBoard
