/-
# A call from screen to screen

A call is shown one screen after the other until the caller is disconnected. Each screen is one run,
and its report moves the session as `Session.advance` says, so what is true of a session after any
reports is true of a call at any of its screens. No call is shown more than three screens, however
many it is given, and when it is over the caller is disconnected and has neither name nor level.

Key definitions: `Board.arrival`, `Board.Visit.conducted?`, `Board.shown`.
Key theorems: `Board.showScreen_eq_some`, `Board.visit_congr`, `Board.of_mem_shown`,
`Board.runs_its_course`.
-/
import BulletinBoard.Board.Basic
import BulletinBoard.Proofs.Session.Course

namespace BulletinBoard

open Text

namespace Board

/-- A call before its first screen. -/
def arrival (around : Surroundings) (b : Board) (peer : String) (line : Line) : Visit :=
  ⟨{ b with calls := b.calls + 1 },
    Session.start (b.calls + 1) peer b.settings.service.sessionTimeout (around.now 0), line, .empty,
    0⟩

/-- What the run of the next screen leaves behind, if it is over in time. -/
def Visit.conducted? (around : Surroundings) (v : Visit) (template : String) : Option Conducted :=
  conduct around.disk (v.facts around) around.races around.turns v.board.settings.display.charset
    v.board.store v.line template

/-- The template of the next screen, if there is one. -/
def Visit.template? (v : Visit) : Option String :=
  v.session.screen.template? v.board.settings.display.screens

/-- A call at each screen it is shown, of at most so many, as it stands when the screen begins. -/
def shown (around : Surroundings) : Nat → Visit → List Visit
  | 0, _ => []
  | screens + 1, v =>
    match v.template? with
    | none => []
    | some template =>
      v :: ((showScreen around v template).map (shown around screens)).getD []

variable {around : Surroundings} {v w : Visit} {template : String}

/-! ### One screen -/

/-- A screen is a run, and its report moves the session. -/
theorem showScreen_eq_some (h : showScreen around v template = some w) :
    ∃ c, v.conducted? around template = some c ∧
      w.session = v.session.advance c.report v.board.settings.identity.defaultLevel ∧
      w.line = c.line ∧ w.board.settings = v.board.settings ∧ w.board.calls = v.board.calls ∧
      w.board.lastUser = remember v.session w.session v.board.lastUser := by
  unfold showScreen at h
  dsimp only at h
  split at h
  · cases h
  · rename_i c hc
    cases h
    exact ⟨c, hc, rfl, rfl, rfl, rfl, rfl⟩

theorem template?_eq_none_iff : v.template? = none ↔ v.session.screen = .disconnected := by
  unfold Visit.template? Screen.template?
  cases v.session.screen <;> simp

theorem ne_disconnected (h : v.template? = some template) : v.session.screen ≠ .disconnected :=
  fun hd => by cases (template?_eq_none_iff.mpr hd).symm.trans h

theorem sound_showScreen (h : showScreen around v template = some w) (hs : v.session.Sound) :
    w.session.Sound := by
  obtain ⟨c, -, hw, -⟩ := showScreen_eq_some h
  rw [hw]
  exact hs.advance _ _

theorem ahead_showScreen (h : showScreen around v template = some w) :
    w.session.screen.ahead.length ≤ v.session.screen.ahead.length - 1 := by
  obtain ⟨c, -, hw, -⟩ := showScreen_eq_some h
  rw [hw, ← List.length_tail]
  rcases v.session.ahead_advance c.report v.board.settings.identity.defaultLevel with ha | ha
  · exact Nat.le_of_eq (congrArg List.length ha)
  · rw [ha]
    exact Nat.zero_le _

/-! ### Screen after screen -/

theorem visit_of_disconnected (h : v.session.screen = .disconnected) (screens : Nat) :
    visit around screens v = some v := by
  have ht : v.template? = none := template?_eq_none_iff.mpr h
  cases screens with
  | zero => rfl
  | succ screens =>
    unfold visit
    rw [show v.session.screen.template? v.board.settings.display.screens = none from ht]

theorem visit_succ (h : v.template? = some template) (screens : Nat) :
    visit around (screens + 1) v = (showScreen around v template).bind (visit around screens) := by
  rw [visit, show v.session.screen.template? v.board.settings.display.screens = some template from h]

theorem shown_succ (h : v.template? = some template) (screens : Nat) :
    shown around (screens + 1) v =
      v :: ((showScreen around v template).map (shown around screens)).getD [] := by
  rw [shown, h]

theorem shown_of_disconnected (h : v.session.screen = .disconnected) (screens : Nat) :
    shown around screens v = [] := by
  cases screens with
  | zero => rfl
  | succ screens =>
    unfold shown
    rw [template?_eq_none_iff.mpr h]

theorem disconnected_or_template (v : Visit) :
    v.session.screen = .disconnected ∨ ∃ template, v.template? = some template := by
  cases ht : v.template? with
  | none => exact .inl (template?_eq_none_iff.mp ht)
  | some template => exact .inr ⟨template, rfl⟩

theorem length_ahead_pos (h : v.template? = some template) :
    0 < v.session.screen.ahead.length := by
  rcases v.session.screen.ahead_eq_cons with hs | hs
  · exact absurd hs (ne_disconnected h)
  · rw [hs]
    exact Nat.succ_pos _

theorem disconnected_of_length_ahead (h : v.session.screen.ahead.length = 0) :
    v.session.screen = .disconnected := by
  rcases disconnected_or_template v with hd | ⟨template, ht⟩
  · exact hd
  · exact absurd h (Nat.ne_of_gt (length_ahead_pos ht))

theorem length_shown_le (screens : Nat) (v : Visit) :
    (shown around screens v).length ≤ v.session.screen.ahead.length := by
  induction screens generalizing v with
  | zero => exact Nat.zero_le _
  | succ screens ih =>
    rcases disconnected_or_template v with hd | ⟨template, ht⟩
    · rw [shown_of_disconnected hd]
      exact Nat.zero_le _
    · have hpos := length_ahead_pos ht
      rw [shown_succ ht, List.length_cons]
      cases hw : showScreen around v template with
      | none => exact hpos
      | some w =>
        have hlast : (shown around screens w).length ≤ v.session.screen.ahead.length - 1 :=
          Nat.le_trans (ih w) (ahead_showScreen hw)
        dsimp only [Option.map_some, Option.getD_some]
        omega

/-- What a screen keeps is so at every screen that is shown. -/
theorem of_mem_shown {P : Visit → Prop}
    (hstep : ∀ {v w : Visit} {template : String}, P v → v.template? = some template →
      showScreen around v template = some w → P w)
    {screens : Nat} (hv : P v) (hw : w ∈ shown around screens v) :
    P w ∧ w.session.screen ≠ .disconnected := by
  induction screens generalizing v with
  | zero => cases hw
  | succ screens ih =>
    rcases disconnected_or_template v with hd | ⟨template, ht⟩
    · rw [shown_of_disconnected hd] at hw
      cases hw
    · rw [shown_succ ht] at hw
      rcases List.mem_cons.mp hw with rfl | hw
      · exact ⟨hv, ne_disconnected ht⟩
      · cases hu : showScreen around v template with
        | none =>
          rw [hu] at hw
          cases hw
        | some u =>
          rw [hu] at hw
          exact ih (hstep hv ht hu) hw

/-- A call that may be shown all the screens ahead is the same, however many more it may be shown. -/
theorem visit_congr {m n : Nat} (hm : v.session.screen.ahead.length ≤ m)
    (hn : v.session.screen.ahead.length ≤ n) : visit around m v = visit around n v := by
  induction m generalizing v n with
  | zero =>
    have hd := disconnected_of_length_ahead (Nat.le_zero.mp hm)
    rw [visit_of_disconnected hd, visit_of_disconnected hd]
  | succ m ih =>
    rcases disconnected_or_template v with hd | ⟨template, ht⟩
    · rw [visit_of_disconnected hd, visit_of_disconnected hd]
    · have hpos := length_ahead_pos ht
      obtain ⟨n, rfl⟩ := Nat.exists_eq_add_of_lt (Nat.lt_of_lt_of_le hpos hn)
      rw [Nat.zero_add, visit_succ ht, visit_succ ht]
      cases hw : showScreen around v template with
      | none => rfl
      | some w =>
        have hnext := ahead_showScreen hw
        exact ih (by omega) (by omega)

/-- A call that is over left its caller disconnected, if it was shown all the screens ahead. -/
theorem disconnected_of_visit {screens : Nat} (hn : v.session.screen.ahead.length ≤ screens)
    (h : visit around screens v = some w) : w.session.screen = .disconnected := by
  induction screens generalizing v with
  | zero =>
    cases h
    exact disconnected_of_length_ahead (Nat.le_zero.mp hn)
  | succ screens ih =>
    rcases disconnected_or_template v with hd | ⟨template, ht⟩
    · rw [visit_of_disconnected hd] at h
      cases h
      exact hd
    · rw [visit_succ ht] at h
      obtain ⟨u, hu, hw⟩ := Option.bind_eq_some_iff.mp h
      have hnext := ahead_showScreen hu
      exact ih (by omega) hw

theorem sound_visit {screens : Nat} (hs : v.session.Sound)
    (h : visit around screens v = some w) : w.session.Sound := by
  induction screens generalizing v with
  | zero =>
    cases h
    exact hs
  | succ screens ih =>
    rcases disconnected_or_template v with hd | ⟨template, ht⟩
    · rw [visit_of_disconnected hd] at h
      cases h
      exact hs
    · rw [visit_succ ht] at h
      obtain ⟨u, hu, hw⟩ := Option.bind_eq_some_iff.mp h
      exact ih (sound_showScreen hu hs) hw

/-! ### Whole calls -/

theorem sound_arrival (around : Surroundings) (b : Board) (peer : String) (line : Line) :
    (arrival around b peer line).session.Sound := .start _ _ _ _

/-- **Callers take their course.** Whatever is reported of the screens, a caller is at the first of
connect, login and main menu, in this order, and then disconnected for ever. The caller has a name
just after a report of the login screen that gave it, with the level that came with that report;
that is at the main menu, and in every other state there is neither name nor level.

So a call is shown at most three screens, more would make no difference, and when it is over the
caller is disconnected, without a name and at level 0. -/
theorem runs_its_course :
    (∀ node peer timeLimit now reports,
      (∃ shown ended, (Session.start node peer timeLimit now).screens reports =
        [Screen.connect, .login, .mainMenu].take shown ++ List.replicate ended .disconnected) ∧
      (∀ name level,
        ((Session.start node peer timeLimit now).after reports).user = some name ∧
            ((Session.start node peer timeLimit now).after reports).level = level ↔
          ∃ before r, reports = before ++ [(r, level)] ∧
            ((Session.start node peer timeLimit now).after before).screen = .login ∧
            r.Admits name) ∧
      ((Session.start node peer timeLimit now).after reports).Sound) ∧
    ∀ around b peer line,
      (∀ screens, (shown around screens (arrival around b peer line)).length ≤ 3) ∧
      (∀ screens, 3 ≤ screens →
        visit around screens (arrival around b peer line) = call around b peer line) ∧
      ∀ v, call around b peer line = some v →
        v.session.screen = .disconnected ∧ v.session.user = none ∧ v.session.level = 0 := by
  refine ⟨fun node peer timeLimit now reports => ?_, fun around b peer line => ?_⟩
  · have hstart : (Session.start node peer timeLimit now).Sound := .start node peer timeLimit now
    exact ⟨Session.screens_eq _ reports, Session.named_after_iff hstart rfl reports,
      hstart.after reports⟩
  · have hahead : (arrival around b peer line).session.screen.ahead.length = 3 := rfl
    refine ⟨fun screens => hahead ▸ length_shown_le screens _, fun screens hn => ?_, fun v h => ?_⟩
    · exact visit_congr (hahead ▸ hn) (Nat.le_of_eq hahead)
    · have hover : v.session.screen = .disconnected :=
        disconnected_of_visit (Nat.le_of_eq hahead) h
      have hsound : v.session.Sound := sound_visit (sound_arrival around b peer line) h
      have hu : v.session.user = none := hsound.user_eq_none (by rw [hover]; decide)
      exact ⟨hover, hu, hsound.level hu⟩

/-! ### A caller in the lobby -/

/-- A greeting, a question for the name, and a menu that tells who the last user was. -/
def lobbyDisk : Disk where
  top := .file "logo.mec" (Utf8.encode "Hi ") <| .file "login.mec" (Utf8.encode "[readln]") <|
    .file "menu.mec" (Utf8.encode "[lastuser]") .empty
  home := []

/-- A board that shows them. -/
def lobbySettings : Settings :=
  { Settings.standard with display := ⟨"/", .utf8, false, ⟨"logo", "login", "menu"⟩⟩ }

/-- The board before its first call. -/
def lobby : Board := ⟨lobbySettings, .empty (some "/"), 0, none⟩

/-- Nothing happens around the calls. -/
def evening : Surroundings := ⟨lobbyDisk, Moment.ofSeconds 0, fun _ => false, 3⟩

/-- The line of a caller who types a name and then hangs on. -/
def namedLine (name : String) : Line :=
  ⟨Utf8.encode (name ++ "\n"), .closed, none, none, "", [], .never⟩

/-- Ada gives her name at the login screen, and her call is over after three screens. -/
theorem runs_its_course_lobby :
    (⟨.halted .exit, some " Ada \r"⟩ : Report).Admits "Ada" ∧
    ((Session.start 1 "10.0.0.1" 10 (.ofSeconds 0)).after
      [(⟨.completed, none⟩, 0), (⟨.halted .exit, some " Ada \r"⟩, 30)]).user = some "Ada" ∧
    visit evening 5 (arrival evening lobby "10.0.0.1" (namedLine "Ada")) =
      call evening lobby "10.0.0.1" (namedLine "Ada") ∧
    ∃ v, call evening lobby "10.0.0.1" (namedLine "Ada") = some v ∧
      v.line.outgoing = Utf8.encode "Hi Ada" ∧ v.session.screen = .disconnected ∧
      v.session.user = none := by
  have hadmits : (⟨.halted .exit, some " Ada \r"⟩ : Report).Admits "Ada" :=
    ⟨.inr rfl, ⟨" Ada \r", rfl, by decide⟩, by decide⟩
  obtain ⟨hsessions, hcalls⟩ := runs_its_course
  obtain ⟨-, hnamed, -⟩ := hsessions 1 "10.0.0.1" 10 (.ofSeconds 0)
    [(⟨.completed, none⟩, 0), (⟨.halted .exit, some " Ada \r"⟩, 30)]
  obtain ⟨-, hmore, hover⟩ := hcalls evening lobby "10.0.0.1" (namedLine "Ada")
  have hline : (call evening lobby "10.0.0.1" (namedLine "Ada")).map (fun v => v.line.outgoing) =
      some (Utf8.encode "Hi Ada") := by
    decide +kernel
  obtain ⟨v, hv, hout⟩ := Option.map_eq_some_iff.mp hline
  obtain ⟨hscreen, huser, -⟩ := hover v hv
  refine ⟨hadmits, ?_, hmore 5 (by decide), v, hv, hout, hscreen, huser⟩
  exact ((hnamed "Ada" 30).mpr ⟨[(⟨.completed, none⟩, 0)], _, rfl, by decide, hadmits⟩).1

end Board

end BulletinBoard
