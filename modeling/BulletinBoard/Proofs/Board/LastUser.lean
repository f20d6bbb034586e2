/-
# Who is remembered as the last user

A board remembers who logged in last, from the moment the login screen is left. So at the connect
screen, at the login screen, and at the main menu of a guest, a template that asks for the last user
is told of an earlier call: the latest in which somebody logged in, whatever became of the calls
since. At the main menu of a caller who has logged in it is told of the caller
(`tells_caller_of_caller`).

Calls come one after the other. What one screen does to the memory is said once
(`showScreen_remembers`); that of a whole call and of any number of calls follows.

Key definitions: `Board.Caller`, `Board.afterCalls`, `Board.Caller.name?`, `Board.namesOf`,
`Board.Visit.Remembers`.
Key theorems: `Board.remembers_of_mem_shown`, `Board.lastUser_call`, `Board.lastUser_afterCalls`,
`Board.last_user_shown`.
-/
import BulletinBoard.Proofs.Board.Visits

namespace BulletinBoard.Board

open Text Template

/-- Somebody who calls: from where, on which line, and what happens around the call. -/
structure Caller where
  around : Surroundings
  peer : String
  line : Line

/-- The call at each of the screens it is shown, as it stands when the screen begins. -/
def Caller.screens (b : Board) (c : Caller) : List Visit :=
  shown c.around screenCount (arrival c.around b c.peer c.line)

/-- The name under which the caller logs in, if the caller does. -/
def Caller.name? (b : Board) (c : Caller) : Option String :=
  (c.screens b).findSome? fun v => v.session.user

/-- What the call comes to, if its runs are over in time. -/
def Caller.call? (b : Board) (c : Caller) : Option Visit := call c.around b c.peer c.line

/-- The board after calls, one after the other, if they are all over in time. -/
def afterCalls (b : Board) : List Caller → Option Board
  | [] => some b
  | c :: rest => (c.call? b).bind fun v => v.board.afterCalls rest

/-- The names under which callers log in who call one after the other. -/
def namesOf (b : Board) : List Caller → List String
  | [] => []
  | c :: rest => (c.name? b).toList ++ ((c.call? b).map fun v => v.board.namesOf rest).getD []

variable {around : Surroundings} {v w : Visit} {template : String} {last : Option String}

/-! ### One screen -/

/-- What is remembered after a screen. Either the caller is disconnected and nothing new is
remembered, or the caller had no name before and is remembered with the one there is now. -/
theorem showScreen_remembers (h : showScreen around v template = some w) (hs : v.session.Sound) :
    w.session.screen = .disconnected ∧ w.board.lastUser = v.board.lastUser ∨
      v.session.user = none ∧ w.board.lastUser = w.session.user.or v.board.lastUser := by
  obtain ⟨c, -, hsession, -, -, -, hlast⟩ := showScreen_eq_some h
  rw [hlast, hsession]
  have hadvance := v.session.advancesTo_advance c.report v.board.settings.identity.defaultLevel
  generalize v.session.advance c.report v.board.settings.identity.defaultLevel = s at hadvance ⊢
  cases hadvance with
  | greeted hv =>
    have hu : v.session.user = none := hs.user_eq_none (by rw [hv]; decide)
    exact .inr ⟨hu, by simp [remember, Session.isLoggedIn, hu]⟩
  | admitted hv =>
    have hu : v.session.user = none := hs.user_eq_none (by rw [hv]; decide)
    exact .inr ⟨hu, by simp [remember, Session.isLoggedIn, Session.login, hu]⟩
  | passed hv =>
    have hu : v.session.user = none := hs.user_eq_none (by rw [hv]; decide)
    exact .inr ⟨hu, by simp [remember, Session.isLoggedIn, hu]⟩
  | dismissed => exact .inl ⟨rfl, by simp [remember]⟩

/-- While the call lasts, what is remembered is the caller's name, or `last` if there is none. -/
def Visit.Remembers (last : Option String) (v : Visit) : Prop :=
  v.session.screen ≠ .disconnected → v.board.lastUser = v.session.user.or last

theorem Visit.Remembers.showScreen (hv : v.Remembers last) (ht : v.template? = some template)
    (hs : v.session.Sound) (h : showScreen around v template = some w) : w.Remembers last := by
  intro hw
  rcases showScreen_remembers h hs with ⟨hd, -⟩ | ⟨hu, hlast⟩
  · exact absurd hd hw
  · rw [hlast, hv (ne_disconnected ht), hu]
    rfl

/-! ### Screen after screen -/

/-- At every screen of a call the same is remembered, but for the caller's name. -/
theorem remembers_of_mem_shown {screens : Nat} (hs : v.session.Sound) (hv : v.Remembers last)
    (hw : w ∈ shown around screens v) :
    w.session.Sound ∧ w.board.lastUser = w.session.user.or last := by
  have hkept : ∀ {v w : Visit} {template : String}, v.session.Sound ∧ v.Remembers last →
      v.template? = some template → Board.showScreen around v template = some w →
        w.session.Sound ∧ w.Remembers last :=
    fun h ht hw => ⟨sound_showScreen hw h.1, h.2.showScreen ht h.1 hw⟩
  obtain ⟨⟨hs, hw⟩, hd⟩ := of_mem_shown hkept ⟨hs, hv⟩ hw
  exact ⟨hs, hw hd⟩

/-- A call that is over leaves remembered the name the caller had at one of its screens, or what was
remembered before. -/
theorem lastUser_visit {screens : Nat} (hn : v.session.screen.ahead.length ≤ screens)
    (hs : v.session.Sound) (hv : v.Remembers last) (hc : v.session.screen ≠ .disconnected)
    (h : visit around screens v = some w) :
    w.board.lastUser = ((shown around screens v).findSome? fun u => u.session.user).or last := by
  induction screens generalizing v with
  | zero => exact absurd (disconnected_of_length_ahead (Nat.le_zero.mp hn)) hc
  | succ screens ih =>
    obtain ⟨template, ht⟩ := (disconnected_or_template v).resolve_left hc
    rw [visit_succ ht] at h
    obtain ⟨u, hu, hw⟩ := Option.bind_eq_some_iff.mp h
    have hshown : shown around (screens + 1) v = v :: shown around screens u := by
      rw [shown_succ ht, hu]
      rfl
    have hsound : u.session.Sound := sound_showScreen hu hs
    rw [hshown, List.findSome?_cons]
    by_cases hd : u.session.screen = .disconnected
    · -- the last screen, at which the caller got no name
      have hlast : u.board.lastUser = v.board.lastUser := by
        rcases showScreen_remembers hu hs with ⟨-, hlast⟩ | ⟨-, hlast⟩
        · exact hlast
        · rw [hlast, hsound.user_eq_none (by rw [hd]; decide)]
          rfl
      have hwu : some u = some w := (visit_of_disconnected hd screens).symm.trans hw
      rw [shown_of_disconnected hd, ← Option.some.inj hwu, hlast, hv hc]
      cases v.session.user <;> rfl
    · have hnone : v.session.user = none := by
        rcases showScreen_remembers hu hs with ⟨hover, -⟩ | ⟨hnone, -⟩
        · exact absurd hover hd
        · exact hnone
      have hahead := ahead_showScreen hu
      rw [hnone]
      exact ih (by omega) hsound (hv.showScreen ht hs hu) hd hw

/-! ### Calls -/

theorem Caller.arrival_mem_screens (b : Board) (c : Caller) :
    arrival c.around b c.peer c.line ∈ c.screens b := by
  obtain ⟨template, ht⟩ :=
    (disconnected_or_template (arrival c.around b c.peer c.line)).resolve_left fun hd => by cases hd
  rw [Caller.screens, show screenCount = 2 + 1 from rfl, shown_succ ht]
  exact List.mem_cons_self

theorem remembers_arrival (around : Surroundings) (b : Board) (peer : String) (line : Line) :
    (arrival around b peer line).Remembers b.lastUser := fun _ => rfl

theorem lastUser_call {b : Board} {c : Caller} (h : c.call? b = some v) :
    v.board.lastUser = (c.name? b).or b.lastUser :=
  lastUser_visit (Nat.le_refl _) (sound_arrival _ _ _ _) (remembers_arrival _ _ _ _)
    (fun hd => by cases hd) h

/-- After calls, the name is remembered under which somebody logged in last. -/
theorem lastUser_afterCalls {b b' : Board} {callers : List Caller}
    (h : b.afterCalls callers = some b') :
    b'.lastUser = (b.namesOf callers).getLast?.or b.lastUser := by
  induction callers generalizing b with
  | nil =>
    cases h
    rfl
  | cons c rest ih =>
    obtain ⟨v, hv, hrest⟩ := Option.bind_eq_some_iff.mp h
    have hnames : b.namesOf (c :: rest) = (c.name? b).toList ++ v.board.namesOf rest := by
      rw [namesOf, hv]
      rfl
    rw [ih hrest, lastUser_call hv, hnames, List.getLast?_append, Option.or_assoc]
    cases c.name? b <;> rfl

theorem lastUser_of_open? {disk : Disk} {settings : Settings} {b : Board} {log : Log}
    (h : open? disk settings = .ok (b, log)) : b.lastUser = none := by
  unfold open? at h
  dsimp only at h
  split at h
  · split at h <;> cases h
    rfl
  · cases h
    rfl

/-- **The last user, screen by screen.** On a board that was opened and has taken any calls, one
after the other, the next caller's templates are told as the last user, whenever they ask: where the
caller has no name, the name under which somebody logged in last in the calls before, and nothing if
nobody did; where the caller has a name, which is at the main menu, that name. -/
theorem last_user_shown {disk : Disk} {settings : Settings} {b b' : Board} {log : Log}
    (hb : open? disk settings = .ok (b, log)) {earlier : List Caller}
    (hb' : b.afterCalls earlier = some b') (c : Caller) :
    ∀ v ∈ c.screens b',
      (v.session.user = none → ∀ n, v.facts c.around n .lastUser = (b.namesOf earlier).getLast?) ∧
      ∀ name, v.session.user = some name →
        v.session.screen = .mainMenu ∧ ∀ n, v.facts c.around n .lastUser = some name := by
  intro v hv
  have hlast : b'.lastUser = (b.namesOf earlier).getLast? := by
    rw [lastUser_afterCalls hb', lastUser_of_open? hb, Option.or_none]
  obtain ⟨hsound, hremembers⟩ :=
    remembers_of_mem_shown (sound_arrival _ _ _ _) (remembers_arrival _ _ _ _) hv
  have hfact (n : Nat) : v.facts c.around n .lastUser = v.board.lastUser := rfl
  simp only [hfact]
  rw [hremembers, hlast]
  refine ⟨fun hu n => by rw [hu]; rfl, fun name hu => ⟨hsound.named ?_, fun n => by rw [hu]; rfl⟩⟩
  rw [hu]
  exact Option.some_ne_none name

/-- A caller in the lobby who gives this name. -/
def named (name : String) : Caller := ⟨evening, "10.0.0.1", namedLine name⟩

/-- After Bob has called and a guest, Ada is greeted as somebody who comes after Bob. -/
theorem last_user_shown_lobby :
    open? lobbyDisk lobbySettings = .ok (lobby, .empty) ∧
    ∃ b', lobby.afterCalls [named "Bob", named ""] = some b' ∧
      lobby.namesOf [named "Bob", named ""] = ["Bob"] ∧
      ∃ v ∈ (named "Ada").screens b', v.session.screen = .connect ∧ v.session.user = none ∧
        ∀ n, v.facts evening n .lastUser = some "Bob" := by
  have hopen : open? lobbyDisk lobbySettings = .ok (lobby, .empty) := rfl
  have hcalls : (lobby.afterCalls [named "Bob", named ""]).isSome = true := by decide +kernel
  obtain ⟨b', hb'⟩ := Option.isSome_iff_exists.mp hcalls
  have hnames : lobby.namesOf [named "Bob", named ""] = ["Bob"] := by decide +kernel
  have hfirst := (named "Ada").arrival_mem_screens b'
  have htold := (last_user_shown hopen hb' (named "Ada") _ hfirst).1 rfl
  rw [hnames] at htold
  exact ⟨hopen, b', hb', hnames, _, hfirst, rfl, rfl, htold⟩

/-- At her main menu Ada is told of herself, and not of Bob, who called before her. -/
theorem tells_caller_of_caller :
    open? lobbyDisk lobbySettings = .ok (lobby, .empty) ∧
    (lobby.namesOf [named "Bob"]).getLast? = some "Bob" ∧
    (lobby.afterCalls [named "Bob"]).map (fun b' => ((named "Ada").screens b').map
      fun v => (v.session.screen, v.facts evening 0 .lastUser)) =
        some [(.connect, some "Bob"), (.login, some "Bob"), (.mainMenu, some "Ada")] :=
  ⟨rfl, by decide +kernel, by decide +kernel⟩

end BulletinBoard.Board
