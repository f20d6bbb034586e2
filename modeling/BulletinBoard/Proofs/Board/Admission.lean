/-
# Nobody too many is let in

An arrival is counted before it is judged, and one that is turned away is counted out only later. So
the count may be above the limit for a while, and calls may end at any of these moments. Still no
more calls are served than the limit allows, and the count is that of the calls served and of the
arrival at the door (`Reception.Sound`). Who is turned away found as many calls counted as the limit
allows, and leaves no trace: without that arrival, the same events lead to the same state
(`Reception.run?_turnedAway`).

What happens elsewhere does not depend on who is at the door (`Reception.run?_joined`).

Key definitions: `Reception.run?`, `Reception.LeadsTo`, `Reception.Sound`, `Reception.joined`.
Key theorems: `Reception.Sound.run?`, `Reception.run?_joined`, `Reception.keeps_limit`.
-/
import BulletinBoard.Board.Reception

namespace BulletinBoard

/-- How many the arrival at the door adds to the count. -/
def Arrival.weight : Arrival → Nat
  | nobody => 0
  | counted _ | turnedAway => 1

namespace Reception

/-- Whether an event is one of the arrival at the door. -/
def Event.atDoor : Event → Bool
  | arrive | judge | dismiss => true
  | hangUp | shut => false

/-- What events lead to, one after the other, if each of them can happen. -/
def run? (r : Reception) : List Event → Option Reception
  | [] => some r
  | event :: rest => (r.step? event).bind fun r' => r'.run? rest

variable {r r' : Reception} {event : Event} {history : List Event}

theorem run?_cons_eq_some :
    r.run? (event :: history) = some r' ↔
      ∃ next, r.step? event = some next ∧ next.run? history = some r' :=
  Option.bind_eq_some_iff

theorem run?_append_eq_some {earlier later : List Event} :
    r.run? (earlier ++ later) = some r' ↔
      ∃ between, r.run? earlier = some between ∧ between.run? later = some r' := by
  induction earlier generalizing r with
  | nil => simp [run?]
  | cons event earlier ih =>
    rw [List.cons_append, run?_cons_eq_some]
    simp only [ih, run?_cons_eq_some]
    constructor
    · rintro ⟨next, hnext, between, hbetween, hr'⟩
      exact ⟨between, ⟨next, hnext, hbetween⟩, hr'⟩
    · rintro ⟨between, ⟨next, hnext, hbetween⟩, hr'⟩
      exact ⟨next, hnext, between, hbetween, hr'⟩

theorem run?_concat_eq_some {event : Event} :
    r.run? (history ++ [event]) = some r' ↔
      ∃ last, r.run? history = some last ∧ last.step? event = some r' := by
  rw [run?_append_eq_some]
  simp [run?]

/-! ### What an event leads to -/

/-- What an event leads to, and when it can happen. -/
inductive LeadsTo (r : Reception) : Event → Reception → Prop where
  | arrived (ha : r.accepting = true) (hn : r.arrival = .nobody) :
    LeadsTo r .arrive { r with active := r.active + 1, arrival := .counted r.active }
  | refused {before : Nat} (hc : r.arrival = .counted before) (hl : r.limit ≤ before) :
    LeadsTo r .judge { r with arrival := .turnedAway }
  | admitted {before : Nat} (hc : r.arrival = .counted before) (hl : before < r.limit) :
    LeadsTo r .judge { r with arrival := .nobody, served := r.served + 1 }
  | dismissed (ht : r.arrival = .turnedAway) :
    LeadsTo r .dismiss { r with active := r.active - 1, arrival := .nobody }
  | ended (hs : 0 < r.served) :
    LeadsTo r .hangUp { r with active := r.active - 1, served := r.served - 1 }
  | closed (ha : r.accepting = true) : LeadsTo r .shut { r with accepting := false }

theorem leadsTo_of_step? (h : r.step? event = some r') : r.LeadsTo event r' := by
  cases event with
  | arrive =>
    simp only [step?, Bool.and_eq_true, beq_iff_eq, Option.ite_none_right_eq_some] at h
    obtain ⟨⟨ha, hn⟩, h⟩ := h
    cases h
    exact .arrived ha hn
  | judge =>
    simp only [step?] at h
    split at h
    · rename_i before hc
      by_cases hl : r.limit ≤ before
      · rw [if_pos hl] at h
        cases h
        exact .refused hc hl
      · rw [if_neg hl] at h
        cases h
        exact .admitted hc (Nat.lt_of_not_le hl)
    · cases h
  | dismiss =>
    simp only [step?] at h
    split at h
    · rename_i ht
      cases h
      exact .dismissed ht
    · cases h
  | hangUp =>
    simp only [step?, Option.ite_none_left_eq_some] at h
    obtain ⟨hs, h⟩ := h
    cases h
    exact .ended (Nat.pos_of_ne_zero hs)
  | shut =>
    simp only [step?, Option.ite_none_right_eq_some] at h
    obtain ⟨ha, h⟩ := h
    cases h
    exact .closed ha

/-! ### What is always so -/

/-- What is true of a reception at any moment. -/
structure Sound (r : Reception) : Prop where
  served : r.served ≤ r.limit
  active : r.active = r.served + r.arrival.weight
  /-- As many as were counted before the arrival were served then, and none has come since. -/
  before : ∀ n, r.arrival = .counted n → r.served ≤ n ∧ n ≤ r.limit

namespace Sound

theorem start (limit : Nat) : (Reception.start limit).Sound :=
  ⟨Nat.zero_le _, rfl, fun n hn => by cases hn⟩

/-- **An event keeps the reception sound.** The arrival that is let in found room when it was
counted, and there is as much room now or more. -/
theorem step? (h : r.Sound) (hstep : r.step? event = some r') : r'.Sound := by
  have hserved := h.served
  have hactive := h.active
  cases leadsTo_of_step? hstep with
  | arrived ha hn =>
    have hcount : r.active = r.served := by
      simpa [hn, Arrival.weight] using hactive
    refine ⟨hserved, ?_, ?_⟩
    · simp [Arrival.weight, hcount]
    · intro n hn'
      cases hn'
      simp only
      omega
  | refused hc hl =>
    rw [hc] at hactive
    exact ⟨hserved, hactive, fun n hn => by cases hn⟩
  | admitted hc hl =>
    have hroom := (h.before _ hc).1
    rw [hc] at hactive
    exact ⟨Nat.lt_of_le_of_lt hroom hl, hactive, fun n hn => by cases hn⟩
  | dismissed ht =>
    simp only [ht, Arrival.weight] at hactive
    refine ⟨hserved, ?_, fun n hn => by cases hn⟩
    simp [Arrival.weight, hactive]
  | ended hs =>
    refine ⟨Nat.le_trans (Nat.sub_le _ _) hserved, ?_, fun n hn => ?_⟩
    · simp only
      omega
    · have hbefore := h.before n hn
      simp only
      omega
  | closed ha => exact ⟨hserved, hactive, h.before⟩

theorem run? (h : r.Sound) (hrun : r.run? history = some r') : r'.Sound := by
  induction history generalizing r with
  | nil =>
    cases hrun
    exact h
  | cons event history ih =>
    obtain ⟨next, hnext, hrest⟩ := run?_cons_eq_some.mp hrun
    exact ih (h.step? hnext) hrest

theorem active_of_out (h : r.Sound) (hstep : r.step? event = some r')
    (hout : event = .dismiss ∨ event = .hangUp) : r'.active + 1 = r.active := by
  have hactive := h.active
  cases leadsTo_of_step? hstep with
  | dismissed ht =>
    simp only [ht, Arrival.weight] at hactive
    simp only
    omega
  | ended hs =>
    simp only
    omega
  | arrived | refused | admitted | closed => simp at hout

end Sound

theorem limit_of_step? (hstep : r.step? event = some r') : r'.limit = r.limit := by
  cases leadsTo_of_step? hstep <;> rfl

theorem limit_of_run? (hrun : r.run? history = some r') : r'.limit = r.limit := by
  induction history generalizing r with
  | nil =>
    cases hrun
    rfl
  | cons event history ih =>
    obtain ⟨next, hnext, hrest⟩ := run?_cons_eq_some.mp hrun
    exact (ih hrest).trans (limit_of_step? hnext)

/-- The count is of those who were counted in and not out. -/
theorem active_of_run? (h : r.Sound) (hrun : r.run? history = some r') :
    r'.active + history.count .dismiss + history.count .hangUp =
      r.active + history.count .arrive := by
  induction history generalizing r with
  | nil =>
    cases hrun
    simp
  | cons event history ih =>
    obtain ⟨next, hnext, hrest⟩ := run?_cons_eq_some.mp hrun
    have hlater := ih (h.step? hnext) hrest
    have hout := h.active_of_out hnext
    simp only [List.count_cons, beq_iff_eq]
    cases leadsTo_of_step? hnext with
    | arrived | refused | admitted | closed =>
      simp only at hlater
      simp
      omega
    | dismissed | ended =>
      simp at hout
      simp only at hlater
      simp
      omega

/-! ### Without the arrival -/

/-- The reception with somebody at the door, who is counted. -/
def joined (r : Reception) (a : Arrival) : Reception :=
  { r with active := r.active + a.weight, arrival := a }

/-- What happens elsewhere leaves the door alone, and does not depend on who is there. -/
theorem step?_joined (h : r.Sound) (hdoor : event.atDoor = false) (a : Arrival) :
    (r.joined a).step? event = (r.step? event).map (joined · a) := by
  have hactive := h.active
  cases event with
  | hangUp =>
    simp only [step?, joined]
    by_cases hs : r.served = 0
    · simp [hs]
    · have hless : r.active + a.weight - 1 = r.active - 1 + a.weight := by omega
      simp [hs, hless]
  | shut =>
    simp only [step?, joined]
    by_cases ha : r.accepting = true
    · simp [ha]
    · simp [ha]
  | arrive | judge | dismiss => cases hdoor

theorem run?_joined (h : r.Sound) (hdoor : ∀ e ∈ history, e.atDoor = false) (a : Arrival) :
    (r.joined a).run? history = (r.run? history).map (joined · a) := by
  induction history generalizing r with
  | nil => rfl
  | cons event history ih =>
    obtain ⟨hfirst, hrest⟩ := List.forall_mem_cons.mp hdoor
    rw [run?, run?, step?_joined h hfirst]
    cases hstep : r.step? event with
    | none => rfl
    | some next => exact ih (h.step? hstep) hrest

theorem arrival_of_run? (hdoor : ∀ e ∈ history, e.atDoor = false)
    (hrun : r.run? history = some r') : r'.arrival = r.arrival := by
  induction history generalizing r with
  | nil =>
    cases hrun
    rfl
  | cons event history ih =>
    obtain ⟨hfirst, hrest⟩ := List.forall_mem_cons.mp hdoor
    obtain ⟨next, hnext, hrun⟩ := run?_cons_eq_some.mp hrun
    have hsame : next.arrival = r.arrival := by
      cases leadsTo_of_step? hnext with
      | ended | closed => rfl
      | arrived | refused | admitted | dismissed => cases hfirst
    exact (ih hrest hrun).trans hsame

theorem told?_eq_some_iff {text : String} : r.told? event = some text ↔
    event = .dismiss ∧ r.arrival = .turnedAway ∧ text = busyMessage := by
  unfold told?
  cases event with
  | dismiss => cases r.arrival <;> simp [eq_comm]
  | arrive | judge | hangUp | shut => simp

/-- An arrival that is judged while things happen elsewhere is turned away or let in by the count
it found. -/
theorem run?_judged {waiting : List Event} {judged : Reception} (h : r.Sound)
    (hdoor : ∀ e ∈ waiting, e.atDoor = false)
    (hrun : r.run? (.arrive :: (waiting ++ [.judge])) = some judged) :
    r.arrival = .nobody ∧ ∃ meanwhile, r.run? waiting = some meanwhile ∧
      (r.limit ≤ r.active ∧ judged = meanwhile.joined .turnedAway ∨
        r.active < r.limit ∧ judged.arrival = .nobody) := by
  obtain ⟨counted, harrive, hrun⟩ := run?_cons_eq_some.mp hrun
  obtain ⟨waited, hwaited, hjudge⟩ := run?_concat_eq_some.mp hrun
  cases leadsTo_of_step? harrive with
  | arrived ha hn =>
    have hcounted : { r with active := r.active + 1, arrival := .counted r.active } =
        r.joined (.counted r.active) := rfl
    rw [hcounted, run?_joined h hdoor] at hwaited
    obtain ⟨meanwhile, hmeanwhile, rfl⟩ := Option.map_eq_some_iff.mp hwaited
    have hlimit := limit_of_run? hmeanwhile
    refine ⟨hn, meanwhile, hmeanwhile, ?_⟩
    cases leadsTo_of_step? hjudge with
    | refused hc hl =>
      cases hc
      exact .inl ⟨hlimit ▸ hl, rfl⟩
    | admitted hc hl =>
      cases hc
      exact .inr ⟨hlimit ▸ hl, rfl⟩

/-- **Who is turned away leaves no trace.** What happens meanwhile leads to the same state without
that arrival. -/
theorem run?_turnedAway {leaving : List Event} {left : Reception} (h : r.Sound)
    (hn : r.arrival = .nobody) (hdoor : ∀ e ∈ leaving, e.atDoor = false)
    (hrun : (r.joined .turnedAway).run? (leaving ++ [.dismiss]) = some left) :
    r.run? leaving = some left := by
  obtain ⟨last, hlast, hdismiss⟩ := run?_concat_eq_some.mp hrun
  rw [run?_joined h hdoor] at hlast
  obtain ⟨meanwhile, hmeanwhile, rfl⟩ := Option.map_eq_some_iff.mp hlast
  have hnobody : meanwhile.arrival = .nobody := (arrival_of_run? hdoor hmeanwhile).trans hn
  cases leadsTo_of_step? hdismiss with
  | dismissed =>
    rw [hmeanwhile]
    congr 1
    simp [joined, Arrival.weight, ← hnobody]

/-- **The limit is kept, whenever calls come and end.** After any history no more calls are served
than the limit allows. The count is of the calls served and the arrival at the door, so that of all
who were counted in and not out, and nobody is counted out who is not counted. An arrival is
turned away just if it found as many calls as the limit allows, all of them served, and no other
is told that all are busy when it is counted out, whatever has happened elsewhere by then. If it is
turned away, what happens before and after it is judged leads to the same state without it. -/
theorem keeps_limit {limit : Nat} (h : (Reception.start limit).run? history = some r) :
    r.served ≤ limit ∧
    r.active = r.served + r.arrival.weight ∧
    r.active + history.count .dismiss + history.count .hangUp = history.count .arrive ∧
    (∀ event r', r.step? event = some r' → event = .dismiss ∨ event = .hangUp →
      r'.active + 1 = r.active) ∧
    ∀ waiting judged, (∀ e ∈ waiting, e.atDoor = false) →
      r.run? (.arrive :: (waiting ++ [.judge])) = some judged →
      (judged.arrival = .turnedAway ↔ r.active = limit ∧ r.served = limit) ∧
      (∀ leaving last, (∀ e ∈ leaving, e.atDoor = false) → judged.run? leaving = some last →
        (last.told? .dismiss = some busyMessage ↔ r.active = limit ∧ r.served = limit)) ∧
      ∀ leaving left, (∀ e ∈ leaving, e.atDoor = false) → judged.arrival = .turnedAway →
        judged.run? (leaving ++ [.dismiss]) = some left →
          r.run? (waiting ++ leaving) = some left := by
  have hsound : r.Sound := (Sound.start limit).run? h
  have hlimit : r.limit = limit := limit_of_run? h
  have hserved : r.served ≤ limit := hlimit ▸ hsound.served
  have hledger := active_of_run? (Sound.start limit) h
  have hzero : (Reception.start limit).active = 0 := rfl
  refine ⟨hserved, hsound.active, by omega, fun event r' => hsound.active_of_out, ?_⟩
  intro waiting judged hwaiting hjudged
  obtain ⟨hn, meanwhile, hmeanwhile, hcases⟩ := run?_judged hsound hwaiting hjudged
  have hactive : r.active = r.served := by
    simpa [hn, Arrival.weight] using hsound.active
  have hfull : judged.arrival = .turnedAway ↔ r.active = limit ∧ r.served = limit := by
    rcases hcases with ⟨hl, rfl⟩ | ⟨hl, ha⟩
    · have hfull : r.active = limit ∧ r.served = limit := by omega
      simp [joined, hfull]
    · have hfree : r.active ≠ limit := by omega
      simp [ha, hfree]
  refine ⟨hfull, ?_, ?_⟩
  · intro leaving last hleaving hlast
    rw [told?_eq_some_iff, arrival_of_run? hleaving hlast, ← hfull]
    simp
  · intro leaving left hleaving ht hleft
    rcases hcases with ⟨hl, rfl⟩ | ⟨hl, ha⟩
    · have hnobody : meanwhile.arrival = .nobody :=
        (arrival_of_run? hwaiting hmeanwhile).trans hn
      have hlater := run?_turnedAway (hsound.run? hmeanwhile) hnobody hleaving hleft
      exact run?_append_eq_some.mpr ⟨meanwhile, hmeanwhile, hlater⟩
    · rw [ha] at ht
      cases ht

/-! ### A door for one -/

/-- One call is served at a door for one, and ends while the next caller is being judged. That
caller is turned away all the same, and told so after the reception was shut. -/
theorem keeps_limit_race :
    (Reception.start 1).run? [.arrive, .judge] = some ⟨1, 1, 1, .nobody, true⟩ ∧
    (⟨1, 1, 1, .nobody, true⟩ : Reception).run? [.arrive, .hangUp, .judge] =
      some ⟨1, 1, 0, .turnedAway, true⟩ ∧
    (⟨1, 1, 0, .turnedAway, true⟩ : Reception).run? [.shut, .dismiss] =
      some ⟨1, 0, 0, .nobody, false⟩ ∧
    (⟨1, 1, 0, .turnedAway, false⟩ : Reception).told? .dismiss = some busyMessage ∧
    (⟨1, 1, 1, .nobody, true⟩ : Reception).run? [.hangUp, .shut] =
      some ⟨1, 0, 0, .nobody, false⟩ := by
  have hone : (Reception.start 1).run? [.arrive, .judge] = some ⟨1, 1, 1, .nobody, true⟩ := rfl
  obtain ⟨-, -, -, -, hnext⟩ := keeps_limit hone
  have hjudged : (⟨1, 1, 1, .nobody, true⟩ : Reception).run? [.arrive, .hangUp, .judge] =
      some ⟨1, 1, 0, .turnedAway, true⟩ := rfl
  obtain ⟨-, htold, htrace⟩ := hnext [.hangUp] _ (by decide) hjudged
  have hbusy : (⟨1, 1, 0, .turnedAway, false⟩ : Reception).told? .dismiss = some busyMessage :=
    (htold [.shut] _ (by decide) rfl).mpr ⟨rfl, rfl⟩
  exact ⟨hone, hjudged, rfl, hbusy, htrace [.shut] _ (by decide) rfl rfl⟩

end Reception

end BulletinBoard
