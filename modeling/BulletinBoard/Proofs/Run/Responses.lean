/-
# Captured responses

What a prompt keeps of the line it is given: the content of the line, its first key, or nothing at
all (`Prompt.Stores`). A run stores a value where it is given such a line at a prompt it waits at,
and then has that value for its response; any other event leaves the response as it is and, unless
it is an abort, the wait as well (`Execution.Captures`). So the response is the last of the values
stored along the events (`Execution.Collects.response_meets`), and as only lines are delivered to a
conducted run, each is a text without line feeds that does not end with a carriage return.

Key definitions: `IsAnswer`, `Prompt.Stores`, `Execution.Awaits`, `Execution.Stores`,
`Execution.Captures`, `Execution.Collects`.
Key theorems: `Execution.Sound.captures`, `Execution.Collects.response_meets`,
`captured_responses`.
-/
import BulletinBoard.Proofs.Run.Chronicle

namespace BulletinBoard

open Text Template

/-! ### What a prompt stores -/

/-- A text has no line feed and does not end with a carriage return. -/
structure IsAnswer (s : String) : Prop where
  lineFeed : '\n' ∉ s.toList
  carriageReturn : s.toList.getLast? ≠ some '\r'

/-- What a prompt stores of a line. -/
inductive Template.Prompt.Stores (line : String) : Prompt → String → Prop where
  | line {content : String} (h : IsContent content line) : Stores line .readLine content
  /-- A required answer has a character that is not white space. -/
  | required {content : String} {c : Char} (h : IsContent content line) (hc : c ∈ line.toList)
    (hb : isBlank c = false) : Stores line .answerRequired content
  /-- A blank line has no key. -/
  | noKey {p : Prompt} (hp : p = .menu ∨ p = .choice) (h : IsBlank line) : Stores line p ""
  | key {p : Prompt} {c : Char} (hp : p = .menu ∨ p = .choice) (h : Leads c line) :
    Stores line p (String.singleton c)

namespace Execution

theorem firstKey_of_isBlank {line : String} (h : IsBlank line) : firstKey line = "" := by
  unfold firstKey trim
  rw [String.toList_ofList, trimChars_of_isBlank h]
  rfl

theorem firstKey_of_leads {line : String} {c : Char} (h : Leads c line) :
    firstKey line = String.singleton c := by
  obtain ⟨more, hmore⟩ := trimChars_of_leads h
  unfold firstKey trim
  rw [String.toList_ofList, hmore]
  rfl

end Execution

namespace Template.Prompt

open Execution (answer firstKey firstKey_of_isBlank firstKey_of_leads)

variable {p : Prompt} {line v : String}

/-- What a prompt stores of a line is the answer its wait takes from it. -/
theorem Stores.answer_eq (h : p.Stores line v) (old : Option String) :
    answer p.wait old (trimLineEnd line) = some (some v) := by
  have htrim : IsContent (trimLineEnd line) line := isContent_trimLineEnd line
  have hkey {p : Prompt} (hp : p = .menu ∨ p = .choice) :
      answer p.wait old (trimLineEnd line) = some (some (firstKey (trimLineEnd line))) := by
    rcases hp with rfl | rfl <;> rfl
  cases h with
  | line h =>
    rw [h.eq_trimLineEnd]
    rfl
  | required h hc hb =>
    have hne : (trim (trimLineEnd line)).isEmpty ≠ true := fun hnil => by
      have hblank := (htrim.isBlank_iff).mp (trim_isEmpty_iff.mp hnil)
      exact absurd (hblank _ hc) (by rw [hb]; exact Bool.false_ne_true)
    show (if (trim (trimLineEnd line)).isEmpty then none else some (some (trimLineEnd line))) = _
    rw [if_neg hne, h.eq_trimLineEnd]
  | noKey hp h => rw [hkey hp, firstKey_of_isBlank (htrim.isBlank_iff.mpr h)]
  | key hp h =>
    rcases isBlank_or_leads (trimLineEnd line) with hb | ⟨d, hd⟩
    · exact absurd (htrim.isBlank_iff.mp hb) h.not_isBlank
    · rw [hkey hp, firstKey_of_leads hd, (htrim.leads hd).eq h]

/-- A line of which nothing is stored is dropped or refused. -/
theorem answer_of_not_stores (h : ∀ v, ¬ p.Stores line v) (old : Option String) :
    p = .enter ∨ answer p.wait old (trimLineEnd line) = none := by
  have htrim : IsContent (trimLineEnd line) line := isContent_trimLineEnd line
  have hkey : ¬ (p = .menu ∨ p = .choice) := fun hp => by
    rcases isBlank_or_leads line with hb | ⟨c, hc⟩
    · exact h _ (.noKey hp hb)
    · exact h _ (.key hp hc)
  cases p with
  | readLine => exact absurd (.line htrim) (h _)
  | menu => exact absurd (.inl rfl) hkey
  | choice => exact absurd (.inr rfl) hkey
  | answerRequired =>
    have hblank : IsBlank line := fun c hc => by
      by_contra hb
      exact h _ (.required htrim hc (Bool.eq_false_iff.mpr hb))
    have hempty := trim_isEmpty_iff.mpr (htrim.isBlank_iff.mpr hblank)
    exact .inr (Execution.answer_eq_none_iff.mpr ⟨rfl, hempty⟩)
  | enter => exact .inl rfl

theorem Stores.isAnswer {bytes : List UInt8} (h : p.Stores (Utf8.decodeLossy bytes) v)
    (hb : IsLine bytes) : IsAnswer v := by
  have hcontent {content : String} (hc : IsContent content (Utf8.decodeLossy bytes)) :
      IsAnswer content :=
    ⟨hb.lineFeed_not_mem hc, fun hlast => absurd (hc.last _ hlast) (by decide)⟩
  cases h with
  | line h => exact hcontent h
  | required h _ _ => exact hcontent h
  | noKey _ _ => exact ⟨by decide, by decide⟩
  | @key _ c _ h =>
    obtain ⟨_, _, _, _, hc⟩ := h
    have hne (d : Char) (hd : isBlank d = true) : c ≠ d := fun heq => by
      rw [heq, hd] at hc
      cases hc
    constructor
    · simpa using (hne '\n' (by decide)).symm
    · simpa using hne '\r' (by decide)

end Template.Prompt

/-! ### What a run stores -/

namespace Execution

/-- The run waits at a prompt. -/
structure Awaits (e : Execution) (p : Prompt) : Prop where
  state : e.state = .suspended p.wait
  passed : ∃ f ∈ e.frames.head?, ∃ i, f.passed? = some i ∧ i.kind = .prompt p

/-- The event stores a value: it delivers a line at the prompt the run waits at. -/
def Stores (e : Execution) (x : Event) (v : String) : Prop :=
  ∃ line p, x = .deliver line ∧ e.Awaits p ∧ p.Stores line v

/-- What an event does to the response of a run and to the prompt it waits at. -/
structure Captures (e : Execution) (x : Event) : Prop where
  /-- A run that is suspended waits at a prompt. -/
  awaits : ∀ w, e.state = .suspended w → ∃ p, e.Awaits p ∧ p.wait = w
  /-- A value that is stored is the response, and the wait is over. -/
  stored : ∀ v, e.Stores x v →
    (e.meet x).execution.response = some v ∧ (e.meet x).execution.state = .running
  /-- Where nothing is stored the response stays. -/
  kept : (∀ v, ¬ e.Stores x v) → (e.meet x).execution.response = e.response
  /-- Where nothing is stored the wait goes on, unless any line ends it or it fails. -/
  waits : (∀ v, ¬ e.Stores x v) → ∀ p, e.Awaits p →
    p = .enter ∨ (e.meet x).execution.state = e.state ∨ ∃ error, x = .abort error

variable {e : Execution} {x : Event} {v : String}

theorem Sound.exists_awaits (h : e.Sound) {w : Wait} (hw : e.state = .suspended w) :
    ∃ p, e.Awaits p ∧ p.wait = w := by
  obtain ⟨-, f, hf, i, p, hi, hk, rfl⟩ := h.suspended w hw
  exact ⟨p, ⟨hw, f, hf, i, hi, hk⟩, rfl⟩

theorem meet_of_stores (h : e.Stores x v) :
    (e.meet x).execution = { e with response := some v, state := .running } := by
  obtain ⟨line, p, rfl, hp, hv⟩ := h
  show (e.deliver line).execution = _
  unfold deliver
  rw [hp.state]
  dsimp only
  rw [hv.answer_eq]
  rfl

/-- A line of which nothing is stored leaves the response, and the wait unless any line ends it. -/
theorem deliver_of_not_stores {p : Prompt} (hp : e.Awaits p) {line : String}
    (h : ∀ v, ¬ p.Stores line v) :
    (e.deliver line).execution.response = e.response ∧
      (p = .enter ∨ (e.deliver line).execution = e) := by
  unfold deliver
  rw [hp.state]
  dsimp only
  rcases Prompt.answer_of_not_stores h e.response with rfl | hnone
  · exact ⟨rfl, .inl rfl⟩
  · rw [hnone]
    exact ⟨rfl, .inr rfl⟩

theorem keeps_enter (e : Execution) (t : Template) : e.Keeps (e.enter t).execution := by
  unfold enter
  split <;> exact ⟨rfl, rfl⟩

theorem keeps_abort (e : Execution) (error : RunError) : e.Keeps (e.abort error).execution := by
  unfold abort
  split <;> exact ⟨rfl, rfl⟩

theorem deliver_of_not_suspended (h : ∀ w, e.state ≠ .suspended w) (line : String) :
    (e.deliver line).execution = e := by
  unfold deliver
  split
  · rename_i w hw
    exact absurd hw (h w)
  · rfl

/-- An event that stores nothing leaves the response. -/
theorem Sound.response_meet (hs : e.Sound) (hnone : ∀ v, ¬ e.Stores x v) :
    (e.meet x).execution.response = e.response := by
  cases x with
  | step around => exact (e.keeps_advance around.store around.facts 1).2
  | deliver line =>
    by_cases hw : ∃ w, e.state = .suspended w
    · obtain ⟨w, hw⟩ := hw
      obtain ⟨p, hp, -⟩ := hs.exists_awaits hw
      exact (deliver_of_not_stores hp fun v hv => hnone v ⟨line, p, rfl, hp, hv⟩).1
    · exact congrArg response (deliver_of_not_suspended (fun w h => hw ⟨w, h⟩) line)
  | enter t => exact (e.keeps_enter t).2
  | abort error => exact (e.keeps_abort error).2

/-- An event that stores nothing leaves a run waiting, unless any line ends the wait or it fails. -/
theorem Awaits.state_meet {p : Prompt} (hp : e.Awaits p) (hnone : ∀ v, ¬ e.Stores x v) :
    p = .enter ∨ (e.meet x).execution.state = e.state ∨ ∃ error, x = .abort error := by
  cases x with
  | step around =>
    have hne : e.state ≠ .running := fun hr => by cases hp.state.symm.trans hr
    exact .inr (.inl (congrArg (fun a => a.execution.state) (advance_of_ne_running hne 1)))
  | deliver line =>
    obtain ⟨-, henter | hsame⟩ :=
      deliver_of_not_stores hp fun v hv => hnone v ⟨line, p, rfl, hp, hv⟩
    · exact .inl henter
    · exact .inr (.inl (congrArg Execution.state hsame))
  | enter t =>
    have hsame : (e.enter t).execution = e := by
      unfold enter
      rw [hp.state]
    exact .inr (.inl (congrArg Execution.state hsame))
  | abort error => exact .inr (.inr ⟨error, rfl⟩)

/-- **What a run meets changes its response and ends its wait only as its prompt has it.** -/
theorem Sound.captures (h : e.Sound) (x : Event) : e.Captures x where
  awaits w hw := h.exists_awaits hw
  stored v hv := by
    rw [meet_of_stores hv]
    exact ⟨rfl, rfl⟩
  kept hnone := h.response_meet hnone
  waits hnone p hp := hp.state_meet hnone

/-! ### What is stored along the events -/

/-- The values that are stored along events, in order. -/
inductive Collects : Execution → List Event → List String → Prop where
  | nil (e : Execution) : Collects e [] []
  | stores {e : Execution} {x : Event} {v : String} {events : List Event} {vs : List String}
    (h : e.Stores x v) (rest : Collects (e.meet x).execution events vs) :
    Collects e (x :: events) (v :: vs)
  | passes {e : Execution} {x : Event} {events : List Event} {vs : List String}
    (h : ∀ v, ¬ e.Stores x v) (rest : Collects (e.meet x).execution events vs) :
    Collects e (x :: events) vs

variable {events : List Event} {vs : List String}

theorem exists_collects (events : List Event) (e : Execution) : ∃ vs, e.Collects events vs := by
  induction events generalizing e with
  | nil => exact ⟨[], .nil e⟩
  | cons x rest ih =>
    obtain ⟨vs, hvs⟩ := ih (e.meet x).execution
    by_cases h : ∃ v, e.Stores x v
    · obtain ⟨v, hv⟩ := h
      exact ⟨v :: vs, .stores hv hvs⟩
    · exact ⟨vs, .passes (fun v hv => h ⟨v, hv⟩) hvs⟩

/-- The response is the value stored last, or the one before if none is stored. -/
theorem Collects.response_meets (h : e.Collects events vs) (hs : e.Sound) :
    (e.meets events).execution.response = vs.getLast?.or e.response := by
  induction h with
  | nil e => rfl
  | @stores e x v events vs hv _ ih =>
    have hrest : ((e.meet x).execution.meets events).execution.response =
        vs.getLast?.or (some v) := by
      rw [ih (hs.meet x), ((hs.captures x).stored v hv).1]
    rw [List.getLast?_cons]
    refine hrest.trans ?_
    cases vs.getLast? <;> rfl
  | @passes e x events vs hnone _ ih =>
    exact (ih (hs.meet x)).trans (congrArg _ ((hs.captures x).kept hnone))

theorem Collects.isAnswer (h : e.Collects events vs) (hr : ∀ x ∈ events, x.IsRead) :
    ∀ v ∈ vs, IsAnswer v := by
  induction h with
  | nil e => exact fun v hv => absurd hv List.not_mem_nil
  | @stores e x v events vs hv _ ih =>
    obtain ⟨hx, hrest⟩ := List.forall_mem_cons.mp hr
    refine List.forall_mem_cons.mpr ⟨?_, ih hrest⟩
    obtain ⟨line, p, rfl, -, hstores⟩ := hv
    obtain ⟨bytes, hb, rfl⟩ := hx
    exact hstores.isAnswer hb
  | passes _ _ ih => exact ih (List.forall_mem_cons.mp hr).2

/-- A run that starts without a response has only answers for one, as long as it reads lines. -/
theorem isAnswer_of_response_meets (hs : e.Sound) (hr : ∀ x ∈ events, x.IsRead)
    (hnone : e.response = none) (h : (e.meets events).execution.response = some v) :
    IsAnswer v := by
  obtain ⟨vs, hvs⟩ := e.exists_collects events
  rw [hvs.response_meets hs, hnone, Option.or_none] at h
  exact hvs.isAnswer hr v (List.mem_of_getLast? h)

end Execution

/-! ### Conducted runs -/

theorem Run.opening_cases (charset : Charset) (line : Line) (name : String)
    (reply : Store.Reply RunError) :
    match Run.opening charset line name reply with
    | .inl begun => ∃ t, begun.execution = .start t charset
    | .inr c => c.report.response = none := by
  cases h : reply.result with
  | ok t =>
    rw [opening_of_ok h]
    exact ⟨t, rfl⟩
  | error e =>
    rw [opening_of_error h]

/-- **What a captured response can be.** At every moment of a conducted run, whatever the caller
sends and others do to the store, the response is absent or an answer. It is changed only by what a
prompt stores of a line, as the prompt has it, and the one reported is the value stored last. -/
theorem captured_responses (disk : Disk) (facts : ChangingFacts) (races : Nat → Bool)
    (others : Nat → Others) (turns : Nat) (charset : Charset) (store : Store) (line : Line)
    (name : String) :
    match Run.opening charset line name (store.getOrLoadAmid disk (others 0) name) with
    | .inr c => c.report.response = none
    | .inl begun =>
      let others' := fun n => others (n + 1)
      let events := begun.chronicle disk facts races others' turns
      (begun.driveAmid disk facts races others' turns).execution =
          (begun.execution.meets events).execution ∧
        (∀ before after, events = before ++ after → ∀ v,
          (begun.execution.meets before).execution.response = some v → IsAnswer v) ∧
        (∀ before x after, events = before ++ x :: after →
          (begun.execution.meets before).execution.Captures x) ∧
        ∃ answers, begun.execution.Collects events answers ∧
          ∀ c, conductAmid disk facts races others turns charset store line name = some c →
            c.report.response = answers.getLast? := by
  have hopening := Run.opening_cases charset line name (store.getOrLoadAmid disk (others 0) name)
  unfold conductAmid
  cases hbegun : Run.opening charset line name (store.getOrLoadAmid disk (others 0) name) with
  | inr c =>
    rw [hbegun] at hopening
    exact hopening
  | inl begun =>
    rw [hbegun] at hopening
    obtain ⟨t, ht⟩ := hopening
    have hsound : begun.execution.Sound := ht ▸ Execution.Sound.start t charset
    have hnone : begun.execution.response = none := by
      rw [ht]
      rfl
    dsimp only
    refine ⟨Run.execution_driveAmid .., fun before after hsplit v hv => ?_,
      fun before x after _ => (hsound.meets before).captures x, ?_⟩
    · have hread : ∀ x ∈ before, x.IsRead := fun x hx =>
        Run.isRead_of_mem_chronicle (hsplit ▸ List.mem_append_left after hx)
      exact Execution.isAnswer_of_response_meets hsound hread hnone hv
    · obtain ⟨answers, hanswers⟩ := begun.execution.exists_collects
        (begun.chronicle disk facts races (fun n => others (n + 1)) turns)
      refine ⟨answers, hanswers, fun c hc => ?_⟩
      have hreport : c.report.response = (begun.driveAmid disk facts races
          (fun n => others (n + 1)) turns).execution.response := by
        rw [(Run.over_of_conducted? hc).2]
        rfl
      rw [hreport, Run.execution_driveAmid, hanswers.response_meets hsound, hnone, Option.or_none]

/-- A store with a template that wants an answer and then a key. -/
def inquiringStore : Store := ((Store.empty none).compile "ask" "[ansreq][menu]").store

/-- A caller who sends a blank line, an answer with a space in front, and a key. -/
def hesitantLine : Line :=
  ⟨[10, 32, 121, 101, 115, 13, 10, 9, 107, 13, 10], .closed, none, none, "", [], .never⟩

/-- The blank line is refused, the answer is kept with its space, and the key alone is reported. -/
theorem captured_responses_inquiring :
    ∃ begun c, Run.opening .utf8 hesitantLine "ask"
        (inquiringStore.getOrLoadAmid ⟨.empty, []⟩ undisturbed "ask") = .inl begun ∧
      conductAmid ⟨.empty, []⟩ Facts.empty (fun _ => false) (fun _ => undisturbed) 5 .utf8
        inquiringStore hesitantLine "ask" = some c ∧
      c.report.response = some "k" ∧
      ∃ answers, begun.execution.Collects (begun.chronicle ⟨.empty, []⟩ Facts.empty
        (fun _ => false) (fun _ => undisturbed) 5) answers ∧ answers.getLast? = some "k" := by
  have h := captured_responses ⟨.empty, []⟩ Facts.empty (fun _ => false) (fun _ => undisturbed) 5
    .utf8 inquiringStore hesitantLine "ask"
  have hrun : (conductAmid ⟨.empty, []⟩ Facts.empty (fun _ => false) (fun _ => undisturbed) 5
      .utf8 inquiringStore hesitantLine "ask").map Conducted.report =
        some ⟨.completed, some "k"⟩ := by
    rw [conductAmid_undisturbed]
    decide
  obtain ⟨c, hc, hreport⟩ := Option.map_eq_some_iff.mp hrun
  have hresponse : c.report.response = some "k" := by rw [hreport]
  cases hbegun : Run.opening .utf8 hesitantLine "ask"
      (inquiringStore.getOrLoadAmid ⟨.empty, []⟩ undisturbed "ask") with
  | inr d =>
    rw [hbegun] at h
    unfold conductAmid at hc
    rw [hbegun] at hc
    cases hc
    cases h.symm.trans hresponse
  | inl begun =>
    rw [hbegun] at h
    obtain ⟨-, -, -, answers, hanswers, hlast⟩ := h
    exact ⟨begun, c, rfl, hc, hresponse, answers, hanswers, (hlast c hc).symm.trans hresponse⟩

end BulletinBoard
