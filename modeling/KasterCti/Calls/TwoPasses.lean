import KasterCti.Calls.Columns

/-!
# Two passes over the events of a call

Recovery feeds processed events to the engine again. The precedence guard covers
the status only; what else an event writes is written again: the clock of the
second pass where the event is stamped by the clock, a hold interval once more, a
reported talk or hold time over the one computed at the hangup.

`Scan` reads off the events of one call which of these happen. The passes are
compared step by step: `p` are the columns of the first pass, `q` those of the
second, and `f` those of the row in between, in which the first pass ended and
the second one starts.

Results:
1. `TimesPass.step`: the timestamps of both passes.
2. `EndedPass.step`: a call that the first pass leaves ended.
3. `OpenPass.step`, `HoldPass.step`, `UnholdPass.step`: a call that goes on.
-/

namespace KasterCti.Calls

open JsText

/-! ## The scan -/

/-- What matters for a replay in the events of one call read so far. A timestamp
is `some true` when the clock wrote it last, `some false` when the event did. -/
structure Scan where
  present : Bool
  ended : Bool
  queued : Option Bool := none
  ringing : Option Bool := none
  answered : Option Bool := none
  /-- A talk time was reported, and one was reported after the end. -/
  talk : Bool := false
  talkLate : Bool := false
  held : Bool := false
  heldLate : Bool := false
  hangup : Bool := false
  hold : Bool := false
  unhold : Bool := false

def Scan.start (found : Option CallSession) : Scan :=
  { present := found.isSome
    ended := match found with
      | some row => row.sessionStatus = .ended
      | none => false }

/-- The last writer of a timestamp, after one more event. -/
def lastWriter (writer : Option Bool) (writes clocked : Bool) : Option Bool :=
  if writes then some clocked else writer

def Scan.step (s : Scan) (event : AmiEvent) : Scan :=
  { present := s.present || event.creates
    ended := s.ended || (s.present && event.endsCall)
    queued := lastWriter s.queued (event.queuedWrite 0).isSome event.clocked
    ringing := lastWriter s.ringing (event.ringingWrite 0).isSome event.clocked
    answered := lastWriter s.answered (event.answeredWrite 0).isSome event.clocked
    talk := s.talk || event.talkReport.isSome
    talkLate := s.talkLate || (s.ended && event.talkReport.isSome)
    held := s.held || event.holdReport.isSome
    heldLate := s.heldLate || (s.ended && event.holdReport.isSome)
    hangup := s.hangup || event.endsCall
    hold := s.hold || event.eventName = .hold
    unhold := s.unhold || event.eventName = .unhold }

/-- No timestamp was last written by the clock. -/
def Scan.timesSafe (s : Scan) : Bool :=
  s.queued ≠ some true && s.ringing ≠ some true && s.answered ≠ some true

/-- The durations survive. In an ended call a reported time must be the last
word: reported again after the end. In a call that goes on there is no hangup
(one that came before the session and would end it now) and not both a hold and
an unhold. -/
def Scan.durationsSafe (s : Scan) : Bool :=
  if s.ended then (!s.talk || s.talkLate) && (!s.held || s.heldLate)
  else !s.present || (!s.hangup && !(s.hold && s.unhold))

def Scan.safe (s : Scan) : Bool := s.timesSafe && s.durationsSafe

/-! ## Timestamps -/

/-- A timestamp in both passes, `first` and `second`, and in the row in between. -/
def TimeTrack (writer : Option Bool) (first second final : Option Time) : Prop :=
  match writer with
  | none => second = final
  | some false => second = first
  | some true => ∃ a b, first = some a ∧ second = some b ∧ a < b

/-- The writes of one event in both passes. -/
def Rewritten (writes clocked : Bool) (first second : Option Time) : Prop :=
  match writes, clocked with
  | false, _ => first = none ∧ second = none
  | true, false => first.isSome = true ∧ second = first
  | true, true => ∃ a b, first = some a ∧ second = some b ∧ a < b

theorem TimeTrack.step {writer : Option Bool} {x y z first second : Option Time}
    {writes clocked : Bool} (h : TimeTrack writer x y z)
    (hw : Rewritten writes clocked first second) :
    TimeTrack (lastWriter writer writes clocked) (first <|> x) (second <|> y) z := by
  cases writes with
  | false =>
    obtain ⟨rfl, rfl⟩ := hw
    simpa [lastWriter] using h
  | true =>
    cases clocked with
    | false =>
      obtain ⟨hsome, rfl⟩ := hw
      obtain ⟨a, rfl⟩ := Option.isSome_iff_exists.1 hsome
      rfl
    | true =>
      obtain ⟨a, b, rfl, rfl, hlt⟩ := hw
      exact ⟨a, b, rfl, rfl, hlt⟩

/-- At the end of the first pass: the second one has the same timestamp exactly
when the clock did not write it last. -/
theorem TimeTrack.final_iff {writer : Option Bool} {x y : Option Time} (h : TimeTrack writer x y x) :
    y = x ↔ writer ≠ some true := by
  match writer, h with
  | none, h => exact ⟨by simp, fun _ => h⟩
  | some false, h => exact ⟨by simp, fun _ => h⟩
  | some true, ⟨a, b, ha, hb, hlt⟩ =>
    refine ⟨?_, by simp⟩
    intro hyx
    rw [hyx, ha] at hb
    cases hb
    exact absurd hlt (lt_irrefl _)

section Rewrites

variable (event : AmiEvent) {now later : Time}

theorem rewritten_clock (h : now < later) : Rewritten true true (some now) (some later) :=
  ⟨now, later, rfl, rfl, h⟩

/-- A time that `AgentComplete` counts back from its own time, or from the clock. -/
theorem rewritten_back (hname : event.eventName = .agentComplete) (h : now < later) (back : Int) :
    Rewritten true event.clocked (some (event.at now - back)) (some (event.at later - back)) := by
  cases htime : event.eventTime with
  | none =>
    have hclock : event.clocked = true := by simp [AmiEvent.clocked, htime]
    rw [hclock]
    refine ⟨_, _, rfl, rfl, ?_⟩
    simp only [AmiEvent.at, htime, Option.getD_none]
    exact Int.sub_lt_sub_right h back
  | some t =>
    have hclock : event.clocked = false := by simp [AmiEvent.clocked, htime, hname]
    rw [hclock]
    exact ⟨rfl, by simp [AmiEvent.at, htime]⟩

theorem clocked_of_ne (h : event.eventName ≠ .agentComplete) : event.clocked = true := by
  simp [AmiEvent.clocked, h]

theorem queuedWrite_rewritten (h : now < later) :
    Rewritten (event.queuedWrite 0).isSome event.clocked (event.queuedWrite now)
      (event.queuedWrite later) := by
  cases hname : event.eventName with
  | queueCallerJoin =>
    simp only [AmiEvent.queuedWrite, hname, clocked_of_ne event (by simp [hname])]
    exact rewritten_clock h
  | agentComplete =>
    simp only [AmiEvent.queuedWrite, hname]
    cases htalk : event.talkTime with
    | none => exact ⟨rfl, rfl⟩
    | some talk =>
      cases hhold : event.holdTime with
      | none => exact ⟨rfl, rfl⟩
      | some hold => exact rewritten_back event hname h _
  | _ =>
    simp only [AmiEvent.queuedWrite, hname]
    exact ⟨rfl, rfl⟩

theorem ringingWrite_rewritten (h : now < later) :
    Rewritten (event.ringingWrite 0).isSome event.clocked (event.ringingWrite now)
      (event.ringingWrite later) := by
  cases hname : event.eventName with
  | agentCalled =>
    simp only [AmiEvent.ringingWrite, hname, clocked_of_ne event (by simp [hname])]
    exact rewritten_clock h
  | _ =>
    simp only [AmiEvent.ringingWrite, hname]
    exact ⟨rfl, rfl⟩

theorem answeredWrite_rewritten (h : now < later) :
    Rewritten (event.answeredWrite 0).isSome event.clocked (event.answeredWrite now)
      (event.answeredWrite later) := by
  cases hname : event.eventName with
  | agentConnect | bridgeEnter =>
    simp only [AmiEvent.answeredWrite, hname, clocked_of_ne event (by simp [hname])]
    exact rewritten_clock h
  | agentComplete =>
    simp only [AmiEvent.answeredWrite, hname]
    cases htalk : event.talkTime with
    | none => exact ⟨rfl, rfl⟩
    | some talk => exact rewritten_back event hname h _
  | _ =>
    simp only [AmiEvent.answeredWrite, hname]
    exact ⟨rfl, rfl⟩

end Rewrites

/-- The timestamps and the agent in both passes. -/
structure TimesPass (s : Scan) (p q f : Columns) : Prop where
  queued : TimeTrack s.queued p.queuedAt q.queuedAt f.queuedAt
  ringing : TimeTrack s.ringing p.ringingAt q.ringingAt f.ringingAt
  answered : TimeTrack s.answered p.answeredAt q.answeredAt f.answeredAt
  agent : q.primaryAgentId = f.primaryAgentId ∨ q.primaryAgentId = p.primaryAgentId
  answered_imp : p.answeredAt.isSome = true → q.answeredAt.isSome = true

theorem TimesPass.start {p f : Columns} (s : Scan)
    (hs : s.queued = none ∧ s.ringing = none ∧ s.answered = none)
    (himp : p.answeredAt.isSome = true → f.answeredAt.isSome = true) : TimesPass s p f f := by
  obtain ⟨hq, hr, ha⟩ := hs
  refine ⟨?_, ?_, ?_, .inl rfl, himp⟩
  · rw [hq]
    rfl
  · rw [hr]
    rfl
  · rw [ha]
    rfl

variable {s : Scan} {p q f : Columns}

theorem TimesPass.step (h : TimesPass s p q f) (env : Env) (present present' : Bool)
    (event : AmiEvent) {now later : Time} (hlater : now < later) :
    TimesPass (s.step event) (p.step env present event now) (q.step env present' event later) f := by
  obtain ⟨hpq, hpr, hpa, hpp⟩ := step_writes env present event now p
  obtain ⟨hqq, hqr, hqa, hqp⟩ := step_writes env present' event later q
  refine ⟨?_, ?_, ?_, ?_, ?_⟩
  · rw [hpq, hqq]
    exact h.queued.step (queuedWrite_rewritten event hlater)
  · rw [hpr, hqr]
    exact h.ringing.step (ringingWrite_rewritten event hlater)
  · rw [hpa, hqa]
    exact h.answered.step (answeredWrite_rewritten event hlater)
  · rw [hpp, hqp]
    cases event.agentWrite env with
    | none => simpa using h.agent
    | some agent => exact .inr rfl
  · rw [hpa, hqa]
    have hw := answeredWrite_rewritten event hlater
    intro hsome
    cases hwrite : (event.answeredWrite 0).isSome with
    | false =>
      rw [hwrite] at hw
      obtain ⟨hnone, hnone'⟩ := hw
      rw [hnone] at hsome
      rw [hnone']
      simpa using h.answered_imp (by simpa using hsome)
    | true =>
      rw [hwrite] at hw
      cases hclock : event.clocked with
      | false =>
        rw [hclock] at hw
        obtain ⟨hfirst, hsecond⟩ := hw
        obtain ⟨a, ha⟩ := Option.isSome_iff_exists.1 hfirst
        simp [hsecond, ha]
      | true =>
        rw [hclock] at hw
        obtain ⟨a, b, -, hb, -⟩ := hw
        simp [hb]

/-! ## An ended call -/

variable {event : AmiEvent} {status : SessionStatus}

theorem guardStatus_le_afterCallWork (h : event.eventName.upsertStatus = some status) :
    statusRank status ≤ 50 := by
  cases hname : event.eventName <;> simp [hname, EventName.upsertStatus] at h <;> subst h <;> decide

variable {c : Columns}

theorem upsert_ended {env : Env} {now : Time} (h : event.eventName.upsertStatus = some status) :
    (c.upsert env event now status).sessionStatus = .ended ↔ c.sessionStatus = .ended :=
  guardStatus_eq_ended (guardStatus_le_afterCallWork h)

theorem markHold_ended (t : Time) :
    (c.markHold t).sessionStatus = .ended ↔ c.sessionStatus = .ended := by
  unfold Columns.markHold
  split
  · next hholds =>
    simp only [Columns.holds, Bool.and_eq_true, decide_eq_true_eq] at hholds
    simp [hholds.1.1]
  · rfl

theorem resumeHold_ended (t : Time) :
    (c.resumeHold t).sessionStatus = .ended ↔ c.sessionStatus = .ended := by
  unfold Columns.resumeHold
  split
  · next hhold => simp [hhold]
  · rfl

/-- The scan knows whether the call has ended. -/
theorem scan_ended_step {p : Columns} (env : Env) (event : AmiEvent) (now : Time)
    (h : s.ended = true ↔ p.sessionStatus = .ended) :
    (s.step event).ended = true ↔ (p.step env s.present event now).sessionStatus = .ended := by
  simp only [Scan.step, Bool.or_eq_true, Bool.and_eq_true, h]
  cases event.kind with
  | upsert status hupsert =>
    have hends : event.endsCall = false := by
      cases hends : event.endsCall with
      | false => rfl
      | true => rw [upsertStatus_of_endsCall hends] at hupsert; cases hupsert
    rw [step_upsert env _ now p hupsert, upsert_ended hupsert]
    simp [hends]
  | hold hhold =>
    have hends : event.endsCall = false := by simp [AmiEvent.endsCall, hhold]
    rw [step_hold env _ now p hhold, markHold_ended]
    simp [hends]
  | unhold hunhold =>
    have hends : event.endsCall = false := by simp [AmiEvent.endsCall, hunhold]
    rw [step_unhold env _ now p hunhold, resumeHold_ended]
    simp [hends]
  | hangup hends =>
    rw [step_hangup env _ now p hends]
    cases hpresent : s.present <;> by_cases hended : p.sessionStatus = .ended <;>
      simp [hends, hended, Columns.hangup]
  | idle hupsert hhold hunhold hends =>
    rw [step_idle env _ now p hupsert hhold hunhold hends]
    simp [hends]

/-- A duration in both passes of an ended call: reported, and reported late. -/
structure LateTrack (ended reported late : Bool) (first second final : Int) : Prop where
  kept : reported = false → second = final
  late_ended : late = true → ended = true
  same : late = true → second = first

/-- The second pass of a call that the first pass leaves ended. -/
structure EndedPass (s : Scan) (p q f : Columns) : Prop where
  status : q.sessionStatus = .ended
  endedAt : q.endedAt = f.endedAt
  talk : LateTrack s.ended s.talk s.talkLate p.talkSeconds q.talkSeconds f.talkSeconds
  held : LateTrack s.ended s.held s.heldLate p.holdSeconds q.holdSeconds f.holdSeconds

/-- An event that reports nothing leaves the second pass of an ended call alone;
the first pass it leaves alone once the call has ended. -/
theorem LateTrack.idle {ended ended' reported late : Bool} {x x' y z : Int}
    (h : LateTrack ended reported late x y z) (hended : ended = true → ended' = true)
    (hx : ended = true → x' = x) : LateTrack ended' reported late x' y z where
  kept := h.kept
  late_ended := fun hl => hended (h.late_ended hl)
  same := fun hl => (h.same hl).trans (hx (h.late_ended hl)).symm

theorem LateTrack.report {ended reported late : Bool} {x y z : Int}
    (h : LateTrack ended reported late x y z) (report : Option Int) :
    LateTrack ended (reported || report.isSome) (late || (ended && report.isSome))
      (report.getD x) (report.getD y) z := by
  cases report with
  | none => simpa using h
  | some v =>
    refine ⟨by simp, ?_, by simp⟩
    intro hl
    cases hended : ended with
    | true => rfl
    | false => exact absurd (h.late_ended (by simpa [hended] using hl)) (by simp [hended])

/-- An event that is no upsert leaves the reports of the scan as they are. -/
theorem scan_no_reports (s : Scan) (h : event.eventName.upsertStatus = none) :
    (s.step event).talk = s.talk ∧ (s.step event).talkLate = s.talkLate ∧
      (s.step event).held = s.held ∧ (s.step event).heldLate = s.heldLate ∧
      (s.step event).answered = s.answered := by
  obtain ⟨-, -, ha, -, ht, hh⟩ := no_writes exEnv 0 h
  simp [Scan.step, ha, ht, hh, lastWriter]

theorem scan_ended_mono (event : AmiEvent) (h : s.ended = true) : (s.step event).ended = true := by
  simp [Scan.step, h]

/-- An event that is no upsert changes no duration of an ended call. -/
theorem step_ended_durations (env : Env) (present : Bool) (now : Time)
    (hupsert : event.eventName.upsertStatus = none) (hended : c.sessionStatus = .ended) :
    c.step env present event now = c := by
  cases event.kind with
  | upsert status h =>
    rw [hupsert] at h
    cases h
  | hold h => simp [step_hold env present now c h, Columns.markHold, Columns.holds, hended]
  | unhold h => simp [step_unhold env present now c h, Columns.resumeHold, hended]
  | hangup h => simp [step_hangup env present now c h, hended]
  | idle h1 h2 h3 h4 => exact step_idle env present now c h1 h2 h3 h4

theorem EndedPass.step (h : EndedPass s p q f) (env : Env) (event : AmiEvent) (now later : Time)
    (hs : s.ended = true ↔ p.sessionStatus = .ended) :
    EndedPass (s.step event) (p.step env s.present event now) (q.step env true event later) f := by
  cases hupsert : event.eventName.upsertStatus with
  | some status =>
    have hends : event.endsCall = false := by
      cases hends : event.endsCall with
      | false => rfl
      | true => rw [upsertStatus_of_endsCall hends] at hupsert; cases hupsert
    rw [step_upsert env _ now p hupsert, step_upsert env _ later q hupsert]
    have hended : (s.step event).ended = s.ended := by simp [Scan.step, hends]
    refine ⟨(upsert_ended hupsert).2 h.status, h.endedAt, ?_, ?_⟩
    · rw [hended]
      exact h.talk.report event.talkReport
    · rw [hended]
      exact h.held.report event.holdReport
  | none =>
    obtain ⟨ht, htl, hh, hhl, -⟩ := scan_no_reports s hupsert
    have hp : s.ended = true → p.step env s.present event now = p := fun hended =>
      step_ended_durations env s.present now hupsert (hs.1 hended)
    rw [step_ended_durations env true later hupsert h.status]
    refine ⟨h.status, h.endedAt, ?_, ?_⟩
    · rw [ht, htl]
      exact h.talk.idle (scan_ended_mono event) (fun hended => by rw [hp hended])
    · rw [hh, hhl]
      exact h.held.idle (scan_ended_mono event) (fun hended => by rw [hp hended])

/-! ## A call that goes on -/

/-- A duration in both passes of a call that goes on: the last report, or what
the row in between has. -/
structure OpenTrack (reported : Bool) (first second final : Int) : Prop where
  kept : reported = false → second = final
  same : reported = true → second = first

theorem OpenTrack.report {reported : Bool} {x y z : Int} (h : OpenTrack reported x y z)
    (report : Option Int) :
    OpenTrack (reported || report.isSome) (report.getD x) (report.getD y) z := by
  cases report with
  | none => simpa using h
  | some v => exact ⟨by simp, fun _ => rfl⟩

/-- What both passes of a call that goes on have, before the hold is looked at. -/
structure OpenPass (s : Scan) (p q f : Columns) : Prop where
  first_open : p.sessionStatus ≠ .ended
  second_open : q.sessionStatus ≠ .ended
  endedAt : q.endedAt = f.endedAt
  talk : OpenTrack s.talk p.talkSeconds q.talkSeconds f.talkSeconds

theorem markHold_keeps (c : Columns) (t : Time) :
    (c.markHold t).endedAt = c.endedAt ∧ (c.markHold t).talkSeconds = c.talkSeconds ∧
      (c.markHold t).holdSeconds = c.holdSeconds ∧ (c.markHold t).answeredAt = c.answeredAt := by
  unfold Columns.markHold
  split <;> simp

theorem resumeHold_keeps (c : Columns) (t : Time) :
    (c.resumeHold t).endedAt = c.endedAt ∧ (c.resumeHold t).talkSeconds = c.talkSeconds := by
  unfold Columns.resumeHold
  split <;> simp

theorem OpenPass.step (h : OpenPass s p q f) (env : Env) (event : AmiEvent) (now later : Time)
    (hhangup : (s.step event).hangup = false) :
    OpenPass (s.step event) (p.step env s.present event now) (q.step env true event later) f := by
  cases event.kind with
  | upsert status hupsert =>
    rw [step_upsert env _ now p hupsert, step_upsert env _ later q hupsert]
    exact ⟨mt (upsert_ended hupsert).1 h.first_open, mt (upsert_ended hupsert).1 h.second_open,
      h.endedAt, h.talk.report event.talkReport⟩
  | hold hhold =>
    obtain ⟨ht, -⟩ := scan_no_reports s (upsertStatus_of_hold hhold)
    obtain ⟨hpe, hpt, -⟩ := markHold_keeps p (event.at now)
    obtain ⟨hqe, hqt, -⟩ := markHold_keeps q (event.at later)
    rw [step_hold env _ now p hhold, step_hold env _ later q hhold]
    refine ⟨mt (markHold_ended _).1 h.first_open, mt (markHold_ended _).1 h.second_open,
      hqe.trans h.endedAt, ?_⟩
    rw [ht, hpt, hqt]
    exact h.talk
  | unhold hunhold =>
    obtain ⟨ht, -⟩ := scan_no_reports s (upsertStatus_of_unhold hunhold)
    obtain ⟨hpe, hpt⟩ := resumeHold_keeps p (event.at now)
    obtain ⟨hqe, hqt⟩ := resumeHold_keeps q (event.at later)
    rw [step_unhold env _ now p hunhold, step_unhold env _ later q hunhold]
    refine ⟨mt (resumeHold_ended _).1 h.first_open, mt (resumeHold_ended _).1 h.second_open,
      hqe.trans h.endedAt, ?_⟩
    rw [ht, hpt, hqt]
    exact h.talk
  | hangup hends => simp [Scan.step, hends] at hhangup
  | idle hupsert hhold hunhold hends =>
    obtain ⟨ht, -⟩ := scan_no_reports s hupsert
    rw [step_idle env _ now p hupsert hhold hunhold hends,
      step_idle env _ later q hupsert hhold hunhold hends]
    refine ⟨h.first_open, h.second_open, h.endedAt, ?_⟩
    rw [ht]
    exact h.talk

theorem statusRank_guardStatus (found status : SessionStatus) :
    statusRank (guardStatus found status) = max (statusRank found) (statusRank status) := by
  unfold guardStatus
  split <;> omega

theorem statusRank_injective {a b : SessionStatus} (h : statusRank a = statusRank b) : a = b := by
  cases a <;> cases b <;> simp_all [statusRank]

/-- After-call work is the last status of a call that goes on. -/
theorem guardStatus_afterCallWork_open {found : SessionStatus} (h : found ≠ .ended) :
    guardStatus found .afterCallWork = .afterCallWork := by
  cases found <;> first | rfl | exact absurd rfl h

/-- The upserts below after-call work: they report no durations. -/
theorem upsert_low (h : event.eventName.upsertStatus = some status)
    (hne : event.eventName ≠ .agentComplete) :
    0 ≤ statusRank status ∧ statusRank status ≤ 30 ∧ event.holdReport = none := by
  cases hname : event.eventName <;> simp [hname, EventName.upsertStatus] at h <;> subst h <;>
    simp_all [statusRank, AmiEvent.holdReport]

theorem upsert_complete (h : event.eventName.upsertStatus = some status)
    (hname : event.eventName = .agentComplete) : status = .afterCallWork := by
  simp [hname, EventName.upsertStatus] at h
  exact h.symm

/-- How the statuses of both passes relate while no unhold comes. Both start
somewhere and only rise; or they have met; or the second pass holds a call that
the first pass could not hold, since it had no answer yet. -/
inductive HoldMode (s : Scan) (p q f : Columns) : Prop
  | rising (m : Int) (hm0 : 0 ≤ m) (hm : m ≤ 30)
      (hq : statusRank q.sessionStatus = max (statusRank f.sessionStatus) m)
      (hp : m ≤ statusRank p.sessionStatus)
  | met (h : p.sessionStatus = q.sessionStatus)
  | ahead (hq : q.sessionStatus = .hold) (hf : f.answeredAt.isSome = true)
      (hp : p.answeredAt = none ∨ s.answered = some true)

theorem markHold_answered {t : Time} (hopen : c.sessionStatus ≠ .ended)
    (hanswered : c.answeredAt.isSome = true) : (c.markHold t).sessionStatus = .hold := by
  unfold Columns.markHold Columns.holds
  by_cases hhold : c.sessionStatus = .hold
  · simp [hhold]
  · simp [hhold, hopen, hanswered]

theorem markHold_unanswered {t : Time} (hanswered : c.answeredAt = none) : c.markHold t = c := by
  simp [Columns.markHold, Columns.holds, hanswered]

/-- An answer that only the second pass has comes from the row in between. -/
theorem TimesPass.answered_final (h : TimesPass s p q f) (hp : p.answeredAt = none)
    (hq : q.answeredAt.isSome = true) : f.answeredAt.isSome = true := by
  have htrack := h.answered
  unfold TimeTrack at htrack
  split at htrack
  · rwa [htrack] at hq
  · rw [htrack, hp] at hq
    cases hq
  · obtain ⟨a, b, ha, -⟩ := htrack
    rw [hp] at ha
    cases ha

theorem HoldMode.hold (h : HoldMode s p q f) (hopen : OpenPass s p q f) (htimes : TimesPass s p q f)
    {s' : Scan} (t t' : Time) : HoldMode s' (p.markHold t) (q.markHold t') f := by
  cases hpa : p.answeredAt with
  | some a =>
    have hps : p.answeredAt.isSome = true := by simp [hpa]
    refine .met ?_
    rw [markHold_answered hopen.first_open hps,
      markHold_answered hopen.second_open (htimes.answered_imp hps)]
  | none =>
    rw [markHold_unanswered hpa]
    cases hqa : q.answeredAt with
    | some b =>
      have hqs : q.answeredAt.isSome = true := by simp [hqa]
      exact .ahead (markHold_answered hopen.second_open hqs) (htimes.answered_final hpa hqs) (.inl hpa)
    | none =>
      rw [markHold_unanswered hqa]
      cases h with
      | rising m hm0 hm hq hp => exact .rising m hm0 hm hq hp
      | met h => exact .met h
      | ahead hq hf hp => exact .ahead hq hf (.inl hpa)

theorem HoldMode.upsert (h : HoldMode s p q f) (hopen : OpenPass s p q f) (env : Env)
    (now later : Time) (hupsert : event.eventName.upsertStatus = some status) :
    HoldMode (s.step event) (p.upsert env event now status) (q.upsert env event later status) f := by
  by_cases hname : event.eventName = .agentComplete
  · refine .met ?_
    rw [upsert_complete hupsert hname]
    simp only [Columns.upsert, guardStatus_afterCallWork_open hopen.first_open,
      guardStatus_afterCallWork_open hopen.second_open]
  · obtain ⟨hlow0, hlow, -⟩ := upsert_low hupsert hname
    cases h with
    | rising m hm0 hm hq hp =>
      refine .rising (max m (statusRank status)) (by omega) (by omega) ?_ ?_
      · simp only [Columns.upsert, statusRank_guardStatus, hq]
        omega
      · simp only [Columns.upsert, statusRank_guardStatus]
        omega
    | met h => exact .met (by simp only [Columns.upsert, h])
    | ahead hq hf hp =>
      refine .ahead ?_ hf ?_
      · simp only [Columns.upsert, hq]
        exact (guardStatus_eq_hold hlow).2 rfl
      · cases hwrite : event.answeredWrite now with
        | none =>
          have hnone : event.answeredWrite 0 = none := by
            cases hn : event.eventName <;> simp_all [AmiEvent.answeredWrite]
          rcases hp with hp | hp
          · exact .inl (by simp [Columns.upsert, hwrite, hp])
          · exact .inr (by simp [Scan.step, hnone, lastWriter, hp])
        | some t =>
          have hsome : (event.answeredWrite 0).isSome = true := by
            cases hn : event.eventName <;> simp_all [AmiEvent.answeredWrite]
          exact .inr (by simp [Scan.step, hsome, lastWriter, clocked_of_ne event hname])

/-- The second pass of a call that goes on, while no unhold comes. -/
structure HoldPass (s : Scan) (p q f : Columns) : Prop where
  mode : HoldMode s p q f
  held : OpenTrack s.held p.holdSeconds q.holdSeconds f.holdSeconds

theorem HoldPass.step (h : HoldPass s p q f) (hopen : OpenPass s p q f) (htimes : TimesPass s p q f)
    (env : Env) (event : AmiEvent) (now later : Time) (hhangup : (s.step event).hangup = false)
    (hunhold : (s.step event).unhold = false) :
    HoldPass (s.step event) (p.step env s.present event now) (q.step env true event later) f := by
  cases event.kind with
  | upsert status hupsert =>
    rw [step_upsert env _ now p hupsert, step_upsert env _ later q hupsert]
    exact ⟨h.mode.upsert hopen env now later hupsert, h.held.report event.holdReport⟩
  | hold hhold =>
    obtain ⟨-, -, hh, -, -⟩ := scan_no_reports s (upsertStatus_of_hold hhold)
    obtain ⟨-, -, hps, -⟩ := markHold_keeps p (event.at now)
    obtain ⟨-, -, hqs, -⟩ := markHold_keeps q (event.at later)
    rw [step_hold env _ now p hhold, step_hold env _ later q hhold]
    refine ⟨h.mode.hold hopen htimes _ _, ?_⟩
    rw [hh, hps, hqs]
    exact h.held
  | unhold hname => simp [Scan.step, hname] at hunhold
  | hangup hends => simp [Scan.step, hends] at hhangup
  | idle hupsert hhold hunhold' hends =>
    obtain ⟨-, -, hh, -, ha⟩ := scan_no_reports s hupsert
    rw [step_idle env _ now p hupsert hhold hunhold' hends,
      step_idle env _ later q hupsert hhold hunhold' hends]
    refine ⟨?_, ?_⟩
    · cases h.mode with
      | rising m hm0 hm hq hp => exact .rising m hm0 hm hq hp
      | met h => exact .met h
      | ahead hq hf hp => exact .ahead hq hf (by rwa [ha])
    · rw [hh]
      exact h.held

/-- The second pass of a call that goes on, while no hold comes. `stuck` is left
behind by an unhold when the row in between is on hold, and never comes back to
it. -/
inductive UnholdPass (s : Scan) (p q f : Columns) : Prop
  | rising (m : Int) (hm0 : 0 ≤ m) (hm : m ≤ 30)
      (hq : statusRank q.sessionStatus = max (statusRank f.sessionStatus) m)
      (hp : m ≤ statusRank p.sessionStatus) (hheld : s.held = false)
      (hhold : q.holdSeconds = f.holdSeconds)
  | complete (hp : p.sessionStatus = .afterCallWork) (hq : q.sessionStatus = .afterCallWork)
      (hheld : OpenTrack s.held p.holdSeconds q.holdSeconds f.holdSeconds)
  | stuck (hf : f.sessionStatus = .hold) (hp : p.sessionStatus ≠ .hold)

theorem UnholdPass.upsert (h : UnholdPass s p q f) (hopen : OpenPass s p q f) (env : Env)
    (now later : Time) (hupsert : event.eventName.upsertStatus = some status) :
    UnholdPass (s.step event) (p.upsert env event now status) (q.upsert env event later status)
      f := by
  by_cases hname : event.eventName = .agentComplete
  · have hstatus := upsert_complete hupsert hname
    subst hstatus
    have hp := guardStatus_afterCallWork_open hopen.first_open
    have hq := guardStatus_afterCallWork_open hopen.second_open
    cases h with
    | rising m hm0 hm hq' hp' hheld hhold =>
      refine .complete hp hq ?_
      have htrack : OpenTrack s.held p.holdSeconds q.holdSeconds f.holdSeconds :=
        ⟨fun _ => hhold, by simp [hheld]⟩
      exact htrack.report event.holdReport
    | complete hp' hq' hheld => exact .complete hp hq (hheld.report event.holdReport)
    | stuck hf hp' => exact .stuck hf (by simp only [Columns.upsert, hp]; decide)
  · obtain ⟨hlow0, hlow, hreport⟩ := upsert_low hupsert hname
    have hheld' : (s.step event).held = s.held := by simp [Scan.step, hreport]
    cases h with
    | rising m hm0 hm hq hp hheld hhold =>
      refine .rising (max m (statusRank status)) (by omega) (by omega) ?_ ?_ (hheld'.trans hheld) ?_
      · simp only [Columns.upsert, statusRank_guardStatus, hq]
        omega
      · simp only [Columns.upsert, statusRank_guardStatus]
        omega
      · simp only [Columns.upsert, hreport, Option.getD_none, hhold]
    | complete hp hq hheld =>
      have hkeep : guardStatus .afterCallWork status = .afterCallWork :=
        if_neg (by simp only [statusRank] at *; omega)
      refine .complete (by simp only [Columns.upsert, hp, hkeep])
        (by simp only [Columns.upsert, hq, hkeep]) ?_
      simp only [Columns.upsert, hreport, Option.getD_none, hheld']
      exact hheld
    | stuck hf hp =>
      refine .stuck hf ?_
      simp only [Columns.upsert]
      rwa [Ne, guardStatus_eq_hold hlow]

theorem UnholdPass.unhold {s s' : Scan} (h : UnholdPass s p q f) (hs : s'.held = s.held)
    (t t' : Time) : UnholdPass s' (p.resumeHold t) (q.resumeHold t') f := by
  have hoff : ∀ (c : Columns) (t : Time), (c.resumeHold t).sessionStatus ≠ .hold := by
    intro c t
    unfold Columns.resumeHold
    split
    · simp
    · next hne => exact hne
  cases h with
  | rising m hm0 hm hq hp hheld hhold =>
    by_cases hf : f.sessionStatus = .hold
    · exact .stuck hf (hoff p t)
    · -- The second pass is not on hold: its rank is that of `f`, or at most talking.
      have hne : q.sessionStatus ≠ .hold := by
        intro hqh
        rw [hqh] at hq
        have hrank : statusRank f.sessionStatus = statusRank .hold := by
          simp only [statusRank] at hq ⊢
          omega
        exact hf (statusRank_injective hrank)
      have hsame : q.resumeHold t' = q := by simp [Columns.resumeHold, hne]
      rw [hsame]
      refine .rising m hm0 hm hq ?_ (hs.trans hheld) hhold
      unfold Columns.resumeHold
      split
      · exact hm
      · exact hp
  | complete hp hq hheld =>
    have hsame : p.resumeHold t = p := by simp [Columns.resumeHold, hp]
    have hsame' : q.resumeHold t' = q := by simp [Columns.resumeHold, hq]
    rw [hsame, hsame']
    exact .complete hp hq (by rwa [hs])
  | stuck hf hp => exact .stuck hf (hoff p t)

theorem UnholdPass.step (h : UnholdPass s p q f) (hopen : OpenPass s p q f) (env : Env)
    (event : AmiEvent) (now later : Time) (hhangup : (s.step event).hangup = false)
    (hhold : (s.step event).hold = false) :
    UnholdPass (s.step event) (p.step env s.present event now) (q.step env true event later) f := by
  cases event.kind with
  | upsert status hupsert =>
    rw [step_upsert env _ now p hupsert, step_upsert env _ later q hupsert]
    exact h.upsert hopen env now later hupsert
  | hold hname => simp [Scan.step, hname] at hhold
  | unhold hname =>
    obtain ⟨-, -, hh, -, -⟩ := scan_no_reports s (upsertStatus_of_unhold hname)
    rw [step_unhold env _ now p hname, step_unhold env _ later q hname]
    exact h.unhold hh _ _
  | hangup hends => simp [Scan.step, hends] at hhangup
  | idle hupsert hhold' hunhold hends =>
    obtain ⟨-, -, hh, -, -⟩ := scan_no_reports s hupsert
    rw [step_idle env _ now p hupsert hhold' hunhold hends,
      step_idle env _ later q hupsert hhold' hunhold hends]
    cases h with
    | rising m hm0 hm hq hp hheld hhold => exact .rising m hm0 hm hq hp (hh.trans hheld) hhold
    | complete hp hq hheld => exact .complete hp hq (by rwa [hh])
    | stuck hf hp => exact .stuck hf hp

end KasterCti.Calls
