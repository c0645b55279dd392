import KasterCti.Calls.StatusOrder

/-!
# The columns of a call

The columns of a session that replay and statistics read, and what the events of
the call write into them. Nothing else in a row takes part: an event changes
these columns by themselves.

Results:
1. `columnsOf_applyRow`: the engine's change of a row, on the columns.
2. `step_writes`: the timestamps and the agent are written by the event alone.
-/

namespace KasterCti.Calls

open JsText

/-! ## What the events of a call write -/

/-- The write of `queuedAt`, when there is one. -/
def AmiEvent.queuedWrite (event : AmiEvent) (now : Time) : Option Time :=
  match event.eventName with
  | .queueCallerJoin => some now
  | .agentComplete => event.talkTime.bind fun talk => event.holdTime.map fun hold =>
      event.at now - (talk + hold) * 1000
  | _ => none

def AmiEvent.ringingWrite (event : AmiEvent) (now : Time) : Option Time :=
  match event.eventName with
  | .agentCalled => some now
  | _ => none

def AmiEvent.answeredWrite (event : AmiEvent) (now : Time) : Option Time :=
  match event.eventName with
  | .agentConnect | .bridgeEnter => some now
  | .agentComplete => event.talkTime.map fun talk => event.at now - talk * 1000
  | _ => none

def AmiEvent.agentWrite (env : Env) (event : AmiEvent) : Option String :=
  match event.eventName with
  | .agentCalled | .agentConnect | .bridgeEnter =>
    resolvePrimaryAgentId env event.agentId event.tenantId
  | .agentComplete => resolvePrimaryAgentId env
      (event.agentId <|> event.rawField "Interface" <|> event.rawField "MemberName") event.tenantId
  | _ => none

/-- A write of the event carries the clock, not a time of its own. -/
def AmiEvent.clocked (event : AmiEvent) : Bool :=
  event.eventName ≠ .agentComplete || event.eventTime.isNone

/-- The events that create the session when it does not exist. -/
def AmiEvent.creates (event : AmiEvent) : Bool :=
  [.newchannel, .queueCallerJoin, .agentCalled, .agentConnect, .bridgeEnter,
    .agentComplete].contains event.eventName

def AmiEvent.endsCall (event : AmiEvent) : Bool :=
  event.eventName = .hangup && hangupEndsCall (event.rawField "Channel")

/-- The talk time an `AgentComplete` reports. -/
def AmiEvent.talkReport (event : AmiEvent) : Option Int :=
  if event.eventName = .agentComplete then event.talkTime else none

def AmiEvent.holdReport (event : AmiEvent) : Option Int :=
  if event.eventName = .agentComplete then event.holdTime else none

/-! ## The columns a replay is about -/

/-- The columns that a replay must leave alone. -/
structure Visible where
  sessionStatus : SessionStatus
  queuedAt : Option Time
  ringingAt : Option Time
  answeredAt : Option Time
  endedAt : Option Time
  talkSeconds : Int
  holdSeconds : Int
  primaryAgentId : Option String
deriving DecidableEq

def CallSession.visible (row : CallSession) : Visible :=
  { sessionStatus := row.sessionStatus, queuedAt := row.queuedAt, ringingAt := row.ringingAt
    answeredAt := row.answeredAt, endedAt := row.endedAt, talkSeconds := row.talkSeconds
    holdSeconds := row.holdSeconds, primaryAgentId := row.primaryAgentId }

/-- The visible columns with the start of an open hold: the events change them by
themselves, whatever else is in the row. -/
structure Columns extends Visible where
  holdFrom : Time

/-- The columns of a session that does not exist yet. -/
def Columns.blank : Columns :=
  { sessionStatus := .new, queuedAt := none, ringingAt := none, answeredAt := none, endedAt := none
    talkSeconds := 0, holdSeconds := 0, primaryAgentId := none, holdFrom := 0 }

def CallSession.columns (row : CallSession) : Columns :=
  { row.visible with holdFrom := if row.sessionStatus = .hold then row.updatedAt else 0 }

def columnsOf : Option CallSession → Columns
  | none => .blank
  | some row => row.columns

/-- The status an upsert asks for. -/
def EventName.upsertStatus : EventName → Option SessionStatus
  | .queueCallerJoin => some .queued
  | .agentCalled => some .ringingAgent
  | .agentConnect | .bridgeEnter => some .talking
  | .agentComplete => some .afterCallWork
  | _ => none

def Columns.upsert (env : Env) (event : AmiEvent) (now : Time) (status : SessionStatus)
    (c : Columns) : Columns :=
  { sessionStatus := guardStatus c.sessionStatus status
    queuedAt := event.queuedWrite now <|> c.queuedAt
    ringingAt := event.ringingWrite now <|> c.ringingAt
    answeredAt := event.answeredWrite now <|> c.answeredAt
    endedAt := c.endedAt
    talkSeconds := event.talkReport.getD c.talkSeconds
    holdSeconds := event.holdReport.getD c.holdSeconds
    primaryAgentId := event.agentWrite env <|> c.primaryAgentId
    holdFrom := if guardStatus c.sessionStatus status = .hold then c.holdFrom else 0 }

def Columns.holds (c : Columns) : Bool :=
  c.sessionStatus ≠ .ended && c.answeredAt.isSome && c.sessionStatus ≠ .hold

def Columns.markHold (c : Columns) (eventAt : Time) : Columns :=
  if c.holds then { c with sessionStatus := .hold, holdFrom := eventAt } else c

def Columns.resumeHold (c : Columns) (eventAt : Time) : Columns :=
  if c.sessionStatus = .hold then
    { c with
      sessionStatus := .talking
      holdSeconds := c.holdSeconds + secondsBetween c.holdFrom eventAt
      holdFrom := 0 }
  else c

def Columns.hangup (c : Columns) (now : Time) : Columns :=
  { c with
    sessionStatus := .ended
    endedAt := some now
    talkSeconds := match c.answeredAt with
      | some answeredAt => secondsBetween answeredAt now
      | none => 0
    holdSeconds := c.holdSeconds +
      if c.sessionStatus = .hold then secondsBetween c.holdFrom now else 0
    holdFrom := 0 }

/-- One event on the columns; `present` says that the session exists. -/
def Columns.step (env : Env) (present : Bool) (event : AmiEvent) (now : Time) (c : Columns) :
    Columns :=
  match event.eventName.upsertStatus with
  | some status => c.upsert env event now status
  | none =>
    if event.eventName = .hold then c.markHold (event.at now)
    else if event.eventName = .unhold then c.resumeHold (event.at now)
    else if event.endsCall && present && c.sessionStatus ≠ .ended then c.hangup now
    else c

theorem guardStatus_hold_inv {found status : SessionStatus} (hnot : status ≠ .hold)
    (h : guardStatus found status = .hold) : found = .hold := by
  unfold guardStatus at h
  split at h
  · exact absurd h hnot
  · exact h

/-- An upsert writes the columns of its patch, whether it creates the row or not. -/
theorem columnsOf_upsert (env : Env) (event : AmiEvent) (now : Time) (found : Option CallSession)
    {patch : SessionPatch} (hrank : 0 < statusRank patch.sessionStatus)
    (hnot : patch.sessionStatus ≠ .hold)
    (hqueued : patch.queuedAt = event.queuedWrite now)
    (hringing : patch.ringingAt = event.ringingWrite now)
    (hanswered : patch.answeredAt = event.answeredWrite now)
    (htalk : patch.talkSeconds = event.talkReport) (hhold : patch.holdSeconds = event.holdReport)
    (hagent : patch.primaryAgentId = event.agentWrite env) :
    columnsOf ((upsertSession env event.tenantId patch now found).map (·.1) <|> found) =
      (columnsOf found).upsert env event now patch.sessionStatus := by
  cases found with
  | none =>
    have hguard : guardStatus .new patch.sessionStatus = patch.sessionStatus := if_pos hrank
    simp [upsertSession, columnsOf, CallSession.columns, CallSession.visible, createRow,
      Columns.upsert, Columns.blank, hguard, hnot, hqueued, hringing, hanswered, htalk, hhold, hagent]
  | some row =>
    change (updateRow env event.tenantId patch row).columns =
      row.columns.upsert env event now patch.sessionStatus
    by_cases hguard : guardStatus row.sessionStatus patch.sessionStatus = .hold
    · have hold := guardStatus_hold_inv hnot hguard
      rw [hold] at hguard
      simp [updateRow, CallSession.columns, CallSession.visible, Columns.upsert, hold, hguard,
        hqueued, hringing, hanswered, htalk, hhold, hagent]
    · simp [updateRow, CallSession.columns, CallSession.visible, Columns.upsert, hguard,
        hqueued, hringing, hanswered, htalk, hhold, hagent]

theorem columns_endedRow (row : CallSession) (now : Time) :
    (endedRow row now).columns = row.columns.hangup now := by
  by_cases hhold : row.sessionStatus = .hold
  · cases hanswered : row.answeredAt <;>
      simp [endedRow, CallSession.columns, CallSession.visible, Columns.hangup, hhold, hanswered]
  · cases hanswered : row.answeredAt <;>
      simp [endedRow, CallSession.columns, CallSession.visible, Columns.hangup, hhold, hanswered]

/-- What an event does to a row, on the columns. -/
theorem columnsOf_applyRow (env : Env) (event : AmiEvent) (originate : Option PendingOriginate)
    (now : Time) (found : Option CallSession) :
    columnsOf (applyRow env event originate now found) =
      (columnsOf found).step env found.isSome event now := by
  unfold applyRow eventWrite Columns.step
  cases hname : event.eventName with
  | newchannel =>
    cases found with
    | none =>
      simp [ensureSessionStarted, columnsOf, startRow, CallSession.columns, CallSession.visible,
        Columns.blank, EventName.upsertStatus]
    | some row =>
      simp only [ensureSessionStarted, EventName.upsertStatus, AmiEvent.endsCall, hname]
      split <;> simp [columnsOf, fillBlanks, CallSession.columns, CallSession.visible]
  | queueCallerJoin | agentCalled | agentConnect | bridgeEnter | agentComplete =>
    refine columnsOf_upsert env event now found ?_ ?_ ?_ ?_ ?_ ?_ ?_ ?_ <;>
      simp [queueCallerJoinPatch, agentCalledPatch, talkingPatch, agentCompletePatch, statusRank,
        AmiEvent.queuedWrite, AmiEvent.ringingWrite, AmiEvent.answeredWrite, AmiEvent.talkReport,
        AmiEvent.holdReport, AmiEvent.agentWrite, hname]
  | hold =>
    cases found with
    | none => simp [markHold, columnsOf, Columns.markHold, Columns.holds, Columns.blank,
        EventName.upsertStatus]
    | some row =>
      have happ : row.columns.holds = holdApplies row := rfl
      simp only [markHold, EventName.upsertStatus, if_true]
      by_cases hholds : holdApplies row = true
      · rw [if_pos hholds]
        change _ = if row.columns.holds = true then _ else row.columns
        rw [if_pos (happ.trans hholds)]
        rfl
      · rw [if_neg hholds]
        change row.columns = if row.columns.holds = true then _ else row.columns
        rw [happ, if_neg hholds]
  | unhold =>
    cases found with
    | none => simp [resumeHold, columnsOf, Columns.resumeHold, Columns.blank, EventName.upsertStatus]
    | some row =>
      simp only [resumeHold, columnsOf, Columns.resumeHold, EventName.upsertStatus]
      by_cases hhold : row.sessionStatus = .hold
      · simp [hhold, CallSession.columns, CallSession.visible, resumedRow]
      · simp [hhold, CallSession.columns, CallSession.visible]
  | hangup =>
    cases hends : hangupEndsCall (event.rawField "Channel") with
    | false => simp [AmiEvent.endsCall, hends, EventName.upsertStatus]
    | true =>
      cases found with
      | none => simp [finalizeHangup, EventName.upsertStatus]
      | some row =>
        by_cases hended : row.sessionStatus = .ended
        · simp [finalizeHangup, hended, EventName.upsertStatus, columnsOf, CallSession.columns,
            CallSession.visible]
        · have hrow : row.columns.sessionStatus ≠ .ended := hended
          simp [finalizeHangup, hended, EventName.upsertStatus, AmiEvent.endsCall, hname, hends,
            columnsOf, hrow, columns_endedRow]
  | _ => simp [EventName.upsertStatus, AmiEvent.endsCall, hname]

theorem isSome_applyRow (env : Env) (event : AmiEvent) (originate : Option PendingOriginate)
    (now : Time) (found : Option CallSession) :
    (applyRow env event originate now found).isSome = (found.isSome || event.creates) := by
  cases found with
  | some row =>
    obtain ⟨row', hrow'⟩ : ∃ row', applyRow env event originate now (some row) = some row' := by
      unfold applyRow
      cases eventWrite env event originate now (some row) with
      | none => exact ⟨row, rfl⟩
      | some write => exact ⟨write.1, rfl⟩
    simp [hrow']
  | none =>
    unfold applyRow eventWrite AmiEvent.creates
    cases event.eventName with
    | hangup => simp [finalizeHangup]
    | _ => rfl

/-! ## The kinds of events -/

/-- What an event can be, for the columns of a call. -/
inductive EventKind (event : AmiEvent) : Prop
  | upsert (status : SessionStatus) (h : event.eventName.upsertStatus = some status)
  | hold (h : event.eventName = .hold)
  | unhold (h : event.eventName = .unhold)
  | hangup (h : event.endsCall = true)
  | idle (hupsert : event.eventName.upsertStatus = none) (hhold : event.eventName ≠ .hold)
      (hunhold : event.eventName ≠ .unhold) (hends : event.endsCall = false)

theorem AmiEvent.kind (event : AmiEvent) : EventKind event := by
  cases hupsert : event.eventName.upsertStatus with
  | some status => exact .upsert status hupsert
  | none =>
    by_cases hhold : event.eventName = .hold
    · exact .hold hhold
    · by_cases hunhold : event.eventName = .unhold
      · exact .unhold hunhold
      · cases hends : event.endsCall with
        | true => exact .hangup hends
        | false => exact .idle hupsert hhold hunhold hends

section Kinds

variable (env : Env) (present : Bool) {event : AmiEvent} (now : Time) (c : Columns)

theorem endsCall_hangup (h : event.endsCall = true) : event.eventName = .hangup := by
  simp only [AmiEvent.endsCall, Bool.and_eq_true, decide_eq_true_eq] at h
  exact h.1

theorem step_upsert {status : SessionStatus} (h : event.eventName.upsertStatus = some status) :
    c.step env present event now = c.upsert env event now status := by
  simp [Columns.step, h]

theorem step_hold (h : event.eventName = .hold) :
    c.step env present event now = c.markHold (event.at now) := by
  simp [Columns.step, h, EventName.upsertStatus]

theorem step_unhold (h : event.eventName = .unhold) :
    c.step env present event now = c.resumeHold (event.at now) := by
  simp [Columns.step, h, EventName.upsertStatus]

theorem step_hangup (h : event.endsCall = true) :
    c.step env present event now =
      if present && c.sessionStatus ≠ .ended then c.hangup now else c := by
  simp [Columns.step, h, endsCall_hangup h, EventName.upsertStatus]

theorem step_idle (hupsert : event.eventName.upsertStatus = none) (hhold : event.eventName ≠ .hold)
    (hunhold : event.eventName ≠ .unhold) (hends : event.endsCall = false) :
    c.step env present event now = c := by
  simp [Columns.step, hupsert, hhold, hunhold, hends]

/-- An event that is no upsert writes no timestamp, no agent and reports nothing. -/
theorem no_writes (h : event.eventName.upsertStatus = none) :
    event.queuedWrite now = none ∧ event.ringingWrite now = none ∧
      event.answeredWrite now = none ∧ event.agentWrite env = none ∧
      event.talkReport = none ∧ event.holdReport = none := by
  unfold AmiEvent.queuedWrite AmiEvent.ringingWrite AmiEvent.answeredWrite AmiEvent.agentWrite
    AmiEvent.talkReport AmiEvent.holdReport
  cases hname : event.eventName <;> simp_all [EventName.upsertStatus]

theorem upsertStatus_of_hold (h : event.eventName = .hold) :
    event.eventName.upsertStatus = none := by
  rw [h]
  rfl

theorem upsertStatus_of_unhold (h : event.eventName = .unhold) :
    event.eventName.upsertStatus = none := by
  rw [h]
  rfl

theorem upsertStatus_of_endsCall (h : event.endsCall = true) :
    event.eventName.upsertStatus = none := by
  rw [endsCall_hangup h]
  rfl

variable (event) in
/-- The timestamps and the agent are written by every event alike. -/
theorem step_writes :
    (c.step env present event now).queuedAt = (event.queuedWrite now <|> c.queuedAt) ∧
      (c.step env present event now).ringingAt = (event.ringingWrite now <|> c.ringingAt) ∧
      (c.step env present event now).answeredAt = (event.answeredWrite now <|> c.answeredAt) ∧
      (c.step env present event now).primaryAgentId =
        (event.agentWrite env <|> c.primaryAgentId) := by
  cases event.kind with
  | upsert status h =>
    rw [step_upsert env present now c h]
    exact ⟨rfl, rfl, rfl, rfl⟩
  | hold h =>
    obtain ⟨hq, hr, ha, hp, -, -⟩ := no_writes env now (upsertStatus_of_hold h)
    rw [step_hold env present now c h, Columns.markHold, hq, hr, ha, hp]
    split <;> simp
  | unhold h =>
    obtain ⟨hq, hr, ha, hp, -, -⟩ := no_writes env now (upsertStatus_of_unhold h)
    rw [step_unhold env present now c h, Columns.resumeHold, hq, hr, ha, hp]
    split <;> simp
  | hangup h =>
    obtain ⟨hq, hr, ha, hp, -, -⟩ := no_writes env now (upsertStatus_of_endsCall h)
    rw [step_hangup env present now c h, hq, hr, ha, hp]
    split <;> simp [Columns.hangup]
  | idle hupsert hhold hunhold hends =>
    obtain ⟨hq, hr, ha, hp, -, -⟩ := no_writes env now hupsert
    rw [step_idle env present now c hupsert hhold hunhold hends, hq, hr, ha, hp]
    simp

end Kinds

end KasterCti.Calls
