import KasterCti.Calls.SessionEngine
import KasterCti.Library.Trace

/-!
# The order of session statuses

`SESSION_PRECEDENCE` ranks the statuses, and the comment over `upsertSession`
forbids a way back. The upsert compares ranks, `finalizeHangup` writes the
largest one, `resumeHold` is the documented exception, and `markHold` compares
nothing: an answered call in transfer or in after-call work goes back to hold.

Results:
1. `applyRow_status`: what an event does to the status of the row it finds.
2. `engine_never_regresses_iff`: a run of the engine never regresses exactly
   when no hold of it reaches an answered call past hold.
3. `hold_regresses_after_call_work`: such a run exists.
-/

namespace KasterCti.Calls

open JsText Trace

/-- The state after one call of the engine. -/
def engineStep (env : Env) (w : World) (call : EngineCall) : World :=
  (processNormalizedEvent env w call).2

/-- The status changes that the precedence allows: the rank does not fall, or an
unhold takes a held call back to talking. -/
def AllowedChange (event : AmiEvent) (before after : SessionStatus) : Prop :=
  statusRank before ≤ statusRank after ∨
    (event.eventName = .unhold ∧ before = .hold ∧ after = .talking)

/-- Every call of the run changes the status of every session as allowed. -/
def NeverRegresses (env : Env) (w : World) (calls : List EngineCall) : Prop :=
  Along (engineStep env)
    (fun w call => ∀ k row row', w.sessions k = some row →
      (engineStep env w call).sessions k = some row' →
      AllowedChange call.event row.sessionStatus row'.sessionStatus) w calls

/-- A hold that reaches the row of an answered call which is in transfer or in
after-call work. -/
def HoldsLate (env : Env) (w : World) (call : EngineCall) : Prop :=
  call.event.eventName = .hold ∧ w.reaches env call = true ∧
    ∃ row, w.sessions call.key = some row ∧ row.answeredAt.isSome = true ∧
      (row.sessionStatus = .transferring ∨ row.sessionStatus = .afterCallWork)

/-! ## One event on one row -/

theorem guardStatus_rank_le (found status : SessionStatus) :
    statusRank found ≤ statusRank (guardStatus found status) := by
  unfold guardStatus
  split <;> omega

/-- An upsert whose status is not a hold keeps a row held or not, unless the
status moves it on. -/
theorem guardStatus_eq_hold {found status : SessionStatus} (hrank : statusRank status ≤ 30) :
    guardStatus found status = .hold ↔ found = .hold := by
  cases found <;> cases status <;> simp_all [guardStatus, statusRank]

theorem guardStatus_eq_ended {found status : SessionStatus} (hrank : statusRank status ≤ 50) :
    guardStatus found status = .ended ↔ found = .ended := by
  cases found <;> cases status <;> simp_all [guardStatus, statusRank]

theorem rank_le_ended (status : SessionStatus) : statusRank status ≤ statusRank .ended := by
  cases status <;> decide

section Row
variable {env : Env} {event : AmiEvent} {originate : Option PendingOriginate} {now : Time}
  {row row' : CallSession} (h : applyRow env event originate now (some row) = some row')
include h

/-- The status of the row after an event, by the function that writes it. -/
theorem applyRow_status :
    (∃ status, row'.sessionStatus = guardStatus row.sessionStatus status) ∨
      row'.sessionStatus = row.sessionStatus ∨
      row'.sessionStatus = .ended ∨
      (event.eventName = .hold ∧ holdApplies row = true ∧ row'.sessionStatus = .hold) ∨
      (event.eventName = .unhold ∧ row.sessionStatus = .hold ∧ row'.sessionStatus = .talking) := by
  unfold applyRow eventWrite at h
  cases hname : event.eventName with
  | newchannel =>
    simp only [hname, ensureSessionStarted] at h
    split at h <;> simp at h <;> subst h <;> simp [fillBlanks]
  | queueCallerJoin | agentCalled | agentConnect | bridgeEnter | agentComplete =>
    simp only [hname, upsertSession] at h
    simp at h
    subst h
    exact .inl ⟨_, rfl⟩
  | hold =>
    simp only [hname, markHold] at h
    split at h <;> simp at h <;> subst h
    · next happ => exact .inr (.inr (.inr (.inl ⟨rfl, happ, rfl⟩)))
    · exact .inr (.inl rfl)
  | unhold =>
    simp only [hname, resumeHold] at h
    split at h <;> simp at h <;> subst h
    · next hhold => exact .inr (.inr (.inr (.inr ⟨rfl, hhold, rfl⟩)))
    · exact .inr (.inl rfl)
  | hangup =>
    simp only [hname, finalizeHangup] at h
    split at h
    · split at h <;> simp at h <;> subst h
      · exact .inr (.inl rfl)
      · exact .inr (.inr (.inl rfl))
    · simp at h
      subst h
      exact .inr (.inl rfl)
  | _ =>
    simp [hname] at h
    subst h
    exact .inr (.inl rfl)

/-- An event changes a status as allowed, unless it is a hold of an answered
call whose status is already past hold. -/
theorem applyRow_allowed
    (hlate : ¬ (event.eventName = .hold ∧ row.answeredAt.isSome = true ∧
      (row.sessionStatus = .transferring ∨ row.sessionStatus = .afterCallWork))) :
    AllowedChange event row.sessionStatus row'.sessionStatus := by
  rcases applyRow_status h with ⟨status, hst⟩ | hst | hst | ⟨hname, happ, hst⟩ | hunhold
  · exact .inl (hst ▸ guardStatus_rank_le _ _)
  · exact .inl (by rw [hst])
  · exact .inl (hst ▸ rank_le_ended _)
  · refine .inl ?_
    simp only [holdApplies, Bool.and_eq_true, decide_eq_true_eq, ne_eq] at happ
    rw [hst]
    cases hrow : row.sessionStatus <;> simp_all [statusRank]
  · exact .inr hunhold

end Row

/-- A late hold lowers the rank. -/
theorem applyRow_late_hold (env : Env) {event : AmiEvent} (originate : Option PendingOriginate)
    (now : Time) {row : CallSession} (hname : event.eventName = .hold)
    (hanswered : row.answeredAt.isSome = true)
    (hstatus : row.sessionStatus = .transferring ∨ row.sessionStatus = .afterCallWork) :
    ∃ row', applyRow env event originate now (some row) = some row' ∧
      ¬ AllowedChange event row.sessionStatus row'.sessionStatus := by
  have happ : holdApplies row = true := by
    rcases hstatus with h | h <;> simp [holdApplies, hanswered, h]
  refine ⟨{ row with sessionStatus := .hold, updatedAt := event.at now }, ?_, ?_⟩
  · simp [applyRow, eventWrite, hname, markHold, happ]
  · rcases hstatus with h | h <;> simp [AllowedChange, hname, h, statusRank]

/-! ## Runs -/

/-- One call of the engine changes every status as allowed exactly when it is
not a late hold. -/
theorem engineStep_allowed_iff (env : Env) (w : World) (call : EngineCall) :
    (∀ k row row', w.sessions k = some row → (engineStep env w call).sessions k = some row' →
      AllowedChange call.event row.sessionStatus row'.sessionStatus) ↔ ¬ HoldsLate env w call := by
  constructor
  · rintro hall ⟨hname, hreach, row, hrow, hanswered, hstatus⟩
    obtain ⟨originate, hstep⟩ := processNormalizedEvent_sessions env w call call.key
    obtain ⟨row', happly, hbad⟩ :=
      applyRow_late_hold env originate call.now hname hanswered hstatus
    rw [if_pos ⟨rfl, hreach⟩, hrow, happly] at hstep
    exact hbad (hall call.key row row' hrow hstep)
  · intro hlate k row row' hrow hrow'
    obtain ⟨originate, hstep⟩ := processNormalizedEvent_sessions env w call k
    rw [engineStep, hstep, hrow] at hrow'
    split at hrow'
    · next hat =>
      obtain ⟨rfl, hreach⟩ := hat
      refine applyRow_allowed hrow' ?_
      rintro ⟨hname, hanswered, hstatus⟩
      exact hlate ⟨hname, hreach, row, hrow, hanswered, hstatus⟩
    · cases hrow'
      exact .inl (le_refl _)

/-- A run of the engine, from any database, never regresses exactly when none of
its holds reaches an answered call that is in transfer or in after-call work. -/
theorem engine_never_regresses_iff (env : Env) (w : World) (calls : List EngineCall) :
    NeverRegresses env w calls ↔
      Along (engineStep env) (fun w call => ¬ HoldsLate env w call) w calls :=
  along_congr (engineStep_allowed_iff env)

/-! ## A run that regresses -/

/-- An event of the call `c1`, numbered to keep the fingerprints apart. -/
def exCall (name : EventName) (seconds : Nat) : EngineCall :=
  { event := { eventName := name, tenantId := "t", linkedid := some "c1",
               eventTime := some (seconds * 1000) }
    now := seconds * 1000 }

def exKey : CallKey := ⟨"t", "c1"⟩

/-- The agent answers, the queue reports the end of the agent's part, and a hold
of the caller arrives after it. -/
def exLateHold : List EngineCall :=
  [exCall .agentConnect 1, exCall .agentComplete 2, exCall .hold 3]

theorem hold_regresses_after_call_work : ¬ NeverRegresses exEnv World.empty exLateHold := by
  intro h
  have hlast := (engineStep_allowed_iff _ _ _).1
    (h [exCall .agentConnect 1, exCall .agentComplete 2] (exCall .hold 3) [] rfl)
  refine hlast ⟨rfl, by decide, ?_⟩
  exact ⟨_, rfl, by decide, by decide⟩

end KasterCti.Calls
