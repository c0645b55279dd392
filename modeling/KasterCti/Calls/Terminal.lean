import KasterCti.Calls.StatusOrder

/-!
# ENDED is terminal

The engine and the transfer detector write `sessionStatus` of the same rows. The
engine looks before it writes: an ended row keeps its status through every
event. The detector's fallback does not look, so a candidate that is still open
when the call ends puts the row back to talking (or ringing) when it expires or
when its dial fails.

Results:
1. `engineStep_ended`: the engine keeps every ended session ended.
2. `ended_terminal_iff`: in a run that mixes both components, ended is terminal
   exactly when no sweep and no failed consultation finds an ended session.
3. `sweep_revives_ended`: a run in which it is not.
-/

namespace KasterCti.Calls

open JsText Trace

/-- The steps of the two components. `request` is an API transfer request, which
leaves the candidate that a later step finds. -/
inductive CallAction
  | engine (call : EngineCall)
  | detect (event : AmiEvent) (now : Time)
  | sweep (now : Time) (olderThanMinutes : Nat)
  | request (key : CallKey) (fromAgentId fromExtension : Option String) (toExtension : String)
      (now : Time)

def callStep (env : Env) (w : World) : CallAction → World
  | .engine call => engineStep env w call
  | .detect event now => handle w event now
  | .sweep now olderThanMinutes => sweepExpired w now olderThanMinutes
  | .request key fromAgentId fromExtension toExtension now =>
    recordRequest w key fromAgentId fromExtension toExtension now

/-- The session of the call exists and has ended. -/
def World.isEnded (w : World) (k : CallKey) : Prop :=
  ∃ row, w.sessions k = some row ∧ row.sessionStatus = .ended

/-- A session that is ended after some steps of the run is ended after all the
steps that follow. -/
def EndedIsTerminal (env : Env) (w : World) (actions : List CallAction) : Prop :=
  ∀ pre mid post, actions = pre ++ mid ++ post → ∀ k, (pre.foldl (callStep env) w).isEnded k →
    ((pre ++ mid).foldl (callStep env) w).isEnded k

/-- The fallback of the detector meets an ended session: a dial fails that an
open candidate of the ended call waits for, or such a candidate expires. -/
def FallsBackOnEnded (w : World) : CallAction → Prop
  | .detect event _ => event.eventName = .dialEnd ∧
      ∃ k, event.callKey? = some k ∧ (w.failedConsult? event k).isSome = true ∧ w.isEnded k
  | .sweep now olderThanMinutes => ∃ c ∈ w.expiredCandidates now olderThanMinutes, w.isEnded c.key
  | .engine _ => False
  | .request .. => False

/-! ## One step -/

theorem guardStatus_ended (status : SessionStatus) : guardStatus .ended status = .ended := by
  cases status <;> decide

/-- No event of the engine changes the status of an ended row. -/
theorem applyRow_ended {env : Env} {event : AmiEvent} {originate : Option PendingOriginate}
    {now : Time} {row row' : CallSession} (hended : row.sessionStatus = .ended)
    (h : applyRow env event originate now (some row) = some row') :
    row'.sessionStatus = .ended := by
  rcases applyRow_status h with ⟨status, hst⟩ | hst | hst | ⟨_, happ, _⟩ | ⟨_, hhold, _⟩
  · rw [hst, hended, guardStatus_ended]
  · rw [hst, hended]
  · exact hst
  · simp [holdApplies, hended] at happ
  · rw [hended] at hhold
    cases hhold

/-- A row is never removed by an event. -/
theorem applyRow_isSome (env : Env) (event : AmiEvent) (originate : Option PendingOriginate)
    (now : Time) (row : CallSession) :
    ∃ row', applyRow env event originate now (some row) = some row' := by
  unfold applyRow
  cases eventWrite env event originate now (some row) with
  | none => exact ⟨row, rfl⟩
  | some write => exact ⟨write.1, rfl⟩

theorem engineStep_ended {env : Env} {w : World} {k : CallKey} (call : EngineCall)
    (h : w.isEnded k) : (engineStep env w call).isEnded k := by
  obtain ⟨row, hrow, hended⟩ := h
  obtain ⟨originate, hstep⟩ := processNormalizedEvent_sessions env w call k
  rw [hrow] at hstep
  unfold World.isEnded engineStep
  rw [hstep]
  split
  · obtain ⟨row', hrow'⟩ := applyRow_isSome env call.event originate call.now row
    exact ⟨row', hrow', applyRow_ended hended hrow'⟩
  · exact ⟨row, rfl, hended⟩

theorem restored_not_ended (found : Option CallSession) (now : Time) :
    ¬ ∃ row, found.map (restored · now) = some row ∧ row.sessionStatus = .ended := by
  rintro ⟨row, hrow, hended⟩
  cases found with
  | none => simp at hrow
  | some old =>
    simp only [Option.map_some, Option.some.injEq] at hrow
    subst hrow
    exact fallbackStatus_ne_ended old hended

/-- One step keeps every ended session ended exactly when the fallback does not
meet one. -/
theorem callStep_keeps_ended_iff (env : Env) (w : World) (action : CallAction) :
    (∀ k, w.isEnded k → (callStep env w action).isEnded k) ↔ ¬ FallsBackOnEnded w action := by
  cases action with
  | engine call => exact ⟨fun _ h => h, fun _ k hk => engineStep_ended call hk⟩
  | request key fromAgentId fromExtension toExtension now => exact ⟨fun _ h => h, fun _ k hk => hk⟩
  | detect event now =>
    constructor
    · rintro hkeep ⟨hname, k, hkey, hfail, hended⟩
      have hafter := hkeep k hended
      unfold World.isEnded callStep at hafter
      rw [handle_sessions, if_pos ⟨hname, hkey, hfail⟩] at hafter
      exact restored_not_ended _ _ hafter
    · intro hnot k hended
      have hcond : ¬ (event.eventName = .dialEnd ∧ event.callKey? = some k ∧
          (w.failedConsult? event k).isSome = true) := fun ⟨hname, hkey, hfail⟩ =>
        hnot ⟨hname, k, hkey, hfail, hended⟩
      unfold World.isEnded callStep
      rw [handle_sessions, if_neg hcond]
      exact hended
  | sweep now olderThanMinutes =>
    constructor
    · rintro hkeep ⟨c, hc, hended⟩
      have hany : (w.expiredCandidates now olderThanMinutes).any (fun d => d.key = c.key) = true :=
        List.any_eq_true.2 ⟨c, hc, by simp⟩
      have hafter := hkeep c.key hended
      unfold World.isEnded callStep at hafter
      rw [sweepExpired_sessions, if_pos hany] at hafter
      exact restored_not_ended _ _ hafter
    · intro hnot k hended
      have hany : ¬ (w.expiredCandidates now olderThanMinutes).any (fun c => c.key = k) = true := by
        intro h
        obtain ⟨c, hc, hk⟩ := List.any_eq_true.1 h
        simp only [decide_eq_true_eq] at hk
        exact hnot ⟨c, hc, hk ▸ hended⟩
      unfold World.isEnded callStep
      rw [sweepExpired_sessions, if_neg hany]
      exact hended

/-! ## Runs -/

/-- In every run that mixes the engine with the detector, ended is terminal
exactly when no step of it falls back on an ended session. -/
theorem ended_terminal_iff (env : Env) (w : World) (actions : List CallAction) :
    EndedIsTerminal env w actions ↔
      Along (callStep env) (fun w action => ¬ FallsBackOnEnded w action) w actions := by
  rw [← along_congr (callStep_keeps_ended_iff env)]
  constructor
  · intro h pre action post hsplit k hk
    have hafter := h pre [action] post (by simpa using hsplit) k hk
    rwa [List.foldl_append] at hafter
  · intro h pre mid post hsplit k hk
    rw [hsplit] at h
    rw [List.foldl_append]
    exact h.take.suffix.invariant (fun _ _ hstep hinv => hstep k hinv) hk

/-! ## A run in which it is not -/

/-- The agent asks for an attended transfer, the caller hangs up, and the
candidate expires a quarter of an hour later. -/
def exExpiry : List CallAction :=
  [.engine (exCall .agentConnect 1), .request exKey none (some "1001") "1002" 2000,
    .engine (exCall .hangup 3), .sweep 1000000 15]

theorem sweep_revives_ended : ¬ EndedIsTerminal exEnv World.empty exExpiry := by
  intro h
  obtain ⟨row, hrow, hended⟩ := h (exExpiry.take 3) (exExpiry.drop 3) [] (by simp) exKey
    ⟨_, rfl, by decide⟩
  have hstatus : (((exExpiry.take 3 ++ exExpiry.drop 3).foldl (callStep exEnv)
      World.empty).sessions exKey).map (·.sessionStatus) = some .talking := by decide
  rw [hrow] at hstatus
  simp [hended] at hstatus

end KasterCti.Calls
