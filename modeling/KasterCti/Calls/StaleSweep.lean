import KasterCti.Calls.Columns
import KasterCti.Calls.Terminal

/-!
# The stale-session sweep

`SessionRecoverySweeperService.sweep` ends sessions that look abandoned: those in a
list of statuses whose `updatedAt` is more than ten minutes old. The column is
written when a row is created and when a call is put on or off hold, and by no other
event.

Results:
1. `applyRow_updatedAt`: what an event does to `updatedAt`.
2. `watched_stamped`: in every run the column holds the last stamp.
3. `sweep_exact_iff`: every sweep of a run ends exactly the idle sessions if and only
   if the stamps follow the events when it runs.
4. `live_call_swept`: a call with an event a second ago is ended.
5. `held_call_skipped`: a call on hold is never ended.
-/

namespace KasterCti.Calls

open JsText Trace

/-! ## The sweep -/

def staleAfterMs : Int := 10 * 60 * 1000

/-- The statuses the sweep asks for. -/
def sweptStatuses : List SessionStatus :=
  [.new, .queued, .ringingAgent, .talking, .afterCallWork, .transferring]

/-- The `where` of the sweep. -/
def isStale (staleBefore : Time) (row : CallSession) : Bool :=
  row.sessionStatus ∈ sweptStatuses && row.updatedAt < staleBefore

def recoveredRow (row : CallSession) (now : Time) : CallSession :=
  { row with sessionStatus := .ended, endedAt := row.endedAt <|> some now }

/-- The database of the services with what the sweep adds to it. -/
structure Watched where
  world : World
  resultCode : CallKey → Option String
  /-- The `call.ended` messages of the sweep. -/
  published : List CallKey
  /-- When events were applied to the session, the last one first. -/
  applied : CallKey → List Time
  /-- The time that an event last wrote into `updatedAt`. -/
  stamped : CallKey → Option Time

namespace Watched

def init : Watched := ⟨World.empty, fun _ => none, [], fun _ => [], fun _ => none⟩

/-- The loop over the rows that `findMany` has returned. -/
def recover (s : Watched) (now : Time) (key : CallKey) : Watched :=
  match s.world.sessions key with
  | none => s
  | some row =>
    { s with
      world := s.world.setSession key (recoveredRow row now)
      resultCode := fun k =>
        if k = key then s.resultCode key <|> some "RECOVERY_TIMEOUT" else s.resultCode k
      published := s.published ++ [key] }

def sweep (s : Watched) (leader : Bool) (now : Time) (found : List CallKey) : Watched :=
  if leader then found.foldl (recover · now) s else s

end Watched

/-- What `findMany` returns when there are at most a hundred stale sessions: all of
them. -/
structure Answers (s : Watched) (now : Time) (found : List CallKey) : Prop where
  limit : found.length ≤ 100
  distinct : found.Nodup
  stale : ∀ k, k ∈ found ↔ ∃ row, s.world.sessions k = some row ∧ isStale (now - staleAfterMs) row = true

/-! ## Events and stamps -/

/-- The time that an event writes into `updatedAt` of the row it finds. -/
def AmiEvent.stamp (event : AmiEvent) (now : Time) : Option CallSession → Option Time
  | none => if event.creates then some now else none
  | some row =>
    match event.eventName with
    | .hold => if holdApplies row then some (event.at now) else none
    | .unhold => if row.sessionStatus = .hold then some (event.at now) else none
    | _ => none

inductive WatchAction
  | engine (call : EngineCall)
  | sweep (leader : Bool) (now : Time) (found : List CallKey)

namespace Watched

/-- The event is applied to a session, which may be new. -/
def applies (s : Watched) (env : Env) (call : EngineCall) (k : CallKey) : Bool :=
  k = call.key && s.world.reaches env call && ((engineStep env s.world call).sessions k).isSome

def engine (s : Watched) (env : Env) (call : EngineCall) : Watched :=
  { s with
    world := engineStep env s.world call
    applied := fun k => if s.applies env call k then call.now :: s.applied k else s.applied k
    stamped := fun k =>
      if k = call.key && s.world.reaches env call then
        call.event.stamp call.now (s.world.sessions k) <|> s.stamped k
      else s.stamped k }

/-- An event was applied to the session in the last ten minutes. -/
def Active (s : Watched) (now : Time) (k : CallKey) : Prop :=
  ∃ t ∈ s.applied k, now - staleAfterMs ≤ t

/-- The session was created, or put on or off hold, in the last ten minutes, by the
time in the event. -/
def Stamped (s : Watched) (now : Time) (k : CallKey) : Prop :=
  ∃ t, s.stamped k = some t ∧ now - staleAfterMs ≤ t

end Watched

def watchStep (env : Env) (s : Watched) : WatchAction → Watched
  | .engine call => s.engine env call
  | .sweep leader now found => s.sweep leader now found

/-- A sweep of the leader ends, of the sessions that have not ended, exactly those
without an event in the last ten minutes. -/
def SweepExact (env : Env) (s : Watched) : WatchAction → Prop
  | .sweep true now found => Answers s now found → ∀ k row, s.world.sessions k = some row →
      row.sessionStatus ≠ .ended →
        ((watchStep env s (.sweep true now found)).world.isEnded k ↔ ¬ s.Active now k)
  | _ => True

/-- When the leader sweeps, every session that has not ended and has had an event in the
last ten minutes is on hold or was stamped in them; and every one without an event is
not on hold and was not stamped. -/
def StampsFollow (s : Watched) : WatchAction → Prop
  | .sweep true now found => Answers s now found → ∀ k row, s.world.sessions k = some row →
      row.sessionStatus ≠ .ended →
        (s.Active now k → row.sessionStatus = .hold ∨ s.Stamped now k) ∧
        (¬ s.Active now k → row.sessionStatus ≠ .hold ∧ ¬ s.Stamped now k)
  | _ => True

/-! ## The column -/

/-- An event writes `updatedAt` exactly when it stamps the row. -/
theorem applyRow_updatedAt (env : Env) (event : AmiEvent) (originate : Option PendingOriginate)
    (now : Time) (found : Option CallSession) :
    (applyRow env event originate now found).map (·.updatedAt) =
      (event.stamp now found <|> found.map (·.updatedAt)) := by
  unfold applyRow eventWrite AmiEvent.stamp AmiEvent.creates
  cases found with
  | none =>
    cases event.eventName with
    | hangup => simp [finalizeHangup]
    | _ => rfl
  | some row =>
    cases hname : event.eventName with
    | newchannel =>
      simp only [ensureSessionStarted]
      split <;> simp [fillBlanks]
    | hold =>
      simp only [markHold]
      split <;> simp
    | unhold =>
      simp only [resumeHold]
      split <;> simp [resumedRow]
    | hangup =>
      simp only [finalizeHangup]
      split
      · split <;> simp [endedRow]
      · simp
    | _ => rfl

theorem recover_sessions (s : Watched) (now : Time) (key k : CallKey) :
    (s.recover now key).world.sessions k =
      if k = key then (s.world.sessions k).map (recoveredRow · now) else s.world.sessions k := by
  unfold Watched.recover
  split
  · next h =>
    split
    · next hk => rw [hk, h]; rfl
    · rfl
  · next row h =>
    by_cases hk : k = key
    · subst hk
      simp [h]
    · simp [hk, World.setSession_other _ _ hk]

/-- The loop ends every row it was given once. -/
theorem foldl_recover_sessions (now : Time) (found : List CallKey) (hfound : found.Nodup) (s : Watched)
    (k : CallKey) :
    (found.foldl (Watched.recover · now) s).world.sessions k =
      if k ∈ found then (s.world.sessions k).map (recoveredRow · now) else s.world.sessions k := by
  induction found generalizing s with
  | nil => simp
  | cons key found ih =>
    obtain ⟨hnew, hfound⟩ := List.nodup_cons.1 hfound
    rw [List.foldl_cons, ih hfound, recover_sessions]
    by_cases hk : k = key
    · subst hk
      simp [hnew]
    · simp [hk]

theorem foldl_recover_updatedAt (now : Time) (found : List CallKey) (s : Watched) (k : CallKey) :
    ((found.foldl (Watched.recover · now) s).world.sessions k).map (·.updatedAt) =
      (s.world.sessions k).map (·.updatedAt) := by
  induction found generalizing s with
  | nil => rfl
  | cons key found ih =>
    rw [List.foldl_cons, ih, recover_sessions]
    split
    · rw [Option.map_map]
      rfl
    · rfl

theorem foldl_recover_stamped (now : Time) (found : List CallKey) (s : Watched) :
    (found.foldl (Watched.recover · now) s).stamped = s.stamped := by
  induction found generalizing s with
  | nil => rfl
  | cons key found ih =>
    rw [List.foldl_cons, ih]
    unfold Watched.recover
    split <;> rfl

/-- The column holds the last stamp. -/
def ColumnStamped (s : Watched) : Prop :=
  ∀ k, (s.world.sessions k).map (·.updatedAt) = s.stamped k

theorem watchStep_stamped (env : Env) {s : Watched} (h : ColumnStamped s) (a : WatchAction) :
    ColumnStamped (watchStep env s a) := by
  intro k
  cases a with
  | engine call =>
    obtain ⟨originate, hstep⟩ := processNormalizedEvent_sessions env s.world call k
    show ((engineStep env s.world call).sessions k).map (·.updatedAt) = _
    rw [engineStep, hstep]
    simp only [watchStep, Watched.engine]
    by_cases hat : k = call.key ∧ s.world.reaches env call = true
    · rw [if_pos hat, applyRow_updatedAt, h k]
      simp [hat]
    · rw [if_neg hat, if_neg (by simpa using hat), h k]
  | sweep leader now found =>
    cases leader with
    | true =>
      show ((found.foldl (Watched.recover · now) s).world.sessions k).map (·.updatedAt) =
        (found.foldl (Watched.recover · now) s).stamped k
      rw [foldl_recover_updatedAt, foldl_recover_stamped, h k]
    | false => exact h k

/-! ## Runs -/

theorem mem_sweptStatuses {status : SessionStatus} (hopen : status ≠ .ended) :
    status ∈ sweptStatuses ↔ status ≠ .hold := by
  cases status <;> simp_all [sweptStatuses]

/-- Which open sessions a sweep ends. -/
theorem sweep_isEnded {s : Watched} {now : Time} {found : List CallKey} (hs : ColumnStamped s)
    (hfound : Answers s now found) {k : CallKey} {row : CallSession}
    (hrow : s.world.sessions k = some row) (hopen : row.sessionStatus ≠ .ended) :
    (s.sweep true now found).world.isEnded k ↔ row.sessionStatus ≠ .hold ∧ ¬ s.Stamped now k := by
  have hstamp : s.stamped k = some row.updatedAt := by rw [← hs k, hrow]; rfl
  have hold : s.Stamped now k ↔ now - staleAfterMs ≤ row.updatedAt := by
    unfold Watched.Stamped
    rw [hstamp]
    simp
  have hstale : isStale (now - staleAfterMs) row = true ↔
      row.sessionStatus ≠ .hold ∧ ¬ s.Stamped now k := by
    rw [hold, isStale, Bool.and_eq_true, decide_eq_true_eq, decide_eq_true_eq,
      mem_sweptStatuses hopen, Int.not_le]
  rw [← hstale]
  have hmem : k ∈ found ↔ isStale (now - staleAfterMs) row = true := by
    rw [hfound.stale k]
    constructor
    · rintro ⟨row', hrow', hstale'⟩
      rw [hrow] at hrow'
      obtain rfl := Option.some.inj hrow'
      exact hstale'
    · intro h
      exact ⟨row, hrow, h⟩
  rw [← hmem]
  unfold World.isEnded Watched.sweep
  rw [if_pos rfl, foldl_recover_sessions now found hfound.distinct s k, hrow]
  by_cases hk : k ∈ found
  · rw [if_pos hk]
    exact ⟨fun _ => hk, fun _ => ⟨_, rfl, rfl⟩⟩
  · rw [if_neg hk]
    refine ⟨?_, fun h => absurd h hk⟩
    rintro ⟨row', hrow', hended⟩
    obtain rfl := Option.some.inj hrow'
    exact absurd hended hopen

theorem sweepExact_iff_stampsFollow (env : Env) {s : Watched} (hs : ColumnStamped s)
    (a : WatchAction) : SweepExact env s a ↔ StampsFollow s a := by
  cases a with
  | engine call => exact Iff.rfl
  | sweep leader now found =>
    cases leader with
    | false => exact Iff.rfl
    | true =>
      refine forall_congr' fun hfound => forall_congr' fun k => forall_congr' fun row =>
        forall_congr' fun hrow => forall_congr' fun hopen => ?_
      have hended := sweep_isEnded hs hfound hrow hopen
      show ((s.sweep true now found).world.isEnded k ↔ ¬ s.Active now k) ↔ _
      rw [hended]
      tauto

theorem watched_stamped (env : Env) (actions : List WatchAction) :
    ColumnStamped (actions.foldl (watchStep env) Watched.init) := by
  have hstart : ColumnStamped Watched.init := fun k => rfl
  have hall : Along (watchStep env) (fun _ _ => True) Watched.init actions := fun _ _ _ _ => trivial
  exact hall.invariant (fun s a _ h => watchStep_stamped env h a) hstart

/-- In every run of AMI events and sweeps: every sweep of the leader ends exactly the
sessions without an event in the last ten minutes if and only if the stamps follow the
events at every sweep. -/
theorem sweep_exact_iff (env : Env) (actions : List WatchAction) :
    Along (watchStep env) (SweepExact env) Watched.init actions ↔
      Along (watchStep env) StampsFollow Watched.init actions := by
  constructor
  · intro h pre a post hsplit
    exact (sweepExact_iff_stampsFollow env (watched_stamped env pre) a).1 (h pre a post hsplit)
  · intro h pre a post hsplit
    exact (sweepExact_iff_stampsFollow env (watched_stamped env pre) a).2 (h pre a post hsplit)

/-! ## Sweeps that are not exact -/

theorem engineStep_other (env : Env) (w : World) {call : EngineCall} {k : CallKey}
    (hk : k ≠ call.key) : (engineStep env w call).sessions k = w.sessions k := by
  obtain ⟨originate, hstep⟩ := processNormalizedEvent_sessions env w call k
  rw [engineStep, hstep, if_neg fun h => hk h.1]

/-- A call of `exKey` from the first second on, in which `name` happens after the time
that the sweep tolerates. -/
def exLong (name : EventName) : List WatchAction :=
  [.engine (exCall .agentConnect 1), .engine (exCall name 700)]

theorem exLong_other (name : EventName) {k : CallKey} (hk : k ≠ exKey) :
    ((exLong name).foldl (watchStep exEnv) Watched.init).world.sessions k = none := by
  show (engineStep exEnv (engineStep exEnv World.empty (exCall .agentConnect 1))
    (exCall name 700)).sessions k = none
  rw [engineStep_other exEnv _ hk, engineStep_other exEnv _ hk]
  rfl

/-- The other party joins the bridge; a second later the sweep ends the call. -/
theorem live_call_swept : ¬ Along (watchStep exEnv) (SweepExact exEnv) Watched.init
    (exLong .bridgeEnter ++ [.sweep true 701000 [exKey]]) := by
  intro h
  have hexact := h (exLong .bridgeEnter) (.sweep true 701000 [exKey]) [] rfl
  have hanswers : Answers ((exLong .bridgeEnter).foldl (watchStep exEnv) Watched.init) 701000
      [exKey] := by
    refine ⟨by decide, by decide, ?_⟩
    intro k
    by_cases hk : k = exKey
    · subst hk
      exact ⟨fun _ => ⟨_, rfl, by decide⟩, fun _ => List.mem_singleton_self _⟩
    · refine ⟨fun hmem => absurd (List.mem_singleton.1 hmem) hk, ?_⟩
      rintro ⟨row, hrow, -⟩
      rw [exLong_other .bridgeEnter hk] at hrow
      cases hrow
  have hiff := hexact hanswers exKey _ rfl (by decide)
  exact hiff.1 ⟨_, rfl, by decide⟩ ⟨700000, by decide, by decide⟩

/-- A call that was put on hold an hour ago, with nothing since, is not swept. -/
theorem held_call_skipped : ¬ Along (watchStep exEnv) (SweepExact exEnv) Watched.init
    (exLong .hold ++ [.sweep true 4300000 []]) := by
  intro h
  have hexact := h (exLong .hold) (.sweep true 4300000 []) [] rfl
  have hanswers : Answers ((exLong .hold).foldl (watchStep exEnv) Watched.init) 4300000 [] := by
    refine ⟨by decide, by decide, ?_⟩
    intro k
    refine ⟨fun hmem => absurd hmem List.not_mem_nil, ?_⟩
    rintro ⟨row, hrow, hstale⟩
    by_cases hk : k = exKey
    · subst hk
      have hheld : row.sessionStatus = .hold := by
        obtain rfl := Option.some.inj hrow
        decide
      simp [isStale, hheld, sweptStatuses] at hstale
    · rw [exLong_other .hold hk] at hrow
      cases hrow
  have hiff := hexact hanswers exKey _ rfl (by decide)
  have hidle : ¬ ((exLong .hold).foldl (watchStep exEnv) Watched.init).Active 4300000 exKey := by
    unfold Watched.Active
    decide
  obtain ⟨row, hrow, hended⟩ := hiff.2 hidle
  obtain rfl := Option.some.inj hrow
  revert hended
  decide

end KasterCti.Calls
