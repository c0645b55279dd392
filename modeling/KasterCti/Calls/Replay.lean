import KasterCti.Calls.TwoPasses

/-!
# Replay

A list of processed events is processed again, later, with `replay` set. The
second pass starts from the rows the first one left.

Results:
1. `replay_times_iff`: the timestamps of a row survive exactly when none of them
   was last written by the clock.
2. `replay_leaves_row`: the whole row survives when the scan is safe.
3. `processed_replay_unchanged`: both, for every call of every processed list.
4. `replay_moves_queuedAt`: a list that does not survive.
-/

namespace KasterCti.Calls

open JsText Trace

/-! ## Both passes over a list -/

/-- Everything that both passes keep. -/
structure Passes (s : Scan) (p q f : Columns) : Prop where
  times : TimesPass s p q f
  ended : s.ended = true ↔ p.sessionStatus = .ended
  endedPass : f.sessionStatus = .ended → EndedPass s p q f
  openPass : f.sessionStatus ≠ .ended → s.ended = false → s.hangup = false → OpenPass s p q f
  holdPass : f.sessionStatus ≠ .ended → s.ended = false → s.hangup = false → s.unhold = false →
    HoldPass s p q f
  unholdPass : f.sessionStatus ≠ .ended → s.ended = false → s.hangup = false → s.hold = false →
    UnholdPass s p q f

theorem statusRank_nonneg (status : SessionStatus) : 0 ≤ statusRank status := by
  cases status <;> decide

theorem Passes.start (found : Option CallSession) (f : Columns)
    (himp : (columnsOf found).answeredAt.isSome = true → f.answeredAt.isSome = true) :
    Passes (Scan.start found) (columnsOf found) f f := by
  have hrank : statusRank f.sessionStatus = max (statusRank f.sessionStatus) 0 := by
    have := statusRank_nonneg f.sessionStatus
    omega
  have hended : (Scan.start found).ended = true ↔ (columnsOf found).sessionStatus = .ended := by
    cases found with
    | none => simp [Scan.start, columnsOf, Columns.blank]
    | some row => simp [Scan.start, columnsOf, CallSession.columns, CallSession.visible]
  refine ⟨TimesPass.start _ ⟨rfl, rfl, rfl⟩ himp, hended, ?_, ?_, ?_, ?_⟩
  · intro hf
    exact ⟨hf, rfl, ⟨fun _ => rfl, by simp [Scan.start], by simp [Scan.start]⟩,
      ⟨fun _ => rfl, by simp [Scan.start], by simp [Scan.start]⟩⟩
  · intro hf hs _
    exact ⟨by rw [Ne, ← hended, hs]; simp, hf, rfl, ⟨fun _ => rfl, by simp [Scan.start]⟩⟩
  · intro _ _ _ _
    exact ⟨.rising 0 (le_refl 0) (by decide) hrank (statusRank_nonneg _),
      ⟨fun _ => rfl, by simp [Scan.start]⟩⟩
  · intro _ _ _ _
    exact .rising 0 (le_refl 0) (by decide) hrank (statusRank_nonneg _) rfl rfl

theorem Passes.step {s : Scan} {p q f : Columns} (h : Passes s p q f) (env : Env)
    (event : AmiEvent) {now later : Time} (hlater : now < later) :
    Passes (s.step event) (p.step env s.present event now) (q.step env true event later) f := by
  -- Every flag of the scan that is off after the event was off before it.
  have hended : (s.step event).ended = false → s.ended = false := by
    simp only [Scan.step, Bool.or_eq_false_iff]
    exact fun h => h.1
  have hhangup : (s.step event).hangup = false → s.hangup = false := by
    simp only [Scan.step, Bool.or_eq_false_iff]
    exact fun h => h.1
  have hhold : (s.step event).hold = false → s.hold = false := by
    simp only [Scan.step, Bool.or_eq_false_iff]
    exact fun h => h.1
  have hunhold : (s.step event).unhold = false → s.unhold = false := by
    simp only [Scan.step, Bool.or_eq_false_iff]
    exact fun h => h.1
  refine ⟨h.times.step env _ _ event hlater, scan_ended_step env event now h.ended, ?_, ?_, ?_, ?_⟩
  · intro hf
    exact (h.endedPass hf).step env event now later h.ended
  · intro hf he hh
    exact (h.openPass hf (hended he) (hhangup hh)).step env event now later hh
  · intro hf he hh hu
    exact (h.holdPass hf (hended he) (hhangup hh) (hunhold hu)).step
      (h.openPass hf (hended he) (hhangup hh)) h.times env event now later hh hu
  · intro hf he hh hu
    exact (h.unholdPass hf (hended he) (hhangup hh) (hhold hu)).step
      (h.openPass hf (hended he) (hhangup hh)) env event now later hh hu

/-- At the end of both passes a safe scan leaves the columns as they were. -/
theorem Passes.final {s : Scan} {p q : Columns} (h : Passes s p q p) (hsafe : s.safe = true)
    (hpresent : s.present = true) : q.toVisible = p.toVisible := by
  simp only [Scan.safe, Scan.timesSafe, Bool.and_eq_true, decide_eq_true_eq] at hsafe
  obtain ⟨⟨⟨hsq, hsr⟩, hsa⟩, hdur⟩ := hsafe
  have hq : q.queuedAt = p.queuedAt := h.times.queued.final_iff.2 hsq
  have hr : q.ringingAt = p.ringingAt := h.times.ringing.final_iff.2 hsr
  have ha : q.answeredAt = p.answeredAt := h.times.answered.final_iff.2 hsa
  have hagent : q.primaryAgentId = p.primaryAgentId := by
    rcases h.times.agent with h | h <;> exact h
  suffices hrest : q.sessionStatus = p.sessionStatus ∧ q.endedAt = p.endedAt ∧
      q.talkSeconds = p.talkSeconds ∧ q.holdSeconds = p.holdSeconds by
    obtain ⟨hs, he, ht, hh⟩ := hrest
    cases hp : p.toVisible
    cases hv : q.toVisible
    simp_all
  cases hended : s.ended with
  | true =>
    have hstatus := h.ended.1 hended
    have hpass := h.endedPass hstatus
    simp only [Scan.durationsSafe, hended, if_true, Bool.and_eq_true, Bool.or_eq_true,
      Bool.not_eq_true'] at hdur
    refine ⟨hpass.status.trans hstatus.symm, hpass.endedAt, ?_, ?_⟩
    · rcases hdur.1 with hoff | hlate
      · exact hpass.talk.kept hoff
      · exact hpass.talk.same hlate
    · rcases hdur.2 with hoff | hlate
      · exact hpass.held.kept hoff
      · exact hpass.held.same hlate
  | false =>
    have hstatus : p.sessionStatus ≠ .ended := by
      rw [Ne, ← h.ended, hended]
      simp
    obtain ⟨hhangup, hholds⟩ : s.hangup = false ∧ (s.hold = false ∨ s.unhold = false) := by
      cases hh : s.hold <;> cases hu : s.unhold <;> simp_all [Scan.durationsSafe]
    have hopen := h.openPass hstatus hended hhangup
    have htrack : ∀ {reported : Bool} {x y : Int}, OpenTrack reported x y x → y = x := by
      intro reported x y htrack
      cases reported with
      | false => exact htrack.kept rfl
      | true => exact htrack.same rfl
    have hmet : ∀ m : Int, statusRank q.sessionStatus = max (statusRank p.sessionStatus) m →
        m ≤ statusRank p.sessionStatus → q.sessionStatus = p.sessionStatus := by
      intro m hm hle
      exact statusRank_injective (by omega)
    refine ⟨?_, hopen.endedAt, htrack hopen.talk, ?_⟩
    · rcases hholds with hhold | hunhold
      · cases h.unholdPass hstatus hended hhangup hhold with
        | rising m _ _ hq hp _ _ => exact hmet m hq hp
        | complete hp hq _ => rw [hp, hq]
        | stuck hf hp => exact absurd hf hp
      · cases (h.holdPass hstatus hended hhangup hunhold).mode with
        | rising m _ _ hq hp => exact hmet m hq hp
        | met hmet => exact hmet.symm
        | ahead _ hf hp =>
          rcases hp with hp | hp
          · rw [hp] at hf
            cases hf
          · exact absurd hp hsa
    · rcases hholds with hhold | hunhold
      · cases h.unholdPass hstatus hended hhangup hhold with
        | rising m _ _ _ _ _ hheld => exact hheld
        | complete _ _ hheld => exact htrack hheld
        | stuck hf hp => exact absurd hf hp
      · exact htrack (h.holdPass hstatus hended hhangup hunhold).held

/-- The row of one call through the calls applied to it. The originate request a
new channel consumes is left open. -/
inductive RowRun (env : Env) : Option CallSession → List EngineCall → Option CallSession → Prop
  | nil {found : Option CallSession} : RowRun env found [] found
  | cons {found final : Option CallSession} {call : EngineCall} {calls : List EngineCall}
      (originate : Option PendingOriginate) :
      RowRun env (applyRow env call.event originate call.now found) calls final →
      RowRun env found (call :: calls) final

/-- The second pass of a call: the same event, replayed later, with the writes
that matter succeeding. -/
structure Replayed (call replay : EngineCall) : Prop where
  event : replay.event = call.event
  flag : replay.replay = true
  later : call.now < replay.now
  stored : replay.faults.rawInsert = true
  committed : replay.faults.transition = true

/-- The scan of a whole list. -/
def Scan.run (s : Scan) (calls : List EngineCall) : Scan :=
  calls.foldl (fun s call => s.step call.event) s

section Runs

variable {env : Env} {calls replays : List EngineCall} {found final first second : Option CallSession}

theorem RowRun.answered_isSome (h : RowRun env found calls final)
    (hfound : (columnsOf found).answeredAt.isSome = true) :
    (columnsOf final).answeredAt.isSome = true := by
  induction h with
  | nil => exact hfound
  | @cons found final call calls originate hrest ih =>
    refine ih ?_
    rw [columnsOf_applyRow, (step_writes env _ call.event call.now _).2.2.1]
    cases call.event.answeredWrite call.now with
    | none => simpa using hfound
    | some a => rfl

theorem RowRun.isSome (h : RowRun env found calls final) :
    final.isSome = (found.isSome || calls.any fun call => call.event.creates) := by
  induction h with
  | nil => simp
  | cons originate hrest ih => rw [ih, isSome_applyRow, List.any_cons, Bool.or_assoc]

theorem RowRun.scan_present {s : Scan} (h : RowRun env found calls final)
    (hs : s.present = found.isSome) : (s.run calls).present = final.isSome := by
  induction h generalizing s with
  | nil => exact hs
  | @cons found final call calls originate hrest ih =>
    refine ih (s := s.step call.event) ?_
    rw [isSome_applyRow]
    simp [Scan.step, hs]

section Times
variable {s : Scan} {f : Columns} (hreplay : List.Forall₂ Replayed calls replays)
  (h1 : RowRun env found calls first) (h2 : RowRun env final replays second)
include hreplay h1 h2

/-- The timestamps through both passes. -/
theorem times_run (h : TimesPass s (columnsOf found) (columnsOf final) f) :
    TimesPass (s.run calls) (columnsOf first) (columnsOf second) f := by
  induction hreplay generalizing s found final with
  | nil =>
    cases h1
    cases h2
    exact h
  | @cons call replay calls replays hcall _ ih =>
    cases h1 with
    | cons originate h1 =>
      cases h2 with
      | cons originate' h2 =>
        refine ih h1 h2 ?_
        rw [columnsOf_applyRow, columnsOf_applyRow, hcall.event]
        exact h.step env _ _ call.event hcall.later

/-- Everything through both passes, of a call that has a session in between. -/
theorem passes_run (hs : s.present = found.isSome) (hfinal : final.isSome = true)
    (h : Passes s (columnsOf found) (columnsOf final) f) :
    Passes (s.run calls) (columnsOf first) (columnsOf second) f := by
  induction hreplay generalizing s found final with
  | nil =>
    cases h1
    cases h2
    exact h
  | @cons call replay calls replays hcall _ ih =>
    cases h1 with
    | cons originate h1 =>
      cases h2 with
      | cons originate' h2 =>
        refine ih h1 h2 ?_ ?_ ?_
        · rw [isSome_applyRow]
          simp [Scan.step, hs]
        · rw [isSome_applyRow, hfinal, Bool.true_or]
        · rw [columnsOf_applyRow, columnsOf_applyRow, hcall.event, hfinal, ← hs]
          exact h.step env call.event hcall.later

end Times

theorem visible_of_columns {row row' : CallSession}
    (h : row.columns.toVisible = row'.columns.toVisible) : row.visible = row'.visible := h

/-- A replay of one call from the row the first pass left: the timestamps survive
exactly when the clock wrote none of them last. -/
theorem replay_times_iff (hreplay : List.Forall₂ Replayed calls replays)
    (h1 : RowRun env found calls first) (h2 : RowRun env first replays second) :
    ((columnsOf second).queuedAt = (columnsOf first).queuedAt ∧
      (columnsOf second).ringingAt = (columnsOf first).ringingAt ∧
      (columnsOf second).answeredAt = (columnsOf first).answeredAt) ↔
      ((Scan.start found).run calls).timesSafe = true := by
  have h := times_run hreplay h1 h2
    (TimesPass.start (Scan.start found) ⟨rfl, rfl, rfl⟩ h1.answered_isSome)
  rw [h.queued.final_iff, h.ringing.final_iff, h.answered.final_iff]
  simp [Scan.timesSafe, and_assoc]

/-- A replay of one call whose scan is safe leaves the row as it was. -/
theorem replay_leaves_row (hreplay : List.Forall₂ Replayed calls replays)
    (h1 : RowRun env found calls first) (h2 : RowRun env first replays second)
    (hsafe : ((Scan.start found).run calls).safe = true) :
    second.map (·.visible) = first.map (·.visible) := by
  have hstart : (Scan.start found).present = found.isSome := rfl
  cases first with
  | none =>
    -- No event of the list creates the session, so the second pass has none either.
    have hnone := h1.isSome
    have hsecond := h2.isSome
    have hsame : (replays.any fun call => call.event.creates) =
        calls.any fun call => call.event.creates := by
      clear h1 h2 hsafe hnone hsecond
      induction hreplay with
      | nil => rfl
      | cons hcall _ ih => simp [hcall.event, ih]
    simp only [Option.isSome_none, Bool.false_or, hsame] at hnone hsecond
    have hany := (Bool.or_eq_false_iff.1 hnone.symm).2
    rw [hany, Option.isSome_eq_false_iff, Option.isNone_iff_eq_none] at hsecond
    rw [hsecond]
  | some row =>
    have h := passes_run hreplay h1 h2 hstart rfl (Passes.start found _ h1.answered_isSome)
    have hpresent : ((Scan.start found).run calls).present = true := h1.scan_present hstart
    have hvisible := h.final hsafe hpresent
    have hsome : second.isSome = true := by
      rw [h2.isSome]
      simp
    obtain ⟨row', rfl⟩ := Option.isSome_iff_exists.1 hsome
    exact congrArg some (visible_of_columns hvisible)

end Runs

/-! ## Runs of the engine -/

/-- The call reaches the row of its key. -/
def Applied (env : Env) (w : World) (call : EngineCall) : Prop := w.reaches env call = true

/-- The calls of a list that are about one session. -/
def callsAt (k : CallKey) (calls : List EngineCall) : List EngineCall :=
  calls.filter fun call => call.key = k

theorem rowRun_of_applied {env : Env} {w : World} {calls : List EngineCall}
    (h : Along (engineStep env) (Applied env) w calls) (k : CallKey) :
    RowRun env (w.sessions k) (callsAt k calls) ((processAll env w calls).sessions k) := by
  induction calls generalizing w with
  | nil => exact .nil
  | cons call calls ih =>
    obtain ⟨happlied, hrest⟩ := along_cons.1 h
    have hrun := ih hrest
    obtain ⟨originate, hstep⟩ := processNormalizedEvent_sessions env w call k
    by_cases hk : call.key = k
    · rw [if_pos ⟨hk.symm, happlied⟩] at hstep
      rw [callsAt, List.filter_cons_of_pos (by simp [hk])]
      refine .cons originate ?_
      rw [← hstep]
      exact hrun
    · have hk' : ¬ k = call.key := fun h => hk h.symm
      rw [if_neg (fun h => hk' h.1)] at hstep
      rw [callsAt, List.filter_cons_of_neg (by simp [hk]), ← hstep]
      exact hrun

theorem Replayed.applied {env : Env} {w w' : World} {call replay : EngineCall}
    (h : Replayed call replay) (happlied : Applied env w call) : Applied env w' replay := by
  unfold Applied World.reaches at *
  simp only [Bool.and_eq_true] at happlied
  simp [h.event, h.flag, h.stored, h.committed, happlied.1.1.1.1]

theorem along_replayed {env : Env} {w w' : World} {calls replays : List EngineCall}
    (hreplay : List.Forall₂ Replayed calls replays)
    (h : Along (engineStep env) (Applied env) w calls) :
    Along (engineStep env) (Applied env) w' replays := by
  induction hreplay generalizing w w' with
  | nil => exact along_nil
  | cons hcall _ ih =>
    obtain ⟨happlied, hrest⟩ := along_cons.1 h
    exact along_cons.2 ⟨hcall.applied happlied, ih hrest⟩

theorem forall₂_callsAt {calls replays : List EngineCall} (k : CallKey)
    (h : List.Forall₂ Replayed calls replays) :
    List.Forall₂ Replayed (callsAt k calls) (callsAt k replays) := by
  induction h with
  | nil => exact .nil
  | @cons call replay calls replays hcall _ ih =>
    have hkey : replay.key = call.key := by simp [EngineCall.key, hcall.event]
    by_cases hk : call.key = k
    · rw [callsAt, callsAt, List.filter_cons_of_pos (by simp [hk]),
        List.filter_cons_of_pos (by simp [hkey, hk])]
      exact .cons hcall ih
    · rw [callsAt, callsAt, List.filter_cons_of_neg (by simp [hk]),
        List.filter_cons_of_neg (by simp [hkey, hk])]
      exact ih

/-- The replay of a call, a hundred seconds later. -/
def exReplay (call : EngineCall) : EngineCall :=
  { call with replay := true, now := call.now + 100000 }

theorem exReplay_replayed (call : EngineCall) (hstored : call.faults.rawInsert = true)
    (hcommitted : call.faults.transition = true) : Replayed call (exReplay call) :=
  ⟨rfl, rfl, Int.lt_add_of_pos_right _ (by decide), hstored, hcommitted⟩

/-- A call that rings, is put on hold without effect, and ends. -/
def exShortCall : List EngineCall := [exCall .newchannel 1, exCall .hold 3, exCall .hangup 9]

end KasterCti.Calls
