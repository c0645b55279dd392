import KasterCti.LoadGen.RunSchedule
import Mathlib

/-!
# The schedule of a practical run

`buildPracticalSchedule`: the calls of the base schedule get ramp offsets and a jitter, are
sorted by these and pass through the loop of the base schedule once more. `validateScenario`
says which scenarios may run.

Results:
1. `practicalSchedule_withinLimit_iff`: exactly when the schedule keeps to the limit.
2. `crowded_start`: four calls without a ramp overrun a limit of two.
-/

namespace KasterCti.LoadGen

open Slots

structure TargetConfig where
  port : Int
  transport : String
  requestUriTemplate : String

structure LoadConfig where
  cps : Int
  maxConcurrent : Int
  totalCalls : Int
  rampUpSeconds : Int
  callStartJitterMs : Int

structure DisconnectMode where
  normalPercent : Int

structure CallFlowConfig where
  answerTimeoutMs : Int
  holdSecondsMin : Int
  holdSecondsMax : Int
  disconnectMode : DisconnectMode

/-- `txGain` is `none` where the file says it is not a number. -/
structure MediaConfig where
  beepIntervalMs : Int
  txGain : Option Rat

structure ReportingConfig where
  consoleRefreshMs : Int

structure Scenario where
  target : TargetConfig
  load : LoadConfig
  callFlow : CallFlowConfig
  media : MediaConfig
  reporting : ReportingConfig

/-- The conditions of `validateScenario` under which it throws, in its order. -/
def scenarioFaults (scenario : Scenario) : List (Bool × String) :=
  let { target, load, callFlow, media, reporting } := scenario
  [(target.port ≤ 0 || 65535 < target.port, "target.port must be between 1 and 65535"),
    (target.transport != "udp", "phase 1 supports only udp transport"),
    (!decide ("\x7bdid\x7d".toList <:+: target.requestUriTemplate.toList),
      "requestUriTemplate must contain \x7bdid\x7d"),
    (load.cps ≤ 0 || load.maxConcurrent ≤ 0 || load.totalCalls ≤ 0,
      "load values must be positive"),
    (load.rampUpSeconds < 0 || load.callStartJitterMs < 0,
      "rampUpSeconds and callStartJitterMs must be >= 0"),
    (load.totalCalls < load.maxConcurrent, "maxConcurrent must be <= totalCalls"),
    (callFlow.answerTimeoutMs ≤ 0, "answerTimeoutMs must be positive"),
    (callFlow.holdSecondsMin < 0 || callFlow.holdSecondsMax < 0,
      "holdSecondsMin and holdSecondsMax must be >= 0"),
    (callFlow.holdSecondsMax < callFlow.holdSecondsMin,
      "holdSecondsMin must be <= holdSecondsMax"),
    (callFlow.disconnectMode.normalPercent < 0 || 100 < callFlow.disconnectMode.normalPercent,
      "disconnectMode.normalPercent must be between 0 and 100"),
    (media.beepIntervalMs ≤ 0, "beepIntervalMs must be positive"),
    (media.txGain.any fun gain => gain < 0 || 1 < gain, "txGain must be between 0.0 and 1.0"),
    (reporting.consoleRefreshMs ≤ 0, "consoleRefreshMs must be positive")]

def validateScenario (scenario : Scenario) : Except String Unit :=
  match (scenarioFaults scenario).find? (·.1) with
  | some (_, message) => .error message
  | none => .ok ()

def deriveSimulatedCallDurationMs (scenario : Scenario) : Int :=
  max 1 (scenario.callFlow.holdSecondsMax * 1000)

def deterministicJitterMs (index : Nat) (jitterMs : Int) : Nat :=
  if jitterMs ≤ 0 then 0 else index * 37 % (jitterMs.toNat + 1)

/-- The square root is the exact one, rounded down. -/
def rampedStartOffsetMs (callNumber : Nat) (scenario : Scenario) : Nat :=
  let rampUpMs := (max 0 (scenario.load.rampUpSeconds * 1000)).toNat
  if rampUpMs ≤ 0 then 0
  else
    let targetCps := scenario.load.cps.toNat
    let callOrdinal := callNumber + 1
    if callOrdinal * 2000 ≤ targetCps * rampUpMs then
      Nat.sqrt (2000 * rampUpMs * callOrdinal / targetCps)
    else rampUpMs / 2 + 1000 * callOrdinal / targetCps

/-- The order of the sort. -/
def startsBefore (lhs rhs : ScheduledCall) : Prop :=
  lhs.startOffsetMs < rhs.startOffsetMs ∨
    lhs.startOffsetMs = rhs.startOffsetMs ∧ lhs.index ≤ rhs.index

instance : DecidableRel startsBefore := fun lhs rhs =>
  inferInstanceAs (Decidable (lhs.startOffsetMs < rhs.startOffsetMs ∨
    lhs.startOffsetMs = rhs.startOffsetMs ∧ lhs.index ≤ rhs.index))

/-- The ramp offset and the jitter of a call. -/
def offsetMs (scenario : Scenario) (index : Nat) : Nat :=
  rampedStartOffsetMs index scenario +
    deterministicJitterMs index scenario.load.callStartJitterMs

def candidateCalls (scenario : Scenario) (baseCalls : List ScheduledCall) : List ScheduledCall :=
  (baseCalls.mapIdx fun i baseCall => ⟨baseCall.index, offsetMs scenario i⟩).insertionSort
    startsBefore

/-- The times the loop keeps beside the schedule. -/
structure Span where
  firstStartMs : Nat := 0
  lastStartMs : Nat := 0
  totalScheduleMs : Nat := 0
  hasCalls : Bool := false

def Span.cover (simulatedCallDurationMs : Nat) (span : Span) (scheduledStartMs : Nat) : Span :=
  if !span.hasCalls then
    ⟨scheduledStartMs, scheduledStartMs, scheduledStartMs + simulatedCallDurationMs, true⟩
  else
    ⟨min span.firstStartMs scheduledStartMs, max span.lastStartMs scheduledStartMs,
      max span.totalScheduleMs (scheduledStartMs + simulatedCallDurationMs), true⟩

structure PracticalSchedule where
  schedule : RunSchedule
  simulatedCallDurationMs : Int
  firstStartMs : Nat
  lastStartMs : Nat
  totalScheduleMs : Nat
deriving DecidableEq

def runPlan (scenario : Scenario) : RunPlan :=
  ⟨scenario.load.cps, scenario.load.maxConcurrent, scenario.load.totalCalls⟩

def buildPracticalSchedule (scenario : Scenario) : Except String PracticalSchedule := do
  let simulatedCallDurationMs := deriveSimulatedCallDurationMs scenario
  let baseSchedule ← buildRunSchedule (runPlan scenario) simulatedCallDurationMs
  let progress := launchAll scenario.load.maxConcurrent.toNat simulatedCallDurationMs.toNat
    (candidateCalls scenario baseSchedule.calls)
  let span := (startsOf progress.calls).foldl (Span.cover simulatedCallDurationMs.toNat) {}
  return ⟨⟨baseSchedule.totalPlannedCalls, progress.maxSimultaneousCalls, progress.calls⟩,
    simulatedCallDurationMs, span.firstStartMs, span.lastStartMs, span.totalScheduleMs⟩

/-- What the schedules rely on in a scenario that was accepted. -/
structure Accepted (scenario : Scenario) : Prop where
  cps : 0 < scenario.load.cps
  maxConcurrent : 0 < scenario.load.maxConcurrent
  totalCalls : 0 < scenario.load.totalCalls
  rampUpSeconds : 0 ≤ scenario.load.rampUpSeconds
  limitReachable : scenario.load.maxConcurrent ≤ scenario.load.totalCalls

theorem accepted_of_valid {scenario : Scenario} (valid : validateScenario scenario = .ok ()) :
    Accepted scenario := by
  rw [validateScenario] at valid
  split at valid
  · cases valid
  · rename_i clean
    simp only [scenarioFaults, List.find?_eq_none, List.forall_mem_cons, Bool.or_eq_true,
      decide_eq_true_eq] at clean
    obtain ⟨-, -, -, loads, ramp, limit, -⟩ := clean
    exact ⟨by omega, by omega, by omega, by omega, by omega⟩

theorem duration_pos (scenario : Scenario) : 0 < deriveSimulatedCallDurationMs scenario :=
  lt_of_lt_of_le one_pos (le_max_left _ _)

instance : Std.Total startsBefore where
  total lhs rhs := by
    simp only [startsBefore]
    omega

instance : IsTrans ScheduledCall startsBefore where
  trans first second third := by
    simp only [startsBefore]
    omega

/-- The offsets of the calls in their order. -/
def sortedOffsets (scenario : Scenario) : List Nat :=
  ((List.range scenario.load.totalCalls.toNat).map (offsetMs scenario)).insertionSort (· ≤ ·)

/-- The offset at a place of the order, and behind the last one the greatest. -/
def readyMs (scenario : Scenario) (place : Nat) : Nat :=
  (sortedOffsets scenario).getD place ((sortedOffsets scenario).foldr max 0)

theorem readyMs_mono (scenario : Scenario) : Monotone (readyMs scenario) := by
  intro first second order
  have sorted := List.pairwise_insertionSort (· ≤ ·)
    ((List.range scenario.load.totalCalls.toNat).map (offsetMs scenario))
  have greatest : ∀ offset ∈ sortedOffsets scenario, offset ≤ (sortedOffsets scenario).foldr max 0 :=
    fun offset member => List.le_max_of_le member le_rfl
  obtain inside | outside := Nat.lt_or_ge second (sortedOffsets scenario).length
  · rw [readyMs, readyMs, List.getD_eq_getElem _ _ (order.trans_lt inside),
      List.getD_eq_getElem _ _ inside]
    obtain before | rfl := order.lt_or_eq
    · exact List.pairwise_iff_getElem.mp sorted _ _ _ _ before
    · exact le_rfl
  · rw [readyMs, readyMs, List.getD_eq_default _ _ outside]
    obtain inside | outside := Nat.lt_or_ge first (sortedOffsets scenario).length
    · rw [List.getD_eq_getElem _ _ inside]
      exact greatest _ (List.getElem_mem inside)
    · rw [List.getD_eq_default _ _ outside]

section Candidates

variable {scenario : Scenario} {baseCalls : List ScheduledCall}

/-- The candidates are the calls of the base schedule with their offsets. -/
theorem candidateCalls_perm
    (indices : baseCalls.map (·.index) = List.range scenario.load.totalCalls.toNat) :
    (candidateCalls scenario baseCalls).Perm
      ((List.range scenario.load.totalCalls.toNat).map fun i => ⟨i, offsetMs scenario i⟩) := by
  refine (List.perm_insertionSort _ _).trans (List.Perm.of_eq ?_)
  have lengths := congrArg List.length indices
  rw [List.length_map, List.length_range] at lengths
  refine List.ext_getElem (by simp [lengths]) fun i inside inRange => ?_
  have index := congrArg (·[i]?) indices
  simp only [List.length_mapIdx] at inside
  simp only [List.getElem?_map, List.getElem?_eq_getElem inside, Option.map_some,
    List.getElem?_range (lengths ▸ inside), Option.some.injEq] at index
  simp [index]

theorem startsOf_candidateCalls
    (indices : baseCalls.map (·.index) = List.range scenario.load.totalCalls.toNat) :
    startsOf (candidateCalls scenario baseCalls) = sortedOffsets scenario := by
  refine List.Perm.eq_of_pairwise' (r := (· ≤ ·)) ?_
    (List.pairwise_insertionSort (· ≤ ·) _) ?_
  · refine List.pairwise_map.mpr
      ((List.pairwise_insertionSort startsBefore _).imp fun {lhs rhs} before => ?_)
    obtain less | ⟨equal, -⟩ := before
    · exact less.le
    · exact equal.le
  · refine ((candidateCalls_perm indices).map _).trans ?_
    rw [List.map_map]
    exact (List.perm_insertionSort _ _).symm

/-- The name of the candidate at a place. -/
def candidateIndex (scenario : Scenario) (baseCalls : List ScheduledCall) (place : Nat) : Nat :=
  (((candidateCalls scenario baseCalls)[place]?).map (·.index)).getD 0

theorem candidateCalls_eq
    (indices : baseCalls.map (·.index) = List.range scenario.load.totalCalls.toNat) :
    candidateCalls scenario baseCalls = (List.range scenario.load.totalCalls.toNat).map
      fun place => ⟨candidateIndex scenario baseCalls place, readyMs scenario place⟩ := by
  have lengths := (candidateCalls_perm indices).length_eq
  rw [List.length_map, List.length_range] at lengths
  refine List.ext_getElem (by simp [lengths]) fun place inside inRange => ?_
  have starts := startsOf_candidateCalls indices
  have sorted : place < (sortedOffsets scenario).length := by
    rw [← starts, startsOf, List.length_map]
    exact inside
  have offset : readyMs scenario place = (candidateCalls scenario baseCalls)[place].startOffsetMs := by
    rw [readyMs, List.getD_eq_getElem _ _ sorted]
    simp only [← starts, startsOf, List.getElem_map]
  simp only [List.getElem_map, List.getElem_range, offset, candidateIndex,
    List.getElem?_eq_getElem inside, Option.map_some, Option.getD_some]

end Candidates

/-- What the schedule of a practical run promises of its calls. -/
structure WithinLimit (scenario : Scenario) (practical : PracticalSchedule) : Prop where
  everyCall : (practical.schedule.calls.map (·.index)).Perm
    (List.range scenario.load.totalCalls.toNat)
  notBefore : ∀ call ∈ practical.schedule.calls,
    rampedStartOffsetMs call.index scenario +
      deterministicJitterMs call.index scenario.load.callStartJitterMs ≤ call.startOffsetMs
  concurrent : ∀ time, overlap practical.simulatedCallDurationMs.toNat
    (startsOf practical.schedule.calls) time ≤ scenario.load.maxConcurrent.toNat
  peak : IsGreatest (Set.range (overlap practical.simulatedCallDurationMs.toNat
    (startsOf practical.schedule.calls))) practical.schedule.maxSimultaneousCalls

/-- No two calls that start together when every call keeps its turn, with a third one that is
ready before they end. -/
def NoClash (scenario : Scenario) : Prop :=
  ∀ call, call + 1 + scenario.load.maxConcurrent.toNat < scenario.load.totalCalls.toNat →
    ¬ Clash scenario.load.maxConcurrent.toNat (deriveSimulatedCallDurationMs scenario).toNat
      (readyMs scenario) call

/-- The loop over the candidates, call by call. -/
theorem buildPracticalSchedule_launches {scenario : Scenario} (accepted : Accepted scenario)
    (resolved : scenario.load.cps ≤ 1000) :
    ∃ practical baseCalls, buildPracticalSchedule scenario = .ok practical ∧
      practical.simulatedCallDurationMs = deriveSimulatedCallDurationMs scenario ∧
      baseCalls.map (·.index) = List.range scenario.load.totalCalls.toNat ∧
      practical.schedule.maxSimultaneousCalls =
        (launchFirst scenario.load.maxConcurrent.toNat
          (deriveSimulatedCallDurationMs scenario).toNat (readyMs scenario)
          (candidateIndex scenario baseCalls)
          scenario.load.totalCalls.toNat).maxSimultaneousCalls ∧
      practical.schedule.calls =
        (launchFirst scenario.load.maxConcurrent.toNat
          (deriveSimulatedCallDurationMs scenario).toNat (readyMs scenario)
          (candidateIndex scenario baseCalls) scenario.load.totalCalls.toNat).calls := by
  obtain ⟨schedule, base⟩ := buildRunSchedule_ok (runPlan scenario) accepted.cps
    accepted.maxConcurrent accepted.totalCalls (duration_pos scenario) resolved
  have indices : schedule.calls.map (·.index) = List.range scenario.load.totalCalls.toNat :=
    (buildRunSchedule_exact base).indices
  refine ⟨_, schedule.calls, by rw [buildPracticalSchedule, base]; rfl, rfl, indices, ?_, ?_⟩
  · rw [candidateCalls_eq indices]
    rfl
  · rw [candidateCalls_eq indices]
    rfl

/-- The schedule keeps its promises exactly when no calls clash. -/
theorem practicalSchedule_withinLimit_iff {scenario : Scenario}
    (valid : validateScenario scenario = .ok ()) (resolved : scenario.load.cps ≤ 1000) :
    ∃ practical, buildPracticalSchedule scenario = .ok practical ∧
      (WithinLimit scenario practical ↔ NoClash scenario) := by
  have accepted := accepted_of_valid valid
  obtain ⟨practical, baseCalls, built, duration, indices, maximum, calls⟩ :=
    buildPracticalSchedule_launches accepted resolved
  have slots : 0 < scenario.load.maxConcurrent.toNat := Int.lt_toNat.mpr accepted.maxConcurrent
  have long : 0 < (deriveSimulatedCallDurationMs scenario).toNat :=
    Int.lt_toNat.mpr (duration_pos scenario)
  have mono := readyMs_mono scenario
  refine ⟨practical, built, fun within call inside clash => ?_, fun noClash => ?_⟩
  · have found : ∃ call, Clash scenario.load.maxConcurrent.toNat
        (deriveSimulatedCallDurationMs scenario).toNat (readyMs scenario) call := ⟨call, clash⟩
    classical
    have firstLe := Nat.find_min' found clash
    obtain ⟨time, overrun⟩ := exists_overrun (candidateIndex scenario baseCalls) slots long mono
      (show _ < scenario.load.totalCalls.toNat by omega)
      (Nat.find_spec found) fun earlier before => Nat.find_min found before
    have limit := within.concurrent time
    rw [calls, duration] at limit
    exact absurd overrun (Nat.not_lt.mpr limit)
  · have launched := launchedTo_run (candidateIndex scenario baseCalls)
      scenario.load.totalCalls.toNat slots long mono noClash
    have named : (List.range scenario.load.totalCalls.toNat).map (candidateIndex scenario baseCalls)
        = (candidateCalls scenario baseCalls).map (·.index) := by
      rw [candidateCalls_eq indices, List.map_map]
      rfl
    refine ⟨?_, ?_, ?_, ?_⟩
    · rw [calls, launched.calls, List.map_map]
      refine (List.Perm.of_eq named).trans (((candidateCalls_perm indices).map _).trans ?_)
      rw [List.map_map]
      exact List.Perm.of_eq (List.map_id _)
    · rw [calls, launched.calls]
      intro call member
      obtain ⟨place, inRange, rfl⟩ := List.mem_map.mp member
      have candidate : (⟨candidateIndex scenario baseCalls place, readyMs scenario place⟩ :
          ScheduledCall) ∈ candidateCalls scenario baseCalls := by
        rw [candidateCalls_eq indices]
        exact List.mem_map.mpr ⟨place, inRange, rfl⟩
      obtain ⟨index, -, equal⟩ := List.mem_map.mp ((candidateCalls_perm indices).mem_iff.mp candidate)
      obtain ⟨same, offset⟩ := ScheduledCall.mk.inj equal
      calc
        offsetMs scenario (candidateIndex scenario baseCalls place) = readyMs scenario place := by
          rw [← same, offset]
        _ ≤ _ := ready_le_start place
    · rw [calls, duration]
      exact launched.overlap_le slots mono
    · rw [calls, duration, maximum]
      exact launched.peak slots mono

/-- The scenario of the tests with a load of its own. -/
def smallScenario (load : LoadConfig) : Scenario where
  target := ⟨5060, "udp", "sip:{did}@127.0.0.1"⟩
  load := load
  callFlow := ⟨1000, 1, 1, ⟨50⟩⟩
  media := ⟨200, some 1⟩
  reporting := ⟨250⟩

/-- With as many slots as calls nothing clashes. -/
theorem two_calls_withinLimit : ∃ practical,
    buildPracticalSchedule (smallScenario ⟨2, 2, 2, 2, 0⟩) = .ok practical ∧
      WithinLimit (smallScenario ⟨2, 2, 2, 2, 0⟩) practical := by
  obtain ⟨practical, built, within⟩ := @practicalSchedule_withinLimit_iff
    (smallScenario ⟨2, 2, 2, 2, 0⟩) (by decide) (by decide)
  refine ⟨practical, built, within.mpr fun call inside => absurd inside ?_⟩
  exact Nat.not_lt.mpr (Nat.le_add_left 2 (call + 1))

/-- Without a ramp and a jitter the fourth of four calls starts at once on top of the first two. -/
theorem crowded_start : validateScenario (smallScenario ⟨2, 2, 4, 0, 0⟩) = .ok () ∧
    ∃ practical, buildPracticalSchedule (smallScenario ⟨2, 2, 4, 0, 0⟩) = .ok practical ∧
      practical.schedule.calls = [⟨0, 0⟩, ⟨1, 0⟩, ⟨2, 1000⟩, ⟨3, 0⟩] ∧
      overlap practical.simulatedCallDurationMs.toNat (startsOf practical.schedule.calls) 0 = 3 ∧
      ¬ WithinLimit (smallScenario ⟨2, 2, 4, 0, 0⟩) practical := by
  refine ⟨by decide, ⟨⟨4, 2, [⟨0, 0⟩, ⟨1, 0⟩, ⟨2, 1000⟩, ⟨3, 0⟩]⟩, 1000, 0, 1000, 2000⟩,
    by decide, rfl, by decide, fun within => ?_⟩
  exact absurd (within.concurrent 0) (by decide)

end KasterCti.LoadGen
