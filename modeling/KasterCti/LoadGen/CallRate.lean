import KasterCti.LoadGen.Waves
import Mathlib

/-!
# The call rate of a practical run

With a ramp the offsets keep the distances of the target rate, on the square root, on the
straight line behind it and across the place where they meet. Without a ramp there is no rate.

Results:
1. `rampedStartOffsetMs_gap`: the distances of the ramp offsets.
2. `practicalSchedule_rate_iff`: exactly when a run without jitter keeps to its rate.
3. `burst_without_ramp`: two calls in one second at a rate of one.
-/

namespace KasterCti.LoadGen

open Slots

section Ramp

/-- On the square root. -/
theorem sqrt_gap {cps rampUpMs ordinal calls gapMs : Nat} (positive : 0 < cps)
    (ramp : 0 < rampUpMs) (spaced : cps * gapMs ≤ 1000 * calls)
    (onRamp : (ordinal + calls) * 2000 ≤ cps * rampUpMs) :
    Nat.sqrt (2000 * rampUpMs * ordinal / cps) + gapMs ≤
      Nat.sqrt (2000 * rampUpMs * (ordinal + calls) / cps) := by
  rw [Nat.le_sqrt, Nat.le_div_iff_mul_le positive]
  have root : Nat.sqrt (2000 * rampUpMs * ordinal / cps) *
      Nat.sqrt (2000 * rampUpMs * ordinal / cps) * cps ≤ 2000 * rampUpMs * ordinal :=
    (Nat.le_div_iff_mul_le positive).mp (Nat.sqrt_le _)
  generalize Nat.sqrt (2000 * rampUpMs * ordinal / cps) = start at root ⊢
  -- so far from the end of the ramp that the root still grows fast enough
  have far : start * start + 2 * rampUpMs * gapMs ≤ rampUpMs * rampUpMs := by
    refine Nat.le_of_mul_le_mul_left ?_ positive
    calc
      cps * (start * start + 2 * rampUpMs * gapMs)
          = start * start * cps + 2 * rampUpMs * (cps * gapMs) := by ring
      _ ≤ 2000 * rampUpMs * ordinal + 2 * rampUpMs * (1000 * calls) :=
        Nat.add_le_add root (Nat.mul_le_mul_left _ spaced)
      _ = rampUpMs * ((ordinal + calls) * 2000) := by ring
      _ ≤ rampUpMs * (cps * rampUpMs) := Nat.mul_le_mul_left _ onRamp
      _ = cps * (rampUpMs * rampUpMs) := by ring
  have steep : 2 * start + gapMs ≤ 2 * rampUpMs := by
    have before : start ≤ rampUpMs :=
      Nat.mul_self_le_mul_self_iff.mp ((Nat.le_add_right _ _).trans far)
    obtain ⟨rest, rfl⟩ := Nat.exists_eq_add_of_le before
    by_contra flat
    nlinarith [Nat.mul_le_mul_left (start + rest) (show 2 * rest + 1 ≤ gapMs by omega)]
  calc
    (start + gapMs) * (start + gapMs) * cps
        = start * start * cps + cps * gapMs * (2 * start + gapMs) := by ring
    _ ≤ 2000 * rampUpMs * ordinal + 1000 * calls * (2 * rampUpMs) :=
      Nat.add_le_add root (Nat.mul_le_mul spaced steep)
    _ = 2000 * rampUpMs * (ordinal + calls) := by ring

/-- From the square root to the straight line. -/
theorem crossing_gap {cps rampUpSeconds ordinal calls gapMs : Nat} (positive : 0 < cps)
    (ramp : 0 < rampUpSeconds) (spaced : cps * gapMs ≤ 1000 * calls) :
    Nat.sqrt (2000 * (rampUpSeconds * 1000) * ordinal / cps) + gapMs ≤
      rampUpSeconds * 1000 / 2 + 1000 * (ordinal + calls) / cps := by
  have root : Nat.sqrt (2000 * (rampUpSeconds * 1000) * ordinal / cps) *
      Nat.sqrt (2000 * (rampUpSeconds * 1000) * ordinal / cps) * cps ≤
        2000 * (rampUpSeconds * 1000) * ordinal :=
    (Nat.le_div_iff_mul_le positive).mp (Nat.sqrt_le _)
  generalize Nat.sqrt (2000 * (rampUpSeconds * 1000) * ordinal / cps) = start at root ⊢
  -- the line is the tangent of the root where they meet
  have tangent : cps * start ≤ 1000 * ordinal + cps * (rampUpSeconds * 500) := by
    have square : 2 * (rampUpSeconds * 1000) * start ≤
        start * start + rampUpSeconds * 1000 * (rampUpSeconds * 1000) := by
      have := two_mul_le_add_sq (rampUpSeconds * 1000) start
      nlinarith
    refine Nat.le_of_mul_le_mul_left ?_ (show 0 < 2000 * rampUpSeconds by omega)
    calc
      2000 * rampUpSeconds * (cps * start) = cps * (2 * (rampUpSeconds * 1000) * start) := by ring
      _ ≤ cps * (start * start + rampUpSeconds * 1000 * (rampUpSeconds * 1000)) :=
        Nat.mul_le_mul_left _ square
      _ = start * start * cps + 2000 * rampUpSeconds * (cps * (rampUpSeconds * 500)) := by ring
      _ ≤ 2000 * (rampUpSeconds * 1000) * ordinal +
          2000 * rampUpSeconds * (cps * (rampUpSeconds * 500)) := Nat.add_le_add_right root _
      _ = 2000 * rampUpSeconds * (1000 * ordinal + cps * (rampUpSeconds * 500)) := by ring
  have half : rampUpSeconds * 1000 / 2 = rampUpSeconds * 500 := by omega
  rw [half, Nat.add_comm (rampUpSeconds * 500), ← Nat.add_mul_div_left _ _ positive,
    Nat.le_div_iff_mul_le positive]
  nlinarith

theorem line_gap {cps ordinal calls gapMs : Nat} (positive : 0 < cps)
    (spaced : cps * gapMs ≤ 1000 * calls) :
    1000 * ordinal / cps + gapMs ≤ 1000 * (ordinal + calls) / cps := by
  rw [← Nat.add_mul_div_left _ _ positive, Nat.mul_add]
  exact Nat.div_le_div_right (Nat.add_le_add_left spaced _)

variable {scenario : Scenario}

theorem rampedStartOffsetMs_of_ramp {seconds : Nat} (some : 0 < seconds)
    (ramp : scenario.load.rampUpSeconds = seconds) (callNumber : Nat) :
    rampedStartOffsetMs callNumber scenario =
      if (callNumber + 1) * 2000 ≤ scenario.load.cps.toNat * (seconds * 1000) then
        Nat.sqrt (2000 * (seconds * 1000) * (callNumber + 1) / scenario.load.cps.toNat)
      else seconds * 1000 / 2 + 1000 * (callNumber + 1) / scenario.load.cps.toNat := by
  have rampUpMs : (max 0 (scenario.load.rampUpSeconds * 1000)).toNat = seconds * 1000 := by omega
  rw [rampedStartOffsetMs, rampUpMs, if_neg (Nat.not_le.mpr (Nat.mul_pos some (by decide)))]

/-- With a ramp the offsets keep the distances of the target rate. -/
theorem rampedStartOffsetMs_gap (cps : 0 < scenario.load.cps)
    (ramp : 0 < scenario.load.rampUpSeconds) {calls gapMs : Nat}
    (spaced : scenario.load.cps.toNat * gapMs ≤ 1000 * calls) (callNumber : Nat) :
    rampedStartOffsetMs callNumber scenario + gapMs ≤
      rampedStartOffsetMs (callNumber + calls) scenario := by
  obtain ⟨seconds, equal⟩ := Int.eq_ofNat_of_zero_le ramp.le
  have some : 0 < seconds := by omega
  have positive : 0 < scenario.load.cps.toNat := Int.lt_toNat.mpr cps
  have milliseconds : 0 < seconds * 1000 := by omega
  rw [rampedStartOffsetMs_of_ramp some equal, rampedStartOffsetMs_of_ramp some equal,
    Nat.add_right_comm callNumber calls 1]
  split
  · split
    · rename_i onRamp
      exact sqrt_gap positive milliseconds spaced onRamp
    · exact crossing_gap positive some spaced
  · rename_i onLine
    have later : ¬ (callNumber + 1 + calls) * 2000 ≤
        scenario.load.cps.toNat * (seconds * 1000) := fun onRamp =>
      onLine ((Nat.mul_le_mul_right _ (Nat.le_add_right _ _)).trans onRamp)
    rw [if_neg later, Nat.add_assoc _ _ gapMs]
    exact Nat.add_le_add_left (line_gap positive spaced) _

theorem rampedStartOffsetMs_zero (none : scenario.load.rampUpSeconds ≤ 0) (callNumber : Nat) :
    rampedStartOffsetMs callNumber scenario = 0 :=
  if_pos (by omega)

theorem offsetMs_of_noJitter (noJitter : scenario.load.callStartJitterMs = 0) (index : Nat) :
    offsetMs scenario index = rampedStartOffsetMs index scenario := by
  rw [offsetMs, noJitter]
  rfl

end Ramp

/-- Where the offsets ascend, the loop sees them in the order of the calls. -/
theorem readyMs_of_mono {scenario : Scenario} (mono : Monotone (offsetMs scenario)) {place : Nat}
    (inside : place < scenario.load.totalCalls.toNat) :
    readyMs scenario place = offsetMs scenario place := by
  have sorted : sortedOffsets scenario =
      (List.range scenario.load.totalCalls.toNat).map (offsetMs scenario) :=
    List.Pairwise.insertionSort_eq (List.pairwise_map.mpr
      (List.pairwise_lt_range.imp fun before => mono before.le))
  rw [readyMs, sorted, List.getD_eq_getElem _ _ (by simpa using inside), List.getElem_map,
    List.getElem_range]

theorem launchFirst_congr {maxConcurrent durationMs count : Nat} {ready other name : Nat → Nat}
    (same : ∀ place < count, ready place = other place) :
    launchFirst maxConcurrent durationMs ready name count =
      launchFirst maxConcurrent durationMs other name count := by
  rw [launchFirst, launchFirst, List.map_congr_left fun place member => by
    rw [same place (List.mem_range.mp member)]]

/-- At most `cps` calls start in any second. -/
def KeepsRate (scenario : Scenario) (practical : PracticalSchedule) : Prop :=
  ∀ time, startsWithin 1000 (startsOf practical.schedule.calls) time ≤ scenario.load.cps.toNat

/-- How many of the waves of a run without a ramp start in its first second. -/
def firstSecondOfWaves (scenario : Scenario) : Nat :=
  ((waves scenario.load.maxConcurrent.toNat scenario.load.totalCalls.toNat).take
    scenario.load.totalCalls.toNat).countP fun wave =>
      decide (wave * (deriveSimulatedCallDurationMs scenario).toNat < 1000)

/-- A run without jitter keeps to its rate exactly when it has a ramp, or so few calls that the
first second of its waves holds at most `cps` of them. -/
theorem practicalSchedule_rate_iff {scenario : Scenario}
    (valid : validateScenario scenario = .ok ()) (resolved : scenario.load.cps ≤ 1000)
    (noJitter : scenario.load.callStartJitterMs = 0) :
    ∃ practical, buildPracticalSchedule scenario = .ok practical ∧
      (KeepsRate scenario practical ↔
        0 < scenario.load.rampUpSeconds ∨
          firstSecondOfWaves scenario ≤ scenario.load.cps.toNat) := by
  have accepted := accepted_of_valid valid
  obtain ⟨practical, baseCalls, built, -, -, -, calls⟩ :=
    buildPracticalSchedule_launches accepted resolved
  have slots : 0 < scenario.load.maxConcurrent.toNat := Int.lt_toNat.mpr accepted.maxConcurrent
  have long : 0 < (deriveSimulatedCallDurationMs scenario).toNat :=
    Int.lt_toNat.mpr (duration_pos scenario)
  refine ⟨practical, built, ?_⟩
  obtain ramp | none := lt_or_ge 0 scenario.load.rampUpSeconds
  · have strict : StrictMono (offsetMs scenario) := by
      refine strictMono_nat_of_lt_succ fun call => ?_
      rw [offsetMs_of_noJitter noJitter, offsetMs_of_noJitter noJitter]
      exact rampedStartOffsetMs_gap accepted.cps ramp
        (show scenario.load.cps.toNat * 1 ≤ 1000 * 1 by omega) call
    have spaced : ∀ call, offsetMs scenario call + 1000 ≤
        offsetMs scenario (call + scenario.load.cps.toNat) := by
      intro call
      rw [offsetMs_of_noJitter noJitter, offsetMs_of_noJitter noJitter]
      exact rampedStartOffsetMs_gap accepted.cps ramp (Nat.mul_comm _ _).le call
    refine iff_of_true (fun time => ?_) (Or.inl ramp)
    have launched := launchedTo_run (candidateIndex scenario baseCalls)
      scenario.load.totalCalls.toNat slots long strict.monotone
      fun call _ => not_clash_of_strictMono slots strict call
    rw [calls, launchFirst_congr fun place => readyMs_of_mono strict.monotone, launched.starts]
    exact countP_window_le (start_mono _ slots strict.monotone)
      (start_gap slots _ spaced) _ time
  · have atOnce : ∀ index, offsetMs scenario index = 0 := fun index => by
      rw [offsetMs_of_noJitter noJitter, rampedStartOffsetMs_zero none]
    have mono : Monotone (offsetMs scenario) := fun first second _ => by rw [atOnce, atOnce]
    have starts := starts_waves (candidateIndex scenario baseCalls) slots long
      scenario.load.totalCalls.toNat
    rw [← launchFirst_congr fun place inside =>
      (readyMs_of_mono mono inside).trans (atOnce place), ← calls] at starts
    have first : startsWithin 1000 (startsOf practical.schedule.calls) 0 =
        firstSecondOfWaves scenario := by
      rw [starts, startsWithin, List.countP_map, firstSecondOfWaves]
      exact List.countP_congr fun wave _ => by simp
    rw [or_iff_right (not_lt.mpr none), ← first]
    refine ⟨fun keeps => keeps 0, fun few time => le_trans ?_ few⟩
    rw [starts]
    exact startsWithin_waves_le long (count_waves_le _ _ _) 1000 time

/-- Four calls on two slots with a ramp of two seconds. -/
theorem ramped_calls_keep_rate : ∃ practical,
    buildPracticalSchedule (smallScenario ⟨2, 2, 4, 2, 0⟩) = .ok practical ∧
      KeepsRate (smallScenario ⟨2, 2, 4, 2, 0⟩) practical := by
  obtain ⟨practical, built, keeps⟩ := @practicalSchedule_rate_iff
    (smallScenario ⟨2, 2, 4, 2, 0⟩) (by decide) (by decide) rfl
  exact ⟨practical, built, keeps.mpr (Or.inl (by decide))⟩

/-- Without a ramp two calls start at once at a rate of one call in a second. -/
theorem burst_without_ramp : validateScenario (smallScenario ⟨1, 2, 2, 0, 0⟩) = .ok () ∧
    ∃ practical, buildPracticalSchedule (smallScenario ⟨1, 2, 2, 0, 0⟩) = .ok practical ∧
      practical.schedule.calls = [⟨0, 0⟩, ⟨1, 0⟩] ∧
      startsWithin 1000 (startsOf practical.schedule.calls) 0 = 2 ∧
      ¬ KeepsRate (smallScenario ⟨1, 2, 2, 0, 0⟩) practical := by
  refine ⟨by decide, ⟨⟨2, 2, [⟨0, 0⟩, ⟨1, 0⟩]⟩, 1000, 0, 0, 1000⟩, by decide, rfl,
    by decide, fun keeps => absurd (keeps 0) (by decide)⟩

end KasterCti.LoadGen
