import KasterCti.LoadGen.PracticalSchedule
import Mathlib

/-!
# A run without a ramp

Without a ramp and a jitter every call is ready at once. The pops for a delayed start free all
slots of its wave, the calls behind it start at once again, and the starts come in waves: a call
of a wave, and then all earlier waves of the slots that are left.

Results:
1. `starts_waves`: the starts of such a run.
2. `startsWithin_waves_le`: no window holds more of them than the first.
-/

namespace KasterCti.LoadGen

open Slots

/-- The waves of the calls on some slots, up to a wave. -/
def waves : Nat → Nat → List Nat
  | 0, _ => []
  | slots + 1, count => (List.range count).flatMap fun wave => wave :: waves slots (wave + 1)

example : (waves 3 3).take 9 = [0, 0, 0, 1, 0, 0, 1, 0, 1] := by decide

theorem waves_zero (slots : Nat) : waves slots 0 = [] := by
  cases slots <;> rfl

theorem waves_succ (slots count : Nat) :
    waves (slots + 1) (count + 1) = waves (slots + 1) count ++ count :: waves slots (count + 1) := by
  rw [waves, waves, List.range_succ, List.flatMap_append, List.flatMap_singleton]

theorem lt_of_mem_waves {slots count wave : Nat} (member : wave ∈ waves slots count) :
    wave < count := by
  induction slots generalizing count with
  | zero => cases member
  | succ slots induction =>
    obtain ⟨first, inRange, inWave⟩ := List.mem_flatMap.mp member
    have inside := List.mem_range.mp inRange
    obtain rfl | later := List.mem_cons.mp inWave
    · exact inside
    · exact Nat.lt_of_lt_of_le (induction later) inside

theorem le_length_waves (slots count : Nat) : count ≤ (waves (slots + 1) count).length := by
  induction count with
  | zero => exact Nat.zero_le _
  | succ count induction =>
    rw [waves_succ, List.length_append, List.length_cons]
    omega

/-- Up to any call there are no more calls of a wave than of the one before. -/
theorem count_waves_le (slots count calls wave : Nat) :
    ((waves slots count).take calls).count (wave + 1) ≤
      ((waves slots count).take calls).count wave := by
  induction slots generalizing count calls with
  | zero => simp [waves]
  | succ slots ofSlots =>
    induction count generalizing calls with
    | zero => simp [waves_zero]
    | succ count ofCount =>
      rw [waves_succ, List.take_append]
      cases behindAll : calls - (waves (slots + 1) count).length with
      | zero => simpa using ofCount calls
      | succ rest =>
        have whole : (waves (slots + 1) count).take calls = waves (slots + 1) count :=
          List.take_of_length_le (by omega)
        have before := ofCount calls
        have behind := ofSlots (count + 1) rest
        rw [whole] at before
        rw [whole, List.take_succ_cons, List.count_append, List.count_append, List.count_cons,
          List.count_cons]
        split
        · -- the first call of a wave, behind one of the wave before
          rename_i own
          obtain rfl := eq_of_beq own
          have none : (waves (slots + 1) (wave + 1)).count (wave + 1) = 0 :=
            List.count_eq_zero.mpr fun member => lt_irrefl _ (lt_of_mem_waves member)
          have one : 0 < (waves (slots + 1) (wave + 1)).count wave := by
            rw [waves_succ]
            exact List.count_pos_iff.mpr (List.mem_append_right _ List.mem_cons_self)
          omega
        · omega

/-- The calls of some successive waves. -/
def wavesBetween (starts : List Nat) (first count : Nat) : Nat :=
  starts.countP fun wave => decide (first ≤ wave ∧ wave < first + count)

theorem wavesBetween_zero (starts : List Nat) (first : Nat) : wavesBetween starts first 0 = 0 :=
  List.countP_eq_zero.mpr fun wave _ inside => absurd (of_decide_eq_true inside) (by omega)

theorem wavesBetween_succ (starts : List Nat) (first count : Nat) :
    wavesBetween starts first (count + 1) =
      wavesBetween starts first count + starts.count (first + count) := by
  induction starts with
  | nil => rfl
  | cons wave starts induction =>
    simp only [wavesBetween, List.countP_cons, List.count_cons, decide_eq_true_eq, beq_iff_eq]
      at induction ⊢
    split_ifs <;> omega

theorem wavesBetween_le {starts : List Nat}
    (descending : ∀ wave, starts.count (wave + 1) ≤ starts.count wave) (first count : Nat) :
    wavesBetween starts first count ≤ wavesBetween starts 0 count := by
  induction first with
  | zero => exact le_rfl
  | succ first induction =>
    refine le_trans ?_ induction
    clear induction
    induction count with
    | zero => rw [wavesBetween_zero, wavesBetween_zero]
    | succ count induction =>
      rw [wavesBetween_succ, wavesBetween_succ, Nat.add_right_comm]
      exact Nat.add_le_add induction (descending _)

/-- No window holds more starts than the first one. -/
theorem startsWithin_waves_le {starts : List Nat} {durationMs : Nat} (long : 0 < durationMs)
    (descending : ∀ wave, starts.count (wave + 1) ≤ starts.count wave) (windowMs time : Nat) :
    startsWithin windowMs (starts.map (· * durationMs)) time ≤
      startsWithin windowMs (starts.map (· * durationMs)) 0 := by
  -- the waves of a window of this length, counted from its first one
  obtain ⟨count, isCount⟩ : ∃ count, ∀ wave, wave * durationMs < windowMs ↔ wave < count := by
    refine ⟨(windowMs + durationMs - 1) / durationMs, fun wave => ?_⟩
    rw [Nat.lt_div_iff_mul_lt long]
    omega
  obtain ⟨first, isFirst⟩ : ∃ first, ∀ wave, time ≤ wave * durationMs ↔ first ≤ wave := by
    refine ⟨(time + durationMs - 1) / durationMs, fun wave => ?_⟩
    rw [Nat.div_le_iff_le_mul_add_pred long, Nat.mul_comm]
    omega
  have atFirst := (isFirst first).mpr le_rfl
  simp only [startsWithin, List.countP_map]
  calc
    _ ≤ wavesBetween starts first count := by
      refine List.countP_mono_left fun wave _ inWindow => ?_
      simp only [Function.comp_apply, decide_eq_true_eq] at inWindow ⊢
      have order := (isFirst wave).mp inWindow.1
      obtain ⟨later, rfl⟩ := Nat.exists_eq_add_of_le order
      refine ⟨order, Nat.add_lt_add_left ((isCount later).mp ?_) _⟩
      rw [Nat.add_mul] at inWindow
      omega
    _ ≤ wavesBetween starts 0 count := wavesBetween_le descending first count
    _ = _ := by
      refine List.countP_congr fun wave _ => ?_
      simp [isCount]

section Run

variable {maxConcurrent durationMs : Nat} {name : Nat → Nat}

/-- The queue with the end of the next wave in front. -/
theorem orderedInsert_front {slots : List Nat} {wave : Nat} (later : ∀ other ∈ slots, wave ≤ other) :
    (slots.map (· * durationMs)).orderedInsert (· ≤ ·) (wave * durationMs) =
      (wave :: slots).map (· * durationMs) := by
  cases slots with
  | nil => rfl
  | cons other slots =>
    exact if_pos (Nat.mul_le_mul_right _ (later other List.mem_cons_self))

theorem popEnded_later {slots : List Nat} {wave : Nat} (long : 0 < durationMs)
    (later : ∀ other ∈ slots, wave < other) :
    popEnded (wave * durationMs) (slots.map (· * durationMs)) = slots.map (· * durationMs) := by
  cases slots with
  | nil => rfl
  | cons other slots =>
    have behind := Nat.mul_lt_mul_of_pos_right (later other List.mem_cons_self) long
    exact List.dropWhile_cons_of_neg (by simpa using behind)

theorem popEnded_wave {slots : List Nat} {wave : Nat} (long : 0 < durationMs) (count : Nat)
    (later : ∀ other ∈ slots, wave < other) :
    popEnded (wave * durationMs) ((List.replicate count wave ++ slots).map (· * durationMs)) =
      slots.map (· * durationMs) := by
  induction count with
  | zero => exact popEnded_later long later
  | succ count induction =>
    rw [List.replicate_succ, List.cons_append, List.map_cons, popEnded,
      List.dropWhile_cons_of_pos (by simp)]
    exact induction

/-- The slots once the calls up to a wave have started on the last of them. -/
def slotsAfter (slots count : Nat) (others : List Nat) : List Nat :=
  if count = 0 then others else List.replicate slots count ++ others

/-- One call more is the first of its wave. -/
theorem launch_wave {progress : Progress} {call : ScheduledCall} {slots wave : Nat}
    {others : List Nat} (long : 0 < durationMs) (atOnce : call.startOffsetMs = 0)
    (all : others.length + (slots + 1) = maxConcurrent) (later : ∀ other ∈ others, wave < other)
    (queue : progress.activeCallEndTimes =
      (slotsAfter (slots + 1) wave others).map (· * durationMs)) :
    progress.launch maxConcurrent durationMs call =
      { activeCallEndTimes := ((wave + 1) :: others).map (· * durationMs)
        maxSimultaneousCalls := max progress.maxSimultaneousCalls (others.length + 1)
        calls := progress.calls ++ [⟨call.index, wave * durationMs⟩] } := by
  have pushed : (others.map (· * durationMs)).orderedInsert (· ≤ ·) ((wave + 1) * durationMs) =
      ((wave + 1) :: others).map (· * durationMs) :=
    orderedInsert_front later
  have popped : popEnded call.startOffsetMs progress.activeCallEndTimes =
      (slotsAfter (slots + 1) wave others).map (· * durationMs) := by
    rw [queue, atOnce, ← Nat.zero_mul durationMs]
    refine popEnded_later long fun other member => ?_
    rw [slotsAfter] at member
    split at member
    · exact (Nat.zero_le _).trans_lt (later other member)
    · obtain same | behind := List.mem_append.mp member
      · exact List.eq_of_mem_replicate same ▸ Nat.pos_of_ne_zero ‹_›
      · exact (Nat.zero_le _).trans_lt (later other behind)
  obtain rfl | some := Nat.eq_zero_or_pos wave
  · rw [slotsAfter, if_pos rfl] at popped
    rw [launch_of_free (by rw [popped, List.length_map]; omega), popped, Progress.book, atOnce]
    simp only [Nat.zero_mul, Nat.zero_add, Nat.one_mul] at pushed ⊢
    rw [pushed]
    simp
  · have notFirst : slotsAfter (slots + 1) wave others =
        List.replicate (slots + 1) wave ++ others := if_neg some.ne'
    rw [notFirst] at popped
    have full : maxConcurrent ≤ (wave * durationMs ::
        (List.replicate slots wave ++ others).map (· * durationMs)).length := by
      simp
      omega
    have rest := popEnded_wave long (slots + 1) later
    rw [List.replicate_succ, List.cons_append, List.map_cons] at popped rest
    rw [launch_of_full popped full, rest, Progress.book, ← Nat.succ_mul, Nat.succ_eq_add_one, pushed]
    simp

/-- Calls that are all ready at once start in waves. -/
theorem foldl_waves (long : 0 < durationMs) (slots count : Nat) (others : List Nat)
    (all : others.length + slots = maxConcurrent) (later : ∀ other ∈ others, count ≤ other)
    (calls : List ScheduledCall) (enough : calls.length = (waves slots count).length)
    (atOnce : ∀ call ∈ calls, call.startOffsetMs = 0) (progress : Progress)
    (queue : progress.activeCallEndTimes = others.map (· * durationMs)) :
    (calls.foldl (Progress.launch maxConcurrent durationMs) progress).activeCallEndTimes =
        (slotsAfter slots count others).map (· * durationMs) ∧
      startsOf (calls.foldl (Progress.launch maxConcurrent durationMs) progress).calls =
        startsOf progress.calls ++ (waves slots count).map (· * durationMs) := by
  induction slots generalizing count others calls progress with
  | zero =>
    obtain rfl : calls = [] := List.length_eq_zero_iff.mp enough
    refine ⟨?_, by simp [waves]⟩
    rw [slotsAfter, List.replicate_zero, List.nil_append, ite_self]
    exact queue
  | succ slots ofSlots =>
    induction count generalizing calls progress with
    | zero =>
      rw [waves_zero] at enough ⊢
      obtain rfl : calls = [] := List.length_eq_zero_iff.mp enough
      exact ⟨queue, by simp⟩
    | succ count ofCount =>
      rw [waves_succ, List.length_append, List.length_cons] at enough
      obtain ⟨before, call, behind, rfl, lengthBefore⟩ :
          ∃ before call behind, calls = before ++ call :: behind ∧
            before.length = (waves (slots + 1) count).length := by
        have inside : (waves (slots + 1) count).length < calls.length := by omega
        refine ⟨_, _, _, (List.take_append_drop _ calls).symm.trans
          (congrArg _ (List.drop_eq_getElem_cons inside)), List.length_take_of_le inside.le⟩
      rw [List.length_append, List.length_cons] at enough
      have split := List.forall_mem_append.mp atOnce
      obtain ⟨queueBefore, startsBefore⟩ := ofCount
        (fun other member => (Nat.le_succ count).trans (later other member)) before lengthBefore
        split.1 progress queue
      have launched := launch_wave long (split.2 call List.mem_cons_self) all later queueBefore
      obtain ⟨queueBehind, startsBehind⟩ := ofSlots (count + 1) ((count + 1) :: others)
        (by rw [List.length_cons]; omega)
        (List.forall_mem_cons.mpr ⟨le_rfl, later⟩) behind (by omega)
        (fun call member => split.2 call (List.mem_cons_of_mem _ member))
        ((before.foldl (Progress.launch maxConcurrent durationMs) progress).launch maxConcurrent
          durationMs call)
        (by rw [launched])
      rw [List.foldl_append, List.foldl_cons]
      refine ⟨?_, ?_⟩
      · rw [queueBehind, slotsAfter, slotsAfter, if_neg (Nat.succ_ne_zero count),
          if_neg (Nat.succ_ne_zero count), List.replicate_succ', List.append_assoc]
        rfl
      · rw [startsBehind, launched, waves_succ]
        simp only [startsOf, List.map_append] at startsBefore ⊢
        rw [startsBefore]
        simp [List.append_assoc]

theorem length_calls_launchFirst {ready : Nat → Nat} (count : Nat) :
    (launchFirst maxConcurrent durationMs ready name count).calls.length = count := by
  induction count with
  | zero => rfl
  | succ count induction =>
    rw [launchFirst_succ, Progress.launch]
    split
    · simp [Progress.book, induction]
    · simp [Progress.book, induction]

/-- The starts of a run whose calls are all ready at once. -/
theorem starts_waves (name : Nat → Nat) (positive : 0 < maxConcurrent) (long : 0 < durationMs)
    (count : Nat) :
    startsOf (launchFirst maxConcurrent durationMs (fun _ => 0) name count).calls =
      ((waves maxConcurrent count).take count).map (· * durationMs) := by
  obtain ⟨slots, rfl⟩ := Nat.exists_eq_succ_of_ne_zero positive.ne'
  have whole := (foldl_waves long (slots + 1) count []
    (show _ = slots + 1 by simp) (by simp) ((List.range (waves (slots + 1) count).length).map fun call => ⟨name call, 0⟩)
    (by simp) (by simp) {} rfl).2
  have first : (launchFirst (slots + 1) durationMs (fun _ => 0) name count).calls <+: _ :=
    calls_launchFirst_isPrefix (le_length_waves slots count)
  have taken := List.prefix_iff_eq_take.mp (first.map (·.startOffsetMs))
  rw [List.length_map, length_calls_launchFirst] at taken
  rw [startsOf, taken, List.map_take]
  exact congrArg (List.take count) whole

end Run

end KasterCti.LoadGen
