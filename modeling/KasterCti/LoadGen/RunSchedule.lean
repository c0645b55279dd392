import KasterCti.Library.Slots
import Mathlib

/-!
# The schedule of a load test run

`buildRunSchedule` of the native load generator: each call is started at its rate time, or when
the earliest of the running calls ends. The queue of end times is emptied up to the rate time,
and once more up to the delayed start.

Results:
1. `LaunchedTo.launch`: one call keeps what the queue says of the running calls.
2. `launchedTo_run`: a whole run without a clash starts each call as early as its slot allows.
3. `exists_overrun`: a run with a clash overruns the limit.
4. `buildRunSchedule_exact`: the schedule of a base run.
-/

namespace KasterCti.LoadGen

open Slots

structure RunPlan where
  cps : Int
  maxConcurrent : Int
  totalCalls : Int

structure ScheduledCall where
  index : Nat
  startOffsetMs : Nat
deriving DecidableEq

structure RunSchedule where
  totalPlannedCalls : Int
  maxSimultaneousCalls : Nat
  calls : List ScheduledCall
deriving DecidableEq

/-- The variables of the loop; the queue holds its smallest end time first. -/
structure Progress where
  activeCallEndTimes : List Nat := []
  maxSimultaneousCalls : Nat := 0
  calls : List ScheduledCall := []

def kSimulatedCallDurationMs : Int := 1000

/-- The loop that pops the calls that ended by then. -/
def popEnded (now : Nat) (activeCallEndTimes : List Nat) : List Nat :=
  activeCallEndTimes.dropWhile (decide <| · ≤ now)

/-- The end of the loop's body: the call is pushed and written down. -/
def Progress.book (progress : Progress) (durationMs index startOffsetMs : Nat)
    (running : List Nat) : Progress :=
  let activeCallEndTimes := running.orderedInsert (· ≤ ·) (startOffsetMs + durationMs)
  { activeCallEndTimes
    maxSimultaneousCalls := max progress.maxSimultaneousCalls activeCallEndTimes.length
    calls := progress.calls ++ [⟨index, startOffsetMs⟩] }

/-- The body of the loop, the same in both schedules. -/
def Progress.launch (maxConcurrent durationMs : Nat) (progress : Progress) (call : ScheduledCall) :
    Progress :=
  let running := popEnded call.startOffsetMs progress.activeCallEndTimes
  if maxConcurrent ≤ running.length then
    -- the limit is positive, so there is a top
    let startOffsetMs := running.headD call.startOffsetMs
    progress.book durationMs call.index startOffsetMs (popEnded startOffsetMs running)
  else progress.book durationMs call.index call.startOffsetMs running

def launchAll (maxConcurrent durationMs : Nat) (calls : List ScheduledCall) : Progress :=
  calls.foldl (Progress.launch maxConcurrent durationMs) {}

def rateReadyMs (cps index : Nat) : Nat := index * 1000 / cps

def buildRunSchedule (plan : RunPlan)
    (simulatedCallDurationMs : Int := kSimulatedCallDurationMs) : Except String RunSchedule :=
  if plan.cps ≤ 0 ∨ plan.maxConcurrent ≤ 0 ∨ plan.totalCalls ≤ 0 then
    .error "run plan values must be positive"
  else if simulatedCallDurationMs ≤ 0 then
    .error "simulated call duration must be positive"
  else if plan.cps > 1000 then
    .error "cps exceeds scheduler resolution"
  else
    let progress := launchAll plan.maxConcurrent.toNat simulatedCallDurationMs.toNat
      ((List.range plan.totalCalls.toNat).map fun i => ⟨i, rateReadyMs plan.cps.toNat i⟩)
    .ok ⟨plan.totalCalls, progress.maxSimultaneousCalls, progress.calls⟩

example : (buildRunSchedule ⟨2, 2, 4⟩ 1500).toOption.map (·.calls.map (·.startOffsetMs)) =
    some [0, 500, 1500, 2000] := by decide

/-- The starts in the order of the schedule. -/
def startsOf (calls : List ScheduledCall) : List Nat := calls.map (·.startOffsetMs)

section Queue

variable {maxConcurrent durationMs : Nat} {ready name : Nat → Nat} {count : Nat}
  {progress : Progress}

theorem popEnded_eq_filter {ends : List Nat} (ordered : ends.Pairwise (· ≤ ·)) (now : Nat) :
    popEnded now ends = ends.filter (decide <| now < ·) := by
  induction ordered with
  | nil => rfl
  | @cons finish rest first _ induction =>
    obtain ended | runs := Nat.lt_or_ge now finish
    · rw [List.filter_eq_self.mpr, popEnded,
        List.dropWhile_cons_of_neg (by simpa using ended)]
      intro other member
      obtain rfl | later := List.mem_cons.mp member
      · exact decide_eq_true ended
      · exact decide_eq_true (ended.trans_le (first other later))
    · rw [List.filter_cons_of_neg (by simpa using runs), ← induction, popEnded,
        List.dropWhile_cons_of_pos (by simpa using runs)]
      rfl

theorem orderedInsert_last {ends : List Nat} {finish : Nat} (ordered : ends.Pairwise (· ≤ ·))
    (last : ∀ other ∈ ends, other ≤ finish) :
    ends.orderedInsert (· ≤ ·) finish = ends ++ [finish] := by
  refine List.Perm.eq_of_pairwise' (r := (· ≤ ·)) (ordered.orderedInsert finish ends) ?_ ?_
  · exact List.pairwise_append.mpr ⟨ordered, List.pairwise_singleton _ _,
      fun other member only equal => List.mem_singleton.mp equal ▸ last other member⟩
  · exact (List.perm_orderedInsert _ finish ends).trans (List.perm_append_singleton finish ends).symm

theorem launch_of_free {call : ScheduledCall}
    (free : (popEnded call.startOffsetMs progress.activeCallEndTimes).length < maxConcurrent) :
    progress.launch maxConcurrent durationMs call =
      progress.book durationMs call.index call.startOffsetMs
        (popEnded call.startOffsetMs progress.activeCallEndTimes) :=
  if_neg (Nat.not_le.mpr free)

theorem launch_of_full {call : ScheduledCall} {top : Nat} {running : List Nat}
    (popped : popEnded call.startOffsetMs progress.activeCallEndTimes = top :: running)
    (full : maxConcurrent ≤ (top :: running).length) :
    progress.launch maxConcurrent durationMs call =
      progress.book durationMs call.index top (popEnded top (top :: running)) := by
  rw [Progress.launch, popped]
  exact if_pos full

/-- The first calls have each started as early as its slot allows, and the queue holds the ends of
those that run at the last start. -/
structure LaunchedTo (maxConcurrent durationMs : Nat) (ready name : Nat → Nat) (count : Nat)
    (progress : Progress) : Prop where
  queue : progress.activeCallEndTimes = ends maxConcurrent durationMs ready count
    (start maxConcurrent durationMs ready (count - 1))
  calls : progress.calls = (List.range count).map fun call =>
    ⟨name call, start maxConcurrent durationMs ready call⟩
  atMost : ∀ call < count, (ends maxConcurrent durationMs ready (call + 1)
    (start maxConcurrent durationMs ready call)).length ≤ progress.maxSimultaneousCalls
  attained : progress.maxSimultaneousCalls = 0 ∨ ∃ call < count,
    progress.maxSimultaneousCalls = (ends maxConcurrent durationMs ready (call + 1)
      (start maxConcurrent durationMs ready call)).length

theorem LaunchedTo.idle : LaunchedTo maxConcurrent durationMs ready name 0 {} :=
  ⟨rfl, rfl, fun _ none => absurd none (Nat.not_lt_zero _), Or.inl rfl⟩

/-- The queue after the pops up to the ready time of the next call. -/
theorem LaunchedTo.popEnded (positive : 0 < maxConcurrent) (mono : Monotone ready)
    (launched : LaunchedTo maxConcurrent durationMs ready name count progress) (now : Nat) :
    popEnded now progress.activeCallEndTimes = ends maxConcurrent durationMs ready count
      (max (start maxConcurrent durationMs ready (count - 1)) now) := by
  rw [launched.queue, popEnded_eq_filter (ends_pairwise positive mono _ _), filter_ends]

/-- To push the end of the earliest start keeps the description. -/
theorem LaunchedTo.book (positive : 0 < maxConcurrent) (long : 0 < durationMs)
    (mono : Monotone ready)
    (launched : LaunchedTo maxConcurrent durationMs ready name count progress) :
    LaunchedTo maxConcurrent durationMs ready name (count + 1)
      (progress.book durationMs (name count) (start maxConcurrent durationMs ready count)
        (ends maxConcurrent durationMs ready count
          (start maxConcurrent durationMs ready count))) := by
  have ordered : (ends maxConcurrent durationMs ready count
      (start maxConcurrent durationMs ready count)).Pairwise (· ≤ ·) :=
    ends_pairwise positive mono count _
  have pushed : (ends maxConcurrent durationMs ready count
      (start maxConcurrent durationMs ready count)).orderedInsert (· ≤ ·)
        (start maxConcurrent durationMs ready count + durationMs) =
      ends maxConcurrent durationMs ready (count + 1)
        (start maxConcurrent durationMs ready count) := by
    rw [ends_succ long, orderedInsert_last ordered]
    intro finish member
    obtain ⟨earlier, inRange, rfl⟩ := List.mem_map.mp (List.mem_of_mem_filter member)
    exact Nat.add_le_add_right (start_mono durationMs positive mono (List.mem_range.mp inRange).le) _
  refine ⟨pushed, ?_, fun call before => ?_, ?_⟩
  · rw [List.range_succ, List.map_append, ← launched.calls]
    rfl
  · rw [Progress.book, pushed]
    obtain earlier | rfl := Nat.lt_succ_iff_lt_or_eq.mp before
    · exact le_max_of_le_left (launched.atMost call earlier)
    · exact le_max_right _ _
  · simp only [Progress.book, pushed]
    obtain same | more := max_choice progress.maxSimultaneousCalls
      (ends maxConcurrent durationMs ready (count + 1)
        (start maxConcurrent durationMs ready count)).length
    · rw [same]
      exact launched.attained.imp_right fun ⟨call, before, equal⟩ =>
        ⟨call, before.trans (Nat.lt_succ_self count), equal⟩
    · exact Or.inr ⟨count, Nat.lt_succ_self count, more⟩

/-- The call behind those that are launched does not clash. -/
def ClearAt (maxConcurrent durationMs : Nat) (ready : Nat → Nat) (count : Nat) : Prop :=
  ∀ call, call + 1 + maxConcurrent = count → ¬ Clash maxConcurrent durationMs ready call

/-- One pass of the loop starts the next call as early as its slot allows. -/
theorem LaunchedTo.launch (positive : 0 < maxConcurrent) (long : 0 < durationMs)
    (mono : Monotone ready) (clear : ClearAt maxConcurrent durationMs ready count)
    (launched : LaunchedTo maxConcurrent durationMs ready name count progress) :
    LaunchedTo maxConcurrent durationMs ready name (count + 1)
      (progress.launch maxConcurrent durationMs ⟨name count, ready count⟩) := by
  have popped := launched.popEnded positive mono (ready count)
  have booked := launched.book positive long mono
  have startMono := start_mono durationMs positive mono
  obtain few | many := Nat.lt_or_ge count maxConcurrent
  · -- fewer calls than slots
    have free : (ends maxConcurrent durationMs ready count (ready count)).length < maxConcurrent :=
      (length_ends_le count (ready count)).trans_lt few
    have own : start maxConcurrent durationMs ready count = ready count := start_of_lt few
    have order : start maxConcurrent durationMs ready (count - 1) ≤ ready count :=
      own ▸ startMono (Nat.sub_le count 1)
    rw [max_eq_right order] at popped
    rw [launch_of_free (by rw [popped]; exact free), popped]
    rw [own] at booked
    exact booked
  · obtain ⟨call, rfl⟩ := Nat.exists_eq_add_of_le' many
    have started : ∀ earlier < call,
        start maxConcurrent durationMs ready (earlier + maxConcurrent) ≤
          max (start maxConcurrent durationMs ready (call + maxConcurrent - 1))
            (ready (call + maxConcurrent)) := by
      intro earlier before
      exact le_max_of_le_left (startMono (by omega))
    have turn := start_add durationMs ready positive call
    obtain runs | ended := Nat.lt_or_ge
        (max (start maxConcurrent durationMs ready (call + maxConcurrent - 1))
          (ready (call + maxConcurrent)))
        (start maxConcurrent durationMs ready call + durationMs)
    · -- every slot is taken, and the first that falls free is the one of `call`
      have readyBefore := (le_max_right _ _).trans_lt runs
      rw [max_eq_right readyBefore.le] at turn
      have full := ends_full positive started mono runs
      obtain ⟨more, rfl⟩ := Nat.exists_eq_succ_of_ne_zero positive.ne'
      rw [List.range_succ_eq_map, List.map_cons, Nat.add_zero] at full
      rw [full] at popped
      rw [launch_of_full popped (by simp), ← full, ← turn,
        popEnded_eq_filter (ends_pairwise positive mono _ _), filter_ends,
        max_eq_right (turn ▸ runs.le)]
      exact booked
    · -- a slot is free
      have free := length_ends_lt positive started ended
      have order := start_pred_le_ready positive mono
        (fun earlier next => clear earlier (by omega)) ended
      rw [max_eq_right order] at popped ended free
      rw [max_eq_left ended] at turn
      rw [launch_of_free (by rw [popped]; exact free), popped]
      rw [turn] at booked
      exact booked

/-- What the loop has after the first calls. -/
def launchFirst (maxConcurrent durationMs : Nat) (ready name : Nat → Nat) (count : Nat) : Progress :=
  launchAll maxConcurrent durationMs ((List.range count).map fun call => ⟨name call, ready call⟩)

theorem launchFirst_succ (count : Nat) :
    launchFirst maxConcurrent durationMs ready name (count + 1) =
      (launchFirst maxConcurrent durationMs ready name count).launch maxConcurrent durationMs
        ⟨name count, ready count⟩ := by
  rw [launchFirst, launchAll, List.range_succ, List.map_append, List.foldl_append]
  rfl

theorem launchedTo_run (name : Nat → Nat) (count : Nat) (positive : 0 < maxConcurrent)
    (long : 0 < durationMs) (mono : Monotone ready)
    (clear : ∀ call, call + 1 + maxConcurrent < count → ¬ Clash maxConcurrent durationMs ready call) :
    LaunchedTo maxConcurrent durationMs ready name count
      (launchFirst maxConcurrent durationMs ready name count) := by
  induction count with
  | zero => exact .idle
  | succ count induction =>
    rw [launchFirst_succ]
    refine (induction fun call before => clear call (before.trans (Nat.lt_succ_self _))).launch
      positive long mono fun call last => clear call ?_
    rw [last]
    exact Nat.lt_succ_self count

theorem LaunchedTo.starts
    (launched : LaunchedTo maxConcurrent durationMs ready name count progress) :
    startsOf progress.calls =
      (List.range count).map (start maxConcurrent durationMs ready) := by
  rw [startsOf, launched.calls, List.map_map]
  rfl

theorem LaunchedTo.overlap_le (positive : 0 < maxConcurrent) (mono : Monotone ready)
    (launched : LaunchedTo maxConcurrent durationMs ready name count progress) (time : Nat) :
    overlap durationMs (startsOf progress.calls) time ≤ maxConcurrent := by
  rw [launched.starts]
  exact overlap_starts_le durationMs positive mono count time

/-- The size the queue reached is the largest overlap. -/
theorem LaunchedTo.peak (positive : 0 < maxConcurrent) (mono : Monotone ready)
    (launched : LaunchedTo maxConcurrent durationMs ready name count progress) :
    IsGreatest (Set.range (overlap durationMs (startsOf progress.calls)))
      progress.maxSimultaneousCalls := by
  rw [launched.starts]
  have bound : ∀ time, overlap durationMs
      ((List.range count).map (start maxConcurrent durationMs ready)) time ≤
        progress.maxSimultaneousCalls := by
    intro time
    obtain none | busy := Nat.eq_zero_or_pos (overlap durationMs
      ((List.range count).map (start maxConcurrent durationMs ready)) time)
    · rw [none]
      exact Nat.zero_le _
    · obtain ⟨call, before, most⟩ := overlap_le_length_ends busy
      exact most.trans (launched.atMost call before)
  refine ⟨?_, fun _ ⟨time, equal⟩ => equal ▸ bound time⟩
  obtain none | ⟨call, before, equal⟩ := launched.attained
  · exact ⟨0, by have := bound 0; omega⟩
  · refine ⟨start maxConcurrent durationMs ready call, le_antisymm (bound _) ?_⟩
    rw [equal]
    exact length_ends_le_overlap positive mono before

theorem calls_launchFirst_isPrefix {first count : Nat} (upTo : first ≤ count) :
    (launchFirst maxConcurrent durationMs ready name first).calls <+:
      (launchFirst maxConcurrent durationMs ready name count).calls := by
  induction count, upTo using Nat.le_induction with
  | base => exact List.prefix_rfl
  | succ count _ induction =>
    refine induction.trans ?_
    rw [launchFirst_succ, Progress.launch]
    split
    · exact List.prefix_append _ _
    · exact List.prefix_append _ _

/-- After the first clash a call takes a slot that is not free. -/
theorem exists_overrun (name : Nat → Nat) (positive : 0 < maxConcurrent) (long : 0 < durationMs)
    (mono : Monotone ready) {call : Nat} (inside : call + 1 + maxConcurrent < count)
    (clash : Clash maxConcurrent durationMs ready call)
    (first : ∀ earlier < call, ¬ Clash maxConcurrent durationMs ready earlier) :
    ∃ time, maxConcurrent < overlap durationMs
      (startsOf (launchFirst maxConcurrent durationMs ready name count).calls) time := by
  have launched := launchedTo_run name (call + 1 + maxConcurrent) positive long mono
    fun earlier before => first earlier (by omega)
  have startMono := start_mono durationMs positive mono
  have popped := launched.popEnded positive mono (ready (call + 1 + maxConcurrent))
  have free : (ends maxConcurrent durationMs ready (call + 1 + maxConcurrent)
      (max (start maxConcurrent durationMs ready (call + 1 + maxConcurrent - 1))
        (ready (call + 1 + maxConcurrent)))).length < maxConcurrent :=
    length_ends_lt positive
    (fun earlier before => le_max_of_le_left (startMono (by omega)))
    (le_max_of_le_left (by
      have turn := start_add durationMs ready positive call
      have later := le_max_right (ready (call + maxConcurrent))
        (start maxConcurrent durationMs ready call + durationMs)
      rw [← turn] at later
      rwa [Nat.add_right_comm call 1, Nat.add_sub_cancel, ← clash.1]))
  have next : startsOf (launchFirst maxConcurrent durationMs ready name
      (call + 1 + maxConcurrent + 1)).calls =
        (List.range (call + 1 + maxConcurrent)).map (start maxConcurrent durationMs ready) ++
          [ready (call + 1 + maxConcurrent)] := by
    rw [launchFirst_succ, launch_of_free (by rw [popped]; exact free), ← launched.starts]
    exact List.map_append
  refine ⟨start maxConcurrent durationMs ready call + durationMs - 1, ?_⟩
  calc
    maxConcurrent < overlap durationMs _ _ :=
      lt_overlap_of_firstClash positive long mono clash first
    _ ≤ _ := by
      rw [← next]
      exact ((calls_launchFirst_isPrefix inside).map _).sublist.countP_le

end Queue

theorem split_range_map {α : Type*} {f : Nat → α} {count : Nat} {call : α} {earlier later : List α}
    (split : (List.range count).map f = earlier ++ call :: later) :
    earlier = (List.range earlier.length).map f ∧ call = f earlier.length := by
  have inside : earlier.length < count := by
    have lengths := congrArg List.length split
    simp only [List.length_map, List.length_range, List.length_append, List.length_cons] at lengths
    omega
  constructor
  · have taken := congrArg (List.take earlier.length) split
    rw [List.take_left, ← List.map_take, List.take_range, Nat.min_eq_left inside.le] at taken
    exact taken.symm
  · have found := congrArg (·[earlier.length]?) split
    rw [List.getElem?_append_right le_rfl, Nat.sub_self, List.getElem?_map,
      List.getElem?_range inside] at found
    exact (Option.some.inj found).symm

theorem rateReadyMs_add {cps : Nat} (positive : 0 < cps) (index : Nat) :
    rateReadyMs cps (index + cps) = rateReadyMs cps index + 1000 := by
  rw [rateReadyMs, Nat.add_mul, Nat.mul_comm cps, Nat.add_mul_div_right _ _ positive, rateReadyMs]

/-- Up to the resolution of a millisecond the rate times are distinct. -/
theorem rateReadyMs_strictMono {cps : Nat} (positive : 0 < cps) (resolved : cps ≤ 1000) :
    StrictMono (rateReadyMs cps) := by
  refine strictMono_nat_of_lt_succ fun index => Nat.lt_of_succ_le ?_
  calc
    index * 1000 / cps + 1 = (index * 1000 + cps) / cps := (Nat.add_div_right _ positive).symm
    _ ≤ (index + 1) * 1000 / cps := Nat.div_le_div_right (by omega)

/-- How many of the calls start in a window. -/
def startsWithin (windowMs : Nat) (starts : List Nat) (time : Nat) : Nat :=
  starts.countP fun start => decide (time ≤ start ∧ start < time + windowMs)

/-- What the base schedule promises. -/
structure ExactRun (plan : RunPlan) (durationMs : Int) (schedule : RunSchedule) : Prop where
  planned : schedule.totalPlannedCalls = plan.totalCalls
  indices : schedule.calls.map (·.index) = List.range plan.totalCalls.toNat
  increasing : (startsOf schedule.calls).Pairwise (· < ·)
  atRate : ∀ call ∈ schedule.calls, rateReadyMs plan.cps.toNat call.index ≤ call.startOffsetMs
  inWindow : ∀ time, startsWithin 1000 (startsOf schedule.calls) time ≤ plan.cps.toNat
  concurrent : ∀ time,
    overlap durationMs.toNat (startsOf schedule.calls) time ≤ plan.maxConcurrent.toNat
  peak : IsGreatest (Set.range (overlap durationMs.toNat (startsOf schedule.calls)))
    schedule.maxSimultaneousCalls
  earliest : ∀ earlier call later, schedule.calls = earlier ++ call :: later →
    IsLeast {time | rateReadyMs plan.cps.toNat call.index ≤ time ∧
      Fits plan.maxConcurrent.toNat durationMs.toNat (startsOf earlier) time} call.startOffsetMs

theorem buildRunSchedule_of_ok {plan : RunPlan} {durationMs : Int} {schedule : RunSchedule}
    (accepted : buildRunSchedule plan durationMs = .ok schedule) :
    (0 < plan.cps ∧ 0 < plan.maxConcurrent ∧ 0 < plan.totalCalls) ∧ 0 < durationMs ∧
      plan.cps ≤ 1000 ∧ schedule =
        ⟨plan.totalCalls,
          (launchFirst plan.maxConcurrent.toNat durationMs.toNat (rateReadyMs plan.cps.toNat) id
            plan.totalCalls.toNat).maxSimultaneousCalls,
          (launchFirst plan.maxConcurrent.toNat durationMs.toNat (rateReadyMs plan.cps.toNat) id
            plan.totalCalls.toNat).calls⟩ := by
  rw [buildRunSchedule] at accepted
  split at accepted
  · cases accepted
  · rename_i positive
    split at accepted
    · cases accepted
    · rename_i long
      split at accepted
      · cases accepted
      · rename_i resolved
        cases accepted
        exact ⟨by omega, Int.lt_of_not_ge long, Int.le_of_not_gt resolved, rfl⟩

theorem buildRunSchedule_ok (plan : RunPlan) {durationMs : Int} (cps : 0 < plan.cps)
    (maxConcurrent : 0 < plan.maxConcurrent) (totalCalls : 0 < plan.totalCalls)
    (long : 0 < durationMs) (resolved : plan.cps ≤ 1000) :
    ∃ schedule, buildRunSchedule plan durationMs = .ok schedule := by
  rw [buildRunSchedule, if_neg (by omega), if_neg (Int.not_le.mpr long),
    if_neg (Int.not_lt.mpr resolved)]
  exact ⟨_, rfl⟩

/-- The base schedule of an accepted plan is exact. -/
theorem buildRunSchedule_exact {plan : RunPlan} {durationMs : Int} {schedule : RunSchedule}
    (accepted : buildRunSchedule plan durationMs = .ok schedule) :
    ExactRun plan durationMs schedule := by
  obtain ⟨⟨cps, maxConcurrent, -⟩, long, resolved, rfl⟩ := buildRunSchedule_of_ok accepted
  have rate : 0 < plan.cps.toNat := Int.lt_toNat.mpr cps
  have slots : 0 < plan.maxConcurrent.toNat := Int.lt_toNat.mpr maxConcurrent
  have duration : 0 < durationMs.toNat := Int.lt_toNat.mpr long
  have strict := rateReadyMs_strictMono rate (Int.toNat_le.mpr resolved)
  have launched := launchedTo_run id plan.totalCalls.toNat slots duration strict.monotone
    fun call _ => not_clash_of_strictMono slots strict call
  have startStrict := start_strictMono durationMs.toNat slots strict
  refine ⟨rfl, ?_, ?_, ?_, ?_, launched.overlap_le slots strict.monotone,
    launched.peak slots strict.monotone, ?_⟩
  · rw [launched.calls, List.map_map]
    exact List.map_id _
  · rw [launched.starts]
    exact List.pairwise_map.mpr (List.pairwise_lt_range.imp fun before => startStrict before)
  · rw [launched.calls]
    intro call member
    obtain ⟨index, -, rfl⟩ := List.mem_map.mp member
    exact ready_le_start index
  · rw [launched.starts]
    exact countP_window_le startStrict.monotone
      (start_gap slots 1000 fun call => (rateReadyMs_add rate call).ge) _
  · intro earlier call later split
    rw [launched.calls] at split
    obtain ⟨before, own⟩ := split_range_map split
    generalize earlier.length = position at before own
    subst before own
    rw [startsOf, List.map_map]
    exact start_isLeast slots duration strict.monotone position

/-- Four calls of a second and a half on two slots. -/
theorem two_slots_exact : buildRunSchedule ⟨2, 2, 4⟩ 1500 =
      .ok ⟨4, 2, [⟨0, 0⟩, ⟨1, 500⟩, ⟨2, 1500⟩, ⟨3, 2000⟩]⟩ ∧
    ExactRun ⟨2, 2, 4⟩ 1500 ⟨4, 2, [⟨0, 0⟩, ⟨1, 500⟩, ⟨2, 1500⟩, ⟨3, 2000⟩]⟩ :=
  ⟨by decide, buildRunSchedule_exact (by decide)⟩

end KasterCti.LoadGen
