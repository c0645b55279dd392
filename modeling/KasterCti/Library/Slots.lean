import Mathlib

/-!
# Calls of one length on a limited number of slots

Calls become ready one after the other, each occupies one of `slots` slots for `duration`
instants, and a slot is handed on in the order of arrival. The earliest start of a call is
then told by the call that stands `slots` places before it.

## Results

* `overlap_starts_le`: the calls never occupy more than the slots there are.
* `start_isLeast`: no call waits longer than the calls before it make necessary.
* `countP_window_le`: the spacing of the ready times bounds the calls of any window.
* `ends_full`, `length_ends_lt`: which calls still run when the next one is ready.
* `lt_overlap_of_firstClash`: what a call does that takes a slot before it falls free.
-/

namespace Slots

variable {slots duration : Nat} {ready : Nat → Nat}

/-- How many calls occupy a slot at an instant. -/
def overlap (duration : Nat) (starts : List Nat) (time : Nat) : Nat :=
  starts.countP fun start => decide (start ≤ time ∧ time < start + duration)

/-- The earliest start of a call when the slots are handed on in order. -/
def start (slots duration : Nat) (ready : Nat → Nat) (call : Nat) : Nat :=
  if _inTurn : 0 < slots ∧ slots ≤ call then
    max (ready call) (start slots duration ready (call - slots) + duration)
  else ready call
termination_by call
decreasing_by omega

theorem start_of_lt {call : Nat} (first : call < slots) :
    start slots duration ready call = ready call := by
  rw [start, dif_neg]
  exact fun inTurn => absurd inTurn.2 (Nat.not_le.mpr first)

theorem start_add (duration : Nat) (ready : Nat → Nat) (some : 0 < slots) (call : Nat) :
    start slots duration ready (call + slots) =
      max (ready (call + slots)) (start slots duration ready call + duration) := by
  rw [start, dif_pos ⟨some, Nat.le_add_left _ _⟩, Nat.add_sub_cancel]

theorem ready_le_start (call : Nat) : ready call ≤ start slots duration ready call := by
  rw [start]
  split
  · exact le_max_left _ _
  · exact le_rfl

/-- A call either has a free slot or takes over the slot of an earlier one. -/
theorem start_cases (duration : Nat) (ready : Nat → Nat) (some : 0 < slots) (call : Nat) :
    start slots duration ready call = ready call ∨
      ∃ earlier, call = earlier + slots ∧
        start slots duration ready call = start slots duration ready earlier + duration := by
  obtain first | later := Nat.lt_or_ge call slots
  · exact Or.inl (start_of_lt first)
  · obtain ⟨earlier, rfl⟩ := Nat.exists_eq_add_of_le' later
    rw [start_add duration ready some]
    obtain free | waits := max_choice (ready (earlier + slots))
      (start slots duration ready earlier + duration)
    · exact Or.inl free
    · exact Or.inr ⟨earlier, rfl, waits⟩

/-- What the ready times keep between two calls, the starts keep. -/
theorem start_gap (some : 0 < slots) {calls : Nat} (gap : Nat)
    (spaced : ∀ call, ready call + gap ≤ ready (call + calls)) (call : Nat) :
    start slots duration ready call + gap ≤ start slots duration ready (call + calls) := by
  induction call using Nat.strong_induction_on with
  | _ call induction =>
    obtain free | ⟨earlier, rfl, waits⟩ := start_cases duration ready some call
    · rw [free]
      exact (spaced call).trans (ready_le_start _)
    · have kept := induction earlier (Nat.lt_add_of_pos_right some)
      rw [waits, Nat.add_right_comm earlier, start_add duration ready some]
      exact le_max_of_le_right (by omega)

theorem start_mono (duration : Nat) (some : 0 < slots) (mono : Monotone ready) :
    Monotone (start slots duration ready) :=
  monotone_nat_of_le_succ fun call =>
    start_gap some 0 (fun call => mono (Nat.le_succ call)) call

theorem start_strictMono (duration : Nat) (some : 0 < slots) (strict : StrictMono ready) :
    StrictMono (start slots duration ready) :=
  strictMono_nat_of_lt_succ fun call =>
    start_gap some 1 (fun call => strict (Nat.lt_succ_self call)) call

/-- Where all calls of a kind lie close behind the first of them, there are few. -/
theorem countP_range_le {kind : Nat → Bool} {count bound : Nat}
    (close : ∀ first call, kind first = true → kind call = true → call < first + bound) :
    (List.range count).countP kind ≤ bound := by
  have asCard : (List.range count).countP kind = ((Finset.range count).filter (kind ·)).card := by
    rw [← Nat.count_eq_card_filter_range]
    simp [Nat.count]
  rw [asCard]
  obtain none | ⟨call, member⟩ := ((Finset.range count).filter (kind ·)).eq_empty_or_nonempty
  · simp [none]
  · have found : ∃ call, kind call = true := ⟨call, (Finset.mem_filter.mp member).2⟩
    calc
      ((Finset.range count).filter (kind ·)).card
          ≤ (Finset.Ico (Nat.find found) (Nat.find found + bound)).card := by
        refine Finset.card_le_card fun call member => ?_
        have isKind := (Finset.mem_filter.mp member).2
        exact Finset.mem_Ico.mpr ⟨Nat.find_min' found isKind,
          close _ _ (Nat.find_spec found) isKind⟩
      _ = bound := by simp

theorem le_countP_range {kind : Nat → Bool} {count bound : Nat} (first : Nat)
    (inside : first + bound ≤ count) (all : ∀ call, first ≤ call → call < first + bound →
      kind call = true) : bound ≤ (List.range count).countP kind := by
  obtain ⟨rest, rfl⟩ := Nat.exists_eq_add_of_le inside
  have middle : ((List.range bound).map (first + ·)).countP kind = bound := by
    rw [List.countP_eq_length.mpr, List.length_map, List.length_range]
    intro call member
    obtain ⟨offset, inRange, rfl⟩ := List.mem_map.mp member
    exact all _ (Nat.le_add_right _ _) (Nat.add_lt_add_left (List.mem_range.mp inRange) _)
  rw [List.range_add, List.range_add, List.countP_append, List.countP_append, middle]
  omega

/-- Calls that keep a distance fall into a window of that length at most so many times. -/
theorem countP_window_le {starts : Nat → Nat} {calls gap : Nat} (mono : Monotone starts)
    (spaced : ∀ call, starts call + gap ≤ starts (call + calls)) (count time : Nat) :
    ((List.range count).map starts).countP
      (fun start => decide (time ≤ start ∧ start < time + gap)) ≤ calls := by
  rw [List.countP_map]
  refine countP_range_le fun first call firstIn callIn => ?_
  simp only [Function.comp_apply, decide_eq_true_eq] at firstIn callIn
  by_contra far
  have order := mono (Nat.le_of_not_lt far)
  have apart := spaced first
  omega

theorem overlap_starts_le (duration : Nat) (some : 0 < slots) (mono : Monotone ready)
    (count time : Nat) :
    overlap duration ((List.range count).map (start slots duration ready)) time ≤ slots := by
  rw [overlap, List.countP_map]
  refine countP_range_le fun first call firstIn callIn => ?_
  simp only [Function.comp_apply, decide_eq_true_eq] at firstIn callIn
  by_contra far
  have order := start_mono duration some mono (Nat.le_of_not_lt far)
  have apart := le_max_right (ready (first + slots)) (start slots duration ready first + duration)
  rw [← start_add duration ready some] at apart
  omega

variable {call time : Nat}

/-- Before its start a call finds every slot taken by the calls before it. -/
theorem overlap_earlier_of_lt (some : 0 < slots) (mono : Monotone ready)
    (isReady : ready call ≤ time) (tooEarly : time < start slots duration ready call) :
    slots ≤ overlap duration ((List.range call).map (start slots duration ready)) time := by
  have notYet : ∃ waiting, time < start slots duration ready waiting := ⟨call, tooEarly⟩
  -- the first call that has not started by then waits for the one `slots` places before it
  have firstLe : Nat.find notYet ≤ call := Nat.find_min' notYet tooEarly
  have waits := Nat.find_spec notYet
  have readyBy : ready (Nat.find notYet) ≤ time := (mono firstLe).trans isReady
  obtain free | ⟨earlier, position, ends⟩ :=
    start_cases duration ready some (Nat.find notYet)
  · omega
  · rw [overlap, List.countP_map]
    refine le_countP_range earlier (position ▸ firstLe) fun other after before => ?_
    have started : start slots duration ready other ≤ time :=
      Nat.le_of_not_lt (Nat.find_min notYet (position ▸ before))
    have order := start_mono duration some mono after
    simp only [Function.comp_apply, decide_eq_true_eq]
    omega

/-- A call may start at a time when a slot stays free for it as long as it lasts. -/
def Fits (slots duration : Nat) (earlier : List Nat) (time : Nat) : Prop :=
  ∀ instant, time ≤ instant → instant < time + duration →
    overlap duration earlier instant < slots

/-- No call waits longer than its ready time and the calls before it make necessary. -/
theorem start_isLeast (some : 0 < slots) (long : 0 < duration) (mono : Monotone ready)
    (call : Nat) :
    IsLeast {time | ready call ≤ time ∧
        Fits slots duration ((List.range call).map (start slots duration ready)) time}
      (start slots duration ready call) := by
  refine ⟨⟨ready_le_start call, fun instant after before => ?_⟩, fun time ⟨isReady, fits⟩ => ?_⟩
  · have own : decide (start slots duration ready call ≤ instant ∧
        instant < start slots duration ready call + duration) = true :=
      decide_eq_true ⟨after, before⟩
    have all := overlap_starts_le duration some mono (call + 1) instant
    rw [overlap, List.range_succ, List.map_append, List.countP_append, List.map_singleton,
      List.countP_singleton, if_pos own] at all
    exact all
  · by_contra early
    exact Nat.not_le.mpr (fits time le_rfl (Nat.lt_add_of_pos_right long))
      (overlap_earlier_of_lt some mono isReady (Nat.lt_of_not_le early))

/-- The ends after an instant of the first calls. -/
def ends (slots duration : Nat) (ready : Nat → Nat) (calls time : Nat) : List Nat :=
  ((List.range calls).map fun call => start slots duration ready call + duration).filter
    (decide <| time < ·)

theorem ends_pairwise (some : 0 < slots) (mono : Monotone ready) (calls time : Nat) :
    (ends slots duration ready calls time).Pairwise (· ≤ ·) := by
  refine List.Pairwise.filter _ (List.pairwise_map.mpr ?_)
  refine List.pairwise_lt_range.imp fun before => ?_
  exact Nat.add_le_add_right (start_mono duration some mono before.le) _

theorem filter_ends (calls time later : Nat) :
    (ends slots duration ready calls time).filter (decide <| later < ·) =
      ends slots duration ready calls (max time later) := by
  simp only [ends, List.filter_filter]
  refine List.filter_congr fun finish _ => ?_
  rw [← Bool.decide_and, decide_eq_decide, max_lt_iff, and_comm]

section Started
variable (some : 0 < slots)
  (started : ∀ earlier < call, start slots duration ready (earlier + slots) ≤ time)
include some started

/-- Only the last `slots` calls may still run. -/
theorem ends_add :
    ends slots duration ready (call + slots) time =
      ((List.range slots).map fun place =>
        start slots duration ready (call + place) + duration).filter (decide <| time < ·) := by
  rw [ends, List.range_add, List.map_append, List.filter_append, List.map_map,
    List.filter_eq_nil_iff.mpr, List.nil_append]
  · rfl
  · intro finish member
    obtain ⟨earlier, inRange, rfl⟩ := List.mem_map.mp member
    have next := started earlier (List.mem_range.mp inRange)
    rw [start_add duration ready some] at next
    simpa using le_of_max_le_right next

/-- When the call `slots` places before still runs, every slot is taken. -/
theorem ends_full (mono : Monotone ready) (runs : time < start slots duration ready call + duration) :
    ends slots duration ready (call + slots) time =
      (List.range slots).map fun place => start slots duration ready (call + place) + duration := by
  rw [ends_add some started, List.filter_eq_self.mpr]
  intro finish member
  obtain ⟨place, -, rfl⟩ := List.mem_map.mp member
  have order := start_mono duration some mono (Nat.le_add_right call place)
  exact decide_eq_true (runs.trans_le (Nat.add_le_add_right order _))

/-- When it does not, a slot is free. -/
theorem length_ends_lt (ended : start slots duration ready call + duration ≤ time) :
    (ends slots duration ready (call + slots) time).length < slots := by
  rw [ends_add some started]
  have fewer := List.length_filter_lt_length_iff_exists (p := (decide <| time < ·))
    (l := (List.range slots).map fun place => start slots duration ready (call + place) + duration)
  rw [List.length_map, List.length_range] at fewer
  refine fewer.mpr ⟨start slots duration ready call + duration, ?_, by simpa using ended⟩
  exact List.mem_map.mpr ⟨0, List.mem_range.mpr some, rfl⟩

end Started

theorem length_ends_le (calls time : Nat) :
    (ends slots duration ready calls time).length ≤ calls := by
  refine (List.length_filter_le _ _).trans ?_
  simp

theorem ends_succ (long : 0 < duration) (call : Nat) :
    ends slots duration ready (call + 1) (start slots duration ready call) =
      ends slots duration ready call (start slots duration ready call) ++
        [start slots duration ready call + duration] := by
  have runs : ∀ finish ∈ [start slots duration ready call + duration],
      decide (start slots duration ready call < finish) = true := by
    simpa using long
  rw [ends, List.range_succ, List.map_append, List.filter_append, List.map_singleton,
    List.filter_eq_self.mpr runs]
  rfl

theorem length_ends (calls time : Nat) :
    (ends slots duration ready calls time).length =
      (List.range calls).countP fun call =>
        decide (time < start slots duration ready call + duration) := by
  rw [ends, ← List.countP_eq_length_filter, List.countP_map]
  rfl

/-- Those that still run at the start of a call overlap with it. -/
theorem length_ends_le_overlap (some : 0 < slots) (mono : Monotone ready) {call count : Nat}
    (before : call < count) :
    (ends slots duration ready (call + 1) (start slots duration ready call)).length ≤
      overlap duration ((List.range count).map (start slots duration ready))
        (start slots duration ready call) := by
  rw [length_ends, overlap, List.countP_map]
  calc
    _ ≤ (List.range (call + 1)).countP _ := by
      refine List.countP_mono_left fun other member runs => ?_
      have order := start_mono duration some mono
        (Nat.le_of_lt_succ (List.mem_range.mp member))
      exact decide_eq_true ⟨order, of_decide_eq_true runs⟩
    _ ≤ _ := List.Sublist.countP_le (List.range_sublist.mpr before)

/-- Where one of the first numbers is of a kind, there is a last one. -/
theorem exists_last_lt (kind : Nat → Prop) [DecidablePred kind] {number count : Nat}
    (below : number < count) (isKind : kind number) :
    ∃ last < count, kind last ∧ ∀ later, last < later → later < count → ¬ kind later := by
  have atMost := Nat.findGreatest_le (P := kind) (count - 1)
  refine ⟨Nat.findGreatest kind (count - 1), by omega,
    Nat.findGreatest_spec (Nat.le_sub_one_of_lt below) isKind, fun later behind inside => ?_⟩
  exact Nat.findGreatest_is_greatest behind (Nat.le_sub_one_of_lt inside)

/-- At any instant no more calls overlap than at the start of some call before. -/
theorem overlap_le_length_ends {count time : Nat}
    (busy : 0 < overlap duration ((List.range count).map (start slots duration ready)) time) :
    ∃ call < count, overlap duration ((List.range count).map (start slots duration ready)) time ≤
      (ends slots duration ready (call + 1) (start slots duration ready call)).length := by
  rw [overlap, List.countP_map, List.countP_pos_iff] at busy
  obtain ⟨active, member, isActive⟩ := busy
  obtain ⟨last, lastLt, lastStarted, behind⟩ :=
    exists_last_lt (fun call => start slots duration ready call ≤ time)
      (List.mem_range.mp member) (of_decide_eq_true isActive).1
  refine ⟨last, lastLt, ?_⟩
  obtain ⟨rest, rfl⟩ := Nat.exists_eq_add_of_le (Nat.succ_le_of_lt lastLt)
  have restWaits : ((List.range rest).map (last + 1 + ·)).countP
      ((fun start => decide (start ≤ time ∧ time < start + duration)) ∘
        start slots duration ready) = 0 := by
    refine List.countP_eq_zero.mpr fun call member isActive => ?_
    obtain ⟨place, placeLt, rfl⟩ := List.mem_map.mp member
    exact behind _ (Nat.lt_of_lt_of_le (Nat.lt_succ_self last) (Nat.le_add_right _ _))
      (Nat.add_lt_add_left (List.mem_range.mp placeLt) _) (of_decide_eq_true isActive).1
  rw [overlap, List.countP_map, List.range_add, List.countP_append, restWaits, length_ends]
  refine List.countP_mono_left fun call _ isActive => ?_
  exact decide_eq_true (lastStarted.trans_lt (of_decide_eq_true isActive).2)

/-- Two calls of one start, and the call behind the two that take over their slots is ready
before those fall free. -/
def Clash (slots duration : Nat) (ready : Nat → Nat) (call : Nat) : Prop :=
  start slots duration ready call = start slots duration ready (call + 1) ∧
    ready (call + 1 + slots) < start slots duration ready call + duration

/-- Calls of different starts never clash. -/
theorem not_clash_of_strictMono (some : 0 < slots) (strict : StrictMono ready) (call : Nat) :
    ¬ Clash slots duration ready call := fun clash =>
  absurd clash.1 (start_strictMono duration some strict (Nat.lt_succ_self call)).ne

/-- Without a clash a call that finds a free slot is not ready before the last one started. -/
theorem start_pred_le_ready (some : 0 < slots) (mono : Monotone ready) {call : Nat}
    (noClash : ∀ earlier, earlier + 1 = call → ¬ Clash slots duration ready earlier)
    (ended : start slots duration ready call + duration ≤
      max (start slots duration ready (call + slots - 1)) (ready (call + slots))) :
    start slots duration ready (call + slots - 1) ≤ ready (call + slots) := by
  by_contra early
  have early := Nat.lt_of_not_le early
  rw [max_eq_left early.le] at ended
  obtain free | ⟨earlier, position, waits⟩ :=
    start_cases duration ready some (call + slots - 1)
  · have order := mono (Nat.sub_le (call + slots) 1)
    omega
  · have next : earlier + 1 = call := by omega
    subst next
    have order := start_mono duration some mono (Nat.le_succ earlier)
    exact noClash earlier rfl ⟨by simp only [Nat.succ_eq_add_one] at order; omega, by omega⟩

section FirstClash

variable {call : Nat}

section FirstClash
variable (some : 0 < slots) (mono : Monotone ready) (clash : Clash slots duration ready call)
  (first : ∀ earlier < call, ¬ Clash slots duration ready earlier)
include some mono clash first

/-- The second of the two calls of the first clash waits for nobody. -/
theorem start_succ_of_firstClash : start slots duration ready (call + 1) = ready (call + 1) := by
  obtain free | ⟨earlier, position, waits⟩ :=
    start_cases duration ready some call
  · have order := mono (Nat.le_succ call)
    have own : ready (call + 1) ≤ start slots duration ready (call + 1) := ready_le_start (call + 1)
    have equal := clash.1
    simp only [Nat.succ_eq_add_one] at order
    omega
  · subst position
    by_contra delayed
    have readyBefore := lt_of_le_of_ne (ready_le_start (earlier + slots + 1)) (Ne.symm delayed)
    have turn := start_add duration ready some (earlier + 1)
    have equal := clash.1
    rw [Nat.add_right_comm earlier 1 slots] at turn
    rw [turn] at equal delayed readyBefore
    have waitsToo := (max_choice (ready (earlier + slots + 1))
      (start slots duration ready (earlier + 1) + duration)).resolve_left delayed
    refine first earlier (Nat.lt_add_of_pos_right some) ⟨by omega, ?_⟩
    rw [Nat.add_right_comm earlier 1 slots]
    omega

/-- The calls between the two that clash have started before the slots fall free. -/
theorem start_lt_of_firstClash {other : Nat} (before : other < call + slots) :
    start slots duration ready other < start slots duration ready call + duration := by
  have early := clash.2
  obtain free | ⟨earlier, rfl, waits⟩ :=
    start_cases duration ready some other
  · have order := mono (show other ≤ call + 1 + slots by omega)
    omega
  · have earlierLt : earlier < call := Nat.lt_of_add_lt_add_right before
    have order := start_mono duration some mono earlierLt.le
    refine lt_of_le_of_ne (by omega) fun equal => ?_
    -- otherwise the call before this one has the same start, and the two clash earlier
    have next := start_mono duration some mono (Nat.le_succ earlier)
    have upTo := start_mono duration some mono (Nat.succ_le_of_lt earlierLt)
    have readyBefore := mono (show earlier + 1 + slots ≤ call + 1 + slots by omega)
    simp only [Nat.succ_eq_add_one] at next upTo
    exact first earlier earlierLt ⟨by omega, by omega⟩

end FirstClash

/-- Started as soon as it is ready, the call behind the clash is one too many. -/
theorem lt_overlap_of_firstClash (some : 0 < slots) (long : 0 < duration) (mono : Monotone ready)
    (clash : Clash slots duration ready call)
    (first : ∀ earlier < call, ¬ Clash slots duration ready earlier) :
    slots < overlap duration
      ((List.range (call + 1 + slots)).map (start slots duration ready) ++
        [ready (call + 1 + slots)])
      (start slots duration ready call + duration - 1) := by
  have early := clash.2
  have equal := clash.1
  have second := start_succ_of_firstClash some mono clash first
  have order := mono (show call + 1 ≤ call + 1 + slots by omega)
  have own : decide (ready (call + 1 + slots) ≤ start slots duration ready call + duration - 1 ∧
      start slots duration ready call + duration - 1 < ready (call + 1 + slots) + duration) = true :=
    decide_eq_true (by omega)
  rw [overlap, List.countP_append, List.countP_singleton, if_pos own, List.countP_map]
  refine Nat.lt_succ_of_le (le_countP_range call (by omega) fun other after before => ?_)
  have started := start_lt_of_firstClash some mono clash first before
  have later := start_mono duration some mono after
  simp only [Function.comp_apply, decide_eq_true_eq]
  omega

end FirstClash

end Slots
