import KasterCti.Trends.TrendSeries
import Mathlib

/-!
# The axis of the charts and the sentiment on it

`countBuckets` and `buildBucketStarts` of `trend-series.ts`, and `fillSentimentSeries`: the axis
is built by a loop, its length by a formula, and the rows are filed under the floors of their
times.

Results:
1. `buildBucketStarts_eq`: the loop in closed form.
2. `sum_addRows`: the rows that fall on the axis are all counted.
3. `bucketAxis_holds`: the axis, its length and the sums of its points.
-/

namespace KasterCti.Trends

/-- The rounded up quotient, and nothing below zero. -/
def countBuckets (fromTime toTime : Int) (resolution : SnapshotResolution) : Int :=
  let step := resolutionMs resolution
  let start := floorToResolution fromTime resolution
  max 0 (-(-(toTime - start) / step))

structure SentimentBucketRow where
  time : Int
  positive : Int
  neutral : Int
  negative : Int
deriving DecidableEq

structure SentimentPoint extends SentimentBucketRow where
  total : Int
deriving DecidableEq

def emptyPoint (start : Int) : SentimentPoint := ⟨⟨start, 0, 0, 0⟩, 0⟩

def SentimentPoint.add (bucket : SentimentPoint) (row : SentimentBucketRow) : SentimentPoint :=
  let positive := bucket.positive + row.positive
  let neutral := bucket.neutral + row.neutral
  let negative := bucket.negative + row.negative
  ⟨⟨bucket.time, positive, neutral, negative⟩, positive + neutral + negative⟩

abbrev Points := List (Int × SentimentPoint)

/-- The body of the loop over the rows. -/
def addRow (resolution : SnapshotResolution) (points : Points) (row : SentimentBucketRow) : Points :=
  match JsMap.get points (floorToResolution row.time resolution) with
  | none => points
  | some bucket => JsMap.set points (floorToResolution row.time resolution) (bucket.add row)

def emptyPoints (starts : List Int) : Points :=
  starts.foldl (fun points start => JsMap.set points start (emptyPoint start)) []

def fillSentimentSeries (fromTime toTime : Int) (resolution : SnapshotResolution)
    (rows : List SentimentBucketRow) : List SentimentPoint :=
  (rows.foldl (addRow resolution)
    (emptyPoints (buildBucketStarts fromTime toTime resolution))).map (·.2)

section Axis

variable {fromTime toTime time : Int} {resolution : SnapshotResolution}

theorem bucketStartsFrom_eq (start : Int) :
    bucketStartsFrom resolution toTime start =
      (List.range (-(-(toTime - start) / resolutionMs resolution)).toNat).map fun i : Nat =>
        start + i * resolutionMs resolution := by
  have positive := resolutionMs_pos resolution
  induction start using bucketStartsFrom.induct resolution toTime with
  | case1 start inside induction =>
    have more : -(-(toTime - start) / resolutionMs resolution) =
        -(-(toTime - (start + resolutionMs resolution)) / resolutionMs resolution) + 1 := by
      rw [show -(toTime - (start + resolutionMs resolution)) =
        -(toTime - start) + 1 * resolutionMs resolution by ring,
        Int.add_mul_ediv_right _ _ positive.ne']
      ring
    have rest : 0 ≤ -(-(toTime - (start + resolutionMs resolution)) / resolutionMs resolution) := by
      have below := Int.ediv_neg_of_neg_of_pos (show -(toTime - start) < 0 by omega) positive
      omega
    rw [bucketStartsFrom, if_pos inside, induction, more, Int.toNat_add rest zero_le_one,
      Int.toNat_one, List.range_succ_eq_map, List.map_cons, List.map_map]
    congr 1
    · simp
    · refine List.map_congr_left fun i _ => ?_
      simp only [Function.comp_apply, Nat.succ_eq_add_one, Nat.cast_add, Nat.cast_one]
      ring
  | case2 start outside =>
    have none : (-(-(toTime - start) / resolutionMs resolution)).toNat = 0 := by
      have above := Int.ediv_nonneg (show 0 ≤ -(toTime - start) by omega) positive.le
      omega
    rw [bucketStartsFrom, if_neg outside, none]
    rfl

/-- The starts of the axis, counted by the formula. -/
theorem buildBucketStarts_eq (fromTime toTime : Int) (resolution : SnapshotResolution) :
    buildBucketStarts fromTime toTime resolution =
      (List.range (countBuckets fromTime toTime resolution).toNat).map fun i : Nat =>
        floorToResolution fromTime resolution + i * resolutionMs resolution := by
  rw [buildBucketStarts, bucketStartsFrom_eq, countBuckets]
  have same (count : Int) : count.toNat = (max 0 count).toNat := by omega
  rw [same]

theorem buildBucketStarts_pairwise :
    (buildBucketStarts fromTime toTime resolution).Pairwise (· < ·) := by
  rw [buildBucketStarts_eq, List.pairwise_map]
  refine List.pairwise_lt_range.imp fun before => ?_
  have positive := resolutionMs_pos resolution
  exact Int.add_lt_add_left
    (Int.mul_lt_mul_of_pos_right (Int.ofNat_lt.mpr before) positive) _

/-- The start of the bucket of a time is the floor of the time. -/
theorem mem_bucket_iff {start : Int}
    (member : start ∈ buildBucketStarts fromTime toTime resolution) :
    start ≤ time ∧ time < start + resolutionMs resolution ↔
      start = floorToResolution time resolution := by
  have positive := resolutionMs_pos resolution
  rw [buildBucketStarts_eq] at member
  obtain ⟨i, -, rfl⟩ := List.mem_map.mp member
  simp only [floorToResolution, ← Int.add_mul]
  constructor
  · rintro ⟨low, high⟩
    congr 1
    exact ((Int.ediv_eq_iff_of_pos positive).mpr ⟨by linarith, by linarith⟩).symm
  · intro equal
    rw [equal]
    have low := Int.ediv_mul_le time positive.ne'
    have high := Int.lt_ediv_add_one_mul_self time positive
    exact ⟨low, by linarith⟩

/-- The axis has the bucket of every time of the range. -/
theorem floorToResolution_mem (low : fromTime ≤ time) (high : time < toTime) :
    floorToResolution time resolution ∈ buildBucketStarts fromTime toTime resolution := by
  have positive := resolutionMs_pos resolution
  have steps : 0 ≤ time / resolutionMs resolution - fromTime / resolutionMs resolution :=
    sub_nonneg.mpr (Int.ediv_le_ediv positive low)
  obtain ⟨i, equal⟩ := Int.eq_ofNat_of_zero_le steps
  have isFloor : floorToResolution fromTime resolution + i * resolutionMs resolution =
      floorToResolution time resolution := by
    rw [floorToResolution, floorToResolution, ← equal]
    ring
  have before : -(toTime - floorToResolution fromTime resolution) / resolutionMs resolution < -i := by
    rw [Int.ediv_lt_iff_lt_mul positive]
    have floored : floorToResolution time resolution ≤ time := floorToResolution_le time
    linarith
  rw [buildBucketStarts_eq]
  refine List.mem_map.mpr ⟨i, List.mem_range.mpr ?_, isFloor⟩
  rw [countBuckets, Int.lt_toNat]
  exact lt_max_of_lt_right (by linarith)

end Axis

section Rows

variable {resolution : SnapshotResolution} {points : Points} {row : SentimentBucketRow}
  {rows : List SentimentBucketRow} {key : Int}

/-- The points of an axis: each under its own time, with its total. -/
structure PointsOf (starts : List Int) (points : Points) : Prop where
  keys : JsMap.keys points = starts
  times : ∀ entry ∈ points, entry.2.time = entry.1
  totals : ∀ entry ∈ points, entry.2.total =
    entry.2.positive + entry.2.neutral + entry.2.negative

variable {starts : List Int}

theorem emptyPoints_eq (distinct : starts.Nodup) :
    emptyPoints starts = starts.map fun start => (start, emptyPoint start) := by
  induction starts using List.reverseRecOn with
  | nil => rfl
  | append_singleton starts start induction =>
    obtain ⟨before, -, apart⟩ := List.nodup_append.mp distinct
    have keys : JsMap.keys (starts.map fun start => (start, emptyPoint start)) = starts := by
      rw [JsMap.keys, List.map_map]
      exact List.map_id starts
    have new : start ∉ JsMap.keys (starts.map fun start => (start, emptyPoint start)) := by
      rw [keys]
      exact fun member => apart start member start (List.mem_singleton_self start) rfl
    have notThere : ¬ ((starts.map fun start => (start, emptyPoint start)).any
        fun entry => entry.1 = start) = true := by
      rw [List.any_eq_true]
      rintro ⟨entry, member, same⟩
      exact new (List.mem_map.mpr ⟨entry, member, of_decide_eq_true same⟩)
    rw [emptyPoints, List.foldl_append, ← emptyPoints, induction before, List.map_append]
    exact if_neg notThere

theorem pointsOf_emptyPoints (distinct : starts.Nodup) : PointsOf starts (emptyPoints starts) := by
  rw [emptyPoints_eq distinct]
  refine ⟨?_, List.forall_mem_map.mpr fun _ _ => rfl, List.forall_mem_map.mpr fun _ _ => rfl⟩
  rw [JsMap.keys, List.map_map]
  exact List.map_id starts

theorem PointsOf.addRow (isPoints : PointsOf starts points) :
    PointsOf starts (addRow resolution points row) := by
  rw [Trends.addRow]
  split
  · exact isPoints
  · rename_i bucket found
    refine ⟨?_, fun entry member => ?_, fun entry member => ?_⟩
    · rw [JsMap.keys_set, if_pos (JsMap.mem_keys_of_get found)]
      exact isPoints.keys
    · obtain rfl | old := JsMap.mem_set member
      · exact isPoints.times (floorToResolution row.time resolution, bucket) (JsMap.mem_of_get found)
      · exact isPoints.times entry old
    · obtain rfl | old := JsMap.mem_set member
      · rfl
      · exact isPoints.totals entry old

theorem PointsOf.addRows (isPoints : PointsOf starts points) (rows : List SentimentBucketRow) :
    PointsOf starts (rows.foldl (Trends.addRow resolution) points) := by
  induction rows generalizing points with
  | nil => exact isPoints
  | cons row rows induction => exact induction isPoints.addRow

/-- To replace an entry changes the sum by what the values differ. -/
theorem sum_set {f : SentimentPoint → Int} (distinct : (JsMap.keys points).Nodup)
    {bucket other : SentimentPoint} (found : JsMap.get points key = some bucket) :
    ((JsMap.set points key other).map fun entry => f entry.2).sum =
      (points.map fun entry => f entry.2).sum + (f other - f bucket) := by
  have present : (points.any fun entry => entry.1 = key) = true :=
    List.any_eq_true.mpr ⟨_, JsMap.mem_of_get found, decide_eq_true rfl⟩
  rw [JsMap.set, if_pos present]
  clear present
  induction points with
  | nil => cases found
  | cons entry points induction =>
    obtain ⟨own, others⟩ := List.nodup_cons.mp distinct
    rw [JsMap.get_cons] at found
    rw [List.map_cons, List.map_cons, List.sum_cons, List.map_cons, List.sum_cons]
    split at found
    · rename_i same
      have untouched : points.map (fun entry => if entry.1 = key then (key, other) else entry) =
          points := by
        refine (List.map_congr_left fun later member => ?_).trans (List.map_id points)
        exact if_neg fun equal => own (List.mem_map.mpr ⟨later, member, equal.trans same.symm⟩)
      cases found
      rw [untouched, if_pos same]
      ring
    · rename_i different
      rw [induction others found, if_neg different]
      ring

theorem sum_addRow {f : SentimentPoint → Int} {g : SentimentBucketRow → Int}
    (adds : ∀ bucket row, f (SentimentPoint.add bucket row) = f bucket + g row)
    (distinct : (JsMap.keys points).Nodup)
    (onAxis : floorToResolution row.time resolution ∈ JsMap.keys points) :
    ((addRow resolution points row).map fun entry => f entry.2).sum =
      (points.map fun entry => f entry.2).sum + g row := by
  rw [addRow]
  split
  · rename_i none
    exact absurd onAxis (JsMap.get_eq_none_iff.mp none)
  · rename_i bucket found
    rw [sum_set distinct found, adds]
    ring

/-- Rows whose buckets are on the axis are all counted. -/
theorem sum_addRows {f : SentimentPoint → Int} {g : SentimentBucketRow → Int}
    (adds : ∀ bucket row, f (SentimentPoint.add bucket row) = f bucket + g row)
    (distinct : starts.Nodup) (isPoints : PointsOf starts points)
    (onAxis : ∀ row ∈ rows, floorToResolution row.time resolution ∈ starts) :
    ((rows.foldl (addRow resolution) points).map fun entry => f entry.2).sum =
      (points.map fun entry => f entry.2).sum + (rows.map g).sum := by
  induction rows generalizing points with
  | nil => simp
  | cons row rows induction =>
    obtain ⟨own, others⟩ := List.forall_mem_cons.mp onAxis
    rw [List.foldl_cons, induction isPoints.addRow others,
      sum_addRow adds (isPoints.keys ▸ distinct) (isPoints.keys ▸ own), List.map_cons,
      List.sum_cons]
    ring

end Rows

/-- What the charts rely on. -/
structure BucketAxis (fromTime toTime : Int) (resolution : SnapshotResolution)
    (rows : List SentimentBucketRow) : Prop where
  increasing : (buildBucketStarts fromTime toTime resolution).Pairwise (· < ·)
  step : ∀ i start next, (buildBucketStarts fromTime toTime resolution)[i]? = some start →
    (buildBucketStarts fromTime toTime resolution)[i + 1]? = some next →
    next = start + resolutionMs resolution
  count : ((buildBucketStarts fromTime toTime resolution).length : Int) =
    countBuckets fromTime toTime resolution
  /-- Every time of the range is in one bucket. -/
  covers : ∀ time, fromTime ≤ time → time < toTime →
    ∃! start, start ∈ buildBucketStarts fromTime toTime resolution ∧
      start ≤ time ∧ time < start + resolutionMs resolution
  points : (fillSentimentSeries fromTime toTime resolution rows).map (·.time) =
    buildBucketStarts fromTime toTime resolution
  totals : ∀ point ∈ fillSentimentSeries fromTime toTime resolution rows,
    point.total = point.positive + point.neutral + point.negative
  positive : ((fillSentimentSeries fromTime toTime resolution rows).map (·.positive)).sum =
    (rows.map (·.positive)).sum
  neutral : ((fillSentimentSeries fromTime toTime resolution rows).map (·.neutral)).sum =
    (rows.map (·.neutral)).sum
  negative : ((fillSentimentSeries fromTime toTime resolution rows).map (·.negative)).sum =
    (rows.map (·.negative)).sum

/-- Whatever the alignment of the range, and the order and the number of the rows. -/
theorem bucketAxis_holds {fromTime toTime : Int} (resolution : SnapshotResolution)
    {rows : List SentimentBucketRow}
    (inside : ∀ row ∈ rows, fromTime ≤ row.time ∧ row.time < toTime) :
    BucketAxis fromTime toTime resolution rows := by
  have increasing : (buildBucketStarts fromTime toTime resolution).Pairwise (· < ·) :=
    buildBucketStarts_pairwise
  have distinct : (buildBucketStarts fromTime toTime resolution).Nodup :=
    increasing.imp fun before => before.ne
  have empty := pointsOf_emptyPoints distinct
  have filled : PointsOf _ (rows.foldl (addRow resolution) _) := empty.addRows rows
  have onAxis : ∀ row ∈ rows, floorToResolution row.time resolution ∈
      buildBucketStarts fromTime toTime resolution :=
    fun row member => floorToResolution_mem (inside row member).1 (inside row member).2
  have sums {f : SentimentPoint → Int} {g : SentimentBucketRow → Int}
      (adds : ∀ bucket row, f (SentimentPoint.add bucket row) = f bucket + g row)
      (zero : ∀ start, f (emptyPoint start) = 0) :
      ((fillSentimentSeries fromTime toTime resolution rows).map f).sum = (rows.map g).sum := by
    have counted := sum_addRows adds distinct empty onAxis
    have none : ((emptyPoints (buildBucketStarts fromTime toTime resolution)).map
        fun entry => f entry.2).sum = 0 := by
      rw [emptyPoints_eq distinct, List.map_map]
      simp [Function.comp_def, zero]
    rw [none, zero_add] at counted
    rw [fillSentimentSeries, List.map_map]
    exact counted
  refine ⟨increasing, fun i start next isStart isNext => ?_, ?_, fun time low high => ?_, ?_, ?_,
    sums (fun _ _ => rfl) fun _ => rfl, sums (fun _ _ => rfl) fun _ => rfl,
    sums (fun _ _ => rfl) fun _ => rfl⟩
  · rw [buildBucketStarts_eq, List.getElem?_map] at isStart isNext
    obtain ⟨_, atStart, rfl⟩ := Option.map_eq_some_iff.mp isStart
    obtain ⟨_, atNext, rfl⟩ := Option.map_eq_some_iff.mp isNext
    obtain ⟨-, rfl⟩ := List.getElem?_eq_some_iff.mp atStart
    obtain ⟨-, rfl⟩ := List.getElem?_eq_some_iff.mp atNext
    simp only [List.getElem_range, Nat.cast_add, Nat.cast_one]
    ring
  · rw [buildBucketStarts_eq, List.length_map, List.length_range]
    exact Int.toNat_of_nonneg (le_max_left _ _)
  · have member : floorToResolution time resolution ∈
        buildBucketStarts fromTime toTime resolution := floorToResolution_mem low high
    refine ⟨_, ⟨member, (mem_bucket_iff member).mpr rfl⟩, fun start ⟨member, within⟩ => ?_⟩
    exact (mem_bucket_iff member).mp within
  · rw [fillSentimentSeries, List.map_map]
    exact (List.map_congr_left filled.times).trans filled.keys
  · rw [fillSentimentSeries]
    exact List.forall_mem_map.mpr filled.totals

/-- Two rows of one bucket and one of the next, in a range that begins within a minute. -/
theorem three_rows_axis :
    fillSentimentSeries 61000 180001 .pt1m
        [⟨130000, 1, 0, 2⟩, ⟨61000, 3, 1, 0⟩, ⟨179999, 0, 5, 0⟩] =
      [⟨⟨60000, 3, 1, 0⟩, 4⟩, ⟨⟨120000, 1, 5, 2⟩, 8⟩, ⟨⟨180000, 0, 0, 0⟩, 0⟩] ∧
    BucketAxis 61000 180001 .pt1m [⟨130000, 1, 0, 2⟩, ⟨61000, 3, 1, 0⟩, ⟨179999, 0, 5, 0⟩] :=
  ⟨by rw [fillSentimentSeries, buildBucketStarts_eq]; decide, bucketAxis_holds .pt1m (by decide)⟩

end KasterCti.Trends
