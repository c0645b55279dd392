import KasterCti.Library.Peaks
import KasterCti.Trends.SnapshotRollup

/-!
# Points of a trend

`mergeTrendPoints`: calls and snapshots on one time axis. A bucket of the chart can hold
snapshots of two resolutions, before and after the rollup has passed; only the finest of them are
folded.

Results:
1. `foldSnapshotBucket_keeps_iff`: when the fold of a bucket has its peaks and its outages.
2. `trend_peaks_kept_iff`: exactly when no point of the axis loses one.
3. `rolled_half_loses_peak`: an hour that is half rolled up.
-/

namespace KasterCti.Trends

structure SnapshotBucket where
  time : Int
  resolution : SnapshotResolution
  metrics : MetricKey → Option Int
  amiConnected : Option Bool

structure CallBucket where
  time : Int
  inbound : Int
  answered : Int
  abandoned : Int
  avgWaitSeconds : Int
  avgTalkSeconds : Int

structure TrendPoint where
  time : Int
  inbound : Int
  answered : Int
  abandoned : Int
  avgWaitSeconds : Int
  avgTalkSeconds : Int
  metrics : MetricKey → Option Int
  amiConnected : Option Bool

structure MergeTrendInput where
  fromTime : Int
  toTime : Int
  resolution : SnapshotResolution
  calls : List CallBucket
  snapshots : List SnapshotBucket

/-! ## The axis -/

/-- `for (let at = start; at < to; at += step)`. -/
def bucketStartsFrom (resolution : SnapshotResolution) (toTime start : Int) : List Int :=
  if start < toTime then
    start :: bucketStartsFrom resolution toTime (start + resolutionMs resolution)
  else []
termination_by (toTime - start).toNat
decreasing_by
  have hpos := resolutionMs_pos resolution
  omega

def buildBucketStarts (fromTime toTime : Int) (resolution : SnapshotResolution) : List Int :=
  bucketStartsFrom resolution toTime (floorToResolution fromTime resolution)

/-! ## The fold -/

def precedence (resolution : SnapshotResolution) : Int := resolutionMs resolution

def numbersOf (rows : List SnapshotBucket) (key : MetricKey) : List Int :=
  rows.filterMap (·.metrics key)

/-- `Math.round` of the average is the floor of it and a half. -/
def foldAvg (rows : List SnapshotBucket) (key : MetricKey) : Option Int :=
  let values := numbersOf rows key
  if values = [] then none else some ((2 * values.sum + values.length) / (2 * values.length))

/-- What a bucket of snapshots says of a point. -/
structure SnapshotPart where
  metrics : MetricKey → Option Int
  amiConnected : Option Bool

def EMPTY_SNAPSHOT : SnapshotPart := ⟨fun _ => none, none⟩

/-- The rows of the finest resolution. -/
def finestRows (rows : List SnapshotBucket) : List SnapshotBucket :=
  rows.filter fun row => (rows.map fun other => precedence other.resolution).min? =
    some (precedence row.resolution)

def foldSnapshotBucket (rows : List SnapshotBucket) : SnapshotPart :=
  if rows = [] then EMPTY_SNAPSHOT
  else
    let kept := finestRows rows
    let amiFlags := kept.filterMap (·.amiConnected)
    { metrics := fun key => if key ∈ peaked then (numbersOf kept key).max? else foldAvg kept key
      amiConnected := if amiFlags = [] then none else some (amiFlags.all id) }

def mergeTrendPoints (input : MergeTrendInput) : List TrendPoint :=
  let callsByBucket := input.calls.foldl (fun m call =>
    JsMap.set m (floorToResolution call.time input.resolution) call) []
  let snapshotsByBucket := JsMap.group (fun snapshot : SnapshotBucket =>
    floorToResolution snapshot.time input.resolution) input.snapshots
  (buildBucketStarts input.fromTime input.toTime input.resolution).map fun time =>
    let call := JsMap.get callsByBucket time
    let snapshot := foldSnapshotBucket ((JsMap.get snapshotsByBucket time).getD [])
    { time
      inbound := (call.map (·.inbound)).getD 0
      answered := (call.map (·.answered)).getD 0
      abandoned := (call.map (·.abandoned)).getD 0
      avgWaitSeconds := (call.map (·.avgWaitSeconds)).getD 0
      avgTalkSeconds := (call.map (·.avgTalkSeconds)).getD 0
      metrics := snapshot.metrics
      amiConnected := snapshot.amiConnected }

/-! ## Peaks -/

/-- The snapshots that fall on a point. -/
def MergeTrendInput.snapshotsAt (input : MergeTrendInput) (time : Int) : List SnapshotBucket :=
  input.snapshots.filter fun snapshot => floorToResolution snapshot.time input.resolution = time

/-- A point has the peaks and the outages of all snapshots that fall on it. -/
structure TrendPoint.KeepsPeaks (input : MergeTrendInput) (point : TrendPoint) : Prop where
  peaks : ∀ metric ∈ peaked,
    point.metrics metric = (numbersOf (input.snapshotsAt point.time) metric).max?
  outage : (∃ row ∈ input.snapshotsAt point.time, row.amiConnected = some false) →
    point.amiConnected = some false

/-- No row of the bucket is finer. -/
def Finest (rows : List SnapshotBucket) (row : SnapshotBucket) : Prop :=
  ∀ other ∈ rows, resolutionMs row.resolution ≤ resolutionMs other.resolution

/-- The finest rows of a bucket tell its peaks and its outages. -/
structure FinestTellAll (rows : List SnapshotBucket) : Prop where
  peaks : ∀ metric ∈ peaked, ∀ row ∈ rows, ∀ value ∈ row.metrics metric,
    ∃ fine ∈ rows, Finest rows fine ∧ ∃ peak ∈ fine.metrics metric, value ≤ peak
  outage : ∀ row ∈ rows, row.amiConnected = some false →
    ∃ fine ∈ rows, Finest rows fine ∧ fine.amiConnected = some false

section

variable {rows : List SnapshotBucket} {row : SnapshotBucket} {metric : MetricKey}
  {input : MergeTrendInput} {point : TrendPoint} {time : Int}

theorem mem_finestRows : row ∈ finestRows rows ↔ row ∈ rows ∧ Finest rows row := by
  unfold finestRows Finest
  rw [List.mem_filter, decide_eq_true_iff, List.min?_eq_some_iff, List.forall_mem_map]
  exact and_congr_right fun hrow => and_iff_right (List.mem_map_of_mem hrow)

theorem finestRows_subset : finestRows rows ⊆ rows := fun _ h => (mem_finestRows.mp h).1

theorem mem_numbersOf {value : Int} :
    value ∈ numbersOf rows metric ↔ ∃ row ∈ rows, value ∈ row.metrics metric :=
  List.mem_filterMap

theorem metrics_foldSnapshotBucket (h : metric ∈ peaked) :
    (foldSnapshotBucket rows).metrics metric = (numbersOf (finestRows rows) metric).max? := by
  unfold foldSnapshotBucket
  split
  · next hnil => rw [hnil]; rfl
  · exact if_pos h

theorem amiConnected_foldSnapshotBucket :
    (foldSnapshotBucket rows).amiConnected = some false ↔
      ∃ fine ∈ rows, Finest rows fine ∧ fine.amiConnected = some false := by
  have hmem : (∃ fine ∈ rows, Finest rows fine ∧ fine.amiConnected = some false) ↔
      false ∈ (finestRows rows).filterMap (·.amiConnected) := by
    simp only [List.mem_filterMap, mem_finestRows, and_assoc]
  rw [hmem]
  unfold foldSnapshotBucket
  split
  · next hnil =>
    rw [hnil]
    exact ⟨nofun, nofun⟩
  · dsimp only
    split
    · next hflags =>
      rw [hflags]
      exact ⟨nofun, nofun⟩
    · rw [Option.some.injEq, List.all_eq_false]
      simp

/-- The fold of a bucket has every peak exactly when its finest rows do. -/
theorem foldSnapshotBucket_keeps_iff :
    ((∀ metric ∈ peaked, (foldSnapshotBucket rows).metrics metric =
        (numbersOf rows metric).max?) ∧
      ((∃ row ∈ rows, row.amiConnected = some false) →
        (foldSnapshotBucket rows).amiConnected = some false)) ↔ FinestTellAll rows := by
  have hpeaks : ∀ metric ∈ peaked, (foldSnapshotBucket rows).metrics metric =
      (numbersOf rows metric).max? ↔ Peaks.Dominated (numbersOf rows metric)
        (numbersOf (finestRows rows) metric) := by
    intro metric hmetric
    rw [metrics_foldSnapshotBucket hmetric]
    exact Peaks.max?_eq_of_subset_iff (List.filterMap_subset _ finestRows_subset)
  rw [amiConnected_foldSnapshotBucket]
  constructor
  · rintro ⟨hfold, houtage⟩
    refine ⟨fun metric hmetric row hrow value hvalue => ?_, fun row hrow hout => houtage ⟨row, hrow, hout⟩⟩
    obtain ⟨peak, hpeak, hle⟩ := (hpeaks metric hmetric).mp (hfold metric hmetric) value
      (mem_numbersOf.mpr ⟨row, hrow, hvalue⟩)
    obtain ⟨fine, hfine, hat⟩ := mem_numbersOf.mp hpeak
    obtain ⟨hmem, hfinest⟩ := mem_finestRows.mp hfine
    exact ⟨fine, hmem, hfinest, peak, hat, hle⟩
  · intro htell
    refine ⟨fun metric hmetric => (hpeaks metric hmetric).mpr fun value hvalue => ?_, ?_⟩
    · obtain ⟨row, hrow, hat⟩ := mem_numbersOf.mp hvalue
      obtain ⟨fine, hmem, hfinest, peak, hpeak, hle⟩ := htell.peaks metric hmetric row hrow value hat
      exact ⟨peak, mem_numbersOf.mpr ⟨fine, mem_finestRows.mpr ⟨hmem, hfinest⟩, hpeak⟩, hle⟩
    · rintro ⟨row, hrow, hout⟩
      exact htell.outage row hrow hout

theorem mem_mergeTrendPoints (h : point ∈ mergeTrendPoints input) :
    point.time ∈ buildBucketStarts input.fromTime input.toTime input.resolution ∧
      point.metrics = (foldSnapshotBucket (input.snapshotsAt point.time)).metrics ∧
      point.amiConnected = (foldSnapshotBucket (input.snapshotsAt point.time)).amiConnected := by
  obtain ⟨time, htime, rfl⟩ := List.mem_map.mp h
  refine ⟨htime, ?_, ?_⟩
  · dsimp only
    rw [JsMap.getD_get_group]
    rfl
  · dsimp only
    rw [JsMap.getD_get_group]
    rfl

theorem exists_point
    (h : time ∈ buildBucketStarts input.fromTime input.toTime input.resolution) :
    ∃ point ∈ mergeTrendPoints input, point.time = time :=
  ⟨_, List.mem_map_of_mem h, rfl⟩

theorem keepsPeaks_iff (h : point ∈ mergeTrendPoints input) :
    point.KeepsPeaks input ↔ FinestTellAll (input.snapshotsAt point.time) := by
  obtain ⟨-, hmetrics, hami⟩ := mem_mergeTrendPoints h
  rw [← foldSnapshotBucket_keeps_iff, ← hmetrics, ← hami]
  exact ⟨fun hkeeps => ⟨hkeeps.peaks, hkeeps.outage⟩, fun hfold => ⟨hfold.1, hfold.2⟩⟩

/-- For every input, with or without resolutions that overlap. -/
theorem trend_peaks_kept_iff (input : MergeTrendInput) :
    (∀ point ∈ mergeTrendPoints input, point.KeepsPeaks input) ↔
      ∀ time ∈ buildBucketStarts input.fromTime input.toTime input.resolution,
        FinestTellAll (input.snapshotsAt time) := by
  constructor
  · intro hkeeps time htime
    obtain ⟨point, hpoint, rfl⟩ := exists_point htime
    exact (keepsPeaks_iff hpoint).mp (hkeeps point hpoint)
  · intro htell point hpoint
    exact (keepsPeaks_iff hpoint).mpr (htell point.time (mem_mergeTrendPoints hpoint).1)

end

/-- No instant is covered by rows of two resolutions. -/
def CoveredOnce (snapshots : List SnapshotBucket) : Prop :=
  ∀ row ∈ snapshots, ∀ other ∈ snapshots, row.resolution ≠ other.resolution →
    row.time + resolutionMs row.resolution ≤ other.time ∨
      other.time + resolutionMs other.resolution ≤ row.time

def exSnapshot (time : Int) (resolution : SnapshotResolution) (longestWaitSeconds : Int) :
    SnapshotBucket where
  time
  resolution
  metrics
    | .longestWaitSeconds => some longestWaitSeconds
    | _ => none
  amiConnected := some true

/-- Five minutes that are rolled up, and the minute after them. -/
def exHalfRolled : MergeTrendInput where
  fromTime := 0
  toTime := 3600000
  resolution := .pt1h
  calls := []
  snapshots := [exSnapshot 0 .pt5m 180, exSnapshot 300000 .pt1m 5]

theorem rolled_half_loses_peak :
    CoveredOnce exHalfRolled.snapshots ∧
      (mergeTrendPoints exHalfRolled).map (·.metrics .longestWaitSeconds) = [some 5] ∧
      ¬ ∀ point ∈ mergeTrendPoints exHalfRolled, point.KeepsPeaks exHalfRolled := by
  have hstarts : buildBucketStarts 0 3600000 .pt1h = [0] := by
    have hfloor : floorToResolution 0 .pt1h = 0 := by decide
    rw [buildBucketStarts, hfloor, bucketStartsFrom, bucketStartsFrom]
    rfl
  have hpoint : (mergeTrendPoints exHalfRolled).map (·.metrics .longestWaitSeconds) = [some 5] := by
    unfold mergeTrendPoints
    rw [List.map_map]
    show (buildBucketStarts 0 3600000 .pt1h).map _ = _
    rw [hstarts]
    decide
  refine ⟨?_, hpoint, fun hkeeps => ?_⟩
  · unfold CoveredOnce
    simp only [exHalfRolled, List.forall_mem_cons, List.not_mem_nil, false_implies, implies_true]
    decide
  · -- the point of the only hour says 5
    have hzero : 0 ∈ buildBucketStarts exHalfRolled.fromTime exHalfRolled.toTime
        exHalfRolled.resolution := by
      show (0 : Int) ∈ buildBucketStarts 0 3600000 .pt1h
      rw [hstarts]
      exact List.mem_singleton_self 0
    obtain ⟨point, hmem, htime⟩ := exists_point hzero
    have htell := (hkeeps point hmem).peaks .longestWaitSeconds (by decide)
    have hfive : point.metrics .longestWaitSeconds ∈ [some (5 : Int)] := by
      rw [← hpoint]
      exact List.mem_map_of_mem hmem
    rw [List.mem_singleton.mp hfive, htime] at htell
    revert htell
    decide

end KasterCti.Trends
