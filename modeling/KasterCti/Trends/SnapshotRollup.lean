import KasterCti.Library.JsMap
import Mathlib.Algebra.Order.Ring.Int
import Mathlib.Data.List.Sort

/-!
# Folding snapshot rows

`snapshot-rollup.ts`: rows of one tenant, one queue and one interval become one row of a
coarser resolution. Metrics are averaged or, where the peak is the information, folded to
their maximum; one row without the AMI makes the whole interval one without it.

Results:
1. `mem_rollUpSnapshots`: the rows that a rollup writes are the folds of the buckets.
2. `covers_of_rolled`: a rolled row has the peaks and the outages of every row of its bucket.
-/

namespace KasterCti.Trends

inductive SnapshotResolution
  | pt1m
  | pt5m
  | pt1h
  | p1d
deriving DecidableEq

def resolutionMs : SnapshotResolution → Int
  | .pt1m => 60000
  | .pt5m => 300000
  | .pt1h => 3600000
  | .p1d => 86400000

inductive MetricKey
  | waitingCalls
  | talkingCalls
  | ringingCalls
  | agentsAvailable
  | agentsRinging
  | agentsTalking
  | agentsAcw
  | agentsBreak
  | agentsLoggedIn
  | endpointsTotal
  | endpointsRegistered
  | endpointsReachable
  | longestWaitSeconds
  | trunkChannelsInUse
deriving DecidableEq

/-- `PEAKED`; the others are `AVERAGED`. -/
def peaked : List MetricKey := [.longestWaitSeconds, .trunkChannelsInUse]

structure SnapshotRow where
  tenantId : String
  queueId : Option String
  capturedAt : Int
  resolution : SnapshotResolution
  metrics : MetricKey → Option Int
  amiConnected : Option Bool

/-- The tenant, the queue and the beginning of the interval. -/
abbrev BucketKey := String × Option String × Int

def floorToResolution (time : Int) (resolution : SnapshotResolution) : Int :=
  time / resolutionMs resolution * resolutionMs resolution

def numbersAt (rows : List SnapshotRow) (key : MetricKey) : List Int :=
  rows.filterMap (·.metrics key)

/-- `Math.round` of the average is the floor of it and a half. -/
def foldAverage (rows : List SnapshotRow) (key : MetricKey) : Option Int :=
  let values := numbersAt rows key
  if values = [] then none else some ((2 * values.sum + values.length) / (2 * values.length))

def foldMax (rows : List SnapshotRow) (key : MetricKey) : Option Int := (numbersAt rows key).max?

def foldMetric (rows : List SnapshotRow) (key : MetricKey) : Option Int :=
  if key ∈ peaked then foldMax rows key else foldAverage rows key

/-- The parts of the joined key; no id has the separator, and none is empty. -/
def bucketKey (resolution : SnapshotResolution) (row : SnapshotRow) : BucketKey :=
  (row.tenantId, row.queueId, floorToResolution row.capturedAt resolution)

def amiFlags (rows : List SnapshotRow) : List Bool := rows.filterMap (·.amiConnected)

def foldBucket (resolution : SnapshotResolution) (first : SnapshotRow) (rows : List SnapshotRow) :
    SnapshotRow :=
  let bucket := first :: rows
  { tenantId := first.tenantId
    queueId := first.queueId
    capturedAt := floorToResolution first.capturedAt resolution
    resolution
    metrics := foldMetric bucket
    amiConnected := if amiFlags bucket = [] then none else some ((amiFlags bucket).all id) }

def rollUpSnapshots (rows : List SnapshotRow) (resolution : SnapshotResolution) :
    List SnapshotRow :=
  let buckets := JsMap.group (bucketKey resolution) rows
  let folded := buckets.filterMap fun bucket =>
    match bucket.2 with
    | first :: rest => some (foldBucket resolution first rest)
    | [] => none
  folded.insertionSort fun a b => a.capturedAt ≤ b.capturedAt

/-- What a row says of peaks and outages, the other one says, too. -/
structure Covers (row other : SnapshotRow) : Prop where
  peaks : ∀ metric ∈ peaked, ∀ value ∈ other.metrics metric,
    ∃ peak ∈ row.metrics metric, value ≤ peak
  outage : other.amiConnected = some false → row.amiConnected = some false

variable {resolution : SnapshotResolution} {row other : SnapshotRow} {rows : List SnapshotRow}
  {metric : MetricKey}

theorem Covers.refl (row : SnapshotRow) : Covers row row :=
  ⟨fun _ _ value hvalue => ⟨value, hvalue, le_refl value⟩, id⟩

theorem Covers.trans {third : SnapshotRow} (h : Covers row other) (h' : Covers other third) :
    Covers row third := by
  refine ⟨fun metric hmetric value hvalue => ?_, fun hout => h.outage (h'.outage hout)⟩
  obtain ⟨middle, hmiddle, hle⟩ := h'.peaks metric hmetric value hvalue
  obtain ⟨peak, hpeak, hle'⟩ := h.peaks metric hmetric middle hmiddle
  exact ⟨peak, hpeak, le_trans hle hle'⟩

theorem resolutionMs_pos (resolution : SnapshotResolution) : 0 < resolutionMs resolution := by
  cases resolution <;> decide

theorem floorToResolution_le (time : Int) : floorToResolution time resolution ≤ time := by
  exact Int.ediv_mul_le time (resolutionMs_pos resolution).ne'

theorem floorToResolution_floor (time : Int) :
    floorToResolution (floorToResolution time resolution) resolution =
      floorToResolution time resolution := by
  unfold floorToResolution
  rw [Int.mul_ediv_cancel _ (resolutionMs_pos resolution).ne']

theorem bucketKey_foldBucket {first : SnapshotRow} :
    bucketKey resolution (foldBucket resolution first rows) = bucketKey resolution first := by
  unfold bucketKey foldBucket
  rw [floorToResolution_floor]

theorem bucketKey_of_filter {key : BucketKey} {first : SnapshotRow} {rest : List SnapshotRow}
    (h : rows.filter (fun r => bucketKey resolution r = key) = first :: rest) :
    bucketKey resolution first = key := by
  have hmem : first ∈ rows.filter fun r => bucketKey resolution r = key := by
    rw [h]
    exact List.mem_cons_self
  exact of_decide_eq_true (List.mem_filter.mp hmem).2

/-- The rolled rows are the folds of the rows of each bucket. -/
theorem mem_rollUpSnapshots (h : row ∈ rollUpSnapshots rows resolution) :
    ∃ first rest, row = foldBucket resolution first rest ∧
      first :: rest = rows.filter fun r => bucketKey resolution r = bucketKey resolution row := by
  unfold rollUpSnapshots at h
  rw [List.mem_insertionSort, List.mem_filterMap] at h
  obtain ⟨⟨key, bucket⟩, hbucket, hfold⟩ := h
  obtain ⟨hrows, -⟩ := JsMap.mem_group_iff.mp hbucket
  cases bucket with
  | nil => cases hfold
  | cons first rest =>
    obtain rfl := Option.some.inj hfold
    refine ⟨first, rest, rfl, ?_⟩
    rw [hrows, bucketKey_foldBucket, bucketKey_of_filter hrows.symm]

/-- Every row has its bucket. -/
theorem exists_rolled (resolution : SnapshotResolution) (h : row ∈ rows) :
    ∃ rolled ∈ rollUpSnapshots rows resolution,
      bucketKey resolution rolled = bucketKey resolution row := by
  have hmem : row ∈ rows.filter fun r => bucketKey resolution r = bucketKey resolution row :=
    List.mem_filter.mpr ⟨h, decide_eq_true rfl⟩
  have hgroup := JsMap.mem_group_iff.mpr ⟨rfl, List.ne_nil_of_mem hmem⟩
  cases hbucket : rows.filter fun r => bucketKey resolution r = bucketKey resolution row with
  | nil => rw [hbucket] at hmem; cases hmem
  | cons first rest =>
    rw [hbucket] at hgroup
    refine ⟨foldBucket resolution first rest, ?_,
      bucketKey_foldBucket.trans (bucketKey_of_filter hbucket)⟩
    unfold rollUpSnapshots
    rw [List.mem_insertionSort, List.mem_filterMap]
    exact ⟨_, hgroup, rfl⟩

theorem covers_foldBucket {first : SnapshotRow} (h : row ∈ first :: rows) :
    Covers (foldBucket resolution first rows) row := by
  refine ⟨fun metric hmetric value hvalue => ?_, fun hout => ?_⟩
  · have hmem : value ∈ numbersAt (first :: rows) metric := List.mem_filterMap.mpr ⟨row, h, hvalue⟩
    have hfold : (foldBucket resolution first rows).metrics metric =
        (numbersAt (first :: rows) metric).max? := if_pos hmetric
    obtain ⟨peak, hpeak⟩ := Option.isSome_iff_exists.mp (List.isSome_max?_of_mem hmem)
    exact ⟨peak, hfold.trans hpeak, (List.max?_eq_some_iff.mp hpeak).2 value hmem⟩
  · have hmem : false ∈ amiFlags (first :: rows) := List.mem_filterMap.mpr ⟨row, h, hout⟩
    refine (if_neg (List.ne_nil_of_mem hmem)).trans (congrArg some ?_)
    exact List.all_eq_false.mpr ⟨false, hmem, nofun⟩

/-- A rolled row covers every row of its bucket that was folded. -/
theorem covers_of_rolled {rolled : SnapshotRow} (h : rolled ∈ rollUpSnapshots rows resolution)
    (hrow : row ∈ rows) (hkey : bucketKey resolution row = bucketKey resolution rolled) :
    Covers rolled row := by
  obtain ⟨first, rest, rfl, hbucket⟩ := mem_rollUpSnapshots h
  refine covers_foldBucket ?_
  rw [hbucket]
  exact List.mem_filter.mpr ⟨hrow, decide_eq_true hkey⟩

end KasterCti.Trends
