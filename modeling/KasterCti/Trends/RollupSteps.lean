import KasterCti.Library.JsText
import KasterCti.Library.Peaks
import KasterCti.Trends.SnapshotRollup
import Mathlib

/-!
# Rolling up in steps

`rollUpSnapshots` with the key as the text that the code joins. Intervals nest, and a greatest
value of greatest values is the greatest of all, so a rollup of a rollup has the peaks and the
outages of one rollup; and no bucket depends on the order of its rows.

Results:
1. `joined_eq`: for rows with ids of the database, the joined text makes the buckets of the parts.
2. `stepwise_sameBuckets`: two steps against one.
3. `rollUpSnapshots_perm`: rows in another order.
-/

namespace KasterCti.Trends

open JsText

/-! ## The joined key -/

/-- Ids as the database has them: UUIDs, without a bar and not empty. -/
structure SnapshotRow.HasIds (row : SnapshotRow) : Prop where
  tenantId : '|' ∉ row.tenantId.toList
  queueId : ∀ queueId ∈ row.queueId, queueId ≠ "" ∧ '|' ∉ queueId.toList

/-- `[tenantId, queueId ?? '', start].join('|')`. -/
def joinKey (key : BucketKey) : String :=
  String.ofList (key.1.toList ++ '|' :: ((key.2.1.getD "").toList ++ '|' :: key.2.2.repr.toList))

/-- `rollUpSnapshots`, its map under the joined keys. -/
def rollUpSnapshotsJoined (rows : List SnapshotRow) (resolution : SnapshotResolution) :
    List SnapshotRow :=
  let buckets := JsMap.group (fun row => joinKey (bucketKey resolution row)) rows
  let folded := buckets.filterMap fun bucket =>
    match bucket.2 with
    | first :: rest => some (foldBucket resolution first rest)
    | [] => none
  folded.insertionSort fun a b => a.capturedAt ≤ b.capturedAt

variable {resolution r R : SnapshotResolution} {row other : SnapshotRow}
  {rows rows' : List SnapshotRow} {key : BucketKey}

theorem joinKey_inj (hrow : row.HasIds) (hother : other.HasIds)
    (h : joinKey (bucketKey resolution row) = joinKey (bucketKey resolution other)) :
    bucketKey resolution row = bucketKey resolution other := by
  have hno : ∀ {row : SnapshotRow}, row.HasIds → '|' ∉ (row.queueId.getD "").toList := by
    intro row hids
    cases hqueue : row.queueId with
    | none => simp
    | some queueId => exact (hids.queueId queueId hqueue).2
  obtain ⟨htenant, hrest⟩ := append_sep_inj hrow.tenantId hother.tenantId (String.ofList_inj.mp h)
  obtain ⟨hqueue, hstart⟩ := append_sep_inj (hno hrow) (hno hother) hrest
  have hqueueId : row.queueId = other.queueId := by
    have htext := String.toList_inj.mp hqueue
    cases hq : row.queueId with
    | none =>
      cases hq' : other.queueId with
      | none => rfl
      | some queueId =>
        rw [hq, hq'] at htext
        exact absurd htext.symm (hother.queueId queueId hq').1
    | some queueId =>
      cases hq' : other.queueId with
      | none =>
        rw [hq, hq'] at htext
        exact absurd htext (hrow.queueId queueId hq).1
      | some queueId' =>
        rw [hq, hq'] at htext
        exact congrArg some htext
  have htime := Int.repr_injective (String.toList_inj.mp hstart)
  exact Prod.ext (String.toList_inj.mp htenant) (Prod.ext hqueueId htime)

theorem joined_eq (h : ∀ row ∈ rows, row.HasIds) :
    rollUpSnapshotsJoined rows resolution = rollUpSnapshots rows resolution := by
  unfold rollUpSnapshotsJoined rollUpSnapshots
  have hgroup := JsMap.group_rekey (e := joinKey) fun a ha b hb =>
    @joinKey_inj resolution a b (h a ha) (h b hb)
  dsimp only
  rw [hgroup, JsMap.rekey, List.filterMap_map]
  rfl

/-! ## The rows of a rollup -/

/-- The rows of a list that fall into a bucket. -/
def rowsAt (resolution : SnapshotResolution) (rows : List SnapshotRow) (key : BucketKey) :
    List SnapshotRow :=
  rows.filter fun row => bucketKey resolution row = key

theorem mem_rowsAt : row ∈ rowsAt resolution rows key ↔ row ∈ rows ∧ bucketKey resolution row = key := by
  rw [rowsAt, List.mem_filter, decide_eq_true_iff]

/-- A rolled row is its bucket, folded. -/
def IsFold (resolution : SnapshotResolution) (rows : List SnapshotRow) (row : SnapshotRow) : Prop :=
  ∃ first rest, row = foldBucket resolution first rest ∧
    first :: rest = rowsAt resolution rows (bucketKey resolution row)

theorem mem_rollUpSnapshots_iff :
    row ∈ rollUpSnapshots rows resolution ↔ IsFold resolution rows row := by
  constructor
  · exact mem_rollUpSnapshots
  · rintro ⟨first, rest, rfl, hbucket⟩
    have hgroup := JsMap.mem_group_iff.mpr ⟨hbucket, List.cons_ne_nil first rest⟩
    unfold rollUpSnapshots
    rw [List.mem_insertionSort, List.mem_filterMap]
    exact ⟨_, hgroup, rfl⟩

/-- Every bucket is written once. -/
theorem nodup_buckets :
    ((rollUpSnapshots rows resolution).map (bucketKey resolution)).Nodup := by
  unfold rollUpSnapshots
  refine ((List.perm_insertionSort _ _).map _).nodup_iff.mpr ?_
  have hkeys : ∀ entry ∈ JsMap.group (bucketKey resolution) rows,
      ((match entry.2 with
        | first :: rest => some (foldBucket resolution first rest)
        | [] => none).map (bucketKey resolution)) = some entry.1 := by
    rintro ⟨key, bucket⟩ hentry
    obtain ⟨hrows, hne⟩ := JsMap.mem_group_iff.mp hentry
    cases bucket with
    | nil => exact absurd rfl hne
    | cons first rest =>
      exact congrArg some (bucketKey_foldBucket.trans (bucketKey_of_filter hrows.symm))
  have hnodup : (JsMap.keys (JsMap.group (bucketKey resolution) rows)).Nodup :=
    JsMap.nodup_keys_group
  rw [JsMap.keys, ← List.filterMap_eq_map', ← List.filterMap_congr hkeys] at hnodup
  rw [List.map_filterMap]
  exact hnodup

theorem nodup_rollUpSnapshots : (rollUpSnapshots rows resolution).Nodup :=
  List.Nodup.of_map _ nodup_buckets

/-- What a rolled row says of a peak. -/
theorem peak_of_rolled (hrow : row ∈ rollUpSnapshots rows resolution) {metric : MetricKey}
    (hmetric : metric ∈ peaked) :
    row.metrics metric =
      (numbersAt (rowsAt resolution rows (bucketKey resolution row)) metric).max? := by
  obtain ⟨first, rest, rfl, hbucket⟩ := mem_rollUpSnapshots_iff.mp hrow
  rw [← hbucket]
  exact if_pos hmetric

/-- One row without the AMI decides. -/
def foldFlags (flags : List Bool) : Option Bool := if flags = [] then none else some (flags.all id)

/-- What a rolled row says of the AMI. -/
theorem ami_of_rolled (hrow : row ∈ rollUpSnapshots rows resolution) :
    row.amiConnected =
      foldFlags (amiFlags (rowsAt resolution rows (bucketKey resolution row))) := by
  obtain ⟨first, rest, rfl, hbucket⟩ := mem_rollUpSnapshots_iff.mp hrow
  rw [← hbucket]
  rfl

theorem foldFlags_eq_none {flags : List Bool} : foldFlags flags = none ↔ flags = [] := by
  unfold foldFlags
  split
  · next h => exact iff_of_true rfl h
  · next h => exact iff_of_false nofun h

theorem foldFlags_eq_false {flags : List Bool} : foldFlags flags = some false ↔ false ∈ flags := by
  unfold foldFlags
  split
  · next h => rw [h]; exact ⟨nofun, nofun⟩
  · rw [Option.some.injEq, List.all_eq_false]
    simp

/-- An outage and the presence of a flag are all that the fold keeps. -/
theorem foldFlags_congr {flags flags' : List Bool} (hnil : flags = [] ↔ flags' = [])
    (hfalse : false ∈ flags ↔ false ∈ flags') : foldFlags flags = foldFlags flags' := by
  rw [← foldFlags_eq_none, ← foldFlags_eq_none] at hnil
  rw [← foldFlags_eq_false, ← foldFlags_eq_false] at hfalse
  revert hnil hfalse
  rcases foldFlags flags with _ | _ | _ <;> rcases foldFlags flags' with _ | _ | _ <;> simp

/-! ## In steps -/

/-- The tenant, the queue and the start that a rolled row names. -/
def SnapshotRow.bucket (row : SnapshotRow) : BucketKey := (row.tenantId, row.queueId, row.capturedAt)

structure SamePeaks (row other : SnapshotRow) : Prop where
  peaks : ∀ metric ∈ peaked, row.metrics metric = other.metrics metric
  amiConnected : row.amiConnected = other.amiConnected

/-- The same buckets, each once, with the same peaks and outages. -/
structure SameBuckets (rows rows' : List SnapshotRow) : Prop where
  buckets : ∀ key, key ∈ rows.map SnapshotRow.bucket ↔ key ∈ rows'.map SnapshotRow.bucket
  once : (rows.map SnapshotRow.bucket).Nodup
  once' : (rows'.map SnapshotRow.bucket).Nodup
  values : ∀ row ∈ rows, ∀ row' ∈ rows', row.bucket = row'.bucket → SamePeaks row row'

theorem bucketKey_of_rolled (h : row ∈ rollUpSnapshots rows resolution) :
    bucketKey resolution row = row.bucket := by
  obtain ⟨first, rest, rfl, -⟩ := mem_rollUpSnapshots_iff.mp h
  unfold bucketKey SnapshotRow.bucket
  rw [foldBucket, floorToResolution_floor]

theorem map_bucket :
    (rollUpSnapshots rows resolution).map SnapshotRow.bucket =
      (rollUpSnapshots rows resolution).map (bucketKey resolution) :=
  List.map_congr_left fun _ h => (bucketKey_of_rolled h).symm

theorem mem_map_bucket : key ∈ (rollUpSnapshots rows resolution).map SnapshotRow.bucket ↔
    ∃ row ∈ rows, bucketKey resolution row = key := by
  rw [map_bucket, List.mem_map]
  constructor
  · rintro ⟨rolled, hrolled, rfl⟩
    obtain ⟨first, rest, -, hbucket⟩ := mem_rollUpSnapshots_iff.mp hrolled
    have hfirst : first ∈ rowsAt resolution rows (bucketKey resolution rolled) := by
      rw [← hbucket]
      exact List.mem_cons_self
    exact ⟨first, mem_rowsAt.mp hfirst⟩
  · rintro ⟨row, hrow, rfl⟩
    exact exists_rolled resolution hrow

theorem resolutionMs_dvd (h : resolutionMs r < resolutionMs R) : resolutionMs r ∣ resolutionMs R := by
  revert h
  cases r <;> cases R <;> decide

/-- Intervals nest. -/
theorem floorToResolution_nest (h : resolutionMs r < resolutionMs R) (time : Int) :
    floorToResolution (floorToResolution time r) R = floorToResolution time R := by
  obtain ⟨k, hk⟩ := resolutionMs_dvd h
  unfold floorToResolution
  rw [hk, ← Int.ediv_ediv_of_nonneg (resolutionMs_pos r).le, Int.mul_ediv_cancel _ (resolutionMs_pos r).ne',
    Int.ediv_ediv_of_nonneg (resolutionMs_pos r).le]

theorem bucketKey_nest (h : resolutionMs r < resolutionMs R)
    (hkey : bucketKey r row = bucketKey r other) : bucketKey R row = bucketKey R other := by
  simp only [bucketKey, Prod.mk.injEq] at hkey ⊢
  obtain ⟨htenant, hqueue, hstart⟩ := hkey
  refine ⟨htenant, hqueue, ?_⟩
  rw [← floorToResolution_nest h row.capturedAt, hstart, floorToResolution_nest h]

/-- The rows of a coarse bucket stand in the fine buckets of the rolled rows in it. -/
theorem mem_rowsAt_iff_rolled (h : resolutionMs r < resolutionMs R) :
    row ∈ rowsAt R rows key ↔
      ∃ rolled ∈ rowsAt R (rollUpSnapshots rows r) key, row ∈ rowsAt r rows (bucketKey r rolled) := by
  simp only [mem_rowsAt]
  constructor
  · rintro ⟨hrow, rfl⟩
    obtain ⟨rolled, hrolled, hkey⟩ := exists_rolled r hrow
    exact ⟨rolled, ⟨hrolled, bucketKey_nest h hkey⟩, hrow, hkey.symm⟩
  · rintro ⟨rolled, ⟨-, rfl⟩, hrow, hkey⟩
    exact ⟨hrow, bucketKey_nest h hkey⟩

theorem mem_numbersAt {metric : MetricKey} {value : Int} :
    value ∈ numbersAt rows metric ↔ ∃ row ∈ rows, value ∈ row.metrics metric :=
  List.mem_filterMap

theorem mem_amiFlags {flag : Bool} : flag ∈ amiFlags rows ↔ ∃ row ∈ rows, flag ∈ row.amiConnected :=
  List.mem_filterMap

theorem amiFlags_eq_nil : amiFlags rows = [] ↔ ∀ row ∈ rows, row.amiConnected = none :=
  List.filterMap_eq_nil_iff

/-- The greatest of the greatest values. -/
theorem max?_stepwise (h : resolutionMs r < resolutionMs R) {metric : MetricKey}
    (hmetric : metric ∈ peaked) :
    (numbersAt (rowsAt R (rollUpSnapshots rows r) key) metric).max? =
      (numbersAt (rowsAt R rows key) metric).max? := by
  rw [Peaks.max?_eq_max?_iff]
  constructor
  · intro value hvalue
    obtain ⟨rolled, hrolled, hat⟩ := mem_numbersAt.mp hvalue
    rw [peak_of_rolled (mem_rowsAt.mp hrolled).1 hmetric] at hat
    obtain ⟨row, hrow, hvalue⟩ := mem_numbersAt.mp (List.max?_eq_some_iff.mp hat).1
    exact ⟨value, mem_numbersAt.mpr ⟨row, (mem_rowsAt_iff_rolled h).mpr ⟨rolled, hrolled, hrow⟩,
      hvalue⟩, le_refl value⟩
  · intro value hvalue
    obtain ⟨row, hrow, hat⟩ := mem_numbersAt.mp hvalue
    obtain ⟨rolled, hrolled, hin⟩ := (mem_rowsAt_iff_rolled h).mp hrow
    have hmem := mem_numbersAt.mpr ⟨row, hin, hat⟩
    obtain ⟨peak, hpeak⟩ := Peaks.exists_max? (List.ne_nil_of_mem hmem)
    have hmetrics := peak_of_rolled (mem_rowsAt.mp hrolled).1 hmetric
    exact ⟨peak, mem_numbersAt.mpr ⟨rolled, hrolled, hmetrics.trans hpeak⟩,
      (List.max?_eq_some_iff.mp hpeak).2 value hmem⟩

theorem foldFlags_stepwise (h : resolutionMs r < resolutionMs R) :
    foldFlags (amiFlags (rowsAt R (rollUpSnapshots rows r) key)) =
      foldFlags (amiFlags (rowsAt R rows key)) := by
  refine foldFlags_congr ?_ ?_
  · simp only [amiFlags_eq_nil]
    constructor
    · intro hnone row hrow
      obtain ⟨rolled, hrolled, hin⟩ := (mem_rowsAt_iff_rolled h).mp hrow
      have hami := hnone rolled hrolled
      rw [ami_of_rolled (mem_rowsAt.mp hrolled).1, foldFlags_eq_none, amiFlags_eq_nil] at hami
      exact hami row hin
    · intro hnone rolled hrolled
      rw [ami_of_rolled (mem_rowsAt.mp hrolled).1, foldFlags_eq_none, amiFlags_eq_nil]
      exact fun row hrow => hnone row ((mem_rowsAt_iff_rolled h).mpr ⟨rolled, hrolled, hrow⟩)
  · simp only [mem_amiFlags]
    constructor
    · rintro ⟨rolled, hrolled, hout⟩
      rw [ami_of_rolled (mem_rowsAt.mp hrolled).1] at hout
      obtain ⟨row, hrow, hflag⟩ := mem_amiFlags.mp (foldFlags_eq_false.mp hout)
      exact ⟨row, (mem_rowsAt_iff_rolled h).mpr ⟨rolled, hrolled, hrow⟩, hflag⟩
    · rintro ⟨row, hrow, hflag⟩
      obtain ⟨rolled, hrolled, hin⟩ := (mem_rowsAt_iff_rolled h).mp hrow
      refine ⟨rolled, hrolled, ?_⟩
      rw [ami_of_rolled (mem_rowsAt.mp hrolled).1]
      exact foldFlags_eq_false.mpr (mem_amiFlags.mpr ⟨row, hin, hflag⟩)

theorem samePeaks_stepwise (h : resolutionMs r < resolutionMs R)
    (hrow : row ∈ rollUpSnapshots (rollUpSnapshots rows r) R)
    (hother : other ∈ rollUpSnapshots rows R) (hkey : row.bucket = other.bucket) :
    SamePeaks row other := by
  rw [← bucketKey_of_rolled hrow, ← bucketKey_of_rolled hother] at hkey
  constructor
  · intro metric hmetric
    rw [peak_of_rolled hrow hmetric, peak_of_rolled hother hmetric, hkey, max?_stepwise h hmetric]
  · rw [ami_of_rolled hrow, ami_of_rolled hother, hkey, foldFlags_stepwise h]

theorem stepwise_sameBuckets (rows : List SnapshotRow) (h : resolutionMs r < resolutionMs R) :
    SameBuckets (rollUpSnapshots (rollUpSnapshots rows r) R) (rollUpSnapshots rows R) where
  buckets := by
    intro key
    rw [mem_map_bucket, mem_map_bucket]
    constructor
    · rintro ⟨rolled, hrolled, rfl⟩
      obtain ⟨row, hrow, hkey⟩ := mem_map_bucket.mp (List.mem_map_of_mem hrolled)
      exact ⟨row, hrow, bucketKey_nest h (hkey.trans (bucketKey_of_rolled hrolled).symm)⟩
    · rintro ⟨row, hrow, rfl⟩
      obtain ⟨rolled, hrolled, hkey⟩ := exists_rolled r hrow
      exact ⟨rolled, hrolled, bucketKey_nest h hkey⟩
  once := map_bucket ▸ nodup_buckets
  once' := map_bucket ▸ nodup_buckets
  values _ hrow _ hother := samePeaks_stepwise h hrow hother

/-! ## In another order -/

/-- The rows of equal start may stand in another order. -/
structure SameUpToTies (rows rows' : List SnapshotRow) : Prop where
  perm : rows.Perm rows'
  starts : rows.map (·.capturedAt) = rows'.map (·.capturedAt)

theorem foldMetric_perm (h : rows.Perm rows') (metric : MetricKey) :
    foldMetric rows metric = foldMetric rows' metric := by
  have hnumbers : (numbersAt rows metric).Perm (numbersAt rows' metric) := h.filterMap _
  unfold foldMetric
  split
  · exact Peaks.max?_eq_max?_iff.mpr ⟨.of_subset hnumbers.subset, .of_subset hnumbers.symm.subset⟩
  · have hnil : numbersAt rows metric = [] ↔ numbersAt rows' metric = [] := by
      rw [← List.length_eq_zero_iff, ← List.length_eq_zero_iff, hnumbers.length_eq]
    unfold foldAverage
    simp only [hnil, hnumbers.sum_eq, hnumbers.length_eq]

theorem foldBucket_perm {first first' : SnapshotRow} {rest rest' : List SnapshotRow}
    (h : (first :: rest).Perm (first' :: rest'))
    (hkey : bucketKey resolution first = bucketKey resolution first') :
    foldBucket resolution first rest = foldBucket resolution first' rest' := by
  simp only [bucketKey, Prod.mk.injEq] at hkey
  obtain ⟨htenant, hqueue, hstart⟩ := hkey
  have hflags : (amiFlags (first :: rest)).Perm (amiFlags (first' :: rest')) := h.filterMap _
  have hfold : foldFlags (amiFlags (first :: rest)) = foldFlags (amiFlags (first' :: rest')) := by
    refine foldFlags_congr ?_ hflags.mem_iff
    rw [← List.length_eq_zero_iff, ← List.length_eq_zero_iff, hflags.length_eq]
  unfold foldBucket
  simp only [htenant, hqueue, hstart, SnapshotRow.mk.injEq, true_and]
  exact ⟨funext fun metric => foldMetric_perm h metric, hfold⟩

theorem mem_of_perm (h : rows.Perm rows') (hrow : row ∈ rollUpSnapshots rows resolution) :
    row ∈ rollUpSnapshots rows' resolution := by
  obtain ⟨first, rest, rfl, hbucket⟩ := mem_rollUpSnapshots_iff.mp hrow
  have hperm : (first :: rest).Perm
      (rowsAt resolution rows' (bucketKey resolution (foldBucket resolution first rest))) := by
    rw [hbucket]
    exact h.filter _
  cases hbucket' : rowsAt resolution rows' (bucketKey resolution (foldBucket resolution first rest)) with
  | nil =>
    rw [hbucket'] at hperm
    cases hperm.length_eq
  | cons first' rest' =>
    rw [hbucket'] at hperm
    have hkey : bucketKey resolution first = bucketKey resolution first' := by
      rw [bucketKey_of_filter hbucket', bucketKey_foldBucket]
    rw [foldBucket_perm hperm hkey] at hbucket' ⊢
    exact mem_rollUpSnapshots_iff.mpr ⟨first', rest', rfl, hbucket'.symm⟩

theorem rollUpSnapshots_perm (h : rows.Perm rows') (resolution : SnapshotResolution) :
    SameUpToTies (rollUpSnapshots rows resolution) (rollUpSnapshots rows' resolution) := by
  have hperm : (rollUpSnapshots rows resolution).Perm (rollUpSnapshots rows' resolution) :=
    (List.perm_ext_iff_of_nodup nodup_rollUpSnapshots nodup_rollUpSnapshots).mpr
      fun row => ⟨mem_of_perm h, mem_of_perm h.symm⟩
  refine ⟨hperm, ?_⟩
  -- both lists of starts are sorted
  have hsorted : ∀ rows, ((rollUpSnapshots rows resolution).map (·.capturedAt)).SortedLE := by
    intro rows
    unfold rollUpSnapshots
    rw [List.map_insertionSort _ (· ≤ ·) _ _ fun _ _ _ _ => Iff.rfl]
    exact List.sortedLE_insertionSort
  exact (hperm.map _).eq_of_sortedLE (hsorted rows) (hsorted rows')

/-! ## The code -/

theorem hasIds_of_rolled (h : ∀ row ∈ rows, row.HasIds)
    (hrow : row ∈ rollUpSnapshots rows resolution) : row.HasIds := by
  obtain ⟨first, rest, rfl, hbucket⟩ := mem_rollUpSnapshots_iff.mp hrow
  have hfirst : first ∈ first :: rest := List.mem_cons_self
  rw [hbucket, mem_rowsAt] at hfirst
  exact ⟨(h first hfirst.1).tenantId, (h first hfirst.1).queueId⟩

/-- Rolling up in steps, and the order of the rows. -/
theorem rollup_steps_and_order (rows : List SnapshotRow) (hids : ∀ row ∈ rows, row.HasIds) :
    (∀ r R, resolutionMs r < resolutionMs R →
      SameBuckets (rollUpSnapshotsJoined (rollUpSnapshotsJoined rows r) R)
        (rollUpSnapshotsJoined rows R)) ∧
    ∀ rows', rows.Perm rows' → ∀ resolution,
      SameUpToTies (rollUpSnapshotsJoined rows resolution)
        (rollUpSnapshotsJoined rows' resolution) := by
  constructor
  · intro r R h
    have hrolled : ∀ row ∈ rollUpSnapshots rows r, row.HasIds := fun _ => hasIds_of_rolled hids
    rw [joined_eq hids, joined_eq hids, joined_eq hrolled]
    exact stepwise_sameBuckets rows h
  · intro rows' hperm resolution
    have hids' : ∀ row ∈ rows', row.HasIds := fun row hrow => hids row (hperm.mem_iff.mpr hrow)
    rw [joined_eq hids, joined_eq hids']
    exact rollUpSnapshots_perm hperm resolution

/-- A wait of three minutes in one queue, and a row of the whole tenant. -/
def exRollupRows : List SnapshotRow :=
  [{ tenantId := "8f14e45f-ceea-467f-a8c7-1d1f6b1b6f3a"
     queueId := some "c9f0f895-fb98-4b91-a5f3-6e9d1c1b7a10"
     capturedAt := 60000
     resolution := .pt1m
     metrics
       | .longestWaitSeconds => some 180
       | _ => none
     amiConnected := some false },
   { tenantId := "8f14e45f-ceea-467f-a8c7-1d1f6b1b6f3a"
     queueId := none
     capturedAt := 360000
     resolution := .pt1m
     metrics := fun _ => none
     amiConnected := some true }]

theorem exRollupRows_hasIds : ∀ row ∈ exRollupRows, row.HasIds := by
  have htenant : '|' ∉ "8f14e45f-ceea-467f-a8c7-1d1f6b1b6f3a".toList := by decide
  have hqueue : '|' ∉ "c9f0f895-fb98-4b91-a5f3-6e9d1c1b7a10".toList := by decide
  simp only [exRollupRows, List.forall_mem_cons, List.not_mem_nil, false_implies, implies_true,
    and_true]
  refine ⟨⟨htenant, ?_⟩, htenant, nofun⟩
  rintro _ ⟨⟩
  exact ⟨by decide, hqueue⟩

theorem rollup_steps_and_order_hours :
    resolutionMs .pt5m < resolutionMs .pt1h ∧
      SameBuckets (rollUpSnapshotsJoined (rollUpSnapshotsJoined exRollupRows .pt5m) .pt1h)
        (rollUpSnapshotsJoined exRollupRows .pt1h) :=
  ⟨by decide, (rollup_steps_and_order exRollupRows exRollupRows_hasIds).1 _ _ (by decide)⟩

end KasterCti.Trends
