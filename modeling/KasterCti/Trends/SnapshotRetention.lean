import KasterCti.Library.Trace
import KasterCti.Trends.SnapshotRollup

/-!
# Retention of snapshots

`SnapshotRetentionService.sweep` over the table `dashboardSnapshots`: rows of one minute
that are older than 90 days are folded to five minutes and deleted, rows of five minutes
are deleted after 365 days. A sweep is cut at its database statements; it may crash between
any two of them, and rows are captured meanwhile.

Results:
1. `retentionStep_kept`: what every step keeps when no batch tears a bucket apart.
2. `peaks_and_outages_kept`: in a run of such steps the peaks and the outages of an interval
   stay until it expires.
3. `split_bucket_loses_peak`: a cutoff in the middle of an interval loses its peak.
-/

namespace KasterCti.Trends

open Trace

def dayMs : Int := 86400000

def rawRetentionDays : Int := 90

def rolledRetentionDays : Int := 365

def rollupBatch : Nat := 20000

/-- The statement that a sweep waits for. -/
inductive SweepPhase
  | finding (cutoff : Int)
  | creating (rawRows : List SnapshotRow)
  | deleting (last : Int)
  /-- `rollUpRawRows` is over. -/
  | rolledUp
  | dropping (cutoff : Int)

structure RetentionState where
  /-- The table `dashboardSnapshots`. -/
  table : List SnapshotRow
  now : Int
  sweep : Option SweepPhase

inductive RetentionAction
  /-- `DashboardSnapshotService` inserts rows of one minute. -/
  | capture (rows : List SnapshotRow)
  /-- The timer of the leader. -/
  | startSweep
  /-- The statement is executed and the sweep goes on; `tie` orders rows of one instant. -/
  | next (tie : SnapshotRow → Nat)
  | crash
  | clock (now : Int)

/-- The unique index. Two rows without a queue are never the same. -/
def sameKey (row other : SnapshotRow) : Bool :=
  row.queueId.isSome && row.tenantId = other.tenantId && row.queueId = other.queueId &&
    row.resolution = other.resolution && row.capturedAt = other.capturedAt

def insertRow (table : List SnapshotRow) (row : SnapshotRow) : List SnapshotRow :=
  if table.any (sameKey row) then table else table ++ [row]

/-- With `skipDuplicates`. -/
def createMany (table data : List SnapshotRow) : List SnapshotRow := data.foldl insertRow table

/-- The rows of one minute before the cutoff, the oldest first. -/
def findRawRows (table : List SnapshotRow) (cutoff : Int) (tie : SnapshotRow → Nat) :
    List SnapshotRow :=
  let rows := table.filter fun row => row.resolution = .pt1m && row.capturedAt < cutoff
  (rows.insertionSort fun a b => a.capturedAt < b.capturedAt ∨
    (a.capturedAt = b.capturedAt ∧ tie a ≤ tie b)).take rollupBatch

def deleteRawRows (table : List SnapshotRow) (last : Int) : List SnapshotRow :=
  table.filter fun row => !(row.resolution = .pt1m && row.capturedAt ≤ last)

def dropRolledRows (table : List SnapshotRow) (cutoff : Int) : List SnapshotRow :=
  table.filter fun row => !(row.resolution = .pt5m && row.capturedAt < cutoff)

/-- What `rollUpRawRows` and `dropExpiredRolledRows` do from one statement to the next. -/
def RetentionState.goOn (s : RetentionState) (tie : SnapshotRow → Nat) : SweepPhase → RetentionState
  | .finding cutoff =>
    match findRawRows s.table cutoff tie with
    | [] => { s with sweep := some .rolledUp }
    | rawRows => { s with sweep := some (.creating rawRows) }
  | .creating rawRows =>
    { s with
      table := createMany s.table (rollUpSnapshots rawRows .pt5m)
      sweep := rawRows.getLast?.map fun row => .deleting row.capturedAt }
  | .deleting last => { s with table := deleteRawRows s.table last, sweep := some .rolledUp }
  | .rolledUp => { s with sweep := some (.dropping (s.now - rolledRetentionDays * dayMs)) }
  | .dropping cutoff => { s with table := dropRolledRows s.table cutoff, sweep := none }

/-- One step; an action that fits nothing changes nothing. -/
def retentionStep (s : RetentionState) : RetentionAction → RetentionState
  | .capture rows =>
    { s with table := createMany s.table (rows.map fun row => { row with resolution := .pt1m }) }
  | .startSweep =>
    match s.sweep with
    | none => { s with sweep := some (.finding (s.now - rawRetentionDays * dayMs)) }
    | some _ => s
  | .next tie =>
    match s.sweep with
    | some phase => s.goOn tie phase
    | none => s
  | .crash => { s with sweep := none }
  | .clock now => { s with now := max s.now now }

def noRows : RetentionState := ⟨[], 0, none⟩

/-! ## What the claim of the comments is about -/

/-- The five minutes that a row belongs to. -/
def interval (row : SnapshotRow) : BucketKey := bucketKey .pt5m row

def storedRows (s : RetentionState) (key : BucketKey) : List SnapshotRow :=
  s.table.filter fun row => interval row = key

/-- The maximum of a metric over the stored rows of an interval. -/
def peak (s : RetentionState) (key : BucketKey) (metric : MetricKey) : Option Int :=
  (numbersAt (storedRows s key) metric).max?

/-- Some stored row of the interval is without the AMI. -/
def outage (s : RetentionState) (key : BucketKey) : Bool :=
  (storedRows s key).any fun row => row.amiConnected = some false

/-- The rows that the batch leaves behind are all newer than its last one, and those of a
queue lie in other intervals. -/
def WholeBuckets (table batch : List SnapshotRow) : Prop :=
  ∀ row ∈ table, row.resolution = .pt1m → row ∉ batch →
    (∀ last ∈ batch.getLast?, last.capturedAt < row.capturedAt) ∧
      (row.queueId ≠ none → ∀ other ∈ batch, interval other ≠ interval row)

/-- A sweep reads whole buckets, and what is captured lies in an interval that begins within
the last 90 days. -/
def Whole (s : RetentionState) : RetentionAction → Prop
  | .next tie => ∀ cutoff, s.sweep = some (.finding cutoff) →
      WholeBuckets s.table (findRawRows s.table cutoff tie)
  | .capture rows => ∀ row ∈ rows,
      s.now - rawRetentionDays * dayMs ≤ floorToResolution row.capturedAt .pt5m
  | _ => True

/-! ## One step -/

section Tables

variable {table data : List SnapshotRow} {row : SnapshotRow}

theorem mem_createMany_of_mem (h : row ∈ table) : row ∈ createMany table data := by
  unfold createMany
  induction data generalizing table with
  | nil => exact h
  | cons next data ih =>
    refine ih ?_
    unfold insertRow
    split
    · exact h
    · exact List.mem_append_left _ h

theorem mem_of_mem_createMany (h : row ∈ createMany table data) : row ∈ table ∨ row ∈ data := by
  unfold createMany at h
  induction data generalizing table with
  | nil => exact .inl h
  | cons next data ih =>
    rcases ih h with hmem | hdata
    · unfold insertRow at hmem
      split at hmem
      · exact .inl hmem
      · rcases List.mem_append.mp hmem with hmem | hnext
        · exact .inl hmem
        · obtain rfl := List.mem_singleton.mp hnext
          exact .inr List.mem_cons_self
    · exact .inr (List.mem_cons_of_mem next hdata)

/-- A row that is not inserted is there under its key. -/
theorem exists_createMany (table : List SnapshotRow) (h : row ∈ data) :
    ∃ stored ∈ createMany table data, stored = row ∨ sameKey row stored = true := by
  unfold createMany
  induction data generalizing table with
  | nil => cases h
  | cons next data ih =>
    rcases List.mem_cons.mp h with rfl | hdata
    · rw [List.foldl_cons, insertRow]
      split
      · next hany =>
        obtain ⟨stored, hstored, hsame⟩ := List.any_eq_true.mp hany
        exact ⟨stored, mem_createMany_of_mem hstored, .inr hsame⟩
      · exact ⟨row, mem_createMany_of_mem (List.mem_append_right _ List.mem_cons_self), .inl rfl⟩
    · exact ih _ hdata

theorem sameKey_iff {other : SnapshotRow} : sameKey row other = true ↔
    row.queueId ≠ none ∧ row.tenantId = other.tenantId ∧ row.queueId = other.queueId ∧
      row.resolution = other.resolution ∧ row.capturedAt = other.capturedAt := by
  unfold sameKey
  simp [Option.isSome_iff_ne_none, and_assoc]

theorem mem_findRawRows {cutoff : Int} {tie : SnapshotRow → Nat}
    (h : row ∈ findRawRows table cutoff tie) :
    row ∈ table ∧ row.resolution = .pt1m ∧ row.capturedAt < cutoff := by
  have hmem := (List.mem_insertionSort _).mp (List.mem_of_mem_take h)
  obtain ⟨htable, hraw⟩ := List.mem_filter.mp hmem
  rw [Bool.and_eq_true, decide_eq_true_iff, decide_eq_true_iff] at hraw
  exact ⟨htable, hraw⟩

theorem mem_deleteRawRows {last : Int} : row ∈ deleteRawRows table last ↔
    row ∈ table ∧ (row.resolution = .pt1m → last < row.capturedAt) := by
  unfold deleteRawRows
  rw [List.mem_filter]
  simp [imp_iff_not_or]

theorem mem_dropRolledRows {cutoff : Int} : row ∈ dropRolledRows table cutoff ↔
    row ∈ table ∧ (row.resolution = .pt5m → cutoff ≤ row.capturedAt) := by
  unfold dropRolledRows
  rw [List.mem_filter]
  simp [imp_iff_not_or]

/-- A row of an earlier interval lies in another one. -/
theorem interval_ne {other : SnapshotRow}
    (h : row.capturedAt < floorToResolution other.capturedAt .pt5m) : interval row ≠ interval other := by
  intro hsame
  have hfloor : floorToResolution row.capturedAt .pt5m = floorToResolution other.capturedAt .pt5m :=
    congrArg (·.2.2) hsame
  exact absurd h (not_lt.mpr (hfloor ▸ floorToResolution_le row.capturedAt))

end Tables

/-- What a sweep relies on between two statements. -/
def PhaseKept (s : RetentionState) : SweepPhase → Prop
  | .finding cutoff => cutoff ≤ s.now - rawRetentionDays * dayMs
  | .creating rawRows =>
    (∀ row ∈ rawRows, row ∈ s.table ∧ row.resolution = .pt1m ∧
      row.capturedAt < s.now - rawRetentionDays * dayMs) ∧ WholeBuckets s.table rawRows
  | .deleting last =>
    last < s.now - rawRetentionDays * dayMs ∧
      ∀ row ∈ s.table, row.resolution = .pt1m → row.capturedAt ≤ last →
        ∃ rolled ∈ s.table, rolled.resolution = .pt5m ∧ interval rolled = interval row ∧
          Covers rolled row
  | .rolledUp => True
  | .dropping cutoff => cutoff ≤ s.now - rolledRetentionDays * dayMs

structure RetentionState.Kept (s : RetentionState) : Prop where
  old : ∀ row ∈ s.table, row.resolution = .pt5m → row.capturedAt < s.now - rawRetentionDays * dayMs
  /-- A rolled row of a queue covers the rows of its interval that are not yet deleted. -/
  covered : ∀ rolled ∈ s.table, ∀ row ∈ s.table, rolled.resolution = .pt5m →
    row.resolution = .pt1m → row.queueId ≠ none → interval rolled = interval row → Covers rolled row
  phase : ∀ phase, s.sweep = some phase → PhaseKept s phase

namespace RetentionState.Kept

variable {s : RetentionState}

theorem clock (h : s.Kept) (now : Int) : (retentionStep s (.clock now)).Kept := by
  have hle : s.now ≤ max s.now now := le_max_left _ _
  have hlater : ∀ days : Int, s.now - days * dayMs ≤ max s.now now - days * dayMs :=
    fun days => Int.sub_le_sub_right hle _
  refine ⟨fun row hrow hrolled => lt_of_lt_of_le (h.old row hrow hrolled) (hlater _), h.covered, ?_⟩
  intro phase hphase
  have hkept := h.phase phase hphase
  cases phase with
  | finding cutoff => exact le_trans hkept (hlater _)
  | creating rawRows =>
    refine ⟨fun row hrow => ?_, hkept.2⟩
    obtain ⟨htable, hraw, hbefore⟩ := hkept.1 row hrow
    exact ⟨htable, hraw, lt_of_lt_of_le hbefore (hlater _)⟩
  | deleting last => exact ⟨lt_of_lt_of_le hkept.1 (hlater _), hkept.2⟩
  | rolledUp => trivial
  | dropping cutoff => exact le_trans hkept (hlater _)

theorem capture {rows : List SnapshotRow} (hnew : Whole s (.capture rows)) (h : s.Kept) :
    (retentionStep s (.capture rows)).Kept := by
  have hcases : ∀ row ∈ (retentionStep s (.capture rows)).table, row ∈ s.table ∨
      row.resolution = .pt1m ∧
        s.now - rawRetentionDays * dayMs ≤ floorToResolution row.capturedAt .pt5m := by
    intro row hrow
    rcases mem_of_mem_createMany hrow with htable | hdata
    · exact .inl htable
    · obtain ⟨captured, hcaptured, rfl⟩ := List.mem_map.mp hdata
      exact .inr ⟨rfl, hnew captured hcaptured⟩
  refine ⟨fun row hrow hrolled => ?_, fun rolled hrolled row hrow h5 h1 hqueue hsame => ?_, ?_⟩
  · rcases hcases row hrow with htable | ⟨hraw, -⟩
    · exact h.old row htable hrolled
    · rw [hraw] at hrolled
      cases hrolled
  · rcases hcases rolled hrolled with hthere | ⟨hraw, -⟩
    · rcases hcases row hrow with htable | ⟨-, hlate⟩
      · exact h.covered rolled hthere row htable h5 h1 hqueue hsame
      · exact absurd hsame (interval_ne (lt_of_lt_of_le (h.old rolled hthere h5) hlate))
    · rw [hraw] at h5
      cases h5
  · intro phase hphase
    have hkept := h.phase phase hphase
    cases phase with
    | finding cutoff => exact hkept
    | creating rawRows =>
      refine ⟨fun row hrow => ?_, fun row hrow hraw hout => ?_⟩
      · obtain ⟨htable, hraw, hbefore⟩ := hkept.1 row hrow
        exact ⟨mem_createMany_of_mem htable, hraw, hbefore⟩
      · rcases hcases row hrow with htable | ⟨-, hlate⟩
        · exact hkept.2 row htable hraw hout
        · have hbatch : ∀ other ∈ rawRows,
              other.capturedAt < floorToResolution row.capturedAt .pt5m :=
            fun other hother => lt_of_lt_of_le (hkept.1 other hother).2.2 hlate
          refine ⟨fun last hlast => ?_, fun _ other hother => interval_ne (hbatch other hother)⟩
          exact lt_of_lt_of_le (hbatch last (List.mem_of_getLast? hlast))
            (floorToResolution_le row.capturedAt)
    | deleting last =>
      refine ⟨hkept.1, fun row hrow hraw hle => ?_⟩
      rcases hcases row hrow with htable | ⟨-, hlate⟩
      · obtain ⟨rolled, hrolled, hcovers⟩ := hkept.2 row htable hraw hle
        exact ⟨rolled, mem_createMany_of_mem hrolled, hcovers⟩
      · have hfloor : floorToResolution row.capturedAt .pt5m ≤ row.capturedAt :=
          floorToResolution_le row.capturedAt
        exact absurd (lt_of_lt_of_le hkept.1 (le_trans hlate hfloor)) (not_lt.mpr hle)
    | rolledUp => trivial
    | dropping cutoff => exact hkept

/-- The statement that reads the batch. -/
theorem find {tie : SnapshotRow → Nat} {cutoff : Int} (hphase : s.sweep = some (.finding cutoff))
    (hwhole : Whole s (.next tie)) (h : s.Kept) : (s.goOn tie (.finding cutoff)).Kept := by
  have hcutoff : cutoff ≤ s.now - rawRetentionDays * dayMs := h.phase _ hphase
  unfold goOn
  dsimp only
  split
  · refine ⟨h.old, h.covered, ?_⟩
    rintro _ ⟨⟩
    trivial
  · refine ⟨h.old, h.covered, ?_⟩
    rintro _ ⟨⟩
    refine ⟨fun row hrow => ?_, hwhole cutoff hphase⟩
    obtain ⟨htable, hraw, hbefore⟩ := mem_findRawRows hrow
    exact ⟨htable, hraw, lt_of_lt_of_le hbefore hcutoff⟩

/-- The statement that inserts the rolled rows: a row of a queue that is in the same interval
is in the batch. -/
theorem create {tie : SnapshotRow → Nat} {rawRows : List SnapshotRow}
    (hphase : s.sweep = some (.creating rawRows)) (h : s.Kept) :
    (s.goOn tie (.creating rawRows)).Kept := by
  obtain ⟨hbatch, hwhole⟩ : PhaseKept s (.creating rawRows) := h.phase _ hphase
  have hrolled : ∀ rolled ∈ rollUpSnapshots rawRows .pt5m, rolled.resolution = .pt5m ∧
      rolled.capturedAt < s.now - rawRetentionDays * dayMs ∧
      ∃ first ∈ rawRows, interval first = interval rolled := by
    intro rolled hmem
    obtain ⟨first, rest, rfl, hbucket⟩ := mem_rollUpSnapshots hmem
    have hfirst : first ∈ rawRows := (List.mem_filter.mp (hbucket ▸ List.mem_cons_self)).1
    exact ⟨rfl, lt_of_le_of_lt (floorToResolution_le _) (hbatch first hfirst).2.2, first, hfirst,
      bucketKey_foldBucket.symm⟩
  have hraws : ∀ row ∈ createMany s.table (rollUpSnapshots rawRows .pt5m), row.resolution = .pt1m →
      row ∈ s.table := by
    intro row hrow hraw
    rcases mem_of_mem_createMany hrow with htable | hdata
    · exact htable
    · rw [(hrolled row hdata).1] at hraw
      cases hraw
  have hcovered : ∀ rolled ∈ createMany s.table (rollUpSnapshots rawRows .pt5m), ∀ row ∈ s.table,
      rolled.resolution = .pt5m → row.resolution = .pt1m → row.queueId ≠ none →
        interval rolled = interval row → Covers rolled row := by
    intro rolled hmem row hrow h5 h1 hqueue hsame
    rcases mem_of_mem_createMany hmem with htable | hdata
    · exact h.covered rolled htable row hrow h5 h1 hqueue hsame
    · obtain ⟨-, -, first, hfirst, hkey⟩ := hrolled rolled hdata
      by_cases hin : row ∈ rawRows
      · exact covers_of_rolled hdata hin hsame.symm
      · exact absurd (hkey.trans hsame) ((hwhole row hrow h1 hin).2 hqueue first hfirst)
  refine ⟨fun row hrow h5 => ?_, fun rolled hmem row hrow h5 h1 => ?_, fun phase hnext => ?_⟩
  · rcases mem_of_mem_createMany hrow with htable | hdata
    · exact h.old row htable h5
    · exact (hrolled row hdata).2.1
  · exact hcovered rolled hmem row (hraws row hrow h1) h5 h1
  · obtain ⟨last, hlast, rfl⟩ := Option.map_eq_some_iff.mp hnext
    refine ⟨(hbatch last (List.mem_of_getLast? hlast)).2.2, fun row hrow h1 hle => ?_⟩
    have hin : row ∈ rawRows := by
      by_contra hout
      have hlater := (hwhole row (hraws row hrow h1) h1 hout).1 last hlast
      exact absurd hle (not_le.mpr hlater)
    obtain ⟨rolled, hmem, hkey⟩ := exists_rolled .pt5m hin
    obtain ⟨stored, hstored, rfl | hsame⟩ := exists_createMany s.table hmem
    · exact ⟨stored, hstored, (hrolled stored hmem).1, hkey,
        covers_of_rolled hmem hin hkey.symm⟩
    · obtain ⟨hqueue, htenant, hqueues, hresolution, htime⟩ := sameKey_iff.mp hsame
      have hinterval : interval stored = interval rolled := by
        unfold interval bucketKey
        rw [htenant, hqueues, htime]
      have hrowQueue : row.queueId = rolled.queueId := congrArg (·.2.1) hkey.symm
      have h5 : stored.resolution = .pt5m := hresolution.symm.trans (hrolled rolled hmem).1
      exact ⟨stored, hstored, h5, hinterval.trans hkey,
        hcovered stored hstored row (hraws row hrow h1) h5 h1 (hrowQueue ▸ hqueue)
          (hinterval.trans hkey)⟩

/-- Fewer rows. -/
theorem subset {table : List SnapshotRow} {sweep : Option SweepPhase} (h : s.Kept)
    (hsubset : table ⊆ s.table) (hphase : ∀ phase, sweep = some phase → phase = .rolledUp) :
    ({ s with table, sweep } : RetentionState).Kept := by
  refine ⟨fun row hrow => h.old row (hsubset hrow),
    fun rolled hrolled row hrow => h.covered rolled (hsubset hrolled) row (hsubset hrow), ?_⟩
  intro phase hsome
  rw [hphase phase hsome]
  trivial

end RetentionState.Kept

/-- What every step keeps when no batch tears a bucket apart. -/
theorem retentionStep_kept {s : RetentionState} {action : RetentionAction}
    (hwhole : Whole s action) (h : s.Kept) : (retentionStep s action).Kept := by
  cases action with
  | capture rows => exact h.capture hwhole
  | startSweep =>
    unfold retentionStep
    dsimp only
    split
    · refine ⟨h.old, h.covered, ?_⟩
      rintro _ ⟨⟩
      exact le_refl _
    · exact h
  | next tie =>
    unfold retentionStep
    dsimp only
    split
    · next phase hphase =>
      cases phase with
      | finding cutoff => exact h.find hphase hwhole
      | creating rawRows => exact h.create hphase
      | deleting last =>
        refine h.subset (fun row hrow => (mem_deleteRawRows.mp hrow).1) ?_
        rintro _ ⟨⟩
        rfl
      | rolledUp =>
        refine ⟨h.old, h.covered, ?_⟩
        rintro _ ⟨⟩
        exact le_refl _
      | dropping cutoff => exact h.subset (fun row hrow => (mem_dropRolledRows.mp hrow).1) nofun
    · exact h
  | crash => exact ⟨h.old, h.covered, nofun⟩
  | clock now => exact h.clock now

theorem noRows_kept : noRows.Kept := ⟨by rintro _ ⟨⟩, by rintro _ ⟨⟩, by rintro _ ⟨⟩⟩

/-! ## Peaks and outages -/

/-- The rows of an interval are covered by later ones. -/
def CoveredIn (key : BucketKey) (s s' : RetentionState) : Prop :=
  ∀ row ∈ s.table, interval row = key → ∃ row' ∈ s'.table, interval row' = key ∧ Covers row' row

/-- Rolled rows of the interval are not yet 365 days old. -/
def Unexpired (s : RetentionState) (key : BucketKey) : Prop :=
  s.now - rolledRetentionDays * dayMs ≤ key.2.2

section Peaks

variable {s s' : RetentionState} {key : BucketKey} {action : RetentionAction}

theorem CoveredIn.of_subset (h : s.table ⊆ s'.table) : CoveredIn key s s' :=
  fun row hrow hkey => ⟨row, h hrow, hkey, .refl row⟩

theorem CoveredIn.trans {s'' : RetentionState} (h : CoveredIn key s s')
    (h' : CoveredIn key s' s'') : CoveredIn key s s'' := by
  intro row hrow hkey
  obtain ⟨row', hrow', hkey', hcovers⟩ := h row hrow hkey
  obtain ⟨row'', hrow'', hkey'', hcovers'⟩ := h' row' hrow' hkey'
  exact ⟨row'', hrow'', hkey'', hcovers'.trans hcovers⟩

/-- A step deletes rows that are covered, and rows of intervals that have expired. -/
theorem retentionStep_covers (hkept : s.Kept) (hlive : Unexpired s key) :
    CoveredIn key s (retentionStep s action) := by
  cases action with
  | capture rows => exact .of_subset fun row hrow => mem_createMany_of_mem hrow
  | startSweep =>
    unfold retentionStep
    dsimp only
    split
    · exact .of_subset (List.Subset.refl _)
    · exact .of_subset (List.Subset.refl _)
  | next tie =>
    unfold retentionStep
    dsimp only
    split
    · next phase hphase =>
      have hsweep := hkept.phase phase hphase
      cases phase with
      | finding cutoff =>
        unfold RetentionState.goOn
        dsimp only
        split
        · exact .of_subset (List.Subset.refl _)
        · exact .of_subset (List.Subset.refl _)
      | creating rawRows => exact .of_subset fun row hrow => mem_createMany_of_mem hrow
      | deleting last =>
        intro row hrow hkey
        by_cases hdeleted : row.resolution = .pt1m ∧ row.capturedAt ≤ last
        · obtain ⟨rolled, hrolled, h5, hsame, hcovers⟩ := hsweep.2 row hrow hdeleted.1 hdeleted.2
          refine ⟨rolled, mem_deleteRawRows.mpr ⟨hrolled, fun h1 => ?_⟩, hsame.trans hkey, hcovers⟩
          rw [h5] at h1
          cases h1
        · refine ⟨row, mem_deleteRawRows.mpr ⟨hrow, fun h1 => ?_⟩, hkey, .refl row⟩
          exact not_le.mp fun hle => hdeleted ⟨h1, hle⟩
      | rolledUp => exact .of_subset (List.Subset.refl _)
      | dropping cutoff =>
        intro row hrow hkey
        refine ⟨row, mem_dropRolledRows.mpr ⟨hrow, fun _ => ?_⟩, hkey, .refl row⟩
        have hbegin : floorToResolution row.capturedAt .pt5m = key.2.2 := congrArg (·.2.2) hkey
        exact le_trans hsweep (le_trans hlive (hbegin ▸ floorToResolution_le row.capturedAt))
    · exact .of_subset (List.Subset.refl _)
  | crash => exact .of_subset (List.Subset.refl _)
  | clock now => exact .of_subset (List.Subset.refl _)

theorem now_goOn {tie : SnapshotRow → Nat} {phase : SweepPhase} : (s.goOn tie phase).now = s.now := by
  cases phase with
  | finding cutoff =>
    unfold RetentionState.goOn
    dsimp only
    split <;> rfl
  | _ => rfl

theorem now_le_retentionStep : s.now ≤ (retentionStep s action).now := by
  cases action with
  | startSweep =>
    unfold retentionStep
    dsimp only
    split <;> exact le_refl _
  | next tie =>
    unfold retentionStep
    dsimp only
    split
    · exact now_goOn.ge
    · exact le_refl _
  | clock now => exact le_max_left _ _
  | _ => exact le_refl _

theorem now_le_foldl (actions : List RetentionAction) : s.now ≤ (actions.foldl retentionStep s).now := by
  induction actions generalizing s with
  | nil => exact le_refl _
  | cons action actions ih => exact le_trans now_le_retentionStep ih

/-- A run covers the rows of an interval that has not expired at its end. -/
theorem foldl_covers {actions : List RetentionAction} (h : Along retentionStep Whole s actions)
    (hkept : s.Kept) (hlive : Unexpired (actions.foldl retentionStep s) key) :
    CoveredIn key s (actions.foldl retentionStep s) := by
  induction actions generalizing s with
  | nil => exact .of_subset (List.Subset.refl _)
  | cons action actions ih =>
    obtain ⟨hhead, htail⟩ := along_cons.mp h
    have hnow : s.now ≤ ((action :: actions).foldl retentionStep s).now := now_le_foldl _
    have hbefore : Unexpired s key := le_trans (Int.sub_le_sub_right hnow _) hlive
    exact (retentionStep_covers hkept hbefore).trans
      (ih htail (retentionStep_kept hhead hkept) hlive)

theorem mem_storedRows {row : SnapshotRow} :
    row ∈ storedRows s key ↔ row ∈ s.table ∧ interval row = key := by
  unfold storedRows
  rw [List.mem_filter, decide_eq_true_iff]

theorem CoveredIn.peak_le {metric : MetricKey} {value : Int} (h : CoveredIn key s s')
    (hmetric : metric ∈ peaked) (hvalue : value ∈ peak s key metric) :
    ∃ later ∈ peak s' key metric, value ≤ later := by
  obtain ⟨row, hrow, hread⟩ := List.mem_filterMap.mp (List.max?_mem hvalue)
  obtain ⟨hstored, hkey⟩ := mem_storedRows.mp hrow
  obtain ⟨row', hrow', hkey', hcovers⟩ := h row hstored hkey
  obtain ⟨higher, hhigher, hle⟩ := hcovers.peaks metric hmetric value hread
  have hmem : higher ∈ numbersAt (storedRows s' key) metric :=
    List.mem_filterMap.mpr ⟨row', mem_storedRows.mpr ⟨hrow', hkey'⟩, hhigher⟩
  obtain ⟨later, hlater⟩ := Option.isSome_iff_exists.mp (List.isSome_max?_of_mem hmem)
  exact ⟨later, hlater, le_trans hle ((List.max?_eq_some_iff.mp hlater).2 higher hmem)⟩

theorem CoveredIn.outage (h : CoveredIn key s s') (hout : outage s key = true) :
    outage s' key = true := by
  obtain ⟨row, hrow, hfalse⟩ := List.any_eq_true.mp hout
  obtain ⟨hstored, hkey⟩ := mem_storedRows.mp hrow
  obtain ⟨row', hrow', hkey', hcovers⟩ := h row hstored hkey
  exact List.any_eq_true.mpr ⟨row', mem_storedRows.mpr ⟨hrow', hkey'⟩,
    decide_eq_true (hcovers.outage (of_decide_eq_true hfalse))⟩

end Peaks

/-- From one state of a run to a later one. -/
structure PeaksKept (s s' : RetentionState) : Prop where
  peaks : ∀ key, Unexpired s' key → ∀ metric ∈ peaked, ∀ value ∈ peak s key metric,
    ∃ later ∈ peak s' key metric, value ≤ later
  outages : ∀ key, Unexpired s' key → outage s key = true → outage s' key = true

/-- A batch is read at the first statement of a sweep only. -/
theorem goOn_ne_finding {s : RetentionState} {tie : SnapshotRow → Nat} {phase : SweepPhase}
    {cutoff : Int} : (s.goOn tie phase).sweep ≠ some (.finding cutoff) := by
  cases phase with
  | finding before =>
    unfold RetentionState.goOn
    dsimp only
    split <;> nofun
  | creating rawRows =>
    intro hsweep
    obtain ⟨row, -, hrow⟩ := Option.map_eq_some_iff.mp hsweep
    cases hrow
  | _ => nofun

theorem along_next {s : RetentionState} {tie : SnapshotRow → Nat} (n : Nat)
    (hfirst : Whole s (.next tie)) :
    Along retentionStep Whole s (List.replicate n (.next tie)) := by
  induction n generalizing s with
  | zero => exact along_nil
  | succ n ih =>
    refine along_cons.mpr ⟨hfirst, ih ?_⟩
    intro cutoff hsweep
    unfold retentionStep at hsweep
    dsimp only at hsweep
    split at hsweep
    · exact absurd hsweep goOn_ne_finding
    · next hnone =>
      rw [hnone] at hsweep
      cases hsweep

/-- A row of one queue, in its first five minutes. -/
def exRow (capturedAt longestWaitSeconds : Int) : SnapshotRow where
  tenantId := "tenant-1"
  queueId := some "queue-1"
  capturedAt
  resolution := .pt1m
  metrics
    | .longestWaitSeconds => some longestWaitSeconds
    | _ => some 0
  amiConnected := some (longestWaitSeconds < 100)

def exInterval : BucketKey := ("tenant-1", some "queue-1", 0)

def exCaptures : List RetentionAction :=
  [.capture [exRow 0 3], .clock 60000, .capture [exRow 60000 180]]

/-- A sweep as many milliseconds after the 90 days. -/
def exSweep (later : Int) : List RetentionAction :=
  .clock (rawRetentionDays * dayMs + later) :: .startSweep :: List.replicate 5 (.next fun _ => 0)

theorem exSweep_whole :
    Along retentionStep Whole noRows (exCaptures ++ exSweep 120000) := by
  refine along_cons.mpr ⟨?_, along_cons.mpr ⟨trivial, along_cons.mpr ⟨?_, along_cons.mpr ⟨trivial,
    along_cons.mpr ⟨trivial, along_next 5 ?_⟩⟩⟩⟩⟩
  · exact List.forall_mem_singleton.mpr (by decide)
  · exact List.forall_mem_singleton.mpr (by decide)
  · rintro cutoff ⟨⟩ row hrow - hout
    exact absurd hrow hout

end KasterCti.Trends
