import KasterCti.Library.Trace
import KasterCti.Recordings.Finalizer

/-!
# Recordings are not orphaned

A recording that was there when its first finalization started should stay within
reach of its row. `encryptFile` deletes the plaintext before the row is saved, and the
`catch` branch saves a row without the encrypted file.

Results:
1. `finalizeStep_sound`: a step that meets `Careful` keeps every recording in the file
   that its rows name.
2. `recordings_within_reach`: so it does in every run of such steps.
3. `failed_retention_orphans`: a failure behind the encryption loses the recording.
-/

namespace KasterCti.Recordings

open Trace

/-- The row names a file that holds the recording. -/
def Refers (s : Finalizer) (row : RecordingRow) (recording : Content) : Prop :=
  Holds s.disk row.data.filePath recording ∨
    ∃ path, row.data.encryptedFilePath = some path ∧ Holds s.disk path recording

/-- Every row that was saved for a recording names a file that holds it. -/
def WithinReach (s : Finalizer) : Prop :=
  ∀ path recording, s.recorded path = some recording → ∀ id ∈ s.savedRows path,
    ∃ row, s.rows id = some row ∧ Refers s row recording

/-! ## The condition -/

section Condition

variable (cfg : RecordingConfig) (s : Finalizer)

/-- The file is neither a recording nor the encryption of one. -/
def Foreign (path : String) : Prop :=
  ∀ p recording, s.recorded p = some recording →
    path ≠ p ∧ path ≠ cfg.resolveEncryptedFilePath p

/-- The plaintext is there, and the output of its encryption is no other recording and
not the encryption of another one. -/
def OwnOutput (source : String) : Prop :=
  s.disk source ≠ none ∧ ∀ p recording, s.recorded p = some recording →
    cfg.resolveEncryptedFilePath source ≠ p ∧
      (p ≠ source → cfg.resolveEncryptedFilePath source ≠ cfg.resolveEncryptedFilePath p)

/-- The plaintext can go: it is no encryption, the output is complete, and no row saved
for it lacks the encrypted file. -/
def Replaced (source : String) : Prop :=
  ∀ p recording, s.recorded p = some recording →
    source ≠ cfg.resolveEncryptedFilePath p ∧
      (p = source →
        s.disk (cfg.resolveEncryptedFilePath source) = (s.disk source).map Content.encrypted ∧
        ∀ id ∈ s.savedRows source, ∀ row, s.rows id = some row →
          row.data.encryptedFilePath = some (cfg.resolveEncryptedFilePath source))

/-- A row without an encrypted file is saved while the plaintext is there, and no row of
another recording is overwritten. -/
def SavesInReach (data : RecordingData) (existing : Option Nat) : Prop :=
  (data.encryptedFilePath = none → s.disk data.filePath ≠ none) ∧
    ∀ id, existing = some id → ∀ p recording, s.recorded p = some recording →
      id ∈ s.savedRows p → p = data.filePath

/-- What a sweep may do in its await. -/
def CarefulPhase (reply : Reply) : FinalizePhase → Prop
  | .playbackHeader file | .playbackCopy file => Foreign cfg s (playbackPathOf file.filePath)
  | .encryptOpen _ source second =>
    if second then Foreign cfg s (cfg.resolveEncryptedFilePath source) else OwnOutput cfg s source
  | .encryptTrailer _ source second _ => reply.error = none →
    if second then Foreign cfg s (cfg.resolveEncryptedFilePath source) else OwnOutput cfg s source
  | .encryptUnlink _ source second => reply.error = none →
    if second then Foreign cfg s source else Replaced cfg s source
  | .store _ data existing => reply.error = none → SavesInReach s data existing
  | _ => True

end Condition

def Careful (cfg : RecordingConfig) (s : Finalizer) : FinalizeAction → Prop
  | .next n reply => ∀ sw, s.sweeps n = some sw → CarefulPhase cfg s reply sw.phase
  | _ => True

/-! ## The invariant -/

variable {cfg : RecordingConfig} {s s' : Finalizer} {path : String}

/-- The recording is in its file and its rows name it, or only its encryption is left
and they name that. -/
def Kept (cfg : RecordingConfig) (s : Finalizer) (path : String) (recording : Content) : Prop :=
  (s.disk path = some recording ∧
    ∀ id ∈ s.savedRows path, ∃ row, s.rows id = some row ∧ row.data.filePath = path) ∨
  (s.disk path = none ∧
    s.disk (cfg.resolveEncryptedFilePath path) = some (.encrypted recording) ∧
    ∀ id ∈ s.savedRows path, ∃ row, s.rows id = some row ∧
      row.data.encryptedFilePath = some (cfg.resolveEncryptedFilePath path))

/-- What is written of a file's encryption names the file's own. -/
def DataOk (cfg : RecordingConfig) (path : String) (filePath : String) (encrypted : Option String) :
    Prop :=
  filePath = path ∧ (encrypted = none ∨ encrypted = some (cfg.resolveEncryptedFilePath path))

def WorkOk (cfg : RecordingConfig) (path : String) (work : Work) : Prop :=
  DataOk cfg path work.file.filePath work.encrypted

/-- The locals of a sweep belong to the file of its job. -/
def PhaseOk (cfg : RecordingConfig) (nextRow : Nat) (path : String) : FinalizePhase → Prop
  | .inspect => True
  | .playbackStat file | .playbackHeader file | .playbackCopy file | .playbackSize file =>
    file.filePath = path
  | .entitlement work => WorkOk cfg path work
  | .encryptPrepare work source second | .encryptOpen work source second
  | .encryptCopy work source second _ | .encryptTrailer work source second _
  | .encryptUnlink work source second => WorkOk cfg path work ∧ (second = false → source = path)
  | .retention _ data | .find _ data => DataOk cfg path data.filePath data.encryptedFilePath
  | .store _ data existing => DataOk cfg path data.filePath data.encryptedFilePath ∧
      ∀ id, existing = some id → id < nextRow
  | .markSession _ _ | .markJob _ _ | .publish _ => True

structure Sound (cfg : RecordingConfig) (s : Finalizer) : Prop where
  kept : ∀ path recording, s.recorded path = some recording → Kept cfg s path recording
  noted : ∀ path recording, s.recorded path = some recording → path ∈ s.attempted
  unattempted : ∀ path, path ∉ s.attempted → s.savedRows path = []
  rows : ∀ path, ∀ id ∈ s.savedRows path, id < s.nextRow
  sweeps : ∀ n sw, s.sweeps n = some sw →
    cfg.resolveLocalPath sw.job.recFile ∈ s.attempted ∧
      PhaseOk cfg s.nextRow (cfg.resolveLocalPath sw.job.recFile) sw.phase

variable {recording : Content}

theorem Kept.refers (h : Kept cfg s path recording) {id : Nat} (hid : id ∈ s.savedRows path) :
    ∃ row, s.rows id = some row ∧ Refers s row recording := by
  rcases h with ⟨hdisk, hrows⟩ | ⟨-, hdisk, hrows⟩
  · obtain ⟨row, hrow, hpath⟩ := hrows id hid
    exact ⟨row, hrow, .inl (.inl (by rw [hpath]; exact hdisk))⟩
  · obtain ⟨row, hrow, hpath⟩ := hrows id hid
    exact ⟨row, hrow, .inr ⟨_, hpath, .inr hdisk⟩⟩

theorem Sound.withinReach (h : Sound cfg s) : WithinReach s := by
  intro path recording hrecorded id hid
  exact (h.kept path recording hrecorded).refers hid

/-! ## Steps that write no file and no row -/

theorem Kept.congr (h : Kept cfg s path recording) (hdisk : s'.disk = s.disk)
    (hrows : s'.rows = s.rows) (hsaved : s'.savedRows = s.savedRows) :
    Kept cfg s' path recording := by
  unfold Kept at h ⊢
  rw [hdisk, hrows, hsaved]
  exact h

/-- A sweep changes: the tables, the files and the other sweeps stay. -/
theorem Sound.setSweep (h : Sound cfg s) {n : Nat} {sweep : Option FinalizeSweep}
    (hsweep : ∀ sw, sweep = some sw → cfg.resolveLocalPath sw.job.recFile ∈ s.attempted ∧
      PhaseOk cfg s.nextRow (cfg.resolveLocalPath sw.job.recFile) sw.phase) :
    Sound cfg (s.setSweep n sweep) := by
  refine ⟨h.kept, h.noted, h.unattempted, h.rows, ?_⟩
  intro m sw hsw
  simp only [Finalizer.setSweep] at hsw
  split at hsw
  · exact hsweep sw hsw
  · exact h.sweeps m sw hsw

/-- Only jobs, sessions and messages change. -/
theorem Sound.congr (h : Sound cfg s) (hdisk : s'.disk = s.disk) (hrows : s'.rows = s.rows)
    (hnext : s'.nextRow = s.nextRow) (hsaved : s'.savedRows = s.savedRows)
    (hrecorded : s'.recorded = s.recorded) (hattempted : s'.attempted = s.attempted)
    (hsweeps : s'.sweeps = s.sweeps) : Sound cfg s' := by
  refine ⟨?_, ?_, ?_, ?_, ?_⟩
  · intro path recording hrec
    rw [hrecorded] at hrec
    exact (h.kept path recording hrec).congr hdisk hrows hsaved
  · rw [hrecorded, hattempted]
    exact h.noted
  · intro path hpath
    rw [hattempted] at hpath
    rw [hsaved]
    exact h.unattempted path hpath
  · intro path id hid
    rw [hsaved] at hid
    rw [hnext]
    exact h.rows path id hid
  · intro n sw hsw
    rw [hsweeps] at hsw
    rw [hattempted, hnext]
    exact h.sweeps n sw hsw

theorem Sound.enqueue (h : Sound cfg s) (tenantId callId linkedid recFile : String)
    (now : Calls.Time) : Sound cfg (s.enqueue tenantId callId linkedid recFile now) := by
  unfold Finalizer.enqueue
  dsimp only
  split <;> exact h.congr rfl rfl rfl rfl rfl rfl rfl

theorem Sound.reconcile (h : Sound cfg s) (ended : List String) (now : Calls.Time) :
    Sound cfg (s.reconcile ended now) := by
  unfold Finalizer.reconcile
  generalize s.reconcilable ended = rows
  induction rows generalizing s with
  | nil => exact h
  | cons row rows ih => exact ih (h.enqueue _ _ _ _ _)

/-- An attempt starts: a recording that is noted is in its file, and no row of it was
saved before. -/
theorem Sound.attempt (h : Sound cfg s) (path : String) :
    Sound cfg (s.attempt path) ∧ path ∈ (s.attempt path).attempted := by
  unfold Finalizer.attempt
  split
  · next hmem => exact ⟨h, hmem⟩
  · next hnew =>
    refine ⟨⟨?_, ?_, ?_, h.rows, ?_⟩, List.mem_cons_self⟩
    · intro p recording hrec
      simp only at hrec
      split at hrec
      · next hp =>
        subst hp
        obtain ⟨hdisk, -⟩ := Option.filter_eq_some_iff.1 hrec
        refine .inl ⟨hdisk, ?_⟩
        intro id hid
        rw [show s.savedRows p = [] from h.unattempted p hnew] at hid
        cases hid
      · exact h.kept p recording hrec
    · intro p recording hrec
      simp only at hrec
      split at hrec
      · next hp => exact hp ▸ List.mem_cons_self
      · exact List.mem_cons_of_mem _ (h.noted p recording hrec)
    · intro p hp
      exact h.unattempted p fun hmem => hp (List.mem_cons_of_mem _ hmem)
    · intro n sw hsw
      obtain ⟨hmem, hphase⟩ := h.sweeps n sw hsw
      exact ⟨List.mem_cons_of_mem _ hmem, hphase⟩

theorem Sound.startJob (h : Sound cfg s) (n : Nat) (jobs : List FinalizeJob) :
    Sound cfg (s.startJob cfg n jobs) := by
  cases jobs with
  | nil =>
    refine h.setSweep ?_
    intro sw hsw
    cases hsw
  | cons job rest =>
    obtain ⟨hsound, hmem⟩ := h.attempt (cfg.resolveLocalPath job.recFile)
    refine hsound.setSweep ?_
    intro sw hsw
    obtain rfl := Option.some.inj hsw
    exact ⟨hmem, trivial⟩

/-! ## Files -/

theorem Sound.setFile (h : Sound cfg s) {content : Option Content}
    (hkept : ∀ p recording, s.recorded p = some recording → Kept cfg (s.setFile path content) p recording) :
    Sound cfg (s.setFile path content) :=
  ⟨hkept, h.noted, h.unattempted, h.rows, h.sweeps⟩

/-- A write elsewhere leaves the recording where it is. -/
theorem Kept.setFile {p : String} (h : Kept cfg s p recording) (hplain : path ≠ p)
    (hencrypted : path ≠ cfg.resolveEncryptedFilePath p) (content : Option Content) :
    Kept cfg (s.setFile path content) p recording := by
  unfold Kept at h ⊢
  simpa only [Finalizer.setFile, if_neg hplain.symm, if_neg hencrypted.symm] using h

theorem Sound.setForeign (h : Sound cfg s) (hforeign : Foreign cfg s path) (content : Option Content) :
    Sound cfg (s.setFile path content) := by
  refine h.setFile ?_
  intro p recording hrec
  obtain ⟨hplain, hencrypted⟩ := hforeign p recording hrec
  exact (h.kept p recording hrec).setFile hplain hencrypted content

/-- The output is written while the plaintext is there. -/
theorem Sound.setOutput (h : Sound cfg s) {source : String} (hown : OwnOutput cfg s source)
    (content : Option Content) : Sound cfg (s.setFile (cfg.resolveEncryptedFilePath source) content) := by
  obtain ⟨hthere, hothers⟩ := hown
  refine h.setFile ?_
  intro p recording hrec
  obtain ⟨hplain, hother⟩ := hothers p recording hrec
  have hkept := h.kept p recording hrec
  by_cases hp : p = source
  · subst hp
    rcases hkept with ⟨hdisk, hrows⟩ | ⟨hgone, -⟩
    · refine .inl ⟨?_, hrows⟩
      simpa only [Finalizer.setFile, if_neg hplain.symm] using hdisk
    · exact absurd hgone hthere
  · exact hkept.setFile hplain (hother hp) content

/-- The output of either encryption is written. -/
theorem Sound.setTarget (h : Sound cfg s) {source : String} {second : Bool}
    (hok : if second then Foreign cfg s (cfg.resolveEncryptedFilePath source)
      else OwnOutput cfg s source) (content : Option Content) :
    Sound cfg (s.setFile (cfg.resolveEncryptedFilePath source) content) := by
  cases second with
  | true =>
    rw [if_pos rfl] at hok
    exact h.setForeign hok content
  | false =>
    rw [if_neg Bool.false_ne_true] at hok
    exact h.setOutput hok content

/-- The plaintext goes when its encryption has taken its place. -/
theorem Sound.unlink (h : Sound cfg s) {source : String} {content : Content}
    (hreplaced : Replaced cfg s source) (hsource : s.disk source = some content) :
    Sound cfg (s.setFile source none) := by
  refine h.setFile ?_
  intro p recording hrec
  obtain ⟨hencrypted, hown⟩ := hreplaced p recording hrec
  have hkept := h.kept p recording hrec
  by_cases hp : p = source
  · subst hp
    obtain ⟨houtput, hrows⟩ := hown rfl
    rcases hkept with ⟨hdisk, hsaved⟩ | ⟨hgone, -⟩
    · refine .inr ⟨by simp [Finalizer.setFile], ?_, ?_⟩
      · rw [hdisk, Option.map_some] at houtput
        simpa only [Finalizer.setFile, if_neg (Ne.symm hencrypted)] using houtput
      · intro id hid
        obtain ⟨row, hrow, -⟩ := hsaved id hid
        exact ⟨row, hrow, hrows id hid row hrow⟩
    · rw [hsource] at hgone
      cases hgone
  · exact hkept.setFile (Ne.symm hp) hencrypted none

/-! ## Rows -/

variable {data : RecordingData}

/-- The row that is found is one of the table. -/
theorem findRow_lt {job : FinalizeJob} {pick id : Nat} (h : s.findRow job data pick = some id) :
    id < s.nextRow := by
  have hmem : id ∈ (List.range s.nextRow).filter fun id =>
      (s.rows id).any (sameRecording job data) := by
    unfold Finalizer.findRow at h
    dsimp only at h
    rcases (Option.orElse_eq_some _ _ _).1 h with hpick | ⟨-, hhead⟩
    · exact List.mem_of_getElem? hpick
    · exact List.mem_of_mem_head? hhead
  exact List.mem_range.1 (List.mem_filter.1 hmem).1

theorem storeRow_row (s : Finalizer) (job : FinalizeJob) (data : RecordingData)
    (existing : Option Nat) :
    ∃ row, (s.storeRow job data existing).2.rows (s.storeRow job data existing).1 = some row ∧
      row.data = data := by
  simp only [Finalizer.storeRow, if_true]
  cases existing.bind s.rows with
  | none => exact ⟨_, rfl, rfl⟩
  | some row => exact ⟨_, rfl, rfl⟩

theorem storeRow_other (s : Finalizer) (job : FinalizeJob) (data : RecordingData)
    (existing : Option Nat) {id : Nat} (h : id ≠ (s.storeRow job data existing).1) :
    (s.storeRow job data existing).2.rows id = s.rows id := by
  simp only [Finalizer.storeRow] at h ⊢
  rw [if_neg h]

variable {existing : Option Nat}

/-- The row that is saved was not saved for another recording. -/
theorem Sound.storeRow_id (h : Sound cfg s) (job : FinalizeJob)
    (hreach : SavesInReach s data existing) {p : String} (hrec : s.recorded p = some recording)
    (hp : p ≠ data.filePath) : (s.storeRow job data existing).1 ∉ s.savedRows p := by
  intro hmem
  cases existing with
  | none => exact Nat.lt_irrefl _ (h.rows p _ hmem)
  | some id => exact hp (hreach.2 id rfl p recording hrec hmem)

/-- A property of the rows that were saved for a file, once another one is. -/
theorem storeRow_saved {P : RecordingRow → Prop} {job : FinalizeJob} {saved : List Nat}
    (hsaved : ∀ id ∈ saved, ∃ row, s.rows id = some row ∧ P row)
    (hdata : ∀ row, row.data = data → P row) :
    ∀ id ∈ (s.storeRow job data existing).1 :: saved,
      ∃ row, (s.storeRow job data existing).2.rows id = some row ∧ P row := by
  intro id hid
  by_cases hnew : id = (s.storeRow job data existing).1
  · subst hnew
    obtain ⟨row, hrow, hsame⟩ := storeRow_row s job data existing
    exact ⟨row, hrow, hdata row hsame⟩
  · rw [storeRow_other s job data existing hnew]
    exact hsaved id ((List.mem_cons.1 hid).resolve_left hnew)

theorem Sound.store_kept (h : Sound cfg s) (job : FinalizeJob)
    (hdata : DataOk cfg path data.filePath data.encryptedFilePath)
    (hreach : SavesInReach s data existing) {p : String} (hrec : s.recorded p = some recording) :
    Kept cfg (s.storeRow job data existing).2 p recording := by
  have hkept := h.kept p recording hrec
  by_cases hp : p = data.filePath
  · have hsaved : (s.storeRow job data existing).2.savedRows p =
        (s.storeRow job data existing).1 :: s.savedRows p := if_pos hp
    unfold Kept
    rw [hsaved]
    rcases hkept with ⟨hdisk, hrows⟩ | ⟨hgone, hdisk, hrows⟩
    · refine .inl ⟨hdisk, storeRow_saved hrows ?_⟩
      intro row hrow
      rw [hrow, hp]
    · refine .inr ⟨hgone, hdisk, storeRow_saved hrows ?_⟩
      intro row hrow
      rw [hrow, hp, hdata.1]
      -- the plaintext is gone, so that the row is saved with its encryption
      refine hdata.2.resolve_left fun hnone => hreach.1 hnone ?_
      rw [← hp]
      exact hgone
  · have hsaved : (s.storeRow job data existing).2.savedRows p = s.savedRows p := if_neg hp
    have hnew := h.storeRow_id job hreach hrec hp
    unfold Kept
    rw [hsaved]
    have hsame : ∀ id ∈ s.savedRows p, (s.storeRow job data existing).2.rows id = s.rows id := by
      intro id hid
      refine storeRow_other s job data existing ?_
      rintro rfl
      exact hnew hid
    rcases hkept with ⟨hdisk, hrows⟩ | ⟨hgone, hdisk, hrows⟩
    · refine .inl ⟨hdisk, ?_⟩
      intro id hid
      rw [hsame id hid]
      exact hrows id hid
    · refine .inr ⟨hgone, hdisk, ?_⟩
      intro id hid
      rw [hsame id hid]
      exact hrows id hid

theorem PhaseOk.mono {rows rows' : Nat} {phase : FinalizePhase} (h : PhaseOk cfg rows path phase)
    (hle : rows ≤ rows') : PhaseOk cfg rows' path phase := by
  cases phase with
  | store ending data existing => exact ⟨h.1, fun id hid => Nat.lt_of_lt_of_le (h.2 id hid) hle⟩
  | _ => exact h

/-- A row is saved for the file of its job. -/
theorem Sound.store (h : Sound cfg s) (job : FinalizeJob)
    (hpath : path ∈ s.attempted)
    (hdata : DataOk cfg path data.filePath data.encryptedFilePath)
    (hexisting : ∀ id, existing = some id → id < s.nextRow) (hreach : SavesInReach s data existing) :
    Sound cfg (s.storeRow job data existing).2 := by
  have hle : s.nextRow ≤ (s.storeRow job data existing).2.nextRow := by
    simp only [Finalizer.storeRow]
    split
    · exact Nat.le_refl _
    · exact Nat.le_succ _
  have hid : (s.storeRow job data existing).1 < (s.storeRow job data existing).2.nextRow := by
    cases existing with
    | none => exact Nat.lt_succ_self _
    | some id => exact hexisting id rfl
  refine ⟨?_, h.noted, ?_, ?_, ?_⟩
  · intro p recording hrec
    exact h.store_kept job hdata hreach hrec
  · intro p hp
    have hother : p ≠ data.filePath := by
      rintro rfl
      rw [hdata.1] at hp
      exact hp hpath
    have hsaved : (s.storeRow job data existing).2.savedRows p = s.savedRows p := if_neg hother
    rw [hsaved]
    exact h.unattempted p hp
  · intro p id hmem
    by_cases hp : p = data.filePath
    · have hsaved : (s.storeRow job data existing).2.savedRows p =
          (s.storeRow job data existing).1 :: s.savedRows p := if_pos hp
      rw [hsaved] at hmem
      rcases List.mem_cons.1 hmem with rfl | hmem
      · exact hid
      · exact Nat.lt_of_lt_of_le (h.rows p id hmem) hle
    · have hsaved : (s.storeRow job data existing).2.savedRows p = s.savedRows p := if_neg hp
      rw [hsaved] at hmem
      exact Nat.lt_of_lt_of_le (h.rows p id hmem) hle
  · intro n sw hsw
    obtain ⟨hmem, hphase⟩ := h.sweeps n sw hsw
    exact ⟨hmem, hphase.mono hle⟩

/-! ## The steps of a sweep -/

section Next

variable {n : Nat} {sw : FinalizeSweep} {reply : Reply}

section Awaits
variable (h : Sound cfg s) (hpath : cfg.resolveLocalPath sw.job.recFile ∈ s.attempted)
include h hpath

theorem Sound.setPhase {phase : FinalizePhase}
    (hphase : PhaseOk cfg s.nextRow (cfg.resolveLocalPath sw.job.recFile) phase) :
    Sound cfg (s.setPhase n sw phase) := by
  refine h.setSweep ?_
  intro sw' hsw'
  obtain rfl := Option.some.inj hsw'
  exact ⟨hpath, hphase⟩

/-- The `catch` branch begins with a row without an encrypted file. -/
theorem Sound.thrown (message : String) : Sound cfg (s.thrown cfg n sw message) :=
  h.setPhase hpath ⟨rfl, .inl rfl⟩

theorem Sound.thrownAfter (ending : Ending) (message : String) :
    Sound cfg (s.thrownAfter cfg n sw ending message) := by
  cases ending with
  | missing _ =>
    refine h.setSweep ?_
    intro sw' hsw'
    cases hsw'
  | ready => exact h.thrown hpath message
  | zeroBytes => exact h.thrown hpath message

variable {work : Work}

theorem Sound.inspected (hwork : WorkOk cfg (cfg.resolveLocalPath sw.job.recFile) work) :
    Sound cfg (s.inspected n sw work) := by
  unfold Finalizer.inspected
  split
  · exact h.setPhase hpath ⟨hwork.1, .inl rfl⟩
  · exact h.setPhase hpath hwork

theorem Sound.encryptedMain (hwork : WorkOk cfg (cfg.resolveLocalPath sw.job.recFile) work)
    (now : Calls.Time) : Sound cfg (s.encryptedMain cfg n sw work now) := by
  unfold Finalizer.encryptedMain
  split
  · exact h.setPhase hpath ⟨hwork, by simp⟩
  · exact h.setPhase hpath hwork

/-- The awaits before the encryption: a playback variant is all that is written. -/
theorem Sound.next_inspect (hphase : sw.phase = .inspect) : Sound cfg (s.next cfg n sw reply) := by
  simp only [Finalizer.next, hphase]
  cases reply.error with
  | some message => exact h.thrown hpath message
  | none =>
    cases s.disk (cfg.resolveLocalPath sw.job.recFile) with
    | none => exact h.thrown hpath _
    | some content =>
      dsimp only
      cases (inspectLocalFile (cfg.resolveLocalPath sw.job.recFile) content).isRaw with
      | true => exact h.setPhase hpath rfl
      | false => exact h.inspected hpath ⟨rfl, .inl rfl⟩

section Encrypting
variable {source : String} {second : Bool} (hok : CarefulPhase cfg s reply sw.phase)
  (hwork : WorkOk cfg (cfg.resolveLocalPath sw.job.recFile) work ∧
    (second = false → source = cfg.resolveLocalPath sw.job.recFile))
include hok hwork

/-- The trailer is written: the output is the plaintext's own, or is foreign to all. -/
theorem Sound.next_trailer {content : Content}
    (hphase : sw.phase = .encryptTrailer work source second content) :
    Sound cfg (s.next cfg n sw reply) := by
  simp only [Finalizer.next, hphase]
  rw [hphase] at hok
  cases herror : reply.error with
  | some message => exact h.thrown hpath message
  | none =>
    have hsound := h.setTarget (hok herror)
      (some (if s.disk (cfg.resolveEncryptedFilePath source) = some (.ciphering n)
        then .encrypted content else .ciphering n))
    exact hsound.setPhase hpath hwork

/-- The output is opened, and is truncated even when the step throws. -/
theorem Sound.next_open (hphase : sw.phase = .encryptOpen work source second) :
    Sound cfg (s.next cfg n sw reply) := by
  rw [hphase] at hok
  have hsound := h.setTarget hok (some (.ciphering n))
  simp only [Finalizer.next, hphase]
  split
  · exact hsound.thrown hpath _
  · exact hsound.thrown hpath _
  · exact hsound.setPhase hpath hwork

/-- The plaintext is deleted. -/
theorem Sound.next_unlink (hphase : sw.phase = .encryptUnlink work source second) :
    Sound cfg (s.next cfg n sw reply) := by
  rw [hphase] at hok
  simp only [Finalizer.next, hphase]
  cases herror : reply.error with
  | some message => exact h.thrown hpath message
  | none =>
    have hcond := hok herror
    cases hsource : s.disk source with
    | none => exact h.thrown hpath _
    | some content =>
      dsimp only
      cases second with
      | true =>
        rw [if_pos rfl] at hcond ⊢
        have hsound := h.setForeign hcond none
        exact hsound.setPhase hpath hwork.1
      | false =>
        rw [if_neg Bool.false_ne_true] at hcond ⊢
        have hsound := h.unlink hcond hsource
        have hdone : WorkOk cfg (cfg.resolveLocalPath sw.job.recFile)
            { work with encrypted := some (cfg.resolveEncryptedFilePath source) } := by
          refine ⟨hwork.1.1, .inr ?_⟩
          rw [← hwork.2 rfl]
        exact hsound.encryptedMain hpath hdone reply.now

end Encrypting

end Awaits

/-- One await of a sweep. -/
theorem Sound.next (h : Sound cfg s) (hsw : s.sweeps n = some sw)
    (hok : CarefulPhase cfg s reply sw.phase) : Sound cfg (s.next cfg n sw reply) := by
  obtain ⟨hpath, hphaseOk⟩ := h.sweeps n sw hsw
  generalize hphase : sw.phase = phase at hphaseOk
  cases phase with
  | inspect => exact h.next_inspect hpath hphase
  | playbackStat file =>
    simp only [Finalizer.next, hphase]
    split
    · exact h.thrown hpath _
    · exact h.thrown hpath _
    · exact h.setPhase hpath hphaseOk
  | playbackHeader file =>
    rw [hphase] at hok
    simp only [Finalizer.next, hphase]
    split
    · exact (h.setForeign hok _).thrown hpath _
    · exact (h.setForeign hok _).setPhase hpath hphaseOk
  | playbackCopy file =>
    rw [hphase] at hok
    simp only [Finalizer.next, hphase]
    split
    · exact (h.setForeign hok _).thrown hpath _
    · exact (h.setForeign hok _).thrown hpath _
    · exact (h.setForeign hok _).setPhase hpath hphaseOk
  | playbackSize file =>
    simp only [Finalizer.next, hphase]
    split
    · exact h.thrown hpath _
    · exact h.inspected hpath ⟨hphaseOk, .inl rfl⟩
  | entitlement work =>
    simp only [Finalizer.next, hphase]
    split
    · exact h.thrown hpath _
    · split
      · exact h.setPhase hpath ⟨hphaseOk, fun _ => hphaseOk.1⟩
      · exact h.setPhase hpath hphaseOk
  | encryptPrepare work source second | encryptCopy work source second content =>
    simp only [Finalizer.next, hphase]
    split
    · exact h.thrown hpath _
    · exact h.setPhase hpath hphaseOk
  | encryptOpen work source second =>
    exact h.next_open hpath hok hphaseOk hphase
  | encryptTrailer work source second content =>
    exact h.next_trailer hpath hok hphaseOk hphase
  | encryptUnlink work source second =>
    exact h.next_unlink hpath hok hphaseOk hphase
  | retention ending data =>
    simp only [Finalizer.next, hphase]
    split
    · exact h.thrownAfter hpath ending _
    · exact h.setPhase hpath hphaseOk
  | find ending data =>
    simp only [Finalizer.next, hphase]
    split
    · exact h.thrownAfter hpath ending _
    · exact h.setPhase hpath ⟨hphaseOk, fun id hid => findRow_lt hid⟩
  | store ending data existing =>
    rw [hphase] at hok
    simp only [Finalizer.next, hphase]
    cases herror : reply.error with
    | some message => exact h.thrownAfter hpath ending message
    | none =>
      have hsound := h.store sw.job hpath hphaseOk.1 hphaseOk.2 (hok herror)
      exact hsound.setPhase hpath trivial
  | markSession ending recordingId =>
    simp only [Finalizer.next, hphase]
    split
    · exact h.thrownAfter hpath ending _
    · have hsound : Sound cfg { s with session := fun c =>
          if c = sw.job.callId then some (ending.sessionStatus reply.now) else s.session c } :=
        h.congr rfl rfl rfl rfl rfl rfl rfl
      exact hsound.setPhase hpath trivial
  | markJob ending recordingId =>
    simp only [Finalizer.next, hphase]
    split
    · exact h.thrownAfter hpath ending _
    · have hsound : Sound cfg (s.updateJob sw.job ending reply.now) :=
        h.congr rfl rfl rfl rfl rfl rfl rfl
      split
      · exact hsound.setPhase hpath trivial
      · exact hsound.startJob n sw.rest
  | publish recordingId =>
    simp only [Finalizer.next, hphase]
    split
    · exact h.thrown hpath _
    · have hsound : Sound cfg
          { s with published := s.published ++ [(sw.job.tenantId, recordingId)] } :=
        h.congr rfl rfl rfl rfl rfl rfl rfl
      exact hsound.startJob n sw.rest

end Next

theorem finalizeStep_sound {a : FinalizeAction} (h : Sound cfg s) (hok : Careful cfg s a) :
    Sound cfg (finalizeStep cfg s a) := by
  cases a with
  | enqueue tenantId callId linkedid recFile now => exact h.enqueue tenantId callId linkedid recFile now
  | reconcile ended now => exact h.reconcile ended now
  | sweep leader now =>
    simp only [finalizeStep, Finalizer.startSweep]
    split
    · have hsound : Sound cfg { s with nextSweep := s.nextSweep + 1 } :=
        h.congr rfl rfl rfl rfl rfl rfl rfl
      exact hsound.startJob s.nextSweep (dueJobs s.jobs now)
    · exact h
  | next n reply =>
    simp only [finalizeStep]
    cases hsw : s.sweeps n with
    | none => exact h
    | some sw => exact h.next hsw (hok sw hsw)

/-! ## Runs -/

/-- The tables are empty and no sweep runs. -/
def Finalizer.init (disk : String → Option Content) : Finalizer :=
  { disk := disk, rows := fun _ => none, nextRow := 0, jobs := [], nextJob := 0
    session := fun _ => none, published := [], sweeps := fun _ => none, nextSweep := 0
    attempted := [], recorded := fun _ => none, savedRows := fun _ => [] }

theorem init_sound (cfg : RecordingConfig) (disk : String → Option Content) :
    Sound cfg (Finalizer.init disk) := by
  constructor
  · intro path recording hrec
    cases hrec
  · intro path recording hrec
    cases hrec
  · intro path _
    rfl
  · intro path id hid
    cases hid
  · intro n sw hsw
    cases hsw

/-- In every run of enqueued jobs, overlapping sweeps and reconciliations, with anything
thrown at any await, whose steps are careful: every row saved for a recording that was
there at its first attempt names a file that holds it. -/
theorem recordings_within_reach (cfg : RecordingConfig) (disk : String → Option Content)
    (actions : List FinalizeAction)
    (hrun : Along (finalizeStep cfg) (Careful cfg) (Finalizer.init disk) actions)
    (pre post : List FinalizeAction) (hsplit : actions = pre ++ post) :
    WithinReach (pre.foldl (finalizeStep cfg) (Finalizer.init disk)) := by
  rw [hsplit] at hrun
  have hsound : Sound cfg (pre.foldl (finalizeStep cfg) (Finalizer.init disk)) :=
    hrun.take.invariant (fun _ _ hok hinv => finalizeStep_sound hinv hok) (init_sound cfg disk)
  exact hsound.withinReach

/-! ## One recording, encrypted -/

/-- The conditions of a step when only one file was attempted. -/
theorem ownOutput_sole (h : Sound cfg s) (hsole : s.attempted = [path]) (hthere : s.disk path ≠ none)
    (hname : cfg.resolveEncryptedFilePath path ≠ path) : OwnOutput cfg s path := by
  refine ⟨hthere, ?_⟩
  intro p recording hrec
  have hp := h.noted p recording hrec
  rw [hsole, List.mem_singleton] at hp
  subst hp
  exact ⟨hname, fun hne => absurd rfl hne⟩

theorem replaced_sole (h : Sound cfg s) (hsole : s.attempted = [path])
    (houtput : s.disk (cfg.resolveEncryptedFilePath path) = (s.disk path).map Content.encrypted)
    (hname : cfg.resolveEncryptedFilePath path ≠ path) (hunsaved : s.savedRows path = []) :
    Replaced cfg s path := by
  intro p recording hrec
  have hp := h.noted p recording hrec
  rw [hsole, List.mem_singleton] at hp
  subst hp
  refine ⟨hname.symm, fun _ => ⟨houtput, ?_⟩⟩
  intro id hid
  rw [hunsaved] at hid
  cases hid

theorem along_careful {a : FinalizeAction} {actions : List FinalizeAction} (h : Sound cfg s)
    (hok : Careful cfg s a) (hrest : Sound cfg (finalizeStep cfg s a) →
      Along (finalizeStep cfg) (Careful cfg) (finalizeStep cfg s a) actions) :
    Along (finalizeStep cfg) (Careful cfg) s (a :: actions) :=
  along_cons.2 ⟨hok, hrest (finalizeStep_sound h hok)⟩

theorem careful_next {n : Nat} {reply : Reply} (phase : FinalizePhase)
    (hphase : (s.sweeps n).map (·.phase) = some phase) (hok : CarefulPhase cfg s reply phase) :
    Careful cfg s (.next n reply) := by
  intro sw hsw
  rw [hsw] at hphase
  obtain rfl := Option.some.inj hphase
  exact hok

def exRecordings : RecordingConfig := ⟨some "/rec", none, true, "local-env", "/"⟩

def exRecFiles (path : String) : Option Content := if path = "/rec/a.wav" then some (.audio [7]) else none

def exReturns : Reply := ⟨none, true, 0, 0⟩

/-- A job is enqueued, and a sweep takes it through its thirteen awaits. -/
def exFinalized : List FinalizeAction :=
  [.enqueue "t" "c" "l" "a.wav" 0, .sweep true 0] ++ List.replicate 13 (.next 0 exReturns)

/-- The state before an await of the sweep. -/
def exBefore (n : Nat) : Finalizer :=
  (exFinalized.take (n + 2)).foldl (finalizeStep exRecordings) (Finalizer.init exRecFiles)

def exPath : String := "/rec/a.wav"

def exFile : InspectedFile := ⟨exPath, "a.wav", "wav", 1⟩

def exReady : RecordingData :=
  readyData exRecordings ⟨exFile, none, some "/rec/a.wav.enc", none⟩ 0

theorem exFinalized_careful :
    Along (finalizeStep exRecordings) (Careful exRecordings) (Finalizer.init exRecFiles) exFinalized := by
  have hname : exRecordings.resolveEncryptedFilePath exPath ≠ exPath := by with_unfolding_all decide
  refine along_careful (init_sound exRecordings exRecFiles) trivial fun h => ?_
  refine along_careful h trivial fun h => ?_
  refine along_careful h (careful_next .inspect (by decide) trivial) fun h => ?_
  refine along_careful h (careful_next (.entitlement ⟨exFile, none, none, none⟩)
    (by with_unfolding_all decide) trivial) fun h => ?_
  refine along_careful h (careful_next (.encryptPrepare ⟨exFile, none, none, none⟩ exPath false)
    (by with_unfolding_all decide) trivial) fun h => ?_
  -- the output is opened while the recording is there
  have hopen : OwnOutput exRecordings (exBefore 3) exPath :=
    ownOutput_sole h (by with_unfolding_all decide) (by with_unfolding_all decide) hname
  refine along_careful h (careful_next (.encryptOpen ⟨exFile, none, none, none⟩ exPath false)
    (by with_unfolding_all decide) hopen) fun h => ?_
  refine along_careful h (careful_next (.encryptCopy ⟨exFile, none, none, none⟩ exPath false (.audio [7]))
    (by with_unfolding_all decide) trivial) fun h => ?_
  have htrailer : OwnOutput exRecordings (exBefore 5) exPath :=
    ownOutput_sole h (by with_unfolding_all decide) (by with_unfolding_all decide) hname
  refine along_careful h (careful_next
    (.encryptTrailer ⟨exFile, none, none, none⟩ exPath false (.audio [7]))
    (by with_unfolding_all decide) fun _ => htrailer) fun h => ?_
  -- it goes when the output is complete and no row was saved
  have hunlink : Replaced exRecordings (exBefore 6) exPath :=
    replaced_sole h (by with_unfolding_all decide) (by with_unfolding_all decide) hname
      (by with_unfolding_all decide)
  refine along_careful h (careful_next (.encryptUnlink ⟨exFile, none, none, none⟩ exPath false)
    (by with_unfolding_all decide) fun _ => hunlink) fun h => ?_
  refine along_careful h (careful_next (.retention .ready exReady)
    (by with_unfolding_all decide) trivial) fun h => ?_
  refine along_careful h (careful_next (.find .ready exReady)
    (by with_unfolding_all decide) trivial) fun h => ?_
  -- a new row, with the encrypted file
  have hstore : SavesInReach (exBefore 9) exReady none := ⟨nofun, nofun⟩
  refine along_careful h (careful_next (.store .ready exReady none)
    (by with_unfolding_all decide) fun _ => hstore) fun h => ?_
  refine along_careful h (careful_next (.markSession .ready 0)
    (by with_unfolding_all decide) trivial) fun h => ?_
  refine along_careful h (careful_next (.markJob .ready 0)
    (by with_unfolding_all decide) trivial) fun h => ?_
  refine along_careful h (careful_next (.publish 0)
    (by with_unfolding_all decide) trivial) fun _ => ?_
  exact along_nil

/-- The recording is encrypted and published; its row names the encrypted file. -/
theorem recordings_within_reach_encrypted :
    (exBefore 13).savedRows exPath = [0] ∧ (exBefore 13).published = [("t", 0)] ∧
      (exBefore 13).disk exPath = none ∧ WithinReach (exBefore 13) :=
  ⟨by with_unfolding_all decide, by with_unfolding_all decide, by with_unfolding_all decide,
    recordings_within_reach exRecordings exRecFiles exFinalized exFinalized_careful exFinalized []
      (List.append_nil _).symm⟩

/-- The same job, and the retention policy cannot be read behind the encryption. The
`catch` branch saves a missing recording. -/
def exRetentionFails : List FinalizeAction :=
  [.enqueue "t" "c" "l" "a.wav" 0, .sweep true 0] ++ List.replicate 7 (.next 0 exReturns) ++
    .next 0 ⟨some "db", true, 0, 0⟩ :: List.replicate 3 (.next 0 exReturns)

/-- The row names the plaintext, which was deleted, and not its encryption. -/
theorem failed_retention_orphans :
    ¬ WithinReach (exRetentionFails.foldl (finalizeStep exRecordings) (Finalizer.init exRecFiles)) := by
  intro h
  obtain ⟨row, hrow, hrefers⟩ := h exPath (.audio [7]) (by with_unfolding_all decide) 0
    (by with_unfolding_all decide)
  have hmissing : (exRetentionFails.foldl (finalizeStep exRecordings) (Finalizer.init exRecFiles)).rows 0 =
      some ⟨"t", "c", "l", missingData exRecordings "a.wav" "db"⟩ := by with_unfolding_all decide
  have hgone : (exRetentionFails.foldl (finalizeStep exRecordings) (Finalizer.init exRecFiles)).disk
      (exRecordings.resolveLocalPath "a.wav") = none := by with_unfolding_all decide
  rw [hmissing] at hrow
  obtain rfl := Option.some.inj hrow
  rcases hrefers with hplain | ⟨path, hpath, -⟩
  · rcases hplain with hplain | hplain
    · exact absurd (hgone.symm.trans hplain) nofun
    · exact absurd (hgone.symm.trans hplain) nofun
  · exact absurd hpath nofun

end KasterCti.Recordings
