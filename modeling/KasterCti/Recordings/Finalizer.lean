import KasterCti.Calls.World
import KasterCti.Recordings.Files
import Mathlib.Data.List.Sort

/-!
# The recording finalizer

`RecordingFinalizerService.sweep` takes the due jobs and finalizes one after the
other: the file is inspected, a playback variant is made of a raw one, both are
encrypted when the tenant may, and the row of the recording is saved. A sweep is cut
at its awaits, any number of sweeps overlap, and every await may throw. The `catch`
branch of `finalizeJob` saves the row as missing and leaves the job for a retry.
`RecordingReconcileService` enqueues the missing ones again.
-/

namespace KasterCti.Recordings

open Calls (Time)

/-! ## Tables -/

inductive JobStatus
  | pending
  | retry
  | completed
  | failed
deriving DecidableEq

/-- A row of `recordingFinalizeJobs`, unique in tenant, linkedid and file. -/
structure FinalizeJob where
  recordingFinalizeJobId : Nat
  tenantId : String
  callId : String
  linkedid : String
  recFile : String
  status : JobStatus
  attempts : Nat
  nextAttemptAt : Time
  createdAt : Time
  lastError : Option String

inductive RecordingStatus
  | pending
  | ready
  | missing
  | failedZeroBytes
deriving DecidableEq

inductive EncryptionStatus
  | none
  | encrypted
deriving DecidableEq

/-- What `saveRecording` writes into a row. -/
structure RecordingData where
  filePath : String
  fileName : String
  fileFormat : String
  fileSizeBytes : Option Nat
  recordingStatus : RecordingStatus
  encryptionStatus : EncryptionStatus
  encryptedFilePath : Option String
  playbackFilePath : Option String
  encryptedPlaybackFilePath : Option String
  keyRef : Option String
  failureReason : Option String
  finalizedAt : Option Time
deriving DecidableEq

/-- A row of `callRecordings`. -/
structure RecordingRow where
  tenantId : String
  callId : String
  linkedid : String
  data : RecordingData
deriving DecidableEq

/-- The columns of `callSessions` that the finalizer writes. -/
inductive FinalizationStatus
  | finalized (at' : Time)
  | failed
  | retryPending

/-! ## A sweep -/

structure InspectedFile where
  filePath : String
  fileName : String
  fileFormat : String
  fileSizeBytes : Nat
deriving DecidableEq

/-- `inspectLocalFile`, of a file that is there. -/
def inspectLocalFile (filePath : String) (content : Content) : InspectedFile :=
  let fileName := PosixPath.basename filePath
  ⟨filePath, fileName, fileFormatOf fileName, content.size⟩

/-- A playback variant is made of it. -/
def InspectedFile.isRaw (file : InspectedFile) : Bool := file.fileFormat = "raw"

/-- How `finalizeJob` ends: with which row and which status of the job. -/
inductive Ending
  | ready
  | zeroBytes
  | missing (message : String)
deriving DecidableEq

def Ending.sessionStatus (now : Time) : Ending → FinalizationStatus
  | .ready => .finalized now
  | .zeroBytes => .failed
  | .missing _ => .retryPending

/-- The locals of `finalizeJob` behind the inspection. -/
structure Work where
  file : InspectedFile
  playback : Option String
  encrypted : Option String
  encryptedPlayback : Option String
deriving DecidableEq

/-- The await that a sweep is in. `second` says that `encryptFile` works on the
playback variant. -/
inductive FinalizePhase
  | inspect
  | playbackStat (file : InspectedFile)
  | playbackHeader (file : InspectedFile)
  | playbackCopy (file : InspectedFile)
  | playbackSize (file : InspectedFile)
  | entitlement (work : Work)
  | encryptPrepare (work : Work) (source : String) (second : Bool)
  | encryptOpen (work : Work) (source : String) (second : Bool)
  | encryptCopy (work : Work) (source : String) (second : Bool) (content : Content)
  | encryptTrailer (work : Work) (source : String) (second : Bool) (content : Content)
  | encryptUnlink (work : Work) (source : String) (second : Bool)
  | retention (ending : Ending) (data : RecordingData)
  | find (ending : Ending) (data : RecordingData)
  | store (ending : Ending) (data : RecordingData) (existing : Option Nat)
  | markSession (ending : Ending) (recordingId : Nat)
  | markJob (ending : Ending) (recordingId : Nat)
  | publish (recordingId : Nat)
deriving DecidableEq

structure FinalizeSweep where
  job : FinalizeJob
  /-- The jobs that follow. -/
  rest : List FinalizeJob
  phase : FinalizePhase

/-- How an await comes back. -/
structure Reply where
  /-- The message of what was thrown. -/
  error : Option String
  /-- The answer of the entitlement service. -/
  enabled : Bool
  /-- Which of the matching rows `findFirst` returns. -/
  pick : Nat
  now : Time
deriving DecidableEq

structure Finalizer where
  disk : String → Option Content
  rows : Nat → Option RecordingRow
  nextRow : Nat
  jobs : List FinalizeJob
  nextJob : Nat
  session : String → Option FinalizationStatus
  published : List (String × Nat)
  sweeps : Nat → Option FinalizeSweep
  nextSweep : Nat
  /-- The files for which an attempt has started. -/
  attempted : List String
  /-- What a file held when its first attempt started, if it held anything. -/
  recorded : String → Option Content
  /-- The rows that were saved for a file. -/
  savedRows : String → List Nat

inductive FinalizeAction
  | enqueue (tenantId callId linkedid recFile : String) (now : Time)
  /-- A sweep of `RecordingReconcileService`; `ended` are the calls that have ended. -/
  | reconcile (ended : List String) (now : Time)
  | sweep (leader : Bool) (now : Time)
  /-- The await the sweep is in comes back. -/
  | next (sweep : Nat) (reply : Reply)

def maxJobsPerSweep : Nat := 50

def FinalizeJob.isDue (job : FinalizeJob) (now : Time) : Bool :=
  (job.status = .pending || job.status = .retry) && job.nextAttemptAt ≤ now

/-- The order of the sweep: `nextAttemptAt`, then `createdAt`. -/
def FinalizeJob.before (a b : FinalizeJob) : Bool :=
  a.nextAttemptAt < b.nextAttemptAt ||
    (a.nextAttemptAt = b.nextAttemptAt && a.createdAt ≤ b.createdAt)

def dueJobs (jobs : List FinalizeJob) (now : Time) : List FinalizeJob :=
  ((jobs.filter (·.isDue now)).insertionSort (fun a b => a.before b = true)).take maxJobsPerSweep

def backoffMs (attempts : Nat) : Int := (min 60 (2 ^ (attempts - 1)) : Nat) * 60000

namespace Finalizer

def setFile (s : Finalizer) (path : String) (content : Option Content) : Finalizer :=
  { s with disk := fun p => if p = path then content else s.disk p }

def setSweep (s : Finalizer) (n : Nat) (sweep : Option FinalizeSweep) : Finalizer :=
  { s with sweeps := fun m => if m = n then sweep else s.sweeps m }

/-- `enqueueForRecording`. -/
def enqueue (s : Finalizer) (tenantId callId linkedid recFile : String) (now : Time) : Finalizer :=
  let same (job : FinalizeJob) : Bool :=
    job.tenantId = tenantId && job.linkedid = linkedid && job.recFile = recFile
  if s.jobs.any same then
    { s with
      jobs := s.jobs.map fun job =>
        if same job then
          { job with callId := callId, status := .pending, nextAttemptAt := now, lastError := none }
        else job }
  else
    { s with
      jobs := s.jobs ++ [⟨s.nextJob, tenantId, callId, linkedid, recFile, .pending, 0, now, now, none⟩]
      nextJob := s.nextJob + 1 }

/-- The rows that `RecordingReconcileService.sweep` finds. -/
def reconcilable (s : Finalizer) (ended : List String) : List RecordingRow :=
  (((List.range s.nextRow).filterMap s.rows).filter fun row =>
    (row.data.recordingStatus = .pending || row.data.recordingStatus = .missing) &&
      row.callId ∈ ended).take 100

def reconcile (s : Finalizer) (ended : List String) (now : Time) : Finalizer :=
  (s.reconcilable ended).foldl
    (fun s row => s.enqueue row.tenantId row.callId row.linkedid row.data.filePath now) s

/-- An attempt on the file starts. What the file holds is noted at the first one. -/
def attempt (s : Finalizer) (path : String) : Finalizer :=
  if path ∈ s.attempted then s
  else
    { s with
      attempted := path :: s.attempted
      recorded := fun p =>
        if p = path then (s.disk path).filter (0 < ·.size) else s.recorded p }

/-- The sweep goes on to its next job. -/
def startJob (s : Finalizer) (cfg : RecordingConfig) (n : Nat) : List FinalizeJob → Finalizer
  | [] => s.setSweep n none
  | job :: rest =>
    (s.attempt (cfg.resolveLocalPath job.recFile)).setSweep n (some ⟨job, rest, .inspect⟩)

def startSweep (s : Finalizer) (cfg : RecordingConfig) (leader : Bool) (now : Time) : Finalizer :=
  if leader then
    { s with nextSweep := s.nextSweep + 1 }.startJob cfg s.nextSweep (dueJobs s.jobs now)
  else s

end Finalizer

/-! ## The rows that are saved -/

def readyData (cfg : RecordingConfig) (work : Work) (now : Time) : RecordingData :=
  { filePath := work.file.filePath, fileName := work.file.fileName, fileFormat := work.file.fileFormat
    fileSizeBytes := some work.file.fileSizeBytes, recordingStatus := .ready
    encryptionStatus := if work.encrypted.isSome then .encrypted else .none
    encryptedFilePath := work.encrypted, playbackFilePath := work.playback
    encryptedPlaybackFilePath := work.encryptedPlayback
    keyRef := if work.encrypted.isSome then some cfg.keyRef else none
    failureReason := none, finalizedAt := some now }

def zeroBytesData (work : Work) : RecordingData :=
  { filePath := work.file.filePath, fileName := work.file.fileName, fileFormat := work.file.fileFormat
    fileSizeBytes := some 0, recordingStatus := .failedZeroBytes, encryptionStatus := .none
    encryptedFilePath := none, playbackFilePath := work.playback, encryptedPlaybackFilePath := none
    keyRef := none, failureReason := some "recording file has zero bytes", finalizedAt := none }

/-- What the `catch` branch saves, whatever was thrown and wherever. -/
def missingData (cfg : RecordingConfig) (recFile message : String) : RecordingData :=
  { filePath := cfg.resolveLocalPath recFile, fileName := fileNameFromRecFile recFile
    fileFormat := fileFormatFromRecFile recFile, fileSizeBytes := none, recordingStatus := .missing
    encryptionStatus := .none, encryptedFilePath := none, playbackFilePath := none
    encryptedPlaybackFilePath := none, keyRef := none
    failureReason := some ("recording file not found or unreadable: " ++ message)
    finalizedAt := none }

/-- The `where` of `saveRecording`. -/
def sameRecording (job : FinalizeJob) (data : RecordingData) (row : RecordingRow) : Bool :=
  row.tenantId = job.tenantId && row.callId = job.callId &&
    (row.data.filePath = data.filePath || row.data.fileName = data.fileName)

/-! ## The steps of a sweep -/

namespace Finalizer

def setPhase (s : Finalizer) (n : Nat) (sw : FinalizeSweep) (phase : FinalizePhase) : Finalizer :=
  s.setSweep n (some { sw with phase := phase })

/-- Something is thrown in the `try` block. -/
def thrown (s : Finalizer) (cfg : RecordingConfig) (n : Nat) (sw : FinalizeSweep) (message : String) :
    Finalizer :=
  s.setPhase n sw (.retention (.missing message) (missingData cfg sw.job.recFile message))

/-- Something is thrown when the row is saved: in the `catch` branch it ends the whole
sweep. -/
def thrownAfter (s : Finalizer) (cfg : RecordingConfig) (n : Nat) (sw : FinalizeSweep)
    (ending : Ending) (message : String) : Finalizer :=
  match ending with
  | .missing _ => s.setSweep n none
  | _ => s.thrown cfg n sw message

/-- Behind the playback variant: an empty file is reported, another one goes on. -/
def inspected (s : Finalizer) (n : Nat) (sw : FinalizeSweep) (work : Work) : Finalizer :=
  if work.file.fileSizeBytes = 0 then s.setPhase n sw (.retention .zeroBytes (zeroBytesData work))
  else s.setPhase n sw (.entitlement work)

/-- Behind the encryption of the recording: the playback variant, then the row. -/
def encryptedMain (s : Finalizer) (cfg : RecordingConfig) (n : Nat) (sw : FinalizeSweep) (work : Work)
    (now : Time) : Finalizer :=
  match work.playback with
  | some path => s.setPhase n sw (.encryptPrepare work path true)
  | none => s.setPhase n sw (.retention .ready (readyData cfg work now))

def findRow (s : Finalizer) (job : FinalizeJob) (data : RecordingData) (pick : Nat) : Option Nat :=
  let found := (List.range s.nextRow).filter fun id => (s.rows id).any (sameRecording job data)
  found[pick]? <|> found.head?

/-- `callRecordings.update` or `create`. -/
def storeRow (s : Finalizer) (job : FinalizeJob) (data : RecordingData) (existing : Option Nat) :
    Nat × Finalizer :=
  let id := existing.getD s.nextRow
  let row : RecordingRow := match existing.bind s.rows with
    | some row => { row with data := data }
    | none => ⟨job.tenantId, job.callId, job.linkedid, data⟩
  (id, { s with
    rows := fun r => if r = id then some row else s.rows r
    nextRow := if existing.isSome then s.nextRow else s.nextRow + 1
    savedRows := fun p => if p = data.filePath then id :: s.savedRows p else s.savedRows p })

def updateJob (s : Finalizer) (job : FinalizeJob) (ending : Ending) (now : Time) : Finalizer :=
  { s with
    jobs := s.jobs.map fun j =>
      if j.recordingFinalizeJobId = job.recordingFinalizeJobId then
        match ending with
        | .ready => { j with status := .completed, attempts := job.attempts + 1, lastError := none }
        | .zeroBytes =>
          { j with
            status := .failed, attempts := job.attempts + 1
            lastError := some "recording file has zero bytes" }
        | .missing message =>
          { j with
            status := .retry, attempts := job.attempts + 1
            nextAttemptAt := now + backoffMs (job.attempts + 1)
            lastError := some (String.ofList (message.toList.take 2000)) }
      else j }

/-- A file that is not there. -/
def enoent (path : String) : String := "ENOENT: no such file or directory, open '" ++ path ++ "'"

def next (s : Finalizer) (cfg : RecordingConfig) (n : Nat) (sw : FinalizeSweep) (reply : Reply) :
    Finalizer :=
  let path := cfg.resolveLocalPath sw.job.recFile
  match sw.phase with
  | .inspect =>
    match reply.error, s.disk path with
    | some message, _ => s.thrown cfg n sw message
    | none, none => s.thrown cfg n sw (enoent path)
    | none, some content =>
      let file := inspectLocalFile path content
      if file.isRaw then s.setPhase n sw (.playbackStat file)
      else s.inspected n sw ⟨file, none, none, none⟩
  | .playbackStat file =>
    match reply.error, s.disk file.filePath with
    | some message, _ => s.thrown cfg n sw message
    | none, none => s.thrown cfg n sw (enoent file.filePath)
    | none, some _ => s.setPhase n sw (.playbackHeader file)
  -- `writeFile` truncates before it writes
  | .playbackHeader file =>
    let s := s.setFile (playbackPathOf file.filePath) (some (.playback wavHeaderBytes))
    match reply.error with
    | some message => s.thrown cfg n sw message
    | none => s.setPhase n sw (.playbackCopy file)
  | .playbackCopy file =>
    let content := s.disk file.filePath
    let size := (content.map Content.size).getD 0
    let s := s.setFile (playbackPathOf file.filePath) (some (.playback (wavHeaderBytes + size)))
    match reply.error, content with
    | some message, _ => s.thrown cfg n sw message
    | none, none => s.thrown cfg n sw (enoent file.filePath)
    | none, some _ => s.setPhase n sw (.playbackSize file)
  | .playbackSize file =>
    match reply.error with
    | some message => s.thrown cfg n sw message
    | none => s.inspected n sw ⟨file, some (playbackPathOf file.filePath), none, none⟩
  | .entitlement work =>
    match reply.error with
    | some message => s.thrown cfg n sw message
    | none =>
      if reply.enabled && cfg.encryptionEnabled then
        s.setPhase n sw (.encryptPrepare work work.file.filePath false)
      else s.setPhase n sw (.retention .ready (readyData cfg work reply.now))
  -- the key is loaded and the directory is made
  | .encryptPrepare work source second =>
    match reply.error with
    | some message => s.thrown cfg n sw message
    | none => s.setPhase n sw (.encryptOpen work source second)
  -- the output is truncated also when there is nothing to read
  | .encryptOpen work source second =>
    let content := s.disk source
    let s := s.setFile (cfg.resolveEncryptedFilePath source) (some (.ciphering n))
    match reply.error, content with
    | some message, _ => s.thrown cfg n sw message
    | none, none => s.thrown cfg n sw (enoent source)
    | none, some content => s.setPhase n sw (.encryptCopy work source second content)
  | .encryptCopy work source second content =>
    match reply.error with
    | some message => s.thrown cfg n sw message
    | none => s.setPhase n sw (.encryptTrailer work source second content)
  -- the trailer completes what this sweep has written, and spoils anything else
  | .encryptTrailer work source second content =>
    match reply.error with
    | some message => s.thrown cfg n sw message
    | none =>
      let target := cfg.resolveEncryptedFilePath source
      let output := if s.disk target = some (.ciphering n) then .encrypted content else .ciphering n
      (s.setFile target (some output)).setPhase n sw (.encryptUnlink work source second)
  | .encryptUnlink work source second =>
    match reply.error, s.disk source with
    | some message, _ => s.thrown cfg n sw message
    | none, none => s.thrown cfg n sw (enoent source)
    | none, some _ =>
      let target := cfg.resolveEncryptedFilePath source
      let s := s.setFile source none
      if second then
        let work := { work with encryptedPlayback := some target }
        s.setPhase n sw (.retention .ready (readyData cfg work reply.now))
      else s.encryptedMain cfg n sw { work with encrypted := some target } reply.now
  | .retention ending data =>
    match reply.error with
    | some message => s.thrownAfter cfg n sw ending message
    | none => s.setPhase n sw (.find ending data)
  | .find ending data =>
    match reply.error with
    | some message => s.thrownAfter cfg n sw ending message
    | none => s.setPhase n sw (.store ending data (s.findRow sw.job data reply.pick))
  | .store ending data existing =>
    match reply.error with
    | some message => s.thrownAfter cfg n sw ending message
    | none =>
      let stored := s.storeRow sw.job data existing
      stored.2.setPhase n sw (.markSession ending stored.1)
  | .markSession ending recordingId =>
    match reply.error with
    | some message => s.thrownAfter cfg n sw ending message
    | none =>
      let s := { s with session := fun c =>
        if c = sw.job.callId then some (ending.sessionStatus reply.now) else s.session c }
      s.setPhase n sw (.markJob ending recordingId)
  | .markJob ending recordingId =>
    match reply.error with
    | some message => s.thrownAfter cfg n sw ending message
    | none =>
      let s := s.updateJob sw.job ending reply.now
      match ending with
      | .ready => s.setPhase n sw (.publish recordingId)
      | _ => s.startJob cfg n sw.rest
  | .publish recordingId =>
    match reply.error with
    | some message => s.thrown cfg n sw message
    | none => { s with published := s.published ++ [(sw.job.tenantId, recordingId)] }.startJob cfg n sw.rest

end Finalizer

def finalizeStep (cfg : RecordingConfig) (s : Finalizer) : FinalizeAction → Finalizer
  | .enqueue tenantId callId linkedid recFile now => s.enqueue tenantId callId linkedid recFile now
  | .reconcile ended now => s.reconcile ended now
  | .sweep leader now => s.startSweep cfg leader now
  | .next n reply =>
    match s.sweeps n with
    | none => s
    | some sw => s.next cfg n sw reply

end KasterCti.Recordings
