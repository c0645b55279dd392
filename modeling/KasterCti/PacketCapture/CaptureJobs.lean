import KasterCti.PacketCapture.CaptureFilter
import KasterCti.Recordings.Files
import Mathlib

/-!
# Packet capture jobs

`PacketCaptureService` for one tenant on any number of nodes, with the capture agent of each
node and the files that they share. The calls are cut at their awaits and interleave in any
way. The clock is left out: a timer may fire at any time once it is set, and the sweep may
take any job for overdue.

Results:
1. `isRunning_updateJob`, `isRunning_insertJob`: which jobs are RUNNING behind a write.
2. `statusOf_updateJob`: the states of the other jobs stay.
3. `captured_jobs_kept`: no job is lost, changes what it records, or runs again.
-/

namespace KasterCti.PacketCapture

open JsText
open Recordings (RecordingConfig)

inductive CaptureStatus
  | running
  | completed
  | failed
deriving DecidableEq

/-- A row of `packetCaptureJobs`. Its id is its place in the table. -/
structure CaptureJob where
  nodeId : Nat
  status : CaptureStatus
  input : CaptureInput
  filePath : String
  encryptedFilePath : Option String
deriving DecidableEq

/-- What a file holds. -/
inductive Content
  /-- What `dumpcap` has written. -/
  | capture (bytes : List UInt8)
  /-- What the call has encrypted so far, without a trailer. -/
  | ciphering (call : Nat)
  | encrypted (inner : Content)
deriving DecidableEq

structure CaptureConfig where
  /-- `PACKET_CAPTURE_ENABLED` is `'true'`. -/
  hardEnabled : Bool
  /-- `PACKET_CAPTURE_STORAGE_ROOT`. -/
  storageRoot : String
  defaultInterface : String
  maxDurationSeconds : Int
  tenantId : String
  /-- What `RecordingEncryptionService` reads. -/
  recordings : RecordingConfig

namespace CaptureConfig

/-- `capture-<stamp>-<tenant>.pcap`, from the ISO text of `startedAt`. -/
@[irreducible] def outputPath (cfg : CaptureConfig) (startedAt : String) : String :=
  let stamp := startedAt.toList.map fun c => if c = ':' || c = '.' then '-' else c
  PosixPath.join cfg.storageRoot
    ("capture-" ++ String.ofList stamp ++ "-" ++ String.ofList (cfg.tenantId.toList.take 8) ++ ".pcap")

/-- The file that `encryptFile` writes. -/
def target (cfg : CaptureConfig) (filePath : String) : String :=
  cfg.recordings.resolveEncryptedFilePath filePath

end CaptureConfig

/-! ## The checks of a start -/

inductive CaptureError
  | forbidden (message : String)
  | serviceUnavailable (message : String)
  | badRequest (message : String)

/-- What the gates in front of the search read. -/
structure StartGates where
  entitled : Bool
  packetCaptureEnabled : Option Bool
  isLeader : Bool

def passGates (cfg : CaptureConfig) (gates : StartGates) : Except CaptureError Unit := do
  if !gates.entitled then
    throw (.forbidden "이 테넌트에는 \"패킷 캡처\" 기능이 열려 있지 않습니다.")
  if !cfg.hardEnabled then
    throw (.forbidden "이 서버에서 패킷 캡처가 비활성화돼 있습니다 (PACKET_CAPTURE_ENABLED)")
  if !gates.packetCaptureEnabled.getD false then
    throw (.forbidden "패킷 캡처가 꺼져 있습니다. 시스템 설정에서 먼저 켜주세요")
  if !gates.isLeader then
    throw (.serviceUnavailable "이 노드는 리더가 아니라 캡처를 시작할 수 없습니다")

/-- The checks behind `listInterfaces`. -/
def checkInput (cfg : CaptureConfig) (interfaces : List String) (input : StartCaptureInput) :
    Except CaptureError CaptureInput := do
  if interfaces = [] then
    throw (.serviceUnavailable
      "캡처 가능한 인터페이스가 없습니다. capture-agent 컨테이너와 NET_RAW 권한을 확인하세요")
  (validateInput cfg.defaultInterface cfg.maxDurationSeconds interfaces input).mapError .badRequest

/-! ## Calls -/

/-- The await that a `settleJob` has come to, behind the search for its job. -/
inductive SettlePhase
  | status
  | stat
  | hash
  /-- The directory of the encrypted file is made. -/
  | prepare
  | opening
  | copy (content : Content)
  | trailer (content : Content)
  | unlink
  /-- `update` to COMPLETED. -/
  | save (encryptedFilePath : Option String)
  /-- `markEnded` as FAILED. -/
  | fail

inductive CaptureCall
  /-- The search of `startCapture` for a RUNNING job. -/
  | search (node : Nat) (input : StartCaptureInput)
  | interfaces (node : Nat) (input : StartCaptureInput)
  | create (node : Nat) (input : CaptureInput) (outputPath : String)
  /-- `POST /start`. -/
  | request (job : Nat)
  /-- `markEnded` of a job whose start was refused. -/
  | refuse (job : Nat)
  /-- The search of `stopCapture` for its job. -/
  | lookup (node job : Nat)
  /-- `POST /stop`. -/
  | stop (node job : Nat)
  /-- The search of `settleJob` for its job. -/
  | find (node job : Nat)
  | settle (node job : Nat) (filePath : String) (phase : SettlePhase)

/-- How an await comes back. -/
structure CaptureReply where
  ok : Bool
  interfaces : List String
  startedAt : String

/-- The request for a job on its way to the agent. -/
inductive AgentRequest
  | unsent
  | posted
  | taken
deriving DecidableEq

structure CaptureState where
  jobs : List CaptureJob
  calls : Nat → Option CaptureCall
  nextCall : Nat
  /-- `settleTimers` of each node. -/
  settleTimers : Nat → Nat → Bool
  requests : Nat → AgentRequest
  /-- The job whose `dumpcap` the agent of a node runs. -/
  running : Nat → Option Nat
  /-- What was captured for a job. -/
  captured : Nat → List UInt8
  disk : String → Option Content

inductive CaptureAction
  | startCapture (node : Nat) (input : StartCaptureInput) (gates : StartGates)
  | stopCapture (node job : Nat)
  | timer (node job : Nat)
  | sweep (node job : Nat)
  | next (call : Nat) (reply : CaptureReply)
  /-- The agent takes up a request. `dumpcap` may fail to open its output. -/
  | take (node job : Nat) (opened : Bool)
  | packets (node : Nat) (bytes : List UInt8)
  | exit (node : Nat)

namespace CaptureState

def setCall (s : CaptureState) (n : Nat) (call : Option CaptureCall) : CaptureState :=
  { s with calls := fun m => if m = n then call else s.calls m }

def begin (s : CaptureState) (call : CaptureCall) : CaptureState :=
  { s with nextCall := s.nextCall + 1 }.setCall s.nextCall (some call)

def setTimer (s : CaptureState) (node job : Nat) (set : Bool) : CaptureState :=
  { s with settleTimers := fun m j => if m = node ∧ j = job then set else s.settleTimers m j }

def setFile (s : CaptureState) (path : String) (content : Option Content) : CaptureState :=
  { s with disk := fun p => if p = path then content else s.disk p }

def setRequest (s : CaptureState) (job : Nat) (request : AgentRequest) : CaptureState :=
  { s with requests := fun j => if j = job then request else s.requests j }

def setRunning (s : CaptureState) (node : Nat) (job : Option Nat) : CaptureState :=
  { s with running := fun m => if m = node then job else s.running m }

def setCaptured (s : CaptureState) (job : Nat) (bytes : List UInt8) : CaptureState :=
  { s with captured := fun j => if j = job then bytes else s.captured j }

def updateJob (s : CaptureState) (job : Nat) (update : CaptureJob → CaptureJob) : CaptureState :=
  { s with jobs := s.jobs.modify job update }

/-- `markEnded` as FAILED. The state of the row before is not looked at. -/
def markFailed (s : CaptureState) (job : Nat) : CaptureState :=
  s.updateJob job fun row => { row with status := .failed }

def complete (s : CaptureState) (job : Nat) (encryptedFilePath : Option String) : CaptureState :=
  s.updateJob job fun row => { row with status := .completed, encryptedFilePath }

def statusOf (s : CaptureState) (job : Nat) : Option CaptureStatus := s.jobs[job]?.map (·.status)

def isRunning (s : CaptureState) (job : Nat) : Bool := s.statusOf job = some .running

/-- `INSERT` of a job, and the request that goes to the agent. -/
def insertJob (s : CaptureState) (job : CaptureJob) : CaptureState :=
  { s with jobs := s.jobs ++ [job] }.setRequest s.jobs.length .posted

/-! ## Settling a job -/

/-- One await of `settleJob`. `encryptFile` begins with `prepare`; its output is truncated
also when there is nothing to read. -/
def settleNext (cfg : CaptureConfig) (s : CaptureState) (n node job : Nat) (filePath : String)
    (reply : CaptureReply) : SettlePhase → CaptureState
  | .status =>
    -- without a status the job is taken for ended
    if reply.ok && s.running node = some job then s.setCall n none
    else s.setCall n (some (.settle node job filePath .stat))
  | .stat =>
    s.setCall n (some (.settle node job filePath
      (if reply.ok && (s.disk filePath).isSome then .hash else .fail)))
  | .hash =>
    s.setCall n (some (.settle node job filePath
      (if reply.ok && (s.disk filePath).isSome then
        if cfg.recordings.encryptionEnabled then .prepare else .save none
      else .fail)))
  | .prepare =>
    s.setCall n (some (.settle node job filePath (if reply.ok then .opening else .fail)))
  | .opening =>
    (s.setFile (cfg.target filePath) (some (.ciphering n))).setCall n
      (some (.settle node job filePath
        (match reply.ok, s.disk filePath with
        | true, some content => .copy content
        | _, _ => .fail)))
  | .copy content =>
    -- what `dumpcap` writes in the meantime is read as well
    s.setCall n (some (.settle node job filePath
      (if reply.ok then .trailer ((s.disk filePath).getD content) else .fail)))
  | .trailer content =>
    if reply.ok then
      -- the trailer completes what this call has written, and spoils anything else
      (s.setFile (cfg.target filePath) (some
        (if s.disk (cfg.target filePath) = some (.ciphering n) then .encrypted content
        else .ciphering n))).setCall n (some (.settle node job filePath .unlink))
    else s.setCall n (some (.settle node job filePath .fail))
  | .unlink =>
    if reply.ok && (s.disk filePath).isSome then
      (s.setFile filePath none).setCall n
        (some (.settle node job filePath (.save (some (cfg.target filePath)))))
    else s.setCall n (some (.settle node job filePath .fail))
  | .save encryptedFilePath =>
    if reply.ok then (s.complete job encryptedFilePath).setCall n none
    else s.setCall n (some (.settle node job filePath .fail))
  | .fail => if reply.ok then (s.markFailed job).setCall n none else s.setCall n none

/-! ## Steps -/

def next (cfg : CaptureConfig) (s : CaptureState) (n : Nat) (reply : CaptureReply) :
    CaptureCall → CaptureState
  | .search node input =>
    if reply.ok && !s.jobs.any (·.status = .running) then s.setCall n (some (.interfaces node input))
    else s.setCall n none
  | .interfaces node input =>
    s.setCall n ((checkInput cfg reply.interfaces input).toOption.map fun valid =>
      .create node valid (cfg.outputPath reply.startedAt))
  | .create node input outputPath =>
    if reply.ok then
      (s.insertJob ⟨node, .running, input, outputPath, none⟩).setCall n (some (.request s.jobs.length))
    else s.setCall n none
  | .request job =>
    if reply.ok && s.requests job = .taken then
      match s.jobs[job]? with
      | some row => (s.setTimer row.nodeId job true).setCall n none
      | none => s.setCall n none
    else s.setCall n (some (.refuse job))
  | .refuse job => if reply.ok then (s.markFailed job).setCall n none else s.setCall n none
  | .lookup node job =>
    s.setCall n (if reply.ok && s.isRunning job then some (.stop node job) else none)
  -- a refusal of the agent is swallowed
  | .stop node job => (s.setTimer node job true).setCall n none
  | .find node job =>
    match reply.ok && s.isRunning job, s.jobs[job]? with
    | true, some row => s.setCall n (some (.settle node job row.filePath .status))
    | _, _ => s.setCall n none
  | .settle node job filePath phase => s.settleNext cfg n node job filePath reply phase

/-- The agent starts `dumpcap` unless one is running; the output is empty at first. -/
def take (s : CaptureState) (node job : Nat) (opened : Bool) : CaptureState :=
  match s.jobs[job]? with
  | some row =>
    if row.nodeId = node ∧ s.requests job = .posted ∧ s.running node = none then
      let s := s.setRequest job .taken
      if opened then
        ((s.setRunning node (some job)).setCaptured job []).setFile row.filePath (some (.capture []))
      else s
    else s
  | none => s

/-- `dumpcap` writes on, where its output is still there. -/
def packets (s : CaptureState) (node : Nat) (bytes : List UInt8) : CaptureState :=
  match s.running node with
  | some job =>
    match s.jobs[job]? with
    | some row =>
      let s := s.setCaptured job (s.captured job ++ bytes)
      match s.disk row.filePath with
      | some (.capture written) => s.setFile row.filePath (some (.capture (written ++ bytes)))
      | _ => s
    | none => s
  | none => s

end CaptureState

def captureStep (cfg : CaptureConfig) (s : CaptureState) : CaptureAction → CaptureState
  | .startCapture node input gates =>
    match passGates cfg gates with
    | .ok _ => s.begin (.search node input)
    | .error _ => s
  | .stopCapture node job => s.begin (.lookup node job)
  | .timer node job =>
    if s.settleTimers node job then (s.setTimer node job false).begin (.find node job) else s
  | .sweep node job => (s.setTimer node job false).begin (.find node job)
  | .next n reply =>
    match s.calls n with
    | some call => s.next cfg n reply call
    | none => s
  | .take node job opened => s.take node job opened
  | .packets node bytes => s.packets node bytes
  | .exit node => s.setRunning node none

def noCaptures : CaptureState :=
  ⟨[], fun _ => none, 0, fun _ _ => false, fun _ => .unsent, fun _ => none, fun _ => [], fun _ => none⟩

/-! ## The table of jobs -/

namespace CaptureState

variable {s : CaptureState} {job other : Nat} {row : CaptureJob} {update : CaptureJob → CaptureJob}

theorem isRunning_iff :
    s.isRunning job = true ↔ ∃ row, s.jobs[job]? = some row ∧ row.status = .running := by
  simp [isRunning, statusOf]

theorem isRunning_of_status (h : s.jobs[job]? = some row) :
    s.isRunning job = true ↔ row.status = .running := by
  rw [isRunning_iff, h]
  simp

theorem updateJob_self (h : s.jobs[job]? = some row) :
    (s.updateJob job update).jobs[job]? = some (update row) := by
  simp [updateJob, h]

theorem updateJob_other (h : other ≠ job) :
    (s.updateJob job update).jobs[other]? = s.jobs[other]? := by
  simp [updateJob, h.symm]

theorem statusOf_updateJob (h : other ≠ job) :
    (s.updateJob job update).statusOf other = s.statusOf other := by
  unfold statusOf
  rw [updateJob_other h]

theorem isRunning_updateJob (h : other ≠ job) :
    (s.updateJob job update).isRunning other = s.isRunning other := by
  unfold isRunning
  rw [statusOf_updateJob h]

/-- A job that is updated to another state runs no more. -/
theorem not_isRunning_updateJob (hupdate : ∀ row, (update row).status ≠ .running) :
    (s.updateJob job update).isRunning job = false := by
  rw [Bool.eq_false_iff]
  intro h
  obtain ⟨row, hrow, hstatus⟩ := isRunning_iff.mp h
  simp only [updateJob, List.getElem?_modify, if_true, Option.map_eq_map, Option.map_eq_some_iff]
    at hrow
  obtain ⟨old, -, rfl⟩ := hrow
  exact hupdate old hstatus

theorem insertJob_old (h : job < s.jobs.length) : (s.insertJob row).jobs[job]? = s.jobs[job]? :=
  List.getElem?_append_left h

theorem insertJob_new : (s.insertJob row).jobs[s.jobs.length]? = some row :=
  List.getElem?_concat_length

theorem insertJob_cases {other : CaptureJob} (h : (s.insertJob row).jobs[job]? = some other) :
    s.jobs[job]? = some other ∨ job = s.jobs.length ∧ other = row := by
  rcases Nat.lt_trichotomy job s.jobs.length with hlt | rfl | hgt
  · exact .inl ((insertJob_old hlt).symm.trans h)
  · exact .inr ⟨rfl, (Option.some.inj (insertJob_new.symm.trans h)).symm⟩
  · have hnone : (s.insertJob row).jobs[job]? = none := by
      simp only [insertJob, setRequest, List.getElem?_eq_none_iff, List.length_append,
        List.length_singleton]
      omega
    rw [hnone] at h
    cases h

end CaptureState

/-! ## What no step undoes -/

/-- A job keeps what it was started with, and runs no more once it has ended. -/
structure CaptureJob.Onward (row row' : CaptureJob) : Prop where
  nodeId : row'.nodeId = row.nodeId
  input : row'.input = row.input
  filePath : row'.filePath = row.filePath
  ended : row.status ≠ .running → row'.status ≠ .running

def Kept (s s' : CaptureState) : Prop :=
  ∀ (job : Nat) (row : CaptureJob), s.jobs[job]? = some row →
    ∃ row', s'.jobs[job]? = some row' ∧ row.Onward row'

variable {cfg : CaptureConfig} {s s' : CaptureState} {job n : Nat} {reply : CaptureReply}

theorem kept_of_jobs (h : s'.jobs = s.jobs) : Kept s s' :=
  fun _ row hrow => ⟨row, h ▸ hrow, rfl, rfl, rfl, id⟩

theorem kept_updateJob {update : CaptureJob → CaptureJob}
    (h : ∀ row : CaptureJob, row.Onward (update row)) : Kept s (s.updateJob job update) := by
  intro other row hrow
  by_cases hother : other = job
  · exact ⟨update row, hother ▸ CaptureState.updateJob_self (hother ▸ hrow), h row⟩
  · exact ⟨row, (CaptureState.updateJob_other hother).trans hrow, rfl, rfl, rfl, id⟩

theorem kept_settle {node : Nat} {filePath : String} (phase : SettlePhase) :
    Kept s (s.settleNext cfg n node job filePath reply phase) := by
  unfold CaptureState.settleNext
  split <;> (repeat' split) <;>
    first
    | exact kept_of_jobs rfl
    | exact kept_updateJob fun _ => ⟨rfl, rfl, rfl, fun _ => nofun⟩

theorem kept_next (call : CaptureCall) : Kept s (s.next cfg n reply call) := by
  unfold CaptureState.next
  split <;> (repeat' split) <;>
    first
    | exact kept_of_jobs rfl
    | exact kept_settle _
    | exact kept_updateJob fun _ => ⟨rfl, rfl, rfl, fun _ => nofun⟩
    | exact fun _ row hrow => ⟨row, (CaptureState.insertJob_old
        (List.getElem?_eq_some_iff.mp hrow).1).trans hrow, rfl, rfl, rfl, id⟩

theorem kept_captureStep (action : CaptureAction) : Kept s (captureStep cfg s action) := by
  unfold captureStep CaptureState.take CaptureState.packets
  split <;> (repeat' split) <;>
    first
    | exact kept_of_jobs rfl
    | exact kept_next _
    | dsimp only; split <;> exact kept_of_jobs rfl

theorem captured_jobs_kept (cfg : CaptureConfig) (s : CaptureState) (actions : List CaptureAction) :
    Kept s (actions.foldl (captureStep cfg) s) := by
  induction actions generalizing s with
  | nil => exact kept_of_jobs rfl
  | cons action actions ih =>
    intro job row hrow
    obtain ⟨row₁, hrow₁, hon⟩ := kept_captureStep action job row hrow
    obtain ⟨row₂, hrow₂, hon'⟩ := ih _ job row₁ hrow₁
    exact ⟨row₂, hrow₂, hon'.nodeId.trans hon.nodeId, hon'.input.trans hon.input,
      hon'.filePath.trans hon.filePath, hon'.ended ∘ hon.ended⟩

end KasterCti.PacketCapture
