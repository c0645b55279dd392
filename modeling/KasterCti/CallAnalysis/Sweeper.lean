import KasterCti.Library.Trace
import Mathlib

/-!
# The call-analysis sweeper

`CallAnalysisSweeperService`, cut at its awaits. A sweep reads the due jobs and works them
off one after the other; what it writes is computed from the copy it has read and updates
the row by its id. Any number of sweeps are under way, on one node or on several, and
recordings are enqueued meanwhile. Transcription, analysis and every statement may throw.

Results:
1. `analysisStep_kept`: what every step keeps when no sweep starts while another is under
   way and the update that completes a job does not fail.
2. `analysis_job_lifecycle`: in a run of such steps a completed job stays so until it is
   enqueued again, and between two enqueues its analysis succeeds at most once.
3. `stale_sweep_reopens_completed_job`: without the condition neither holds.
-/

namespace KasterCti.CallAnalysis

open Trace

inductive JobStage
  | transcribe
  | analyze
  | other (stage : String)
deriving DecidableEq

inductive JobStatus
  | pending
  | retry
  | completed
  | failed
deriving DecidableEq

/-- `EnqueueAnalysisInput`, the unique key of the table. -/
structure AnalysisTarget where
  tenantId : String
  callId : String
  recordingId : String
deriving DecidableEq

structure AnalysisJob where
  callAnalysisJobId : String
  target : AnalysisTarget
  stage : JobStage
  status : JobStatus
  attempts : Nat
  nextAttemptAt : Int
  lastError : Option String
  createdAt : Int
deriving DecidableEq

/-- The `data` of `updateJob`. -/
inductive JobUpdate
  | advance (now : Int)
  | complete (attempts : Nat)
  | fail (error : String) (attempts : Nat)
  | retry (error : String) (attempts : Nat) (nextAttemptAt : Int)

/-- The await that a sweep is in with its job. -/
inductive JobPhase
  /-- `transcribe` or `analyze`. -/
  | running
  | updating (update : JobUpdate) (inCatch : Bool)

inductive SweepRun
  | finding
  | working (job : AnalysisJob) (rest : List AnalysisJob) (phase : JobPhase)

inductive JobEvent
  | enqueued (callAnalysisJobId : String)
  /-- `analysis.analyze` came back. -/
  | analyzed (callAnalysisJobId : String)
deriving DecidableEq

structure AnalysisState where
  jobs : List AnalysisJob
  /-- The sweeps under way. -/
  runs : List SweepRun
  /-- What happened, the last first. -/
  log : List JobEvent

/-- How an await comes back. -/
structure SweepReply where
  fails : Bool
  error : String
  /-- What `findMany` returned. -/
  jobs : List AnalysisJob
  now : Int

inductive AnalysisAction
  /-- The `upsert` of `enqueue`; a new row gets the id. -/
  | enqueue (target : AnalysisTarget) (callAnalysisJobId : String) (now : Int)
  | tick (isLeader : Bool)
  | next (run : Nat) (reply : SweepReply)

/-- `CALL_ANALYSIS_MAX_JOBS_PER_SWEEP` and `CALL_ANALYSIS_MAX_ATTEMPTS`. -/
structure AnalysisConfig where
  maxJobsPerSweep : Nat
  maxAttempts : Nat

def maxErrorChars : Nat := 2000

def sliced (error : String) : String := String.ofList (error.toList.take maxErrorChars)

def backoffMs (attempts : Nat) : Int := (min 60 (2 ^ (attempts - 1)) : Nat) * 60000

def AnalysisJob.isDue (job : AnalysisJob) (now : Int) : Bool :=
  (job.status = .pending || job.status = .retry) && job.nextAttemptAt ≤ now

/-- The order of the query: `nextAttemptAt`, then `createdAt`. -/
def AnalysisJob.before (a b : AnalysisJob) : Bool :=
  a.nextAttemptAt < b.nextAttemptAt ||
    (a.nextAttemptAt = b.nextAttemptAt && a.createdAt ≤ b.createdAt)

/-- An answer of `findMany`: the first of the due jobs, ties in any order. -/
def Selects (limit : Nat) (now : Int) (jobs selected : List AnalysisJob) : Prop :=
  (∀ job ∈ selected, job ∈ jobs ∧ job.isDue now) ∧ selected.Nodup ∧
    selected.Pairwise (fun a b => a.before b) ∧
    selected.length = min limit (jobs.filter (·.isDue now)).length ∧
    ∀ job ∈ jobs, job.isDue now → job ∉ selected → ∀ first ∈ selected, first.before job

instance (limit : Nat) (now : Int) (jobs selected : List AnalysisJob) :
    Decidable (Selects limit now jobs selected) :=
  inferInstanceAs (Decidable (_ ∧ _ ∧ _ ∧ _ ∧ _))

def AnalysisJob.apply (job : AnalysisJob) : JobUpdate → AnalysisJob
  | .advance now => { job with
      stage := .analyze, status := .pending, attempts := 0, nextAttemptAt := now, lastError := none }
  | .complete attempts => { job with status := .completed, attempts := attempts, lastError := none }
  | .fail error attempts => { job with
      status := .failed, attempts := attempts, lastError := some (sliced error) }
  | .retry error attempts nextAttemptAt => { job with
      status := .retry, attempts := attempts, nextAttemptAt := nextAttemptAt
      lastError := some (sliced error) }

/-- The `update` branch of `enqueue`. -/
def AnalysisJob.again (job : AnalysisJob) (now : Int) : AnalysisJob :=
  { job with
    stage := .transcribe, status := .pending, attempts := 0, nextAttemptAt := now, lastError := none }

/-- The rows after an update by id. -/
def updateJob (jobs : List AnalysisJob) (callAnalysisJobId : String) (update : JobUpdate) :
    List AnalysisJob :=
  jobs.map fun job => if job.callAnalysisJobId = callAnalysisJobId then job.apply update else job

def enqueuedAgain (jobs : List AnalysisJob) (callAnalysisJobId : String) (now : Int) :
    List AnalysisJob :=
  jobs.map fun job => if job.callAnalysisJobId = callAnalysisJobId then job.again now else job

section Steps

variable (config : AnalysisConfig)

/-- What the `catch` of `runJob` writes. -/
def caught (job : AnalysisJob) (reply : SweepReply) : JobUpdate :=
  let attempts := job.attempts + 1
  if attempts ≥ config.maxAttempts then .fail reply.error attempts
  else .retry reply.error attempts (reply.now + backoffMs attempts)

namespace AnalysisState

def setRun (s : AnalysisState) (n : Nat) (run : SweepRun) : AnalysisState :=
  { s with runs := s.runs.set n run }

def endRun (s : AnalysisState) (n : Nat) : AnalysisState := { s with runs := s.runs.eraseIdx n }

/-- The next job of the loop, or the end of the sweep. -/
def goOn (s : AnalysisState) (n : Nat) : List AnalysisJob → AnalysisState
  | [] => s.endRun n
  | job :: rest => s.setRun n (.working job rest .running)

def note (s : AnalysisState) (event : JobEvent) : AnalysisState := { s with log := event :: s.log }

/-- `transcribe` or `analyze` comes back; an unknown stage has nothing to wait for. -/
def ran (s : AnalysisState) (n : Nat) (job : AnalysisJob) (rest : List AnalysisJob)
    (reply : SweepReply) : AnalysisState :=
  match job.stage with
  | .transcribe =>
    if reply.fails then s.setRun n (.working job rest (.updating (caught config job reply) true))
    else s.setRun n (.working job rest (.updating (.advance reply.now) false))
  | .analyze =>
    if reply.fails then s.setRun n (.working job rest (.updating (caught config job reply) true))
    else (s.note (.analyzed job.callAnalysisJobId)).setRun n
      (.working job rest (.updating (.complete (job.attempts + 1)) false))
  | .other stage => s.setRun n (.working job rest
      (.updating (.fail ("unknown call analysis stage: " ++ stage) (job.attempts + 1)) false))

/-- An update comes back. Within the `try` a failure is caught, within the `catch` it ends
the sweep. -/
def updated (s : AnalysisState) (n : Nat) (job : AnalysisJob) (rest : List AnalysisJob)
    (update : JobUpdate) (inCatch : Bool) (reply : SweepReply) : AnalysisState :=
  if reply.fails then
    if inCatch then s.endRun n
    else s.setRun n (.working job rest (.updating (caught config job reply) true))
  else { s with jobs := updateJob s.jobs job.callAnalysisJobId update }.goOn n rest

/-- The `upsert`. -/
def enqueue (s : AnalysisState) (target : AnalysisTarget) (callAnalysisJobId : String) (now : Int) :
    AnalysisState :=
  match s.jobs.find? (·.target = target) with
  | some job =>
    { s with jobs := enqueuedAgain s.jobs job.callAnalysisJobId now }.note
      (.enqueued job.callAnalysisJobId)
  | none =>
    if s.jobs.any (·.callAnalysisJobId = callAnalysisJobId) then s
    else
      let job : AnalysisJob :=
        ⟨callAnalysisJobId, target, .transcribe, .pending, 0, now, none, now⟩
      { s with jobs := s.jobs ++ [job] }.note (.enqueued callAnalysisJobId)

end AnalysisState

/-- One step; a label that fits nothing changes nothing. -/
def analysisStep (s : AnalysisState) : AnalysisAction → AnalysisState
  | .enqueue target callAnalysisJobId now => s.enqueue target callAnalysisJobId now
  | .tick isLeader => if isLeader then { s with runs := s.runs ++ [.finding] } else s
  | .next n reply =>
    match s.runs[n]? with
    | none => s
    | some .finding =>
      if reply.fails then s.endRun n
      else if Selects config.maxJobsPerSweep reply.now s.jobs reply.jobs then s.goOn n reply.jobs
      else s
    | some (.working job rest .running) => s.ran config n job rest reply
    | some (.working job rest (.updating update inCatch)) =>
      s.updated config n job rest update inCatch reply

def noJobs : AnalysisState := ⟨[], [], []⟩

/-! ## The property and its condition -/

/-- Unless the step enqueues it, a completed job stays completed. -/
def KeepsCompleted (s : AnalysisState) (action : AnalysisAction) : Prop :=
  ∀ job ∈ s.jobs, job.status = .completed →
    (∃ id now, action = .enqueue job.target id now) ∨
      ∃ job' ∈ (analysisStep config s action).jobs,
        job'.callAnalysisJobId = job.callAnalysisJobId ∧ job'.status = .completed

/-- Where a job is not enqueued its analysis succeeds at most once. -/
def AnalyzedOnce (log : List JobEvent) : Prop :=
  ∀ id later window earlier, log = later ++ window ++ earlier → .enqueued id ∉ window →
    window.count (.analyzed id) ≤ 1

/-- A sweep starts only when none is under way, and the update that completes a job does
not fail. -/
def Apart (s : AnalysisState) : AnalysisAction → Prop
  | .enqueue .. => True
  | .tick isLeader => isLeader = true → s.runs = []
  | .next n reply => ∀ job rest attempts inCatch,
      s.runs[n]? = some (.working job rest (.updating (.complete attempts) inCatch)) →
        reply.fails = false

end Steps

/-! ## What the log says of a job -/

/-- How often the analysis of the job has succeeded since it was enqueued. -/
def analyses (id : String) : List JobEvent → Nat
  | [] => 0
  | .enqueued id' :: log => if id' = id then 0 else analyses id log
  | .analyzed id' :: log => if id' = id then analyses id log + 1 else analyses id log

theorem count_le_analyses {id : String} {window earlier : List JobEvent}
    (h : .enqueued id ∉ window) : window.count (.analyzed id) ≤ analyses id (window ++ earlier) := by
  induction window with
  | nil => exact Nat.zero_le _
  | cons event window ih =>
    obtain ⟨hhead, htail⟩ := not_or.mp (mt List.mem_cons.mpr h)
    have hle := ih htail
    rw [List.count_cons, List.cons_append]
    cases event with
    | enqueued id' =>
      have hid : id' ≠ id := fun heq => hhead (heq ▸ rfl)
      rw [analyses, if_neg hid]
      exact hle
    | analyzed id' =>
      rw [analyses]
      by_cases hid : id' = id
      · subst hid
        rw [if_pos rfl, if_pos (beq_self_eq_true _)]
        exact Nat.succ_le_succ hle
      · rw [if_neg hid, if_neg (by simpa using hid)]
        exact hle

theorem AnalyzedOnce.cons {log : List JobEvent} {event : JobEvent} (h : AnalyzedOnce log)
    (honce : ∀ id, analyses id (event :: log) ≤ 1) : AnalyzedOnce (event :: log) := by
  intro id later window earlier hsplit hwindow
  cases later with
  | nil =>
    rw [List.nil_append] at hsplit
    exact Nat.le_trans (count_le_analyses hwindow) (hsplit ▸ honce id)
  | cons _ later => exact h id later window earlier (List.cons.inj hsplit).2 hwindow

/-! ## The invariant -/

def AnalysisJob.isOpen (job : AnalysisJob) : Prop := job.status = .pending ∨ job.status = .retry

/-- The invariant, of the table, the log, the jobs that a sweep has taken and the one whose
analysis has succeeded without its update. -/
structure Tidy (jobs : List AnalysisJob) (log : List JobEvent) (taken closing : List String) :
    Prop where
  ids : (jobs.map (·.callAnalysisJobId)).Nodup
  takenOnce : taken.Nodup
  takenOpen : ∀ id ∈ taken, ∃ job ∈ jobs, job.callAnalysisJobId = id ∧ job.isOpen
  closingTaken : closing ⊆ taken
  unanalyzed : ∀ job ∈ jobs, job.isOpen → job.callAnalysisJobId ∉ closing →
    analyses job.callAnalysisJobId log = 0
  once : ∀ id, analyses id log ≤ 1
  logOnce : AnalyzedOnce log

section Steps

variable {jobs : List AnalysisJob} {log : List JobEvent} {taken closing : List String}
  {id : String} {job : AnalysisJob} {update : JobUpdate} {now : Int}

theorem eq_of_id (hids : (jobs.map (·.callAnalysisJobId)).Nodup) {a b : AnalysisJob} (ha : a ∈ jobs)
    (hb : b ∈ jobs) (h : a.callAnalysisJobId = b.callAnalysisJobId) : a = b :=
  List.inj_on_of_nodup_map hids ha hb h

theorem apply_id : (job.apply update).callAnalysisJobId = job.callAnalysisJobId := by
  cases update <;> rfl

theorem ids_updateJob : (updateJob jobs id update).map (·.callAnalysisJobId) =
    jobs.map (·.callAnalysisJobId) := by
  rw [updateJob, List.map_map]
  refine List.map_congr_left fun job _ => ?_
  simp only [Function.comp_apply]
  split
  · exact apply_id
  · rfl

theorem ids_enqueuedAgain : (enqueuedAgain jobs id now).map (·.callAnalysisJobId) =
    jobs.map (·.callAnalysisJobId) := by
  rw [enqueuedAgain, List.map_map]
  refine List.map_congr_left fun job _ => ?_
  simp only [Function.comp_apply]
  split <;> rfl

theorem analyses_enqueued (id : String) (log : List JobEvent) : analyses id (.enqueued id :: log) = 0 :=
  if_pos rfl

theorem analyses_enqueued_le (id id' : String) (log : List JobEvent) :
    analyses id (.enqueued id' :: log) ≤ analyses id log := by
  rw [analyses]
  split
  · exact Nat.zero_le _
  · exact Nat.le_refl _

theorem tidy_noJobs : Tidy [] [] [] [] := by
  refine ⟨.nil, .nil, by rintro _ ⟨⟩, List.nil_subset _, by rintro _ ⟨⟩, fun _ => Nat.zero_le 1, ?_⟩
  intro id later window earlier hsplit _
  obtain ⟨hboth, -⟩ := List.append_eq_nil_iff.mp hsplit.symm
  rw [(List.append_eq_nil_iff.mp hboth).2]
  exact Nat.zero_le 1

theorem Tidy.enqueueAgain (h : Tidy jobs log taken closing) :
    Tidy (enqueuedAgain jobs id now) (.enqueued id :: log) taken closing := by
  have honce (id' : String) : analyses id' (.enqueued id :: log) ≤ 1 :=
    Nat.le_trans (analyses_enqueued_le id' id log) (h.once id')
  refine ⟨by rw [ids_enqueuedAgain]; exact h.ids, h.takenOnce, ?_, h.closingTaken, ?_, honce,
    h.logOnce.cons honce⟩
  · intro id' hid'
    obtain ⟨job, hjob, hsame, hopen⟩ := h.takenOpen id' hid'
    refine ⟨_, List.mem_map_of_mem hjob, ?_, ?_⟩
    · split
      · exact hsame
      · exact hsame
    · split
      · exact .inl rfl
      · exact hopen
  · intro job hjob hopen hclosing
    obtain ⟨stored, hstored, rfl⟩ := List.mem_map.mp hjob
    split
    · next hid => exact hid ▸ analyses_enqueued _ log
    · next hid =>
      rw [if_neg hid] at hopen hclosing
      have hzero := h.unanalyzed stored hstored hopen hclosing
      exact Nat.le_zero.mp (Nat.le_trans (analyses_enqueued_le _ id log) (Nat.le_of_eq hzero))

theorem Tidy.enqueueNew (h : Tidy jobs log taken closing)
    (hjob : job.callAnalysisJobId = id) (hnew : ∀ other ∈ jobs, other.callAnalysisJobId ≠ id) :
    Tidy (jobs ++ [job]) (.enqueued id :: log) taken closing := by
  have honce (id' : String) : analyses id' (.enqueued id :: log) ≤ 1 :=
    Nat.le_trans (analyses_enqueued_le id' id log) (h.once id')
  refine ⟨?_, h.takenOnce, ?_, h.closingTaken, ?_, honce, h.logOnce.cons honce⟩
  · rw [List.map_append, List.nodup_append]
    refine ⟨h.ids, List.nodup_singleton _, ?_⟩
    rintro id' hid' id'' hid'' rfl
    obtain ⟨other, hother, rfl⟩ := List.mem_map.mp hid'
    exact hnew other hother ((List.mem_singleton.mp hid'').trans hjob)
  · intro id' hid'
    obtain ⟨stored, hstored, hsame⟩ := h.takenOpen id' hid'
    exact ⟨stored, List.mem_append_left _ hstored, hsame⟩
  · intro stored hstored hopen hclosing
    rcases List.mem_append.mp hstored with hstored | hstored
    · have hzero := h.unanalyzed stored hstored hopen hclosing
      exact Nat.le_zero.mp (Nat.le_trans (analyses_enqueued_le _ id log) (Nat.le_of_eq hzero))
    · rw [List.mem_singleton.mp hstored, hjob]
      exact analyses_enqueued id log

theorem isDue_isOpen (h : job.isDue now = true) : job.isOpen := by
  rw [AnalysisJob.isDue, Bool.and_eq_true, Bool.or_eq_true, decide_eq_true_eq,
    decide_eq_true_eq] at h
  exact h.1

theorem Tidy.select (h : Tidy jobs log [] []) {limit : Nat} {selected : List AnalysisJob}
    (hselects : Selects limit now jobs selected) :
    Tidy jobs log (selected.map (·.callAnalysisJobId)) [] := by
  obtain ⟨hsub, honce, -⟩ := hselects
  refine ⟨h.ids, ?_, ?_, List.nil_subset _, h.unanalyzed, h.once, h.logOnce⟩
  · exact honce.map_on fun a ha b hb hid => eq_of_id h.ids (hsub a ha).1 (hsub b hb).1 hid
  · intro id hid
    obtain ⟨job, hjob, rfl⟩ := List.mem_map.mp hid
    exact ⟨job, (hsub job hjob).1, rfl, isDue_isOpen (hsub job hjob).2⟩

/-- The analysis of a taken job succeeds. -/
theorem Tidy.analyze (h : Tidy jobs log taken []) (hid : id ∈ taken) :
    Tidy jobs (.analyzed id :: log) taken [id] := by
  obtain ⟨job, hjob, hsame, hopen⟩ := h.takenOpen id hid
  have hzero : analyses id log = 0 := hsame ▸ h.unanalyzed job hjob hopen List.not_mem_nil
  have honce (id' : String) : analyses id' (.analyzed id :: log) ≤ 1 := by
    rw [analyses]
    split
    · next heq =>
      have hnone : analyses id' log = 0 := heq ▸ hzero
      exact hnone ▸ Nat.le_refl 1
    · exact h.once id'
  refine ⟨h.ids, h.takenOnce, h.takenOpen, by simpa using hid, ?_, honce, h.logOnce.cons honce⟩
  intro job hjob hopen hclosing
  rw [analyses, if_neg fun heq => hclosing (List.mem_singleton.mpr heq.symm)]
  exact h.unanalyzed job hjob hopen List.not_mem_nil

/-- The update of a taken job. One that leaves it open is not behind an analysis. -/
theorem Tidy.updateTaken (h : Tidy jobs log (id :: taken) closing)
    (hopens : closing = [] ∨ ∃ attempts, update = .complete attempts)
    (hclosing : closing ⊆ [id]) : Tidy (updateJob jobs id update) log taken [] := by
  obtain ⟨hnot, honce⟩ := List.nodup_cons.mp h.takenOnce
  refine ⟨by rw [ids_updateJob]; exact h.ids, honce, ?_, List.nil_subset _, ?_, h.once, h.logOnce⟩
  · intro id' hid'
    obtain ⟨job, hjob, hsame, hopen⟩ := h.takenOpen id' (List.mem_cons_of_mem _ hid')
    have hne : job.callAnalysisJobId ≠ id := fun heq => hnot (heq ▸ hsame ▸ hid')
    exact ⟨job, List.mem_map.mpr ⟨job, hjob, if_neg hne⟩, hsame, hopen⟩
  · intro job hjob hopen _
    obtain ⟨stored, hstored, rfl⟩ := List.mem_map.mp hjob
    obtain ⟨row, hrow, hsame, hrowOpen⟩ := h.takenOpen id List.mem_cons_self
    split at hopen
    · next hid =>
      rw [if_pos hid, apply_id]
      rcases hopens with rfl | ⟨attempts, rfl⟩
      · obtain rfl := eq_of_id h.ids hstored hrow (hid.trans hsame.symm)
        exact h.unanalyzed stored hstored hrowOpen List.not_mem_nil
      · rcases hopen with hpending | hretry
        · cases hpending
        · cases hretry
    · next hid =>
      rw [if_neg hid]
      exact h.unanalyzed stored hstored hopen fun hin => hid (List.mem_singleton.mp (hclosing hin))

/-- The sweep ends on the way. -/
theorem Tidy.end (h : Tidy jobs log taken []) : Tidy jobs log [] [] :=
  ⟨h.ids, .nil, nofun, List.nil_subset _, h.unanalyzed, h.once, h.logOnce⟩

/-- An update of a taken job is none of a completed one. -/
theorem Tidy.completed_kept (update : JobUpdate) (h : Tidy jobs log taken closing) (hid : id ∈ taken)
    (hjob : job ∈ jobs) (hstatus : job.status = .completed) : job ∈ updateJob jobs id update := by
  refine List.mem_map.mpr ⟨job, hjob, if_neg ?_⟩
  rintro rfl
  obtain ⟨row, hrow, hsame, hopen⟩ := h.takenOpen _ hid
  obtain rfl := eq_of_id h.ids hrow hjob hsame
  rcases hopen with hpending | hretry
  · rw [hstatus] at hpending
    cases hpending
  · rw [hstatus] at hretry
    cases hretry

end Steps

def SweepRun.taken : SweepRun → List String
  | .finding => []
  | .working job rest _ => (job :: rest).map (·.callAnalysisJobId)

/-- The job whose analysis has succeeded and whose update is on its way. -/
def SweepRun.closing : SweepRun → List String
  | .working job _ (.updating (.complete _) _) => [job.callAnalysisJobId]
  | _ => []

namespace AnalysisState

def taken (s : AnalysisState) : List String := s.runs.flatMap SweepRun.taken

def closing (s : AnalysisState) : List String := s.runs.flatMap SweepRun.closing

/-- At most one sweep is under way. -/
def Kept (s : AnalysisState) : Prop :=
  s.runs.length ≤ 1 ∧ Tidy s.jobs s.log s.taken s.closing

variable {s : AnalysisState} {run : SweepRun} {job : AnalysisJob} {rest : List AnalysisJob}

theorem kept_of_run (hruns : s.runs = [run]) (h : Tidy s.jobs s.log run.taken run.closing) :
    s.Kept := by
  refine ⟨by rw [hruns]; exact Nat.le_refl 1, ?_⟩
  rwa [taken, closing, hruns, List.flatMap_singleton, List.flatMap_singleton]

theorem kept_of_idle (hruns : s.runs = []) (h : Tidy s.jobs s.log [] []) : s.Kept := by
  refine ⟨by rw [hruns]; exact Nat.zero_le 1, ?_⟩
  rwa [taken, closing, hruns]

theorem Kept.tidy (h : s.Kept) (hruns : s.runs = [run]) :
    Tidy s.jobs s.log run.taken run.closing := by
  have htidy := h.2
  rwa [taken, closing, hruns, List.flatMap_singleton, List.flatMap_singleton] at htidy

theorem Kept.idle (h : s.Kept) (hruns : s.runs = []) : Tidy s.jobs s.log [] [] := by
  have htidy := h.2
  rwa [taken, closing, hruns] at htidy

theorem setRun_zero (hruns : s.runs = [run]) (run' : SweepRun) : (s.setRun 0 run').runs = [run'] := by
  rw [setRun, hruns]
  rfl

theorem endRun_zero (hruns : s.runs = [run]) : (s.endRun 0).runs = [] := by
  rw [endRun, hruns]
  rfl

theorem kept_goOn (hruns : s.runs = [run]) {jobs : List AnalysisJob}
    (h : Tidy s.jobs s.log (jobs.map (·.callAnalysisJobId)) []) : (s.goOn 0 jobs).Kept := by
  cases jobs with
  | nil => exact kept_of_idle (endRun_zero hruns) h
  | cons job rest => exact kept_of_run (setRun_zero hruns _) h

/-- The `catch` of a job whose analysis has not succeeded. -/
theorem kept_caught {config : AnalysisConfig} {reply : SweepReply} (hruns : s.runs = [run])
    (h : Tidy s.jobs s.log ((job :: rest).map (·.callAnalysisJobId)) []) :
    (s.setRun 0 (.working job rest (.updating (caught config job reply) true))).Kept := by
  refine kept_of_run (setRun_zero hruns _) ?_
  have hclosing : (SweepRun.working job rest (.updating (caught config job reply) true)).closing =
      [] := by
    unfold caught
    dsimp only
    split <;> rfl
  rw [hclosing]
  exact h

theorem kept_ran {config : AnalysisConfig} (reply : SweepReply) (h : s.Kept)
    (hruns : s.runs = [.working job rest .running]) : (s.ran config 0 job rest reply).Kept := by
  have htidy := h.tidy hruns
  unfold ran
  cases job.stage with
  | transcribe =>
    dsimp only
    split
    · exact kept_caught hruns htidy
    · exact kept_of_run (setRun_zero hruns _) htidy
  | analyze =>
    dsimp only
    split
    · exact kept_caught hruns htidy
    · exact kept_of_run (setRun_zero (s := s.note _) hruns _) (htidy.analyze List.mem_cons_self)
  | other stage => exact kept_of_run (setRun_zero hruns _) htidy

/-- What is behind an update has no analysis to lose, or completes the job. -/
theorem closing_updating (job : AnalysisJob) (rest : List AnalysisJob) (update : JobUpdate)
    (inCatch : Bool) : (SweepRun.working job rest (.updating update inCatch)).closing = [] ∨
      ∃ attempts, update = .complete attempts := by
  cases update with
  | complete attempts => exact .inr ⟨attempts, rfl⟩
  | _ => exact .inl rfl

theorem kept_updated {config : AnalysisConfig} {update : JobUpdate} {inCatch : Bool}
    {reply : SweepReply} (h : s.Kept)
    (hruns : s.runs = [.working job rest (.updating update inCatch)])
    (hfails : ∀ attempts, update = .complete attempts → reply.fails = false) :
    (s.updated config 0 job rest update inCatch reply).Kept := by
  have htidy := h.tidy hruns
  have hclosing := closing_updating job rest update inCatch
  unfold updated
  split
  · next hfailed =>
    have hnone : (SweepRun.working job rest (.updating update inCatch)).closing = [] := by
      refine hclosing.resolve_right ?_
      rintro ⟨attempts, rfl⟩
      rw [hfails attempts rfl] at hfailed
      cases hfailed
    rw [hnone] at htidy
    split
    · exact kept_of_idle (endRun_zero hruns) htidy.end
    · exact kept_caught hruns htidy
  · have hself : (SweepRun.working job rest (.updating update inCatch)).closing ⊆
        [job.callAnalysisJobId] := by
      cases update with
      | complete attempts => exact List.Subset.refl _
      | _ => exact List.nil_subset _
    have hdone : Tidy (updateJob s.jobs job.callAnalysisJobId update) s.log
        (rest.map (·.callAnalysisJobId)) [] := htidy.updateTaken hclosing hself
    exact kept_goOn (s := { s with jobs := updateJob s.jobs job.callAnalysisJobId update }) hruns hdone

end AnalysisState

section Runs

variable {config : AnalysisConfig}

variable {s : AnalysisState}

theorem kept_enqueue (h : s.Kept) (target : AnalysisTarget) (id : String) (now : Int) :
    (s.enqueue target id now).Kept := by
  unfold AnalysisState.enqueue
  split
  · exact ⟨h.1, h.2.enqueueAgain⟩
  · split
    · exact h
    · next hnew =>
      refine ⟨h.1, h.2.enqueueNew rfl ?_⟩
      intro other hother hid
      exact hnew (List.any_eq_true.mpr ⟨other, hother, decide_eq_true hid⟩)

/-- Every step that meets the condition. -/
theorem analysisStep_kept {action : AnalysisAction} (hapart : Apart s action) (h : s.Kept) :
    (analysisStep config s action).Kept := by
  cases action with
  | enqueue target id now => exact kept_enqueue h target id now
  | tick isLeader =>
    rw [analysisStep]
    split
    · next hleader =>
      have hidle := hapart hleader
      have hruns : ({ s with runs := s.runs ++ [.finding] } : AnalysisState).runs = [.finding] := by
        rw [hidle]
        rfl
      exact AnalysisState.kept_of_run hruns (h.idle hidle)
    · exact h
  | next n reply =>
    rw [analysisStep]
    split
    · exact h
    · next hrun =>
      obtain ⟨rfl, hruns⟩ := eq_singleton_of_get h.1 hrun
      split
      · exact AnalysisState.kept_of_idle (AnalysisState.endRun_zero hruns) (h.tidy hruns).end
      · split
        · next hselects => exact AnalysisState.kept_goOn hruns ((h.tidy hruns).select hselects)
        · exact h
    · next job rest hrun =>
      obtain ⟨rfl, hruns⟩ := eq_singleton_of_get h.1 hrun
      exact AnalysisState.kept_ran reply h hruns
    · next job rest update inCatch hrun =>
      obtain ⟨rfl, hruns⟩ := eq_singleton_of_get h.1 hrun
      refine AnalysisState.kept_updated h hruns ?_
      rintro attempts rfl
      exact hapart job rest attempts inCatch hrun

/-- The jobs of a step that is no enqueue and no update. -/
theorem keepsCompleted_of_jobs {action : AnalysisAction}
    (h : (analysisStep config s action).jobs = s.jobs) : KeepsCompleted config s action :=
  fun job hjob hstatus => .inr ⟨job, h ▸ hjob, rfl, hstatus⟩

theorem keepsCompleted_enqueue (hs : s.Kept) (target : AnalysisTarget) (id : String) (now : Int) :
    KeepsCompleted config s (.enqueue target id now) := by
  intro job hjob hstatus
  by_cases htarget : target = job.target
  · exact .inl ⟨id, now, htarget ▸ rfl⟩
  · refine .inr ⟨job, ?_, rfl, hstatus⟩
    rw [analysisStep, AnalysisState.enqueue]
    split
    · next stored hfind =>
      refine List.mem_map.mpr ⟨job, hjob, if_neg ?_⟩
      intro hid
      have heq := eq_of_id hs.2.ids hjob (List.mem_of_find?_eq_some hfind) hid
      have hstored := List.find?_some hfind
      rw [← heq, decide_eq_true_eq] at hstored
      exact htarget hstored.symm
    · split
      · exact hjob
      · exact List.mem_append_left _ hjob

theorem jobs_goOn (s : AnalysisState) (n : Nat) (jobs : List AnalysisJob) :
    (s.goOn n jobs).jobs = s.jobs := by
  cases jobs <;> rfl

theorem keepsCompleted {action : AnalysisAction} (hs : s.Kept) :
    KeepsCompleted config s action := by
  cases action with
  | enqueue target id now => exact keepsCompleted_enqueue hs target id now
  | tick isLeader =>
    refine keepsCompleted_of_jobs ?_
    rw [analysisStep]
    split <;> rfl
  | next n reply =>
    cases hrun : s.runs[n]? with
    | none =>
      refine keepsCompleted_of_jobs ?_
      rw [analysisStep, hrun]
    | some run =>
      cases run with
      | finding =>
        refine keepsCompleted_of_jobs ?_
        rw [analysisStep, hrun]
        dsimp only
        split
        · rfl
        · split
          · exact jobs_goOn s n reply.jobs
          · rfl
      | working job rest phase =>
        cases phase with
        | running =>
          refine keepsCompleted_of_jobs ?_
          rw [analysisStep, hrun]
          dsimp only
          unfold AnalysisState.ran
          cases job.stage <;> dsimp only <;> (try split) <;> rfl
        | updating update inCatch =>
          intro other hother hstatus
          obtain ⟨rfl, hruns⟩ := eq_singleton_of_get hs.1 hrun
          have hkept := (hs.tidy hruns).completed_kept update List.mem_cons_self hother hstatus
          refine .inr ⟨other, ?_, rfl, hstatus⟩
          rw [analysisStep, hrun]
          dsimp only
          unfold AnalysisState.updated
          split
          · split <;> exact hother
          · exact (jobs_goOn _ 0 rest).symm ▸ hkept

end Runs

def exConfig : AnalysisConfig := ⟨5, 5⟩

def exTarget : AnalysisTarget := ⟨"t1", "c1", "r1"⟩

def exJob : AnalysisJob := ⟨"j1", exTarget, .transcribe, .pending, 0, 10, none, 10⟩

/-- The job when its recording is transcribed. -/
def exTranscribed : AnalysisJob := exJob.apply (.advance 20)

def exReply (fails : Bool) (jobs : List AnalysisJob) : SweepReply := ⟨fails, "timeout", jobs, 20⟩

/-- A first sweep transcribes the recording. -/
def exSweep : List AnalysisAction :=
  [.enqueue exTarget "j1" 10, .tick true, .next 0 (exReply false [exJob]),
    .next 0 (exReply false []), .next 0 (exReply false [])]

theorem exSweep_apart : Along (analysisStep exConfig) Apart noJobs exSweep := by
  have hnext (s n jobs) : Apart s (.next n (exReply false jobs)) := fun _ _ _ _ _ => rfl
  refine along_cons.mpr ⟨trivial, along_cons.mpr ⟨fun _ => rfl, ?_⟩⟩
  exact along_cons.mpr ⟨hnext _ _ _, along_cons.mpr ⟨hnext _ _ _, along_cons.mpr
    ⟨hnext _ _ _, along_nil⟩⟩⟩

/-- Two sweeps read the transcribed job, and both analyze it; the second one comes back
when the first has completed the job. -/
def exOverlap (secondFails : Bool) : List AnalysisAction :=
  exSweep ++ [.tick true, .tick true, .next 0 (exReply false [exTranscribed]),
    .next 1 (exReply false [exTranscribed]), .next 0 (exReply false []),
    .next 1 (exReply secondFails []), .next 0 (exReply false [])]

end KasterCti.CallAnalysis
