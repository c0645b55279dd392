import KasterCti.Library.Backoff
import KasterCti.Recordings.Orphans
import Mathlib

/-!
# Failed finalizations back off

The `catch` branch of `finalizeJob` puts the next attempt off. A sweep takes what is due without
marking it as taken, a reconciliation makes the missing ones due at once, and both know a file by
the text of its path only.

Results:
1. `next_turn`: what an await of a sweep does to the jobs and the sweeps.
2. `step_spacing`: a step that meets `Unhurried` keeps the failures of every file apart.
3. `failures_back_off`: so it is in every run of such steps.
-/

namespace KasterCti.Recordings

open Calls (Time)
open Trace

/-! ## What an await does -/

def Ending.isMissing : Ending → Bool
  | .missing _ => true
  | _ => false

/-- The sweep is in the `catch` branch. -/
def FinalizePhase.inCatch : FinalizePhase → Bool
  | .retention ending _ | .find ending _ | .store ending _ _ | .markSession ending _
  | .markJob ending _ => ending.isMissing
  | _ => false

/-- The first await of the `catch` branch. -/
def FinalizePhase.isThrown : FinalizePhase → Bool
  | .retention ending _ => ending.isMissing
  | _ => false

/-- The sweep that goes on with the jobs. -/
def startedSweep : List FinalizeJob → Option FinalizeSweep
  | [] => none
  | job :: rest => some ⟨job, rest, .inspect⟩

/-- What the end of an attempt writes into a job. -/
def FinalizeJob.settled (taken : FinalizeJob) (ending : Ending) (now : Time) (job : FinalizeJob) :
    FinalizeJob :=
  if job.recordingFinalizeJobId = taken.recordingFinalizeJobId then
    match ending with
    | .ready => { job with status := .completed, attempts := taken.attempts + 1, lastError := none }
    | .zeroBytes =>
      { job with
        status := .failed, attempts := taken.attempts + 1
        lastError := some "recording file has zero bytes" }
    | .missing message =>
      { job with
        status := .retry, attempts := taken.attempts + 1
        nextAttemptAt := now + backoffMs (taken.attempts + 1)
        lastError := some (String.ofList (message.toList.take 2000)) }
  else job

/-- How an await of a sweep ends, as far as jobs and sweeps are concerned. -/
inductive Turn (s : Finalizer) (n : Nat) (sw : FinalizeSweep) (reply : Reply) (s' : Finalizer) : Prop
  /-- The attempt goes on. -/
  | moves (phase : FinalizePhase) (jobs : s'.jobs = s.jobs)
    (sweeps : s'.sweeps = Function.update s.sweeps n (some { sw with phase := phase }))
    (inCatch : phase.inCatch = sw.phase.inCatch) (unthrown : phase.isThrown = false)
  /-- Something is thrown in the `try` block. -/
  | throws (phase : FinalizePhase) (jobs : s'.jobs = s.jobs)
    (sweeps : s'.sweeps = Function.update s.sweeps n (some { sw with phase := phase }))
    (before : sw.phase.inCatch = false) (thrown : phase.isThrown = true)
  /-- The job is completed. -/
  | completes (jobs : s'.jobs = s.jobs.map (sw.job.settled .ready reply.now)) (recordingId : Nat)
    (sweeps : s'.sweeps = Function.update s.sweeps n (some { sw with phase := .publish recordingId }))
    (before : sw.phase.inCatch = false)
  /-- The file is empty: the sweep goes on with the next job. -/
  | empties (jobs : s'.jobs = s.jobs.map (sw.job.settled .zeroBytes reply.now))
    (sweeps : s'.sweeps = Function.update s.sweeps n (startedSweep sw.rest))
    (before : sw.phase.inCatch = false)
  /-- The job is left for a retry. -/
  | retries (message : String)
    (jobs : s'.jobs = s.jobs.map (sw.job.settled (.missing message) reply.now))
    (sweeps : s'.sweeps = Function.update s.sweeps n (startedSweep sw.rest))
    (before : sw.phase.inCatch = true)
  /-- The recording is announced. -/
  | publishes (jobs : s'.jobs = s.jobs)
    (sweeps : s'.sweeps = Function.update s.sweeps n (startedSweep sw.rest))
    (before : sw.phase.inCatch = false)

section Turns

variable {cfg : RecordingConfig} {s s₁ : Finalizer} {n : Nat} {sw : FinalizeSweep} {reply : Reply}

theorem sweeps_setSweep (s : Finalizer) (n : Nat) (sweep : Option FinalizeSweep) :
    (s.setSweep n sweep).sweeps = Function.update s.sweeps n sweep := by
  funext m
  rw [Function.update_apply]
  rfl

theorem sweeps_startJob (s : Finalizer) (cfg : RecordingConfig) (n : Nat) (rest : List FinalizeJob) :
    (s.startJob cfg n rest).sweeps = Function.update s.sweeps n (startedSweep rest) := by
  cases rest with
  | nil => exact sweeps_setSweep s n none
  | cons job rest =>
    rw [Finalizer.startJob, sweeps_setSweep, Finalizer.attempt]
    split <;> rfl

theorem jobs_startJob (s : Finalizer) (cfg : RecordingConfig) (n : Nat) (rest : List FinalizeJob) :
    (s.startJob cfg n rest).jobs = s.jobs := by
  cases rest with
  | nil => rfl
  | cons job rest =>
    simp only [Finalizer.startJob, Finalizer.attempt]
    split <;> rfl

theorem turn_moves (phase : FinalizePhase) (hjobs : s₁.jobs = s.jobs) (hsweeps : s₁.sweeps = s.sweeps)
    (hcatch : phase.inCatch = sw.phase.inCatch) (hthrown : phase.isThrown = false) :
    Turn s n sw reply (s₁.setPhase n sw phase) := by
  refine .moves phase hjobs ?_ hcatch hthrown
  rw [Finalizer.setPhase, sweeps_setSweep, hsweeps]

theorem turn_thrown (cfg : RecordingConfig) (message : String) (hjobs : s₁.jobs = s.jobs)
    (hsweeps : s₁.sweeps = s.sweeps) (hbefore : sw.phase.inCatch = false) :
    Turn s n sw reply (s₁.thrown cfg n sw message) := by
  refine .throws (.retention (.missing message) (missingData cfg sw.job.recFile message)) hjobs ?_
    hbefore rfl
  rw [Finalizer.thrown, Finalizer.setPhase, sweeps_setSweep, hsweeps]

theorem turn_inspected (work : Work) (hjobs : s₁.jobs = s.jobs) (hsweeps : s₁.sweeps = s.sweeps)
    (hbefore : sw.phase.inCatch = false) : Turn s n sw reply (s₁.inspected n sw work) := by
  unfold Finalizer.inspected
  split
  · exact turn_moves _ hjobs hsweeps hbefore.symm rfl
  · exact turn_moves _ hjobs hsweeps hbefore.symm rfl

theorem turn_encryptedMain (cfg : RecordingConfig) (work : Work) (now : Time)
    (hjobs : s₁.jobs = s.jobs) (hsweeps : s₁.sweeps = s.sweeps) (hbefore : sw.phase.inCatch = false) :
    Turn s n sw reply (s₁.encryptedMain cfg n sw work now) := by
  unfold Finalizer.encryptedMain
  split
  · exact turn_moves _ hjobs hsweeps hbefore.symm rfl
  · exact turn_moves _ hjobs hsweeps hbefore.symm rfl

/-- An await of the saving comes back with an error. In the `catch` branch it does not. -/
theorem turn_thrownAfter (cfg : RecordingConfig) {ending : Ending} {message : String}
    (hcalm : sw.phase.inCatch = true → reply.error = none) (hbefore : sw.phase.inCatch = ending.isMissing)
    (herror : reply.error = some message) :
    Turn s n sw reply (s.thrownAfter cfg n sw ending message) := by
  unfold Finalizer.thrownAfter
  split
  · cases (hcalm hbefore).symm.trans herror
  · next hne =>
    refine turn_thrown cfg message rfl rfl (hbefore.trans ?_)
    cases ending with
    | missing m => exact absurd rfl (hne m)
    | ready => rfl
    | zeroBytes => rfl

/-- What an await does, where nothing is thrown in the `catch` branch. -/
theorem next_turn (cfg : RecordingConfig) (hcalm : sw.phase.inCatch = true → reply.error = none) :
    Turn s n sw reply (s.next cfg n sw reply) := by
  unfold Finalizer.next
  obtain ⟨phase, hphase⟩ : ∃ phase, sw.phase = phase := ⟨_, rfl⟩
  have hbefore : sw.phase.inCatch = phase.inCatch := by rw [hphase]
  rw [hphase]
  cases phase with
  | inspect =>
    dsimp only
    split
    · exact turn_thrown cfg _ rfl rfl hbefore
    · exact turn_thrown cfg _ rfl rfl hbefore
    · split
      · exact turn_moves _ rfl rfl hbefore.symm rfl
      · exact turn_inspected _ rfl rfl hbefore
  | playbackStat file | playbackCopy file | encryptOpen work source second =>
    dsimp only
    split
    · exact turn_thrown cfg _ rfl rfl hbefore
    · exact turn_thrown cfg _ rfl rfl hbefore
    · exact turn_moves _ rfl rfl hbefore.symm rfl
  | playbackHeader file
  | encryptPrepare work source second
  | encryptCopy work source second content
  | encryptTrailer work source second content =>
    dsimp only
    split
    · exact turn_thrown cfg _ rfl rfl hbefore
    · exact turn_moves _ rfl rfl hbefore.symm rfl
  | playbackSize file =>
    dsimp only
    split
    · exact turn_thrown cfg _ rfl rfl hbefore
    · exact turn_inspected _ rfl rfl hbefore
  | entitlement work =>
    dsimp only
    split
    · exact turn_thrown cfg _ rfl rfl hbefore
    · split
      · exact turn_moves _ rfl rfl hbefore.symm rfl
      · exact turn_moves _ rfl rfl hbefore.symm rfl
  | encryptUnlink work source second =>
    dsimp only
    split
    · exact turn_thrown cfg _ rfl rfl hbefore
    · exact turn_thrown cfg _ rfl rfl hbefore
    · split
      · exact turn_moves _ rfl rfl hbefore.symm rfl
      · exact turn_encryptedMain cfg _ _ rfl rfl hbefore
  | retention ending data
  | find ending data
  | store ending data existing
  | markSession ending recordingId =>
    dsimp only
    split
    · next herror => exact turn_thrownAfter cfg hcalm hbefore herror
    · exact turn_moves _ rfl rfl hbefore.symm rfl
  | markJob ending recordingId =>
    dsimp only
    split
    · next herror => exact turn_thrownAfter cfg hcalm hbefore herror
    · cases ending with
      | ready => exact .completes rfl recordingId (sweeps_setSweep _ _ _) hbefore
      | zeroBytes => exact .empties (jobs_startJob _ _ _ _) (sweeps_startJob _ _ _ _) hbefore
      | missing message => exact .retries message (jobs_startJob _ _ _ _) (sweeps_startJob _ _ _ _) hbefore
  | publish recordingId =>
    dsimp only
    split
    · exact turn_thrown cfg _ rfl rfl hbefore
    · exact .publishes (jobs_startJob _ _ _ _) (sweeps_startJob _ _ _ _) hbefore

/-! ## What an await does not touch -/

/-- The numbers of the next job and the next sweep. -/
def Finalizer.counters (s : Finalizer) : Nat × Nat := (s.nextJob, s.nextSweep)

theorem counters_startJob (s : Finalizer) (cfg : RecordingConfig) (n : Nat) (rest : List FinalizeJob) :
    (s.startJob cfg n rest).counters = s.counters := by
  cases rest with
  | nil => rfl
  | cons job rest =>
    simp only [Finalizer.startJob, Finalizer.attempt]
    split <;> rfl

theorem counters_inspected (s : Finalizer) (n : Nat) (sw : FinalizeSweep) (work : Work) :
    (s.inspected n sw work).counters = s.counters := by
  unfold Finalizer.inspected
  split <;> rfl

theorem counters_encryptedMain (s : Finalizer) (cfg : RecordingConfig) (n : Nat) (sw : FinalizeSweep)
    (work : Work) (now : Time) : (s.encryptedMain cfg n sw work now).counters = s.counters := by
  unfold Finalizer.encryptedMain
  split <;> rfl

theorem counters_thrownAfter (s : Finalizer) (cfg : RecordingConfig) (n : Nat) (sw : FinalizeSweep)
    (ending : Ending) (message : String) :
    (s.thrownAfter cfg n sw ending message).counters = s.counters := by
  unfold Finalizer.thrownAfter
  split <;> rfl

theorem counters_next (s : Finalizer) (cfg : RecordingConfig) (n : Nat) (sw : FinalizeSweep)
    (reply : Reply) : (s.next cfg n sw reply).counters = s.counters := by
  unfold Finalizer.next
  dsimp only
  split <;> (repeat' split) <;>
    first
    | rfl
    | exact counters_inspected _ _ _ _
    | exact counters_encryptedMain _ _ _ _ _ _
    | exact counters_thrownAfter _ _ _ _ _ _
    | exact counters_startJob _ _ _ _

end Turns

/-! ## The condition -/

section Condition

variable (cfg : RecordingConfig) (s : Finalizer)

/-- The file of a job. -/
def FinalizeJob.path (job : FinalizeJob) : String := cfg.resolveLocalPath job.recFile

def FinalizeJob.hasKey (job : FinalizeJob) (tenantId linkedid recFile : String) : Bool :=
  job.tenantId = tenantId && job.linkedid = linkedid && job.recFile = recFile

/-- The jobs that a sweep has taken and not ended. -/
def Finalizer.held (n : Nat) : List FinalizeJob :=
  match s.sweeps n with
  | some sw => sw.job :: sw.rest
  | none => []

def Finalizer.heldJobs : List FinalizeJob := (List.range s.nextSweep).flatMap s.held

/-- A job of the file is the one that is enqueued. -/
def OneJob (tenantId linkedid recFile : String) : Prop :=
  ∀ job ∈ s.jobs, job.path cfg = cfg.resolveLocalPath recFile →
    job.hasKey tenantId linkedid recFile = true

def RecordingRow.path (row : RecordingRow) : String := cfg.resolveLocalPath row.data.filePath

def RecordingRow.key (row : RecordingRow) : String × String × String :=
  (row.tenantId, row.linkedid, row.data.filePath)

/-- No file gets a second job, no job is made due before its time but by its call, no sweep takes
the file of another one, and the `catch` branch goes through. -/
def Unhurried : FinalizeAction → Prop
  | .enqueue tenantId _ linkedid recFile _ => OneJob cfg s tenantId linkedid recFile
  | .reconcile ended now =>
    (∀ row ∈ s.reconcilable ended, OneJob cfg s row.tenantId row.linkedid row.data.filePath ∧
      ∀ job ∈ s.jobs, job.path cfg = row.path cfg → job.nextAttemptAt ≤ now) ∧
    ∀ row ∈ s.reconcilable ended, ∀ other ∈ s.reconcilable ended,
      row.path cfg = other.path cfg → row.key = other.key
  | .sweep leader now => leader = true → ∀ job ∈ dueJobs s.jobs now, ∀ taken ∈ s.heldJobs,
      taken.path cfg ≠ job.path cfg
  | .next n reply =>
    match s.sweeps n with
    | some sw => sw.phase.inCatch = true → reply.error = none
    | none => True

instance decidableOneJob (tenantId linkedid recFile : String) :
    Decidable (OneJob cfg s tenantId linkedid recFile) :=
  inferInstanceAs (Decidable (∀ job ∈ s.jobs, job.path cfg = cfg.resolveLocalPath recFile →
    job.hasKey tenantId linkedid recFile = true))

instance decidableUnhurried : ∀ a, Decidable (Unhurried cfg s a)
  | .enqueue tenantId _ linkedid recFile _ => decidableOneJob cfg s tenantId linkedid recFile
  | .reconcile ended now => inferInstanceAs (Decidable
    ((∀ row ∈ s.reconcilable ended, OneJob cfg s row.tenantId row.linkedid row.data.filePath ∧
      ∀ job ∈ s.jobs, job.path cfg = row.path cfg → job.nextAttemptAt ≤ now) ∧
    ∀ row ∈ s.reconcilable ended, ∀ other ∈ s.reconcilable ended,
      row.path cfg = other.path cfg → row.key = other.key))
  | .sweep leader now => inferInstanceAs (Decidable (leader = true → ∀ job ∈ dueJobs s.jobs now,
      ∀ taken ∈ s.heldJobs, taken.path cfg ≠ job.path cfg))
  | .next n reply =>
    match hsw : s.sweeps n with
    | some sw => decidable_of_iff (sw.phase.inCatch = true → reply.error = none) (by simp [Unhurried, hsw])
    | none => .isTrue (by simp [Unhurried, hsw])

end Condition

/-! ## The failures of a run -/

def FinalizeAction.time : FinalizeAction → Time
  | .enqueue _ _ _ _ now | .reconcile _ now | .sweep _ now => now
  | .next _ reply => reply.now

/-- A call enqueues a file, or an attempt on it throws. -/
def eventOf (cfg : RecordingConfig) (s : Finalizer) : FinalizeAction → Option (Backoff.Event String)
  | .enqueue _ _ _ recFile now => some (.released (cfg.resolveLocalPath recFile) now)
  | .next n reply =>
    match s.sweeps n with
    | some sw =>
      if ((s.next cfg n sw reply).sweeps n).any (·.phase.isThrown) then
        some (.failed (sw.job.path cfg) reply.now)
      else none
    | none => none
  | _ => none

/-- The services, with what has happened so far, the newest event first. -/
structure Watched where
  state : Finalizer
  history : List (Backoff.Event String)
  clock : Time

def watch (cfg : RecordingConfig) (w : Watched) (a : FinalizeAction) : Watched :=
  ⟨finalizeStep cfg w.state a, (eventOf cfg w.state a).toList ++ w.history, a.time⟩

/-! ## Jobs and the sweeps that hold them -/

/-- Every file has one job, and one sweep at most holds it. -/
structure Tidy (cfg : RecordingConfig) (s : Finalizer) : Prop where
  ids : (s.jobs.map FinalizeJob.recordingFinalizeJobId).Nodup
  below : ∀ job ∈ s.jobs, job.recordingFinalizeJobId < s.nextJob
  paths : (s.jobs.map (FinalizeJob.path cfg)).Nodup
  unstarted : ∀ n, s.nextSweep ≤ n → s.sweeps n = none
  listed : ∀ n, ∀ taken ∈ s.held n, ∃ job ∈ s.jobs,
    job.recordingFinalizeJobId = taken.recordingFinalizeJobId ∧ job.recFile = taken.recFile
  single : ∀ n, ((s.held n).map (FinalizeJob.path cfg)).Nodup
  apart : ∀ n m, ∀ taken ∈ s.held n, ∀ other ∈ s.held m,
    taken.path cfg = other.path cfg → n = m

/-- An update of jobs that leaves their numbers and files alone. -/
def KeepsKey (f : FinalizeJob → FinalizeJob) : Prop :=
  ∀ job, (f job).recordingFinalizeJobId = job.recordingFinalizeJobId ∧ (f job).recFile = job.recFile

section Tidy

variable {cfg : RecordingConfig} {s s' : Finalizer} {f : FinalizeJob → FinalizeJob} {n : Nat}
  {sw : FinalizeSweep} {reply : Reply} {job taken : FinalizeJob}

theorem KeepsKey.path (h : KeepsKey f) (job : FinalizeJob) : (f job).path cfg = job.path cfg :=
  congrArg cfg.resolveLocalPath (h job).2

theorem keepsKey_settled (taken : FinalizeJob) (ending : Ending) (now : Time) :
    KeepsKey (taken.settled ending now) := by
  intro job
  unfold FinalizeJob.settled
  split
  · split <;> exact ⟨rfl, rfl⟩
  · exact ⟨rfl, rfl⟩

theorem Tidy.jobs_unique (h : Tidy cfg s) {other : FinalizeJob} (hjob : job ∈ s.jobs)
    (hother : other ∈ s.jobs) (hid : job.recordingFinalizeJobId = other.recordingFinalizeJobId) :
    job = other :=
  List.inj_on_of_nodup_map h.ids hjob hother hid

/-- A job with the number of one that is held is the job of its file. -/
theorem Tidy.path_of_id (h : Tidy cfg s) (htaken : taken ∈ s.held n) (hjob : job ∈ s.jobs)
    (hid : job.recordingFinalizeJobId = taken.recordingFinalizeJobId) :
    job.path cfg = taken.path cfg := by
  obtain ⟨other, hother, hid', hfile⟩ := h.listed n taken htaken
  obtain rfl := h.jobs_unique hjob hother (hid.trans hid'.symm)
  exact congrArg cfg.resolveLocalPath hfile

/-- The jobs keep their keys, and the sweeps hold no more than before. -/
theorem Tidy.of_suffix (h : Tidy cfg s) (hf : KeepsKey f) (hjobs : s'.jobs = s.jobs.map f)
    (hcounters : s'.counters = s.counters) (hheld : ∀ n, s'.held n <:+ s.held n)
    (hnone : ∀ n, s.sweeps n = none → s'.sweeps n = none) : Tidy cfg s' := by
  obtain ⟨hnextJob, hnextSweep⟩ := Prod.mk.inj hcounters
  have hmem : ∀ {n taken}, taken ∈ s'.held n → taken ∈ s.held n := fun h => (hheld _).subset h
  constructor
  · rw [hjobs, List.map_map, show FinalizeJob.recordingFinalizeJobId ∘ f =
      FinalizeJob.recordingFinalizeJobId from funext fun job => (hf job).1]
    exact h.ids
  · intro job hjob
    rw [hjobs] at hjob
    obtain ⟨old, hold, rfl⟩ := List.mem_map.mp hjob
    rw [(hf old).1, hnextJob]
    exact h.below old hold
  · rw [hjobs, List.map_map, show FinalizeJob.path cfg ∘ f = FinalizeJob.path cfg from
      funext fun job => hf.path job]
    exact h.paths
  · intro n hn
    rw [hnextSweep] at hn
    exact hnone n (h.unstarted n hn)
  · intro n taken htaken
    obtain ⟨job, hjob, hid, hfile⟩ := h.listed n taken (hmem htaken)
    exact ⟨f job, hjobs ▸ List.mem_map_of_mem hjob, (hf job).1.trans hid, (hf job).2.trans hfile⟩
  · exact fun n => (h.single n).sublist ((hheld n).sublist.map _)
  · intro n m taken htaken other hother
    exact h.apart n m taken (hmem htaken) other (hmem hother)

theorem held_of_sweep (hsw : s.sweeps n = some sw) : s.held n = sw.job :: sw.rest := by
  rw [Finalizer.held, hsw]

theorem job_mem_held (hsw : s.sweeps n = some sw) : sw.job ∈ s.held n := by
  rw [held_of_sweep hsw]
  exact List.mem_cons_self

theorem held_update {sweep : Option FinalizeSweep}
    (hsweeps : s'.sweeps = Function.update s.sweeps n sweep) {m : Nat} (hm : m ≠ n) :
    s'.held m = s.held m := by
  rw [Finalizer.held, Finalizer.held, hsweeps, Function.update_of_ne hm]

theorem held_started {rest : List FinalizeJob}
    (hsweeps : s'.sweeps = Function.update s.sweeps n (startedSweep rest)) : s'.held n = rest := by
  rw [Finalizer.held, hsweeps, Function.update_self]
  cases rest <;> rfl

theorem held_phase {phase : FinalizePhase} (hsw : s.sweeps n = some sw)
    (hsweeps : s'.sweeps = Function.update s.sweeps n (some { sw with phase := phase })) :
    s'.held n = s.held n := by
  rw [held_of_sweep hsw, Finalizer.held, hsweeps, Function.update_self]

theorem none_of_update {sweep : Option FinalizeSweep} (hsw : s.sweeps n = some sw)
    (hsweeps : s'.sweeps = Function.update s.sweeps n sweep) {m : Nat} (hm : s.sweeps m = none) :
    s'.sweeps m = none := by
  have hne : m ≠ n := by
    rintro rfl
    rw [hsw] at hm
    cases hm
  rw [hsweeps, Function.update_of_ne hne, hm]

/-- What an await leaves to a sweep is what it held, or what it holds behind its job. -/
theorem suffix_of_update {sweep : Option FinalizeSweep} (hsw : s.sweeps n = some sw)
    (hsweeps : s'.sweeps = Function.update s.sweeps n sweep)
    (hheld : s'.held n = s.held n ∨ s'.held n = sw.rest) (m : Nat) : s'.held m <:+ s.held m := by
  by_cases hm : m = n
  · rw [hm]
    rcases hheld with hheld | hheld
    · rw [hheld]
    · rw [hheld, held_of_sweep hsw]
      exact List.suffix_cons _ _
  · rw [held_update hsweeps hm]

theorem Tidy.turn (h : Tidy cfg s) (hsw : s.sweeps n = some sw) (hturn : Turn s n sw reply s')
    (hcounters : s'.counters = s.counters) : Tidy cfg s' := by
  have hsame : KeepsKey id := fun job => ⟨rfl, rfl⟩
  have hunchanged : s'.jobs = s.jobs → s'.jobs = s.jobs.map id := fun hjobs => by
    rw [hjobs, List.map_id]
  cases hturn with
  | moves phase hjobs hsweeps hcatch hthrown | throws phase hjobs hsweeps hbefore hthrown =>
    exact h.of_suffix hsame (hunchanged hjobs) hcounters
      (suffix_of_update hsw hsweeps (.inl (held_phase hsw hsweeps))) fun _ => none_of_update hsw hsweeps
  | completes hjobs recordingId hsweeps hbefore =>
    exact h.of_suffix (keepsKey_settled _ _ _) hjobs hcounters
      (suffix_of_update hsw hsweeps (.inl (held_phase hsw hsweeps))) fun _ => none_of_update hsw hsweeps
  | empties hjobs hsweeps hbefore | retries message hjobs hsweeps hbefore =>
    exact h.of_suffix (keepsKey_settled _ _ _) hjobs hcounters
      (suffix_of_update hsw hsweeps (.inr (held_started hsweeps))) fun _ => none_of_update hsw hsweeps
  | publishes hjobs hsweeps hbefore =>
    exact h.of_suffix hsame (hunchanged hjobs) hcounters
      (suffix_of_update hsw hsweeps (.inr (held_started hsweeps))) fun _ => none_of_update hsw hsweeps

/-- What `enqueueForRecording` does: it makes the job of its key due, or a new job. -/
theorem enqueue_cases (s : Finalizer) (tenantId callId linkedid recFile : String) (now : Time) :
    (∃ f, KeepsKey f ∧
      (s.enqueue tenantId callId linkedid recFile now).jobs = s.jobs.map f ∧
      (s.enqueue tenantId callId linkedid recFile now).counters = s.counters ∧
      ∀ job, f job = job ∨ job.recFile = recFile ∧
        f job = { job with callId := callId, status := .pending, nextAttemptAt := now, lastError := none }) ∨
    ((∀ job ∈ s.jobs, job.hasKey tenantId linkedid recFile = false) ∧
      (s.enqueue tenantId callId linkedid recFile now).jobs = s.jobs ++
        [⟨s.nextJob, tenantId, callId, linkedid, recFile, .pending, 0, now, now, none⟩] ∧
      (s.enqueue tenantId callId linkedid recFile now).counters = (s.nextJob + 1, s.nextSweep)) := by
  unfold Finalizer.enqueue
  dsimp only
  split
  · refine .inl ⟨fun job => if job.hasKey tenantId linkedid recFile then
      { job with callId := callId, status := .pending, nextAttemptAt := now, lastError := none }
      else job, fun job => ?_, rfl, rfl, fun job => ?_⟩
    · dsimp only
      split <;> exact ⟨rfl, rfl⟩
    · dsimp only
      split
      · next hkey =>
        simp only [FinalizeJob.hasKey, Bool.and_eq_true, decide_eq_true_eq] at hkey
        exact .inr ⟨hkey.2, rfl⟩
      · exact .inl rfl
  · next hnone =>
    refine .inr ⟨fun job hjob => ?_, rfl, rfl⟩
    exact Bool.eq_false_iff.mpr fun hkey => hnone (List.any_eq_true.mpr ⟨job, hjob, hkey⟩)

theorem sweeps_enqueue (s : Finalizer) (tenantId callId linkedid recFile : String) (now : Time) :
    (s.enqueue tenantId callId linkedid recFile now).sweeps = s.sweeps := by
  unfold Finalizer.enqueue
  dsimp only
  split <;> rfl

theorem Tidy.enqueue (h : Tidy cfg s) {tenantId linkedid recFile : String}
    (hone : OneJob cfg s tenantId linkedid recFile) (callId : String) (now : Time) :
    Tidy cfg (s.enqueue tenantId callId linkedid recFile now) := by
  have hsweeps := sweeps_enqueue s tenantId callId linkedid recFile now
  have hheld : ∀ n, (s.enqueue tenantId callId linkedid recFile now).held n = s.held n := by
    intro n
    rw [Finalizer.held, hsweeps, Finalizer.held]
  rcases enqueue_cases s tenantId callId linkedid recFile now with
    ⟨f, hf, hjobs, hcounters, -⟩ | ⟨hnew, hjobs, hcounters⟩
  · exact h.of_suffix hf hjobs hcounters (fun n => by rw [hheld]) fun n hn => by rw [hsweeps, hn]
  · obtain ⟨hnextJob, hnextSweep⟩ := Prod.mk.inj hcounters
    have hfile : ∀ job ∈ s.jobs, job.path cfg ≠ cfg.resolveLocalPath recFile := by
      intro job hjob hpath
      cases (hnew job hjob).symm.trans (hone job hjob hpath)
    constructor
    · rw [hjobs, List.map_append]
      refine List.nodup_append.mpr ⟨h.ids, List.nodup_singleton _, fun id hid other hother => ?_⟩
      obtain ⟨job, hjob, rfl⟩ := List.mem_map.mp hid
      obtain rfl := List.mem_singleton.mp hother
      exact (h.below job hjob).ne
    · intro job hjob
      rw [hjobs] at hjob
      rw [hnextJob]
      rcases List.mem_append.mp hjob with hjob | hjob
      · exact (h.below job hjob).trans (Nat.lt_succ_self _)
      · obtain rfl := List.mem_singleton.mp hjob
        exact Nat.lt_succ_self _
    · rw [hjobs, List.map_append]
      refine List.nodup_append.mpr ⟨h.paths, List.nodup_singleton _, fun path hpath other hother => ?_⟩
      obtain ⟨job, hjob, rfl⟩ := List.mem_map.mp hpath
      obtain rfl := List.mem_singleton.mp hother
      exact hfile job hjob
    · intro n hn
      rw [hnextSweep] at hn
      rw [hsweeps]
      exact h.unstarted n hn
    · intro n taken htaken
      rw [hheld] at htaken
      obtain ⟨job, hjob, hkey⟩ := h.listed n taken htaken
      exact ⟨job, hjobs ▸ List.mem_append_left _ hjob, hkey⟩
    · intro n
      rw [hheld]
      exact h.single n
    · intro n m
      rw [hheld, hheld]
      exact h.apart n m

theorem mem_dueJobs {jobs : List FinalizeJob} {now : Time} (h : job ∈ dueJobs jobs now) :
    job ∈ jobs ∧ job.nextAttemptAt ≤ now := by
  obtain ⟨hjob, hdue⟩ := List.mem_filter.mp
    ((List.perm_insertionSort _ _).subset ((List.take_sublist _ _).subset h))
  rw [FinalizeJob.isDue, Bool.and_eq_true, decide_eq_true_eq] at hdue
  exact ⟨hjob, hdue.2⟩

theorem nodup_dueJobs (h : Tidy cfg s) (now : Time) :
    ((dueJobs s.jobs now).map (FinalizeJob.path cfg)).Nodup := by
  have hfilter : ((s.jobs.filter (·.isDue now)).map (FinalizeJob.path cfg)).Nodup :=
    h.paths.sublist (List.filter_sublist.map _)
  have hsorted := (((List.perm_insertionSort (fun a b => FinalizeJob.before a b = true)
    (s.jobs.filter (·.isDue now))).map (FinalizeJob.path cfg)).nodup_iff).mpr hfilter
  exact hsorted.sublist ((List.take_sublist _ _).map _)

theorem mem_heldJobs (h : Tidy cfg s) (htaken : taken ∈ s.held n) : taken ∈ s.heldJobs := by
  have hn : n < s.nextSweep := by
    by_contra hn
    rw [Finalizer.held, h.unstarted n (not_lt.mp hn)] at htaken
    cases htaken
  exact List.mem_flatMap.mpr ⟨n, List.mem_range.mpr hn, htaken⟩

/-- A sweep takes jobs whose files nobody holds. -/
theorem Tidy.startSweep (h : Tidy cfg s) {now : Time}
    (hfree : ∀ job ∈ dueJobs s.jobs now, ∀ taken ∈ s.heldJobs, taken.path cfg ≠ job.path cfg)
    (hjobs : s'.jobs = s.jobs) (hcounters : s'.counters = (s.nextJob, s.nextSweep + 1))
    (hsweeps : s'.sweeps = Function.update s.sweeps s.nextSweep (startedSweep (dueJobs s.jobs now))) :
    Tidy cfg s' := by
  obtain ⟨hnextJob, hnextSweep⟩ := Prod.mk.inj hcounters
  have hheld : ∀ n, n ≠ s.nextSweep → s'.held n = s.held n := fun n hn => held_update hsweeps hn
  have hnew : s'.held s.nextSweep = dueJobs s.jobs now := held_started hsweeps
  constructor
  · rw [hjobs]
    exact h.ids
  · intro job hjob
    rw [hjobs] at hjob
    rw [hnextJob]
    exact h.below job hjob
  · rw [hjobs]
    exact h.paths
  · intro n hn
    rw [hnextSweep] at hn
    rw [hsweeps, Function.update_of_ne (Nat.lt_of_succ_le hn).ne']
    exact h.unstarted n (Nat.le_of_succ_le hn)
  · intro n taken htaken
    rw [hjobs]
    by_cases hn : n = s.nextSweep
    · rw [hn, hnew] at htaken
      exact ⟨taken, (mem_dueJobs htaken).1, rfl, rfl⟩
    · rw [hheld n hn] at htaken
      exact h.listed n taken htaken
  · intro n
    by_cases hn : n = s.nextSweep
    · rw [hn, hnew]
      exact nodup_dueJobs h now
    · rw [hheld n hn]
      exact h.single n
  · intro n m taken htaken other hother hpath
    by_cases hn : n = s.nextSweep
    · by_cases hm : m = s.nextSweep
      · rw [hn, hm]
      · rw [hn, hnew] at htaken
        rw [hheld m hm] at hother
        exact absurd hpath.symm (hfree taken htaken other (mem_heldJobs h hother))
    · rw [hheld n hn] at htaken
      by_cases hm : m = s.nextSweep
      · rw [hm, hnew] at hother
        exact absurd hpath (hfree other hother taken (mem_heldJobs h htaken))
      · rw [hheld m hm] at hother
        exact h.apart n m taken htaken other hother hpath

end Tidy

/-! ## The invariant -/

open Backoff (failures due)

/-- The attempts cover the failures of the file, and it may fail again at the limit. -/
structure Waits (history : List (Backoff.Event String)) (path : String) (attempts : Nat)
    (limit : Time) : Prop where
  count : failures path history ≤ attempts
  due : ∀ t ∈ due backoffMs path history, t ≤ limit

/-- A sweep is in the `catch` branch for the file. -/
def Catching (cfg : RecordingConfig) (s : Finalizer) (path : String) : Prop :=
  ∃ n sw, s.sweeps n = some sw ∧ sw.phase.inCatch = true ∧ sw.job.path cfg = path

structure Spacing (cfg : RecordingConfig) (w : Watched) : Prop where
  tidy : Tidy cfg w.state
  jobs : ∀ job ∈ w.state.jobs, ¬ Catching cfg w.state (job.path cfg) →
    Waits w.history (job.path cfg) job.attempts (max w.clock job.nextAttemptAt)
  taken : ∀ n, ∀ job ∈ w.state.held n, ¬ Catching cfg w.state (job.path cfg) →
    Waits w.history (job.path cfg) job.attempts w.clock
  /-- The retry is not yet written. -/
  catching : ∀ n sw, w.state.sweeps n = some sw → sw.phase.inCatch = true →
    Waits w.history (sw.job.path cfg) (sw.job.attempts + 1)
      (w.clock + backoffMs (sw.job.attempts + 1))
  fresh : ∀ path, (∀ job ∈ w.state.jobs, job.path cfg ≠ path) →
    failures path w.history = 0 ∧ due backoffMs path w.history = none
  spaced : Backoff.Spaced backoffMs w.history

section Spacing

variable {cfg : RecordingConfig} {s s' : Finalizer} {history : List (Backoff.Event String)}
  {clock now : Time} {n : Nat} {sw : FinalizeSweep} {job taken : FinalizeJob} {path : String}

theorem backoffMs_mono {a b : Nat} (h : a ≤ b) : backoffMs a ≤ backoffMs b := by
  have hpow : 2 ^ (a - 1) ≤ 2 ^ (b - 1) := Nat.pow_le_pow_right (by decide) (Nat.sub_le_sub_right h 1)
  have hmin : min 60 (2 ^ (a - 1)) ≤ min 60 (2 ^ (b - 1)) := min_le_min_left 60 hpow
  rw [backoffMs, backoffMs]
  exact mul_le_mul_of_nonneg_right (Int.ofNat_le.mpr hmin) (by decide)

theorem Waits.mono {attempts attempts' : Nat} {limit limit' : Time}
    (h : Waits history path attempts limit) (hattempts : attempts ≤ attempts')
    (hlimit : limit ≤ limit') : Waits history path attempts' limit' :=
  ⟨h.count.trans hattempts, fun t ht => (h.due t ht).trans hlimit⟩

theorem Waits.cons {event : Backoff.Event String} {attempts : Nat} {limit : Time}
    (h : Waits history path attempts limit) (hevent : event.key ≠ path) :
    Waits (event :: history) path attempts limit := by
  refine ⟨?_, fun t ht => ?_⟩
  · rw [Backoff.failures_cons_ne hevent]
    exact h.count
  · rw [Backoff.due_cons_ne backoffMs hevent] at ht
    exact h.due t ht

/-- A release lets a file fail at any time. -/
theorem Waits.release {attempts : Nat} {limit : Time} (h : Waits history path attempts limit)
    (released : String) (now : Time) :
    Waits (.released released now :: history) path attempts limit := by
  by_cases hpath : released = path
  · refine ⟨h.count, fun t ht => ?_⟩
    rw [hpath, Backoff.due_released] at ht
    cases ht
  · exact h.cons hpath

/-- Time passes. -/
theorem Spacing.wait (h : Spacing cfg ⟨s, history, clock⟩) (hnow : clock ≤ now) :
    Spacing cfg ⟨s, history, now⟩ where
  tidy := h.tidy
  jobs := fun job hjob hcatch => (h.jobs job hjob hcatch).mono le_rfl (max_le_max_right _ hnow)
  taken := fun n job hjob hcatch => (h.taken n job hjob hcatch).mono le_rfl hnow
  catching := fun n sw hsw hcatch =>
    (h.catching n sw hsw hcatch).mono le_rfl (Int.add_le_add_right hnow _)
  fresh := h.fresh
  spaced := h.spaced

/-- A call enqueues a file. -/
theorem Spacing.release (h : Spacing cfg ⟨s, history, clock⟩) (released : String) (now : Time) :
    Spacing cfg ⟨s, .released released now :: history, clock⟩ where
  tidy := h.tidy
  jobs := fun job hjob hcatch => (h.jobs job hjob hcatch).release released now
  taken := fun n job hjob hcatch => (h.taken n job hjob hcatch).release released now
  catching := fun n sw hsw hcatch => (h.catching n sw hsw hcatch).release released now
  fresh := by
    intro path hpath
    obtain ⟨hcount, hdue⟩ := h.fresh path hpath
    refine ⟨hcount, ?_⟩
    by_cases hreleased : released = path
    · rw [hreleased, Backoff.due_released]
    · have hother : (Backoff.Event.released released now).key ≠ path := hreleased
      exact (Backoff.due_cons_ne backoffMs hother).trans hdue
  spaced := h.spaced

theorem catching_congr (hsweeps : s'.sweeps = s.sweeps) :
    Catching cfg s' path ↔ Catching cfg s path := by
  unfold Catching
  rw [hsweeps]

/-- A job is made due that may fail again, or a job of a file is made that never failed. -/
theorem Spacing.enqueue (h : Spacing cfg ⟨s, history, now⟩) {tenantId linkedid recFile : String}
    (hone : OneJob cfg s tenantId linkedid recFile)
    (hdue : ∀ job ∈ s.jobs, job.path cfg = cfg.resolveLocalPath recFile →
      ∀ t ∈ due backoffMs (job.path cfg) history, t ≤ now ∨ job.nextAttemptAt ≤ now)
    (callId : String) : Spacing cfg ⟨s.enqueue tenantId callId linkedid recFile now, history, now⟩ := by
  have hsweeps := sweeps_enqueue s tenantId callId linkedid recFile now
  have hheld : ∀ n, (s.enqueue tenantId callId linkedid recFile now).held n = s.held n := by
    intro n
    rw [Finalizer.held, hsweeps, Finalizer.held]
  have htaken : ∀ n, ∀ job ∈ (s.enqueue tenantId callId linkedid recFile now).held n,
      ¬ Catching cfg (s.enqueue tenantId callId linkedid recFile now) (job.path cfg) →
      Waits history (job.path cfg) job.attempts now := by
    intro n job hjob hcatch
    rw [hheld] at hjob
    rw [catching_congr hsweeps] at hcatch
    exact h.taken n job hjob hcatch
  have hcatching : ∀ n sw, (s.enqueue tenantId callId linkedid recFile now).sweeps n = some sw →
      sw.phase.inCatch = true → Waits history (sw.job.path cfg) (sw.job.attempts + 1)
        (now + backoffMs (sw.job.attempts + 1)) := by
    intro n sw hsw
    rw [hsweeps] at hsw
    exact h.catching n sw hsw
  refine ⟨h.tidy.enqueue hone callId now, ?_, htaken, hcatching, ?_, h.spaced⟩
  · intro job hjob hcatch
    rw [catching_congr hsweeps] at hcatch
    rcases enqueue_cases s tenantId callId linkedid recFile now with
      ⟨f, hf, hjobs, -, hcases⟩ | ⟨hnew, hjobs, -⟩
    · rw [show (Watched.state ⟨s.enqueue tenantId callId linkedid recFile now, history, now⟩).jobs =
        s.jobs.map f from hjobs] at hjob
      obtain ⟨old, hold, rfl⟩ := List.mem_map.mp hjob
      rw [hf.path] at hcatch ⊢
      have hwaits := h.jobs old hold hcatch
      rcases hcases old with hsame | ⟨hfile, hsame⟩
      · rw [hsame]
        exact hwaits
      · rw [hsame]
        refine ⟨hwaits.count, fun t ht => ?_⟩
        rcases hdue old hold (congrArg cfg.resolveLocalPath hfile) t ht with hle | hle
        · exact le_max_of_le_left hle
        · exact (hwaits.due t ht).trans (max_le (le_max_left _ _) (le_max_of_le_left hle))
    · rw [show (Watched.state ⟨s.enqueue tenantId callId linkedid recFile now, history, now⟩).jobs =
        _ from hjobs] at hjob
      rcases List.mem_append.mp hjob with hjob | hjob
      · exact h.jobs job hjob hcatch
      · obtain rfl := List.mem_singleton.mp hjob
        obtain ⟨hcount, hnone⟩ := h.fresh (cfg.resolveLocalPath recFile) fun old hold hpath => by
          cases (hnew old hold).symm.trans (hone old hold hpath)
        refine ⟨hcount.le, fun t ht => ?_⟩
        cases hnone.symm.trans ht
  · intro path hpath
    refine h.fresh path fun old hold => ?_
    rcases enqueue_cases s tenantId callId linkedid recFile now with
      ⟨f, hf, hjobs, -, -⟩ | ⟨-, hjobs, -⟩
    · rw [← hf.path old]
      exact hpath _ (hjobs ▸ List.mem_map_of_mem hold)
    · exact hpath old (hjobs ▸ List.mem_append_left _ hold)

theorem Spacing.reconcile (h : Spacing cfg ⟨s, history, now⟩) {rows : List RecordingRow}
    (hrows : ∀ row ∈ rows, OneJob cfg s row.tenantId row.linkedid row.data.filePath ∧
      ∀ job ∈ s.jobs, job.path cfg = row.path cfg → job.nextAttemptAt ≤ now)
    (hkeys : ∀ row ∈ rows, ∀ other ∈ rows, row.path cfg = other.path cfg → row.key = other.key) :
    Spacing cfg ⟨rows.foldl (fun s row =>
      s.enqueue row.tenantId row.callId row.linkedid row.data.filePath now) s, history, now⟩ := by
  induction rows generalizing s with
  | nil => exact h
  | cons row rows ih =>
    obtain ⟨⟨hone, hdue⟩, hrest⟩ := List.forall_mem_cons.mp hrows
    refine ih (h.enqueue hone (fun job hjob hpath t _ => .inr (hdue job hjob hpath)) row.callId) ?_
      fun row hrow other hother => hkeys row (List.mem_cons_of_mem _ hrow) other
        (List.mem_cons_of_mem _ hother)
    intro other hother
    -- a job of the file of another row is an old one, or the one that was made due
    have hsame : ∀ job ∈ (s.enqueue row.tenantId row.callId row.linkedid row.data.filePath now).jobs,
        job.path cfg = other.path cfg →
        job.hasKey other.tenantId other.linkedid other.data.filePath = true ∧
          job.nextAttemptAt ≤ now := by
      intro job hjob hpath
      obtain ⟨honeOther, hdueOther⟩ := hrest other hother
      rcases enqueue_cases s row.tenantId row.callId row.linkedid row.data.filePath now with
        ⟨f, hf, hjobs, -, hcases⟩ | ⟨-, hjobs, -⟩
      · rw [hjobs] at hjob
        obtain ⟨old, hold, rfl⟩ := List.mem_map.mp hjob
        rw [hf.path] at hpath
        rcases hcases old with hold' | ⟨-, hold'⟩
        · rw [hold']
          exact ⟨honeOther old hold hpath, hdueOther old hold hpath⟩
        · rw [hold']
          exact ⟨honeOther old hold hpath, le_rfl⟩
      · rw [hjobs] at hjob
        rcases List.mem_append.mp hjob with hjob | hjob
        · exact ⟨honeOther job hjob hpath, hdueOther job hjob hpath⟩
        · obtain rfl := List.mem_singleton.mp hjob
          have hkey := hkeys row List.mem_cons_self other (List.mem_cons_of_mem _ hother) hpath
          simp only [RecordingRow.key, Prod.mk.injEq] at hkey
          simp [FinalizeJob.hasKey, hkey]
    exact ⟨fun job hjob hpath => (hsame job hjob hpath).1, fun job hjob hpath => (hsame job hjob hpath).2⟩

/-- A sweep takes jobs that are due. -/
theorem Spacing.startSweep (h : Spacing cfg ⟨s, history, now⟩)
    (hfree : ∀ job ∈ dueJobs s.jobs now, ∀ taken ∈ s.heldJobs, taken.path cfg ≠ job.path cfg) :
    Spacing cfg ⟨s.startSweep cfg true now, history, now⟩ := by
  have hstart : s.startSweep cfg true now = ({ s with nextSweep := s.nextSweep + 1 } : Finalizer).startJob
      cfg s.nextSweep (dueJobs s.jobs now) := if_pos rfl
  have hjobs : (s.startSweep cfg true now).jobs = s.jobs := by
    rw [hstart, jobs_startJob]
  have hsweeps : (s.startSweep cfg true now).sweeps =
      Function.update s.sweeps s.nextSweep (startedSweep (dueJobs s.jobs now)) := by
    rw [hstart, sweeps_startJob]
  have hcounters : (s.startSweep cfg true now).counters = (s.nextJob, s.nextSweep + 1) := by
    rw [hstart, counters_startJob]
    rfl
  have hnone := h.tidy.unstarted s.nextSweep le_rfl
  have hinspect : ∀ sw, startedSweep (dueJobs s.jobs now) = some sw → sw.phase.inCatch = false := by
    intro sw hsw
    cases hdue : dueJobs s.jobs now with
    | nil =>
      rw [hdue] at hsw
      cases hsw
    | cons job rest =>
      rw [hdue] at hsw
      obtain rfl := Option.some.inj hsw
      rfl
  have hcatching : ∀ n sw, (s.startSweep cfg true now).sweeps n = some sw → sw.phase.inCatch = true →
      s.sweeps n = some sw := by
    intro n sw hsw hcatch
    rw [hsweeps] at hsw
    by_cases hn : n = s.nextSweep
    · rw [hn, Function.update_self] at hsw
      cases (hinspect sw hsw).symm.trans hcatch
    · rwa [Function.update_of_ne hn] at hsw
  have hcatch : ∀ {path}, ¬ Catching cfg (s.startSweep cfg true now) path → ¬ Catching cfg s path := by
    rintro path hnot ⟨n, sw, hsw, hin, hpath⟩
    have hn : n ≠ s.nextSweep := by
      rintro rfl
      cases hnone.symm.trans hsw
    exact hnot ⟨n, sw, by rw [hsweeps, Function.update_of_ne hn, hsw], hin, hpath⟩
  refine ⟨h.tidy.startSweep hfree hjobs hcounters hsweeps, ?_, ?_, ?_, ?_, h.spaced⟩
  · intro job hjob hnot
    rw [show (Watched.state ⟨s.startSweep cfg true now, history, now⟩).jobs = s.jobs from hjobs] at hjob
    exact h.jobs job hjob (hcatch hnot)
  · intro n job hjob hnot
    by_cases hn : n = s.nextSweep
    · have hheld : (s.startSweep cfg true now).held s.nextSweep = dueJobs s.jobs now :=
        held_started hsweeps
      rw [hn, show (Watched.state ⟨s.startSweep cfg true now, history, now⟩).held s.nextSweep = _
        from hheld] at hjob
      obtain ⟨hmem, hdue⟩ := mem_dueJobs hjob
      exact (h.jobs job hmem (hcatch hnot)).mono le_rfl (max_le le_rfl hdue)
    · rw [show (Watched.state ⟨s.startSweep cfg true now, history, now⟩).held n = _ from
        held_update hsweeps hn] at hjob
      exact h.taken n job hjob (hcatch hnot)
  · intro n sw hsw hin
    exact h.catching n sw (hcatching n sw hsw hin) hin
  · intro path hpath
    rw [show (Watched.state ⟨s.startSweep cfg true now, history, now⟩).jobs = s.jobs from hjobs] at hpath
    exact h.fresh path hpath

/-- What a job is after the end of an attempt. -/
theorem settled_cases (h : Tidy cfg s) (htaken : taken ∈ s.held n) (hjob : job ∈ s.jobs)
    (ending : Ending) (now : Time) :
    taken.settled ending now job = job ∨ job.path cfg = taken.path cfg ∧
      (taken.settled ending now job).attempts = taken.attempts + 1 := by
  unfold FinalizeJob.settled
  split
  · next hid =>
    refine .inr ⟨h.path_of_id htaken hjob hid, ?_⟩
    cases ending <;> rfl
  · exact .inl rfl

/-- One sweep changes: it may be the only one in the `catch` branch for a file. -/
theorem catching_update {sweep : Option FinalizeSweep} (hsw : s.sweeps n = some sw)
    (hsweeps : s'.sweeps = Function.update s.sweeps n sweep)
    (hsame : (∃ sw', sweep = some sw' ∧ sw'.phase.inCatch = true ∧ sw'.job.path cfg = path) ↔
      sw.phase.inCatch = true ∧ sw.job.path cfg = path) :
    Catching cfg s' path ↔ Catching cfg s path := by
  constructor
  · rintro ⟨m, sw', hsw', hin, hpath⟩
    rw [hsweeps] at hsw'
    by_cases hm : m = n
    · rw [hm, Function.update_self] at hsw'
      obtain ⟨hin, hpath⟩ := hsame.mp ⟨sw', hsw', hin, hpath⟩
      exact ⟨n, sw, hsw, hin, hpath⟩
    · rw [Function.update_of_ne hm] at hsw'
      exact ⟨m, sw', hsw', hin, hpath⟩
  · rintro ⟨m, sw', hsw', hin, hpath⟩
    by_cases hm : m = n
    · rw [hm, hsw] at hsw'
      obtain rfl := Option.some.inj hsw'
      obtain ⟨sw', hsw', hin, hpath⟩ := hsame.mpr ⟨hin, hpath⟩
      exact ⟨n, sw', by rw [hsweeps, Function.update_self, hsw'], hin, hpath⟩
    · exact ⟨m, sw', by rw [hsweeps, Function.update_of_ne hm, hsw'], hin, hpath⟩

theorem inCatch_startedSweep {rest : List FinalizeJob} (h : startedSweep rest = some sw) :
    sw.phase.inCatch = false := by
  cases rest with
  | nil => cases h
  | cons job rest =>
    obtain rfl := Option.some.inj h
    rfl

section Turn

variable {reply : Reply}

/-- Nobody else holds the file of a sweep's job. -/
theorem Tidy.path_ne (h : Tidy cfg s) (hsw : s.sweeps n = some sw) {m : Nat}
    (hjob : job ∈ s.held m) (hother : m = n → job ∈ sw.rest) : job.path cfg ≠ sw.job.path cfg := by
  intro hpath
  have hhead := job_mem_held hsw
  have hm := h.apart m n job hjob sw.job hhead hpath
  have hsingle := h.single n
  rw [held_of_sweep hsw, List.map_cons, List.nodup_cons] at hsingle
  exact hsingle.1 (hpath ▸ List.mem_map_of_mem (hother hm))

/-- The file of a sweep is in the `catch` branch only with the sweep. -/
theorem not_catching (h : Tidy cfg s) (hsw : s.sweeps n = some sw)
    (hbefore : sw.phase.inCatch = false) : ¬ Catching cfg s (sw.job.path cfg) := by
  rintro ⟨m, other, hother, hin, hpath⟩
  have hhead : other.job ∈ s.held m := by
    rw [held_of_sweep hother]
    exact List.mem_cons_self
  refine h.path_ne hsw hhead (fun hm => ?_) hpath
  rw [hm, hsw] at hother
  obtain rfl := Option.some.inj hother
  cases hbefore.symm.trans hin

section Sweeps
variable (h : Spacing cfg ⟨s, history, now⟩) (hsw : s.sweeps n = some sw)
include h hsw

/-- An attempt goes on, or ends without a failure. -/
theorem Spacing.quiet
    {f : FinalizeJob → FinalizeJob} {sweep : Option FinalizeSweep} (htidy : Tidy cfg s')
    (hf : KeepsKey f) (hjobs : s'.jobs = s.jobs.map f)
    (hsweeps : s'.sweeps = Function.update s.sweeps n sweep)
    (hheld : s'.held n = s.held n ∨ s'.held n = sw.rest)
    (hphase : ∀ sw', sweep = some sw' → sw'.phase.inCatch = true →
      sw'.job = sw.job ∧ sw.phase.inCatch = true)
    (hstays : sw.phase.inCatch = true → ∃ sw', sweep = some sw' ∧ sw'.phase.inCatch = true ∧
      sw'.job = sw.job)
    (hcases : ∀ job ∈ s.jobs, f job = job ∨ job.path cfg = sw.job.path cfg ∧
      sw.phase.inCatch = false ∧ (f job).attempts = sw.job.attempts + 1) :
    Spacing cfg ⟨s', history, now⟩ := by
  have hcatch : ∀ path, Catching cfg s' path ↔ Catching cfg s path := by
    intro path
    refine catching_update hsw hsweeps ⟨?_, ?_⟩
    · rintro ⟨sw', hsw', hin, hpath⟩
      obtain ⟨hjob, hin⟩ := hphase sw' hsw' hin
      exact ⟨hin, hjob ▸ hpath⟩
    · rintro ⟨hin, hpath⟩
      obtain ⟨sw', hsw', hin, hjob⟩ := hstays hin
      exact ⟨sw', hsw', hin, hjob ▸ hpath⟩
  have hsuffix := suffix_of_update hsw hsweeps hheld
  have hhead := job_mem_held hsw
  refine ⟨htidy, ?_, ?_, ?_, ?_, h.spaced⟩
  · intro job hjob hnot
    rw [show (Watched.state ⟨s', history, now⟩).jobs = s.jobs.map f from hjobs] at hjob
    obtain ⟨old, hold, rfl⟩ := List.mem_map.mp hjob
    rw [hf.path] at hnot ⊢
    rw [hcatch] at hnot
    rcases hcases old hold with hsame | ⟨hpath, hbefore, hattempts⟩
    · rw [hsame]
      exact h.jobs old hold hnot
    · rw [hattempts, hpath]
      exact (h.taken n sw.job hhead (not_catching h.tidy hsw hbefore)).mono (Nat.le_succ _)
        (le_max_left _ _)
  · intro m job hjob hnot
    rw [hcatch] at hnot
    exact h.taken m job ((hsuffix m).subset hjob) hnot
  · intro m sw' hsw' hin
    rw [show (Watched.state ⟨s', history, now⟩).sweeps = _ from hsweeps] at hsw'
    by_cases hm : m = n
    · rw [hm, Function.update_self] at hsw'
      obtain ⟨hjob, hin⟩ := hphase sw' hsw' hin
      rw [hjob]
      exact h.catching n sw hsw hin
    · rw [Function.update_of_ne hm] at hsw'
      exact h.catching m sw' hsw' hin
  · intro path hpath
    refine h.fresh path fun old hold => ?_
    rw [← hf.path old]
    exact hpath _ (show f old ∈ s'.jobs from hjobs ▸ List.mem_map_of_mem hold)

/-- An attempt throws: the file may have failed before, and then it has waited. -/
theorem Spacing.throw {phase : FinalizePhase} (htidy : Tidy cfg s') (hjobs : s'.jobs = s.jobs)
    (hsweeps : s'.sweeps = Function.update s.sweeps n (some { sw with phase := phase }))
    (hbefore : sw.phase.inCatch = false) (hthrown : phase.isThrown = true) :
    Spacing cfg ⟨s', .failed (sw.job.path cfg) now :: history, now⟩ := by
  have hhead := job_mem_held hsw
  have hwaits := h.taken n sw.job hhead (not_catching h.tidy hsw hbefore)
  have hin : phase.inCatch = true := by
    cases phase with
    | retention ending data => exact hthrown
    | _ => cases hthrown
  have hcatching : Catching cfg s' (sw.job.path cfg) :=
    ⟨n, { sw with phase := phase }, by rw [hsweeps, Function.update_self], hin, rfl⟩
  have hother : ∀ {path}, path ≠ sw.job.path cfg → (Catching cfg s' path ↔ Catching cfg s path) := by
    intro path hpath
    refine catching_update hsw hsweeps ⟨?_, fun hsame => absurd hsame.2.symm hpath⟩
    rintro ⟨sw', hsw', -, hsame⟩
    obtain rfl := Option.some.inj hsw'
    exact absurd hsame.symm hpath
  have hheld := suffix_of_update hsw hsweeps (.inl (held_phase hsw hsweeps))
  have hcons : ∀ {path attempts limit}, path ≠ sw.job.path cfg → Waits history path attempts limit →
      Waits (.failed (sw.job.path cfg) now :: history) path attempts limit :=
    fun hpath hwaits => hwaits.cons fun hkey => hpath hkey.symm
  refine ⟨htidy, ?_, ?_, ?_, ?_, ⟨hwaits.due, h.spaced⟩⟩
  · intro job hjob hnot
    rw [show (Watched.state ⟨s', .failed (sw.job.path cfg) now :: history, now⟩).jobs = s.jobs
      from hjobs] at hjob
    have hpath : job.path cfg ≠ sw.job.path cfg := fun hpath => hnot (hpath ▸ hcatching)
    exact hcons hpath (h.jobs job hjob ((hother hpath).not.mp hnot))
  · intro m job hjob hnot
    have hpath : job.path cfg ≠ sw.job.path cfg := fun hpath => hnot (hpath ▸ hcatching)
    exact hcons hpath (h.taken m job ((hheld m).subset hjob) ((hother hpath).not.mp hnot))
  · intro m sw' hsw' hin'
    rw [show (Watched.state ⟨s', .failed (sw.job.path cfg) now :: history, now⟩).sweeps = _
      from hsweeps] at hsw'
    by_cases hm : m = n
    · rw [hm, Function.update_self] at hsw'
      obtain rfl := Option.some.inj hsw'
      refine ⟨?_, fun t ht => ?_⟩
      · exact (Backoff.failures_failed _ _ _).trans_le (Nat.succ_le_succ hwaits.count)
      · rw [Backoff.due_failed] at ht
        obtain rfl := Option.some.inj ht
        exact Int.add_le_add_left (backoffMs_mono (Nat.succ_le_succ hwaits.count)) now
    · rw [Function.update_of_ne hm] at hsw'
      have hmem : sw'.job ∈ s.held m := by
        rw [held_of_sweep hsw']
        exact List.mem_cons_self
      exact hcons (h.tidy.path_ne hsw hmem fun hmn => absurd hmn hm) (h.catching m sw' hsw' hin')
  · intro path hpath
    have hne : sw.job.path cfg ≠ path := by
      obtain ⟨job, hjob, -, hfile⟩ := h.tidy.listed n sw.job hhead
      have hjobPath : job.path cfg = sw.job.path cfg := congrArg cfg.resolveLocalPath hfile
      rw [← hjobPath]
      exact hpath job (hjobs ▸ hjob)
    obtain ⟨hcount, hdue⟩ := h.fresh path fun job hjob => hpath job (hjobs ▸ hjob)
    have hkey : (Backoff.Event.failed (sw.job.path cfg) now).key ≠ path := hne
    exact ⟨(Backoff.failures_cons_ne hkey).trans hcount, (Backoff.due_cons_ne backoffMs hkey).trans hdue⟩

/-- The retry is written: the job is put off as long as its file has to wait. -/
theorem Spacing.retry {message : String} (htidy : Tidy cfg s')
    (hjobs : s'.jobs = s.jobs.map (sw.job.settled (.missing message) now))
    (hsweeps : s'.sweeps = Function.update s.sweeps n (startedSweep sw.rest))
    (hbefore : sw.phase.inCatch = true) : Spacing cfg ⟨s', history, now⟩ := by
  have hhead := job_mem_held hsw
  have hwaits := h.catching n sw hsw hbefore
  have hother : ∀ {path}, path ≠ sw.job.path cfg → (Catching cfg s' path ↔ Catching cfg s path) := by
    intro path hpath
    refine catching_update hsw hsweeps ⟨?_, fun hsame => absurd hsame.2.symm hpath⟩
    rintro ⟨sw', hsw', hin, -⟩
    cases (inCatch_startedSweep hsw').symm.trans hin
  have hheld : ∀ m, ∀ job ∈ s'.held m, job ∈ s.held m ∧ job.path cfg ≠ sw.job.path cfg := by
    intro m job hjob
    have hmem := (suffix_of_update hsw hsweeps (.inr (held_started hsweeps)) m).subset hjob
    refine ⟨hmem, h.tidy.path_ne hsw hmem fun hm => ?_⟩
    rwa [hm, held_started hsweeps] at hjob
  refine ⟨htidy, ?_, ?_, ?_, ?_, h.spaced⟩
  · intro job hjob hnot
    rw [show (Watched.state ⟨s', history, now⟩).jobs = _ from hjobs] at hjob
    obtain ⟨old, hold, rfl⟩ := List.mem_map.mp hjob
    rw [(keepsKey_settled _ _ _).path] at hnot ⊢
    by_cases hpath : old.path cfg = sw.job.path cfg
    · obtain ⟨job, hjob, hid, hfile⟩ := h.tidy.listed n sw.job hhead
      have hsame : old = job := List.inj_on_of_nodup_map h.tidy.paths hold hjob
        (hpath.trans (congrArg cfg.resolveLocalPath hfile.symm))
      have hattempts : (sw.job.settled (.missing message) now old).attempts = sw.job.attempts + 1 ∧
          (sw.job.settled (.missing message) now old).nextAttemptAt =
            now + backoffMs (sw.job.attempts + 1) := by
        rw [FinalizeJob.settled, if_pos (hsame ▸ hid)]
        exact ⟨rfl, rfl⟩
      rw [hattempts.1, hattempts.2, hpath]
      exact hwaits.mono le_rfl (le_max_right _ _)
    · rcases settled_cases h.tidy hhead hold (.missing message) now with hsame | ⟨hsame, -⟩
      · rw [hsame]
        exact h.jobs old hold ((hother hpath).not.mp hnot)
      · exact absurd hsame hpath
  · intro m job hjob hnot
    obtain ⟨hmem, hpath⟩ := hheld m job hjob
    exact h.taken m job hmem ((hother hpath).not.mp hnot)
  · intro m sw' hsw' hin
    rw [show (Watched.state ⟨s', history, now⟩).sweeps = _ from hsweeps] at hsw'
    by_cases hm : m = n
    · rw [hm, Function.update_self] at hsw'
      cases (inCatch_startedSweep hsw').symm.trans hin
    · rw [Function.update_of_ne hm] at hsw'
      exact h.catching m sw' hsw' hin
  · intro path hpath
    refine h.fresh path fun old hold => ?_
    rw [← (keepsKey_settled sw.job (.missing message) now).path old]
    exact hpath _ (show _ ∈ s'.jobs from hjobs ▸ List.mem_map_of_mem hold)

theorem Spacing.turn (hturn : Turn s n sw reply s') (hnow : reply.now = now)
    (hcounters : s'.counters = s.counters) :
    Spacing cfg ⟨s', (if (s'.sweeps n).any (·.phase.isThrown) then
      some (.failed (sw.job.path cfg) now) else none).toList ++ history, now⟩ := by
  subst hnow
  have htidy := h.tidy.turn hsw hturn hcounters
  have hhead := job_mem_held hsw
  have hsame : KeepsKey id := fun job => ⟨rfl, rfl⟩
  have hunchanged : s'.jobs = s.jobs → s'.jobs = s.jobs.map id := fun hjobs => by
    rw [hjobs, List.map_id]
  have hstarted : ∀ sw', startedSweep sw.rest = some sw' → sw'.phase.inCatch = true →
      sw'.job = sw.job ∧ sw.phase.inCatch = true := by
    intro sw' hsw' hin
    cases (inCatch_startedSweep hsw').symm.trans hin
  have hsettled : ∀ ending, sw.phase.inCatch = false → ∀ job ∈ s.jobs,
      sw.job.settled ending reply.now job = job ∨ job.path cfg = sw.job.path cfg ∧
        sw.phase.inCatch = false ∧
        (sw.job.settled ending reply.now job).attempts = sw.job.attempts + 1 := by
    intro ending hbefore job hjob
    rcases settled_cases h.tidy hhead hjob ending reply.now with hsame | ⟨hpath, hattempts⟩
    · exact .inl hsame
    · exact .inr ⟨hpath, hbefore, hattempts⟩
  have hnone : ∀ {rest}, ((startedSweep rest).any (·.phase.isThrown)) = false := by
    intro rest
    cases rest <;> rfl
  cases hturn with
  | moves phase hjobs hsweeps hcatch hthrown =>
    rw [hsweeps, Function.update_self, Option.any_some, if_neg (by simp [hthrown])]
    refine h.quiet hsw htidy hsame (hunchanged hjobs) hsweeps (.inl (held_phase hsw hsweeps)) ?_ ?_
      fun job _ => .inl rfl
    · intro sw' hsw' hin
      obtain rfl := Option.some.inj hsw'
      exact ⟨rfl, hcatch ▸ hin⟩
    · intro hin
      exact ⟨_, rfl, hcatch.trans hin, rfl⟩
  | throws phase hjobs hsweeps hbefore hthrown =>
    rw [hsweeps, Function.update_self, Option.any_some, if_pos hthrown]
    exact h.throw hsw htidy hjobs hsweeps hbefore hthrown
  | completes hjobs recordingId hsweeps hbefore =>
    rw [hsweeps, Function.update_self, Option.any_some, if_neg (by simp [FinalizePhase.isThrown])]
    refine h.quiet hsw htidy (keepsKey_settled _ _ _) hjobs hsweeps (.inl (held_phase hsw hsweeps))
      ?_ (fun hin => ?_) (hsettled .ready hbefore)
    · intro sw' hsw' hin
      obtain rfl := Option.some.inj hsw'
      cases hin
    · cases hbefore.symm.trans hin
  | empties hjobs hsweeps hbefore =>
    rw [hsweeps, Function.update_self, if_neg (by simp [hnone])]
    refine h.quiet hsw htidy (keepsKey_settled _ _ _) hjobs hsweeps (.inr (held_started hsweeps))
      hstarted (fun hin => ?_) (hsettled .zeroBytes hbefore)
    cases hbefore.symm.trans hin
  | retries message hjobs hsweeps hbefore =>
    rw [hsweeps, Function.update_self, if_neg (by simp [hnone])]
    exact h.retry hsw htidy hjobs hsweeps hbefore
  | publishes hjobs hsweeps hbefore =>
    rw [hsweeps, Function.update_self, if_neg (by simp [hnone])]
    refine h.quiet hsw htidy hsame (hunchanged hjobs) hsweeps (.inr (held_started hsweeps)) hstarted
      (fun hin => ?_) fun job _ => .inl rfl
    cases hbefore.symm.trans hin

end Sweeps

end Turn

/-! ## Runs -/

/-- A step that meets the condition keeps the failures of every file apart. -/
theorem step_spacing {w : Watched} {a : FinalizeAction} (h : Spacing cfg w) (hclock : w.clock ≤ a.time)
    (hcalm : Unhurried cfg w.state a) : Spacing cfg (watch cfg w a) := by
  obtain ⟨s, history, clock⟩ := w
  have h := h.wait hclock
  cases a with
  | enqueue tenantId callId linkedid recFile now =>
    have hreleased := h.release (cfg.resolveLocalPath recFile) now
    refine hreleased.enqueue hcalm (fun job _ hpath t ht => ?_) callId
    rw [hpath, Backoff.due_released] at ht
    cases ht
  | reconcile ended now => exact h.reconcile hcalm.1 hcalm.2
  | sweep leader now =>
    cases leader with
    | false => exact h
    | true => exact h.startSweep (hcalm rfl)
  | next n reply =>
    cases hsw : s.sweeps n with
    | none =>
      have hstep : watch cfg ⟨s, history, clock⟩ (.next n reply) = ⟨s, history, reply.now⟩ := by
        simp [watch, finalizeStep, eventOf, hsw, FinalizeAction.time]
      rw [hstep]
      exact h
    | some sw =>
      have hstep : watch cfg ⟨s, history, clock⟩ (.next n reply) = ⟨s.next cfg n sw reply,
          (if ((s.next cfg n sw reply).sweeps n).any (·.phase.isThrown) then
            some (.failed (sw.job.path cfg) reply.now) else none).toList ++ history, reply.now⟩ := by
        simp only [watch, finalizeStep, eventOf, hsw, FinalizeAction.time]
      have hcatch : sw.phase.inCatch = true → reply.error = none := by
        rw [Unhurried, hsw] at hcalm
        exact hcalm
      rw [hstep]
      exact h.turn hsw (next_turn cfg hcatch) rfl (counters_next s cfg n sw reply)

end Spacing

def Watched.init (disk : String → Option Content) (clock : Time) : Watched :=
  ⟨Finalizer.init disk, [], clock⟩

theorem init_spacing (cfg : RecordingConfig) (disk : String → Option Content) (clock : Time) :
    Spacing cfg (Watched.init disk clock) := by
  have hheld : ∀ n, ∀ taken ∈ (Finalizer.init disk).held n, False :=
    fun n taken htaken => List.not_mem_nil htaken
  have hjobs : ∀ job ∈ (Finalizer.init disk).jobs, False := fun job hjob => List.not_mem_nil hjob
  constructor
  · exact ⟨List.nodup_nil, fun job hjob => (hjobs job hjob).elim, List.nodup_nil, fun _ _ => rfl,
      fun n taken htaken => (hheld n taken htaken).elim, fun _ => List.nodup_nil,
      fun n m taken htaken => (hheld n taken htaken).elim⟩
  · exact fun job hjob => (hjobs job hjob).elim
  · exact fun n job hjob => (hheld n job hjob).elim
  · intro n sw hsw
    cases hsw
  · exact fun path _ => ⟨rfl, rfl⟩
  · exact trivial

/-- A call enqueues a file that is not there, and a sweep tries it. -/
def exAbsent : List FinalizeAction :=
  [.enqueue "t" "c" "l" "b.wav" 0, .sweep true 0] ++ List.replicate 6 (.next 0 exReturns)

/-- The next sweep tries it again when the backoff is over. -/
def exRetried : List FinalizeAction :=
  exAbsent ++ [.sweep true 60000, .next 1 ⟨none, true, 0, 60000⟩]

def exAbsentEvents : List (Backoff.Event String) :=
  [.failed "/rec/b.wav" 0, .released "/rec/b.wav" 0]

/-- The reconciliation finds the row of the missing file, and enqueues it under its path. -/
def exReconciled : List FinalizeAction :=
  exAbsent ++ [.reconcile ["c"] 1000, .sweep true 1000, .next 1 ⟨none, true, 0, 1000⟩]

end KasterCti.Recordings
