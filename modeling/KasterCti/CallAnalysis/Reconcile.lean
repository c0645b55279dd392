import KasterCti.CallAnalysis.Sweeper
import KasterCti.Library.Batches
import KasterCti.Library.JsText
import Mathlib

/-!
# Finding recordings that have no analysis

`CallAnalysisReconcileService.sweep`: the oldest recordings of the last hours that have no
analysis job, at most so many in one pass. Whether their tenants are entitled is asked
afterwards, one recording at a time, and a recording that is passed over has no job in the next
pass either.

Results:
1. `sweep_enqueued`: what a sweep without failures enqueues.
2. `sweep_serves_entitled_iff`: exactly when a sweep enqueues something where it could.
3. `crowded_out_tenant`: a batch full of recordings that are passed over.
-/

namespace KasterCti.CallAnalysis

open JsText Batches

structure Recording where
  recordingId : String
  tenantId : String
  callId : String
  recordingStatus : String
  finalizedAt : Option Int
deriving DecidableEq

/-- What the configuration service finds under a name. -/
abbrev Environment := String → Option String

def DEFAULT_LOOKBACK_HOURS : Nat := 24

def DEFAULT_MAX_PER_SWEEP : Nat := 50

/-- `Number.isFinite` of an integer that was read from text. -/
def isFinite (n : Int) : Bool := n < 2 ^ 1024 - 2 ^ 970

def numberFromEnv (env : Environment) (key : String) (fallback : Nat) : Nat :=
  match parseInt ((env key).getD fallback.repr) with
  | none => fallback
  | some parsed => if isFinite parsed && 0 < parsed then parsed.toNat else fallback

def isEnabled (env : Environment) : Bool :=
  (env "CALL_ANALYSIS_ENABLED").getD "false" = "true"

def lookbackHours (env : Environment) : Nat :=
  numberFromEnv env "CALL_ANALYSIS_LOOKBACK_HOURS" DEFAULT_LOOKBACK_HOURS

def maxPerSweep (env : Environment) : Nat :=
  numberFromEnv env "CALL_ANALYSIS_MAX_ENQUEUE_PER_SWEEP" DEFAULT_MAX_PER_SWEEP

/-- The `where` of the query. -/
def isCandidate (env : Environment) (now : Int) (jobs : List AnalysisJob) (recording : Recording) :
    Bool :=
  recording.recordingStatus = "READY" &&
    (match recording.finalizedAt with
      | none => false
      | some finalizedAt => now - lookbackHours env * 3600000 ≤ finalizedAt) &&
    !jobs.any fun job => job.target.recordingId = recording.recordingId

def candidates (env : Environment) (now : Int) (jobs : List AnalysisJob)
    (recordings : List Recording) : List Recording :=
  recordings.filter (isCandidate env now jobs)

/-- `finalizedAt` of a candidate. -/
def Recording.finalized (recording : Recording) : Int := recording.finalizedAt.getD 0

def Recording.target (recording : Recording) : AnalysisTarget :=
  ⟨recording.tenantId, recording.callId, recording.recordingId⟩

/-- How the awaits of a sweep come back; an error is its message. -/
structure ReconcileReplies where
  /-- The answer of `findMany`. -/
  recordings : Except String (List Recording)
  isEnabled : String → Except String Bool
  /-- The id of the row that the `upsert` creates. -/
  upsert : Recording → Except String String

structure ReconcileResult where
  state : AnalysisState
  enqueued : List Recording
  warnings : List String

/-- One round of the loop. -/
def reconcileRecording (replies : ReconcileReplies) (now : Int) (result : ReconcileResult)
    (recording : Recording) : ReconcileResult :=
  let failed (message : String) : ReconcileResult :=
    { result with
      warnings := result.warnings ++
        ["failed to enqueue analysis for recording=" ++ recording.recordingId ++ ": " ++ message] }
  match replies.isEnabled recording.tenantId with
  | .error message => failed message
  | .ok false => result
  | .ok true =>
    match replies.upsert recording with
    | .error message => failed message
    | .ok callAnalysisJobId =>
      { result with
        state := result.state.enqueue recording.target callAnalysisJobId now
        enqueued := result.enqueued ++ [recording] }

/-- `isLeader` is none where there is no election. -/
def reconcileSweep (env : Environment) (isLeader : Option Bool) (replies : ReconcileReplies)
    (now : Int) (s : AnalysisState) : Except String ReconcileResult :=
  if !isEnabled env then .ok ⟨s, [], []⟩
  else if isLeader = some false then .ok ⟨s, [], []⟩
  else
    match replies.recordings with
    | .error message => .error message
    | .ok recordings => .ok (recordings.foldl (reconcileRecording replies now) ⟨s, [], []⟩)

/-! ## Sweeps without failures -/

/-- The replies of a sweep in which nothing fails. -/
def quietReplies (entitled : String → Bool) (newId : Recording → String)
    (selected : List Recording) : ReconcileReplies where
  recordings := .ok selected
  isEnabled tenantId := .ok (entitled tenantId)
  upsert recording := .ok (newId recording)

section

variable {env : Environment} {isLeader : Option Bool} {entitled : String → Bool}
  {newId : Recording → String} {now : Int} {s : AnalysisState} {selected : List Recording}

theorem foldl_enqueued (result : ReconcileResult) (all : List Recording) :
    (selected.foldl (reconcileRecording (quietReplies entitled newId all) now) result).enqueued =
      result.enqueued ++ selected.filter fun recording => entitled recording.tenantId := by
  induction selected generalizing result with
  | nil => simp
  | cons recording rest ih =>
    rw [List.foldl_cons, ih]
    cases isEntitled : entitled recording.tenantId <;>
      simp [reconcileRecording, quietReplies, isEntitled]

/-- A sweep of the leader enqueues the recordings of entitled tenants that the query gave it. -/
theorem sweep_enqueued (enabled : isEnabled env = true) (leader : isLeader ≠ some false) :
    ∃ result, reconcileSweep env isLeader (quietReplies entitled newId selected) now s =
      .ok result ∧
      result.enqueued = selected.filter fun recording => entitled recording.tenantId := by
  refine ⟨_, by rw [reconcileSweep, enabled, if_neg (by decide), if_neg leader]; rfl, ?_⟩
  rw [foldl_enqueued, List.nil_append]

end

/-- Where a candidate is of an entitled tenant, whatever the order of recordings that were
finalized at the same time, the sweep enqueues a recording of such a tenant. -/
def ServesEntitled (env : Environment) (isLeader : Option Bool) (entitled : String → Bool)
    (newId : Recording → String) (now : Int) (s : AnalysisState) (recordings : List Recording) :
    Prop :=
  (∃ recording ∈ candidates env now s.jobs recordings, entitled recording.tenantId = true) →
    ∀ selected, Batch Recording.finalized (maxPerSweep env)
      (candidates env now s.jobs recordings) selected →
    ∃ result, reconcileSweep env isLeader (quietReplies entitled newId selected) now s =
      .ok result ∧ ∃ recording ∈ result.enqueued, entitled recording.tenantId = true

/-- Before one candidate of an entitled tenant there is room in the batch. -/
def HasRoom (env : Environment) (entitled : String → Bool) (now : Int) (s : AnalysisState)
    (recordings : List Recording) : Prop :=
  ∃ recording ∈ candidates env now s.jobs recordings, entitled recording.tenantId = true ∧
    (crowd Recording.finalized (fun other => entitled other.tenantId)
      (candidates env now s.jobs recordings) recording).length < maxPerSweep env

/-- A sweep of the leader in which nothing fails enqueues a recording of an entitled tenant, where
there is one to enqueue, exactly when fewer recordings of other tenants stand before one of them
than go into a batch. -/
theorem sweep_serves_entitled_iff {env : Environment} {isLeader : Option Bool}
    (enabled : isEnabled env = true) (leader : isLeader ≠ some false) (entitled : String → Bool)
    (newId : Recording → String) (now : Int) (s : AnalysisState) (recordings : List Recording) :
    ServesEntitled env isLeader entitled newId now s recordings ↔
      (∀ recording ∈ candidates env now s.jobs recordings, entitled recording.tenantId = false) ∨
        HasRoom env entitled now s recordings := by
  have served (selected : List Recording) :
      (∃ result, reconcileSweep env isLeader (quietReplies entitled newId selected) now s =
        .ok result ∧ ∃ recording ∈ result.enqueued, entitled recording.tenantId = true) ↔
        ∃ recording ∈ selected, entitled recording.tenantId = true := by
    obtain ⟨result, ran, enqueued⟩ := @sweep_enqueued env isLeader entitled newId now s selected
      enabled leader
    constructor
    · rintro ⟨result', ran', recording, member, isEntitled⟩
      obtain rfl := Except.ok.inj (ran.symm.trans ran')
      rw [enqueued] at member
      exact ⟨recording, (List.mem_filter.mp member).1, isEntitled⟩
    · rintro ⟨recording, member, isEntitled⟩
      exact ⟨result, ran, recording, enqueued ▸ List.mem_filter.mpr ⟨member, isEntitled⟩, isEntitled⟩
  have meets : (∀ selected, Batch Recording.finalized (maxPerSweep env)
      (candidates env now s.jobs recordings) selected →
      ∃ recording ∈ selected, entitled recording.tenantId = true) ↔
        HasRoom env entitled now s recordings := batch_meets_iff
  unfold ServesEntitled
  simp only [served]
  rw [meets]
  constructor
  · intro serves
    by_cases someEntitled : ∃ recording ∈ candidates env now s.jobs recordings,
        entitled recording.tenantId = true
    · exact Or.inr (serves someEntitled)
    · exact Or.inl fun recording member =>
        Bool.not_eq_true _ ▸ fun isEntitled => someEntitled ⟨recording, member, isEntitled⟩
  · rintro (noneEntitled | room) ⟨recording, member, isEntitled⟩
    · rw [noneEntitled recording member] at isEntitled
      exact absurd isEntitled (by decide)
    · exact room

def oneAtATime : Environment := fun key =>
  if key = "CALL_ANALYSIS_ENABLED" then some "true"
  else if key = "CALL_ANALYSIS_MAX_ENQUEUE_PER_SWEEP" then some "1"
  else none

/-- Two recordings of the last hour, the older one of a tenant that is not entitled. -/
def twoTenants : List Recording :=
  [⟨"r1", "plain", "c1", "READY", some 1000⟩, ⟨"r2", "analysed", "c2", "READY", some 2000⟩]

theorem sweep_serves_two_tenants :
    isEnabled oneAtATime = true ∧ (none : Option Bool) ≠ some false ∧
      (ServesEntitled oneAtATime none (· = "plain") Recording.recordingId 3000 noJobs twoTenants ↔
        (∀ recording ∈ candidates oneAtATime 3000 [] twoTenants,
          decide (recording.tenantId = "plain") = false) ∨
          HasRoom oneAtATime (· = "plain") 3000 noJobs twoTenants) :=
  ⟨by decide, by decide,
    sweep_serves_entitled_iff (by decide) (by decide) (· = "plain") Recording.recordingId 3000
      noJobs twoTenants⟩

/-- The older recording takes the one place of the batch and is passed over, now and in every
later sweep. -/
theorem crowded_out_tenant :
    ¬ ∀ (env : Environment) (isLeader : Option Bool) (entitled : String → Bool)
      (newId : Recording → String) (now : Int) (s : AnalysisState) (recordings : List Recording),
      isEnabled env = true → isLeader ≠ some false →
      ServesEntitled env isLeader entitled newId now s recordings := by
  intro all
  have serves := all oneAtATime none (· = "analysed") Recording.recordingId 3000 noJobs twoTenants
    (by decide) (by decide)
  have older : Batch Recording.finalized (maxPerSweep oneAtATime)
      (candidates oneAtATime 3000 noJobs.jobs twoTenants) (twoTenants.take 1) :=
    ⟨twoTenants, by decide +kernel, by decide +kernel, by decide +kernel⟩
  obtain ⟨result, ran, recording, member, -⟩ := serves (by decide +kernel) _ older
  obtain rfl := Except.ok.inj ran
  rw [foldl_enqueued] at member
  simp [twoTenants] at member

end KasterCti.CallAnalysis
