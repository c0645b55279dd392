import KasterCti.PacketCapture.CaptureJobs

/-!
# Which calls may start or end a job

A start checks that no job is RUNNING and inserts its own two awaits later; a settle run
finds its job RUNNING and ends it many awaits later. `NoOverlap` is the condition on a step
under which no call passes such a check while another one is behind it.

Results:
1. `Ordered.goOn`: one call goes on, and jobs may start or end.
2. `captureStep_ordered`: what every step keeps under the condition.
-/

namespace KasterCti.PacketCapture

/-! ## The condition -/

/-- What a call is about to do behind its check. -/
inductive Claim
  | insertJob
  | endJob (job : Nat)
deriving DecidableEq

def CaptureCall.claim : CaptureCall → Option Claim
  | .interfaces .. | .create .. => some .insertJob
  | .request job | .refuse job | .settle _ job _ _ => some (.endJob job)
  | _ => none

/-- No call has the claim. -/
def Free (s : CaptureState) (claim : Claim) : Prop :=
  ∀ n < s.nextCall, ∀ call ∈ s.calls n, call.claim ≠ some claim

/-- The files of the job and those of an output path. -/
def CaptureJob.apart (cfg : CaptureConfig) (filePath : String) (row : CaptureJob) : Prop :=
  filePath ≠ row.filePath ∧ filePath ≠ cfg.target row.filePath ∧
    cfg.target filePath ≠ row.filePath ∧ cfg.target filePath ≠ cfg.target row.filePath

/-- A start passes its check while no other one is behind it, and its output path and the
encrypted one are two new paths. A settle run finds its job while no other call may end it,
and reads the capture when `dumpcap` has closed it. -/
def Unclaimed (cfg : CaptureConfig) (s : CaptureState) (reply : CaptureReply) :
    CaptureCall → Prop
  | .search .. => reply.ok = true → (∀ row ∈ s.jobs, row.status ≠ .running) → Free s .insertJob
  | .create _ _ outputPath => reply.ok = true → cfg.target outputPath ≠ outputPath ∧
    ∀ row ∈ s.jobs, row.apart cfg outputPath
  | .find _ job => reply.ok = true → s.isRunning job = true → Free s (.endJob job)
  | .settle _ job _ .opening => reply.ok = true → ∀ row ∈ s.jobs[job]?,
    s.running row.nodeId ≠ some job
  | _ => True

def NoOverlap (cfg : CaptureConfig) (s : CaptureState) : CaptureAction → Prop
  | .next n reply => ∀ call ∈ s.calls n, Unclaimed cfg s reply call
  | _ => True

/-! ## The invariant -/

def OneRunning (s : CaptureState) : Prop :=
  ∀ i j, s.isRunning i = true → s.isRunning j = true → i = j

/-- The check that the call has passed still holds. -/
def Claim.Right (s : CaptureState) : Claim → Prop
  | .insertJob => ∀ job, s.isRunning job = false
  | .endJob job => s.isRunning job = true

structure Ordered (s : CaptureState) : Prop where
  numbered : ∀ n, ∀ call ∈ s.calls n, n < s.nextCall
  one_running : OneRunning s
  alone : ∀ m n, ∀ call ∈ s.calls m, ∀ other ∈ s.calls n, ∀ claim,
    call.claim = some claim → other.claim = some claim → m = n
  right : ∀ n, ∀ call ∈ s.calls n, ∀ claim, call.claim = some claim → claim.Right s

variable {cfg : CaptureConfig} {s s' : CaptureState} {n node job : Nat} {filePath : String}
  {call : CaptureCall} {after : Option CaptureCall} {reply : CaptureReply} {phase : SettlePhase}

/-- One call goes on, and jobs may start or end. -/
theorem Ordered.goOn (h : Ordered s) (hcalls : s'.calls = fun m => if m = n then after else s.calls m)
    (hnumber : n < s'.nextCall) (hnext : s.nextCall ≤ s'.nextCall) (hone : OneRunning s')
    (hright : ∀ call' ∈ after, ∀ claim, call'.claim = some claim → claim.Right s')
    (hothers : ∀ m ≠ n, ∀ other ∈ s.calls m, ∀ claim, other.claim = some claim →
      (∀ call' ∈ after, call'.claim ≠ some claim) ∧ claim.Right s') : Ordered s' := by
  have hat : ∀ m, s'.calls m = if m = n then after else s.calls m := fun m => congrFun hcalls m
  have hself : s'.calls n = after := by rw [hat, if_pos rfl]
  have hother : ∀ m ≠ n, s'.calls m = s.calls m := fun m hm => by rw [hat, if_neg hm]
  refine ⟨?_, hone, ?_, ?_⟩
  · intro m other hmem
    by_cases hm : m = n
    · exact hm ▸ hnumber
    · exact (h.numbered m other (hother m hm ▸ hmem)).trans_le hnext
  · intro m k first hfirst second hsecond claim hin hin'
    by_cases hm : m = n <;> by_cases hk : k = n
    · rw [hm, hk]
    · subst hm
      exact absurd hin
        ((hothers k hk second (hother k hk ▸ hsecond) claim hin').1 first (hself ▸ hfirst))
    · subst hk
      exact absurd hin'
        ((hothers m hm first (hother m hm ▸ hfirst) claim hin).1 second (hself ▸ hsecond))
    · exact h.alone m k first (hother m hm ▸ hfirst) second (hother k hk ▸ hsecond) claim hin hin'
  · intro m other hmem claim hin
    by_cases hm : m = n
    · subst hm
      exact hright other (hself ▸ hmem) claim hin
    · exact (hothers m hm other (hother m hm ▸ hmem) claim hin).2

theorem Claim.Right.congr {claim : Claim} (h : claim.Right s) (hjobs : s'.jobs = s.jobs) :
    claim.Right s' := by
  have hrunning : ∀ job, s'.isRunning job = s.isRunning job := fun job => by
    rw [CaptureState.isRunning, CaptureState.isRunning, CaptureState.statusOf,
      CaptureState.statusOf, hjobs]
  cases claim with
  | insertJob => exact fun job => (hrunning job).trans (h job)
  | endJob job => exact (hrunning job).trans h

section Calls
variable (h : Ordered s) (hcalls : s'.calls = fun m => if m = n then after else s.calls m)
  (hnumber : n < s'.nextCall) (hnext : s.nextCall ≤ s'.nextCall) (hjobs : s'.jobs = s.jobs)
include h hcalls hnumber hnext hjobs

/-- A call goes on without a write to the table. What it comes to claim no other call
claims. -/
theorem Ordered.setCall
    (hclaim : ∀ call' ∈ after, ∀ claim, call'.claim = some claim →
      (∃ call ∈ s.calls n, call.claim = some claim) ∨
      (∀ m ≠ n, ∀ other ∈ s.calls m, other.claim ≠ some claim) ∧ claim.Right s) : Ordered s' := by
  refine h.goOn hcalls hnumber hnext ?_ ?_ ?_
  · intro i j hi hj
    rw [CaptureState.isRunning, CaptureState.statusOf, hjobs] at hi hj
    exact h.one_running i j hi hj
  · intro call' hcall' claim hin
    rcases hclaim call' hcall' claim hin with ⟨call, hcall, hin'⟩ | ⟨-, hright⟩
    · exact (h.right n call hcall claim hin').congr hjobs
    · exact hright.congr hjobs
  · intro m hm other hmem claim hin
    refine ⟨fun call' hcall' hin' => ?_, (h.right m other hmem claim hin).congr hjobs⟩
    rcases hclaim call' hcall' claim hin' with ⟨call, hcall, hold⟩ | ⟨hfree, -⟩
    · exact hm (h.alone m n other hmem call hcall claim hin hold)
    · exact hfree m hm other hmem hin

/-- A call starts, waits or ends. -/
theorem Ordered.idle (hclaim : ∀ call' ∈ after, call'.claim = none) : Ordered s' := by
  refine h.setCall hcalls hnumber hnext hjobs ?_
  intro call' hcall' claim hin
  rw [hclaim call' hcall'] at hin
  cases hin

end Calls

/-- The call ends its job. -/
theorem Ordered.endJob {update : CaptureJob → CaptureJob} (h : Ordered s)
    (hcall : s.calls n = some call) (hclaim : call.claim = some (.endJob job))
    (hupdate : ∀ row, (update row).status ≠ .running) :
    Ordered ((s.updateJob job update).setCall n none) := by
  have hended : ((s.updateJob job update).setCall n none).isRunning job = false :=
    CaptureState.not_isRunning_updateJob hupdate
  have hmono : ∀ j, ((s.updateJob job update).setCall n none).isRunning j = true →
      s.isRunning j = true := by
    intro j hj
    by_cases hjob : j = job
    · rw [hjob, hended] at hj
      cases hj
    · exact (CaptureState.isRunning_updateJob hjob).symm.trans hj
  have hrun : s.isRunning job = true := h.right n call hcall _ hclaim
  refine h.goOn rfl (h.numbered n call hcall) (Nat.le_refl _) ?_ (by rintro _ ⟨⟩) ?_
  · intro i j hi hj
    exact h.one_running i j (hmono i hi) (hmono j hj)
  · intro m hm other hmem claim hin
    refine ⟨by rintro _ ⟨⟩, ?_⟩
    have hright := h.right m other hmem claim hin
    cases claim with
    | insertJob =>
      rw [hright job] at hrun
      cases hrun
    | endJob j =>
      have hjob : j ≠ job := fun heq => hm (h.alone m n other hmem call hcall _ hin (heq ▸ hclaim))
      exact (CaptureState.isRunning_updateJob hjob).trans hright

/-- A start inserts its job. -/
theorem Ordered.insert {row : CaptureJob} (h : Ordered s) (hcall : s.calls n = some call)
    (hclaim : call.claim = some .insertJob) (hstatus : row.status = .running) :
    Ordered ((s.insertJob row).setCall n (some (.request s.jobs.length))) := by
  have hidle : ∀ job, s.isRunning job = false := h.right n call hcall _ hclaim
  have hnew : ∀ job, ((s.insertJob row).setCall n (some (.request s.jobs.length))).isRunning job =
      true → job = s.jobs.length := by
    intro job hjob
    obtain ⟨other, hother, hstatus⟩ := CaptureState.isRunning_iff.mp hjob
    rcases CaptureState.insertJob_cases hother with hold | ⟨rfl, -⟩
    · have hrun := CaptureState.isRunning_iff.mpr ⟨other, hold, hstatus⟩
      rw [hidle] at hrun
      cases hrun
    · rfl
  have hrun : ((s.insertJob row).setCall n (some (.request s.jobs.length))).isRunning s.jobs.length =
      true := CaptureState.isRunning_iff.mpr ⟨row, CaptureState.insertJob_new, hstatus⟩
  refine h.goOn rfl (h.numbered n call hcall) (Nat.le_refl _) ?_ ?_ ?_
  · intro i j hi hj
    rw [hnew i hi, hnew j hj]
  · rintro _ ⟨⟩ claim ⟨⟩
    exact hrun
  · intro m hm other hmem claim hin
    cases claim with
    | insertJob => exact absurd (h.alone m n other hmem call hcall _ hin hclaim) hm
    | endJob j =>
      have htrue : s.isRunning j = true := h.right m other hmem _ hin
      rw [hidle] at htrue
      cases htrue

/-- The agents write neither to the table nor to the calls. -/
theorem Ordered.congr (h : Ordered s) (hcalls : s'.calls = s.calls)
    (hnext : s'.nextCall = s.nextCall) (hjobs : s'.jobs = s.jobs) : Ordered s' := by
  obtain ⟨jobs, calls, nextCall, _, _, _, _, _⟩ := s
  subst hcalls hnext hjobs
  exact ⟨h.1, h.2, h.3, h.4⟩

/-! ## Steps of the calls -/

theorem settleNext_ordered (h : Ordered s)
    (hcall : s.calls n = some (.settle node job filePath phase)) :
    Ordered (s.settleNext cfg n node job filePath reply phase) := by
  have hn := h.numbered n _ hcall
  have hgo : ∀ {s' : CaptureState} {phase' : SettlePhase},
      (s'.calls = fun m => if m = n then some (.settle node job filePath phase') else s.calls m) →
      s'.nextCall = s.nextCall → s'.jobs = s.jobs → Ordered s' := by
    intro s' phase' hcalls hnext hjobs
    refine h.setCall hcalls (hnext ▸ hn) (le_of_eq hnext.symm) hjobs ?_
    rintro _ ⟨⟩ claim hclaim
    exact .inl ⟨_, hcall, hclaim⟩
  have hend : Ordered (s.setCall n none) :=
    h.idle rfl hn (Nat.le_refl _) rfl (by rintro _ ⟨⟩)
  cases phase with
  | status =>
    simp only [CaptureState.settleNext]
    split
    · exact hend
    · exact hgo rfl rfl rfl
  | stat => exact hgo rfl rfl rfl
  | hash => exact hgo rfl rfl rfl
  | prepare => exact hgo rfl rfl rfl
  | opening => exact hgo rfl rfl rfl
  | copy content => exact hgo rfl rfl rfl
  | trailer content | unlink =>
    simp only [CaptureState.settleNext]
    split
    · exact hgo rfl rfl rfl
    · exact hgo rfl rfl rfl
  | save encryptedFilePath =>
    simp only [CaptureState.settleNext]
    split
    · refine h.endJob hcall rfl ?_
      rintro row ⟨⟩
    · exact hgo rfl rfl rfl
  | fail =>
    simp only [CaptureState.settleNext]
    split
    · refine h.endJob hcall rfl ?_
      rintro row ⟨⟩
    · exact hend

theorem next_ordered (h : Ordered s) (hcall : s.calls n = some call)
    (hok : Unclaimed cfg s reply call) : Ordered (s.next cfg n reply call) := by
  have hn := h.numbered n call hcall
  have hend : Ordered (s.setCall n none) :=
    h.idle rfl hn (Nat.le_refl _) rfl (by rintro _ ⟨⟩)
  cases call with
  | search node input =>
    simp only [CaptureState.next]
    split
    next hpass =>
      obtain ⟨hreply, hnone⟩ := Bool.and_eq_true_iff.mp hpass
      have hidle : ∀ row ∈ s.jobs, row.status ≠ .running := by simpa using hnone
      refine h.setCall rfl hn (Nat.le_refl _) rfl ?_
      rintro _ ⟨⟩ claim ⟨⟩
      refine .inr ⟨fun m _ other hmem => hok hreply hidle m (h.numbered m other hmem) other hmem,
        fun job => ?_⟩
      rw [Bool.eq_false_iff]
      intro hrun
      obtain ⟨row, hrow, hstatus⟩ := CaptureState.isRunning_iff.mp hrun
      exact hidle row (List.mem_of_getElem? hrow) hstatus
    · exact hend
  | interfaces node input =>
    refine h.setCall rfl hn (Nat.le_refl _) rfl ?_
    intro call' hcall' claim hclaim
    obtain ⟨valid, -, rfl⟩ := Option.map_eq_some_iff.mp hcall'
    exact .inl ⟨_, hcall, hclaim⟩
  | create node input outputPath =>
    simp only [CaptureState.next]
    split
    · exact h.insert hcall rfl rfl
    · exact hend
  | request job =>
    simp only [CaptureState.next]
    split
    · split
      · exact h.idle rfl hn (Nat.le_refl _) rfl (by rintro _ ⟨⟩)
      · exact hend
    · refine h.setCall rfl hn (Nat.le_refl _) rfl ?_
      rintro _ ⟨⟩ claim hclaim
      exact .inl ⟨_, hcall, hclaim⟩
  | refuse job =>
    simp only [CaptureState.next]
    split
    · refine h.endJob hcall rfl ?_
      rintro row ⟨⟩
    · exact hend
  | lookup node job =>
    refine h.idle rfl hn (Nat.le_refl _) rfl ?_
    intro call' hcall'
    split at hcall' <;> cases hcall'
    rfl
  | stop node job =>
    exact h.idle rfl hn (Nat.le_refl _) rfl (by rintro _ ⟨⟩)
  | find node job =>
    simp only [CaptureState.next]
    split
    next hpass hrow =>
      obtain ⟨hreply, hrun⟩ := Bool.and_eq_true_iff.mp hpass
      refine h.setCall rfl hn (Nat.le_refl _) rfl ?_
      rintro _ ⟨⟩ claim ⟨⟩
      exact .inr ⟨fun m _ other hmem =>
        hok hreply hrun m (h.numbered m other hmem) other hmem, hrun⟩
    · exact hend
  | settle node job filePath phase => exact settleNext_ordered h hcall

/-- What every step keeps. -/
theorem captureStep_ordered {action : CaptureAction} (h : Ordered s) (hok : NoOverlap cfg s action) :
    Ordered (captureStep cfg s action) := by
  have hbegin : ∀ {s' : CaptureState} {call : CaptureCall}, s'.calls = s.calls →
      s'.nextCall = s.nextCall → s'.jobs = s.jobs → call.claim = none →
      Ordered (s'.begin call) := by
    intro s' call hcalls hnext hjobs hclaim
    have hat : (s'.begin call).calls = fun m => if m = s.nextCall then some call else s.calls m := by
      unfold CaptureState.begin CaptureState.setCall
      rw [hcalls, hnext]
    refine h.idle hat (hnext ▸ Nat.lt_succ_self _) (hnext ▸ Nat.le_succ _) hjobs ?_
    rintro _ ⟨⟩
    exact hclaim
  cases action with
  | startCapture node input gates | timer node job =>
    simp only [captureStep]
    split
    · exact hbegin rfl rfl rfl rfl
    · exact h
  | stopCapture node job => exact hbegin rfl rfl rfl rfl
  | sweep node job => exact hbegin rfl rfl rfl rfl
  | next n reply =>
    simp only [captureStep]
    split
    next call hcall => exact next_ordered h hcall (hok call hcall)
    next => exact h
  | take node job opened =>
    simp only [captureStep, CaptureState.take]
    split
    · split
      · split <;> exact h.congr rfl rfl rfl
      · exact h
    · exact h
  | packets node bytes =>
    simp only [captureStep, CaptureState.packets]
    split
    · split
      · split <;> exact h.congr rfl rfl rfl
      · exact h
    · exact h
  | exit node => exact h.congr rfl rfl rfl

end KasterCti.PacketCapture
