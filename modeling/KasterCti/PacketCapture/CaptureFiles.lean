import KasterCti.PacketCapture.CaptureOrder

/-!
# The files of the capture jobs

The output of `dumpcap` and its encryption, while the settle run of a job hashes, encrypts
and deletes them.

Results:
1. `Filed.change`: the files of one job change, and calls that settle it go on.
2. `settleNext_filed`: the awaits of a settle run.
3. `take_filed`, `packets_filed`: the capture and its file grow alike.
4. `captureStep_filed`: what every step keeps where no call passes its check while another
   one is behind it.
-/

namespace KasterCti.PacketCapture

variable {cfg : CaptureConfig} {s s' : CaptureState} {n node job : Nat} {filePath : String}
  {call : CaptureCall} {after : Option CaptureCall} {reply : CaptureReply} {phase : SettlePhase}

/-! ## The files of a job -/

/-- `dumpcap` has run for the job and runs no more. -/
def Closed (s : CaptureState) (job : Nat) : Prop :=
  s.requests job = .taken ∧ ∀ node, s.running node ≠ some job

/-- The capture of the job is where a row with this `encryptedFilePath` says. -/
def Stored (cfg : CaptureConfig) (s : CaptureState) (job : Nat) (filePath : String) :
    Option String → Prop
  | none => s.disk filePath = some (.capture (s.captured job))
  | some path => path = cfg.target filePath ∧ Closed s job ∧
    s.disk path = some (.encrypted (.capture (s.captured job)))

/-- What a settle run has come to. -/
def Fits (cfg : CaptureConfig) (s : CaptureState) (n job : Nat) (filePath : String) :
    SettlePhase → Prop
  | .copy content | .trailer content => Closed s job ∧ content = .capture (s.captured job) ∧
    s.disk (cfg.target filePath) = some (.ciphering n)
  | .unlink => Stored cfg s job filePath (some (cfg.target filePath))
  | .save encryptedFilePath => Stored cfg s job filePath encryptedFilePath
  | _ => True

structure Filed (cfg : CaptureConfig) (s : CaptureState) : Prop where
  apart : ∀ (i j : Nat) (row other : CaptureJob), s.jobs[i]? = some row → s.jobs[j]? = some other →
    i ≠ j → other.apart cfg row.filePath
  target : ∀ (i : Nat) (row : CaptureJob), s.jobs[i]? = some row → cfg.target row.filePath ≠ row.filePath
  owned : ∀ path content, s.disk path = some content → ∃ i : Nat, ∃ row : CaptureJob,
    s.jobs[i]? = some row ∧ (path = row.filePath ∨ path = cfg.target row.filePath)
  agent : ∀ node job, s.running node = some job → s.requests job = .taken ∧
    ∃ row : CaptureJob, s.jobs[job]? = some row ∧ row.nodeId = node
  unsent : ∀ job, s.jobs.length ≤ job → s.requests job = .unsent
  plain : ∀ (job : Nat) (row : CaptureJob) content, s.jobs[job]? = some row → s.disk row.filePath = some content →
    content = .capture (s.captured job) ∧ s.requests job = .taken
  kept : ∀ (job : Nat) (row : CaptureJob), s.jobs[job]? = some row → row.status = .completed →
    Stored cfg s job row.filePath row.encryptedFilePath
  settles : ∀ n node job filePath phase, s.calls n = some (.settle node job filePath phase) →
    ∃ row : CaptureJob, s.jobs[job]? = some row ∧ filePath = row.filePath ∧
      Fits cfg s n job filePath phase

/-- Nothing changes for the job. -/
structure Same (cfg : CaptureConfig) (s s' : CaptureState) (job : Nat) (filePath : String) : Prop where
  captured : s'.captured job = s.captured job
  taken : s.requests job = .taken → s'.requests job = .taken
  running : ∀ node, s'.running node = some job → s.running node = some job
  plain : s'.disk filePath = s.disk filePath
  encrypted : s'.disk (cfg.target filePath) = s.disk (cfg.target filePath)

theorem Same.closed (h : Same cfg s s' job filePath) (hclosed : Closed s job) : Closed s' job :=
  ⟨h.taken hclosed.1, fun node hnode => hclosed.2 node (h.running node hnode)⟩

theorem Same.stored {encryptedFilePath : Option String} (h : Same cfg s s' job filePath)
    (hstored : Stored cfg s job filePath encryptedFilePath) :
    Stored cfg s' job filePath encryptedFilePath := by
  cases encryptedFilePath with
  | none =>
    unfold Stored at hstored ⊢
    rw [h.plain, h.captured]
    exact hstored
  | some path =>
    obtain ⟨rfl, hclosed, hdisk⟩ := hstored
    refine ⟨rfl, h.closed hclosed, ?_⟩
    rw [h.encrypted, h.captured]
    exact hdisk

theorem Same.fits (h : Same cfg s s' job filePath) (hfits : Fits cfg s n job filePath phase) :
    Fits cfg s' n job filePath phase := by
  have hread : ∀ content : Content, Closed s job ∧ content = .capture (s.captured job) ∧
      s.disk (cfg.target filePath) = some (.ciphering n) →
      Closed s' job ∧ content = .capture (s'.captured job) ∧
        s'.disk (cfg.target filePath) = some (.ciphering n) := by
    rintro content ⟨hclosed, hcontent, hdisk⟩
    refine ⟨h.closed hclosed, ?_, ?_⟩
    · rw [h.captured]
      exact hcontent
    · rw [h.encrypted]
      exact hdisk
  cases phase with
  | status => trivial
  | stat => trivial
  | hash => trivial
  | prepare => trivial
  | opening => trivial
  | copy content => exact hread content hfits
  | trailer content => exact hread content hfits
  | unlink =>
    have hstored : Stored cfg s job filePath (some (cfg.target filePath)) := hfits
    exact h.stored hstored
  | save encryptedFilePath => exact h.stored hfits
  | fail => trivial

/-- Before the output is closed nothing is encrypted, and only what lies at `filePath` can have
been saved. -/
theorem stored_of_open {encryptedFilePath : Option String} (hopen : ¬ Closed s job)
    (hplain : s.disk filePath = some (.capture (s.captured job)) →
      s'.disk filePath = some (.capture (s'.captured job)))
    (h : Stored cfg s job filePath encryptedFilePath) :
    Stored cfg s' job filePath encryptedFilePath := by
  cases encryptedFilePath with
  | none => exact hplain h
  | some path => exact absurd h.2.1 hopen

theorem fits_of_open (hopen : ¬ Closed s job)
    (hplain : s.disk filePath = some (.capture (s.captured job)) →
      s'.disk filePath = some (.capture (s'.captured job)))
    (h : Fits cfg s n job filePath phase) : Fits cfg s' n job filePath phase := by
  cases phase with
  | status => trivial
  | stat => trivial
  | hash => trivial
  | prepare => trivial
  | opening => trivial
  | copy content => exact absurd h.1 hopen
  | trailer content => exact absurd h.1 hopen
  | unlink => exact absurd h.2.1 hopen
  | save encryptedFilePath => exact stored_of_open hopen hplain h
  | fail => trivial

/-- The files of one job change, and calls that settle it go on. -/
theorem Filed.change (h : Filed cfg s) {k : Nat} {row : CaptureJob} (hrow : s.jobs[k]? = some row)
    (hjobs : s'.jobs = s.jobs)
    (hsame : ∀ j ≠ k, ∀ other, s.jobs[j]? = some other → Same cfg s s' j other.filePath)
    (howned : ∀ path content, s'.disk path = some content → s.disk path = some content ∨
      path = row.filePath ∨ path = cfg.target row.filePath)
    (hagent : ∀ node job, s'.running node = some job →
      s.running node = some job ∧ s'.requests job = s.requests job ∨
        s'.requests job = .taken ∧ ∃ row, s.jobs[job]? = some row ∧ row.nodeId = node)
    (hunsent : ∀ job, s.jobs.length ≤ job → s'.requests job = s.requests job)
    (hplain : ∀ content, s'.disk row.filePath = some content →
      content = .capture (s'.captured k) ∧ s'.requests k = .taken)
    (hkept : row.status = .completed → Stored cfg s' k row.filePath row.encryptedFilePath)
    (hcalls : ∀ m node job filePath phase, job ≠ k →
      s'.calls m = some (.settle node job filePath phase) →
        s.calls m = some (.settle node job filePath phase))
    (hsettles : ∀ m node filePath phase, s'.calls m = some (.settle node k filePath phase) →
      filePath = row.filePath ∧ Fits cfg s' m k filePath phase) : Filed cfg s' := by
  refine ⟨?_, ?_, ?_, ?_, ?_, ?_, ?_, ?_⟩
  · rw [hjobs]
    exact h.apart
  · rw [hjobs]
    exact h.target
  · rw [hjobs]
    intro path content hdisk
    rcases howned path content hdisk with hold | hown
    · exact h.owned path content hold
    · exact ⟨k, row, hrow, hown⟩
  · rw [hjobs]
    intro node job hrun
    rcases hagent node job hrun with ⟨hold, hrequest⟩ | hnew
    · rw [hrequest]
      exact h.agent node job hold
    · exact hnew
  · rw [hjobs]
    intro job hlength
    rw [hunsent job hlength]
    exact h.unsent job hlength
  · rw [hjobs]
    intro job other content hother hdisk
    by_cases hjob : job = k
    · subst hjob
      obtain rfl := Option.some.inj (hrow.symm.trans hother)
      exact hplain content hdisk
    · have hkeep := hsame job hjob other hother
      rw [hkeep.plain] at hdisk
      obtain ⟨hcontent, htaken⟩ := h.plain job other content hother hdisk
      rw [hkeep.captured]
      exact ⟨hcontent, hkeep.taken htaken⟩
  · rw [hjobs]
    intro job other hother hstatus
    by_cases hjob : job = k
    · subst hjob
      obtain rfl := Option.some.inj (hrow.symm.trans hother)
      exact hkept hstatus
    · exact (hsame job hjob other hother).stored (h.kept job other hother hstatus)
  · rw [hjobs]
    intro m node job filePath phase hcall
    by_cases hjob : job = k
    · subst hjob
      exact ⟨row, hrow, hsettles m node filePath phase hcall⟩
    · obtain ⟨other, hother, rfl, hfits⟩ :=
        h.settles m node job filePath phase (hcalls m node job filePath phase hjob hcall)
      exact ⟨other, hother, rfl, (hsame job hjob other hother).fits hfits⟩

/-- A call goes on and touches no file. -/
theorem Filed.goOn (h : Filed cfg s) (hcalls : s'.calls = fun m => if m = n then after else s.calls m)
    (hjobs : s'.jobs = s.jobs) (hrequests : s'.requests = s.requests)
    (hrunning : s'.running = s.running) (hcaptured : s'.captured = s.captured)
    (hdisk : s'.disk = s.disk)
    (hfits : ∀ node job filePath phase, after = some (.settle node job filePath phase) →
      ∃ row : CaptureJob, s.jobs[job]? = some row ∧ filePath = row.filePath ∧
        Fits cfg s n job filePath phase) : Filed cfg s' := by
  have hsame : ∀ job filePath, Same cfg s s' job filePath := fun job filePath =>
    ⟨by rw [hcaptured], fun htaken => by rw [hrequests, htaken],
      fun node hnode => by rw [hrunning] at hnode; exact hnode, by rw [hdisk], by rw [hdisk]⟩
  refine ⟨?_, ?_, ?_, ?_, ?_, ?_, ?_, ?_⟩
  · rw [hjobs]
    exact h.apart
  · rw [hjobs]
    exact h.target
  · rw [hjobs, hdisk]
    exact h.owned
  · rw [hjobs, hrunning, hrequests]
    exact h.agent
  · rw [hjobs, hrequests]
    exact h.unsent
  · rw [hjobs, hdisk, hcaptured, hrequests]
    exact h.plain
  · rw [hjobs]
    intro job row hrow hstatus
    exact (hsame job row.filePath).stored (h.kept job row hrow hstatus)
  · rw [hjobs]
    intro m node job filePath phase hcall
    have hat : s'.calls m = if m = n then after else s.calls m := congrFun hcalls m
    rw [hat] at hcall
    have hfound : ∃ row : CaptureJob, s.jobs[job]? = some row ∧ filePath = row.filePath ∧
        Fits cfg s m job filePath phase := by
      by_cases hm : m = n
      · subst hm
        rw [if_pos rfl] at hcall
        exact hfits node job filePath phase hcall
      · rw [if_neg hm] at hcall
        exact h.settles m node job filePath phase hcall
    obtain ⟨row, hrow, hpath, hfits⟩ := hfound
    exact ⟨row, hrow, hpath, (hsame job filePath).fits hfits⟩

/-- A row is updated by the call that holds its job. -/
theorem Filed.endJob {update : CaptureJob → CaptureJob} {row : CaptureJob} (h : Filed cfg s)
    (hrow : s.jobs[job]? = some row) (hnode : (update row).nodeId = row.nodeId)
    (hpath : (update row).filePath = row.filePath)
    (hkept : (update row).status = .completed →
      Stored cfg s job row.filePath (update row).encryptedFilePath) :
    Filed cfg ((s.updateJob job update).setCall n none) := by
  have hself : (s.updateJob job update).jobs[job]? = some (update row) :=
    CaptureState.updateJob_self hrow
  -- a row of the table behind the write, and the one it was
  have hold : ∀ j other, (s.updateJob job update).jobs[j]? = some other →
      ∃ old : CaptureJob, s.jobs[j]? = some old ∧ other.filePath = old.filePath ∧
        other.nodeId = old.nodeId ∧ (j ≠ job → other = old) := by
    intro j other hother
    by_cases hj : j = job
    · subst hj
      obtain rfl := Option.some.inj (hself.symm.trans hother)
      exact ⟨row, hrow, hpath, hnode, fun hne => absurd rfl hne⟩
    · exact ⟨other, (CaptureState.updateJob_other hj).symm.trans hother, rfl, rfl, fun _ => rfl⟩
  have hnew : ∀ (j : Nat) (old : CaptureJob), s.jobs[j]? = some old → ∃ other : CaptureJob,
      (s.updateJob job update).jobs[j]? = some other ∧ other.filePath = old.filePath ∧
        other.nodeId = old.nodeId := by
    intro j old hj
    by_cases hjob : j = job
    · subst hjob
      obtain rfl := Option.some.inj (hrow.symm.trans hj)
      exact ⟨update row, hself, hpath, hnode⟩
    · exact ⟨old, (CaptureState.updateJob_other hjob).trans hj, rfl, rfl⟩
  have hsame : ∀ j filePath, Same cfg s ((s.updateJob job update).setCall n none) j filePath :=
    fun j filePath => ⟨rfl, id, fun _ => id, rfl, rfl⟩
  refine ⟨?_, ?_, ?_, ?_, ?_, ?_, ?_, ?_⟩
  · intro i j first second hfirst hsecond hij
    obtain ⟨old, hi, hfile, -, -⟩ := hold i first hfirst
    obtain ⟨old', hj, hfile', -, -⟩ := hold j second hsecond
    have hapart := h.apart i j old old' hi hj hij
    unfold CaptureJob.apart at hapart ⊢
    rw [hfile, hfile']
    exact hapart
  · intro i other hother
    obtain ⟨old, hi, hfile, -, -⟩ := hold i other hother
    rw [hfile]
    exact h.target i old hi
  · intro path content hdisk
    obtain ⟨i, old, hi, hor⟩ := h.owned path content hdisk
    obtain ⟨other, hother, hfile, -⟩ := hnew i old hi
    exact ⟨i, other, hother, hfile ▸ hor⟩
  · intro node j hrun
    obtain ⟨htaken, old, hj, hnodeId⟩ := h.agent node j hrun
    obtain ⟨other, hother, -, hnode'⟩ := hnew j old hj
    exact ⟨htaken, other, hother, hnode'.trans hnodeId⟩
  · intro j hlength
    refine h.unsent j ?_
    simpa [CaptureState.setCall, CaptureState.updateJob] using hlength
  · intro j other content hother hdisk
    obtain ⟨old, hj, hfile, -, -⟩ := hold j other hother
    exact h.plain j old content hj (hfile ▸ hdisk)
  · intro j other hother hstatus
    by_cases hj : j = job
    · subst hj
      obtain rfl := Option.some.inj (hself.symm.trans hother)
      rw [hpath]
      exact (hsame j row.filePath).stored (hkept hstatus)
    · obtain ⟨old, hold', -, -, heq⟩ := hold j other hother
      obtain rfl := heq hj
      exact (hsame j other.filePath).stored (h.kept j other hold' hstatus)
  · intro m node j filePath phase hcall
    have hcall' : s.calls m = some (.settle node j filePath phase) := by
      by_cases hm : m = n
      · subst hm
        simp [CaptureState.setCall] at hcall
      · simpa [CaptureState.setCall, CaptureState.updateJob, hm] using hcall
    obtain ⟨old, hj, rfl, hfits⟩ := h.settles m node j filePath phase hcall'
    obtain ⟨other, hother, hfile, -⟩ := hnew j old hj
    exact ⟨other, hother, hfile.symm, (hsame j old.filePath).fits hfits⟩

/-- A new job has no file yet. -/
theorem Filed.insert {row : CaptureJob} (h : Filed cfg s) (hstatus : row.status = .running)
    (htarget : cfg.target row.filePath ≠ row.filePath)
    (hapart : ∀ other ∈ s.jobs, other.apart cfg row.filePath) :
    Filed cfg ((s.insertJob row).setCall n (some (.request s.jobs.length))) := by
  have hlt : ∀ {j : Nat} {old : CaptureJob}, s.jobs[j]? = some old → j < s.jobs.length :=
    fun hj => (List.getElem?_eq_some_iff.mp hj).1
  have hrequest : ∀ j, j ≠ s.jobs.length → (s.insertJob row).requests j = s.requests j :=
    fun j hj => if_neg hj
  have hsame : ∀ j filePath, j < s.jobs.length →
      Same cfg s ((s.insertJob row).setCall n (some (.request s.jobs.length))) j filePath :=
    fun j filePath hj =>
      ⟨rfl, fun htaken => (hrequest j hj.ne).trans htaken, fun _ => id, rfl, rfl⟩
  have hfree : ∀ content, s.disk row.filePath ≠ some content := by
    intro content hdisk
    obtain ⟨i, other, hother, hown⟩ := h.owned _ content hdisk
    obtain ⟨hplain, hencrypted, -, -⟩ := hapart other (List.mem_of_getElem? hother)
    rcases hown with hown | hown
    · exact hplain hown
    · exact hencrypted hown
  refine ⟨?_, ?_, ?_, ?_, ?_, ?_, ?_, ?_⟩
  · intro i j first second hfirst hsecond hij
    rcases CaptureState.insertJob_cases hfirst with hi | ⟨rfl, rfl⟩ <;>
      rcases CaptureState.insertJob_cases hsecond with hj | ⟨rfl, rfl⟩
    · exact h.apart i j first second hi hj hij
    · obtain ⟨h1, h2, h3, h4⟩ := hapart first (List.mem_of_getElem? hi)
      exact ⟨h1.symm, h3.symm, h2.symm, h4.symm⟩
    · exact hapart second (List.mem_of_getElem? hj)
    · exact absurd rfl hij
  · intro i other hother
    rcases CaptureState.insertJob_cases hother with hi | ⟨-, rfl⟩
    · exact h.target i other hi
    · exact htarget
  · intro path content hdisk
    obtain ⟨i, old, hi, hown⟩ := h.owned path content hdisk
    exact ⟨i, old, (CaptureState.insertJob_old (hlt hi)).trans hi, hown⟩
  · intro node j hrun
    obtain ⟨htaken, old, hj, hnode⟩ := h.agent node j hrun
    exact ⟨(hrequest j (hlt hj).ne).trans htaken, old,
      (CaptureState.insertJob_old (hlt hj)).trans hj, hnode⟩
  · intro j hlength
    have hlength' : s.jobs.length + 1 ≤ j := by
      simpa [CaptureState.setCall, CaptureState.insertJob, CaptureState.setRequest] using hlength
    exact (hrequest j (Nat.ne_of_gt hlength')).trans (h.unsent j (Nat.le_of_succ_le hlength'))
  · intro j other content hother hdisk
    rcases CaptureState.insertJob_cases hother with hj | ⟨-, rfl⟩
    · obtain ⟨hcontent, htaken⟩ := h.plain j other content hj hdisk
      exact ⟨hcontent, (hrequest j (hlt hj).ne).trans htaken⟩
    · exact absurd hdisk (hfree content)
  · intro j other hother hcompleted
    rcases CaptureState.insertJob_cases hother with hj | ⟨-, rfl⟩
    · exact (hsame j other.filePath (hlt hj)).stored (h.kept j other hj hcompleted)
    · rw [hstatus] at hcompleted
      cases hcompleted
  · intro m node j filePath phase hcall
    have hcall' : s.calls m = some (.settle node j filePath phase) := by
      by_cases hm : m = n
      · subst hm
        simp [CaptureState.setCall] at hcall
      · simpa [CaptureState.setCall, CaptureState.insertJob, CaptureState.setRequest, hm] using hcall
    obtain ⟨old, hj, rfl, hfits⟩ := h.settles m node j filePath phase hcall'
    exact ⟨old, (CaptureState.insertJob_old (hlt hj)).trans hj, rfl,
      (hsame j old.filePath (hlt hj)).fits hfits⟩

/-! ## Steps of a settle run -/

/-- A settle run writes to one of the files of its job. -/
theorem Filed.write (h : Filed cfg s) (ho : Ordered s) {path : String} {content : Option Content}
    {phase' : SettlePhase} (hcall : s.calls n = some (.settle node job filePath phase))
    (hpath : path = cfg.target filePath ∨ path = filePath ∧ content = none)
    (hfits : Fits cfg (s.setFile path content) n job filePath phase') :
    Filed cfg ((s.setFile path content).setCall n (some (.settle node job filePath phase'))) := by
  obtain ⟨row, hrow, rfl, -⟩ := h.settles n node job filePath phase hcall
  have hrunning : row.status = .running :=
    (CaptureState.isRunning_of_status hrow).mp (ho.right n _ hcall _ rfl)
  refine h.change hrow rfl ?_ ?_ ?_ (fun _ _ => rfl) ?_ ?_ ?_ ?_
  · intro j hj other hother
    obtain ⟨h1, h2, h3, h4⟩ := h.apart j job other row hother hrow hj
    refine ⟨rfl, id, fun _ => id, if_neg ?_, if_neg ?_⟩
    · rcases hpath with rfl | ⟨rfl, -⟩
      · exact h2
      · exact h1
    · rcases hpath with rfl | ⟨rfl, -⟩
      · exact h4
      · exact h3
  · intro p x hdisk
    by_cases hp : p = path
    · rcases hpath with heq | ⟨heq, -⟩
      · exact .inr (.inr (hp.trans heq))
      · exact .inr (.inl (hp.trans heq))
    · exact .inl ((if_neg hp).symm.trans hdisk)
  · exact fun node job hrun => .inl ⟨hrun, rfl⟩
  · intro x hdisk
    rcases hpath with rfl | ⟨rfl, rfl⟩
    · have hdisk' : s.disk row.filePath = some x :=
        (if_neg (h.target job row hrow).symm).symm.trans hdisk
      exact h.plain job row x hrow hdisk'
    · have hnone : some x = none := hdisk.symm.trans (if_pos rfl)
      cases hnone
  · rw [hrunning]
    rintro ⟨⟩
  · intro m node' j filePath' phase'' hj hcall'
    by_cases hm : m = n
    · subst hm
      simp only [CaptureState.setCall, if_true, Option.some.injEq, CaptureCall.settle.injEq]
        at hcall'
      exact absurd hcall'.2.1.symm hj
    · simpa [CaptureState.setCall, CaptureState.setFile, hm] using hcall'
  · intro m node' filePath' phase'' hcall'
    by_cases hm : m = n
    · subst hm
      simp only [CaptureState.setCall, if_true, Option.some.injEq, CaptureCall.settle.injEq]
        at hcall'
      obtain ⟨-, -, rfl, rfl⟩ := hcall'
      exact ⟨rfl, hfits⟩
    · have hother : s.calls m = some (.settle node' job filePath' phase'') := by
        simpa [CaptureState.setCall, CaptureState.setFile, hm] using hcall'
      exact absurd (ho.alone m n _ hother _ hcall _ rfl rfl) hm

theorem settleNext_filed (h : Filed cfg s) (ho : Ordered s)
    (hcall : s.calls n = some (.settle node job filePath phase))
    (hok : Unclaimed cfg s reply (.settle node job filePath phase)) :
    Filed cfg (s.settleNext cfg n node job filePath reply phase) := by
  obtain ⟨row, hrow, hpath, hfits⟩ := h.settles n node job filePath phase hcall
  have hend : Filed cfg (s.setCall n none) := h.goOn rfl rfl rfl rfl rfl rfl (by rintro _ _ _ _ ⟨⟩)
  have hgo : ∀ phase' : SettlePhase, Fits cfg s n job filePath phase' →
      Filed cfg (s.setCall n (some (.settle node job filePath phase'))) := by
    intro phase' hfits'
    refine h.goOn rfl rfl rfl rfl rfl rfl ?_
    rintro _ _ _ _ ⟨⟩
    exact ⟨row, hrow, hpath, hfits'⟩
  cases phase with
  | status =>
    simp only [CaptureState.settleNext]
    split
    · exact hend
    · exact hgo .stat trivial
  | stat =>
    refine hgo _ ?_
    split <;> trivial
  | hash =>
    refine hgo _ ?_
    split
    next hpass =>
      split
      · trivial
      · -- without encryption the capture stays where it is
        obtain ⟨content, hdisk⟩ := Option.isSome_iff_exists.mp (Bool.and_eq_true_iff.mp hpass).2
        obtain ⟨rfl, -⟩ := h.plain job row content hrow (hpath ▸ hdisk)
        exact hdisk
    · trivial
  | prepare =>
    refine hgo _ ?_
    split <;> trivial
  | opening =>
    refine h.write ho hcall (.inl rfl) ?_
    split
    next content hreply hdisk =>
      obtain ⟨hcontent, htaken⟩ := h.plain job row content hrow (hpath ▸ hdisk)
      refine ⟨⟨htaken, fun node' hrun => ?_⟩, hcontent, if_pos rfl⟩
      obtain ⟨-, row', hrow', rfl⟩ := h.agent node' job hrun
      exact hok hreply row' hrow' hrun
    · trivial
  | copy content =>
    obtain ⟨hclosed, hcontent, hcipher⟩ := hfits
    refine hgo _ ?_
    split
    · refine ⟨hclosed, ?_, hcipher⟩
      cases hdisk : s.disk filePath with
      | none => exact hcontent
      | some current => exact (h.plain job row current hrow (hpath ▸ hdisk)).1
    · trivial
  | trailer content =>
    obtain ⟨hclosed, rfl, hcipher⟩ := hfits
    simp only [CaptureState.settleNext, hcipher, if_true]
    split
    · exact h.write ho hcall (.inl rfl) ⟨rfl, hclosed, if_pos rfl⟩
    · exact hgo .fail trivial
  | unlink =>
    simp only [CaptureState.settleNext]
    split
    · refine h.write ho hcall (.inr ⟨rfl, rfl⟩) ?_
      obtain ⟨-, hclosed, hdisk⟩ := hfits
      refine ⟨rfl, hclosed, ?_⟩
      have htarget : cfg.target filePath ≠ filePath := hpath ▸ h.target job row hrow
      exact (if_neg htarget).trans hdisk
    · exact hgo .fail trivial
  | save encryptedFilePath =>
    simp only [CaptureState.settleNext]
    split
    · exact h.endJob hrow rfl rfl fun _ => hpath ▸ hfits
    · exact hgo .fail trivial
  | fail =>
    simp only [CaptureState.settleNext]
    split
    · exact h.endJob hrow rfl rfl (by rintro ⟨⟩)
    · exact hend

theorem next_filed (h : Filed cfg s) (ho : Ordered s) (hcall : s.calls n = some call)
    (hok : Unclaimed cfg s reply call) : Filed cfg (s.next cfg n reply call) := by
  have hend : Filed cfg (s.setCall n none) := h.goOn rfl rfl rfl rfl rfl rfl (by rintro _ _ _ _ ⟨⟩)
  have hfind : ∀ {job : Nat}, call.claim = some (.endJob job) → ∃ row, s.jobs[job]? = some row := by
    intro job hclaim
    obtain ⟨row, hrow, -⟩ := CaptureState.isRunning_iff.mp (ho.right n call hcall _ hclaim)
    exact ⟨row, hrow⟩
  cases call with
  | search node input =>
    simp only [CaptureState.next]
    split
    · exact h.goOn rfl rfl rfl rfl rfl rfl (by rintro _ _ _ _ ⟨⟩)
    · exact hend
  | interfaces node input =>
    refine h.goOn rfl rfl rfl rfl rfl rfl ?_
    intro _ _ _ _ hsome
    obtain ⟨valid, -, heq⟩ := Option.map_eq_some_iff.mp hsome
    cases heq
  | create node input outputPath =>
    simp only [CaptureState.next]
    split
    next hreply => exact h.insert rfl (hok hreply).1 (hok hreply).2
    · exact hend
  | request job =>
    simp only [CaptureState.next]
    split
    · split
      · exact h.goOn rfl rfl rfl rfl rfl rfl (by rintro _ _ _ _ ⟨⟩)
      · exact hend
    · exact h.goOn rfl rfl rfl rfl rfl rfl (by rintro _ _ _ _ ⟨⟩)
  | refuse job =>
    simp only [CaptureState.next]
    split
    · obtain ⟨row, hrow⟩ := hfind rfl
      exact h.endJob hrow rfl rfl (by rintro ⟨⟩)
    · exact hend
  | lookup node job =>
    refine h.goOn rfl rfl rfl rfl rfl rfl ?_
    intro _ _ _ _ hsome
    split at hsome <;> cases hsome
  | stop node job => exact h.goOn rfl rfl rfl rfl rfl rfl (by rintro _ _ _ _ ⟨⟩)
  | find node job =>
    simp only [CaptureState.next]
    split
    next row hpass hrow =>
      refine h.goOn rfl rfl rfl rfl rfl rfl ?_
      rintro _ _ _ _ ⟨⟩
      exact ⟨row, hrow, rfl, trivial⟩
    · exact hend
  | settle node job filePath phase => exact settleNext_filed h ho hcall hok

/-! ## Steps of the agents -/

theorem take_filed {opened : Bool} (h : Filed cfg s) : Filed cfg (s.take node job opened) := by
  unfold CaptureState.take
  split
  next row hrow =>
    split
    next hguard =>
      obtain ⟨hnode, hposted, hidle⟩ := hguard
      have huntaken : s.requests job ≠ .taken := by rw [hposted]; rintro ⟨⟩
      have hopen : ¬ Closed s job := fun hclosed => huntaken hclosed.1
      -- the request was not taken up, so there is no file
      have hnone : s.disk row.filePath ≠ some (.capture (s.captured job)) := fun hdisk =>
        huntaken (h.plain job row _ hrow hdisk).2
      have hlength : ∀ j, s.jobs.length ≤ j → j ≠ job := fun j hj hjob =>
        absurd (hjob ▸ hj) (Nat.not_le.mpr (List.getElem?_eq_some_iff.mp hrow).1)
      have hsettles : ∀ s' : CaptureState, ∀ m node' filePath phase,
          s.calls m = some (.settle node' job filePath phase) →
            filePath = row.filePath ∧ Fits cfg s' m job filePath phase := by
        intro s' m node' filePath phase hcall
        obtain ⟨row', hrow', rfl, hfits⟩ := h.settles m node' job filePath phase hcall
        obtain rfl := Option.some.inj (hrow.symm.trans hrow')
        exact ⟨rfl, fits_of_open hopen (fun hdisk => absurd hdisk hnone) hfits⟩
      split
      · refine h.change hrow rfl ?_ ?_ ?_ (fun j hj => if_neg (hlength j hj)) ?_ ?_
          (fun _ _ _ _ _ _ => id) (hsettles _)
        · intro j hj other hother
          obtain ⟨h1, h2, -, -⟩ := h.apart job j row other hrow hother hj.symm
          refine ⟨if_neg hj, fun htaken => (if_neg hj).trans htaken, fun node' hrun => ?_,
            if_neg h1.symm, if_neg h2.symm⟩
          by_cases hnode' : node' = node
          · have hjob : some job = some j := (if_pos hnode').symm.trans hrun
            exact absurd (Option.some.inj hjob).symm hj
          · exact (if_neg hnode').symm.trans hrun
        · intro path content hdisk
          by_cases hpath : path = row.filePath
          · exact .inr (.inl hpath)
          · exact .inl ((if_neg hpath).symm.trans hdisk)
        · intro node' j hrun
          by_cases hnode' : node' = node
          · have hjob : some job = some j := (if_pos hnode').symm.trans hrun
            obtain rfl := Option.some.inj hjob
            exact .inr ⟨if_pos rfl, row, hrow, hnode.trans hnode'.symm⟩
          · have hrun' : s.running node' = some j := (if_neg hnode').symm.trans hrun
            have hj : j ≠ job := fun heq => huntaken (heq ▸ (h.agent node' j hrun').1)
            exact .inl ⟨hrun', if_neg hj⟩
        · intro content hdisk
          have hcontent : some (Content.capture []) = some content := (if_pos rfl).symm.trans hdisk
          obtain rfl := Option.some.inj hcontent
          exact ⟨congrArg Content.capture (if_pos rfl).symm, if_pos rfl⟩
        · intro hstatus
          exact stored_of_open hopen (fun hdisk => absurd hdisk hnone) (h.kept job row hrow hstatus)
      · refine h.change hrow rfl ?_ (fun _ _ => .inl) ?_ (fun j hj => if_neg (hlength j hj)) ?_ ?_
          (fun _ _ _ _ _ _ => id) (hsettles _)
        · intro j hj other hother
          exact ⟨rfl, fun htaken => (if_neg hj).trans htaken, fun _ => id, rfl, rfl⟩
        · intro node' j hrun
          have hj : j ≠ job := fun heq => huntaken (heq ▸ (h.agent node' j hrun).1)
          exact .inl ⟨hrun, if_neg hj⟩
        · intro content hdisk
          exact absurd (h.plain job row content hrow hdisk).2 huntaken
        · intro hstatus
          exact stored_of_open hopen (fun hdisk => absurd hdisk hnone) (h.kept job row hrow hstatus)
    · exact h
  · exact h

/-- The capture and its file grow alike. -/
theorem packets_filed {bytes : List UInt8} (h : Filed cfg s) : Filed cfg (s.packets node bytes) := by
  unfold CaptureState.packets
  split
  next job hrun =>
    obtain ⟨htaken, row, hrow, -⟩ := h.agent node job hrun
    rw [hrow]
    have hopen : ¬ Closed s job := fun hclosed => hclosed.2 node hrun
    have hsettles : ∀ s' : CaptureState, (s.disk row.filePath = some (.capture (s.captured job)) →
        s'.disk row.filePath = some (.capture (s'.captured job))) → ∀ m node' filePath phase,
          s.calls m = some (.settle node' job filePath phase) →
            filePath = row.filePath ∧ Fits cfg s' m job filePath phase := by
      intro s' hplain m node' filePath phase hcall
      obtain ⟨row', hrow', rfl, hfits⟩ := h.settles m node' job filePath phase hcall
      obtain rfl := Option.some.inj (hrow.symm.trans hrow')
      exact ⟨rfl, fits_of_open hopen hplain hfits⟩
    dsimp only
    split
    next written hdisk =>
      have hwritten : written = s.captured job :=
        Content.capture.inj (h.plain job row _ hrow hdisk).1
      subst hwritten
      have hplain : ∀ s' : CaptureState, s' = ((s.setCaptured job (s.captured job ++ bytes)).setFile
          row.filePath (some (.capture (s.captured job ++ bytes)))) →
          s'.disk row.filePath = some (.capture (s'.captured job)) := by
        rintro s' rfl
        exact (if_pos rfl).trans (congrArg (fun b => some (Content.capture b)) (if_pos rfl).symm)
      refine h.change hrow rfl ?_ ?_ (fun _ _ hr => .inl ⟨hr, rfl⟩) (fun _ _ => rfl) ?_ ?_
        (fun _ _ _ _ _ _ => id) (hsettles _ fun _ => hplain _ rfl)
      · intro j hj other hother
        obtain ⟨h1, h2, -, -⟩ := h.apart job j row other hrow hother hj.symm
        exact ⟨if_neg hj, id, fun _ => id, if_neg h1.symm, if_neg h2.symm⟩
      · intro path content hcontent
        by_cases hpath : path = row.filePath
        · exact .inr (.inl hpath)
        · exact .inl ((if_neg hpath).symm.trans hcontent)
      · intro content hcontent
        exact ⟨Option.some.inj (hcontent.symm.trans (hplain _ rfl)), htaken⟩
      · intro hstatus
        exact stored_of_open hopen (fun _ => hplain _ rfl) (h.kept job row hrow hstatus)
    next hlost =>
      -- the output was deleted
      have hnone : s.disk row.filePath = none := by
        cases hdisk : s.disk row.filePath with
        | none => rfl
        | some content => exact absurd ((h.plain job row content hrow hdisk).1 ▸ hdisk) (hlost _)
      have hgone : s.disk row.filePath ≠ some (.capture (s.captured job)) := by
        rw [hnone]
        rintro ⟨⟩
      refine h.change hrow rfl ?_ (fun _ _ => .inl) (fun _ _ hr => .inl ⟨hr, rfl⟩) (fun _ _ => rfl)
        ?_ ?_ (fun _ _ _ _ _ _ => id) (hsettles _ fun hdisk => absurd hdisk hgone)
      · intro j hj other hother
        exact ⟨if_neg hj, id, fun _ => id, rfl, rfl⟩
      · intro content hcontent
        have hsome : none = some content := hnone.symm.trans hcontent
        cases hsome
      · intro hstatus
        exact stored_of_open hopen (fun hdisk => absurd hdisk hgone) (h.kept job row hrow hstatus)
  · exact h

theorem exit_filed (h : Filed cfg s) : Filed cfg (s.setRunning node none) := by
  have hrunning : ∀ node' job, (s.setRunning node none).running node' = some job →
      s.running node' = some job := by
    intro node' job hrun
    by_cases hnode : node' = node
    · have hnone : none = some job := (if_pos hnode).symm.trans hrun
      cases hnone
    · exact (if_neg hnode).symm.trans hrun
  have hsame : ∀ job filePath, Same cfg s (s.setRunning node none) job filePath :=
    fun job filePath => ⟨rfl, id, fun node' => hrunning node' job, rfl, rfl⟩
  refine ⟨h.apart, h.target, h.owned, fun node' job hrun => h.agent node' job (hrunning node' job hrun),
    h.unsent, h.plain, ?_, ?_⟩
  · intro job row hrow hstatus
    exact (hsame job row.filePath).stored (h.kept job row hrow hstatus)
  · intro n node' job filePath phase hcall
    obtain ⟨row, hrow, hpath, hfits⟩ := h.settles n node' job filePath phase hcall
    exact ⟨row, hrow, hpath, (hsame job filePath).fits hfits⟩

/-- What every step keeps. -/
theorem captureStep_filed {action : CaptureAction} (h : Filed cfg s) (ho : Ordered s)
    (hok : NoOverlap cfg s action) : Filed cfg (captureStep cfg s action) := by
  have hbegin : ∀ {s' : CaptureState} {call : CaptureCall}, Filed cfg s' →
      (∀ node job filePath phase, call ≠ .settle node job filePath phase) →
      Filed cfg (s'.begin call) := by
    intro s' call hs' hcall
    have hat : (s'.begin call).calls = fun m => if m = s'.nextCall then some call else s'.calls m :=
      rfl
    refine hs'.goOn hat rfl rfl rfl rfl rfl ?_
    intro node job filePath phase hsome
    exact absurd (Option.some.inj hsome) (hcall node job filePath phase)
  have htimer : ∀ node job set, Filed cfg (s.setTimer node job set) :=
    fun _ _ _ => ⟨h.1, h.2, h.3, h.4, h.5, h.6, h.7, h.8⟩
  cases action with
  | startCapture node input gates =>
    simp only [captureStep]
    split
    · exact hbegin h (by rintro _ _ _ _ ⟨⟩)
    · exact h
  | stopCapture node job => exact hbegin h (by rintro _ _ _ _ ⟨⟩)
  | timer node job =>
    simp only [captureStep]
    split
    · exact hbegin (htimer _ _ _) (by rintro _ _ _ _ ⟨⟩)
    · exact h
  | sweep node job => exact hbegin (htimer _ _ _) (by rintro _ _ _ _ ⟨⟩)
  | next n reply =>
    simp only [captureStep]
    split
    next call hcall => exact next_filed h ho hcall (hok call hcall)
    next => exact h
  | take node job opened => exact take_filed h
  | packets node bytes => exact packets_filed h
  | exit node => exact exit_filed h

end KasterCti.PacketCapture
