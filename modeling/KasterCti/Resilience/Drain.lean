import KasterCti.Resilience.Recovery

/-!
# What a sweep leaves in the spool

A sweep that runs as leader, replays every record successfully and meets no live
event: for every tenant it reads, replays, compacts and unfreezes. None of its steps
moves a cursor past what it has replayed, and `compact` acts only when nothing is
behind the local cursor.

Results:
1. `sweeps_tenant`: what the pass over one tenant does to the spool.
2. `drained_iff_nothing_pending`: after the sweep the depth of a tenant is zero and
   its file is empty if and only if nothing was pending before it.
3. `replayed_spool_not_drained`: two replayed events stay pending.
-/

namespace KasterCti.Resilience

open Calls

/-- `n` awaits of the sweep come back well. -/
def nexts : Nat → Process → Process
  | 0, p => p
  | n + 1, p => nexts n (recoveryStep p (.next true))

/-- The sweep takes the process from one state to the other. -/
def Sweeps (p q : Process) : Prop := ∃ n, nexts n p = q

theorem Sweeps.refl (p : Process) : Sweeps p p := ⟨0, rfl⟩

theorem Sweeps.next {p q : Process} (h : Sweeps (recoveryStep p (.next true)) q) : Sweeps p q := by
  obtain ⟨n, hn⟩ := h
  exact ⟨n + 1, hn⟩

theorem Sweeps.trans {p q r : Process} (h₁ : Sweeps p q) (h₂ : Sweeps q r) : Sweeps p r := by
  obtain ⟨n, hn⟩ := h₁
  induction n generalizing p with
  | zero =>
    obtain rfl : p = q := hn
    exact h₂
  | succ n ih => exact (ih hn).next

/-! ## One tenant -/

/-- The spool after the pass over a tenant. -/
def Spool.swept (sp : Spool) (tenantId : String) : Spool :=
  (if sp.compactable tenantId then (sp.truncate tenantId).commitCursor tenantId (.local 0)
    else sp).clearBlocked tenantId

/-- A replay in which every record succeeds counts no failure. -/
theorem replayNext_ok (r : SpoolRecord) (rest : List SpoolRecord) (seen replayed : List String) :
    ∃ seen' replayed', replayNext r rest seen replayed 0 true = .replaying rest seen' replayed' 0 := by
  unfold replayNext
  split
  · exact ⟨_, _, rfl⟩
  · exact ⟨_, _, rfl⟩

section Pass

variable {live : Live} {t : String} {ts : List String}

theorem sweeps_replaying (live : Live) (t : String) (ts : List String)
    (records : List SpoolRecord) (seen replayed : List String) :
    ∃ replayed', Sweeps ⟨live, some ⟨t, ts, .replaying records seen replayed 0⟩⟩
      ⟨{ live with mode := markRecoveryComplete live.mode }, some ⟨t, ts, .finished replayed' 0⟩⟩ := by
  induction records generalizing seen replayed with
  | nil => exact ⟨replayed, (Sweeps.refl _).next⟩
  | cons r rest ih =>
    obtain ⟨seen', replayed', hnext⟩ := replayNext_ok r rest seen replayed
    obtain ⟨last, hrest⟩ := ih seen' replayed'
    refine ⟨last, Sweeps.next ?_⟩
    have hstep : recoveryStep ⟨live, some ⟨t, ts, .replaying (r :: rest) seen replayed 0⟩⟩
        (.next true) = ⟨live, some ⟨t, ts, .replaying rest seen' replayed' 0⟩⟩ := by
      show Process.setPhase _ _ (replayNext r rest seen replayed 0 true) = _
      rw [hnext]
      rfl
    rw [hstep]
    exact hrest

/-- From the end of the replay to the next tenant. -/
theorem sweeps_finished (replayed : List String) :
    Sweeps ⟨live, some ⟨t, ts, .finished replayed 0⟩⟩
      ⟨{ live with spool := live.spool.swept t }, startTenant ts⟩ := by
  refine Sweeps.next ?_
  show Sweeps ⟨live, some ⟨t, ts, .compactCheck replayed⟩⟩ _
  refine Sweeps.next ?_
  unfold Spool.swept
  cases hcompact : live.spool.compactable t with
  | true =>
    have hstep : recoveryStep ⟨live, some ⟨t, ts, .compactCheck replayed⟩⟩ (.next true) =
        ⟨live, some ⟨t, ts, .truncating replayed⟩⟩ := by
      simp [recoveryStep, Process.next, Process.setPhase, hcompact]
    rw [hstep]
    exact (Sweeps.refl _).next.next.next
  | false =>
    have hstep : recoveryStep ⟨live, some ⟨t, ts, .compactCheck replayed⟩⟩ (.next true) =
        ⟨live, some ⟨t, ts, .clearing replayed⟩⟩ := by
      simp [recoveryStep, Process.next, Process.setPhase, hcompact]
    rw [hstep]
    exact (Sweeps.refl _).next

theorem sweeps_tenant (hleader : live.leader = true) :
    Sweeps ⟨live, some ⟨t, ts, .leaderCheck⟩⟩
      ⟨{ live with mode := markRecoveryComplete live.mode, spool := live.spool.swept t },
        startTenant ts⟩ := by
  have hstep : recoveryStep ⟨live, some ⟨t, ts, .leaderCheck⟩⟩ (.next true) =
      ⟨live, some ⟨t, ts, .dbCheck⟩⟩ := by
    simp [recoveryStep, Process.next, Process.setPhase, hleader]
  refine Sweeps.next ?_
  rw [hstep]
  -- the database answers, and cursor, stream and file are read
  refine Sweeps.next (Sweeps.next (Sweeps.next (Sweeps.next ?_)))
  obtain ⟨replayed, hreplay⟩ := sweeps_replaying live t ts
    (mergePending (live.spool.xrange t (live.spool.cursor t)) (live.spool.readLocal t)) [] []
  exact hreplay.trans (sweeps_finished replayed)

end Pass

/-! ## The whole sweep -/

theorem sweeps_tenants {live : Live} (tenants : List String) (hleader : live.leader = true) :
    ∃ mode, Sweeps ⟨live, startTenant tenants⟩
      ⟨{ live with mode := mode, spool := tenants.foldl Spool.swept live.spool }, none⟩ := by
  induction tenants generalizing live with
  | nil => exact ⟨live.mode, Sweeps.refl _⟩
  | cons t ts ih =>
    have hpass := @sweeps_tenant live t ts hleader
    obtain ⟨mode, hrest⟩ := @ih
      { live with mode := markRecoveryComplete live.mode, spool := live.spool.swept t } hleader
    exact ⟨mode, hpass.trans hrest⟩

/-- The pass over a tenant leaves the other tenants' spools alone. -/
structure Spool.SameAt (sp sp' : Spool) (tenantId : String) : Prop where
  stream : sp'.stream tenantId = sp.stream tenantId
  cursor : sp'.cursor tenantId = sp.cursor tenantId
  file : sp'.file tenantId = sp.file tenantId
  fileCursor : sp'.fileCursor tenantId = sp.fileCursor tenantId

theorem swept_other (sp : Spool) {t u : String} (h : u ≠ t) : sp.SameAt (sp.swept t) u := by
  unfold Spool.swept
  split
  · exact ⟨rfl, rfl, setAt_other _ _ h, setAt_other _ _ h⟩
  · exact ⟨rfl, rfl, rfl, rfl⟩

theorem sameAt_foldl {tenants : List String} {u : String} (h : u ∉ tenants) (sp : Spool) :
    sp.SameAt (tenants.foldl Spool.swept sp) u := by
  induction tenants generalizing sp with
  | nil => exact ⟨rfl, rfl, rfl, rfl⟩
  | cons t ts ih =>
    obtain ⟨hne, hts⟩ := not_or.mp (mt List.mem_cons.mpr h)
    have hfirst := swept_other sp hne
    have hrest := ih hts (sp.swept t)
    exact ⟨hrest.stream.trans hfirst.stream, hrest.cursor.trans hfirst.cursor,
      hrest.file.trans hfirst.file, hrest.fileCursor.trans hfirst.fileCursor⟩

/-- What is behind the cursor stays there, and the file is emptied when nothing is
behind its cursor. -/
theorem swept_self (sp : Spool) (t : String) :
    (sp.swept t).stream t = sp.stream t ∧ (sp.swept t).cursor t = sp.cursor t ∧
      (sp.swept t).fileSize t - (sp.swept t).fileCursor t = sp.fileSize t - sp.fileCursor t ∧
      ((sp.swept t).file t = [] ↔ sp.fileSize t ≤ sp.fileCursor t) := by
  unfold Spool.swept
  split
  · rename_i hcompact
    have hle : sp.fileSize t ≤ sp.fileCursor t := by
      simp only [Spool.compactable, Bool.and_eq_true, decide_eq_true_eq] at hcompact
      exact hcompact.2
    refine ⟨rfl, rfl, ?_, ?_⟩
    · rw [Nat.sub_eq_zero_of_le hle]
      simp [Spool.fileSize, Spool.truncate, Spool.commitCursor, Spool.clearBlocked]
    · simp [Spool.truncate, Spool.commitCursor, Spool.clearBlocked, hle]
  · rename_i hcompact
    refine ⟨rfl, rfl, rfl, ?_⟩
    simp only [Spool.compactable, Bool.and_eq_true, decide_eq_true_eq, not_and, not_le] at hcompact
    show sp.file t = [] ↔ sp.fileSize t ≤ sp.fileCursor t
    constructor
    · intro hempty
      rw [Spool.fileSize, hempty]
      exact Nat.zero_le _
    · intro hle
      by_contra hsome
      exact absurd hle (Nat.not_le.mpr (hcompact (by simpa [Spool.fileSize] using hsome)))

theorem swept_tenants {tenants : List String} (hnodup : tenants.Nodup) {t : String}
    (ht : t ∈ tenants) (sp : Spool) :
    ∃ sp' : Spool, (sp'.swept t).SameAt (tenants.foldl Spool.swept sp) t ∧ sp.SameAt sp' t := by
  induction tenants generalizing sp with
  | nil => cases ht
  | cons u us ih =>
    obtain ⟨hu, hus⟩ := List.nodup_cons.mp hnodup
    rcases List.mem_cons.mp ht with rfl | hmem
    · exact ⟨sp, sameAt_foldl hu (sp.swept t), ⟨rfl, rfl, rfl, rfl⟩⟩
    · have hne : t ≠ u := fun heq => hu (heq ▸ hmem)
      obtain ⟨sp', hlast, hsame⟩ := ih hus hmem (sp.swept u)
      have hfirst := swept_other sp hne
      exact ⟨sp', hlast, hsame.stream.trans hfirst.stream, hsame.cursor.trans hfirst.cursor,
        hsame.file.trans hfirst.file, hsame.fileCursor.trans hfirst.fileCursor⟩

/-- A sweep run as leader in which everything succeeds and nothing else happens comes
to its end, and then a tenant's depth is zero and its file empty if and only if nothing
of the tenant was pending before. -/
theorem drained_iff_nothing_pending {p : Process} {tenants : List String} {t : String}
    (hmode : p.live.mode = .recovering) (hleader : p.live.leader = true) (hidle : p.sweep = none)
    (hnodup : tenants.Nodup) (ht : t ∈ tenants) :
    ∃ n, (nexts n (recoveryStep p (.sweep tenants))).sweep = none ∧
      ((nexts n (recoveryStep p (.sweep tenants))).live.spool.pendingDepth t = 0 ∧
          (nexts n (recoveryStep p (.sweep tenants))).live.spool.file t = [] ↔
        p.live.spool.pendingDepth t = 0) := by
  obtain ⟨live, sweep⟩ := p
  obtain rfl : sweep = none := hidle
  have hstart : recoveryStep ⟨live, none⟩ (.sweep tenants) = ⟨live, startTenant tenants⟩ := by
    have hmode' : live.mode = .recovering := hmode
    have hleader' : live.leader = true := hleader
    simp [recoveryStep, Process.startSweep, hmode', hleader']
  obtain ⟨mode, n, hn⟩ := sweeps_tenants tenants hleader
  refine ⟨n, ?_⟩
  rw [hstart, hn]
  refine ⟨rfl, ?_⟩
  obtain ⟨sp', hlast, hsame⟩ := swept_tenants hnodup ht live.spool
  obtain ⟨hstream, hcursor, hsize, hfile⟩ := swept_self sp' t
  show (tenants.foldl Spool.swept live.spool).pendingDepth t = 0 ∧
    (tenants.foldl Spool.swept live.spool).file t = [] ↔ live.spool.pendingDepth t = 0
  -- the depth is what it was, and the file is empty when its part of the depth is zero
  have hbehind : ∀ a b : Spool, b.SameAt a t → a.xrange t (a.cursor t) = b.xrange t (b.cursor t) := by
    intro a b h
    simp only [Spool.xrange, Spool.behind, h.stream, h.cursor]
  have hrange : sp'.xrange t (sp'.cursor t) = (sp'.swept t).xrange t ((sp'.swept t).cursor t) := by
    simp only [Spool.xrange, Spool.behind, hstream, hcursor]
  have hsize' : (tenants.foldl Spool.swept live.spool).fileSize t -
      (tenants.foldl Spool.swept live.spool).fileCursor t =
      live.spool.fileSize t - live.spool.fileCursor t := by
    rw [Spool.fileSize, hlast.file, hlast.fileCursor]
    refine hsize.trans ?_
    rw [Spool.fileSize, hsame.file, hsame.fileCursor]
    rfl
  have hdepth : (tenants.foldl Spool.swept live.spool).pendingDepth t =
      live.spool.pendingDepth t := by
    rw [Spool.pendingDepth, Spool.pendingDepth, hsize', hbehind _ _ hlast, ← hrange,
      hbehind _ _ hsame]
  rw [hdepth, hlast.file, hfile, Spool.fileSize, hsame.file, hsame.fileCursor]
  constructor
  · exact fun h => h.1
  · intro hzero
    refine ⟨hzero, ?_⟩
    rw [Spool.pendingDepth, Nat.add_eq_zero_iff] at hzero
    exact Nat.le_of_sub_eq_zero hzero.2

theorem drained_iff_nothing_pending_outage :
    ∃ n, (nexts n (recoveryStep (exOutage.foldl recoveryStep exProcess) (.sweep ["t"]))).sweep = none ∧
      ((nexts n (recoveryStep (exOutage.foldl recoveryStep exProcess)
            (.sweep ["t"]))).live.spool.pendingDepth "t" = 0 ∧
          (nexts n (recoveryStep (exOutage.foldl recoveryStep exProcess)
            (.sweep ["t"]))).live.spool.file "t" = [] ↔
        (exOutage.foldl recoveryStep exProcess).live.spool.pendingDepth "t" = 0) :=
  drained_iff_nothing_pending (by decide) (by decide) (by decide) (by decide)
    (by decide)

/-- A tenant that may have a local file. -/
def exTenant : String := "00000000-0000-0000-0000-000000000001"

/-- An event of the tenant that is spooled to the local file. -/
def exLocalEvent (call : Nat) (uniqueid : String) (ok : Bool) : List RecoveryAction :=
  [.live (.receive { exEvent uniqueid with tenantId := exTenant } 0), .live (.xadd call false 0),
    .live (.writeLocal call true), .live (.statLocal call true), .live (.finish call ok false)]

/-- Redis and the database are away, an event fails, and the database comes back. -/
def exLocalOutage : List RecoveryAction := exLocalEvent 0 "1" false ++ exLocalEvent 1 "2" true

/-- The sweep replays both events, and both stay pending, in Redis and in the file. -/
theorem replayed_spool_not_drained :
    ((nexts 11 (recoveryStep (exOutage.foldl recoveryStep exProcess) (.sweep ["t"]))).sweep = none ∧
      (nexts 11 (recoveryStep (exOutage.foldl recoveryStep exProcess)
        (.sweep ["t"]))).live.mode = .normal ∧
      (nexts 11 (recoveryStep (exOutage.foldl recoveryStep exProcess)
        (.sweep ["t"]))).live.spool.pendingDepth "t" = 2) ∧
    ((nexts 11 (recoveryStep (exLocalOutage.foldl recoveryStep exProcess)
        (.sweep [exTenant]))).sweep = none ∧
      (nexts 11 (recoveryStep (exLocalOutage.foldl recoveryStep exProcess)
        (.sweep [exTenant]))).live.mode = .normal ∧
      ((nexts 11 (recoveryStep (exLocalOutage.foldl recoveryStep exProcess)
        (.sweep [exTenant]))).live.spool.file exTenant).length = 2) := by
  decide

end KasterCti.Resilience
