import KasterCti.Resilience.Recovery

/-!
# When recovery mode is left

`markRecoveryComplete` is called by every `startRecovery` that ends without a
failure, and the mode is one for all tenants. The book beside the process says which
tenants the sweep has resolved, and of which tenants the last recovery since the
outage has replayed all that was pending.

Results:
1. `SweepBook.step_reads`: a recovery whose reads do not fail has read all.
2. `leaves_recovery_when_replayed`: in every run in which the recovery that ends
   without a failure is that of the only tenant resolved, the mode is left when all is
   replayed.
3. `first_tenant_leaves_recovery`: with two tenants the first one's success hides the
   second one's events.
-/

namespace KasterCti.Resilience

open Calls Trace

structure SweepBook where
  process : Process
  /-- The tenants that the last sweep resolved. -/
  resolved : List String
  /-- The tenants whose last recovery since the outage replayed all that was pending,
  without a failure. -/
  complete : List String
  /-- The recovery under way has read all that is pending. -/
  readAll : Bool

namespace SweepBook

def init (live : Live) : SweepBook := ⟨⟨live, none⟩, [], [], false⟩

def mode (b : SweepBook) : OperatingMode := b.process.live.mode

/-- The sweep really begins. -/
def startsSweep (b : SweepBook) : Bool :=
  b.process.live.mode = .recovering && b.process.live.leader && b.process.sweep.isNone

/-- A failure outside an outage begins one. -/
def beginsOutage (b : SweepBook) (action : LiveAction) : Bool :=
  b.mode ≠ .dbFailover && (liveStep b.process.live action).mode = .dbFailover

/-- What an await of the sweep means for the books. -/
def next (b : SweepBook) (sw : Sweep) (ok : Bool) : SweepBook :=
  match sw.phase with
  -- `startRecovery` of the tenant begins: the one before it does not count any more
  | .leaderCheck => { b with complete := b.complete.filter (· ≠ sw.tenantId), readAll := true }
  | .readCursor => { b with readAll := b.readAll && ok }
  | .readRange from' => { b with
      readAll := b.readAll && ok &&
        decide ((b.process.live.spool.behind sw.tenantId from').length ≤ pendingScanCap) }
  | .readLocal _ => { b with readAll := b.readAll && ok }
  | .replaying [] _ _ 0 =>
    { b with complete := if b.readAll then sw.tenantId :: b.complete else b.complete }
  | _ => b

def record (b : SweepBook) : RecoveryAction → SweepBook
  | .live .restart => { b with complete := [] }
  -- what was replayed, or is being replayed, was replayed before this outage
  | .live action => if b.beginsOutage action then { b with complete := [], readAll := false } else b
  | .sweep tenants => if b.startsSweep then { b with resolved := tenants } else b
  | .next ok =>
    match b.process.sweep with
    | none => b
    | some sw => b.next sw ok

def step (b : SweepBook) (a : RecoveryAction) : SweepBook :=
  { b.record a with process := recoveryStep b.process a }

end SweepBook

/-- When the mode goes from `RECOVERING` to `NORMAL`, all tenants that the sweep
resolved are complete. A restarted process has a mode of its own. -/
def LeavesComplete (b : SweepBook) (a : RecoveryAction) : Prop :=
  a ≠ .live .restart → b.mode = .recovering → (b.step a).mode = .normal →
    ∀ t ∈ (b.step a).resolved, t ∈ (b.step a).complete

/-- The phases in which a recovery reads or has read. -/
def SweepPhase.reads : SweepPhase → Bool
  | .dbCheck | .readCursor | .readRange _ | .readLocal _ | .replaying _ _ _ _ => true
  | _ => false

/-- No outage begins during a recovery, no read of the spool fails or is cut, and a
recovery that ends without a failure in recovery mode is that of the only tenant
resolved. -/
def SoleRecovery (b : SweepBook) : RecoveryAction → Prop
  | .live action => b.beginsOutage action = true →
      ∀ sw, b.process.sweep = some sw → sw.phase.reads = false
  | .next ok => ∀ sw, b.process.sweep = some sw →
    match sw.phase with
    | .readCursor => ok = true
    | .readRange from' => ok = true ∧
        (b.process.live.spool.behind sw.tenantId from').length ≤ pendingScanCap
    | .readLocal _ => ok = true
    | .replaying [] _ _ 0 => b.mode = .recovering → ∀ t ∈ b.resolved, t = sw.tenantId
    | _ => True
  | .sweep _ => True

/-! ## Steps -/

/-- A recovery under way has read all so far. -/
def Reads (b : SweepBook) : Prop :=
  ∀ sw, b.process.sweep = some sw → sw.phase.reads = true → b.readAll = true

/-- A live step leaves the mode `RECOVERING` only for another outage. -/
theorem liveStep_recovering {s : Live} {a : LiveAction} (ha : a ≠ .restart)
    (h : s.mode = .recovering) : (liveStep s a).mode ≠ .normal := by
  have hsame : ∀ t : Live, t.mode = s.mode → t.mode ≠ .normal := by
    intro t ht
    rw [ht, h]
    decide
  cases a with
  | receive event now =>
    refine hsame _ ?_
    simp only [liveStep, Live.receive]
    split
    · split <;> rfl
    · rfl
  | xadd n ok trim =>
    refine hsame _ ?_
    simp only [liveStep]
    split
    · split
      · cases ok <;> rfl
      · rfl
    · rfl
  | writeLocal n ok =>
    refine hsame _ ?_
    simp only [liveStep]
    split
    · split
      · simp only [Live.writeLocal]
        split <;> rfl
      · rfl
    · rfl
  | statLocal n ok =>
    refine hsame _ ?_
    simp only [liveStep]
    split
    · split <;> rfl
    · rfl
  | finish n ok overdue =>
    simp only [liveStep]
    split
    · split
      · rename_i call _ _ appended _
        cases ok with
        | true =>
          have hmode : (s.succeed n call appended).mode = recordDbRecovered s.mode := by
            simp only [Live.succeed]
            split <;> rfl
          simp only [if_true]
          rw [hmode, h]
          decide
        | false =>
          show recordDbFailure overdue s.mode ≠ .normal
          rw [h]
          exact OperatingMode.noConfusion
      · exact hsame _ rfl
    · exact hsame _ rfl
  | commit index ok =>
    refine hsame _ ?_
    simp only [liveStep, Live.commit]
    split <;> rfl
  | restart => exact absurd rfl ha
  | leadership leader known => exact hsame _ rfl

/-- An await of the sweep leaves the mode only at the end of a replay without a
failure. -/
theorem next_recovering {p : Process} {sw : Sweep} {ok : Bool} (h : p.live.mode = .recovering)
    (hnormal : (p.next sw ok).live.mode = .normal) :
    ∃ seen replayed, sw.phase = .replaying [] seen replayed 0 := by
  have hsame : ∀ q : Process, q.live.mode = p.live.mode → q.live.mode ≠ .normal := by
    intro q hq
    rw [hq, h]
    decide
  cases hphase : sw.phase with
  | replaying rest seen replayed failure =>
    cases rest with
    | nil =>
      cases failure with
      | zero => exact ⟨seen, replayed, rfl⟩
      | succ failure =>
        refine absurd hnormal (hsame _ ?_)
        simp [Process.next, Process.setPhase, hphase]
    | cons r rest =>
      refine absurd hnormal (hsame _ ?_)
      simp [Process.next, Process.setPhase, hphase]
  | finished replayed failure | truncating replayed =>
    refine absurd hnormal (hsame _ ?_)
    simp only [Process.next, hphase]
    split <;> rfl
  | _ =>
    refine absurd hnormal (hsame _ ?_)
    simp [Process.next, Process.setPhase, Process.setSpool, hphase]

namespace SweepBook

variable {b : SweepBook} {a : RecoveryAction}

theorem startSweep_eq (b : SweepBook) (tenants : List String) :
    b.process.startSweep tenants =
      if b.startsSweep then { b.process with sweep := startTenant tenants } else b.process := rfl

/-- The awaits of a recovery, in the order in which it reads. -/
theorem next_reads (hreads : Reads b) {sw : Sweep} {ok : Bool} (hsw : b.process.sweep = some sw)
    (hok : SoleRecovery b (.next ok)) :
    ∀ sw', (b.process.next sw ok).sweep = some sw' → sw'.phase.reads = true →
      (b.next sw ok).readAll = true := by
  have hcond := hok sw hsw
  have hnow := hreads sw hsw
  intro sw' hsw' hreads'
  -- a tenant that comes next begins with the check of leadership
  have hstart : ∀ ts, startTenant ts = some sw' → sw'.phase.reads = false := by
    intro ts hts
    cases ts with
    | nil => cases hts
    | cons t ts =>
      obtain rfl := Option.some.inj hts
      rfl
  cases hphase : sw.phase with
  | leaderCheck => simp [next, hphase]
  | dbCheck =>
    have hall := hnow (by rw [hphase]; rfl)
    simpa [next, hphase] using hall
  | readCursor | readLocal redis =>
    have hall := hnow (by rw [hphase]; rfl)
    rw [hphase] at hcond
    have hcond' : ok = true := hcond
    simp [next, hphase, hall, hcond']
  | readRange from' =>
    have hall := hnow (by rw [hphase]; rfl)
    rw [hphase] at hcond
    obtain ⟨hread, hlength⟩ := hcond
    simp [next, hphase, hall, hread, hlength]
  | replaying rest seen replayed failure =>
    have hall := hnow (by rw [hphase]; rfl)
    rw [next, hphase]
    split <;> simp_all
  | finished replayed failure =>
    rw [Process.next, hphase] at hsw'
    dsimp only at hsw'
    split at hsw'
    · rw [hstart _ hsw'] at hreads'
      cases hreads'
    · obtain rfl := Option.some.inj hsw'
      cases hreads'
  | clearing replayed =>
    rw [Process.next, hphase] at hsw'
    rw [hstart _ hsw'] at hreads'
    cases hreads'
  | compactCheck replayed =>
    rw [Process.next, hphase] at hsw'
    obtain rfl := Option.some.inj hsw'
    simp only at hreads'
    split at hreads' <;> cases hreads'
  | truncating replayed =>
    rw [Process.next, hphase] at hsw'
    dsimp only at hsw'
    split at hsw' <;>
      · obtain rfl := Option.some.inj hsw'
        cases hreads'
  | resetting replayed =>
    rw [Process.next, hphase] at hsw'
    obtain rfl := Option.some.inj hsw'
    cases hreads'

/-- A recovery whose reads do not fail has read all. -/
theorem step_reads (hreads : Reads b) (hok : SoleRecovery b a) : Reads (b.step a) := by
  intro sw' hsw' hphase
  cases a with
  | live action =>
    cases action with
    | restart => cases hsw'
    | _ =>
      have hall := hreads sw' hsw' hphase
      show (b.record _).readAll = true
      simp only [record]
      split
      · next hbegins =>
        have hidle := hok hbegins sw' hsw'
        rw [hidle] at hphase
        cases hphase
      · exact hall
  | sweep tenants =>
    show (b.record (.sweep tenants)).readAll = true
    by_cases hstart : b.startsSweep = true
    · have hsw : startTenant tenants = some sw' := by
        have hrun : (b.process.startSweep tenants).sweep = startTenant tenants := by
          rw [startSweep_eq, if_pos hstart]
        exact hrun.symm.trans hsw'
      cases tenants with
      | nil => cases hsw
      | cons t ts =>
        obtain rfl := Option.some.inj hsw
        cases hphase
    · have hsame : b.process.startSweep tenants = b.process := by
        rw [startSweep_eq, if_neg hstart]
      simp only [record, if_neg hstart]
      exact hreads sw' (by rw [← hsame]; exact hsw') hphase
  | next ok =>
    cases hsweep : b.process.sweep with
    | none =>
      have hstay : recoveryStep b.process (.next ok) = b.process := by simp [recoveryStep, hsweep]
      rw [step, hstay] at hsw'
      rw [hsweep] at hsw'
      cases hsw'
    | some sw =>
      have hrun : recoveryStep b.process (.next ok) = b.process.next sw ok := by
        simp [recoveryStep, hsweep]
      have hrecord : (b.step (.next ok)).readAll = (b.next sw ok).readAll := by
        simp [step, record, hsweep]
      rw [hrecord]
      refine next_reads hreads hsweep hok sw' ?_ hphase
      rw [← hrun]
      exact hsw'

/-- The step at which the mode is left. -/
theorem leaves_complete (hreads : Reads b) (hok : SoleRecovery b a) : LeavesComplete b a := by
  intro hrestart hmode hnormal
  cases a with
  | live action =>
    have hstep : recoveryStep b.process (.live action) =
        { b.process with live := liveStep b.process.live action } := by
      cases action with
      | restart => exact absurd rfl hrestart
      | _ => rfl
    have hlive : (liveStep b.process.live action).mode = .normal := by
      have hafter : (recoveryStep b.process (.live action)).live.mode = .normal := hnormal
      rw [hstep] at hafter
      exact hafter
    have haction : action ≠ .restart := fun heq => hrestart (by rw [heq])
    exact absurd hlive (liveStep_recovering haction hmode)
  | sweep tenants =>
    have hsame : (b.process.startSweep tenants).live = b.process.live := by
      unfold Process.startSweep
      split <;> rfl
    have hafter : (b.process.startSweep tenants).live.mode = .normal := hnormal
    rw [hsame, show b.process.live.mode = .recovering from hmode] at hafter
    cases hafter
  | next ok =>
    cases hsweep : b.process.sweep with
    | none =>
      have hstay : recoveryStep b.process (.next ok) = b.process := by simp [recoveryStep, hsweep]
      have hafter : (recoveryStep b.process (.next ok)).live.mode = .normal := hnormal
      rw [hstay, show b.process.live.mode = .recovering from hmode] at hafter
      cases hafter
    | some sw =>
      have hrun : recoveryStep b.process (.next ok) = b.process.next sw ok := by
        simp [recoveryStep, hsweep]
      have hafter : (b.process.next sw ok).live.mode = .normal := by
        rw [← hrun]
        exact hnormal
      obtain ⟨seen, replayed, hphase⟩ := next_recovering hmode hafter
      have hall := hreads sw hsweep (by rw [hphase]; rfl)
      have hsole := hok sw hsweep
      rw [hphase] at hsole
      have hbook : (b.step (.next ok)).resolved = b.resolved ∧
          (b.step (.next ok)).complete = sw.tenantId :: b.complete := by
        simp [step, record, hsweep, next, hphase, hall]
      rw [hbook.1, hbook.2]
      intro t ht
      rw [hsole hmode t ht]
      exact List.mem_cons_self

end SweepBook

/-! ## Runs -/

/-- In every run, with any number of tenants and sweeps: when no read of the spool in a
recovery fails or is cut, and a recovery that ends without a failure in recovery mode
is that of the only tenant resolved, the mode goes from `RECOVERING` to `NORMAL` only
when every resolved tenant's last recovery since the outage replayed all that was
pending. -/
theorem leaves_recovery_when_replayed (live : Live) (actions : List RecoveryAction)
    (hrun : Along SweepBook.step SoleRecovery (SweepBook.init live) actions) :
    Along SweepBook.step LeavesComplete (SweepBook.init live) actions := by
  intro pre a post hsplit
  rw [hsplit] at hrun
  have hstart : Reads (SweepBook.init live) := by
    intro sw hsw
    cases hsw
  have hreads : Reads (pre.foldl SweepBook.step (SweepBook.init live)) :=
    hrun.take.invariant (fun _ _ hok hinv => SweepBook.step_reads hinv hok) hstart
  exact SweepBook.leaves_complete hreads (hrun pre a post rfl)

/-- An await of a sweep of the only tenant, when the stores answer. -/
theorem soleRecovery_next {b : SweepBook} {ok : Bool} (sw : Sweep) (hsw : b.process.sweep = some sw)
    (hok : ok = true) (hcap : ∀ from', sw.phase = .readRange from' →
      (b.process.live.spool.behind sw.tenantId from').length ≤ pendingScanCap)
    (hsole : ∀ t ∈ b.resolved, t = sw.tenantId) : SoleRecovery b (.next ok) := by
  intro sw' hsw'
  rw [hsw] at hsw'
  obtain rfl := Option.some.inj hsw'
  cases hphase : sw.phase with
  | readRange from' => exact ⟨hok, hcap from' hphase⟩
  | readCursor => exact hok
  | readLocal redis => exact hok
  | replaying rest seen replayed failure =>
    cases rest with
    | nil =>
      cases failure with
      | zero => exact fun _ => hsole
      | succ failure => trivial
    | cons r rest => trivial
  | _ => trivial

/-- The sweep of `exFullSweep` leaves recovery mode in its eighth await. -/
theorem leaves_recovery_when_replayed_outage :
    LeavesComplete ((exOutage ++ exFullSweep.take 8).foldl SweepBook.step (SweepBook.init exLive))
      (.next true) := by
  refine leaves_recovery_when_replayed exLive (exOutage ++ exFullSweep.take 9) ?_
    (exOutage ++ exFullSweep.take 8) (.next true) [] (by decide)
  have hidle : ∀ (b : SweepBook) (action : LiveAction), b.process.sweep = none →
      SoleRecovery b (.live action) := by
    intro b action hnone _ sw hsw
    rw [hnone] at hsw
    cases hsw
  have hsole : ∀ t ∈ ["t"], t = "t" := fun t ht => List.mem_singleton.mp ht
  refine along_cons.2 ⟨hidle _ _ rfl, ?_⟩
  refine along_cons.2 ⟨hidle _ _ rfl, ?_⟩
  refine along_cons.2 ⟨hidle _ _ rfl, ?_⟩
  refine along_cons.2 ⟨hidle _ _ rfl, ?_⟩
  refine along_cons.2 ⟨hidle _ _ rfl, ?_⟩
  refine along_cons.2 ⟨hidle _ _ rfl, ?_⟩
  refine along_cons.2 ⟨trivial, ?_⟩
  refine along_cons.2 ⟨soleRecovery_next ⟨"t", [], .leaderCheck⟩ rfl rfl nofun hsole, ?_⟩
  refine along_cons.2 ⟨soleRecovery_next ⟨"t", [], .dbCheck⟩ rfl rfl nofun hsole, ?_⟩
  refine along_cons.2 ⟨soleRecovery_next ⟨"t", [], .readCursor⟩ rfl rfl nofun hsole, ?_⟩
  have hcap : ∀ from', SweepPhase.readRange none = .readRange from' →
      ((((exOutage ++ exFullSweep.take 4).foldl SweepBook.step
        (SweepBook.init exLive)).process.live.spool.behind "t" from').length ≤ pendingScanCap) := by
    rintro from' ⟨⟩
    decide
  refine along_cons.2 ⟨soleRecovery_next ⟨"t", [], .readRange none⟩ rfl rfl hcap hsole, ?_⟩
  refine along_cons.2 ⟨soleRecovery_next ⟨"t", [], .readLocal [exRecord "1", exRecord "2"]⟩ rfl rfl
    nofun hsole, ?_⟩
  -- both records are replayed, and the third await finds nothing more
  refine along_cons.2 ⟨soleRecovery_next ⟨"t", [], .replaying _ _ _ _⟩ rfl rfl nofun hsole, ?_⟩
  refine along_cons.2 ⟨soleRecovery_next ⟨"t", [], .replaying _ _ _ _⟩ rfl rfl nofun hsole, ?_⟩
  exact along_cons.2 ⟨soleRecovery_next ⟨"t", [], .replaying _ _ _ _⟩ rfl rfl nofun hsole, along_nil⟩

/-! ## Two tenants -/

/-- An event of either tenant fails, another one is done, and the sweep resolves both
tenants. The replay of the first ends in the eighth await. -/
def exTwoTenants : List RecoveryAction :=
  [.live (.receive { exEvent "0" with tenantId := "u" } 0), .live (.xadd 0 true 0),
    .live (.finish 0 false false),
    .live (.receive (exEvent "1") 0), .live (.xadd 1 true 0), .live (.finish 1 false false),
    .live (.receive (exEvent "2") 0), .live (.xadd 2 true 0), .live (.finish 2 true false),
    .sweep ["t", "u"]] ++ List.replicate 8 (.next true)

/-- The mode is `NORMAL` before the second tenant was looked at; its event is pending,
and no sweep runs any more. -/
theorem first_tenant_leaves_recovery :
    ¬ Along SweepBook.step LeavesComplete (SweepBook.init exLive) exTwoTenants := by
  intro h
  have hleaves := h (exTwoTenants.take 17) (.next true) [] (by decide)
  have hcomplete := hleaves (by decide) (by decide) (by decide) "u" (by decide)
  exact absurd hcomplete (by decide)

example : ((exTwoTenants.foldl SweepBook.step (SweepBook.init exLive)).process.live.spool.behind "u"
    none).length = 1 := by decide

end KasterCti.Resilience
