import KasterCti.Resilience.LivePath

/-!
# The recovery sweep

`RecoverySweeperService.sweep` with `RecoveryCoordinatorService.startRecovery`,
cut at its awaits and run next to the live path. For every tenant the sweep
checks leadership and the database, reads what is pending, replays it, and
unfreezes the cursor when the outcome reports no failure.

The outcome of a recovery that was skipped reports no failure either, and a read
that fails reads nothing.

Results:
1. `recoveryStep_covers`: a step that meets `ReadsAll` keeps every failed event
   of the tenant under recovery covered by what the sweep has read.
2. `unfreezes_after_full_replay`: in every run of such steps, every unfreeze
   comes after the replay of every failed event.
3. `skipped_recovery_unfreezes`: a run that unfreezes without any replay.
-/

namespace KasterCti.Resilience

open Calls JsText Trace

/-! ## The sweep -/

/-- Where the sweep waits, for one tenant. `replayed` are the keys of the records
that this `startRecovery` has replayed successfully. -/
inductive SweepPhase
  | leaderCheck
  | dbCheck
  | readCursor
  | readRange (from' : Option Nat)
  | readLocal (redis : List SpoolRecord)
  | replaying (rest : List SpoolRecord) (seen replayed : List String) (failure : Nat)
  | finished (replayed : List String) (failure : Nat)
  | compactCheck (replayed : List String)
  | truncating (replayed : List String)
  | resetting (replayed : List String)
  | clearing (replayed : List String)
deriving DecidableEq

structure Sweep where
  tenantId : String
  /-- The tenants that follow. -/
  tenants : List String
  phase : SweepPhase
deriving DecidableEq

structure Process where
  live : Live
  sweep : Option Sweep

inductive RecoveryAction
  | live (action : LiveAction)
  /-- The timer calls `sweep`, with the tenants it is going to resolve. -/
  | sweep (tenants : List String)
  /-- The await the sweep is in comes back; `ok` says that it did not throw. -/
  | next (ok : Bool)
deriving DecidableEq

/-- The next tenant of the loop, or the end of the sweep. -/
def startTenant : List String → Option Sweep
  | [] => none
  | t :: ts => some ⟨t, ts, .leaderCheck⟩

def Process.startSweep (p : Process) (tenants : List String) : Process :=
  if p.live.mode = .recovering && p.live.leader && p.sweep.isNone then
    { p with sweep := startTenant tenants }
  else p

def Process.setPhase (p : Process) (sw : Sweep) (phase : SweepPhase) : Process :=
  { p with sweep := some { sw with phase := phase } }

def Process.setSpool (p : Process) (spool : Spool) : Process :=
  { p with live := { p.live with spool := spool } }

/-- One record of the loop: a key seen before is passed over, another is
replayed. -/
def replayNext (r : SpoolRecord) (rest : List SpoolRecord) (seen replayed : List String)
    (failure : Nat) (ok : Bool) : SweepPhase :=
  if r.idempotencyKey ≠ "" && r.idempotencyKey ∈ seen then .replaying rest seen replayed failure
  else
    let seen := if r.idempotencyKey ≠ "" then r.idempotencyKey :: seen else seen
    if ok then .replaying rest seen (r.idempotencyKey :: replayed) failure
    else .replaying rest seen replayed (failure + 1)

def Process.next (p : Process) (sw : Sweep) (ok : Bool) : Process :=
  let spool := p.live.spool
  match sw.phase with
  -- A skipped recovery has an outcome like any other, with `failure: 0`.
  | .leaderCheck => p.setPhase sw (if p.live.leader then .dbCheck else .finished [] 0)
  | .dbCheck => p.setPhase sw (if ok then .readCursor else .finished [] 0)
  -- `readPending` goes on with the local file when Redis throws.
  | .readCursor => p.setPhase sw (if ok then .readRange (spool.cursor sw.tenantId) else .readLocal [])
  | .readRange from' => p.setPhase sw (.readLocal (if ok then spool.xrange sw.tenantId from' else []))
  | .readLocal redis =>
    let localPending := if ok then spool.readLocal sw.tenantId else []
    p.setPhase sw (.replaying (mergePending redis localPending) [] [] 0)
  | .replaying [] _ replayed failure =>
    let live := if failure = 0 then { p.live with mode := markRecoveryComplete p.live.mode } else p.live
    { p with live := live }.setPhase sw (.finished replayed failure)
  | .replaying (r :: rest) seen replayed failure =>
    p.setPhase sw (replayNext r rest seen replayed failure ok)
  | .finished replayed failure =>
    if failure ≠ 0 then { p with sweep := startTenant sw.tenants }
    else p.setPhase sw (.compactCheck replayed)
  | .compactCheck replayed =>
    p.setPhase sw (if ok && spool.compactable sw.tenantId then .truncating replayed
      else .clearing replayed)
  | .truncating replayed =>
    if ok then (p.setSpool (spool.truncate sw.tenantId)).setPhase sw (.resetting replayed)
    else p.setPhase sw (.clearing replayed)
  | .resetting replayed =>
    let spool := if ok then spool.commitCursor sw.tenantId (.local 0) else spool
    (p.setSpool spool).setPhase sw (.clearing replayed)
  | .clearing _ =>
    { p.setSpool (spool.clearBlocked sw.tenantId) with sweep := startTenant sw.tenants }

def recoveryStep (p : Process) : RecoveryAction → Process
  | .live .restart => { live := liveStep p.live .restart, sweep := none }
  | .live action => { p with live := liveStep p.live action }
  | .sweep tenants => p.startSweep tenants
  | .next ok =>
    match p.sweep with
    | none => p
    | some sw => p.next sw ok

/-! ## What the sweep has read -/

/-- A failed event is covered by the sweep of its tenant: it is still to be read,
or it is in what was read and will be replayed before the sweep unfreezes. -/
def SweepPhase.covers (record : SpoolRecord) (appended : Appended) : SweepPhase → Prop
  | .leaderCheck | .dbCheck | .readCursor | .readRange _ => True
  | .readLocal redis => ∀ i, appended = .redis i → record ∈ redis
  | .replaying rest _ replayed failure =>
    failure ≠ 0 ∨ record.idempotencyKey ∈ replayed ∨
      ∃ r ∈ rest, r.idempotencyKey = record.idempotencyKey
  | .finished replayed failure => failure ≠ 0 ∨ record.idempotencyKey ∈ replayed
  | .compactCheck replayed | .truncating replayed | .resetting replayed | .clearing replayed =>
    record.idempotencyKey ∈ replayed

/-- The unfreeze of a tenant: every event of the tenant that was appended and
failed has been replayed successfully by this sweep. -/
def UnfreezesSafely (p : Process) : RecoveryAction → Prop
  | .next _ => ∀ sw replayed, p.sweep = some sw → sw.phase = .clearing replayed →
      ∀ f ∈ p.live.failed, f.1.tenantId = sw.tenantId → f.1.idempotencyKey ∈ replayed
  | _ => True

/-- What the sweep needs of the phase it is in: the node leads, the database and
the stores answer, and the failed events of the tenant are in what it reads
(among the first `pendingScanCap` entries behind the cursor; behind the local
cursor). -/
def PhaseReads (p : Process) (sw : Sweep) (ok : Bool) : Prop :=
  match sw.phase with
  | .leaderCheck => p.live.leader = true
  | .dbCheck => ok = true
  | .readCursor => ok = true
  | .readRange from' => ok = true ∧ ∀ f ∈ p.live.failed, f.1.tenantId = sw.tenantId →
      ∀ i, f.2 = .redis i → (i, f.1) ∈ (p.live.spool.behind sw.tenantId from').take pendingScanCap
  | .readLocal _ => ok = true ∧ ∀ f ∈ p.live.failed, f.1.tenantId = sw.tenantId →
      ∀ offset, f.2 = .local offset → f.1 ∈ p.live.spool.readLocal sw.tenantId
  | _ => True

/-- The steps that do not go wrong: the sweep reads all it has to read, and an
event that fails while its tenant is under recovery is among what was read. -/
def ReadsAll (p : Process) : RecoveryAction → Prop
  | .next ok => ∀ sw, p.sweep = some sw → PhaseReads p sw ok
  | .live (.finish n false _) => ∀ call appended sw, p.live.calls n = some call →
      call.phase = .processing appended → p.sweep = some sw →
      call.record.tenantId = sw.tenantId → sw.phase.covers call.record appended
  | _ => True

/-- Every failed event was stored somewhere, every failed event of the tenant under
recovery is covered, and the seen keys of a replay without failure were
replayed. -/
structure Covered (p : Process) : Prop where
  stored : ∀ f ∈ p.live.failed, f.2 ≠ .none
  failed : ∀ sw, p.sweep = some sw → ∀ f ∈ p.live.failed, f.1.tenantId = sw.tenantId →
    sw.phase.covers f.1 f.2
  seen : ∀ sw rest seen replayed, p.sweep = some sw → sw.phase = .replaying rest seen replayed 0 →
    ∀ key ∈ seen, key ∈ replayed

/-! ## Steps -/

/-- The failures a live step adds. -/
def newFailures (s : Live) : LiveAction → List (SpoolRecord × Appended)
  | .finish n false _ =>
    match s.calls n with
    | some call =>
      match call.phase with
      | .processing appended => appended.failures call.record
      | _ => []
    | none => []
  | _ => []

theorem liveStep_failed (s : Live) (a : LiveAction) :
    (liveStep s a).failed = s.failed ++ newFailures s a := by
  cases a with
  | receive event now =>
    simp only [liveStep, Live.receive, newFailures, List.append_nil]
    split
    · split <;> rfl
    · rfl
  | xadd n ok trim =>
    simp only [liveStep, newFailures, List.append_nil]
    split
    · split
      · cases ok <;> rfl
      · rfl
    · rfl
  | writeLocal n ok =>
    simp only [liveStep, newFailures, List.append_nil]
    split
    · split
      · simp only [Live.writeLocal]
        split <;> rfl
      · rfl
    · rfl
  | statLocal n ok =>
    simp only [liveStep, newFailures, List.append_nil]
    split
    · split <;> rfl
    · rfl
  | finish n ok overdue =>
    cases ok with
    | true =>
      simp only [liveStep, newFailures, List.append_nil]
      split
      · split
        · simp only [if_true, Live.succeed]
          split <;> rfl
        · rfl
      · rfl
    | false =>
      simp only [liveStep, newFailures]
      cases hcall : s.calls n with
      | none => simp
      | some call =>
        cases hphase : call.phase with
        | processing appended => simp [hphase, Live.fail, Live.setCall]
        | _ => simp [hphase]
  | commit index ok =>
    simp only [liveStep, Live.commit, newFailures, List.append_nil]
    split <;> rfl
  | restart => simp [liveStep, Live.restart, newFailures]
  | leadership leader known => simp [liveStep, newFailures]

/-- A failure of a live step is the event of a call in flight. -/
theorem mem_newFailures {s : Live} {a : LiveAction} {f : SpoolRecord × Appended}
    (h : f ∈ newFailures s a) : ∃ n overdue call, a = .finish n false overdue ∧
      s.calls n = some call ∧ call.phase = .processing f.2 ∧ call.record = f.1 ∧ f.2 ≠ .none := by
  unfold newFailures at h
  split at h
  · next n overdue =>
    split at h
    · next call hcall =>
      split at h
      · next appended hphase =>
        cases appended with
        | none => simp [Appended.failures] at h
        | redis i =>
          simp only [Appended.failures, List.mem_singleton] at h
          subst h
          exact ⟨n, overdue, call, rfl, hcall, hphase, rfl, by simp⟩
        | «local» offset =>
          simp only [Appended.failures, List.mem_singleton] at h
          subst h
          exact ⟨n, overdue, call, rfl, hcall, hphase, rfl, by simp⟩
      · simp at h
    · simp at h
  · simp at h

variable {p : Process}

/-- A live step keeps the cover: a new failure is covered when it happens. -/
theorem Covered.liveStep (h : Covered p) {a : LiveAction} (hok : ReadsAll p (.live a)) :
    Covered { p with live := liveStep p.live a } := by
  refine ⟨?_, ?_, h.seen⟩
  · intro f hf
    rw [liveStep_failed] at hf
    rcases List.mem_append.1 hf with hf | hf
    · exact h.stored f hf
    · obtain ⟨_, _, _, _, _, _, _, hstored⟩ := mem_newFailures hf
      exact hstored
  · intro sw hsw f hf ht
    rw [liveStep_failed] at hf
    rcases List.mem_append.1 hf with hf | hf
    · exact h.failed sw hsw f hf ht
    · obtain ⟨n, overdue, call, rfl, hcall, hphase, hrecord, -⟩ := mem_newFailures hf
      rw [← hrecord] at ht ⊢
      exact hok call f.2 sw hcall hphase hsw ht

/-- A process that sweeps nothing, or is about to start on a tenant. -/
theorem covered_startTenant {live : Live} (hstored : ∀ f ∈ live.failed, f.2 ≠ .none)
    (tenants : List String) : Covered { live := live, sweep := startTenant tenants } := by
  cases tenants with
  | nil => exact ⟨hstored, by simp [startTenant], by simp [startTenant]⟩
  | cons t ts =>
    refine ⟨hstored, ?_, ?_⟩
    · rintro sw hsw f - -
      simp only [startTenant, Option.some.injEq] at hsw
      subst hsw
      trivial
    · intro sw rest seen replayed hsw hphase
      simp only [startTenant, Option.some.injEq] at hsw
      subst hsw
      cases hphase

/-- The sweep goes on to a phase that covers what the one before it covered. -/
theorem covered_setPhase {p p' : Process} {sw : Sweep} {phase : SweepPhase} (h : Covered p)
    (hfailed : p'.live.failed = p.live.failed)
    (hcover : ∀ f ∈ p.live.failed, f.1.tenantId = sw.tenantId → phase.covers f.1 f.2)
    (hseen : ∀ rest seen replayed, phase = .replaying rest seen replayed 0 →
      ∀ key ∈ seen, key ∈ replayed) : Covered (p'.setPhase sw phase) := by
  refine ⟨fun f hf => h.stored f (hfailed ▸ hf), ?_, ?_⟩
  · intro sw' hsw' f hf ht
    simp only [Process.setPhase, Option.some.injEq] at hsw'
    subst hsw'
    exact hcover f (hfailed ▸ hf) ht
  · intro sw' rest seen replayed hsw' hphase
    simp only [Process.setPhase, Option.some.injEq] at hsw'
    subst hsw'
    exact hseen rest seen replayed hphase

/-- The replay of one record keeps the cover of every event. -/
theorem covers_replayNext {r record : SpoolRecord} {appended : Appended} {rest : List SpoolRecord}
    {seen replayed : List String} {failure : Nat} (ok : Bool)
    (hseen : failure = 0 → ∀ key ∈ seen, key ∈ replayed)
    (h : (SweepPhase.replaying (r :: rest) seen replayed failure).covers record appended) :
    (replayNext r rest seen replayed failure ok).covers record appended := by
  unfold replayNext
  by_cases hfailure : failure = 0
  · subst hfailure
    have hcase : record.idempotencyKey ∈ replayed ∨ r.idempotencyKey = record.idempotencyKey ∨
        ∃ r' ∈ rest, r'.idempotencyKey = record.idempotencyKey := by
      rcases h with h | h | ⟨r', hr', hkey⟩
      · exact absurd rfl h
      · exact .inl h
      · rcases List.mem_cons.1 hr' with rfl | hr'
        · exact .inr (.inl hkey)
        · exact .inr (.inr ⟨r', hr', hkey⟩)
    split
    · next hskip =>
      simp only [Bool.and_eq_true, decide_eq_true_eq] at hskip
      rcases hcase with hcase | hcase | hcase
      · exact .inr (.inl hcase)
      · exact .inr (.inl (hcase ▸ hseen rfl _ hskip.2))
      · exact .inr (.inr hcase)
    · cases ok with
      | true =>
        rcases hcase with hcase | hcase | hcase
        · exact .inr (.inl (List.mem_cons_of_mem _ hcase))
        · exact .inr (.inl (by simp [hcase]))
        · exact .inr (.inr hcase)
      | false => exact .inl (Nat.succ_ne_zero _)
  · split
    · exact .inl hfailure
    · cases ok with
      | true => exact .inl hfailure
      | false => exact .inl (Nat.succ_ne_zero _)

theorem seen_replayNext {r : SpoolRecord} {rest rest' : List SpoolRecord}
    {seen seen' replayed replayed' : List String} {failure : Nat} {ok : Bool}
    (hseen : failure = 0 → ∀ key ∈ seen, key ∈ replayed)
    (h : replayNext r rest seen replayed failure ok = .replaying rest' seen' replayed' 0) :
    ∀ key ∈ seen', key ∈ replayed' := by
  unfold replayNext at h
  split at h
  · cases h
    exact hseen rfl
  · cases ok with
    | true =>
      simp only [if_true, SweepPhase.replaying.injEq] at h
      obtain ⟨-, rfl, rfl, hfailure⟩ := h
      intro key hkey
      split at hkey
      · rcases List.mem_cons.1 hkey with rfl | hkey
        · exact List.mem_cons_self
        · exact List.mem_cons_of_mem _ (hseen hfailure key hkey)
      · exact List.mem_cons_of_mem _ (hseen hfailure key hkey)
    | false =>
      simp at h

/-- A step of the sweep that reads all it has to read keeps the cover. -/
theorem Covered.next {sw : Sweep} (h : Covered p) (hsw : p.sweep = some sw) {ok : Bool}
    (hok : PhaseReads p sw ok) : Covered (p.next sw ok) := by
  have hcover := h.failed sw hsw
  have hseen := h.seen sw
  obtain ⟨t, ts, phase⟩ := sw
  unfold Process.next
  cases phase with
  | leaderCheck =>
    have hok : p.live.leader = true := hok
    dsimp only
    rw [hok]
    exact covered_setPhase h rfl (fun _ _ _ => trivial) (by simp)
  | dbCheck | readCursor =>
    have hok : ok = true := hok
    dsimp only
    rw [hok]
    exact covered_setPhase h rfl (fun _ _ _ => trivial) (by simp)
  | readRange from' =>
    obtain ⟨rfl, hread⟩ : ok = true ∧ ∀ f ∈ p.live.failed, f.1.tenantId = t →
      ∀ i, f.2 = .redis i → (i, f.1) ∈ (p.live.spool.behind t from').take pendingScanCap := hok
    refine covered_setPhase h rfl ?_ (by simp)
    intro f hf ht i hi
    exact List.mem_map.2 ⟨(i, f.1), hread f hf ht i hi, rfl⟩
  | readLocal redis =>
    obtain ⟨rfl, hread⟩ : ok = true ∧ ∀ f ∈ p.live.failed, f.1.tenantId = t →
      ∀ offset, f.2 = .local offset → f.1 ∈ p.live.spool.readLocal t := hok
    refine covered_setPhase h rfl ?_ ?_
    · intro f hf ht
      refine .inr (.inr ⟨f.1, mem_mergePending.2 ?_, rfl⟩)
      cases happ : f.2 with
      | redis i => exact .inl (hcover f hf ht i happ)
      | «local» offset => exact .inr (hread f hf ht offset happ)
      | none => exact absurd happ (h.stored f hf)
    · rintro rest seen replayed ⟨⟩ key hkey
      cases hkey
  | replaying rest seen replayed failure =>
    cases rest with
    | nil =>
      refine covered_setPhase h ?_ ?_ (by simp)
      · dsimp only
        split <;> rfl
      · intro f hf ht
        rcases hcover f hf ht with hc | hc | ⟨r, hr, _⟩
        · exact .inl hc
        · exact .inr hc
        · cases hr
    | cons r rest =>
      have hkeys : failure = 0 → ∀ key ∈ seen, key ∈ replayed := by
        rintro rfl
        exact hseen (r :: rest) seen replayed hsw rfl
      refine covered_setPhase h rfl ?_ ?_
      · intro f hf ht
        exact covers_replayNext ok hkeys (hcover f hf ht)
      · intro rest' seen' replayed' hnext
        exact seen_replayNext hkeys hnext
  | finished replayed failure =>
    dsimp only
    split
    · exact covered_startTenant h.stored _
    · next hzero =>
      refine covered_setPhase h rfl ?_ (by simp)
      intro f hf ht
      rcases hcover f hf ht with hc | hc
      · exact absurd hc hzero
      · exact hc
  | compactCheck replayed | truncating replayed =>
    dsimp only
    split
    · exact covered_setPhase h rfl hcover (by simp)
    · exact covered_setPhase h rfl hcover (by simp)
  | resetting replayed => exact covered_setPhase h rfl hcover (by simp)
  | clearing replayed =>
    have hstored : ∀ f ∈ { p.live with spool := p.live.spool.clearBlocked t }.failed, f.2 ≠ .none :=
      h.stored
    exact covered_startTenant hstored ts

/-- One step of the process that reads all it has to read keeps the cover. -/
theorem recoveryStep_covers {a : RecoveryAction} (h : Covered p) (hok : ReadsAll p a) :
    Covered (recoveryStep p a) := by
  cases a with
  | live action =>
    have hlive := h.liveStep hok
    cases action with
    | restart => exact covered_startTenant hlive.stored []
    | _ => exact hlive
  | sweep tenants =>
    simp only [recoveryStep, Process.startSweep]
    split
    · exact covered_startTenant h.stored tenants
    · exact h
  | next ok =>
    simp only [recoveryStep]
    split
    · exact h
    · next sw hsw => exact h.next hsw (hok sw hsw)

/-- A covered state unfreezes only what was replayed. -/
theorem Covered.unfreezes (h : Covered p) (a : RecoveryAction) : UnfreezesSafely p a := by
  cases a with
  | next ok =>
    intro sw replayed hsw hphase f hf ht
    have hcover := h.failed sw hsw f hf ht
    rwa [hphase] at hcover
  | live action => trivial
  | sweep tenants => trivial

/-! ## Runs -/

/-- In every run of live steps and sweeps in which the sweep leads, reaches its
stores and reads all failed events, every unfreeze of a tenant comes after this
sweep has replayed every failed event of the tenant. -/
theorem unfreezes_after_full_replay (p : Process) (actions : List RecoveryAction)
    (hidle : p.sweep = none) (hstored : ∀ f ∈ p.live.failed, f.2 ≠ .none)
    (hrun : Along recoveryStep ReadsAll p actions) :
    Along recoveryStep UnfreezesSafely p actions := by
  intro pre a post hsplit
  rw [hsplit] at hrun
  have hstart : Covered p := ⟨hstored, by simp [hidle], by simp [hidle]⟩
  have hcovered : Covered (pre.foldl recoveryStep p) :=
    hrun.take.invariant (fun _ _ hok hinv => recoveryStep_covers hinv hok) hstart
  exact hcovered.unfreezes a

/-- The leader of `exLive`, before any sweep. -/
def exProcess : Process := ⟨exLive, none⟩

/-- An event fails, another one is done, and the mode is `RECOVERING`. -/
def exOutage : List RecoveryAction :=
  [.live (.receive (exEvent "1") 0), .live (.xadd 0 true 0), .live (.finish 0 false false),
    .live (.receive (exEvent "2") 0), .live (.xadd 1 true 0), .live (.finish 1 true false)]

/-- The sweep that replays both events and unfreezes the tenant. -/
def exFullSweep : List RecoveryAction := .sweep ["t"] :: List.replicate 11 (.next true)

theorem readsAll_next {ok : Bool} (sw : Sweep) (hsw : p.sweep = some sw)
    (hreads : PhaseReads p sw ok) : ReadsAll p (.next ok) := by
  intro sw' hsw'
  rw [hsw] at hsw'
  cases hsw'
  exact hreads

theorem unfreezes_after_full_replay_outage :
    UnfreezesSafely ((exFullSweep.take 11).foldl recoveryStep (exOutage.foldl recoveryStep exProcess))
      (.next true) := by
  refine unfreezes_after_full_replay (exOutage.foldl recoveryStep exProcess) exFullSweep (by decide)
    (by decide) ?_ (exFullSweep.take 11) (.next true) [] (by decide)
  refine along_cons.2 ⟨trivial, ?_⟩
  refine along_cons.2 ⟨readsAll_next ⟨"t", [], .leaderCheck⟩ rfl rfl, ?_⟩
  refine along_cons.2 ⟨readsAll_next ⟨"t", [], .dbCheck⟩ rfl rfl, ?_⟩
  refine along_cons.2 ⟨readsAll_next ⟨"t", [], .readCursor⟩ rfl rfl, ?_⟩
  have hfailed : ∀ f ∈ [(exRecord "1", Appended.redis 1)], f.1.tenantId = "t" →
      ∀ i, f.2 = .redis i → (i, f.1) ∈ [(1, exRecord "1"), (2, exRecord "2")] := by
    rintro f hf - i hi
    rw [List.mem_singleton] at hf
    subst hf
    cases hi
    exact List.mem_cons_self
  refine along_cons.2 ⟨readsAll_next ⟨"t", [], .readRange none⟩ rfl ⟨rfl, hfailed⟩, ?_⟩
  have hlocal : ∀ f ∈ [(exRecord "1", Appended.redis 1)], f.1.tenantId = "t" →
      ∀ offset, f.2 = .local offset → f.1 ∈ ([] : List SpoolRecord) := by
    rintro f hf - offset hoffset
    rw [List.mem_singleton] at hf
    subst hf
    cases hoffset
  refine along_cons.2 ⟨readsAll_next ⟨"t", [], .readLocal [exRecord "1", exRecord "2"]⟩ rfl
    ⟨rfl, hlocal⟩, ?_⟩
  -- The rest of the sweep replays both records and reads nothing more.
  refine along_cons.2 ⟨readsAll_next _ rfl trivial, ?_⟩
  refine along_cons.2 ⟨readsAll_next _ rfl trivial, ?_⟩
  refine along_cons.2 ⟨readsAll_next _ rfl trivial, ?_⟩
  refine along_cons.2 ⟨readsAll_next _ rfl trivial, ?_⟩
  refine along_cons.2 ⟨readsAll_next _ rfl trivial, ?_⟩
  exact along_cons.2 ⟨readsAll_next _ rfl trivial, along_nil⟩

/-! ## A run that unfreezes too early -/

/-- The database is away again when the sweep looks, and the sweep goes on to
unfreeze the tenant. -/
def exSkipped : List RecoveryAction :=
  exOutage ++ [.sweep ["t"], .next true, .next false, .next true, .next true, .next true]

theorem skipped_recovery_unfreezes : ¬ Along recoveryStep UnfreezesSafely exProcess exSkipped := by
  intro h
  have hclear := h (exSkipped.take 11) (.next true) [] (by decide)
  exact absurd (hclear ⟨"t", [], .clearing []⟩ [] (by decide) rfl (exRecord "1", .redis 1)
    (by decide) (by decide)) (by decide)

end KasterCti.Resilience
