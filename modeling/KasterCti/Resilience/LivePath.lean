import KasterCti.Resilience.DurableSpool
import KasterCti.Library.Trace

/-!
# The live path

`AmiConnectionService.handleNormalizedEvent`, cut at its awaits. Calls of
different socket chunks run side by side, so a run is any order of their steps:
the frame arrives, the append lands in Redis or in the local file, the event is
processed, and the cursor write that `markProcessed` issues takes effect. A
restart loses the calls and the frozen set; what is stored survives, and a write
already issued may still arrive.

`markFailed` freezes the cursor so that no failed event falls behind it. The
freeze works on the events that are processed after the failure, in the same
process.

Results:
1. `liveStep_keeps`: a step that neither overtakes nor forgets keeps every
   marked id below every failed id.
2. `failed_behind_cursor`: in every run of such steps, every failed event is
   still behind the cursor.
3. `overtaken_event_lost`, `forgotten_event_lost`: without either it is not.
-/

namespace KasterCti.Resilience

open Calls JsText Trace

inductive OperatingMode
  | normal
  | dbFailover
  | degraded
  | recovering
deriving DecidableEq

/-- `recordDbFailure`; `overdue` says that the outage has lasted `degradedAfterMs`. -/
def recordDbFailure (overdue : Bool) : OperatingMode → OperatingMode
  | .normal | .recovering => .dbFailover
  | .dbFailover => if overdue then .degraded else .dbFailover
  | .degraded => .degraded

def recordDbRecovered : OperatingMode → OperatingMode
  | .dbFailover | .degraded => .recovering
  | mode => mode

def markRecoveryComplete : OperatingMode → OperatingMode
  | .recovering => .normal
  | mode => mode

/-- Where a call of `handleNormalizedEvent` waits. -/
inductive Phase
  | appending
  | appendingLocal
  | sizing
  | processing (appended : Appended)
deriving DecidableEq

structure LiveCall where
  record : SpoolRecord
  /-- `isLeader` as read when the call started. -/
  leader : Bool
  phase : Phase
deriving DecidableEq

structure Live where
  env : Env
  maxLen : Nat
  spool : Spool
  calls : Nat → Option LiveCall
  nextCall : Nat
  /-- Cursor writes issued and not yet executed. -/
  commits : List (String × Appended)
  mode : OperatingMode
  leader : Bool
  known : Bool
  /-- The events that were appended and whose processing failed. -/
  failed : List (SpoolRecord × Appended)
  /-- The stream ids for which `markProcessed` issued a cursor write. -/
  marked : List (String × Nat)

inductive LiveAction
  | receive (event : AmiEvent) (now : Time)
  | xadd (call : Nat) (ok : Bool) (trim : Nat)
  | writeLocal (call : Nat) (ok : Bool)
  | statLocal (call : Nat) (ok : Bool)
  | finish (call : Nat) (ok overdue : Bool)
  | commit (index : Nat) (ok : Bool)
  | restart
  | leadership (leader known : Bool)
deriving DecidableEq

/-! ## Steps -/

def Live.setCall (s : Live) (n : Nat) (call : Option LiveCall) : Live :=
  { s with calls := fun m => if m = n then call else s.calls m }

/-- After the append: a leader goes on to process the event, another node returns. -/
def Live.appended (s : Live) (n : Nat) (call : LiveCall) (appended : Appended) : Live :=
  s.setCall n (if call.leader then some { call with phase := .processing appended } else none)

/-- A frame arrives. A node that knows it is not the leader ignores it; an event
without a tenant is appended nowhere. -/
def Live.receive (s : Live) (event : AmiEvent) (now : Time) : Live :=
  if s.leader || !s.known then
    let record := spoolRecord event (computeFingerprint s.env event now) now
    let call : LiveCall := ⟨record, s.leader, .appending⟩
    let s := { s with nextCall := s.nextCall + 1 }
    if event.tenantId = "" then s.appended (s.nextCall - 1) call .none
    else s.setCall (s.nextCall - 1) (some call)
  else s

def Live.xadd (s : Live) (n : Nat) (call : LiveCall) (ok : Bool) (trim : Nat) : Live :=
  if ok then
    let (streamId, spool) := s.spool.xadd s.maxLen call.record trim
    { s with spool := spool }.appended n call (.redis streamId)
  else s.setCall n (some { call with phase := .appendingLocal })

def Live.writeLocal (s : Live) (n : Nat) (call : LiveCall) (ok : Bool) : Live :=
  if ok && validTenantId call.record.tenantId then
    { s with spool := s.spool.writeLine call.record }.setCall n (some { call with phase := .sizing })
  else s.appended n call .none

def Live.statLocal (s : Live) (n : Nat) (call : LiveCall) (ok : Bool) : Live :=
  s.appended n call (if ok then .local (s.spool.fileSize call.record.tenantId) else .none)

/-- The stream id of an append, for the book-keeping of marked ids. -/
def Appended.ids (tenantId : String) : Appended → List (String × Nat)
  | .redis streamId => [(tenantId, streamId)]
  | _ => []

/-- A failed event counts when it was appended somewhere. -/
def Appended.failures (record : SpoolRecord) : Appended → List (SpoolRecord × Appended)
  | .none => []
  | appended => [(record, appended)]

/-- The event was processed: the mode hears of it and the cursor is moved, if it
may move. -/
def Live.succeed (s : Live) (n : Nat) (call : LiveCall) (appended : Appended) : Live :=
  let s := { s with mode := recordDbRecovered s.mode }.setCall n none
  match s.spool.markProcessed call.record.tenantId appended with
  | none => s
  | some write =>
    { s with commits := s.commits ++ [write], marked := s.marked ++ write.2.ids write.1 }

/-- Processing threw: the cursor of the tenant is frozen. -/
def Live.fail (s : Live) (n : Nat) (call : LiveCall) (appended : Appended) (overdue : Bool) : Live :=
  { s with
    mode := recordDbFailure overdue s.mode
    spool := s.spool.markFailed call.record.tenantId
    failed := s.failed ++ appended.failures call.record }.setCall n none

def Live.commit (s : Live) (index : Nat) (ok : Bool) : Live :=
  match s.commits[index]? with
  | none => s
  | some write =>
    { s with
      commits := s.commits.eraseIdx index
      spool := if ok then s.spool.commitCursor write.1 write.2 else s.spool }

/-- The process restarts: memory is lost, storage stays. -/
def Live.restart (s : Live) : Live :=
  { s with
    calls := fun _ => none
    mode := .normal
    leader := false
    known := false
    spool := { s.spool with blocked := [] } }

def liveStep (s : Live) : LiveAction → Live
  | .receive event now => s.receive event now
  | .xadd n ok trim =>
    match s.calls n with
    | some call => if call.phase = .appending then s.xadd n call ok trim else s
    | none => s
  | .writeLocal n ok =>
    match s.calls n with
    | some call => if call.phase = .appendingLocal then s.writeLocal n call ok else s
    | none => s
  | .statLocal n ok =>
    match s.calls n with
    | some call => if call.phase = .sizing then s.statLocal n call ok else s
    | none => s
  | .finish n ok overdue =>
    match s.calls n with
    | some call =>
      match call.phase with
      | .processing appended =>
        if ok then s.succeed n call appended else s.fail n call appended overdue
      | _ => s
    | none => s
  | .commit index ok => s.commit index ok
  | .restart => s.restart
  | .leadership leader known => { s with leader := leader, known := known }

/-! ## No failed event falls behind the cursor -/

/-- An event fails after a later event of its tenant was marked processed. -/
def Overtaken (s : Live) : LiveAction → Prop
  | .finish n false _ => ∃ call i j, s.calls n = some call ∧
      call.phase = .processing (.redis i) ∧ (call.record.tenantId, j) ∈ s.marked ∧ i < j
  | _ => False

/-- An event is marked processed, the tenant not being frozen, although an
earlier event of its tenant has failed: the freeze was lost. -/
def Forgets (s : Live) : LiveAction → Prop
  | .finish n true _ => ∃ call j, s.calls n = some call ∧
      call.phase = .processing (.redis j) ∧ s.spool.isBlocked call.record.tenantId = false ∧
      ∃ f ∈ s.failed, f.1.tenantId = call.record.tenantId ∧ ∃ i, f.2 = .redis i ∧ i < j
  | _ => False

/-- Every event that was appended to the stream and failed is behind the cursor. -/
def FailedBehindCursor (s : Live) : Prop :=
  ∀ f ∈ s.failed, ∀ i, f.2 = .redis i → ∀ c, s.spool.cursor f.1.tenantId = some c → c < i

/-- What the steps keep. Ids are given out once, so that an event in flight is
neither marked nor failed; the cursor and every issued write carry a marked id;
and every marked id is below every failed id of its tenant. -/
structure Kept (s : Live) : Prop where
  call_le : ∀ n call i, s.calls n = some call → call.phase = .processing (.redis i) →
    i ≤ s.spool.lastId
  call_unmarked : ∀ n call i, s.calls n = some call → call.phase = .processing (.redis i) →
    ∀ t, (t, i) ∉ s.marked
  call_unfailed : ∀ n call i, s.calls n = some call → call.phase = .processing (.redis i) →
    ∀ f ∈ s.failed, f.2 ≠ .redis i
  calls_ne : ∀ n m call call' i, n ≠ m → s.calls n = some call → s.calls m = some call' →
    call.phase = .processing (.redis i) → call'.phase ≠ .processing (.redis i)
  marked_le : ∀ p ∈ s.marked, p.2 ≤ s.spool.lastId
  failed_le : ∀ f ∈ s.failed, ∀ i, f.2 = .redis i → i ≤ s.spool.lastId
  commit_marked : ∀ w ∈ s.commits, ∀ i, w.2 = .redis i → (w.1, i) ∈ s.marked
  cursor_marked : ∀ t c, s.spool.cursor t = some c → (t, c) ∈ s.marked
  marked_lt : ∀ f ∈ s.failed, ∀ i, f.2 = .redis i → ∀ j, (f.1.tenantId, j) ∈ s.marked → j < i

variable {s : Live}

theorem Kept.failed_behind (h : Kept s) : FailedBehindCursor s :=
  fun f hf i hi c hc => h.marked_lt f hf i hi c (h.cursor_marked _ c hc)

theorem setCall_some {n m : Nat} {new : Option LiveCall} {call : LiveCall}
    (h : (s.setCall n new).calls m = some call) :
    (m = n ∧ new = some call) ∨ (m ≠ n ∧ s.calls m = some call) := by
  simp only [Live.setCall] at h
  split at h
  · next hm => exact .inl ⟨hm, h⟩
  · next hm => exact .inr ⟨hm, h⟩

/-- A call that holds no stream id may be put in the place of another. -/
theorem Kept.setCall (h : Kept s) (n : Nat) {new : Option LiveCall}
    (hnew : ∀ call i, new = some call → call.phase ≠ .processing (.redis i)) :
    Kept (s.setCall n new) := by
  have hold : ∀ m call i, (s.setCall n new).calls m = some call →
      call.phase = .processing (.redis i) → m ≠ n ∧ s.calls m = some call := by
    intro m call i hcall hphase
    rcases setCall_some hcall with ⟨_, hsome⟩ | hm
    · exact absurd hphase (hnew call i hsome)
    · exact hm
  refine ⟨?_, ?_, ?_, ?_, h.marked_le, h.failed_le, h.commit_marked, h.cursor_marked, h.marked_lt⟩
  · intro m call i hcall hphase
    exact h.call_le m call i (hold m call i hcall hphase).2 hphase
  · intro m call i hcall hphase
    exact h.call_unmarked m call i (hold m call i hcall hphase).2 hphase
  · intro m call i hcall hphase
    exact h.call_unfailed m call i (hold m call i hcall hphase).2 hphase
  · intro m m' call call' i hm hcall hcall' hphase hphase'
    exact h.calls_ne m m' call call' i hm (hold m call i hcall hphase).2
      (hold m' call' i hcall' hphase').2 hphase hphase'

theorem Kept.dropCall (h : Kept s) (n : Nat) : Kept (s.setCall n none) := by
  refine h.setCall n ?_
  intro call i hcall
  cases hcall

/-- A call goes on to be processed without a stream id. -/
theorem Kept.appended (h : Kept s) (n : Nat) (call : LiveCall) {appended : Appended}
    (hid : ∀ i, appended ≠ .redis i) : Kept (s.appended n call appended) := by
  refine h.setCall n ?_
  intro call' i hcall' hphase
  split at hcall'
  · cases hcall'
    simp only [Phase.processing.injEq] at hphase
    exact hid i hphase
  · cases hcall'

/-- The id of an `XADD` is above all ids before it. -/
theorem Kept.xadd (h : Kept s) (n : Nat) (call : LiveCall) (trim : Nat) :
    Kept (s.xadd n call true trim) := by
  have hgrow : ∀ i, i ≤ s.spool.lastId → i ≤ s.spool.lastId + 1 := fun i hi => by omega
  have hcase : ∀ m call' i, (s.xadd n call true trim).calls m = some call' →
      call'.phase = .processing (.redis i) →
      (m = n ∧ i = s.spool.lastId + 1) ∨ (m ≠ n ∧ s.calls m = some call') := by
    intro m call' i hcall hphase
    rcases setCall_some hcall with ⟨hm, hnew⟩ | hm
    · refine .inl ⟨hm, ?_⟩
      split at hnew
      · cases hnew
        simp only [Phase.processing.injEq, Appended.redis.injEq] at hphase
        exact hphase.symm
      · cases hnew
    · exact .inr hm
  refine ⟨?_, ?_, ?_, ?_, ?_, ?_, h.commit_marked, h.cursor_marked, h.marked_lt⟩
  · intro m call' i hcall hphase
    rcases hcase m call' i hcall hphase with ⟨_, rfl⟩ | ⟨_, hm⟩
    · exact le_refl _
    · exact hgrow i (h.call_le m call' i hm hphase)
  · intro m call' i hcall hphase t hmark
    rcases hcase m call' i hcall hphase with ⟨_, rfl⟩ | ⟨_, hm⟩
    · have hle := h.marked_le _ hmark
      simp at hle
    · exact h.call_unmarked m call' i hm hphase t hmark
  · intro m call' i hcall hphase f hf hfi
    rcases hcase m call' i hcall hphase with ⟨_, rfl⟩ | ⟨_, hm⟩
    · have hle := h.failed_le f hf _ hfi
      simp at hle
    · exact h.call_unfailed m call' i hm hphase f hf hfi
  · intro m m' call' call'' i hne hcall hcall' hphase hphase'
    rcases hcase m call' i hcall hphase with ⟨hm, rfl⟩ | ⟨_, hm⟩ <;>
      rcases hcase m' call'' _ hcall' hphase' with ⟨hm', hi⟩ | ⟨_, hm'⟩
    · exact hne (hm.trans hm'.symm)
    · have hle := h.call_le m' call'' _ hm' hphase'
      omega
    · have hle := h.call_le m call' _ hm hphase
      omega
    · exact h.calls_ne m m' call' call'' i hne hm hm' hphase hphase'
  · intro p hp
    exact hgrow _ (h.marked_le p hp)
  · intro f hf i hi
    exact hgrow _ (h.failed_le f hf i hi)

section Finish

variable {s : Live} {n : Nat} {call : LiveCall}

/-- The finished call is gone; its id belongs to no other call. -/
theorem Kept.other_id (h : Kept s) {i : Nat} (hcall : s.calls n = some call)
    (hphase : call.phase = .processing (.redis i)) {m : Nat} {call' : LiveCall} {i' : Nat}
    (hcall' : (s.setCall n none).calls m = some call')
    (hphase' : call'.phase = .processing (.redis i')) : i' ≠ i := by
  rintro rfl
  rcases setCall_some hcall' with ⟨_, hnone⟩ | ⟨hm, hold⟩
  · cases hnone
  · exact h.calls_ne n m call call' i' (Ne.symm hm) hcall hold hphase hphase'

/-- A stream id is marked: it was in flight, and no failed id is below it. -/
theorem Kept.mark (h : Kept s) {j : Nat} (hcall : s.calls n = some call)
    (hphase : call.phase = .processing (.redis j))
    (hfailed : ∀ f ∈ s.failed, f.1.tenantId = call.record.tenantId → ∀ i, f.2 = .redis i → ¬ i < j) :
    Kept { s.setCall n none with
      commits := s.commits ++ [(call.record.tenantId, .redis j)]
      marked := s.marked ++ [(call.record.tenantId, j)] } := by
  have hgone := h.dropCall n
  refine ⟨hgone.call_le, ?_, hgone.call_unfailed, hgone.calls_ne, ?_, hgone.failed_le, ?_, ?_, ?_⟩
  · intro m call' i hcall' hphase' t hmark
    rcases List.mem_append.1 hmark with hmark | hmark
    · exact hgone.call_unmarked m call' i hcall' hphase' t hmark
    · simp only [List.mem_singleton, Prod.mk.injEq] at hmark
      exact h.other_id hcall hphase hcall' hphase' hmark.2
  · intro p hp
    rcases List.mem_append.1 hp with hp | hp
    · exact h.marked_le p hp
    · simp only [List.mem_singleton] at hp
      subst hp
      exact h.call_le n call j hcall hphase
  · intro w hw i hi
    rcases List.mem_append.1 hw with hw | hw
    · exact List.mem_append_left _ (h.commit_marked w hw i hi)
    · simp only [List.mem_singleton] at hw
      subst hw
      simp only [Appended.redis.injEq] at hi
      exact List.mem_append_right _ (by simp [hi])
  · intro t c hc
    exact List.mem_append_left _ (h.cursor_marked t c hc)
  · intro f hf i hi j' hmark
    rcases List.mem_append.1 hmark with hmark | hmark
    · exact h.marked_lt f hf i hi j' hmark
    · simp only [List.mem_singleton, Prod.mk.injEq] at hmark
      obtain ⟨ht, rfl⟩ := hmark
      have hnot := hfailed f hf ht i hi
      have hne : i ≠ j' := by
        rintro rfl
        exact h.call_unfailed n call i hcall hphase f hf hi
      omega

/-- A stream id fails: it was in flight, and no marked id is above it. -/
theorem Kept.addFailed (h : Kept s) {i : Nat} (hcall : s.calls n = some call)
    (hphase : call.phase = .processing (.redis i))
    (hmarked : ∀ j, (call.record.tenantId, j) ∈ s.marked → ¬ i < j) :
    Kept { s.setCall n none with failed := s.failed ++ [(call.record, .redis i)] } := by
  have hgone := h.dropCall n
  refine ⟨hgone.call_le, hgone.call_unmarked, ?_, hgone.calls_ne, hgone.marked_le, ?_,
    hgone.commit_marked, hgone.cursor_marked, ?_⟩
  · intro m call' i' hcall' hphase' f hf
    rcases List.mem_append.1 hf with hf | hf
    · exact hgone.call_unfailed m call' i' hcall' hphase' f hf
    · simp only [List.mem_singleton] at hf
      subst hf
      intro hi
      simp only [Appended.redis.injEq] at hi
      exact h.other_id hcall hphase hcall' hphase' hi.symm
  · intro f hf i' hi'
    rcases List.mem_append.1 hf with hf | hf
    · exact h.failed_le f hf i' hi'
    · simp only [List.mem_singleton] at hf
      subst hf
      simp only [Appended.redis.injEq] at hi'
      exact hi' ▸ h.call_le n call i hcall hphase
  · intro f hf i' hi' j hmark
    rcases List.mem_append.1 hf with hf | hf
    · exact h.marked_lt f hf i' hi' j hmark
    · simp only [List.mem_singleton] at hf
      subst hf
      simp only [Appended.redis.injEq] at hi'
      subst hi'
      have hnot := hmarked j hmark
      have hne : j ≠ i := by
        rintro rfl
        exact h.call_unmarked n call j hcall hphase _ hmark
      omega

end Finish

/-- The state without its mode, its leadership and its frozen tenants. -/
theorem Kept.congr {s s' : Live} (h : Kept s) (hcalls : s'.calls = s.calls)
    (hlast : s'.spool.lastId = s.spool.lastId) (hcursor : s'.spool.cursor = s.spool.cursor)
    (hcommits : ∀ w ∈ s'.commits, ∀ i, w.2 = .redis i → (w.1, i) ∈ s.marked)
    (hmarked : s'.marked = s.marked) (hfailed : ∀ f ∈ s'.failed, ∀ i, f.2 = .redis i → f ∈ s.failed) :
    Kept s' := by
  refine ⟨?_, ?_, ?_, ?_, ?_, ?_, ?_, ?_, ?_⟩
  · rw [hcalls, hlast]
    exact h.call_le
  · rw [hcalls, hmarked]
    exact h.call_unmarked
  · rw [hcalls]
    intro m call i hcall hphase f hf hi
    exact h.call_unfailed m call i hcall hphase f (hfailed f hf i hi) hi
  · rw [hcalls]
    exact h.calls_ne
  · rw [hmarked, hlast]
    exact h.marked_le
  · rw [hlast]
    exact fun f hf i hi => h.failed_le f (hfailed f hf i hi) i hi
  · rw [hmarked]
    exact hcommits
  · rw [hcursor, hmarked]
    exact h.cursor_marked
  · rw [hmarked]
    exact fun f hf i hi => h.marked_lt f (hfailed f hf i hi) i hi

theorem Kept.succeed (h : Kept s) {n : Nat} {call : LiveCall} {appended : Appended} {overdue : Bool}
    (hcall : s.calls n = some call) (hphase : call.phase = .processing appended)
    (hnot : ¬ Forgets s (.finish n true overdue)) : Kept (s.succeed n call appended) := by
  have hgone := h.dropCall n
  unfold Live.succeed Spool.markProcessed
  dsimp only [Live.setCall]
  by_cases hblocked : s.spool.isBlocked call.record.tenantId
  · rw [if_pos hblocked]
    exact hgone.congr rfl rfl rfl hgone.commit_marked rfl (fun f hf _ _ => hf)
  · rw [if_neg hblocked]
    cases appended with
    | none => exact hgone.congr rfl rfl rfl hgone.commit_marked rfl (fun f hf _ _ => hf)
    | «local» offset =>
      refine hgone.congr rfl rfl rfl ?_ (List.append_nil _) (fun f hf _ _ => hf)
      intro w hw i hi
      rcases List.mem_append.1 hw with hw | hw
      · exact h.commit_marked w hw i hi
      · simp only [List.mem_singleton] at hw
        subst hw
        cases hi
    | redis j =>
      have hmark := h.mark hcall hphase fun f hf ht i hi hlt => hnot
        ⟨call, j, hcall, hphase, by simpa using hblocked, f, hf, ht, i, hi, hlt⟩
      exact hmark.congr rfl rfl rfl hmark.commit_marked rfl (fun f hf _ _ => hf)

theorem markFailed_lastId (sp : Spool) (t : String) : (sp.markFailed t).lastId = sp.lastId := by
  unfold Spool.markFailed
  split <;> rfl

theorem markFailed_cursor (sp : Spool) (t : String) : (sp.markFailed t).cursor = sp.cursor := by
  unfold Spool.markFailed
  split <;> rfl

theorem Kept.fail (h : Kept s) {n : Nat} {call : LiveCall} {appended : Appended} {overdue : Bool}
    (hcall : s.calls n = some call) (hphase : call.phase = .processing appended)
    (hnot : ¬ Overtaken s (.finish n false overdue)) : Kept (s.fail n call appended overdue) := by
  have hgone := h.dropCall n
  have hlast := markFailed_lastId s.spool call.record.tenantId
  have hcursor := markFailed_cursor s.spool call.record.tenantId
  cases appended with
  | none =>
    refine hgone.congr rfl hlast hcursor hgone.commit_marked rfl ?_
    intro f hf _ _
    simpa [Live.fail, Live.setCall, Appended.failures] using hf
  | «local» offset =>
    refine hgone.congr rfl hlast hcursor hgone.commit_marked rfl ?_
    intro f hf i hi
    simp only [Live.fail, Live.setCall, Appended.failures, List.mem_append, List.mem_singleton] at hf
    rcases hf with hf | rfl
    · exact hf
    · cases hi
  | redis i =>
    have hfail := h.addFailed hcall hphase fun j hj hlt => hnot ⟨call, i, j, hcall, hphase, hj, hlt⟩
    exact hfail.congr rfl hlast hcursor hfail.commit_marked rfl (fun f hf _ _ => hf)

theorem Kept.commit (h : Kept s) (index : Nat) (ok : Bool) : Kept (s.commit index ok) := by
  unfold Live.commit
  split
  · exact h
  · next write hwrite =>
    have hmem : write ∈ s.commits := List.mem_of_getElem? hwrite
    have herase : ∀ w ∈ s.commits.eraseIdx index, ∀ i, w.2 = .redis i → (w.1, i) ∈ s.marked :=
      fun w hw i hi => h.commit_marked w (List.mem_of_mem_eraseIdx hw) i hi
    cases ok with
    | false => exact h.congr rfl rfl rfl herase rfl (fun f hf _ _ => hf)
    | true =>
      obtain ⟨t, appended⟩ := write
      cases appended with
      | redis i =>
        refine ⟨h.call_le, h.call_unmarked, h.call_unfailed, h.calls_ne, h.marked_le, h.failed_le,
          herase, ?_, h.marked_lt⟩
        intro t' c hc
        by_cases ht : t' = t
        · subst ht
          simp only [Spool.commitCursor, if_true, setAt_self, Option.some.injEq] at hc
          exact hc ▸ h.commit_marked _ hmem i rfl
        · simp only [Spool.commitCursor, if_true, setAt_other _ _ ht] at hc
          exact h.cursor_marked t' c hc
      | «local» offset => exact h.congr rfl rfl rfl herase rfl (fun f hf _ _ => hf)
      | none => exact h.congr rfl rfl rfl herase rfl (fun f hf _ _ => hf)

theorem Kept.receive (h : Kept s) (event : AmiEvent) (now : Time) : Kept (s.receive event now) := by
  unfold Live.receive
  split
  · have hnext : Kept { s with nextCall := s.nextCall + 1 } :=
      h.congr rfl rfl rfl h.commit_marked rfl (fun f hf _ _ => hf)
    dsimp only
    split
    · exact hnext.appended _ _ (by simp)
    · refine hnext.setCall _ ?_
      rintro call i ⟨⟩ hphase
      cases hphase
  · exact h

theorem Kept.writeLocal (h : Kept s) (n : Nat) (call : LiveCall) (ok : Bool) :
    Kept (s.writeLocal n call ok) := by
  unfold Live.writeLocal
  split
  · have hline : Kept { s with spool := s.spool.writeLine call.record } :=
      h.congr rfl rfl rfl h.commit_marked rfl (fun f hf _ _ => hf)
    refine hline.setCall n ?_
    rintro call' i ⟨⟩ hphase
    cases hphase
  · exact h.appended n call (by simp)

/-- One step keeps the invariant, unless an event is overtaken or a failure is
forgotten in it. -/
theorem liveStep_keeps {a : LiveAction} (h : Kept s) (hover : ¬ Overtaken s a)
    (hforget : ¬ Forgets s a) : Kept (liveStep s a) := by
  cases a with
  | receive event now => exact h.receive event now
  | xadd n ok trim =>
    simp only [liveStep]
    split
    · next call hcall =>
      split
      · cases ok with
        | true => exact h.xadd n call trim
        | false =>
          refine h.setCall n ?_
          rintro call' i ⟨⟩ hphase
          cases hphase
      · exact h
    · exact h
  | writeLocal n ok =>
    simp only [liveStep]
    split
    · split
      · exact h.writeLocal n _ ok
      · exact h
    · exact h
  | statLocal n ok =>
    simp only [liveStep]
    split
    · split
      · refine h.appended n _ ?_
        intro i
        split <;> simp
      · exact h
    · exact h
  | finish n ok overdue =>
    simp only [liveStep]
    split
    · next call hcall =>
      split
      · next appended hphase =>
        cases ok with
        | true => exact h.succeed hcall hphase hforget
        | false => exact h.fail hcall hphase hover
      · exact h
    · exact h
  | commit index ok => exact h.commit index ok
  | restart =>
    exact ⟨by simp [liveStep, Live.restart], by simp [liveStep, Live.restart],
      by simp [liveStep, Live.restart], by simp [liveStep, Live.restart], h.marked_le, h.failed_le,
      h.commit_marked, h.cursor_marked, h.marked_lt⟩
  | leadership leader known => exact h.congr rfl rfl rfl h.commit_marked rfl (fun f hf _ _ => hf)

/-- A node before its first event: nothing in flight, nothing failed, and every
stored cursor an id that was given out. -/
structure Fresh (s : Live) : Prop where
  calls : ∀ n, s.calls n = none
  commits : s.commits = []
  failed : s.failed = []
  marked : ∀ p ∈ s.marked, p.2 ≤ s.spool.lastId
  cursor : ∀ t c, s.spool.cursor t = some c → (t, c) ∈ s.marked

theorem Fresh.kept (h : Fresh s) : Kept s := by
  refine ⟨?_, ?_, ?_, ?_, h.marked, ?_, ?_, h.cursor, ?_⟩
  · simp [h.calls]
  · simp [h.calls]
  · simp [h.calls]
  · simp [h.calls]
  · simp [h.failed]
  · simp [h.commits]
  · simp [h.failed]

/-- In every run of the live path in which no event fails after a later one was
marked processed, and no event is marked processed past a failure that a restart
made the node forget, every failed event is behind the cursor in every state. -/
theorem failed_behind_cursor (s : Live) (actions : List LiveAction) (hs : Fresh s)
    (hrun : Along liveStep (fun s a => ¬ Overtaken s a ∧ ¬ Forgets s a) s actions) :
    ∀ pre post, actions = pre ++ post → FailedBehindCursor (pre.foldl liveStep s) := by
  rintro pre post rfl
  have hkept : Kept (pre.foldl liveStep s) :=
    hrun.take.invariant (fun s a hstep hinv => liveStep_keeps hinv hstep.1 hstep.2) hs.kept
  exact hkept.failed_behind

/-- The leader with an empty spool. -/
def exLive : Live :=
  { env := exEnv, maxLen := defaultStreamMaxLen, spool := Spool.empty, calls := fun _ => none
    nextCall := 0, commits := [], mode := .normal, leader := true, known := true
    failed := [], marked := [] }

def exEvent (uniqueid : String) : AmiEvent :=
  { eventName := .newchannel, tenantId := "t", linkedid := some "c1", uniqueid := some uniqueid }

def exRecord (uniqueid : String) : SpoolRecord :=
  spoolRecord (exEvent uniqueid) (computeFingerprint exEnv (exEvent uniqueid) 0) 0

theorem exLive_fresh : Fresh exLive := by
  constructor <;> simp [exLive, Spool.empty]

/-- The first event is done, the second fails, and the third finds the cursor
frozen. -/
def exFrozen : List LiveAction :=
  [.receive (exEvent "1") 0, .xadd 0 true 0, .finish 0 true false, .commit 0 true,
    .receive (exEvent "2") 0, .xadd 1 true 0, .finish 1 false false,
    .receive (exEvent "3") 0, .xadd 2 true 0, .finish 2 true false]

theorem failed_behind_cursor_frozen :
    (exFrozen.foldl liveStep exLive).spool.cursor "t" = some 1 ∧
      FailedBehindCursor (exFrozen.foldl liveStep exLive) := by
  refine ⟨by decide, failed_behind_cursor exLive exFrozen exLive_fresh ?_ exFrozen [] (by simp)⟩
  simp only [exFrozen, along_cons, Overtaken, Forgets, not_false_eq_true, and_self, true_and,
    and_true]
  refine ⟨?_, ?_, ?_, along_nil⟩
  · rintro ⟨call, j, -, -, -, f, hf, -⟩
    have hf : f ∈ ([] : List (SpoolRecord × Appended)) := hf
    cases hf
  · rintro ⟨call, i, j, hcall, hphase, hmark, hlt⟩
    -- The event in flight has id 2, and the only marked id is 1.
    have hcall : some (⟨exRecord "2", true, .processing (.redis 2)⟩ : LiveCall) = some call := hcall
    cases hcall
    cases hphase
    have hmark : ("t", j) ∈ [("t", 1)] := hmark
    simp only [List.mem_singleton, Prod.mk.injEq] at hmark
    omega
  · rintro ⟨call, j, hcall, -, hblocked, -⟩
    have hcall : some (⟨exRecord "3", true, .processing (.redis 3)⟩ : LiveCall) = some call := hcall
    cases hcall
    exact absurd hblocked (by decide)

/-! ## Runs that lose an event -/

/-- Two chunks, one event each. The second event is done while the first is still
being processed. -/
def exOvertaken : List LiveAction :=
  [.receive (exEvent "1") 0, .receive (exEvent "2") 0, .xadd 0 true 0, .xadd 1 true 0,
    .finish 1 true false, .commit 0 true, .finish 0 false false]

/-- The first event fails, the node restarts, and the second event is done. -/
def exForgotten : List LiveAction :=
  [.receive (exEvent "1") 0, .xadd 0 true 0, .finish 0 false false, .restart,
    .leadership true true, .receive (exEvent "2") 0, .xadd 1 true 0, .finish 1 true false,
    .commit 0 true]

theorem overtaken_event_lost : ¬ FailedBehindCursor (exOvertaken.foldl liveStep exLive) := by
  intro h
  exact absurd (h (exRecord "1", .redis 1) (by decide) 1 rfl 2 (by decide)) (by decide)

theorem forgotten_event_lost : ¬ FailedBehindCursor (exForgotten.foldl liveStep exLive) := by
  intro h
  exact absurd (h (exRecord "1", .redis 1) (by decide) 1 rfl 2 (by decide)) (by decide)

end KasterCti.Resilience
