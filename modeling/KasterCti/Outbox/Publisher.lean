import KasterCti.Library.Trace
import Mathlib.Data.List.Nodup
import Mathlib.Data.List.Sort

/-!
# The outbox publisher

`OutboxPublisherService.flush`, cut at its awaits, with any number of flushes under way on
one node or on several: they share the table, the event bus and Redis. The timer does not
wait for a flush, and a flush does not claim the rows it has read.

Results:
1. `outboxStep_kept`: what every step keeps when no flush starts while another is under way
   and no row turns up behind one that a flush has taken.
2. `outbox_exactly_once`: in a run of such steps every row is published at most once, in
   the order of creation, and the run can go on until every row is published.
3. `two_flushes_publish_twice`: without the condition a row is published by both.
4. `marked_rows_published`: with any number of flushes, what is marked was published.
-/

namespace KasterCti.Outbox

open Trace

structure OutboxRow where
  outboxId : String
  tenantId : String
  eventType : String
  /-- `payload.callId`; the rest of the payload goes out as it is. -/
  callId : Option String
  createdAt : Int
  publishedAt : Option Int
deriving DecidableEq

/-- What goes over the event bus. -/
inductive Publication
  | event (row : OutboxRow) (customer : Option String)
  | screenpop (tenantId : String) (callId : Option String) (customer : String)
  | queueSummary (tenantId : String)

/-- The await that a flush is in with its row. -/
inductive RowPhase
  | enriching
  | publishing (customer : Option String)
  | screenpop (customer : String)
  | queueSummary
  | unmuting (callId : String)
  | marking
deriving DecidableEq

inductive FlushRun
  | finding
  | working (row : OutboxRow) (rest : List OutboxRow) (phase : RowPhase)

structure OutboxState where
  rows : List OutboxRow
  /-- The flushes under way. -/
  runs : List FlushRun
  bus : List Publication
  /-- The calls with a mute flag in Redis. -/
  muted : List String

/-- How an await comes back. -/
structure FlushReply where
  /-- What `findMany` returned. -/
  rows : List OutboxRow
  /-- The customer that `enrichPayload` found. -/
  customer : Option String
  now : Int

inductive OutboxAction
  /-- A transaction that wrote a row commits. -/
  | create (row : OutboxRow)
  | mute (callId : String)
  | tick (isLeader : Bool)
  | next (run : Nat) (reply : FlushReply)

def takeRows : Nat := 100

def pending (rows : List OutboxRow) : List OutboxRow := rows.filter (·.publishedAt.isNone)

/-- An answer of `findMany`: the first rows that are not published, by `createdAt`. Rows of
the same instant come in any order. -/
def Selects (rows selected : List OutboxRow) : Prop :=
  (∀ row ∈ selected, row ∈ pending rows) ∧ selected.Nodup ∧
    selected.Pairwise (fun a b => a.createdAt ≤ b.createdAt) ∧
    selected.length = min takeRows (pending rows).length ∧
    ∀ row ∈ pending rows, row ∉ selected → ∀ first ∈ selected, first.createdAt ≤ row.createdAt

instance (rows selected : List OutboxRow) : Decidable (Selects rows selected) :=
  inferInstanceAs (Decidable (_ ∧ _ ∧ _ ∧ _ ∧ _))

/-- The rows after the update by id. -/
def marked (rows : List OutboxRow) (outboxId : String) (now : Int) : List OutboxRow :=
  rows.map fun row => if row.outboxId = outboxId then { row with publishedAt := some now } else row

def isCallEvent (eventType : String) : Bool :=
  eventType = "call.created" || eventType = "call.updated" || eventType = "call.ended"

namespace OutboxRow

def afterSummary (row : OutboxRow) : RowPhase :=
  match row.callId with
  | some callId => if row.eventType = "call.ended" then .unmuting callId else .marking
  | none => .marking

def afterScreenpop (row : OutboxRow) : RowPhase :=
  if isCallEvent row.eventType then .queueSummary else row.afterSummary

def afterPublish (row : OutboxRow) (customer : Option String) : RowPhase :=
  match customer with
  | some customer => if row.eventType = "call.created" then .screenpop customer else row.afterScreenpop
  | none => row.afterScreenpop

end OutboxRow

namespace OutboxState

def setRun (s : OutboxState) (n : Nat) (run : FlushRun) : OutboxState :=
  { s with runs := s.runs.set n run }

/-- The next row of the loop, or the end of the flush. -/
def goOn (s : OutboxState) (n : Nat) : List OutboxRow → OutboxState
  | [] => { s with runs := s.runs.eraseIdx n }
  | row :: rest => s.setRun n (.working row rest .enriching)

def send (s : OutboxState) (publication : Publication) : OutboxState :=
  { s with bus := s.bus ++ [publication] }

def mark (s : OutboxState) (outboxId : String) (now : Int) : OutboxState :=
  { s with rows := marked s.rows outboxId now }

def nextRow (s : OutboxState) (n : Nat) (row : OutboxRow) (rest : List OutboxRow)
    (reply : FlushReply) : RowPhase → OutboxState
  | .enriching =>
    let customer := if isCallEvent row.eventType then reply.customer else none
    s.setRun n (.working row rest (.publishing customer))
  | .publishing customer =>
    (s.send (.event row customer)).setRun n (.working row rest (row.afterPublish customer))
  | .screenpop customer =>
    (s.send (.screenpop row.tenantId row.callId customer)).setRun n
      (.working row rest row.afterScreenpop)
  | .queueSummary =>
    (s.send (.queueSummary row.tenantId)).setRun n (.working row rest row.afterSummary)
  | .unmuting callId =>
    { s with muted := s.muted.filter (· ≠ callId) }.setRun n (.working row rest .marking)
  | .marking => (s.mark row.outboxId reply.now).goOn n rest

end OutboxState

/-- One step; a label that fits nothing changes nothing. -/
def outboxStep (s : OutboxState) : OutboxAction → OutboxState
  | .create row =>
    if s.rows.any (·.outboxId = row.outboxId) then s
    else { s with rows := s.rows ++ [{ row with publishedAt := none }] }
  | .mute callId => { s with muted := callId :: s.muted }
  | .tick isLeader => if isLeader then { s with runs := s.runs ++ [.finding] } else s
  | .next n reply =>
    match s.runs[n]? with
    | none => s
    | some .finding => if Selects s.rows reply.rows then s.goOn n reply.rows else s
    | some (.working row rest phase) => s.nextRow n row rest reply phase

def emptyOutbox : OutboxState := ⟨[], [], [], []⟩

/-! ## The property and its condition -/

/-- The rows that went over the bus, in order. -/
def published (s : OutboxState) : List OutboxRow :=
  s.bus.filterMap fun
    | .event row _ => some row
    | _ => none

def timesPublished (s : OutboxState) (outboxId : String) : Nat :=
  (published s).countP (·.outboxId = outboxId)

structure ExactlyOnce (s : OutboxState) : Prop where
  once : ∀ outboxId, timesPublished s outboxId ≤ 1
  marked : ∀ row ∈ s.rows, row.publishedAt.isSome → timesPublished s row.outboxId = 1
  ordered : (published s).Pairwise fun a b => a.createdAt ≤ b.createdAt

/-- The rows that a flush has read and not finished. -/
def FlushRun.taken : FlushRun → List OutboxRow
  | .finding => []
  | .working row rest _ => row :: rest

/-- A flush starts only when none is under way, and a row turns up only with a time of
creation that is not before one a flush has taken. -/
def Apart (s : OutboxState) : OutboxAction → Prop
  | .tick isLeader => isLeader = true → s.runs = []
  | .create row => ∀ other ∈ s.rows,
      (other.publishedAt.isSome ∨ ∃ run ∈ s.runs, other ∈ run.taken) →
        other.createdAt ≤ row.createdAt
  | _ => True

/-! ## The invariant -/

/-- The row is on the bus. -/
def RowPhase.sent : RowPhase → Bool
  | .enriching | .publishing _ => false
  | _ => true

/-- What a flush has yet to publish. -/
def FlushRun.held : FlushRun → List OutboxRow
  | .finding => []
  | .working row rest phase => if phase.sent then rest else row :: rest

/-- The row that a flush has published and not marked. -/
def FlushRun.current : FlushRun → List OutboxRow
  | .finding => []
  | .working row _ phase => if phase.sent then [row] else []

theorem FlushRun.held_subset (run : FlushRun) : run.held ⊆ run.taken := by
  cases run with
  | finding => exact List.Subset.refl _
  | working row rest phase =>
    rw [FlushRun.held]
    split
    · exact List.subset_cons_self row rest
    · exact List.Subset.refl _

theorem FlushRun.current_subset (run : FlushRun) : run.current ⊆ run.taken := by
  cases run with
  | finding => exact List.Subset.refl _
  | working row rest phase =>
    rw [FlushRun.current]
    split
    · exact List.cons_subset_cons row (List.nil_subset rest)
    · exact List.nil_subset _

def OutboxState.held (s : OutboxState) : List OutboxRow := s.runs.flatMap FlushRun.held

def OutboxState.current (s : OutboxState) : List OutboxRow := s.runs.flatMap FlushRun.current

/-- The invariant, of the table, the bus, and the rows that a flush has before it and in
its hands. -/
structure Orderly (rows published held current : List OutboxRow) : Prop where
  ids : (rows.map (·.outboxId)).Nodup
  heldPending : ∀ row ∈ held, row ∈ pending rows
  currentPending : ∀ row ∈ current, row ∈ pending rows ∧ row ∉ held
  heldOnce : held.Nodup
  heldOrdered : held.Pairwise fun a b => a.createdAt ≤ b.createdAt
  heldFirst : ∀ row ∈ pending rows, row ∉ held → row ∉ current →
    ∀ first ∈ held, first.createdAt ≤ row.createdAt
  sent : ∀ row ∈ rows, row.outboxId ∈ published.map (·.outboxId) ↔
    row.publishedAt.isSome ∨ row ∈ current
  once : (published.map (·.outboxId)).Nodup
  known : ∀ row ∈ published, ∃ stored ∈ rows,
    stored.outboxId = row.outboxId ∧ stored.createdAt = row.createdAt
  ordered : published.Pairwise fun a b => a.createdAt ≤ b.createdAt
  behind : ∀ row ∈ published, ∀ later ∈ pending rows, later ∉ current →
    row.createdAt ≤ later.createdAt

/-- At most one flush is under way. -/
def OutboxState.Kept (s : OutboxState) : Prop :=
  s.runs.length ≤ 1 ∧ Orderly s.rows (published s) s.held s.current

section Steps

variable {rows published held current rest : List OutboxRow} {row : OutboxRow} {now : Int}

theorem mem_pending {rows : List OutboxRow} {row : OutboxRow} :
    row ∈ pending rows ↔ row ∈ rows ∧ row.publishedAt = none := by
  rw [pending, List.mem_filter, Option.isNone_iff_eq_none]

theorem eq_of_outboxId (hids : (rows.map (·.outboxId)).Nodup) {a b : OutboxRow} (ha : a ∈ rows)
    (hb : b ∈ rows) (h : a.outboxId = b.outboxId) : a = b :=
  List.inj_on_of_nodup_map hids ha hb h

theorem orderly_empty : Orderly [] [] [] [] :=
  ⟨.nil, List.forall_mem_nil _, List.forall_mem_nil _, .nil, .nil, List.forall_mem_nil _,
    List.forall_mem_nil _, .nil, List.forall_mem_nil _, .nil, List.forall_mem_nil _⟩

theorem Orderly.create (h : Orderly rows published held current)
    (hnew : ∀ other ∈ rows, other.outboxId ≠ row.outboxId) (hrow : row.publishedAt = none)
    (hlate : ∀ other ∈ rows, (other.publishedAt.isSome ∨ other ∈ held ∨ other ∈ current) →
      other.createdAt ≤ row.createdAt) : Orderly (rows ++ [row]) published held current := by
  have hold {other : OutboxRow} (hmem : other ∈ pending (rows ++ [row])) :
      other ∈ pending rows ∨ other = row := by
    obtain ⟨hmem, hnone⟩ := mem_pending.mp hmem
    rcases List.mem_append.mp hmem with hmem | hmem
    · exact .inl (mem_pending.mpr ⟨hmem, hnone⟩)
    · exact .inr (List.mem_singleton.mp hmem)
  have hkeep {other : OutboxRow} (hmem : other ∈ pending rows) : other ∈ pending (rows ++ [row]) :=
    mem_pending.mpr ⟨List.mem_append_left _ (mem_pending.mp hmem).1, (mem_pending.mp hmem).2⟩
  refine ⟨?_, fun r hr => hkeep (h.heldPending r hr),
    fun r hr => ⟨hkeep (h.currentPending r hr).1, (h.currentPending r hr).2⟩, h.heldOnce, h.heldOrdered, ?_, ?_,
    h.once, ?_, h.ordered, ?_⟩
  · rw [List.map_append, List.nodup_append]
    refine ⟨h.ids, List.nodup_singleton _, ?_⟩
    rintro id hid id' hid' rfl
    obtain ⟨other, hother, rfl⟩ := List.mem_map.mp hid
    exact hnew other hother (List.mem_singleton.mp hid')
  · intro r hr hheld hcurrent first hfirst
    rcases hold hr with hr | rfl
    · exact h.heldFirst r hr hheld hcurrent first hfirst
    · exact hlate first (mem_pending.mp (h.heldPending first hfirst)).1 (.inr (.inl hfirst))
  · intro r hr
    rcases List.mem_append.mp hr with hr | hr
    · exact h.sent r hr
    · obtain rfl := List.mem_singleton.mp hr
      constructor
      · intro hsent
        obtain ⟨sent, hmem, hid⟩ := List.mem_map.mp hsent
        obtain ⟨stored, hstored, hsame, -⟩ := h.known sent hmem
        exact absurd (hsame.trans hid) (hnew stored hstored)
      · rintro (hsome | hcurrent)
        · rw [hrow] at hsome
          cases hsome
        · exact absurd rfl (hnew r (mem_pending.mp (h.currentPending r hcurrent).1).1)
  · intro r hr
    obtain ⟨stored, hstored, hsame⟩ := h.known r hr
    exact ⟨stored, List.mem_append_left _ hstored, hsame⟩
  · intro r hr later hlater hcurrent
    rcases hold hlater with hlater | rfl
    · exact h.behind r hr later hlater hcurrent
    · obtain ⟨stored, hstored, hid, htime⟩ := h.known r hr
      rw [← htime]
      refine hlate stored hstored ?_
      rcases (h.sent stored hstored).mp (hid ▸ List.mem_map_of_mem hr) with hsome | hin
      · exact .inl hsome
      · exact .inr (.inr hin)

theorem Orderly.select (h : Orderly rows published [] []) (hselects : Selects rows held) :
    Orderly rows published held [] := by
  obtain ⟨hsub, honce, hordered, -, hfirst⟩ := hselects
  exact ⟨h.ids, hsub, List.forall_mem_nil _, honce, hordered, fun r hr hheld _ => hfirst r hr hheld, h.sent, h.once,
    h.known, h.ordered, h.behind⟩

theorem Orderly.publish (h : Orderly rows published (row :: rest) []) :
    Orderly rows (published ++ [row]) rest [row] := by
  have hpending := h.heldPending row List.mem_cons_self
  obtain ⟨hmem, hnone⟩ := mem_pending.mp hpending
  obtain ⟨hnot, honce⟩ := List.nodup_cons.mp h.heldOnce
  obtain ⟨hbefore, hordered⟩ := List.pairwise_cons.mp h.heldOrdered
  have hunsent : row.outboxId ∉ published.map (·.outboxId) := by
    intro hsent
    rcases (h.sent row hmem).mp hsent with hsome | hin
    · rw [hnone] at hsome
      cases hsome
    · cases hin
  refine ⟨h.ids, fun r hr => h.heldPending r (List.mem_cons_of_mem _ hr), ?_, honce, hordered, ?_, ?_, ?_,
    ?_, ?_, ?_⟩
  · intro r hr
    obtain rfl := List.mem_singleton.mp hr
    exact ⟨hpending, hnot⟩
  · intro r hr hheld hcurrent first hfirst
    refine h.heldFirst r hr ?_ List.not_mem_nil first (List.mem_cons_of_mem _ hfirst)
    intro hin
    rcases List.mem_cons.mp hin with rfl | hin
    · exact hcurrent (List.mem_singleton_self r)
    · exact hheld hin
  · intro r hr
    rw [List.map_append, List.mem_append, h.sent r hr]
    simp only [List.not_mem_nil, or_false, List.map_cons, List.map_nil, List.mem_singleton]
    exact or_congr_right ⟨fun hid => eq_of_outboxId h.ids hr hmem hid, fun heq => heq ▸ rfl⟩
  · rw [List.map_append, List.nodup_append]
    refine ⟨h.once, List.nodup_singleton _, ?_⟩
    rintro id hid id' hid' rfl
    have hrow : id = row.outboxId := List.mem_singleton.mp hid'
    exact hunsent (hrow ▸ hid)
  · intro r hr
    rcases List.mem_append.mp hr with hr | hr
    · exact h.known r hr
    · obtain rfl := List.mem_singleton.mp hr
      exact ⟨r, hmem, rfl, rfl⟩
  · refine List.pairwise_append.mpr ⟨h.ordered, List.pairwise_singleton _ _, ?_⟩
    intro r hr r' hr'
    obtain rfl := List.mem_singleton.mp hr'
    exact h.behind r hr r' hpending List.not_mem_nil
  · intro r hr later hlater hcurrent
    rcases List.mem_append.mp hr with hr | hr
    · exact h.behind r hr later hlater List.not_mem_nil
    · obtain rfl := List.mem_singleton.mp hr
      by_cases hrest : later ∈ rest
      · exact hbefore later hrest
      · refine h.heldFirst later hlater ?_ List.not_mem_nil r List.mem_cons_self
        intro hin
        rcases List.mem_cons.mp hin with rfl | hin
        · exact hcurrent (List.mem_singleton_self later)
        · exact hrest hin

theorem map_outboxId_marked (outboxId : String) :
    (marked rows outboxId now).map (·.outboxId) = rows.map (·.outboxId) := by
  rw [marked, List.map_map]
  refine List.map_congr_left fun r _ => ?_
  simp only [Function.comp_apply]
  split <;> rfl

theorem mem_pending_marked (hids : (rows.map (·.outboxId)).Nodup) (hmem : row ∈ rows)
    {other : OutboxRow} :
    other ∈ pending (marked rows row.outboxId now) ↔ other ∈ pending rows ∧ other ≠ row := by
  rw [mem_pending, mem_pending, marked, List.mem_map]
  constructor
  · rintro ⟨⟨stored, hstored, rfl⟩, hnone⟩
    split at hnone
    · cases hnone
    · next hid =>
      rw [if_neg hid]
      exact ⟨⟨hstored, hnone⟩, fun heq => hid (heq ▸ rfl)⟩
  · rintro ⟨⟨hother, hnone⟩, hne⟩
    refine ⟨⟨other, hother, if_neg ?_⟩, hnone⟩
    exact fun hid => hne (eq_of_outboxId hids hother hmem hid)

theorem Orderly.mark (h : Orderly rows published rest [row]) :
    Orderly (marked rows row.outboxId now) published rest [] := by
  obtain ⟨hpending, hnot⟩ := h.currentPending row (List.mem_singleton_self row)
  have hmem := (mem_pending.mp hpending).1
  refine ⟨?_, ?_, List.forall_mem_nil _, h.heldOnce, h.heldOrdered, ?_, ?_, h.once, ?_, h.ordered, ?_⟩
  · rw [map_outboxId_marked]
    exact h.ids
  · intro r hr
    exact (mem_pending_marked h.ids hmem).mpr ⟨h.heldPending r hr, fun heq => hnot (heq ▸ hr)⟩
  · intro r hr hheld _
    obtain ⟨hr, hne⟩ := (mem_pending_marked h.ids hmem).mp hr
    exact h.heldFirst r hr hheld fun hin => hne (List.mem_singleton.mp hin)
  · intro r hr
    obtain ⟨stored, hstored, rfl⟩ := List.mem_map.mp hr
    have hsent := h.sent stored hstored
    rw [List.mem_singleton] at hsent
    split
    · next hid =>
      obtain rfl := eq_of_outboxId h.ids hstored hmem hid
      exact ⟨fun _ => .inl rfl, fun _ => hsent.mpr (.inr rfl)⟩
    · next hid =>
      rw [hsent]
      constructor
      · rintro (hsome | rfl)
        · exact .inl hsome
        · exact absurd rfl hid
      · rintro (hsome | hin)
        · exact .inl hsome
        · cases hin
  · intro r hr
    obtain ⟨stored, hstored, hid, htime⟩ := h.known r hr
    refine ⟨_, List.mem_map_of_mem hstored, ?_, ?_⟩
    · split
      · exact hid
      · exact hid
    · split
      · exact htime
      · exact htime
  · intro r hr later hlater _
    obtain ⟨hlater, hne⟩ := (mem_pending_marked h.ids hmem).mp hlater
    exact h.behind r hr later hlater fun hin => hne (List.mem_singleton.mp hin)

end Steps

namespace OutboxState

variable {s : OutboxState} {n : Nat} {run : FlushRun}

theorem kept_of_run (hruns : s.runs = [run])
    (h : Orderly s.rows (published s) run.held run.current) : s.Kept := by
  refine ⟨by rw [hruns]; exact Nat.le_refl 1, ?_⟩
  rwa [OutboxState.held, OutboxState.current, hruns, List.flatMap_singleton, List.flatMap_singleton]

theorem kept_of_idle (hruns : s.runs = []) (h : Orderly s.rows (published s) [] []) : s.Kept := by
  refine ⟨by rw [hruns]; exact Nat.zero_le 1, ?_⟩
  rwa [OutboxState.held, OutboxState.current, hruns]

theorem Kept.orderly (h : s.Kept) (hruns : s.runs = [run]) :
    Orderly s.rows (published s) run.held run.current := by
  have horderly := h.2
  rwa [OutboxState.held, OutboxState.current, hruns, List.flatMap_singleton,
    List.flatMap_singleton] at horderly

theorem Kept.idle (h : s.Kept) (hruns : s.runs = []) : Orderly s.rows (published s) [] [] := by
  have horderly := h.2
  rwa [OutboxState.held, OutboxState.current, hruns] at horderly

theorem setRun_zero (hruns : s.runs = [run]) (run' : FlushRun) : (s.setRun 0 run').runs = [run'] := by
  rw [setRun, hruns]
  rfl

/-- The loop takes the next row, or the flush ends. -/
theorem kept_goOn (hruns : s.runs = [run]) {rows : List OutboxRow}
    (h : Orderly s.rows (published s) rows []) : (s.goOn 0 rows).Kept := by
  cases rows with
  | nil => exact kept_of_idle (by rw [goOn, hruns]; rfl) h
  | cons row rest => exact kept_of_run (setRun_zero hruns _) h

theorem published_send (publication : Publication) :
    published (s.send publication) = published s ++ published ⟨[], [], [publication], []⟩ := by
  rw [published, send, List.filterMap_append]
  rfl

/-- Phases behind the publication hold the same rows. -/
theorem afterSummary_sent (row : OutboxRow) : row.afterSummary.sent = true := by
  unfold OutboxRow.afterSummary
  split
  · split <;> rfl
  · rfl

theorem afterScreenpop_sent (row : OutboxRow) : row.afterScreenpop.sent = true := by
  unfold OutboxRow.afterScreenpop
  split
  · rfl
  · exact afterSummary_sent row

theorem afterPublish_sent (row : OutboxRow) (customer : Option String) :
    (row.afterPublish customer).sent = true := by
  unfold OutboxRow.afterPublish
  split
  · split
    · rfl
    · exact afterScreenpop_sent row
  · exact afterScreenpop_sent row

theorem Orderly.behindSend {row : OutboxRow} {rest : List OutboxRow} {phase : RowPhase}
    (hsent : phase.sent = true) (h : Orderly s.rows (published s) rest [row]) :
    Orderly s.rows (published s) (FlushRun.working row rest phase).held
      (FlushRun.working row rest phase).current := by
  rw [FlushRun.held, FlushRun.current, if_pos hsent, if_pos hsent]
  exact h

theorem kept_nextRow (h : s.Kept) {row : OutboxRow} {rest : List OutboxRow} {phase : RowPhase}
    (hruns : s.runs = [.working row rest phase]) (reply : FlushReply) :
    (s.nextRow 0 row rest reply phase).Kept := by
  have horderly := h.orderly hruns
  cases phase with
  | enriching => exact kept_of_run (setRun_zero hruns _) horderly
  | publishing customer =>
    refine kept_of_run (setRun_zero (s := s.send _) hruns _) ?_
    have hbus : published (s.send (.event row customer)) = published s ++ [row] := published_send _
    exact Orderly.behindSend (s := (s.send _).setRun 0 _) (afterPublish_sent row customer)
      (hbus ▸ Orderly.publish horderly)
  | screenpop customer =>
    refine kept_of_run (setRun_zero (s := s.send _) hruns _) ?_
    have hbus : published (s.send (.screenpop row.tenantId row.callId customer)) = published s := by
      rw [published_send]
      exact List.append_nil _
    exact Orderly.behindSend (s := (s.send _).setRun 0 _) (afterScreenpop_sent row)
      (hbus ▸ horderly)
  | queueSummary =>
    refine kept_of_run (setRun_zero (s := s.send _) hruns _) ?_
    have hbus : published (s.send (.queueSummary row.tenantId)) = published s := by
      rw [published_send]
      exact List.append_nil _
    exact Orderly.behindSend (s := (s.send _).setRun 0 _) (afterSummary_sent row) (hbus ▸ horderly)
  | unmuting callId => exact kept_of_run (setRun_zero (s := { s with muted := _ }) hruns _) horderly
  | marking => exact kept_goOn (s := s.mark row.outboxId reply.now) hruns (Orderly.mark horderly)

end OutboxState

/-- Every step that meets the condition. -/
theorem outboxStep_kept {s : OutboxState} {action : OutboxAction} (hapart : Apart s action)
    (h : s.Kept) : (outboxStep s action).Kept := by
  cases action with
  | create row =>
    rw [outboxStep]
    split
    · exact h
    · next hnew =>
      refine ⟨h.1, h.2.create ?_ rfl ?_⟩
      · intro other hother hid
        exact hnew (List.any_eq_true.mpr ⟨other, hother, decide_eq_true hid⟩)
      · intro other hother hin
        refine hapart other hother ?_
        rcases hin with hsome | hheld | hcurrent
        · exact .inl hsome
        · obtain ⟨run, hrun, hmem⟩ := List.mem_flatMap.mp hheld
          exact .inr ⟨run, hrun, run.held_subset hmem⟩
        · obtain ⟨run, hrun, hmem⟩ := List.mem_flatMap.mp hcurrent
          exact .inr ⟨run, hrun, run.current_subset hmem⟩
  | mute callId => exact h
  | tick isLeader =>
    rw [outboxStep]
    split
    · next hleader =>
      have hidle := hapart hleader
      have hruns : ({ s with runs := s.runs ++ [.finding] } : OutboxState).runs = [.finding] := by
        rw [hidle]
        rfl
      exact OutboxState.kept_of_run hruns (h.idle hidle)
    · exact h
  | next n reply =>
    rw [outboxStep]
    split
    · exact h
    · next hrun =>
      obtain ⟨rfl, hruns⟩ := eq_singleton_of_get h.1 hrun
      split
      · next hselects => exact OutboxState.kept_goOn hruns ((h.orderly hruns).select hselects)
      · exact h
    · next row rest phase hrun =>
      obtain ⟨rfl, hruns⟩ := eq_singleton_of_get h.1 hrun
      exact OutboxState.kept_nextRow h hruns reply

theorem kept_exactlyOnce {s : OutboxState} (h : s.Kept) : ExactlyOnce s := by
  obtain ⟨-, h⟩ := h
  have hcount (outboxId : String) :
      timesPublished s outboxId = ((published s).map (·.outboxId)).count outboxId := by
    rw [timesPublished, List.count, List.countP_map]
    exact List.countP_congr fun row _ => by simp
  refine ⟨fun outboxId => ?_, fun row hrow hsome => ?_, h.ordered⟩
  · rw [hcount]
    exact List.nodup_iff_count_le_one.mp h.once outboxId
  · rw [hcount]
    exact List.count_eq_one_of_mem h.once ((h.sent row hrow).mpr (.inl hsome))

/-! ## A run can go on until every row is published -/

section Completion

variable {s s' s'' : OutboxState}

/-- Steps that meet the condition lead from `s` to `s'`. -/
def Leads (s s' : OutboxState) : Prop :=
  ∃ more, Along outboxStep Apart s more ∧ more.foldl outboxStep s = s'

theorem Leads.refl : Leads s s := ⟨[], along_nil, rfl⟩

theorem Leads.cons (action : OutboxAction) (hapart : Apart s action)
    (h : Leads (outboxStep s action) s') : Leads s s' := by
  obtain ⟨more, halong, hend⟩ := h
  exact ⟨action :: more, along_cons.mpr ⟨hapart, halong⟩, hend⟩

theorem Leads.kept (h : Leads s s') (hs : s.Kept) : s'.Kept := by
  obtain ⟨more, halong, rfl⟩ := h
  exact halong.invariant (fun _ _ hapart hkept => outboxStep_kept hapart hkept) hs

theorem Leads.trans (h : Leads s s') (h' : Leads s' s'') : Leads s s'' := by
  obtain ⟨more, halong, rfl⟩ := h
  induction more generalizing s with
  | nil => exact h'
  | cons action more ih =>
    obtain ⟨hhead, htail⟩ := along_cons.mp halong
    exact (ih htail h').cons action hhead

/-- A reply that matters to no phase but the last. -/
def plainReply : FlushReply := ⟨[], none, 0⟩

variable {row : OutboxRow} {rest : List OutboxRow}

/-- The flush that holds a row goes on by one await. -/
theorem leads_next {phase : RowPhase} (hruns : s.runs = [.working row rest phase])
    (h : Leads (s.nextRow 0 row rest plainReply phase) s') : Leads s s' := by
  have hstep : outboxStep s (.next 0 plainReply) = s.nextRow 0 row rest plainReply phase := by
    rw [outboxStep, hruns]
    rfl
  exact Leads.cons (.next 0 plainReply) trivial (hstep ▸ h)

/-- How many awaits a row has before its update. -/
def RowPhase.left : RowPhase → Nat
  | .enriching => 5
  | .publishing _ => 4
  | .screenpop _ => 3
  | .queueSummary => 2
  | .unmuting _ => 1
  | .marking => 0

theorem afterSummary_left (row : OutboxRow) : row.afterSummary.left ≤ 1 := by
  unfold OutboxRow.afterSummary
  split
  · split
    · exact Nat.le_refl 1
    · exact Nat.zero_le 1
  · exact Nat.zero_le 1

theorem afterScreenpop_left (row : OutboxRow) : row.afterScreenpop.left ≤ 2 := by
  unfold OutboxRow.afterScreenpop
  split
  · decide
  · exact Nat.le_succ_of_le (afterSummary_left row)

theorem afterPublish_left (row : OutboxRow) (customer : Option String) :
    (row.afterPublish customer).left ≤ 3 := by
  unfold OutboxRow.afterPublish
  split
  · split
    · exact Nat.le_refl 3
    · exact Nat.le_succ_of_le (afterScreenpop_left row)
  · exact Nat.le_succ_of_le (afterScreenpop_left row)

theorem nextRow_left {phase : RowPhase} (hruns : s.runs = [.working row rest phase])
    (hphase : phase ≠ .marking) :
    ∃ phase' : RowPhase, phase'.left < phase.left ∧
      (s.nextRow 0 row rest plainReply phase).runs = [.working row rest phase'] ∧
      (s.nextRow 0 row rest plainReply phase).rows = s.rows := by
  have hset (s : OutboxState) (hruns : s.runs = [.working row rest phase]) (phase' : RowPhase) :
      (s.setRun 0 (.working row rest phase')).runs = [.working row rest phase'] :=
    OutboxState.setRun_zero hruns _
  cases phase with
  | enriching => exact ⟨.publishing _, Nat.lt_succ_self 4, hset s hruns _, rfl⟩
  | publishing customer =>
    exact ⟨_, Nat.lt_succ_of_le (afterPublish_left row customer), hset (s.send _) hruns _, rfl⟩
  | screenpop customer =>
    exact ⟨_, Nat.lt_succ_of_le (afterScreenpop_left row), hset (s.send _) hruns _, rfl⟩
  | queueSummary =>
    exact ⟨_, Nat.lt_succ_of_le (afterSummary_left row), hset (s.send _) hruns _, rfl⟩
  | unmuting callId =>
    exact ⟨.marking, Nat.lt_succ_self 0, hset { s with muted := _ } hruns _, rfl⟩
  | marking => exact absurd rfl hphase

/-- From every phase of a row a flush comes to the update of that row. -/
theorem leads_marking (k : Nat) (phase : RowPhase) (hk : phase.left ≤ k)
    (hruns : s.runs = [.working row rest phase]) :
    ∃ s', Leads s s' ∧ s'.runs = [.working row rest .marking] ∧ s'.rows = s.rows := by
  induction k generalizing s phase with
  | zero =>
    cases phase with
    | marking => exact ⟨s, .refl, hruns, rfl⟩
    | _ => cases hk
  | succ k ih =>
    by_cases hphase : phase = .marking
    · subst hphase
      exact ⟨s, .refl, hruns, rfl⟩
    · obtain ⟨phase', hless, hruns', hrows⟩ := nextRow_left hruns hphase
      obtain ⟨s', hleads, hend, hsame⟩ :=
        ih phase' (Nat.le_of_lt_succ (Nat.lt_of_lt_of_le hless hk)) hruns'
      exact ⟨s', leads_next hruns hleads, hend, hsame.trans hrows⟩

theorem length_pending_marked (hids : (s.rows.map (·.outboxId)).Nodup) (hrow : row ∈ pending s.rows)
    (now : Int) : (pending (marked s.rows row.outboxId now)).length < (pending s.rows).length := by
  have hmem := (mem_pending.mp hrow).1
  have hnodup (rows : List OutboxRow) (hids : (rows.map (·.outboxId)).Nodup) :
      (pending rows).Nodup := hids.of_map.filter _
  have hsub : pending (marked s.rows row.outboxId now) ⊆ (pending s.rows).erase row := by
    intro other hother
    obtain ⟨hother, hne⟩ := (mem_pending_marked hids hmem).mp hother
    exact (List.mem_erase_of_ne hne).mpr hother
  have hle := (List.subperm_of_subset (hnodup _ (by rwa [map_outboxId_marked])) hsub).length_le
  rw [List.length_erase_of_mem hrow] at hle
  exact Nat.lt_of_le_of_lt hle (Nat.sub_lt (List.length_pos_of_mem hrow) Nat.one_pos)

/-- A flush comes to its end, with fewer rows pending and none lost. -/
theorem leads_end {phase : RowPhase} (hs : s.Kept) (hruns : s.runs = [.working row rest phase]) :
    ∃ s', Leads s s' ∧ s'.runs = [] ∧ (pending s'.rows).length < (pending s.rows).length ∧
      s'.rows.map (·.outboxId) = s.rows.map (·.outboxId) := by
  induction rest generalizing s row phase with
  | nil =>
    obtain ⟨s₁, hleads, hruns₁, hrows⟩ := leads_marking phase.left phase (Nat.le_refl _) hruns
    have hkept := hleads.kept hs
    have hcurrent := (hkept.orderly hruns₁).currentPending row (List.mem_singleton_self row)
    refine ⟨_, hleads.trans (leads_next hruns₁ .refl), ?_, ?_, ?_⟩
    · rw [OutboxState.nextRow, OutboxState.goOn, OutboxState.mark, hruns₁]
      rfl
    · exact hrows ▸ length_pending_marked hkept.2.ids hcurrent.1 _
    · exact hrows ▸ map_outboxId_marked _
  | cons next rest ih =>
    obtain ⟨s₁, hleads, hruns₁, hrows⟩ := leads_marking phase.left phase (Nat.le_refl _) hruns
    have hkept := hleads.kept hs
    have hcurrent := (hkept.orderly hruns₁).currentPending row (List.mem_singleton_self row)
    have hstep : Leads s₁ (s₁.nextRow 0 row (next :: rest) plainReply .marking) :=
      leads_next hruns₁ .refl
    have hruns₂ : (s₁.nextRow 0 row (next :: rest) plainReply .marking).runs =
        [.working next rest .enriching] :=
      OutboxState.setRun_zero (s := s₁.mark row.outboxId _) hruns₁ _
    obtain ⟨s', hleads', hend, hless, hids⟩ := ih (hstep.kept hkept) hruns₂
    refine ⟨s', (hleads.trans hstep).trans hleads', hend, Nat.lt_trans hless ?_, hids.trans ?_⟩
    · exact hrows ▸ length_pending_marked hkept.2.ids hcurrent.1 _
    · exact hrows ▸ map_outboxId_marked _

/-- There is an answer of `findMany`. -/
theorem exists_selects {rows : List OutboxRow} (hids : (rows.map (·.outboxId)).Nodup) :
    ∃ selected, Selects rows selected := by
  let sorted := (pending rows).insertionSort fun a b => a.createdAt ≤ b.createdAt
  have htotal : Std.Total fun a b : OutboxRow => a.createdAt ≤ b.createdAt :=
    ⟨fun a b => Int.le_total a.createdAt b.createdAt⟩
  have htrans : IsTrans OutboxRow fun a b => a.createdAt ≤ b.createdAt :=
    ⟨fun _ _ _ hab hbc => Int.le_trans hab hbc⟩
  have hordered : sorted.Pairwise fun a b => a.createdAt ≤ b.createdAt :=
    List.pairwise_insertionSort _ _
  have hperm : sorted.Perm (pending rows) := List.perm_insertionSort _ _
  have hnodup : sorted.Nodup := hperm.nodup_iff.mpr (hids.of_map.filter _)
  refine ⟨sorted.take takeRows, fun row hrow => hperm.subset (List.mem_of_mem_take hrow),
    hnodup.sublist (List.take_sublist _ _), hordered.sublist (List.take_sublist _ _), ?_, ?_⟩
  · rw [List.length_take, hperm.length_eq]
  · intro row hrow hnot first hfirst
    have hin : row ∈ sorted.take takeRows ++ sorted.drop takeRows := by
      rw [List.take_append_drop]
      exact hperm.symm.subset hrow
    rw [← List.take_append_drop takeRows sorted] at hordered
    rcases List.mem_append.mp hin with hin | hin
    · exact absurd hin hnot
    · exact (List.pairwise_append.mp hordered).2.2 first hfirst row hin

/-- A flush that has to read its rows comes to its end. -/
theorem leads_found (hs : s.Kept) (hruns : s.runs = [.finding]) :
    ∃ s', Leads s s' ∧ s'.runs = [] ∧
      (pending s'.rows ≠ [] → (pending s'.rows).length < (pending s.rows).length) ∧
      s'.rows.map (·.outboxId) = s.rows.map (·.outboxId) := by
  obtain ⟨selected, hselects⟩ := exists_selects hs.2.ids
  have hstep : outboxStep s (.next 0 { plainReply with rows := selected }) = s.goOn 0 selected := by
    rw [outboxStep, hruns]
    exact if_pos hselects
  have hfound : Leads s (s.goOn 0 selected) :=
    Leads.cons (.next 0 { plainReply with rows := selected }) trivial (hstep ▸ .refl)
  cases selected with
  | nil =>
    refine ⟨_, hfound, by rw [OutboxState.goOn, hruns]; rfl, fun hsome => ?_, rfl⟩
    -- an empty answer means that nothing is pending
    have hsize := hselects.2.2.2.1
    have hpos : 0 < (pending s.rows).length := List.length_pos_iff.mpr hsome
    have hlimit : 0 < takeRows := by decide
    rw [List.length_nil] at hsize
    omega
  | cons row rest =>
    obtain ⟨s', hleads, hend, hless, hids⟩ := leads_end (hfound.kept hs)
      (OutboxState.setRun_zero hruns _)
    exact ⟨s', hfound.trans hleads, hend, fun _ => hless, hids⟩

theorem leads_published (k : Nat) (hk : (pending s.rows).length ≤ k) (hs : s.Kept)
    (hidle : s.runs = []) : ∃ s', Leads s s' ∧ pending s'.rows = [] ∧
      s'.rows.map (·.outboxId) = s.rows.map (·.outboxId) := by
  induction k generalizing s with
  | zero => exact ⟨s, .refl, List.length_eq_zero_iff.mp (Nat.le_zero.mp hk), rfl⟩
  | succ k ih =>
    have htick : Leads s (outboxStep s (.tick true)) :=
      Leads.cons (.tick true) (fun _ => hidle) .refl
    have hruns : (outboxStep s (.tick true)).runs = [.finding] := by
      rw [outboxStep, if_pos rfl, hidle]
      rfl
    obtain ⟨s₁, hleads, hidle₁, hless, hids⟩ := leads_found (htick.kept hs) hruns
    by_cases hdone : pending s₁.rows = []
    · exact ⟨s₁, htick.trans hleads, hdone, hids⟩
    · obtain ⟨s', hleads', hdone', hids'⟩ :=
        ih (Nat.le_of_lt_succ (Nat.lt_of_lt_of_le (hless hdone) hk)) ((htick.trans hleads).kept hs)
          hidle₁
      exact ⟨s', (htick.trans hleads).trans hleads', hdone', hids'.trans hids⟩

/-- From every state that keeps the invariant, the publication of all rows. -/
theorem exists_leads_published (hs : s.Kept) : ∃ s', Leads s s' ∧ pending s'.rows = [] ∧
    s'.rows.map (·.outboxId) = s.rows.map (·.outboxId) := by
  have hidle : ∃ s', Leads s s' ∧ s'.runs = [] ∧
      s'.rows.map (·.outboxId) = s.rows.map (·.outboxId) := by
    match hruns : s.runs with
    | [] => exact ⟨s, .refl, hruns, rfl⟩
    | [.finding] =>
      obtain ⟨s', hleads, hend, -, hids⟩ := leads_found hs hruns
      exact ⟨s', hleads, hend, hids⟩
    | [.working row rest phase] =>
      obtain ⟨s', hleads, hend, -, hids⟩ := leads_end hs hruns
      exact ⟨s', hleads, hend, hids⟩
    | _ :: _ :: _ =>
      have hone := hs.1
      rw [hruns] at hone
      simp at hone
  obtain ⟨s₁, hleads, hidle₁, hids⟩ := hidle
  obtain ⟨s', hleads', hdone, hids'⟩ :=
    leads_published _ (Nat.le_refl _) (hleads.kept hs) hidle₁
  exact ⟨s', hleads.trans hleads', hdone, hids'.trans hids⟩

end Completion

/-- In every run in which no flush starts while another is under way and no row turns up
behind one that a flush has taken, rows are published at most once and in order, and the
run can go on to a state in which each of them was published once. -/
theorem outbox_exactly_once (actions : List OutboxAction)
    (h : Along outboxStep Apart emptyOutbox actions) :
    let s := actions.foldl outboxStep emptyOutbox
    ExactlyOnce s ∧ ∃ more, Along outboxStep Apart s more ∧
      ∀ row ∈ s.rows, timesPublished (more.foldl outboxStep s) row.outboxId = 1 := by
  intro s
  have hkept : s.Kept := h.invariant (fun _ _ hapart hkept => outboxStep_kept hapart hkept)
    (OutboxState.kept_of_idle rfl orderly_empty)
  refine ⟨kept_exactlyOnce hkept, ?_⟩
  obtain ⟨s', hleads, hdone, hids⟩ := exists_leads_published hkept
  have honce := kept_exactlyOnce (hleads.kept hkept)
  obtain ⟨more, halong, rfl⟩ := hleads
  refine ⟨more, halong, fun row hrow => ?_⟩
  have hid : row.outboxId ∈ (more.foldl outboxStep s).rows.map (·.outboxId) := by
    rw [hids]
    exact List.mem_map_of_mem hrow
  obtain ⟨stored, hstored, hsame⟩ := List.mem_map.mp hid
  have hsome : stored.publishedAt.isSome := by
    rw [← Option.ne_none_iff_isSome]
    intro hnone
    have hpending := mem_pending.mpr ⟨hstored, hnone⟩
    rw [hdone] at hpending
    cases hpending
  rw [← hsame]
  exact honce.marked stored hstored hsome

/-! ## With any number of flushes -/

def sentIds (s : OutboxState) : List String := (published s).map (·.outboxId)

/-- What is marked, and what a flush is about to mark, is on the bus. -/
structure Backed (s : OutboxState) : Prop where
  marked : ∀ row ∈ s.rows, row.publishedAt.isSome → row.outboxId ∈ sentIds s
  current : ∀ run ∈ s.runs, ∀ row ∈ run.current, row.outboxId ∈ sentIds s

namespace Backed

variable {s t : OutboxState} {n : Nat} {row : OutboxRow} {rest : List OutboxRow} {phase : RowPhase}

theorem sentIds_send (publication : Publication) : sentIds s ⊆ sentIds (s.send publication) := by
  rw [sentIds, sentIds, OutboxState.published_send, List.map_append]
  exact List.subset_append_left _ _

/-- A flush comes to another phase, behind a step that writes no row. -/
theorem setRun (h : Backed s) (hrows : t.rows = s.rows) (hruns : t.runs = s.runs)
    (hsent : sentIds s ⊆ sentIds t) (hrow : phase.sent = true → row.outboxId ∈ sentIds t) :
    Backed (t.setRun n (.working row rest phase)) := by
  refine ⟨fun r hr hsome => hsent (h.marked r (hrows ▸ hr) hsome), fun run hrun r hr => ?_⟩
  rcases List.mem_or_eq_of_mem_set hrun with hold | rfl
  · exact hsent (h.current run (hruns ▸ hold) r hr)
  · rw [FlushRun.current] at hr
    split at hr
    · next hphase => exact List.mem_singleton.mp hr ▸ hrow hphase
    · cases hr

theorem goOn (h : Backed s) : Backed (s.goOn n rest) := by
  cases rest with
  | nil => exact ⟨h.marked, fun run hrun => h.current run (List.mem_of_mem_eraseIdx hrun)⟩
  | cons row rest => exact h.setRun rfl rfl (List.Subset.refl _) nofun

theorem mark (h : Backed s) (hrow : row.outboxId ∈ sentIds s) (now : Int) :
    Backed (s.mark row.outboxId now) := by
  refine ⟨fun r hr hsome => ?_, h.current⟩
  obtain ⟨stored, hstored, rfl⟩ := List.mem_map.mp hr
  split
  · next hid => exact hid ▸ hrow
  · next hid =>
    rw [if_neg hid] at hsome
    exact h.marked stored hstored hsome

theorem nextRow (h : Backed s) (hrun : .working row rest phase ∈ s.runs) (reply : FlushReply) :
    Backed (s.nextRow n row rest reply phase) := by
  have hsent (hphase : phase.sent = true) : row.outboxId ∈ sentIds s := by
    refine h.current _ hrun row ?_
    rw [FlushRun.current, if_pos hphase]
    exact List.mem_singleton_self row
  cases phase with
  | enriching => exact h.setRun rfl rfl (List.Subset.refl _) nofun
  | publishing customer =>
    refine h.setRun rfl rfl (sentIds_send _) fun _ => ?_
    rw [sentIds, OutboxState.published_send, List.map_append]
    exact List.mem_append_right _ (List.mem_singleton_self _)
  | screenpop customer => exact h.setRun rfl rfl (sentIds_send _) fun _ => sentIds_send _ (hsent rfl)
  | queueSummary => exact h.setRun rfl rfl (sentIds_send _) fun _ => sentIds_send _ (hsent rfl)
  | unmuting callId => exact h.setRun rfl rfl (List.Subset.refl _) fun _ => hsent rfl
  | marking => exact (h.mark (hsent rfl) _).goOn

theorem step (h : Backed s) (action : OutboxAction) : Backed (outboxStep s action) := by
  cases action with
  | create row =>
    rw [outboxStep]
    split
    · exact h
    · refine ⟨fun r hr hsome => ?_, h.current⟩
      rcases List.mem_append.mp hr with hr | hr
      · exact h.marked r hr hsome
      · rw [List.mem_singleton.mp hr] at hsome
        cases hsome
  | mute callId => exact ⟨h.marked, h.current⟩
  | tick isLeader =>
    rw [outboxStep]
    split
    · refine ⟨h.marked, fun run hrun => ?_⟩
      rcases List.mem_append.mp hrun with hrun | hrun
      · exact h.current run hrun
      · obtain rfl := List.mem_singleton.mp hrun
        exact nofun
    · exact h
  | next n reply =>
    rw [outboxStep]
    split
    · exact h
    · split
      · exact h.goOn
      · exact h
    · next hrun => exact h.nextRow (List.mem_of_getElem? hrun) reply

end Backed

/-- In every run, however many flushes overlap, a row is marked only behind its publication. -/
theorem marked_rows_published (actions : List OutboxAction) :
    ((actions.foldl outboxStep emptyOutbox).rows.filter (·.publishedAt.isSome)).map (·.outboxId) ⊆
      (published (actions.foldl outboxStep emptyOutbox)).map (·.outboxId) := by
  have hbacked : Backed (actions.foldl outboxStep emptyOutbox) :=
    List.foldlRecOn actions outboxStep ⟨List.forall_mem_nil _, List.forall_mem_nil _⟩
      fun _ h action _ => h.step action
  intro id hid
  obtain ⟨row, hrow, rfl⟩ := List.mem_map.mp hid
  obtain ⟨hrow, hsome⟩ := List.mem_filter.mp hrow
  exact hbacked.marked row hrow hsome

def exRow : OutboxRow := ⟨"o1", "t1", "call.ended", some "c1", 10, none⟩

def exFound : FlushReply := ⟨[exRow], none, 20⟩

/-- One flush of one row. -/
def exFlush : List OutboxAction :=
  [.create exRow, .tick true, .next 0 exFound, .next 0 exFound, .next 0 exFound, .next 0 exFound,
    .next 0 exFound, .next 0 exFound]

theorem exFlush_apart : Along outboxStep Apart emptyOutbox exFlush := by
  refine along_cons.mpr ⟨nofun, along_cons.mpr ⟨fun _ => rfl, ?_⟩⟩
  exact along_cons.mpr ⟨trivial, along_cons.mpr ⟨trivial, along_cons.mpr ⟨trivial,
    along_cons.mpr ⟨trivial, along_cons.mpr ⟨trivial, along_cons.mpr ⟨trivial, along_nil⟩⟩⟩⟩⟩⟩

theorem outbox_exactly_once_exFlush :
    ExactlyOnce (exFlush.foldl outboxStep emptyOutbox) ∧
      timesPublished (exFlush.foldl outboxStep emptyOutbox) "o1" = 1 :=
  ⟨(outbox_exactly_once exFlush exFlush_apart).1, by decide⟩

/-- Two flushes read the row before either has marked it, and both publish it. -/
theorem two_flushes_publish_twice :
    ¬ ∀ actions : List OutboxAction, ExactlyOnce (actions.foldl outboxStep emptyOutbox) := by
  intro h
  have honce := (h [.create exRow, .tick true, .tick true, .next 0 exFound, .next 1 exFound,
    .next 0 exFound, .next 0 exFound, .next 1 exFound, .next 1 exFound]).once "o1"
  revert honce
  decide

end KasterCti.Outbox
