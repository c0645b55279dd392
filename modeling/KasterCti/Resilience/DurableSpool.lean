import KasterCti.Calls.SessionEngine
import Mathlib.Data.List.Sort

/-!
# The durable spool

`DurableSpoolService` and `LocalSpoolStore`: an AMI event is appended to the
Redis stream of its tenant, or to a local file when Redis fails, before it is
processed. A cursor per tenant says how far processing has come, and
`readPending` reads what lies behind it.

Stream ids grow with every `XADD`; they are numbered here. The local file is the
list of its lines, and an offset into it counts lines. `blocked` is the
in-memory set of tenants whose cursor is frozen.
-/

namespace KasterCti.Resilience

open Calls JsText

def pendingScanCap : Nat := 10000

def defaultStreamMaxLen : Nat := 100000

structure SpoolRecord where
  tenantId : String
  idempotencyKey : String
  receivedAt : Time
  payload : AmiEvent
deriving DecidableEq

/-- Where an event was appended: `source` of `SpoolAppendResult` with the id or
offset that belongs to it. -/
inductive Appended
  | redis (streamId : Nat)
  | local (offset : Nat)
  | none
deriving DecidableEq

/-- The entries of a Redis stream, oldest first. -/
abbrev Stream := List (Nat × SpoolRecord)

structure Spool where
  stream : String → Stream
  /-- The largest stream id given out. -/
  lastId : Nat
  cursor : String → Option Nat
  file : String → List SpoolRecord
  fileCursor : String → Nat
  blocked : List String

def Spool.empty : Spool :=
  ⟨fun _ => [], 0, fun _ => none, fun _ => [], fun _ => 0, []⟩

/-- `f` with the value at `t` replaced. -/
def setAt {α : Type} (f : String → α) (t : String) (a : α) : String → α :=
  fun t' => if t' = t then a else f t'

@[simp] theorem setAt_self {α : Type} (f : String → α) (t : String) (a : α) : setAt f t a t = a := by
  simp [setAt]

theorem setAt_other {α : Type} (f : String → α) {t t' : String} (a : α) (h : t' ≠ t) :
    setAt f t a t' = f t' := by
  simp [setAt, h]

/-! ## Appending -/

/-- The record `appendAmiEvent` builds from a normalized event. -/
def spoolRecord (event : AmiEvent) (idempotencyKey : String) (receivedAt : Time) : SpoolRecord :=
  { tenantId := event.tenantId, idempotencyKey := idempotencyKey, receivedAt := receivedAt
    payload := event }

/-- `XADD key MAXLEN ~ maxLen *`. The approximate trim drops `trim` of the oldest
entries at most, and never leaves fewer than `maxLen`. -/
def Spool.xadd (sp : Spool) (maxLen : Nat) (record : SpoolRecord) (trim : Nat) : Nat × Spool :=
  let entries := sp.stream record.tenantId ++ [(sp.lastId + 1, record)]
  (sp.lastId + 1,
    { sp with
      stream := setAt sp.stream record.tenantId (entries.drop (min trim (entries.length - maxLen)))
      lastId := sp.lastId + 1 })

/-- `UUID_RE`: the local file is named by the tenant. -/
def validTenantId (tenantId : String) : Bool := isAgentIdText tenantId

/-- The line is in the file once it is written and synced. -/
def Spool.writeLine (sp : Spool) (record : SpoolRecord) : Spool :=
  { sp with file := setAt sp.file record.tenantId (sp.file record.tenantId ++ [record]) }

/-- `fs.stat` after the write: the size of the whole file, lines of other calls
included. -/
def Spool.fileSize (sp : Spool) (tenantId : String) : Nat := (sp.file tenantId).length

/-! ## The cursor -/

def Spool.isBlocked (sp : Spool) (tenantId : String) : Bool := tenantId ∈ sp.blocked

def Spool.markFailed (sp : Spool) (tenantId : String) : Spool :=
  if sp.isBlocked tenantId then sp else { sp with blocked := tenantId :: sp.blocked }

def Spool.clearBlocked (sp : Spool) (tenantId : String) : Spool :=
  { sp with blocked := sp.blocked.filter (· ≠ tenantId) }

/-- The cursor write that `markProcessed` issues: none while the tenant is
frozen, and none for an event that was appended nowhere. -/
def Spool.markProcessed (sp : Spool) (tenantId : String) (appended : Appended) :
    Option (String × Appended) :=
  if sp.isBlocked tenantId then none
  else match appended with
    | .none => none
    | appended => some (tenantId, appended)

/-- The issued write takes effect in Redis or in the cursor file. -/
def Spool.commitCursor (sp : Spool) (tenantId : String) : Appended → Spool
  | .redis streamId => { sp with cursor := setAt sp.cursor tenantId (some streamId) }
  | .local offset => { sp with fileCursor := setAt sp.fileCursor tenantId offset }
  | .none => sp

/-! ## Reading what is pending -/

/-- The stream entries behind the cursor `from'`, all of them. -/
def Spool.behind (sp : Spool) (tenantId : String) (from' : Option Nat) : Stream :=
  match from' with
  | none => sp.stream tenantId
  | some c => (sp.stream tenantId).filter fun e => decide (c < e.1)

/-- `XRANGE key (cursor + COUNT cap`. -/
def Spool.xrange (sp : Spool) (tenantId : String) (from' : Option Nat) : List SpoolRecord :=
  ((sp.behind tenantId from').take pendingScanCap).map (·.2)

/-- `LocalSpoolStore.readPending`: the lines behind the local cursor. -/
def Spool.readLocal (sp : Spool) (tenantId : String) : List SpoolRecord :=
  (sp.file tenantId).drop (sp.fileCursor tenantId)

/-- Both sources together, sorted by `receivedAt`. The sort is stable. -/
def mergePending (redis localPending : List SpoolRecord) : List SpoolRecord :=
  (redis ++ localPending).insertionSort fun a b => a.receivedAt ≤ b.receivedAt

/-- `getPendingDepth`, when Redis answers. -/
def Spool.pendingDepth (sp : Spool) (tenantId : String) : Nat :=
  (sp.xrange tenantId (sp.cursor tenantId)).length +
    (sp.fileSize tenantId - sp.fileCursor tenantId)

theorem mem_mergePending {redis localPending : List SpoolRecord} {r : SpoolRecord} :
    r ∈ mergePending redis localPending ↔ r ∈ redis ∨ r ∈ localPending := by
  rw [mergePending, List.mem_insertionSort, List.mem_append]

/-- `compact`, first half: an emptied file is truncated when nothing is pending. -/
def Spool.compactable (sp : Spool) (tenantId : String) : Bool :=
  sp.fileSize tenantId ≠ 0 && sp.fileSize tenantId ≤ sp.fileCursor tenantId

def Spool.truncate (sp : Spool) (tenantId : String) : Spool :=
  { sp with file := setAt sp.file tenantId [] }

end KasterCti.Resilience
