import KasterCti.Library.JsText
import Mathlib.Data.Rat.Floor

/-!
# The data the call services share

The rows of PostgreSQL and the keys of Redis that the session engine and the
transfer detector read and write, and the normalized AMI events they consume.
Times are milliseconds of one clock; a column that may be null is an option.
-/

namespace KasterCti.Calls

open JsText

abbrev Time := Int

/-! ## Sessions -/

inductive SessionStatus
  | new
  | queued
  | ringingAgent
  | talking
  | hold
  | transferring
  | afterCallWork
  | ended
deriving DecidableEq

/-- `SESSION_PRECEDENCE`: the further a call has progressed, the larger. -/
def statusRank : SessionStatus → Int
  | .new => 0
  | .queued => 10
  | .ringingAgent => 20
  | .talking => 30
  | .hold => 35
  | .transferring => 40
  | .afterCallWork => 50
  | .ended => 100

/-- A row of `callSessions`. The table is unique in `(tenantId, linkedid)`,
which is the key it is stored under. `updatedAt` has a default but is not
maintained by the database. -/
structure CallSession where
  direction : String
  sessionStatus : SessionStatus
  ani : Option String
  aniNormalized : Option String
  dnis : Option String
  queueName : Option String
  customerId : Option String
  primaryAgentId : Option String
  transferFlag : Bool
  startedAt : Time
  queuedAt : Option Time
  ringingAt : Option Time
  answeredAt : Option Time
  endedAt : Option Time
  talkSeconds : Int
  holdSeconds : Int
  updatedAt : Time

/-- The key of a call: tenant and linkedid. -/
structure CallKey where
  tenantId : String
  linkedid : String
deriving DecidableEq

/-! ## Transfers -/

inductive TransferPhase
  | requested
  | consultRinging
  | consultTalking
  | rebridging
  | completed
  | failed
  | expired
deriving DecidableEq

/-- The phases in which a candidate still waits for its outcome. -/
def TransferPhase.isOpen : TransferPhase → Bool
  | .requested | .consultRinging | .consultTalking | .rebridging => true
  | .completed | .failed | .expired => false

/-- A row of `attendedTransferCandidates`. -/
structure TransferCandidate where
  candidateId : Nat
  key : CallKey
  fromAgentId : Option String
  fromExtension : Option String
  toExtension : Option String
  consultUniqueid : Option String
  targetUniqueid : Option String
  phase : TransferPhase
  requestedAt : Time
  completedAt : Option Time
  expiredAt : Option Time
  updatedAt : Time

inductive TransferType
  | blind
  | attended
deriving DecidableEq

inductive TransferResult
  | requested
  | completed
  | failed
  | expired
  | canceled
deriving DecidableEq

/-- A row of `callTransfers`. -/
structure CallTransfer where
  transferId : Nat
  key : CallKey
  transferType : TransferType
  fromExtension : Option String
  toExtension : Option String
  transferResult : Option TransferResult
  requestedAt : Time
  completedAt : Option Time

/-! ## Events -/

inductive EventName
  | newchannel
  | queueCallerJoin
  | agentCalled
  | agentConnect
  | bridgeEnter
  | bridgeLeave
  | hold
  | unhold
  | hangup
  | agentComplete
  | blindTransfer
  | attendedTransfer
  | dialBegin
  | dialEnd
  | userEvent
  | other (name : String)
deriving DecidableEq

/-- The `Event:` header an event name stands for. -/
def EventName.text : EventName → String
  | .newchannel => "Newchannel"
  | .queueCallerJoin => "QueueCallerJoin"
  | .agentCalled => "AgentCalled"
  | .agentConnect => "AgentConnect"
  | .bridgeEnter => "BridgeEnter"
  | .bridgeLeave => "BridgeLeave"
  | .hold => "Hold"
  | .unhold => "Unhold"
  | .hangup => "Hangup"
  | .agentComplete => "AgentComplete"
  | .blindTransfer => "BlindTransfer"
  | .attendedTransfer => "AttendedTransfer"
  | .dialBegin => "DialBegin"
  | .dialEnd => "DialEnd"
  | .userEvent => "UserEvent"
  | .other name => name

/-- A duration as it arrives: a JavaScript number (`none` is not finite) or a text. -/
inductive SecondsValue
  | number (value : Option ℚ)
  | text (value : String)
deriving DecidableEq

/-- A normalized AMI event. `raw` holds the headers of the frame; `linkedid` is
`event.linkedid || event.Linkedid` and `uniqueid` likewise. -/
structure AmiEvent where
  eventName : EventName
  tenantId : String
  linkedid : Option String
  uniqueid : Option String := none
  nodeId : Option String := none
  channel : Option String := none
  destChannel : Option String := none
  ani : Option String := none
  dnis : Option String := none
  queueName : Option String := none
  agentId : Option String := none
  eventTime : Option Time := none
  talkSeconds : Option SecondsValue := none
  holdSeconds : Option SecondsValue := none
  raw : List (String × String) := []
deriving DecidableEq

/-- `event.raw[name]`. -/
def AmiEvent.rawField (event : AmiEvent) (name : String) : Option String := event.raw.lookup name

/-- `event.eventTime ? new Date(event.eventTime) : new Date()`. -/
def AmiEvent.at (event : AmiEvent) (now : Time) : Time := event.eventTime.getD now

/-! ## The shared state -/

/-- A row of `callLegs`, unique in `(tenantId, uniqueid)`. -/
structure CallLeg where
  key : CallKey
  uniqueid : String
  legType : String
  channelName : String
  endpoint : Option String
  stateCode : Option String
  startedAt : Time
  endedAt : Option Time

inductive RealtimeEvent
  | callCreated
  | callUpdated
  | callEnded

/-- A click-to-call request waiting for the channel it creates. -/
structure PendingOriginate where
  tenantId : String
  agentExtension : String
  phoneNumber : String
  callerId : Option String
  customerId : Option String
  registeredAt : Time
deriving DecidableEq

structure World where
  sessions : CallKey → Option CallSession
  candidates : List TransferCandidate
  transfers : List CallTransfer
  legs : List CallLeg
  /-- The unique `(tenantId, eventFingerprint)` pairs of `rawAmiEvents`. -/
  rawAmiEvents : List (String × String)
  /-- The `dedupe:ami:` keys in Redis with the time they expire at. -/
  dedupeKeys : List (String × Time)
  outbox : List (CallKey × RealtimeEvent × CallSession)
  /-- Calls whose end was announced to the offer service. -/
  endedNotices : List CallKey
  pendingOriginates : List (String × List PendingOriginate)

/-- Whether a pair is among the stored ones. -/
scoped instance rowStored (row : String × String) (rows : List (String × String)) : Decidable (row ∈ rows) :=
  decidable_of_iff (rows.contains row = true) List.contains_iff_mem

def World.empty : World :=
  ⟨fun _ => none, [], [], [], [], [], [], [], []⟩

/-- `callSessions.update`. -/
def World.setSession (w : World) (key : CallKey) (row : CallSession) : World :=
  { w with sessions := fun k => if k = key then some row else w.sessions k }

@[simp] theorem World.setSession_self (w : World) (key : CallKey) (row : CallSession) :
    (w.setSession key row).sessions key = some row := by
  simp [World.setSession]

theorem World.setSession_other (w : World) {key k : CallKey} (row : CallSession) (h : k ≠ key) :
    (w.setSession key row).sessions k = w.sessions k := by
  simp [World.setSession, h]

/-- `enqueueOutbox`, in the transaction of the state change. -/
def World.enqueueOutbox (w : World) (key : CallKey) (event : RealtimeEvent) (row : CallSession) :
    World :=
  { w with outbox := w.outbox ++ [(key, event, row)] }

@[simp] theorem World.enqueueOutbox_sessions (w : World) (key : CallKey) (event : RealtimeEvent)
    (row : CallSession) : (w.enqueueOutbox key event row).sessions = w.sessions := rfl

end KasterCti.Calls
