import KasterCti.Calls.CallLeg
import KasterCti.Calls.TransferDetector

/-!
# The session engine

`SessionEngineService.processNormalizedEvent`: the two dedupe stages (a Redis
`SET NX`, then the unique raw-event row), the leg, and the change of the session
row that the event stands for. A call of the engine is given with the clock it
reads and with what fails in it (`Faults`).

The row of a session is written by four functions, each with a guard of its own:
`upsertSession` (the precedence guard), `finalizeHangup`, `markHold` and
`resumeHold`. `applyRow` is the four of them on one row, and
`processNormalizedEvent_sessions` says that a call of the engine changes the
sessions by `applyRow` at the event's key and nowhere else.
-/

namespace KasterCti.Calls

open JsText

/-! ## Lookups outside the engine -/

/-- The parts of the database the engine only reads, and the digest it uses. -/
structure Env where
  sha256 : String → String
  asteriskNodeId : Option String
  /-- `agents.findFirst` in a tenant, by agent id or extension. -/
  findAgent : String → Option String → Option String → Option String
  /-- `customerPhones.findFirst` in a tenant, by normalized phone. -/
  findCustomer : String → String → Option String

def normalizePhone (raw : Option String) : String := digitsOnly (raw.getD "")

def resolveCustomerId (env : Env) (tenantId : String) (rawPhone : Option String) : Option String :=
  let normalizedPhone := normalizePhone rawPhone
  if normalizedPhone = "" then none else env.findCustomer tenantId normalizedPhone

def isAgentIdText (s : String) : Bool :=
  s.toList.length = 36 && s.toList.all fun c =>
    isDigit c || ('a' ≤ c && c ≤ 'f') || ('A' ≤ c && c ≤ 'F') || c = '-'

/-- `s.replace(/^PJSIP\//i, '')`. -/
def dropPjsipPrefix (s : String) : String :=
  if (String.ofList ((s.toList.take 6).map Char.toUpper)) = "PJSIP/" then
    String.ofList (s.toList.drop 6) else s

def resolvePrimaryAgentId (env : Env) (candidate : Option String) (tenantId : String) :
    Option String :=
  let normalized := trim (candidate.getD "")
  if normalized = "" then none
  else
    let extensionCandidate := (getAgentExtensionFromChannel (some normalized)).getD
      (trim (before '-' (dropPjsipPrefix normalized)))
    let agentId := if isAgentIdText normalized then some normalized else none
    let extension := if extensionCandidate = "" then none else some extensionCandidate
    if agentId.isNone && extension.isNone then none else env.findAgent tenantId agentId extension

/-! ## Fingerprint -/

def AmiEvent.field (event : AmiEvent) (name : String) : String :=
  (event.rawField name).getD ""

/-- The text the fingerprint digests: node, event, ids and the second of the event. -/
def fingerprintText (env : Env) (event : AmiEvent) (now : Time) : String :=
  let userEventParts :=
    if event.eventName = .userEvent then
      ["UserEvent", "Stage", "Digit", "Action", "Target", "Result"].map event.field
    else []
  let bucket := (event.at now) / 1000
  "|".intercalate
    ([(orElse event.nodeId (orElse env.asteriskNodeId (some "default"))).getD "",
      event.eventName.text, event.linkedid.getD "", event.uniqueid.getD "",
      event.channel.getD "", event.destChannel.getD ""] ++ userEventParts ++ [toString bucket])

def computeFingerprint (env : Env) (event : AmiEvent) (now : Time) : String :=
  env.sha256 (fingerprintText env event now)

def dedupeTtlSeconds : Int := 21600

/-! ## Pending originates -/

def pendingOriginateTtlMs : Int := 60000

def prunePendingOriginates (pending : List (String × List PendingOriginate)) (now : Time) :
    List (String × List PendingOriginate) :=
  (pending.map fun p => (p.1, p.2.filter fun item => now - item.registeredAt ≤ pendingOriginateTtlMs)).filter
    fun p => p.2 ≠ []

def registerPendingOriginate (w : World) (item : PendingOriginate) : World :=
  let agentExtension := trim item.agentExtension
  let phoneNumber := trim item.phoneNumber
  if item.tenantId = "" || agentExtension = "" || phoneNumber = "" then w
  else
    let pruned := prunePendingOriginates w.pendingOriginates item.registeredAt
    let key := item.tenantId ++ ":" ++ agentExtension
    let pending := (pruned.lookup key).getD [] ++
      [{ item with
          agentExtension := agentExtension
          phoneNumber := phoneNumber
          callerId := (item.callerId.map trim).filter (· ≠ "")
          customerId := (item.customerId.map trim).filter (· ≠ "") }]
    { w with
      pendingOriginates := (key, pending.drop (pending.length - 5)) ::
        pruned.filter fun p => p.1 ≠ key }

/-- The agent extension a new channel was originated for. -/
def originateExtension (event : AmiEvent) : String :=
  let context := (event.rawField "Context").getD ""
  let channel := (event.rawField "Channel").getD ""
  match afterPrefix? "agent-phone-".toList context.toList with
  | some (c :: rest) => String.ofList (c :: rest)
  | _ => if dropPjsipPrefix channel ≠ channel then before '-' (dropPjsipPrefix channel) else ""

def consumePendingOriginateForNewChannel (w : World) (event : AmiEvent) (now : Time) :
    Option PendingOriginate × World :=
  let agentExtension := originateExtension event
  if agentExtension = "" || (event.rawField "Context").getD "" ≠ "agent-phone-" ++ agentExtension ||
      (event.rawField "Exten").getD "" ≠ "s" then (none, w)
  else
    let pruned := prunePendingOriginates w.pendingOriginates now
    let key := event.tenantId ++ ":" ++ agentExtension
    match pruned.lookup key with
    | none | some [] => (none, { w with pendingOriginates := pruned })
    | some (next :: rest) =>
      let others := pruned.filter fun p => p.1 ≠ key
      (some next, { w with pendingOriginates := if rest = [] then others else (key, rest) :: others })

/-! ## Patches -/

/-- A patch of `upsertSession`; an absent field leaves the column as it is. -/
structure SessionPatch where
  sessionStatus : SessionStatus
  ani : Option String := none
  dnis : Option String := none
  queueName : Option String := none
  queuedAt : Option Time := none
  ringingAt : Option Time := none
  answeredAt : Option Time := none
  talkSeconds : Option Int := none
  holdSeconds : Option Int := none
  primaryAgentId : Option String := none

def parseNonNegativeSeconds : Option SecondsValue → Option Int
  | some (.number (some value)) => if 0 ≤ value then some ⌊value⌋ else none
  | some (.number none) => none
  | some (.text value) =>
    if trim value = "" then none
    else (parseInt value).filter (0 ≤ ·)
  | none => none

/-- `raw.TalkTime ?? event.talkSeconds`, read as seconds. -/
def AmiEvent.talkTime (event : AmiEvent) : Option Int :=
  parseNonNegativeSeconds (((event.rawField "TalkTime").map .text) <|> event.talkSeconds)

/-- `raw.HoldTime ?? event.holdSeconds`, read as seconds. -/
def AmiEvent.holdTime (event : AmiEvent) : Option Int :=
  parseNonNegativeSeconds (((event.rawField "HoldTime").map .text) <|> event.holdSeconds)

def queueCallerJoinPatch (event : AmiEvent) (now : Time) : SessionPatch :=
  { sessionStatus := .queued, queuedAt := some now, ani := event.ani, dnis := event.dnis
    queueName := event.queueName }

def agentCalledPatch (env : Env) (event : AmiEvent) (now : Time) : SessionPatch :=
  { sessionStatus := .ringingAgent, ringingAt := some now
    primaryAgentId := resolvePrimaryAgentId env event.agentId event.tenantId }

def talkingPatch (env : Env) (event : AmiEvent) (now : Time) : SessionPatch :=
  { sessionStatus := .talking, answeredAt := some now
    primaryAgentId := resolvePrimaryAgentId env event.agentId event.tenantId }

def agentCompletePatch (env : Env) (event : AmiEvent) (now : Time) : SessionPatch :=
  let eventAt := event.at now
  { sessionStatus := .afterCallWork, queueName := event.queueName
    answeredAt := event.talkTime.map fun talk => eventAt - talk * 1000
    queuedAt := event.talkTime.bind fun talk => event.holdTime.map fun hold =>
      eventAt - (talk + hold) * 1000
    talkSeconds := event.talkTime, holdSeconds := event.holdTime
    primaryAgentId := resolvePrimaryAgentId env
      (event.agentId <|> event.rawField "Interface" <|> event.rawField "MemberName") event.tenantId }

/-! ## The four writers, on the row they find -/

/-- The precedence guard: only a status further on replaces the one found. -/
def guardStatus (found status : SessionStatus) : SessionStatus :=
  if statusRank found < statusRank status then status else found

def createRow (env : Env) (tenantId : String) (patch : SessionPatch) (now : Time) : CallSession :=
  { direction := "inbound", sessionStatus := patch.sessionStatus, ani := patch.ani
    aniNormalized := some (normalizePhone patch.ani), dnis := patch.dnis
    queueName := patch.queueName, customerId := resolveCustomerId env tenantId patch.ani
    primaryAgentId := patch.primaryAgentId, transferFlag := false, startedAt := now
    queuedAt := patch.queuedAt, ringingAt := patch.ringingAt, answeredAt := patch.answeredAt
    endedAt := none, talkSeconds := patch.talkSeconds.getD 0, holdSeconds := patch.holdSeconds.getD 0
    updatedAt := now }

/-- Timestamps and the agent are written as given; only the status is guarded. -/
def updateRow (env : Env) (tenantId : String) (patch : SessionPatch) (row : CallSession) :
    CallSession :=
  { row with
    sessionStatus := guardStatus row.sessionStatus patch.sessionStatus
    ani := if !truthy row.ani && truthy patch.ani then patch.ani else row.ani
    dnis := if !truthy row.dnis && truthy patch.dnis then patch.dnis else row.dnis
    aniNormalized := if !truthy row.aniNormalized && truthy patch.ani then
      some (normalizePhone patch.ani) else row.aniNormalized
    customerId := if !truthy row.customerId && truthy (resolveCustomerId env tenantId patch.ani) then
      resolveCustomerId env tenantId patch.ani else row.customerId
    queueName := patch.queueName <|> row.queueName
    queuedAt := patch.queuedAt <|> row.queuedAt
    ringingAt := patch.ringingAt <|> row.ringingAt
    answeredAt := patch.answeredAt <|> row.answeredAt
    talkSeconds := patch.talkSeconds.getD row.talkSeconds
    holdSeconds := patch.holdSeconds.getD row.holdSeconds
    primaryAgentId := patch.primaryAgentId <|> row.primaryAgentId }

/-- A committed write: the row and the realtime event enqueued with it. -/
abbrev RowWrite := CallSession × RealtimeEvent

def upsertSession (env : Env) (tenantId : String) (patch : SessionPatch) (now : Time) :
    Option CallSession → Option RowWrite
  | none => some (createRow env tenantId patch now, .callCreated)
  | some row => some (updateRow env tenantId patch row, .callUpdated)

/-- `Math.max(0, Math.floor((b - a) / 1000))`. -/
def secondsBetween (a b : Time) : Int := max 0 ((b - a) / 1000)

/-- The row a hangup leaves behind, of a call that had not ended. -/
def endedRow (row : CallSession) (now : Time) : CallSession :=
  { row with
    sessionStatus := .ended
    endedAt := some now
    talkSeconds := match row.answeredAt with
      | some answeredAt => secondsBetween answeredAt now
      | none => 0
    holdSeconds := row.holdSeconds +
      if row.sessionStatus = .hold then secondsBetween row.updatedAt now else 0 }

def finalizeHangup (now : Time) : Option CallSession → Option RowWrite
  | none => none
  | some row => if row.sessionStatus = .ended then none else some (endedRow row now, .callEnded)

/-- Whether `markHold` goes on: an answered call, neither ended nor on hold. -/
def holdApplies (row : CallSession) : Bool :=
  row.sessionStatus ≠ .ended && row.answeredAt.isSome && row.sessionStatus ≠ .hold

def markHold (eventAt : Time) : Option CallSession → Option RowWrite
  | none => none
  | some row =>
    if holdApplies row then
      some ({ row with sessionStatus := .hold, updatedAt := eventAt }, .callUpdated)
    else none

/-- The row after `resumeHold`, of a call on hold. -/
def resumedRow (row : CallSession) (eventAt : Time) : CallSession :=
  { row with
    sessionStatus := .talking
    holdSeconds := row.holdSeconds + secondsBetween row.updatedAt eventAt
    updatedAt := eventAt }

def resumeHold (eventAt : Time) : Option CallSession → Option RowWrite
  | none => none
  | some row =>
    if row.sessionStatus = .hold then some (resumedRow row eventAt, .callUpdated) else none

/-- The fields `ensureSessionStarted` takes from the event or the originate request. -/
structure StartPatch where
  ani : Option String
  dnis : Option String
  direction : String
  customerId : Option String

def startPatch (env : Env) (event : AmiEvent) (originate : Option PendingOriginate) : StartPatch :=
  let ani := (originate.map (·.phoneNumber)) <|> event.ani
  { ani := ani
    dnis := (originate.bind (·.callerId)) <|> event.dnis
    direction := if originate.isSome then "outbound" else "inbound"
    customerId := orElse (originate.bind (·.customerId)) (resolveCustomerId env event.tenantId ani) }

def startRow (patch : StartPatch) (now : Time) : CallSession :=
  { direction := patch.direction, sessionStatus := .new, ani := patch.ani
    aniNormalized := some (normalizePhone patch.ani), dnis := patch.dnis, queueName := none
    customerId := patch.customerId, primaryAgentId := none, transferFlag := false, startedAt := now
    queuedAt := none, ringingAt := none, answeredAt := none, endedAt := none
    talkSeconds := 0, holdSeconds := 0, updatedAt := now }

/-- The blanks of an existing row that a new channel fills in. -/
def fillBlanks (patch : StartPatch) (row : CallSession) : CallSession :=
  { row with
    ani := if !truthy row.ani && truthy patch.ani then patch.ani else row.ani
    aniNormalized := if !truthy row.ani && truthy patch.ani then some (normalizePhone patch.ani)
      else row.aniNormalized
    dnis := if !truthy row.dnis && truthy patch.dnis then patch.dnis else row.dnis
    customerId := if !truthy row.customerId && truthy patch.customerId then patch.customerId
      else row.customerId }

def ensureSessionStarted (patch : StartPatch) (now : Time) : Option CallSession → Option RowWrite
  | none => some (startRow patch now, .callCreated)
  | some row =>
    if (!truthy row.ani && truthy patch.ani) || (!truthy row.dnis && truthy patch.dnis) ||
        (!truthy row.customerId && truthy patch.customerId) then
      some (fillBlanks patch row, .callUpdated)
    else none

/-- The write an event asks for, on the row of its call. -/
def eventWrite (env : Env) (event : AmiEvent) (originate : Option PendingOriginate) (now : Time)
    (found : Option CallSession) : Option RowWrite :=
  match event.eventName with
  | .newchannel => ensureSessionStarted (startPatch env event originate) now found
  | .queueCallerJoin => upsertSession env event.tenantId (queueCallerJoinPatch event now) now found
  | .agentCalled => upsertSession env event.tenantId (agentCalledPatch env event now) now found
  | .agentConnect | .bridgeEnter =>
    upsertSession env event.tenantId (talkingPatch env event now) now found
  | .hold => markHold (event.at now) found
  | .unhold => resumeHold (event.at now) found
  | .hangup => if hangupEndsCall (event.rawField "Channel") then finalizeHangup now found else none
  | .agentComplete => upsertSession env event.tenantId (agentCompletePatch env event now) now found
  | .blindTransfer | .attendedTransfer | .bridgeLeave | .dialBegin | .dialEnd | .userEvent
  | .other _ => none

/-- What an event does to the row of its call. -/
def applyRow (env : Env) (event : AmiEvent) (originate : Option PendingOriginate) (now : Time)
    (found : Option CallSession) : Option CallSession :=
  ((eventWrite env event originate now found).map (·.1)) <|> found

/-! ## One call of the engine -/

/-- What goes wrong in a call; every field is `true` when the step succeeds. -/
structure Faults where
  redisSet : Bool := true
  rawInsert : Bool := true
  keyRelease : Bool := true
  trackLeg : Bool := true
  transition : Bool := true
deriving DecidableEq

/-- One call of `processNormalizedEvent`: the event, the replay flag, the clock
it reads and its faults. -/
structure EngineCall where
  event : AmiEvent
  replay : Bool := false
  now : Time
  faults : Faults := {}

inductive Outcome
  | skipped
  | applied
  | failed
deriving DecidableEq

def legTypeText : CallLegType → String
  | .agent => "agent"
  | .inbound => "inbound"
  | .local => "local"

/-- The rows of `callLegs` after an upsert on `(tenantId, uniqueid)`. An ended leg
keeps its end: a late event does not revive it. -/
def upsertLeg (legs : List CallLeg) (leg : CallLeg) : List CallLeg :=
  if legs.any fun l => l.key.tenantId = leg.key.tenantId && l.uniqueid = leg.uniqueid then
    legs.map fun l =>
      if l.key.tenantId = leg.key.tenantId && l.uniqueid = leg.uniqueid then
        { l with
          channelName := leg.channelName
          endpoint := leg.endpoint
          stateCode := orElse leg.stateCode l.stateCode
          endedAt := leg.endedAt <|> l.endedAt }
      else l
  else legs ++ [leg]

/-- The leg an event is about, when its channel can be classified. -/
def AmiEvent.leg? (event : AmiEvent) (key : CallKey) (now : Time) : Option CallLeg :=
  let channelName := orElse (event.rawField "Channel") event.channel
  let uniqueid := orElse event.uniqueid (event.rawField "Uniqueid")
  if truthy channelName && truthy uniqueid then
    (classifyLeg channelName).map fun legType =>
      { key := key, uniqueid := uniqueid.getD "", legType := legTypeText legType
        channelName := channelName.getD "", endpoint := getChannelEndpointName channelName
        stateCode := event.rawField "ChannelStateDesc", startedAt := now
        endedAt := if event.eventName = .hangup then some now else none }
  else none

/-- `trackLeg`: one row for the channel of the event, once its session exists. -/
def trackLeg (w : World) (event : AmiEvent) (key : CallKey) (now : Time) : World :=
  match event.leg? key now, w.sessions key with
  | some leg, some _ => { w with legs := upsertLeg w.legs leg }
  | _, _ => w

@[simp] theorem trackLeg_sessions (w : World) (event : AmiEvent) (key : CallKey) (now : Time) :
    (trackLeg w event key now).sessions = w.sessions := by
  unfold trackLeg
  split <;> rfl

/-- A write in its transaction, with the outbox entry. -/
def World.commit (w : World) (key : CallKey) : Option RowWrite → World
  | none => w
  | some (row, event) => (w.setSession key row).enqueueOutbox key event row

/-- The originate request that a new channel consumes. -/
def World.takeOriginate (w : World) (event : AmiEvent) (now : Time) : Option PendingOriginate × World :=
  if event.eventName = .newchannel then consumePendingOriginateForNewChannel w event now
  else (none, w)

/-- The state change of an event; a hangup that ends the call is also announced
to the offer service. -/
def World.transition (w : World) (env : Env) (event : AmiEvent) (key : CallKey) (now : Time) :
    World :=
  let taken := w.takeOriginate event now
  let w := taken.2.commit key (eventWrite env event taken.1 now (taken.2.sessions key))
  if event.eventName = .hangup && hangupEndsCall (event.rawField "Channel") then
    { w with endedNotices := w.endedNotices ++ [key] }
  else w

/-- The detector sees only the two transfer events from the engine. -/
def World.detectTransfer (w : World) (event : AmiEvent) (now : Time) : World :=
  if event.eventName = .blindTransfer || event.eventName = .attendedTransfer then handle w event now
  else w

/-- A dedupe key is held until it expires. -/
def World.dedupeHeld (w : World) (fingerprint : String) (now : Time) : Bool :=
  w.dedupeKeys.any fun p => p.1 = fingerprint && decide (now < p.2)

/-- The first stage, `SET key 1 EX ttl NX`. The result says whether the call
goes on, and whether it owns the key. A Redis failure lets it go on. -/
def World.redisDedupe (w : World) (call : EngineCall) (fingerprint : String) : Bool × Bool × World :=
  if call.replay then (true, false, w)
  else if !call.faults.redisSet then (true, false, w)
  else if w.dedupeHeld fingerprint call.now then (false, false, w)
  else (true, true,
    { w with dedupeKeys := (fingerprint, call.now + dedupeTtlSeconds * 1000) ::
        w.dedupeKeys.filter fun p => p.1 ≠ fingerprint })

/-- `releaseDedupeKey`, when the raw row could not be stored. -/
def World.releaseDedupeKey (w : World) (fingerprint : String) (owned ok : Bool) : World :=
  if owned && ok then { w with dedupeKeys := w.dedupeKeys.filter fun p => p.1 ≠ fingerprint } else w

/-- The state change proper, after both dedupe stages. -/
def World.applyEvent (w : World) (env : Env) (call : EngineCall) (key : CallKey) : Outcome × World :=
  let w := if call.faults.trackLeg then trackLeg w call.event key call.now else w
  if call.faults.transition then
    (.applied, (w.transition env call.event key call.now).detectTransfer call.event call.now)
  else (.failed, w)

def processNormalizedEvent (env : Env) (w : World) (call : EngineCall) : Outcome × World :=
  if !truthy call.event.linkedid then (.skipped, w)
  else
    let key : CallKey := ⟨call.event.tenantId, call.event.linkedid.getD ""⟩
    let fingerprint := computeFingerprint env call.event call.now
    match w.redisDedupe call fingerprint with
    | (false, _, w) => (.skipped, w)
    | (true, owned, w) =>
      if !call.faults.rawInsert then
        (.failed, w.releaseDedupeKey fingerprint owned call.faults.keyRelease)
      else if (key.tenantId, fingerprint) ∈ w.rawAmiEvents then
        -- `P2002`: only a replay goes on to the state change.
        if call.replay then w.applyEvent env call key else (.skipped, w)
      else
        { w with rawAmiEvents := (key.tenantId, fingerprint) :: w.rawAmiEvents }.applyEvent env call key

/-- The engine over a list of calls. -/
def processAll (env : Env) (w : World) (calls : List EngineCall) : World :=
  calls.foldl (fun w call => (processNormalizedEvent env w call).2) w

/-! ## What a call does to the sessions -/

/-- The key an event is applied at. -/
def EngineCall.key (call : EngineCall) : CallKey :=
  ⟨call.event.tenantId, call.event.linkedid.getD ""⟩

/-- Whether the call reaches the state change and its transaction commits: the
event has a linkedid, neither dedupe stage stops it and nothing it needs fails. -/
def World.reaches (w : World) (env : Env) (call : EngineCall) : Bool :=
  let fingerprint := computeFingerprint env call.event call.now
  truthy call.event.linkedid &&
    (call.replay || !call.faults.redisSet || !w.dedupeHeld fingerprint call.now) &&
    call.faults.rawInsert &&
    (call.replay || decide ((call.event.tenantId, fingerprint) ∉ w.rawAmiEvents)) &&
    call.faults.transition

theorem detectTransfer_sessions (w : World) (event : AmiEvent) (now : Time) :
    (w.detectTransfer event now).sessions = w.sessions := by
  unfold World.detectTransfer
  split
  · next h =>
    funext k
    rw [handle_sessions, if_neg]
    rintro ⟨hname, _⟩
    simp [hname] at h
  · rfl

theorem takeOriginate_sessions (w : World) (event : AmiEvent) (now : Time) :
    (w.takeOriginate event now).2.sessions = w.sessions := by
  unfold World.takeOriginate consumePendingOriginateForNewChannel
  dsimp only
  split
  · split
    · rfl
    · split <;> rfl
  · rfl

theorem commit_sessions (w : World) (key k : CallKey) (write : Option RowWrite) :
    (w.commit key write).sessions k =
      if k = key then (write.map (·.1)) <|> w.sessions k else w.sessions k := by
  cases write with
  | none => simp [World.commit]
  | some write =>
    by_cases hk : k = key
    · subst hk
      simp [World.commit]
    · simp [World.commit, World.setSession_other _ _ hk, hk]

theorem transition_sessions (w : World) (env : Env) (event : AmiEvent) (key k : CallKey)
    (now : Time) :
    (w.transition env event key now).sessions k =
      if k = key then applyRow env event (w.takeOriginate event now).1 now (w.sessions k)
      else w.sessions k := by
  unfold World.transition
  dsimp only
  have hcommit := commit_sessions (w.takeOriginate event now).2 key k
    (eventWrite env event (w.takeOriginate event now).1 now
      ((w.takeOriginate event now).2.sessions key))
  simp only [takeOriginate_sessions] at hcommit
  have hgoal : ∀ w' : World, ∀ b : Bool, (if b = true then { w' with endedNotices := w'.endedNotices ++ [key] }
      else w').sessions k = w'.sessions k := by
    intro w' b
    cases b <;> rfl
  rw [hgoal]
  simp only [takeOriginate_sessions, hcommit]
  by_cases hk : k = key
  · subst hk
    simp [applyRow]
  · simp [hk]

theorem applyEvent_sessions (w : World) (env : Env) (call : EngineCall) (key k : CallKey) :
    ∃ originate, (w.applyEvent env call key).2.sessions k =
      if k = key ∧ call.faults.transition = true
      then applyRow env call.event originate call.now (w.sessions k) else w.sessions k := by
  have hleg : (if call.faults.trackLeg = true then trackLeg w call.event key call.now else w).sessions
      = w.sessions := by
    split <;> simp
  unfold World.applyEvent
  dsimp only
  split
  · next htrans =>
    refine ⟨((if call.faults.trackLeg = true then trackLeg w call.event key call.now
      else w).takeOriginate call.event call.now).1, ?_⟩
    rw [detectTransfer_sessions, transition_sessions, hleg]
    simp [htrans]
  · next htrans =>
    refine ⟨none, ?_⟩
    rw [hleg]
    simp [htrans]

/-- The first dedupe stage touches only the dedupe keys. -/
theorem redisDedupe_spec (w : World) (call : EngineCall) (fingerprint : String) :
    (w.redisDedupe call fingerprint).1 =
        (call.replay || !call.faults.redisSet || !w.dedupeHeld fingerprint call.now) ∧
      (w.redisDedupe call fingerprint).2.2.sessions = w.sessions ∧
      (w.redisDedupe call fingerprint).2.2.rawAmiEvents = w.rawAmiEvents := by
  unfold World.redisDedupe
  split
  · simp [*]
  · split
    · simp_all
    · split <;> simp_all

theorem releaseDedupeKey_sessions (w : World) (fingerprint : String) (owned ok : Bool) :
    (w.releaseDedupeKey fingerprint owned ok).sessions = w.sessions := by
  unfold World.releaseDedupeKey
  split <;> rfl

/-- A call of the engine changes at most the row of its own key, by `applyRow`,
and only when it reaches the state change. -/
theorem processNormalizedEvent_sessions (env : Env) (w : World) (call : EngineCall) (k : CallKey) :
    ∃ originate, (processNormalizedEvent env w call).2.sessions k =
      if k = call.key ∧ w.reaches env call = true
      then applyRow env call.event originate call.now (w.sessions k) else w.sessions k := by
  obtain ⟨hgo, hsess, hraw⟩ :=
    redisDedupe_spec w call (computeFingerprint env call.event call.now)
  have hreach : w.reaches env call = (truthy call.event.linkedid &&
      (w.redisDedupe call (computeFingerprint env call.event call.now)).1 &&
      call.faults.rawInsert && (call.replay || decide ((call.event.tenantId,
        computeFingerprint env call.event call.now) ∉ w.rawAmiEvents)) &&
      call.faults.transition) := by
    rw [hgo, World.reaches]
  rw [hreach]
  unfold processNormalizedEvent
  dsimp only
  cases hlink : truthy call.event.linkedid with
  | false => exact ⟨none, by simp⟩
  | true =>
    generalize w.redisDedupe call (computeFingerprint env call.event call.now) = stage at hsess hraw ⊢
    obtain ⟨go, owned, w'⟩ := stage
    dsimp only at hsess hraw ⊢
    cases go with
    | false => exact ⟨none, by simp [hsess]⟩
    | true =>
      cases hins : call.faults.rawInsert with
      | false => exact ⟨none, by simp [releaseDedupeKey_sessions, hsess]⟩
      | true =>
        by_cases hdup : (call.event.tenantId, computeFingerprint env call.event call.now) ∈ w.rawAmiEvents
        · cases hrep : call.replay with
          | false => exact ⟨none, by simp [hraw, hdup, hsess]⟩
          | true =>
            obtain ⟨o, ho⟩ := applyEvent_sessions w' env call call.key k
            refine ⟨o, ?_⟩
            simpa [hraw, hdup, hsess, EngineCall.key] using ho
        · obtain ⟨o, ho⟩ := applyEvent_sessions
            { w' with rawAmiEvents := (call.event.tenantId,
                computeFingerprint env call.event call.now) :: w'.rawAmiEvents } env call call.key k
          refine ⟨o, ?_⟩
          simpa [hraw, hdup, hsess, EngineCall.key] using ho

/-- A database that knows no agent and no customer. -/
def exEnv : Env := ⟨id, none, fun _ _ _ => none, fun _ _ => none⟩

end KasterCti.Calls
