import KasterCti.ArsFlow.Code
import KasterCti.Renderers.DialplanInput

/-!
# The queue contexts of the dialplan

`dialplan.renderer.ts`: the contexts that a call passes on its way through a queue.
Lines are kept as the priorities they stand for, `exten => name,1,App(args)` opening a
block and ` same => n(label),App(args)` following in it; the text is printed from them.
-/

namespace KasterCti.Renderers

open Dialplan Lines
open ArsFlow (plainStep labeledStep varRef given)

def defaultQueueTimeoutSeconds : Int := 45
def agentOfferTimeoutContext : String := "agent-offer-timeout"
def defaultAgentOfferTimeoutSeconds : Int := 10
def minAgentOfferTimeoutSeconds : Int := 1
def maxAgentOfferTimeoutSeconds : Int := 60
def queueConnectingPrompt : String := customSoundAbsolutePrefix ++ "queue_connecting"

/-! ## Pieces of expressions -/

/-- `${LEN(${name})}`. -/
def lenRef (name : String) : String := varRef ("LEN(" ++ varRef name ++ ")")

/-- `$["${name}"="value"]`. -/
def isValue (name value : String) : String := "$[\"" ++ varRef name ++ "\"=\"" ++ value ++ "\"]"

/-- `$["${LEN(${name})}"="0"]`. -/
def isEmptyVar (name : String) : String := "$[\"" ++ lenRef name ++ "\"=\"0\"]"

/-- `ExecIf($["${LEN(${name})}"="0"]?Set(__name=value))`. -/
def setIfEmpty (name value : String) : Step :=
  plainStep "ExecIf" (isEmptyVar name ++ "?Set(__" ++ name ++ "=" ++ value ++ ")")

/-! ## Targets -/

/-- The jump to a target, or nothing for a type that is not supported. -/
def buildTargetGotoLines (forwardType targetValue : String) : Render (Option (List Step)) := do
  assertNoNewlines targetValue "forwarding.targetValue"
  if forwardType = "EXTENSION" then
    pure (some [plainStep "Goto" ("from-queue," ++ targetValue ++ ",1")])
  else if forwardType = "QUEUE" then
    pure (some [plainStep "Goto" ("queue-entry," ++ targetValue ++ ",1")])
  else if forwardType = "EXTERNAL_NUMBER" || forwardType = "AI_CENTER" then
    pure (some [plainStep "Goto" ("transfer-target," ++ targetValue ++ ",1")])
  else pure none

/-- `ExecIf($["${LEN(${FORWARD_STICKY_KEY})}"!="0" & …]?Set(DB(${FORWARD_STICKY_KEY})=…))`. -/
def rememberSticky : Step :=
  plainStep "ExecIf" ("$[\"" ++ lenRef "FORWARD_STICKY_KEY" ++ "\"!=\"0\" & \"" ++
    lenRef "FORWARD_TARGET" ++ "\"!=\"0\"]?Set(DB(" ++ varRef "FORWARD_STICKY_KEY" ++ ")=" ++
    varRef "EPOCH" ++ "|" ++ varRef "FORWARD_TARGET" ++ "|" ++ varRef "FORWARD_TYPE" ++ ")")

/-- `GotoIf($["${FORWARD_TYPE}"="type"]?context,${FORWARD_TARGET},1)`. -/
def dispatchTo (forwardType context : String) : Step :=
  plainStep "GotoIf" (isValue "FORWARD_TYPE" forwardType ++ "?" ++ context ++ "," ++
    varRef "FORWARD_TARGET" ++ ",1")

def buildDynamicDispatchLines : Section where
  context := "forward-dispatch".toList
  blocks := [⟨"s".toList,
    plainStep "NoOp" ("Forward Dispatch type=" ++ varRef "FORWARD_TYPE" ++ " target=" ++
      varRef "FORWARD_TARGET"),
    [rememberSticky,
      dispatchTo "EXTENSION" "from-queue",
      dispatchTo "QUEUE" "queue-entry",
      dispatchTo "EXTERNAL_NUMBER" "transfer-target",
      plainStep "NoOp" ("Unsupported forward type " ++ varRef "FORWARD_TYPE"),
      plainStep "Hangup" ""]⟩]

/-! ## Tables by queue name -/

def normalizeQueueOverflowWaitSeconds (rule : QueueOverflowRuleInput) : Int :=
  max 1 (rule.waitSeconds.getD defaultQueueTimeoutSeconds)

/-- The catch-all of the tables that are called as subroutines. -/
def returnBlock : Block := ⟨"_.".toList, plainStep "Return" "", []⟩

/-- One row of a table: set a variable for the queue and return. -/
def setAndReturn (queueName name : String) (value : Int) : Block :=
  ⟨queueName.toList, plainStep "Set" ("__" ++ name ++ "=" ++ toString value),
    [plainStep "Return" ""]⟩

def overflowTimeoutBlock (rule : QueueOverflowRuleInput) : Render Block := do
  assertNoNewlines rule.queueName "queueOverflow.queueName"
  pure (setAndReturn rule.queueName "QUEUE_TIMEOUT_SECS" (normalizeQueueOverflowWaitSeconds rule))

def renderQueueOverflowTimeoutContext (rules : List QueueOverflowRuleInput) : Render Section := do
  let rows ← rules.mapM overflowTimeoutBlock
  pure ⟨"queue-overflow-timeout".toList, returnBlock :: rows⟩

def clampAgentOfferTimeoutSeconds (value : Option Int) : Int :=
  match value with
  | none => defaultAgentOfferTimeoutSeconds
  | some seconds =>
    if seconds < minAgentOfferTimeoutSeconds then minAgentOfferTimeoutSeconds
    else if seconds > maxAgentOfferTimeoutSeconds then maxAgentOfferTimeoutSeconds
    else seconds

def offerTimeoutBlock (queue : QueueOfferTimeoutInput) : Render Block := do
  assertNoNewlines queue.queueName "queueOfferTimeout.queueName"
  pure (setAndReturn queue.queueName "KASTER_OFFER_TIMEOUT"
    (clampAgentOfferTimeoutSeconds queue.agentOfferTimeoutSeconds))

def renderAgentOfferTimeoutContext (queues : List QueueOfferTimeoutInput) : Render Section := do
  let rows ← queues.mapM offerTimeoutBlock
  pure ⟨agentOfferTimeoutContext.toList, returnBlock :: rows⟩

/-- `rule.resultCode?.trim() || 'QUEUE_OVERFLOW'`. -/
def overflowResultCode (rule : QueueOverflowRuleInput) : String :=
  ((rule.resultCode.map JsText.trim).filter (· ≠ "")).getD "QUEUE_OVERFLOW"

/-- The row of a rule, nothing for a target that is not supported. -/
def overflowBlock (rule : QueueOverflowRuleInput) : Render (Option Block) := do
  assertNoNewlines rule.queueName "queueOverflow.queueName"
  match ← buildTargetGotoLines rule.targetType rule.targetValue with
  | none => pure none
  | some targetLines =>
    assertNoNewlines (overflowResultCode rule) "queueOverflow.resultCode"
    pure (some ⟨rule.queueName.toList,
      plainStep "NoOp" ("Queue Overflow / " ++ rule.queueName ++ " / " ++ overflowResultCode rule),
      targetLines⟩)

def overflowDefault : Block :=
  ⟨"_.".toList, plainStep "Playback" (customSoundAbsolutePrefix ++ "queue_timeout"),
    [plainStep "Hangup" ""]⟩

def renderQueueOverflowContext (rules : List QueueOverflowRuleInput) : Render Section := do
  let rows ← rules.mapM overflowBlock
  pure ⟨"queue-overflow".toList, overflowDefault :: rows.reduceOption⟩

/-! ## Entering and leaving a queue -/

/-- `$["${SMART_FORWARD_ENABLED}"="1" & "${QUEUE_READY_COUNT}"="0"]`. -/
def smartNoReady : String :=
  "$[\"" ++ varRef "SMART_FORWARD_ENABLED" ++ "\"=\"1\" & \"" ++ varRef "QUEUE_READY_COUNT" ++
    "\"=\"0\"]"

/-- The value of `CDR(userfield)`. A semicolon starts a comment in the file and is
escaped. -/
def cdrUserfield : String :=
  "linkedid=" ++ varRef "CHANNEL(linkedid)" ++ "\\;queue=" ++ varRef "QUEUE_NAME" ++ "\\;rec=" ++
    varRef "REC_FILE"

def queueEntryCode (recordingFileExtension : String) : List Step :=
  [setIfEmpty "QUEUE_NAME" (varRef "EXTEN"),
    plainStep "NoOp" ("Queue Entry / " ++ varRef "QUEUE_NAME" ++ " / " ++
      varRef "CHANNEL(linkedid)"),
    plainStep "Gosub" ("queue-overflow-timeout," ++ varRef "QUEUE_NAME" ++ ",1"),
    plainStep "Gosub" (agentOfferTimeoutContext ++ "," ++ varRef "QUEUE_NAME" ++ ",1"),
    setIfEmpty "KASTER_OFFER_TIMEOUT" (toString defaultAgentOfferTimeoutSeconds),
    setIfEmpty "QUEUE_TIMEOUT_SECS" (toString defaultQueueTimeoutSeconds),
    plainStep "ExecIf" ("$[\"" ++ lenRef "QUEUE_PROMPT_MOH_CLASS" ++ "\"!=\"0\" & \"" ++
      varRef "QUEUE_PROMPT_KEEP_IN_QUEUE" ++ "\"=\"1\" & \"" ++
      varRef "QUEUE_PROMPT_PRESTARTED" ++ "\"!=\"1\"]?Set(CHANNEL(musicclass)=" ++
      varRef "QUEUE_PROMPT_MOH_CLASS" ++ ")"),
    plainStep "ExecIf" (isValue "SMART_FORWARD_ENABLED" "1" ++ "?Set(__QUEUE_READY_COUNT=" ++
      varRef ("QUEUE_MEMBER(" ++ varRef "QUEUE_NAME" ++ ",ready)") ++ ")"),
    plainStep "ExecIf" (smartNoReady ++ "?Goto(forward-dispatch,s,1)"),
    plainStep "Set" ("__REC_FILE=" ++ varRef ("STRFTIME(" ++ varRef "EPOCH" ++ ",,%Y/%m/%d)") ++
      "/" ++ varRef "CHANNEL(linkedid)" ++ "-" ++ varRef "UNIQUEID" ++ "." ++
      recordingFileExtension),
    plainStep "Set" ("__CALL_START_TS=" ++
      varRef ("STRFTIME(" ++ varRef "EPOCH" ++ ",,%Y-%m-%d %H:%M:%S)")),
    plainStep "Set" ("CDR(userfield)=" ++ cdrUserfield),
    plainStep "Playback" queueConnectingPrompt,
    plainStep "Queue" (varRef "QUEUE_NAME" ++ ",tT,,," ++ varRef "QUEUE_TIMEOUT_SECS" ++
      ",,,agent-pre-bridge"),
    plainStep "NoOp" ("Queue Result: " ++ varRef "QUEUESTATUS"),
    plainStep "Goto" "queue-exit,s,1"]

def queueEntry (recordingFileExtension : String) : Section where
  context := "queue-entry".toList
  blocks :=
    [⟨"h".toList, plainStep "NoOp" "Queue Entry Hangup", [plainStep "Hangup" ""]⟩,
      ⟨"_.".toList, plainStep "Set" ("__QUEUE_NAME=" ++ varRef "EXTEN"), [plainStep "Goto" "s,1"]⟩,
      ⟨"s".toList, setIfEmpty "QUEUE_NAME" (varRef "QUEUE_NAME"),
        queueEntryCode recordingFileExtension⟩]

def queueExit : Section where
  context := "queue-exit".toList
  blocks := [⟨"s".toList,
    plainStep "NoOp" ("Queue Exit / STATUS=" ++ varRef "QUEUESTATUS" ++ " / ABANDONED?=" ++
      varRef "ABANDONED"),
    [plainStep "ExecIf" ("$[\"" ++ varRef "QUEUESTATUS" ++ "\"=\"TIMEOUT\" & \"" ++
        varRef "FORWARD_AFTER_QUEUE_ENABLED" ++ "\"=\"1\"]?Goto(forward-dispatch,s,1)"),
      plainStep "GotoIf" (isValue "QUEUESTATUS" "TIMEOUT" ++ "?queue-overflow," ++
        varRef "QUEUE_NAME" ++ ",1"),
      plainStep "Hangup" ""]⟩]

end KasterCti.Renderers
