import KasterCti.ArsFlow.FlowGraph

/-!
# What the dialplan renderer is given

The input types of `dialplan.renderer.ts`. A list that the caller may leave out is
empty here, and numbers are integers, as the columns they come from. Fields that the
renderer does not read are left out.
-/

namespace KasterCti.Renderers

open ArsFlow (FlowGraph)

/-! ## 080 opt-out -/

inductive OptOutMode
  | immediate | dtmfMenu | smart

def OptOutMode.text : OptOutMode → String
  | immediate => "IMMEDIATE_OPT_OUT"
  | dtmfMenu => "DTMF_MENU"
  | smart => "SMART_OPT_OUT"

/-- `OPT_OUT_MODE_SOURCE_TYPE`. -/
def OptOutMode.sourceType : OptOutMode → String
  | immediate => "OPT_OUT_080_IMMEDIATE"
  | dtmfMenu => "OPT_OUT_080_DTMF"
  | smart => "OPT_OUT_080_SMART"

/-- The actions of both menus: `OptOutDtmfActionType` and `OptOutSmartActionType`. -/
inductive OptOutActionType
  | queueRoute | registerOptOut | unregisterOptOut | sendSms | reenterNumber | hangup

def OptOutActionType.text : OptOutActionType → String
  | queueRoute => "QUEUE_ROUTE"
  | registerOptOut => "REGISTER_OPT_OUT"
  | unregisterOptOut => "UNREGISTER_OPT_OUT"
  | sendSms => "SEND_SMS"
  | reenterNumber => "REENTER_NUMBER"
  | hangup => "HANGUP"

structure OptOutDigitMappingInput where
  digit : String
  actionType : OptOutActionType
  queueName : Option String
  smsTemplateId : Option String

structure OptOutDtmfMenuInput where
  timeoutSeconds : Int
  maxRetries : Int
  invalidPromptKey : Option String
  timeoutPromptKey : Option String
  mappings : List OptOutDigitMappingInput

structure OptOutSmartFlowInput where
  inputPromptKey : Option String
  reentryPromptKey : Option String
  sameNumberPromptKey : Option String
  confirmPrefixPromptKey : Option String
  confirmSuffixPromptKey : Option String
  confirmMenuPromptKey : Option String
  failurePromptKey : Option String
  finalPromptKey : Option String
  inputTimeoutSeconds : Int
  maxRetries : Int
  confirmationMappings : List OptOutDigitMappingInput

structure BranchOptOut080Input where
  enabled : Bool
  tenantId : String
  branchId : Option String
  mode : OptOutMode
  basePromptKey : Option String
  basePromptInputDelaySeconds : Option Int
  completionPromptKey : Option String
  smsTemplateId : Option String
  dtmfMenu : Option OptOutDtmfMenuInput
  smartFlow : Option OptOutSmartFlowInput

/-! ## Smart ARS -/

inductive SmartArsActionType
  | queueRoute | transfer | sendSms | optOut | playPrompt

def SmartArsActionType.text : SmartArsActionType → String
  | queueRoute => "QUEUE_ROUTE"
  | transfer => "TRANSFER"
  | sendSms => "SEND_SMS"
  | optOut => "OPT_OUT"
  | playPrompt => "PLAY_PROMPT"

structure SmartArsActionInput where
  digit : String
  actionType : SmartArsActionType
  queueName : Option String
  transferNumber : Option String
  smsTemplateId : Option String
  promptKey : Option String

structure BranchSmartArsInput where
  enabled : Bool
  tenantId : String
  branchId : Option String
  guidePromptKey : Option String
  invalidPromptKey : Option String
  failPromptKey : Option String
  timeoutSeconds : Int
  maxRetries : Int
  actions : List SmartArsActionInput

/-! ## DIDs, menus and rules -/

structure ArsFlowRouteInput where
  tenantId : String
  graph : FlowGraph

structure DidInput where
  id : String
  did : String
  branchId : Option String
  ivrMenuId : Option String
  directQueue : Option String
  directExtension : Option String
  branchPromptKeys : List String
  branchPromptQueueDelaySeconds : Option Int
  branchPromptWaitForCompletion : Bool
  branchOptOut080 : Option BranchOptOut080Input
  branchSmartArs : Option BranchSmartArsInput
  arsFlow : Option ArsFlowRouteInput
  enabled : Bool

structure IvrEntryInput where
  digit : String
  queueName : String

structure IvrMenuInput where
  id : String
  name : String
  welcomePrompt : Option String
  menuPrompt : Option String
  timeoutSecs : Int
  entries : List IvrEntryInput

structure ForwardingRuleInput where
  id : String
  didId : String
  forwardType : String
  targetValue : String
  forwardTriggerMode : Option String
  queueWaitSeconds : Option Int
  stickyCallbackWindowMinutes : Option Int
  conditionType : String
  timeStart : Option String
  timeEnd : Option String
  daysOfWeek : Option String
  scheduleJson : Option String
  enabled : Bool

structure QueueOverflowRuleInput where
  queueName : String
  waitSeconds : Option Int
  targetType : String
  targetValue : String
  resultCode : Option String
  enabled : Bool
  priority : Option Int

structure QueueOfferTimeoutInput where
  queueName : String
  agentOfferTimeoutSeconds : Option Int

structure BlocklistEntryInput where
  matchType : String
  phoneNumber : String
  isActive : Bool

structure HolidayRuleInput where
  branchId : Option String
  ruleType : String
  holidayDate : Option String
  monthDay : Option String
  isActive : Bool

inductive RecordingChannelMode
  | mono | stereoRaw
deriving DecidableEq

/-- `normalizeRecordingChannelMode`. -/
def normalizeRecordingChannelMode (mode : Option RecordingChannelMode) : RecordingChannelMode :=
  if mode = some .stereoRaw then .stereoRaw else .mono

def getRecordingFileExtension : RecordingChannelMode → String
  | .mono => "wav"
  | .stereoRaw => "raw"

structure DialplanInput where
  dids : List DidInput
  ivrMenus : List IvrMenuInput
  recordingChannelMode : Option RecordingChannelMode
  forwardingRules : List ForwardingRuleInput
  queueOverflowRules : List QueueOverflowRuleInput
  queueOfferTimeouts : List QueueOfferTimeoutInput
  blocklistEntries : List BlocklistEntryInput
  holidayRules : List HolidayRuleInput

end KasterCti.Renderers
