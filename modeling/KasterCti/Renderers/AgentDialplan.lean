import KasterCti.Common.OutboundDialPolicy
import KasterCti.Library.JsMap
import KasterCti.Renderers.QueueContexts
import Mathlib

/-!
# The dialplan of the agents' telephones

`agent-dialplan.renderer.ts` and `internal-extension-pattern.ts`: what a telephone may dial
(`agent-phone-<ext>`), how a call goes out over a trunk (`outbound-main-<ext>`), which
caller id it shows, and how a queue offers a call to an agent. The contexts are kept as
sections; comment lines and hints, which no call runs, are left out.
-/

namespace KasterCti.Renderers

open Dialplan
open JsText (trimChars)
open ArsFlow (plainStep labeledStep varRef given)
open Common

/-! ## Input -/

structure AgentDialplanTrunkInput where
  name : String
  enabled : Bool

structure AgentDialplanTrunkGroupMember where
  priority : Int
  enabled : Bool
  trunk : AgentDialplanTrunkInput

structure AgentDialplanTrunkGroupInput where
  enabled : Bool
  isDefault : Bool
  members : List AgentDialplanTrunkGroupMember

inductive CallerIdPrivacy
  | allowedNotScreened | prohib
deriving DecidableEq

def CallerIdPrivacy.text : CallerIdPrivacy → String
  | allowedNotScreened => "allowed_not_screened"
  | prohib => "prohib"

inductive ExtensionLockMode
  | unlocked | outboundLocked | fullLocked
deriving DecidableEq

structure AgentDialplanAgentInput where
  extension : String
  outboundEnabled : Bool
  callerIdPrivacy : CallerIdPrivacy
  liveRecordingEnabled : Bool
  extensionLockMode : Option ExtensionLockMode
  branchIds : List String
  outboundDialPermissions : Option OutboundDialPermissions
deriving DecidableEq

structure AgentDialplanSpeedDialInput where
  code : String
  targetNumber : String
  displayName : Option String
  enabled : Bool

structure AgentDialplanFeatureCodeInput where
  featureKey : String
  code : Option String
  enabled : Bool

inductive OutboundCallerIdRuleMatchType
  | exactNumber | leadingDigits | regex | dialplanPattern
deriving DecidableEq

def OutboundCallerIdRuleMatchType.text : OutboundCallerIdRuleMatchType → String
  | exactNumber => "EXACT"
  | leadingDigits => "PREFIX"
  | regex => "REGEX"
  | dialplanPattern => "DIALPLAN_PATTERN"

structure OutboundCallerIdRuleInput where
  matchType : OutboundCallerIdRuleMatchType
  sourceNumberPattern : String
  callerIdNumber : String
  displayName : Option String
  priority : Int
  enabled : Bool
  branchId : Option String
deriving DecidableEq

structure AgentDialplanInput where
  allowDirectSipDial : Bool
  defaultOutboundCallerId : Option String
  allowedOutboundCallerIds : List String
  recordingChannelMode : Option RecordingChannelMode
  trunks : List AgentDialplanTrunkInput
  trunkGroups : List AgentDialplanTrunkGroupInput
  agents : List AgentDialplanAgentInput
  speedDials : List AgentDialplanSpeedDialInput
  featureCodes : List AgentDialplanFeatureCodeInput
  outboundCallerIdRules : List OutboundCallerIdRuleInput

/-! ## Trunks -/

def toTrunkEndpoint (trunk : AgentDialplanTrunkInput) : Option String :=
  if trunk.enabled && toSlug trunk.name ≠ "" then some ("trunk-" ++ toSlug trunk.name) else none

def getPrimaryTrunkEndpoint (trunks : List AgentDialplanTrunkInput) : Option String :=
  (trunks.find? (·.enabled)).bind toTrunkEndpoint

/-- `PJSIP/${EXTEN}@endpoint`. -/
def dialOver (endpoint : String) : String := "PJSIP/" ++ varRef "EXTEN" ++ "@" ++ endpoint

/-- Targets joined with `&`. -/
def joinTargets : List String → Option String
  | [] => none
  | target :: targets => some (targets.foldl (fun joined next => joined ++ "&" ++ next) target)

def getOutboundTrunkDialTarget (trunks : List AgentDialplanTrunkInput)
    (trunkGroups : List AgentDialplanTrunkGroupInput) : Option String :=
  match trunkGroups.find? (fun group => group.enabled && group.isDefault) with
  | none => (getPrimaryTrunkEndpoint trunks).map dialOver
  | some group =>
    let members := (group.members.filter (fun member => member.enabled && member.trunk.enabled))
      |>.insertionSort (fun a b => a.priority ≤ b.priority)
    joinTargets ((members.filterMap (fun member => toTrunkEndpoint member.trunk)).map dialOver)

/-! ## Internal extensions -/

/-- A number that does not start with zero. -/
def isExtensionNumber : Text → Bool
  | [] => false
  | first :: rest => isDigit first && first ≠ '0' && rest.all isDigit

/-- The first digits of the extensions, for each length. -/
def groupFirstDigitsByLength (extensions : List String) : List (Nat × List Char) :=
  extensions.foldl (fun byLength raw =>
    let extension := trimChars raw.toList
    if isExtensionNumber extension then
      let digits := (JsMap.get byLength extension.length).getD []
      let first := extension.headD '0'
      JsMap.set byLength extension.length (if first ∈ digits then digits else digits ++ [first])
    else byLength) []

/-- `_[123]XXX`, or `_1XXX` for a single first digit. -/
def internalPattern (length : Nat) (digits : List Char) : String :=
  let sorted := digits.insertionSort (· ≤ ·)
  let lead := if sorted.length = 1 then sorted else '[' :: sorted ++ [']']
  String.ofList ('_' :: lead ++ List.replicate (length - 1) 'X')

def buildInternalExtensionPatterns (extensions : List String) : List String :=
  ((groupFirstDigitsByLength extensions).insertionSort (fun a b => a.1 ≤ b.1)).map
    (fun group => internalPattern group.1 group.2)

def isInternalExtension (value : String) (extensions : List String) : Bool :=
  let target := trimChars value.toList
  target ≠ [] && extensions.any (fun extension => trimChars extension.toList = target)

/-! ## What a telephone may dial -/

def buildRecordFileLines (recordingChannelMode : RecordingChannelMode) : List Step :=
  [setIfEmpty "REC_FILE" (varRef ("STRFTIME(" ++ varRef "EPOCH" ++ ",,%Y/%m/%d)") ++ "/" ++
    varRef "CHANNEL(linkedid)" ++ "-" ++ varRef "UNIQUEID" ++ "." ++
    getRecordingFileExtension recordingChannelMode)]

/-- An extension that says no. -/
def buildOutboundNoServiceRoute (pattern noop : String) : Block :=
  ⟨pattern.toList, plainStep "NoOp" noop, [plainStep "Playback" "ss-noservice", plainStep "Hangup" ""]⟩

def buildBlockedOutboundDialLines (contextLabel : String)
    (permissions : Option OutboundDialPermissions) : List Block :=
  (getBlockedOutboundDialplanPatterns permissions).map (fun pattern =>
    buildOutboundNoServiceRoute pattern
      ("Blocked outbound dial " ++ contextLabel ++ " / " ++ varRef "EXTEN"))

/-- The patterns that the permissions open, each with its label. -/
def getAllowedOutboundDialplanPatterns (permissionsInput : Option OutboundDialPermissions) :
    List (String × String) :=
  let permissions := normalizeOutboundDialPermissions permissionsInput
  (if permissions.international then
      internationalOutboundDialplanPatterns.map (·, "international") else []) ++
    (if permissions.paid then paidOutboundDialplanPatterns.map (·, "paid") else []) ++
    (if permissions.representative then
      representativeOutboundDialplanPatterns.map (·, "representative") else []) ++
    (if permissions.domestic then domesticOutboundDialplanPatterns.map (·, "domestic") else [])

def entryNoOp (agent : AgentDialplanAgentInput) (label : String) : String :=
  "Agent endpoint " ++ label ++ " call " ++ agent.extension ++ " / " ++ varRef "EXTEN"

/-- `GotoIf($["${PJSIP_DIAL_CONTACTS(extension)}"=""]?unregistered-agent,1)`. -/
def registeredEndpointGuard (agent : AgentDialplanAgentInput) : Step :=
  plainStep "GotoIf"
    (isValue ("PJSIP_DIAL_CONTACTS(" ++ agent.extension ++ ")") "" ++ "?unregistered-agent,1")

def outboundContext (agent : AgentDialplanAgentInput) : String := "outbound-main-" ++ agent.extension

def buildAllowedOutboundEntryRoutes (agent : AgentDialplanAgentInput) : List Block :=
  (getAllowedOutboundDialplanPatterns agent.outboundDialPermissions).map (fun route =>
    ⟨route.1.toList, plainStep "NoOp" (entryNoOp agent route.2),
      [registeredEndpointGuard agent,
        plainStep "Goto" (outboundContext agent ++ "," ++ varRef "EXTEN" ++ ",1")]⟩)

/-- The patterns that the permissions open, closed by another setting. -/
def buildClosedOutboundEntryRoutes (agent : AgentDialplanAgentInput) : List Block :=
  (getAllowedOutboundDialplanPatterns agent.outboundDialPermissions).map (fun route =>
    buildOutboundNoServiceRoute route.1 (entryNoOp agent route.2))

def dialEndpoint (number : String) : Step :=
  plainStep "Dial" ("PJSIP/" ++ number ++ ",20,tTU(agent-pre-bridge)")

def renderSpeedDial (agent : AgentDialplanAgentInput) (internalExtensions : List String)
    (item : AgentDialplanSpeedDialInput) : Render Block := do
  assertNoNewlines item.code "speedDialCode"
  assertNoNewlines item.targetNumber "speedDialTargetNumber"
  let label := item.displayName.getD item.targetNumber
  assertNoNewlines label "speedDialDisplayName"
  let route := if isInternalExtension item.targetNumber internalExtensions then
      [dialEndpoint item.targetNumber, plainStep "Hangup" ""]
    else [plainStep "Goto" (outboundContext agent ++ "," ++ item.targetNumber ++ ",1")]
  pure ⟨item.code.toList, plainStep "NoOp" ("Speed dial " ++ item.code ++ " -> " ++ label),
    registeredEndpointGuard agent :: route⟩

def renderAgentSpeedDialLines (agent : AgentDialplanAgentInput) (directDialAllowed : Bool)
    (speedDials : List AgentDialplanSpeedDialInput) (internalExtensions : List String) :
    Render (List Block) :=
  if !directDialAllowed || !agent.outboundEnabled ||
      agent.extensionLockMode = some .outboundLocked || agent.extensionLockMode = some .fullLocked then
    pure []
  else (speedDials.filter (·.enabled)).mapM (renderSpeedDial agent internalExtensions)

/-! ## Feature codes -/

inductive FeatureCodeInvocation
  | handsetDial | serverDtmf
deriving DecidableEq

def featureCodeCatalog : List (String × FeatureCodeInvocation) :=
  [("pickup", .handsetDial), ("attendedTransferComplete", .serverDtmf), ("hold", .serverDtmf),
    ("resume", .serverDtmf)]

def isHandsetDialFeature (featureKey : String) : Bool :=
  featureCodeCatalog.lookup featureKey = some .handsetDial

def renderFeatureCode (agent : AgentDialplanAgentInput) (item : AgentDialplanFeatureCodeInput)
    (code : String) : Render (Option Block) := do
  assertNoNewlines code "featureCode"
  if item.featureKey = "pickup" then
    pure (some ⟨code.toList, plainStep "NoOp" ("Feature code pickup / agent " ++ agent.extension),
      [plainStep "Pickup" "", plainStep "Hangup" ""]⟩)
  else pure none

def renderAgentFeatureCodeLines (agent : AgentDialplanAgentInput)
    (featureCodes : List AgentDialplanFeatureCodeInput) : Render (List Block) := do
  let blocks ← featureCodes.mapM (fun item =>
    match given item.code with
    | none => pure none
    | some code =>
      if item.enabled && isHandsetDialFeature item.featureKey then renderFeatureCode agent item code
      else pure none)
  pure (blocks.filterMap id)

/-! ## The entry of a telephone -/

def phoneContext (agent : AgentDialplanAgentInput) : String := "agent-phone-" ++ agent.extension

def fullLockedBlock (agent : AgentDialplanAgentInput) : Block :=
  buildOutboundNoServiceRoute "_X." ("Agent endpoint " ++ agent.extension ++ " is FULL_LOCKED")

def phoneDirectText : PhoneDirectPolicy → String
  | .inherit => "INHERIT"
  | .allow => "ALLOW"
  | .deny => "DENY"

/-- The routes to the outside: open, or closed with a word on why. -/
def outboundEntryBlocks (agent : AgentDialplanAgentInput) (directDialAllowed : Bool) : List Block :=
  let phoneDirect :=
    (normalizeOutboundDialPermissions agent.outboundDialPermissions).phoneDirect
  if !directDialAllowed || !agent.outboundEnabled || agent.extensionLockMode = some .outboundLocked then
    (if agent.extensionLockMode = some .outboundLocked then
      [⟨"_X.".toList, plainStep "NoOp"
        ("Outbound disabled for agent " ++ agent.extension ++ ": OUTBOUND_LOCKED"), []⟩]
    else if !directDialAllowed then
      [⟨"_X.".toList, plainStep "NoOp" ("Phone direct outbound disabled for agent " ++
        agent.extension ++ ": " ++ phoneDirectText phoneDirect), []⟩]
    else []) ++ buildClosedOutboundEntryRoutes agent
  else buildAllowedOutboundEntryRoutes agent

def internalBlock (agent : AgentDialplanAgentInput) (pattern : String) : Block :=
  ⟨pattern.toList,
    plainStep "NoOp" ("Internal endpoint call " ++ agent.extension ++ " / " ++ varRef "EXTEN"),
    [registeredEndpointGuard agent, dialEndpoint (varRef "EXTEN"), plainStep "Hangup" ""]⟩

def unregisteredBlock (agent : AgentDialplanAgentInput) : Block :=
  buildOutboundNoServiceRoute "unregistered-agent"
    ("Registered contact not found for agent " ++ agent.extension)

def directDialAllowed (agent : AgentDialplanAgentInput) (siteAllowDirectSipDial : Bool) : Bool :=
  resolvePhoneDirectAllowed
    (normalizeOutboundDialPermissions agent.outboundDialPermissions).phoneDirect
    siteAllowDirectSipDial

def renderAgentEntryContext (agent : AgentDialplanAgentInput) (siteAllowDirectSipDial : Bool)
    (internalExtensions : List String) (speedDials : List AgentDialplanSpeedDialInput)
    (featureCodes : List AgentDialplanFeatureCodeInput) : Render Section := do
  if agent.extensionLockMode = some .fullLocked then
    pure ⟨(phoneContext agent).toList, [fullLockedBlock agent]⟩
  else
    let allowed := directDialAllowed agent siteAllowDirectSipDial
    let speed ← renderAgentSpeedDialLines agent allowed speedDials internalExtensions
    let features ← renderAgentFeatureCodeLines agent featureCodes
    pure ⟨(phoneContext agent).toList,
      buildBlockedOutboundDialLines ("agent " ++ agent.extension) agent.outboundDialPermissions ++
        outboundEntryBlocks agent allowed ++ speed ++ features ++
        (buildInternalExtensionPatterns internalExtensions).map (internalBlock agent) ++
        [unregisteredBlock agent]⟩

/-! ## The way out -/

/-- The caller id: from the rules, or the default one. -/
def callerIdLines (callerId : String) (cidRulesContextName : Option String) : List Step :=
  match cidRulesContextName with
  | some name => [plainStep "Gosub" (name ++ "," ++ varRef "EXTEN" ++ ",1")]
  | none =>
    [plainStep "Set" ("CALLERID(num)=" ++ callerId), plainStep "Set" ("CALLERID(name)=" ++ callerId)]

def buildOutboundDialRoute (pattern noop : String) (agent : AgentDialplanAgentInput)
    (trunkDialTarget callerId : String) (cidRulesContextName : Option String)
    (recordingChannelMode : RecordingChannelMode) : Block :=
  ⟨pattern.toList, plainStep "NoOp" noop,
    buildRecordFileLines recordingChannelMode ++ callerIdLines callerId cidRulesContextName ++
      [plainStep "Set" ("CALLERID(pres)=" ++ agent.callerIdPrivacy.text),
        plainStep "Dial" (trunkDialTarget ++ ",60,b(func-set-sipheaders^s^1)U(agent-pre-bridge)"),
        plainStep "Hangup" ""]⟩

def outboundNoOp (label : String) : String := "Outbound " ++ label ++ " " ++ varRef "EXTEN"

def renderAgentOutboundRoute (agent : AgentDialplanAgentInput)
    (trunkDialTarget callerId cidRulesContextName : Option String)
    (recordingChannelMode : RecordingChannelMode) : Render Section := do
  let blocked := buildBlockedOutboundDialLines ("outbound-main " ++ agent.extension)
    agent.outboundDialPermissions
  let routes := getAllowedOutboundDialplanPatterns agent.outboundDialPermissions
  match trunkDialTarget, given callerId with
  | some target, some callerId =>
    assertNoNewlines callerId "defaultOutboundCallerId"
    assertNoNewlines target "trunkDialTarget"
    pure ⟨(outboundContext agent).toList, blocked ++ routes.map (fun route =>
      buildOutboundDialRoute route.1 (outboundNoOp route.2) agent target callerId
        cidRulesContextName recordingChannelMode)⟩
  | _, _ =>
    pure ⟨(outboundContext agent).toList, blocked ++ routes.map (fun route =>
      buildOutboundNoServiceRoute route.1 (outboundNoOp route.2))⟩

/-! ## Caller id rules -/

def ruleToDialplanExten (rule : OutboundCallerIdRuleInput) : Option String :=
  match rule.matchType with
  | .dialplanPattern => some rule.sourceNumberPattern
  | .exactNumber => some rule.sourceNumberPattern
  | .leadingDigits => some ("_" ++ rule.sourceNumberPattern ++ ".")
  | .regex => none

/-- `NoOp(noop)`, the two parts of the caller id, `Return()`. -/
def callerIdBlock (exten noop num name : String) : Block :=
  ⟨exten.toList, plainStep "NoOp" noop,
    [plainStep "Set" ("CALLERID(num)=" ++ num), plainStep "Set" ("CALLERID(name)=" ++ name),
      plainStep "Return" ""]⟩

/-- The loop over the rules: the first rule of every pattern. -/
def cidRuleBlocks (seenPatterns : List String) : List OutboundCallerIdRuleInput → Render (List Block)
  | [] => pure []
  | rule :: rules =>
    match given (ruleToDialplanExten rule) with
    | none => cidRuleBlocks seenPatterns rules
    | some exten =>
      if exten ∈ seenPatterns then cidRuleBlocks seenPatterns rules
      else do
        assertNoNewlines rule.callerIdNumber "callerIdNumber"
        assertNoNewlines (rule.displayName.getD "") "displayName"
        let blocks ← cidRuleBlocks (exten :: seenPatterns) rules
        pure (callerIdBlock exten ("Outbound CID rule " ++ rule.matchType.text ++ " prio=" ++
          toString rule.priority) rule.callerIdNumber
          (rule.displayName.getD rule.callerIdNumber) :: blocks)

def cidFallback (defaultCallerId : Option String) : Render Block :=
  match given defaultCallerId with
  | some callerId => do
    assertNoNewlines callerId "defaultOutboundCallerId"
    pure (callerIdBlock "_X." "Outbound CID rule fallback" callerId callerId)
  | none =>
    pure ⟨"_X.".toList, plainStep "NoOp" "Outbound CID rule fallback — default 미설정",
      [plainStep "Return" ""]⟩

def renderOutboundCidRules (contextName : String) (defaultCallerId : Option String)
    (rules : List OutboundCallerIdRuleInput) : Render (Option Section) := do
  let enabledRules := (rules.filter (fun rule => rule.enabled && rule.matchType ≠ .regex))
    |>.insertionSort (fun a b => a.priority ≤ b.priority)
  if enabledRules.isEmpty && (given defaultCallerId).isNone then pure none
  else
    let blocks ← cidRuleBlocks [] enabledRules
    let fallback ← cidFallback defaultCallerId
    pure (some ⟨contextName.toList, blocks ++ [fallback]⟩)

def getAgentCidContextName (agent : AgentDialplanAgentInput) (hasBranchScopedRules : Bool) : String :=
  if hasBranchScopedRules then "outbound-cid-rules-" ++ agent.extension else "outbound-cid-rules"

def getAgentOutboundCidRules (agent : AgentDialplanAgentInput)
    (rules : List OutboundCallerIdRuleInput) : List OutboundCallerIdRuleInput :=
  rules.filter (fun rule =>
    match given rule.branchId with
    | none => true
    | some branchId => branchId ∈ agent.branchIds)

def AgentDialplanInput.hasUsableRules (input : AgentDialplanInput) : Bool :=
  input.outboundCallerIdRules.any (fun rule => rule.enabled && rule.matchType ≠ .regex)

def AgentDialplanInput.hasBranchScopedRules (input : AgentDialplanInput) : Bool :=
  input.outboundCallerIdRules.any (fun rule => rule.enabled && (given rule.branchId).isSome)

/-- A context of rules for every agent when there are rules for branches, else one for all. -/
def outboundCidRules (input : AgentDialplanInput) : Render (List (Option Section)) :=
  if input.hasBranchScopedRules then
    input.agents.mapM (fun agent => renderOutboundCidRules (getAgentCidContextName agent true)
      input.defaultOutboundCallerId (getAgentOutboundCidRules agent input.outboundCallerIdRules))
  else do
    let context ← renderOutboundCidRules "outbound-cid-rules" input.defaultOutboundCallerId
      input.outboundCallerIdRules
    pure [context]

def cidRuleContexts (input : AgentDialplanInput) : Render (List Section) :=
  if input.hasUsableRules then do
    let contexts ← outboundCidRules input
    pure (contexts.filterMap id)
  else pure []

/-! ## Offers and the moment before the bridge -/

def getMixMonitorOptions : RecordingChannelMode → String
  | .mono => "b"
  | .stereoRaw => "bD"

/-- `$["${LEN(${REC_FILE})}"!="0"]`. -/
def hasRecordFile : String := "$[\"" ++ lenRef "REC_FILE" ++ "\"!=\"0\"]"

def renderPreBridgeAgentBranch (agent : AgentDialplanAgentInput)
    (recordingChannelMode : RecordingChannelMode) : Section :=
  let monitor := if agent.liveRecordingEnabled then
      [plainStep "ExecIf" (hasRecordFile ++ "?MixMonitor(" ++ varRef "REC_BASE_DIR" ++ "/" ++
        varRef "REC_FILE" ++ "," ++ getMixMonitorOptions recordingChannelMode ++ ")")]
    else []
  ⟨("agent-pre-bridge-" ++ agent.extension).toList,
    [⟨"s".toList, plainStep "NoOp" "Agent pre-bridge handler", monitor ++ [plainStep "Return" ""]⟩]⟩

def agentOfferAgiPath : String := customSoundAbsolutePrefix ++ "kaster-agent-offer.agi"

def offerFields : String :=
  "Extension: " ++ varRef "EXTEN" ++ ",Caller: " ++ varRef "CALLERID(num)" ++ ",Linkedid: " ++
    varRef "CHANNEL(linkedid)"

def offerStage (stage : String) : Step :=
  plainStep "UserEvent" ("KasterAgentOffer,Stage: " ++ stage ++ "," ++ offerFields)

/-- `"${KASTER_OFFER_RESULT}"="result"`. -/
def offerResultIs (result : String) : String :=
  "\"" ++ varRef "KASTER_OFFER_RESULT" ++ "\"=\"" ++ result ++ "\""

def renderAgentOffer (recordingChannelMode : RecordingChannelMode) : Section :=
  ⟨"agent-offer".toList, [⟨"_X.".toList, plainStep "NoOp" ("Agent offer to " ++ varRef "EXTEN"),
    buildRecordFileLines recordingChannelMode ++
      [offerStage "offered",
        plainStep "ExecIf" (isEmptyVar "KASTER_OFFER_TIMEOUT" ++ "?Set(KASTER_OFFER_TIMEOUT=" ++
          toString defaultAgentOfferTimeoutSeconds ++ ")"),
        plainStep "AGI" (agentOfferAgiPath ++ "," ++ varRef "EXTEN" ++ "," ++
          varRef "KASTER_OFFER_TIMEOUT"),
        offerStage ("result,Result: " ++ varRef "KASTER_OFFER_RESULT"),
        plainStep "GotoIf" ("$[" ++ offerResultIs "REJECT" ++ " | " ++ offerResultIs "TIMEOUT" ++
          " | " ++ offerResultIs "ABANDONED" ++ "]?declined"),
        dialEndpoint (varRef "EXTEN"), plainStep "Hangup" "",
        labeledStep "declined" "Hangup" ""]⟩]⟩

def renderPreBridgeDispatcher (agents : List AgentDialplanAgentInput) : Section :=
  ⟨"agent-pre-bridge".toList, [⟨"s".toList, plainStep "NoOp" "Agent pre-bridge dispatcher",
    plainStep "Set" ("__KASTER_AGENT_EXT=" ++ varRef "CUT(CUT(CHANNEL(name),/,2),-,1)") ::
      agents.map (fun agent => plainStep "GotoIf" (isValue "KASTER_AGENT_EXT" agent.extension ++
        "?agent-pre-bridge-" ++ agent.extension ++ ",s,1")) ++
      [plainStep "Return" ""]⟩]⟩

/-! ## The file -/

def sharedAgentContext (allowedOutboundCallerIds : List String) : Section :=
  let allowedCallerIdText := if allowedOutboundCallerIds = [] then "none"
    else ",".intercalate allowedOutboundCallerIds
  ⟨"agent-phone".toList, [⟨"_X.".toList, plainStep "NoOp" ("Shared agent context " ++ varRef "EXTEN"),
    [plainStep "NoOp" ("Allowed caller IDs " ++ allowedCallerIdText),
      plainStep "Playback" "ss-noservice", plainStep "Hangup" ""]⟩]⟩

def fromQueueContext (recordingChannelMode : RecordingChannelMode) : Section :=
  ⟨"from-queue".toList, [⟨"_X.".toList,
    plainStep "NoOp" ("From Queue to Agent " ++ varRef "EXTEN"),
    buildRecordFileLines recordingChannelMode ++
      [dialEndpoint (varRef "EXTEN"), plainStep "Hangup" ""]⟩]⟩

def sipHeaderHook : Section :=
  ⟨"func-set-sipheaders".toList, [⟨"s".toList, plainStep "NoOp" "Outbound SIP header hook",
    [plainStep "Return" ""]⟩]⟩

def AgentDialplanInput.mode (input : AgentDialplanInput) : RecordingChannelMode :=
  normalizeRecordingChannelMode input.recordingChannelMode

def AgentDialplanInput.internalExtensions (input : AgentDialplanInput) : List String :=
  input.agents.map (·.extension)

/-- The context of the caller id rules, when there are any. -/
def AgentDialplanInput.cidContext (input : AgentDialplanInput) (agent : AgentDialplanAgentInput) :
    Option String :=
  if input.hasUsableRules then some (getAgentCidContextName agent input.hasBranchScopedRules) else none

def AgentDialplanInput.trunkDialTarget (input : AgentDialplanInput) : Option String :=
  getOutboundTrunkDialTarget input.trunks input.trunkGroups

/-- The contexts of the file. -/
def renderAgentDialplan (input : AgentDialplanInput) : Render (List Section) := do
  let cidRules ← cidRuleContexts input
  let phones ← input.agents.mapM (fun agent => renderAgentEntryContext agent
    input.allowDirectSipDial input.internalExtensions input.speedDials input.featureCodes)
  let routes ← input.agents.mapM (fun agent => renderAgentOutboundRoute agent
    input.trunkDialTarget input.defaultOutboundCallerId (input.cidContext agent) input.mode)
  pure (sharedAgentContext input.allowedOutboundCallerIds :: phones ++ routes ++
    [fromQueueContext input.mode, renderAgentOffer input.mode, sipHeaderHook,
      renderPreBridgeDispatcher input.agents] ++
    input.agents.map (fun agent => renderPreBridgeAgentBranch agent input.mode) ++ cidRules)

/-! ## Which section a context is -/

/-- The names of three families of contexts start alike. -/
def familyPrefixes : List Text :=
  ["agent-phone-".toList, "outbound-main-".toList, "outbound-cid-rules".toList]

variable {sec : Section}

theorem context_of_cidRules {name : String} {callerId : Option String}
    {rules : List OutboundCallerIdRuleInput}
    (h : renderOutboundCidRules name callerId rules = .ok (some sec)) :
    sec.context = name.toList := by
  unfold renderOutboundCidRules at h
  dsimp only at h
  split at h
  · cases pure_eq_ok.mp h
  · obtain ⟨blocks, -, h⟩ := bind_eq_ok.mp h
    obtain ⟨fallback, -, h⟩ := bind_eq_ok.mp h
    rw [← Option.some.inj (pure_eq_ok.mp h)]

theorem context_of_entry {agent : AgentDialplanAgentInput} {siteAllowDirectSipDial : Bool}
    {internalExtensions : List String} {speedDials : List AgentDialplanSpeedDialInput}
    {featureCodes : List AgentDialplanFeatureCodeInput}
    (h : renderAgentEntryContext agent siteAllowDirectSipDial internalExtensions speedDials
      featureCodes = .ok sec) : sec.context = (phoneContext agent).toList := by
  unfold renderAgentEntryContext at h
  split at h
  · rw [← pure_eq_ok.mp h]
  · obtain ⟨speed, -, h⟩ := bind_eq_ok.mp h
    obtain ⟨features, -, h⟩ := bind_eq_ok.mp h
    rw [← pure_eq_ok.mp h]

theorem context_of_route {agent : AgentDialplanAgentInput}
    {target callerId cidContext : Option String} {mode : RecordingChannelMode}
    (h : renderAgentOutboundRoute agent target callerId cidContext mode = .ok sec) :
    sec.context = (outboundContext agent).toList := by
  unfold renderAgentOutboundRoute at h
  dsimp only at h
  split at h
  · obtain ⟨-, -, h⟩ := bind_eq_ok.mp h
    obtain ⟨-, -, h⟩ := bind_eq_ok.mp h
    rw [← pure_eq_ok.mp h]
  · rw [← pure_eq_ok.mp h]

/-- The rules that a context of caller ids is rendered from. -/
structure CidSection (input : AgentDialplanInput) (sec : Section) : Prop where
  usable : input.hasUsableRules = true
  rendered : ∃ name rules, renderOutboundCidRules ("outbound-cid-rules" ++ name)
    input.defaultOutboundCallerId rules = .ok (some sec)

theorem cidSection_of_mem {input : AgentDialplanInput} {secs : List Section}
    (h : cidRuleContexts input = .ok secs) : ∀ sec ∈ secs, CidSection input sec := by
  unfold cidRuleContexts at h
  split at h
  · rename_i husable
    obtain ⟨contexts, hcontexts, h⟩ := bind_eq_ok.mp h
    rw [← pure_eq_ok.mp h]
    intro sec hsec
    obtain ⟨context, hmem, hsome⟩ := List.mem_filterMap.mp hsec
    obtain rfl : context = some sec := hsome
    refine ⟨husable, ?_⟩
    unfold outboundCidRules at hcontexts
    split at hcontexts
    · obtain ⟨agent, -, hagent⟩ := exists_of_mem_right (mapM_eq_ok.mp hcontexts) hmem
      rw [getAgentCidContextName, if_pos rfl] at hagent
      refine ⟨"-" ++ agent.extension, getAgentOutboundCidRules agent input.outboundCallerIdRules, ?_⟩
      rw [← String.append_assoc]
      exact hagent
    · obtain ⟨context, hcontext, hcontexts⟩ := bind_eq_ok.mp hcontexts
      rw [← pure_eq_ok.mp hcontexts, List.mem_singleton] at hmem
      refine ⟨"", input.outboundCallerIdRules, ?_⟩
      rw [String.append_empty, hmem]
      exact hcontext
  · rw [← pure_eq_ok.mp h]
    simp

/-- A section is the entry of a telephone, a way out, a list of caller id rules, or has a
name of its own. -/
theorem mem_renderAgentDialplan {input : AgentDialplanInput} {sections : List Section}
    (h : renderAgentDialplan input = .ok sections) (hsec : sec ∈ sections) :
    (∃ agent ∈ input.agents, sec.context = (phoneContext agent).toList ∧
      renderAgentEntryContext agent input.allowDirectSipDial input.internalExtensions
        input.speedDials input.featureCodes = .ok sec) ∨
    (∃ agent ∈ input.agents, sec.context = (outboundContext agent).toList ∧
      renderAgentOutboundRoute agent input.trunkDialTarget input.defaultOutboundCallerId
        (input.cidContext agent) input.mode = .ok sec) ∨
    CidSection input sec ∨
    ∀ p ∈ familyPrefixes, p.isPrefixOf sec.context = false := by
  obtain ⟨cidRules, hcid, h⟩ := bind_eq_ok.mp h
  obtain ⟨phones, hphones, h⟩ := bind_eq_ok.mp h
  obtain ⟨routes, hroutes, h⟩ := bind_eq_ok.mp h
  rw [← pure_eq_ok.mp h] at hsec
  have hown : ∀ {q r t : Prop}, t → q ∨ r ∨ CidSection input sec ∨ t := fun ht => .inr (.inr (.inr ht))
  simp only [List.mem_append, List.mem_cons, List.not_mem_nil, or_false, List.mem_map] at hsec
  rcases hsec with ((((rfl | hsec) | hsec) | rfl | rfl | rfl | rfl) | ⟨agent, -, rfl⟩) | hsec
  · exact hown (show ∀ p ∈ familyPrefixes, p.isPrefixOf "agent-phone".toList = false by decide)
  · obtain ⟨agent, hagent, hrender⟩ := exists_of_mem_right (mapM_eq_ok.mp hphones) hsec
    exact .inl ⟨agent, hagent, context_of_entry hrender, hrender⟩
  · obtain ⟨agent, hagent, hrender⟩ := exists_of_mem_right (mapM_eq_ok.mp hroutes) hsec
    exact .inr (.inl ⟨agent, hagent, context_of_route hrender, hrender⟩)
  · exact hown (show ∀ p ∈ familyPrefixes, p.isPrefixOf "from-queue".toList = false by decide)
  · exact hown (show ∀ p ∈ familyPrefixes, p.isPrefixOf "agent-offer".toList = false by decide)
  · exact hown (show ∀ p ∈ familyPrefixes, p.isPrefixOf "func-set-sipheaders".toList = false by decide)
  · exact hown (show ∀ p ∈ familyPrefixes, p.isPrefixOf "agent-pre-bridge".toList = false by decide)
  · refine hown (show ∀ p ∈ familyPrefixes,
      p.isPrefixOf ("agent-pre-bridge-" ++ agent.extension).toList = false from ?_)
    rw [String.toList_append]
    intro p hp
    simp only [familyPrefixes, List.mem_cons, List.not_mem_nil, or_false] at hp
    rcases hp with rfl | rfl | rfl <;> rfl
  · exact .inr (.inr (.inl (cidSection_of_mem hcid sec hsec)))

section Families
variable {input : AgentDialplanInput} {sections : List Section} {agent : AgentDialplanAgentInput}

/-- Agents with one extension are one agent. -/
theorem agent_of_extension (hextensions : (input.agents.map (·.extension)).Nodup)
    {agent' : AgentDialplanAgentInput} (hagent : agent ∈ input.agents)
    (hagent' : agent' ∈ input.agents) (h : agent'.extension = agent.extension) :
    agent' = agent :=
  List.inj_on_of_nodup_map hextensions hagent' hagent h

section Sections
variable (h : renderAgentDialplan input = .ok sections)
  (hextensions : (input.agents.map (·.extension)).Nodup) (hagent : agent ∈ input.agents)
  {sec : Section} (hsec : sec ∈ sections)
include h hextensions hagent hsec

/-- The context of a telephone is in one section. -/
theorem phoneSection_of_mem (hcontext : sec.context = (phoneContext agent).toList) :
    renderAgentEntryContext agent input.allowDirectSipDial input.internalExtensions
      input.speedDials input.featureCodes = .ok sec := by
  rcases mem_renderAgentDialplan h hsec with ⟨agent', hagent', hname, hrender⟩ |
    ⟨agent', -, hname, -⟩ | ⟨-, name, rules, hrender⟩ | hother
  · have hsame : agent'.extension = agent.extension := by
      rw [hcontext, String.toList_inj] at hname
      simpa [phoneContext] using hname.symm
    rw [agent_of_extension hextensions hagent hagent' hsame] at hrender
    exact hrender
  · rw [hcontext] at hname
    simp [phoneContext, outboundContext] at hname
  · rw [context_of_cidRules hrender] at hcontext
    simp [phoneContext] at hcontext
  · have hno := hother _ (List.mem_cons_self)
    rw [hcontext] at hno
    simp [phoneContext] at hno

/-- So is a way out. -/
theorem outboundSection_of_mem (hcontext : sec.context = (outboundContext agent).toList) :
    renderAgentOutboundRoute agent input.trunkDialTarget input.defaultOutboundCallerId
      (input.cidContext agent) input.mode = .ok sec := by
  rcases mem_renderAgentDialplan h hsec with ⟨agent', -, hname, -⟩ |
    ⟨agent', hagent', hname, hrender⟩ | ⟨-, name, rules, hrender⟩ | hother
  · rw [hcontext] at hname
    simp [phoneContext, outboundContext] at hname
  · have hsame : agent'.extension = agent.extension := by
      rw [hcontext, String.toList_inj] at hname
      simpa [outboundContext] using hname.symm
    rw [agent_of_extension hextensions hagent hagent' hsame] at hrender
    exact hrender
  · rw [context_of_cidRules hrender] at hcontext
    simp [outboundContext] at hcontext
  · have hno := hother _ (List.mem_cons_of_mem _ List.mem_cons_self)
    rw [hcontext] at hno
    simp [outboundContext] at hno

end Sections

/-- A context whose name starts like those of the caller id rules is one of them. -/
theorem cidSection_of_context (h : renderAgentDialplan input = .ok sections) {name : String}
    {sec : Section} (hsec : sec ∈ sections)
    (hcontext : sec.context = ("outbound-cid-rules" ++ name).toList) : CidSection input sec := by
  rcases mem_renderAgentDialplan h hsec with ⟨agent', -, hname, -⟩ | ⟨agent', -, hname, -⟩ |
    hrules | hother
  · rw [hcontext] at hname
    simp [phoneContext] at hname
  · rw [hcontext] at hname
    simp [outboundContext] at hname
  · exact hrules
  · have hno := hother _ (List.mem_cons_of_mem _ (List.mem_cons_of_mem _ List.mem_cons_self))
    rw [hcontext] at hno
    simp at hno

/-- Lists whose keys keep apart have no name in common. -/
theorem nodup_append_of_key {key : Text → Nat} {l m : List Text} {k : Nat} (hl : l.Nodup)
    (hm : m.Nodup) (hkey : ∀ t ∈ l, key t = k) (hkeys : ∀ t ∈ m, k < key t) : (l ++ m).Nodup := by
  refine List.nodup_append.mpr ⟨hl, hm, ?_⟩
  intro a ha b hb heq
  have hlt := hkeys b hb
  rw [← heq, hkey a ha] at hlt
  exact Nat.lt_irrefl k hlt

local instance textLawfulBEq : LawfulBEq Text := inferInstance

/-- The place of a context in the file, by its name. -/
def contextKey (context : Text) : Nat :=
  if context = "agent-phone".toList then 0
  else if "agent-phone-".toList.isPrefixOf context then 1
  else if "outbound-main-".toList.isPrefixOf context then 2
  else if context ∈ ["from-queue".toList, "agent-offer".toList, "func-set-sipheaders".toList,
    "agent-pre-bridge".toList] then 3
  else if "agent-pre-bridge-".toList.isPrefixOf context then 4
  else 5

theorem map_of_forall₂ {α β γ : Type} {R : α → β → Prop} {f : α → γ} {g : β → γ} {xs : List α}
    {ys : List β} (h : List.Forall₂ R xs ys) (hR : ∀ x y, R x y → g y = f x) :
    ys.map g = xs.map f := by
  induction h with
  | nil => rfl
  | cons hxy _ ih => rw [List.map_cons, List.map_cons, hR _ _ hxy, ih]

theorem nodup_named {lead : String} (hextensions : (input.agents.map (·.extension)).Nodup) :
    (input.agents.map (fun agent => (lead ++ agent.extension).toList)).Nodup := by
  have hmap : input.agents.map (fun agent => (lead ++ agent.extension).toList) =
      (input.agents.map (·.extension)).map (fun extension => (lead ++ extension).toList) := by
    rw [List.map_map]
    rfl
  rw [hmap]
  refine hextensions.map ?_
  intro a b hab
  simpa [← String.toList_inj] using hab

theorem cidContexts_sublist {f : AgentDialplanAgentInput → String} {agents : List AgentDialplanAgentInput}
    {contexts : List (Option Section)}
    (h : List.Forall₂ (fun agent context => ∀ sec, context = some sec →
      sec.context = (f agent).toList) agents contexts) :
    ((contexts.filterMap id).map Section.context).Sublist (agents.map (fun agent => (f agent).toList)) := by
  induction h with
  | nil => exact .slnil
  | cons hcontext _ ih =>
    rename_i agent context agents contexts _
    cases context with
    | none => exact ih.cons _
    | some sec =>
      rw [List.filterMap_cons_some (show id (some sec) = some sec from rfl), List.map_cons,
        List.map_cons, hcontext sec rfl]
      exact ih.cons_cons _

/-- The contexts of the caller id rules have names of their own. -/
theorem nodup_cidRules (hextensions : (input.agents.map (·.extension)).Nodup)
    {secs : List Section} (h : cidRuleContexts input = .ok secs) :
    (secs.map Section.context).Nodup ∧ ∀ t ∈ secs.map Section.context, contextKey t = 5 := by
  have hkey : ∀ name : String, contextKey ("outbound-cid-rules" ++ name).toList = 5 := by
    intro name
    rw [String.toList_append]
    rfl
  refine ⟨?_, ?_⟩
  · unfold cidRuleContexts at h
    split at h
    · obtain ⟨contexts, hcontexts, h⟩ := bind_eq_ok.mp h
      rw [← pure_eq_ok.mp h]
      unfold outboundCidRules at hcontexts
      split at hcontexts
      · refine List.Nodup.sublist (cidContexts_sublist
          (f := fun agent => "outbound-cid-rules-" ++ agent.extension) ?_) (nodup_named hextensions)
        refine (mapM_eq_ok.mp hcontexts).imp ?_
        rintro agent context hcontext sec rfl
        exact context_of_cidRules hcontext
      · obtain ⟨context, -, hcontexts⟩ := bind_eq_ok.mp hcontexts
        rw [← pure_eq_ok.mp hcontexts]
        cases context <;> simp
    · rw [← pure_eq_ok.mp h]
      exact List.nodup_nil
  · intro t ht
    obtain ⟨sec, hsec, rfl⟩ := List.mem_map.mp ht
    obtain ⟨-, name, rules, hrender⟩ := cidSection_of_mem h sec hsec
    rw [context_of_cidRules hrender]
    exact hkey name

/-- The contexts of the file have different names. -/
theorem nodup_contexts (h : renderAgentDialplan input = .ok sections)
    (hextensions : (input.agents.map (·.extension)).Nodup) :
    (sections.map Section.context).Nodup := by
  obtain ⟨cidRules, hcid, h⟩ := bind_eq_ok.mp h
  obtain ⟨phones, hphones, h⟩ := bind_eq_ok.mp h
  obtain ⟨routes, hroutes, h⟩ := bind_eq_ok.mp h
  have hphoneNames : phones.map Section.context =
      input.agents.map (fun agent => ("agent-phone-" ++ agent.extension).toList) :=
    map_of_forall₂ (mapM_eq_ok.mp hphones) (fun _ _ => context_of_entry)
  have hrouteNames : routes.map Section.context =
      input.agents.map (fun agent => ("outbound-main-" ++ agent.extension).toList) :=
    map_of_forall₂ (mapM_eq_ok.mp hroutes) (fun _ _ => context_of_route)
  have hkey : ∀ (lead : String) (n : Nat), (∀ name, contextKey (lead.toList ++ name) = n) →
      ∀ t ∈ input.agents.map (fun agent => (lead ++ agent.extension).toList), contextKey t = n := by
    rintro lead n hlead t ht
    obtain ⟨agent, -, rfl⟩ := List.mem_map.mp ht
    rw [String.toList_append, hlead]
  have hphoneKey := hkey "agent-phone-" 1 fun _ => rfl
  have hrouteKey := hkey "outbound-main-" 2 fun _ => rfl
  have hfixedKey : ∀ t ∈ ["from-queue".toList, "agent-offer".toList,
      "func-set-sipheaders".toList, "agent-pre-bridge".toList], contextKey t = 3 := by
    decide
  have hbranchKey := hkey "agent-pre-bridge-" 4 fun _ => rfl
  obtain ⟨hcidNodup, hcidKey⟩ := nodup_cidRules hextensions hcid
  have hcontexts : sections.map Section.context = ["agent-phone".toList] ++
      (input.agents.map (fun agent => ("agent-phone-" ++ agent.extension).toList) ++
      (input.agents.map (fun agent => ("outbound-main-" ++ agent.extension).toList) ++
      (["from-queue".toList, "agent-offer".toList, "func-set-sipheaders".toList,
        "agent-pre-bridge".toList] ++
      (input.agents.map (fun agent => ("agent-pre-bridge-" ++ agent.extension).toList) ++
        cidRules.map Section.context)))) := by
    rw [← pure_eq_ok.mp h, ← hphoneNames, ← hrouteNames]
    simp only [List.map_append, List.map_cons, List.map_map, List.append_assoc,
      List.cons_append, List.nil_append]
    rfl
  -- the keys go up from one part to the next
  have habove : ∀ {l m : List Text} {k n : Nat}, (∀ t ∈ l, contextKey t = n) → k < n →
      (∀ t ∈ m, k < contextKey t) → ∀ t ∈ l ++ m, k < contextKey t := by
    intro l m k n hl hlt hm
    refine List.forall_mem_append.mpr ⟨?_, hm⟩
    intro t ht
    rw [hl t ht]
    exact hlt
  have hcidAbove : ∀ k < 5, ∀ t ∈ cidRules.map Section.context, k < contextKey t := by
    intro k hk t ht
    rw [hcidKey t ht]
    exact hk
  rw [hcontexts]
  refine nodup_append_of_key (List.nodup_singleton _) (nodup_append_of_key (nodup_named hextensions)
    (nodup_append_of_key (nodup_named hextensions) (nodup_append_of_key (by decide)
      (nodup_append_of_key (nodup_named hextensions) hcidNodup hbranchKey (hcidAbove 4 (by decide)))
      hfixedKey ?_) hrouteKey ?_) hphoneKey ?_) (show ∀ t ∈ ["agent-phone".toList],
        contextKey t = 0 by decide) ?_
  · exact habove hbranchKey (by decide) (hcidAbove 3 (by decide))
  · exact habove hfixedKey (by decide) (habove hbranchKey (by decide) (hcidAbove 2 (by decide)))
  · exact habove hrouteKey (by decide) (habove hfixedKey (by decide)
      (habove hbranchKey (by decide) (hcidAbove 1 (by decide))))
  · exact habove hphoneKey (by decide) (habove hrouteKey (by decide) (habove hfixedKey (by decide)
      (habove hbranchKey (by decide) (hcidAbove 0 (by decide)))))

end Families

end KasterCti.Renderers
