import KasterCti.Library.Json
import KasterCti.Renderers.MenuContexts

/-!
# The routes of the DIDs

`dialplan.renderer.ts`: every enabled DID becomes an extension of `inbound-main`, by way
of its ARS flow, its opt-out, its Smart ARS menu or its forwarding rule and fallback. A
forwarding rule has a context of its own.
-/

namespace KasterCti.Renderers

open Dialplan Lines
open ArsFlow (plainStep labeledStep varRef given FlowGraph flowSlug)

/-! ## Callers on the blocklist -/

/-- `value.length`, in units of UTF-16. -/
def utf16Length (value : String) : Nat :=
  (value.toList.map (fun c => if 0xFFFF < c.toNat then 2 else 1)).sum

def renderBlocklistCheck (entry : BlocklistEntryInput) : Render Step := do
  assertNoNewlines entry.phoneNumber "blocklist.phoneNumber"
  if entry.matchType = "PREFIX" then
    pure (plainStep "GotoIf" (isValue ("CALLERID(num):0:" ++
      toString (utf16Length entry.phoneNumber)) entry.phoneNumber ++ "?blocked-ani,s,1"))
  else
    pure (plainStep "GotoIf" (isValue "CALLERID(num)" entry.phoneNumber ++ "?blocked-ani,s,1"))

def renderBlocklistChecks (entries : List BlocklistEntryInput) : Render (List Step) :=
  (entries.filter (·.isActive)).mapM renderBlocklistCheck

/-! ## Prompts before the queue -/

def trimmedKeys (promptKeys : List String) : List String :=
  (promptKeys.map JsText.trim).filter (· ≠ "")

def renderPromptPlaybackLines (promptKeys : List String) : Render (List Step) :=
  if promptKeys = [] then pure []
  else do
    let plays ← (trimmedKeys promptKeys).mapM (fun key => do
      pure (plainStep "Playback" (← toPlaybackTarget key)))
    pure ([plainStep "Answer" "", plainStep "Set" "CHANNEL(language)="] ++ plays)

/-- `[a-z0-9_-]`. -/
def isClassChar (c : Char) : Bool := isSlugChar c || c = '_' || c = '-'

/-- Runs of other characters become one dash each; `inRun` says that the run being
read has its dash already. -/
def dashOthers (inRun : Bool) : List Char → List Char
  | [] => []
  | c :: cs =>
    if isClassChar c then c :: dashOthers false cs
    else if inRun then dashOthers true cs
    else '-' :: dashOthers true cs

/-- Runs of dashes become one dash; `inRun` says that the last character was one. -/
def squeezeDashes (inRun : Bool) : List Char → List Char
  | [] => []
  | c :: cs =>
    if c = '-' then (if inRun then squeezeDashes true cs else c :: squeezeDashes true cs)
    else c :: squeezeDashes false cs

def withoutCustom (promptKey : String) : String :=
  match JsText.afterPrefix? "custom/".toList promptKey.toList with
  | some rest => String.ofList rest
  | none => promptKey

def buildPromptMohClassName (promptKey : String) : String :=
  let dashed := dashOthers false (JsText.toLowerCase (withoutCustom promptKey)).toList
  let normalized := (dropDash (dropDash (squeezeDashes false dashed)).reverse).reverse
  "branch-prompt-" ++ (if normalized = [] then "default" else String.ofList normalized)

/-- The first prompt of the DID, played while the call waits in the queue. -/
def queuePromptKey (did : DidInput) : Option String :=
  if did.branchPromptWaitForCompletion then none
  else (did.branchPromptKeys.head?.map JsText.trim).filter (· ≠ "")

def prestartLines (delaySeconds : Int) : List Step :=
  if delaySeconds > 0 then
    [setVar "QUEUE_PROMPT_PRESTARTED" "1",
      plainStep "Set" ("CHANNEL(musicclass)=" ++ varRef "QUEUE_PROMPT_MOH_CLASS"),
      plainStep "StartMusicOnHold" (varRef "QUEUE_PROMPT_MOH_CLASS"),
      plainStep "Wait" (toString delaySeconds)]
  else []

def renderPromptQueuePreludeLines (did : DidInput) : List Step :=
  match queuePromptKey did with
  | none => []
  | some promptKey =>
    [plainStep "Answer" "", plainStep "Set" "CHANNEL(language)=",
      setVar "QUEUE_PROMPT_MOH_CLASS" (buildPromptMohClassName promptKey),
      setVar "QUEUE_PROMPT_KEEP_IN_QUEUE" "1"] ++
    prestartLines (max 0 (did.branchPromptQueueDelaySeconds.getD 0))

def renderPromptQueueDelayLines (delaySeconds : Option Int) : List Step :=
  if delaySeconds.getD 0 ≤ 0 then []
  else [plainStep "Wait" (toString (delaySeconds.getD 0))]

/-- The prompts of a DID, in the order of its route. -/
def promptLines (did : DidInput) : Render (List Step) := do
  let plays ← if did.branchPromptWaitForCompletion then
      renderPromptPlaybackLines did.branchPromptKeys
    else pure []
  let delay := if did.branchPromptWaitForCompletion then
      renderPromptQueueDelayLines did.branchPromptQueueDelaySeconds
    else []
  let prelude := if (given did.directQueue).isSome then renderPromptQueuePreludeLines did else []
  pure (prelude ++ plays ++ delay)

/-! ## Schedules -/

inductive ForwardingSchedule
  | always
  | timeRange (timeStart timeEnd : String) (daysOfWeek : List String)
deriving DecidableEq

def jsonItems : JsonItems → List Json
  | .nil => []
  | .cons item rest => item :: jsonItems rest

/-- The last member of a name. -/
def jsonMember (name : String) : JsonMembers → Option Json
  | .nil => none
  | .cons key value rest =>
    match jsonMember name rest with
    | some later => some later
    | none => if key = name then some value else none

def jsonText : Option Json → Option String
  | some (.string s) => some s
  | _ => none

def jsonTexts : Option Json → List String
  | some (.array items) => (jsonItems items).filterMap (fun item => jsonText (some item))
  | _ => []

/-- One item of the list: `none` when reading it throws, else the schedule unless it is
filtered out. The list is written from a checked request, so the fields have their
declared types; one of another type is read as absent. -/
def scheduleOf : Json → Option (Option ForwardingSchedule)
  | .null => none
  | .object members =>
    if jsonText (jsonMember "conditionType" members) = some "TIME_RANGE" then
      let days := jsonTexts (jsonMember "daysOfWeek" members)
      match given (jsonText (jsonMember "timeStart" members)),
        given (jsonText (jsonMember "timeEnd" members)) with
      | some timeStart, some timeEnd =>
        some (if days = [] then none else some (.timeRange timeStart timeEnd days))
      | _, _ => some none
    else some (some .always)
  | _ => some (some .always)

/-- The schedules of the JSON text, when it is an array that can be read. -/
def jsonSchedules (scheduleJson : String) : Option (List ForwardingSchedule) :=
  match Json.parse scheduleJson.toList with
  | some (.array items) => ((jsonItems items).mapM scheduleOf).map List.reduceOption
  | _ => none

def splitComma (text : String) : List String :=
  (text.toList.splitOnP (· = ',')).map String.ofList

def legacyDays (daysOfWeek : String) : List String :=
  ((splitComma daysOfWeek).map (fun day => JsText.toLowerCase (JsText.trim day))).filter (· ≠ "")

def legacySchedules (rule : ForwardingRuleInput) : List ForwardingSchedule :=
  match given rule.timeStart, given rule.timeEnd, given rule.daysOfWeek with
  | some timeStart, some timeEnd, some daysOfWeek =>
    if rule.conditionType = "TIME_RANGE" then
      [.timeRange timeStart timeEnd (legacyDays daysOfWeek)]
    else [.always]
  | _, _, _ => [.always]

def parseForwardingSchedules (rule : ForwardingRuleInput) : List ForwardingSchedule :=
  ((given rule.scheduleJson).bind jsonSchedules).getD (legacySchedules rule)

def weekdayChain : List String := ["mon", "tue", "wed", "thu", "fri", "sat", "sun"]

def nextWeekday (day : String) : String :=
  if day ∈ weekdayChain then
    weekdayChain.getD ((weekdayChain.idxOf day + 1) % weekdayChain.length) day
  else day

structure TimeWindowSlot where
  range : String
  day : String

def expandTimeWindow (timeStart timeEnd day : String) : List TimeWindowSlot :=
  if timeStart < timeEnd then [⟨timeStart ++ "-" ++ timeEnd, day⟩]
  else [⟨timeStart ++ "-23:59", day⟩, ⟨"00:00-" ++ timeEnd, nextWeekday day⟩]

def scheduleSlots : ForwardingSchedule → List TimeWindowSlot
  | .always => []
  | .timeRange timeStart timeEnd daysOfWeek =>
    daysOfWeek.flatMap (expandTimeWindow timeStart timeEnd)

/-! ## Forwarding -/

def forwardingContext (rule : ForwardingRuleInput) : String := "forwarding-rule-" ++ rule.id

def windowLine (rule : ForwardingRuleInput) (slot : TimeWindowSlot) : Step :=
  plainStep "GotoIfTime" (slot.range ++ "," ++ slot.day ++ ",*,*?" ++ forwardingContext rule ++
    ",s,1")

/-- `$["${STRFTIME(${EPOCH},,format)}"="value"]`. -/
def dateIs (format value : String) : String :=
  isValue ("STRFTIME(" ++ varRef "EPOCH" ++ ",," ++ format ++ ")") value

def buildHolidayMatchExpression (rule : HolidayRuleInput) : Render (Option String) :=
  match given rule.monthDay, given rule.holidayDate with
  | some monthDay, holidayDate =>
    if rule.ruleType = "ANNUAL" then do
      assertNoNewlines monthDay "holiday.monthDay"
      pure (some (dateIs "%m-%d" monthDay))
    else dateMatch holidayDate
  | none, holidayDate => dateMatch holidayDate
where
  dateMatch (holidayDate : Option String) : Render (Option String) :=
    match holidayDate with
    | some date =>
      if rule.ruleType = "DATE" || rule.ruleType = "WORKDAY_OVERRIDE" then do
        assertNoNewlines date "holiday.holidayDate"
        pure (some (dateIs "%Y-%m-%d" date))
      else pure none
    | none => pure none

def orderedHolidayRulesForDid (did : DidInput) (rules : List HolidayRuleInput) :
    List HolidayRuleInput :=
  let activeRules := rules.filter (·.isActive)
  let branchRules := match given did.branchId with
    | some branchId => activeRules.filter (fun rule : HolidayRuleInput => rule.branchId = some branchId)
    | none => []
  let tenantRules := activeRules.filter (fun rule => (given rule.branchId).isNone)
  branchRules.filter (fun rule => rule.ruleType = "WORKDAY_OVERRIDE") ++
    branchRules.filter (fun rule => rule.ruleType ≠ "WORKDAY_OVERRIDE") ++
    tenantRules.filter (fun rule => rule.ruleType = "WORKDAY_OVERRIDE") ++
    tenantRules.filter (fun rule => rule.ruleType ≠ "WORKDAY_OVERRIDE")

def workdayLabel (did : DidInput) : String := "holiday-workday-" ++ contextSuffix did.id

def holidayLine (did : DidInput) (rule : ForwardingRuleInput) (holiday : HolidayRuleInput) :
    Render (Option Step) := do
  match ← buildHolidayMatchExpression holiday with
  | none => pure none
  | some expression =>
    if holiday.ruleType = "WORKDAY_OVERRIDE" then
      pure (some (plainStep "GotoIf" (expression ++ "?" ++ workdayLabel did)))
    else
      pure (some (plainStep "GotoIf" (expression ++ "?" ++ forwardingContext rule ++ ",s,1")))

def renderHolidayForwardingLines (did : DidInput) (rule : ForwardingRuleInput)
    (holidayRules : List HolidayRuleInput) : Render (List Step) := do
  let lines ← (orderedHolidayRulesForDid did holidayRules).mapM (holidayLine did rule)
  pure (if lines.reduceOption = [] then []
    else lines.reduceOption ++
      [labeledStep (workdayLabel did) "NoOp" "Holiday routing checks complete"])

/-- The check for a target that the caller was forwarded to a short while ago. -/
def stickyLines (minutes : Int) : List Step :=
  [setVar "FORWARD_STICKY_KEY" ("forward-sticky/" ++ varRef "ENTRY_DID" ++ "/" ++
      varRef "CALLERID(num)"),
    setVar "FORWARD_STICKY_WINDOW_SECS" (toString (minutes * 60)),
    setVar "FORWARD_STICKY_RECORD" (varRef ("DB(" ++ varRef "FORWARD_STICKY_KEY" ++ ")")),
    plainStep "GotoIf" (isEmptyVar "FORWARD_STICKY_RECORD" ++ "?trigger-route"),
    setVar "FORWARD_STICKY_TS" (varRef "CUT(FORWARD_STICKY_RECORD,|,1)"),
    setVar "FORWARD_STICKY_TARGET" (varRef "CUT(FORWARD_STICKY_RECORD,|,2)"),
    setVar "FORWARD_STICKY_TYPE" (varRef "CUT(FORWARD_STICKY_RECORD,|,3)"),
    plainStep "GotoIf" (isEmptyVar "FORWARD_STICKY_TS" ++ "?trigger-route"),
    plainStep "GotoIf" (isEmptyVar "FORWARD_STICKY_TARGET" ++ "?trigger-route"),
    plainStep "GotoIf" ("$[" ++ varRef ("MATH(" ++ varRef "EPOCH" ++ "-" ++
      varRef "FORWARD_STICKY_TS" ++ ",int)") ++ " <= " ++ varRef "FORWARD_STICKY_WINDOW_SECS" ++
      "]?sticky-hit"),
    labeledStep "trigger-route" "NoOp" "No sticky forward hit",
    plainStep "Goto" "trigger-route-continue",
    labeledStep "sticky-hit" "Set" ("__FORWARD_TARGET=" ++ varRef "FORWARD_STICKY_TARGET"),
    plainStep "ExecIf" ("$[\"" ++ lenRef "FORWARD_STICKY_TYPE" ++
      "\"!=\"0\"]?Set(__FORWARD_TYPE=" ++ varRef "FORWARD_STICKY_TYPE" ++ ")"),
    plainStep "Goto" "forward-dispatch,s,1",
    labeledStep "trigger-route-continue" "NoOp" "Continue with trigger mode"]

def triggerMode (rule : ForwardingRuleInput) : String :=
  rule.forwardTriggerMode.getD "IMMEDIATE"

/-- The end of the rule's context, nothing when the mode needs a queue that the DID does
not have. -/
def triggerLines (did : DidInput) (rule : ForwardingRuleInput) : Option (List Step) :=
  if triggerMode rule = "AFTER_QUEUE_WAIT" then
    (given did.directQueue).map (fun queue =>
      [setVar "FORWARD_AFTER_QUEUE_ENABLED" "1",
        setVar "QUEUE_TIMEOUT_SECS"
          (toString (rule.queueWaitSeconds.getD defaultQueueTimeoutSeconds)),
        plainStep "Goto" ("queue-entry," ++ queue ++ ",1")])
  else if triggerMode rule = "SMART_NO_READY" then
    (given did.directQueue).map (fun queue =>
      [setVar "SMART_FORWARD_ENABLED" "1", plainStep "Goto" ("queue-entry," ++ queue ++ ",1")])
  else some [plainStep "Goto" "forward-dispatch,s,1"]

def stickyMinutes (rule : ForwardingRuleInput) : Int := rule.stickyCallbackWindowMinutes.getD 0

def stickyOrTrigger (rule : ForwardingRuleInput) : List Step :=
  if stickyMinutes rule > 0 then stickyLines (stickyMinutes rule)
  else [labeledStep "trigger-route" "NoOp" "Trigger mode without sticky override"]

def renderForwardingRuleContext (did : DidInput) (rule : ForwardingRuleInput) : Option Section :=
  (triggerLines did rule).map (fun trigger =>
    ⟨(forwardingContext rule).toList, [⟨"s".toList,
      plainStep "NoOp" ("Forwarding Rule " ++ rule.id ++ " / DID " ++ did.did ++ " / trigger=" ++
        triggerMode rule),
      [setVar "FORWARD_TYPE" rule.forwardType, setVar "FORWARD_TARGET" rule.targetValue] ++
        stickyOrTrigger rule ++ trigger⟩]⟩)

/-! ## Routes -/

/-- Where the DID goes without a rule: its menu, its queue or its extension. -/
def renderDidFallbackRoute (did : DidInput) (ivrMenus : List IvrMenuInput) :
    Render (Option (List Step)) :=
  match given did.ivrMenuId, given did.directQueue, given did.directExtension with
  | some ivrMenuId, _, _ =>
    match ivrMenus.find? (fun menu => menu.id = ivrMenuId) with
    | none => pure none
    | some menu =>
      if toSlug menu.name = "" then
        throw ("IVR menu name \"" ++ menu.name ++ "\" produces an empty slug")
      else pure (some [plainStep "Goto" (ivrContext menu ++ ",s,1")])
  | none, some queue, _ => do
    assertNoNewlines queue "directQueue"
    pure (some [plainStep "Goto" ("queue-entry," ++ queue ++ ",1")])
  | none, none, some extension => do
    assertNoNewlines extension "directExtension"
    pure (some [plainStep "NoOp" ("Direct DID to extension " ++ extension),
      plainStep "Dial" ("PJSIP/" ++ extension ++ ",20,tTU(agent-pre-bridge)"),
      plainStep "Hangup" ""])
  | none, none, none => pure none

/-- The extension of a DID: its first line, the DID kept in a variable, the blocklist, and
the rest of the route. -/
def didBlock (did : DidInput) (noop : String) (blocklistLines rest : List Step) : Block :=
  ⟨did.did.toList, plainStep "NoOp" ("Inbound DID " ++ varRef "EXTEN" ++ noop),
    setVar "ENTRY_DID" (varRef "EXTEN") :: blocklistLines ++ rest⟩

def renderDidOptOutRoute (did : DidInput) (blocklistEntries : List BlocklistEntryInput) :
    Render Block := do
  let blocklistLines ← renderBlocklistChecks blocklistEntries
  let optOutLines ← renderOptOutVariableLines did
  pure (didBlock did " -> 080 opt-out" blocklistLines
    (optOutLines ++ [plainStep "Goto" ("080-optout-entry," ++ varRef "EXTEN" ++ ",1")]))

/-- `arsFlowContextSlug`: the compiler's rule for the name of a flow's context. -/
def arsFlowContextSlug (graph : FlowGraph) : Render String :=
  if flowSlug graph = "" then throw "ARS flow has no usable name or id for a context slug"
  else pure (flowSlug graph)

def renderDidArsFlowRoute (did : DidInput) (flow : ArsFlowRouteInput)
    (blocklistEntries : List BlocklistEntryInput) : Render Block := do
  let slug ← arsFlowContextSlug flow.graph
  let blocklistLines ← renderBlocklistChecks blocklistEntries
  pure (didBlock did " -> ARS flow" blocklistLines
    [plainStep "Goto" ("ars-flow-" ++ slug ++ ",s,1")])

def renderDidSmartArsRoute (did : DidInput) (blocklistEntries : List BlocklistEntryInput) :
    Render Block := do
  let blocklistLines ← renderBlocklistChecks blocklistEntries
  pure (didBlock did " -> Smart ARS" blocklistLines
    (renderSmartArsVariableLines did ++
      [plainStep "Goto" (smartArsMain (buildSmartArsContextSuffix did) ++ ",s,1")]))

/-- The first enabled rule of the DID. -/
def ruleFor (rules : List ForwardingRuleInput) (did : DidInput) : Option ForwardingRuleInput :=
  rules.find? (fun rule => rule.didId = did.id && rule.enabled)

/-- The route of a DID whose rule applies at all times. -/
def alwaysRoute (did : DidInput) (rule : ForwardingRuleInput) (blocklistLines prompts
    holidayLines : List Step) : Option Block :=
  (renderForwardingRuleContext did rule).map (fun _ =>
    didBlock did (" -> forward " ++ JsText.toLowerCase rule.forwardType ++ " " ++ rule.targetValue)
      blocklistLines (prompts ++ holidayLines ++
        [plainStep "Goto" (forwardingContext rule ++ ",s,1")]))

/-- The route of a DID whose rule has time windows. -/
def windowRoute (did : DidInput) (rule : ForwardingRuleInput) (schedules : List ForwardingSchedule)
    (blocklistLines prompts holidayLines fallbackLines : List Step) : Block :=
  didBlock did (" -> conditional forward " ++ rule.targetValue) blocklistLines
    (prompts ++ holidayLines ++
      (schedules.flatMap scheduleSlots).map (windowLine rule) ++ fallbackLines)

/-- The route of a DID without a rule, or whose rule has nothing to apply. -/
def plainRoute (did : DidInput) (ivrMenus : List IvrMenuInput) (blocklistLines prompts : List Step) :
    Render (Option Block) := do
  let fallback ← renderDidFallbackRoute did ivrMenus
  pure (fallback.map (fun lines => didBlock did "" blocklistLines (prompts ++ lines)))

def ruleRoute (did : DidInput) (rule : ForwardingRuleInput) (ivrMenus : List IvrMenuInput)
    (blocklistLines prompts holidayLines : List Step) : Render (Option Block) :=
  let schedules := parseForwardingSchedules rule
  if .always ∈ schedules then pure (alwaysRoute did rule blocklistLines prompts holidayLines)
  else do
    match ← renderDidFallbackRoute did ivrMenus with
    | some fallbackLines =>
      if schedules = [] then plainRoute did ivrMenus blocklistLines prompts
      else pure (some (windowRoute did rule schedules blocklistLines prompts holidayLines
        fallbackLines))
    | none => plainRoute did ivrMenus blocklistLines prompts

def renderDidStandardRoute (did : DidInput) (ivrMenus : List IvrMenuInput)
    (forwardingRules : List ForwardingRuleInput) (blocklistEntries : List BlocklistEntryInput)
    (holidayRules : List HolidayRuleInput) : Render (Option Block) := do
  let blocklistLines ← renderBlocklistChecks blocklistEntries
  let prompts ← promptLines did
  match ruleFor forwardingRules did with
  | some rule => do
    let holidayLines ← renderHolidayForwardingLines did rule holidayRules
    ruleRoute did rule ivrMenus blocklistLines prompts holidayLines
  | none => plainRoute did ivrMenus blocklistLines prompts

def renderDidExtension (did : DidInput) (ivrMenus : List IvrMenuInput)
    (forwardingRules : List ForwardingRuleInput) (blocklistEntries : List BlocklistEntryInput)
    (holidayRules : List HolidayRuleInput) : Render (Option Block) := do
  assertNoNewlines did.did "did"
  match did.arsFlow, did.optOut?, did.smartArs? with
  | some flow, _, _ => some <$> renderDidArsFlowRoute did flow blocklistEntries
  | none, some _, _ => some <$> renderDidOptOutRoute did blocklistEntries
  | none, none, some _ => some <$> renderDidSmartArsRoute did blocklistEntries
  | none, none, none =>
    renderDidStandardRoute did ivrMenus forwardingRules blocklistEntries holidayRules

end KasterCti.Renderers
