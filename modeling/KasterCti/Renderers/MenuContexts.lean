import KasterCti.Renderers.OptOutContexts

/-!
# Menus of the dialplan

`renderIvrMenu` and the Smart ARS contexts of `dialplan.renderer.ts`. Both wait for a
digit with `WaitExten`; a Smart ARS menu counts its retries in a context of its own.
-/

namespace KasterCti.Renderers

open Dialplan Lines
open ArsFlow (plainStep labeledStep varRef given callerNumberExpression)

/-! ## IVR menus -/

/-- `if (value) assertNoNewlines(value, field)`. -/
def assertGiven (value : Option String) (field : String) : Render Unit :=
  match given value with
  | some text => assertNoNewlines text field
  | none => pure ()

def checkIvrEntry (entry : IvrEntryInput) : Render Unit := do
  assertNoNewlines entry.digit "entry.digit"
  assertNoNewlines entry.queueName "entry.queueName"

def checkIvrMenu (menu : IvrMenuInput) : Render Unit :=
  if toSlug menu.name = "" then
    throw ("IVR menu name \"" ++ menu.name ++ "\" produces an empty slug")
  else if menu.timeoutSecs ≤ 0 then
    throw ("IVR menu \"" ++ menu.name ++ "\" has invalid timeoutSecs: " ++
      toString menu.timeoutSecs)
  else do
    assertGiven menu.welcomePrompt "welcomePrompt"
    assertGiven menu.menuPrompt "menuPrompt"
    let _ ← menu.entries.mapM checkIvrEntry

/-- `key ? [App(target)] : []`. -/
def promptStep (app : String) (promptKey : Option String) : Render (List Step) :=
  match given promptKey with
  | some key => do pure [plainStep app (← toPlaybackTarget key)]
  | none => pure []

def ivrEntryBlock (entry : IvrEntryInput) : Block :=
  ⟨entry.digit.toList, plainStep "Goto" ("queue-entry," ++ entry.queueName ++ ",1"), []⟩

def ivrTimeoutBlock : Block :=
  ⟨"t".toList, plainStep "Playback" "vm-goodbye", [plainStep "Hangup" ""]⟩

def ivrContext (menu : IvrMenuInput) : String := "ivr-menu-" ++ toSlug menu.name

def renderIvrMenu (menu : IvrMenuInput) : Render Section := do
  checkIvrMenu menu
  let welcome ← promptStep "Playback" menu.welcomePrompt
  let prompt ← promptStep "Background" menu.menuPrompt
  pure ⟨(ivrContext menu).toList,
    ⟨"s".toList, plainStep "Answer" "",
      welcome ++ prompt ++ [plainStep "WaitExten" (toString menu.timeoutSecs)]⟩ ::
    menu.entries.map ivrEntryBlock ++ [ivrTimeoutBlock]⟩

/-! ## Smart ARS -/

/-- `buildSmartArsUserEvent`: `UserEvent(KasterSmartArs,Key: value,…)`. -/
def buildSmartArsUserEvent (fields : List (String × String)) : Step :=
  plainStep "UserEvent" ("KasterSmartArs," ++
    ",".intercalate (fields.map (fun field => field.1 ++ ": " ++ field.2)))

/-- The fields that every event ends with. -/
def callFields : List (String × String) :=
  [("TenantId", varRef "SMART_ARS_TENANT_ID"), ("BranchId", varRef "SMART_ARS_BRANCH_ID"),
    ("EntryDid", varRef "ENTRY_DID"), ("Caller", callerNumberExpression),
    ("Linkedid", varRef "CHANNEL(linkedid)")]

def smartArsEvent (fields : List (String × String)) : Step :=
  buildSmartArsUserEvent (fields ++ callFields)

/-- `buildSmartArsHookCommand` of the dialplan renderer: the number is the caller's. -/
def smartArsHookCommand (action : String) : String :=
  ArsFlow.buildSmartArsHookCommand action callerNumberExpression

def buildSmartArsContextSuffix (did : DidInput) : String := buildOptOutContextSuffix did

def smartArsMain (contextSuffix : String) : String := "smart-ars-" ++ contextSuffix
def smartArsRetry (contextSuffix : String) : String := "smart-ars-retry-" ++ contextSuffix
def smartArsFailure (contextSuffix : String) : String := "smart-ars-failure-" ++ contextSuffix

/-- The steps behind a hook of a Smart ARS action. -/
def smartArsHookLines (action : SmartArsActionInput) (hook : String)
    (target : List (String × String)) (contextSuffix : String) : List Step :=
  let fields (stage result : String) := [("Stage", stage), ("Digit", action.digit),
    ("Action", action.actionType.text)] ++ target ++ [("Result", result)]
  [smartArsEvent (fields "action" "started"),
    plainStep "System" (smartArsHookCommand hook),
    smartArsEvent (fields "result" (varRef "SYSTEMSTATUS")),
    plainStep "GotoIf" ("$[\"" ++ varRef "SYSTEMSTATUS" ++ "\"!=\"SUCCESS\"]?" ++
      smartArsFailure contextSuffix ++ ",s,1"),
    plainStep "Hangup" ""]

/-- The jump of a route or a transfer, behind its event. -/
def smartArsJumpLines (action : SmartArsActionInput) (target result context : String) :
    List Step :=
  [smartArsEvent [("Stage", "action"), ("Digit", action.digit),
      ("Action", action.actionType.text), ("Target", target), ("Result", result)],
    plainStep "Goto" (context ++ "," ++ target ++ ",1")]

/-- What the action does, nothing when its target is missing. -/
def smartArsActionLines (action : SmartArsActionInput) (contextSuffix : String) :
    Render (Option (List Step)) :=
  match action.actionType with
  | .queueRoute =>
    match given action.queueName with
    | none => pure none
    | some queueName => do
      assertNoNewlines queueName "smartArs.action.queueName"
      pure (some (smartArsJumpLines action queueName "routed" "queue-entry"))
  | .transfer =>
    match given action.transferNumber with
    | none => pure none
    | some transferNumber => do
      assertNoNewlines transferNumber "smartArs.action.transferNumber"
      pure (some (smartArsJumpLines action transferNumber "transfer" "transfer-target"))
  | .sendSms =>
    match given action.smsTemplateId with
    | none => pure none
    | some smsTemplateId => do
      assertNoNewlines smsTemplateId "smartArs.action.smsTemplateId"
      pure (some (setVar "SMART_ARS_SELECTED_SMS_TEMPLATE" smsTemplateId ::
        smartArsHookLines action "sms" [("Target", smsTemplateId)] contextSuffix))
  | .optOut =>
    pure (some (setVar "SMART_ARS_SELECTED_SMS_TEMPLATE" "-" ::
      smartArsHookLines action "opt-out" [] contextSuffix))
  | .playPrompt =>
    match given action.promptKey with
    | none => pure none
    | some promptKey => do
      assertNoNewlines promptKey "smartArs.action.promptKey"
      let target ← toPlaybackTarget promptKey
      let event (stage result : String) := smartArsEvent [("Stage", stage),
        ("Digit", action.digit), ("Action", "PLAY_PROMPT"), ("Target", target), ("Result", result)]
      pure (some [event "action" "started", plainStep "Playback" target, event "result" "played",
        plainStep "Hangup" ""])

def renderSmartArsAction (action : SmartArsActionInput) (contextSuffix : String) :
    Render (Option Block) := do
  assertNoNewlines action.digit "smartArs.action.digit"
  assertNoNewlines action.actionType.text "smartArs.action.actionType"
  match ← smartArsActionLines action contextSuffix with
  | none => pure none
  | some lines =>
    pure (some ⟨action.digit.toList,
      plainStep "NoOp" ("Smart ARS digit " ++ action.digit ++ " action " ++ action.actionType.text),
      smartArsEvent [("Stage", "selection"), ("Digit", action.digit),
        ("Action", action.actionType.text), ("Result", "selected")] :: lines⟩)

/-- The event that a prompt starts, and the prompt. -/
def announced (app target : String) : List Step :=
  [smartArsEvent [("Stage", "prompt"), ("Prompt", target), ("Result", "started")],
    plainStep app target]

def smartArsStart (guidePrompt : List Step) : Block :=
  ⟨"s".toList, plainStep "Answer" "",
    [plainStep "Set" "CHANNEL(language)=",
      plainStep "Set" "__SMART_ARS_RETRY_COUNT=0",
      labeledStep "loop" "NoOp" ("Smart ARS wait / DID=" ++ varRef "ENTRY_DID" ++ " / retry=" ++
        varRef "SMART_ARS_RETRY_COUNT")] ++
    guidePrompt ++ [plainStep "WaitExten" (varRef "SMART_ARS_TIMEOUT")]⟩

def smartArsTimeout (contextSuffix : String) : Block :=
  ⟨"t".toList, plainStep "NoOp" "Smart ARS timeout",
    [smartArsEvent [("Stage", "selection"), ("Digit", "timeout"), ("Result", "timeout")],
      plainStep "Goto" (smartArsRetry contextSuffix ++ ",s,1")]⟩

def smartArsInvalid (contextSuffix : String) (invalidPrompt : List Step) : Block :=
  ⟨"i".toList, plainStep "NoOp" "Smart ARS invalid digit",
    invalidPrompt ++ [plainStep "Goto" (smartArsRetry contextSuffix ++ ",s,1")]⟩

def smartArsRetrySection (contextSuffix : String) : Section where
  context := (smartArsRetry contextSuffix).toList
  blocks := [⟨"s".toList, countUp "SMART_ARS_RETRY_COUNT",
    [retryWhile "SMART_ARS_RETRY_COUNT" "SMART_ARS_MAX_RETRIES"
        (smartArsMain contextSuffix ++ ",s,loop"),
      plainStep "Goto" (smartArsFailure contextSuffix ++ ",s,1")]⟩]

def smartArsFailureSection (contextSuffix failPrompt : String) : Section where
  context := (smartArsFailure contextSuffix).toList
  blocks := [⟨"s".toList, plainStep "NoOp" ("Smart ARS failure / DID=" ++ varRef "ENTRY_DID"),
    smartArsEvent [("Stage", "result"), ("Result", "failure")] :: announced "Playback" failPrompt ++
      [plainStep "Hangup" ""]⟩]

/-- The Smart ARS menu of a DID when it is switched on and has actions. -/
def DidInput.smartArs? (did : DidInput) : Option BranchSmartArsInput :=
  did.branchSmartArs.filter (fun smartArs => smartArs.enabled && !smartArs.actions.isEmpty)

/-- A prompt behind its event, nothing for a key that is not given. -/
def announcedPrompt (app : String) (promptKey : Option String) : Render (List Step) :=
  match given promptKey with
  | some key => do pure (announced app (← toPlaybackTarget key))
  | none => pure []

/-- `key ? toPlaybackTarget(key) : 'ss-noservice'`. -/
def failPromptTarget (promptKey : Option String) : Render String :=
  match given promptKey with
  | some key => toPlaybackTarget key
  | none => pure "ss-noservice"

/-- The event that names an invalid digit comes only with its prompt. -/
def invalidLines (prompt : List Step) : List Step :=
  if prompt = [] then []
  else smartArsEvent [("Stage", "selection"), ("Digit", "invalid"), ("Result", "invalid")] :: prompt

/-- The contexts of a Smart ARS menu, none when no action has a target. -/
def smartArsSections (smartArs : BranchSmartArsInput) (contextSuffix : String) :
    Render (List Section) := do
  let guide ← announcedPrompt "Background" smartArs.guidePromptKey
  let invalid ← announcedPrompt "Playback" smartArs.invalidPromptKey
  let failPrompt ← failPromptTarget smartArs.failPromptKey
  let actions ← smartArs.actions.mapM (fun action => renderSmartArsAction action contextSuffix)
  if actions.reduceOption = [] then pure []
  else
    pure [⟨(smartArsMain contextSuffix).toList,
        [smartArsStart guide, smartArsTimeout contextSuffix,
          smartArsInvalid contextSuffix (invalidLines invalid)] ++ actions.reduceOption⟩,
      smartArsRetrySection contextSuffix, smartArsFailureSection contextSuffix failPrompt]

def renderSmartArsContext (did : DidInput) : Render (List Section) :=
  match did.smartArs? with
  | none => pure []
  | some smartArs => smartArsSections smartArs (buildSmartArsContextSuffix did)

/-- The variables that a Smart ARS menu reads. -/
def renderSmartArsVariableLines (did : DidInput) : List Step :=
  match did.smartArs? with
  | none => []
  | some smartArs =>
    [setVar "SMART_ARS_CONTEXT_SUFFIX" (buildSmartArsContextSuffix did),
      setVar "SMART_ARS_TENANT_ID" (normalizeOptionalArg (some smartArs.tenantId)),
      setVar "SMART_ARS_BRANCH_ID" (normalizeOptionalArg smartArs.branchId),
      setVar "SMART_ARS_TIMEOUT" (toString (max 1 smartArs.timeoutSeconds)),
      setVar "SMART_ARS_MAX_RETRIES" (toString (max 0 smartArs.maxRetries))]

end KasterCti.Renderers
