import KasterCti.Renderers.QueueContexts

/-!
# The 080 opt-out contexts of the dialplan

`renderOptOutContexts` of `dialplan.renderer.ts`. The contexts are the same for every
DID: what a DID configures travels in channel variables, which `renderOptOutVariableLines`
sets before the call enters them.
-/

namespace KasterCti.Renderers

open Dialplan Lines
open ArsFlow (plainStep labeledStep varRef given buildOptOutHookCommand)

def optOutGuardedDigitAgiPath : String := customSoundAbsolutePrefix ++ "kaster-guarded-digit.agi"
def optOutFailedPrompt : String := customSoundAbsolutePrefix ++ "optout_failed"

/-- `"${name}"!="-" & "${LEN(${name})}"!="0"`. -/
def promptIsSet (name : String) : String :=
  "\"" ++ varRef name ++ "\"!=\"-\" & \"" ++ lenRef name ++ "\"!=\"0\""

/-- The arguments of `ExecIf($[… & …]?Playback(${name}))`. -/
def playIf (guard name : String) : String :=
  "$[" ++ guard ++ promptIsSet name ++ "]?Playback(" ++ varRef name ++ ")"

def playIfSet (name : String) : Step := plainStep "ExecIf" (playIf "" name)

/-- `Set(__counter=$[${counter}+1])`. -/
def countUp (counter : String) : Step :=
  plainStep "Set" ("__" ++ counter ++ "=$[" ++ varRef counter ++ "+1]")

/-- `GotoIf($[${counter}<=${limit}]?dest)`. -/
def retryWhile (counter limit dest : String) : Step :=
  plainStep "GotoIf" ("$[" ++ varRef counter ++ "<=" ++ varRef limit ++ "]?" ++ dest)

def optOutEntry : Section where
  context := "080-optout-entry".toList
  blocks := [⟨"_X.".toList, plainStep "NoOp" ("080 Opt-Out Entry " ++ varRef "EXTEN"),
    [plainStep "Set" ("__ENTRY_DID=" ++ varRef "EXTEN"),
      plainStep "Answer" "",
      plainStep "Set" "CHANNEL(language)=",
      plainStep "Set" ("__REQUESTER_PHONE=" ++
        varRef ("FILTER(0-9," ++ varRef "CALLERID(num)" ++ ")")),
      plainStep "GotoIf" (isValue "OPT_OUT_MODE" "IMMEDIATE_OPT_OUT" ++ "?immediate"),
      plainStep "GotoIf" (isValue "OPT_OUT_MODE" "DTMF_MENU" ++ "?080-optout-dtmf,s,1"),
      plainStep "Goto" "080-optout-smart-input,s,1",
      labeledStep "immediate" "ExecIf" (playIf "" "OPT_OUT_BASE_PROMPT"),
      plainStep "Set" ("__OPT_OUT_TARGET_PHONE=" ++ varRef "REQUESTER_PHONE"),
      plainStep "Set" "__OPT_OUT_SELECTED_ACTION=REGISTER_OPT_OUT",
      plainStep "Set" ("__OPT_OUT_SELECTED_SMS_TEMPLATE=" ++ varRef "OPT_OUT_SMS_TEMPLATE"),
      plainStep "Goto" "080-optout-action,s,1"]⟩]

def optOutDtmf : Section where
  context := "080-optout-dtmf".toList
  blocks :=
    [⟨"s".toList, plainStep "NoOp" ("080 Opt-Out DTMF / DID=" ++ varRef "ENTRY_DID"),
      [plainStep "Set" "__OPT_OUT_RETRY_COUNT=0",
        labeledStep "read" "AGI" (optOutGuardedDigitAgiPath ++ "," ++
          varRef "OPT_OUT_BASE_PROMPT" ++ "," ++ varRef "OPT_OUT_BASE_PROMPT_INPUT_DELAY" ++ "," ++
          varRef "OPT_OUT_DTMF_TIMEOUT" ++ ",0123456789"),
        plainStep "GotoIf" (isEmptyVar "OPT_OUT_DTMF_SELECTION" ++ "?timeout"),
        plainStep "Goto" (varRef "OPT_OUT_DTMF_SELECTION" ++ ",1"),
        labeledStep "timeout" "ExecIf" (playIf "" "OPT_OUT_DTMF_TIMEOUT_PROMPT"),
        plainStep "Goto" "080-optout-dtmf-retry,s,1"]⟩,
      ⟨"_[0-9]".toList, plainStep "NoOp" ("080 Opt-Out DTMF Digit " ++ varRef "EXTEN"),
        [plainStep "Set" ("__OPT_OUT_SELECTED_ACTION=" ++
            varRef ("OPT_OUT_DTMF_ACTION_" ++ varRef "EXTEN")),
          plainStep "GotoIf" (isEmptyVar "OPT_OUT_SELECTED_ACTION" ++
            "?080-optout-dtmf-invalid,s,1"),
          plainStep "Set" ("__OPT_OUT_SELECTED_QUEUE=" ++
            varRef ("OPT_OUT_DTMF_QUEUE_" ++ varRef "EXTEN")),
          plainStep "Set" ("__OPT_OUT_SELECTED_SMS_TEMPLATE=" ++
            varRef ("OPT_OUT_DTMF_SMS_" ++ varRef "EXTEN")),
          plainStep "Set" ("__OPT_OUT_TARGET_PHONE=" ++ varRef "REQUESTER_PHONE"),
          plainStep "Goto" "080-optout-action,s,1"]⟩]

def optOutDtmfInvalid : Section where
  context := "080-optout-dtmf-invalid".toList
  blocks := [⟨"s".toList, plainStep "NoOp" "080 Opt-Out invalid DTMF selection",
    [playIfSet "OPT_OUT_DTMF_INVALID_PROMPT",
      plainStep "Goto" "080-optout-dtmf-retry,s,1"]⟩]

def optOutDtmfRetry : Section where
  context := "080-optout-dtmf-retry".toList
  blocks := [⟨"s".toList, countUp "OPT_OUT_RETRY_COUNT",
    [retryWhile "OPT_OUT_RETRY_COUNT" "OPT_OUT_DTMF_MAX_RETRIES" "080-optout-dtmf,s,read",
      plainStep "Hangup" ""]⟩]

def optOutSmartInput : Section where
  context := "080-optout-smart-input".toList
  blocks :=
    [⟨"s".toList, plainStep "NoOp" ("080 Smart Opt-Out Input / DID=" ++ varRef "ENTRY_DID"),
      [plainStep "Set" "__OPT_OUT_SMART_INPUT_RETRY_COUNT=0",
        labeledStep "read" "NoOp" ("Smart opt-out end digit=" ++
          varRef "OPT_OUT_SMART_END_DIGIT"),
        plainStep "ExecIf" (playIf (varRef "OPT_OUT_SMART_INPUT_RETRY_COUNT" ++ "=0 & ")
          "OPT_OUT_BASE_PROMPT"),
        plainStep "ExecIf" (playIf (varRef "OPT_OUT_SMART_INPUT_RETRY_COUNT" ++ ">0 & ")
          "OPT_OUT_SMART_REENTRY_PROMPT"),
        plainStep "ExecIf" (playIf (varRef "OPT_OUT_SMART_INPUT_RETRY_COUNT" ++ "=0 & ")
          "OPT_OUT_SMART_INPUT_PROMPT"),
        plainStep "Read" ("OPT_OUT_SMART_TARGET,,16,,1," ++ varRef "OPT_OUT_SMART_TIMEOUT"),
        plainStep "Set" ("__OPT_OUT_TARGET_PHONE=" ++
          varRef ("FILTER(0-9," ++ varRef "OPT_OUT_SMART_TARGET" ++ ")")),
        plainStep "GotoIf" (isEmptyVar "OPT_OUT_TARGET_PHONE" ++ "?retry"),
        plainStep "GotoIf" (isValue "OPT_OUT_TARGET_PHONE" (varRef "REQUESTER_PHONE") ++
          "?080-optout-smart-same-number,s,1"),
        plainStep "Goto" "080-optout-smart-confirm,s,1",
        labeledStep "retry" "Goto" "080-optout-smart-input-retry,s,1"]⟩,
      ⟨"reenter".toList, plainStep "NoOp" "Restart smart opt-out number entry",
        [plainStep "Goto" "080-optout-smart-input,s,read"]⟩]

def optOutSmartSameNumber : Section where
  context := "080-optout-smart-same-number".toList
  blocks := [⟨"s".toList, plainStep "NoOp" "080 Smart Opt-Out Same Number Reject",
    [playIfSet "OPT_OUT_SMART_SAME_NUMBER_PROMPT",
      plainStep "Goto" "080-optout-smart-input,s,read"]⟩]

def optOutSmartInputRetry : Section where
  context := "080-optout-smart-input-retry".toList
  blocks := [⟨"s".toList, countUp "OPT_OUT_SMART_INPUT_RETRY_COUNT",
    [retryWhile "OPT_OUT_SMART_INPUT_RETRY_COUNT" "OPT_OUT_SMART_MAX_RETRIES"
        "080-optout-smart-input,s,read",
      playIfSet "OPT_OUT_SMART_FAILURE_PROMPT",
      plainStep "Hangup" ""]⟩]

def optOutSmartConfirm : Section where
  context := "080-optout-smart-confirm".toList
  blocks :=
    [⟨"s".toList, plainStep "NoOp" ("080 Smart Opt-Out Confirm / DID=" ++ varRef "ENTRY_DID" ++
        " / TARGET=" ++ varRef "OPT_OUT_TARGET_PHONE"),
      [plainStep "Set" "__OPT_OUT_SMART_CONFIRM_RETRY_COUNT=0",
        labeledStep "playback" "ExecIf" (playIf "" "OPT_OUT_SMART_CONFIRM_PREFIX"),
        plainStep "SayDigits" (varRef "OPT_OUT_TARGET_PHONE"),
        playIfSet "OPT_OUT_SMART_CONFIRM_SUFFIX",
        playIfSet "OPT_OUT_SMART_CONFIRM_MENU",
        plainStep "Read" ("OPT_OUT_SMART_CONFIRM_DIGIT,,1,,1," ++ varRef "OPT_OUT_SMART_TIMEOUT"),
        plainStep "GotoIf" (isEmptyVar "OPT_OUT_SMART_CONFIRM_DIGIT" ++ "?retry"),
        plainStep "Goto" (varRef "OPT_OUT_SMART_CONFIRM_DIGIT" ++ ",1"),
        labeledStep "retry" "Goto" "080-optout-smart-confirm-retry,s,1"]⟩,
      ⟨"_[0-9]".toList, plainStep "NoOp" ("080 Smart confirm digit " ++ varRef "EXTEN"),
        [plainStep "Set" ("__OPT_OUT_SELECTED_ACTION=" ++
            varRef ("OPT_OUT_SMART_CONFIRM_ACTION_" ++ varRef "EXTEN")),
          plainStep "GotoIf" (isEmptyVar "OPT_OUT_SELECTED_ACTION" ++
            "?080-optout-smart-confirm-invalid,s,1"),
          plainStep "Set" ("__OPT_OUT_SELECTED_SMS_TEMPLATE=" ++
            varRef ("OPT_OUT_SMART_CONFIRM_SMS_" ++ varRef "EXTEN")),
          plainStep "GotoIf" (isValue "OPT_OUT_SELECTED_ACTION" "REENTER_NUMBER" ++
            "?080-optout-smart-input,reenter,1"),
          plainStep "GotoIf" (isValue "OPT_OUT_SELECTED_ACTION" "HANGUP" ++
            "?080-optout-result,s,1"),
          plainStep "Goto" "080-optout-action,s,1"]⟩]

def optOutSmartConfirmInvalid : Section where
  context := "080-optout-smart-confirm-invalid".toList
  blocks := [⟨"s".toList, plainStep "NoOp" "080 Smart confirm invalid selection",
    [plainStep "Goto" "080-optout-smart-confirm-retry,s,1"]⟩]

def optOutSmartConfirmRetry : Section where
  context := "080-optout-smart-confirm-retry".toList
  blocks := [⟨"s".toList, countUp "OPT_OUT_SMART_CONFIRM_RETRY_COUNT",
    [retryWhile "OPT_OUT_SMART_CONFIRM_RETRY_COUNT" "OPT_OUT_SMART_MAX_RETRIES"
        "080-optout-smart-confirm,s,playback",
      playIfSet "OPT_OUT_SMART_FAILURE_PROMPT",
      plainStep "Hangup" ""]⟩]

/-- The steps behind a hook: the failure prompt or the result. -/
def afterHook : List Step :=
  [plainStep "GotoIf" ("$[\"" ++ varRef "SYSTEMSTATUS" ++
      "\"!=\"SUCCESS\"]?080-optout-failure,s,1"),
    plainStep "Goto" "080-optout-result,s,1"]

def optOutAction : Section where
  context := "080-optout-action".toList
  blocks := [⟨"s".toList,
    plainStep "NoOp" ("080 Opt-Out Action " ++ varRef "OPT_OUT_SELECTED_ACTION" ++ " / DID=" ++
      varRef "ENTRY_DID"),
    [plainStep "Set" ("__OPT_OUT_TARGET_PHONE=" ++
        varRef ("IF(" ++ isEmptyVar "OPT_OUT_TARGET_PHONE" ++ "?" ++ varRef "REQUESTER_PHONE" ++
          ":" ++ varRef "OPT_OUT_TARGET_PHONE" ++ ")")),
      plainStep "Set" ("__OPT_OUT_SELECTED_SMS_TEMPLATE=" ++
        varRef ("IF($[\"" ++ varRef "OPT_OUT_SELECTED_SMS_TEMPLATE" ++ "\"=\"-\" | \"" ++
          lenRef "OPT_OUT_SELECTED_SMS_TEMPLATE" ++ "\"=\"0\"]?" ++
          varRef "OPT_OUT_SMS_TEMPLATE" ++ ":" ++ varRef "OPT_OUT_SELECTED_SMS_TEMPLATE" ++ ")")),
      plainStep "GotoIf" (isValue "OPT_OUT_SELECTED_ACTION" "QUEUE_ROUTE" ++ "?queue-route"),
      plainStep "GotoIf" (isValue "OPT_OUT_SELECTED_ACTION" "REGISTER_OPT_OUT" ++ "?register"),
      plainStep "GotoIf" (isValue "OPT_OUT_SELECTED_ACTION" "UNREGISTER_OPT_OUT" ++
        "?unregister"),
      plainStep "GotoIf" (isValue "OPT_OUT_SELECTED_ACTION" "SEND_SMS" ++ "?sms"),
      plainStep "Goto" "080-optout-result,s,1",
      labeledStep "queue-route" "Goto" ("queue-entry," ++ varRef "OPT_OUT_SELECTED_QUEUE" ++
        ",1")] ++
    labeledStep "register" "System" (buildOptOutHookCommand "register") :: afterHook ++
    labeledStep "unregister" "System" (buildOptOutHookCommand "unregister") :: afterHook ++
    labeledStep "sms" "System" (buildOptOutHookCommand "sms") :: afterHook⟩]

def optOutResult : Section where
  context := "080-optout-result".toList
  blocks := [⟨"s".toList, plainStep "NoOp" "080 Opt-Out Result",
    [plainStep "Set" ("__OPT_OUT_RESULT_PROMPT=" ++
        varRef ("IF(" ++ isValue "OPT_OUT_MODE" "SMART_OPT_OUT" ++ "?" ++
          varRef "OPT_OUT_SMART_FINAL_PROMPT" ++ ":" ++ varRef "OPT_OUT_COMPLETION_PROMPT" ++
          ")")),
      playIfSet "OPT_OUT_RESULT_PROMPT",
      plainStep "Hangup" ""]⟩]

def optOutFailure : Section where
  context := "080-optout-failure".toList
  blocks := [⟨"s".toList,
    plainStep "NoOp" ("080 Opt-Out Failure / ACTION=" ++ varRef "OPT_OUT_SELECTED_ACTION" ++
      " / STATUS=" ++ varRef "SYSTEMSTATUS"),
    [plainStep "Playback" optOutFailedPrompt, plainStep "Hangup" ""]⟩]

def renderOptOutContexts : List Section :=
  [optOutEntry, optOutDtmf, optOutDtmfInvalid, optOutDtmfRetry, optOutSmartInput,
    optOutSmartSameNumber, optOutSmartInputRetry, optOutSmartConfirm, optOutSmartConfirmInvalid,
    optOutSmartConfirmRetry, optOutAction, optOutResult, optOutFailure]

/-! ## The variables of a DID -/

/-- `value && value.trim() ? value.trim() : '-'`. -/
def normalizeOptionalArg (value : Option String) : String :=
  ((value.map JsText.trim).filter (· ≠ "")).getD "-"

/-- `normalizeOptionalArg(key ? toPlaybackTarget(key) : null)`. -/
def promptArg (promptKey : Option String) : Render String :=
  match given promptKey with
  | some key => do pure (normalizeOptionalArg (some (← toPlaybackTarget key)))
  | none => pure "-"

/-- `Set(__name=value)`. -/
def setVar (name value : String) : Step := plainStep "Set" ("__" ++ name ++ "=" ++ value)

def contextSuffix (id : String) : String := if toSlug id = "" then "default" else toSlug id

/-- The second replacement of the source, of runs of dashes, finds none. -/
def buildOptOutContextSuffix (did : DidInput) : String := contextSuffix did.id

def dtmfMappingLines (mapping : OptOutDigitMappingInput) : List Step :=
  [setVar ("OPT_OUT_DTMF_ACTION_" ++ mapping.digit) mapping.actionType.text,
    setVar ("OPT_OUT_DTMF_QUEUE_" ++ mapping.digit) (normalizeOptionalArg mapping.queueName),
    setVar ("OPT_OUT_DTMF_SMS_" ++ mapping.digit) (normalizeOptionalArg mapping.smsTemplateId)]

def dtmfMenuLines (menu : OptOutDtmfMenuInput) : Render (List Step) := do
  let invalidPrompt ← promptArg menu.invalidPromptKey
  let timeoutPrompt ← promptArg menu.timeoutPromptKey
  pure ([setVar "OPT_OUT_DTMF_TIMEOUT" (toString (max 1 menu.timeoutSeconds)),
      setVar "OPT_OUT_DTMF_MAX_RETRIES" (toString (max 0 menu.maxRetries)),
      setVar "OPT_OUT_DTMF_INVALID_PROMPT" invalidPrompt,
      setVar "OPT_OUT_DTMF_TIMEOUT_PROMPT" timeoutPrompt] ++
    menu.mappings.flatMap dtmfMappingLines)

def smartMappingLines (mapping : OptOutDigitMappingInput) : List Step :=
  [setVar ("OPT_OUT_SMART_CONFIRM_ACTION_" ++ mapping.digit) mapping.actionType.text,
    setVar ("OPT_OUT_SMART_CONFIRM_SMS_" ++ mapping.digit)
      (normalizeOptionalArg mapping.smsTemplateId)]

def smartFlowLines (flow : OptOutSmartFlowInput) : Render (List Step) := do
  let inputPrompt ← promptArg flow.inputPromptKey
  let reentryPrompt ← promptArg flow.reentryPromptKey
  let sameNumberPrompt ← promptArg flow.sameNumberPromptKey
  let confirmPrefix ← promptArg flow.confirmPrefixPromptKey
  let confirmSuffix ← promptArg flow.confirmSuffixPromptKey
  let confirmMenu ← promptArg flow.confirmMenuPromptKey
  let failurePrompt ← promptArg flow.failurePromptKey
  let finalPrompt ← promptArg flow.finalPromptKey
  pure ([setVar "OPT_OUT_SMART_END_DIGIT" "#",
      setVar "OPT_OUT_SMART_TIMEOUT" (toString (max 1 flow.inputTimeoutSeconds)),
      setVar "OPT_OUT_SMART_MAX_RETRIES" (toString (max 0 flow.maxRetries)),
      setVar "OPT_OUT_SMART_INPUT_PROMPT" inputPrompt,
      setVar "OPT_OUT_SMART_REENTRY_PROMPT" reentryPrompt,
      setVar "OPT_OUT_SMART_SAME_NUMBER_PROMPT" sameNumberPrompt,
      setVar "OPT_OUT_SMART_CONFIRM_PREFIX" confirmPrefix,
      setVar "OPT_OUT_SMART_CONFIRM_SUFFIX" confirmSuffix,
      setVar "OPT_OUT_SMART_CONFIRM_MENU" confirmMenu,
      setVar "OPT_OUT_SMART_FAILURE_PROMPT" failurePrompt,
      setVar "OPT_OUT_SMART_FINAL_PROMPT" finalPrompt] ++
    flow.confirmationMappings.flatMap smartMappingLines)

/-- The lines of the chosen mode, when it is configured. -/
def optOutModeLines (optOut : BranchOptOut080Input) : Render (List Step) :=
  match optOut.mode, optOut.dtmfMenu, optOut.smartFlow with
  | .dtmfMenu, some menu, _ => dtmfMenuLines menu
  | .smart, _, some flow => smartFlowLines flow
  | _, _, _ => pure []

def optOutLines (did : DidInput) (optOut : BranchOptOut080Input) : Render (List Step) := do
  let basePrompt ← promptArg optOut.basePromptKey
  let completionPrompt ← promptArg optOut.completionPromptKey
  let modeLines ← optOutModeLines optOut
  pure ([setVar "OPT_OUT_CONTEXT_SUFFIX" (buildOptOutContextSuffix did),
      setVar "OPT_OUT_TENANT_ID" (normalizeOptionalArg (some optOut.tenantId)),
      setVar "OPT_OUT_BRANCH_ID" (normalizeOptionalArg optOut.branchId),
      setVar "OPT_OUT_MODE" optOut.mode.text,
      setVar "OPT_OUT_SOURCE_TYPE" optOut.mode.sourceType,
      setVar "OPT_OUT_SMS_TEMPLATE" (normalizeOptionalArg optOut.smsTemplateId),
      setVar "OPT_OUT_BASE_PROMPT" basePrompt,
      setVar "OPT_OUT_BASE_PROMPT_INPUT_DELAY"
        (toString (max 0 (optOut.basePromptInputDelaySeconds.getD 0))),
      setVar "OPT_OUT_COMPLETION_PROMPT" completionPrompt] ++ modeLines)

/-- The opt-out of a DID when it is switched on. -/
def DidInput.optOut? (did : DidInput) : Option BranchOptOut080Input :=
  did.branchOptOut080.filter (·.enabled)

def renderOptOutVariableLines (did : DidInput) : Render (List Step) :=
  match did.optOut? with
  | some optOut => optOutLines did optOut
  | none => pure []

end KasterCti.Renderers
