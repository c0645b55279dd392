import KasterCti.ArsFlow.Injection
import KasterCti.Library.DialplanCode

/-!
# The compiled flow as code

The compiler writes text. Here is the same output as code, priority by priority,
node by node: what the loader should make of the text. A text of the graph is
printed as it is, so a character with a meaning for the reader of the file changes
what is read; `clean` says which texts have none.
-/

namespace KasterCti.ArsFlow

open Lines Renderers Dialplan

def plainStep (app args : String) : Step := ⟨none, app.toList, args.toList⟩

def labeledStep (label app args : String) : Step := ⟨some label.toList, app.toList, args.toList⟩

/-- A step as a line of a body: `(label)App(args)`. -/
def bodyLine (code : Step) : String :=
  match code.label with
  | some label =>
    "(" ++ String.ofList label ++ ")" ++ String.ofList (appText code.app code.args)
  | none => String.ofList (appText code.app code.args)

/-! ## Texts that are read as they are printed -/

/-- No character that starts a comment. -/
def uncommented (s : String) : Bool := s.toList.all (· ≠ ';')

/-- Part of a destination: no comment, no comma, no variable. -/
def plainDest (s : String) : Bool := s.toList.all (fun c => c ≠ ';' && c ≠ ',' && c ≠ '$')

def dotted (s : String) : Bool := s.toList.all isDot

def NodeConfig.clean : NodeConfig → Bool
  | .play promptKeys => promptKeys.all uncommented
  | .menu config => config.promptKey.all uncommented
  | .queue queueName => plainDest queueName
  | .transfer transferNumber => plainDest transferNumber
  | .sms smsTemplateId _ => uncommented smsTemplateId
  | .hangup promptKey => promptKey.all uncommented
  | .collectDigits config => config.promptKey.all (fun key => plainDest key && dotted key)
  | .httpLookup endpointId waitPromptKey =>
    uncommented endpointId && waitPromptKey.all uncommented
  | _ => true

/-- A target that fits behind `GotoIfTime`, or gets a label of its own there. -/
def FlowNode.fitsWindow (node target : FlowNode) : Bool :=
  match target.config with
  | .queue queueName => queueName.toList.all (· ≠ ':') && dotted queueName
  | .transfer transferNumber => transferNumber.toList.all (· ≠ ':') && dotted transferNumber
  | .hangup promptKey => (given promptKey).isNone || dotted node.label
  | _ => true

/-- A menu edge whose digit a caller can press. -/
def FlowEdge.isPressed (edge : FlowEdge) : Bool :=
  edge.condition ≠ .digit || (given edge.digit).all (fun digit => digit.toList.all isKey)

/-- What has to hold at one node: its texts are read as they are printed, menu
digits are keys, and where an open time window leads fits behind it. -/
def FlowNode.clean (layout : Layout) (node : FlowNode) : Bool :=
  (node.nodeType.isTerminal || (!hasBreak node.label && uncommented node.label)) &&
    node.config.clean &&
    match node.config with
    | .menu _ => (layout.outgoing node.nodeId).all FlowEdge.isPressed
    | .condition _ =>
      match layout.findEdge node.nodeId .true with
      | some edge => (layout.graph.nodeById edge.toNodeId).all node.fitsWindow
      | none => true
    | _ => true

def ArsFlowRenderInput.clean (localeCompare : String → String → Int)
    (input : ArsFlowRenderInput) : Bool :=
  !hasBreak input.graph.name && uncommented input.graph.name && uncommented input.did &&
    uncommented input.tenantId && uncommented (input.branchId.getD "-") &&
    (orderReachableNodes localeCompare input.graph).all
      (FlowNode.clean (layoutOf localeCompare input.graph))

/-! ## Code -/

/-- What `toPlaybackTarget` returns when it does not throw. -/
def playbackPath (promptKey : String) : String :=
  match JsText.afterPrefix? "custom/".toList promptKey.toList with
  | some relativePath => customSoundAbsolutePrefix ++ String.ofList relativePath
  | none => promptKey

def playbackCode (promptKey : Option String) : List Step :=
  match given promptKey with
  | some key => [plainStep "Playback" (playbackPath key)]
  | none => []

def hangupCode : Step := plainStep "Hangup" ""

def jumpCode (layout : Layout) (node : FlowNode) : List Step :=
  match node.config with
  | .queue queueName => [plainStep "Goto" ("queue-entry," ++ queueName ++ ",1")]
  | .transfer transferNumber => [plainStep "Goto" ("transfer-target," ++ transferNumber ++ ",1")]
  | .hangup promptKey => playbackCode promptKey ++ [hangupCode]
  | .menu _ => [plainStep "Goto" (layout.menuContextOf node.nodeId ++ ",s,1")]
  | _ => [plainStep "Goto" (layout.mainContext ++ ",s," ++ layout.labelOf node.nodeId)]

/-- The code of the jump along an edge, or of the hang-up in its place. -/
def edgeCode (layout : Layout) (edge : Option FlowEdge) : List Step :=
  match edge with
  | some edge => ((layout.graph.nodeById edge.toNodeId).map (jumpCode layout)).getD []
  | none => [hangupCode]

def takeCode (layout : Layout) (node : FlowNode) (condition : FlowEdgeCondition) : List Step :=
  edgeCode layout (layout.findEdge node.nodeId condition)

def lookupCode (layout : Layout) (node : FlowNode) (endpointId : String)
    (waitPromptKey : Option String) (label : String) : List Step :=
  playbackCode waitPromptKey ++
    [plainStep "AGI" (arsHttpLookupAgiPath ++ "," ++ endpointId),
      plainStep "GotoIf" ("$[\"" ++ varRef lookupStatusVar ++ "\"=\"MATCH\"]?" ++
        (label ++ "-match"))] ++
    takeCode layout node .false ++
    [labeledStep (label ++ "-match") "NoOp" ("ARS lookup matched " ++ varRef lookupValueVar)] ++
    takeCode layout node .true

def collectCounter (label : String) : String := "ARS_COLLECT_RETRY_" ++ toVariableName label

/-- The prompt argument of `Read`. -/
def promptPath (promptKey : Option String) : String :=
  match given promptKey with
  | some key => playbackPath key
  | none => ""

def collectCode (layout : Layout) (node : FlowNode) (config : CollectDigitsConfig)
    (label : String) : List Step :=
  [plainStep "Set" ("__" ++ collectCounter label ++ "=0"),
    labeledStep (label ++ "-read") "Read" (collectInputVar ++ "," ++ promptPath config.promptKey ++
      "," ++ toString config.maxDigits ++ ",,1," ++ toString config.timeoutSeconds),
    plainStep "Set" ("__" ++ collectedDigitsVar ++ "=$\x7bFILTER(0-9," ++ varRef collectInputVar ++
      ")\x7d"),
    plainStep "GotoIf" ("$[$\x7bLEN(" ++ varRef collectedDigitsVar ++ ")\x7d>=" ++
      toString config.minDigits ++ "]?" ++ (label ++ "-ok")),
    plainStep "Set" ("__" ++ collectCounter label ++ "=$[" ++ varRef (collectCounter label) ++
      "+1]"),
    plainStep "GotoIf" ("$[" ++ varRef (collectCounter label) ++ "<=" ++
      toString config.maxRetries ++ "]?" ++ (label ++ "-read"))] ++
    takeCode layout node .timeout ++
    [labeledStep (label ++ "-ok") "NoOp" ("ARS collected " ++ varRef collectedDigitsVar)] ++
    takeCode layout node .default

def conditionCode (layout : Layout) (node : FlowNode) (config : ConditionConfig)
    (label : String) (onTrue : FlowEdge) : List Step :=
  match edgeCode layout (some onTrue) with
  | [code] =>
    [plainStep "GotoIfTime" (buildTimeSpec config ++ "?" ++ stripGoto (bodyLine code))] ++
      takeCode layout node .false
  | target =>
    [plainStep "GotoIfTime" (buildTimeSpec config ++ "?" ++ (label ++ "-true"))] ++
      takeCode layout node .false ++
      [labeledStep (label ++ "-true") "NoOp" ("ARS condition " ++ node.label ++ " matched")] ++
      target

def inlineCode (layout : Layout) (node : FlowNode) (label : String) : List Step :=
  match node.config with
  | .play promptKeys =>
    promptKeys.map (fun key => plainStep "Playback" (playbackPath key)) ++
      takeCode layout node .default
  | .sms smsTemplateId targetSource =>
    [plainStep "Set" ("__SMART_ARS_SELECTED_SMS_TEMPLATE=" ++ smsTemplateId),
      plainStep "System" (buildSmartArsHookCommand "sms" (targetNumberExpression targetSource))] ++
      takeCode layout node .default
  | .optOut action targetSource =>
    [plainStep "Set" ("__OPT_OUT_TENANT_ID=" ++ varRef "SMART_ARS_TENANT_ID"),
      plainStep "Set" ("__OPT_OUT_BRANCH_ID=" ++ varRef "SMART_ARS_BRANCH_ID"),
      plainStep "Set" ("__REQUESTER_PHONE=" ++ callerNumberExpression),
      plainStep "Set" ("__OPT_OUT_TARGET_PHONE=" ++ targetNumberExpression targetSource),
      plainStep "Set" "__OPT_OUT_SOURCE_TYPE=ARS_FLOW",
      plainStep "Set" "__OPT_OUT_SELECTED_SMS_TEMPLATE=-",
      plainStep "System" (buildOptOutHookCommand
        (if action = .unregister then "unregister" else "register"))] ++
      takeCode layout node .default
  | .condition config =>
    match layout.findEdge node.nodeId .true with
    | none => takeCode layout node .false
    | some onTrue => conditionCode layout node config label onTrue
  | .collectDigits config => collectCode layout node config label
  | .httpLookup endpointId waitPromptKey => lookupCode layout node endpointId waitPromptKey label
  | _ => [hangupCode]

/-- An inline node: its label and its body. -/
def labeledCode (layout : Layout) (node : FlowNode) : List Step :=
  labeledStep (layout.labelOf node.nodeId) "NoOp" ("ARS node " ++ node.label) ::
    inlineCode layout node (layout.labelOf node.nodeId)

def openingCode (input : ArsFlowRenderInput) : List Step :=
  [plainStep "Answer" "", plainStep "Set" "CHANNEL(language)=",
    plainStep "Set" ("__SMART_ARS_TENANT_ID=" ++ input.tenantId),
    plainStep "Set" ("__SMART_ARS_BRANCH_ID=" ++ input.branchId.getD "-"),
    plainStep "Set" ("__ENTRY_DID=" ++ input.did)]

def menuCounter (contextName : String) : String := "ARS_MENU_RETRY_" ++ toVariableName contextName

/-- A block of one extension. -/
def blockOf (exten : String) (code : List Step) : Block :=
  ⟨exten.toList, code.headD hangupCode, code.tail⟩

def promptCode (config : MenuConfig) : List Step :=
  match given config.promptKey with
  | some key =>
    [if config.maxRetries > 0 then labeledStep "prompt" "Background" (playbackPath key)
      else plainStep "Background" (playbackPath key)]
  | none => []

/-- The counter that a menu with retries starts from. -/
def counterCode (config : MenuConfig) (contextName : String) : List Step :=
  if config.maxRetries > 0 then [plainStep "Set" ("__" ++ menuCounter contextName ++ "=0")] else []

def menuEntryCode (node : FlowNode) (config : MenuConfig) (contextName : String) : List Step :=
  [plainStep "NoOp" ("ARS menu " ++ node.label)] ++ counterCode config contextName ++
    promptCode config ++ [plainStep "WaitExten" (toString config.timeoutSeconds)]

def digitBlock (layout : Layout) (edge : FlowEdge) : Option Block :=
  match edge.condition, given edge.digit with
  | .digit, some digit => some (blockOf digit (edgeCode layout (some edge)))
  | _, _ => none

def timeoutCode (layout : Layout) (node : FlowNode) (config : MenuConfig) (contextName : String) :
    List Step :=
  if config.maxRetries > 0 && (given config.promptKey).isSome then
    [plainStep "Set" ("__" ++ menuCounter contextName ++ "=$[" ++
        varRef (menuCounter contextName) ++ "+1]"),
      plainStep "GotoIf" ("$[" ++ varRef (menuCounter contextName) ++ "<=" ++
        toString config.maxRetries ++ "]?s,prompt")] ++ takeCode layout node .timeout
  else takeCode layout node .timeout

def invalidBlocks (layout : Layout) (node : FlowNode) : List Block :=
  match layout.findEdge node.nodeId .invalid with
  | some edge => [blockOf "i" (edgeCode layout (some edge))]
  | none => []

def menuSection (layout : Layout) (node : FlowNode) (config : MenuConfig) : Section where
  context := (layout.menuContextOf node.nodeId).toList
  blocks :=
    [blockOf "s" (menuEntryCode node config (layout.menuContextOf node.nodeId))] ++
      (layout.outgoing node.nodeId).filterMap (digitBlock layout) ++
      [blockOf "t" (timeoutCode layout node config (layout.menuContextOf node.nodeId))] ++
      invalidBlocks layout node

def menuSectionOf (layout : Layout) (node : FlowNode) : Section :=
  match node.config with
  | .menu config => menuSection layout node config
  | _ => ⟨[], []⟩

/-- The code of the main context behind its first priority. -/
def mainCode (layout : Layout) (order : List FlowNode) (input : ArsFlowRenderInput) : List Step :=
  openingCode input ++
    ((layout.graph.nodeById input.graph.entryNodeId).map (jumpCode layout)).getD [] ++
    (order.filter FlowNode.isInline).flatMap (labeledCode layout)

def mainSection (layout : Layout) (order : List FlowNode) (input : ArsFlowRenderInput) :
    Section where
  context := (mainContext input.graph).toList
  blocks := [⟨"s".toList, plainStep "NoOp" ("ARS flow " ++ input.graph.name),
    mainCode layout order input⟩]

section
variable (localeCompare : String → String → Int)

/-- The compiled flow, context by context. -/
def flowSections (input : ArsFlowRenderInput) : List Section :=
  let layout := layoutOf localeCompare input.graph
  let order := orderReachableNodes localeCompare input.graph
  mainSection layout order input ::
    (order.filter FlowNode.isMenu).map (menuSectionOf layout)

end

end KasterCti.ArsFlow
