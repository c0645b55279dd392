import KasterCti.ArsFlow.FlowGraph
import KasterCti.Library.Bfs
import KasterCti.Renderers.Utils
import Mathlib.Data.List.Sort

/-!
# The ARS flow compiler

`ars-flow.renderer.ts`: a flow graph becomes one dialplan context for the
inline nodes, each behind a priority label, and one context for every menu.
Terminal nodes have no place of their own: they are written out at every jump
to them. The collation behind `localeCompare` belongs to the runtime and is a
parameter here.
-/

namespace KasterCti.ArsFlow

open Lines Renderers

structure ArsFlowRenderInput where
  graph : FlowGraph
  did : String
  tenantId : String
  branchId : Option String

def collectedDigitsVar : String := "ARS_COLLECTED_DIGITS"
def collectInputVar : String := "ARS_COLLECT_INPUT"
def callerNumberExpression : String := "$\x7bCALLERID(num)\x7d"
def lookupStatusVar : String := "ARS_LOOKUP_STATUS"
def lookupValueVar : String := "ARS_LOOKUP_VALUE"

/-- `${name}` as the dialplan reads it. -/
def varRef (name : String) : String := "$\x7b" ++ name ++ "\x7d"

def FlowNodeType.isTerminal : FlowNodeType → Bool
  | .queue => true
  | .transfer => true
  | .hangup => true
  | _ => false

def FlowNode.isInline (node : FlowNode) : Bool :=
  node.nodeType ≠ .menu && !node.nodeType.isTerminal

def FlowNode.isMenu (node : FlowNode) : Bool := node.nodeType = .menu

def conditionRank : FlowEdgeCondition → Int
  | .digit => 0
  | .true => 1
  | .false => 2
  | .default => 3
  | .timeout => 4
  | .invalid => 5

/-- A prompt or name that JavaScript treats as given. -/
def given (text : Option String) : Option String := text.filter (· ≠ "")

/-! ## Order and labels -/

section Layout
variable (localeCompare : String → String → Int)

def compareEdges (a b : FlowEdge) : Int :=
  let rank := conditionRank a.condition - conditionRank b.condition
  let digit := localeCompare (a.digit.getD "") (b.digit.getD "")
  if rank ≠ 0 then rank
  else if digit ≠ 0 then digit
  else localeCompare a.toNodeId b.toNodeId

/-- `buildOutgoing(graph, nodesById).get(nodeId)`. -/
def buildOutgoing (graph : FlowGraph) (nodeId : String) : List FlowEdge :=
  let edges := graph.edges.filter (fun edge =>
    edge.fromNodeId = nodeId && graph.hasNode edge.fromNodeId && graph.hasNode edge.toNodeId)
  edges.insertionSort (fun a b => compareEdges localeCompare a b ≤ 0)

def orderReachableIds (graph : FlowGraph) : List String :=
  Bfs.order (fun nodeId => (buildOutgoing localeCompare graph nodeId).map FlowEdge.toNodeId)
    graph.nodes.length graph.entryNodeId

def orderReachableNodes (graph : FlowGraph) : List FlowNode :=
  (orderReachableIds localeCompare graph).filterMap graph.nodeById

/-- `node.nodeType.toLowerCase()`. -/
def FlowNodeType.slug : FlowNodeType → String
  | .play => "play"
  | .menu => "menu"
  | .queue => "queue"
  | .transfer => "transfer"
  | .sms => "sms"
  | .optOut => "opt_out"
  | .condition => "condition"
  | .hangup => "hangup"
  | .collectDigits => "collect_digits"
  | .httpLookup => "http_lookup"

def labelSlug (node : FlowNode) : String :=
  if toSlug node.label = "" then node.nodeType.slug else toSlug node.label

def nodeLabel (index : Nat) (node : FlowNode) : String :=
  "node-" ++ toString index ++ "-" ++ labelSlug node

def buildLabels (order : List FlowNode) : List (String × String) :=
  order.zipIdx.map (fun entry => (entry.1.nodeId, nodeLabel entry.2 entry.1))

def flowSlug (graph : FlowGraph) : String :=
  if toSlug graph.name = "" then toSlug graph.flowId else toSlug graph.name

def mainContext (graph : FlowGraph) : String := "ars-flow-" ++ flowSlug graph

end Layout

/-- What the jumps need to know: the graph, the edges in order, the name of the
main context and the label of every node. -/
structure Layout where
  graph : FlowGraph
  outgoing : String → List FlowEdge
  mainContext : String
  labels : List (String × String)

def layoutOf (localeCompare : String → String → Int) (graph : FlowGraph) : Layout where
  graph := graph
  outgoing := buildOutgoing localeCompare graph
  mainContext := mainContext graph
  labels := buildLabels (orderReachableNodes localeCompare graph)

/-- `labels.get(nodeId)`, printed as JavaScript prints a missing value. -/
def Layout.labelOf (layout : Layout) (nodeId : String) : String :=
  (layout.labels.lookup nodeId).getD "undefined"

def Layout.menuContextOf (layout : Layout) (nodeId : String) : String :=
  layout.mainContext ++ "-" ++ layout.labelOf nodeId

/-! ## Lines -/

/-- What `.` matches in a regular expression. -/
def isDot (c : Char) : Bool :=
  c ≠ '\n' && c ≠ '\r' && c.toNat ≠ 0x2028 && c.toNat ≠ 0x2029

/-- `[A-Za-z0-9_]`. -/
def isWordChar (c : Char) : Bool :=
  JsText.isDigit c || ('a' ≤ c && c ≤ 'z') || ('A' ≤ c && c ≤ 'Z') || c = '_'

def isLabelChar (c : Char) : Bool := isWordChar c || c = '-'

/-- `line.match(/^\(([A-Za-z0-9_-]+)\)(.*)$/)`. -/
def matchLabeled (line : List Char) : Option (List Char × List Char) :=
  match line with
  | '(' :: rest =>
    match rest.dropWhile isLabelChar with
    | ')' :: body =>
      if rest.takeWhile isLabelChar ≠ [] && body.all isDot then
        some (rest.takeWhile isLabelChar, body)
      else none
    | _ => none
  | _ => none

def prefixSame (line : String) : String :=
  match matchLabeled line.toList with
  | some (label, body) => " same => n(" ++ String.ofList label ++ ")," ++ String.ofList body
  | none => " same => n," ++ line

/-- `line.match(/^Goto\((.*)\)$/)`. -/
def stripGoto (line : String) : String :=
  match JsText.afterPrefix? "Goto(".toList line.toList with
  | some rest =>
    if rest.getLast? = some ')' && rest.dropLast.all isDot then String.ofList rest.dropLast
    else line
  | none => line

/-- `text.replace(/[^A-Za-z0-9_]/g, '_')`. -/
def toVariableName (text : String) : String :=
  String.ofList (text.toList.map (fun c => if isWordChar c then c else '_'))

def weekdayIndex : Weekday → Nat
  | .mon => 0
  | .tue => 1
  | .wed => 2
  | .thu => 3
  | .fri => 4
  | .sat => 5
  | .sun => 6

def buildTimeSpec : ConditionConfig → String
  | .holiday => "*,*,*,*"
  | .timeRange timeStart timeEnd daysOfWeek =>
    let sorted := daysOfWeek.insertionSort (fun a b => weekdayIndex a ≤ weekdayIndex b)
    let days := if daysOfWeek = [] then "*" else "&".intercalate (sorted.map Weekday.text)
    timeStart.text ++ "-" ++ timeEnd.text ++ "," ++ days ++ ",*,*"

def targetNumberExpression : DigitTargetSource → String
  | .collected => varRef collectedDigitsVar
  | .caller => callerNumberExpression

def buildSmartArsHookCommand (action targetNumber : String) : String :=
  let args := [shellQuote action, shellQuote (varRef "SMART_ARS_TENANT_ID"),
    shellQuote (varRef "SMART_ARS_BRANCH_ID"), shellQuote (varRef "ENTRY_DID"),
    shellQuote targetNumber, shellQuote (varRef "SMART_ARS_SELECTED_SMS_TEMPLATE")]
  smartArsHookPath ++ " " ++ " ".intercalate args

def buildOptOutHookCommand (action : String) : String :=
  let args := [shellQuote action, shellQuote (varRef "OPT_OUT_TENANT_ID"),
    shellQuote (varRef "OPT_OUT_BRANCH_ID"), shellQuote (varRef "ENTRY_DID"),
    shellQuote (varRef "REQUESTER_PHONE"), shellQuote (varRef "OPT_OUT_TARGET_PHONE"),
    shellQuote (varRef "OPT_OUT_SOURCE_TYPE"),
    shellQuote (varRef "OPT_OUT_SELECTED_SMS_TEMPLATE")]
  optOutHookPath ++ " " ++ " ".intercalate args

/-! ## Jumps and nodes -/

/-- `...(key ? [`Playback(${toPlaybackTarget(key)})`] : [])`. -/
def playbackLine (promptKey : Option String) : Render (List String) :=
  match given promptKey with
  | some key => do pure ["Playback(" ++ (← toPlaybackTarget key) ++ ")"]
  | none => pure []

def renderJump (layout : Layout) (node : FlowNode) : Render (List String) :=
  match node.config with
  | .queue queueName => do
    assertNoNewlines queueName "queueName"
    pure ["Goto(queue-entry," ++ queueName ++ ",1)"]
  | .transfer transferNumber => do
    assertNoNewlines transferNumber "transferNumber"
    pure ["Goto(transfer-target," ++ transferNumber ++ ",1)"]
  | .hangup promptKey => do
    pure ((← playbackLine promptKey) ++ ["Hangup()"])
  | .menu _ => pure ["Goto(" ++ layout.menuContextOf node.nodeId ++ ",s,1)"]
  | _ => pure ["Goto(" ++ layout.mainContext ++ ",s," ++ layout.labelOf node.nodeId ++ ")"]

def Layout.jump (layout : Layout) (nodeId : String) : Render (List String) :=
  match layout.graph.nodeById nodeId with
  | some node => renderJump layout node
  | none => throw "Cannot read properties of undefined (reading 'nodeType')"

def Layout.findEdge (layout : Layout) (nodeId : String) (condition : FlowEdgeCondition) :
    Option FlowEdge :=
  (layout.outgoing nodeId).find? (fun edge => edge.condition = condition)

/-- `edge ? jump(edge.toNodeId) : ['Hangup()']`. -/
def Layout.jumpOrHangup (layout : Layout) : Option FlowEdge → Render (List String)
  | some edge => layout.jump edge.toNodeId
  | none => pure ["Hangup()"]

def continueOrHangup (layout : Layout) (node : FlowNode) : Render (List String) :=
  layout.jumpOrHangup (layout.findEdge node.nodeId .default)

def renderHttpLookup (layout : Layout) (node : FlowNode) (endpointId : String)
    (waitPromptKey : Option String) (label : String) : Render (List String) := do
  assertNoNewlines endpointId "endpointId"
  let matchLabel := label ++ "-match"
  let wait ← playbackLine waitPromptKey
  let onFalse ← layout.jumpOrHangup (layout.findEdge node.nodeId .false)
  let onTrue ← layout.jumpOrHangup (layout.findEdge node.nodeId .true)
  pure (wait ++
    ["AGI(" ++ arsHttpLookupAgiPath ++ "," ++ endpointId ++ ")",
      "GotoIf($[\"" ++ varRef lookupStatusVar ++ "\"=\"MATCH\"]?" ++ matchLabel ++ ")"] ++
    onFalse ++
    ["(" ++ matchLabel ++ ")NoOp(ARS lookup matched " ++ varRef lookupValueVar ++ ")"] ++
    onTrue)

/-- `key ? toPlaybackTarget(key) : ''`. -/
def promptTarget (promptKey : Option String) : Render String :=
  match given promptKey with
  | some key => toPlaybackTarget key
  | none => pure ""

def renderCollectDigits (layout : Layout) (node : FlowNode) (config : CollectDigitsConfig)
    (label : String) : Render (List String) := do
  let prompt ← promptTarget config.promptKey
  let counter := "ARS_COLLECT_RETRY_" ++ toVariableName label
  let readLabel := label ++ "-read"
  let okLabel := label ++ "-ok"
  let onTimeout ← layout.jumpOrHangup (layout.findEdge node.nodeId .timeout)
  let next ← continueOrHangup layout node
  pure (
    ["Set(__" ++ counter ++ "=0)",
      "(" ++ readLabel ++ ")Read(" ++ collectInputVar ++ "," ++ prompt ++ "," ++
        toString config.maxDigits ++ ",,1," ++ toString config.timeoutSeconds ++ ")",
      "Set(__" ++ collectedDigitsVar ++ "=$\x7bFILTER(0-9," ++ varRef collectInputVar ++ ")\x7d)",
      "GotoIf($[$\x7bLEN(" ++ varRef collectedDigitsVar ++ ")\x7d>=" ++
        toString config.minDigits ++ "]?" ++ okLabel ++ ")",
      "Set(__" ++ counter ++ "=$[" ++ varRef counter ++ "+1])",
      "GotoIf($[" ++ varRef counter ++ "<=" ++ toString config.maxRetries ++ "]?" ++
        readLabel ++ ")"] ++
    onTimeout ++
    ["(" ++ okLabel ++ ")NoOp(ARS collected " ++ varRef collectedDigitsVar ++ ")"] ++
    next)

def renderCondition (layout : Layout) (node : FlowNode) (config : ConditionConfig)
    (label : String) : Render (List String) := do
  let otherwise ← layout.jumpOrHangup (layout.findEdge node.nodeId .false)
  match layout.findEdge node.nodeId .true with
  | none => pure otherwise
  | some onTrue =>
    let target ← layout.jump onTrue.toNodeId
    match target with
    | [line] =>
      pure (["GotoIfTime(" ++ buildTimeSpec config ++ "?" ++ stripGoto line ++ ")"] ++ otherwise)
    | _ =>
      let trueLabel := label ++ "-true"
      pure (["GotoIfTime(" ++ buildTimeSpec config ++ "?" ++ trueLabel ++ ")"] ++ otherwise ++
        ["(" ++ trueLabel ++ ")NoOp(ARS condition " ++ node.label ++ " matched)"] ++ target)

def renderInlineNode (layout : Layout) (node : FlowNode) (label : String) :
    Render (List String) :=
  match node.config with
  | .play promptKeys => do
    let plays ← promptKeys.mapM (fun key => do
      pure ("Playback(" ++ (← toPlaybackTarget key) ++ ")"))
    pure (plays ++ (← continueOrHangup layout node))
  | .sms smsTemplateId targetSource => do
    assertNoNewlines smsTemplateId "smsTemplateId"
    pure (
      ["Set(__SMART_ARS_SELECTED_SMS_TEMPLATE=" ++ smsTemplateId ++ ")",
        "System(" ++ buildSmartArsHookCommand "sms" (targetNumberExpression targetSource) ++ ")"]
      ++ (← continueOrHangup layout node))
  | .optOut action targetSource => do
    pure (
      ["Set(__OPT_OUT_TENANT_ID=" ++ varRef "SMART_ARS_TENANT_ID" ++ ")",
        "Set(__OPT_OUT_BRANCH_ID=" ++ varRef "SMART_ARS_BRANCH_ID" ++ ")",
        "Set(__REQUESTER_PHONE=" ++ callerNumberExpression ++ ")",
        "Set(__OPT_OUT_TARGET_PHONE=" ++ targetNumberExpression targetSource ++ ")",
        "Set(__OPT_OUT_SOURCE_TYPE=ARS_FLOW)",
        "Set(__OPT_OUT_SELECTED_SMS_TEMPLATE=-)",
        "System(" ++ buildOptOutHookCommand
          (if action = .unregister then "unregister" else "register") ++ ")"]
      ++ (← continueOrHangup layout node))
  | .condition config => renderCondition layout node config label
  | .collectDigits config => renderCollectDigits layout node config label
  | .httpLookup endpointId waitPromptKey =>
    renderHttpLookup layout node endpointId waitPromptKey label
  | _ => pure ["Hangup()"]

/-- One inline node of the main context: its label line and its body. -/
def renderLabeled (layout : Layout) (node : FlowNode) : Render (List String) := do
  let label := layout.labelOf node.nodeId
  let body ← renderInlineNode layout node label
  pure ((" same => n(" ++ label ++ "),NoOp(ARS node " ++ node.label ++ ")") ::
    body.map prefixSame)

def renderExtension (exten : String) (body : List String) : List String :=
  ("exten => " ++ exten ++ ",1," ++ body.headD "undefined") :: body.tail.map prefixSame

/-- The extension of one edge of a menu: `DIGIT` edges with a digit have one. -/
def renderDigit (layout : Layout) (edge : FlowEdge) : Render (List String) :=
  match edge.condition, given edge.digit with
  | .digit, some digit => do
    assertNoNewlines digit "digit"
    pure (renderExtension digit (← layout.jump edge.toNodeId))
  | _, _ => pure []

def menuPromptLine (config : MenuConfig) : Render (List String) :=
  match given config.promptKey with
  | some key => do
    pure [" same => n" ++ (if config.maxRetries > 0 then "(prompt)" else "") ++ ",Background(" ++
      (← toPlaybackTarget key) ++ ")"]
  | none => pure []

def renderInvalid (layout : Layout) (node : FlowNode) : Render (List String) :=
  match layout.findEdge node.nodeId .invalid with
  | some edge => do pure (renderExtension "i" (← layout.jump edge.toNodeId))
  | none => pure []

def renderMenuContext (layout : Layout) (node : FlowNode) (config : MenuConfig)
    (contextName : String) : Render (List String) := do
  let counter := "ARS_MENU_RETRY_" ++ toVariableName contextName
  let retries := config.maxRetries
  let count := if retries > 0 then [" same => n,Set(__" ++ counter ++ "=0)"] else []
  let prompt ← menuPromptLine config
  let digits ← (layout.outgoing node.nodeId).mapM (renderDigit layout)
  let giveUp ← layout.jumpOrHangup (layout.findEdge node.nodeId .timeout)
  let timeoutBody :=
    if retries > 0 && (given config.promptKey).isSome then
      ["Set(__" ++ counter ++ "=$[" ++ varRef counter ++ "+1])",
        "GotoIf($[" ++ varRef counter ++ "<=" ++ toString retries ++ "]?s,prompt)"] ++ giveUp
    else giveUp
  let invalid ← renderInvalid layout node
  pure (["[" ++ contextName ++ "]", "exten => s,1,NoOp(ARS menu " ++ node.label ++ ")"] ++ count ++
    prompt ++ [" same => n,WaitExten(" ++ toString config.timeoutSeconds ++ ")"] ++
    digits.flatten ++ renderExtension "t" timeoutBody ++ invalid)

def renderMenu (layout : Layout) (node : FlowNode) : Render (List String) :=
  match node.config with
  | .menu config => renderMenuContext layout node config (layout.menuContextOf node.nodeId)
  | _ => pure []

/-- The opening of the main context, up to the jump to the entry node. -/
def openingLines (input : ArsFlowRenderInput) : List String :=
  ["[" ++ mainContext input.graph ++ "]",
    "exten => s,1,NoOp(ARS flow " ++ input.graph.name ++ ")",
    " same => n,Answer()",
    " same => n,Set(CHANNEL(language)=)",
    " same => n,Set(__SMART_ARS_TENANT_ID=" ++ input.tenantId ++ ")",
    " same => n,Set(__SMART_ARS_BRANCH_ID=" ++ input.branchId.getD "-" ++ ")",
    " same => n,Set(__ENTRY_DID=" ++ input.did ++ ")"]

section
variable (localeCompare : String → String → Int)

def checkInput (input : ArsFlowRenderInput) : Render Unit :=
  if flowSlug input.graph = "" then
    throw "ARS flow has no usable name or id for a context slug"
  else if !input.graph.hasNode input.graph.entryNodeId then
    throw ("ARS flow entry node not found: " ++ input.graph.entryNodeId)
  else do
    assertNoNewlines input.did "did"
    assertNoNewlines input.tenantId "tenantId"
    match given input.branchId with
    | some branchId => assertNoNewlines branchId "branchId"
    | none => pure ()

/-- The lines of the contexts, the main one first. -/
def renderContexts (input : ArsFlowRenderInput) : Render (List (List String)) := do
  checkInput input
  let layout := layoutOf localeCompare input.graph
  let order := orderReachableNodes localeCompare input.graph
  let entry ← layout.jump input.graph.entryNodeId
  let inline ← (order.filter FlowNode.isInline).mapM (renderLabeled layout)
  let menus ← (order.filter FlowNode.isMenu).mapM (renderMenu layout)
  pure ((openingLines input ++ entry.map prefixSame ++ inline.flatten) :: menus)

def renderArsFlow (input : ArsFlowRenderInput) : Render String := do
  let contexts ← renderContexts localeCompare input
  pure ("\n\n".intercalate (contexts.map unlines))

end

end KasterCti.ArsFlow
