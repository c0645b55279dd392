import KasterCti.ArsFlow.FlowGraph
import KasterCti.Library.Lines
import KasterCti.Library.JsText

/-!
# From a request to a flow graph

`node-config.parser.ts`, the DTOs of `dto/` and `toGraph` of
`ars-flow.service.ts`: which requests are accepted and which graph they become.
A request body is JSON; parsing a node's configuration types it, or fails with
the text the caller sees.
-/

namespace KasterCti.ArsFlow

open Lines

/-- A JSON value. A number is given by its value, when that is an integer, and by
the text that `String(value)` prints. -/
inductive Json
  | null
  | bool (b : Bool)
  | num (integer : Option Int) (text : String)
  | str (s : String)
  | arr (items : List Json)
  | obj (fields : List (String × Json))

abbrev Parse := Except String

/-! ## Reading fields -/

/-- `config[name]`: the last field of that name, `none` for `undefined`. -/
def fieldOf (config : List (String × Json)) (name : String) : Option Json :=
  (config.reverse.find? (fun field => field.1 = name)).map Prod.snd

mutual

/-- `String(value)`. An object that overrides `toString` by a value cannot be
converted. -/
def jsString : Json → Parse String
  | .null => pure "null"
  | .bool b => pure (if b then "true" else "false")
  | .num _ text => pure text
  | .str s => pure s
  | .arr items => do
    let parts ← jsItems items
    pure (",".intercalate parts)
  | .obj fields =>
    if (fields.map Prod.fst).contains "toString" then
      throw "Cannot convert object to primitive value"
    else pure "[object Object]"

/-- The parts of `items.join(',')`; `null` prints as nothing there. -/
def jsItems : List Json → Parse (List String)
  | [] => pure []
  | .null :: items => do
    let parts ← jsItems items
    pure ("" :: parts)
  | item :: items => do
    let part ← jsString item
    let parts ← jsItems items
    pure (part :: parts)

end

def assertNoNewline (value field : String) : Parse String :=
  if hasBreak value then throw (field ++ " must not contain a newline") else pure value

def requiredText (value : Option Json) (field : String) : Parse String :=
  match value with
  | some (.str s) => do
    let trimmed := JsText.trim (← assertNoNewline s field)
    if trimmed = "" then throw (field ++ " is required") else pure trimmed
  | _ => throw (field ++ " is required")

def optionalText (value : Option Json) (field : String) : Parse (Option String) :=
  match value with
  | none => pure none
  | some .null => pure none
  | some (.str s) => do
    let trimmed := JsText.trim (← assertNoNewline s field)
    pure (if trimmed = "" then none else some trimmed)
  | some _ => throw (field ++ " must be a string")

def requiredTime (value : Option Json) (field : String) : Parse ClockTime := do
  let text ← requiredText value field
  if h : matchesTimePattern text = true then pure ⟨text, h⟩
  else throw (field ++ " must be HH:MM")

structure Range where
  min : Nat
  max : Nat

def boundedInteger (value : Option Json) (field : String) (fallback : Nat) (range : Range) :
    Parse Nat :=
  let bounded (parsed : Option Int) : Parse Nat :=
    match parsed with
    | some n =>
      if n < range.min ∨ range.max < n then
        throw (field ++ " must be an integer between " ++ toString range.min ++ " and " ++
          toString range.max)
      else pure n.toNat
    | none =>
      throw (field ++ " must be an integer between " ++ toString range.min ++ " and " ++
        toString range.max)
  match value with
  | none => pure fallback
  | some .null => pure fallback
  | some (.num integer _) => bounded integer
  | some other => do bounded (JsText.parseInt (← jsString other))

def toCleanStringList (value : Option Json) (field : String) : Parse (List String) :=
  match value with
  | none => pure []
  | some .null => pure []
  | some (.arr items) => do
    let texts := items.filterMap (fun item => match item with | .str s => some s | _ => none)
    let trimmed ← texts.mapM (fun text => JsText.trim <$> assertNoNewline text field)
    pure (trimmed.filter (· ≠ ""))
  | some _ => throw (field ++ " must be an array")

/-! ## One parser per node type -/

def menuTimeoutRange : Range := ⟨1, 60⟩
def menuRetryRange : Range := ⟨0, 5⟩
def defaultMenuTimeoutSeconds : Nat := 5
def defaultMenuMaxRetries : Nat := 2
def collectDigitRange : Range := ⟨1, 32⟩
def defaultCollectMinDigits : Nat := 1
def defaultCollectMaxDigits : Nat := 11

def parsePlay (config : List (String × Json)) : Parse NodeConfig := do
  let promptKeys ← toCleanStringList (fieldOf config "promptKeys") "promptKeys"
  if promptKeys = [] then throw "PLAY node requires at least one entry in promptKeys"
  else pure (.play promptKeys)

def parseMenu (config : List (String × Json)) : Parse NodeConfig := do
  let promptKey ← optionalText (fieldOf config "promptKey") "promptKey"
  let timeoutSeconds ← boundedInteger (fieldOf config "timeoutSeconds") "timeoutSeconds"
    defaultMenuTimeoutSeconds menuTimeoutRange
  let maxRetries ← boundedInteger (fieldOf config "maxRetries") "maxRetries"
    defaultMenuMaxRetries menuRetryRange
  pure (.menu ⟨promptKey, timeoutSeconds, maxRetries⟩)

def parseQueue (config : List (String × Json)) : Parse NodeConfig := do
  pure (.queue (← requiredText (fieldOf config "queueName") "queueName"))

def parseTransfer (config : List (String × Json)) : Parse NodeConfig := do
  pure (.transfer (← requiredText (fieldOf config "transferNumber") "transferNumber"))

def parseTargetSource (value : Option Json) : Parse DigitTargetSource :=
  match value with
  | none => pure .caller
  | some .null => pure .caller
  | some given => do
    let text := JsText.toUpperCase (← requiredText (some given) "targetSource")
    if text = "CALLER" then pure .caller
    else if text = "COLLECTED" then pure .collected
    else throw ("unknown targetSource: " ++ (← jsString given))

def parseSms (config : List (String × Json)) : Parse NodeConfig := do
  let smsTemplateId ← requiredText (fieldOf config "smsTemplateId") "smsTemplateId"
  pure (.sms smsTemplateId (← parseTargetSource (fieldOf config "targetSource")))

def parseOptOut (config : List (String × Json)) : Parse NodeConfig := do
  let targetSource ← parseTargetSource (fieldOf config "targetSource")
  match fieldOf config "action" with
  | none => pure (.optOut .register targetSource)
  | some .null => pure (.optOut .register targetSource)
  | some given =>
    let action := JsText.toUpperCase (← requiredText (some given) "action")
    if action = "REGISTER" then pure (.optOut .register targetSource)
    else if action = "UNREGISTER" then pure (.optOut .unregister targetSource)
    else throw ("unknown OPT_OUT action: " ++ (← jsString given))

def parseCondition (config : List (String × Json)) : Parse NodeConfig := do
  let given := fieldOf config "conditionType"
  let conditionType := JsText.toUpperCase (← requiredText given "conditionType")
  if conditionType = "HOLIDAY" then pure (.condition .holiday)
  else if conditionType = "TIME_RANGE" then
    let timeStart ← requiredTime (fieldOf config "timeStart") "timeStart"
    let timeEnd ← requiredTime (fieldOf config "timeEnd") "timeEnd"
    let days ← toCleanStringList (fieldOf config "daysOfWeek") "daysOfWeek"
    let weekday (day : String) : Option Weekday :=
      weekdays.find? (fun d => d.text = JsText.toLowerCase day)
    pure (.condition (.timeRange timeStart timeEnd (days.filterMap weekday)))
  else throw ("unknown CONDITION type: " ++ (← (given.map jsString).getD (pure "undefined")))

def parseHangup (config : List (String × Json)) : Parse NodeConfig := do
  pure (.hangup (← optionalText (fieldOf config "promptKey") "promptKey"))

def parseCollectDigits (config : List (String × Json)) : Parse NodeConfig := do
  let minDigits ← boundedInteger (fieldOf config "minDigits") "minDigits"
    defaultCollectMinDigits collectDigitRange
  let maxDigits ← boundedInteger (fieldOf config "maxDigits") "maxDigits"
    defaultCollectMaxDigits collectDigitRange
  if maxDigits < minDigits then throw "minDigits must not be greater than maxDigits"
  let promptKey ← optionalText (fieldOf config "promptKey") "promptKey"
  let timeoutSeconds ← boundedInteger (fieldOf config "timeoutSeconds") "timeoutSeconds"
    defaultMenuTimeoutSeconds menuTimeoutRange
  let maxRetries ← boundedInteger (fieldOf config "maxRetries") "maxRetries"
    defaultMenuMaxRetries menuRetryRange
  pure (.collectDigits ⟨promptKey, minDigits, maxDigits, timeoutSeconds, maxRetries⟩)

def parseHttpLookup (config : List (String × Json)) : Parse NodeConfig := do
  let endpointId ← requiredText (fieldOf config "endpointId") "endpointId"
  pure (.httpLookup endpointId (← optionalText (fieldOf config "waitPromptKey") "waitPromptKey"))

def parseNodeConfig (nodeType : FlowNodeType) (raw : Json) : Parse NodeConfig :=
  match raw with
  | .obj config =>
    match nodeType with
    | .play => parsePlay config
    | .menu => parseMenu config
    | .queue => parseQueue config
    | .transfer => parseTransfer config
    | .sms => parseSms config
    | .optOut => parseOptOut config
    | .condition => parseCondition config
    | .hangup => parseHangup config
    | .collectDigits => parseCollectDigits config
    | .httpLookup => parseHttpLookup config
  | _ => throw ("node config must be an object (" ++ nodeType.text ++ ")")

/-! ## The request -/

structure ArsFlowNodeDto where
  nodeId : String
  nodeType : String
  label : String
  config : Json

structure ArsFlowEdgeDto where
  edgeId : String
  fromNodeId : String
  toNodeId : String
  condition : String
  digit : Option String

structure ReplaceArsFlowGraphDto where
  entryNodeId : String
  nodes : List ArsFlowNodeDto
  edges : List ArsFlowEdgeDto

def isHexDigit (c : Char) : Bool :=
  JsText.isDigit c || ('a' ≤ c && c ≤ 'f') || ('A' ≤ c && c ≤ 'F')

/-- `@IsUUID()`: five groups of hexadecimal digits. -/
def isUuid (s : String) : Bool :=
  let groups := s.toList.splitOnP (· == '-')
  groups.map List.length == [8, 4, 4, 4, 12] && groups.all (fun g => g.all isHexDigit)

def isObject : Json → Bool
  | .obj _ => true
  | _ => false

/-- `@IsNotEmpty()` with `@MaxLength(128)`. -/
def isShortText (s : String) : Bool := s ≠ "" && s.toList.length ≤ 128

def ArsFlowNodeDto.accepted (dto : ArsFlowNodeDto) : Bool :=
  isUuid dto.nodeId && (flowNodeTypes.map FlowNodeType.text).contains dto.nodeType &&
    isShortText dto.label && isObject dto.config

def ArsFlowEdgeDto.accepted (dto : ArsFlowEdgeDto) : Bool :=
  isUuid dto.edgeId && isUuid dto.fromNodeId && isUuid dto.toNodeId &&
    (flowEdgeConditions.map FlowEdgeCondition.text).contains dto.condition &&
    dto.digit.all (fun digit => digit.toList.length ≤ 2)

def maxNodes : Nat := 200
def maxEdges : Nat := 400

def ReplaceArsFlowGraphDto.accepted (dto : ReplaceArsFlowGraphDto) : Bool :=
  isUuid dto.entryNodeId && dto.nodes.length ≤ maxNodes && dto.edges.length ≤ maxEdges &&
    dto.nodes.all ArsFlowNodeDto.accepted && dto.edges.all ArsFlowEdgeDto.accepted

/-- `CreateArsFlowDto.name`: trimmed, then checked; `none` when the request is
refused. -/
def createName (raw : String) : Option String :=
  let name := JsText.trim raw
  if isShortText name then some (JsText.trim name) else none

def toNode (dto : ArsFlowNodeDto) : Parse FlowNode :=
  match flowNodeTypes.find? (fun nodeType => nodeType.text = dto.nodeType) with
  | none => throw ("unknown flow node type: " ++ dto.nodeType)
  | some nodeType =>
    match parseNodeConfig nodeType dto.config with
    | .ok config => pure ⟨dto.nodeId, dto.label, config⟩
    | .error message =>
      throw ("node \"" ++ dto.label ++ "\" has an invalid config: " ++ message)

def toEdge (dto : ArsFlowEdgeDto) : Parse FlowEdge :=
  match flowEdgeConditions.find? (fun condition => condition.text = dto.condition) with
  | none => throw ("unknown flow edge condition: " ++ dto.condition)
  | some condition => pure ⟨dto.edgeId, dto.fromNodeId, dto.toNodeId, condition, dto.digit⟩

def toGraph (flowId name : String) (dto : ReplaceArsFlowGraphDto) : Parse FlowGraph := do
  let nodes ← dto.nodes.mapM toNode
  let edges ← dto.edges.mapM toEdge
  pure ⟨flowId, name, dto.entryNodeId, nodes, edges⟩

end KasterCti.ArsFlow
