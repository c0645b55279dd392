import Mathlib.Data.List.Basic

/-!
# ARS flow graphs

`flow-graph.types.ts`: the graph that the editor saves, the validator checks and
the renderer compiles. A node's type is the constructor of its configuration.
-/

namespace KasterCti.ArsFlow

inductive FlowNodeType
  | play | menu | queue | transfer | sms | optOut | condition | hangup | collectDigits | httpLookup
deriving DecidableEq

def FlowNodeType.text : FlowNodeType → String
  | play => "PLAY"
  | menu => "MENU"
  | queue => "QUEUE"
  | transfer => "TRANSFER"
  | sms => "SMS"
  | optOut => "OPT_OUT"
  | condition => "CONDITION"
  | hangup => "HANGUP"
  | collectDigits => "COLLECT_DIGITS"
  | httpLookup => "HTTP_LOOKUP"

def flowNodeTypes : List FlowNodeType :=
  [.play, .menu, .queue, .transfer, .sms, .optOut, .condition, .hangup, .collectDigits, .httpLookup]

inductive FlowEdgeCondition
  | digit | timeout | invalid | true | false | default
deriving DecidableEq

def FlowEdgeCondition.text : FlowEdgeCondition → String
  | digit => "DIGIT"
  | timeout => "TIMEOUT"
  | invalid => "INVALID"
  | true => "TRUE"
  | false => "FALSE"
  | default => "DEFAULT"

def flowEdgeConditions : List FlowEdgeCondition :=
  [.digit, .timeout, .invalid, .true, .false, .default]

/-- Where a message or an opt-out takes its number from: the caller, or the
digits that a `COLLECT_DIGITS` node left. -/
inductive DigitTargetSource
  | caller | collected
deriving DecidableEq

inductive OptOutAction
  | register | unregister
deriving DecidableEq

inductive Weekday
  | mon | tue | wed | thu | fri | sat | sun
deriving DecidableEq

def Weekday.text : Weekday → String
  | mon => "mon"
  | tue => "tue"
  | wed => "wed"
  | thu => "thu"
  | fri => "fri"
  | sat => "sat"
  | sun => "sun"

def weekdays : List Weekday := [.mon, .tue, .wed, .thu, .fri, .sat, .sun]

def isDigitBetween (lo hi c : Char) : Bool := lo ≤ c && c ≤ hi

/-- `/^([01]\d|2[0-3]):[0-5]\d$/`. -/
def matchesTimePattern (s : String) : Bool :=
  match s.toList with
  | [a, b, ':', c, d] =>
    (isDigitBetween '0' '1' a && isDigitBetween '0' '9' b ||
      a == '2' && isDigitBetween '0' '3' b) &&
      isDigitBetween '0' '5' c && isDigitBetween '0' '9' d
  | _ => false

/-- A time of day as the parser lets it through. -/
structure ClockTime where
  text : String
  valid : matchesTimePattern text = true
deriving DecidableEq

theorem isDigit_of_between {lo hi c : Char} (hlo : '0' ≤ lo) (hhi : hi ≤ '9')
    (h : isDigitBetween lo hi c = true) : c.isDigit = true := by
  simp only [isDigitBetween, Bool.and_eq_true, decide_eq_true_eq] at h
  have h1 := Char.le_trans hlo h.1
  have h2 := Char.le_trans h.2 hhi
  simp only [Char.isDigit, ge_iff_le, Bool.and_eq_true, decide_eq_true_eq]
  exact ⟨h1, h2⟩

/-- A time of day is written with digits and a colon. -/
theorem clockTime_char {time : ClockTime} {c : Char} (hc : c ∈ time.text.toList) :
    c.isDigit = true ∨ c = ':' := by
  obtain ⟨text, valid⟩ := time
  unfold matchesTimePattern at valid
  split at valid
  · rename_i a b x d heq
    simp only [heq, List.mem_cons, List.not_mem_nil, or_false] at hc
    simp only [Bool.and_eq_true, Bool.or_eq_true, beq_iff_eq] at valid
    obtain ⟨⟨hours, hx⟩, hd⟩ := valid
    have ha : a.isDigit = true := by
      rcases hours with ⟨ha, _⟩ | ⟨rfl, _⟩
      · exact isDigit_of_between (by decide) (by decide) ha
      · rfl
    have hb : b.isDigit = true := by
      rcases hours with ⟨_, hb⟩ | ⟨_, hb⟩ <;> exact isDigit_of_between (by decide) (by decide) hb
    rcases hc with rfl | rfl | rfl | rfl | rfl
    · exact .inl ha
    · exact .inl hb
    · exact .inr rfl
    · exact .inl (isDigit_of_between (by decide) (by decide) hx)
    · exact .inl (isDigit_of_between (by decide) (by decide) hd)
  · cases valid

structure MenuConfig where
  promptKey : Option String
  timeoutSeconds : Nat
  maxRetries : Nat
deriving DecidableEq

/-- A `CONDITION` node tests a window of the day, or is the holiday condition. -/
inductive ConditionConfig
  | timeRange (timeStart timeEnd : ClockTime) (daysOfWeek : List Weekday)
  | holiday
deriving DecidableEq

structure CollectDigitsConfig where
  promptKey : Option String
  minDigits : Nat
  maxDigits : Nat
  timeoutSeconds : Nat
  maxRetries : Nat
deriving DecidableEq

inductive NodeConfig
  | play (promptKeys : List String)
  | menu (config : MenuConfig)
  | queue (queueName : String)
  | transfer (transferNumber : String)
  | sms (smsTemplateId : String) (targetSource : DigitTargetSource)
  | optOut (action : OptOutAction) (targetSource : DigitTargetSource)
  | condition (config : ConditionConfig)
  | hangup (promptKey : Option String)
  | collectDigits (config : CollectDigitsConfig)
  | httpLookup (endpointId : String) (waitPromptKey : Option String)
deriving DecidableEq

def NodeConfig.nodeType : NodeConfig → FlowNodeType
  | play _ => .play
  | menu _ => .menu
  | queue _ => .queue
  | transfer _ => .transfer
  | sms _ _ => .sms
  | optOut _ _ => .optOut
  | condition _ => .condition
  | hangup _ => .hangup
  | collectDigits _ => .collectDigits
  | httpLookup _ _ => .httpLookup

structure FlowNode where
  nodeId : String
  label : String
  config : NodeConfig
deriving DecidableEq

def FlowNode.nodeType (node : FlowNode) : FlowNodeType := node.config.nodeType

structure FlowEdge where
  edgeId : String
  fromNodeId : String
  toNodeId : String
  condition : FlowEdgeCondition
  digit : Option String
deriving DecidableEq

structure FlowGraph where
  flowId : String
  name : String
  entryNodeId : String
  nodes : List FlowNode
  edges : List FlowEdge
deriving DecidableEq

/-- `new Map(nodes.map((node) => [node.nodeId, node])).get(nodeId)`: of two nodes
with one id the later stays. -/
def FlowGraph.nodeById (graph : FlowGraph) (nodeId : String) : Option FlowNode :=
  graph.nodes.reverse.find? (fun node => node.nodeId = nodeId)

def FlowGraph.hasNode (graph : FlowGraph) (nodeId : String) : Bool :=
  (graph.nodeById nodeId).isSome

theorem FlowGraph.nodeById_nodeId {graph : FlowGraph} {nodeId : String} {node : FlowNode}
    (h : graph.nodeById nodeId = some node) : node.nodeId = nodeId := by
  simpa using List.find?_some h

theorem FlowGraph.nodeById_mem {graph : FlowGraph} {nodeId : String} {node : FlowNode}
    (h : graph.nodeById nodeId = some node) : node ∈ graph.nodes := by
  simpa using List.mem_of_find?_eq_some h

theorem FlowGraph.hasNode_iff {graph : FlowGraph} {nodeId : String} :
    graph.hasNode nodeId = true ↔ nodeId ∈ graph.nodes.map FlowNode.nodeId := by
  simp [FlowGraph.hasNode, FlowGraph.nodeById]

end KasterCti.ArsFlow
