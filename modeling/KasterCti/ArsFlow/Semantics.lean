import KasterCti.ArsFlow.Renderer
import KasterCti.Library.DialplanRun

/-!
# What a flow graph means

The graph read on its own, without a dialplan: a call is at a node, the node
decides with what the caller does which condition is taken, and the first edge
of that condition is followed. A missing edge ends the call. The edges come in
the order of the compiler, which is part of the meaning only where one condition
has several edges.
-/

namespace KasterCti.ArsFlow

open Dialplan

inductive LookupStatus
  | found | notFound | error
deriving DecidableEq

/-- The text that the lookup script leaves in the channel. -/
def LookupStatus.text : LookupStatus → Text
  | found => "MATCH".toList
  | notFound => "NOMATCH".toList
  | error => "ERROR".toList

structure LookupResult where
  status : LookupStatus
  value : Text
deriving DecidableEq

/-- What the caller and the outside do during a call, in order: what is typed at
each menu prompt (`none` for a timeout), the keys pressed at each request for
digits, the results of lookups, whether a time window is open when it is
tested. A call that asks for more than there is has lost its caller. -/
structure Behaviour where
  extens : List (Option Typed)
  reads : List Text
  lookups : List LookupResult
  windows : List Bool
deriving DecidableEq

/-- How a call leaves the flow. -/
inductive Ending
  | queue (queueName : String)
  | transfer (transferNumber : String)
  | hangup
  | gone
deriving DecidableEq

structure FlowState where
  node : FlowNode
  behaviour : Behaviour
  visited : List String
deriving DecidableEq

/-- How a call ended, with the nodes it visited, the last one first. Terminal
nodes show in the ending. -/
structure FlowResult where
  ending : Ending
  visited : List String
deriving DecidableEq

/-- The prompts at a menu: `retries` more of them after a timeout. `none` when the
caller is gone, else what was typed in the end. -/
def askMenu (retries : Nat) : List (Option Typed) → Option (Option Typed × List (Option Typed))
  | [] => none
  | some typed :: rest => some (some typed, rest)
  | none :: rest =>
    match retries with
    | 0 => some (none, rest)
    | retries + 1 => askMenu retries rest

/-- The digits among the keys that one request takes. -/
def collectedDigits (config : CollectDigitsConfig) (keys : Text) : Text :=
  (State.keptKeys config.maxDigits keys).filter isDigit

/-- The requests for digits, `retries` more of them while there are too few. The
answer says whether there were enough in the end. -/
def askDigits (config : CollectDigitsConfig) (retries : Nat) :
    List Text → Option (Bool × List Text)
  | [] => none
  | keys :: rest =>
    if config.minDigits ≤ (collectedDigits config keys).length then some (true, rest)
    else
      match retries with
      | 0 => some (false, rest)
      | retries + 1 => askDigits config retries rest

/-- A window that is open at all times is not asked for. -/
def askWindow (config : ConditionConfig) (windows : List Bool) : Option (Bool × List Bool) :=
  match config, windows with
  | .holiday, windows => some (true, windows)
  | .timeRange _ _ _, isOpen :: windows => some (isOpen, windows)
  | .timeRange _ _ _, [] => none

namespace FlowState

def finish (s : FlowState) (ending : Ending) : FlowState ⊕ FlowResult := .inr ⟨ending, s.visited⟩

/-- Go to a node: a terminal one ends the flow. -/
def enter (s : FlowState) (node : FlowNode) : FlowState ⊕ FlowResult :=
  match node.config with
  | .queue queueName => s.finish (.queue queueName)
  | .transfer transferNumber => s.finish (.transfer transferNumber)
  | .hangup _ => s.finish .hangup
  | _ => .inl { s with node := node }

/-- Follow an edge, a missing one being the end of the call. -/
def follow (layout : Layout) (s : FlowState) (edge : Option FlowEdge) : FlowState ⊕ FlowResult :=
  match edge with
  | none => s.finish .hangup
  | some edge =>
    match layout.graph.nodeById edge.toNodeId with
    | some node => s.enter node
    | none => s.finish .hangup

/-- Follow the first edge of a condition. -/
def take (layout : Layout) (s : FlowState) (condition : FlowEdgeCondition) :
    FlowState ⊕ FlowResult :=
  s.follow layout (layout.findEdge s.node.nodeId condition)

/-- The edge for what was typed at a menu. -/
def digitEdge (layout : Layout) (nodeId : String) (keys : Text) : Option FlowEdge :=
  (layout.outgoing nodeId).find? (fun edge => edge.condition = .digit &&
    (given edge.digit).map String.toList = some keys)

/-- What was typed picks its digit edge, anything else is invalid. -/
def takeTyped (layout : Layout) (s : FlowState) (keys : Text) : FlowState ⊕ FlowResult :=
  match digitEdge layout s.node.nodeId keys with
  | some edge => s.follow layout (some edge)
  | none => s.take layout .invalid

end FlowState

/-- A menu repeats its prompt, so without one it asks once. -/
def menuRetries (config : MenuConfig) : Nat :=
  if (given config.promptKey).isSome then config.maxRetries else 0

/-- One node of a call. -/
def flowStep (layout : Layout) (s : FlowState) : FlowState ⊕ FlowResult :=
  let s := { s with visited := s.node.nodeId :: s.visited }
  match s.node.config with
  | .menu config =>
    match askMenu (menuRetries config) s.behaviour.extens with
    | none => s.finish .gone
    | some (typed, extens) =>
      let s := { s with behaviour := { s.behaviour with extens := extens } }
      match typed with
      | some typed => s.takeTyped layout typed.keys
      | none => s.take layout .timeout
  | .collectDigits config =>
    match askDigits config config.maxRetries s.behaviour.reads with
    | none => s.finish .gone
    | some (enough, reads) =>
      { s with behaviour := { s.behaviour with reads := reads } }.take layout
        (if enough then .default else .timeout)
  | .condition config =>
    match askWindow config s.behaviour.windows with
    | none => s.finish .gone
    | some (isOpen, windows) =>
      { s with behaviour := { s.behaviour with windows := windows } }.take layout
        (if isOpen then .true else .false)
  | .httpLookup _ _ =>
    match s.behaviour.lookups with
    | [] => s.finish .gone
    | result :: lookups =>
      { s with behaviour := { s.behaviour with lookups := lookups } }.take layout
        (if result.status = LookupStatus.found then .true else .false)
  | _ => s.take layout .default

end KasterCti.ArsFlow
