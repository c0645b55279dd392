import KasterCti.ArsFlow.Compiled
import Mathlib.Logic.Relation

/-!
# Collected digits

The validator searches for a path to a node that takes the collected digits without a
successful request for digits on the way. The channel has one variable for them, and every
request overwrites it, a failed one with what was typed. So the digits are there when the
nodes that take them are behind a successful request from the entry and from every edge of a
failed request as well.
-/

namespace KasterCti.ArsFlow

open Dialplan Machine Renderers Lines

/-- A step of the validator's search. -/
def Uncollected (graph : FlowGraph) (a b : String) : Prop := b ∈ uncollectedNext graph a

section Search
variable {graph : FlowGraph}

theorem uncollectedNext_inside (a : String) (_ : a ∈ graph.nodes.map FlowNode.nodeId) (b : String)
    (h : b ∈ uncollectedNext graph a) : b ∈ graph.nodes.map FlowNode.nodeId := by
  obtain ⟨edge, hedge, rfl⟩ := List.mem_map.mp h
  have hfrom := (List.mem_filter.mp (List.mem_filter.mp hedge).1).2
  simp only [Bool.and_eq_true] at hfrom
  exact FlowGraph.hasNode_iff.mp hfrom.2

/-- What the search accepts takes no digits where none have been collected. -/
theorem source_of_checked (h : checkCollectedTargets graph = [])
    (hentry : graph.hasNode graph.entryNodeId = true) {node : FlowNode} (hnode : node ∈ graph.nodes)
    (hpath : Relation.ReflTransGen (Uncollected graph) graph.entryNodeId node.nodeId) :
    targetSourceOf node ≠ some .collected := by
  intro hsource
  have hmem : node ∈ graph.nodes.filter (fun node => targetSourceOf node = some .collected) :=
    List.mem_filter.mpr ⟨hnode, by simpa using hsource⟩
  have hin : ∀ id, Relation.ReflTransGen (Uncollected graph) graph.entryNodeId id →
      id ∈ Bfs.order (uncollectedNext graph) graph.nodes.length graph.entryNodeId := by
    have hstart := FlowGraph.hasNode_iff.mp hentry
    intro id hpath
    induction hpath with
    | refl => exact Bfs.start_mem_order (by simpa using List.length_pos_of_mem hstart)
    | tail _ hstep ih => exact Bfs.order_closed uncollectedNext_inside hstart (by simp) ih hstep
  have hne : graph.nodes.filter (fun node => targetSourceOf node = some .collected) ≠ [] :=
    List.ne_nil_of_mem hmem
  simp only [checkCollectedTargets, hne, hentry, decide_false, Bool.not_true, Bool.or_false,
    Bool.false_eq_true, if_false, List.map_eq_nil_iff, List.filter_eq_nil_iff] at h
  exact h node hmem (by simpa using hin _ hpath)

end Search

/-- The search, started again behind every failed request. -/
def refillsDigits (layout : Layout) (order : List FlowNode) : Bool :=
  order.all (fun node => node.nodeType ≠ .collectDigits ||
    (layout.findEdge node.nodeId .timeout).all (fun edge =>
      checkCollectedTargets { layout.graph with entryNodeId := edge.toNodeId } = []))

/-- The nodes at which the digits may be missing. -/
def Missing (layout : Layout) (order : List FlowNode) (nodeId : String) : Prop :=
  ∃ start, (start = layout.graph.entryNodeId ∨ ∃ node ∈ order, node.nodeType = .collectDigits ∧
      ∃ edge, layout.findEdge node.nodeId .timeout = some edge ∧ start = edge.toNodeId) ∧
    Relation.ReflTransGen (Uncollected layout.graph) start nodeId

section Zone
variable {localeCompare : String → String → Int} {graph : FlowGraph}

theorem zone_missing (hentry : graph.hasNode graph.entryNodeId = true) :
    Zone (layoutOf localeCompare graph) (orderReachableNodes localeCompare graph)
      (Missing (layoutOf localeCompare graph) (orderReachableNodes localeCompare graph)) where
  timeout := by
    intro node hnode config hconfig edge hedge
    have hcollects : node.nodeType = .collectDigits := by
      rw [FlowNode.nodeType, hconfig]
      rfl
    exact ⟨edge.toNodeId, .inr ⟨node, hnode, hcollects, edge, hedge, rfl⟩, .refl⟩
  next := by
    rintro node hnode ⟨start, hstart, hpath⟩ edge hedge hfails
    refine ⟨start, hstart, hpath.tail ?_⟩
    have hknown : graph.nodeById node.nodeId = some node :=
      (layoutOf_sound hentry).known node hnode
    have hfrom : edge ∈ edgesFrom graph node.nodeId := by
      have hmem : edge ∈ buildOutgoing localeCompare graph node.nodeId := hedge
      rwa [buildOutgoing, List.mem_insertionSort] at hmem
    refine List.mem_map_of_mem (List.mem_filter.mpr ⟨hfrom, ?_⟩)
    show (!((graph.nodeById node.nodeId).any (fun node => node.nodeType = .collectDigits) &&
      edge.condition = .default)) = true
    rw [hknown, Option.any_some]
    cases hconfig : node.config
    case collectDigits config =>
      have hne := hfails config hconfig
      simp [hne]
    all_goals simp [FlowNode.nodeType, NodeConfig.nodeType, hconfig]

/-- Where the digits may be missing no node takes them. -/
theorem source_of_missing (hentry : graph.hasNode graph.entryNodeId = true)
    (hchecked : checkCollectedTargets graph = [])
    (hrefills : refillsDigits (layoutOf localeCompare graph)
      (orderReachableNodes localeCompare graph) = true) {node : FlowNode}
    (hnode : node ∈ orderReachableNodes localeCompare graph)
    (hmissing : Missing (layoutOf localeCompare graph) (orderReachableNodes localeCompare graph)
      node.nodeId) : targetSourceOf node ≠ some .collected := by
  have hmem : node ∈ graph.nodes :=
    FlowGraph.nodeById_mem ((layoutOf_sound hentry).known node hnode)
  obtain ⟨start, hstart, hpath⟩ := hmissing
  rcases hstart with rfl | ⟨other, hother, hcollects, edge, hedge, rfl⟩
  · exact source_of_checked hchecked hentry hmem hpath
  · have hagain := List.all_eq_true.mp hrefills other hother
    simp only [hcollects, hedge, ne_eq, not_true_eq_false, decide_false, Bool.false_or,
      Option.all_some, decide_eq_true_eq] at hagain
    have htarget : graph.hasNode edge.toNodeId = true :=
      (mem_buildOutgoing (findEdge_eq_some hedge).1).2.2
    have hagain' : checkCollectedTargets { graph with entryNodeId := edge.toNodeId } = [] := hagain
    exact source_of_checked hagain' htarget hmem hpath

end Zone

/-! ## Accepted flows -/

theorem ok_of_isSome {α ε : Type} {r : Except ε α} (h : r.toOption.isSome = true) :
    ∃ x, r = .ok x := by
  cases r with
  | ok x => exact ⟨x, rfl⟩
  | error e => cases h

set_option maxRecDepth 2000

/-- Two requests for digits in front of an opt-out, the edges given. -/
def exRequests (edges : List FlowEdge) : ArsFlowRenderInput where
  graph := ⟨exNodeId, "main", "a",
    [⟨"a", "pin", .collectDigits ⟨none, 4, 8, 5, 0⟩⟩,
      ⟨"b", "phone", .collectDigits ⟨none, 10, 11, 5, 0⟩⟩, ⟨"o", "stop", .optOut .register .collected⟩],
    edges⟩
  did := "0215880000"
  tenantId := exNodeId
  branchId := none

def exEdges : List FlowEdge := [⟨"e", "a", "o", .default, none⟩]

/-- The opt-out is behind a failed second request. -/
def exTimeout : List FlowEdge :=
  [⟨"e", "a", "b", .default, none⟩, ⟨"f", "b", "o", .timeout, none⟩]

def exReads : Behaviour := ⟨[], ["12345678".toList, "12".toList], [], []⟩

/-- Where the opt-out takes its number. -/
def exTaking : Step :=
  plainStep "Set" ("__OPT_OUT_TARGET_PHONE=" ++ targetNumberExpression .collected)

/-- The entries of a loaded flow and the call after some steps: what it runs next, and what
it has collected. -/
def exShown (input : ArsFlowRenderInput) (behaviour : Behaviour) (n : Nat) :
    Option (Option Step × Option Nat × Option Text) :=
  let dialplan := (flowSections codePointCompare input).flatMap Section.entries
  (stateAfter (step dialplan (fun _ _ => [])) n (callInto input.graph [] behaviour)).map (fun s =>
    let view := viewOf (layoutOf codePointCompare input.graph)
      (orderReachableNodes codePointCompare input.graph) s
    (stepAt dialplan s.pos, view.collect.map CollectDigitsConfig.minDigits, view.digits))

theorem shown {input : ArsFlowRenderInput} {text : String} {behaviour : Behaviour} {n : Nat}
    (htext : renderArsFlow codePointCompare input = .ok text)
    (hclean : input.clean codePointCompare = true) {code : Step} {least : Option Nat}
    {digits : Option Text} (h : exShown input behaviour n = some (some code, least, digits)) :
    ∃ s, Comes (step (load text) (fun _ _ => [])) (callInto input.graph [] behaviour) (.inl s) ∧
      stepAt (load text) s.pos = some code ∧
      (viewOf (layoutOf codePointCompare input.graph)
        (orderReachableNodes codePointCompare input.graph) s).collect.map
          CollectDigitsConfig.minDigits = least ∧
      (viewOf (layoutOf codePointCompare input.graph)
        (orderReachableNodes codePointCompare input.graph) s).digits = digits := by
  rw [load_renderArsFlow htext hclean]
  obtain ⟨s, hs, hshown⟩ := Option.map_eq_some_iff.mp h
  simp only [Prod.mk.injEq] at hshown
  exact ⟨s, comes_of_stateAfter hs, hshown⟩

end KasterCti.ArsFlow
