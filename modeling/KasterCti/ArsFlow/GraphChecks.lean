import KasterCti.ArsFlow.ReadBack
import KasterCti.ArsFlow.Validator
import KasterCti.Library.BfsDepth
import KasterCti.Library.Dfs

/-!
# What the graph checks find

The searches of the validator and of the compiler, in terms of the paths and cycles of the
graph: its edges are those between two nodes that exist.
-/

namespace KasterCti.ArsFlow

/-! ## The graph -/

/-- An edge between two nodes that exist. -/
def GoesTo (graph : FlowGraph) (a b : String) : Prop :=
  ∃ edge ∈ graph.edges, edge.fromNodeId = a ∧ edge.toNodeId = b ∧
    a ∈ graph.nodes.map FlowNode.nodeId ∧ b ∈ graph.nodes.map FlowNode.nodeId

/-- A node at which a call waits until the caller presses a key. -/
def WaitsForCaller (graph : FlowGraph) (nodeId : String) : Prop :=
  ∃ node ∈ graph.nodes, node.nodeId = nodeId ∧
    (node.nodeType = .menu ∨ node.nodeType = .collectDigits)

/-- An edge between nodes that do not wait. -/
def LeadsUnasked (graph : FlowGraph) (a b : String) : Prop :=
  GoesTo graph a b ∧ ¬ WaitsForCaller graph a ∧ ¬ WaitsForCaller graph b

def FlowGraph.DistinctIds (graph : FlowGraph) : Prop :=
  (graph.nodes.map FlowNode.nodeId).Nodup

/-- An issue of the given code about a node. -/
def Reports (issues : List FlowIssue) (code nodeId : String) : Prop :=
  ∃ issue ∈ issues, issue.code = code ∧ issue.nodeId = some nodeId

section Graph
variable {graph : FlowGraph}

theorem mem_edgesFrom {nodeId : String} {edge : FlowEdge} :
    edge ∈ edgesFrom graph nodeId ↔ edge ∈ graph.edges ∧ edge.fromNodeId = nodeId ∧
      nodeId ∈ graph.nodes.map FlowNode.nodeId ∧
      edge.toNodeId ∈ graph.nodes.map FlowNode.nodeId := by
  rw [edgesFrom, List.mem_filter]
  simp only [Bool.and_eq_true, decide_eq_true_eq, FlowGraph.hasNode_iff]
  constructor
  · rintro ⟨hedge, ⟨rfl, hfrom⟩, hto⟩
    exact ⟨hedge, rfl, hfrom, hto⟩
  · rintro ⟨hedge, rfl, hfrom, hto⟩
    exact ⟨hedge, ⟨rfl, hfrom⟩, hto⟩

theorem mem_buildAdjacency {a b : String} : b ∈ buildAdjacency graph a ↔ GoesTo graph a b := by
  rw [buildAdjacency, List.mem_map]
  constructor
  · rintro ⟨edge, hedge, rfl⟩
    obtain ⟨hmem, hfrom, ha, hb⟩ := mem_edgesFrom.mp hedge
    exact ⟨edge, hmem, hfrom, rfl, ha, hb⟩
  · rintro ⟨edge, hmem, hfrom, rfl, ha, hb⟩
    exact ⟨edge, mem_edgesFrom.mpr ⟨hmem, hfrom, ha, hb⟩, rfl⟩

/-- The compiler sorts the same edges. -/
theorem mem_outgoing {localeCompare : String → String → Int} {a b : String} :
    b ∈ (buildOutgoing localeCompare graph a).map FlowEdge.toNodeId ↔ GoesTo graph a b := by
  rw [← mem_buildAdjacency, buildAdjacency]
  exact ((List.perm_insertionSort _ _).map FlowEdge.toNodeId).mem_iff

theorem leads_inside (a : String) (_ : a ∈ graph.nodes.map FlowNode.nodeId) (b : String)
    (h : b ∈ buildAdjacency graph a) : b ∈ graph.nodes.map FlowNode.nodeId := by
  obtain ⟨_, _, _, _, _, hb⟩ := mem_buildAdjacency.mp h
  exact hb

theorem buildAdjacency_rel :
    (fun a b => b ∈ buildAdjacency graph a) = GoesTo graph := by
  funext a b
  exact propext mem_buildAdjacency

/-- With distinct ids a node is found under its id. -/
theorem nodeById_of_mem (h : graph.DistinctIds) {node : FlowNode} (hnode : node ∈ graph.nodes) :
    graph.nodeById node.nodeId = some node := by
  obtain ⟨other, hother⟩ := Option.isSome_iff_exists.mp
    (FlowGraph.hasNode_iff.mpr (List.mem_map_of_mem hnode) :
      (graph.nodeById node.nodeId).isSome = true)
  have hsame := List.inj_on_of_nodup_map h (FlowGraph.nodeById_mem hother) hnode
    (FlowGraph.nodeById_nodeId hother)
  rw [hother, hsame]

theorem escapable_iff (h : graph.DistinctIds) {nodeId : String} :
    escapable graph nodeId = true ↔ WaitsForCaller graph nodeId := by
  simp only [escapable, Option.any_eq_true, Bool.or_eq_true, decide_eq_true_eq]
  constructor
  · rintro ⟨node, hnode, htype⟩
    exact ⟨node, FlowGraph.nodeById_mem hnode, FlowGraph.nodeById_nodeId hnode, htype⟩
  · rintro ⟨node, hnode, rfl, htype⟩
    exact ⟨node, nodeById_of_mem h hnode, htype⟩

end Graph

/-! ## Codes -/

section Codes
variable {graph : FlowGraph} {context : FlowValidationContext} {issue : FlowIssue}

theorem code_checkEntryNode (h : issue ∈ checkEntryNode graph) :
    issue.code = "ENTRY_NODE_NOT_FOUND" := by
  unfold checkEntryNode at h
  split at h
  · obtain rfl := List.mem_singleton.mp h
    rfl
  · cases h

theorem code_checkEdgeEndpoints (h : issue ∈ checkEdgeEndpoints graph) :
    issue.code = "EDGE_SOURCE_NOT_FOUND" ∨ issue.code = "EDGE_TARGET_NOT_FOUND" := by
  obtain ⟨edge, _, h⟩ := List.mem_flatMap.mp h
  rcases List.mem_append.mp h with h | h
  · split at h
    · cases h
    · exact .inl (List.mem_singleton.mp h ▸ rfl)
  · split at h
    · cases h
    · exact .inr (List.mem_singleton.mp h ▸ rfl)

theorem code_menuDigitIssues {seen : List (String × String)} {edges : List FlowEdge}
    (h : issue ∈ menuDigitIssues graph seen edges) : issue.code = "DUPLICATE_MENU_DIGIT" := by
  induction edges generalizing seen with
  | nil => cases h
  | cons edge edges ih =>
    rw [menuDigitIssues] at h
    split at h
    · exact ih h
    · rcases List.mem_append.mp h with h | h
      · split at h
        · exact List.mem_singleton.mp h ▸ rfl
        · cases h
      · exact ih h

theorem code_pushMissingPrompt {prompts : List String} {promptKey : Option String}
    {nodeId : String} (h : issue ∈ pushMissingPrompt prompts promptKey nodeId) :
    issue.code = "PROMPT_NOT_FOUND" := by
  unfold pushMissingPrompt at h
  split at h
  · cases h
  · split at h
    · cases h
    · exact List.mem_singleton.mp h ▸ rfl

theorem code_checkTargetsExist (h : issue ∈ checkTargetsExist graph context) :
    issue.code = "QUEUE_NOT_FOUND" ∨ issue.code = "PROMPT_NOT_FOUND" ∨
      issue.code = "SMS_TEMPLATE_NOT_FOUND" := by
  obtain ⟨node, _, h⟩ := List.mem_flatMap.mp h
  split at h
  · split at h
    · cases h
    · exact .inl (List.mem_singleton.mp h ▸ rfl)
  · obtain ⟨key, _, h⟩ := List.mem_flatMap.mp h
    exact .inr (.inl (code_pushMissingPrompt h))
  · exact .inr (.inl (code_pushMissingPrompt h))
  · exact .inr (.inl (code_pushMissingPrompt h))
  · exact .inr (.inl (code_pushMissingPrompt h))
  · exact .inr (.inl (code_pushMissingPrompt h))
  · split at h
    · cases h
    · exact .inr (.inr (List.mem_singleton.mp h ▸ rfl))
  · cases h

theorem code_checkDepth (h : issue ∈ checkDepth graph) : issue.code = "DEPTH_EXCEEDED" := by
  unfold checkDepth at h
  split at h
  · cases h
  · obtain ⟨entry, _, rfl⟩ := List.mem_map.mp h
    rfl

theorem code_checkTrappedCycles (h : issue ∈ checkTrappedCycles graph) :
    issue.code = "TRAPPED_CYCLE" := by
  obtain ⟨nodeId, _, rfl⟩ := List.mem_map.mp h
  rfl

theorem code_checkCollectedTargets (h : issue ∈ checkCollectedTargets graph) :
    issue.code = "DIGITS_NOT_COLLECTED" := by
  unfold checkCollectedTargets at h
  dsimp only at h
  split at h
  · cases h
  · obtain ⟨node, _, rfl⟩ := List.mem_map.mp h
    rfl

theorem code_lookupErrors {node : FlowNode} {endpointId : String}
    (h : issue ∈ lookupErrors graph context node endpointId) :
    issue.code = "HTTP_ENDPOINT_NOT_FOUND" ∨ issue.code = "HTTP_LOOKUP_WITHOUT_FALLBACK" := by
  rcases List.mem_append.mp h with h | h
  · split at h
    · cases h
    · exact .inl (List.mem_singleton.mp h ▸ rfl)
  · split at h
    · cases h
    · exact .inr (List.mem_singleton.mp h ▸ rfl)

theorem code_checkHttpLookupErrors (h : issue ∈ checkHttpLookupErrors graph context) :
    issue.code = "HTTP_ENDPOINT_NOT_FOUND" ∨ issue.code = "HTTP_LOOKUP_WITHOUT_FALLBACK" ∨
      issue.code = "TOO_MANY_HTTP_LOOKUPS" := by
  unfold checkHttpLookupErrors at h
  split at h
  · cases h
  · rcases List.mem_append.mp h with h | h
    · obtain ⟨node, _, h⟩ := List.mem_flatMap.mp h
      split at h
      · rcases code_lookupErrors h with hcode | hcode
        · exact .inl hcode
        · exact .inr (.inl hcode)
      · cases h
    · split at h
      · exact .inr (.inr (List.mem_singleton.mp h ▸ rfl))
      · cases h

theorem code_lookupWarnings (h : issue ∈ checkHttpLookupWarnings graph context) :
    issue.code = "HTTP_LOOKUP_WITHOUT_MATCH_BRANCH" ∨
      issue.code = "HTTP_LOOKUP_WAIT_TOO_LONG" := by
  obtain ⟨node, _, h⟩ := List.mem_flatMap.mp h
  split at h
  · rcases List.mem_append.mp h with h | h
    · split at h
      · cases h
      · exact .inl (List.mem_singleton.mp h ▸ rfl)
    · split at h
      · split at h
        · exact .inr (List.mem_singleton.mp h ▸ rfl)
        · cases h
      · cases h
  · cases h

/-- Each of the errors below comes from its own check. -/
theorem mem_errors (h : issue ∈ (validateFlowGraph graph context).errors) :
    (issue.code = "DEPTH_EXCEEDED" → issue ∈ checkDepth graph) ∧
      (issue.code = "TRAPPED_CYCLE" → issue ∈ checkTrappedCycles graph) ∧
      (issue.code = "TOO_MANY_HTTP_LOOKUPS" → issue ∈ checkHttpLookupErrors graph context) := by
  simp only [validateFlowGraph, List.mem_append, or_assoc] at h
  rcases h with h | h | h | h | h | h | h | h
  · rw [code_checkEntryNode h]
    simp
  · rcases code_checkEdgeEndpoints h with hcode | hcode <;> rw [hcode] <;> simp
  · rw [code_menuDigitIssues h]
    simp
  · rcases code_checkTargetsExist h with hcode | hcode | hcode <;> rw [hcode] <;> simp
  · rw [code_checkDepth h]
    exact ⟨fun _ => h, by simp, by simp⟩
  · rw [code_checkTrappedCycles h]
    exact ⟨by simp, fun _ => h, by simp⟩
  · rw [code_checkCollectedTargets h]
    simp
  · rcases code_checkHttpLookupErrors h with hcode | hcode | hcode <;> rw [hcode]
    · simp
    · simp
    · exact ⟨by simp, by simp, fun _ => h⟩

theorem mem_warnings (h : issue ∈ (validateFlowGraph graph context).warnings)
    (hcode : issue.code = "UNREACHABLE_NODE") : issue ∈ checkReachability graph := by
  rcases List.mem_append.mp h with h | h
  · exact h
  · rcases code_lookupWarnings h with hother | hother <;> rw [hother] at hcode <;>
      exact absurd hcode (by decide)

end Codes

/-! ## Cycles without an exit -/

def CycleWalk.toWalk (walk : CycleWalk) : Dfs.Walk String :=
  ⟨walk.visiting, walk.visited, walk.reported⟩

section Cycles
variable {graph : FlowGraph}

theorem walkCycles_toWalk (fuel : Nat) (nodeId : String) (walk : CycleWalk) :
    (walkCycles graph fuel nodeId walk).toWalk =
      Dfs.walk (buildAdjacency graph) (escapable graph) fuel nodeId walk.toWalk := by
  induction fuel generalizing nodeId walk with
  | zero => rfl
  | succ fuel ih =>
    have hfold : ∀ (vs : List String) (start : CycleWalk),
        (vs.foldl (fun walk next => walkCycles graph fuel next walk) start).toWalk =
          vs.foldl (fun walk next =>
            Dfs.walk (buildAdjacency graph) (escapable graph) fuel next walk) start.toWalk := by
      intro vs start
      exact (List.foldl_hom CycleWalk.toWalk (fun walk next => (ih next walk).symm)).symm
    rw [walkCycles, Dfs.walk]
    change _ = if (escapable graph nodeId || decide (nodeId ∈ walk.visited)) = true then _
      else if nodeId ∈ walk.visiting then if nodeId ∈ walk.reported then _ else _ else _
    split_ifs
    · rfl
    · rfl
    · rfl
    · have hinside := hfold (buildAdjacency graph nodeId)
        { walk with visiting := nodeId :: walk.visiting }
      simp only [CycleWalk.toWalk] at hinside ⊢
      rw [← hinside]

theorem edge_iff (h : graph.DistinctIds) {a b : String} :
    Dfs.Edge (buildAdjacency graph) (escapable graph) a b ↔ LeadsUnasked graph a b := by
  rw [Dfs.Edge, LeadsUnasked, ← mem_buildAdjacency, ← escapable_iff h, ← escapable_iff h,
    Bool.not_eq_true, Bool.not_eq_true]
  constructor
  · rintro ⟨ha, hb, hab⟩
    exact ⟨hab, ha, hb⟩
  · rintro ⟨hab, ha, hb⟩
    exact ⟨ha, hb, hab⟩

theorem trappedNodes_ne_nil (h : graph.DistinctIds) :
    trappedNodes graph ≠ [] ↔ ∃ nodeId, Relation.TransGen (LeadsUnasked graph) nodeId nodeId := by
  have hedge : Dfs.Edge (buildAdjacency graph) (escapable graph) = LeadsUnasked graph := by
    funext a b
    exact propext (edge_iff h)
  have htrapped : trappedNodes graph =
      ((graph.nodes.map FlowNode.nodeId).foldl (fun walk nodeId =>
        Dfs.walk (buildAdjacency graph) (escapable graph) (graph.nodes.length + 1) nodeId walk)
        ⟨[], [], []⟩).reported := by
    rw [List.foldl_map]
    exact congrArg Dfs.Walk.reported (List.foldl_hom CycleWalk.toWalk
      (fun walk node => (walkCycles_toWalk (graph.nodes.length + 1) node.nodeId walk).symm)).symm
  rw [htrapped, Dfs.walk_reports_iff leads_inside (by simp), hedge]
  constructor
  · rintro ⟨nodeId, _, hcycle⟩
    exact ⟨nodeId, hcycle⟩
  · rintro ⟨nodeId, hcycle⟩
    obtain ⟨_, ⟨⟨_, _, _, _, hnode, _⟩, _⟩, _⟩ := Relation.TransGen.head'_iff.mp hcycle
    exact ⟨nodeId, hnode, hcycle⟩

/-- A trapped cycle is reported exactly if there is one. -/
theorem trapped_cycle_iff (context : FlowValidationContext) (h : graph.DistinctIds) :
    (∃ issue ∈ (validateFlowGraph graph context).errors, issue.code = "TRAPPED_CYCLE") ↔
      ∃ nodeId, Relation.TransGen (LeadsUnasked graph) nodeId nodeId := by
  rw [← trappedNodes_ne_nil h]
  constructor
  · rintro ⟨issue, hissue, hcode⟩ hnil
    have hmem := (mem_errors hissue).2.1 hcode
    rw [checkTrappedCycles, hnil] at hmem
    cases hmem
  · intro hne
    obtain ⟨nodeId, hnode⟩ := List.exists_mem_of_ne_nil _ hne
    refine ⟨_, ?_, code_checkTrappedCycles (List.mem_map_of_mem hnode)⟩
    simp only [validateFlowGraph, List.mem_append]
    exact .inl (.inl (.inr (List.mem_map_of_mem hnode)))

end Cycles

/-- Two messages that lead to each other, and a menu on the way of a third. -/
def loopGraph : FlowGraph where
  flowId := "loop"
  name := "loop"
  entryNodeId := "a"
  nodes := [⟨"a", "a", .play ["hello"]⟩, ⟨"b", "b", .play ["again"]⟩, ⟨"m", "m", .menu ⟨none, 5, 0⟩⟩]
  edges := [⟨"1", "a", "b", .default, none⟩, ⟨"2", "b", "a", .default, none⟩,
    ⟨"3", "b", "m", .default, none⟩, ⟨"4", "m", "b", .digit, some "1"⟩]

theorem trapped_cycle_loopGraph :
    loopGraph.DistinctIds ∧
      ((∃ issue ∈ (validateFlowGraph loopGraph ⟨[], [], [], []⟩).errors,
        issue.code = "TRAPPED_CYCLE") ↔
        ∃ nodeId, Relation.TransGen (LeadsUnasked loopGraph) nodeId nodeId) :=
  ⟨by simp [FlowGraph.DistinctIds, loopGraph],
    trapped_cycle_iff ⟨[], [], [], []⟩ (by simp [FlowGraph.DistinctIds, loopGraph])⟩

/-! ## Reachability and depth -/

section Reach
variable {graph : FlowGraph}

theorem depthLoop_eq (fuel : Nat) (queue : List String) (depths : List (String × Nat)) :
    depthLoop graph fuel queue depths =
      Bfs.depthLoop (buildAdjacency graph) fuel queue depths := by
  induction fuel generalizing queue depths with
  | zero => rfl
  | succ fuel ih =>
    cases queue with
    | nil => rfl
    | cons current queue => exact ih _ _

variable (hentry : graph.hasNode graph.entryNodeId = true)
include hentry

theorem mem_collectReachable {nodeId : String} :
    nodeId ∈ collectReachable graph ↔
      Relation.ReflTransGen (GoesTo graph) graph.entryNodeId nodeId := by
  rw [collectReachable, if_pos hentry, ← buildAdjacency_rel]
  exact Bfs.mem_order_iff leads_inside (FlowGraph.hasNode_iff.mp hentry) (by simp)

theorem mem_orderReachableIds {localeCompare : String → String → Int} {nodeId : String} :
    nodeId ∈ orderReachableIds localeCompare graph ↔
      Relation.ReflTransGen (GoesTo graph) graph.entryNodeId nodeId := by
  have hrel : (fun a b => b ∈ (buildOutgoing localeCompare graph a).map FlowEdge.toNodeId) =
      GoesTo graph := by
    funext a b
    exact propext mem_outgoing
  rw [← hrel]
  exact Bfs.mem_order_iff buildOutgoing_inside (FlowGraph.hasNode_iff.mp hentry) (by simp)

/-- A node is reported as unreachable exactly if no path leads to it. -/
theorem unreachable_iff (context : FlowValidationContext) (nodeId : String) :
    Reports (validateFlowGraph graph context).warnings "UNREACHABLE_NODE" nodeId ↔
      nodeId ∈ graph.nodes.map FlowNode.nodeId ∧
        ¬ Relation.ReflTransGen (GoesTo graph) graph.entryNodeId nodeId := by
  rw [← mem_collectReachable hentry]
  constructor
  · rintro ⟨issue, hissue, hcode, hnode⟩
    obtain ⟨node, hmem, rfl⟩ := List.mem_map.mp (mem_warnings hissue hcode)
    obtain ⟨hmem, hunreached⟩ := List.mem_filter.mp hmem
    obtain rfl := Option.some.inj hnode
    exact ⟨List.mem_map_of_mem hmem, by simpa using hunreached⟩
  · rintro ⟨hmem, hunreached⟩
    obtain ⟨node, hnode, rfl⟩ := List.mem_map.mp hmem
    refine ⟨_, List.mem_append_left _ (List.mem_map_of_mem (List.mem_filter.mpr ⟨hnode, ?_⟩)),
      rfl, rfl⟩
    simpa using hunreached

/-- A node is reported as too deep exactly if it is more than ten edges away. -/
theorem depth_exceeded_iff (context : FlowValidationContext) (nodeId : String) :
    Reports (validateFlowGraph graph context).errors "DEPTH_EXCEEDED" nodeId ↔
      ∃ n, Bfs.IsDistance (GoesTo graph) graph.entryNodeId n nodeId ∧ 10 < n := by
  have hdepths : ∀ n, (nodeId, n) ∈ depthLoop graph graph.nodes.length [graph.entryNodeId]
      [(graph.entryNodeId, 0)] ↔ Bfs.IsDistance (GoesTo graph) graph.entryNodeId n nodeId := by
    intro n
    rw [depthLoop_eq, ← buildAdjacency_rel]
    exact Bfs.mem_depthLoop_iff leads_inside (FlowGraph.hasNode_iff.mp hentry) (by simp)
  have hcheck : checkDepth graph = ((depthLoop graph graph.nodes.length [graph.entryNodeId]
      [(graph.entryNodeId, 0)]).filter (fun entry => maxDepth < entry.2)).map (fun entry =>
        nodeIssue "DEPTH_EXCEEDED" ("node is " ++ toString entry.2 ++
          " steps from the entry node (max " ++ toString maxDepth ++ ")") entry.1) := by
    rw [checkDepth, hentry, Bool.not_true, if_neg Bool.false_ne_true]
  constructor
  · rintro ⟨issue, hissue, hcode, hnode⟩
    have hmem := (mem_errors hissue).1 hcode
    rw [hcheck] at hmem
    obtain ⟨⟨id, n⟩, hentry, rfl⟩ := List.mem_map.mp hmem
    obtain ⟨hmem, hdeep⟩ := List.mem_filter.mp hentry
    obtain rfl := Option.some.inj hnode
    exact ⟨n, (hdepths n).mp hmem, of_decide_eq_true hdeep⟩
  · rintro ⟨n, hdistance, hdeep⟩
    have hmem : nodeIssue "DEPTH_EXCEEDED" ("node is " ++ toString n ++
        " steps from the entry node (max " ++ toString maxDepth ++ ")") nodeId ∈
        checkDepth graph := by
      rw [hcheck]
      refine List.mem_map.mpr ⟨(nodeId, n), List.mem_filter.mpr ⟨(hdepths n).mpr hdistance, ?_⟩, rfl⟩
      exact decide_eq_true hdeep
    have herror : checkDepth graph ⊆ (validateFlowGraph graph context).errors := by
      intro issue hissue
      simp only [validateFlowGraph, List.mem_append]
      exact .inl (.inl (.inl (.inr hissue)))
    exact ⟨_, herror hmem, rfl, rfl⟩

/-- The warnings, the depths and the order of the compiler agree on one graph. -/
theorem reachability_and_depth (localeCompare : String → String → Int)
    (context : FlowValidationContext) (h : graph.DistinctIds) :
    (∀ node ∈ graph.nodes,
      (Reports (validateFlowGraph graph context).warnings "UNREACHABLE_NODE" node.nodeId ↔
        ¬ Relation.ReflTransGen (GoesTo graph) graph.entryNodeId node.nodeId)) ∧
    (∀ nodeId, Reports (validateFlowGraph graph context).errors "DEPTH_EXCEEDED" nodeId ↔
      ∃ n, Bfs.IsDistance (GoesTo graph) graph.entryNodeId n nodeId ∧ 10 < n) ∧
    (∀ node, node ∈ orderReachableNodes localeCompare graph ↔ node ∈ graph.nodes ∧
      ¬ Reports (validateFlowGraph graph context).warnings "UNREACHABLE_NODE" node.nodeId) ∧
    ((orderReachableNodes localeCompare graph).map FlowNode.nodeId).Nodup := by
  have hunreachable : ∀ node ∈ graph.nodes,
      (Reports (validateFlowGraph graph context).warnings "UNREACHABLE_NODE" node.nodeId ↔
        ¬ Relation.ReflTransGen (GoesTo graph) graph.entryNodeId node.nodeId) := by
    intro node hnode
    rw [unreachable_iff hentry]
    exact and_iff_right (List.mem_map_of_mem hnode)
  refine ⟨hunreachable, depth_exceeded_iff hentry context, ?_, ?_⟩
  · intro node
    constructor
    · intro hmem
      obtain ⟨nodeId, hid, hfound⟩ := List.mem_filterMap.mp hmem
      have hnode := FlowGraph.nodeById_mem hfound
      obtain rfl := FlowGraph.nodeById_nodeId hfound
      refine ⟨hnode, fun hreported => ?_⟩
      exact (hunreachable node hnode).mp hreported ((mem_orderReachableIds hentry).mp hid)
    · rintro ⟨hnode, hreported⟩
      have hpath := not_not.mp (mt (hunreachable node hnode).mpr hreported)
      exact mem_orderReachableNodes ((mem_orderReachableIds hentry).mpr hpath)
        (nodeById_of_mem h hnode)
  · rw [orderReachableNodes_ids hentry]
    exact orderReachableIds_nodup hentry

end Reach

theorem reachability_and_depth_loopGraph :
    loopGraph.hasNode loopGraph.entryNodeId = true ∧ loopGraph.DistinctIds ∧
      ((orderReachableNodes codePointCompare loopGraph).map FlowNode.nodeId).Nodup :=
  ⟨by decide, by simp [FlowGraph.DistinctIds, loopGraph],
    (reachability_and_depth (by decide) codePointCompare ⟨[], [], [], []⟩
      (by simp [FlowGraph.DistinctIds, loopGraph])).2.2.2⟩

end KasterCti.ArsFlow
