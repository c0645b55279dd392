import KasterCti.ArsFlow.Renderer

/-!
# The flow graph validator

`flow-graph.validator.ts`. Each check adds its issues to the errors or to the
warnings; a graph is saved when there are no errors. The walks of the source
keep their sets of visited nodes in lists; their depth is bounded by the number
of nodes.
-/

namespace KasterCti.ArsFlow

def maxDepth : Nat := 10
def maxHttpLookupsPerPath : Nat := 2
def pathWalkLimit : Nat := 20000

structure FlowIssue where
  code : String
  message : String
  nodeId : Option String
  edgeId : Option String

structure HttpEndpoint where
  endpointId : String
  timeoutMs : Nat

structure FlowValidationContext where
  queueNames : List String
  promptKeys : List String
  smsTemplateIds : List String
  httpEndpoints : List HttpEndpoint

structure FlowValidationResult where
  errors : List FlowIssue
  warnings : List FlowIssue

def nodeIssue (code message nodeId : String) : FlowIssue := ⟨code, message, some nodeId, none⟩

/-! ## Entry, edges, digits, targets -/

def checkEntryNode (graph : FlowGraph) : List FlowIssue :=
  if graph.entryNodeId = "" || !graph.hasNode graph.entryNodeId then
    [⟨"ENTRY_NODE_NOT_FOUND", "entry node not found: " ++ graph.entryNodeId, none, none⟩]
  else []

def checkEdgeEndpoints (graph : FlowGraph) : List FlowIssue :=
  graph.edges.flatMap (fun edge =>
    (if graph.hasNode edge.fromNodeId then []
      else [⟨"EDGE_SOURCE_NOT_FOUND",
        "edge starts from a node that does not exist: " ++ edge.fromNodeId, none,
        some edge.edgeId⟩]) ++
    (if graph.hasNode edge.toNodeId then []
      else [⟨"EDGE_TARGET_NOT_FOUND",
        "edge points to a node that does not exist: " ++ edge.toNodeId, none,
        some edge.edgeId⟩]))

/-- The digit that an edge claims on a menu. -/
def menuDigit (graph : FlowGraph) (edge : FlowEdge) : Option String :=
  if edge.condition = .digit && (graph.nodeById edge.fromNodeId).any FlowNode.isMenu then
    given edge.digit
  else none

/-- The loop over the edges, with the menus and digits seen before. -/
def menuDigitIssues (graph : FlowGraph) (seen : List (String × String)) :
    List FlowEdge → List FlowIssue
  | [] => []
  | edge :: edges =>
    match menuDigit graph edge with
    | none => menuDigitIssues graph seen edges
    | some digit =>
      (if (edge.fromNodeId, digit) ∈ seen then
        [⟨"DUPLICATE_MENU_DIGIT", "menu digit " ++ digit ++ " is mapped more than once",
          some edge.fromNodeId, some edge.edgeId⟩]
      else []) ++ menuDigitIssues graph ((edge.fromNodeId, digit) :: seen) edges

def checkMenuDigits (graph : FlowGraph) : List FlowIssue := menuDigitIssues graph [] graph.edges

def pushMissingPrompt (prompts : List String) (promptKey : Option String) (nodeId : String) :
    List FlowIssue :=
  match given promptKey with
  | none => []
  | some key =>
    if !JsText.startsWith key "custom/" || prompts.contains key then []
    else [nodeIssue "PROMPT_NOT_FOUND" ("prompt does not exist: " ++ key) nodeId]

def checkTargetsExist (graph : FlowGraph) (context : FlowValidationContext) : List FlowIssue :=
  graph.nodes.flatMap (fun node =>
    match node.config with
    | .queue queueName =>
      if context.queueNames.contains queueName then []
      else [nodeIssue "QUEUE_NOT_FOUND" ("queue does not exist: " ++ queueName) node.nodeId]
    | .play promptKeys =>
      promptKeys.flatMap (fun key => pushMissingPrompt context.promptKeys (some key) node.nodeId)
    | .menu config => pushMissingPrompt context.promptKeys config.promptKey node.nodeId
    | .hangup promptKey => pushMissingPrompt context.promptKeys promptKey node.nodeId
    | .collectDigits config => pushMissingPrompt context.promptKeys config.promptKey node.nodeId
    | .httpLookup _ waitPromptKey =>
      pushMissingPrompt context.promptKeys waitPromptKey node.nodeId
    | .sms smsTemplateId _ =>
      if context.smsTemplateIds.contains smsTemplateId then []
      else [nodeIssue "SMS_TEMPLATE_NOT_FOUND" ("sms template does not exist: " ++ smsTemplateId)
        node.nodeId]
    | _ => [])

/-! ## Reachability and depth -/

/-- The edges of a node between existing nodes, in the order of the graph. -/
def edgesFrom (graph : FlowGraph) (nodeId : String) : List FlowEdge :=
  graph.edges.filter (fun edge =>
    edge.fromNodeId = nodeId && graph.hasNode edge.fromNodeId && graph.hasNode edge.toNodeId)

/-- `buildAdjacency(graph, nodesById).get(nodeId)`. -/
def buildAdjacency (graph : FlowGraph) (nodeId : String) : List String :=
  (edgesFrom graph nodeId).map FlowEdge.toNodeId

def collectReachable (graph : FlowGraph) : List String :=
  if graph.hasNode graph.entryNodeId then
    Bfs.order (buildAdjacency graph) graph.nodes.length graph.entryNodeId
  else []

def checkReachability (graph : FlowGraph) : List FlowIssue :=
  (graph.nodes.filter (fun node => node.nodeId ∉ collectReachable graph)).map (fun node =>
    nodeIssue "UNREACHABLE_NODE"
      ("node cannot be reached from the entry node: " ++ node.label) node.nodeId)

/-- The nodes of `next` that have no depth yet, each once, at the given depth. -/
def newDepths (depths : List (String × Nat)) (depth : Nat) (next : List String) :
    List (String × Nat) :=
  (Bfs.fresh next (depths.map Prod.fst)).map (fun nodeId => (nodeId, depth))

/-- The queue loop of `checkDepth`: the depths in the order in which they are
found. -/
def depthLoop (graph : FlowGraph) :
    Nat → List String → List (String × Nat) → List (String × Nat)
  | 0, _, depths => depths
  | _ + 1, [], depths => depths
  | fuel + 1, current :: queue, depths =>
    let depth := (depths.lookup current).getD 0
    let found := newDepths depths (depth + 1) (buildAdjacency graph current)
    depthLoop graph fuel (queue ++ found.map Prod.fst) (depths ++ found)

def checkDepth (graph : FlowGraph) : List FlowIssue :=
  if !graph.hasNode graph.entryNodeId then []
  else
    let depths := depthLoop graph graph.nodes.length [graph.entryNodeId] [(graph.entryNodeId, 0)]
    (depths.filter (fun entry => maxDepth < entry.2)).map (fun entry =>
      nodeIssue "DEPTH_EXCEEDED" ("node is " ++ toString entry.2 ++
        " steps from the entry node (max " ++ toString maxDepth ++ ")") entry.1)

/-! ## Cycles without an exit -/

/-- The sets of the depth-first walk and the nodes reported so far. -/
structure CycleWalk where
  visiting : List String
  visited : List String
  reported : List String

/-- A node that waits for the caller lets a call out of a cycle. -/
def escapable (graph : FlowGraph) (nodeId : String) : Bool :=
  (graph.nodeById nodeId).any (fun node =>
    node.nodeType = .menu || node.nodeType = .collectDigits)

def walkCycles (graph : FlowGraph) : Nat → String → CycleWalk → CycleWalk
  | 0, _, walk => walk
  | fuel + 1, nodeId, walk =>
    if escapable graph nodeId || nodeId ∈ walk.visited then walk
    else if nodeId ∈ walk.visiting then
      if nodeId ∈ walk.reported then walk
      else { walk with reported := walk.reported ++ [nodeId] }
    else
      let inside := (buildAdjacency graph nodeId).foldl
        (fun walk next => walkCycles graph fuel next walk)
        { walk with visiting := nodeId :: walk.visiting }
      { inside with
        visiting := inside.visiting.filter (· ≠ nodeId)
        visited := nodeId :: inside.visited }

def trappedNodes (graph : FlowGraph) : List String :=
  (graph.nodes.foldl (fun walk node => walkCycles graph (graph.nodes.length + 1) node.nodeId walk)
    ⟨[], [], []⟩).reported

def checkTrappedCycles (graph : FlowGraph) : List FlowIssue :=
  (trappedNodes graph).map (fun nodeId =>
    nodeIssue "TRAPPED_CYCLE" ("node is part of a loop with no menu to escape from: " ++
      ((graph.nodeById nodeId).map FlowNode.label).getD nodeId) nodeId)

/-! ## Collected digits -/

def targetSourceOf (node : FlowNode) : Option DigitTargetSource :=
  match node.config with
  | .sms _ targetSource => some targetSource
  | .optOut _ targetSource => some targetSource
  | _ => none

/-- The edges along which nothing has been collected. -/
def uncollectedNext (graph : FlowGraph) (nodeId : String) : List String :=
  let collectsHere := (graph.nodeById nodeId).any (fun node => node.nodeType = .collectDigits)
  ((edgesFrom graph nodeId).filter (fun edge =>
    !(collectsHere && edge.condition = .default))).map FlowEdge.toNodeId

def checkCollectedTargets (graph : FlowGraph) : List FlowIssue :=
  let consumers := graph.nodes.filter (fun node => targetSourceOf node = some .collected)
  if consumers = [] || !graph.hasNode graph.entryNodeId then []
  else
    let uncollected := Bfs.order (uncollectedNext graph) graph.nodes.length graph.entryNodeId
    (consumers.filter (fun node => node.nodeId ∈ uncollected)).map (fun node =>
      nodeIssue "DIGITS_NOT_COLLECTED"
        ("node uses collected digits but can be reached without collecting any: " ++ node.label)
        node.nodeId)

/-! ## Lookups -/

/-- The walk over simple paths: the most lookups below a node, and the number of
steps taken. -/
def walkLookups (graph : FlowGraph) : Nat → List String → String → Nat → Nat × Nat
  | 0, _, _, steps => (0, steps)
  | fuel + 1, onPath, nodeId, steps =>
    if nodeId ∈ onPath then (0, steps)
    else if steps + 1 > pathWalkLimit then (0, steps + 1)
    else
      let self := if (graph.nodeById nodeId).any (fun node => node.nodeType = .httpLookup)
        then 1 else 0
      let below := (edgesFrom graph nodeId).foldl (fun (best : Nat × Nat) edge =>
          let found := walkLookups graph fuel (nodeId :: onPath) edge.toNodeId best.2
          (max best.1 found.1, found.2)) (0, steps + 1)
      (self + below.1, below.2)

def maxLookupsOnAnyPath (graph : FlowGraph) : Nat :=
  if graph.hasNode graph.entryNodeId then
    (walkLookups graph (graph.nodes.length + 1) [] graph.entryNodeId 0).1
  else 0

def findEndpoint (context : FlowValidationContext) (endpointId : String) : Option HttpEndpoint :=
  context.httpEndpoints.reverse.find? (fun endpoint => endpoint.endpointId = endpointId)

def hasEdge (graph : FlowGraph) (node : FlowNode) (condition : FlowEdgeCondition) : Bool :=
  (edgesFrom graph node.nodeId).any (fun edge => edge.condition = condition)

def lookupErrors (graph : FlowGraph) (context : FlowValidationContext) (node : FlowNode)
    (endpointId : String) : List FlowIssue :=
  (if (findEndpoint context endpointId).isSome then []
    else [nodeIssue "HTTP_ENDPOINT_NOT_FOUND"
      ("external lookup endpoint does not exist or is inactive: " ++ endpointId) node.nodeId]) ++
  (if hasEdge graph node .false then []
    else [nodeIssue "HTTP_LOOKUP_WITHOUT_FALLBACK"
      ("external lookup has no fallback branch: " ++ node.label) node.nodeId])

def lookupWarnings (graph : FlowGraph) (context : FlowValidationContext) (node : FlowNode)
    (endpointId : String) (waitPromptKey : Option String) : List FlowIssue :=
  (if hasEdge graph node .true then []
    else [nodeIssue "HTTP_LOOKUP_WITHOUT_MATCH_BRANCH"
      ("external lookup does nothing when it matches: " ++ node.label) node.nodeId]) ++
  (match given waitPromptKey, findEndpoint context endpointId with
    | some _, some endpoint =>
      if endpoint.timeoutMs > 3000 then
        [nodeIssue "HTTP_LOOKUP_WAIT_TOO_LONG" ("wait prompt plus a " ++
          toString endpoint.timeoutMs ++ "ms lookup can keep the caller waiting too long: " ++
          node.label) node.nodeId]
      else []
    | _, _ => [])

def lookupNodes (graph : FlowGraph) : List FlowNode :=
  graph.nodes.filter (fun node => node.nodeType = .httpLookup)

def checkHttpLookupErrors (graph : FlowGraph) (context : FlowValidationContext) :
    List FlowIssue :=
  if lookupNodes graph = [] then []
  else
    (lookupNodes graph).flatMap (fun node =>
      match node.config with
      | .httpLookup endpointId _ => lookupErrors graph context node endpointId
      | _ => []) ++
    (if maxLookupsOnAnyPath graph > maxHttpLookupsPerPath then
      [⟨"TOO_MANY_HTTP_LOOKUPS", "a single call can hit " ++ toString (maxLookupsOnAnyPath graph) ++
        " external lookups (max " ++ toString maxHttpLookupsPerPath ++ ")", none, none⟩]
    else [])

def checkHttpLookupWarnings (graph : FlowGraph) (context : FlowValidationContext) :
    List FlowIssue :=
  (lookupNodes graph).flatMap (fun node =>
    match node.config with
    | .httpLookup endpointId waitPromptKey =>
      lookupWarnings graph context node endpointId waitPromptKey
    | _ => [])

/-! ## The validator -/

def validateFlowGraph (graph : FlowGraph) (context : FlowValidationContext) :
    FlowValidationResult where
  errors := checkEntryNode graph ++ checkEdgeEndpoints graph ++ checkMenuDigits graph ++
    checkTargetsExist graph context ++ checkDepth graph ++ checkTrappedCycles graph ++
    checkCollectedTargets graph ++ checkHttpLookupErrors graph context
  warnings := checkReachability graph ++ checkHttpLookupWarnings graph context

/-- No two digit edges of a menu claim one digit. -/
theorem menuDigits_distinct {graph : FlowGraph} {seen : List (String × String)}
    {edges : List FlowEdge} (h : menuDigitIssues graph seen edges = []) :
    edges.Pairwise (fun a b => ∀ digit, menuDigit graph a = some digit →
      menuDigit graph b = some digit → a.fromNodeId ≠ b.fromNodeId) ∧
      ∀ edge ∈ edges, ∀ digit, menuDigit graph edge = some digit →
        (edge.fromNodeId, digit) ∉ seen := by
  induction edges generalizing seen with
  | nil => simp
  | cons edge edges ih =>
    rw [menuDigitIssues] at h
    split at h
    · rename_i hnone
      obtain ⟨hpairs, hseen⟩ := ih h
      refine ⟨List.pairwise_cons.mpr ⟨?_, hpairs⟩, ?_⟩
      · intro other _ digit hdigit
        rw [hnone] at hdigit
        cases hdigit
      · intro other hother digit hdigit
        rcases List.mem_cons.mp hother with rfl | hother
        · rw [hnone] at hdigit
          cases hdigit
        · exact hseen other hother digit hdigit
    · rename_i claimed hclaimed
      rw [List.append_eq_nil_iff] at h
      obtain ⟨hnew, h⟩ := h
      obtain ⟨hpairs, hseen⟩ := ih h
      refine ⟨List.pairwise_cons.mpr ⟨?_, hpairs⟩, ?_⟩
      · intro other hother digit hdigit hdigit' hsame
        have hnot := hseen other hother digit hdigit'
        rw [hclaimed] at hdigit
        obtain rfl := Option.some.inj hdigit
        exact hnot (by simp [hsame])
      · intro other hother digit hdigit
        rcases List.mem_cons.mp hother with rfl | hother
        · rw [hclaimed] at hdigit
          obtain rfl := Option.some.inj hdigit
          intro hmem
          simp [hmem] at hnew
        · intro hmem
          exact hseen other hother digit hdigit (List.mem_cons_of_mem _ hmem)

end KasterCti.ArsFlow
