import KasterCti.ArsFlow.MenuNodes

/-!
# The compiled flow

Node by node the compiled flow does what the graph says, so the two keep in step over whole
calls. What a call shows of the flow at its end is what the graph prescribes, and wherever a
call is, collected digits are taken for a number only when there are enough of them, or at a
node that a failed request for digits leads to.
-/

namespace KasterCti.ArsFlow

open Lines Dialplan Machine Renderers

/-! ## One node -/

section Node
variable {dialplan : List Entry} {world : Nat → Text → Text} {layout : Layout}
  {order : List FlowNode} {opening : List Step} {zone : String → Prop} {a : FlowState} {b : State}
  (hflow : CleanFlow layout order) (hcode : FlowCode dialplan layout order opening)
  (hzone : Zone layout order zone) (hfollows : Follows dialplan layout order zone a b)
include hflow hcode hzone hfollows

theorem onward_menu_node (hmenu : a.node.isMenu = true)
    (hpos : b.pos = menuPlace layout a.node "s".toList) :
    Onward dialplan world layout order zone (compiledStep layout a) b := by
  obtain ⟨config, hconfig⟩ := config_of_isMenu hmenu
  have hat := (menu_entry hcode hfollows.node hconfig).1.1
  rw [← hpos] at hat
  have hvisit : viewOf layout order (b.visit none).advance = { viewOf layout order b with
      visited := a.node.nodeId :: (viewOf layout order b).visited } :=
    hflow.viewOf_menu hfollows.node hmenu hpos
  have hsame : compiledStep layout a = flowStep layout a := by
    rw [compiledStep, hconfig]
  rw [hsame, flowStep, hconfig]
  refine .of_step (safe_of_code hat nofun) (step_pass hat rfl) ?_
  refine onward_menu (a := a.note) (b := (b.visit none).advance) hflow hcode hfollows.node hconfig
    hzone ?_ ?_ ?_
  · rw [hvisit]
    exact ⟨hfollows.shows.caller, congrArg _ hfollows.shows.visited⟩
  · rw [hvisit]
    exact hfollows.digits
  · show b.pos.next = _
    rw [hpos]
    rfl

theorem onward_inline_node (hinline : a.node.isInline = true)
    (hplaced : Placed dialplan layout a.node b.pos) :
    Onward dialplan world layout order zone (compiledStep layout a) b := by
  have hnode : a.note.node ∈ order := hfollows.node
  have hmain : b.pos.next.context = layout.mainContext.toList := hplaced.context
  have hat := hplaced.code.1
  refine .of_step (safe_of_code hat nofun) (step_pass hat rfl) ?_
  have hview : viewOf layout order
      (b.visit (some (layout.labelOf a.node.nodeId).toList)).advance =
      { viewOf layout order b with visited := a.node.nodeId :: (viewOf layout order b).visited } :=
    hflow.viewOf_label hfollows.node hinline (offMenus_main hplaced.context)
  have hshows : (viewOf layout order
      (b.visit (some (layout.labelOf a.node.nodeId).toList)).advance).Shows a.note := by
    rw [hview]
    exact ⟨hfollows.shows.caller, congrArg _ hfollows.shows.visited⟩
  have hdigits : (viewOf layout order
      (b.visit (some (layout.labelOf a.node.nodeId).toList)).advance).Collected ∨
      zone a.note.node.nodeId := by
    rw [hview]
    exact hfollows.digits
  have hbody := hplaced.code.2
  unfold compiledStep
  cases hconfig : a.node.config with
  | play promptKeys =>
    rw [flowStep, hconfig]
    exact onward_play (a := a.note) hflow hcode hzone hnode hmain hshows hbody hdigits hconfig
  | sms smsTemplateId targetSource =>
    rw [flowStep, hconfig]
    exact onward_sms (a := a.note) hflow hcode hzone hnode hmain hshows hbody hdigits hconfig
  | optOut action targetSource =>
    rw [flowStep, hconfig]
    exact onward_optOut (a := a.note) hflow hcode hzone hnode hmain hshows hbody hdigits hconfig
  | httpLookup endpointId waitPromptKey =>
    rw [flowStep, hconfig]
    exact onward_lookup (a := a.note) hflow hcode hnode hshows hplaced hzone hconfig rfl hdigits
  | collectDigits config =>
    rw [flowStep, hconfig]
    exact onward_collect (a := a.note) hplaced hconfig hflow hnode hcode hzone rfl hshows
  | condition config =>
    cases hedge : layout.findEdge a.node.nodeId .true with
    | none =>
      rw [inlineCode, hconfig] at hbody
      simp only [hedge] at hbody
      refine onward_take (a := a.note)
        (b := (b.visit (some (layout.labelOf a.node.nodeId).toList)).advance) hflow hcode hnode hmain
        hshows hbody ?_
      exact fun e he => hzone.after hfollows.node (by simp [hconfig]) hdigits (findEdge_eq_some he).1
    | some onTrue =>
      rw [flowStep, hconfig]
      exact onward_condition (a := a.note) hflow hcode hzone hnode hinline hplaced rfl hshows hdigits
        hconfig hedge
  | _ =>
    simp [FlowNode.isInline, FlowNode.nodeType, NodeConfig.nodeType, hconfig,
      FlowNodeType.isTerminal] at hinline

/-- From where a node stands the call comes to what the graph makes of the node. -/
theorem onward_node : Onward dialplan world layout order zone (compiledStep layout a) b := by
  cases hfollows.standing with
  | inline hinline hplaced =>
    exact onward_inline_node hflow hcode hzone hfollows hinline hplaced
  | menu hmenu hpos => exact onward_menu_node hflow hcode hzone hfollows hmenu hpos

end Node

section Simulated
variable {dialplan : List Entry} {world : Nat → Text → Text} {layout : Layout}
  {order : List FlowNode} {opening : List Step} {zone : String → Prop}

/-- The compiled flow keeps in step with the graph. -/
theorem flow_simulation (hflow : CleanFlow layout order)
    (hcode : FlowCode dialplan layout order opening) (hzone : Zone layout order zone) :
    SimulationVia (compiledStep layout) (step dialplan world) (Follows dialplan layout order zone)
      (SameEnd layout order) (Safe dialplan layout order zone) :=
  fun _ _ hfollows => onward_node hflow hcode hzone hfollows

/-! ## Whole calls -/

/-- Code that runs on, and a jump to a node. -/
theorem onward_opening {a : FlowState} {b : State} (hflow : CleanFlow layout order)
    (hcode : FlowCode dialplan layout order opening) {node : FlowNode} (hnode : node ∈ order)
    {front : List Step} (hat : CodeAt dialplan b.pos (front ++ jumpCode layout node))
    (hharmless : ∀ c ∈ front, Harmless c ∧ takesDigits c = false)
    (hmain : b.pos.context = layout.mainContext.toList) (hshows : (viewOf layout order b).Shows a)
    (hentry : zone node.nodeId) : Onward dialplan world layout order zone (a.enter node) b := by
  refine onward_harmless hat (fun c hc => (hharmless c hc).1.runsOn (hharmless c hc).2)
    (fun _ => offMenus_main hmain) ?_
  intro b' hpos hview hat'
  refine onward_jump hflow hcode hnode hat' ?_ (hview.symm ▸ hshows) (.inr hentry)
  intro i
  refine offMenus_main ?_
  rw [hpos]
  exact hmain

end Simulated

/-- A call on its way into the flow. -/
def callInto (graph : FlowGraph) (vars : List (Text × Text)) (behaviour : Behaviour) : State where
  pos := ⟨(mainContext graph).toList, "s".toList, 1⟩
  vars := vars
  caller := behaviour.caller
  returns := []
  trace := []

/-- The graph starts at its entry node. -/
def startFlow (graph : FlowGraph) (behaviour : Behaviour) : Option (FlowState ⊕ FlowResult) :=
  (graph.nodeById graph.entryNodeId).map (fun node => FlowState.enter ⟨node, behaviour, []⟩ node)

/-- The second call is the first one, compiled: it comes by the same nodes, and each of them
ends if the other one does, alike. -/
structure SameCall (layout : Layout) (order : List FlowNode) (next : FlowState → FlowState ⊕ FlowResult)
    (step : State → State ⊕ Result) (x : FlowState ⊕ FlowResult) (b : State) : Prop where
  visits : ∀ a, x = .inl a → ∀ a', Comes next a (.inl a') →
    ∃ b', Comes step b (.inl b') ∧ visitedNodes layout order b'.trace = a'.visited
  ends : ∀ r, x = .inr r ∨ (∃ a, x = .inl a ∧ Ends next a r) →
    ∃ r', Ends step b r' ∧ SameEnd layout order r r'
  ended : ∀ r', Ends step b r' →
    ∃ r, (x = .inr r ∨ ∃ a, x = .inl a ∧ Ends next a r) ∧ SameEnd layout order r r'

/-- A simulation makes the two calls one. -/
theorem sameCall_of_simulation {dialplan : List Entry} {layout : Layout} {order : List FlowNode}
    {zone : String → Prop} {next : FlowState → FlowState ⊕ FlowResult}
    {step : State → State ⊕ Result}
    (sim : Simulation next step (Follows dialplan layout order zone) (SameEnd layout order))
    {x : FlowState ⊕ FlowResult} {b : State} {o : State ⊕ Result} (ho : Leads step b o)
    (hstart : Sum.LiftRel (Follows dialplan layout order zone) (SameEnd layout order) x o) :
    SameCall layout order next step x b := by
  cases hstart with
  | inl hfollows =>
    refine ⟨?_, ?_, ?_⟩
    · rintro a ⟨⟩ a' ha'
      obtain ⟨b', hb', hfollows'⟩ := sim.comes hfollows ha'
      exact ⟨b', .trans (.inr ho) hb', hfollows'.shows.visited⟩
    · rintro r (h | ⟨a, ⟨⟩, hr⟩)
      · cases h
      · obtain ⟨r', hends, hsame⟩ := sim.forward hfollows hr
        exact ⟨r', ho.trans hends, hsame⟩
    · intro r' hr'
      obtain ⟨n, hn⟩ := hr'.endsIn
      obtain ⟨m, -, hm⟩ := hn.after ho
      obtain ⟨r, hr, hsame⟩ := sim.backward hfollows hm.ends
      exact ⟨r, .inr ⟨_, rfl, hr⟩, hsame⟩
  | inr hsame =>
    refine ⟨by rintro a ⟨⟩, ?_, ?_⟩
    · rintro r (h | ⟨a, h, -⟩)
      · obtain rfl := Sum.inr.inj h
        exact ⟨_, ho, hsame⟩
      · cases h
    · intro r' hr'
      obtain rfl := Ends.unique ho hr'
      exact ⟨_, .inl rfl, hsame⟩

section Call
variable {localeCompare : String → String → Int} {input : ArsFlowRenderInput} {text : String}

theorem harmless_opening : ∀ c ∈ plainStep "NoOp" ("ARS flow " ++ input.graph.name) :: openingCode input,
    Harmless c ∧ takesDigits c = false := by
  have hpass : ∀ {app args : String}, appOf app.toList = .pass →
      app.toList ≠ "System".toList ∧ app.toList ≠ "Set".toList →
      Harmless (plainStep app args) ∧ takesDigits (plainStep app args) = false :=
    fun happ hother => ⟨harmless_pass happ, takesDigits_plainStep hother⟩
  have hset : ∀ {args : String} {name value : Text}, args.toList = name ++ '=' :: value →
      '=' ∉ name ∧ '$' ∉ name ∧ varName name ≠ collectedDigitsVar.toList →
      name ≠ "__OPT_OUT_TARGET_PHONE".toList →
      Harmless (plainStep "Set" args) ∧ takesDigits (plainStep "Set" args) = false :=
    fun hargs hname hne => ⟨harmless_set hargs hname.1 hname.2.1 hname.2.2,
      takesDigits_set hargs hname.1 hne⟩
  intro c hc
  simp only [openingCode, List.mem_cons, List.not_mem_nil, or_false] at hc
  rcases hc with rfl | rfl | rfl | rfl | rfl | rfl
  · exact hpass (by decide) (by decide)
  · exact hpass (by decide) (by decide)
  · exact hset (show _ = "CHANNEL(language)".toList ++ '=' :: [] by decide) (by decide) (by decide)
  · exact hset (show _ = "__SMART_ARS_TENANT_ID".toList ++ '=' :: input.tenantId.toList by simp)
      (by decide) (by decide)
  · exact hset (show _ = "__SMART_ARS_BRANCH_ID".toList ++ '=' :: (input.branchId.getD "-").toList by simp)
      (by decide) (by decide)
  · exact hset (show _ = "__ENTRY_DID".toList ++ '=' :: input.did.toList by simp)
      (by decide) (by decide)

variable (htext : renderArsFlow localeCompare input = .ok text)
  (hvalid : checkMenuDigits input.graph = []) (hclean : input.clean localeCompare = true)
include htext hvalid hclean

/-- A call into the loaded flow comes to where the graph starts. -/
theorem onward_start {zone : String → Prop} {vars : List (Text × Text)} {behaviour : Behaviour}
    {world : Nat → Text → Text} (hentry : zone input.graph.entryNodeId) :
    ∃ x, startFlow input.graph behaviour = some x ∧
      CleanFlow (layoutOf localeCompare input.graph) (orderReachableNodes localeCompare input.graph) ∧
      FlowCode (load text) (layoutOf localeCompare input.graph)
        (orderReachableNodes localeCompare input.graph) (flowOpening localeCompare input) ∧
      Onward (load text) world (layoutOf localeCompare input.graph)
        (orderReachableNodes localeCompare input.graph) zone x
        (callInto input.graph vars behaviour) := by
  obtain ⟨contexts, hcontexts, -⟩ := bind_eq_ok.mp htext
  obtain ⟨hinput, -⟩ := renderContexts_eq_ok hcontexts
  obtain ⟨-, hexists, -⟩ := checkInput_eq_ok hinput
  have hflow := cleanFlow_of_clean hclean hexists
  obtain ⟨node, hnode⟩ := Option.isSome_iff_exists.mp hexists
  have hmem : node ∈ orderReachableNodes localeCompare input.graph := by
    refine mem_orderReachableNodes (Bfs.start_mem_order ?_) hnode
    exact List.length_pos_of_mem (FlowGraph.nodeById_mem hnode)
  have hcode := flowCode_of_sections hflow hvalid ⟨node, hnode, hmem⟩
  rw [← load_renderArsFlow htext hclean] at hcode
  refine ⟨_, by rw [startFlow, hnode]; rfl, hflow, hcode, ?_⟩
  have hall := (codeAt_append.mp (hcode.main.codeAt_first (by decide))).1
  have hopening : flowOpening localeCompare input =
      (plainStep "NoOp" ("ARS flow " ++ input.graph.name) :: openingCode input) ++
        jumpCode (layoutOf localeCompare input.graph) node := by
    rw [flowOpening, hnode]
    rfl
  rw [hopening, layoutOf_mainContext] at hall
  refine onward_opening (a := ⟨node, behaviour, []⟩) (b := callInto input.graph vars behaviour) hflow
    hcode hmem hall harmless_opening ?_ ⟨rfl, rfl⟩ ?_
  · rw [layoutOf_mainContext, callInto]
  · rw [FlowGraph.nodeById_nodeId hnode]
    exact hentry

/-- A call into the loaded flow is the call on the graph. -/
theorem loaded_flow (world : Nat → Text → Text) (vars : List (Text × Text)) (behaviour : Behaviour) :
    ∃ x, startFlow input.graph behaviour = some x ∧
      SameCall (layoutOf localeCompare input.graph) (orderReachableNodes localeCompare input.graph)
        (compiledStep (layoutOf localeCompare input.graph)) (step (load text) world) x
        (callInto input.graph vars behaviour) := by
  have honward := @onward_start localeCompare input text htext hvalid hclean (fun _ => True) vars
    behaviour world trivial
  obtain ⟨x, hx, hflow, hcode, o, ho, hstart⟩ := honward
  have hzone : Zone (layoutOf localeCompare input.graph)
      (orderReachableNodes localeCompare input.graph) (fun _ => True) :=
    ⟨fun _ _ _ _ _ _ => trivial, fun _ _ _ _ _ _ => trivial⟩
  exact ⟨x, hx, sameCall_of_simulation (flow_simulation hflow hcode hzone).simulation ho.leads hstart⟩

end Call

/-! ## Accepted flows -/

theorem checkMenuDigits_of_valid {graph : FlowGraph} {context : FlowValidationContext}
    (h : (validateFlowGraph graph context).errors = []) : checkMenuDigits graph = [] := by
  simp only [validateFlowGraph, List.append_eq_nil_iff] at h
  exact h.1.1.1.1.1.2

/-- An accepted flow whose texts are read as they are printed is compiled to what its graph
means: calls visit the nodes that the graph prescribes and end as it says. -/
theorem renderArsFlow_correct {localeCompare : String → String → Int} {input : ArsFlowRenderInput}
    {text : String} {context : FlowValidationContext}
    (htext : renderArsFlow localeCompare input = .ok text)
    (hvalid : (validateFlowGraph input.graph context).errors = [])
    (hclean : input.clean localeCompare = true) (world : Nat → Text → Text)
    (vars : List (Text × Text)) (behaviour : Behaviour) :
    ∃ x, startFlow input.graph behaviour = some x ∧
      SameCall (layoutOf localeCompare input.graph) (orderReachableNodes localeCompare input.graph)
        (compiledStep (layoutOf localeCompare input.graph)) (step (load text) world) x
        (callInto input.graph vars behaviour) :=
  loaded_flow htext (checkMenuDigits_of_valid hvalid) hclean world vars behaviour

set_option maxRecDepth 2000

/-- A window with an edge for the closed case only. -/
def exWindow : ArsFlowRenderInput where
  graph := ⟨exNodeId, "main", "c",
    [⟨"c", "open", .condition (.timeRange ⟨"09:00", by decide⟩ ⟨"18:00", by decide⟩ [.mon])⟩,
      ⟨"q", "sales", .queue "sales"⟩], [⟨"e", "c", "q", .false, none⟩]⟩
  did := "0215880000"
  tenantId := exNodeId
  branchId := none

def exQueues : FlowValidationContext := ⟨["sales"], [], [], []⟩

def exOpen : Behaviour := ⟨[], [], [], [true]⟩

def exWindowText : String :=
  unlines ["[ars-flow-main]", "exten => s,1,NoOp(ARS flow main)", " same => n,Answer()",
    " same => n,Set(CHANNEL(language)=)",
    " same => n,Set(__SMART_ARS_TENANT_ID=6f1d2c3a-0b4e-4c5d-8e9f-a0b1c2d3e4f5)",
    " same => n,Set(__SMART_ARS_BRANCH_ID=-)", " same => n,Set(__ENTRY_DID=0215880000)",
    " same => n,Goto(ars-flow-main,s,node-0-open)",
    " same => n(node-0-open),NoOp(ARS node open)", " same => n,Goto(queue-entry,sales,1)"]

theorem renderArsFlow_correct_window :
    ∃ x, startFlow exWindow.graph exOpen = some x ∧
      SameCall (layoutOf codePointCompare exWindow.graph)
        (orderReachableNodes codePointCompare exWindow.graph)
        (compiledStep (layoutOf codePointCompare exWindow.graph))
        (step (load exWindowText) (fun _ _ => [])) x (callInto exWindow.graph [] exOpen) :=
  renderArsFlow_correct (by decide)
    (show (validateFlowGraph exWindow.graph exQueues).errors = [] by decide)
    (by decide) _ _ _

/-- The window is open and has no edge for it, so the graph ends the call; the compiled flow
takes the edge of the closed window. -/
theorem open_window_goes_on :
    renderArsFlow codePointCompare exWindow = .ok exWindowText ∧
      (validateFlowGraph exWindow.graph exQueues).errors = [] ∧
      ∃ a, startFlow exWindow.graph exOpen = some (.inl a) ∧
        Ends (flowStep (layoutOf codePointCompare exWindow.graph)) a ⟨.hangup, ["c"]⟩ ∧
        ∃ r, Ends (step (load exWindowText) (fun _ _ => [])) (callInto exWindow.graph [] exOpen) r ∧
          r.outcome = .left "queue-entry".toList "sales".toList "1".toList := by
  have htext : renderArsFlow codePointCompare exWindow = .ok exWindowText := by decide
  obtain ⟨x, hx, hsame⟩ := loaded_flow htext (by decide) (by decide)
    (fun _ _ => []) [] exOpen
  obtain ⟨a, ha⟩ : ∃ a, startFlow exWindow.graph exOpen = some (.inl a) := ⟨_, rfl⟩
  obtain rfl := Option.some.inj (hx.symm.trans ha)
  have hstart : ∃ node, startFlow exWindow.graph exOpen = some (.inl ⟨node, exOpen, []⟩) ∧
      Ends (flowStep (layoutOf codePointCompare exWindow.graph)) ⟨node, exOpen, []⟩
        ⟨.hangup, ["c"]⟩ ∧
      Ends (compiledStep (layoutOf codePointCompare exWindow.graph)) ⟨node, exOpen, []⟩
        ⟨.queue "sales", ["c"]⟩ :=
    ⟨_, rfl, .one (by decide), .one (by decide)⟩
  obtain ⟨node, hnode, hflow, hcompiled⟩ := hstart
  obtain rfl := Sum.inl.inj (Option.some.inj (ha.symm.trans hnode))
  obtain ⟨r, hr, hend⟩ := hsame.ends _ (.inr ⟨_, rfl, hcompiled⟩)
  exact ⟨htext, by decide, _, ha, hflow, r, hr, hend.outcome⟩

end KasterCti.ArsFlow
