import KasterCti.ArsFlow.ReadBack
import KasterCti.ArsFlow.Semantics
import KasterCti.ArsFlow.Validator

/-!
# Where the nodes stand

The code of the compiled flow is known context by context. Every inline node has a place in
the main context, and every label of its code is found at that place, since the labels of
other nodes start differently; every menu has a context of its own. A jump to a node leads
to its place.
-/

namespace KasterCti.ArsFlow

open Dialplan

/-! ## Labels -/

/-- The number of the node, from a text that starts with its label. -/
theorem number_of_nodeLabel {i : Nat} {node : FlowNode} {t : Text}
    (h : (nodeLabel i node).toList <+: t) : (t.drop 5).takeWhile isDigit = natText i := by
  obtain ⟨rest, rfl⟩ := h
  have htext : (nodeLabel i node).toList ++ rest =
      "node-".toList ++ (natText i ++ '-' :: ((labelSlug node).toList ++ rest)) := by
    simp [nodeLabel, natText_eq]
  rw [htext, show 5 = "node-".toList.length by decide, List.drop_left]
  exact takeWhile_append_stop (List.all_eq_true.mpr (fun c => isDigit_of_mem_natText)) rfl

section Labels
variable {layout : Layout} {order : List FlowNode} (hflow : CleanFlow layout order)
include hflow

/-- Labels of two nodes start differently. -/
theorem CleanFlow.labels_apart {a b : FlowNode} (ha : a ∈ order) (hb : b ∈ order) {t : Text}
    (hta : (layout.labelOf a.nodeId).toList <+: t) (htb : (layout.labelOf b.nodeId).toList <+: t) :
    a = b := by
  obtain ⟨i, hi⟩ := List.getElem?_of_mem ha
  obtain ⟨j, hj⟩ := List.getElem?_of_mem hb
  rw [hflow.labels i a hi] at hta
  rw [hflow.labels j b hj] at htb
  have hsame : natText i = natText j :=
    (number_of_nodeLabel hta).symm.trans (number_of_nodeLabel htb)
  have hij : i = j := by
    rw [← natOf_natText i, hsame, natOf_natText]
  rw [hij] at hi
  exact Option.some.inj (hi.symm.trans hj)

variable {node : FlowNode} (hnode : node ∈ order)
include hnode

/-- Every label of the code of a node starts with the label of the node. -/
theorem CleanFlow.label_inline {c : Step} (hc : c ∈ labeledCode layout node) {label : Text}
    (hlabel : c.label = some label) : (layout.labelOf node.nodeId).toList <+: label := by
  have hplain : ∀ {code : List Step}, PlainBody code → c ∈ code → False := by
    intro code hcode hmem
    rw [(hcode c hmem).2] at hlabel
    cases hlabel
  have htake : ∀ condition, c ∉ takeCode layout node condition :=
    fun condition hmem => hplain (hflow.plainBody_take hnode condition).1 hmem
  have hnone : c.label ≠ none := by
    rw [hlabel]
    exact Option.some_ne_none _
  have hsuffix : ∀ {tail app args : String},
      c = labeledStep (layout.labelOf node.nodeId ++ tail) app args →
      (layout.labelOf node.nodeId).toList <+: label := by
    rintro tail app args rfl
    rw [← Option.some.inj hlabel, String.toList_append]
    exact List.prefix_append _ _
  rcases List.mem_cons.mp hc with rfl | hc
  · exact Option.some.inj hlabel ▸ List.prefix_rfl
  unfold inlineCode at hc
  split at hc
  · rcases List.mem_append.mp hc with hc | hc
    · obtain ⟨key, -, rfl⟩ := List.mem_map.mp hc
      exact absurd rfl hnone
    · exact absurd hc (htake _)
  · simp only [List.cons_append, List.nil_append, List.mem_cons] at hc
    rcases hc with rfl | rfl | hc
    · exact absurd rfl hnone
    · exact absurd rfl hnone
    · exact absurd hc (htake _)
  · simp only [List.cons_append, List.nil_append, List.mem_cons] at hc
    rcases hc with rfl | rfl | rfl | rfl | rfl | rfl | rfl | hc
    all_goals first
      | exact absurd rfl hnone
      | exact absurd hc (htake _)
  · split at hc
    · exact absurd hc (htake _)
    · rename_i onTrue hedge
      have htarget : c ∉ edgeCode layout (some onTrue) := by
        intro hmem
        exact hplain (hflow.plainBody_edge hnode
          (by rintro e ⟨⟩; exact (findEdge_eq_some hedge).1)).1 hmem
      unfold conditionCode at hc
      split at hc
      · rcases List.mem_append.mp hc with hc | hc
        · rw [List.mem_singleton.mp hc] at hnone
          exact absurd rfl hnone
        · exact absurd hc (htake _)
      · simp only [List.mem_append, List.mem_singleton] at hc
        rcases hc with ((rfl | hc) | rfl) | hc
        · exact absurd rfl hnone
        · exact absurd hc (htake _)
        · exact hsuffix rfl
        · exact absurd hc htarget
  · simp only [collectCode, List.cons_append, List.nil_append, List.mem_cons, List.mem_append,
      List.not_mem_nil, or_false] at hc
    rcases hc with rfl | rfl | rfl | rfl | rfl | rfl | ((hc | rfl) | hc)
    · exact absurd rfl hnone
    · exact hsuffix rfl
    · exact absurd rfl hnone
    · exact absurd rfl hnone
    · exact absurd rfl hnone
    · exact absurd rfl hnone
    · exact absurd hc (htake _)
    · exact hsuffix rfl
    · exact absurd hc (htake _)
  · rename_i endpointId waitPromptKey hconfig
    simp only [lookupCode, List.mem_append, List.mem_cons, List.not_mem_nil, or_false] at hc
    have hwait : c ∉ playbackCode waitPromptKey := by
      intro hmem
      refine hplain (plainBody_playback ?_) hmem
      have hclean := hflow.config hnode
      rw [hconfig] at hclean
      simp only [NodeConfig.clean, Bool.and_eq_true] at hclean
      exact hclean.2
    rcases hc with (((hc | rfl | rfl) | hc) | rfl) | hc
    · exact absurd hc hwait
    · exact absurd rfl hnone
    · exact absurd rfl hnone
    · exact absurd hc (htake _)
    · exact hsuffix rfl
    · exact absurd hc (htake _)
  · rw [List.mem_singleton.mp hc] at hnone
    exact absurd rfl hnone

/-- A label of the code of a node is not a number. -/
theorem CleanFlow.isNumber_label {label : Text}
    (h : (layout.labelOf node.nodeId).toList <+: label) : isNumber label = false := by
  obtain ⟨i, hi⟩ := List.getElem?_of_mem hnode
  obtain ⟨rest, rfl⟩ := h
  rw [hflow.labels i node hi]
  simp only [nodeLabel, String.toList_append, List.append_assoc]
  rfl

end Labels

/-! ## Places -/

/-- The code of the compiled flow in a dialplan: the main context, one context for every
menu, and no context for the places behind the flow. -/
structure FlowCode (dialplan : List Entry) (layout : Layout) (order : List FlowNode)
    (opening : List Step) : Prop where
  main : HasCode dialplan layout.mainContext.toList "s".toList
    (opening ++ (order.filter FlowNode.isInline).flatMap (labeledCode layout))
  opening : ∀ c ∈ opening, c.label = none
  menu : ∀ node ∈ order, node.isMenu = true → ∀ block ∈ (menuSectionOf layout node).blocks,
    HasCode dialplan (layout.menuContextOf node.nodeId).toList block.exten block.code
  extens : ∀ node ∈ order, node.isMenu = true →
    ∀ name ∈ extensOf dialplan (layout.menuContextOf node.nodeId).toList,
      name ∈ (menuSectionOf layout node).blocks.map Block.exten
  outside : ∀ context ∈ ["queue-entry".toList, "transfer-target".toList],
    (dialplan.map Entry.context).contains context = false

/-- The code of the node stands at the place, and its labels are found there. -/
structure Placed (dialplan : List Entry) (layout : Layout) (node : FlowNode) (pos : Pos) :
    Prop where
  context : pos.context = layout.mainContext.toList
  exten : pos.exten = "s".toList
  code : CodeAt dialplan pos (labeledCode layout node)
  label : ∀ before c after label, labeledCode layout node = before ++ c :: after →
    c.label = some label → (∀ d ∈ before, d.label ≠ some label) →
    jumpTo dialplan layout.mainContext.toList "s".toList label = .to (pos.after before.length)

section Places
variable {dialplan : List Entry} {layout : Layout} {order : List FlowNode} {opening : List Step}
  (hflow : CleanFlow layout order) (hcode : FlowCode dialplan layout order opening)
include hflow hcode

theorem FlowCode.placed {node : FlowNode} (hnode : node ∈ order) (hinline : node.isInline = true) :
    ∃ pos, Placed dialplan layout node pos := by
  obtain ⟨l₁, l₂, hsplit⟩ := List.append_of_mem (List.mem_filter.mpr ⟨hnode, hinline⟩)
  have hmain := hcode.main
  have hwhole : opening ++ (order.filter FlowNode.isInline).flatMap (labeledCode layout) =
      (opening ++ l₁.flatMap (labeledCode layout)) ++ labeledCode layout node ++
        l₂.flatMap (labeledCode layout) := by
    rw [hsplit]
    simp
  rw [hwhole] at hmain
  -- what stands in front of the node has labels of other nodes, or none
  have hids : ((order.filter FlowNode.isInline).map FlowNode.nodeId).Nodup :=
    List.Nodup.sublist (List.filter_sublist.map _) hflow.ids
  have hfront : ∀ d ∈ opening ++ l₁.flatMap (labeledCode layout), ∀ label, d.label = some label →
      ¬ (layout.labelOf node.nodeId).toList <+: label := by
    intro d hd label hlabel hprefixed
    rcases List.mem_append.mp hd with hd | hd
    · rw [hcode.opening d hd] at hlabel
      cases hlabel
    · obtain ⟨other, hother, hd⟩ := List.mem_flatMap.mp hd
      have hmem : other ∈ order :=
        (List.mem_filter.mp (by rw [hsplit]; exact List.mem_append_left _ hother)).1
      have hsame := hflow.labels_apart hmem hnode (hflow.label_inline hmem hd hlabel) hprefixed
      subst hsame
      rw [hsplit, List.map_append, List.map_cons] at hids
      exact (List.disjoint_of_nodup_append hids) (List.mem_map_of_mem hother) List.mem_cons_self
  refine ⟨⟨layout.mainContext.toList, "s".toList,
    (opening ++ l₁.flatMap (labeledCode layout)).length + 1⟩, rfl, rfl,
    hmain.codeAt (by decide), ?_⟩
  intro before c after label hbody hlabel hbefore
  have hc : c ∈ labeledCode layout node := by
    rw [hbody]
    exact List.mem_append_right _ List.mem_cons_self
  have hprefixed := hflow.label_inline hnode hc hlabel
  have hfree : ∀ d ∈ (opening ++ l₁.flatMap (labeledCode layout)) ++ before,
      d.label ≠ some label := by
    intro d hd heq
    rcases List.mem_append.mp hd with hd | hd
    · exact hfront d hd label heq hprefixed
    · exact hbefore d hd heq
  have hfind : (opening ++ l₁.flatMap (labeledCode layout) ++ labeledCode layout node ++
      l₂.flatMap (labeledCode layout)).findIdx? (fun c => c.label = some label) =
      some ((opening ++ l₁.flatMap (labeledCode layout)) ++ before).length := by
    have hlines : opening ++ l₁.flatMap (labeledCode layout) ++ labeledCode layout node ++
        l₂.flatMap (labeledCode layout) = ((opening ++ l₁.flatMap (labeledCode layout)) ++ before) ++
          c :: (after ++ l₂.flatMap (labeledCode layout)) := by
      rw [hbody]
      simp only [List.append_assoc, List.cons_append]
    rw [hlines, findIdx?_first hlabel hfree]
  rw [hmain.jumpTo (by decide) (hflow.isNumber_label hnode hprefixed) hfind, List.length_append]
  congr 2
  exact Nat.add_right_comm _ _ _

omit hflow hcode in
/-- The first label of the code of a node is its own. -/
theorem Placed.entry {node : FlowNode} {pos : Pos} (h : Placed dialplan layout node pos) :
    jumpTo dialplan layout.mainContext.toList "s".toList (layout.labelOf node.nodeId).toList =
      .to pos := by
  have hjump := h.label [] _ _ _ rfl rfl (by simp)
  rwa [List.length_nil] at hjump

end Places

/-! ## Menus -/

section Menus
variable {layout : Layout} {order : List FlowNode} {node : FlowNode}

theorem CleanFlow.menuContexts_nodup (hflow : CleanFlow layout order) {nodes : List FlowNode} (hnodes : nodes ⊆ order)
    (hids : (nodes.map FlowNode.nodeId).Nodup) :
    (nodes.map (fun node => (layout.menuContextOf node.nodeId).toList)).Nodup := by
  refine List.Nodup.map_on ?_ (List.Nodup.of_map _ hids)
  intro a ha b hb hab
  refine hflow.labels_apart (t := (layout.labelOf a.nodeId).toList) (hnodes ha) (hnodes hb)
    List.prefix_rfl ?_
  simp only [Layout.menuContextOf, String.toList_append, List.append_assoc,
    List.append_cancel_left_eq] at hab
  exact hab ▸ List.prefix_rfl

/-- The digits of a menu, and the other three extensions. -/
theorem menuSection_extens (layout : Layout) (node : FlowNode) (config : MenuConfig) :
    (menuSection layout node config).blocks.map Block.exten =
      "s".toList :: ((layout.outgoing node.nodeId).filterMap (digitBlock layout)).map Block.exten ++
        "t".toList :: (invalidBlocks layout node).map Block.exten := by
  simp [menuSection, blockOf]

/-- A key is none of the extensions with a meaning of their own. -/
theorem ne_of_keys {keys : Text} (hkeys : keys.all isKey = true) {name : Text}
    (hname : name.all isKey = false) : keys ≠ name := by
  rintro rfl
  rw [hkeys] at hname
  cases hname

theorem digitBlock_exten {layout : Layout} {edge : FlowEdge} {block : Block}
    (h : digitBlock layout edge = some block) :
    ∃ digit, edge.condition = .digit ∧ given edge.digit = some digit ∧
      block = blockOf digit (edgeCode layout (some edge)) := by
  unfold digitBlock at h
  split at h
  · rename_i digit hcondition hdigit
    exact ⟨digit, hcondition, hdigit, (Option.some.inj h).symm⟩
  · cases h

/-- No two digit edges of a node have one digit. -/
def DistinctDigits (edges : List FlowEdge) : Prop :=
  edges.Pairwise (fun a b => a.condition = .digit → b.condition = .digit →
    ∀ digit, given a.digit = some digit → given b.digit ≠ some digit)

theorem extens_nodup {edges : List FlowEdge} (h : DistinctDigits edges) :
    ((edges.filterMap (digitBlock layout)).map Block.exten).Nodup := by
  rw [List.map_filterMap, List.Nodup, List.pairwise_filterMap]
  refine h.imp ?_
  intro a b hapart x hx y hy
  obtain ⟨block, hblock, rfl⟩ := Option.map_eq_some_iff.mp hx
  obtain ⟨other, hother, rfl⟩ := Option.map_eq_some_iff.mp hy
  obtain ⟨digit, ha, hda, rfl⟩ := digitBlock_exten hblock
  obtain ⟨digit', hb, hdb, rfl⟩ := digitBlock_exten hother
  intro hsame
  obtain rfl : digit = digit' := String.toList_inj.mp hsame
  exact hapart ha hb digit hda hdb

/-- The extensions of a menu have different names. -/
theorem CleanFlow.menu_nodup (hflow : CleanFlow layout order) (hnode : node ∈ order) (hmenu : node.isMenu = true)
    (hdigits : DistinctDigits (layout.outgoing node.nodeId)) :
    ((menuSectionOf layout node).blocks.map Block.exten).Nodup := by
  obtain ⟨config, hconfig⟩ := config_of_isMenu hmenu
  have hkeys : ∀ name ∈ ((layout.outgoing node.nodeId).filterMap (digitBlock layout)).map Block.exten,
      name.all isKey = true := by
    intro name hname
    obtain ⟨block, hblock, rfl⟩ := List.mem_map.mp hname
    obtain ⟨edge, hedge, hblock⟩ := List.mem_filterMap.mp hblock
    obtain ⟨digit, hcondition, hdigit, rfl⟩ := digitBlock_exten hblock
    exact hflow.digit hnode hmenu hedge hcondition hdigit
  have hinvalid : (invalidBlocks layout node).map Block.exten ⊆ ["i".toList] := by
    unfold invalidBlocks
    split <;> simp [blockOf]
  rw [menuSectionOf, hconfig, menuSection_extens, List.cons_append, List.nodup_cons,
    List.nodup_append]
  refine ⟨?_, extens_nodup hdigits, ?_, ?_⟩
  · intro hmem
    rcases List.mem_append.mp hmem with hmem | hmem
    · exact ne_of_keys (hkeys _ hmem) (show "s".toList.all isKey = false by decide) rfl
    · rcases List.mem_cons.mp hmem with hmem | hmem
      · exact absurd hmem (by decide)
      · exact absurd (List.mem_singleton.mp (hinvalid hmem)) (by decide)
  · rw [List.nodup_cons]
    refine ⟨fun hmem => absurd (List.mem_singleton.mp (hinvalid hmem)) (by decide), ?_⟩
    unfold invalidBlocks
    split <;> simp
  · intro name hname other hother
    rcases List.mem_cons.mp hother with rfl | hother
    · exact ne_of_keys (hkeys _ hname) (show "t".toList.all isKey = false by decide)
    · rw [List.mem_singleton.mp (hinvalid hother)]
      exact ne_of_keys (hkeys _ hname) (show "i".toList.all isKey = false by decide)

end Menus

/-! ## The code of the flow -/

section Sections
variable {localeCompare : String → String → Int} {input : ArsFlowRenderInput}

/-- The code in front of the nodes. -/
def flowOpening (localeCompare : String → String → Int) (input : ArsFlowRenderInput) : List Step :=
  plainStep "NoOp" ("ARS flow " ++ input.graph.name) :: (openingCode input ++
    ((input.graph.nodeById input.graph.entryNodeId).map
      (jumpCode (layoutOf localeCompare input.graph))).getD [])

/-- The digit edges of an accepted graph. -/
theorem distinctDigits_of_valid (h : checkMenuDigits input.graph = []) {node : FlowNode}
    (hnode : input.graph.nodeById node.nodeId = some node) (hmenu : node.isMenu = true) :
    DistinctDigits (buildOutgoing localeCompare input.graph node.nodeId) := by
  have hpairs := (menuDigits_distinct h).1
  have hsorted : (input.graph.edges.filter (fun edge => edge.fromNodeId = node.nodeId &&
      input.graph.hasNode edge.fromNodeId && input.graph.hasNode edge.toNodeId)).Pairwise
        (fun a b => a.condition = .digit → b.condition = .digit →
          ∀ digit, given a.digit = some digit → given b.digit ≠ some digit) := by
    refine List.Pairwise.imp_of_mem ?_ (hpairs.sublist List.filter_sublist)
    intro a b ha hb hapart hca hcb digit hda hdb
    have hfrom : ∀ edge ∈ input.graph.edges.filter (fun edge => edge.fromNodeId = node.nodeId &&
        input.graph.hasNode edge.fromNodeId && input.graph.hasNode edge.toNodeId),
        edge.fromNodeId = node.nodeId := by
      intro edge hedge
      have hcond := (List.mem_filter.mp hedge).2
      simp only [Bool.and_eq_true, decide_eq_true_eq] at hcond
      exact hcond.1.1
    refine hapart digit ?_ ?_ ((hfrom a ha).trans (hfrom b hb).symm)
    · simp [menuDigit, hca, hfrom a ha, hnode, hmenu, hda]
    · simp [menuDigit, hcb, hfrom b hb, hnode, hmenu, hdb]
  rw [DistinctDigits, buildOutgoing]
  refine ((List.perm_insertionSort _ _).symm.pairwise_iff ?_).mp hsorted
  intro a b hab hb ha digit hdb hda
  exact hab ha hb digit hda hdb

theorem context_menuSectionOf {layout : Layout} {node : FlowNode} (hmenu : node.isMenu = true) :
    (menuSectionOf layout node).context = (layout.menuContextOf node.nodeId).toList := by
  obtain ⟨config, hconfig⟩ := config_of_isMenu hmenu
  rw [menuSectionOf, hconfig]
  rfl

theorem mainSection_context (layout : Layout) (order : List FlowNode) :
    (mainSection layout order input).context = (mainContext input.graph).toList := by
  rw [mainSection]

theorem layoutOf_mainContext (graph : FlowGraph) :
    (layoutOf localeCompare graph).mainContext = mainContext graph := rfl

theorem menuContextOf_ne_main (layout : Layout) (nodeId : String) :
    (layout.menuContextOf nodeId).toList ≠ layout.mainContext.toList := by
  intro hsame
  have hlength := congrArg List.length hsame
  rw [Layout.menuContextOf, String.toList_append, String.toList_append, List.length_append,
    List.length_append, show "-".toList.length = 1 from rfl] at hlength
  omega

/-- The contexts of a flow have different names, which start alike. -/
theorem flowSections_contexts (hflow : CleanFlow (layoutOf localeCompare input.graph)
      (orderReachableNodes localeCompare input.graph)) :
    ((flowSections localeCompare input).map Section.context).Nodup ∧
      ∀ sec ∈ flowSections localeCompare input, sec.context.head? = some 'a' := by
  have hmenus : ((orderReachableNodes localeCompare input.graph).filter FlowNode.isMenu).map
      (fun node => (menuSectionOf (layoutOf localeCompare input.graph) node).context) =
      ((orderReachableNodes localeCompare input.graph).filter FlowNode.isMenu).map
        (fun node => ((layoutOf localeCompare input.graph).menuContextOf node.nodeId).toList) :=
    List.map_congr_left (fun node hnode => context_menuSectionOf (List.mem_filter.mp hnode).2)
  have hids := List.Nodup.sublist ((List.filter_sublist (p := FlowNode.isMenu)).map FlowNode.nodeId)
    hflow.ids
  constructor
  · rw [flowSections, List.map_cons, List.map_map, Function.comp_def, hmenus, List.nodup_cons]
    refine ⟨?_, hflow.menuContexts_nodup (fun _ h => (List.mem_filter.mp h).1) hids⟩
    intro hmem
    obtain ⟨node, -, hsame⟩ := List.mem_map.mp hmem
    rw [mainSection_context, ← layoutOf_mainContext] at hsame
    exact menuContextOf_ne_main _ _ hsame
  · intro sec hsec
    rcases List.mem_cons.mp hsec with rfl | hsec
    · rw [mainSection, mainContext, String.toList_append]
      rfl
    · obtain ⟨node, hnode, rfl⟩ := List.mem_map.mp hsec
      rw [context_menuSectionOf (List.mem_filter.mp hnode).2, Layout.menuContextOf,
        String.toList_append, String.toList_append, layoutOf, mainContext, String.toList_append]
      rfl

theorem flowCode_of_sections (hflow : CleanFlow (layoutOf localeCompare input.graph)
      (orderReachableNodes localeCompare input.graph))
    (hvalid : checkMenuDigits input.graph = [])
    (hentry : ∃ node, input.graph.nodeById input.graph.entryNodeId = some node ∧
      node ∈ orderReachableNodes localeCompare input.graph) :
    FlowCode ((flowSections localeCompare input).flatMap Section.entries)
      (layoutOf localeCompare input.graph) (orderReachableNodes localeCompare input.graph)
      (flowOpening localeCompare input) := by
  obtain ⟨hnodup, hhead⟩ := flowSections_contexts hflow
  have hmenu : ∀ node ∈ orderReachableNodes localeCompare input.graph, node.isMenu = true →
      menuSectionOf (layoutOf localeCompare input.graph) node ∈ flowSections localeCompare input :=
    fun node hnode hmenu => List.mem_cons_of_mem _
      (List.mem_map_of_mem (List.mem_filter.mpr ⟨hnode, hmenu⟩))
  refine ⟨?_, ?_, ?_, ?_, ?_⟩
  · have hcode := hasCode_of_sections hnodup (List.mem_cons_self) (by simp [mainSection])
      (List.mem_singleton_self _)
    simpa [mainSection, flowOpening, mainCode, Block.code, layoutOf] using hcode
  · obtain ⟨entry, hfound, hentry⟩ := hentry
    intro c hc
    rcases List.mem_cons.mp hc with rfl | hc
    · rfl
    · rcases List.mem_append.mp hc with hc | hc
      · simp only [openingCode, List.mem_cons, List.not_mem_nil, or_false] at hc
        rcases hc with rfl | rfl | rfl | rfl | rfl <;> rfl
      · rw [hfound, Option.map_some, Option.getD_some] at hc
        exact (plainBody_jump hflow.named (hflow.config hentry) c hc).2
  · intro node hnode hismenu block hblock
    have hcode := hasCode_of_sections hnodup (hmenu node hnode hismenu) (hflow.menu_nodup hnode hismenu
      (distinctDigits_of_valid hvalid (hflow.known node hnode) hismenu)) hblock
    rwa [context_menuSectionOf hismenu] at hcode
  · intro node hnode hismenu name hname
    refine extensOf_sections hnodup (hmenu node hnode hismenu) ?_
    rwa [context_menuSectionOf hismenu]
  · intro context hcontext
    rw [← Bool.not_eq_true, List.contains_iff_mem]
    intro hmem
    obtain ⟨entry, hentry, rfl⟩ := List.mem_map.mp hmem
    obtain ⟨sec, hsec, hentry⟩ := List.mem_flatMap.mp hentry
    obtain ⟨block, -, hentry⟩ := List.mem_flatMap.mp hentry
    have hstart := hhead sec hsec
    rw [← (mem_blockEntries hentry).1] at hstart
    simp only [List.mem_cons, List.not_mem_nil, or_false] at hcontext
    rcases hcontext with h | h
    · rw [h] at hstart
      exact absurd hstart (by decide)
    · rw [h] at hstart
      exact absurd hstart (by decide)

end Sections

end KasterCti.ArsFlow
