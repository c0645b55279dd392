import KasterCti.ArsFlow.GraphChecks

/-!
# The order in which a flow is stored

The database returns the nodes and edges of a flow in any order. The compiler sorts the edges
of every node by condition, digit and target. Edges that agree in all three keep the order in
which they were stored, but nothing else of an edge reaches the text.
-/

namespace KasterCti.ArsFlow

open Lines Renderers

/-! ## Sorting -/

section Sorting
variable {α : Type*} {r : α → α → Prop} [DecidableRel r]

/-- Sorting needs its order on the elements of the list only. -/
theorem pairwise_insertionSort_of {l : List α} (htotal : ∀ a ∈ l, ∀ b ∈ l, r a b ∨ r b a)
    (htrans : ∀ a ∈ l, ∀ b ∈ l, ∀ c ∈ l, r a b → r b c → r a c) :
    (l.insertionSort r).Pairwise r := by
  have : Std.Total (fun a b : { x // x ∈ l } => r a.1 b.1) :=
    ⟨fun a b => htotal a.1 a.2 b.1 b.2⟩
  have : IsTrans { x // x ∈ l } (fun a b => r a.1 b.1) :=
    ⟨fun a b c => htrans a.1 a.2 b.1 b.2 c.1 c.2⟩
  have hsorted := List.pairwise_insertionSort (fun a b : { x // x ∈ l } => r a.1 b.1) l.attach
  have hmap := List.map_insertionSort (fun a b : { x // x ∈ l } => r a.1 b.1) r Subtype.val l.attach
    (fun _ _ _ _ => Iff.rfl)
  rw [List.attach_map_subtype_val] at hmap
  rw [← hmap]
  exact List.pairwise_map.mpr hsorted

/-- What a list sorts to does not depend on its order, where the order is total. -/
theorem insertionSort_eq_of_perm {l l' : List α} (htotal : ∀ a ∈ l, ∀ b ∈ l, r a b ∨ r b a)
    (htrans : ∀ a ∈ l, ∀ b ∈ l, ∀ c ∈ l, r a b → r b c → r a c)
    (hanti : ∀ a ∈ l, ∀ b ∈ l, r a b → r b a → a = b) (h : l.Perm l') :
    l.insertionSort r = l'.insertionSort r := by
  have hmem : ∀ a, a ∈ l' → a ∈ l := fun a => h.mem_iff.mpr
  refine List.Perm.eq_of_pairwise ?_ (pairwise_insertionSort_of htotal htrans)
    (pairwise_insertionSort_of (fun a ha b hb => htotal a (hmem a ha) b (hmem b hb))
      (fun a ha b hb c hc => htrans a (hmem a ha) b (hmem b hb) c (hmem c hc)))
    (((List.perm_insertionSort r l).trans h).trans (List.perm_insertionSort r l').symm)
  intro a b ha hb
  exact hanti a ((List.mem_insertionSort r).mp ha) b (hmem b ((List.mem_insertionSort r).mp hb))

end Sorting

/-- A comparison that orders the given texts. -/
structure Collates (localeCompare : String → String → Int) (texts : List String) : Prop where
  same : ∀ a ∈ texts, ∀ b ∈ texts, localeCompare a b = 0 ↔ a = b
  swap : ∀ a ∈ texts, ∀ b ∈ texts, localeCompare a b < 0 ↔ 0 < localeCompare b a
  trans : ∀ a ∈ texts, ∀ b ∈ texts, ∀ c ∈ texts, localeCompare a b < 0 →
    localeCompare b c < 0 → localeCompare a c < 0

section Collation
variable {localeCompare : String → String → Int} {texts : List String}
  (h : Collates localeCompare texts) {a b c : String}
include h

theorem Collates.irrefl (ha : a ∈ texts) : ¬ localeCompare a a < 0 := by
  rw [(h.same a ha a ha).mpr rfl]
  exact Int.lt_irrefl 0

theorem Collates.asymm (ha : a ∈ texts) (hb : b ∈ texts) (hab : localeCompare a b < 0) :
    ¬ localeCompare b a < 0 :=
  fun hba => absurd ((h.swap a ha b hb).mp hab) (Int.lt_asymm hba)

theorem Collates.total (ha : a ∈ texts) (hb : b ∈ texts) :
    localeCompare a b ≤ 0 ∨ localeCompare b a ≤ 0 := by
  rcases lt_or_ge 0 (localeCompare a b) with hgt | hle
  · exact .inr (Int.le_of_lt ((h.swap b hb a ha).mpr hgt))
  · exact .inl hle

theorem Collates.antisymm (ha : a ∈ texts) (hb : b ∈ texts) (hab : localeCompare a b ≤ 0)
    (hba : localeCompare b a ≤ 0) : a = b := by
  rcases Int.lt_or_eq_of_le hab with hlt | heq
  · exact absurd ((h.swap a ha b hb).mp hlt) (Int.not_lt.mpr hba)
  · exact (h.same a ha b hb).mp heq

theorem Collates.trans_le (ha : a ∈ texts) (hb : b ∈ texts) (hc : c ∈ texts)
    (hab : localeCompare a b ≤ 0) (hbc : localeCompare b c ≤ 0) : localeCompare a c ≤ 0 := by
  rcases Int.lt_or_eq_of_le hab with hlt | heq
  · rcases Int.lt_or_eq_of_le hbc with hlt' | heq'
    · exact Int.le_of_lt (h.trans a ha b hb c hc hlt hlt')
    · exact (h.same b hb c hc).mp heq' ▸ hab
  · exact (h.same a ha b hb).mp heq ▸ hbc

end Collation

/-- What the compiler takes from an edge. -/
structure EdgeKey where
  condition : FlowEdgeCondition
  digit : String
  toNodeId : String

def FlowEdge.key (edge : FlowEdge) : EdgeKey :=
  ⟨edge.condition, edge.digit.getD "", edge.toNodeId⟩

/-- The strings that are compared: the digits and the ids of the nodes. -/
def FlowGraph.collated (graph : FlowGraph) : List String :=
  graph.edges.map (fun edge => edge.digit.getD "") ++ graph.nodes.map FlowNode.nodeId

section Keys
variable (localeCompare : String → String → Int)

def compareKeys (a b : EdgeKey) : Int :=
  let rank := conditionRank a.condition - conditionRank b.condition
  let digit := localeCompare a.digit b.digit
  if rank ≠ 0 then rank
  else if digit ≠ 0 then digit
  else localeCompare a.toNodeId b.toNodeId

theorem conditionRank_inj {a b : FlowEdgeCondition} (h : conditionRank a = conditionRank b) :
    a = b := by
  cases a <;> cases b <;> first | rfl | exact absurd h (by decide)

variable {localeCompare}

/-- The order of the keys: by condition, then by digit, then by target. -/
theorem compareKeys_le {texts : List String} (h : Collates localeCompare texts) {a b : EdgeKey}
    (ha : a.digit ∈ texts) (hb : b.digit ∈ texts) :
    compareKeys localeCompare a b ≤ 0 ↔
      conditionRank a.condition < conditionRank b.condition ∨
      a.condition = b.condition ∧ (localeCompare a.digit b.digit < 0 ∨
        a.digit = b.digit ∧ localeCompare a.toNodeId b.toNodeId ≤ 0) := by
  rw [← h.same _ ha _ hb]
  by_cases hrank : conditionRank a.condition = conditionRank b.condition
  · have hcondition := conditionRank_inj hrank
    simp only [compareKeys, hcondition, ne_eq, lt_self_iff_false, true_and, false_or]
    split <;> omega
  · have hcondition : a.condition ≠ b.condition := fun heq => hrank (congrArg conditionRank heq)
    simp only [compareKeys, hcondition, false_and, or_false]
    rw [if_pos (by omega)]
    omega

section
variable {texts : List String} (h : Collates localeCompare texts) {a b c : EdgeKey}
  (ha : a.digit ∈ texts ∧ a.toNodeId ∈ texts) (hb : b.digit ∈ texts ∧ b.toNodeId ∈ texts)
include h ha hb

theorem compareKeys_total :
    compareKeys localeCompare a b ≤ 0 ∨ compareKeys localeCompare b a ≤ 0 := by
  rw [compareKeys_le h ha.1 hb.1, compareKeys_le h hb.1 ha.1]
  rcases Int.lt_trichotomy (conditionRank a.condition) (conditionRank b.condition) with
    hlt | heq | hlt
  · exact .inl (.inl hlt)
  · have hcondition := conditionRank_inj heq
    rcases Int.lt_trichotomy (localeCompare a.digit b.digit) 0 with hdigit | hdigit | hdigit
    · exact .inl (.inr ⟨hcondition, .inl hdigit⟩)
    · have hsame := (h.same _ ha.1 _ hb.1).mp hdigit
      rcases h.total ha.2 hb.2 with hto | hto
      · exact .inl (.inr ⟨hcondition, .inr ⟨hsame, hto⟩⟩)
      · exact .inr (.inr ⟨hcondition.symm, .inr ⟨hsame.symm, hto⟩⟩)
    · exact .inr (.inr ⟨hcondition.symm, .inl ((h.swap _ hb.1 _ ha.1).mpr hdigit)⟩)
  · exact .inr (.inl hlt)

theorem compareKeys_antisymm (hab : compareKeys localeCompare a b ≤ 0)
    (hba : compareKeys localeCompare b a ≤ 0) : a = b := by
  rw [compareKeys_le h ha.1 hb.1] at hab
  rw [compareKeys_le h hb.1 ha.1] at hba
  rcases hab with hlt | ⟨hcondition, hab⟩
  · rcases hba with hlt' | ⟨hcondition, _⟩
    · exact absurd hlt' (Int.lt_asymm hlt)
    · exact absurd hlt (hcondition ▸ Int.lt_irrefl _)
  · rcases hba with hlt | ⟨_, hba⟩
    · exact absurd hlt (hcondition ▸ Int.lt_irrefl _)
    · obtain ⟨hdigit, hab⟩ : a.digit = b.digit ∧ localeCompare a.toNodeId b.toNodeId ≤ 0 := by
        rcases hab with hlt | hab
        · rcases hba with hlt' | ⟨hdigit, _⟩
          · exact absurd hlt' (h.asymm ha.1 hb.1 hlt)
          · exact absurd hlt (hdigit ▸ h.irrefl hb.1)
        · exact hab
      have hba : localeCompare b.toNodeId a.toNodeId ≤ 0 := by
        rcases hba with hlt | ⟨_, hba⟩
        · exact absurd hlt (hdigit ▸ h.irrefl ha.1)
        · exact hba
      obtain ⟨condition, digit, toNodeId⟩ := a
      obtain ⟨condition', digit', toNodeId'⟩ := b
      exact EdgeKey.mk.injEq .. ▸ ⟨hcondition, hdigit, h.antisymm ha.2 hb.2 hab hba⟩

theorem compareKeys_trans (hc : c.digit ∈ texts ∧ c.toNodeId ∈ texts)
    (hab : compareKeys localeCompare a b ≤ 0) (hbc : compareKeys localeCompare b c ≤ 0) :
    compareKeys localeCompare a c ≤ 0 := by
  rw [compareKeys_le h ha.1 hb.1] at hab
  rw [compareKeys_le h hb.1 hc.1] at hbc
  rw [compareKeys_le h ha.1 hc.1]
  rcases hab with hlt | ⟨hcondition, hab⟩
  · rcases hbc with hlt' | ⟨hcondition', _⟩
    · exact .inl (Int.lt_trans hlt hlt')
    · exact .inl (hcondition' ▸ hlt)
  · rcases hbc with hlt | ⟨hcondition', hbc⟩
    · exact .inl (hcondition ▸ hlt)
    · refine .inr ⟨hcondition.trans hcondition', ?_⟩
      rcases hab with hab | ⟨hdigit, hab⟩
      · rcases hbc with hbc | ⟨hdigit', _⟩
        · exact .inl (h.trans _ ha.1 _ hb.1 _ hc.1 hab hbc)
        · exact .inl (hdigit' ▸ hab)
      · rcases hbc with hbc | ⟨hdigit', hbc⟩
        · exact .inl (hdigit ▸ hbc)
        · exact .inr ⟨hdigit.trans hdigit', h.trans_le ha.2 hb.2 hc.2 hab hbc⟩

end

end Keys

/-! ## Layouts -/

/-- The same flow, stored in another order. -/
structure FlowGraph.Restored (graph stored : FlowGraph) : Prop where
  flowId : stored.flowId = graph.flowId
  name : stored.name = graph.name
  entryNodeId : stored.entryNodeId = graph.entryNodeId
  nodes : stored.nodes.Perm graph.nodes
  edges : stored.edges.Perm graph.edges

/-- Two layouts that differ in nothing that is printed. -/
structure Layout.Same (layout stored : Layout) : Prop where
  nodeById : ∀ nodeId, stored.graph.nodeById nodeId = layout.graph.nodeById nodeId
  outgoing : ∀ nodeId, (stored.outgoing nodeId).map FlowEdge.key =
    (layout.outgoing nodeId).map FlowEdge.key
  mainContext : stored.mainContext = layout.mainContext
  labels : stored.labels = layout.labels

section Restored
variable {localeCompare : String → String → Int} {graph stored : FlowGraph}

section Restored
variable (h : graph.Restored stored) (hids : graph.DistinctIds)
include h hids

theorem FlowGraph.Restored.nodeById (nodeId : String) :
    stored.nodeById nodeId = graph.nodeById nodeId := by
  have hids' : stored.DistinctIds := (h.nodes.map FlowNode.nodeId).nodup_iff.mpr hids
  cases hfound : stored.nodeById nodeId with
  | some node =>
    have hnode := h.nodes.mem_iff.mp (FlowGraph.nodeById_mem hfound)
    rw [← FlowGraph.nodeById_nodeId hfound, nodeById_of_mem hids hnode]
  | none =>
    cases hother : graph.nodeById nodeId with
    | none => rfl
    | some node =>
      have hnode := h.nodes.mem_iff.mpr (FlowGraph.nodeById_mem hother)
      rw [← FlowGraph.nodeById_nodeId hother, nodeById_of_mem hids' hnode] at hfound
      cases hfound

theorem FlowGraph.Restored.outgoing (hcompare : Collates localeCompare graph.collated)
    (nodeId : String) :
    (buildOutgoing localeCompare stored nodeId).map FlowEdge.key =
      (buildOutgoing localeCompare graph nodeId).map FlowEdge.key := by
  have hkeys : ∀ g : FlowGraph, (buildOutgoing localeCompare g nodeId).map FlowEdge.key =
      ((edgesFrom g nodeId).map FlowEdge.key).insertionSort
        (fun a b => compareKeys localeCompare a b ≤ 0) := fun g =>
    List.map_insertionSort _ _ FlowEdge.key (edgesFrom g nodeId) (fun _ _ _ _ => Iff.rfl)
  have hfrom : (edgesFrom stored nodeId).Perm (edgesFrom graph nodeId) := by
    rw [edgesFrom, edgesFrom]
    simp only [FlowGraph.hasNode, h.nodeById hids]
    exact h.edges.filter _
  have hin : ∀ key ∈ (edgesFrom stored nodeId).map FlowEdge.key,
      key.digit ∈ graph.collated ∧ key.toNodeId ∈ graph.collated := by
    intro key hkey
    obtain ⟨edge, hedge, rfl⟩ := List.mem_map.mp hkey
    obtain ⟨hmem, _, _, hto⟩ := mem_edgesFrom.mp (hfrom.mem_iff.mp hedge)
    exact ⟨List.mem_append_left _ (List.mem_map_of_mem hmem), List.mem_append_right _ hto⟩
  rw [hkeys, hkeys]
  exact insertionSort_eq_of_perm
    (fun a ha b hb => compareKeys_total hcompare (hin a ha) (hin b hb))
    (fun a ha b hb c hc => compareKeys_trans hcompare (hin a ha) (hin b hb) (hin c hc))
    (fun a ha b hb => compareKeys_antisymm hcompare (hin a ha) (hin b hb))
    (hfrom.map FlowEdge.key)

theorem FlowGraph.Restored.order (hcompare : Collates localeCompare graph.collated) :
    orderReachableNodes localeCompare stored = orderReachableNodes localeCompare graph := by
  have hnext : (fun nodeId => (buildOutgoing localeCompare stored nodeId).map FlowEdge.toNodeId) =
      (fun nodeId => (buildOutgoing localeCompare graph nodeId).map FlowEdge.toNodeId) := by
    funext nodeId
    have hkeys := congrArg (List.map EdgeKey.toNodeId) (h.outgoing hids hcompare nodeId)
    rwa [List.map_map, List.map_map] at hkeys
  have hnode : stored.nodeById = graph.nodeById := funext (h.nodeById hids)
  rw [orderReachableNodes, orderReachableNodes, orderReachableIds, orderReachableIds, hnext, hnode,
    h.nodes.length_eq, h.entryNodeId]

theorem FlowGraph.Restored.layout (hcompare : Collates localeCompare graph.collated) :
    (layoutOf localeCompare graph).Same (layoutOf localeCompare stored) where
  nodeById := h.nodeById hids
  outgoing := h.outgoing hids hcompare
  mainContext := by rw [layoutOf, layoutOf, mainContext, mainContext, flowSlug, flowSlug, h.name, h.flowId]
  labels := by rw [layoutOf, layoutOf, h.order hids hcompare]

end Restored

end Restored

/-! ## Nothing else is printed -/

section Same
variable {layout stored : Layout} (h : layout.Same stored)
include h

theorem Layout.Same.labelOf (nodeId : String) : stored.labelOf nodeId = layout.labelOf nodeId := by
  rw [Layout.labelOf, Layout.labelOf, h.labels]

theorem Layout.Same.menuContextOf (nodeId : String) :
    stored.menuContextOf nodeId = layout.menuContextOf nodeId := by
  rw [Layout.menuContextOf, Layout.menuContextOf, h.mainContext, h.labelOf]

theorem Layout.Same.renderJump (node : FlowNode) : renderJump stored node = renderJump layout node := by
  unfold ArsFlow.renderJump
  simp only [h.menuContextOf, h.mainContext, h.labelOf]

theorem Layout.Same.jump (nodeId : String) : stored.jump nodeId = layout.jump nodeId := by
  unfold Layout.jump
  rw [h.nodeById]
  simp only [h.renderJump]

theorem Layout.Same.findEdge (nodeId : String) (condition : FlowEdgeCondition) :
    (stored.findEdge nodeId condition).map FlowEdge.key =
      (layout.findEdge nodeId condition).map FlowEdge.key := by
  have hfind : ∀ edges : List FlowEdge,
      (edges.find? (fun edge => edge.condition = condition)).map FlowEdge.key =
        (edges.map FlowEdge.key).find? (fun key => key.condition = condition) := by
    intro edges
    rw [List.find?_map]
    rfl
  rw [Layout.findEdge, Layout.findEdge, hfind, hfind, h.outgoing]

theorem Layout.Same.jumpOrHangup {edge edge' : Option FlowEdge}
    (hkey : edge'.map FlowEdge.key = edge.map FlowEdge.key) :
    stored.jumpOrHangup edge' = layout.jumpOrHangup edge := by
  cases edge with
  | none =>
    rw [Option.map_none, Option.map_eq_none_iff] at hkey
    rw [hkey]
    rfl
  | some edge =>
    obtain ⟨edge', rfl, hsame⟩ := Option.map_eq_some_iff.mp hkey
    have hto : edge'.toNodeId = edge.toNodeId := congrArg EdgeKey.toNodeId hsame
    rw [Layout.jumpOrHangup, Layout.jumpOrHangup, hto, h.jump]

theorem Layout.Same.jumpOn (nodeId : String) (condition : FlowEdgeCondition) :
    stored.jumpOrHangup (stored.findEdge nodeId condition) =
      layout.jumpOrHangup (layout.findEdge nodeId condition) :=
  h.jumpOrHangup (h.findEdge nodeId condition)

theorem Layout.Same.renderCondition (node : FlowNode) (config : ConditionConfig) (label : String) :
    renderCondition stored node config label = renderCondition layout node config label := by
  unfold ArsFlow.renderCondition
  rw [h.jumpOn]
  have hkey := h.findEdge node.nodeId .true
  cases hedge : layout.findEdge node.nodeId .true with
  | none =>
    rw [hedge, Option.map_none, Option.map_eq_none_iff] at hkey
    rw [hkey]
  | some edge =>
    rw [hedge] at hkey
    obtain ⟨edge', hedge', hsame⟩ := Option.map_eq_some_iff.mp hkey
    have hto : edge'.toNodeId = edge.toNodeId := congrArg EdgeKey.toNodeId hsame
    rw [hedge']
    simp only [hto, h.jump]

theorem Layout.Same.renderLabeled (node : FlowNode) :
    renderLabeled stored node = renderLabeled layout node := by
  unfold ArsFlow.renderLabeled renderInlineNode
  simp only [h.labelOf, continueOrHangup, renderCollectDigits, renderHttpLookup, h.jumpOn,
    h.renderCondition]

theorem Layout.Same.renderDigit {edge edge' : FlowEdge} (hkey : edge'.key = edge.key) :
    renderDigit stored edge' = renderDigit layout edge := by
  have hcondition : edge'.condition = edge.condition := congrArg EdgeKey.condition hkey
  have hdigit : edge'.digit.getD "" = edge.digit.getD "" := congrArg EdgeKey.digit hkey
  have hto : edge'.toNodeId = edge.toNodeId := congrArg EdgeKey.toNodeId hkey
  have hgiven : ∀ digit : Option String,
      given digit = if digit.getD "" = "" then none else some (digit.getD "") := by
    intro digit
    cases digit with
    | none => rfl
    | some text =>
      by_cases htext : text = ""
      · simp [given, htext]
      · simp [given, htext]
  unfold ArsFlow.renderDigit
  rw [hcondition, hgiven, hgiven, hdigit, hto]
  simp only [h.jump]

theorem Layout.Same.digits {edges edges' : List FlowEdge}
    (hkeys : edges'.map FlowEdge.key = edges.map FlowEdge.key) :
    edges'.mapM (ArsFlow.renderDigit stored) = edges.mapM (ArsFlow.renderDigit layout) := by
  induction edges generalizing edges' with
  | nil =>
    rw [List.map_eq_nil_iff.mp hkeys]
    rfl
  | cons edge edges ih =>
    cases edges' with
    | nil => cases hkeys
    | cons edge' edges' =>
      rw [List.map_cons, List.map_cons, List.cons.injEq] at hkeys
      rw [List.mapM_cons, List.mapM_cons, h.renderDigit hkeys.1, ih hkeys.2]

theorem Layout.Same.renderInvalid (node : FlowNode) :
    renderInvalid stored node = renderInvalid layout node := by
  unfold ArsFlow.renderInvalid
  have hkey := h.findEdge node.nodeId .invalid
  cases hedge : layout.findEdge node.nodeId .invalid with
  | none =>
    rw [hedge, Option.map_none, Option.map_eq_none_iff] at hkey
    rw [hkey]
  | some edge =>
    rw [hedge] at hkey
    obtain ⟨edge', hedge', hsame⟩ := Option.map_eq_some_iff.mp hkey
    have hto : edge'.toNodeId = edge.toNodeId := congrArg EdgeKey.toNodeId hsame
    rw [hedge']
    simp only [hto, h.jump]

theorem Layout.Same.renderMenu (node : FlowNode) : renderMenu stored node = renderMenu layout node := by
  unfold ArsFlow.renderMenu renderMenuContext
  simp only [h.menuContextOf, h.digits (h.outgoing node.nodeId), h.jumpOn, h.renderInvalid]

end Same

/-- The compiled text is the same whatever order the nodes and edges are stored in. -/
theorem renderArsFlow_restored {localeCompare : String → String → Int} {input : ArsFlowRenderInput}
    {stored : FlowGraph} (hids : input.graph.DistinctIds) (h : input.graph.Restored stored)
    (hcompare : Collates localeCompare input.graph.collated) :
    renderArsFlow localeCompare { input with graph := stored } =
      renderArsFlow localeCompare input := by
  have hlayout := h.layout hids hcompare
  have hslug : flowSlug stored = flowSlug input.graph := by
    rw [flowSlug, flowSlug, h.name, h.flowId]
  have hmain : mainContext stored = mainContext input.graph := by
    rw [mainContext, mainContext, hslug]
  have hentry : stored.hasNode input.graph.entryNodeId =
      input.graph.hasNode input.graph.entryNodeId := by
    rw [FlowGraph.hasNode, FlowGraph.hasNode, h.nodeById hids]
  have hlabeled := funext hlayout.renderLabeled
  have hmenus := funext hlayout.renderMenu
  unfold renderArsFlow renderContexts checkInput openingLines
  simp only [hslug, hmain, h.name, h.entryNodeId, hentry, h.order hids hcompare, hlayout.jump,
    hlabeled, hmenus]

/-- Two digits of one menu, a question asked twice over edges that agree, and a way back. -/
def exStored : FlowGraph where
  flowId := "f1"
  name := "main"
  entryNodeId := "a"
  nodes := [⟨"a", "main menu", .menu ⟨none, 5, 0⟩⟩, ⟨"b", "sales", .queue "sales"⟩,
    ⟨"c", "notice", .play ["hello"]⟩]
  edges := [⟨"1", "a", "b", .digit, some "1"⟩, ⟨"2", "a", "c", .digit, some "2"⟩,
    ⟨"3", "c", "a", .default, none⟩, ⟨"4", "c", "a", .default, some ""⟩]

def exStoredInput : ArsFlowRenderInput := ⟨exStored, "0215880000", "t1", none⟩

/-- The same rows read back to front. -/
def exRestored : FlowGraph :=
  { exStored with nodes := exStored.nodes.reverse, edges := exStored.edges.reverse }

theorem renderArsFlow_restored_exStored :
    renderArsFlow codePointCompare { exStoredInput with graph := exRestored } =
      renderArsFlow codePointCompare exStoredInput :=
  renderArsFlow_restored (by simp [FlowGraph.DistinctIds, exStoredInput, exStored])
    ⟨rfl, rfl, rfl, List.reverse_perm _, List.reverse_perm _⟩
    ⟨by decide, by decide, by decide⟩

end KasterCti.ArsFlow
