import KasterCti.ArsFlow.GraphChecks
import KasterCti.Library.SimplePaths

/-!
# Lookups on the way of a call

`maxLookupsOnAnyPath` follows every path through the flow that visits no node twice, and gives
up silently after 20,000 of them. A flow with more paths may hide its lookups behind those that
are followed first.

Results:
1. `maxLookups_eq`: the search returns the most lookups on one of the first 20,000 paths.
2. `maxLookups_exact`: while there are no more paths than that, it is the maximum.
3. `lookup_bound_iff`: exactly when the check bounds the lookups of a call.
-/

namespace KasterCti.ArsFlow

/-- A path from the entry that visits every node at most once. -/
structure SimplePath (graph : FlowGraph) (path : List String) : Prop where
  known : graph.hasNode graph.entryNodeId = true
  entry : path.head? = some graph.entryNodeId
  steps : path.IsChain (GoesTo graph)
  once : path.Nodup

def isLookup (graph : FlowGraph) (nodeId : String) : Bool :=
  (graph.nodeById nodeId).any (fun node => node.nodeType = .httpLookup)

def lookupsOn (graph : FlowGraph) (path : List String) : Nat := path.countP (isLookup graph)

/-- The paths of the graph, depth first along the edges in their order. -/
def simplePaths (graph : FlowGraph) : List (List String) :=
  if graph.hasNode graph.entryNodeId then
    SimplePaths.pathsFrom (buildAdjacency graph) (graph.nodes.length + 1) [] graph.entryNodeId
  else []

/-- Without an error about lookups no call makes more than two. -/
def LookupBound (graph : FlowGraph) (context : FlowValidationContext) : Prop :=
  (∀ issue ∈ (validateFlowGraph graph context).errors, issue.code ≠ "TOO_MANY_HTTP_LOOKUPS") →
    ∀ path, SimplePath graph path → lookupsOn graph path ≤ 2

/-- A flow with too many lookups shows them on one of its first 20,000 paths. -/
def SeenInTime (graph : FlowGraph) : Prop :=
  (∃ path, SimplePath graph path ∧ 2 < lookupsOn graph path) →
    ∃ path ∈ (simplePaths graph).take pathWalkLimit, 2 < lookupsOn graph path

section Search
variable {graph : FlowGraph}

theorem mem_simplePaths {path : List String} : path ∈ simplePaths graph ↔ SimplePath graph path := by
  rw [simplePaths]
  split
  · rename_i hentry
    constructor
    · intro hmem
      obtain ⟨hhead, hchain, hnodup, _⟩ := SimplePaths.mem_pathsFrom hmem
      rw [buildAdjacency_rel] at hchain
      exact ⟨hentry, hhead, hchain, hnodup⟩
    · intro hpath
      have hinside : ∀ nodeId ∈ path, nodeId ∈ graph.nodes.map FlowNode.nodeId :=
        SimplePaths.chain_stays leads_inside (FlowGraph.hasNode_iff.mp hentry) hpath.entry
          (by rw [buildAdjacency_rel]; exact hpath.steps)
      have hlen := (List.subperm_of_subset hpath.once hinside).length_le
      refine SimplePaths.pathsFrom_complete hpath.entry ?_ hpath.once (by simp)
        (by simpa using Nat.le_succ_of_le hlen)
      rw [buildAdjacency_rel]
      exact hpath.steps
  · rename_i hentry
    constructor
    · exact fun hmem => nomatch hmem
    · exact fun hpath => absurd hpath.known hentry

theorem walkLookups_eq (fuel : Nat) (onPath : List String) (nodeId : String) (steps : Nat) :
    walkLookups graph fuel onPath nodeId steps =
      SimplePaths.search (buildAdjacency graph) (fun nodeId => if isLookup graph nodeId then 1 else 0)
        pathWalkLimit fuel onPath nodeId steps := by
  induction fuel generalizing onPath nodeId steps with
  | zero => rfl
  | succ fuel ih =>
    rw [walkLookups, SimplePaths.search]
    simp only [ih, buildAdjacency, List.foldl_map]
    rfl

theorem weightOf_eq (path : List String) :
    SimplePaths.weightOf (fun nodeId => if isLookup graph nodeId then 1 else 0) path =
      lookupsOn graph path := by
  induction path with
  | nil => rfl
  | cons nodeId path ih =>
    rw [lookupsOn, List.countP_cons, Nat.add_comm, SimplePaths.weightOf, List.map_cons,
      List.sum_cons]
    exact congrArg _ ih

/-- The most lookups on one of the paths that the search gets to. -/
theorem maxLookups_eq :
    maxLookupsOnAnyPath graph = SimplePaths.heaviest
      (fun nodeId => if isLookup graph nodeId then 1 else 0) 0
      ((simplePaths graph).take pathWalkLimit) := by
  rw [maxLookupsOnAnyPath, simplePaths]
  split
  · rw [walkLookups_eq]
    exact (SimplePaths.search_eq _ _ _ _).1
  · rfl

theorem lt_maxLookups_iff {c : Nat} :
    c < maxLookupsOnAnyPath graph ↔
      ∃ path ∈ (simplePaths graph).take pathWalkLimit, c < lookupsOn graph path := by
  rw [maxLookups_eq, SimplePaths.lt_heaviest_iff]
  simp only [weightOf_eq, Nat.not_lt_zero, false_or]

theorem lookupNodes_ne_nil {path : List String} (h : 0 < lookupsOn graph path) :
    lookupNodes graph ≠ [] := by
  obtain ⟨nodeId, _, hlookup⟩ := List.countP_pos_iff.mp h
  rw [isLookup, Option.any_eq_true] at hlookup
  obtain ⟨node, hnode, htype⟩ := hlookup
  exact List.ne_nil_of_mem (List.mem_filter.mpr ⟨FlowGraph.nodeById_mem hnode, htype⟩)

/-- The error is there exactly if a path that the search gets to has too many lookups. -/
theorem too_many_iff (context : FlowValidationContext) :
    (∃ issue ∈ (validateFlowGraph graph context).errors, issue.code = "TOO_MANY_HTTP_LOOKUPS") ↔
      ∃ path ∈ (simplePaths graph).take pathWalkLimit, 2 < lookupsOn graph path := by
  constructor
  · rintro ⟨issue, hissue, hcode⟩
    have hmem := (mem_errors hissue).2.2 hcode
    rw [checkHttpLookupErrors] at hmem
    split at hmem
    · cases hmem
    · rcases List.mem_append.mp hmem with hmem | hmem
      · obtain ⟨node, _, hmem⟩ := List.mem_flatMap.mp hmem
        split at hmem
        · rcases code_lookupErrors hmem with hother | hother <;> rw [hother] at hcode <;>
            exact absurd hcode (by decide)
        · cases hmem
      · split at hmem
        · rename_i hmany
          exact lt_maxLookups_iff.mp hmany
        · cases hmem
  · intro hseen
    have hmany : maxLookupsOnAnyPath graph > maxHttpLookupsPerPath := lt_maxLookups_iff.mpr hseen
    obtain ⟨path, _, hpath⟩ := hseen
    have herrors : checkHttpLookupErrors graph context ⊆
        (validateFlowGraph graph context).errors := List.subset_append_right _ _
    rw [checkHttpLookupErrors, if_neg (lookupNodes_ne_nil (Nat.zero_lt_of_lt hpath)),
      if_pos hmany] at herrors
    exact ⟨_, herrors (List.mem_append_right _ (List.mem_singleton_self _)), rfl⟩

theorem lookup_bound_iff (graph : FlowGraph) (context : FlowValidationContext) :
    LookupBound graph context ↔ SeenInTime graph := by
  have herror := @too_many_iff graph context
  constructor
  · rintro hbound ⟨path, hpath, hmany⟩
    by_contra hunseen
    have hnone := mt herror.mp hunseen
    refine absurd hmany (Nat.not_lt.mpr (hbound ?_ path hpath))
    exact fun issue hissue hcode => hnone ⟨issue, hissue, hcode⟩
  · intro hseen hnone path hpath
    by_contra hmany
    obtain ⟨issue, hissue, hcode⟩ := herror.mpr (hseen ⟨path, hpath, Nat.lt_of_not_le hmany⟩)
    exact hnone issue hissue hcode

/-- The count is that of a path, and with no more paths than steps no path has more. -/
theorem maxLookups_exact (graph : FlowGraph) :
    (∀ c, c < maxLookupsOnAnyPath graph → ∃ path, SimplePath graph path ∧ c < lookupsOn graph path) ∧
      ((simplePaths graph).length ≤ pathWalkLimit →
        ∀ path, SimplePath graph path → lookupsOn graph path ≤ maxLookupsOnAnyPath graph) := by
  refine ⟨fun c hc => ?_, fun hfew path hpath => ?_⟩
  · obtain ⟨path, hpath, hmany⟩ := lt_maxLookups_iff.mp hc
    exact ⟨path, mem_simplePaths.mp (List.mem_of_mem_take hpath), hmany⟩
  · refine Nat.le_of_not_lt fun hless => ?_
    have hseen := mem_simplePaths.mpr hpath
    rw [← List.take_of_length_le hfew] at hseen
    exact Nat.lt_irrefl _ (lt_maxLookups_iff.mpr ⟨path, hseen, hless⟩)

end Search

/-! ## Lookups behind a keypad -/

/-- Four keys of a menu that lead to the same place. -/
def fourKeys (fromNodeId toNodeId : String) : List FlowEdge :=
  ["1", "2", "3", "4"].map (fun key =>
    ⟨fromNodeId ++ "-" ++ key, fromNodeId, toNodeId, .digit, some key⟩)

/-- Seven questions with four answers each, and a fifth key that leads to three lookups. -/
def surveyGraph : FlowGraph where
  flowId := "survey"
  name := "survey"
  entryNodeId := "m0"
  nodes := ["m0", "m1", "m2", "m3", "m4", "m5", "m6", "m7"].map (fun nodeId =>
      ⟨nodeId, "question", .menu ⟨none, 5, 0⟩⟩) ++
    ["l1", "l2", "l3"].map (fun nodeId => ⟨nodeId, "lookup", .httpLookup "crm" none⟩) ++
    [⟨"bye", "bye", .hangup none⟩]
  edges := [("m0", "m1"), ("m1", "m2"), ("m2", "m3"), ("m3", "m4"), ("m4", "m5"), ("m5", "m6"),
      ("m6", "m7")].flatMap (fun ends => fourKeys ends.1 ends.2) ++
    [⟨"m0-5", "m0", "l1", .digit, some "5"⟩] ++
    [("l1", "l2"), ("l2", "l3"), ("l3", "bye")].flatMap (fun ends =>
      [⟨ends.1 ++ "-t", ends.1, ends.2, .true, none⟩, ⟨ends.1 ++ "-f", ends.1, ends.2, .false, none⟩])

def surveyContext : FlowValidationContext := ⟨[], [], [], [⟨"crm", 2000⟩]⟩

def surveyMenus : List String := ["m1", "m2", "m3", "m4", "m5", "m6", "m7"]

theorem surveyMenus_closed :
    ∀ x ∈ surveyMenus, ∀ y ∈ buildAdjacency surveyGraph x, y ∈ surveyMenus := by
  decide

theorem surveyMenus_plain : ∀ x ∈ "m0" :: surveyMenus, isLookup surveyGraph x = false := by
  decide

/-- The answers to the questions alone make 5461 paths behind each of the four first keys. -/
theorem length_surveyPaths :
    (SimplePaths.pathsFrom (buildAdjacency surveyGraph) 12 ["m0"] "m1").length = 5461 := by
  have hnext : ∀ ends ∈ [("m1", "m2"), ("m2", "m3"), ("m3", "m4"), ("m4", "m5"), ("m5", "m6"),
      ("m6", "m7")], buildAdjacency surveyGraph ends.1 = List.replicate 4 ends.2 := by
    decide
  have hlast : buildAdjacency surveyGraph "m7" = List.replicate 0 "m7" := by decide
  simp only [List.forall_mem_cons] at hnext
  obtain ⟨h1, h2, h3, h4, h5, h6, _⟩ := hnext
  rw [SimplePaths.length_pathsFrom (show "m1" ∉ ["m0"] by decide) h1,
    SimplePaths.length_pathsFrom (show "m2" ∉ ["m1", "m0"] by decide) h2,
    SimplePaths.length_pathsFrom (show "m3" ∉ ["m2", "m1", "m0"] by decide) h3,
    SimplePaths.length_pathsFrom (show "m4" ∉ ["m3", "m2", "m1", "m0"] by decide) h4,
    SimplePaths.length_pathsFrom (show "m5" ∉ ["m4", "m3", "m2", "m1", "m0"] by decide) h5,
    SimplePaths.length_pathsFrom (show "m6" ∉ ["m5", "m4", "m3", "m2", "m1", "m0"] by decide) h6,
    SimplePaths.length_pathsFrom
      (show "m7" ∉ ["m6", "m5", "m4", "m3", "m2", "m1", "m0"] by decide) hlast, Nat.zero_mul]

theorem lookupsOn_surveyPaths {path : List String}
    (h : path ∈ SimplePaths.pathsFrom (buildAdjacency surveyGraph) 12 ["m0"] "m1") :
    lookupsOn surveyGraph ("m0" :: path) = 0 := by
  obtain ⟨hhead, hchain, _, _⟩ := SimplePaths.mem_pathsFrom h
  have hstays := SimplePaths.chain_stays surveyMenus_closed (by decide) hhead hchain
  refine List.countP_eq_zero.mpr (fun x hx => ?_)
  have hmenu : x ∈ "m0" :: surveyMenus := by
    rcases List.mem_cons.mp hx with rfl | hx
    · exact List.mem_cons_self
    · exact List.mem_cons_of_mem _ (hstays x hx)
  simp [surveyMenus_plain x hmenu]

/-- The search spends its 20,000 steps on the questions. -/
theorem surveyPaths_seen : ∀ path ∈ (simplePaths surveyGraph).take pathWalkLimit,
    ¬ 2 < lookupsOn surveyGraph path := by
  have hentry : surveyGraph.hasNode "m0" = true := by decide
  have hfirst : buildAdjacency surveyGraph "m0" = List.replicate 4 "m1" ++ ["l1"] := by
    decide
  have hfuel : surveyGraph.nodes.length + 1 = 12 + 1 := by decide
  have hlen : ((List.replicate 4 "m1").flatMap
      (SimplePaths.pathsFrom (buildAdjacency surveyGraph) 12 ["m0"])).length = 21844 := by
    rw [List.length_flatMap, List.map_replicate, length_surveyPaths]
    rfl
  have hname : surveyGraph.entryNodeId = "m0" := rfl
  rw [simplePaths, hname, if_pos hentry, hfuel, SimplePaths.pathsFrom,
    if_neg List.not_mem_nil, hfirst, List.flatMap_append, List.map_append, ← List.cons_append]
  intro path hpath
  rw [List.take_append_of_le_length (by
    rw [List.length_cons, List.length_map, hlen]
    decide)] at hpath
  rcases List.mem_cons.mp (List.mem_of_mem_take hpath) with rfl | hpath
  · decide
  · obtain ⟨rest, hrest, rfl⟩ := List.mem_map.mp hpath
    obtain ⟨next, hnext, hrest⟩ := List.mem_flatMap.mp hrest
    obtain rfl := List.eq_of_mem_replicate hnext
    have hnone := lookupsOn_surveyPaths hrest
    exact hnone ▸ Nat.not_lt_zero 2

theorem lookups_unseen : ¬ LookupBound surveyGraph surveyContext := by
  intro hbound
  have hnone : ∀ issue ∈ (validateFlowGraph surveyGraph surveyContext).errors,
      issue.code ≠ "TOO_MANY_HTTP_LOOKUPS" := by
    intro issue hissue hcode
    obtain ⟨path, hpath, hmany⟩ := (too_many_iff surveyContext).mp ⟨issue, hissue, hcode⟩
    exact surveyPaths_seen path hpath hmany
  have hedges : ∀ ends ∈ [("m0", "l1"), ("l1", "l2"), ("l2", "l3")],
      ends.2 ∈ buildAdjacency surveyGraph ends.1 := by decide
  have hpath : SimplePath surveyGraph ["m0", "l1", "l2", "l3"] := by
    refine ⟨by decide, rfl, ?_, by decide⟩
    simp only [List.isChain_cons_cons, List.isChain_singleton, and_true, ← mem_buildAdjacency]
    exact ⟨hedges ("m0", "l1") (by simp), hedges ("l1", "l2") (by simp),
      hedges ("l2", "l3") (by simp)⟩
  have hlookups : lookupsOn surveyGraph ["m0", "l1", "l2", "l3"] = 3 := by decide
  have hle := hbound hnone _ hpath
  rw [hlookups] at hle
  exact absurd hle (by decide)

end KasterCti.ArsFlow
