import KasterCti.ArsFlow.Places
import KasterCti.Renderers.Conditions

/-!
# What a call shows of the flow

A run of the compiled flow is a run of priorities. What it means for the graph can be read
off the call: the nodes whose first priority it has run, the request for digits that it
made last, the digits that it has, and what the caller has left to do. Most priorities of
the code change none of it.
-/

namespace KasterCti.ArsFlow

open Dialplan Machine

/-! ## The meaning as compiled -/

/-- The flow as the compiler takes it: a time window without an edge for the open case is
not asked for, and the call goes on as if it were closed. -/
def compiledStep (layout : Layout) (s : FlowState) : FlowState ⊕ FlowResult :=
  match s.node.config, layout.findEdge s.node.nodeId .true with
  | .condition _, none => { s with visited := s.node.nodeId :: s.visited }.take layout .false
  | _, _ => flowStep layout s

/-- The variables that the lookup script leaves in the channel. -/
def LookupResult.vars (result : LookupResult) : List (Text × Text) :=
  [(lookupStatusVar.toList, result.status.text), (lookupValueVar.toList, result.value)]

/-- The behaviour as the channel sees it. -/
def Behaviour.caller (behaviour : Behaviour) : Caller where
  extens := behaviour.extens
  reads := behaviour.reads
  agis := behaviour.lookups.map LookupResult.vars
  windows := behaviour.windows

/-- Where a call goes that leaves the flow. -/
def Ending.outcome : Ending → Outcome
  | .queue queueName => .left "queue-entry".toList queueName.toList "1".toList
  | .transfer transferNumber => .left "transfer-target".toList transferNumber.toList "1".toList
  | .hangup => .hungUp
  | .gone => .gone

/-! ## Reading the trace -/

/-- The place is the first one of the node: a menu starts in a context of its own, another
node at its label. -/
def startsAt (layout : Layout) (v : Visited) (node : FlowNode) : Bool :=
  if node.isMenu then v.pos = ⟨(layout.menuContextOf node.nodeId).toList, "s".toList, 1⟩
  else node.isInline && v.label = some (layout.labelOf node.nodeId).toList

/-- The nodes that a trace comes by. -/
def visitedNodes (layout : Layout) (order : List FlowNode) (trace : List Visited) : List String :=
  trace.filterMap (fun v => (order.find? (startsAt layout v)).map FlowNode.nodeId)

/-- The place is where the node asks for digits. -/
def readsAt (layout : Layout) (v : Visited) (node : FlowNode) : Option CollectDigitsConfig :=
  match node.config with
  | .collectDigits config =>
    if v.label = some (layout.labelOf node.nodeId ++ "-read").toList then some config else none
  | _ => none

/-- The node that asked for digits last. -/
def lastCollect (layout : Layout) (order : List FlowNode) (trace : List Visited) :
    Option CollectDigitsConfig :=
  trace.findSome? (fun v => order.findSome? (readsAt layout v))

/-- What a call shows. -/
structure View where
  caller : Caller
  visited : List String
  collect : Option CollectDigitsConfig
  digits : Option Text

def viewOf (layout : Layout) (order : List FlowNode) (s : State) : View where
  caller := s.caller
  visited := visitedNodes layout order s.trace
  collect := lastCollect layout order s.trace
  digits := s.vars.lookup collectedDigitsVar.toList

/-- The digits are there: as many as the node wants that asked for them last. -/
def View.Collected (view : View) : Prop :=
  ∃ config digits, view.collect = some config ∧ view.digits = some digits ∧
    digits.all isDigit = true ∧ config.minDigits ≤ digits.length

/-- A priority at which the collected digits are taken for a number. -/
def takesDigits (code : Step) : Bool :=
  code = plainStep "System" (buildSmartArsHookCommand "sms" (targetNumberExpression .collected)) ||
    code = plainStep "Set" ("__OPT_OUT_TARGET_PHONE=" ++ targetNumberExpression .collected)

/-! ## Priorities that show nothing -/

section Views
variable {layout : Layout} {order : List FlowNode} {s : State}

theorem viewOf_setVar {name value : Text} (hname : varName name ≠ collectedDigitsVar.toList) :
    viewOf layout order (s.setVar name value) = viewOf layout order s := by
  have hdigits : (s.setVar name value).vars.lookup collectedDigitsVar.toList =
      s.vars.lookup collectedDigitsVar.toList := by
    rw [State.setVar, List.lookup_cons, beq_false_of_ne (Ne.symm hname)]
  rw [viewOf, hdigits]
  rfl

/-- A search finds what only one member has. -/
theorem find?_unique {α : Type} {p : α → Bool} {l : List α} {x : α} (hx : x ∈ l) (hp : p x = true)
    (honly : ∀ y ∈ l, p y = true → y = x) : l.find? p = some x := by
  cases hfind : l.find? p with
  | none => exact absurd hp (List.find?_eq_none.mp hfind x hx)
  | some y => rw [honly y (List.mem_of_find?_eq_some hfind) (List.find?_some hfind)]

theorem findSome?_unique {α β : Type} {f : α → Option β} {l : List α} {x : α} {b : β} (hx : x ∈ l)
    (hf : f x = some b) (honly : ∀ y ∈ l, (f y).isSome → y = x) : l.findSome? f = some b := by
  cases hfind : l.findSome? f with
  | none => exact absurd (hf.symm.trans (List.findSome?_eq_none_iff.mp hfind x hx)) (by simp)
  | some c =>
    obtain ⟨y, hy, hc⟩ := List.exists_of_findSome?_eq_some hfind
    rw [honly y hy (by rw [hc]; rfl), hf] at hc
    exact hc.symm

theorem label_of_readsAt {v : Visited} {node : FlowNode} (h : (readsAt layout v node).isSome) :
    v.label = some (layout.labelOf node.nodeId ++ "-read").toList := by
  unfold readsAt at h
  split at h
  · by_contra hne
    rw [if_neg hne] at h
    cases h
  · cases h

/-- Variables in front that are not the digits, and another caller. -/
theorem viewOf_front {front : List (Text × Text)} (h : front.lookup collectedDigitsVar.toList = none)
    (caller : Caller) (pos : Pos) :
    viewOf layout order { s with pos := pos, vars := front ++ s.vars, caller := caller } =
      { viewOf layout order s with caller := caller } := by
  simp only [viewOf, List.lookup_append, h, Option.none_or]

/-- The place is neither the first one of a node nor one where a node asks for digits. -/
structure Unmarked (layout : Layout) (order : List FlowNode) (v : Visited) : Prop where
  start : order.find? (startsAt layout v) = none
  read : order.findSome? (readsAt layout v) = none

theorem viewOf_visit {label : Option Text} (h : Unmarked layout order ⟨s.pos, label⟩) :
    viewOf layout order (s.visit label) = viewOf layout order s := by
  simp only [viewOf, State.visit, visitedNodes, lastCollect, List.filterMap_cons, h.start,
    Option.map_none, List.findSome?_cons, h.read]

/-- The place is not the first one of a menu. -/
def OffMenus (layout : Layout) (order : List FlowNode) (pos : Pos) : Prop :=
  ∀ node ∈ order, pos ≠ ⟨(layout.menuContextOf node.nodeId).toList, "s".toList, 1⟩

variable {pos : Pos}

theorem offMenus_main (h : pos.context = layout.mainContext.toList) :
    OffMenus layout order pos := by
  rintro node - rfl
  exact menuContextOf_ne_main layout node.nodeId h

theorem offMenus_exten (h : pos.exten ≠ "s".toList) : OffMenus layout order pos := by
  rintro node - rfl
  exact h rfl

theorem offMenus_priority (h : pos.priority ≠ 1) : OffMenus layout order pos := by
  rintro node - rfl
  exact h rfl

theorem unmarked_of_label {v : Visited} (hpos : OffMenus layout order v.pos)
    (hlabel : ∀ node ∈ order, v.label ≠ some (layout.labelOf node.nodeId).toList ∧
      v.label ≠ some (layout.labelOf node.nodeId ++ "-read").toList) : Unmarked layout order v := by
  constructor
  · rw [List.find?_eq_none]
    intro node hnode
    rw [startsAt]
    split
    · simpa using hpos node hnode
    · simp [(hlabel node hnode).1]
  · rw [List.findSome?_eq_none_iff]
    intro node hnode
    unfold readsAt
    split
    · rw [if_neg (hlabel node hnode).2]
    · rfl

theorem unmarked_none (hpos : OffMenus layout order pos) : Unmarked layout order ⟨pos, none⟩ :=
  unmarked_of_label hpos (fun _ _ => ⟨by simp, by simp⟩)

variable (hflow : CleanFlow layout order) {node : FlowNode} (hnode : node ∈ order)
include hflow

/-- `prompt` is not the label of a node. -/
theorem CleanFlow.unmarked_prompt (hpos : OffMenus layout order pos) :
    Unmarked layout order ⟨pos, some "prompt".toList⟩ := by
  refine unmarked_of_label hpos ?_
  intro node hnode
  obtain ⟨i, hi⟩ := List.getElem?_of_mem hnode
  have hhead : ∀ rest, "prompt".toList ≠ (layout.labelOf node.nodeId).toList ++ rest := by
    intro rest hsame
    rw [hflow.labels i node hi, nodeLabel] at hsame
    simp only [String.toList_append, List.append_assoc] at hsame
    exact absurd (congrArg List.head? hsame)
      (show some 'p' ≠ some 'n' by decide)
  constructor
  · simpa using hhead []
  · simpa using hhead "-read".toList

include hnode

/-- A label of the code of a node with an end of its own. -/
theorem CleanFlow.unmarked_suffix (hpos : OffMenus layout order pos) {tail : String}
    (hne : tail.toList ≠ []) (hread : tail.toList ≠ "-read".toList) :
    Unmarked layout order ⟨pos, some (layout.labelOf node.nodeId ++ tail).toList⟩ := by
  refine unmarked_of_label hpos ?_
  intro other hother
  have hprefix : (layout.labelOf node.nodeId).toList <+: (layout.labelOf node.nodeId ++ tail).toList := by
    rw [String.toList_append]
    exact List.prefix_append _ _
  constructor
  · intro hsame
    have hsame := Option.some.inj hsame
    obtain rfl := hflow.labels_apart hother hnode (hsame ▸ List.prefix_rfl) hprefix
    rw [String.toList_append] at hsame
    exact hne (List.append_right_eq_self.mp hsame)
  · intro hsame
    have hsame := Option.some.inj hsame
    have hother' : (layout.labelOf other.nodeId).toList <+:
        (layout.labelOf node.nodeId ++ tail).toList := by
      rw [hsame, String.toList_append]
      exact List.prefix_append _ _
    obtain rfl := hflow.labels_apart hother hnode hother' hprefix
    rw [String.toList_append, String.toList_append] at hsame
    exact hread (List.append_cancel_left hsame)

/-- The request for digits of a node is its own. -/
theorem CleanFlow.viewOf_read (hpos : OffMenus layout order s.pos) {config : CollectDigitsConfig}
    (hconfig : node.config = .collectDigits config) :
    viewOf layout order (s.visit (some (layout.labelOf node.nodeId ++ "-read").toList)) =
      { viewOf layout order s with collect := some config } := by
  have hprefix : (layout.labelOf node.nodeId).toList <+:
      (layout.labelOf node.nodeId ++ "-read").toList := by
    rw [String.toList_append]
    exact List.prefix_append _ _
  have hstart : order.find? (startsAt layout ⟨s.pos,
      some (layout.labelOf node.nodeId ++ "-read").toList⟩) = none := by
    rw [List.find?_eq_none]
    intro other hother hstarts
    rw [startsAt] at hstarts
    split at hstarts
    · exact hpos other hother (by simpa using hstarts)
    · have hsame : (layout.labelOf node.nodeId ++ "-read").toList =
          (layout.labelOf other.nodeId).toList := by
        simp only [Bool.and_eq_true, decide_eq_true_eq, Option.some.injEq] at hstarts
        exact hstarts.2
      obtain rfl := hflow.labels_apart hother hnode (hsame ▸ List.prefix_rfl) hprefix
      rw [String.toList_append] at hsame
      exact absurd (List.append_right_eq_self.mp hsame) (by decide)
  have hread : order.findSome? (readsAt layout ⟨s.pos,
      some (layout.labelOf node.nodeId ++ "-read").toList⟩) = some config := by
    refine findSome?_unique hnode (by simp [readsAt, hconfig]) ?_
    intro other hother hreads
    refine hflow.labels_apart (t := (layout.labelOf node.nodeId ++ "-read").toList) hother hnode
      ?_ hprefix
    rw [Option.some.inj (label_of_readsAt hreads), String.toList_append]
    exact List.prefix_append _ _
  simp only [viewOf, State.visit, visitedNodes, lastCollect, List.filterMap_cons, hstart,
    Option.map_none, List.findSome?_cons, hread]

/-- Nobody asks for digits at the first place of a node. -/
theorem CleanFlow.readsAt_start :
    order.findSome? (readsAt layout ⟨pos, some (layout.labelOf node.nodeId).toList⟩) = none := by
  rw [List.findSome?_eq_none_iff]
  intro other hother
  cases hreads : readsAt layout ⟨pos, some (layout.labelOf node.nodeId).toList⟩ other with
  | none => rfl
  | some config =>
    have hlabel := Option.some.inj (label_of_readsAt (by rw [hreads]; rfl))
    have hprefix : (layout.labelOf other.nodeId).toList <+: (layout.labelOf node.nodeId).toList := by
      rw [hlabel, String.toList_append]
      exact List.prefix_append _ _
    obtain rfl := hflow.labels_apart hother hnode hprefix List.prefix_rfl
    rw [String.toList_append] at hlabel
    exact absurd (List.append_right_eq_self.mp hlabel.symm) (by decide)

/-- At its label a node is visited. -/
theorem CleanFlow.viewOf_label (hinline : node.isInline = true) (hpos : OffMenus layout order s.pos) :
    viewOf layout order (s.visit (some (layout.labelOf node.nodeId).toList)) =
      { viewOf layout order s with visited := node.nodeId :: (viewOf layout order s).visited } := by
  have hmenu : node.isMenu = false := by
    cases hconfig : node.config <;>
      simp [FlowNode.isInline, FlowNode.isMenu, FlowNode.nodeType, NodeConfig.nodeType, hconfig] at hinline ⊢
  have hstart : order.find? (startsAt layout ⟨s.pos,
      some (layout.labelOf node.nodeId).toList⟩) = some node := by
    refine find?_unique hnode (by simp [startsAt, hmenu, hinline]) ?_
    intro other hother hstarts
    rw [startsAt] at hstarts
    split at hstarts
    · exact absurd (by simpa using hstarts) (hpos other hother)
    · simp only [Bool.and_eq_true, decide_eq_true_eq, Option.some.injEq] at hstarts
      exact hflow.labels_apart hother hnode (hstarts.2 ▸ List.prefix_rfl) List.prefix_rfl
  simp only [viewOf, State.visit, visitedNodes, lastCollect, List.filterMap_cons, hstart,
    Option.map_some, List.findSome?_cons, hflow.readsAt_start hnode]

/-- At the first place of its context a menu is visited. -/
theorem CleanFlow.viewOf_menu (hmenu : node.isMenu = true)
    (hpos : s.pos = ⟨(layout.menuContextOf node.nodeId).toList, "s".toList, 1⟩) :
    viewOf layout order (s.visit none) =
      { viewOf layout order s with visited := node.nodeId :: (viewOf layout order s).visited } := by
  have hstart : order.find? (startsAt layout ⟨s.pos, none⟩) = some node := by
    refine find?_unique hnode (by simp [startsAt, hmenu, hpos]) ?_
    intro other hother hstarts
    rw [startsAt] at hstarts
    split at hstarts
    · simp only [hpos, decide_eq_true_eq, Pos.mk.injEq, and_true] at hstarts
      refine hflow.labels_apart (t := (layout.labelOf node.nodeId).toList) hother hnode ?_
        List.prefix_rfl
      simp only [Layout.menuContextOf, String.toList_append, List.append_assoc,
        List.append_cancel_left_eq] at hstarts
      exact hstarts ▸ List.prefix_rfl
    · simp at hstarts
  have hread : order.findSome? (readsAt layout ⟨s.pos, none⟩) = none := by
    rw [List.findSome?_eq_none_iff]
    intro other _
    unfold readsAt
    split <;> simp
  simp only [viewOf, State.visit, visitedNodes, lastCollect, List.filterMap_cons, hstart,
    Option.map_some, List.findSome?_cons, hread]

end Views

end KasterCti.ArsFlow
