import KasterCti.ArsFlow.Simulation

/-!
# Time windows and requests for digits

The two inline nodes whose code branches on what is outside of the flow: a time window that
is open or not, and keys that are enough digits or not. A window jumps along its edge at
once where that fits behind it, and to a label of its own where it does not. A request for
digits counts its tries in a variable of the channel.
-/

namespace KasterCti.ArsFlow

open Dialplan Machine Renderers

/-! ## Time windows -/

theorem isDigit_head_clockTime (time : ClockTime) :
    ∃ c rest, time.text.toList = c :: rest ∧ c ≠ '*' := by
  obtain ⟨text, valid⟩ := time
  unfold matchesTimePattern at valid
  split at valid
  · rename_i a b x d heq
    refine ⟨a, _, heq, ?_⟩
    rintro rfl
    simp [isDigitBetween] at valid
  · cases valid

/-- The window of all times is the holiday condition. -/
theorem buildTimeSpec_always (config : ConditionConfig) :
    (buildTimeSpec config).toList = "*,*,*,*".toList ↔ config = .holiday := by
  cases config with
  | holiday => simp [buildTimeSpec]
  | timeRange timeStart timeEnd daysOfWeek =>
    obtain ⟨c, rest, htext, hstar⟩ := isDigit_head_clockTime timeStart
    simp [buildTimeSpec, htext, hstar]

theorem notMem_buildTimeSpec (config : ConditionConfig) {c : Char} (hc : isSpecChar c = false) :
    c ∉ (buildTimeSpec config).toList :=
  notMem_of_all (all_isSpecChar_buildTimeSpec config) hc

/-- Behind a window a jump stands without its application. -/
theorem stripGoto_goto {dest : String} (h : dotted dest = true) :
    stripGoto (bodyLine (plainStep "Goto" dest)) = dest := by
  have hline : (bodyLine (plainStep "Goto" dest)).toList =
      "Goto(".toList ++ (dest.toList ++ [')']) := by
    simp [bodyLine, plainStep, appText]
  have hprefix : JsText.afterPrefix? "Goto(".toList (bodyLine (plainStep "Goto" dest)).toList =
      some (dest.toList ++ [')']) := JsText.afterPrefix?_eq_some.mpr hline
  rw [stripGoto, hprefix]
  simp [show dest.toList.all isDot = true from h]

theorem stripGoto_hangup : stripGoto (bodyLine hangupCode) = "Hangup()" := by
  decide

/-- Where an open window leads fits behind it. -/
theorem CleanFlow.fits_dest {layout : Layout} {order : List FlowNode} (hflow : CleanFlow layout order)
    {node target : FlowNode} (hfits : node.fitsWindow target = true) {dest : String}
    (hjump : jumpCode layout target = [plainStep "Goto" dest]) :
    ':' ∉ dest.toList ∧ dotted dest = true := by
  have hdest : ∀ text, jumpCode layout target = [plainStep "Goto" text] →
      dest.toList = text.toList := by
    intro text htext
    exact congrArg Step.args (List.singleton_inj.mp (hjump.symm.trans htext))
  suffices h : ∀ c ∈ dest.toList, c ≠ ':' ∧ isDot c = true from
    ⟨fun hc => (h _ hc).1 rfl, List.all_eq_true.mpr (fun c hc => (h c hc).2)⟩
  have hname : ∀ {s : String}, s.toList.all isLabelChar = true →
      ∀ c ∈ s.toList, c ≠ ':' ∧ isDot c = true := by
    intro s hs c hc
    have hchar := List.all_eq_true.mp hs c hc
    refine ⟨?_, isDot_of_class (by decide) hchar⟩
    rintro rfl
    exact absurd hchar (by decide)
  have hfit : ∀ {s : String}, (s.toList.all (· ≠ ':') && dotted s) = true →
      ∀ c ∈ s.toList, c ≠ ':' ∧ isDot c = true := by
    intro s hs c hc
    rw [Bool.and_eq_true] at hs
    exact ⟨of_decide_eq_true (List.all_eq_true.mp hs.1 c hc), List.all_eq_true.mp hs.2 c hc⟩
  have hjoin : ∀ {front name back : String}, (∀ c ∈ front.toList, c ≠ ':' ∧ isDot c = true) →
      (∀ c ∈ name.toList, c ≠ ':' ∧ isDot c = true) →
      (∀ c ∈ back.toList, c ≠ ':' ∧ isDot c = true) →
      ∀ c ∈ (front ++ name ++ back).toList, c ≠ ':' ∧ isDot c = true := by
    intro front name back hfront hname hback
    rw [String.toList_append, String.toList_append]
    exact List.forall_mem_append.mpr ⟨List.forall_mem_append.mpr ⟨hfront, hname⟩, hback⟩
  have hmain := hname hflow.named.main
  have hlabel := hname (hflow.named.labelOf target.nodeId)
  cases hconfig : target.config <;> simp only [FlowNode.fitsWindow, hconfig] at hfits
  case queue queueName =>
    rw [hdest ("queue-entry," ++ queueName ++ ",1") (by rw [jumpCode, hconfig])]
    exact hjoin (by decide) (hfit hfits) (by decide)
  case transfer transferNumber =>
    rw [hdest ("transfer-target," ++ transferNumber ++ ",1") (by rw [jumpCode, hconfig])]
    exact hjoin (by decide) (hfit hfits) (by decide)
  case hangup promptKey =>
    exact absurd hjump (jumpCode_hangup_ne hconfig)
  case menu config =>
    have hmenu := hname (hflow.named.menuContextOf target.nodeId)
    rw [hdest (layout.menuContextOf target.nodeId ++ ",s,1") (by rw [jumpCode, hconfig]),
      String.toList_append]
    exact List.forall_mem_append.mpr ⟨hmenu, by decide⟩
  all_goals
    rw [hdest (layout.mainContext ++ ",s," ++ layout.labelOf target.nodeId)
      (by rw [jumpCode, hconfig])]
    exact hjoin hmain (by decide) hlabel

/-- A hang-up of one priority. -/
theorem hangup_alone {layout : Layout} {target : FlowNode} {promptKey : Option String}
    (hconfig : target.config = .hangup promptKey) {c : Step} (hone : jumpCode layout target = [c]) :
    c = hangupCode := by
  rw [jumpCode, hconfig] at hone
  have hlast : hangupCode ∈ [c] := by
    rw [← hone]
    exact List.mem_append_right _ (List.mem_singleton_self _)
  exact (List.mem_singleton.mp hlast).symm

/-- What a jump of the dialplan comes to: what the graph comes to, at once or later. -/
def Arrives (dialplan : List Entry) (world : Nat → Text → Text) (layout : Layout)
    (order : List FlowNode) (zone : String → Prop) (x : FlowState ⊕ FlowResult)
    (o : State ⊕ Result) : Prop :=
  Sum.LiftRel (Follows dialplan layout order zone) (SameEnd layout order) x o ∨
    ∃ b, o = .inl b ∧ Onward dialplan world layout order zone x b

section Arrives
variable {dialplan : List Entry} {world : Nat → Text → Text} {layout : Layout}
  {order : List FlowNode} {zone : String → Prop} {x : FlowState ⊕ FlowResult} {b : State}

theorem Arrives.onward {o : State ⊕ Result} (h : Arrives dialplan world layout order zone x o)
    (hsafe : Safe dialplan layout order zone b) (hstep : step dialplan world b = o) :
    Onward dialplan world layout order zone x b := by
  rcases h with h | ⟨b', rfl, h⟩
  · exact ⟨o, .one hsafe hstep, h⟩
  · exact .of_step hsafe hstep h

/-- The window is asked for as on the graph. -/
theorem onward_window {a : FlowState} {config : ConditionConfig} {dest : String}
    (hat : stepAt dialplan b.pos =
      some (plainStep "GotoIfTime" (buildTimeSpec config ++ "?" ++ dest)))
    (hdest : dest.toList ≠ [] ∧ ':' ∉ dest.toList ∧ '$' ∉ dest.toList)
    (hpos : OffMenus layout order b.pos) (hshows : (viewOf layout order b).Shows a)
    (hopen : ∀ a' b', a'.node = a.node → b'.pos = b.pos → (viewOf layout order b').Shows a' →
      ((viewOf layout order b).Collected → (viewOf layout order b').Collected) →
      Arrives dialplan world layout order zone (a'.take layout .true) (b'.goto dialplan dest.toList))
    (hclosed : ∀ a' b', a'.node = a.node → b'.pos = b.pos.next →
      (viewOf layout order b').Shows a' →
      ((viewOf layout order b).Collected → (viewOf layout order b').Collected) →
      Onward dialplan world layout order zone (a'.take layout .false) b') :
    Onward dialplan world layout order zone
      (match askWindow config a.behaviour.windows with
        | none => a.finish .gone
        | some (isOpen, windows) =>
          { a with behaviour := { a.behaviour with windows := windows } }.take layout
            (if isOpen then .true else .false)) b := by
  have hvisit : viewOf layout order (b.visit none) = viewOf layout order b :=
    viewOf_visit (unmarked_none hpos)
  have hspec := notMem_buildTimeSpec config (show isSpecChar '$' = false by decide)
  have hargs : (plainStep "GotoIfTime" (buildTimeSpec config ++ "?" ++ dest)).args =
      (buildTimeSpec config).toList ++ '?' :: dest.toList := by simp [plainStep]
  have hplain : '$' ∉ (plainStep "GotoIfTime" (buildTimeSpec config ++ "?" ++ dest)).args := by
    rw [hargs]
    simp [hspec, hdest.2.2]
  have hstep : step dialplan world b = _ := step_gotoIfTime hat rfl
    (notMem_buildTimeSpec config (by decide)) hargs hplain hdest.1 hdest.2.1
  have hsafe : Safe dialplan layout order zone b := safe_of_code hat (by rintro ⟨⟩)
  have hcaller : b.caller.windows = a.behaviour.windows := congrArg Caller.windows hshows.caller
  cases hconfig : config with
  | holiday =>
    rw [if_pos ((buildTimeSpec_always config).mpr hconfig)] at hstep
    refine Arrives.onward (hopen a (b.visit none) rfl rfl ?_ ?_) hsafe hstep
    · exact hvisit.symm ▸ hshows
    · rw [hvisit]
      exact id
  | timeRange timeStart timeEnd daysOfWeek =>
    have hnot : (buildTimeSpec config).toList ≠ "*,*,*,*".toList := by
      rw [ne_eq, buildTimeSpec_always, hconfig]
      rintro ⟨⟩
    rw [if_neg hnot, hcaller] at hstep
    cases hwindows : a.behaviour.windows with
    | nil =>
      rw [hwindows] at hstep
      exact .result hsafe hstep ⟨rfl, (congrArg View.visited hvisit).trans hshows.visited⟩
    | cons isOpen windows =>
      rw [hwindows] at hstep
      have hview : viewOf layout order { b.visit none with caller := { b.caller with windows := windows } } =
          { viewOf layout order b with caller := { b.caller with windows := windows } } := by
        rw [← hvisit]
        rfl
      have hshows' : ({ viewOf layout order b with
          caller := { b.caller with windows := windows } } : View).Shows
          { a with behaviour := { a.behaviour with windows := windows } } :=
        ⟨congrArg (fun c : Caller => { c with windows := windows }) hshows.caller, hshows.visited⟩
      cases isOpen with
      | true =>
        refine Arrives.onward (hopen _ { b.visit none with
          caller := { b.caller with windows := windows } } rfl rfl ?_ ?_) hsafe hstep
        · exact hview.symm ▸ hshows'
        · exact fun h => hview.symm ▸ h
      | false =>
        refine .of_step hsafe hstep (hclosed { a with
          behaviour := { a.behaviour with windows := windows } } _ rfl rfl ?_ ?_)
        · exact hview.symm ▸ hshows'
        · exact fun h => hview.symm ▸ h

end Arrives

variable {dialplan : List Entry} {world : Nat → Text → Text} {layout : Layout}
  {order : List FlowNode} {opening : List Step} {zone : String → Prop} {a : FlowState} {b : State}

section Condition
variable (hflow : CleanFlow layout order) (hcode : FlowCode dialplan layout order opening)
  (hnode : a.node ∈ order) {pos : Pos} (hplaced : Placed dialplan layout a.node pos)
  {onTrue : FlowEdge} {target : FlowNode}
  (hedge : layout.findEdge a.node.nodeId .true = some onTrue) (htarget : target ∈ order)
  (hfound : layout.graph.nodeById onTrue.toNodeId = some target)
include hflow hcode hnode hplaced hedge htarget hfound

omit hedge htarget hfound in
/-- `Hangup()` is not the label of a node. -/
theorem goto_hangup (hinline : a.node.isInline = true) {n : Nat} (hpos : b.pos = pos.after n) : b.goto dialplan "Hangup()".toList = b.finish .hungUp := by
  have hno : ∀ c ∈ opening ++ (order.filter FlowNode.isInline).flatMap (labeledCode layout),
      c.label ≠ some "Hangup()".toList := by
    intro c hc hlabel
    rcases List.mem_append.mp hc with hc | hc
    · rw [hcode.opening c hc] at hlabel
      cases hlabel
    · obtain ⟨node, hmem, hc⟩ := List.mem_flatMap.mp hc
      have hmem := (List.mem_filter.mp hmem).1
      obtain ⟨i, hi⟩ := List.getElem?_of_mem hmem
      obtain ⟨rest, hrest⟩ := hflow.label_inline hmem hc hlabel
      rw [hflow.labels i node hi, nodeLabel] at hrest
      simp only [String.toList_append, List.append_assoc] at hrest
      exact absurd (congrArg List.head? hrest) (show some 'n' ≠ some 'H' by decide)
  have hcontext : b.pos.context = layout.mainContext.toList := by
    rw [hpos]
    exact hplaced.context
  have hexten : b.pos.exten = "s".toList := by
    rw [hpos]
    exact hplaced.exten
  have hfails := hcode.main.jumpTo_fail ?_ (by decide) (by decide) hno
  · rw [State.goto, resolve_priority (by decide), hcontext, hexten, hfails]
  · intro hnil
    rw [List.append_eq_nil_iff, List.flatMap_eq_nil_iff] at hnil
    exact absurd (hnil.2 a.node (List.mem_filter.mpr ⟨hnode, hinline⟩)) (List.cons_ne_nil _ _)

/-- The open window leads along its edge at once. -/
theorem arrives_at_once (hinline : a.node.isInline = true) (hfits : a.node.fitsWindow target = true) {c : Step}
    (hone : jumpCode layout target = [c]) {n : Nat} (hpos : b.pos = pos.after n)
    (hshows : (viewOf layout order b).Shows a)
    (hdigits : (viewOf layout order b).Collected ∨ zone target.nodeId) :
    Arrives dialplan world layout order zone (a.take layout .true)
      (b.goto dialplan (stripGoto (bodyLine c)).toList) := by
  rw [FlowState.take, hedge, FlowState.follow, hfound]
  refine .inl (show Sum.LiftRel _ _ (a.enter target) _ from ?_)
  by_cases hhangup : ∃ promptKey, target.config = .hangup promptKey
  · obtain ⟨promptKey, hconfig⟩ := hhangup
    rw [hangup_alone hconfig hone, stripGoto_hangup, goto_hangup hflow hcode hnode hplaced hinline hpos, FlowState.enter,
      hconfig]
    exact .inr ⟨rfl, hshows.visited⟩
  · obtain ⟨dest, hjump, -, -⟩ := hflow.jumpCode_goto htarget (fun key h => hhangup ⟨key, h⟩)
    obtain rfl := List.singleton_inj.mp (hone.symm.trans hjump)
    rw [stripGoto_goto (hflow.fits_dest hfits hjump).2]
    exact goto_target hflow hcode htarget hjump hshows hdigits

omit hplaced hnode hedge hfound hcode in
/-- What stands behind a window is one destination. -/
theorem CleanFlow.window_dest (hfits : a.node.fitsWindow target = true) {c : Step}
    (hone : jumpCode layout target = [c]) :
    (stripGoto (bodyLine c)).toList ≠ [] ∧ ':' ∉ (stripGoto (bodyLine c)).toList ∧
      '$' ∉ (stripGoto (bodyLine c)).toList := by
  by_cases hhangup : ∃ promptKey, target.config = .hangup promptKey
  · obtain ⟨promptKey, hconfig⟩ := hhangup
    rw [hangup_alone hconfig hone, stripGoto_hangup]
    decide
  · obtain ⟨dest, hjump, hplain, hne⟩ := hflow.jumpCode_goto htarget (fun key h => hhangup ⟨key, h⟩)
    obtain rfl := List.singleton_inj.mp (hone.symm.trans hjump)
    obtain ⟨hcolon, hdots⟩ := hflow.fits_dest hfits hjump
    rw [stripGoto_goto hdots]
    exact ⟨hne, hcolon, hplain⟩

end Condition

/-- Where the code of a window goes on when its target does not fit behind it. -/
theorem condition_split {node target : FlowNode} {config : ConditionConfig}
    (hconfig : node.config = .condition config) {onTrue : FlowEdge}
    (hedge : layout.findEdge node.nodeId .true = some onTrue)
    (hfound : layout.graph.nodeById onTrue.toNodeId = some target)
    (hmany : ∀ c, jumpCode layout target ≠ [c]) :
    labeledCode layout node = (labeledStep (layout.labelOf node.nodeId) "NoOp"
        ("ARS node " ++ node.label) ::
      (plainStep "GotoIfTime" (buildTimeSpec config ++ "?" ++
        (layout.labelOf node.nodeId ++ "-true")) :: takeCode layout node .false)) ++
      labeledStep (layout.labelOf node.nodeId ++ "-true") "NoOp"
        ("ARS condition " ++ node.label ++ " matched") :: takeCode layout node .true := by
  have hjump : edgeCode layout (some onTrue) = jumpCode layout target := by
    rw [edgeCode, hfound]
    rfl
  rw [labeledCode, inlineCode, hconfig]
  simp only [hedge, conditionCode, takeCode, hjump]
  simp

theorem onward_condition (hflow : CleanFlow layout order)
    (hcode : FlowCode dialplan layout order opening) (hzone : Zone layout order zone)
    (hnode : a.node ∈ order) (hinline : a.node.isInline = true) {pos : Pos}
    (hplaced : Placed dialplan layout a.node pos) (hpos : b.pos = pos.next)
    (hshows : (viewOf layout order b).Shows a)
    (hdigits : (viewOf layout order b).Collected ∨ zone a.node.nodeId) {config : ConditionConfig}
    (hconfig : a.node.config = .condition config) {onTrue : FlowEdge}
    (hedge : layout.findEdge a.node.nodeId .true = some onTrue) :
    Onward dialplan world layout order zone
      (match askWindow config a.behaviour.windows with
        | none => a.finish .gone
        | some (isOpen, windows) =>
          { a with behaviour := { a.behaviour with windows := windows } }.take layout
            (if isOpen then .true else .false)) b := by
  obtain ⟨target, htarget, hfound, hfits⟩ := hflow.window hnode hconfig hedge
  have hat := hplaced.code.2
  rw [inlineCode, hconfig, ← hpos] at hat
  simp only [hedge, conditionCode] at hat
  have hcontext : b.pos.context = layout.mainContext.toList := by
    rw [hpos]
    exact hplaced.context
  have hafter : ∀ {e condition}, layout.findEdge a.node.nodeId condition = some e →
      (viewOf layout order b).Collected ∨ zone e.toNodeId :=
    fun he => hzone.after hnode (by simp [hconfig]) hdigits (findEdge_eq_some he).1
  have hjump : edgeCode layout (some onTrue) = jumpCode layout target := by
    rw [edgeCode, hfound]
    rfl
  rw [hjump] at hat
  by_cases hone : ∃ c, jumpCode layout target = [c]
  · obtain ⟨c, hone⟩ := hone
    simp only [hone] at hat
    refine onward_window hat.1 (hflow.window_dest htarget hfits hone) (offMenus_main hcontext) hshows
      ?_ ?_
    · rintro a' b' hsame hpos' hshows' hkeeps
      rw [← hsame] at hnode hinline hplaced hedge hfits
      refine arrives_at_once (n := 1) hflow hcode hnode hplaced hedge htarget hfound hinline hfits
        hone (hpos'.trans hpos) hshows' ?_
      rw [FlowGraph.nodeById_nodeId hfound]
      exact (hafter (hsame ▸ hedge)).imp_left hkeeps
    · rintro a' b' hsame hpos' hshows' hkeeps
      have hfalse := hat.2
      rw [← hsame, ← hpos'] at hfalse
      refine onward_take hflow hcode (hsame ▸ hnode) (hpos' ▸ hcontext) hshows' hfalse ?_
      intro e he
      exact (hafter (hsame ▸ he)).imp_left hkeeps
  · have hmany : ∀ c, jumpCode layout target ≠ [c] := fun c hc => hone ⟨c, hc⟩
    have hsplit := condition_split hconfig hedge hfound hmany
    have hall := hplaced.code
    rw [hsplit, List.cons_append] at hall
    have hat := hall.2
    rw [show pos.next = b.pos from hpos.symm] at hat
    have hlabel : ∀ c ∈ (layout.labelOf a.node.nodeId ++ "-true").toList, c ≠ '$' ∧ c ≠ ':' :=
      hflow.labelChars (by decide)
    refine onward_window hat.1 ⟨by simp, fun h => (hlabel _ h).2 rfl, fun h => (hlabel _ h).1 rfl⟩
      (offMenus_main hcontext) hshows ?_ ?_
    · rintro a' b' hsame hpos' hshows' hkeeps
      rw [← hsame] at hnode hplaced hsplit hedge ⊢
      refine .inr (onward_label (n := 1) hflow hcode hnode hshows' hplaced (hpos'.trans hpos) hsplit
        (label_front ?_) (by decide) (fun e he => (hafter (hsame ▸ he)).imp_left hkeeps))
      intro d hd
      simp only [List.mem_cons] at hd
      rcases hd with rfl | rfl | hd
      · exact .inr ⟨"", by simp [labeledStep], by decide⟩
      · exact .inl rfl
      · exact .inl ((hflow.plainBody_take hnode .false).1 d hd).2
    · rintro a' b' hsame hpos' hshows' hkeeps
      have hfalse := (codeAt_append.mp hat.2).1
      rw [← hsame, ← hpos'] at hfalse
      refine onward_take hflow hcode (hsame ▸ hnode) (hpos' ▸ hcontext) hshows' hfalse ?_
      intro e he
      exact (hafter (hsame ▸ he)).imp_left hkeeps

end KasterCti.ArsFlow
