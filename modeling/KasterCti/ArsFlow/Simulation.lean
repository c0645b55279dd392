import KasterCti.ArsFlow.Trail
import Mathlib

/-!
# The compiled flow follows the graph

A call that runs the code of a flow and a call that walks the graph are kept in step: where
the one stands at the first priority of a node, the other is at the node. Each node type
has one lemma that leads from there to the first priority of the next node, or to the end of
the call. On the way the collected digits are taken for a number only when there are enough
of them, or at nodes of a zone that failed requests for digits lead into.
-/

namespace KasterCti.ArsFlow

open Dialplan Machine Renderers

/-! ## Keeping in step -/

/-- The node stands at the place. -/
inductive Standing (dialplan : List Entry) (layout : Layout) (node : FlowNode) (pos : Pos) : Prop
  | inline (hinline : node.isInline = true) (hplaced : Placed dialplan layout node pos)
  | menu (hmenu : node.isMenu = true)
      (hpos : pos = ⟨(layout.menuContextOf node.nodeId).toList, "s".toList, 1⟩)

/-- What a call shows is what has happened on the graph. -/
structure View.Shows (view : View) (a : FlowState) : Prop where
  caller : view.caller = a.behaviour.caller
  visited : view.visited = a.visited

/-- The two calls are at the same node. -/
structure Follows (dialplan : List Entry) (layout : Layout) (order : List FlowNode)
    (zone : String → Prop) (a : FlowState) (b : State) : Prop where
  node : a.node ∈ order
  standing : Standing dialplan layout a.node b.pos
  shows : (viewOf layout order b).Shows a
  digits : (viewOf layout order b).Collected ∨ zone a.node.nodeId

/-- The two calls end alike. -/
structure SameEnd (layout : Layout) (order : List FlowNode) (r : FlowResult) (r' : Result) :
    Prop where
  outcome : r'.outcome = r.ending.outcome
  visited : visitedNodes layout order r'.trace = r.visited

/-- The digits may be taken: they are there, or a node of the zone takes them. -/
def Entitled (order : List FlowNode) (zone : String → Prop) (view : View) : Prop :=
  view.Collected ∨ ∃ node ∈ order, zone node.nodeId ∧ targetSourceOf node = some .collected

/-- Where the call is, digits are taken only when they may be. -/
def Safe (dialplan : List Entry) (layout : Layout) (order : List FlowNode) (zone : String → Prop)
    (b : State) : Prop :=
  ∀ code, stepAt dialplan b.pos = some code → takesDigits code = true →
    Entitled order zone (viewOf layout order b)

/-- The dialplan comes from the state to what the graph comes to. -/
def Onward (dialplan : List Entry) (world : Nat → Text → Text) (layout : Layout)
    (order : List FlowNode) (zone : String → Prop) (x : FlowState ⊕ FlowResult) (b : State) : Prop :=
  MeetsVia (step dialplan world) (Follows dialplan layout order zone) (SameEnd layout order)
    (Safe dialplan layout order zone) x b

/-- The nodes at which digits may be missing: those behind a failed request, and those that
they lead to before a request that succeeds. -/
structure Zone (layout : Layout) (order : List FlowNode) (zone : String → Prop) : Prop where
  timeout : ∀ node ∈ order, ∀ config, node.config = .collectDigits config →
    ∀ edge, layout.findEdge node.nodeId .timeout = some edge → zone edge.toNodeId
  next : ∀ node ∈ order, zone node.nodeId → ∀ edge ∈ layout.outgoing node.nodeId,
    (∀ config, node.config = .collectDigits config → edge.condition ≠ .default) →
      zone edge.toNodeId

/-! ## Priorities that run on -/

/-- A priority that runs on and shows nothing. -/
structure Harmless (code : Step) : Prop where
  label : code.label = none
  app : appOf code.app = .pass ∨ appOf code.app = .set ∧ ∃ name value,
    code.args = name ++ '=' :: value ∧ '=' ∉ name ∧ '$' ∉ name ∧
      varName name ≠ collectedDigitsVar.toList

section Code
variable {dialplan : List Entry} {world : Nat → Text → Text} {layout : Layout}
  {order : List FlowNode} {zone : String → Prop} {b : State} {x : FlowState ⊕ FlowResult}

theorem safe_of_code {code : Step} (hat : stepAt dialplan b.pos = some code)
    (h : takesDigits code = true → Entitled order zone (viewOf layout order b)) :
    Safe dialplan layout order zone b := by
  intro code' hat' htakes
  obtain rfl := Option.some.inj (hat.symm.trans hat')
  exact h htakes

theorem Harmless.step {code : Step} (h : Harmless code) (hat : stepAt dialplan b.pos = some code)
    (hoff : OffMenus layout order b.pos) :
    ∃ b', Dialplan.step dialplan world b = .inl b' ∧ b'.pos = b.pos.next ∧
      viewOf layout order b' = viewOf layout order b := by
  have hvisit : viewOf layout order (b.visit code.label) = viewOf layout order b := by
    rw [h.label]
    exact viewOf_visit (unmarked_none hoff)
  rcases h.app with happ | ⟨happ, name, value, hargs, hname, hplain, hvar⟩
  · exact ⟨_, step_pass hat happ, rfl, hvisit⟩
  · have hplain' : '$' ∉ name ++ ['='] := by simp [hplain]
    have hexpand : expand ((b.visit code.label).lookup world) code.args =
        name ++ '=' :: expand ((b.visit code.label).lookup world) value := by
      rw [hargs]
      simpa using expand_prefix ((b.visit code.label).lookup world) hplain' value
    exact ⟨_, step_set hat happ hname hexpand, rfl, (viewOf_setVar hvar).trans hvisit⟩

/-- Such a priority, which takes the digits only where it may. -/
def RunsOn (order : List FlowNode) (zone : String → Prop) (view : View) (code : Step) : Prop :=
  Harmless code ∧ (takesDigits code = true → Entitled order zone view)

theorem Harmless.runsOn {code : Step} (h : Harmless code) (htakes : takesDigits code = false)
    {view : View} : RunsOn order zone view code :=
  ⟨h, fun hdigits => by cases htakes.symm.trans hdigits⟩

/-- Code that runs on comes to what stands behind it. -/
theorem onward_harmless {code rest : List Step} (hcode : CodeAt dialplan b.pos (code ++ rest))
    (hruns : ∀ c ∈ code, RunsOn order zone (viewOf layout order b) c)
    (hoff : ∀ i, OffMenus layout order (b.pos.after i))
    (hrest : ∀ b', b'.pos = b.pos.after code.length →
      viewOf layout order b' = viewOf layout order b → CodeAt dialplan b'.pos rest →
      Onward dialplan world layout order zone x b') :
    Onward dialplan world layout order zone x b := by
  induction code generalizing b with
  | nil => exact hrest b rfl rfl hcode
  | cons c code ih =>
    obtain ⟨hat, hcode⟩ := hcode
    obtain ⟨hharmless, htakes⟩ := hruns c List.mem_cons_self
    obtain ⟨b', hstep, hpos, hview⟩ := hharmless.step hat (hoff 0)
    refine .of_step (safe_of_code hat htakes) hstep ?_
    refine ih ?_ (fun d hd => hview.symm ▸ hruns d (List.mem_cons_of_mem _ hd)) ?_ ?_
    · rwa [hpos]
    · intro i
      rw [hpos, Pos.next_after]
      exact hoff (i + 1)
    · intro b'' hpos' hview' hcode'
      refine hrest b'' ?_ (hview'.trans hview) hcode'
      rw [hpos', hpos, Pos.next_after, List.length_cons]

end Code

/-- Only the message and the number of the opt-out take digits. -/
theorem takesDigits_of_ne {code : Step}
    (hsms : code ≠ plainStep "System" (buildSmartArsHookCommand "sms" (targetNumberExpression .collected)))
    (htarget : code ≠ plainStep "Set" ("__OPT_OUT_TARGET_PHONE=" ++ targetNumberExpression .collected)) :
    takesDigits code = false := by
  simp only [takesDigits, decide_eq_false hsms, decide_eq_false htarget, Bool.or_false]

theorem takesDigits_app {code : Step}
    (happ : code.app ≠ "System".toList ∧ code.app ≠ "Set".toList) : takesDigits code = false :=
  takesDigits_of_ne (fun h => happ.1 (congrArg Step.app h)) fun h => happ.2 (congrArg Step.app h)

theorem takesDigits_plainStep {app args : String}
    (happ : app.toList ≠ "System".toList ∧ app.toList ≠ "Set".toList) :
    takesDigits (plainStep app args) = false :=
  takesDigits_app happ

/-- Setting another variable takes no digits. -/
theorem takesDigits_set {args : String} {name value : Text} (hargs : args.toList = name ++ '=' :: value)
    (hname : '=' ∉ name) (hne : name ≠ "__OPT_OUT_TARGET_PHONE".toList) :
    takesDigits (plainStep "Set" args) = false := by
  refine takesDigits_of_ne (fun h => ?_) fun h => ?_
  · exact absurd (congrArg Step.app h) (show "Set".toList ≠ "System".toList by decide)
  · have hsame : args.toList = "__OPT_OUT_TARGET_PHONE".toList ++
        '=' :: (targetNumberExpression .collected).toList :=
      (congrArg Step.args h).trans (by simp [plainStep])
    have hcut := congrArg (fun t => (cut '=' t).1) (hargs.symm.trans hsame)
    simp only [cut_append hname, cut_append (show '=' ∉ "__OPT_OUT_TARGET_PHONE".toList by decide)]
      at hcut
    exact hne hcut

/-- Setting a variable that is not the digits runs on. -/
theorem harmless_set {args : String} {name value : Text} (hargs : args.toList = name ++ '=' :: value)
    (hname : '=' ∉ name) (hplain : '$' ∉ name) (hvar : varName name ≠ collectedDigitsVar.toList) :
    Harmless (plainStep "Set" args) :=
  ⟨rfl, .inr ⟨show appOf "Set".toList = .set by decide, name, value, hargs, hname, hplain, hvar⟩⟩

/-- Code that plays runs on. -/
theorem harmless_pass {app args : String} (happ : appOf app.toList = .pass) :
    Harmless (plainStep app args) :=
  ⟨rfl, .inl happ⟩

/-! ## The hooks -/

theorem mem_shellQuote {c : Char} {value : String} (hc : c ≠ '\'') (hc' : c ≠ '"') :
    c ∈ (shellQuote value).toList ↔ c ∈ value.toList := by
  have hquote : ∀ d, c ∈ quoteChar d ↔ c = d := by
    intro d
    unfold quoteChar
    split <;> simp_all
  simp [shellQuote, hc, hquote]

/-- The characters of a command. -/
theorem mem_hookCommand {path : String} {args : List String} {c : Char} (hc : c ≠ '\'')
    (hc' : c ≠ '"') (hspace : c ≠ ' ') :
    c ∈ (path ++ " " ++ " ".intercalate (args.map shellQuote)).toList ↔
      c ∈ path.toList ∨ ∃ arg ∈ args, c ∈ arg.toList := by
  have hargs : c ∈ (" ".intercalate (args.map shellQuote)).toList ↔
      ∃ arg ∈ args, c ∈ arg.toList := by
    induction args with
    | nil => simp
    | cons arg args ih =>
      cases args with
      | nil => simp [mem_shellQuote hc hc']
      | cons arg' args =>
        rw [List.map_cons, List.map_cons, String.intercalate_cons_cons, ← List.map_cons,
          String.toList_append, String.toList_append, List.mem_append, List.mem_append, ih,
          mem_shellQuote hc hc']
        simp [hspace]
  rw [String.toList_append, String.toList_append, List.mem_append, List.mem_append, hargs]
  simp [hspace]

theorem paren_mem_smsHook (targetNumber : String) :
    '(' ∈ (buildSmartArsHookCommand "sms" targetNumber).toList ↔ '(' ∈ targetNumber.toList := by
  have hchars := @mem_hookCommand smartArsHookPath ["sms", varRef "SMART_ARS_TENANT_ID",
    varRef "SMART_ARS_BRANCH_ID", varRef "ENTRY_DID", targetNumber,
    varRef "SMART_ARS_SELECTED_SMS_TEMPLATE"] '(' (by decide) (by decide) (by decide)
  refine Iff.trans (show _ ↔ _ from hchars) ?_
  simp [smartArsHookPath, varRef, customSoundAbsolutePrefix]

/-- A message to the caller takes no digits. -/
theorem takesDigits_callerHook :
    takesDigits (plainStep "System" (buildSmartArsHookCommand "sms"
      (targetNumberExpression .caller))) = false := by
  refine takesDigits_of_ne (fun h => ?_) fun h => ?_
  · have hsame := congrArg ('(' ∈ ·) (congrArg Step.args h)
    simp only [plainStep, paren_mem_smsHook] at hsame
    simp [targetNumberExpression, callerNumberExpression, varRef, collectedDigitsVar] at hsame
  · exact absurd (congrArg Step.app h) (show "System".toList ≠ "Set".toList by decide)

theorem takesDigits_callerTarget :
    takesDigits (plainStep "Set" ("__OPT_OUT_TARGET_PHONE=" ++
      targetNumberExpression .caller)) = false := by
  refine takesDigits_of_ne (fun h => ?_) fun h => ?_
  · exact absurd (congrArg Step.app h) (show "Set".toList ≠ "System".toList by decide)
  · have hsame := congrArg ('(' ∈ ·) (congrArg Step.args h)
    simp [plainStep, targetNumberExpression, callerNumberExpression, varRef,
      collectedDigitsVar] at hsame

/-- The opt-out script reads its variables. -/
theorem takesDigits_optOutHook (action : String) :
    takesDigits (plainStep "System" (buildOptOutHookCommand action)) = false := by
  refine takesDigits_of_ne (fun h => ?_) fun h => ?_
  · have hsame := congrArg ('Q' ∈ ·) (congrArg Step.args h)
    have hopt := @mem_hookCommand optOutHookPath [action, varRef "OPT_OUT_TENANT_ID",
      varRef "OPT_OUT_BRANCH_ID", varRef "ENTRY_DID", varRef "REQUESTER_PHONE",
      varRef "OPT_OUT_TARGET_PHONE", varRef "OPT_OUT_SOURCE_TYPE",
      varRef "OPT_OUT_SELECTED_SMS_TEMPLATE"] 'Q' (by decide) (by decide) (by decide)
    have hsms := @mem_hookCommand smartArsHookPath ["sms", varRef "SMART_ARS_TENANT_ID",
      varRef "SMART_ARS_BRANCH_ID", varRef "ENTRY_DID", targetNumberExpression .collected,
      varRef "SMART_ARS_SELECTED_SMS_TEMPLATE"] 'Q' (by decide) (by decide) (by decide)
    have hin : 'Q' ∈ (buildOptOutHookCommand action).toList :=
      (show _ ↔ _ from hopt).mpr (by simp [varRef])
    have hout : 'Q' ∉ (buildSmartArsHookCommand "sms" (targetNumberExpression .collected)).toList := by
      rw [show 'Q' ∈ (buildSmartArsHookCommand "sms" (targetNumberExpression .collected)).toList ↔ _
        from hsms]
      simp [smartArsHookPath, varRef, customSoundAbsolutePrefix, targetNumberExpression,
        collectedDigitsVar]
    simp only [plainStep] at hsame
    exact hout (hsame.mp hin)
  · exact absurd (congrArg Step.app h) (show "System".toList ≠ "Set".toList by decide)

/-! ## Jumps -/

section Destinations
variable {dialplan : List Entry} {b : State} {context exten priority : Text}
  (hcontext : ',' ∉ context) (hexten : ',' ∉ exten) (hpriority : ',' ∉ priority)
include hcontext hexten hpriority

/-- A jump to a context that is not there leaves the dialplan. -/
theorem goto_left (h : (dialplan.map Entry.context).contains context = false) :
    b.goto dialplan (context ++ ',' :: (exten ++ ',' :: priority)) =
      b.finish (.left context exten priority) := by
  rw [State.goto, resolve_context hcontext hexten hpriority, h]
  rfl

theorem goto_inside (h : (dialplan.map Entry.context).contains context = true) {pos : Pos}
    (hjump : jumpTo dialplan context exten priority = .to pos) :
    b.goto dialplan (context ++ ',' :: (exten ++ ',' :: priority)) = .inl { b with pos := pos } := by
  rw [State.goto, resolve_context hcontext hexten hpriority, h, if_pos rfl, hjump]

end Destinations

variable {dialplan : List Entry}

/-- Code stands in a context of the dialplan. -/
theorem context_of_stepAt {pos : Pos} {code : Step} (h : stepAt dialplan pos = some code) :
    (dialplan.map Entry.context).contains pos.context = true := by
  obtain ⟨entry, hentry, hcontext, -⟩ := stepAt_some h
  rw [List.contains_iff_mem]
  exact List.mem_map.mpr ⟨entry, hentry, hcontext⟩

variable {layout : Layout} {order : List FlowNode}

variable {node : FlowNode}

theorem FlowCode.menu_contains {opening : List Step}
    (hcode : FlowCode dialplan layout order opening) (hnode : node ∈ order)
    (hmenu : node.isMenu = true) :
    (dialplan.map Entry.context).contains (layout.menuContextOf node.nodeId).toList = true := by
  obtain ⟨config, hconfig⟩ := config_of_isMenu hmenu
  refine (hcode.menu node hnode hmenu (blockOf "s" (menuEntryCode node config
    (layout.menuContextOf node.nodeId))) ?_).context_mem (List.cons_ne_nil _ _)
  rw [menuSectionOf, hconfig]
  exact List.mem_append_left _ (List.mem_append_left _
    (List.mem_append_left _ (List.mem_singleton_self _)))

/-- A hang-up is no jump. -/
theorem jumpCode_hangup_ne {target : FlowNode} {promptKey : Option String}
    (hconfig : target.config = .hangup promptKey) {dest : String} :
    jumpCode layout target ≠ [plainStep "Goto" dest] := by
  intro hjump
  rw [jumpCode, hconfig] at hjump
  have hlast : hangupCode ∈ [plainStep "Goto" dest] := by
    rw [← hjump]
    exact List.mem_append_right _ (List.mem_singleton_self _)
  exact absurd (congrArg Step.app (List.mem_singleton.mp hlast))
    (show "Hangup".toList ≠ "Goto".toList by decide)

/-- A node that does not hang up is reached by one jump. -/
theorem CleanFlow.jumpCode_goto (hflow : CleanFlow layout order) {target : FlowNode}
    (htarget : target ∈ order) (h : ∀ promptKey, target.config ≠ .hangup promptKey) :
    ∃ dest, jumpCode layout target = [plainStep "Goto" dest] ∧ '$' ∉ dest.toList ∧
      dest.toList ≠ [] := by
  have hclean := hflow.config htarget
  have hmain : '$' ∉ layout.mainContext.toList := notMem_of_all hflow.named.main (by decide)
  have hlabel : '$' ∉ (layout.labelOf target.nodeId).toList :=
    notMem_of_all (hflow.named.labelOf target.nodeId) (by decide)
  have hmenuContext : '$' ∉ (layout.menuContextOf target.nodeId).toList :=
    notMem_of_all (hflow.named.menuContextOf target.nodeId) (by decide)
  unfold jumpCode
  cases hconfig : target.config <;> rw [hconfig] at hclean
  case hangup promptKey => exact absurd hconfig (h promptKey)
  case queue queueName =>
    have hname : '$' ∉ queueName.toList := notMem_of_all hclean (by decide)
    exact ⟨_, rfl, by simp [hname], by simp⟩
  case transfer transferNumber =>
    have hnumber : '$' ∉ transferNumber.toList := notMem_of_all hclean (by decide)
    exact ⟨_, rfl, by simp [hnumber], by simp⟩
  case menu config => exact ⟨_, rfl, by simp [hmenuContext], by simp⟩
  all_goals exact ⟨_, rfl, by simp [hmain, hlabel], by simp⟩

/-- The prompts in front of other code. -/
theorem plays_playbackCode {promptKey : Option String} {c : Step}
    (hc : c ∈ playbackCode promptKey) : ∃ key, c = plainStep "Playback" key := by
  unfold playbackCode at hc
  split at hc
  · exact ⟨_, List.mem_singleton.mp hc⟩
  · cases hc

theorem runsOn_playback {zone : String → Prop} {view : View} (key : String) :
    RunsOn order zone view (plainStep "Playback" key) :=
  (harmless_pass (by decide)).runsOn (takesDigits_plainStep (by decide))

theorem runsOn_playbackCode {promptKey : Option String} {c : Step} (hc : c ∈ playbackCode promptKey)
    {zone : String → Prop} {view : View} : RunsOn order zone view c := by
  obtain ⟨key, rfl⟩ := plays_playbackCode hc
  exact runsOn_playback key

variable {world : Nat → Text → Text} {opening : List Step} {zone : String → Prop} {a : FlowState}
  {b : State}

section Jumps
variable (hflow : CleanFlow layout order) (hcode : FlowCode dialplan layout order opening)
include hflow hcode

/-- A jump goes where the graph goes. -/
theorem goto_target {target : FlowNode} (htarget : target ∈ order) {dest : String}
    (hjump : jumpCode layout target = [plainStep "Goto" dest])
    (hshows : (viewOf layout order b).Shows a)
    (hdigits : (viewOf layout order b).Collected ∨ zone target.nodeId) :
    Sum.LiftRel (Follows dialplan layout order zone) (SameEnd layout order) (a.enter target)
      (b.goto dialplan dest.toList) := by
  have hdest : ∀ text, jumpCode layout target = [plainStep "Goto" text] →
      dest.toList = text.toList := by
    intro text htext
    exact congrArg Step.args (List.singleton_inj.mp (hjump.symm.trans htext))
  have hclean := hflow.config htarget
  have hinline : target.isInline = true → dest.toList = layout.mainContext.toList ++
      ',' :: ("s".toList ++ ',' :: (layout.labelOf target.nodeId).toList) →
      Sum.LiftRel (Follows dialplan layout order zone) (SameEnd layout order)
        (.inl { a with node := target }) (b.goto dialplan dest.toList) := by
    intro hin hdest
    obtain ⟨pos, hplaced⟩ := hcode.placed hflow htarget hin
    have hcontains := context_of_stepAt hplaced.code.1
    rw [hplaced.context] at hcontains
    rw [hdest, goto_inside (notMem_of_all hflow.named.main (by decide)) (by decide)
      (notMem_of_all (hflow.named.labelOf target.nodeId) (by decide)) hcontains hplaced.entry]
    exact .inl ⟨htarget, .inline hin hplaced, ⟨hshows.caller, hshows.visited⟩, hdigits⟩
  cases hconfig : target.config with
  | queue queueName =>
    have hdest := hdest ("queue-entry," ++ queueName ++ ",1") (by rw [jumpCode, hconfig])
    have htext : ("queue-entry," ++ queueName ++ ",1").toList =
        "queue-entry".toList ++ ',' :: (queueName.toList ++ ',' :: "1".toList) := by simp
    rw [hconfig] at hclean
    rw [hdest, htext, goto_left (by decide) (notMem_of_all hclean (by decide)) (by decide)
      (hcode.outside _ (by simp)), FlowState.enter, hconfig]
    exact .inr ⟨rfl, hshows.visited⟩
  | transfer transferNumber =>
    have hdest := hdest ("transfer-target," ++ transferNumber ++ ",1") (by rw [jumpCode, hconfig])
    have htext : ("transfer-target," ++ transferNumber ++ ",1").toList =
        "transfer-target".toList ++ ',' :: (transferNumber.toList ++ ',' :: "1".toList) := by simp
    rw [hconfig] at hclean
    rw [hdest, htext, goto_left (by decide) (notMem_of_all hclean (by decide)) (by decide)
      (hcode.outside _ (by simp)), FlowState.enter, hconfig]
    exact .inr ⟨rfl, hshows.visited⟩
  | hangup promptKey =>
    exact absurd hjump (jumpCode_hangup_ne hconfig)
  | menu config =>
    have hmenu : target.isMenu = true := by
      simp [FlowNode.isMenu, FlowNode.nodeType, NodeConfig.nodeType, hconfig]
    have hdest := hdest (layout.menuContextOf target.nodeId ++ ",s,1") (by rw [jumpCode, hconfig])
    have htext : (layout.menuContextOf target.nodeId ++ ",s,1").toList =
        (layout.menuContextOf target.nodeId).toList ++ ',' :: ("s".toList ++ ',' :: ['1']) := by
      simp
    rw [hdest, htext, goto_inside (notMem_of_all (hflow.named.menuContextOf target.nodeId)
      (by decide)) (by decide) (by decide) (hcode.menu_contains htarget hmenu)
      (jumpTo_one _ _), FlowState.enter, hconfig]
    exact .inl ⟨htarget, .menu hmenu rfl, ⟨hshows.caller, hshows.visited⟩, hdigits⟩
  | _ =>
    rw [FlowState.enter, hconfig]
    refine hinline ?_ ?_
    · simp [FlowNode.isInline, FlowNode.nodeType, NodeConfig.nodeType, hconfig,
        FlowNodeType.isTerminal]
    · rw [hdest _ (by rw [jumpCode, hconfig])]
      simp

/-- A jump along an edge, priority by priority. -/
theorem onward_jump {target : FlowNode} (htarget : target ∈ order)
    (hat : CodeAt dialplan b.pos (jumpCode layout target))
    (hoff : ∀ i, OffMenus layout order (b.pos.after i))
    (hshows : (viewOf layout order b).Shows a)
    (hdigits : (viewOf layout order b).Collected ∨ zone target.nodeId) :
    Onward dialplan world layout order zone (a.enter target) b := by
  by_cases hhangup : ∃ promptKey, target.config = .hangup promptKey
  · obtain ⟨promptKey, hconfig⟩ := hhangup
    rw [jumpCode, hconfig] at hat
    refine onward_harmless hat (fun c hc => runsOn_playbackCode hc) hoff ?_
    intro b' hpos hview hat'
    have hvisit : viewOf layout order (b'.visit none) = viewOf layout order b' :=
      viewOf_visit (unmarked_none (hpos ▸ hoff (playbackCode promptKey).length))
    rw [FlowState.enter, hconfig]
    refine .result (safe_of_code hat'.1 nofun) (step_hangup hat'.1 rfl) ⟨rfl, ?_⟩
    exact (congrArg View.visited (hvisit.trans hview)).trans hshows.visited
  · obtain ⟨dest, hjump, hplain, -⟩ := hflow.jumpCode_goto htarget (fun key h => hhangup ⟨key, h⟩)
    rw [hjump] at hat
    have hvisit := viewOf_visit (unmarked_none (hoff 0))
    have hgoto := goto_target (b := b.visit none) hflow hcode htarget hjump (hvisit ▸ hshows)
      (hvisit ▸ hdigits)
    refine ⟨_, .one (safe_of_code hat.1 ?_) (step_goto hat.1 rfl hplain), hgoto⟩
    rw [takesDigits_plainStep (by decide)]
    exact nofun

theorem onward_follow {node : FlowNode} (hnode : node ∈ order) {edge : Option FlowEdge}
    (hedge : ∀ e, edge = some e → e ∈ layout.outgoing node.nodeId)
    (hat : CodeAt dialplan b.pos (edgeCode layout edge))
    (hoff : ∀ i, OffMenus layout order (b.pos.after i))
    (hshows : (viewOf layout order b).Shows a)
    (hdigits : ∀ e, edge = some e → (viewOf layout order b).Collected ∨ zone e.toNodeId) :
    Onward dialplan world layout order zone (a.follow layout edge) b := by
  cases edge with
  | none =>
    have hvisit : viewOf layout order (b.visit none) = viewOf layout order b :=
      viewOf_visit (unmarked_none (hoff 0))
    exact .result (safe_of_code hat.1 nofun) (step_hangup hat.1 rfl)
      ⟨rfl, (congrArg View.visited hvisit).trans hshows.visited⟩
  | some e =>
    obtain ⟨target, htarget, hfound⟩ := hflow.targets node hnode e (hedge e rfl)
    rw [edgeCode, hfound] at hat
    rw [FlowState.follow, hfound]
    refine onward_jump hflow hcode htarget hat hoff hshows ?_
    rw [FlowGraph.nodeById_nodeId hfound]
    exact hdigits e rfl

end Jumps

/-- A jump to a label of the code of a node. -/
theorem Placed.goto {pos : Pos} (h : Placed dialplan layout node pos) {before after : List Step}
    {c : Step} {label : Text} (hcode : labeledCode layout node = before ++ c :: after)
    (hc : c.label = some label) (hbefore : ∀ d ∈ before, d.label ≠ some label)
    (hcomma : ',' ∉ label) {b : State} {n : Nat} (hpos : b.pos = pos.after n) :
    b.goto dialplan label = .inl { b with pos := pos.after before.length } ∧
      CodeAt dialplan (pos.after before.length) (c :: after) := by
  have hcontext : b.pos.context = layout.mainContext.toList := by
    rw [hpos]
    exact h.context
  have hexten : b.pos.exten = "s".toList := by
    rw [hpos]
    exact h.exten
  refine ⟨?_, ?_⟩
  · rw [State.goto, resolve_priority hcomma, hcontext, hexten, h.label before c after label hcode hc
      hbefore]
  · have hall := h.code
    rw [hcode, codeAt_append] at hall
    exact hall.2

theorem CleanFlow.labelChars (hflow : CleanFlow layout order) {nodeId tail : String}
    (htail : ∀ c ∈ tail.toList, c ≠ '$' ∧ c ≠ ':') :
    ∀ c ∈ (layout.labelOf nodeId ++ tail).toList, c ≠ '$' ∧ c ≠ ':' := by
  intro c hc
  rw [String.toList_append, List.mem_append] at hc
  rcases hc with hc | hc
  · have hchar := List.all_eq_true.mp (hflow.named.labelOf nodeId) c hc
    constructor <;> (rintro rfl; exact absurd hchar (by decide))
  · exact htail c hc

/-- Labels with different ends. -/
theorem label_front {label tail : String} {front : List Step} (h : ∀ d ∈ front, d.label = none ∨
    ∃ other : String, d.label = some (label ++ other).toList ∧ other.toList ≠ tail.toList) :
    ∀ d ∈ front, d.label ≠ some (label ++ tail).toList := by
  intro d hd hlabel
  rcases h d hd with hnone | ⟨other, hother, hne⟩
  · rw [hnone] at hlabel
    cases hlabel
  · have hsame := Option.some.inj (hother.symm.trans hlabel)
    rw [String.toList_append, String.toList_append] at hsame
    exact hne (List.append_cancel_left hsame)

/-! ## Inline nodes -/

/-- A node that does not collect leads on as it was reached. -/
theorem Zone.after {zone : String → Prop} (hzone : Zone layout order zone) (hnode : node ∈ order)
    (hcollect : ∀ config, node.config ≠ .collectDigits config) {view : View}
    (hdigits : view.Collected ∨ zone node.nodeId) {e : FlowEdge}
    (he : e ∈ layout.outgoing node.nodeId) : view.Collected ∨ zone e.toNodeId :=
  hdigits.imp_right (fun hz => hzone.next node hnode hz e he
    (fun config hconfig => absurd hconfig (hcollect config)))

/-- The graph after a node has been noted. -/
def FlowState.note (a : FlowState) : FlowState := { a with visited := a.node.nodeId :: a.visited }

/-- A node that takes the collected digits may do so. -/
theorem entitled_of_source {zone : String → Prop} (hnode : node ∈ order)
    (hsource : targetSourceOf node = some .collected) {view : View}
    (hdigits : view.Collected ∨ zone node.nodeId) : Entitled order zone view :=
  hdigits.imp_right (fun hz => ⟨node, hnode, hz, hsource⟩)

section Inline
variable (hflow : CleanFlow layout order) (hcode : FlowCode dialplan layout order opening)
  (hzone : Zone layout order zone) (hnode : a.node ∈ order)
  (hmain : b.pos.context = layout.mainContext.toList) (hshows : (viewOf layout order b).Shows a)
include hflow hcode hnode hmain hshows

/-- The edge of a condition, from the main context. -/
theorem onward_take {condition : FlowEdgeCondition}
    (hat : CodeAt dialplan b.pos (takeCode layout a.node condition))
    (hdigits : ∀ e, layout.findEdge a.node.nodeId condition = some e →
      (viewOf layout order b).Collected ∨ zone e.toNodeId) :
    Onward dialplan world layout order zone (a.take layout condition) b :=
  onward_follow hflow hcode hnode (fun _ he => (findEdge_eq_some he).1) hat
    (fun _ => offMenus_main hmain) hshows hdigits

/-- Code that runs on and takes the edge of a condition. -/
theorem onward_runsOn {code : List Step} {condition : FlowEdgeCondition}
    (hat : CodeAt dialplan b.pos (code ++ takeCode layout a.node condition))
    (hruns : ∀ c ∈ code, RunsOn order zone (viewOf layout order b) c)
    (hdigits : ∀ e, layout.findEdge a.node.nodeId condition = some e →
      (viewOf layout order b).Collected ∨ zone e.toNodeId) :
    Onward dialplan world layout order zone (a.take layout condition) b := by
  refine onward_harmless hat hruns (fun _ => offMenus_main hmain) ?_
  intro b' hpos hview hat'
  refine onward_take hflow hcode hnode ?_ (hview ▸ hshows) hat' (hview ▸ hdigits)
  rw [hpos]
  exact hmain

variable {label : String} (hat : CodeAt dialplan b.pos (inlineCode layout a.node label))
  (hdigits : (viewOf layout order b).Collected ∨ zone a.node.nodeId)
include hzone hat hdigits

theorem onward_play {promptKeys : List String} (hconfig : a.node.config = .play promptKeys) :
    Onward dialplan world layout order zone (a.take layout .default) b := by
  rw [inlineCode, hconfig] at hat
  refine onward_runsOn hflow hcode hnode hmain hshows hat ?_ ?_
  · intro c hc
    obtain ⟨key, -, rfl⟩ := List.mem_map.mp hc
    exact runsOn_playback _
  · exact fun e he => hzone.after hnode (by simp [hconfig]) hdigits (findEdge_eq_some he).1

theorem onward_sms {smsTemplateId : String} {targetSource : DigitTargetSource}
    (hconfig : a.node.config = .sms smsTemplateId targetSource) :
    Onward dialplan world layout order zone (a.take layout .default) b := by
  have htemplate : ("__SMART_ARS_SELECTED_SMS_TEMPLATE=" ++ smsTemplateId).toList =
      "__SMART_ARS_SELECTED_SMS_TEMPLATE".toList ++ '=' :: smsTemplateId.toList := by simp
  rw [inlineCode, hconfig] at hat
  refine onward_runsOn hflow hcode hnode hmain hshows hat ?_ ?_
  · intro c hc
    simp only [List.mem_cons, List.not_mem_nil, or_false] at hc
    rcases hc with rfl | rfl
    · exact (harmless_set htemplate (by decide) (by decide) (by decide)).runsOn
        (takesDigits_set htemplate (by decide) (by decide))
    · have hpass {args : String} : Harmless (plainStep "System" args) := harmless_pass (by decide)
      cases targetSource with
      | collected =>
        exact ⟨hpass, fun _ => entitled_of_source hnode (by rw [targetSourceOf, hconfig]) hdigits⟩
      | caller => exact hpass.runsOn takesDigits_callerHook
  · exact fun e he => hzone.after hnode (by simp [hconfig]) hdigits (findEdge_eq_some he).1

theorem onward_optOut {action : OptOutAction} {targetSource : DigitTargetSource}
    (hconfig : a.node.config = .optOut action targetSource) :
    Onward dialplan world layout order zone (a.take layout .default) b := by
  have htarget : ("__OPT_OUT_TARGET_PHONE=" ++ targetNumberExpression targetSource).toList =
      "__OPT_OUT_TARGET_PHONE".toList ++ '=' :: (targetNumberExpression targetSource).toList := by
    simp
  have hother : ∀ {args : String} {name value : Text}, args.toList = name ++ '=' :: value →
      '=' ∉ name ∧ '$' ∉ name ∧ varName name ≠ collectedDigitsVar.toList →
      name ≠ "__OPT_OUT_TARGET_PHONE".toList →
        RunsOn order zone (viewOf layout order b) (plainStep "Set" args) := by
    intro args name value hargs hname hne
    exact (harmless_set hargs hname.1 hname.2.1 hname.2.2).runsOn (takesDigits_set hargs hname.1 hne)
  rw [inlineCode, hconfig] at hat
  refine onward_runsOn hflow hcode hnode hmain hshows hat ?_ ?_
  · intro c hc
    simp only [List.mem_cons, List.not_mem_nil, or_false] at hc
    rcases hc with rfl | rfl | rfl | rfl | rfl | rfl | rfl
    · exact hother (show _ = "__OPT_OUT_TENANT_ID".toList ++ '=' :: (varRef "SMART_ARS_TENANT_ID").toList by simp)
        (by decide) (by decide)
    · exact hother (show _ = "__OPT_OUT_BRANCH_ID".toList ++ '=' :: (varRef "SMART_ARS_BRANCH_ID").toList by simp)
        (by decide) (by decide)
    · exact hother (show _ = "__REQUESTER_PHONE".toList ++ '=' :: callerNumberExpression.toList by simp)
        (by decide) (by decide)
    · have hset := harmless_set htarget (by decide) (by decide) (by decide)
      cases targetSource with
      | collected =>
        exact ⟨hset, fun _ => entitled_of_source hnode (by rw [targetSourceOf, hconfig]) hdigits⟩
      | caller => exact hset.runsOn takesDigits_callerTarget
    · exact hother (show _ = "__OPT_OUT_SOURCE_TYPE".toList ++ '=' :: "ARS_FLOW".toList by simp)
        (by decide) (by decide)
    · exact hother (show _ = "__OPT_OUT_SELECTED_SMS_TEMPLATE".toList ++ '=' :: "-".toList by simp)
        (by decide) (by decide)
    · exact (harmless_pass (by decide)).runsOn (takesDigits_optOutHook _)
  · exact fun e he => hzone.after hnode (by simp [hconfig]) hdigits (findEdge_eq_some he).1

end Inline

/-! ## Nodes with labels of their own -/

/-- The script leaves its result and nothing else. -/
theorem step_lookup {world : Nat → Text → Text} {b : State} {code : Step}
    (hat : stepAt dialplan b.pos = some code) (happ : appOf code.app = .agi)
    (hlabel : code.label = none) {result : LookupResult} {agis : List (List (Text × Text))}
    (hagis : b.caller.agis = result.vars :: agis) (hpos : Unmarked layout order ⟨b.pos, none⟩) :
    ∃ b', step dialplan world b = .inl b' ∧ b'.pos = b.pos.next ∧
      viewOf layout order b' =
        { viewOf layout order b with caller := { b.caller with agis := agis } } ∧
      b'.vars.lookup lookupStatusVar.toList = some result.status.text := by
  have hvisit := viewOf_visit hpos
  have hagi : step dialplan world b = (b.visit code.label).agi := step_agi hat happ
  have hsome : (b.visit none).caller.agis = result.vars :: agis := hagis
  rw [hlabel] at hagi
  simp only [State.agi, hsome] at hagi
  have hfront : result.vars.reverse.lookup collectedDigitsVar.toList = none := by
    simp [LookupResult.vars, lookupStatusVar, lookupValueVar, collectedDigitsVar, List.lookup_cons]
  refine ⟨_, hagi, rfl, ?_, ?_⟩
  · rw [← hvisit]
    exact viewOf_front hfront _ _
  · simp [LookupResult.vars, lookupStatusVar, lookupValueVar, State.advance, List.lookup_cons]

section Labels
variable (hflow : CleanFlow layout order) (hcode : FlowCode dialplan layout order opening)
  (hnode : a.node ∈ order) (hshows : (viewOf layout order b).Shows a) {pos : Pos}
  (hplaced : Placed dialplan layout a.node pos)
include hflow hcode hnode hshows hplaced

/-- A jump to a label of the node, and the edge behind it. -/
theorem onward_label {n : Nat} (hpos : b.pos = pos.after n) {before : List Step} {tail args : String}
    {condition : FlowEdgeCondition}
    (hsplit : labeledCode layout a.node = before ++ labeledStep (layout.labelOf a.node.nodeId ++ tail)
      "NoOp" args :: takeCode layout a.node condition)
    (hbefore : ∀ d ∈ before, d.label ≠ some (layout.labelOf a.node.nodeId ++ tail).toList)
    (htail : tail.toList ≠ [] ∧ tail.toList ≠ "-read".toList ∧ ',' ∉ tail.toList)
    (hdigits : ∀ e, layout.findEdge a.node.nodeId condition = some e →
      (viewOf layout order b).Collected ∨ zone e.toNodeId) :
    ∃ b', b.goto dialplan (layout.labelOf a.node.nodeId ++ tail).toList = .inl b' ∧
      Onward dialplan world layout order zone (a.take layout condition) b' := by
  have hcomma : ',' ∉ (layout.labelOf a.node.nodeId ++ tail).toList := by
    have hlabel : ',' ∉ (layout.labelOf a.node.nodeId).toList :=
      notMem_of_all (hflow.named.labelOf a.node.nodeId) (by decide)
    simp [hlabel, htail.2.2]
  obtain ⟨hgoto, hat⟩ := hplaced.goto hsplit rfl hbefore hcomma hpos
  refine ⟨_, hgoto, ?_⟩
  have hoff : OffMenus layout order (pos.after before.length) := offMenus_main hplaced.context
  have hvisit := viewOf_visit (s := { b with pos := pos.after before.length })
    (hflow.unmarked_suffix hnode hoff htail.1 htail.2.1)
  refine .of_step (safe_of_code hat.1 nofun) (step_pass hat.1 rfl) ?_
  refine onward_take hflow hcode hnode hplaced.context ?_ hat.2 ?_
  · exact hvisit.symm ▸ hshows
  · exact hvisit.symm ▸ hdigits

omit hflow hcode hnode hshows hplaced in
/-- Where the code of a lookup goes on when something is found. -/
theorem lookup_split {node : FlowNode} {endpointId : String} {waitPromptKey : Option String}
    (hconfig : node.config = .httpLookup endpointId waitPromptKey) :
    labeledCode layout node = (labeledStep (layout.labelOf node.nodeId) "NoOp"
        ("ARS node " ++ node.label) :: (playbackCode waitPromptKey ++
      [plainStep "AGI" (arsHttpLookupAgiPath ++ "," ++ endpointId),
        plainStep "GotoIf" ("$[\"" ++ varRef lookupStatusVar ++ "\"=\"MATCH\"]?" ++
          (layout.labelOf node.nodeId ++ "-match"))] ++ takeCode layout node .false)) ++
      labeledStep (layout.labelOf node.nodeId ++ "-match") "NoOp"
        ("ARS lookup matched " ++ varRef lookupValueVar) :: takeCode layout node .true := by
  rw [labeledCode, inlineCode, hconfig]
  simp [lookupCode]

section Lookups
variable (hzone : Zone layout order zone) {endpointId : String} {waitPromptKey : Option String}
  (hconfig : a.node.config = .httpLookup endpointId waitPromptKey)
include hzone hconfig

/-- Behind the script the call goes on by what it found. -/
theorem onward_status
    {n : Nat} (hpos : b.pos = pos.after n) {rest : List Step}
    (hat : CodeAt dialplan b.pos (plainStep "GotoIf" ("$[\"" ++ varRef lookupStatusVar ++
      "\"=\"MATCH\"]?" ++ (layout.labelOf a.node.nodeId ++ "-match")) ::
        (takeCode layout a.node .false ++ rest))) {status : LookupStatus}
    (hstatus : b.vars.lookup lookupStatusVar.toList = some status.text)
    (hdigits : (viewOf layout order b).Collected ∨ zone a.node.nodeId) :
    Onward dialplan world layout order zone
      (a.take layout (if status = .found then .true else .false)) b := by
  have hmain : b.pos.context = layout.mainContext.toList := by
    rw [hpos]
    exact hplaced.context
  have hvisit : viewOf layout order (b.visit none) = viewOf layout order b :=
    viewOf_visit (unmarked_none (offMenus_main hmain))
  have hafter : ∀ {condition e}, layout.findEdge a.node.nodeId condition = some e →
      (viewOf layout order (b.visit none)).Collected ∨ zone e.toNodeId := by
    intro condition e he
    exact hzone.after hnode (by simp [hconfig]) (hvisit ▸ hdigits) (findEdge_eq_some he).1
  have hvalue : valueOf ((b.visit none).lookup world) lookupStatusVar.toList = status.text := by
    rw [valueOf_plain _ (by decide), State.lookup, if_neg (by decide)]
    exact congrArg (Option.getD · _) hstatus
  have hcompare : status.text = "MATCH".toList ↔ status = .found := by
    cases status <;> decide
  have hlabel : ∀ c ∈ (layout.labelOf a.node.nodeId ++ "-match").toList, c ≠ '$' ∧ c ≠ ':' :=
    hflow.labelChars (by decide)
  have hplain := expand_plain ((b.visit none).lookup world)
    (show '$' ∉ (layout.labelOf a.node.nodeId ++ "-match").toList from fun h => (hlabel _ h).1 rfl)
  have hcond : stepAt dialplan b.pos = some ⟨none, "GotoIf".toList,
      (isValue lookupStatusVar "MATCH").toList ++
        '?' :: (layout.labelOf a.node.nodeId ++ "-match").toList⟩ :=
    hat.1.trans (by simp [plainStep, isValue])
  have hstep := step_gotoIf_isValue (s := b) hcond (by decide) (by decide) (by decide)
    (by rw [hvalue]; cases status <;> decide) (by rw [hplain]; simp)
    (by rw [hplain]; exact fun h => (hlabel _ h).2 rfl)
  simp only [hvalue, hcompare, hplain] at hstep
  have hsafe : Safe dialplan layout order zone b := safe_of_code hat.1 (by rintro ⟨⟩)
  cases hfound : decide (status = LookupStatus.found) with
  | false =>
    rw [if_neg (of_decide_eq_false hfound)] at hstep ⊢
    refine .of_step hsafe hstep ?_
    exact onward_take (b := (b.visit none).advance) hflow hcode hnode hmain (hvisit.symm ▸ hshows)
      (codeAt_append.mp hat.2).1 (fun e he => hafter he)
  | true =>
    rw [if_pos (of_decide_eq_true hfound)] at hstep ⊢
    have hfront : ∀ d ∈ labeledStep (layout.labelOf a.node.nodeId) "NoOp" ("ARS node " ++
        a.node.label) :: (playbackCode waitPromptKey ++
        [plainStep "AGI" (arsHttpLookupAgiPath ++ "," ++ endpointId),
          plainStep "GotoIf" ("$[\"" ++ varRef lookupStatusVar ++ "\"=\"MATCH\"]?" ++
            (layout.labelOf a.node.nodeId ++ "-match"))] ++ takeCode layout a.node .false),
        d.label = none ∨ ∃ other : String,
          d.label = some (layout.labelOf a.node.nodeId ++ other).toList ∧
            other.toList ≠ "-match".toList := by
      intro d hd
      rcases List.mem_cons.mp hd with rfl | hd
      · exact .inr ⟨"", by simp [labeledStep], by decide⟩
      · simp only [List.mem_append, List.mem_cons, List.not_mem_nil, or_false] at hd
        rcases hd with (hd | rfl | rfl) | hd
        · obtain ⟨key, rfl⟩ := plays_playbackCode hd
          exact .inl rfl
        · exact .inl rfl
        · exact .inl rfl
        · exact .inl ((hflow.plainBody_take hnode .false).1 d hd).2
    obtain ⟨b', hgoto, honward⟩ := onward_label (b := b.visit none) hflow hcode hnode
      (hvisit.symm ▸ hshows) hplaced hpos (lookup_split hconfig) (label_front hfront) (by decide)
      (fun e he => hafter he)
    exact .of_step hsafe (hstep.trans hgoto) honward

theorem onward_lookup (hpos : b.pos = pos.next)
    (hdigits : (viewOf layout order b).Collected ∨ zone a.node.nodeId) :
    Onward dialplan world layout order zone
      (match a.behaviour.lookups with
        | [] => a.finish .gone
        | result :: lookups =>
          { a with behaviour := { a.behaviour with lookups := lookups } }.take layout
            (if result.status = LookupStatus.found then .true else .false)) b := by
  have hmain : b.pos.context = layout.mainContext.toList := by
    rw [hpos]
    exact hplaced.context
  have hat := hplaced.code.2
  rw [inlineCode, hconfig, ← hpos] at hat
  simp only [lookupCode, List.append_assoc] at hat
  refine onward_harmless hat (fun c hc => runsOn_playbackCode hc) (fun _ => offMenus_main hmain) ?_
  intro b₁ hpos₁ hview₁ hat₁
  have hcaller : b₁.caller = a.behaviour.caller := (congrArg View.caller hview₁).trans hshows.caller
  have hcontext : b₁.pos.context = layout.mainContext.toList := by
    rw [hpos₁]
    exact hmain
  have hvisit : viewOf layout order (b₁.visit none) = viewOf layout order b₁ :=
    viewOf_visit (unmarked_none (offMenus_main hcontext))
  have hagi : step dialplan world b₁ = (b₁.visit none).agi := step_agi hat₁.1 rfl
  cases hlookups : a.behaviour.lookups with
  | nil =>
    have hnone : (b₁.visit none).caller.agis = [] := by
      show b₁.caller.agis = []
      rw [hcaller, Behaviour.caller, hlookups]
      rfl
    refine .result (safe_of_code hat₁.1 (by rintro ⟨⟩))
      (hagi.trans (by simp only [State.agi, hnone]; rfl)) ⟨rfl, ?_⟩
    exact (congrArg View.visited (hvisit.trans hview₁)).trans hshows.visited
  | cons result lookups =>
    have hagis : b₁.caller.agis = result.vars :: lookups.map LookupResult.vars := by
      rw [hcaller, Behaviour.caller, hlookups]
      rfl
    obtain ⟨b₂, hstep, hpos₂, hview₂, hstatus⟩ :=
      step_lookup hat₁.1 rfl rfl hagis (unmarked_none (offMenus_main hcontext))
    rw [hview₁] at hview₂
    refine .of_step (safe_of_code hat₁.1 (by rintro ⟨⟩)) hstep ?_
    refine onward_status
      (a := { a with behaviour := { a.behaviour with lookups := lookups } }) hflow hcode hnode ?_
      hplaced hzone hconfig (n := (playbackCode waitPromptKey).length + 2) ?_ (hpos₂ ▸ hat₁.2)
      hstatus ?_
    · rw [hview₂]
      exact ⟨by rw [hcaller]; rfl, hshows.visited⟩
    · rw [hpos₂, hpos₁, hpos]
      simp only [Pos.next, Pos.after, Pos.mk.injEq, true_and]
      omega
    · rw [hview₂]
      exact hdigits

end Lookups

end Labels

end KasterCti.ArsFlow
