import KasterCti.ArsFlow.CollectNodes

/-!
# Menus

A menu has a context of its own. It plays its prompt and waits for a key; the key is an
extension of the context, one for every digit edge. A caller who presses nothing hears the
prompt again, as often as the node says, with the tries counted in a variable of the
channel. The induction is over the tries that are left.
-/

namespace KasterCti.ArsFlow

open Dialplan Machine Renderers

/-! ## Extensions -/

theorem blockOf_code {exten : String} {code : List Step} (h : code ≠ []) :
    (blockOf exten code).code = code := by
  obtain ⟨c, rest, rfl⟩ := List.exists_cons_of_ne_nil h
  rfl

/-- Keys are the name of an extension, not a pattern. -/
theorem patternOf_keys {keys : Text} (h : keys.all isKey = true) : patternOf keys = none := by
  cases keys with
  | nil => rfl
  | cons c keys =>
    have hc : c ≠ '_' := by
      rintro rfl
      exact absurd h (by simp [isKey, isDigit])
    unfold patternOf
    split
    · rename_i heq
      exact absurd (List.cons.inj heq).1 hc
    · rfl

/-- The place in front of the code of an extension of a menu. -/
def menuPlace (layout : Layout) (node : FlowNode) (exten : Text) : Pos :=
  ⟨(layout.menuContextOf node.nodeId).toList, exten, 1⟩

section Extensions
variable {dialplan : List Entry} {layout : Layout} {order : List FlowNode} {opening : List Step}
  (hflow : CleanFlow layout order) (hcode : FlowCode dialplan layout order opening)
  {node : FlowNode} (hnode : node ∈ order) {config : MenuConfig} (hconfig : node.config = .menu config)
include hcode hnode hconfig

omit hcode hnode in
theorem isMenu_of_config : node.isMenu = true := by
  simp [FlowNode.isMenu, FlowNode.nodeType, NodeConfig.nodeType, hconfig]

/-- A block of the menu is code of its context. -/
theorem menu_block {exten : String} {code : List Step} (hcodes : code ≠ [])
    (hblock : blockOf exten code ∈ (menuSection layout node config).blocks) :
    HasCode dialplan (layout.menuContextOf node.nodeId).toList exten.toList code := by
  have hmenu := isMenu_of_config hconfig
  have hsection : menuSectionOf layout node = menuSection layout node config := by
    rw [menuSectionOf, hconfig]
  have hhas := hcode.menu node hnode hmenu (blockOf exten code) (hsection ▸ hblock)
  rwa [blockOf_code hcodes] at hhas

/-- What the menu says first. -/
theorem menu_entry :
    CodeAt dialplan (menuPlace layout node "s".toList)
      (menuEntryCode node config (layout.menuContextOf node.nodeId)) ∧
    ∀ before c after label, menuEntryCode node config (layout.menuContextOf node.nodeId) =
        before ++ c :: after → c.label = some label → (∀ d ∈ before, d.label ≠ some label) →
      isNumber label = false →
      jumpTo dialplan (layout.menuContextOf node.nodeId).toList "s".toList label =
        .to ((menuPlace layout node "s".toList).after before.length) := by
  have hhas : HasCode dialplan (layout.menuContextOf node.nodeId).toList "s".toList
      (menuEntryCode node config (layout.menuContextOf node.nodeId)) :=
    menu_block hcode hnode hconfig (List.cons_ne_nil _ _) (by simp [menuSection])
  refine ⟨hhas.codeAt_first (by decide), ?_⟩
  intro before c after label hsplit hlabel hbefore hnumber
  have hfind : (menuEntryCode node config (layout.menuContextOf node.nodeId)).findIdx?
      (fun c => c.label = some label) = some before.length := by
    rw [hsplit]
    exact findIdx?_first hlabel hbefore
  rw [hhas.jumpTo (by decide) hnumber hfind, menuPlace, Pos.after, Nat.add_comm]

include hflow

/-- What the menu does after a timeout. -/
theorem menu_timeout :
    CodeAt dialplan (menuPlace layout node "t".toList)
      (timeoutCode layout node config (layout.menuContextOf node.nodeId)) := by
  have hhas : HasCode dialplan (layout.menuContextOf node.nodeId).toList "t".toList
      (timeoutCode layout node config (layout.menuContextOf node.nodeId)) :=
    menu_block hcode hnode hconfig
      (hflow.plainBody_timeout hnode config (layout.menuContextOf node.nodeId)).2
      (by simp [menuSection])
  exact hhas.codeAt_first (by decide)

/-- A digit edge is the code of its digit. -/
theorem menu_digit {keys : Text} {edge : FlowEdge}
    (hedge : FlowState.digitEdge layout node.nodeId keys = some edge) :
    edge ∈ layout.outgoing node.nodeId ∧
      HasCode dialplan (layout.menuContextOf node.nodeId).toList keys
        (edgeCode layout (some edge)) := by
  have hmem := List.mem_of_find?_eq_some hedge
  have hpicked := List.find?_some hedge
  simp only [Bool.and_eq_true, decide_eq_true_eq, Option.map_eq_some_iff] at hpicked
  obtain ⟨hcondition, digit, hdigit, rfl⟩ := hpicked
  refine ⟨hmem, menu_block hcode hnode hconfig
    (hflow.plainBody_edge hnode (by rintro e ⟨⟩; exact hmem)).2 ?_⟩
  have hblock : digitBlock layout edge = some (blockOf digit (edgeCode layout (some edge))) := by
    rw [digitBlock, hcondition, hdigit]
  simp only [menuSection, List.mem_append, List.mem_filterMap]
  exact .inl (.inl (.inr ⟨edge, hmem, hblock⟩))

/-- The numbers that reach an extension of the menu. -/
theorem menu_reached {dialled name : Text}
    (h : extenFor dialplan (layout.menuContextOf node.nodeId).toList dialled = some name) :
    dialled = "s".toList ∨ dialled = "t".toList ∨
      (dialled = "i".toList ∧ layout.findEdge node.nodeId .invalid ≠ none) ∨
      FlowState.digitEdge layout node.nodeId dialled ≠ none := by
  obtain ⟨hin, hmatch⟩ := bestExten_some h
  have hmenu := isMenu_of_config hconfig
  have hexten := hcode.extens node hnode hmenu name hin
  have hself : ∀ other : Text, patternOf other = none → name = other → dialled = other := by
    rintro other hlit rfl
    simpa [matchesExten, hlit, eq_comm] using hmatch
  rw [menuSectionOf, hconfig, menuSection_extens] at hexten
  simp only [List.cons_append, List.mem_cons, List.mem_append] at hexten
  rcases hexten with hexten | hexten | hexten | hexten
  · exact .inl (hself _ (by decide) hexten)
  · obtain ⟨block, hblock, rfl⟩ := List.mem_map.mp hexten
    obtain ⟨edge, hmem, hblock⟩ := List.mem_filterMap.mp hblock
    obtain ⟨digit, hcondition, hdigit, rfl⟩ := digitBlock_exten hblock
    have hdigits := hflow.digit hnode hmenu hmem hcondition hdigit
    obtain rfl : dialled = digit.toList := hself _ (patternOf_keys hdigits) rfl
    refine .inr (.inr (.inr (fun hedge => ?_)))
    exact absurd (List.find?_eq_none.mp hedge edge hmem) (by simp [hcondition, hdigit])
  · exact .inr (.inl (hself _ (by decide) hexten))
  · unfold invalidBlocks at hexten
    split at hexten
    · rename_i edge hedge
      rw [List.map_singleton, List.mem_singleton] at hexten
      exact .inr (.inr (.inl ⟨hself _ (show patternOf "i".toList = none by decide) hexten, by simp [hedge]⟩))
    · cases hexten

/-- Keys reach the extension of their digit edge, and no other one. -/
theorem menu_extenFor {keys : Text} (hkeys : keys.all isKey = true) :
    (extenFor dialplan (layout.menuContextOf node.nodeId).toList keys).isSome =
      (FlowState.digitEdge layout node.nodeId keys).isSome := by
  cases hedge : FlowState.digitEdge layout node.nodeId keys with
  | some edge =>
    obtain ⟨hmem, hhas⟩ := menu_digit hflow hcode hnode hconfig hedge
    rw [hhas.extenFor (hflow.plainBody_edge hnode (by rintro e ⟨⟩; exact hmem)).2
      (patternOf_keys hkeys)]
    rfl
  | none =>
    cases hfor : extenFor dialplan (layout.menuContextOf node.nodeId).toList keys with
    | none => rfl
    | some name =>
      rcases menu_reached hflow hcode hnode hconfig hfor with h | h | ⟨h, -⟩ | h
      · exact absurd h (ne_of_keys hkeys (by decide))
      · exact absurd h (ne_of_keys hkeys (by decide))
      · exact absurd h (ne_of_keys hkeys (by decide))
      · exact absurd hedge h

/-- Without an edge for invalid keys nothing stands there. -/
theorem menu_invalid_none (h : layout.findEdge node.nodeId .invalid = none) :
    stepAt dialplan (menuPlace layout node "i".toList) = none := by
  have hdigit : FlowState.digitEdge layout node.nodeId "i".toList = none := by
    cases hedge : FlowState.digitEdge layout node.nodeId "i".toList with
    | none => rfl
    | some edge =>
      have hpicked := List.find?_some hedge
      simp only [Bool.and_eq_true, decide_eq_true_eq, Option.map_eq_some_iff] at hpicked
      obtain ⟨hcondition, digit, hdigit, hkeys⟩ := hpicked
      have hdigits := hflow.digit hnode (isMenu_of_config hconfig) (List.mem_of_find?_eq_some hedge)
        hcondition hdigit
      rw [hkeys] at hdigits
      cases hdigits
  have hfor : extenFor dialplan (layout.menuContextOf node.nodeId).toList "i".toList = none := by
    cases hfor : extenFor dialplan (layout.menuContextOf node.nodeId).toList "i".toList with
    | none => rfl
    | some name =>
      rcases menu_reached hflow hcode hnode hconfig hfor with hsame | hsame | ⟨-, hne⟩ | hne
      · exact absurd hsame (by decide)
      · exact absurd hsame (by decide)
      · exact absurd h hne
      · exact absurd hdigit hne
  rw [stepAt, menuPlace, hfor]

/-- The edge for invalid keys stands there. -/
theorem menu_invalid_some {edge : FlowEdge}
    (h : layout.findEdge node.nodeId .invalid = some edge) :
    CodeAt dialplan (menuPlace layout node "i".toList) (edgeCode layout (some edge)) := by
  have hhas : HasCode dialplan (layout.menuContextOf node.nodeId).toList "i".toList
      (edgeCode layout (some edge)) :=
    menu_block hcode hnode hconfig
      (hflow.plainBody_edge hnode (by rintro e ⟨⟩; exact (findEdge_eq_some h).1)).2
      (by simp [menuSection, invalidBlocks, h])
  exact hhas.codeAt_first (by decide)

end Extensions

/-! ## Waiting for a key -/

/-- The menu asks again after a timeout. -/
def MenuConfig.asksAgain (config : MenuConfig) : Bool :=
  config.maxRetries > 0 && (given config.promptKey).isSome

/-- The code of a menu in front of where it waits. -/
def menuFront (node : FlowNode) (config : MenuConfig) (contextName : String) : List Step :=
  [plainStep "NoOp" ("ARS menu " ++ node.label)] ++ counterCode config contextName ++
    promptCode config

/-- Where the menu waits. -/
def waitPlace (layout : Layout) (node : FlowNode) (config : MenuConfig) : Pos :=
  (menuPlace layout node "s".toList).after
    (menuFront node config (layout.menuContextOf node.nodeId)).length

/-- The call at another extension of the menu, with what is left to be typed. -/
def heard (layout : Layout) (node : FlowNode) (b : State) (extens : List (Option Typed))
    (exten : Text) : State :=
  { b.visit none with
    pos := menuPlace layout node exten
    caller := { b.caller with extens := extens } }

/-- A place without code ends the call. -/
theorem onward_nothing {dialplan : List Entry} {world : Nat → Text → Text} {layout : Layout}
    {order : List FlowNode} {zone : String → Prop} {a : FlowState} {b : State}
    (hat : stepAt dialplan b.pos = none) (hshows : (viewOf layout order b).Shows a) :
    Onward dialplan world layout order zone (a.finish .hangup) b := by
  have hsafe : Safe dialplan layout order zone b := by
    intro code hcode
    rw [hat] at hcode
    cases hcode
  have hstep : step dialplan world b = b.finish .hungUp := by rw [step, hat]
  exact .result hsafe hstep ⟨rfl, hshows.visited⟩

variable {dialplan : List Entry} {world : Nat → Text → Text} {layout : Layout}
  {order : List FlowNode} {opening : List Step} {zone : String → Prop} {a : FlowState} {b : State}

section Waiting
variable {config : MenuConfig} (hpos : b.pos = waitPlace layout a.node config)
include hpos

theorem wait_off : viewOf layout order (b.visit none) = viewOf layout order b := by
  refine viewOf_visit (unmarked_none (offMenus_priority ?_))
  rw [hpos]
  simp [waitPlace, menuPlace, Pos.after, menuFront]

theorem viewOf_heard (extens : List (Option Typed)) (exten : Text) :
    viewOf layout order (heard layout a.node b extens exten) =
      { viewOf layout order b with caller := { b.caller with extens := extens } } := by
  rw [← wait_off hpos]
  rfl

theorem heard_shows (hshows : (viewOf layout order b).Shows a) (extens : List (Option Typed))
    (exten : Text) : (viewOf layout order (heard layout a.node b extens exten)).Shows
      { a with behaviour := { a.behaviour with extens := extens } } := by
  rw [viewOf_heard hpos]
  exact ⟨congrArg (fun c : Caller => { c with extens := extens }) hshows.caller, hshows.visited⟩

theorem goto_exten (extens : List (Option Typed)) {exten : Text} (hcomma : ',' ∉ exten) :
    State.goto dialplan { b.visit none with caller := { b.caller with extens := extens } }
      (exten ++ ',' :: ['1']) = .inl (heard layout a.node b extens exten) := by
  rw [State.goto, resolve_exten hcomma (by decide), jumpTo_one,
    show (b.visit none).pos = b.pos from rfl, hpos]
  rfl

variable (hflow : CleanFlow layout order) (hcode : FlowCode dialplan layout order opening)
  (hnode : a.node ∈ order) (hconfig : a.node.config = .menu config)
include hcode hnode hconfig

theorem wait_at : stepAt dialplan b.pos =
    some (plainStep "WaitExten" (toString config.timeoutSeconds)) := by
  have hall := (menu_entry hcode hnode hconfig).1
  rw [hpos]
  exact (codeAt_append.mp hall).2.1

theorem wait_safe : Safe dialplan layout order zone b :=
  safe_of_code (wait_at hpos hcode hnode hconfig) nofun

theorem onward_alone (hshows : (viewOf layout order b).Shows a) (hextens : a.behaviour.extens = []) :
    Onward dialplan world layout order zone (a.finish .gone) b := by
  have hcaller : (b.visit none).caller.extens = [] :=
    (congrArg Caller.extens hshows.caller).trans hextens
  have hstep : step dialplan world b = (b.visit none).waitExten dialplan :=
    step_waitExten (wait_at hpos hcode hnode hconfig) rfl
  rw [State.waitExten, hcaller] at hstep
  exact .result (wait_safe hpos hcode hnode hconfig) hstep
    ⟨rfl, (congrArg View.visited (wait_off hpos)).trans hshows.visited⟩

/-- After a timeout the call is at the code for it. -/
theorem step_wait_timeout {extens : List (Option Typed)} (hextens : b.caller.extens = none :: extens) :
    step dialplan world b = .inl (heard layout a.node b extens "t".toList) := by
  have hcaller : (b.visit none).caller.extens = none :: extens := hextens
  have hstep : step dialplan world b = (b.visit none).waitExten dialplan :=
    step_waitExten (wait_at hpos hcode hnode hconfig) rfl
  rw [State.waitExten, hcaller] at hstep
  exact hstep.trans (goto_exten hpos extens (show ',' ∉ "t".toList by decide))

include hflow

/-- A key leads to its extension, any other key to the one for invalid keys. -/
theorem step_wait_typed {typed : Typed} {extens : List (Option Typed)}
    (hextens : b.caller.extens = some typed :: extens) :
    step dialplan world b = .inl (heard layout a.node b extens
      (if (FlowState.digitEdge layout a.node.nodeId typed.keys).isSome then typed.keys
        else "i".toList)) := by
  have hcaller : (b.visit none).caller.extens = some typed :: extens := hextens
  have hcontext : (b.visit none).pos.context = (layout.menuContextOf a.node.nodeId).toList := by
    rw [show (b.visit none).pos = b.pos from rfl, hpos]
    rfl
  have hstep : step dialplan world b = (b.visit none).waitExten dialplan :=
    step_waitExten (wait_at hpos hcode hnode hconfig) rfl
  rw [State.waitExten, hcaller] at hstep
  simp only [hcontext, menu_extenFor hflow hcode hnode hconfig typed.valid.2] at hstep
  rw [hstep]
  split
  · rfl
  · exact goto_exten hpos extens (show ',' ∉ "i".toList by decide)

/-- A key takes its edge, any other key the edge for invalid ones. -/
theorem onward_typed (hzone : Zone layout order zone) (hshows : (viewOf layout order b).Shows a)
    (hdigits : (viewOf layout order b).Collected ∨ zone a.node.nodeId) {typed : Typed}
    {extens : List (Option Typed)} (hextens : a.behaviour.extens = some typed :: extens) :
    Onward dialplan world layout order zone
      ({ a with behaviour := { a.behaviour with extens := extens } }.takeTyped layout typed.keys) b := by
  have hcaller : b.caller.extens = some typed :: extens :=
    (congrArg Caller.extens hshows.caller).trans hextens
  have hstep : step dialplan world b = _ := step_wait_typed hpos hflow hcode hnode hconfig hcaller
  have hshows' := heard_shows hpos hshows extens
  have hafter : ∀ exten, ∀ e ∈ layout.outgoing a.node.nodeId,
      (viewOf layout order (heard layout a.node b extens exten)).Collected ∨ zone e.toNodeId := by
    intro exten e he
    rw [viewOf_heard hpos]
    exact hzone.after hnode (by simp [hconfig]) hdigits he
  have hoff : ∀ {exten : Text}, exten ≠ "s".toList →
      ∀ i, OffMenus layout order ((heard layout a.node b extens exten).pos.after i) :=
    fun hne _ => offMenus_exten hne
  refine .of_step (wait_safe hpos hcode hnode hconfig) hstep ?_
  cases hedge : FlowState.digitEdge layout a.node.nodeId typed.keys with
  | some edge =>
    obtain ⟨hmem, hhas⟩ := menu_digit hflow hcode hnode hconfig hedge
    have hat := hhas.codeAt_first (patternOf_keys typed.valid.2)
    rw [FlowState.takeTyped, hedge]
    exact onward_follow hflow hcode hnode (by rintro e ⟨⟩; exact hmem) hat
      (hoff (ne_of_keys typed.valid.2 (by decide))) (hshows' _)
      (by rintro e ⟨⟩; exact hafter _ _ hmem)
  | none =>
    rw [FlowState.takeTyped, hedge]
    cases hinvalid : layout.findEdge a.node.nodeId .invalid with
    | some edge =>
      have hmem := (findEdge_eq_some hinvalid).1
      have hat := menu_invalid_some hflow hcode hnode hconfig hinvalid
      simp only [FlowState.take, hinvalid]
      exact onward_follow hflow hcode hnode (by rintro e ⟨⟩; exact hmem) hat
        (hoff (show "i".toList ≠ "s".toList by decide)) (hshows' _)
        (by rintro e ⟨⟩; exact hafter _ _ hmem)
    | none =>
      have hnone := menu_invalid_none hflow hcode hnode hconfig hinvalid
      simp only [FlowState.take, hinvalid]
      exact onward_nothing hnone (hshows' _)

end Waiting

/-! ## Prompts -/

/-- What the prompts that are left come to on the graph. -/
def FlowState.ask (layout : Layout) (retries : Nat) (a : FlowState) : FlowState ⊕ FlowResult :=
  match askMenu retries a.behaviour.extens with
  | none => a.finish .gone
  | some (typed, extens) =>
    match typed with
    | some typed =>
      { a with behaviour := { a.behaviour with extens := extens } }.takeTyped layout typed.keys
    | none => { a with behaviour := { a.behaviour with extens := extens } }.take layout .timeout

section Prompts
variable {config : MenuConfig} (hflow : CleanFlow layout order)
  (hcode : FlowCode dialplan layout order opening) (hnode : a.node ∈ order)
  (hconfig : a.node.config = .menu config)

/-- Where the prompt of the menu stands. -/
def promptPlace (layout : Layout) (node : FlowNode) (config : MenuConfig) : Pos :=
  (menuPlace layout node "s".toList).after
    (1 + (counterCode config (layout.menuContextOf node.nodeId)).length)

theorem promptPlace_after {node : FlowNode} :
    (promptPlace layout node config).after (promptCode config).length =
      waitPlace layout node config := by
  simp only [promptPlace, waitPlace, menuFront, Pos.after, List.length_append, List.length_cons,
    List.length_nil, Pos.mk.injEq, true_and]
  omega

include hcode hnode hconfig in
theorem prompt_code : CodeAt dialplan (promptPlace layout a.node config) (promptCode config) := by
  have hall := (menu_entry hcode hnode hconfig).1
  rw [menuEntryCode, List.append_assoc, codeAt_append] at hall
  have hat := (codeAt_append.mp hall.2).1
  rwa [List.length_append, List.length_singleton] at hat

include hcode hnode hconfig in
/-- The label of the prompt leads to it. -/
theorem prompt_jump (hagain : config.asksAgain = true) :
    jumpTo dialplan (layout.menuContextOf a.node.nodeId).toList "s".toList "prompt".toList =
      .to (promptPlace layout a.node config) := by
  simp only [MenuConfig.asksAgain, gt_iff_lt, Bool.and_eq_true, decide_eq_true_eq] at hagain
  obtain ⟨hmany, hsome⟩ := hagain
  obtain ⟨key, hkey⟩ := Option.isSome_iff_exists.mp hsome
  have hprompt : promptCode config = [labeledStep "prompt" "Background" (playbackPath key)] := by
    rw [promptCode, hkey]
    simp only [gt_iff_lt, if_pos hmany]
  have hsplit : menuEntryCode a.node config (layout.menuContextOf a.node.nodeId) =
      ([plainStep "NoOp" ("ARS menu " ++ a.node.label)] ++
        counterCode config (layout.menuContextOf a.node.nodeId)) ++
        labeledStep "prompt" "Background" (playbackPath key) ::
          [plainStep "WaitExten" (toString config.timeoutSeconds)] := by
    rw [menuEntryCode, hprompt, List.append_assoc]
    rfl
  have hjump := (menu_entry hcode hnode hconfig).2 _ _ _ "prompt".toList hsplit rfl ?_ (by decide)
  · rw [hjump, List.length_append]
    rfl
  · intro d hd
    rcases List.mem_append.mp hd with hd | hd
    · rw [List.mem_singleton.mp hd]
      rintro ⟨⟩
    · rw [counterCode, if_pos hmany] at hd
      rw [List.mem_singleton.mp hd]
      rintro ⟨⟩

include hflow hcode hnode hconfig

/-- The prompt runs on to where the menu waits. -/
theorem onward_prompt (hpos : b.pos = promptPlace layout a.node config)
    {x : FlowState ⊕ FlowResult} (hwait : ∀ b', b'.pos = waitPlace layout a.node config →
      b'.vars = b.vars → viewOf layout order b' = viewOf layout order b →
      Onward dialplan world layout order zone x b') :
    Onward dialplan world layout order zone x b := by
  have hat := prompt_code hcode hnode hconfig
  have hafter : (promptPlace layout a.node config).after (promptCode config).length =
      waitPlace layout a.node config := promptPlace_after
  rw [← hpos] at hat hafter
  cases hprompt : given config.promptKey with
  | none =>
    have hnil : promptCode config = [] := by rw [promptCode, hprompt]
    rw [hnil] at hafter
    exact hwait b hafter rfl rfl
  | some key =>
    have hone : promptCode config = [if config.maxRetries > 0 then
        labeledStep "prompt" "Background" (playbackPath key)
      else plainStep "Background" (playbackPath key)] := by rw [promptCode, hprompt]
    rw [hone] at hat hafter
    have hoff : OffMenus layout order b.pos := by
      refine offMenus_priority ?_
      rw [hpos]
      simp [promptPlace, menuPlace, Pos.after]
    have happ : ∀ c ∈ [if config.maxRetries > 0 then
        labeledStep "prompt" "Background" (playbackPath key)
      else plainStep "Background" (playbackPath key)],
        appOf c.app = .pass ∧ takesDigits c = false ∧
          viewOf layout order (b.visit c.label) = viewOf layout order b := by
      have hpass : appOf "Background".toList = .pass := by decide
      have hother : "Background".toList ≠ "System".toList ∧ "Background".toList ≠ "Set".toList := by
        decide
      intro c hc
      rw [List.mem_singleton.mp hc]
      split
      · exact ⟨hpass, takesDigits_app hother, viewOf_visit (hflow.unmarked_prompt hoff)⟩
      · exact ⟨hpass, takesDigits_app hother, viewOf_visit (unmarked_none hoff)⟩
    obtain ⟨hpass, htakes, hvisit⟩ := happ _ (List.mem_singleton_self _)
    refine .of_step (safe_of_code hat.1 (by rw [htakes]; rintro ⟨⟩)) (step_pass hat.1 hpass) ?_
    exact hwait _ hafter rfl hvisit

/-- The edge of a timeout. -/
theorem onward_timeout_edge (hzone : Zone layout order zone) (hexten : b.pos.exten = "t".toList)
    (hat : CodeAt dialplan b.pos (takeCode layout a.node .timeout))
    (hshows : (viewOf layout order b).Shows a)
    (hdigits : (viewOf layout order b).Collected ∨ zone a.node.nodeId) :
    Onward dialplan world layout order zone (a.take layout .timeout) b := by
  refine onward_follow hflow hcode hnode (fun _ he => (findEdge_eq_some he).1) hat ?_ hshows ?_
  · intro i
    refine offMenus_exten ?_
    rw [show (b.pos.after i).exten = b.pos.exten from rfl, hexten]
    decide
  · exact fun e he => hzone.after hnode (by simp [hconfig]) hdigits (findEdge_eq_some he).1

omit hflow in
/-- A timeout is counted, and the menu asks again or not. -/
theorem onward_counted (hagain : config.asksAgain = true)
    (hpos : b.pos = menuPlace layout a.node "t".toList) {k : Nat}
    (hcount : b.vars.lookup (menuCounter (layout.menuContextOf a.node.nodeId)).toList = some (natText k))
    (hcodes : CodeAt dialplan (menuPlace layout a.node "t".toList)
      (timeoutCode layout a.node config (layout.menuContextOf a.node.nodeId)))
    {x : FlowState ⊕ FlowResult}
    (hprompt : k + 1 ≤ config.maxRetries → ∀ b', b'.pos = promptPlace layout a.node config →
      b'.vars.lookup (menuCounter (layout.menuContextOf a.node.nodeId)).toList = some (natText (k + 1)) →
      viewOf layout order b' = viewOf layout order b → Onward dialplan world layout order zone x b')
    (hedge : ¬ k + 1 ≤ config.maxRetries → ∀ b',
      b'.pos = (menuPlace layout a.node "t".toList).after 2 →
      viewOf layout order b' = viewOf layout order b → CodeAt dialplan b'.pos (takeCode layout a.node .timeout) →
      Onward dialplan world layout order zone x b') :
    Onward dialplan world layout order zone x b := by
  have hname := counterName_menu (layout.menuContextOf a.node.nodeId)
  rw [timeoutCode, if_pos (show (config.maxRetries > 0 && (given config.promptKey).isSome) = true
    from hagain), ← hpos] at hcodes
  obtain ⟨hcounts, hagains, hrest⟩ := hcodes
  have hoff : ∀ {b : State}, b.pos.exten = "t".toList → OffMenus layout order b.pos := by
    intro b hexten
    refine offMenus_exten ?_
    rw [hexten]
    decide
  have hexten : b.pos.exten = "t".toList := by
    rw [hpos]
    rfl
  obtain ⟨b₁, hstep₁, hpos₁, hvars₁, hview₁⟩ :=
    step_count (w := world) hname hcounts hcount (hoff hexten)
  have hcount₁ : b₁.vars.lookup (menuCounter (layout.menuContextOf a.node.nodeId)).toList =
      some (natText (k + 1)) := by
    rw [hvars₁, List.lookup_cons_self]
  have hdest : "]?s,prompt" = "]?" ++ "s,prompt" := by decide
  rw [← hpos₁, hdest, ← String.append_assoc] at hagains
  have hstep₂ := step_again (w := world) hname hagains (by decide) hcount₁
  have hexten₁ : b₁.pos.exten = "t".toList := by
    rw [hpos₁]
    exact hexten
  have hvisit : viewOf layout order (b₁.visit none) = viewOf layout order b :=
    (viewOf_visit (unmarked_none (hoff hexten₁))).trans hview₁
  refine .of_step (safe_of_code hcounts ?_) hstep₁ ?_
  · rw [hname.takesDigits (countStep_args _)]
    rintro ⟨⟩
  cases hmore : decide (k + 1 ≤ config.maxRetries) with
  | false =>
    have hmore := of_decide_eq_false hmore
    rw [if_neg hmore] at hstep₂
    refine .of_step (safe_of_code hagains (by rintro ⟨⟩)) hstep₂ (hedge hmore _ ?_ hvisit ?_)
    · rw [show (b₁.visit none).advance.pos = b₁.pos.next from rfl, hpos₁, hpos]
      rfl
    · rw [← hpos₁] at hrest
      exact hrest
  | true =>
    have hmore := of_decide_eq_true hmore
    have hcontext : (b₁.visit none).pos.context = (layout.menuContextOf a.node.nodeId).toList := by
      rw [show (b₁.visit none).pos = b₁.pos from rfl, hpos₁, hpos]
      rfl
    have hgoto : (b₁.visit none).goto dialplan "s,prompt".toList =
        .inl { b₁.visit none with pos := promptPlace layout a.node config } := by
      rw [State.goto, show "s,prompt".toList = "s".toList ++ ',' :: "prompt".toList by decide,
        resolve_exten (by decide) (by decide), hcontext, prompt_jump hcode hnode hconfig hagain]
    rw [if_pos hmore, hgoto] at hstep₂
    refine .of_step (safe_of_code hagains (by rintro ⟨⟩)) hstep₂ (hprompt hmore _ rfl hcount₁ hvisit)

variable (hzone : Zone layout order zone) (hshows : (viewOf layout order b).Shows a)
  (hdigits : (viewOf layout order b).Collected ∨ zone a.node.nodeId)

include hzone hshows hdigits

/-- The last timeout takes its edge. -/
theorem onward_last (hpos : b.pos = menuPlace layout a.node "t".toList) {k : Nat}
    (hlast : config.asksAgain = false ∨ config.maxRetries ≤ k ∧ config.asksAgain = true ∧
      b.vars.lookup (menuCounter (layout.menuContextOf a.node.nodeId)).toList = some (natText k)) :
    Onward dialplan world layout order zone (a.take layout .timeout) b := by
  have hcodes := menu_timeout hflow hcode hnode hconfig
  rcases hlast with honce | ⟨hmax, hagain, hcount⟩
  · rw [timeoutCode, if_neg (by rw [← Bool.not_eq_true] at honce; exact honce), ← hpos] at hcodes
    exact onward_timeout_edge hflow hcode hnode hconfig hzone (by rw [hpos]; rfl) hcodes hshows hdigits
  · refine onward_counted hcode hnode hconfig hagain hpos hcount hcodes ?_ ?_
    · exact fun hmore => absurd hmore (Nat.not_le.mpr (Nat.lt_succ_of_le hmax))
    · intro _ b' hpos' hview hat
      refine onward_timeout_edge hflow hcode hnode hconfig hzone (by rw [hpos']; rfl) hat ?_ ?_
      · exact hview.symm ▸ hshows
      · exact hview.symm ▸ hdigits

/-- The prompts that are left, from where the menu waits. -/
theorem onward_ask {retries k : Nat} (hpos : b.pos = waitPlace layout a.node config)
    (hretries : retries = 0 ∧ config.asksAgain = false ∨
      k + retries = config.maxRetries ∧ config.asksAgain = true ∧
        b.vars.lookup (menuCounter (layout.menuContextOf a.node.nodeId)).toList = some (natText k)) :
    Onward dialplan world layout order zone (a.ask layout retries) b := by
  unfold FlowState.ask
  have hheard : ∀ {a : FlowState} {b : State}, b.pos = waitPlace layout a.node config →
      (viewOf layout order b).Shows a → ∀ {extens}, a.behaviour.extens = none :: extens →
      a.node ∈ order → a.node.config = .menu config →
      step dialplan world b = .inl (heard layout a.node b extens "t".toList) := by
    intro a b hpos hshows extens hextens hnode hconfig
    exact step_wait_timeout hpos hcode hnode hconfig
      ((congrArg Caller.extens hshows.caller).trans hextens)
  -- on the prompts that are left; a timeout takes one off the behaviour
  induction retries generalizing a b k with
  | zero =>
    cases hextens : a.behaviour.extens with
    | nil => exact onward_alone hpos hcode hnode hconfig hshows hextens
    | cons typed extens =>
      cases typed with
      | some typed => exact onward_typed hpos hflow hcode hnode hconfig hzone hshows hdigits hextens
      | none =>
        refine .of_step (wait_safe hpos hcode hnode hconfig) (hheard hpos hshows hextens hnode hconfig) ?_
        refine onward_last (a := { a with behaviour := { a.behaviour with extens := extens } }) (k := k)
          hflow hcode hnode hconfig hzone (heard_shows hpos hshows extens _) ?_ rfl ?_
        · rw [viewOf_heard hpos]
          exact hdigits
        · rcases hretries with ⟨-, honce⟩ | ⟨hk, hagain, hcount⟩
          · exact .inl honce
          · exact .inr ⟨hk.ge, hagain, hcount⟩
  | succ retries ih =>
    cases hextens : a.behaviour.extens with
    | nil => exact onward_alone hpos hcode hnode hconfig hshows hextens
    | cons typed extens =>
      cases typed with
      | some typed => exact onward_typed hpos hflow hcode hnode hconfig hzone hshows hdigits hextens
      | none =>
        rcases hretries with ⟨h, -⟩ | ⟨hk, hagain, hcount⟩
        · cases h
        have hshows' := heard_shows hpos hshows extens "t".toList
        have hview : viewOf layout order (heard layout a.node b extens "t".toList) =
            { viewOf layout order b with caller := { b.caller with extens := extens } } :=
          viewOf_heard hpos extens "t".toList
        refine .of_step (wait_safe hpos hcode hnode hconfig) (hheard hpos hshows hextens hnode hconfig) ?_
        refine onward_counted hcode hnode hconfig hagain (b := heard layout a.node b extens "t".toList)
          rfl hcount (menu_timeout hflow hcode hnode hconfig) ?_ ?_
        · intro _ b₁ hpos₁ hcount₁ hview₁
          refine onward_prompt hflow hcode hnode hconfig hpos₁ ?_
          intro b₂ hpos₂ hvars₂ hview₂
          rw [← hview₁, ← hview₂] at hshows'
          refine ih (a := { a with behaviour := { a.behaviour with extens := extens } }) (k := k + 1)
            hnode hconfig hshows' ?_ hpos₂ (.inr ⟨by omega, hagain, hvars₂ ▸ hcount₁⟩)
          rw [hview₂, hview₁, hview]
          exact hdigits
        · intro hmore
          omega

/-- The code of a menu, from its second priority on. -/
theorem onward_menu (hpos : b.pos = (menuPlace layout a.node "s".toList).next) :
    Onward dialplan world layout order zone (a.ask layout (menuRetries config)) b := by
  have hname := counterName_menu (layout.menuContextOf a.node.nodeId)
  have hask : ∀ b', b'.pos = promptPlace layout a.node config →
      (config.asksAgain = true → b'.vars.lookup
        (menuCounter (layout.menuContextOf a.node.nodeId)).toList = some (natText 0)) →
      viewOf layout order b' = viewOf layout order b →
      Onward dialplan world layout order zone (a.ask layout (menuRetries config)) b' := by
    intro b₁ hpos₁ hcount₁ hview₁
    refine onward_prompt hflow hcode hnode hconfig hpos₁ ?_
    intro b₂ hpos₂ hvars₂ hview₂
    refine onward_ask hflow hcode hnode hconfig hzone ?_ ?_ (k := 0) hpos₂ ?_
    · rw [hview₂, hview₁]
      exact hshows
    · rw [hview₂, hview₁]
      exact hdigits
    · cases hagain : config.asksAgain with
      | true =>
        refine .inr ⟨?_, rfl, hvars₂ ▸ hcount₁ hagain⟩
        simp only [MenuConfig.asksAgain, Bool.and_eq_true] at hagain
        rw [menuRetries, if_pos hagain.2, Nat.zero_add]
      | false =>
        refine .inl ⟨?_, rfl⟩
        simp only [MenuConfig.asksAgain, Bool.and_eq_false_iff, decide_eq_false_iff_not] at hagain
        rw [menuRetries]
        split
        · rcases hagain with hnone | hnone
          · exact Nat.eq_zero_of_not_pos hnone
          · simp_all
        · rfl
  have hall := (menu_entry hcode hnode hconfig).1.2
  rw [← hpos] at hall
  cases hmany : decide (config.maxRetries > 0) with
  | false =>
    have hmany := of_decide_eq_false hmany
    refine hask b ?_ ?_ rfl
    · rw [hpos, promptPlace, counterCode, if_neg hmany]
      rfl
    · intro hagain
      simp only [MenuConfig.asksAgain, Bool.and_eq_true, decide_eq_true_eq] at hagain
      exact absurd hagain.1 hmany
  | true =>
    have hmany := of_decide_eq_true hmany
    simp only [counterCode, if_pos hmany] at hall
    have hat : stepAt dialplan b.pos = some (plainStep "Set" ("__" ++
      menuCounter (layout.menuContextOf a.node.nodeId) ++ "=0")) := hall.1
    have hoff : OffMenus layout order b.pos := by
      refine offMenus_priority ?_
      rw [hpos]
      simp [menuPlace, Pos.next]
    obtain ⟨b', hstep, hpos', hvars, hview⟩ := step_reset (w := world) hname hat hoff
    refine .of_step (safe_of_code hat ?_) hstep (hask b' ?_ ?_ hview)
    · rw [hname.takesDigits (resetStep_args _)]
      rintro ⟨⟩
    · rw [hpos', hpos, promptPlace, counterCode, if_pos hmany]
      rfl
    · intro _
      rw [hvars, List.lookup_cons_self]

end Prompts

end KasterCti.ArsFlow
