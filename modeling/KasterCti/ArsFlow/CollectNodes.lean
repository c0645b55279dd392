import KasterCti.ArsFlow.InlineNodes

/-!
# Requests for digits

The code of a request reads keys, keeps their digits and goes on when there are enough of
them. Else it counts the try in a variable of its own and asks again, as often as the node
says. The induction is over the tries that are left.
-/

namespace KasterCti.ArsFlow

open Dialplan Machine Renderers

/-! ## The parts of the code -/

theorem promptPath_chars {promptKey : Option String}
    (h : promptKey.all (fun key => plainDest key && dotted key) = true) :
    ',' ∉ (promptPath promptKey).toList ∧ '$' ∉ (promptPath promptKey).toList := by
  unfold promptPath
  split
  · rename_i key hkey
    rw [(given_eq_some hkey).1, Option.all_some, Bool.and_eq_true] at h
    have hall := all_playbackPath (by decide) h.1
    exact ⟨notMem_of_all hall (by decide), notMem_of_all hall (by decide)⟩
  · exact ⟨by decide, by decide⟩

/-- The request of a node. -/
def readStep (config : CollectDigitsConfig) (label : String) : Step :=
  labeledStep (label ++ "-read") "Read" (collectInputVar ++ "," ++ promptPath config.promptKey ++
    "," ++ toString config.maxDigits ++ ",,1," ++ toString config.timeoutSeconds)

def keepStep : Step :=
  plainStep "Set" ("__" ++ collectedDigitsVar ++ "=$\x7bFILTER(0-9," ++ varRef collectInputVar ++ ")\x7d")

def enoughStep (config : CollectDigitsConfig) (label : String) : Step :=
  plainStep "GotoIf" ("$[$\x7bLEN(" ++ varRef collectedDigitsVar ++ ")\x7d>=" ++
    toString config.minDigits ++ "]?" ++ (label ++ "-ok"))

def countStep (label : String) : Step :=
  plainStep "Set" ("__" ++ collectCounter label ++ "=$[" ++ varRef (collectCounter label) ++ "+1]")

def againStep (config : CollectDigitsConfig) (label : String) : Step :=
  plainStep "GotoIf" ("$[" ++ varRef (collectCounter label) ++ "<=" ++ toString config.maxRetries ++
    "]?" ++ (label ++ "-read"))

section Split
variable {layout : Layout} {node : FlowNode} {config : CollectDigitsConfig}
  (hconfig : node.config = .collectDigits config)
include hconfig

theorem collect_ok_split :
    labeledCode layout node = ([labeledStep (layout.labelOf node.nodeId) "NoOp"
        ("ARS node " ++ node.label),
      plainStep "Set" ("__" ++ collectCounter (layout.labelOf node.nodeId) ++ "=0"),
      readStep config (layout.labelOf node.nodeId), keepStep,
      enoughStep config (layout.labelOf node.nodeId), countStep (layout.labelOf node.nodeId),
      againStep config (layout.labelOf node.nodeId)] ++ takeCode layout node .timeout) ++
      labeledStep (layout.labelOf node.nodeId ++ "-ok") "NoOp"
        ("ARS collected " ++ varRef collectedDigitsVar) :: takeCode layout node .default := by
  rw [labeledCode, inlineCode, hconfig]
  simp [collectCode, readStep, keepStep, enoughStep, countStep, againStep]

theorem collect_read_split :
    labeledCode layout node = [labeledStep (layout.labelOf node.nodeId) "NoOp"
        ("ARS node " ++ node.label),
      plainStep "Set" ("__" ++ collectCounter (layout.labelOf node.nodeId) ++ "=0")] ++
      readStep config (layout.labelOf node.nodeId) :: (keepStep ::
        enoughStep config (layout.labelOf node.nodeId) :: countStep (layout.labelOf node.nodeId) ::
        againStep config (layout.labelOf node.nodeId) :: (takeCode layout node .timeout ++
          labeledStep (layout.labelOf node.nodeId ++ "-ok") "NoOp"
            ("ARS collected " ++ varRef collectedDigitsVar) :: takeCode layout node .default)) := by
  rw [collect_ok_split hconfig]
  simp

end Split

/-! ## The variables -/

theorem all_isWordChar_toVariableName (text : String) :
    (toVariableName text).toList.all isWordChar = true := by
  rw [toVariableName, String.toList_ofList, List.all_map, List.all_eq_true]
  intro c _
  simp only [Function.comp_apply]
  split
  · assumption
  · decide

/-- The name of a counter. -/
structure CounterName (name : String) : Prop where
  chars : name.toList.all isWordChar = true
  digits : name.toList ≠ collectedDigitsVar.toList
  input : name.toList ≠ collectInputVar.toList
  exten : name.toList ≠ "EXTEN".toList
  target : name.toList ≠ "OPT_OUT_TARGET_PHONE".toList

/-- A letter of the front tells the counter from the other variables. -/
theorem counterName_append (front text : String) (i : Nat) (letter : Char)
    (hfront : front.toList.all isWordChar = true ∧ front.toList[i]? = some letter)
    (hothers : ∀ other ∈ [collectedDigitsVar, collectInputVar, "EXTEN", "OPT_OUT_TARGET_PHONE"],
      other.toList[i]? ≠ some letter) : CounterName (front ++ toVariableName text) := by
  have hletter : (front ++ toVariableName text).toList[i]? = some letter := by
    rw [String.toList_append, List.getElem?_append_left (List.getElem?_eq_some_iff.mp hfront.2).1]
    exact hfront.2
  have hapart (other : String) (hother : other.toList[i]? ≠ some letter) :
      (front ++ toVariableName text).toList ≠ other.toList := fun hsame => hother (hsame ▸ hletter)
  simp only [List.forall_mem_cons] at hothers
  obtain ⟨hdigits, hinput, hexten, htarget, -⟩ := hothers
  refine ⟨?_, hapart _ hdigits, hapart _ hinput, hapart _ hexten, hapart _ htarget⟩
  rw [String.toList_append, List.all_append, all_isWordChar_toVariableName, hfront.1]
  rfl

theorem counterName_collect (label : String) : CounterName (collectCounter label) :=
  counterName_append "ARS_COLLECT_RETRY_" label 12 'R' (by decide) (by decide)

theorem counterName_menu (contextName : String) : CounterName (menuCounter contextName) :=
  counterName_append "ARS_MENU_RETRY_" contextName 4 'M' (by decide) (by decide)

theorem CounterName.plain {name : String} (h : CounterName name) :
    name.toList.all isPlainChar = true := by
  rw [List.all_eq_true]
  intro c hc
  have hword := List.all_eq_true.mp h.chars c hc
  have hne : ∀ d, isWordChar d = false → c ≠ d := by
    rintro d hd rfl
    rw [hd] at hword
    cases hword
  simp [isPlainChar, hne '$' (by decide), hne '\x7d' (by decide), hne ']' (by decide)]

theorem countStep_args (name : String) :
    ("__" ++ name ++ "=$[" ++ varRef name ++ "+1]").toList =
      ("__".toList ++ name.toList) ++ '=' :: ("$[" ++ varRef name ++ "+1]").toList := by
  simp

theorem resetStep_args (name : String) :
    ("__" ++ name ++ "=0").toList = ("__".toList ++ name.toList) ++ '=' :: natText 0 := by
  simp [show natText 0 = ['0'] by decide]

theorem CounterName.notMem {name : String} (h : CounterName name) {c : Char}
    (hc : isWordChar c = false) : c ∉ "__".toList ++ name.toList := by
  have hname := notMem_of_all h.chars hc
  have hfront : c ∉ "__".toList := notMem_of_all (p := isWordChar) (by decide) hc
  exact fun hmem => (List.mem_append.mp hmem).elim hfront hname

/-- Setting a counter takes no digits. -/
theorem CounterName.takesDigits {name args : String} (h : CounterName name) {value : Text}
    (hargs : args.toList = ("__".toList ++ name.toList) ++ '=' :: value) :
    takesDigits (plainStep "Set" args) = false := by
  refine takesDigits_set hargs (h.notMem (by decide)) ?_
  intro hsame
  exact h.target (List.append_cancel_left (show "__".toList ++ name.toList =
    "__".toList ++ "OPT_OUT_TARGET_PHONE".toList from hsame))

section Steps
variable {dialplan : List Entry} {w : Nat → Text → Text} {layout : Layout}
  {order : List FlowNode} {b : State}

/-- A variable of the channel. -/
theorem valueOf_var {name v : Text} (h : b.vars.lookup name = some v) (hopen : '(' ∉ name)
    (hexten : name ≠ "EXTEN".toList) (label : Option Text) :
    valueOf ((b.visit label).lookup w) name = v := by
  rw [valueOf_plain _ hopen, State.lookup, if_neg hexten]
  exact congrArg (Option.getD · _) h

/-- A counter is counted up. -/
theorem step_count {name : String} (hname : CounterName name)
    (hat : stepAt dialplan b.pos =
      some (plainStep "Set" ("__" ++ name ++ "=$[" ++ varRef name ++ "+1]")))
    {k : Nat} (hcount : b.vars.lookup name.toList = some (natText k))
    (hpos : OffMenus layout order b.pos) :
    ∃ b', step dialplan w b = .inl b' ∧ b'.pos = b.pos.next ∧
      b'.vars = (name.toList, natText (k + 1)) :: b.vars ∧
      viewOf layout order b' = viewOf layout order b := by
  have hvisit : viewOf layout order (b.visit none) = viewOf layout order b :=
    viewOf_visit (unmarked_none hpos)
  have hplain : '$' ∉ "__".toList ++ name.toList ++ ['='] := fun hmem =>
    (List.mem_append.mp hmem).elim (hname.notMem (by decide)) (by decide)
  have hargs : (plainStep "Set" ("__" ++ name ++ "=$[" ++ varRef name ++ "+1]")).args =
      ("__".toList ++ name.toList ++ ['=']) ++ (("$[" ++ varRef name ++ "+1]").toList ++ []) := by
    simp [plainStep]
  have hvalue : valueOf ((b.visit none).lookup w) name.toList = natText k :=
    valueOf_var hcount (notMem_of_all hname.chars (by decide)) hname.exten none
  have hexpand : expand ((b.visit none).lookup w)
      (plainStep "Set" ("__" ++ name ++ "=$[" ++ varRef name ++ "+1]")).args =
      ("__".toList ++ name.toList) ++ '=' :: natText (k + 1) := by
    rw [hargs, expand_prefix _ hplain, expand_plusOne hname.plain hvalue, expand_plain _ (by simp)]
    simp
  have hstep : step dialplan w b =
      .inl ((b.visit none).setVar ("__".toList ++ name.toList) (natText (k + 1))).advance :=
    step_set hat rfl (hname.notMem (by decide)) hexpand
  have hvar : varName ("__".toList ++ name.toList) = name.toList := rfl
  refine ⟨_, hstep, rfl, ?_, ?_⟩
  · show (varName ("__".toList ++ name.toList), natText (k + 1)) :: b.vars = _
    rw [hvar]
  · exact (viewOf_setVar (s := b.visit none) (hvar.symm ▸ hname.digits)).trans hvisit

/-- A counter starts from zero. -/
theorem step_reset {name : String} (hname : CounterName name)
    (hat : stepAt dialplan b.pos = some (plainStep "Set" ("__" ++ name ++ "=0")))
    (hpos : OffMenus layout order b.pos) :
    ∃ b', step dialplan w b = .inl b' ∧ b'.pos = b.pos.next ∧
      b'.vars = (name.toList, natText 0) :: b.vars ∧
      viewOf layout order b' = viewOf layout order b := by
  have hvisit : viewOf layout order (b.visit none) = viewOf layout order b :=
    viewOf_visit (unmarked_none hpos)
  have hplain : '$' ∉ (plainStep "Set" ("__" ++ name ++ "=0")).args := by
    have := notMem_of_all hname.chars (show isWordChar '$' = false by decide)
    simp [plainStep, this]
  have hexpand := (expand_plain ((b.visit none).lookup w) hplain).trans (resetStep_args name)
  have hvar : varName ("__".toList ++ name.toList) = name.toList := rfl
  refine ⟨_, step_set hat rfl (hname.notMem (by decide)) hexpand, rfl, ?_, ?_⟩
  · show (varName ("__".toList ++ name.toList), natText 0) :: b.vars = _
    rw [hvar]
  · exact (viewOf_setVar (s := b.visit none) (hvar.symm ▸ hname.digits)).trans hvisit

/-- A counter is compared with its limit. -/
theorem step_again {name : String} (hname : CounterName name) {limit : Nat} {dest : String}
    (hat : stepAt dialplan b.pos =
      some (plainStep "GotoIf" ("$[" ++ varRef name ++ "<=" ++ toString limit ++ "]?" ++ dest)))
    (hdest : dest.toList ≠ [] ∧ ':' ∉ dest.toList ∧ '$' ∉ dest.toList)
    {k : Nat} (hcount : b.vars.lookup name.toList = some (natText k)) :
    step dialplan w b =
      if k ≤ limit then (b.visit none).goto dialplan dest.toList else .inl (b.visit none).advance := by
  have hargs : (plainStep "GotoIf" ("$[" ++ varRef name ++ "<=" ++ toString limit ++ "]?" ++ dest)).args =
      ("$[" ++ varRef name ++ "<=" ++ toString limit ++ "]").toList ++ '?' :: dest.toList := by
    simp [plainStep]
  have hvalue : valueOf ((b.visit none).lookup w) name.toList = natText k :=
    valueOf_var hcount (notMem_of_all hname.chars (by decide)) hname.exten none
  have hplain : '$' ∉ '?' :: dest.toList := by simp [hdest.2.2]
  have hexpand : expand ((b.visit none).lookup w) (plainStep "GotoIf" ("$[" ++ varRef name ++
      "<=" ++ toString limit ++ "]?" ++ dest)).args = truth (k ≤ limit) ++ '?' :: dest.toList := by
    rw [hargs, expand_atMost hname.plain hvalue, expand_plain _ hplain]
  have hstep : step dialplan w b = _ := step_gotoIf hat rfl hexpand hdest.1 hdest.2.1
  simp only [decide_eq_true_eq] at hstep
  exact hstep

/-- The arguments of a request. -/
theorem read_parts {config : CollectDigitsConfig} {label : String}
    (hprompt : ',' ∉ (promptPath config.promptKey).toList) :
    (readStep config label).args.splitOnP (· == ',') = [collectInputVar.toList,
      (promptPath config.promptKey).toList, natText config.maxDigits, [], ['1'],
      natText config.timeoutSeconds] := by
  have hargs : (readStep config label).args = collectInputVar.toList ++
      ',' :: ((promptPath config.promptKey).toList ++ ',' :: (natText config.maxDigits ++
        ',' :: ([] ++ ',' :: (['1'] ++ ',' :: natText config.timeoutSeconds)))) := by
    simp [readStep, labeledStep, natText]
  rw [hargs, splitComma_cons (by decide), splitComma_cons hprompt,
    splitComma_cons (notMem_natText _ (by decide)), splitComma_cons (by decide),
    splitComma_cons (by decide), splitComma_single (notMem_natText _ (by decide))]

theorem read_plain {config : CollectDigitsConfig} {label : String}
    (hprompt : '$' ∉ (promptPath config.promptKey).toList) : '$' ∉ (readStep config label).args := by
  have hmax := notMem_natText config.maxDigits (show isDigit '$' = false by decide)
  have htimeout := notMem_natText config.timeoutSeconds (show isDigit '$' = false by decide)
  rw [natText_eq] at hmax htimeout
  simp [readStep, labeledStep, collectInputVar, hprompt, hmax, htimeout]

section Request
variable (hflow : CleanFlow layout order) {node : FlowNode} (hnode : node ∈ order)
  {config : CollectDigitsConfig} (hconfig : node.config = .collectDigits config)
  (hat : stepAt dialplan b.pos = some (readStep config (layout.labelOf node.nodeId)))
include hflow hnode hconfig hat

/-- Nobody answers a request any more. -/
theorem step_request_gone (hreads : b.caller.reads = []) :
    step dialplan w b =
      .inr ⟨.gone, (b.visit (some (layout.labelOf node.nodeId ++ "-read").toList)).trace⟩ := by
  have hclean := hflow.config hnode
  rw [hconfig, NodeConfig.clean] at hclean
  have hnone : (b.visit (readStep config (layout.labelOf node.nodeId)).label).caller.reads = [] :=
    hreads
  rw [step_read hat rfl (read_plain (promptPath_chars hclean).2), State.read, hnone]
  rfl

/-- A request takes the next keys. -/
theorem step_request (hpos : OffMenus layout order b.pos) {keys : Text} {reads : List Text}
    (hreads : b.caller.reads = keys :: reads) :
    ∃ b', step dialplan w b = .inl b' ∧ b'.pos = b.pos.next ∧
      b'.vars = (collectInputVar.toList, State.keptKeys config.maxDigits keys) :: b.vars ∧
      viewOf layout order b' = { viewOf layout order b with
        caller := { b.caller with reads := reads }, collect := some config } := by
  have hclean := hflow.config hnode
  rw [hconfig, NodeConfig.clean] at hclean
  obtain ⟨hcomma, hplain⟩ := promptPath_chars hclean
  have hview : viewOf layout order (b.visit (some (layout.labelOf node.nodeId ++ "-read").toList)) =
      { viewOf layout order b with collect := some config } := hflow.viewOf_read hnode hpos hconfig
  have hsome : (b.visit (readStep config (layout.labelOf node.nodeId)).label).caller.reads =
      keys :: reads := hreads
  have hstep : step dialplan w b = _ := step_read hat rfl (read_plain hplain)
  rw [State.read, hsome, read_parts hcomma] at hstep
  simp only [List.getD_cons_succ, List.getD_cons_zero, List.headD_cons, natOf_natText] at hstep
  refine ⟨_, hstep, rfl, rfl, ?_⟩
  have hfront : [(collectInputVar.toList, State.keptKeys config.maxDigits keys)].lookup
      collectedDigitsVar.toList = none := by
    rw [List.lookup_cons, beq_false_of_ne (by decide)]
    rfl
  rw [show ({ viewOf layout order b with
      caller := { b.caller with reads := reads }, collect := some config } : View) =
    { viewOf layout order (b.visit (some (layout.labelOf node.nodeId ++ "-read").toList)) with
      caller := { b.caller with reads := reads } } by rw [hview]]
  exact viewOf_front hfront _ _

end Request

theorem takesDigits_keepStep : takesDigits keepStep = false := by
  have hargs : ("__" ++ collectedDigitsVar ++ "=$\x7bFILTER(0-9," ++ varRef collectInputVar ++
      ")\x7d").toList = "__ARS_COLLECTED_DIGITS".toList ++
        '=' :: ("$\x7bFILTER(0-9," ++ varRef collectInputVar ++ ")\x7d").toList := by
    simp [collectedDigitsVar]
  exact takesDigits_set hargs (by decide) (by decide)

/-- What was typed is kept as digits. -/
theorem step_keep (hat : stepAt dialplan b.pos = some keepStep) {kept : Text}
    (hinput : b.vars.lookup collectInputVar.toList = some kept) (hpos : OffMenus layout order b.pos) :
    ∃ b', step dialplan w b = .inl b' ∧ b'.pos = b.pos.next ∧
      b'.vars = (collectedDigitsVar.toList, kept.filter isDigit) :: b.vars ∧
      viewOf layout order b' =
        { viewOf layout order b with digits := some (kept.filter isDigit) } := by
  have hvisit : viewOf layout order (b.visit none) = viewOf layout order b :=
    viewOf_visit (unmarked_none hpos)
  have hargs : keepStep.args = ("__".toList ++ collectedDigitsVar.toList ++ ['=']) ++
      (("$\x7bFILTER(0-9," ++ varRef collectInputVar ++ ")\x7d").toList ++ []) := by
    simp [keepStep, plainStep]
  have hvalue : valueOf ((b.visit none).lookup w) collectInputVar.toList = kept :=
    valueOf_var hinput (by decide) (by decide) none
  have hexpand : expand ((b.visit none).lookup w) keepStep.args =
      ("__".toList ++ collectedDigitsVar.toList) ++ '=' :: kept.filter isDigit := by
    rw [hargs, expand_prefix _ (by decide), expand_filter _ (by decide), hvalue,
      expand_plain _ (by simp)]
    simp
  refine ⟨_, step_set hat rfl (by decide) hexpand, rfl, rfl, ?_⟩
  rw [← hvisit]
  rfl

/-- There are enough digits, or not. -/
theorem step_enough {config : CollectDigitsConfig} {label : String}
    (hat : stepAt dialplan b.pos = some (enoughStep config label)) {digits : Text}
    (hdigits : b.vars.lookup collectedDigitsVar.toList = some digits)
    (hlabel : ∀ c ∈ (label ++ "-ok").toList, c ≠ '$' ∧ c ≠ ':') :
    step dialplan w b =
      if config.minDigits ≤ digits.length then (b.visit none).goto dialplan (label ++ "-ok").toList
      else .inl (b.visit none).advance := by
  have hargs : (enoughStep config label).args = ("$[$\x7bLEN(" ++ varRef collectedDigitsVar ++
      ")\x7d>=" ++ toString config.minDigits ++ "]").toList ++ '?' :: (label ++ "-ok").toList := by
    simp [enoughStep, plainStep]
  have hvalue : valueOf ((b.visit none).lookup w) collectedDigitsVar.toList = digits :=
    valueOf_var hdigits (by decide) (by decide) none
  have hplain : '$' ∉ '?' :: (label ++ "-ok").toList := by
    intro h
    rcases List.mem_cons.mp h with h | h
    · exact absurd h (by decide)
    · exact (hlabel _ h).1 rfl
  have hexpand : expand ((b.visit none).lookup w) (enoughStep config label).args =
      truth (config.minDigits ≤ digits.length) ++ '?' :: (label ++ "-ok").toList := by
    rw [hargs, expand_lenAtLeast _ (by decide), hvalue, expand_plain _ hplain]
  have hstep : step dialplan w b = _ := step_gotoIf hat rfl hexpand (by simp)
    (fun h => (hlabel _ h).2 rfl)
  simp only [decide_eq_true_eq] at hstep
  exact hstep

end Steps

/-! ## The tries -/

section Collect
variable {dialplan : List Entry} {world : Nat → Text → Text} {layout : Layout}
  {order : List FlowNode} {opening : List Step} {zone : String → Prop} {a : FlowState} {b : State}
  {pos : Pos} (hplaced : Placed dialplan layout a.node pos) {config : CollectDigitsConfig}
  (hconfig : a.node.config = .collectDigits config)
include hplaced hconfig

/-- The code of the tries. -/
theorem collect_code : CodeAt dialplan (pos.after 2) (readStep config (layout.labelOf a.node.nodeId) ::
    keepStep :: enoughStep config (layout.labelOf a.node.nodeId) ::
    countStep (layout.labelOf a.node.nodeId) :: againStep config (layout.labelOf a.node.nodeId) ::
    (takeCode layout a.node .timeout ++ labeledStep (layout.labelOf a.node.nodeId ++ "-ok") "NoOp"
      ("ARS collected " ++ varRef collectedDigitsVar) :: takeCode layout a.node .default)) := by
  have hall := hplaced.code
  rw [collect_read_split hconfig] at hall
  exact (codeAt_append.mp hall).2

variable (hflow : CleanFlow layout order) (hnode : a.node ∈ order)
include hflow hnode

/-- A request takes the next keys and keeps their digits. -/
theorem request_keeps (hpos : b.pos = pos.after 2) {keys : Text} {reads : List Text}
    (hreads : b.caller.reads = keys :: reads) :
    ∃ b', b'.pos = pos.after 4 ∧ b'.vars = (collectedDigitsVar.toList, collectedDigits config keys) ::
        (collectInputVar.toList, State.keptKeys config.maxDigits keys) :: b.vars ∧
      viewOf layout order b' = ⟨{ b.caller with reads := reads }, (viewOf layout order b).visited,
        some config, some (collectedDigits config keys)⟩ ∧
      ∀ x, Onward dialplan world layout order zone x b' →
        Onward dialplan world layout order zone x b := by
  obtain ⟨hread, hkeep, -⟩ := collect_code hplaced hconfig
  have hcontext : b.pos.context = layout.mainContext.toList := hpos ▸ hplaced.context
  rw [← hpos] at hread hkeep
  obtain ⟨b₁, hstep₁, hpos₁, hvars₁, hview₁⟩ :=
    step_request (w := world) hflow hnode hconfig hread (offMenus_main hcontext) hreads
  have hoff : OffMenus layout order b₁.pos := by
    rw [hpos₁]
    exact offMenus_main hcontext
  rw [← hpos₁] at hkeep
  have hinput : b₁.vars.lookup collectInputVar.toList = some (State.keptKeys config.maxDigits keys) := by
    rw [hvars₁, List.lookup_cons_self]
  obtain ⟨b₂, hstep₂, hpos₂, hvars₂, hview₂⟩ := step_keep (w := world) hkeep hinput hoff
  refine ⟨b₂, ?_, ?_, ?_, ?_⟩
  · rw [hpos₂, hpos₁, hpos]
    rfl
  · rw [hvars₂, hvars₁]
    rfl
  · rw [hview₂, hview₁]
    rfl
  · intro x honward
    refine .of_step (safe_of_code hread nofun) hstep₁ (.of_step (safe_of_code hkeep ?_) hstep₂ honward)
    rw [takesDigits_keepStep]
    exact nofun

variable (hcode : FlowCode dialplan layout order opening)
include hcode

/-- With enough digits the call goes on. -/
theorem onward_enough {digits : Text} (hpos : b.pos = pos.after 4)
    (hshows : (viewOf layout order b).Shows a) (hcollect : (viewOf layout order b).collect = some config)
    (hdigits : (viewOf layout order b).digits = some digits) (hall : digits.all isDigit = true)
    (henough : config.minDigits ≤ digits.length) :
    Onward dialplan world layout order zone (a.take layout .default) b := by
  obtain ⟨-, -, hat, -⟩ := collect_code hplaced hconfig
  have hcontext : b.pos.context = layout.mainContext.toList := hpos ▸ hplaced.context
  have hat : stepAt dialplan b.pos = some (enoughStep config (layout.labelOf a.node.nodeId)) :=
    hpos ▸ hat
  have hlabel : ∀ c ∈ (layout.labelOf a.node.nodeId ++ "-ok").toList, c ≠ '$' ∧ c ≠ ':' :=
    hflow.labelChars (by decide)
  have hstep := step_enough (w := world) hat hdigits hlabel
  rw [if_pos henough] at hstep
  have hvisit : viewOf layout order (b.visit none) = viewOf layout order b :=
    viewOf_visit (unmarked_none (offMenus_main hcontext))
  have hfront : ∀ d ∈ [labeledStep (layout.labelOf a.node.nodeId) "NoOp" ("ARS node " ++ a.node.label),
      plainStep "Set" ("__" ++ collectCounter (layout.labelOf a.node.nodeId) ++ "=0"),
      readStep config (layout.labelOf a.node.nodeId), keepStep,
      enoughStep config (layout.labelOf a.node.nodeId), countStep (layout.labelOf a.node.nodeId),
      againStep config (layout.labelOf a.node.nodeId)] ++ takeCode layout a.node .timeout,
      d.label = none ∨ ∃ other : String,
        d.label = some (layout.labelOf a.node.nodeId ++ other).toList ∧ other.toList ≠ "-ok".toList := by
    intro d hd
    simp only [List.mem_append, List.mem_cons, List.not_mem_nil, or_false] at hd
    rcases hd with (rfl | rfl | rfl | rfl | rfl | rfl | rfl) | hd
    · exact .inr ⟨"", by simp [labeledStep], by decide⟩
    · exact .inl rfl
    · exact .inr ⟨"-read", rfl, by decide⟩
    · exact .inl rfl
    · exact .inl rfl
    · exact .inl rfl
    · exact .inl rfl
    · exact .inl ((hflow.plainBody_take hnode .timeout).1 d hd).2
  obtain ⟨b', hgoto, honward⟩ := onward_label (b := b.visit none) hflow hcode hnode
    (hvisit.symm ▸ hshows) hplaced hpos (collect_ok_split hconfig) (label_front hfront) (by decide)
    (fun e he => .inl (hvisit.symm ▸ ⟨config, digits, hcollect, hdigits, hall, henough⟩))
  exact .of_step (safe_of_code hat (by rintro ⟨⟩)) (hstep.trans hgoto) honward

omit hnode hcode in
/-- With too few digits the try is counted, and the call asks again or gives up. -/
theorem counts_try {digits : Text} {k : Nat} (hpos : b.pos = pos.after 4)
    (hdigits : b.vars.lookup collectedDigitsVar.toList = some digits)
    (hcount : b.vars.lookup (collectCounter (layout.labelOf a.node.nodeId)).toList = some (natText k))
    (hfew : ¬ config.minDigits ≤ digits.length) :
    ∃ b', viewOf layout order b' = viewOf layout order b ∧
      b'.vars.lookup (collectCounter (layout.labelOf a.node.nodeId)).toList = some (natText (k + 1)) ∧
      (if k + 1 ≤ config.maxRetries then b'.pos = pos.after 2
        else b'.pos = pos.after 7) ∧
      ∀ x, Onward dialplan world layout order zone x b' →
        Onward dialplan world layout order zone x b := by
  obtain ⟨-, -, henough, hcounts, hagain, -⟩ := collect_code hplaced hconfig
  have hname := counterName_collect (layout.labelOf a.node.nodeId)
  have hcontext : b.pos.context = layout.mainContext.toList := hpos ▸ hplaced.context
  have henough : stepAt dialplan b.pos = some (enoughStep config (layout.labelOf a.node.nodeId)) :=
    hpos ▸ henough
  have hlabel : ∀ {tail : String}, (∀ c ∈ tail.toList, c ≠ '$' ∧ c ≠ ':') →
      ∀ c ∈ (layout.labelOf a.node.nodeId ++ tail).toList, c ≠ '$' ∧ c ≠ ':' := hflow.labelChars
  have hstep₁ := step_enough (w := world) henough hdigits (hlabel (by decide))
  rw [if_neg hfew] at hstep₁
  have hvisit₁ : viewOf layout order (b.visit none) = viewOf layout order b :=
    viewOf_visit (unmarked_none (offMenus_main hcontext))
  have hoff : OffMenus layout order (b.visit none).advance.pos := offMenus_main hcontext
  have hcounts : stepAt dialplan (b.visit none).advance.pos =
      some (countStep (layout.labelOf a.node.nodeId)) := by
    rw [show (b.visit none).advance.pos = b.pos.next from rfl, hpos]
    exact hcounts
  obtain ⟨b₂, hstep₂, hpos₂, hvars₂, hview₂⟩ := step_count (w := world) hname hcounts hcount hoff
  have hcount₂ : b₂.vars.lookup (collectCounter (layout.labelOf a.node.nodeId)).toList =
      some (natText (k + 1)) := by
    rw [hvars₂, List.lookup_cons_self]
  have hpos₂ : b₂.pos = pos.after 6 := by
    rw [hpos₂, show (b.visit none).advance.pos = b.pos.next from rfl, hpos]
    rfl
  have hagain : stepAt dialplan b₂.pos = some (againStep config (layout.labelOf a.node.nodeId)) :=
    hpos₂ ▸ hagain
  have hchars := hlabel (show ∀ c ∈ "-read".toList, c ≠ '$' ∧ c ≠ ':' by decide)
  have hstep₃ := step_again (w := world) hname hagain
    ⟨by simp, fun h => (hchars _ h).2 rfl, fun h => (hchars _ h).1 rfl⟩ hcount₂
  have hvisit₂ : viewOf layout order (b₂.visit none) = viewOf layout order b := by
    rw [viewOf_visit (unmarked_none (offMenus_main ?_)), hview₂]
    · exact hvisit₁
    · rw [hpos₂]
      exact hplaced.context
  have hsafe₂ : takesDigits (countStep (layout.labelOf a.node.nodeId)) = false :=
    hname.takesDigits (countStep_args _)
  have hway : ∀ {b'}, step dialplan world b₂ = .inl b' → ∀ x,
      Onward dialplan world layout order zone x b' → Onward dialplan world layout order zone x b := by
    intro b' hstep x honward
    refine .of_step (safe_of_code henough nofun) hstep₁ (.of_step (safe_of_code hcounts ?_) hstep₂
      (.of_step (safe_of_code hagain nofun) hstep honward))
    rw [hsafe₂]
    exact nofun
  cases hmore : decide (k + 1 ≤ config.maxRetries) with
  | true =>
    have hmore := of_decide_eq_true hmore
    have hcomma : ',' ∉ (layout.labelOf a.node.nodeId ++ "-read").toList := by
      have hlabel : ',' ∉ (layout.labelOf a.node.nodeId).toList :=
        notMem_of_all (hflow.named.labelOf a.node.nodeId) (by decide)
      simp [hlabel]
    have hfront : ∀ d ∈ [labeledStep (layout.labelOf a.node.nodeId) "NoOp"
        ("ARS node " ++ a.node.label),
        plainStep "Set" ("__" ++ collectCounter (layout.labelOf a.node.nodeId) ++ "=0")],
        d.label = none ∨ ∃ other : String,
          d.label = some (layout.labelOf a.node.nodeId ++ other).toList ∧
            other.toList ≠ "-read".toList := by
      intro d hd
      simp only [List.mem_cons, List.not_mem_nil, or_false] at hd
      rcases hd with rfl | rfl
      · exact .inr ⟨"", by simp [labeledStep], by decide⟩
      · exact .inl rfl
    obtain ⟨hgoto, -⟩ := hplaced.goto (b := b₂.visit none) (collect_read_split hconfig) rfl
      (label_front hfront) hcomma hpos₂
    rw [if_pos hmore, hgoto] at hstep₃
    refine ⟨{ b₂.visit none with pos := pos.after 2 }, hvisit₂, hcount₂, ?_, hway hstep₃⟩
    rw [if_pos hmore]
  | false =>
    have hmore := of_decide_eq_false hmore
    rw [if_neg hmore] at hstep₃
    refine ⟨(b₂.visit none).advance, hvisit₂, hcount₂, ?_, hway hstep₃⟩
    rw [if_neg hmore, show (b₂.visit none).advance.pos = b₂.pos.next from rfl, hpos₂]
    rfl

/-- One request: the call goes on with what was typed, or stands behind a counted try. -/
theorem request_once {k : Nat} (hpos : b.pos = pos.after 2)
    (hcount : b.vars.lookup (collectCounter (layout.labelOf a.node.nodeId)).toList = some (natText k))
    (hshows : (viewOf layout order b).Shows a) {keys : Text} {reads : List Text}
    (hreads : a.behaviour.reads = keys :: reads) :
    (config.minDigits ≤ (collectedDigits config keys).length ∧
      Onward dialplan world layout order zone
        ({ a with behaviour := { a.behaviour with reads := reads } }.take layout .default) b) ∨
    (¬ config.minDigits ≤ (collectedDigits config keys).length ∧ ∃ b',
      (viewOf layout order b').Shows { a with behaviour := { a.behaviour with reads := reads } } ∧
      b'.vars.lookup (collectCounter (layout.labelOf a.node.nodeId)).toList = some (natText (k + 1)) ∧
      (if k + 1 ≤ config.maxRetries then b'.pos = pos.after 2 else b'.pos = pos.after 7) ∧
      ∀ x, Onward dialplan world layout order zone x b' →
        Onward dialplan world layout order zone x b) := by
  have hname := counterName_collect (layout.labelOf a.node.nodeId)
  have hcaller : b.caller = a.behaviour.caller := hshows.caller
  obtain ⟨b₁, hpos₁, hvars₁, hview₁, hway₁⟩ := request_keeps hplaced hconfig hflow hnode hpos
    (by rw [hcaller, Behaviour.caller, hreads])
  have hshows₁ : (viewOf layout order b₁).Shows
      { a with behaviour := { a.behaviour with reads := reads } } := by
    rw [hview₁]
    exact ⟨by rw [hcaller]; rfl, hshows.visited⟩
  by_cases henough : config.minDigits ≤ (collectedDigits config keys).length
  · refine .inl ⟨henough, hway₁ _ ?_⟩
    exact onward_enough (a := { a with behaviour := { a.behaviour with reads := reads } }) hplaced
      hconfig hflow hnode hcode hpos₁ hshows₁ (by rw [hview₁]) (by rw [hview₁])
      (by simp [collectedDigits]) henough
  · have hcount₁ : b₁.vars.lookup (collectCounter (layout.labelOf a.node.nodeId)).toList =
        some (natText k) := by
      rw [hvars₁, List.lookup_cons, beq_false_of_ne hname.digits, List.lookup_cons,
        beq_false_of_ne hname.input]
      exact hcount
    have hdigits₁ : b₁.vars.lookup collectedDigitsVar.toList = some (collectedDigits config keys) := by
      rw [hvars₁, List.lookup_cons_self]
    obtain ⟨b₂, hview₂, hcount₂, hpos₂, hway₂⟩ :=
      counts_try hplaced hconfig hflow hpos₁ hdigits₁ hcount₁ henough
    exact .inr ⟨henough, b₂, hview₂.symm ▸ hshows₁, hcount₂, hpos₂, fun x h => hway₁ x (hway₂ x h)⟩

omit hcode in
/-- A request that nobody answers. -/
theorem onward_unanswered (hpos : b.pos = pos.after 2) (hshows : (viewOf layout order b).Shows a)
    (hreads : a.behaviour.reads = []) :
    Onward dialplan world layout order zone (a.finish .gone) b := by
  have hat := (collect_code hplaced hconfig).1
  rw [← hpos] at hat
  have hcontext : b.pos.context = layout.mainContext.toList := hpos ▸ hplaced.context
  have hcaller : b.caller.reads = [] := (congrArg Caller.reads hshows.caller).trans hreads
  have hvisit : viewOf layout order
      (b.visit (some (layout.labelOf a.node.nodeId ++ "-read").toList)) =
      { viewOf layout order b with collect := some config } :=
    hflow.viewOf_read hnode (offMenus_main hcontext) hconfig
  exact .result (safe_of_code hat nofun) (step_request_gone hflow hnode hconfig hat hcaller)
    ⟨rfl, (congrArg View.visited hvisit).trans hshows.visited⟩

/-- Behind the last try the call takes the edge of the failed request. -/
theorem onward_gives_up (hzone : Zone layout order zone) (hpos : b.pos = pos.after 7)
    (hshows : (viewOf layout order b).Shows a) :
    Onward dialplan world layout order zone (a.take layout .timeout) b := by
  obtain ⟨-, -, -, -, -, hrest⟩ := collect_code hplaced hconfig
  have hat := (codeAt_append.mp hrest).1
  rw [show (pos.after 2).next.next.next.next.next = b.pos from hpos.symm] at hat
  refine onward_take hflow hcode hnode ?_ hshows hat ?_
  · rw [hpos]
    exact hplaced.context
  · exact fun e he => .inr (hzone.timeout a.node hnode config hconfig e he)

/-- The requests that are left, from one of them on. -/
theorem onward_request (hzone : Zone layout order zone) {retries k : Nat}
    (hk : k + retries = config.maxRetries) (hpos : b.pos = pos.after 2)
    (hcount : b.vars.lookup (collectCounter (layout.labelOf a.node.nodeId)).toList = some (natText k))
    (hshows : (viewOf layout order b).Shows a) :
    Onward dialplan world layout order zone
      (match askDigits config retries a.behaviour.reads with
        | none => a.finish .gone
        | some (enough, reads) =>
          { a with behaviour := { a.behaviour with reads := reads } }.take layout
            (if enough then .default else .timeout)) b := by
  -- on the tries that are left; each one takes keys off the behaviour
  induction retries generalizing a b k with
  | zero =>
    cases hreads : a.behaviour.reads with
    | nil => exact onward_unanswered hplaced hconfig hflow hnode hpos hshows hreads
    | cons keys reads =>
      rcases request_once hplaced hconfig hflow hnode hcode hpos hcount hshows hreads with
        ⟨henough, honward⟩ | ⟨hfew, b', hshows', -, hpos', hway⟩
      · rw [askDigits, if_pos henough]
        exact honward
      · rw [if_neg (by omega)] at hpos'
        rw [askDigits, if_neg hfew]
        exact hway _ (onward_gives_up hplaced hconfig hflow hnode hcode hzone hpos' hshows')
  | succ retries ih =>
    cases hreads : a.behaviour.reads with
    | nil => exact onward_unanswered hplaced hconfig hflow hnode hpos hshows hreads
    | cons keys reads =>
      rcases request_once hplaced hconfig hflow hnode hcode hpos hcount hshows hreads with
        ⟨henough, honward⟩ | ⟨hfew, b', hshows', hcount', hpos', hway⟩
      · rw [askDigits, if_pos henough]
        exact honward
      · rw [if_pos (by omega)] at hpos'
        rw [askDigits, if_neg hfew]
        exact hway _ (ih (a := { a with behaviour := { a.behaviour with reads := reads } }) hplaced hconfig hnode
          (by omega) hpos' hcount' hshows')

/-- The code of a request, from its first priority on. -/
theorem onward_collect (hzone : Zone layout order zone) (hpos : b.pos = pos.next)
    (hshows : (viewOf layout order b).Shows a) :
    Onward dialplan world layout order zone
      (match askDigits config config.maxRetries a.behaviour.reads with
        | none => a.finish .gone
        | some (enough, reads) =>
          { a with behaviour := { a.behaviour with reads := reads } }.take layout
            (if enough then .default else .timeout)) b := by
  have hcontext : b.pos.context = layout.mainContext.toList := hpos ▸ hplaced.context
  have hname := counterName_collect (layout.labelOf a.node.nodeId)
  have hall := hplaced.code
  rw [collect_read_split hconfig] at hall
  have hat := hall.2.1
  rw [← hpos] at hat
  have hoff : OffMenus layout order b.pos := offMenus_main hcontext
  obtain ⟨b', hstep, hpos', hvars, hview⟩ := step_reset (w := world) hname hat hoff
  refine .of_step (safe_of_code hat ?_) hstep ?_
  · rw [hname.takesDigits (resetStep_args _)]
    exact nofun
  · refine onward_request hplaced hconfig hflow hnode hcode hzone (Nat.zero_add _) ?_ ?_
      (hview.symm ▸ hshows)
    · rw [hpos', hpos]
      rfl
    · rw [hvars, List.lookup_cons_self]

end Collect

end KasterCti.ArsFlow
