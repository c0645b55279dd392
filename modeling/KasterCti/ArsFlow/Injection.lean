import KasterCti.ArsFlow.NodeConfig
import KasterCti.ArsFlow.Renderer
import Mathlib.Algebra.GroupWithZero.Nat

/-!
# Which lines a compiled flow has

The compiler joins template lines; the PBX cuts the text at line breaks. The
names, numbers and keys that pass `assertNoNewlines` cannot add a line. The flow
name and the node labels are printed without that check, so the text has
exactly the template lines when, and only when, those are free of line breaks.
-/

namespace KasterCti.ArsFlow

open Lines Renderers

def Free (ls : List String) : Prop := ∀ l ∈ ls, hasBreak l = false

@[simp] theorem free_nil : Free [] := by
  intro l hl
  cases hl

variable {ls : List String}

@[simp] theorem free_cons {l : String} : Free (l :: ls) ↔ hasBreak l = false ∧ Free ls := by
  simp [Free]

@[simp] theorem free_append {ls ms : List String} : Free (ls ++ ms) ↔ Free ls ∧ Free ms := by
  simp only [Free, List.mem_append]
  constructor
  · intro h
    exact ⟨fun l hl => h l (.inl hl), fun l hl => h l (.inr hl)⟩
  · rintro ⟨hl, hm⟩ l (h | h)
    · exact hl l h
    · exact hm l h

variable {α : Type}

theorem free_of_forall₂ {f : α → Render String} {xs : List α}
    (h : List.Forall₂ (fun x l => f x = .ok l) xs ls)
    (hf : ∀ x l, f x = .ok l → hasBreak l = false) : Free ls := by
  induction h with
  | nil => exact free_nil
  | cons hx _ ih => exact free_cons.mpr ⟨hf _ _ hx, ih⟩

/-! ## Names made by the compiler -/

theorem hasBreak_labelSlug (node : FlowNode) : hasBreak (labelSlug node) = false := by
  rw [labelSlug]
  split
  · cases node.nodeType <;> rfl
  · exact hasBreak_toSlug _

theorem hasBreak_nodeLabel (index : Nat) (node : FlowNode) :
    hasBreak (nodeLabel index node) = false := by
  simp +decide [nodeLabel, hasBreak_labelSlug]

theorem hasBreak_flowSlug (graph : FlowGraph) : hasBreak (flowSlug graph) = false := by
  rw [flowSlug]
  split <;> exact hasBreak_toSlug _

theorem hasBreak_mainContext (graph : FlowGraph) : hasBreak (mainContext graph) = false := by
  simp +decide [mainContext, hasBreak_flowSlug]

theorem hasBreak_varRef (name : String) : hasBreak (varRef name) = hasBreak name := by
  simp +decide [varRef, show hasBreak "\x7d" = false from rfl]

theorem hasBreak_toVariableName (text : String) : hasBreak (toVariableName text) = false := by
  rw [toVariableName, hasBreak_ofList, List.any_eq_false]
  intro c hc
  obtain ⟨d, _, rfl⟩ := List.mem_map.mp hc
  split
  · rename_i hd
    intro hb
    rcases isBreak_iff.mp hb with rfl | rfl <;> exact absurd hd (by decide)
  · decide

theorem hasBreak_clockTime (time : ClockTime) : hasBreak time.text = false := by
  rw [hasBreak, List.any_eq_false]
  intro c hc hb
  rcases clockTime_char hc with hd | rfl
  · rw [isBreak_of_isDigit hd] at hb
    cases hb
  · exact absurd hb (by decide)

theorem hasBreak_buildTimeSpec (config : ConditionConfig) :
    hasBreak (buildTimeSpec config) = false := by
  cases config with
  | holiday => rfl
  | timeRange timeStart timeEnd daysOfWeek =>
    have hdays : hasBreak (if daysOfWeek = [] then "*" else "&".intercalate
        ((daysOfWeek.insertionSort (fun a b => weekdayIndex a ≤ weekdayIndex b)).map
          Weekday.text)) = false := by
      split
      · rfl
      · refine hasBreak_intercalate rfl ?_
        intro l hl
        obtain ⟨day, _, rfl⟩ := List.mem_map.mp hl
        cases day <;> rfl
    simp +decide [buildTimeSpec, hasBreak_clockTime, hdays]

theorem hasBreak_prefixSame {line : String} (h : hasBreak line = false) :
    hasBreak (prefixSame line) = false := by
  unfold prefixSame
  split
  · rename_i label body hm
    have hsub : label.Sublist line.toList ∧ body.Sublist line.toList := by
      unfold matchLabeled at hm
      split at hm
      · rename_i rest heq
        rw [heq]
        split at hm
        · rename_i body' hdrop
          split at hm
          · simp only [Option.some.injEq, Prod.mk.injEq] at hm
            obtain ⟨rfl, rfl⟩ := hm
            refine ⟨(List.takeWhile_sublist _).cons _, ?_⟩
            have hrest : (')' :: body').Sublist rest := hdrop ▸ List.dropWhile_sublist _
            exact ((List.sublist_cons_self _ _).trans hrest).cons _
          · cases hm
        · cases hm
      · cases hm
    simp +decide [hasBreak_ofList_sublist hsub.1 h, hasBreak_ofList_sublist hsub.2 h]
  · simp +decide [h]

theorem free_map_prefixSame (h : Free ls) : Free (ls.map prefixSame) := by
  intro l hl
  obtain ⟨m, hm, rfl⟩ := List.mem_map.mp hl
  exact hasBreak_prefixSame (h m hm)

theorem hasBreak_stripGoto {line : String} (h : hasBreak line = false) :
    hasBreak (stripGoto line) = false := by
  unfold stripGoto
  split
  · split
    · rename_i rest _ hrest
      rw [hasBreak_ofList, List.any_eq_false]
      intro c hc hb
      have hdot := List.all_eq_true.mp (Bool.and_eq_true_iff.mp hrest).2 c hc
      rcases isBreak_iff.mp hb with rfl | rfl <;> exact absurd hdot (by decide)
    · exact h
  · exact h

/-! ## What each part of the compiler emits -/

/-- `ls` are `n` lines without a break. -/
structure Emits (n : Nat) (ls : List String) : Prop where
  free : Free ls
  length : ls.length = n

theorem Emits.append {m n : Nat} {ls ms : List String} (hl : Emits m ls) (hm : Emits n ms) :
    Emits (m + n) (ls ++ ms) :=
  ⟨free_append.mpr ⟨hl.free, hm.free⟩, by rw [List.length_append, hl.length, hm.length]⟩

theorem Emits.map_prefixSame {n : Nat} (h : Emits n ls) : Emits n (ls.map prefixSame) :=
  ⟨free_map_prefixSame h.free, by rw [List.length_map, h.length]⟩

theorem emits_hangup : Emits 1 ["Hangup()"] := ⟨by simp +decide, rfl⟩

/-- The lines of a list of parts, when each part emits what is counted for it. -/
theorem emits_flatMap {f : α → Render (List String)} {g : List String → List String}
    {count : α → Nat} {xs : List α} {parts : List (List String)}
    (h : List.Forall₂ (fun x part => f x = .ok part) xs parts)
    (hf : ∀ x ∈ xs, ∀ part, f x = .ok part → Emits (count x) (g part)) :
    Emits (xs.map count).sum (parts.flatMap g) := by
  induction h with
  | nil => exact ⟨free_nil, rfl⟩
  | cons hx _ ih =>
    rw [List.map_cons, List.sum_cons, List.flatMap_cons]
    exact (hf _ (by simp) _ hx).append (ih (fun x hx => hf x (List.mem_cons_of_mem _ hx)))

theorem emits_flatten {f : α → Render (List String)} {count : α → Nat} {xs : List α}
    {parts : List (List String)} (h : List.Forall₂ (fun x part => f x = .ok part) xs parts)
    (hf : ∀ x ∈ xs, ∀ part, f x = .ok part → Emits (count x) part) :
    Emits (xs.map count).sum parts.flatten := by
  rw [← List.flatMap_id]
  exact emits_flatMap h hf

def playbackCount (promptKey : Option String) : Nat := if (given promptKey).isSome then 1 else 0

theorem emits_playbackLine {promptKey : Option String} (h : playbackLine promptKey = .ok ls) :
    Emits (playbackCount promptKey) ls := by
  unfold playbackLine at h
  split at h
  · rename_i key hkey
    obtain ⟨target, htarget, h⟩ := bind_eq_ok.mp h
    rw [← pure_eq_ok.mp h, playbackCount, hkey]
    refine ⟨?_, rfl⟩
    simp +decide [(toPlaybackTarget_eq_ok htarget).2]
  · rename_i hkey
    rw [← pure_eq_ok.mp h, playbackCount, hkey]
    exact ⟨free_nil, rfl⟩

/-- The layout's own names have no break. -/
structure Layout.Plain (layout : Layout) : Prop where
  main : hasBreak layout.mainContext = false
  labels : ∀ entry ∈ layout.labels, hasBreak entry.2 = false

theorem layoutOf_plain (localeCompare : String → String → Int) (graph : FlowGraph) :
    (layoutOf localeCompare graph).Plain := by
  refine ⟨hasBreak_mainContext graph, ?_⟩
  intro entry hentry
  obtain ⟨⟨node, index⟩, _, rfl⟩ := List.mem_map.mp hentry
  exact hasBreak_nodeLabel index node

variable {layout : Layout}

theorem Layout.Plain.labelOf (h : layout.Plain) (nodeId : String) :
    hasBreak (layout.labelOf nodeId) = false := by
  rw [Layout.labelOf]
  cases hl : layout.labels.lookup nodeId with
  | none => rfl
  | some label =>
    rw [List.lookup_eq_some_iff] at hl
    obtain ⟨before, after, heq, _⟩ := hl
    exact h.labels (nodeId, label) (by simp [heq])

theorem Layout.Plain.menuContextOf (h : layout.Plain) (nodeId : String) :
    hasBreak (layout.menuContextOf nodeId) = false := by
  simp +decide [Layout.menuContextOf, h.main, h.labelOf]

def FlowNode.jumpCount (node : FlowNode) : Nat :=
  match node.config with
  | .hangup promptKey => playbackCount promptKey + 1
  | _ => 1

variable {node : FlowNode}

theorem emits_renderJump (hl : layout.Plain) (h : renderJump layout node = .ok ls) :
    Emits node.jumpCount ls := by
  unfold renderJump at h
  unfold FlowNode.jumpCount
  cases hconfig : node.config <;> simp only [hconfig] at h ⊢
  case queue queueName =>
    obtain ⟨_, hname, h⟩ := bind_eq_ok.mp h
    rw [← pure_eq_ok.mp h]
    exact ⟨by simp +decide [assertNoNewlines_eq_ok.mp hname], rfl⟩
  case transfer transferNumber =>
    obtain ⟨_, hname, h⟩ := bind_eq_ok.mp h
    rw [← pure_eq_ok.mp h]
    exact ⟨by simp +decide [assertNoNewlines_eq_ok.mp hname], rfl⟩
  case hangup promptKey =>
    obtain ⟨plays, hplays, h⟩ := bind_eq_ok.mp h
    rw [← pure_eq_ok.mp h]
    exact (emits_playbackLine hplays).append emits_hangup
  case menu config =>
    rw [← pure_eq_ok.mp h]
    exact ⟨by simp +decide [hl.menuContextOf], rfl⟩
  all_goals
    rw [← pure_eq_ok.mp h]
    exact ⟨by simp +decide [hl.main, hl.labelOf], rfl⟩

def Layout.jumpCount (layout : Layout) (nodeId : String) : Nat :=
  ((layout.graph.nodeById nodeId).map FlowNode.jumpCount).getD 0

theorem emits_jump (hl : layout.Plain) {nodeId : String} (h : layout.jump nodeId = .ok ls) :
    Emits (layout.jumpCount nodeId) ls := by
  unfold Layout.jump at h
  rw [Layout.jumpCount]
  split at h
  · rename_i node hnode
    rw [hnode]
    exact emits_renderJump hl h
  · cases h

def Layout.edgeCount (layout : Layout) : Option FlowEdge → Nat
  | some edge => layout.jumpCount edge.toNodeId
  | none => 1

theorem emits_jumpOrHangup (hl : layout.Plain) {edge : Option FlowEdge}
    (h : layout.jumpOrHangup edge = .ok ls) : Emits (layout.edgeCount edge) ls := by
  cases edge with
  | none =>
    rw [← pure_eq_ok.mp h]
    exact emits_hangup
  | some edge => exact emits_jump hl h

/-- The jump along the first edge of a condition. -/
def Layout.takeCount (layout : Layout) (node : FlowNode) (condition : FlowEdgeCondition) : Nat :=
  layout.edgeCount (layout.findEdge node.nodeId condition)

theorem emits_httpLookup (hl : layout.Plain) {endpointId label : String}
    {waitPromptKey : Option String} (hlabel : hasBreak label = false)
    (h : renderHttpLookup layout node endpointId waitPromptKey label = .ok ls) :
    Emits (playbackCount waitPromptKey + 2 + layout.takeCount node .false + 1 +
      layout.takeCount node .true) ls := by
  unfold renderHttpLookup at h
  obtain ⟨_, hendpoint, h⟩ := bind_eq_ok.mp h
  obtain ⟨wait, hwait, h⟩ := bind_eq_ok.mp h
  obtain ⟨onFalse, hfalse, h⟩ := bind_eq_ok.mp h
  obtain ⟨onTrue, htrue, h⟩ := bind_eq_ok.mp h
  rw [← pure_eq_ok.mp h]
  refine (Emits.append (Emits.append (Emits.append (Emits.append (emits_playbackLine hwait) ?_)
    (emits_jumpOrHangup hl hfalse)) ?_) (emits_jumpOrHangup hl htrue))
  · exact ⟨by simp +decide [hasBreak_varRef, assertNoNewlines_eq_ok.mp hendpoint, hlabel], rfl⟩
  · exact ⟨by simp +decide [hasBreak_varRef, hlabel], rfl⟩

theorem hasBreak_promptTarget {promptKey : Option String} {target : String}
    (h : promptTarget promptKey = .ok target) : hasBreak target = false := by
  unfold promptTarget at h
  split at h
  · exact (toPlaybackTarget_eq_ok h).2
  · rw [← pure_eq_ok.mp h]
    rfl

theorem emits_collectDigits (hl : layout.Plain) {config : CollectDigitsConfig} {label : String}
    (hlabel : hasBreak label = false) (h : renderCollectDigits layout node config label = .ok ls) :
    Emits (6 + layout.takeCount node .timeout + 1 + layout.takeCount node .default) ls := by
  unfold renderCollectDigits at h
  obtain ⟨prompt, hprompt, h⟩ := bind_eq_ok.mp h
  obtain ⟨onTimeout, htimeout, h⟩ := bind_eq_ok.mp h
  obtain ⟨next, hnext, h⟩ := bind_eq_ok.mp h
  rw [← pure_eq_ok.mp h]
  refine Emits.append (Emits.append (Emits.append ?_ (emits_jumpOrHangup hl htimeout)) ?_)
    (emits_jumpOrHangup hl hnext)
  · exact ⟨by simp +decide [hasBreak_varRef, hasBreak_toVariableName, hlabel,
      hasBreak_promptTarget hprompt], rfl⟩
  · exact ⟨by simp +decide [hasBreak_varRef, hlabel], rfl⟩

def conditionCount (layout : Layout) (node : FlowNode) : Nat :=
  match layout.findEdge node.nodeId .true with
  | none => layout.takeCount node .false
  | some onTrue =>
    if layout.jumpCount onTrue.toNodeId = 1 then 1 + layout.takeCount node .false
    else 1 + layout.takeCount node .false + 1 + layout.jumpCount onTrue.toNodeId

theorem emits_condition (hl : layout.Plain) {config : ConditionConfig} {label : String}
    (hlabel : hasBreak label = false) (hnode : hasBreak node.label = false)
    (h : renderCondition layout node config label = .ok ls) :
    Emits (conditionCount layout node) ls := by
  unfold renderCondition at h
  obtain ⟨otherwise, hfalse, h⟩ := bind_eq_ok.mp h
  have hfalse := emits_jumpOrHangup hl hfalse
  unfold conditionCount
  cases hedge : layout.findEdge node.nodeId .true with
  | none =>
    rw [hedge] at h
    rw [← pure_eq_ok.mp h]
    exact hfalse
  | some onTrue =>
    rw [hedge] at h
    obtain ⟨target, htarget, h⟩ := bind_eq_ok.mp h
    have htarget := emits_jump hl htarget
    split at h
    · rename_i line _
      rw [← pure_eq_ok.mp h]
      have hone : layout.jumpCount onTrue.toNodeId = 1 := htarget.length.symm
      simp only [hone, if_true]
      refine Emits.append ?_ hfalse
      exact ⟨by simp +decide [hasBreak_buildTimeSpec,
        hasBreak_stripGoto (htarget.free line (by simp))], rfl⟩
    · rename_i hmany
      rw [← pure_eq_ok.mp h]
      have hmany : layout.jumpCount onTrue.toNodeId ≠ 1 := by
        rw [← htarget.length]
        intro hlen
        obtain ⟨line, rfl⟩ := List.length_eq_one_iff.mp hlen
        exact hmany line rfl
      simp only [hmany, if_false]
      refine Emits.append (Emits.append (Emits.append ?_ hfalse) ?_) htarget
      · exact ⟨by simp +decide [hasBreak_buildTimeSpec, hlabel], rfl⟩
      · exact ⟨by simp +decide [hlabel, hnode], rfl⟩

def inlineCount (layout : Layout) (node : FlowNode) : Nat :=
  match node.config with
  | .play promptKeys => promptKeys.length + layout.takeCount node .default
  | .sms _ _ => 2 + layout.takeCount node .default
  | .optOut _ _ => 7 + layout.takeCount node .default
  | .condition _ => conditionCount layout node
  | .collectDigits _ =>
    6 + layout.takeCount node .timeout + 1 + layout.takeCount node .default
  | .httpLookup _ waitPromptKey =>
    playbackCount waitPromptKey + 2 + layout.takeCount node .false + 1 +
      layout.takeCount node .true
  | _ => 1

theorem emits_plays {promptKeys plays : List String}
    (h : promptKeys.mapM (fun key => do
      pure ("Playback(" ++ (← toPlaybackTarget key) ++ ")")) = Except.ok plays) :
    Emits promptKeys.length plays := by
  have hall := mapM_eq_ok.mp h
  refine ⟨free_of_forall₂ hall ?_, hall.length_eq.symm⟩
  intro key line hline
  obtain ⟨target, htarget, hline⟩ := bind_eq_ok.mp hline
  rw [← pure_eq_ok.mp hline]
  simp +decide [(toPlaybackTarget_eq_ok htarget).2]

theorem hasBreak_targetNumberExpression (targetSource : DigitTargetSource) :
    hasBreak (targetNumberExpression targetSource) = false := by
  cases targetSource <;> rfl

/-- A hook command quotes its arguments. -/
theorem hasBreak_hookCommand {path : String} {args : List String} (hpath : hasBreak path = false)
    (hargs : ∀ arg ∈ args, hasBreak arg = false) :
    hasBreak (path ++ " " ++ " ".intercalate (args.map shellQuote)) = false := by
  have hquoted : hasBreak (" ".intercalate (args.map shellQuote)) = false := by
    refine hasBreak_eq_false_iff.mpr ?_
    intro c hc
    rcases mem_quotedWords hc with hc | ⟨arg, harg, hc⟩
    · have hmarks : " '\"".toList.all (fun c => !isBreak c) = true := by decide
      simpa using List.all_eq_true.mp hmarks c hc
    · exact hasBreak_eq_false_iff.mp (hargs arg harg) c hc
  rw [hasBreak_append, hasBreak_append, hpath, hquoted]
  rfl

theorem hasBreak_smsHook (targetSource : DigitTargetSource) :
    hasBreak (buildSmartArsHookCommand "sms" (targetNumberExpression targetSource)) = false := by
  refine @hasBreak_hookCommand _ ["sms", varRef "SMART_ARS_TENANT_ID",
    varRef "SMART_ARS_BRANCH_ID", varRef "ENTRY_DID", targetNumberExpression targetSource,
    varRef "SMART_ARS_SELECTED_SMS_TEMPLATE"] rfl ?_
  simp +decide [hasBreak_targetNumberExpression]

theorem hasBreak_optOutHook (action : OptOutAction) :
    hasBreak (buildOptOutHookCommand
      (if action = .unregister then "unregister" else "register")) = false := by
  have haction : hasBreak (if action = .unregister then "unregister" else "register") = false := by
    cases action <;> rfl
  refine @hasBreak_hookCommand _ [if action = .unregister then "unregister" else "register",
    varRef "OPT_OUT_TENANT_ID", varRef "OPT_OUT_BRANCH_ID", varRef "ENTRY_DID",
    varRef "REQUESTER_PHONE", varRef "OPT_OUT_TARGET_PHONE", varRef "OPT_OUT_SOURCE_TYPE",
    varRef "OPT_OUT_SELECTED_SMS_TEMPLATE"] rfl ?_
  simp +decide [haction]

theorem emits_inlineNode (hl : layout.Plain) {label : String} (hlabel : hasBreak label = false)
    (hnode : hasBreak node.label = false) (h : renderInlineNode layout node label = .ok ls) :
    Emits (inlineCount layout node) ls := by
  unfold renderInlineNode at h
  unfold inlineCount
  cases hconfig : node.config <;> simp only [hconfig] at h ⊢
  case play promptKeys =>
    obtain ⟨plays, hplays, h⟩ := bind_eq_ok.mp h
    obtain ⟨next, hnext, h⟩ := bind_eq_ok.mp h
    rw [← pure_eq_ok.mp h]
    exact (emits_plays hplays).append (emits_jumpOrHangup hl hnext)
  case sms smsTemplateId targetSource =>
    obtain ⟨_, htemplate, h⟩ := bind_eq_ok.mp h
    obtain ⟨next, hnext, h⟩ := bind_eq_ok.mp h
    rw [← pure_eq_ok.mp h]
    refine Emits.append ?_ (emits_jumpOrHangup hl hnext)
    exact ⟨by simp +decide [assertNoNewlines_eq_ok.mp htemplate, hasBreak_smsHook], rfl⟩
  case optOut action targetSource =>
    obtain ⟨next, hnext, h⟩ := bind_eq_ok.mp h
    rw [← pure_eq_ok.mp h]
    refine Emits.append ?_ (emits_jumpOrHangup hl hnext)
    exact ⟨by simp +decide [hasBreak_optOutHook, hasBreak_targetNumberExpression],
      rfl⟩
  case condition config => exact emits_condition hl hlabel hnode h
  case collectDigits config => exact emits_collectDigits hl hlabel h
  case httpLookup endpointId waitPromptKey => exact emits_httpLookup hl hlabel h
  all_goals
    rw [← pure_eq_ok.mp h]
    exact emits_hangup

theorem emits_labeled (hl : layout.Plain) (hnode : hasBreak node.label = false)
    (h : renderLabeled layout node = .ok ls) : Emits (1 + inlineCount layout node) ls := by
  unfold renderLabeled at h
  obtain ⟨body, hbody, h⟩ := bind_eq_ok.mp h
  rw [← pure_eq_ok.mp h, ← List.singleton_append]
  refine Emits.append ?_ (emits_inlineNode hl (hl.labelOf _) hnode hbody).map_prefixSame
  exact ⟨by simp +decide [hl.labelOf, hnode], rfl⟩

/-- An extension takes the first line of its body into its own line. -/
theorem emits_extension {exten : String} {body : List String} {n : Nat}
    (hexten : hasBreak exten = false) (h : Emits n body) :
    Emits (n - 1 + 1) (renderExtension exten body) := by
  have hhead : hasBreak (body.head?.getD "undefined") = false := by
    cases body with
    | nil => rfl
    | cons line body => exact h.free line (by simp)
  have htail : Emits (n - 1) (body.tail.map prefixSame) := by
    refine Emits.map_prefixSame ⟨fun l hl => h.free l (List.mem_of_mem_tail hl), ?_⟩
    rw [List.length_tail, h.length]
  rw [renderExtension, ← List.singleton_append, Nat.add_comm]
  refine Emits.append ?_ htail
  exact ⟨by simp +decide [hexten, hhead], rfl⟩

def digitCount (layout : Layout) (edge : FlowEdge) : Nat :=
  match edge.condition, given edge.digit with
  | .digit, some _ => layout.jumpCount edge.toNodeId - 1 + 1
  | _, _ => 0

/-- An edge with a key becomes an extension, another one nothing. -/
theorem renderDigit_eq_ok {edge : FlowEdge} (h : renderDigit layout edge = .ok ls) :
    (∃ digit body, edge.condition = .digit ∧ given edge.digit = some digit ∧
      hasBreak digit = false ∧ layout.jump edge.toNodeId = .ok body ∧
      ls = renderExtension digit body) ∨
    (ls = [] ∧ ∀ digit, edge.condition = .digit → given edge.digit ≠ some digit) := by
  unfold renderDigit at h
  split at h
  · rename_i digit hcondition hdigit
    obtain ⟨_, hfree, h⟩ := bind_eq_ok.mp h
    obtain ⟨body, hbody, h⟩ := bind_eq_ok.mp h
    exact .inl ⟨digit, body, hcondition, hdigit, assertNoNewlines_eq_ok.mp hfree, hbody,
      (pure_eq_ok.mp h).symm⟩
  · rename_i hno
    exact .inr ⟨(pure_eq_ok.mp h).symm, hno⟩

theorem emits_digit (hl : layout.Plain) {edge : FlowEdge} (h : renderDigit layout edge = .ok ls) :
    Emits (digitCount layout edge) ls := by
  unfold digitCount
  rcases renderDigit_eq_ok h with ⟨digit, body, hcondition, hdigit, hfree, hbody, rfl⟩ | ⟨rfl, hno⟩
  · rw [hcondition, hdigit]
    exact emits_extension hfree (emits_jump hl hbody)
  · split
    · rename_i digit hcondition hdigit
      exact absurd hdigit (hno digit hcondition)
    · exact ⟨free_nil, rfl⟩

def menuCount (layout : Layout) (node : FlowNode) : Nat :=
  match node.config with
  | .menu config =>
    let retries := if config.maxRetries > 0 then 1 else 0
    let again := if config.maxRetries > 0 && (given config.promptKey).isSome then 2 else 0
    let invalid := match layout.findEdge node.nodeId .invalid with
      | some edge => layout.jumpCount edge.toNodeId - 1 + 1
      | none => 0
    2 + retries + playbackCount config.promptKey + 1 +
      ((layout.outgoing node.nodeId).map (digitCount layout)).sum +
      (again + layout.takeCount node .timeout - 1 + 1) + invalid
  | _ => 0

theorem emits_menuPromptLine {config : MenuConfig} (h : menuPromptLine config = .ok ls) :
    Emits (playbackCount config.promptKey) ls := by
  unfold menuPromptLine at h
  split at h
  · rename_i key hkey
    obtain ⟨target, htarget, h⟩ := bind_eq_ok.mp h
    rw [← pure_eq_ok.mp h, playbackCount, hkey]
    refine ⟨?_, rfl⟩
    split <;> simp +decide [(toPlaybackTarget_eq_ok htarget).2]
  · rename_i hkey
    rw [← pure_eq_ok.mp h, playbackCount, hkey]
    exact ⟨free_nil, rfl⟩

theorem emits_menu (hl : layout.Plain) (hnode : hasBreak node.label = false)
    (h : renderMenu layout node = .ok ls) : Emits (menuCount layout node) ls := by
  unfold renderMenu at h
  unfold menuCount
  cases hconfig : node.config <;> simp only [hconfig] at h ⊢
  case menu config =>
    unfold renderMenuContext at h
    obtain ⟨prompt, hprompt, h⟩ := bind_eq_ok.mp h
    obtain ⟨digits, hdigits, h⟩ := bind_eq_ok.mp h
    obtain ⟨giveUp, hgiveUp, h⟩ := bind_eq_ok.mp h
    obtain ⟨invalid, hinvalid, h⟩ := bind_eq_ok.mp h
    rw [← pure_eq_ok.mp h]
    refine Emits.append (Emits.append (Emits.append (Emits.append (Emits.append
      (Emits.append ?_ ?_) (emits_menuPromptLine hprompt)) ?_)
      (emits_flatten (mapM_eq_ok.mp hdigits) (fun edge _ part hpart => emits_digit hl hpart)))
      (emits_extension (by decide) ?_)) ?_
    · exact ⟨by simp +decide [hl.menuContextOf, hnode], rfl⟩
    · split
      · exact ⟨by simp +decide [hasBreak_toVariableName], rfl⟩
      · exact ⟨free_nil, rfl⟩
    · exact ⟨by simp +decide, rfl⟩
    · split
      · refine Emits.append ?_ (emits_jumpOrHangup hl hgiveUp)
        exact ⟨by simp +decide [hasBreak_varRef, hasBreak_toVariableName], rfl⟩
      · rw [Nat.zero_add]
        exact emits_jumpOrHangup hl hgiveUp
    · unfold renderInvalid at hinvalid
      cases hedge : layout.findEdge node.nodeId .invalid with
      | some edge =>
        rw [hedge] at hinvalid
        obtain ⟨body, hbody, hinvalid⟩ := bind_eq_ok.mp hinvalid
        rw [← pure_eq_ok.mp hinvalid]
        exact emits_extension (by decide) (emits_jump hl hbody)
      | none =>
        rw [hedge] at hinvalid
        rw [← pure_eq_ok.mp hinvalid]
        exact ⟨free_nil, rfl⟩
  all_goals
    rw [← pure_eq_ok.mp h]
    exact ⟨free_nil, rfl⟩

/-! ## Context headers -/

def isHeader (line : String) : Bool := line.toList.head? = some '['

/-- No line of the list opens a context. -/
def NoHeader (ls : List String) : Prop := ∀ l ∈ ls, isHeader l = false

theorem isHeader_append {s t : String} {c : Char} (hs : s.toList.head? = some c) (hc : c ≠ '[') :
    isHeader (s ++ t) = false := by
  simp [isHeader, hs, hc]

theorem isHeader_prefixSame (line : String) : isHeader (prefixSame line) = false := by
  unfold prefixSame
  split
  · rw [String.append_assoc, String.append_assoc]
    exact isHeader_append (c := ' ') rfl (by decide)
  · exact isHeader_append (c := ' ') rfl (by decide)

theorem noHeader_map_prefixSame (ls : List String) : NoHeader (ls.map prefixSame) := by
  intro l hl
  obtain ⟨m, _, rfl⟩ := List.mem_map.mp hl
  exact isHeader_prefixSame m

theorem noHeader_cons {l : String} (hl : isHeader l = false) (h : NoHeader ls) :
    NoHeader (l :: ls) :=
  List.forall_mem_cons.mpr ⟨hl, h⟩

theorem noHeader_append {ls ms : List String} (hl : NoHeader ls) (hm : NoHeader ms) :
    NoHeader (ls ++ ms) := by
  intro l h
  rcases List.mem_append.mp h with h | h
  · exact hl l h
  · exact hm l h

theorem noHeader_flatten {f : α → Render (List String)} {xs : List α} {parts : List (List String)}
    (h : List.Forall₂ (fun x part => f x = .ok part) xs parts)
    (hf : ∀ x part, f x = .ok part → NoHeader part) : NoHeader parts.flatten := by
  induction h with
  | nil =>
    intro l hl
    cases hl
  | cons hx _ ih => exact noHeader_append (hf _ _ hx) ih

theorem noHeader_labeled (h : renderLabeled layout node = .ok ls) : NoHeader ls := by
  unfold renderLabeled at h
  obtain ⟨body, _, h⟩ := bind_eq_ok.mp h
  rw [← pure_eq_ok.mp h]
  refine noHeader_cons ?_ (noHeader_map_prefixSame body)
  simp only [String.append_assoc]
  exact isHeader_append (c := ' ') rfl (by decide)

theorem noHeader_extension (exten : String) (body : List String) :
    NoHeader (renderExtension exten body) := by
  refine noHeader_cons ?_ (noHeader_map_prefixSame _)
  simp only [String.append_assoc]
  exact isHeader_append (c := 'e') rfl (by decide)

theorem noHeader_digit {edge : FlowEdge} (h : renderDigit layout edge = .ok ls) : NoHeader ls := by
  rcases renderDigit_eq_ok h with ⟨digit, body, -, -, -, -, rfl⟩ | ⟨rfl, -⟩
  · exact noHeader_extension digit body
  · intro l hl
    cases hl

/-- A context is its header followed by lines that open no other. -/
def OneContext (name : String) (ls : List String) : Prop :=
  ∃ rest, ls = ("[" ++ name ++ "]") :: rest ∧ NoHeader rest

theorem OneContext.filter {name : String} (h : OneContext name ls) :
    ls.filter isHeader = ["[" ++ name ++ "]"] := by
  obtain ⟨rest, rfl, hrest⟩ := h
  have hhead : isHeader ("[" ++ name ++ "]") = true := by
    simp [isHeader]
  rw [List.filter_cons_of_pos hhead, List.filter_eq_nil_iff.mpr]
  intro l hl
  simp [hrest l hl]

theorem oneContext_menu (hmenu : node.isMenu = true) (h : renderMenu layout node = .ok ls) :
    OneContext (layout.menuContextOf node.nodeId) ls := by
  unfold renderMenu at h
  split at h
  · unfold renderMenuContext at h
    obtain ⟨prompt, hprompt, h⟩ := bind_eq_ok.mp h
    obtain ⟨digits, hdigits, h⟩ := bind_eq_ok.mp h
    obtain ⟨giveUp, _, h⟩ := bind_eq_ok.mp h
    obtain ⟨invalid, hinvalid, h⟩ := bind_eq_ok.mp h
    refine ⟨_, (pure_eq_ok.mp h).symm, ?_⟩
    have hprompt : NoHeader prompt := by
      unfold menuPromptLine at hprompt
      split at hprompt
      · obtain ⟨target, _, hprompt⟩ := bind_eq_ok.mp hprompt
        rw [← pure_eq_ok.mp hprompt]
        refine noHeader_cons ?_ (by simp [NoHeader])
        simp only [String.append_assoc]
        exact isHeader_append (c := ' ') rfl (by decide)
      · rw [← pure_eq_ok.mp hprompt]
        simp [NoHeader]
    have hinvalid : NoHeader invalid := by
      unfold renderInvalid at hinvalid
      split at hinvalid
      · obtain ⟨body, _, hinvalid⟩ := bind_eq_ok.mp hinvalid
        rw [← pure_eq_ok.mp hinvalid]
        exact noHeader_extension _ _
      · rw [← pure_eq_ok.mp hinvalid]
        simp [NoHeader]
    refine noHeader_append (noHeader_append (noHeader_append (noHeader_append (noHeader_append
      (noHeader_cons ?_ ?_) hprompt) ?_)
      (noHeader_flatten (mapM_eq_ok.mp hdigits) (fun edge part hpart => noHeader_digit hpart)))
      (noHeader_extension _ _)) hinvalid
    · rw [String.append_assoc]
      exact isHeader_append (c := 'e') rfl (by decide)
    · split
      · refine noHeader_cons ?_ (by simp [NoHeader])
        simp only [String.append_assoc]
        exact isHeader_append (c := ' ') rfl (by decide)
      · simp [NoHeader]
    · refine noHeader_cons ?_ (by simp [NoHeader])
      rw [String.append_assoc]
      exact isHeader_append (c := ' ') rfl (by decide)
  · rename_i hno
    exfalso
    cases hconfig : node.config <;>
      simp_all [FlowNode.isMenu, FlowNode.nodeType, NodeConfig.nodeType]

theorem noHeader_opening (input : ArsFlowRenderInput) : NoHeader (openingLines input).tail := by
  intro l hl
  simp only [openingLines, List.tail_cons, List.mem_cons, List.not_mem_nil, or_false] at hl
  rcases hl with rfl | rfl | rfl | rfl | rfl | rfl
  · rw [String.append_assoc]
    exact isHeader_append (c := 'e') rfl (by decide)
  · rfl
  · rfl
  all_goals
    rw [String.append_assoc]
    exact isHeader_append (c := ' ') rfl (by decide)

/-! ## The whole text -/

theorem intercalate_cons_flatMap (sep c : List α) (cs : List (List α)) :
    sep.intercalate (c :: cs) = c ++ cs.flatMap (sep ++ ·) := by
  induction cs generalizing c with
  | nil => simp
  | cons d ds ih => rw [List.intercalate_cons_cons, ih, List.flatMap_cons, List.append_assoc,
      List.append_assoc]

theorem checkInput_eq_ok {input : ArsFlowRenderInput} {u : Unit} (h : checkInput input = .ok u) :
    flowSlug input.graph ≠ "" ∧ input.graph.hasNode input.graph.entryNodeId = true ∧
      hasBreak input.did = false ∧ hasBreak input.tenantId = false ∧
      hasBreak (input.branchId.getD "-") = false := by
  unfold checkInput at h
  split at h
  · cases h
  · rename_i hslug
    split at h
    · cases h
    · rename_i hentry
      obtain ⟨_, hdid, h⟩ := bind_eq_ok.mp h
      obtain ⟨_, htenant, h⟩ := bind_eq_ok.mp h
      refine ⟨hslug, by simpa using hentry, assertNoNewlines_eq_ok.mp hdid,
        assertNoNewlines_eq_ok.mp htenant, ?_⟩
      cases hbranch : input.branchId with
      | none => rfl
      | some branchId =>
        by_cases hempty : branchId = ""
        · subst hempty
          rfl
        · have hgiven : given (some branchId) = some branchId := by
            simp [given, hempty]
          rw [hbranch, hgiven] at h
          exact assertNoNewlines_eq_ok.mp h

theorem emits_opening {input : ArsFlowRenderInput} (hinput : checkInput input = .ok ())
    (hname : hasBreak input.graph.name = false) : Emits 7 (openingLines input) := by
  obtain ⟨_, _, hdid, htenant, hbranch⟩ := checkInput_eq_ok hinput
  exact ⟨by simp +decide [openingLines, hasBreak_mainContext, hname, hdid, htenant, hbranch], rfl⟩

section
variable (localeCompare : String → String → Int)

/-- The lines a flow compiles to, counted over its nodes and edges: no text of
the graph enters. -/
def lineCount (graph : FlowGraph) : Nat :=
  let layout := layoutOf localeCompare graph
  let order := orderReachableNodes localeCompare graph
  7 + layout.jumpCount graph.entryNodeId +
    ((order.filter FlowNode.isInline).map (fun node => 1 + inlineCount layout node)).sum +
    ((order.filter FlowNode.isMenu).map (fun node => 1 + menuCount layout node)).sum

/-- One header for the flow and one for every menu in it. -/
def headerLines (graph : FlowGraph) : List String :=
  let layout := layoutOf localeCompare graph
  let menus := (orderReachableNodes localeCompare graph).filter FlowNode.isMenu
  ("[" ++ mainContext graph ++ "]") ::
    menus.map (fun node => "[" ++ layout.menuContextOf node.nodeId ++ "]")

/-- The text has the lines that the templates emit and no other. -/
structure OnlyTemplateLines (input : ArsFlowRenderInput) (text : String) : Prop where
  emitted : ∃ contexts, renderContexts localeCompare input = .ok contexts ∧
    lines text = [""].intercalate contexts
  count : (lines text).length = lineCount localeCompare input.graph
  headers : (lines text).filter isHeader = headerLines localeCompare input.graph

/-- The texts that are printed unchecked, the flow name and the labels of the
nodes with a place of their own, have no line break. -/
def PrintedOnOneLine (graph : FlowGraph) : Prop :=
  hasBreak graph.name = false ∧
    ∀ node ∈ orderReachableNodes localeCompare graph, node.nodeType.isTerminal = false →
      hasBreak node.label = false

variable {localeCompare}

variable {input : ArsFlowRenderInput} {contexts : List (List String)}

theorem renderContexts_eq_ok (h : renderContexts localeCompare input = .ok contexts) :
    let layout := layoutOf localeCompare input.graph
    let order := orderReachableNodes localeCompare input.graph
    checkInput input = .ok () ∧ ∃ entry inline menus,
      layout.jump input.graph.entryNodeId = .ok entry ∧
      List.Forall₂ (fun node part => renderLabeled layout node = .ok part)
        (order.filter FlowNode.isInline) inline ∧
      List.Forall₂ (fun node part => renderMenu layout node = .ok part)
        (order.filter FlowNode.isMenu) menus ∧
      contexts = (openingLines input ++ entry.map prefixSame ++ inline.flatten) :: menus := by
  obtain ⟨_, hinput, h⟩ := bind_eq_ok.mp h
  obtain ⟨entry, hentry, h⟩ := bind_eq_ok.mp h
  obtain ⟨inline, hinline, h⟩ := bind_eq_ok.mp h
  obtain ⟨menus, hmenus, h⟩ := bind_eq_ok.mp h
  exact ⟨hinput, entry, inline, menus, hentry, mapM_eq_ok.mp hinline, mapM_eq_ok.mp hmenus,
    (pure_eq_ok.mp h).symm⟩

theorem isTerminal_of_isInline {node : FlowNode} (h : node.isInline = true) :
    node.nodeType.isTerminal = false := by
  simp only [FlowNode.isInline, Bool.and_eq_true, Bool.not_eq_true'] at h
  exact h.2

theorem isTerminal_of_isMenu {node : FlowNode} (h : node.isMenu = true) :
    node.nodeType.isTerminal = false := by
  simp only [FlowNode.isMenu, decide_eq_true_eq] at h
  rw [h]
  rfl

theorem isInline_or_isMenu {node : FlowNode} (h : node.nodeType.isTerminal = false) :
    node.isInline = true ∨ node.isMenu = true := by
  by_cases hmenu : node.nodeType = .menu
  · exact .inr (by simp [FlowNode.isMenu, hmenu])
  · exact .inl (by simp [FlowNode.isInline, hmenu, h])

/-- Under the condition every emitted line is free and the count is right. -/
theorem emits_contexts (h : renderContexts localeCompare input = .ok contexts)
    (hone : PrintedOnOneLine localeCompare input.graph) :
    Emits (lineCount localeCompare input.graph) ([""].intercalate contexts) := by
  obtain ⟨hinput, entry, inline, menus, hentry, hinline, hmenus, rfl⟩ := renderContexts_eq_ok h
  have hl := layoutOf_plain localeCompare input.graph
  rw [intercalate_cons_flatMap]
  refine Emits.append (Emits.append (Emits.append (emits_opening hinput hone.1)
    (emits_jump hl hentry).map_prefixSame) (emits_flatten hinline ?_)) ?_
  · intro node hnode part hpart
    obtain ⟨hmem, hin⟩ := List.mem_filter.mp hnode
    exact emits_labeled hl (hone.2 node hmem (isTerminal_of_isInline hin)) hpart
  · refine emits_flatMap hmenus ?_
    intro node hnode part hpart
    obtain ⟨hmem, hin⟩ := List.mem_filter.mp hnode
    exact Emits.append ⟨by simp +decide, rfl⟩
      (emits_menu hl (hone.2 node hmem (isTerminal_of_isMenu hin)) hpart)

/-- The headers of the menu contexts, behind their empty lines. -/
theorem headers_menus {layout : Layout} {nodes : List FlowNode} {menus : List (List String)}
    (h : List.Forall₂ (fun node part => renderMenu layout node = .ok part) nodes menus)
    (hmenu : ∀ node ∈ nodes, node.isMenu = true) :
    (menus.flatMap ([""] ++ ·)).filter isHeader =
      nodes.map (fun node => "[" ++ layout.menuContextOf node.nodeId ++ "]") := by
  induction h with
  | nil => rfl
  | cons hnode _ ih =>
    have hblank : [""].filter isHeader = [] := rfl
    rw [List.flatMap_cons, List.filter_append, List.filter_append, hblank, List.nil_append,
      (oneContext_menu (hmenu _ (by simp)) hnode).filter, List.map_cons, List.singleton_append,
      ih (fun node hnode => hmenu node (List.mem_cons_of_mem _ hnode))]

theorem headers_contexts (h : renderContexts localeCompare input = .ok contexts) :
    ([""].intercalate contexts).filter isHeader = headerLines localeCompare input.graph := by
  obtain ⟨hinput, entry, inline, menus, hentry, hinline, hmenus, rfl⟩ := renderContexts_eq_ok h
  have hmain : OneContext (mainContext input.graph)
      (openingLines input ++ entry.map prefixSame ++ inline.flatten) := by
    refine ⟨(openingLines input).tail ++ entry.map prefixSame ++ inline.flatten, rfl,
      noHeader_append (noHeader_append (noHeader_opening input)
        (noHeader_map_prefixSame entry)) (noHeader_flatten hinline ?_)⟩
    intro node part hpart
    exact noHeader_labeled hpart
  rw [intercalate_cons_flatMap, List.filter_append, hmain.filter, headers_menus hmenus,
    List.singleton_append, headerLines]
  intro node hnode
  exact (List.mem_filter.mp hnode).2

theorem lines_renderArsFlow_iff {text : String} (h : renderArsFlow localeCompare input = .ok text)
    (hc : renderContexts localeCompare input = .ok contexts) :
    lines text = [""].intercalate contexts ↔ Free ([""].intercalate contexts) := by
  obtain ⟨contexts', hc', h⟩ := bind_eq_ok.mp h
  obtain rfl : contexts' = contexts := by
    rw [hc'] at hc
    exact Except.ok.inj hc
  obtain ⟨_, entry, inline, menus, _, _, hmenus, heq⟩ := renderContexts_eq_ok hc
  have hne : ∀ l ∈ contexts', l ≠ [] := by
    rw [heq]
    intro l hl
    rcases List.mem_cons.mp hl with rfl | hl
    · simp [openingLines]
    · obtain ⟨node, hnode, hpart⟩ := exists_of_mem_right hmenus hl
      obtain ⟨rest, rfl, _⟩ := oneContext_menu (List.mem_filter.mp hnode).2 hpart
      simp
  rw [← pure_eq_ok.mp h, intercalate_unlines hne, lines_unlines_iff]
  · rfl
  · rw [heq, intercalate_cons_flatMap]
    simp [openingLines]

/-- The name and every printed label stand in some emitted line. -/
theorem printedOnOneLine_of_free (hc : renderContexts localeCompare input = .ok contexts)
    (hfree : Free ([""].intercalate contexts)) : PrintedOnOneLine localeCompare input.graph := by
  obtain ⟨_, entry, inline, menus, _, hinline, hmenus, rfl⟩ := renderContexts_eq_ok hc
  rw [intercalate_cons_flatMap] at hfree
  obtain ⟨hmain, hrest⟩ := free_append.mp hfree
  obtain ⟨hmain, hlabeled⟩ := free_append.mp hmain
  refine ⟨?_, ?_⟩
  · have hname := (free_append.mp hmain).1 ("exten => s,1,NoOp(ARS flow " ++ input.graph.name ++ ")")
      (by simp [openingLines])
    simp only [hasBreak_append, Bool.or_eq_false_iff] at hname
    exact hname.1.2
  · intro node hnode hterminal
    rcases isInline_or_isMenu hterminal with hin | hmenu
    · obtain ⟨part, hpart, hrender⟩ :=
        exists_of_mem_left hinline (List.mem_filter.mpr ⟨hnode, hin⟩)
      unfold renderLabeled at hrender
      obtain ⟨body, _, hrender⟩ := bind_eq_ok.mp hrender
      have hline := hlabeled _ (List.mem_flatten_of_mem hpart
        (by rw [← pure_eq_ok.mp hrender]; exact List.mem_cons_self))
      simp only [hasBreak_append, Bool.or_eq_false_iff] at hline
      exact hline.1.2
    · obtain ⟨part, hpart, hrender⟩ :=
        exists_of_mem_left hmenus (List.mem_filter.mpr ⟨hnode, hmenu⟩)
      unfold renderMenu at hrender
      split at hrender
      · unfold renderMenuContext at hrender
        obtain ⟨prompt, _, hrender⟩ := bind_eq_ok.mp hrender
        obtain ⟨digits, _, hrender⟩ := bind_eq_ok.mp hrender
        obtain ⟨giveUp, _, hrender⟩ := bind_eq_ok.mp hrender
        obtain ⟨invalid, _, hrender⟩ := bind_eq_ok.mp hrender
        have hline := hrest ("exten => s,1,NoOp(ARS menu " ++ node.label ++ ")")
          (List.mem_flatMap.mpr ⟨part, hpart, by rw [← pure_eq_ok.mp hrender]; simp⟩)
        simp only [hasBreak_append, Bool.or_eq_false_iff] at hline
        exact hline.1.2
      · rename_i hno
        simp only [FlowNode.isMenu, FlowNode.nodeType] at hmenu
        cases hconfig : node.config <;> simp_all [NodeConfig.nodeType]

/-- For every graph that compiles, accepted by the API or not: the text consists
of the template lines exactly when the flow name and the printed labels have no
line break. -/
theorem only_template_lines_iff {input : ArsFlowRenderInput} {text : String}
    (h : renderArsFlow localeCompare input = .ok text) :
    OnlyTemplateLines localeCompare input text ↔
      PrintedOnOneLine localeCompare input.graph := by
  constructor
  · rintro ⟨⟨contexts, hc, hlines⟩, _, _⟩
    exact printedOnOneLine_of_free hc ((lines_renderArsFlow_iff h hc).mp hlines)
  · intro hone
    obtain ⟨contexts, hc, _⟩ := bind_eq_ok.mp h
    have hemits := emits_contexts hc hone
    have hlines := (lines_renderArsFlow_iff h hc).mpr hemits.free
    refine ⟨⟨contexts, hc, hlines⟩, ?_, ?_⟩
    · rw [hlines, hemits.length]
    · rw [hlines, headers_contexts hc]

end

/-! ## A request that opens a context of its own -/

def exNodeId : String := "6f1d2c3a-0b4e-4c5d-8e9f-a0b1c2d3e4f5"

/-- A flow that plays one announcement and hangs up, its node labelled `label`. -/
def exRequest (label : String) : ReplaceArsFlowGraphDto where
  entryNodeId := exNodeId
  nodes := [⟨exNodeId, "PLAY", label, .obj [("promptKeys", .arr [.str "vm-goodbye"])]⟩]
  edges := []

def exInput (label : String) : ArsFlowRenderInput where
  graph := ⟨exNodeId, "main", exNodeId, [⟨exNodeId, label, .play ["vm-goodbye"]⟩], []⟩
  did := "0215880000"
  tenantId := exNodeId
  branchId := none

/-- Code point order in place of the collation. -/
def codePointCompare (a b : String) : Int := if a < b then -1 else if a = b then 0 else 1

/-- The compiled text of `exInput`, its label line given. -/
def exText (slug : String) (labelLines : List String) : String :=
  unlines (["[ars-flow-main]", "exten => s,1,NoOp(ARS flow main)", " same => n,Answer()",
    " same => n,Set(CHANNEL(language)=)",
    " same => n,Set(__SMART_ARS_TENANT_ID=6f1d2c3a-0b4e-4c5d-8e9f-a0b1c2d3e4f5)",
    " same => n,Set(__SMART_ARS_BRANCH_ID=-)", " same => n,Set(__ENTRY_DID=0215880000)",
    " same => n,Goto(ars-flow-main,s,node-0-" ++ slug ++ ")"] ++ labelLines ++
    [" same => n,Playback(vm-goodbye)", " same => n,Hangup()"])

set_option maxRecDepth 2000

def exHello : String := exText "hello" [" same => n(node-0-hello),NoOp(ARS node hello)"]

theorem only_template_lines_hello :
    renderArsFlow codePointCompare (exInput "hello") = .ok exHello ∧
      OnlyTemplateLines codePointCompare (exInput "hello") exHello := by
  have hrender : renderArsFlow codePointCompare (exInput "hello") = .ok exHello := by
    decide
  refine ⟨hrender, (only_template_lines_iff hrender).mpr ⟨rfl, ?_⟩⟩
  decide

/-- A label of three lines. -/
def exLabel : String := "a)\n[evil]\nexten => s,1,System(id"

def exInjected : String :=
  exText "a-evil-exten-s-1-system-id"
    [" same => n(node-0-a-evil-exten-s-1-system-id),NoOp(ARS node a)", "[evil]",
      "exten => s,1,System(id)"]

/-- The API takes the label, and the text gets the context `evil` from it. -/
theorem label_opens_context :
    (exRequest exLabel).accepted = true ∧ createName "main" = some "main" ∧
      toGraph exNodeId "main" (exRequest exLabel) = .ok (exInput exLabel).graph ∧
      renderArsFlow codePointCompare (exInput exLabel) = .ok exInjected ∧
      "[evil]" ∈ lines exInjected ∧
      ¬ OnlyTemplateLines codePointCompare (exInput exLabel) exInjected := by
  -- the text is cut at its own line breaks only, so it need not be evaluated
  obtain ⟨ls, hls, hevil, hlength⟩ : ∃ ls, lines exInjected = ls ∧ "[evil]" ∈ ls ∧ ls.length = 13 :=
    ⟨_, lines_unlines (by decide) (by decide), by decide, by decide⟩
  refine ⟨by decide, by decide, by decide, by decide, hls ▸ hevil, ?_⟩
  intro h
  have hcount := h.count
  rw [hls, hlength] at hcount
  exact absurd hcount (by decide)

end KasterCti.ArsFlow
