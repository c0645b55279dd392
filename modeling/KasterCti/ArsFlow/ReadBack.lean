import KasterCti.ArsFlow.Code

/-!
# Reading the compiled text back

What the compiler prints is its code, line by line. The loader takes every
printed line as the step it was printed from, provided that the texts in it have
no character that means something to the reader of the file. So the whole text is
loaded as the sections of the compiled flow.
-/

namespace KasterCti.ArsFlow

open Lines Renderers Dialplan

/-! ## The printed lines are the code -/

theorem bodyLine_plain (app args : String) :
    bodyLine (plainStep app args) = app ++ "(" ++ args ++ ")" := by
  refine String.toList_inj.mp ?_
  simp [bodyLine, plainStep, appText]

theorem bodyLine_labeled (label app args : String) :
    bodyLine (labeledStep label app args) = "(" ++ label ++ ")" ++ app ++ "(" ++ args ++ ")" := by
  refine String.toList_inj.mp ?_
  simp [bodyLine, labeledStep, appText]

/-- Lines with the same characters, their pieces joined in different ways. -/
theorem cons_lines {l m : String} {ls ms : List String} (h : l.toList = m.toList) (hs : ls = ms) :
    l :: ls = m :: ms := by
  rw [String.toList_inj.mp h, hs]

theorem append_lines {ls ls' ms ms' : List String} (hl : ls = ls') (hm : ms = ms') :
    ls ++ ms = ls' ++ ms' := by
  rw [hl, hm]

theorem toPlaybackTarget_eq {promptKey target : String}
    (h : toPlaybackTarget promptKey = .ok target) : target = playbackPath promptKey := by
  obtain ⟨_, _, h⟩ := bind_eq_ok.mp h
  unfold playbackPath
  cases hrest : JsText.afterPrefix? "custom/".toList promptKey.toList with
  | some rest =>
    rw [hrest] at h
    obtain ⟨_, _, h⟩ := bind_eq_ok.mp h
    exact (pure_eq_ok.mp h).symm
  | none =>
    rw [hrest] at h
    exact (pure_eq_ok.mp h).symm

theorem playbackLine_eq {promptKey : Option String} {ls : List String}
    (h : playbackLine promptKey = .ok ls) : ls = (playbackCode promptKey).map bodyLine := by
  unfold playbackLine at h
  unfold playbackCode
  cases hkey : given promptKey with
  | some key =>
    rw [hkey] at h
    obtain ⟨target, htarget, h⟩ := bind_eq_ok.mp h
    rw [← pure_eq_ok.mp h, toPlaybackTarget_eq htarget]
    simp only [List.map_cons, List.map_nil, bodyLine_plain]
    exact cons_lines (by simp) rfl
  | none =>
    rw [hkey] at h
    rw [← pure_eq_ok.mp h]
    rfl

theorem hangup_eq : ["Hangup()"] = [hangupCode].map bodyLine := by
  rw [List.map_singleton, hangupCode, bodyLine_plain]
  rfl

section Printing
variable {layout : Layout} {node : FlowNode} {ls : List String}

theorem renderJump_eq (h : renderJump layout node = .ok ls) :
    ls = (jumpCode layout node).map bodyLine := by
  unfold renderJump at h
  unfold jumpCode
  cases hconfig : node.config <;> simp only [hconfig] at h ⊢
  case queue queueName =>
    obtain ⟨_, _, h⟩ := bind_eq_ok.mp h
    rw [← pure_eq_ok.mp h, List.map_singleton, bodyLine_plain]
    exact cons_lines (by simp) rfl
  case transfer transferNumber =>
    obtain ⟨_, _, h⟩ := bind_eq_ok.mp h
    rw [← pure_eq_ok.mp h, List.map_singleton, bodyLine_plain]
    exact cons_lines (by simp) rfl
  case hangup promptKey =>
    obtain ⟨plays, hplays, h⟩ := bind_eq_ok.mp h
    rw [← pure_eq_ok.mp h, List.map_append, ← playbackLine_eq hplays, ← hangup_eq]
  all_goals
    rw [← pure_eq_ok.mp h, List.map_singleton, bodyLine_plain]
    exact cons_lines (by simp) rfl

theorem jump_eq {nodeId : String} (h : layout.jump nodeId = .ok ls) :
    ls = (((layout.graph.nodeById nodeId).map (jumpCode layout)).getD []).map bodyLine := by
  unfold Layout.jump at h
  split at h
  · rename_i target htarget
    rw [htarget]
    exact renderJump_eq h
  · cases h

theorem jumpOrHangup_eq {edge : Option FlowEdge} (h : layout.jumpOrHangup edge = .ok ls) :
    ls = (edgeCode layout edge).map bodyLine := by
  cases edge with
  | none =>
    rw [← pure_eq_ok.mp h]
    exact hangup_eq
  | some edge => exact jump_eq h

theorem httpLookup_eq {endpointId label : String} {waitPromptKey : Option String}
    (h : renderHttpLookup layout node endpointId waitPromptKey label = .ok ls) :
    ls = (lookupCode layout node endpointId waitPromptKey label).map bodyLine := by
  unfold renderHttpLookup at h
  obtain ⟨_, _, h⟩ := bind_eq_ok.mp h
  obtain ⟨wait, hwait, h⟩ := bind_eq_ok.mp h
  obtain ⟨onFalse, hfalse, h⟩ := bind_eq_ok.mp h
  obtain ⟨onTrue, htrue, h⟩ := bind_eq_ok.mp h
  rw [← pure_eq_ok.mp h, playbackLine_eq hwait, jumpOrHangup_eq hfalse, jumpOrHangup_eq htrue]
  simp only [lookupCode, takeCode, List.map_append, List.map_cons, List.map_nil, bodyLine_plain,
    bodyLine_labeled]
  refine append_lines (append_lines (append_lines (append_lines rfl ?_) rfl) ?_) rfl
  · exact cons_lines (by simp) (cons_lines (by simp) rfl)
  · exact cons_lines (by simp) rfl

theorem promptTarget_eq {promptKey : Option String} {target : String}
    (h : promptTarget promptKey = .ok target) : target = promptPath promptKey := by
  unfold promptTarget at h
  unfold promptPath
  cases hkey : given promptKey with
  | some key =>
    rw [hkey] at h
    exact toPlaybackTarget_eq h
  | none =>
    rw [hkey] at h
    exact (pure_eq_ok.mp h).symm

theorem collectDigits_eq {config : CollectDigitsConfig} {label : String}
    (h : renderCollectDigits layout node config label = .ok ls) :
    ls = (collectCode layout node config label).map bodyLine := by
  unfold renderCollectDigits at h
  obtain ⟨prompt, hprompt, h⟩ := bind_eq_ok.mp h
  obtain ⟨onTimeout, htimeout, h⟩ := bind_eq_ok.mp h
  obtain ⟨next, hnext, h⟩ := bind_eq_ok.mp h
  have hcounter : "ARS_COLLECT_RETRY_" ++ toVariableName label = collectCounter label := rfl
  rw [← pure_eq_ok.mp h, promptTarget_eq hprompt, jumpOrHangup_eq htimeout, jumpOrHangup_eq hnext,
    hcounter]
  simp only [collectCode, takeCode, List.map_append, List.map_cons, List.map_nil, bodyLine_plain,
    bodyLine_labeled]
  refine append_lines (append_lines (append_lines ?_ rfl) ?_) rfl
  · refine cons_lines ?_ (cons_lines ?_ (cons_lines ?_ (cons_lines ?_ (cons_lines ?_
      (cons_lines ?_ rfl)))))
    all_goals simp
  · exact cons_lines (by simp) rfl

theorem condition_eq {config : ConditionConfig} {label : String}
    (h : renderCondition layout node config label = .ok ls) :
    ls = (match layout.findEdge node.nodeId .true with
      | none => takeCode layout node .false
      | some onTrue => conditionCode layout node config label onTrue).map bodyLine := by
  unfold renderCondition at h
  obtain ⟨otherwise, hfalse, h⟩ := bind_eq_ok.mp h
  cases hedge : layout.findEdge node.nodeId .true with
  | none =>
    rw [hedge] at h
    rw [← pure_eq_ok.mp h]
    exact jumpOrHangup_eq hfalse
  | some onTrue =>
    rw [hedge] at h
    obtain ⟨target, htarget, h⟩ := bind_eq_ok.mp h
    have htarget : target = (edgeCode layout (some onTrue)).map bodyLine := jump_eq htarget
    dsimp only
    unfold conditionCode
    split at h
    · rename_i line
      obtain ⟨code, hcode, hline⟩ := List.map_eq_singleton_iff.mp htarget.symm
      rw [← pure_eq_ok.mp h, jumpOrHangup_eq hfalse, hcode, ← hline]
      simp only [takeCode, List.map_append, List.map_cons, List.map_nil, bodyLine_plain]
      exact append_lines (cons_lines (by simp) rfl) rfl
    · rename_i hmany
      rw [← pure_eq_ok.mp h, jumpOrHangup_eq hfalse]
      split
      · rename_i code hcode
        rw [hcode] at htarget
        exact absurd htarget (hmany _)
      · rw [htarget]
        simp only [takeCode, List.map_append, List.map_cons, List.map_nil, bodyLine_plain,
          bodyLine_labeled]
        exact append_lines (append_lines (append_lines (cons_lines (by simp) rfl) rfl)
          (cons_lines (by simp) rfl)) rfl

theorem plays_eq {promptKeys : List String}
    (h : promptKeys.mapM (fun key => do
      pure ("Playback(" ++ (← toPlaybackTarget key) ++ ")")) = Except.ok ls) :
    ls = (promptKeys.map (fun key => plainStep "Playback" (playbackPath key))).map bodyLine := by
  have hall := mapM_eq_ok.mp h
  clear h
  induction hall with
  | nil => rfl
  | cons hline _ ih =>
    obtain ⟨target, htarget, hline⟩ := bind_eq_ok.mp hline
    rw [← pure_eq_ok.mp hline, toPlaybackTarget_eq htarget, List.map_cons, List.map_cons,
      bodyLine_plain]
    exact cons_lines (by simp) ih

theorem inlineNode_eq {label : String} (h : renderInlineNode layout node label = .ok ls) :
    ls = (inlineCode layout node label).map bodyLine := by
  unfold renderInlineNode at h
  unfold inlineCode
  cases hconfig : node.config <;> simp only [hconfig] at h ⊢
  case play promptKeys =>
    obtain ⟨plays, hplays, h⟩ := bind_eq_ok.mp h
    obtain ⟨next, hnext, h⟩ := bind_eq_ok.mp h
    rw [← pure_eq_ok.mp h, plays_eq hplays, jumpOrHangup_eq hnext, ← List.map_append]
    rfl
  case sms smsTemplateId targetSource =>
    obtain ⟨_, _, h⟩ := bind_eq_ok.mp h
    obtain ⟨next, hnext, h⟩ := bind_eq_ok.mp h
    rw [← pure_eq_ok.mp h, jumpOrHangup_eq hnext]
    simp only [takeCode, List.map_append, List.map_cons, List.map_nil, bodyLine_plain]
    exact append_lines (cons_lines (by simp) (cons_lines (by simp) rfl)) rfl
  case optOut action targetSource =>
    obtain ⟨next, hnext, h⟩ := bind_eq_ok.mp h
    rw [← pure_eq_ok.mp h, jumpOrHangup_eq hnext]
    simp only [takeCode, List.map_append, List.map_cons, List.map_nil, bodyLine_plain]
    refine append_lines (cons_lines ?_ (cons_lines ?_ (cons_lines ?_ (cons_lines ?_ (cons_lines ?_
      (cons_lines ?_ (cons_lines ?_ rfl))))))) rfl
    all_goals simp
  case condition config => exact condition_eq h
  case collectDigits config => exact collectDigits_eq h
  case httpLookup endpointId waitPromptKey => exact httpLookup_eq h
  all_goals
    rw [← pure_eq_ok.mp h]
    exact hangup_eq

end Printing

/-! ## Printed steps are read back -/

def isLetter (c : Char) : Bool := ('a' ≤ c && c ≤ 'z') || ('A' ≤ c && c ≤ 'Z')

/-- The step as the line of a context. -/
def sameLine (code : Step) : String :=
  match code.label with
  | some label =>
    " same => n(" ++ String.ofList label ++ ")," ++ String.ofList (appText code.app code.args)
  | none => " same => n," ++ String.ofList (appText code.app code.args)

/-- What the loader needs to take a printed step as it is. -/
structure Readable (code : Step) : Prop where
  app : code.app ≠ [] ∧ code.app.all isLetter = true
  args : ';' ∉ code.args
  label : ∀ label, code.label = some label → label ≠ [] ∧ label.all isLabelChar = true

variable {c : Char} {p : Char → Bool}

/-- A character of a class that another one is not in. -/
theorem notMem_of_all {t : Text} (h : t.all p = true) (hc : p c = false) : c ∉ t := by
  intro hmem
  rw [List.all_eq_true] at h
  rw [h c hmem] at hc
  cases hc

theorem isBlank_of_isLetter (h : isLetter c = true) : isBlank c = false := by
  simp only [isLetter, Bool.or_eq_true, Bool.and_eq_true, decide_eq_true_eq] at h
  simp only [isBlank, decide_eq_false_iff_not, Nat.not_le]
  rcases h with ⟨h, _⟩ | ⟨h, _⟩
  · exact Nat.lt_of_lt_of_le (by decide) (show 'a'.toNat ≤ c.toNat from h)
  · exact Nat.lt_of_lt_of_le (by decide) (show 'A'.toNat ≤ c.toNat from h)

theorem stripped_of_all_isLetter {t : Text} (h : t.all isLetter = true) : Stripped t := by
  rw [List.all_eq_true] at h
  refine ⟨?_, ?_⟩
  · intro c hc
    exact isBlank_of_isLetter (h c (List.mem_of_mem_head? hc))
  · intro c hc
    exact isBlank_of_isLetter (h c (List.mem_of_getLast? hc))

variable {code : Step}

theorem Readable.parseApp (h : Readable code) (label : Option Text) :
    parseApp label (appText code.app code.args) = ⟨label, code.app, code.args⟩ :=
  parseApp_appText (notMem_of_all h.app.2 (by decide)) (stripped_of_all_isLetter h.app.2)

theorem Readable.appText (h : Readable code) : ';' ∉ appText code.app code.args := by
  have happ : ';' ∉ code.app := notMem_of_all h.app.2 (by decide)
  simp [Dialplan.appText, happ, h.args]

theorem Readable.parse_sameLine (h : Readable code) :
    parseLine (sameLine code).toList = .same .next code := by
  obtain ⟨label, app, args⟩ := code
  cases label with
  | none =>
    have htext : (sameLine ⟨none, app, args⟩).toList =
        " same => n,".toList ++ Dialplan.appText app args := by
      simp [sameLine]
    rw [htext, parseLine_same h.appText (appText_getLast? _ _), h.parseApp]
  | some label =>
    obtain ⟨_, hlabel⟩ := h.label label rfl
    have htext : (sameLine ⟨some label, app, args⟩).toList =
        " same => n(".toList ++ label ++ "),".toList ++ Dialplan.appText app args := by
      simp [sameLine]
    rw [htext, parseLine_sameLabel (notMem_of_all hlabel (by decide)) (notMem_of_all hlabel (by decide))
      (notMem_of_all hlabel (by decide)) h.appText (appText_getLast? _ _), h.parseApp]

variable {exten : String}

theorem Readable.parse_exten (h : Readable code) (hlabel : code.label = none)
    (hhead : exten.toList.head? = some c) (hc : isBlank c = false) (hcomma : ',' ∉ exten.toList)
    (hsemi : ';' ∉ exten.toList) :
    parseLine ("exten => " ++ exten ++ ",1," ++ bodyLine code).toList =
      .exten exten.toList (.number 1) code := by
  obtain ⟨label, app, args⟩ := code
  obtain rfl : label = none := hlabel
  have htext : ("exten => " ++ exten ++ ",1," ++ bodyLine ⟨none, app, args⟩).toList =
      "exten => ".toList ++ exten.toList ++ ",1,".toList ++ Dialplan.appText app args := by
    simp [bodyLine]
  rw [htext, parseLine_exten hhead hc hcomma hsemi h.appText (appText_getLast? _ _), h.parseApp]

/-- A line of a body: behind a label everything has to match `.`. -/
structure BodyStep (code : Step) : Prop extends Readable code where
  dotted : code.label ≠ none → code.args.all isDot = true

theorem isDot_of_ne (hn : c ≠ '\n') (hr : c ≠ '\r') (hl : c ≠ Char.ofNat 0x2028)
    (hp : c ≠ Char.ofNat 0x2029) : isDot c = true := by
  have hl : c.toNat ≠ 0x2028 := fun h => hl (by rw [← h, Char.ofNat_toNat])
  have hp : c.toNat ≠ 0x2029 := fun h => hp (by rw [← h, Char.ofNat_toNat])
  simp [isDot, hn, hr, hl, hp]

/-- The characters of a class without line ends match `.`. -/
theorem isDot_of_class (hp : p '\n' = false ∧ p '\r' = false ∧
    p (Char.ofNat 0x2028) = false ∧ p (Char.ofNat 0x2029) = false) (h : p c = true) :
    isDot c = true := by
  have hne : ∀ d, p d = false → c ≠ d := by
    rintro d hd rfl
    rw [h] at hd
    cases hd
  exact isDot_of_ne (hne _ hp.1) (hne _ hp.2.1) (hne _ hp.2.2.1) (hne _ hp.2.2.2)

theorem isDot_of_isLetter (h : isLetter c = true) : isDot c = true :=
  isDot_of_class (by decide) h

theorem takeWhile_append_stop {t rest : Text} (h : t.all p = true) (hc : p c = false) :
    (t ++ c :: rest).takeWhile p = t := by
  rw [List.takeWhile_append_of_pos (List.all_eq_true.mp h), List.takeWhile_cons, hc]
  simp

theorem dropWhile_append_stop {t rest : Text} (h : t.all p = true) (hc : p c = false) :
    (t ++ c :: rest).dropWhile p = c :: rest := by
  rw [List.dropWhile_append_of_pos (List.all_eq_true.mp h), List.dropWhile_cons, hc]
  simp

theorem BodyStep.prefixSame_bodyLine (h : BodyStep code) :
    prefixSame (bodyLine code) = sameLine code := by
  obtain ⟨label, app, args⟩ := code
  cases label with
  | none =>
    have hnone : matchLabeled (Dialplan.appText app args) = none := by
      obtain ⟨hne, happ⟩ := h.app
      obtain ⟨c, rest, rfl⟩ := List.exists_cons_of_ne_nil hne
      have hc : c ≠ '(' := fun hc => notMem_of_all happ (show isLetter '(' = false from rfl)
        (by simp [hc])
      unfold matchLabeled
      split
      · rename_i rest' heq
        simp only [Dialplan.appText, List.cons_append, List.cons.injEq] at heq
        exact absurd heq.1 hc
      · rfl
    rw [prefixSame, bodyLine, String.toList_ofList, hnone, sameLine]
  | some label =>
    obtain ⟨hne, hlabel⟩ := h.label label rfl
    have hdot : (Dialplan.appText app args).all isDot = true := by
      have happ : app.all isDot = true := by
        rw [List.all_eq_true]
        intro c hc
        exact isDot_of_isLetter (List.all_eq_true.mp h.app.2 c hc)
      simp +decide [Dialplan.appText, happ, h.dotted (by simp)]
    have htext : (bodyLine ⟨some label, app, args⟩).toList =
        '(' :: (label ++ ')' :: Dialplan.appText app args) := by
      simp [bodyLine]
    have hmatch : matchLabeled (bodyLine ⟨some label, app, args⟩).toList =
        some (label, Dialplan.appText app args) := by
      rw [htext, matchLabeled, takeWhile_append_stop hlabel (by decide),
        dropWhile_append_stop hlabel (by decide)]
      simp [hne, hdot]
    rw [prefixSame, hmatch, sameLine]

theorem BodyStep.parse (h : BodyStep code) :
    parseLine (prefixSame (bodyLine code)).toList = .same .next code := by
  rw [h.prefixSame_bodyLine, h.toReadable.parse_sameLine]

/-- A body is read back as its code. -/
theorem parse_body {code : List Step} (h : ∀ c ∈ code, BodyStep c) :
    ((code.map bodyLine).map prefixSame).map (fun line => parseLine line.toList) =
      code.map (.same .next) := by
  rw [List.map_map, List.map_map, List.map_inj_left]
  intro c hc
  exact (h c hc).parse

/-! ## Names made by the compiler -/

theorem isLabelChar_of_slugChar (h : isSlugChar c = true ∨ c = '-') : isLabelChar c = true := by
  rcases h with h | rfl
  · simp only [isSlugChar, Bool.or_eq_true] at h
    simp only [isLabelChar, isWordChar, Bool.or_eq_true]
    rcases h with h | h
    · exact .inl (.inl (.inl (.inl h)))
    · exact .inl (.inl (.inl (.inr h)))
  · decide

theorem all_isLabelChar_toSlug (name : String) : (toSlug name).toList.all isLabelChar = true := by
  rw [List.all_eq_true]
  intro c hc
  exact isLabelChar_of_slugChar (isSlugChar_or_dash_of_mem_toSlug hc)

theorem all_isLabelChar_labelSlug (node : FlowNode) :
    (labelSlug node).toList.all isLabelChar = true := by
  rw [labelSlug]
  split
  · cases node.nodeType <;> decide
  · exact all_isLabelChar_toSlug _

theorem isLabelChar_of_isDigit (h : Dialplan.isDigit c = true) : isLabelChar c = true := by
  have h' : JsText.isDigit c = true := h
  simp [isLabelChar, isWordChar, h']

theorem all_isLabelChar_repr (n : Nat) : (toString n).toList.all isLabelChar = true := by
  rw [List.all_eq_true]
  intro c hc
  exact isLabelChar_of_isDigit (isDigit_of_mem_natText hc)

theorem all_isLabelChar_nodeLabel (index : Nat) (node : FlowNode) :
    (nodeLabel index node).toList.all isLabelChar = true := by
  have hindex := all_isLabelChar_repr index
  have hslug := all_isLabelChar_labelSlug node
  simp only [nodeLabel, String.toList_append, List.all_append, hindex, hslug]
  decide

theorem all_isLabelChar_mainContext (graph : FlowGraph) :
    (mainContext graph).toList.all isLabelChar = true := by
  have hslug : (flowSlug graph).toList.all isLabelChar = true := by
    rw [flowSlug]
    split <;> exact all_isLabelChar_toSlug _
  simp only [mainContext, String.toList_append, List.all_append, hslug]
  decide

/-- The layout's names are made of label characters. -/
structure Layout.Named (layout : Layout) : Prop where
  main : layout.mainContext.toList.all isLabelChar = true
  labels : ∀ entry ∈ layout.labels, entry.2.toList.all isLabelChar = true

theorem layoutOf_named (localeCompare : String → String → Int) (graph : FlowGraph) :
    (layoutOf localeCompare graph).Named := by
  refine ⟨all_isLabelChar_mainContext graph, ?_⟩
  intro entry hentry
  obtain ⟨⟨node, index⟩, _, rfl⟩ := List.mem_map.mp hentry
  exact all_isLabelChar_nodeLabel index node

variable {layout : Layout}

theorem Layout.Named.labelOf (h : layout.Named) (nodeId : String) :
    (layout.labelOf nodeId).toList.all isLabelChar = true := by
  rw [Layout.labelOf]
  cases hl : layout.labels.lookup nodeId with
  | none => decide
  | some label =>
    rw [List.lookup_eq_some_iff] at hl
    obtain ⟨before, after, heq, _⟩ := hl
    exact h.labels (nodeId, label) (by simp [heq])

theorem Layout.Named.menuContextOf (h : layout.Named) (nodeId : String) :
    (layout.menuContextOf nodeId).toList.all isLabelChar = true := by
  simp only [Layout.menuContextOf, String.toList_append, List.all_append, h.main, h.labelOf]
  decide

/-! ## Texts in the code -/

@[simp] theorem uncommented_append (s t : String) :
    uncommented (s ++ t) = (uncommented s && uncommented t) := by
  simp [uncommented]

theorem uncommented_of_all {s : String} (h : s.toList.all p = true) (hp : p ';' = false) :
    uncommented s = true := by
  rw [uncommented, List.all_eq_true]
  intro c hc
  rw [decide_eq_true_eq]
  rintro rfl
  exact notMem_of_all h hp hc

theorem notMem_of_uncommented {s : String} (h : uncommented s = true) : ';' ∉ s.toList :=
  notMem_of_all h (by decide)

theorem uncommented_of_plainDest {s : String} (h : plainDest s = true) : uncommented s = true :=
  uncommented_of_all h (by decide)

@[simp] theorem uncommented_repr (n : Nat) : uncommented n.repr = true :=
  uncommented_of_all (all_isLabelChar_repr n) (by decide)

theorem uncommented_toVariableName (text : String) : uncommented (toVariableName text) = true := by
  rw [uncommented, toVariableName, String.toList_ofList, List.all_eq_true]
  intro c hc
  obtain ⟨d, _, rfl⟩ := List.mem_map.mp hc
  split
  · rename_i hd
    rw [decide_eq_true_eq]
    rintro rfl
    exact absurd hd (by decide)
  · decide

theorem uncommented_varRef (name : String) : uncommented (varRef name) = uncommented name := by
  simp [varRef, show uncommented "$\x7b" = true from rfl, show uncommented "\x7d" = true from rfl]

theorem uncommented_targetNumberExpression (targetSource : DigitTargetSource) :
    uncommented (targetNumberExpression targetSource) = true := by
  cases targetSource <;> rfl

theorem uncommented_hookCommand {path : String} {args : List String}
    (hpath : uncommented path = true) (hargs : ∀ arg ∈ args, uncommented arg = true) :
    uncommented (path ++ " " ++ " ".intercalate (args.map shellQuote)) = true := by
  have hquoted : uncommented (" ".intercalate (args.map shellQuote)) = true := by
    refine List.all_eq_true.mpr ?_
    intro c hc
    rcases mem_quotedWords hc with hc | ⟨arg, harg, hc⟩
    · have hmarks : " '\"".toList.all (· ≠ ';') = true := by decide
      exact List.all_eq_true.mp hmarks c hc
    · exact List.all_eq_true.mp (hargs arg harg) c hc
  rw [uncommented_append, uncommented_append, hpath, hquoted]
  rfl

theorem uncommented_smsHook (targetSource : DigitTargetSource) :
    uncommented (buildSmartArsHookCommand "sms" (targetNumberExpression targetSource)) = true := by
  refine @uncommented_hookCommand _ ["sms", varRef "SMART_ARS_TENANT_ID",
    varRef "SMART_ARS_BRANCH_ID", varRef "ENTRY_DID", targetNumberExpression targetSource,
    varRef "SMART_ARS_SELECTED_SMS_TEMPLATE"] (by decide) ?_
  simp +decide [uncommented_targetNumberExpression]

theorem uncommented_optOutHook (action : OptOutAction) :
    uncommented (buildOptOutHookCommand
      (if action = .unregister then "unregister" else "register")) = true := by
  have haction : uncommented (if action = .unregister then "unregister" else "register") = true := by
    cases action <;> rfl
  refine @uncommented_hookCommand _ [if action = .unregister then "unregister" else "register",
    varRef "OPT_OUT_TENANT_ID", varRef "OPT_OUT_BRANCH_ID", varRef "ENTRY_DID",
    varRef "REQUESTER_PHONE", varRef "OPT_OUT_TARGET_PHONE", varRef "OPT_OUT_SOURCE_TYPE",
    varRef "OPT_OUT_SELECTED_SMS_TEMPLATE"] (by decide) ?_
  simp +decide [haction]

/-- A playback target has no characters but those of the key and of the sound
directory. -/
theorem all_playbackPath {promptKey : String} (hp : customSoundAbsolutePrefix.toList.all p = true)
    (h : promptKey.toList.all p = true) : (playbackPath promptKey).toList.all p = true := by
  unfold playbackPath
  split
  · rename_i rest hrest
    rw [JsText.afterPrefix?_eq_some.mp hrest, List.all_append, Bool.and_eq_true] at h
    rw [String.toList_append, String.toList_ofList, List.all_append, hp, h.2]
    rfl
  · exact h

theorem uncommented_playbackPath {promptKey : String} (h : uncommented promptKey = true) :
    uncommented (playbackPath promptKey) = true :=
  all_playbackPath (by decide) h

/-- The characters of a time window. -/
def isSpecChar (c : Char) : Bool :=
  c.isDigit || ('a' ≤ c && c ≤ 'z') || c ∈ [':', '-', ',', '*', '&']

theorem all_isSpecChar_clockTime (time : ClockTime) : time.text.toList.all isSpecChar = true := by
  rw [List.all_eq_true]
  intro c hc
  rcases clockTime_char hc with hd | rfl
  · simp [isSpecChar, hd]
  · decide

theorem all_intercalate {sep : String} {ls : List String} (hsep : sep.toList.all p = true)
    (h : ∀ l ∈ ls, l.toList.all p = true) : (sep.intercalate ls).toList.all p = true := by
  refine List.all_eq_true.mpr fun c hc => ?_
  rcases Lines.mem_intercalate hc with hc | ⟨l, hl, hc⟩
  · exact List.all_eq_true.mp hsep c hc
  · exact List.all_eq_true.mp (h l hl) c hc

theorem all_isSpecChar_buildTimeSpec (config : ConditionConfig) :
    (buildTimeSpec config).toList.all isSpecChar = true := by
  cases config with
  | holiday => decide
  | timeRange timeStart timeEnd daysOfWeek =>
    have hdays : (if daysOfWeek = [] then "*" else "&".intercalate
        ((daysOfWeek.insertionSort (fun a b => weekdayIndex a ≤ weekdayIndex b)).map
          Weekday.text)).toList.all isSpecChar = true := by
      split
      · decide
      · refine all_intercalate (by decide) ?_
        intro l hl
        obtain ⟨day, _, rfl⟩ := List.mem_map.mp hl
        cases day <;> decide
    simp only [buildTimeSpec, String.toList_append, List.all_append, all_isSpecChar_clockTime,
      hdays]
    decide

/-! ## The steps of a clean flow -/

theorem bodyStep_plain {app args : String} (happ : app.toList ≠ [] ∧ app.toList.all isLetter = true)
    (hargs : uncommented args = true) : BodyStep (plainStep app args) where
  app := happ
  args := notMem_of_uncommented hargs
  label := by
    intro label hlabel
    cases hlabel
  dotted := fun h => absurd rfl h

section Labels
variable {label app args : String} (happ : app.toList ≠ [] ∧ app.toList.all isLetter = true)
  (hargs : uncommented args = true) (hne : label.toList ≠ [])
  (hlabel : label.toList.all isLabelChar = true)
include happ hargs hne hlabel

theorem readable_labeled :
    Readable (labeledStep label app args) where
  app := happ
  args := notMem_of_uncommented hargs
  label := by
    rintro label' hlabel'
    obtain rfl := Option.some.inj hlabel'
    exact ⟨hne, hlabel⟩

theorem bodyStep_labeled (hdot : dotted args = true) : BodyStep (labeledStep label app args) where
  toReadable := readable_labeled happ hargs hne hlabel
  dotted := fun _ => hdot

end Labels

/-- A body without labels. -/
def PlainBody (code : List Step) : Prop := ∀ c ∈ code, BodyStep c ∧ c.label = none

theorem plainBody_cons {app args : String} {code : List Step}
    (happ : app.toList ≠ [] ∧ app.toList.all isLetter = true) (hargs : uncommented args = true)
    (h : PlainBody code) : PlainBody (plainStep app args :: code) := by
  intro c hc
  rcases List.mem_cons.mp hc with rfl | hc
  · exact ⟨bodyStep_plain happ hargs, rfl⟩
  · exact h c hc

theorem plainBody_nil : PlainBody [] := by
  intro c hc
  cases hc

theorem plainBody_append {code code' : List Step} (h : PlainBody code) (h' : PlainBody code') :
    PlainBody (code ++ code') := by
  intro c hc
  rcases List.mem_append.mp hc with hc | hc
  · exact h c hc
  · exact h' c hc

theorem given_eq_some {text : Option String} {s : String} (h : given text = some s) :
    text = some s ∧ s ≠ "" := by
  simpa [given, Option.filter_eq_some_iff] using h

theorem plainBody_playback {promptKey : Option String} (h : promptKey.all uncommented = true) :
    PlainBody (playbackCode promptKey) := by
  unfold playbackCode
  split
  · rename_i key hkey
    rw [(given_eq_some hkey).1] at h
    exact plainBody_cons (by decide) (uncommented_playbackPath h) plainBody_nil
  · exact plainBody_nil

theorem plainBody_hangup : PlainBody [hangupCode] := plainBody_cons (by decide) (by decide) plainBody_nil

variable {node : FlowNode}

theorem plainBody_jump (hl : layout.Named) (hclean : node.config.clean = true) :
    PlainBody (jumpCode layout node) := by
  have hlabel := uncommented_of_all (hl.labelOf node.nodeId) (by decide)
  have hmain := uncommented_of_all hl.main (by decide)
  have hmenu := uncommented_of_all (hl.menuContextOf node.nodeId) (by decide)
  unfold jumpCode
  cases hconfig : node.config <;> simp only [hconfig, NodeConfig.clean] at hclean ⊢
  case queue queueName =>
    refine plainBody_cons (by decide) ?_ plainBody_nil
    simp +decide [uncommented_of_plainDest hclean]
  case transfer transferNumber =>
    refine plainBody_cons (by decide) ?_ plainBody_nil
    simp +decide [uncommented_of_plainDest hclean]
  case hangup promptKey => exact plainBody_append (plainBody_playback hclean) plainBody_hangup
  case menu config =>
    refine plainBody_cons (by decide) ?_ plainBody_nil
    simp +decide [hmenu]
  all_goals
    refine plainBody_cons (by decide) ?_ plainBody_nil
    simp +decide [hmain, hlabel]

/-! ## The reachable nodes -/

/-- What the order of the nodes and the layout give each other. -/
structure Layout.Sound (layout : Layout) (order : List FlowNode) : Prop where
  named : layout.Named
  ids : (order.map FlowNode.nodeId).Nodup
  known : ∀ node ∈ order, layout.graph.nodeById node.nodeId = some node
  labels : ∀ i node, order[i]? = some node → layout.labelOf node.nodeId = nodeLabel i node
  targets : ∀ node ∈ order, ∀ edge ∈ layout.outgoing node.nodeId,
    ∃ target ∈ order, layout.graph.nodeById edge.toNodeId = some target

section Order
variable {localeCompare : String → String → Int} {graph : FlowGraph}

theorem mem_buildOutgoing {nodeId : String} {edge : FlowEdge}
    (h : edge ∈ buildOutgoing localeCompare graph nodeId) :
    edge ∈ graph.edges ∧ edge.fromNodeId = nodeId ∧ graph.hasNode edge.toNodeId = true := by
  rw [buildOutgoing, List.mem_insertionSort, List.mem_filter] at h
  obtain ⟨hmem, h⟩ := h
  simp only [Bool.and_eq_true, decide_eq_true_eq] at h
  exact ⟨hmem, h.1.1, h.2⟩

theorem buildOutgoing_inside (x : String) (_ : x ∈ graph.nodes.map FlowNode.nodeId) (y : String)
    (hy : y ∈ (buildOutgoing localeCompare graph x).map FlowEdge.toNodeId) :
    y ∈ graph.nodes.map FlowNode.nodeId := by
  obtain ⟨edge, hedge, rfl⟩ := List.mem_map.mp hy
  exact FlowGraph.hasNode_iff.mp (mem_buildOutgoing hedge).2.2

variable (hentry : graph.hasNode graph.entryNodeId = true)
include hentry

theorem orderReachableIds_nodup : (orderReachableIds localeCompare graph).Nodup :=
  Bfs.order_nodup buildOutgoing_inside (FlowGraph.hasNode_iff.mp hentry) (by simp)

theorem nodeById_of_mem_orderReachableIds {nodeId : String}
    (h : nodeId ∈ orderReachableIds localeCompare graph) :
    ∃ node, graph.nodeById nodeId = some node := by
  have hinside := Bfs.order_inside buildOutgoing_inside (FlowGraph.hasNode_iff.mp hentry)
    (by simp) h
  exact Option.isSome_iff_exists.mp (FlowGraph.hasNode_iff.mpr hinside)

theorem orderReachableNodes_ids :
    (orderReachableNodes localeCompare graph).map FlowNode.nodeId =
      orderReachableIds localeCompare graph := by
  rw [orderReachableNodes, List.map_filterMap]
  have hall : ∀ nodeId ∈ orderReachableIds localeCompare graph,
      (graph.nodeById nodeId).map FlowNode.nodeId = some nodeId := by
    intro nodeId hnodeId
    obtain ⟨node, hnode⟩ := nodeById_of_mem_orderReachableIds hentry hnodeId
    rw [hnode, Option.map_some, FlowGraph.nodeById_nodeId hnode]
  rw [List.filterMap_congr hall, List.filterMap_some]

omit hentry in
theorem nodeById_of_mem_order {node : FlowNode}
    (h : node ∈ orderReachableNodes localeCompare graph) :
    graph.nodeById node.nodeId = some node := by
  obtain ⟨nodeId, _, hnode⟩ := List.mem_filterMap.mp h
  rw [FlowGraph.nodeById_nodeId hnode, hnode]

omit hentry in
theorem mem_orderReachableNodes {node : FlowNode} {nodeId : String}
    (hmem : nodeId ∈ orderReachableIds localeCompare graph)
    (hnode : graph.nodeById nodeId = some node) :
    node ∈ orderReachableNodes localeCompare graph :=
  List.mem_filterMap.mpr ⟨nodeId, hmem, hnode⟩

omit hentry in
theorem lookup_labels {order : List FlowNode} (hids : (order.map FlowNode.nodeId).Nodup) (k : Nat)
    {i : Nat} {node : FlowNode} (h : order[i]? = some node) :
    ((order.zipIdx k).map (fun entry => (entry.1.nodeId, nodeLabel entry.2 entry.1))).lookup
      node.nodeId = some (nodeLabel (k + i) node) := by
  induction order generalizing k i with
  | nil => cases h
  | cons first order ih =>
    rw [List.map_cons, List.nodup_cons] at hids
    cases i with
    | zero =>
      obtain rfl : first = node := by simpa using h
      simp [List.zipIdx_cons]
    | succ i =>
      rw [List.getElem?_cons_succ] at h
      have hne : node.nodeId ≠ first.nodeId := by
        intro heq
        exact hids.1 (heq ▸ List.mem_map_of_mem (List.mem_of_getElem? h))
      have hrest := ih hids.2 (k + 1) h
      rw [List.zipIdx_cons, List.map_cons, List.lookup_cons, beq_false_of_ne hne, hrest,
        Nat.add_assoc, Nat.add_comm 1]

theorem layoutOf_sound :
    (layoutOf localeCompare graph).Sound (orderReachableNodes localeCompare graph) := by
  have hids : ((orderReachableNodes localeCompare graph).map FlowNode.nodeId).Nodup := by
    rw [orderReachableNodes_ids hentry]
    exact orderReachableIds_nodup hentry
  refine ⟨layoutOf_named localeCompare graph, hids, fun node => nodeById_of_mem_order, ?_, ?_⟩
  · intro i node hnode
    have hlookup := lookup_labels hids 0 hnode
    rw [Nat.zero_add] at hlookup
    rw [Layout.labelOf, layoutOf, buildLabels, hlookup, Option.getD_some]
  · intro node hnode edge hedge
    have hmem : node.nodeId ∈ orderReachableIds localeCompare graph := by
      rw [← orderReachableNodes_ids hentry]
      exact List.mem_map_of_mem hnode
    have hto : edge.toNodeId ∈ orderReachableIds localeCompare graph :=
      Bfs.order_closed buildOutgoing_inside (FlowGraph.hasNode_iff.mp hentry) (by simp) hmem
        (List.mem_map_of_mem hedge)
    obtain ⟨target, htarget⟩ := nodeById_of_mem_orderReachableIds hentry hto
    exact ⟨target, mem_orderReachableNodes hto htarget, htarget⟩

end Order

/-! ## Contexts are read back -/

theorem findEdge_eq_some {nodeId : String} {condition : FlowEdgeCondition} {edge : FlowEdge}
    (h : layout.findEdge nodeId condition = some edge) :
    edge ∈ layout.outgoing nodeId ∧ edge.condition = condition :=
  ⟨List.mem_of_find?_eq_some h, by simpa using List.find?_some h⟩

/-- A flow whose texts are read as they are printed. -/
structure CleanFlow (layout : Layout) (order : List FlowNode) : Prop
    extends layout.Sound order where
  clean : ∀ node ∈ order, node.clean layout = true

variable {layout : Layout} {order : List FlowNode} (hflow : CleanFlow layout order)
  {node : FlowNode} (hnode : node ∈ order)

section Reading
include hflow hnode

theorem CleanFlow.config : node.config.clean = true := by
  have hclean := hflow.clean node hnode
  simp only [FlowNode.clean, Bool.and_eq_true] at hclean
  exact hclean.1.2

theorem CleanFlow.label (h : node.nodeType.isTerminal = false) :
    hasBreak node.label = false ∧ uncommented node.label = true := by
  have hclean := hflow.clean node hnode
  simp only [FlowNode.clean, h, Bool.false_or, Bool.and_eq_true, Bool.not_eq_true'] at hclean
  exact hclean.1.1

/-- The jump along an edge of a reachable node. -/
theorem CleanFlow.plainBody_edge {edge : Option FlowEdge}
    (hedge : ∀ e, edge = some e → e ∈ layout.outgoing node.nodeId) :
    PlainBody (edgeCode layout edge) ∧ edgeCode layout edge ≠ [] := by
  cases edge with
  | none => exact ⟨plainBody_hangup, by simp [edgeCode]⟩
  | some e =>
    obtain ⟨target, hmem, htarget⟩ := hflow.targets node hnode e (hedge e rfl)
    rw [edgeCode, htarget]
    refine ⟨plainBody_jump hflow.named (hflow.config hmem), ?_⟩
    simp only [Option.map_some, Option.getD_some]
    unfold jumpCode
    split <;> simp

theorem CleanFlow.plainBody_take (condition : FlowEdgeCondition) :
    PlainBody (takeCode layout node condition) ∧ takeCode layout node condition ≠ [] :=
  hflow.plainBody_edge hnode (fun _ he => (findEdge_eq_some he).1)

theorem CleanFlow.bodySteps_take (condition : FlowEdgeCondition) :
    ∀ c ∈ takeCode layout node condition, BodyStep c :=
  fun c hc => ((hflow.plainBody_take hnode condition).1 c hc).1

end Reading

/-- All steps of a list, given its parts. -/
theorem bodySteps_append {code code' : List Step} (h : ∀ c ∈ code, BodyStep c)
    (h' : ∀ c ∈ code', BodyStep c) : ∀ c ∈ code ++ code', BodyStep c := by
  intro c hc
  rcases List.mem_append.mp hc with hc | hc
  · exact h c hc
  · exact h' c hc

theorem PlainBody.bodySteps {code : List Step} (h : PlainBody code) : ∀ c ∈ code, BodyStep c :=
  fun c hc => (h c hc).1

/-- A label made from a node's label. -/
theorem all_isLabelChar_suffix {label suffix : String} (h : label.toList.all isLabelChar = true)
    (hs : suffix.toList.all isLabelChar = true) :
    (label ++ suffix).toList.all isLabelChar = true := by
  rw [String.toList_append, List.all_append, h, hs]
  rfl

theorem uncommented_collectCounter (label : String) :
    uncommented (collectCounter label) = true := by
  unfold collectCounter
  simp only [uncommented_append, uncommented_toVariableName, Bool.and_true]
  decide

@[simp] theorem dotted_append (s t : String) : dotted (s ++ t) = (dotted s && dotted t) := by
  simp [dotted]

@[simp] theorem dotted_repr (n : Nat) : dotted n.repr = true := by
  rw [dotted, List.all_eq_true]
  intro c hc
  exact isDot_of_class (by decide) (isDigit_of_mem_natText hc)

theorem promptPath_clean {promptKey : Option String}
    (h : promptKey.all (fun key => plainDest key && dotted key) = true) :
    uncommented (promptPath promptKey) = true ∧ dotted (promptPath promptKey) = true := by
  unfold promptPath
  split
  · rename_i key hkey
    rw [(given_eq_some hkey).1, Option.all_some, Bool.and_eq_true] at h
    refine ⟨uncommented_playbackPath (uncommented_of_plainDest h.1), ?_⟩
    exact all_playbackPath (by decide) h.2
  · exact ⟨rfl, rfl⟩

theorem suffix_ne_nil {label suffix : String} (hs : suffix.toList ≠ []) :
    (label ++ suffix).toList ≠ [] := by
  simp [hs]

section Reading
variable {label : String} (hlabel : label.toList.all isLabelChar = true)
include hflow hnode hlabel

theorem CleanFlow.bodySteps_lookup {endpointId : String} {waitPromptKey : Option String}
    (hconfig : node.config = .httpLookup endpointId waitPromptKey) :
    ∀ c ∈ lookupCode layout node endpointId waitPromptKey label, BodyStep c := by
  have hclean := hflow.config hnode
  rw [hconfig, NodeConfig.clean, Bool.and_eq_true] at hclean
  have hsemi := uncommented_of_all hlabel (by decide)
  rw [lookupCode]
  refine bodySteps_append (bodySteps_append (bodySteps_append (bodySteps_append
    (plainBody_playback hclean.2).bodySteps ?_) (hflow.bodySteps_take hnode .false)) ?_)
    (hflow.bodySteps_take hnode .true)
  · refine PlainBody.bodySteps (plainBody_cons (by decide) ?_ (plainBody_cons (by decide) ?_
      plainBody_nil))
    · simp +decide [hclean.1]
    · simp +decide [uncommented_varRef, hsemi]
  · intro c hc
    rw [List.mem_singleton.mp hc]
    exact bodyStep_labeled (by decide) (by decide) (suffix_ne_nil (by decide))
      (all_isLabelChar_suffix hlabel (by decide)) (by decide)

theorem CleanFlow.bodySteps_collect {config : CollectDigitsConfig}
    (hconfig : node.config = .collectDigits config) :
    ∀ c ∈ collectCode layout node config label, BodyStep c := by
  have hclean := hflow.config hnode
  rw [hconfig, NodeConfig.clean] at hclean
  have hsemi := uncommented_of_all hlabel (by decide)
  have hcounter := uncommented_collectCounter label
  obtain ⟨hprompt, hdot⟩ := promptPath_clean hclean
  rw [collectCode]
  refine bodySteps_append (bodySteps_append (bodySteps_append ?_
    (hflow.bodySteps_take hnode .timeout)) ?_) (hflow.bodySteps_take hnode .default)
  · intro c hc
    simp only [List.mem_cons, List.not_mem_nil, or_false] at hc
    rcases hc with rfl | rfl | rfl | rfl | rfl | rfl
    · exact bodyStep_plain (by decide) (by simp +decide [hcounter])
    · refine bodyStep_labeled (by decide) ?_ (suffix_ne_nil (by decide))
        (all_isLabelChar_suffix hlabel (by decide)) ?_
      · simp +decide [hprompt]
      · simp +decide [hdot]
    · exact bodyStep_plain (by decide) (by decide)
    · exact bodyStep_plain (by decide) (by simp +decide [hsemi])
    · exact bodyStep_plain (by decide) (by simp +decide [uncommented_varRef, hcounter])
    · exact bodyStep_plain (by decide)
        (by simp +decide [uncommented_varRef, hcounter, hsemi])
  · intro c hc
    rw [List.mem_singleton.mp hc]
    exact bodyStep_labeled (by decide) (by decide) (suffix_ne_nil (by decide))
      (all_isLabelChar_suffix hlabel (by decide)) (by decide)

end Reading

/-- The only jump of more than one line goes to a hang-up with an announcement. -/
theorem jumpCode_many (h : ∀ c, jumpCode layout node ≠ [c]) :
    ∃ promptKey key, node.config = .hangup promptKey ∧ given promptKey = some key := by
  unfold jumpCode at h
  cases hconfig : node.config <;> simp only [hconfig] at h
  case hangup promptKey =>
    cases hgiven : given promptKey with
    | none =>
      refine absurd ?_ (h hangupCode)
      rw [playbackCode, hgiven]
      rfl
    | some key => exact ⟨promptKey, key, rfl, hgiven⟩
  all_goals exact absurd rfl (h _)

theorem uncommented_bodyLine (h : BodyStep code) (hlabel : code.label = none) :
    uncommented (bodyLine code) = true := by
  obtain ⟨label, app, args⟩ := code
  obtain rfl : label = none := hlabel
  have happ := h.toReadable.appText
  rw [uncommented, bodyLine, String.toList_ofList, List.all_eq_true]
  intro c hc
  rw [decide_eq_true_eq]
  rintro rfl
  exact happ hc

theorem uncommented_stripGoto {line : String} (h : uncommented line = true) :
    uncommented (stripGoto line) = true := by
  unfold stripGoto
  split
  · rename_i rest hrest
    split
    · rw [uncommented, JsText.afterPrefix?_eq_some.mp hrest, List.all_append,
        Bool.and_eq_true] at h
      rw [uncommented, String.toList_ofList, List.all_eq_true]
      intro c hc
      exact List.all_eq_true.mp h.2 c ((List.dropLast_sublist _).subset hc)
    · exact h
  · exact h

section Reading
include hflow hnode

/-- The target of a time window fits. -/
theorem CleanFlow.window {config : ConditionConfig} (hconfig : node.config = .condition config)
    {edge : FlowEdge} (hedge : layout.findEdge node.nodeId .true = some edge) :
    ∃ target ∈ order, layout.graph.nodeById edge.toNodeId = some target ∧
      node.fitsWindow target = true := by
  have hclean := hflow.clean node hnode
  obtain ⟨target, hmem, htarget⟩ := hflow.targets node hnode edge (findEdge_eq_some hedge).1
  simp only [FlowNode.clean, hconfig, hedge, htarget, Option.all_some, Bool.and_eq_true] at hclean
  exact ⟨target, hmem, htarget, hclean.2⟩

theorem CleanFlow.bodySteps_condition {config : ConditionConfig}
    (hconfig : node.config = .condition config) {label : String}
    (hlabel : label.toList.all isLabelChar = true) {edge : FlowEdge}
    (hedge : layout.findEdge node.nodeId .true = some edge) :
    ∀ c ∈ conditionCode layout node config label edge, BodyStep c := by
  obtain ⟨target, hmem, htarget, hfits⟩ := hflow.window hnode hconfig hedge
  have hspec := uncommented_of_all (all_isSpecChar_buildTimeSpec config) (by decide)
  have hsemi := uncommented_of_all hlabel (by decide)
  have hcode : edgeCode layout (some edge) = jumpCode layout target := by
    rw [edgeCode, htarget]
    rfl
  have hjump := plainBody_jump hflow.named (hflow.config hmem)
  unfold conditionCode
  rw [hcode]
  split
  · rename_i code hone
    obtain ⟨hbody, hnone⟩ := hjump code (by rw [hone]; simp)
    refine bodySteps_append (PlainBody.bodySteps (plainBody_cons (by decide) ?_ plainBody_nil))
      (hflow.bodySteps_take hnode .false)
    have hdest := uncommented_stripGoto (uncommented_bodyLine hbody hnone)
    simp +decide [hspec, hdest]
  · rename_i hmany
    obtain ⟨promptKey, key, hhangup, hgiven⟩ := jumpCode_many hmany
    have hdot : dotted node.label = true := by
      simpa [FlowNode.fitsWindow, hhangup, hgiven] using hfits
    have hnodeLabel := (hflow.label hnode
      (by rw [FlowNode.nodeType, hconfig]; rfl)).2
    refine bodySteps_append (bodySteps_append (bodySteps_append
      (PlainBody.bodySteps (plainBody_cons (by decide) ?_ plainBody_nil))
      (hflow.bodySteps_take hnode .false)) ?_) hjump.bodySteps
    · simp +decide [hspec, hsemi]
    · intro c hc
      rw [List.mem_singleton.mp hc]
      exact bodyStep_labeled (by decide) (by simp +decide [hnodeLabel])
        (suffix_ne_nil (by decide)) (all_isLabelChar_suffix hlabel (by decide))
        (by simp +decide [hdot])

theorem CleanFlow.bodySteps_inline :
    ∀ c ∈ inlineCode layout node (layout.labelOf node.nodeId), BodyStep c := by
  have hlabel := hflow.named.labelOf node.nodeId
  have hclean := hflow.config hnode
  have hnext := hflow.bodySteps_take hnode .default
  unfold inlineCode
  cases hconfig : node.config <;> simp only [hconfig, NodeConfig.clean] at hclean ⊢
  case play promptKeys =>
    refine bodySteps_append ?_ hnext
    intro c hc
    obtain ⟨key, hkey, rfl⟩ := List.mem_map.mp hc
    exact bodyStep_plain (by decide)
      (uncommented_playbackPath (List.all_eq_true.mp hclean key hkey))
  case sms smsTemplateId targetSource =>
    have hhook := uncommented_smsHook targetSource
    refine bodySteps_append (PlainBody.bodySteps (plainBody_cons (by decide) ?_
      (plainBody_cons (by decide) hhook plainBody_nil))) hnext
    simp +decide [hclean]
  case optOut action targetSource =>
    have hhook := uncommented_optOutHook action
    have htarget : uncommented ("__OPT_OUT_TARGET_PHONE=" ++
        targetNumberExpression targetSource) = true := by
      rw [uncommented_append, uncommented_targetNumberExpression, Bool.and_true]
      decide
    refine bodySteps_append (PlainBody.bodySteps (plainBody_cons (by decide) (by decide)
      (plainBody_cons (by decide) (by decide) (plainBody_cons (by decide)
      (by decide) (plainBody_cons (by decide) htarget (plainBody_cons (by decide)
      (by decide) (plainBody_cons (by decide) (by decide)
      (plainBody_cons (by decide) hhook plainBody_nil)))))))) hnext
  case condition config =>
    cases hedge : layout.findEdge node.nodeId .true with
    | none => exact hflow.bodySteps_take hnode .false
    | some edge => exact hflow.bodySteps_condition hnode hconfig hlabel hedge
  case collectDigits config => exact hflow.bodySteps_collect hnode hlabel hconfig
  case httpLookup endpointId waitPromptKey => exact hflow.bodySteps_lookup hnode hlabel hconfig
  all_goals exact plainBody_hangup.bodySteps

end Reading

theorem config_of_isMenu (h : node.isMenu = true) : ∃ config, node.config = .menu config := by
  cases hconfig : node.config
  case menu config => exact ⟨config, rfl⟩
  all_goals simp [FlowNode.isMenu, FlowNode.nodeType, NodeConfig.nodeType, hconfig] at h

/-- How the loader takes a list of lines. -/
def parseLines (ls : List String) : List Line := ls.map (fun line => parseLine line.toList)

@[simp] theorem parseLines_append (ls ms : List String) :
    parseLines (ls ++ ms) = parseLines ls ++ parseLines ms := List.map_append

theorem parseLines_sameLine {code : List Step} (h : ∀ c ∈ code, Readable c) :
    parseLines (code.map sameLine) = code.map (.same .next) := by
  rw [parseLines, List.map_map, List.map_inj_left]
  intro c hc
  exact (h c hc).parse_sameLine

/-- A name that can stand in front of a priority. -/
structure ExtenName (exten : String) : Prop where
  start : ∃ c, exten.toList.head? = some c ∧ isBlank c = false
  comma : ',' ∉ exten.toList
  semi : ';' ∉ exten.toList

theorem ExtenName.parse (h : ExtenName exten) (hc : BodyStep code) (hlabel : code.label = none) :
    parseLine ("exten => " ++ exten ++ ",1," ++ bodyLine code).toList =
      .exten exten.toList (.number 1) code := by
  obtain ⟨c, hhead, hblank⟩ := h.start
  exact hc.toReadable.parse_exten hlabel hhead hblank h.comma h.semi

/-- An extension is read back as its block. -/
theorem parseLines_extension (hexten : ExtenName exten) {code : List Step} (hne : code ≠ [])
    (hbody : PlainBody code) :
    parseLines (renderExtension exten (code.map bodyLine)) = (blockOf exten code).lines := by
  obtain ⟨first, rest, rfl⟩ := List.exists_cons_of_ne_nil hne
  obtain ⟨hfirst, hlabel⟩ := hbody first (by simp)
  have hrest := parse_body (fun c hc => (hbody c (List.mem_cons_of_mem _ hc)).1)
  rw [renderExtension, parseLines, List.map_cons, List.map_cons, List.headD_cons, List.tail_cons,
    hexten.parse hfirst hlabel, hrest]
  rfl

theorem extenName_of_keys (hne : exten ≠ "") (h : exten.toList.all isKey = true) :
    ExtenName exten := by
  have hlist : exten.toList ≠ [] := fun hnil => hne (String.toList_inj.mp (by simpa using hnil))
  obtain ⟨c, rest, hc⟩ := List.exists_cons_of_ne_nil hlist
  refine ⟨⟨c, by rw [hc]; rfl, ?_⟩, notMem_of_all h (by decide), notMem_of_all h (by decide)⟩
  rw [hc, List.all_cons, Bool.and_eq_true, isKey, Bool.or_eq_true] at h
  rcases h.1 with hd | hk
  · exact isBlank_of_isDigit hd
  · simp only [List.mem_cons, List.not_mem_nil, or_false, decide_eq_true_eq] at hk
    rcases hk with rfl | rfl | rfl | rfl | rfl | rfl <;> rfl

theorem extenName_s : ExtenName "s" := ⟨⟨'s', rfl, rfl⟩, by decide, by decide⟩
theorem extenName_t : ExtenName "t" := ⟨⟨'t', rfl, rfl⟩, by decide, by decide⟩
theorem extenName_i : ExtenName "i" := ⟨⟨'i', rfl, rfl⟩, by decide, by decide⟩

section Reading
include hflow hnode

theorem CleanFlow.parse_labeled (hinline : node.isInline = true) {ls : List String}
    (h : renderLabeled layout node = .ok ls) :
    parseLines ls = (labeledCode layout node).map (.same .next) := by
  unfold renderLabeled at h
  obtain ⟨body, hbody, h⟩ := bind_eq_ok.mp h
  have hlabel := hflow.named.labelOf node.nodeId
  have hread : Readable (labeledStep (layout.labelOf node.nodeId) "NoOp"
      ("ARS node " ++ node.label)) := by
    refine readable_labeled (by decide) ?_ ?_ hlabel
    · simp +decide [(hflow.label hnode (isTerminal_of_isInline hinline)).2]
    · obtain ⟨i, hi⟩ := List.getElem?_of_mem hnode
      rw [hflow.labels i node hi]
      simp [nodeLabel]
  have hline : " same => n(" ++ layout.labelOf node.nodeId ++ "),NoOp(ARS node " ++ node.label ++
      ")" = sameLine (labeledStep (layout.labelOf node.nodeId) "NoOp"
        ("ARS node " ++ node.label)) := by
    refine String.toList_inj.mp ?_
    simp [sameLine, labeledStep, appText]
  have hrest := parse_body (hflow.bodySteps_inline hnode)
  rw [← pure_eq_ok.mp h, inlineNode_eq hbody, hline, parseLines, List.map_cons,
    hread.parse_sameLine, hrest]
  rfl

/-- The digits of a reachable menu are keys. -/
theorem CleanFlow.digit (hmenu : node.isMenu = true) {edge : FlowEdge}
    (hedge : edge ∈ layout.outgoing node.nodeId) (hcondition : edge.condition = .digit)
    {digit : String} (hdigit : given edge.digit = some digit) :
    digit.toList.all isKey = true := by
  have hclean := hflow.clean node hnode
  simp only [FlowNode.clean, Bool.and_eq_true] at hclean
  obtain ⟨config, hconfig⟩ := config_of_isMenu hmenu
  rw [hconfig] at hclean
  have hpressed := List.all_eq_true.mp hclean.2 edge hedge
  simpa [FlowEdge.isPressed, hcondition, hdigit] using hpressed

theorem CleanFlow.parse_digit (hmenu : node.isMenu = true) {edge : FlowEdge}
    (hedge : edge ∈ layout.outgoing node.nodeId) {ls : List String}
    (h : renderDigit layout edge = .ok ls) :
    parseLines ls = (digitBlock layout edge).toList.flatMap Block.lines := by
  unfold digitBlock
  rcases renderDigit_eq_ok h with ⟨digit, body, hcondition, hdigit, -, hbody, rfl⟩ | ⟨rfl, hno⟩
  · obtain ⟨hplain, hne⟩ := hflow.plainBody_edge hnode
      (fun e he => Option.some.inj he ▸ hedge : ∀ e, some edge = some e → _)
    have hbody : body = (edgeCode layout (some edge)).map bodyLine := jump_eq hbody
    have hkeys := hflow.digit hnode hmenu hedge hcondition hdigit
    rw [hbody, hcondition, hdigit,
      parseLines_extension (extenName_of_keys (given_eq_some hdigit).2 hkeys) hne hplain]
    simp
  · split
    · rename_i digit hcondition hdigit
      exact absurd hdigit (hno digit hcondition)
    · rfl

end Reading

theorem parseLines_digits {edges : List FlowEdge} {parts : List (List String)}
    (h : List.Forall₂ (fun edge part => renderDigit layout edge = .ok part) edges parts)
    (hpart : ∀ edge ∈ edges, ∀ ls, renderDigit layout edge = .ok ls →
      parseLines ls = (digitBlock layout edge).toList.flatMap Block.lines) :
    parseLines parts.flatten =
      (edges.filterMap (digitBlock layout)).flatMap Block.lines := by
  induction h with
  | nil => rfl
  | cons hedge _ ih =>
    rename_i edge part edges parts _
    have hrest := ih (fun e he => hpart e (List.mem_cons_of_mem _ he))
    rw [List.flatten_cons, parseLines_append, hpart edge (by simp) part hedge, hrest,
      List.filterMap_cons]
    cases digitBlock layout edge with
    | none => rfl
    | some block => simp

theorem parse_header {name : String} (h : name.toList.all isLabelChar = true) :
    parseLine ("[" ++ name ++ "]").toList = .header name.toList := by
  have htext : ("[" ++ name ++ "]").toList = '[' :: name.toList ++ [']'] := by simp
  rw [htext, parseLine_header (notMem_of_all h (by decide)) (notMem_of_all h (by decide))]

variable {config : MenuConfig}

theorem promptLine_eq {prompt : List String} (h : menuPromptLine config = .ok prompt) :
    prompt = (promptCode config).map sameLine := by
  unfold menuPromptLine at h
  unfold promptCode
  cases hkey : given config.promptKey with
  | some key =>
    rw [hkey] at h
    obtain ⟨target, htarget, h⟩ := bind_eq_ok.mp h
    rw [← pure_eq_ok.mp h, toPlaybackTarget_eq htarget]
    dsimp only
    split
    · exact cons_lines (by simp [sameLine, labeledStep, appText]) rfl
    · exact cons_lines (by simp [sameLine, plainStep, appText]) rfl
  | none =>
    rw [hkey] at h
    rw [← pure_eq_ok.mp h]
    rfl

theorem uncommented_menuCounter (contextName : String) :
    uncommented (menuCounter contextName) = true := by
  unfold menuCounter
  simp only [uncommented_append, uncommented_toVariableName, Bool.and_true]
  decide

theorem readable_promptCode (h : config.promptKey.all uncommented = true) :
    ∀ c ∈ promptCode config, Readable c := by
  unfold promptCode
  split
  · rename_i key hkey
    rw [(given_eq_some hkey).1, Option.all_some] at h
    intro c hc
    rw [List.mem_singleton.mp hc]
    split
    · exact readable_labeled (by decide) (uncommented_playbackPath h) (by decide) (by decide)
    · exact (bodyStep_plain (by decide) (uncommented_playbackPath h)).toReadable
  · intro c hc
    cases hc

theorem counterLine_eq (config : MenuConfig) (contextName : String) :
    (if config.maxRetries > 0 then
      [" same => n,Set(__" ++ ("ARS_MENU_RETRY_" ++ toVariableName contextName) ++ "=0)"] else []) =
      (counterCode config contextName).map sameLine := by
  have hcounter : "ARS_MENU_RETRY_" ++ toVariableName contextName = menuCounter contextName := rfl
  rw [hcounter, counterCode]
  split
  · exact cons_lines (by simp [sameLine, plainStep, appText]) rfl
  · rfl

theorem parseLines_menuEntry (contextName : String) (hlabel : uncommented node.label = true)
    (hprompt : config.promptKey.all uncommented = true) :
    parseLines (["exten => s,1,NoOp(ARS menu " ++ node.label ++ ")"] ++
      (counterCode config contextName).map sameLine ++ (promptCode config).map sameLine ++
      [" same => n,WaitExten(" ++ toString config.timeoutSeconds ++ ")"]) =
      (blockOf "s" (menuEntryCode node config contextName)).lines := by
  have hfirst : "exten => s,1,NoOp(ARS menu " ++ node.label ++ ")" =
      "exten => " ++ "s" ++ ",1," ++ bodyLine (plainStep "NoOp" ("ARS menu " ++ node.label)) := by
    refine String.toList_inj.mp ?_
    simp [bodyLine_plain]
  have hwait : [" same => n,WaitExten(" ++ toString config.timeoutSeconds ++ ")"] =
      [plainStep "WaitExten" (toString config.timeoutSeconds)].map sameLine :=
    cons_lines (by simp [sameLine, plainStep, appText]) rfl
  have hread : ∀ c ∈ counterCode config contextName ++ promptCode config ++
      [plainStep "WaitExten" (toString config.timeoutSeconds)], Readable c := by
    intro c hc
    rcases List.mem_append.mp hc with hc | hc
    · rcases List.mem_append.mp hc with hc | hc
      · unfold counterCode at hc
        split at hc
        · rw [List.mem_singleton.mp hc]
          exact (bodyStep_plain (by decide)
            (by simp +decide [uncommented_menuCounter])).toReadable
        · cases hc
      · exact readable_promptCode hprompt c hc
    · rw [List.mem_singleton.mp hc]
      exact (bodyStep_plain (by decide) (by simp)).toReadable
  have hrest := parseLines_sameLine hread
  rw [hfirst, hwait, List.append_assoc, List.append_assoc, ← List.append_assoc (List.map _ _),
    ← List.map_append, ← List.map_append, parseLines_append, hrest]
  rw [parseLines, List.map_singleton, extenName_s.parse
    (bodyStep_plain (by decide) (by simp +decide [hlabel])) rfl]
  simp [blockOf, Block.lines, menuEntryCode, counterCode]

theorem timeout_eq {contextName : String} {giveUp : List String}
    (h : giveUp = (takeCode layout node .timeout).map bodyLine) :
    (if config.maxRetries > 0 && (given config.promptKey).isSome then
      ["Set(__" ++ menuCounter contextName ++ "=$[" ++ varRef (menuCounter contextName) ++ "+1])",
        "GotoIf($[" ++ varRef (menuCounter contextName) ++ "<=" ++ toString config.maxRetries ++
          "]?s,prompt)"] ++ giveUp
      else giveUp) = (timeoutCode layout node config contextName).map bodyLine := by
  rw [timeoutCode, h]
  split
  · simp only [List.map_append, List.map_cons, List.map_nil, bodyLine_plain]
    exact append_lines (cons_lines (by simp) (cons_lines (by simp) rfl)) rfl
  · rfl

section Reading
include hflow hnode

theorem CleanFlow.plainBody_timeout (config : MenuConfig) (contextName : String) :
    PlainBody (timeoutCode layout node config contextName) ∧
      timeoutCode layout node config contextName ≠ [] := by
  obtain ⟨hplain, hne⟩ := hflow.plainBody_take hnode .timeout
  unfold timeoutCode
  split
  · refine ⟨plainBody_append (plainBody_cons (by decide) ?_ (plainBody_cons (by decide) ?_
      plainBody_nil)) hplain, by simp⟩
    · simp +decide [uncommented_varRef, uncommented_menuCounter]
    · simp +decide [uncommented_varRef, uncommented_menuCounter]
  · exact ⟨hplain, hne⟩

theorem CleanFlow.parse_invalid {ls : List String} (h : renderInvalid layout node = .ok ls) :
    parseLines ls = (invalidBlocks layout node).flatMap Block.lines := by
  unfold renderInvalid at h
  unfold invalidBlocks
  cases hedge : layout.findEdge node.nodeId .invalid with
  | some edge =>
    rw [hedge] at h
    obtain ⟨body, hbody, h⟩ := bind_eq_ok.mp h
    obtain ⟨hplain, hne⟩ := hflow.plainBody_edge hnode
      (fun e he => Option.some.inj he ▸ (findEdge_eq_some hedge).1 : ∀ e, some edge = some e → _)
    have hbody : body = (edgeCode layout (some edge)).map bodyLine := jump_eq hbody
    rw [← pure_eq_ok.mp h, hbody, parseLines_extension extenName_i hne hplain]
    simp
  | none =>
    rw [hedge] at h
    rw [← pure_eq_ok.mp h]
    rfl

theorem CleanFlow.parse_menu {config : MenuConfig} (hconfig : node.config = .menu config)
    {ls : List String} (h : renderMenu layout node = .ok ls) :
    parseLines ls = (menuSection layout node config).lines := by
  have hmenu : node.isMenu = true := by
    rw [FlowNode.isMenu, FlowNode.nodeType, hconfig]
    rfl
  have hclean := hflow.config hnode
  rw [hconfig, NodeConfig.clean] at hclean
  have hlabel := (hflow.label hnode (isTerminal_of_isMenu hmenu)).2
  unfold renderMenu at h
  rw [hconfig] at h
  simp only at h
  unfold renderMenuContext at h
  obtain ⟨prompt, hprompt, h⟩ := bind_eq_ok.mp h
  obtain ⟨digits, hdigits, h⟩ := bind_eq_ok.mp h
  obtain ⟨giveUp, hgiveUp, h⟩ := bind_eq_ok.mp h
  obtain ⟨invalid, hinvalid, h⟩ := bind_eq_ok.mp h
  have hheader := parse_header (hflow.named.menuContextOf node.nodeId)
  have hentry := parseLines_menuEntry (layout.menuContextOf node.nodeId) hlabel hclean
  have hkeys := parseLines_digits (mapM_eq_ok.mp hdigits)
    (fun edge hedge ls => hflow.parse_digit hnode hmenu hedge)
  obtain ⟨hplain, hne⟩ := hflow.plainBody_timeout hnode config (layout.menuContextOf node.nodeId)
  have htimeout := parseLines_extension extenName_t hne hplain
  rw [← timeout_eq (jumpOrHangup_eq hgiveUp)] at htimeout
  have hinvalid := hflow.parse_invalid hnode hinvalid
  have hcounter : "ARS_MENU_RETRY_" ++ toVariableName (layout.menuContextOf node.nodeId) =
      menuCounter (layout.menuContextOf node.nodeId) := rfl
  have hopening : parseLines (["[" ++ layout.menuContextOf node.nodeId ++ "]",
      "exten => s,1,NoOp(ARS menu " ++ node.label ++ ")"] ++
      (counterCode config (layout.menuContextOf node.nodeId)).map sameLine ++
      (promptCode config).map sameLine ++
      [" same => n,WaitExten(" ++ toString config.timeoutSeconds ++ ")"]) =
      .header (layout.menuContextOf node.nodeId).toList ::
        (blockOf "s" (menuEntryCode node config (layout.menuContextOf node.nodeId))).lines := by
    rw [← hheader, ← hentry]
    rfl
  rw [← pure_eq_ok.mp h, counterLine_eq, promptLine_eq hprompt, hcounter, parseLines_append,
    parseLines_append, parseLines_append, htimeout, hinvalid, hkeys, hopening]
  simp [menuSection, Section.lines]

end Reading

/-! ## The whole text -/

section Text
variable {localeCompare : String → String → Int} {input : ArsFlowRenderInput}

theorem clean_input (h : input.clean localeCompare = true) :
    (hasBreak input.graph.name = false ∧ uncommented input.graph.name = true) ∧
      uncommented input.did = true ∧ uncommented input.tenantId = true ∧
      uncommented (input.branchId.getD "-") = true ∧
      ∀ node ∈ orderReachableNodes localeCompare input.graph,
        node.clean (layoutOf localeCompare input.graph) = true := by
  simp only [ArsFlowRenderInput.clean, Bool.and_eq_true, Bool.not_eq_true',
    List.all_eq_true] at h
  obtain ⟨⟨⟨⟨⟨hbreak, hname⟩, hdid⟩, htenant⟩, hbranch⟩, hnodes⟩ := h
  exact ⟨⟨hbreak, hname⟩, hdid, htenant, hbranch, hnodes⟩

theorem parseLines_opening (h : input.clean localeCompare = true) :
    parseLines (openingLines input) = .header (mainContext input.graph).toList ::
      .exten "s".toList (.number 1) (plainStep "NoOp" ("ARS flow " ++ input.graph.name)) ::
      (openingCode input).map (.same .next) := by
  obtain ⟨⟨_, hname⟩, hdid, htenant, hbranch, _⟩ := clean_input h
  have hlines : openingLines input = ("[" ++ mainContext input.graph ++ "]") ::
      ("exten => " ++ "s" ++ ",1," ++ bodyLine (plainStep "NoOp" ("ARS flow " ++
        input.graph.name))) :: (openingCode input).map sameLine := by
    refine cons_lines rfl (cons_lines ?_ (cons_lines ?_ (cons_lines ?_ (cons_lines ?_
      (cons_lines ?_ (cons_lines ?_ rfl))))))
    all_goals simp [sameLine, plainStep, bodyLine, appText]
  have hcode : PlainBody (openingCode input) := by
    refine plainBody_cons (by decide) (by decide) (plainBody_cons (by decide) (by decide)
      (plainBody_cons (by decide) ?_ (plainBody_cons (by decide) ?_ (plainBody_cons (by decide) ?_
      plainBody_nil))))
    · simp +decide [htenant]
    · rw [uncommented_append, hbranch]
      decide
    · simp +decide [hdid]
  have hrest := parseLines_sameLine (fun c hc => (hcode c hc).1.toReadable)
  rw [hlines, ← hrest, ← parse_header (all_isLabelChar_mainContext input.graph),
    ← extenName_s.parse (bodyStep_plain (by decide) (by simp +decide [hname])) rfl]
  rfl

theorem parseLines_inline {layout : Layout} {nodes : List FlowNode} {parts : List (List String)}
    (h : List.Forall₂ (fun node part => renderLabeled layout node = .ok part) nodes parts)
    (hpart : ∀ node ∈ nodes, ∀ ls, renderLabeled layout node = .ok ls →
      parseLines ls = (labeledCode layout node).map (.same .next)) :
    parseLines parts.flatten = (nodes.flatMap (labeledCode layout)).map (.same .next) := by
  induction h with
  | nil => rfl
  | cons hnode _ ih =>
    rename_i node part nodes parts _
    have hrest := ih (fun n hn => hpart n (List.mem_cons_of_mem _ hn))
    rw [List.flatten_cons, parseLines_append, hpart node (by simp) part hnode, hrest,
      List.flatMap_cons, List.map_append]

theorem parseLines_menus {layout : Layout} {nodes : List FlowNode} {parts : List (List String)}
    (h : List.Forall₂ (fun node part => renderMenu layout node = .ok part) nodes parts)
    (hpart : ∀ node ∈ nodes, ∀ ls, renderMenu layout node = .ok ls →
      parseLines ls = (menuSectionOf layout node).lines) :
    parseLines (parts.flatMap ([""] ++ ·)) =
      (nodes.map (menuSectionOf layout)).flatMap (fun sec => .other :: sec.lines) := by
  induction h with
  | nil => rfl
  | cons hnode _ ih =>
    rename_i node part nodes parts _
    have hrest := ih (fun n hn => hpart n (List.mem_cons_of_mem _ hn))
    have hblank : parseLines [""] = [.other] := by decide
    rw [List.flatMap_cons, parseLines_append, parseLines_append, hblank,
      hpart node (by simp) part hnode, hrest, List.map_cons, List.flatMap_cons]
    rfl

theorem cleanFlow_of_clean (h : input.clean localeCompare = true)
    (hentry : input.graph.hasNode input.graph.entryNodeId = true) :
    CleanFlow (layoutOf localeCompare input.graph)
      (orderReachableNodes localeCompare input.graph) where
  toSound := layoutOf_sound hentry
  clean := (clean_input h).2.2.2.2

theorem printedOnOneLine_of_clean (h : input.clean localeCompare = true) :
    PrintedOnOneLine localeCompare input.graph := by
  obtain ⟨⟨hbreak, _⟩, _, _, _, hnodes⟩ := clean_input h
  refine ⟨hbreak, ?_⟩
  intro node hnode hterminal
  have hclean := hnodes node hnode
  simp only [FlowNode.clean, hterminal, Bool.false_or, Bool.and_eq_true, Bool.not_eq_true'] at hclean
  exact hclean.1.1.1

/-- The compiled text of a clean flow is loaded as its sections. -/
theorem load_renderArsFlow {text : String} (h : renderArsFlow localeCompare input = .ok text)
    (hclean : input.clean localeCompare = true) :
    load text = (flowSections localeCompare input).flatMap Section.entries := by
  obtain ⟨contexts, hc, _⟩ := bind_eq_ok.mp h
  have hlines := (lines_renderArsFlow_iff h hc).mpr
    (emits_contexts hc (printedOnOneLine_of_clean hclean)).free
  obtain ⟨hinput, entry, inline, menus, hentry, hinline, hmenus, rfl⟩ := renderContexts_eq_ok hc
  obtain ⟨_, hexists, _⟩ := checkInput_eq_ok hinput
  have hflow := cleanFlow_of_clean hclean hexists
  have hmain : parseLines (openingLines input ++ entry.map prefixSame ++ inline.flatten) =
      (mainSection (layoutOf localeCompare input.graph)
        (orderReachableNodes localeCompare input.graph) input).lines := by
    obtain ⟨node, hnode⟩ := Option.isSome_iff_exists.mp hexists
    have hmem : node ∈ orderReachableNodes localeCompare input.graph := by
      refine mem_orderReachableNodes (Bfs.start_mem_order ?_) hnode
      exact List.length_pos_of_mem (FlowGraph.nodeById_mem hnode)
    have hjump := parse_body (plainBody_jump hflow.named (hflow.config hmem)).bodySteps
    have hnode' : (layoutOf localeCompare input.graph).graph.nodeById input.graph.entryNodeId =
      some node := hnode
    have hentry := jump_eq hentry
    rw [hnode', Option.map_some, Option.getD_some] at hentry
    rw [parseLines_append, parseLines_append, parseLines_opening hclean, hentry,
      parseLines_inline hinline, parseLines, hjump]
    · simp [mainSection, mainCode, Section.lines, Block.lines, hnode']
    · intro node hnode ls hls
      obtain ⟨hmem, hin⟩ := List.mem_filter.mp hnode
      exact hflow.parse_labeled hmem hin hls
  have hrest := parseLines_menus hmenus (by
    intro node hnode ls hls
    obtain ⟨hmem, hin⟩ := List.mem_filter.mp hnode
    obtain ⟨config, hconfig⟩ := config_of_isMenu hin
    rw [menuSectionOf, hconfig]
    exact hflow.parse_menu hmem hconfig hls)
  have hload : load text = loadFrom .start (parseLines (lines text)) := rfl
  rw [hload, hlines, intercalate_cons_flatMap, parseLines_append, hmain, hrest, loadFrom_sections]
  rfl

end Text

end KasterCti.ArsFlow
