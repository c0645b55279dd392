import KasterCti.Renderers.OutboundCalls

/-!
# Calls from a telephone

Whatever number is dialled on a telephone, a call goes out over a trunk in a category that
is open only (`closed_category_is_not_dialled`): the telephone hands the number, or that of
a speed dial, to its way out, and dials over no trunk itself.
-/

namespace KasterCti.Renderers

open Dialplan Machine
open ArsFlow (plainStep varRef)
open Common

/-! ## The lines of a telephone -/

/-- A jump to the way out. -/
def outboundCallTo (agent : AgentDialplanAgentInput) (number : String) : Step :=
  plainStep "Goto" (outboundContext agent ++ "," ++ number ++ ",1")

/-- What stands in the context of a telephone, locked or not. -/
inductive PhoneLine (input : AgentDialplanInput) (agent : AgentDialplanAgentInput)
    (exten : Text) : Step → Prop
  | locked {code : Step} : LockedLine input agent exten code → PhoneLine input agent exten code
  | guard : PhoneLine input agent exten (registeredEndpointGuard agent)
  | out {route : String × OutboundDialNumberCategory} : route ∈ orderedPatterns →
      exten = route.1.toList → PhoneLine input agent exten (outboundCallTo agent (varRef "EXTEN"))
  | speedOut {item : AgentDialplanSpeedDialInput} : item ∈ input.speedDials →
      PhoneLine input agent exten (outboundCallTo agent item.targetNumber)
  | speedInside {item : AgentDialplanSpeedDialInput} : item ∈ input.speedDials →
      PhoneLine input agent exten (dialEndpoint item.targetNumber)
  | inside : PhoneLine input agent exten (dialEndpoint (varRef "EXTEN"))

section Lines
variable {input : AgentDialplanInput} {agent : AgentDialplanAgentInput}

theorem phoneLine_allowed :
    ∀ block ∈ buildAllowedOutboundEntryRoutes agent, ∀ code ∈ block.code,
      PhoneLine input agent block.exten code := by
  intro block hblock code hcode
  obtain ⟨route, hroute, rfl⟩ := List.mem_map.mp hblock
  obtain ⟨category, hmem, -⟩ := of_mem_allowed hroute
  simp only [Block.code, List.mem_cons, List.not_mem_nil, or_false] at hcode
  rcases hcode with rfl | rfl | rfl
  · exact .locked (.still (isStill_of (by decide) (.inl rfl)))
  · exact .guard
  · exact .out hmem rfl

theorem phoneLine_speedDial {item : AgentDialplanSpeedDialInput} (hitem : item ∈ input.speedDials)
    {extensions : List String} {block : Block}
    (h : renderSpeedDial agent extensions item = .ok block) :
    ∀ code ∈ block.code, PhoneLine input agent block.exten code := by
  obtain ⟨-, -, h⟩ := bind_eq_ok.mp h
  obtain ⟨-, -, h⟩ := bind_eq_ok.mp h
  obtain ⟨-, -, h⟩ := bind_eq_ok.mp h
  rw [← pure_eq_ok.mp h]
  intro code hcode
  simp only [Block.code, List.mem_cons] at hcode
  rcases hcode with rfl | rfl | hcode
  · exact .locked (.still (isStill_of (by decide) (.inl rfl)))
  · exact .guard
  · split at hcode
    · simp only [List.mem_cons, List.not_mem_nil, or_false] at hcode
      rcases hcode with rfl | rfl
      · exact .speedInside hitem
      · exact .locked (.still (isStill_of (by decide) (.inr rfl)))
    · obtain rfl := List.mem_singleton.mp hcode
      exact .speedOut hitem

theorem phoneLine_speedDials {allowed : Bool} {blocks : List Block}
    (h : renderAgentSpeedDialLines agent allowed input.speedDials input.internalExtensions =
      .ok blocks) :
    ∀ block ∈ blocks, ∀ code ∈ block.code, PhoneLine input agent block.exten code := by
  unfold renderAgentSpeedDialLines at h
  split at h
  · rw [← pure_eq_ok.mp h]
    simp
  · intro block hblock
    obtain ⟨item, hitem, hrender⟩ := exists_of_mem_right (mapM_eq_ok.mp h) hblock
    exact phoneLine_speedDial (List.mem_filter.mp hitem).1 hrender

theorem phoneLine_internal (pattern : String) :
    ∀ code ∈ (internalBlock agent pattern).code, PhoneLine input agent pattern.toList code := by
  intro code hcode
  simp only [internalBlock, Block.code, List.mem_cons, List.not_mem_nil, or_false] at hcode
  rcases hcode with rfl | rfl | rfl | rfl
  · exact .locked (.still (isStill_of (by decide) (.inl rfl)))
  · exact .guard
  · exact .inside
  · exact .locked (.still (isStill_of (by decide) (.inr rfl)))

/-- Every line of the context of a telephone. -/
theorem phoneLine_of_render {sec : Section}
    (h : renderAgentEntryContext agent input.allowDirectSipDial input.internalExtensions
      input.speedDials input.featureCodes = .ok sec) :
    ∀ block ∈ sec.blocks, ∀ code ∈ block.code, PhoneLine input agent block.exten code := by
  by_cases hlocked : Locked input agent
  · intro block hblock code hcode
    exact .locked (lockedLine_of_render hlocked h block hblock code hcode)
  · simp only [Locked, not_or, Bool.not_eq_false] at hlocked
    obtain ⟨hfull, hlock, houtbound, hdirect⟩ := hlocked
    unfold renderAgentEntryContext at h
    rw [if_neg hfull] at h
    obtain ⟨speed, hspeed, h⟩ := bind_eq_ok.mp h
    obtain ⟨features, hfeatures, h⟩ := bind_eq_ok.mp h
    have hopen : outboundEntryBlocks agent (directDialAllowed agent input.allowDirectSipDial) =
        buildAllowedOutboundEntryRoutes agent := by
      simp [outboundEntryBlocks, hdirect, houtbound, hlock]
    rw [← pure_eq_ok.mp h, hopen]
    intro block hblock code hcode
    simp only [List.mem_append, List.mem_singleton] at hblock
    rcases hblock with ((((hblock | hblock) | hblock) | hblock) | hblock) | rfl
    · obtain ⟨pattern, -, rfl⟩ := List.mem_map.mp hblock
      exact .locked (still_noServiceRoute _ _ code hcode)
    · exact phoneLine_allowed block hblock code hcode
    · exact phoneLine_speedDials hspeed block hblock code hcode
    · exact .locked (lockedLine_features hfeatures block hblock code hcode)
    · obtain ⟨pattern, -, rfl⟩ := List.mem_map.mp hblock
      exact phoneLine_internal pattern code hcode
    · exact .locked (still_noServiceRoute _ _ code hcode)

end Lines

/-! ## Runs -/

section Runs
variable {input : AgentDialplanInput} {sections : List Section} {agent : AgentDialplanAgentInput}
  {world : Nat → Text → Text}

def IsDigits (t : Text) : Prop := ∀ c ∈ t, isDigit c = true

/-- On the telephone, or on its way out. -/
inductive OnCall (input : AgentDialplanInput) (agent : AgentDialplanAgentInput)
    (world : Nat → Text → Text) (s : State) : Prop
  | phone : s.pos.context = (phoneContext agent).toList →
      IsDigits s.pos.exten ∨ s.pos.exten = "unregistered-agent".toList →
      PlainContacts world agent s.vars → PlainRecordName world s.vars → OnCall input agent world s
  | way : OnWay input agent world IsDigits s → OnCall input agent world s

/-- The jump to the way out. -/
theorem step_outboundCallTo {dialplan : List Entry} {s : State} {number : String} {shown : Text}
    (hagent : IsDigits agent.extension.toList) (hshown : IsDigits shown)
    (hexpand : expand ((s.visit none).lookup world) (number.toList ++ ",1".toList) =
      shown ++ ",1".toList)
    (hcode : stepAt dialplan s.pos = some (outboundCallTo agent number)) :
    step dialplan world s =
      if (dialplan.map Entry.context).contains (outboundContext agent).toList then
        .inl { s.visit none with pos := ⟨(outboundContext agent).toList, shown, 1⟩ }
      else .inr ⟨.left (outboundContext agent).toList shown ['1'], (s.visit none).trace⟩ := by
  have hplain : ∀ c : Char, isDigit c = false → c ∉ "outbound-main-,".toList →
      c ∉ (outboundContext agent ++ ",").toList := by
    intro c hc hno hmem
    simp only [outboundContext, String.toList_append, List.mem_append] at hmem
    rcases hmem with (hmem | hmem) | hmem
    · exact hno (List.mem_of_mem_take (i := 14) hmem)
    · exact notMem_of_digits hagent hc hmem
    · exact hno (List.mem_of_mem_drop (i := 14) hmem)
  have hargs : expand ((s.visit none).lookup world) (outboundCallTo agent number).args =
      (outboundContext agent).toList ++ ',' :: (shown ++ ',' :: ['1']) := by
    have htext : (outboundCallTo agent number).args =
        (outboundContext agent ++ ",").toList ++ (number.toList ++ ",1".toList) := by
      simp [outboundCallTo, plainStep]
    rw [htext, expand_prefix _ (hplain '$' rfl (by decide)), hexpand]
    simp
  have hcomma : ',' ∉ (outboundContext agent).toList := by
    simp only [outboundContext, String.toList_append, List.mem_append, not_or]
    exact ⟨by decide, notMem_of_digits hagent rfl⟩
  rw [step_at hcode, show (outboundCallTo agent number).label = none from rfl, hargs,
    show appOf (outboundCallTo agent number).app = .goto from rfl]
  simp only [State.apply, State.basic, State.goto]
  rw [resolve_context hcomma (notMem_of_digits hshown rfl) (by decide), jumpTo_one]
  cases (dialplan.map Entry.context).contains (outboundContext agent).toList <;> rfl

/-- The name that stands in for a telephone without contact reaches no pattern. -/
theorem unregistered_reaches_no_pattern :
    ∀ route ∈ orderedPatterns,
      matchesExten route.1.toList "unregistered-agent".toList = false := by
  decide

section Rendered
variable (hrender : renderAgentDialplan input = .ok sections)
  (hextensions : (input.agents.map (·.extension)).Nodup) (hagent : agent ∈ input.agents)
include hrender hextensions hagent

theorem phoneLine_of_stepAt {s : State} (hcontext : s.pos.context = (phoneContext agent).toList)
    {code : Step} (hcode : stepAt (sections.flatMap Section.entries) s.pos = some code) :
    ∃ exten, matchesExten exten s.pos.exten = true ∧ PhoneLine input agent exten code := by
  obtain ⟨sec, hsec, hsame, block, hblock, hmem, -, hmatch⟩ := stepAt_sections hcode
  have hphone := phoneSection_of_mem hrender hextensions hagent hsec (hsame.trans hcontext)
  exact ⟨block.exten, hmatch, phoneLine_of_render hphone block hblock code hmem⟩

/-- One step stays on the call, or ends it. -/
theorem onCall_step (hdigits : IsDigits agent.extension.toList)
    (hspeed : ∀ item ∈ input.speedDials, IsDigits item.targetNumber.toList) (s : State)
    (hcall : OnCall input agent world s) :
    Sum.elim (OnCall input agent world) (fun _ => True)
      (step (sections.flatMap Section.entries) world s) := by
  cases hcall with
  | way hway =>
    have hnext := onWay_step hrender hextensions hagent hdigits (fun _ h => h) s hway
    cases hstep : step (sections.flatMap Section.entries) world s with
    | inl t =>
      rw [hstep] at hnext
      exact .way hnext
    | inr r => trivial
  | phone hcontext hexten hcontacts hplain =>
    have hadvance : ∀ label, OnCall input agent world (s.visit label).advance :=
      fun _ => .phone hcontext hexten hcontacts hplain
    have hout : ∀ {number : String} {shown : Text}, IsDigits shown →
        expand ((s.visit none).lookup world) (number.toList ++ ",1".toList) =
          shown ++ ",1".toList →
        stepAt (sections.flatMap Section.entries) s.pos = some (outboundCallTo agent number) →
        Sum.elim (OnCall input agent world) (fun _ => True)
          (step (sections.flatMap Section.entries) world s) := by
      intro number shown hshown hexpand hcode
      rw [step_outboundCallTo hdigits hshown hexpand hcode]
      split
      · exact .way (.out rfl hshown hplain)
      · trivial
    cases hcode : stepAt (sections.flatMap Section.entries) s.pos with
    | none =>
      rw [step, hcode]
      trivial
    | some code =>
      obtain ⟨exten, hmatch, hline⟩ :=
        phoneLine_of_stepAt hrender hextensions hagent hcontext hcode
      have hguard : code = registeredEndpointGuard agent →
          Sum.elim (OnCall input agent world) (fun _ => True)
            (step (sections.flatMap Section.entries) world s) := by
        rintro rfl
        rw [step_guard hdigits hcontacts hcode]
        split
        · exact .phone hcontext (.inr rfl) hcontacts hplain
        · exact hadvance _
      cases hline with
      | locked hlocked =>
        cases hlocked with
        | still hstill =>
          rcases hstill.2.2 with happ | happ
          · rw [step_pass hcode happ]
            exact hadvance _
          · rw [step_hangup hcode happ]
            trivial
        | guard => exact hguard rfl
        | internal =>
          rw [step_pass hcode rfl]
          exact hadvance _
      | guard => exact hguard rfl
      | out hroute hpattern =>
        subst hpattern
        have hnumber : IsDigits s.pos.exten := by
          refine hexten.resolve_right ?_
          intro hname
          rw [hname, unregistered_reaches_no_pattern _ hroute] at hmatch
          cases hmatch
        refine hout hnumber ?_ hcode
        rw [expand_varRef _ (by decide), expand_plain _ (by decide), valueOf_plain _ (by decide)]
        simp [State.lookup, State.visit]
      | speedOut hitem =>
        refine hout (hspeed _ hitem) (expand_plain _ ?_) hcode
        rw [List.mem_append, not_or]
        exact ⟨notMem_of_digits (hspeed _ hitem) rfl, by decide⟩
      | speedInside | inside =>
        rw [step_pass hcode rfl]
        exact hadvance _

/-- A telephone itself dials over no trunk. -/
theorem not_dialsTrunk_phone (hspeed : ∀ item ∈ input.speedDials, IsDigits item.targetNumber.toList)
    {s : State} (hcontext : s.pos.context = (phoneContext agent).toList)
    (hexten : IsDigits s.pos.exten ∨ s.pos.exten = "unregistered-agent".toList) :
    ¬ DialsTrunk (sections.flatMap Section.entries) world s := by
  rintro ⟨args, hargs, htrunk⟩
  have hat : '@' ∉ s.pos.exten := by
    rcases hexten with hnumber | hname
    · exact notMem_of_digits hnumber rfl
    · rw [hname]
      decide
  cases hcode : stepAt (sections.flatMap Section.entries) s.pos with
  | none =>
    rw [dialled, hcode] at hargs
    cases hargs
  | some code =>
    obtain ⟨exten, -, hline⟩ := phoneLine_of_stepAt hrender hextensions hagent hcontext hcode
    have hdials := app_of_dialled hcode hargs
    have hinside : code = dialEndpoint (varRef "EXTEN") → False := by
      rintro rfl
      obtain rfl := Option.some.inj ((dialled_self hcode).symm.trans hargs)
      exact not_trunk_of_plain hat htrunk
    cases hline with
    | locked hlocked =>
      cases hlocked with
      | still hstill => exact absurd hdials hstill.2.1
      | guard => exact absurd hdials (show "GotoIf".toList ≠ "Dial".toList by decide)
      | internal => exact hinside rfl
    | guard => exact absurd hdials (show "GotoIf".toList ≠ "Dial".toList by decide)
    | out | speedOut => exact absurd hdials (show "Goto".toList ≠ "Dial".toList by decide)
    | speedInside hitem =>
      rename_i item
      have hplain : '$' ∉ item.targetNumber.toList ++ ",20,tTU(agent-pre-bridge)".toList := by
        rw [List.mem_append, not_or]
        exact ⟨notMem_of_digits (hspeed _ hitem) rfl, by decide⟩
      obtain rfl :=
        Option.some.inj ((dialled_endpoint (expand_plain _ hplain) hcode).symm.trans hargs)
      exact not_trunk_of_plain (notMem_of_digits (hspeed _ hitem) rfl) htrunk
    | inside => exact hinside rfl

end Rendered

/-- Whatever number is dialled on the telephone, or comes to its way out, a call goes out over
a trunk only to a number whose category is open, or which is in no category. -/
theorem closed_category_is_not_dialled (hrender : renderAgentDialplan input = .ok sections)
    (hextensions : (input.agents.map (·.extension)).Nodup) (hagent : agent ∈ input.agents)
    (hdigits : IsDigits agent.extension.toList)
    (hspeed : ∀ item ∈ input.speedDials, IsDigits item.targetNumber.toList) {s : State}
    (hstart : s.pos.context = (phoneContext agent).toList ∨
      s.pos.context = (outboundContext agent).toList)
    (hnumber : IsDigits s.pos.exten) (hcontacts : PlainContacts world agent s.vars)
    (hplain : PlainRecordName world s.vars) :
    ∀ t, Comes (step (sections.flatMap Section.entries) world) s (.inl t) →
      DialsTrunk (sections.flatMap Section.entries) world t →
      classifyOutboundDialNumber (String.ofList t.pos.exten) = .unsupported ∨
        opens (normalizeOutboundDialPermissions agent.outboundDialPermissions)
          (classifyOutboundDialNumber (String.ofList t.pos.exten)) = true := by
  have hcall : OnCall input agent world s := by
    rcases hstart with hphone | hout
    · exact .phone hphone (.inl hnumber) hcontacts hplain
    · exact .way (.out hout hnumber hplain)
  intro t hcomes htrunk
  have ht : OnCall input agent world t :=
    hcomes.invariant (onCall_step hrender hextensions hagent hdigits hspeed) hcall
  cases ht with
  | phone hcontext hexten =>
    exact absurd htrunk (not_dialsTrunk_phone hrender hextensions hagent hspeed hcontext hexten)
  | way hway =>
    obtain ⟨args, hargs, -⟩ := htrunk
    obtain ⟨hdialled, hopen⟩ := opens_onWay hrender hextensions hagent hway hargs
    by_cases hknown : classifyOutboundDialNumber (String.ofList t.pos.exten) = .unsupported
    · exact .inl hknown
    · have hcategory := routeOf_category hdialled
      rw [routeCategory_of_classify hdialled hknown] at hcategory
      obtain ⟨route, hroute, hsame⟩ := Option.map_eq_some_iff.mp hcategory
      rw [hroute, Option.any_some, hsame] at hopen
      exact .inr hopen

end Runs

section Office

/-- A call from 1002, which is registered. -/
theorem office_phone_dials_what_is_open :
    ∃ sections, renderAgentDialplan office = .ok sections ∧
      ∀ t, Comes (step (sections.flatMap Section.entries) plainChannel)
          ⟨⟨"agent-phone-1002".toList, "01012345678".toList, 1⟩, [], ⟨[], [], [], []⟩, [], []⟩
          (.inl t) →
        DialsTrunk (sections.flatMap Section.entries) plainChannel t →
        classifyOutboundDialNumber (String.ofList t.pos.exten) = .unsupported ∨
          opens (normalizeOutboundDialPermissions officeAgent.outboundDialPermissions)
            (classifyOutboundDialNumber (String.ofList t.pos.exten)) = true := by
  obtain ⟨sections, hrender⟩ := renders_office
  have hagent : officeAgent ∈ office.agents := List.mem_cons_of_mem _ List.mem_cons_self
  have hcontacts : PlainContacts plainChannel officeAgent [] := by
    intro n
    show '"' ∉ "1700000000.12".toList
    decide
  have hspeed : ∀ item ∈ office.speedDials, IsDigits item.targetNumber.toList := by
    unfold IsDigits
    decide
  exact ⟨sections, hrender, closed_category_is_not_dialled hrender (by decide) hagent
    (show ∀ c ∈ "1002".toList, isDigit c = true by decide) hspeed (.inl rfl)
    (show ∀ c ∈ "01012345678".toList, isDigit c = true by decide) hcontacts plainChannel_plain⟩

end Office

end KasterCti.Renderers
