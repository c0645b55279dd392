import KasterCti.Renderers.OutboundRoutes

/-!
# Calls over a trunk

A call in `outbound-main-<ext>` stays there and in the caller id rules
(`onWay_step`), and reaches a `Dial` over a trunk exactly when the permissions open the
pattern that its number reaches (`dialsTrunk_iff`).
-/

namespace KasterCti.Renderers

open Dialplan Machine
open ArsFlow (plainStep varRef given)
open Common

/-! ## Lines that go on -/

/-- The parts of the name of a recording. -/
def IsRecordPart (name : Text) : Prop :=
  name = "CHANNEL(linkedid)".toList ∨ name = "UNIQUEID".toList ∨
    ∃ epoch, name = strftime epoch "%Y/%m/%d".toList

/-- The ids and the dates of the channel have no colon. -/
def PlainRecordName (world : Nat → Text → Text) (vars : List (Text × Text)) : Prop :=
  ∀ name, IsRecordPart name → ∀ n, ':' ∉ (vars.lookup name).getD (world n name)

section Lines
variable {dialplan : List Entry} {world : Nat → Text → Text} {s : State}

theorem PlainRecordName.cons {vars : List (Text × Text)} (h : PlainRecordName world vars)
    {name : Text} (hname : ¬ IsRecordPart name) (value : Text) :
    PlainRecordName world ((name, value) :: vars) := by
  intro part hpart n
  have hne : (part == name) = false := by
    rw [beq_eq_false_iff_ne]
    rintro rfl
    exact hname hpart
  rw [List.lookup_cons, hne]
  exact h part hpart n

theorem not_recordPart {c : Char} {name : Text} (hC : c ≠ 'S')
    (hlinkedid : c :: name ≠ "CHANNEL(linkedid)".toList) (hunique : c :: name ≠ "UNIQUEID".toList) :
    ¬ IsRecordPart (c :: name) := by
  rintro (h | h | ⟨epoch, h⟩)
  · exact hlinkedid h
  · exact hunique h
  · have hhead : c = 'S' := congrArg (fun t => t.headD 'x') h
    exact hC hhead

/-- The call goes on to the next line, with other variables at most. -/
def GoesOn (world : Nat → Text → Text) (s : State) (o : State ⊕ Result) : Prop :=
  ∃ vars, PlainRecordName world vars ∧ o = .inl { s.visit none with vars := vars }.advance

theorem valueOf_linkedid (lookup : Text → Text) :
    valueOf lookup "CHANNEL(linkedid)".toList = lookup "CHANNEL(linkedid)".toList := by
  have hname : "CHANNEL(linkedid)".toList = "CHANNEL".toList ++ '(' :: "linkedid)".toList := by
    decide
  rw [hname]
  exact valueOf_call lookup (by decide) (by decide) (by decide)

/-- The name of the recording, as the channel shows it. -/
def recordName (lookup : Text → Text) (mode : RecordingChannelMode) : Text :=
  lookup (strftime (lookup "EPOCH".toList) "%Y/%m/%d".toList) ++ '/' ::
    (lookup "CHANNEL(linkedid)".toList ++ '-' ::
      (lookup "UNIQUEID".toList ++ '.' :: (getRecordingFileExtension mode).toList))

theorem expand_recordFileName (lookup : Text → Text) (mode : RecordingChannelMode) :
    expand lookup ((recordFileName mode).toList ++ [')']) = recordName lookup mode ++ [')'] := by
  have htext : (recordFileName mode).toList ++ [')'] =
      (varRef ("STRFTIME(" ++ varRef "EPOCH" ++ ",," ++ "%Y/%m/%d" ++ ")")).toList ++
        '/' :: ((varRef "CHANNEL(linkedid)").toList ++ '-' :: ((varRef "UNIQUEID").toList ++
          '.' :: ((getRecordingFileExtension mode).toList ++ [')']))) := by
    simp [recordFileName, varRef]
  have hplain : '$' ∉ (getRecordingFileExtension mode).toList ++ [')'] := by
    cases mode <;> decide
  rw [htext, expand_strftime _ (by decide), expand_cons _ (by decide), expand_varRef _ (by decide),
    expand_cons _ (by decide), expand_varRef _ (by decide), expand_cons _ (by decide),
    expand_plain _ hplain, valueOf_linkedid, valueOf_plain _ (by decide)]
  simp [recordName]

theorem colon_recordName (hplain : PlainRecordName world s.vars) (mode : RecordingChannelMode) :
    ':' ∉ recordName ((s.visit none).lookup world) mode := by
  have hpart : ∀ name, IsRecordPart name → name ≠ "EXTEN".toList →
      ':' ∉ (s.visit none).lookup world name := by
    intro name hname hne
    rw [State.lookup, if_neg hne]
    exact hplain name hname _
  have hdate := hpart (strftime ((s.visit none).lookup world "EPOCH".toList) "%Y/%m/%d".toList)
    (.inr (.inr ⟨_, rfl⟩)) (by
      intro h
      have hhead : 'S' = 'E' := congrArg (fun t => t.headD 'x') h
      exact absurd hhead (by decide))
  have hlinkedid := hpart "CHANNEL(linkedid)".toList (.inl rfl) (by decide)
  have hunique := hpart "UNIQUEID".toList (.inr (.inl rfl)) (by decide)
  have hext : ':' ∉ (getRecordingFileExtension mode).toList := by
    cases mode <;> decide
  simp only [recordName, List.mem_append, List.mem_cons, not_or]
  exact ⟨hdate, by decide, hlinkedid, by decide, hunique, by decide, hext⟩

theorem goesOn_step {code : Step} (hline : OnLine code) (hplain : PlainRecordName world s.vars)
    (hcode : stepAt dialplan s.pos = some code) : GoesOn world s (step dialplan world s) := by
  cases hline with
  | pass hlabel happ =>
    refine ⟨s.vars, hplain, ?_⟩
    rw [step_pass hcode happ, hlabel]
    rfl
  | record mode =>
    rw [step_setIfEmpty hcode (by decide) (by decide) (by decide) (by decide)
      (expand_recordFileName _ mode) (colon_recordName hplain mode)]
    split
    · have hname : ¬ IsRecordPart (varName ("__".toList ++ "REC_FILE".toList)) :=
        not_recordPart (by decide) (by decide) (by decide)
      exact ⟨_, hplain.cons hname _, rfl⟩
    · exact ⟨s.vars, hplain, rfl⟩
  | callerId hset =>
    obtain ⟨name, hname, value, rfl⟩ := hset
    have hplainName : '$' ∉ (name ++ "=").toList ∧ '=' ∉ name.toList ∧
        ¬ IsRecordPart (varName name.toList) := by
      simp only [callerIdNames, List.mem_cons, List.not_mem_nil, or_false] at hname
      rcases hname with rfl | rfl | rfl
      · exact ⟨by decide, by decide, not_recordPart (by decide) (by decide) (by decide)⟩
      · exact ⟨by decide, by decide, not_recordPart (by decide) (by decide) (by decide)⟩
      · exact ⟨by decide, by decide, not_recordPart (by decide) (by decide) (by decide)⟩
    obtain ⟨hdollar, hequals, hrecord⟩ := hplainName
    have hargs : expand ((s.visit none).lookup world) (plainStep "Set" (name ++ "=" ++ value)).args =
        name.toList ++ '=' :: expand ((s.visit none).lookup world) value.toList := by
      have htext : (plainStep "Set" (name ++ "=" ++ value)).args =
          (name ++ "=").toList ++ value.toList := by
        simp [plainStep]
      rw [htext, expand_prefix _ hdollar]
      simp
    rw [step_set hcode rfl hequals hargs]
    exact ⟨_, hplain.cons hrecord _, rfl⟩

/-- The call comes through lines that go on. -/
theorem comes_through {code : List Step} (hlines : ∀ c ∈ code, OnLine c)
    (hplain : PlainRecordName world s.vars) (hcode : CodeAt dialplan s.pos code) :
    ∃ t, Comes (step dialplan world) s (.inl t) ∧ t.pos = s.pos.after code.length ∧
      t.returns = s.returns ∧ PlainRecordName world t.vars := by
  induction code generalizing s with
  | nil => exact ⟨s, .inl rfl, rfl, rfl, hplain⟩
  | cons c code ih =>
    obtain ⟨hfirst, hrest⟩ := hcode
    obtain ⟨vars, hvars, hstep⟩ := goesOn_step (hlines c List.mem_cons_self) hplain hfirst
    obtain ⟨t, hcomes, hpos, hreturns, ht⟩ := ih
      (s := { s.visit none with vars := vars }.advance)
      (fun d hd => hlines d (List.mem_cons_of_mem _ hd)) hvars hrest
    refine ⟨t, hcomes.next hstep, ?_, hreturns, ht⟩
    rw [hpos, List.length_cons, ← Pos.next_after]
    rfl

end Lines

/-! ## Staying on the way -/

section Way
variable {input : AgentDialplanInput} {sections : List Section} {agent : AgentDialplanAgentInput}
  {world : Nat → Text → Text} {P : Text → Prop}

/-- On the way out, or among the caller id rules with the way back. -/
inductive OnWay (input : AgentDialplanInput) (agent : AgentDialplanAgentInput)
    (world : Nat → Text → Text) (P : Text → Prop) (s : State) : Prop
  | out : s.pos.context = (outboundContext agent).toList → P s.pos.exten →
      PlainRecordName world s.vars → OnWay input agent world P s
  | rules {name : String} {number : Text} {priority : Nat} {returns : List Pos} :
      input.cidContext agent = some name → s.pos.context = name.toList →
      s.returns = ⟨(outboundContext agent).toList, number, priority⟩ :: returns → P number →
      PlainRecordName world s.vars → OnWay input agent world P s

theorem cidContext_name {name : String} (h : input.cidContext agent = some name) :
    ∃ tail, name = "outbound-cid-rules" ++ tail ∧ (tail = "" ∨ tail = "-" ++ agent.extension) := by
  unfold AgentDialplanInput.cidContext getAgentCidContextName at h
  split at h
  · obtain rfl := Option.some.inj h
    split
    · exact ⟨"-" ++ agent.extension, by rw [← String.append_assoc]; rfl, .inr rfl⟩
    · exact ⟨"", by rw [String.append_empty], .inl rfl⟩
  · cases h

/-- The name of the caller id rules is plain. -/
theorem plain_cidContext (hdigits : ∀ c ∈ agent.extension.toList, isDigit c = true) {name : String}
    (h : input.cidContext agent = some name) : '$' ∉ name.toList ∧ ',' ∉ name.toList := by
  obtain ⟨tail, rfl, rfl | rfl⟩ := cidContext_name h
  · decide
  · simp only [String.toList_append, List.mem_append, not_or]
    exact ⟨⟨by decide, by decide, notMem_of_digits hdigits rfl⟩,
      by decide, by decide, notMem_of_digits hdigits rfl⟩

/-- The call of the caller id rules. -/
theorem step_cidCall {dialplan : List Entry} {s : State} {name : String}
    (hdollar : '$' ∉ name.toList) (hcomma : ',' ∉ name.toList)
    (hexten : ∀ c ∈ s.pos.exten, isDigit c = true)
    (hcode : stepAt dialplan s.pos = some (cidCall name)) :
    step dialplan world s =
      if (dialplan.map Entry.context).contains name.toList then
        .inl { s.visit none with
          pos := ⟨name.toList, s.pos.exten, 1⟩
          returns := s.pos.next :: s.returns }
      else .inr ⟨.left name.toList s.pos.exten ['1'], (s.visit none).trace⟩ := by
  have hargs : expand ((s.visit none).lookup world) (cidCall name).args =
      name.toList ++ ',' :: (s.pos.exten ++ ',' :: ['1']) := by
    have htext : (cidCall name).args = (name ++ ",").toList ++ ((varRef "EXTEN").toList ++
        ",1".toList) := by
      simp [cidCall, plainStep]
    have hplain : '$' ∉ (name ++ ",").toList := by
      simp [hdollar]
    rw [htext, expand_prefix _ hplain, expand_varRef _ (by decide), expand_plain _ (by decide),
      valueOf_plain _ (by decide)]
    simp [State.lookup, State.visit]
  rw [step_at hcode, show (cidCall name).label = none from rfl, hargs,
    show appOf (cidCall name).app = .gosub from rfl]
  simp only [State.apply, State.basic, State.goto]
  rw [resolve_context hcomma (notMem_of_digits hexten rfl) (by decide), jumpTo_one]
  cases (dialplan.map Entry.context).contains name.toList <;> rfl

section Steps
variable (hrender : renderAgentDialplan input = .ok sections)
  (hextensions : (input.agents.map (·.extension)).Nodup) (hagent : agent ∈ input.agents)
include hrender hextensions hagent

/-- One step stays on the way, or ends the call. -/
theorem onWay_step (hdigits : ∀ c ∈ agent.extension.toList, isDigit c = true)
    (hP : ∀ number, P number → ∀ c ∈ number, isDigit c = true) (s : State)
    (hway : OnWay input agent world P s) :
    Sum.elim (OnWay input agent world P) (fun _ => True)
      (step (sections.flatMap Section.entries) world s) := by
  cases hcode : stepAt (sections.flatMap Section.entries) s.pos with
  | none =>
    rw [step, hcode]
    trivial
  | some code =>
    obtain ⟨sec, hsec, hsame, block, hblock, hmem, -, -⟩ := stepAt_sections hcode
    cases hway with
    | out hcontext hnumber hplain =>
      have hroute := routeSection_of_render (outboundSection_of_mem hrender hextensions hagent hsec
        (hsame.trans hcontext))
      have hline : WayLine (input.cidContext agent) code := by
        rcases hroute.block block hblock with ⟨pattern, noop, rfl⟩ |
          ⟨pattern, noop, trunk, callerId, category, -, -, -, -, rfl⟩
        · exact wayLine_refuses code hmem
        · exact wayLine_dials code hmem
      cases hline with
      | on hon =>
        obtain ⟨vars, hvars, hstep⟩ := goesOn_step hon hplain hcode
        rw [hstep]
        exact .out hcontext hnumber hvars
      | hangup happ =>
        rw [step_hangup hcode happ]
        trivial
      | rules hname =>
        obtain ⟨hdollar, hcomma⟩ := plain_cidContext hdigits hname
        rw [step_cidCall hdollar hcomma (hP _ hnumber) hcode]
        split
        · exact .rules hname rfl (by rw [← hcontext]; rfl) hnumber hplain
        · trivial
    | rules hname hcontext hreturns hnumber hplain =>
      obtain ⟨tail, htail, -⟩ := cidContext_name hname
      have hrules := cidSection_of_context hrender hsec
        (hsame.trans (hcontext.trans (congrArg String.toList htail)))
      cases ruleLine_of_mem hrules block hblock code hmem with
      | on hon _ =>
        obtain ⟨vars, hvars, hstep⟩ := goesOn_step hon hplain hcode
        rw [hstep]
        exact .rules hname hcontext hreturns hnumber hvars
      | back =>
        rw [step_at hcode, show appOf (plainStep "Return" "").app = .return from rfl]
        simp only [State.apply, State.basic, State.visit, hreturns]
        exact .out rfl hnumber hplain

/-- What is dialled on the way is in a category that is open. -/
theorem opens_onWay {s : State} (hway : OnWay input agent world P s) {args : Text}
    (h : dialled (sections.flatMap Section.entries) world s = some args) :
    P s.pos.exten ∧ (routeOf s.pos.exten).any (fun route =>
      opens (normalizeOutboundDialPermissions agent.outboundDialPermissions) route.2) = true := by
  cases hway with
  | out hcontext hnumber _ =>
    exact ⟨hnumber, opens_of_dialled hrender hextensions hagent hcontext h⟩
  | rules hname hcontext _ _ _ =>
    obtain ⟨tail, htail, -⟩ := cidContext_name hname
    unfold dialled at h
    split at h
    · rename_i code hcode
      obtain ⟨sec, hsec, hsame, block, hblock, hmem, -, -⟩ := stepAt_sections hcode
      have hrules := cidSection_of_context hrender hsec
        (hsame.trans (hcontext.trans (congrArg String.toList htail)))
      have hno : code.app ≠ "Dial".toList := by
        cases ruleLine_of_mem hrules block hblock code hmem with
        | on _ hdial => exact hdial
        | back => exact show "Return".toList ≠ "Dial".toList by decide
      rw [if_neg hno] at h
      cases h
    · cases h

end Steps

end Way

/-! ## Reaching the trunk -/

section Reach
variable {input : AgentDialplanInput} {sections : List Section} {agent : AgentDialplanAgentInput}
  {world : Nat → Text → Text}

theorem joinTargets_eq {targets : List String} {joined : String}
    (h : joinTargets targets = some joined) : ∃ first ∈ targets, ∃ rest, joined = first ++ rest := by
  cases targets with
  | nil => cases h
  | cons first targets =>
    refine ⟨first, List.mem_cons_self, ?_⟩
    rw [← Option.some.inj h]
    clear h
    induction targets generalizing first with
    | nil => exact ⟨"", by simp⟩
    | cons next targets ih =>
      obtain ⟨rest, hrest⟩ := ih (first ++ "&" ++ next)
      exact ⟨"&" ++ next ++ rest, by rw [List.foldl_cons, hrest]; simp [String.append_assoc]⟩

/-- The target is the number over a trunk, with others behind it perhaps. -/
theorem trunkDialTarget_eq {trunk : String} (h : input.trunkDialTarget = some trunk) :
    ∃ rest, trunk.toList =
      "PJSIP/".toList ++ ((varRef "EXTEN").toList ++ ("@trunk-".toList ++ rest)) := by
  have hendpoint : ∀ {item : AgentDialplanTrunkInput} {endpoint : String},
      toTrunkEndpoint item = some endpoint → ∃ slug, endpoint = "trunk-" ++ slug := by
    intro item endpoint hsome
    unfold toTrunkEndpoint at hsome
    split at hsome
    · exact ⟨_, (Option.some.inj hsome).symm⟩
    · cases hsome
  have htext : ∀ slug rest, (dialOver ("trunk-" ++ slug) ++ rest).toList =
      "PJSIP/".toList ++ ((varRef "EXTEN").toList ++ ("@trunk-".toList ++ (slug ++ rest).toList)) := by
    simp [dialOver]
  unfold AgentDialplanInput.trunkDialTarget getOutboundTrunkDialTarget at h
  split at h
  · obtain ⟨endpoint, hsome, rfl⟩ := Option.map_eq_some_iff.mp h
    obtain ⟨item, -, hitem⟩ := Option.bind_eq_some_iff.mp hsome
    obtain ⟨slug, rfl⟩ := hendpoint hitem
    refine ⟨(slug ++ "").toList, ?_⟩
    rw [← htext slug "", String.append_empty]
  · obtain ⟨first, hfirst, rest, rfl⟩ := joinTargets_eq h
    obtain ⟨endpoint, hsome, rfl⟩ := List.mem_map.mp hfirst
    obtain ⟨member, -, hmember⟩ := List.mem_filterMap.mp hsome
    obtain ⟨slug, rfl⟩ := hendpoint hmember
    exact ⟨_, htext slug rest⟩

/-- The context of the caller id rules is in the file, when there is a default caller id. -/
theorem exists_cidSection (hrender : renderAgentDialplan input = .ok sections)
    (hagent : agent ∈ input.agents) {name : String} (hname : input.cidContext agent = some name)
    (hcallerId : (given input.defaultOutboundCallerId).isSome = true) :
    ∃ sec ∈ sections, ∃ rules,
      renderOutboundCidRules name input.defaultOutboundCallerId rules = .ok (some sec) := by
  obtain ⟨cidRules, hcid, h⟩ := bind_eq_ok.mp hrender
  obtain ⟨phones, -, h⟩ := bind_eq_ok.mp h
  obtain ⟨routes, -, h⟩ := bind_eq_ok.mp h
  have hsome : ∀ {rules : List OutboundCallerIdRuleInput} {context : Option Section},
      renderOutboundCidRules name input.defaultOutboundCallerId rules = .ok context →
        context.isSome = true := by
    intro rules context hcontext
    unfold renderOutboundCidRules at hcontext
    simp only [Option.isNone_eq_false_iff.mpr hcallerId, Bool.and_false, Bool.false_eq_true,
      if_false] at hcontext
    obtain ⟨blocks, -, hcontext⟩ := bind_eq_ok.mp hcontext
    obtain ⟨fallback, -, hcontext⟩ := bind_eq_ok.mp hcontext
    rw [← pure_eq_ok.mp hcontext]
    rfl
  suffices hrules : ∃ sec ∈ cidRules, ∃ rules,
      renderOutboundCidRules name input.defaultOutboundCallerId rules = .ok (some sec) by
    obtain ⟨sec, hsec, hrules⟩ := hrules
    refine ⟨sec, ?_, hrules⟩
    rw [← pure_eq_ok.mp h]
    exact List.mem_append.mpr (.inr hsec)
  unfold AgentDialplanInput.cidContext at hname
  split at hname
  · rename_i husable
    rw [cidRuleContexts, if_pos husable] at hcid
    obtain ⟨contexts, hcontexts, hcid⟩ := bind_eq_ok.mp hcid
    rw [← pure_eq_ok.mp hcid]
    unfold outboundCidRules at hcontexts
    split at hcontexts
    · rename_i hscoped
      obtain ⟨context, hmem, hcontext⟩ := exists_of_mem_left (mapM_eq_ok.mp hcontexts) hagent
      rw [← hscoped, Option.some.inj hname] at hcontext
      obtain ⟨sec, rfl⟩ := Option.isSome_iff_exists.mp (hsome hcontext)
      exact ⟨sec, List.mem_filterMap.mpr ⟨_, hmem, rfl⟩, _, hcontext⟩
    · rename_i hscoped
      obtain rfl : "outbound-cid-rules" = name := by
        rw [← Option.some.inj hname, getAgentCidContextName, if_neg hscoped]
      obtain ⟨context, hcontext, hcontexts⟩ := bind_eq_ok.mp hcontexts
      obtain ⟨sec, rfl⟩ := Option.isSome_iff_exists.mp (hsome hcontext)
      refine ⟨sec, ?_, _, hcontext⟩
      rw [← pure_eq_ok.mp hcontexts]
      exact List.mem_singleton.mpr rfl
  · cases hname

/-- The caller id rules give every number of two digits or more back. -/
theorem comes_back (hrender : renderAgentDialplan input = .ok sections)
    (hextensions : (input.agents.map (·.extension)).Nodup) (hagent : agent ∈ input.agents)
    {name : String} (hname : input.cidContext agent = some name)
    (hcallerId : (given input.defaultOutboundCallerId).isSome = true) {s : State} {number : Text}
    (hnumber : ∀ c ∈ number, isDigit c = true) (hlength : 2 ≤ number.length)
    (hpos : s.pos = ⟨name.toList, number, 1⟩) {back : Pos} {returns : List Pos}
    (hreturns : s.returns = back :: returns) (hplain : PlainRecordName world s.vars) :
    ∃ t, Comes (step (sections.flatMap Section.entries) world) s (.inl t) ∧ t.pos = back ∧
      PlainRecordName world t.vars := by
  have hnames := nodup_contexts hrender hextensions
  obtain ⟨sec, hsec, rules, hrules⟩ := exists_cidSection hrender hagent hname hcallerId
  have hcontext := context_of_cidRules hrules
  obtain ⟨blocks, fallback, hblocks, hexten, hrule, -, hdefault⟩ := fallback_of_cidRules hrules
  -- the last block is for the number, so some block is
  have hmatch : matchesExten fallback.exten number = true := by
    have hopen : matchesExten "_X.".toList number = leadThen [""] 2 number.length number :=
      matches_open (k := 1) rfl hnumber
    rw [hexten, hopen]
    simpa [leadThen, List.isPrefixOf] using hlength
  have hfallback : fallback ∈ sec.blocks := by
    rw [hblocks]
    exact List.mem_append.mpr (.inr (List.mem_singleton_self fallback))
  obtain ⟨best, hbest⟩ := exists_bestExten (mem_extensOf hsec hfallback) hmatch
  obtain ⟨named, hnamed, rfl⟩ :=
    List.mem_map.mp (extensOf_sections hnames hsec (bestExten_some hbest).1)
  obtain ⟨block, hfind⟩ : ∃ block,
      sec.blocks.find? (fun block => block.exten = named.exten) = some block := by
    rw [← Option.isSome_iff_exists, List.find?_isSome]
    exact ⟨named, hnamed, decide_eq_true rfl⟩
  obtain ⟨rest, hfirst⟩ := first_of_sections hnames hsec hfind
  have hblock := List.mem_of_find?_eq_some hfind
  have hcode : ∃ exten noop num shown, block = callerIdBlock exten noop num shown := by
    rw [hblocks] at hblock
    rcases List.mem_append.mp hblock with hblock | hblock
    · exact hrule block hblock
    · obtain rfl := List.mem_singleton.mp hblock
      exact hdefault hcallerId
  obtain ⟨exten, noop, num, shown, rfl⟩ := hcode
  have hat : ∀ i c, (callerIdBlock exten noop num shown).code[i]? = some c →
      stepAt (sections.flatMap Section.entries) ⟨name.toList, number, 1 + i⟩ = some c := by
    intro i c hc
    rw [← hcontext, Nat.add_comm]
    exact stepAt_of_first hfirst hbest hc
  have hcodeAt := codeAt_of_getElem hat
  rw [callerIdBlock_code, codeAt_append] at hcodeAt
  obtain ⟨t, hcomes, htpos, htreturns, ht⟩ := comes_through
    (fun c hc => (onLine_rule noop num shown c hc).1) hplain (hpos ▸ hcodeAt.1)
  have hlast : stepAt (sections.flatMap Section.entries) t.pos = some (plainStep "Return" "") := by
    rw [htpos, hpos]
    exact hcodeAt.2.1
  have hstep : step (sections.flatMap Section.entries) world t =
      .inl { t.visit none with pos := back, returns := returns } := by
    rw [step_at hlast, show appOf (plainStep "Return" "").app = .return from rfl]
    simp only [State.apply, State.basic, State.visit, htreturns.trans hreturns]
    rfl
  exact ⟨_, hcomes.trans (.inr (.one hstep)), rfl, ht⟩

/-- A number that reaches a pattern has two digits or more. -/
theorem length_of_route {number : Text} (h : ∀ c ∈ number, isDigit c = true)
    {route : String × OutboundDialNumberCategory} (hfound : routeOf number = some route) :
    2 ≤ number.length := by
  have hlong : ∀ {leads : List String} {least most : Nat}, (∀ lead ∈ leads, 2 ≤ lead.length + least) →
      leadThen leads least most number = true → 2 ≤ number.length := by
    intro leads least most hleads hmatch
    obtain ⟨lead, hlead, -, hlength⟩ := leads_of_leadThen hmatch
    exact (hleads lead hlead).trans hlength
  have hcategory := routeOf_category h
  rw [hfound, routeCategory] at hcategory
  split at hcategory
  · rename_i hmatch
    exact hlong (by decide) hmatch
  · split at hcategory
    · rename_i hmatch
      exact hlong (by decide) hmatch
    · split at hcategory
      · rename_i hmatch
        exact hlong (by decide) hmatch
      · split at hcategory
        · rename_i hmatch
          exact hlong (by decide) hmatch
        · cases hcategory

/-- The `Dial` of a route is over a trunk. -/
theorem dialsTrunk_of_stepAt {dialplan : List Entry} {t : State} {trunk : String}
    (htrunk : input.trunkDialTarget = some trunk) (hcode : stepAt dialplan t.pos = some
      (plainStep "Dial" (trunk ++ ",60,b(func-set-sipheaders^s^1)U(agent-pre-bridge)"))) :
    DialsTrunk dialplan world t := by
  obtain ⟨rest, hrest⟩ := trunkDialTarget_eq htrunk
  refine ⟨_, by rw [dialled, hcode]; rfl, ?_⟩
  have hargs : (plainStep "Dial"
      (trunk ++ ",60,b(func-set-sipheaders^s^1)U(agent-pre-bridge)")).args =
      "PJSIP/".toList ++ ((varRef "EXTEN").toList ++ ("@trunk-".toList ++
        (rest ++ ",60,b(func-set-sipheaders^s^1)U(agent-pre-bridge)".toList))) := by
    rw [plainStep, String.toList_append, hrest]
    simp only [List.append_assoc]
  rw [hargs, expand_prefix _ (by decide), expand_varRef _ (by decide), expand_prefix _ (by decide),
    ← List.append_assoc]
  exact ⟨_, _, List.append_assoc _ _ _⟩

section Out
variable (hrender : renderAgentDialplan input = .ok sections)
  (hextensions : (input.agents.map (·.extension)).Nodup) (hagent : agent ∈ input.agents)
  (hdigits : ∀ c ∈ agent.extension.toList, isDigit c = true) {trunk callerId : String}
  (htrunk : input.trunkDialTarget = some trunk)
  (hcallerId : given input.defaultOutboundCallerId = some callerId) {number : Text}
  (hnumber : ∀ c ∈ number, isDigit c = true) {s : State}
  (hpos : s.pos = ⟨(outboundContext agent).toList, number, 1⟩)
  (hplain : PlainRecordName world s.vars)
include hrender hextensions hagent hdigits htrunk hcallerId hnumber hpos hplain

/-- A number that the permissions let through comes to a `Dial` over a trunk. -/
theorem comes_dialsTrunk (hopen : (routeOf number).any (fun route =>
      opens (normalizeOutboundDialPermissions agent.outboundDialPermissions) route.2) = true) :
    ∃ t, Comes (step (sections.flatMap Section.entries) world) s (.inl t) ∧
      DialsTrunk (sections.flatMap Section.entries) world t := by
  have hnames := nodup_contexts hrender hextensions
  obtain ⟨route, hfound, hopens⟩ := (Option.any_eq_true _ _).mp hopen
  have hordered := List.mem_of_find?_eq_some hfound
  have hlength : 2 ≤ number.length := length_of_route hnumber hfound
  obtain ⟨sec, hsec, hroute⟩ := exists_routeSection hrender hagent
  obtain ⟨noop, hblock⟩ := hroute.open_ trunk callerId htrunk hcallerId route hordered hopens
  have hfor := extenFor_route hnames hsec hroute number
  rw [hfound] at hfor
  have hhas := hasCode_of_sections hnames hsec hroute.nodup hblock
  rw [hroute.context] at hhas
  have hcode : CodeAt (sections.flatMap Section.entries) s.pos
      (buildOutboundDialRoute route.1 noop agent trunk callerId (input.cidContext agent)
        input.mode).code := by
    rw [hpos]
    refine codeAt_of_getElem ?_
    intro i c hc
    rw [Nat.add_comm]
    exact hhas.stepAt_dialled hfor hc
  cases hname : input.cidContext agent with
  | none =>
    rw [hname] at hcode
    have hsplit : (buildOutboundDialRoute route.1 noop agent trunk callerId none input.mode).code =
        (plainStep "NoOp" noop :: buildRecordFileLines input.mode ++ callerIdLines callerId none ++
          [plainStep "Set" ("CALLERID(pres)=" ++ agent.callerIdPrivacy.text)]) ++
        [plainStep "Dial" (trunk ++ ",60,b(func-set-sipheaders^s^1)U(agent-pre-bridge)"),
          plainStep "Hangup" ""] := rfl
    rw [hsplit, codeAt_append] at hcode
    have hlines : ∀ c ∈ plainStep "NoOp" noop :: buildRecordFileLines input.mode ++
        callerIdLines callerId none ++
          [plainStep "Set" ("CALLERID(pres)=" ++ agent.callerIdPrivacy.text)], OnLine c := by
      refine List.forall_mem_append.mpr ⟨List.forall_mem_append.mpr ⟨?_, onLine_callerId callerId⟩,
        by simpa using onLine_privacy agent.callerIdPrivacy⟩
      exact List.forall_mem_cons.mpr ⟨.pass rfl rfl, by simpa [buildRecordFileLines] using .record _⟩
    obtain ⟨t, hcomes, htpos, -, -⟩ := comes_through hlines hplain hcode.1
    refine ⟨t, hcomes, dialsTrunk_of_stepAt htrunk ?_⟩
    rw [htpos]
    exact hcode.2.1
  | some name =>
    rw [hname] at hcode
    obtain ⟨hdollar, hcomma⟩ := plain_cidContext hdigits hname
    have hsplit : (buildOutboundDialRoute route.1 noop agent trunk callerId (some name) input.mode).code =
        (plainStep "NoOp" noop :: buildRecordFileLines input.mode) ++
        [cidCall name, plainStep "Set" ("CALLERID(pres)=" ++ agent.callerIdPrivacy.text),
          plainStep "Dial" (trunk ++ ",60,b(func-set-sipheaders^s^1)U(agent-pre-bridge)"),
          plainStep "Hangup" ""] := rfl
    rw [hsplit, codeAt_append] at hcode
    obtain ⟨hbefore, hcall, hprivacy, hdial, -⟩ := hcode
    have hlines : ∀ c ∈ plainStep "NoOp" noop :: buildRecordFileLines input.mode, OnLine c :=
      List.forall_mem_cons.mpr ⟨.pass rfl rfl, by simpa [buildRecordFileLines] using .record _⟩
    obtain ⟨t, hcomes, htpos, -, ht⟩ := comes_through hlines hplain hbefore
    have hexten : t.pos.exten = number := by
      rw [htpos, hpos]
      rfl
    rw [← htpos] at hcall hprivacy hdial
    -- the rules are in the file, and give the number back behind the call
    have hgiven : (given input.defaultOutboundCallerId).isSome = true := by
      rw [hcallerId]
      rfl
    have hknown : ((sections.flatMap Section.entries).map Entry.context).contains name.toList = true := by
      obtain ⟨found, hsec, rules, hrules⟩ := exists_cidSection hrender hagent hname hgiven
      obtain ⟨blocks, fallback, hblocks, -⟩ := fallback_of_cidRules hrules
      have hfallback : fallback ∈ found.blocks := by
        rw [hblocks]
        exact List.mem_append.mpr (.inr (List.mem_singleton_self fallback))
      rw [List.contains_iff_mem, ← context_of_cidRules hrules]
      exact context_mem_sections hsec hfallback
    have hstep : step (sections.flatMap Section.entries) world t = .inl { t.visit none with
        pos := ⟨name.toList, number, 1⟩
        returns := t.pos.next :: t.returns } := by
      rw [step_cidCall hdollar hcomma (by rwa [hexten]) hcall, if_pos hknown, hexten]
    obtain ⟨u, hback, hupos, hu⟩ := comes_back hrender hextensions hagent hname hgiven hnumber
      hlength (s := { t.visit none with
        pos := ⟨name.toList, number, 1⟩
        returns := t.pos.next :: t.returns }) rfl rfl ht
    rw [← hupos] at hprivacy hdial
    obtain ⟨vars, -, hnext⟩ := goesOn_step (onLine_privacy agent.callerIdPrivacy) hu hprivacy
    refine ⟨_, (hcomes.trans (.inr (.one hstep))).trans (hback.trans (.inr (.one hnext))), ?_⟩
    exact dialsTrunk_of_stepAt htrunk hdial

/-- A call on the way out comes to a `Dial` over a trunk when the category of the pattern
is open, and only then. -/
theorem dialsTrunk_iff :
    (∃ t, Comes (step (sections.flatMap Section.entries) world) s (.inl t) ∧
        DialsTrunk (sections.flatMap Section.entries) world t) ↔
      (routeCategory number).any
        (opens (normalizeOutboundDialPermissions agent.outboundDialPermissions)) = true := by
  have hroute : (routeCategory number).any
      (opens (normalizeOutboundDialPermissions agent.outboundDialPermissions)) =
      (routeOf number).any (fun route =>
        opens (normalizeOutboundDialPermissions agent.outboundDialPermissions) route.2) := by
    rw [← routeOf_category hnumber, Option.any_map]
  rw [hroute]
  constructor
  · rintro ⟨t, hcomes, args, hargs, -⟩
    have hway : OnWay input agent world (· = number) s := .out (by rw [hpos]) (by rw [hpos]) hplain
    have ht : OnWay input agent world (· = number) t :=
      hcomes.invariant (onWay_step hrender hextensions hagent hdigits (by rintro _ rfl; exact hnumber))
        hway
    obtain ⟨rfl, hopen⟩ := opens_onWay hrender hextensions hagent ht hargs
    exact hopen
  · exact comes_dialsTrunk hrender hextensions hagent hdigits htrunk hcallerId hnumber hpos hplain

end Out

end Reach

/-! ## The server and the PBX -/

/-- A number with a plus in front that is not international without it. -/
def LosesPlus (value : String) : Prop :=
  ['+'].isPrefixOf (JsText.trimChars value.toList) = true ∧
    leadThen ["00"] 3 (value.toList.filter isDigit).length (value.toList.filter isDigit) = false

instance (value : String) : Decidable (LosesPlus value) := inferInstanceAs (Decidable (_ ∧ _))

theorem filter_dropWhile_space (t : Text) :
    (t.dropWhile JsText.isWhitespace).filter isDigit = t.filter isDigit := by
  induction t with
  | nil => rfl
  | cons c t ih =>
    rw [List.dropWhile_cons]
    split
    · rename_i hspace
      have hdigit : isDigit c = false := by
        by_contra hdigit
        rw [JsText.isWhitespace_of_isDigit (eq_true_of_ne_false hdigit)] at hspace
        cases hspace
      rw [ih, List.filter_cons_of_neg (by simp [hdigit])]
    · rfl

/-- Blanks around a number hide no digit. -/
theorem filter_trimChars (t : Text) : (JsText.trimChars t).filter isDigit = t.filter isDigit := by
  rw [JsText.trimChars, List.filter_reverse, filter_dropWhile_space, List.filter_reverse,
    List.reverse_reverse, filter_dropWhile_space]

/-- The number that is dialled for an accepted value has the category of the value, unless it
loses its plus. -/
theorem normalized_category {value number : String}
    {permissionsInput : Option OutboundDialPermissions}
    (h : normalizeAllowedOutboundDialNumber value permissionsInput = .ok number) :
    classifyOutboundDialNumber number = classifyOutboundDialNumber value ↔ ¬ LosesPlus value := by
  obtain ⟨category, hcategory, h⟩ := bind_eq_ok.mp h
  have hisOk : (assertOutboundDialAllowed value permissionsInput).isOk = true := by
    rw [hcategory]
    rfl
  rw [assertOutboundDialAllowed_isOk] at hisOk
  have hnumber : number = String.ofList (value.toList.filter isDigit) := (pure_eq_ok.mp h).symm
  have hdigits : ∀ c ∈ value.toList.filter isDigit, isDigit c = true :=
    fun c hc => (List.mem_filter.mp hc).2
  have hvalue : classifyOutboundDialNumber value =
      if ['+'].isPrefixOf (JsText.trimChars value.toList) then .international
      else classifyOutboundDialNumber number := by
    rw [hnumber, classify_digits hdigits]
    unfold classifyOutboundDialNumber at hisOk ⊢
    dsimp only at hisOk ⊢
    have hsame : (JsText.trimChars value.toList).filter JsText.isDigit = value.toList.filter isDigit :=
      filter_trimChars value.toList
    rw [hsame] at hisOk ⊢
    split at hisOk
    · cases hisOk
    · rename_i hsome
      rw [if_neg hsome]
      cases ['+'].isPrefixOf (JsText.trimChars value.toList) <;> simp
  have hinternational : classifyOutboundDialNumber number = .international ↔
      leadThen ["00"] 3 (value.toList.filter isDigit).length (value.toList.filter isDigit) = true := by
    rw [hnumber, classify_digits hdigits]
    constructor
    · intro hcat
      by_contra hno
      rw [if_neg hno] at hcat
      split at hcat
      · cases hcat
      · split at hcat
        · cases hcat
        · split at hcat <;> cases hcat
    · intro hlead
      rw [if_pos hlead]
  rw [hvalue, LosesPlus]
  cases ['+'].isPrefixOf (JsText.trimChars value.toList) with
  | false => simp
  | true => simp [hinternational]

/-- The PBX dials a number exactly when the server accepts it, unless the patterns let it
out; and the number that the server makes of an accepted value has the category of the
value, unless it loses its plus. -/
theorem server_and_pbx_agree_iff {input : AgentDialplanInput} {sections : List Section}
    {agent : AgentDialplanAgentInput} (hrender : renderAgentDialplan input = .ok sections)
    (hextensions : (input.agents.map (·.extension)).Nodup) (hagent : agent ∈ input.agents)
    (hdigits : ∀ c ∈ agent.extension.toList, isDigit c = true) {trunk callerId : String}
    (htrunk : input.trunkDialTarget = some trunk)
    (hcallerId : given input.defaultOutboundCallerId = some callerId) :
    (∀ (world : Nat → Text → Text) (s : State) (number : Text),
      (∀ c ∈ number, isDigit c = true) → s.pos = ⟨(outboundContext agent).toList, number, 1⟩ →
      PlainRecordName world s.vars →
      (((∃ t, Comes (step (sections.flatMap Section.entries) world) s (.inl t) ∧
            DialsTrunk (sections.flatMap Section.entries) world t) ↔
          (assertOutboundDialAllowed (String.ofList number) agent.outboundDialPermissions).isOk =
            true) ↔
        ¬ LetOut (normalizeOutboundDialPermissions agent.outboundDialPermissions) number)) ∧
    ∀ (value number : String) (permissionsInput : Option OutboundDialPermissions),
      normalizeAllowedOutboundDialNumber value permissionsInput = .ok number →
      (classifyOutboundDialNumber number = classifyOutboundDialNumber value ↔ ¬ LosesPlus value) := by
  refine ⟨?_, fun value number permissionsInput => normalized_category⟩
  intro world s number hnumber hpos hplain
  rw [dialsTrunk_iff hrender hextensions hagent hdigits htrunk hcallerId hnumber hpos hplain,
    assertOutboundDialAllowed_isOk, ← Bool.eq_iff_iff]
  exact letOut_iff hnumber _

section Office

def officeAgent : AgentDialplanAgentInput :=
  ⟨"1002", true, .prohib, true, none, [], some ⟨.allow, [], true, true, true, true⟩⟩

/-- A channel whose values are all like its ids. -/
def plainChannel : Nat → Text → Text := fun _ _ => "1700000000.12".toList

theorem plainChannel_plain : PlainRecordName plainChannel [] := by
  intro name _ n
  show ':' ∉ "1700000000.12".toList
  decide

/-- A call to the number from 1002, on its way out. -/
def outboundCall (number : String) : State :=
  ⟨⟨"outbound-main-1002".toList, number.toList, 1⟩, [], ⟨[], [], [], []⟩, [], []⟩

/-- The PBX dials 0999, which the server refuses for the same agent; and an international
number loses its plus, and its category with it. -/
theorem short_number_is_let_out :
    ∃ sections, renderAgentDialplan office = .ok sections ∧
      (∃ t, Comes (step (sections.flatMap Section.entries) plainChannel) (outboundCall "0999")
          (.inl t) ∧ DialsTrunk (sections.flatMap Section.entries) plainChannel t) ∧
      (assertOutboundDialAllowed "0999" officeAgent.outboundDialPermissions).isOk = false ∧
      normalizeAllowedOutboundDialNumber "+821012345678" officeAgent.outboundDialPermissions =
        .ok "821012345678" ∧
      classifyOutboundDialNumber "+821012345678" = .international ∧
      classifyOutboundDialNumber "821012345678" = .unsupported := by
  obtain ⟨sections, hrender⟩ := renders_office
  have hagent : officeAgent ∈ office.agents := List.mem_cons_of_mem _ List.mem_cons_self
  obtain ⟨trunk, htrunk⟩ : ∃ trunk, office.trunkDialTarget = some trunk := ⟨_, rfl⟩
  obtain ⟨callerId, hcallerId⟩ : ∃ callerId, given office.defaultOutboundCallerId = some callerId :=
    ⟨_, rfl⟩
  have hnumber : ∀ c ∈ "0999".toList, isDigit c = true := by decide
  have hstart : (outboundCall "0999").pos = ⟨(outboundContext officeAgent).toList, "0999".toList, 1⟩ :=
    rfl
  have hdial := dialsTrunk_iff hrender (by decide) hagent (by decide) htrunk hcallerId hnumber hstart
    plainChannel_plain
  exact ⟨sections, hrender, hdial.mpr (by decide), by decide, by decide, by decide, by decide⟩

theorem office_agrees_unless_let_out :
    ∃ sections, renderAgentDialplan office = .ok sections ∧
      (((∃ t, Comes (step (sections.flatMap Section.entries) plainChannel)
            (outboundCall "01012345678") (.inl t) ∧
            DialsTrunk (sections.flatMap Section.entries) plainChannel t) ↔
          (assertOutboundDialAllowed (String.ofList "01012345678".toList)
            officeAgent.outboundDialPermissions).isOk = true) ↔
        ¬ LetOut (normalizeOutboundDialPermissions officeAgent.outboundDialPermissions)
          "01012345678".toList) ∧
      (classifyOutboundDialNumber "0212345678" = classifyOutboundDialNumber "02-1234-5678" ↔
        ¬ LosesPlus "02-1234-5678") := by
  obtain ⟨sections, hrender⟩ := renders_office
  have hagent : officeAgent ∈ office.agents := List.mem_cons_of_mem _ List.mem_cons_self
  have htrunk : office.trunkDialTarget = some (dialOver "trunk-main-trunk") := by decide
  have hcallerId : given office.defaultOutboundCallerId = some "0212345678" := rfl
  obtain ⟨hpbx, hserver⟩ :=
    server_and_pbx_agree_iff hrender (by decide) hagent (by decide) htrunk hcallerId
  exact ⟨sections, hrender, hpbx plainChannel (outboundCall "01012345678") "01012345678".toList
    (by decide) rfl plainChannel_plain, hserver "02-1234-5678" "0212345678"
      officeAgent.outboundDialPermissions (by decide)⟩

end Office

end KasterCti.Renderers
