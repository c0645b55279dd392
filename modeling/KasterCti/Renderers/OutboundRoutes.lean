import KasterCti.Renderers.OutboundPatterns

/-!
# The ways out

What stands in `outbound-main-<ext>`: one block for each of the seven patterns, which dials
when the permissions open the pattern and says no otherwise. So what is dialled there is in
a category that is open (`opens_of_dialled`).
-/

namespace KasterCti.Renderers

open Dialplan Machine
open ArsFlow (plainStep varRef given)
open Common

/-! ## The section of a way out -/

section Blocks
variable {agent : AgentDialplanAgentInput} {target callerId cidContext : Option String}
  {mode : RecordingChannelMode} {sec : Section}

/-- Every pattern is closed or open. -/
theorem patterns_cover (permissionsInput : Option OutboundDialPermissions) :
    (getBlockedOutboundDialplanPatterns permissionsInput ++
        (getAllowedOutboundDialplanPatterns permissionsInput).map Prod.fst).Nodup ∧
      ∀ route ∈ orderedPatterns,
        if opens (normalizeOutboundDialPermissions permissionsInput) route.2 then
          route.1 ∈ (getAllowedOutboundDialplanPatterns permissionsInput).map Prod.fst
        else route.1 ∈ getBlockedOutboundDialplanPatterns permissionsInput := by
  unfold getBlockedOutboundDialplanPatterns getAllowedOutboundDialplanPatterns
  generalize normalizeOutboundDialPermissions permissionsInput = permissions
  have hinternational : permissions.international = opens permissions .international := rfl
  have hpaid : permissions.paid = opens permissions .paid := rfl
  have hrepresentative : permissions.representative = opens permissions .representative := rfl
  have hdomestic : permissions.domestic = opens permissions .domestic := rfl
  simp only [orderedPatterns, List.forall_mem_cons, List.not_mem_nil, false_implies, implies_true,
    and_true]
  rw [hinternational, hpaid, hrepresentative, hdomestic]
  generalize opens permissions .international = international,
    opens permissions .paid = paid, opens permissions .representative = representative,
    opens permissions .domestic = domestic
  revert international paid representative domestic
  decide

/-- The patterns of a category are among the seven. -/
theorem mem_orderedPatterns :
    (∀ pattern ∈ internationalOutboundDialplanPatterns, (pattern, .international) ∈ orderedPatterns) ∧
      (∀ pattern ∈ paidOutboundDialplanPatterns, (pattern, .paid) ∈ orderedPatterns) ∧
      (∀ pattern ∈ representativeOutboundDialplanPatterns,
        (pattern, .representative) ∈ orderedPatterns) ∧
      ∀ pattern ∈ domesticOutboundDialplanPatterns, (pattern, .domestic) ∈ orderedPatterns := by
  decide

/-- A closed pattern is one of the seven, and its category is closed. -/
theorem of_mem_blocked {permissionsInput : Option OutboundDialPermissions} {pattern : String}
    (h : pattern ∈ getBlockedOutboundDialplanPatterns permissionsInput) :
    ∃ category, (pattern, category) ∈ orderedPatterns ∧
      opens (normalizeOutboundDialPermissions permissionsInput) category = false := by
  obtain ⟨hinternational, hpaid, hrepresentative, hdomestic⟩ := mem_orderedPatterns
  unfold getBlockedOutboundDialplanPatterns at h
  generalize normalizeOutboundDialPermissions permissionsInput = permissions at h ⊢
  have hclosed : ∀ {allowed : Bool} {patterns : List String},
      pattern ∈ (if allowed then [] else patterns) → pattern ∈ patterns ∧ allowed = false := by
    rintro (_ | _) patterns hmem
    · exact ⟨hmem, rfl⟩
    · cases hmem
  simp only [List.mem_append] at h
  rcases h with ((h | h) | h) | h
  · exact ⟨.international, hinternational _ (hclosed h).1, (hclosed h).2⟩
  · exact ⟨.paid, hpaid _ (hclosed h).1, (hclosed h).2⟩
  · exact ⟨.representative, hrepresentative _ (hclosed h).1, (hclosed h).2⟩
  · exact ⟨.domestic, hdomestic _ (hclosed h).1, (hclosed h).2⟩

/-- An open one is one of the seven as well. -/
theorem of_mem_allowed {permissionsInput : Option OutboundDialPermissions} {route : String × String}
    (h : route ∈ getAllowedOutboundDialplanPatterns permissionsInput) :
    ∃ category, (route.1, category) ∈ orderedPatterns ∧
      opens (normalizeOutboundDialPermissions permissionsInput) category = true := by
  obtain ⟨hinternational, hpaid, hrepresentative, hdomestic⟩ := mem_orderedPatterns
  unfold getAllowedOutboundDialplanPatterns at h
  generalize normalizeOutboundDialPermissions permissionsInput = permissions at h ⊢
  have hopen : ∀ {allowed : Bool} {patterns : List String} {label : String},
      route ∈ (if allowed then patterns.map (·, label) else []) →
      route.1 ∈ patterns ∧ allowed = true := by
    rintro (_ | _) patterns label hmem
    · cases hmem
    · obtain ⟨pattern, hpattern, rfl⟩ := List.mem_map.mp hmem
      exact ⟨hpattern, rfl⟩
  simp only [List.mem_append] at h
  rcases h with ((h | h) | h) | h
  · exact ⟨.international, hinternational _ (hopen h).1, (hopen h).2⟩
  · exact ⟨.paid, hpaid _ (hopen h).1, (hopen h).2⟩
  · exact ⟨.representative, hrepresentative _ (hopen h).1, (hopen h).2⟩
  · exact ⟨.domestic, hdomestic _ (hopen h).1, (hopen h).2⟩

/-- A block of a way out: it says no, or it dials for a pattern that is open. -/
inductive RouteBlock (agent : AgentDialplanAgentInput) (target callerId cidContext : Option String)
    (mode : RecordingChannelMode) (block : Block) : Prop
  | refuses (pattern noop : String) : block = buildOutboundNoServiceRoute pattern noop →
      RouteBlock agent target callerId cidContext mode block
  | dials (pattern noop trunk number : String) (category : OutboundDialNumberCategory) :
      target = some trunk → given callerId = some number → (pattern, category) ∈ orderedPatterns →
      opens (normalizeOutboundDialPermissions agent.outboundDialPermissions) category = true →
      block = buildOutboundDialRoute pattern noop agent trunk number cidContext mode →
      RouteBlock agent target callerId cidContext mode block

/-- The blocks of a way out, one for each of the seven patterns. -/
structure RouteSection (agent : AgentDialplanAgentInput) (target callerId cidContext : Option String)
    (mode : RecordingChannelMode) (sec : Section) : Prop where
  context : sec.context = (outboundContext agent).toList
  block : ∀ block ∈ sec.blocks, RouteBlock agent target callerId cidContext mode block
  nodup : (sec.blocks.map Block.exten).Nodup
  exten : ∀ exten, exten ∈ sec.blocks.map Block.exten ↔
    exten ∈ orderedPatterns.map (fun route => route.1.toList)
  open_ : ∀ trunk number, target = some trunk → given callerId = some number →
    ∀ route ∈ orderedPatterns,
      opens (normalizeOutboundDialPermissions agent.outboundDialPermissions) route.2 = true →
      ∃ noop, buildOutboundDialRoute route.1 noop agent trunk number cidContext mode ∈ sec.blocks

theorem extens_of_route (permissionsInput : Option OutboundDialPermissions) (blocks : List Block)
    (h : blocks.map Block.exten = (getBlockedOutboundDialplanPatterns permissionsInput ++
      (getAllowedOutboundDialplanPatterns permissionsInput).map Prod.fst).map String.toList) :
    (blocks.map Block.exten).Nodup ∧ ∀ exten, exten ∈ blocks.map Block.exten ↔
      exten ∈ orderedPatterns.map (fun route => route.1.toList) := by
  obtain ⟨hnodup, hcover⟩ := patterns_cover permissionsInput
  rw [h]
  refine ⟨hnodup.map (fun _ _ => String.toList_injective), ?_⟩
  intro exten
  constructor
  · intro hexten
    obtain ⟨pattern, hpattern, rfl⟩ := List.mem_map.mp hexten
    rcases List.mem_append.mp hpattern with hpattern | hpattern
    · obtain ⟨category, hmem, -⟩ := of_mem_blocked hpattern
      exact List.mem_map.mpr ⟨_, hmem, rfl⟩
    · obtain ⟨route, hroute, rfl⟩ := List.mem_map.mp hpattern
      obtain ⟨category, hmem, -⟩ := of_mem_allowed hroute
      exact List.mem_map.mpr ⟨_, hmem, rfl⟩
  · intro hexten
    obtain ⟨route, hroute, rfl⟩ := List.mem_map.mp hexten
    have hmem := hcover route hroute
    refine List.mem_map_of_mem (List.mem_append.mpr ?_)
    split at hmem
    · exact .inr hmem
    · exact .inl hmem

theorem routeSection_of_render
    (h : renderAgentOutboundRoute agent target callerId cidContext mode = .ok sec) :
    RouteSection agent target callerId cidContext mode sec := by
  have hcontext := context_of_route h
  have hblocked : ∀ block ∈ buildBlockedOutboundDialLines ("outbound-main " ++ agent.extension)
      agent.outboundDialPermissions, RouteBlock agent target callerId cidContext mode block := by
    intro block hblock
    obtain ⟨pattern, -, rfl⟩ := List.mem_map.mp hblock
    exact .refuses _ _ rfl
  unfold renderAgentOutboundRoute at h
  dsimp only at h
  split at h
  · rename_i trunk number hnumber
    obtain ⟨-, -, h⟩ := bind_eq_ok.mp h
    obtain ⟨-, -, h⟩ := bind_eq_ok.mp h
    have hsec := pure_eq_ok.mp h
    obtain ⟨hnodup, hexten⟩ := extens_of_route agent.outboundDialPermissions sec.blocks
      (by simp [← hsec, buildBlockedOutboundDialLines, buildOutboundNoServiceRoute,
        buildOutboundDialRoute, Function.comp_def])
    subst hsec
    refine ⟨hcontext, ?_, hnodup, hexten, ?_⟩
    · refine List.forall_mem_append.mpr ⟨hblocked, ?_⟩
      intro block hblock
      obtain ⟨route, hroute, rfl⟩ := List.mem_map.mp hblock
      obtain ⟨category, hmem, hopen⟩ := of_mem_allowed hroute
      exact .dials _ _ _ _ category rfl hnumber hmem hopen rfl
    · intro trunk' number' htrunk' hnumber' route hroute hopen
      obtain rfl := Option.some.inj htrunk'
      obtain rfl := Option.some.inj (hnumber.symm.trans hnumber')
      have hmem := (patterns_cover agent.outboundDialPermissions).2 route hroute
      rw [if_pos hopen] at hmem
      obtain ⟨allowed, hallowed, hpattern⟩ := List.mem_map.mp hmem
      rw [← hpattern]
      exact ⟨_, List.mem_append.mpr (.inr (List.mem_map.mpr ⟨allowed, hallowed, rfl⟩))⟩
  · rename_i hnone
    have hsec := pure_eq_ok.mp h
    obtain ⟨hnodup, hexten⟩ := extens_of_route agent.outboundDialPermissions sec.blocks
      (by simp [← hsec, buildBlockedOutboundDialLines, buildOutboundNoServiceRoute, Function.comp_def])
    subst hsec
    refine ⟨hcontext, ?_, hnodup, hexten, ?_⟩
    · refine List.forall_mem_append.mpr ⟨hblocked, ?_⟩
      intro block hblock
      obtain ⟨route, -, rfl⟩ := List.mem_map.mp hblock
      exact .refuses _ _ rfl
    · intro trunk number htrunk hnumber
      exact absurd hnumber (hnone trunk number htrunk)

end Blocks

/-! ## The extension that a number reaches -/

section Reach
variable {input : AgentDialplanInput} {sections : List Section} {agent : AgentDialplanAgentInput}

/-- The way out of the agent, in the file. -/
theorem exists_routeSection (hrender : renderAgentDialplan input = .ok sections)
    (hagent : agent ∈ input.agents) :
    ∃ sec ∈ sections, RouteSection agent input.trunkDialTarget input.defaultOutboundCallerId
      (input.cidContext agent) input.mode sec := by
  obtain ⟨cidRules, -, h⟩ := bind_eq_ok.mp hrender
  obtain ⟨phones, -, h⟩ := bind_eq_ok.mp h
  obtain ⟨routes, hroutes, h⟩ := bind_eq_ok.mp h
  obtain ⟨sec, hsec, hroute⟩ := exists_of_mem_left (mapM_eq_ok.mp hroutes) hagent
  refine ⟨sec, ?_, routeSection_of_render hroute⟩
  rw [← pure_eq_ok.mp h]
  simp [hsec]

theorem extenFor_route {secs : List Section} (hcontexts : (secs.map Section.context).Nodup)
    {target callerId cidContext : Option String} {mode : RecordingChannelMode} {sec : Section}
    (hsec : sec ∈ secs) (hroute : RouteSection agent target callerId cidContext mode sec)
    (number : Text) :
    extenFor (secs.flatMap Section.entries) (outboundContext agent).toList number =
      (routeOf number).map (fun route => route.1.toList) := by
  have hknown : ∀ name ∈ extensOf (secs.flatMap Section.entries) sec.context,
      name ∈ orderedPatterns.map (fun route => route.1.toList) :=
    fun name hname => (hroute.exten name).mp (extensOf_sections hcontexts hsec hname)
  have hall : ∀ name ∈ orderedPatterns.map (fun route => route.1.toList),
      name ∈ extensOf (secs.flatMap Section.entries) sec.context := by
    intro name hname
    obtain ⟨block, hblock, rfl⟩ := List.mem_map.mp ((hroute.exten name).mpr hname)
    exact mem_extensOf hsec hblock
  have hfind := bestExten_of_order pairwise_orderedPatterns hknown hall number
  rw [extenFor, ← hroute.context, hfind, routeOf, List.find?_map, Function.comp_def]

theorem category_unique {pattern : String} {a b : OutboundDialNumberCategory}
    (ha : (pattern, a) ∈ orderedPatterns) (hb : (pattern, b) ∈ orderedPatterns) : a = b := by
  have hnodup : (orderedPatterns.map Prod.fst).Nodup := by decide
  exact congrArg Prod.snd (List.inj_on_of_nodup_map hnodup ha hb rfl)

/-- What is dialled on the way out is in a category that is open. -/
theorem opens_of_dialled {world : Nat → Text → Text}
    (hrender : renderAgentDialplan input = .ok sections)
    (hextensions : (input.agents.map (·.extension)).Nodup) (hagent : agent ∈ input.agents)
    {s : State} (hcontext : s.pos.context = (outboundContext agent).toList) {args : Text}
    (h : dialled (sections.flatMap Section.entries) world s = some args) :
    (routeOf s.pos.exten).any (fun route =>
      opens (normalizeOutboundDialPermissions agent.outboundDialPermissions) route.2) = true := by
  have hnames := nodup_contexts hrender hextensions
  unfold dialled at h
  split at h
  · rename_i code hcode
    obtain ⟨sec, hsec, hsame, block, hblock, hmem, hfor, -⟩ := stepAt_sections hcode
    have hroute := routeSection_of_render (outboundSection_of_mem hrender hextensions hagent hsec
      (hsame.trans hcontext))
    rw [hcontext, extenFor_route hnames hsec hroute, Option.map_eq_some_iff] at hfor
    obtain ⟨route, hfound, hexten⟩ := hfor
    have hordered := List.mem_of_find?_eq_some hfound
    have hdial : code.app = "Dial".toList := by
      by_contra hno
      rw [if_neg hno] at h
      cases h
    rw [hfound, Option.any_some]
    rcases hroute.block block hblock with ⟨pattern, noop, rfl⟩ |
      ⟨pattern, noop, trunk, number, category, -, -, hcategory, hopen, rfl⟩
    · simp only [buildOutboundNoServiceRoute, Block.code, List.mem_cons, List.not_mem_nil,
        or_false] at hmem
      rcases hmem with rfl | rfl | rfl
      · exact absurd hdial (show ¬ "NoOp".toList = "Dial".toList by decide)
      · exact absurd hdial (show ¬ "Playback".toList = "Dial".toList by decide)
      · exact absurd hdial (show ¬ "Hangup".toList = "Dial".toList by decide)
    · have hpattern : route.1 = pattern := String.toList_inj.mp hexten
      obtain ⟨name, found⟩ := route
      subst hpattern
      rw [category_unique hordered hcategory]
      exact hopen
  · cases h

end Reach

/-! ## The lines of the way out -/

def callerIdNames : List String := ["CALLERID(num)", "CALLERID(name)", "CALLERID(pres)"]

/-- A line that sets a part of the caller id. -/
def SetsCallerId (code : Step) : Prop :=
  ∃ name ∈ callerIdNames, ∃ value, code = plainStep "Set" (name ++ "=" ++ value)

def recordFileName (mode : RecordingChannelMode) : String :=
  varRef ("STRFTIME(" ++ varRef "EPOCH" ++ ",,%Y/%m/%d)") ++ "/" ++
    varRef "CHANNEL(linkedid)" ++ "-" ++ varRef "UNIQUEID" ++ "." ++ getRecordingFileExtension mode

def cidCall (name : String) : Step := plainStep "Gosub" (name ++ "," ++ varRef "EXTEN" ++ ",1")

/-- A line from which the call goes on to the next one. -/
inductive OnLine : Step → Prop
  | pass {code : Step} : code.label = none → appOf code.app = .pass → OnLine code
  | record (mode : RecordingChannelMode) : OnLine (setIfEmpty "REC_FILE" (recordFileName mode))
  | callerId {code : Step} : SetsCallerId code → OnLine code

/-- A line that a call on the way out runs. -/
inductive WayLine (cidContext : Option String) : Step → Prop
  | on {code : Step} : OnLine code → WayLine cidContext code
  | hangup {code : Step} : appOf code.app = .hangup → WayLine cidContext code
  | rules {name : String} : cidContext = some name → WayLine cidContext (cidCall name)

theorem wayLine_refuses {cidContext : Option String} {pattern noop : String} :
    ∀ code ∈ (buildOutboundNoServiceRoute pattern noop).code, WayLine cidContext code := by
  intro code hcode
  simp only [buildOutboundNoServiceRoute, Block.code, List.mem_cons, List.not_mem_nil, or_false]
    at hcode
  rcases hcode with rfl | rfl | rfl
  · exact .on (.pass rfl rfl)
  · exact .on (.pass rfl rfl)
  · exact .hangup rfl

theorem onLine_callerId (callerId : String) : ∀ code ∈ callerIdLines callerId none, OnLine code := by
  intro code hcode
  simp only [callerIdLines, List.mem_cons, List.not_mem_nil, or_false] at hcode
  rcases hcode with rfl | rfl
  · exact .callerId ⟨"CALLERID(num)", by simp [callerIdNames], callerId, rfl⟩
  · exact .callerId ⟨"CALLERID(name)", by simp [callerIdNames], callerId, rfl⟩

theorem onLine_privacy (privacy : CallerIdPrivacy) :
    OnLine (plainStep "Set" ("CALLERID(pres)=" ++ privacy.text)) :=
  .callerId ⟨"CALLERID(pres)", by simp [callerIdNames], privacy.text, rfl⟩

theorem wayLine_dials {cidContext : Option String} {mode : RecordingChannelMode}
    {pattern noop trunk number : String} {agent : AgentDialplanAgentInput} :
    ∀ code ∈ (buildOutboundDialRoute pattern noop agent trunk number cidContext mode).code,
      WayLine cidContext code := by
  intro code hcode
  simp only [buildOutboundDialRoute, Block.code, List.mem_cons, List.mem_append,
    buildRecordFileLines, List.not_mem_nil, or_false] at hcode
  rcases hcode with rfl | (rfl | hcode) | rfl | rfl | rfl
  · exact .on (.pass rfl rfl)
  · exact .on (.record mode)
  · cases cidContext with
    | none => exact .on (onLine_callerId number code hcode)
    | some name =>
      obtain rfl := List.mem_singleton.mp hcode
      exact .rules rfl
  · exact .on (onLine_privacy agent.callerIdPrivacy)
  · exact .on (.pass rfl rfl)
  · exact .hangup rfl

/-- A line of the caller id rules, none of which dials. -/
inductive RuleLine : Step → Prop
  | on {code : Step} : OnLine code → code.app ≠ "Dial".toList → RuleLine code
  | back : RuleLine (plainStep "Return" "")

/-- The lines of a rule before the last one. -/
theorem onLine_rule (noop num name : String) :
    ∀ code ∈ [plainStep "NoOp" noop, plainStep "Set" ("CALLERID(num)=" ++ num),
      plainStep "Set" ("CALLERID(name)=" ++ name)], OnLine code ∧ code.app ≠ "Dial".toList := by
  intro code hcode
  simp only [List.mem_cons, List.not_mem_nil, or_false] at hcode
  rcases hcode with rfl | rfl | rfl
  · exact ⟨.pass rfl rfl, show "NoOp".toList ≠ "Dial".toList by decide⟩
  · exact ⟨.callerId ⟨"CALLERID(num)", by simp [callerIdNames], num, rfl⟩,
      show "Set".toList ≠ "Dial".toList by decide⟩
  · exact ⟨.callerId ⟨"CALLERID(name)", by simp [callerIdNames], name, rfl⟩,
      show "Set".toList ≠ "Dial".toList by decide⟩

theorem callerIdBlock_code (exten noop num name : String) :
    (callerIdBlock exten noop num name).code = [plainStep "NoOp" noop,
      plainStep "Set" ("CALLERID(num)=" ++ num), plainStep "Set" ("CALLERID(name)=" ++ name)] ++
      [plainStep "Return" ""] :=
  rfl

theorem ruleLine_block (exten noop num name : String) :
    ∀ code ∈ (callerIdBlock exten noop num name).code, RuleLine code := by
  rw [callerIdBlock_code]
  refine List.forall_mem_append.mpr ⟨?_, by simpa using RuleLine.back⟩
  intro code hcode
  obtain ⟨hon, hdial⟩ := onLine_rule noop num name code hcode
  exact .on hon hdial

/-- Every rule is a block of four lines. -/
theorem blocks_of_cidRules {seenPatterns : List String} {rules : List OutboundCallerIdRuleInput}
    {blocks : List Block} (h : cidRuleBlocks seenPatterns rules = .ok blocks) :
    ∀ block ∈ blocks, ∃ exten noop num name, block = callerIdBlock exten noop num name := by
  induction rules generalizing seenPatterns blocks with
  | nil =>
    rw [← pure_eq_ok.mp h]
    simp
  | cons rule rules ih =>
    unfold cidRuleBlocks at h
    split at h
    · exact ih h
    · split at h
      · exact ih h
      · obtain ⟨-, -, h⟩ := bind_eq_ok.mp h
        obtain ⟨-, -, h⟩ := bind_eq_ok.mp h
        obtain ⟨rest, hrest, h⟩ := bind_eq_ok.mp h
        rw [← pure_eq_ok.mp h]
        exact List.forall_mem_cons.mpr ⟨⟨_, _, _, _, rfl⟩, ih hrest⟩

/-- The last block is for every number; with a default caller id it has four lines too. -/
theorem fallback_of_cidRules {name : String} {callerId : Option String}
    {rules : List OutboundCallerIdRuleInput} {sec : Section}
    (h : renderOutboundCidRules name callerId rules = .ok (some sec)) :
    ∃ blocks fallback, sec.blocks = blocks ++ [fallback] ∧ fallback.exten = "_X.".toList ∧
      (∀ block ∈ blocks, ∃ exten noop num name, block = callerIdBlock exten noop num name) ∧
      (∀ code ∈ fallback.code, RuleLine code) ∧
      ((given callerId).isSome = true →
        ∃ exten noop num name, fallback = callerIdBlock exten noop num name) := by
  unfold renderOutboundCidRules at h
  dsimp only at h
  split at h
  · cases pure_eq_ok.mp h
  · obtain ⟨blocks, hblocks, h⟩ := bind_eq_ok.mp h
    obtain ⟨fallback, hfallback, h⟩ := bind_eq_ok.mp h
    rw [← Option.some.inj (pure_eq_ok.mp h)]
    unfold cidFallback at hfallback
    split at hfallback
    · obtain ⟨-, -, hfallback⟩ := bind_eq_ok.mp hfallback
      rw [← pure_eq_ok.mp hfallback]
      exact ⟨blocks, _, rfl, rfl, blocks_of_cidRules hblocks, ruleLine_block _ _ _ _,
        fun _ => ⟨_, _, _, _, rfl⟩⟩
    · rename_i hnone
      rw [← pure_eq_ok.mp hfallback]
      refine ⟨blocks, _, rfl, rfl, blocks_of_cidRules hblocks, ?_, ?_⟩
      · intro code hcode
        simp only [Block.code, List.mem_cons, List.not_mem_nil, or_false] at hcode
        rcases hcode with rfl | rfl
        · exact .on (.pass rfl rfl) (show "NoOp".toList ≠ "Dial".toList by decide)
        · exact .back
      · rw [hnone]
        intro hsome
        cases hsome

theorem ruleLine_of_mem {input : AgentDialplanInput} {sec : Section} (h : CidSection input sec) :
    ∀ block ∈ sec.blocks, ∀ code ∈ block.code, RuleLine code := by
  obtain ⟨-, name, rules, hrender⟩ := h
  obtain ⟨blocks, fallback, hsec, -, hblocks, hfallback, -⟩ := fallback_of_cidRules hrender
  rw [hsec]
  refine List.forall_mem_append.mpr ⟨?_, by simpa using hfallback⟩
  intro block hblock code hcode
  obtain ⟨exten, noop, num, name, rfl⟩ := hblocks block hblock
  exact ruleLine_block _ _ _ _ code hcode

end KasterCti.Renderers
