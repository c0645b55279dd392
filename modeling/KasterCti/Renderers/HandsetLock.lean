import KasterCti.Library.DialplanCode
import KasterCti.Renderers.AgentDialplan
import KasterCti.Renderers.Conditions

/-!
# Locked telephones

From the context of a telephone that is locked, or that may not dial out, a call cannot
leave (`locked_phone_stays_inside`): no line of the context jumps elsewhere, and the only
`Dial` in it is that of an internal extension, which a telephone locked in full does not
have either.
-/

namespace KasterCti.Renderers

open Dialplan Machine
open ArsFlow (plainStep varRef)
open Common

/-! ## Dialling -/

section Dials
variable (dialplan : List Entry) (world : Nat → Text → Text)

/-- What the `Dial` line at hand dials. -/
def dialled (s : State) : Option Text :=
  match stepAt dialplan s.pos with
  | some code =>
    if code.app = "Dial".toList then some (expand ((s.visit code.label).lookup world) code.args)
    else none
  | none => none

/-- The call is at a `Dial` over a trunk, `PJSIP/number@trunk-…`. -/
def DialsTrunk (s : State) : Prop :=
  ∃ args, dialled dialplan world s = some args ∧ "@trunk-".toList <:+: args

end Dials

/-! ## Internal patterns -/

theorem parsePattern_set (acc : List Char) {ds : List Char} (h : ']' ∉ ds) (t : Text) :
    parsePattern (some acc) (ds ++ ']' :: t) =
      .one (charRange (acc.reverse ++ ds)) :: parsePattern none t := by
  induction ds generalizing acc with
  | nil => simp [parsePattern]
  | cons d ds ih =>
    have hd : d ≠ ']' := fun hd => h (by simp [hd])
    have hds : ']' ∉ ds := fun hds => h (List.mem_cons_of_mem _ hds)
    rw [List.cons_append, parsePattern, if_neg hd, ih (d :: acc) hds]
    simp

theorem charRange_of_notMem {ds : List Char} (h : '-' ∉ ds) : charRange ds = ds := by
  induction ds with
  | nil => rfl
  | cons d ds ih =>
    have hds : '-' ∉ ds := fun hds => h (List.mem_cons_of_mem _ hds)
    have hno : ∀ b t, ds = '-' :: b :: t → False := by
      rintro b t rfl
      exact hds List.mem_cons_self
    rw [charRange.eq_2 _ _ hno, ih hds]

theorem parsePattern_digit {d : Char} (h : isDigit d = true) (t : Text) :
    parsePattern none (d :: t) = .one [d] :: parsePattern none t := by
  have hne : ∀ c, isDigit c = false → d ≠ c := fun c hc => ne_of_isDigit h hc
  rw [parsePattern]
  simp only [hne '[' rfl, hne 'X' rfl, hne 'x' rfl, hne 'Z' rfl, hne 'z' rfl, hne 'N' rfl,
    hne 'n' rfl, hne '.' rfl, hne '!' rfl, hne '-' rfl, decide_false, Bool.or_false,
    Bool.false_eq_true, if_false]

theorem parsePattern_row (n : Nat) :
    parsePattern none (List.replicate n 'X') = List.replicate n (.one (digitsFrom 0)) := by
  induction n with
  | zero => rfl
  | succ n ih =>
    rw [List.replicate_succ, List.replicate_succ, ← ih]
    rfl

/-- What matches a row of `X` is digits. -/
theorem all_isDigit_of_row {n : Nat} {t : Text}
    (h : matchElems (List.replicate n (.one (digitsFrom 0))) t = true) :
    ∀ c ∈ t, isDigit c = true := by
  induction n generalizing t with
  | zero =>
    cases t with
    | nil => simp
    | cons c t => cases h
  | succ n ih =>
    cases t with
    | nil => cases h
    | cons c t =>
      simp only [List.replicate_succ, matchElems, Bool.and_eq_true, decide_eq_true_eq] at h
      exact List.forall_mem_cons.mpr ⟨isDigit_of_mem_digitsFrom h.1, ih h.2⟩

/-- One set of digits, and a row of `X` behind it. -/
theorem patternOf_internalPattern (length : Nat) {digits : List Char}
    (hdigits : ∀ d ∈ digits, isDigit d = true) :
    patternOf (internalPattern length digits).toList =
      some (.one (digits.insertionSort (· ≤ ·)) ::
        List.replicate (length - 1) (.one (digitsFrom 0))) := by
  have hsorted : ∀ d ∈ digits.insertionSort (· ≤ ·), isDigit d = true := by
    intro d hd
    exact hdigits d ((List.mem_insertionSort _).mp hd)
  rw [internalPattern, String.toList_ofList, List.cons_append, patternOf, ← parsePattern_row]
  by_cases hone : (digits.insertionSort (· ≤ ·)).length = 1
  · obtain ⟨d, hd⟩ := List.length_eq_one_iff.mp hone
    rw [if_pos hone, hd, List.singleton_append,
      parsePattern_digit (hsorted d (by rw [hd]; exact List.mem_singleton_self d))]
  · have hclose : ']' ∉ digits.insertionSort (· ≤ ·) := notMem_of_digits hsorted rfl
    have hdash : '-' ∉ digits.insertionSort (· ≤ ·) := notMem_of_digits hsorted rfl
    rw [if_neg hone, List.cons_append, List.cons_append, List.append_assoc,
      List.singleton_append, parsePattern, if_pos rfl, parsePattern_set [] hclose,
      List.reverse_nil, List.nil_append, charRange_of_notMem hdash]

/-- What matches an internal pattern is a number. -/
theorem all_isDigit_of_internalPattern {length : Nat} {digits : List Char}
    (hdigits : ∀ d ∈ digits, isDigit d = true) {number : Text}
    (h : matchesExten (internalPattern length digits).toList number = true) :
    ∀ c ∈ number, isDigit c = true := by
  rw [matchesExten, patternOf_internalPattern length hdigits] at h
  cases number with
  | nil => cases h
  | cons c number =>
    simp only [matchElems, Bool.and_eq_true, decide_eq_true_eq] at h
    exact List.forall_mem_cons.mpr
      ⟨hdigits c ((List.mem_insertionSort _).mp h.1), all_isDigit_of_row h.2⟩

/-- The first digits are digits. -/
theorem digits_of_group {extensions : List String} :
    ∀ group ∈ groupFirstDigitsByLength extensions, ∀ d ∈ group.2, isDigit d = true := by
  unfold groupFirstDigitsByLength
  suffices h : ∀ groups : List (Nat × List Char),
      (∀ group ∈ groups, ∀ d ∈ group.2, isDigit d = true) →
      ∀ group ∈ extensions.foldl (fun byLength raw =>
        let extension := JsText.trimChars raw.toList
        if isExtensionNumber extension then
          let digits := (JsMap.get byLength extension.length).getD []
          let first := extension.headD '0'
          JsMap.set byLength extension.length
            (if first ∈ digits then digits else digits ++ [first])
        else byLength) groups, ∀ d ∈ group.2, isDigit d = true by
    exact h [] (by simp)
  induction extensions with
  | nil => exact fun groups h => h
  | cons raw extensions ih =>
    intro groups hgroups
    refine ih _ ?_
    by_cases hnumber : isExtensionNumber (JsText.trimChars raw.toList) = true
    · simp only [hnumber, if_true]
      intro group hgroup
      have hold : ∀ d ∈ (JsMap.get groups (JsText.trimChars raw.toList).length).getD [],
          isDigit d = true := by
        cases hget : JsMap.get groups (JsText.trimChars raw.toList).length with
        | none => simp
        | some digits => exact hgroups _ (JsMap.mem_of_get hget)
      have hfirst : isDigit ((JsText.trimChars raw.toList).headD '0') = true := by
        cases htext : JsText.trimChars raw.toList with
        | nil => rfl
        | cons c rest =>
          rw [htext, isExtensionNumber, Bool.and_eq_true, Bool.and_eq_true] at hnumber
          exact hnumber.1.1
      rcases JsMap.mem_set hgroup with rfl | hgroup
      · dsimp only
        split
        · exact hold
        · exact List.forall_mem_append.mpr ⟨hold, by simpa using hfirst⟩
      · exact hgroups group hgroup
    · simp only [hnumber, Bool.false_eq_true, if_false]
      exact hgroups

theorem all_isDigit_of_internal {extensions : List String} {pattern : String} {number : Text}
    (hpattern : pattern ∈ buildInternalExtensionPatterns extensions)
    (h : matchesExten pattern.toList number = true) : ∀ c ∈ number, isDigit c = true := by
  obtain ⟨group, hgroup, rfl⟩ := List.mem_map.mp hpattern
  exact all_isDigit_of_internalPattern
    (digits_of_group group ((List.mem_insertionSort _).mp hgroup)) h

/-! ## The lines of a locked telephone -/

/-- The telephone may not dial out. -/
def Locked (input : AgentDialplanInput) (agent : AgentDialplanAgentInput) : Prop :=
  agent.extensionLockMode = some .fullLocked ∨ agent.extensionLockMode = some .outboundLocked ∨
    agent.outboundEnabled = false ∨ directDialAllowed agent input.allowDirectSipDial = false

/-- A line that neither dials nor jumps. -/
def IsStill (code : Step) : Prop :=
  code.label = none ∧ code.app ≠ "Dial".toList ∧
    (appOf code.app = .pass ∨ appOf code.app = .hangup)

/-- What stands in the context of a locked telephone. -/
inductive LockedLine (input : AgentDialplanInput) (agent : AgentDialplanAgentInput)
    (exten : Text) : Step → Prop
  | still {code : Step} : IsStill code → LockedLine input agent exten code
  | guard : agent.extensionLockMode ≠ some .fullLocked →
      LockedLine input agent exten (registeredEndpointGuard agent)
  | internal {pattern : String} : agent.extensionLockMode ≠ some .fullLocked →
      pattern ∈ buildInternalExtensionPatterns input.internalExtensions → exten = pattern.toList →
      LockedLine input agent exten (dialEndpoint (varRef "EXTEN"))

section Lines
variable {input : AgentDialplanInput} {agent : AgentDialplanAgentInput}

theorem isStill_of {app args : String} (hdial : app.toList ≠ "Dial".toList)
    (happ : appOf app.toList = .pass ∨ appOf app.toList = .hangup) :
    IsStill (plainStep app args) :=
  ⟨rfl, hdial, happ⟩

theorem still_noServiceRoute {exten : Text} (pattern noop : String) :
    ∀ code ∈ (buildOutboundNoServiceRoute pattern noop).code, LockedLine input agent exten code := by
  intro code hcode
  simp only [buildOutboundNoServiceRoute, Block.code, List.mem_cons, List.not_mem_nil, or_false]
    at hcode
  rcases hcode with rfl | rfl | rfl
  · exact .still (isStill_of (by decide) (.inl rfl))
  · exact .still (isStill_of (by decide) (.inl rfl))
  · exact .still (isStill_of (by decide) (.inr rfl))

theorem lockedLine_outbound {allowed : Bool}
    (hclosed : (!allowed || !agent.outboundEnabled ||
      agent.extensionLockMode = some .outboundLocked) = true) :
    ∀ block ∈ outboundEntryBlocks agent allowed, ∀ code ∈ block.code,
      LockedLine input agent block.exten code := by
  intro block hblock code hcode
  simp only [outboundEntryBlocks, hclosed, if_true] at hblock
  have hnoop : ∀ noop, block = ⟨"_X.".toList, plainStep "NoOp" noop, []⟩ →
      LockedLine input agent block.exten code := by
    rintro noop rfl
    obtain rfl := List.mem_singleton.mp hcode
    exact .still (isStill_of (by decide) (.inl rfl))
  rcases List.mem_append.mp hblock with hblock | hblock
  · split at hblock
    · exact hnoop _ (List.mem_singleton.mp hblock)
    · split at hblock
      · exact hnoop _ (List.mem_singleton.mp hblock)
      · cases hblock
  · obtain ⟨route, -, rfl⟩ := List.mem_map.mp hblock
    exact still_noServiceRoute _ _ code hcode

theorem lockedLine_features {features : List Block}
    (h : renderAgentFeatureCodeLines agent input.featureCodes = .ok features) :
    ∀ block ∈ features, ∀ code ∈ block.code, LockedLine input agent block.exten code := by
  obtain ⟨blocks, hblocks, h⟩ := bind_eq_ok.mp h
  rw [← pure_eq_ok.mp h]
  intro block hblock code hcode
  obtain ⟨some?, hmem, hsome⟩ := List.mem_filterMap.mp hblock
  obtain ⟨item, -, hitem⟩ := exists_of_mem_right (mapM_eq_ok.mp hblocks) hmem
  obtain rfl : some? = some block := hsome
  have hpickup : ∃ exten noop, block = ⟨exten, plainStep "NoOp" noop,
      [plainStep "Pickup" "", plainStep "Hangup" ""]⟩ := by
    split at hitem
    · cases pure_eq_ok.mp hitem
    · split at hitem
      · obtain ⟨-, -, hitem⟩ := bind_eq_ok.mp hitem
        split at hitem
        · exact ⟨_, _, (Option.some.inj (pure_eq_ok.mp hitem)).symm⟩
        · cases pure_eq_ok.mp hitem
      · cases pure_eq_ok.mp hitem
  obtain ⟨exten, noop, rfl⟩ := hpickup
  simp only [Block.code, List.mem_cons, List.not_mem_nil, or_false] at hcode
  rcases hcode with rfl | rfl | rfl
  · exact .still (isStill_of (by decide) (.inl rfl))
  · exact .still (isStill_of (by decide) (.inl rfl))
  · exact .still (isStill_of (by decide) (.inr rfl))

/-- Every line of the context of a locked telephone. -/
theorem lockedLine_of_render {sec : Section} (hlocked : Locked input agent)
    (h : renderAgentEntryContext agent input.allowDirectSipDial input.internalExtensions
      input.speedDials input.featureCodes = .ok sec) :
    ∀ block ∈ sec.blocks, ∀ code ∈ block.code, LockedLine input agent block.exten code := by
  unfold renderAgentEntryContext at h
  by_cases hfull : agent.extensionLockMode = some .fullLocked
  · rw [if_pos hfull] at h
    rw [← pure_eq_ok.mp h]
    intro block hblock code hcode
    obtain rfl := List.mem_singleton.mp hblock
    exact still_noServiceRoute _ _ code hcode
  · rw [if_neg hfull] at h
    obtain ⟨speed, hspeed, h⟩ := bind_eq_ok.mp h
    obtain ⟨features, hfeatures, h⟩ := bind_eq_ok.mp h
    have hclosed : (!directDialAllowed agent input.allowDirectSipDial || !agent.outboundEnabled ||
        agent.extensionLockMode = some .outboundLocked) = true := by
      rcases hlocked with hlock | hlock | hlock | hlock
      · exact absurd hlock hfull
      · simp [hlock]
      · simp [hlock]
      · simp [hlock]
    have hnone : speed = [] := by
      rw [renderAgentSpeedDialLines, hclosed, Bool.true_or, if_pos rfl] at hspeed
      exact (pure_eq_ok.mp hspeed).symm
    rw [← pure_eq_ok.mp h, hnone]
    intro block hblock code hcode
    simp only [List.append_nil, List.mem_append, List.mem_singleton] at hblock
    rcases hblock with (((hblock | hblock) | hblock) | hblock) | rfl
    · obtain ⟨pattern, -, rfl⟩ := List.mem_map.mp hblock
      exact still_noServiceRoute _ _ code hcode
    · exact lockedLine_outbound hclosed block hblock code hcode
    · exact lockedLine_features hfeatures block hblock code hcode
    · obtain ⟨pattern, hpattern, rfl⟩ := List.mem_map.mp hblock
      simp only [internalBlock, Block.code, List.mem_cons, List.not_mem_nil, or_false] at hcode
      rcases hcode with rfl | rfl | rfl | rfl
      · exact .still (isStill_of (by decide) (.inl rfl))
      · exact .guard hfull
      · exact .internal hfull hpattern rfl
      · exact .still (isStill_of (by decide) (.inr rfl))
    · exact still_noServiceRoute _ _ code hcode

end Lines

/-! ## Runs -/

def contactsName (agent : AgentDialplanAgentInput) : Text :=
  ("PJSIP_DIAL_CONTACTS(" ++ agent.extension ++ ")").toList

/-- The registered contacts of the telephone are addresses: they have no quote. -/
def PlainContacts (world : Nat → Text → Text) (agent : AgentDialplanAgentInput)
    (vars : List (Text × Text)) : Prop :=
  ∀ n, '"' ∉ (vars.lookup (contactsName agent)).getD (world n (contactsName agent))

section Guard
variable {dialplan : List Entry} {world : Nat → Text → Text} {agent : AgentDialplanAgentInput}
  {s : State}

theorem valueOf_contacts (lookup : Text → Text) (agent : AgentDialplanAgentInput) :
    valueOf lookup (contactsName agent) = lookup (contactsName agent) := by
  have hname : contactsName agent = "PJSIP_DIAL_CONTACTS".toList ++
      '(' :: (agent.extension.toList ++ [')']) := by
    simp [contactsName]
  rw [hname]
  exact valueOf_call lookup (by decide) (by decide) (by decide)

/-- What the channel shows of the contacts when it runs the line at hand. -/
def contactsAt (world : Nat → Text → Text) (agent : AgentDialplanAgentInput) (s : State) : Text :=
  (s.vars.lookup (contactsName agent)).getD (world (s.trace.length + 1) (contactsName agent))

theorem lookup_contacts (world : Nat → Text → Text) (s : State) :
    (s.visit none).lookup world (contactsName agent) = contactsAt world agent s := by
  have hne : contactsName agent ≠ "EXTEN".toList := by
    simp [contactsName]
  rw [State.lookup, if_neg hne]
  rfl

theorem goto_unregistered (t : State) :
    t.goto dialplan "unregistered-agent,1".toList =
      .inl { t with pos := ⟨t.pos.context, "unregistered-agent".toList, 1⟩ } := by
  have htext : "unregistered-agent,1".toList = "unregistered-agent".toList ++ ',' :: ['1'] := by
    decide
  rw [State.goto, htext, resolve_exten (by decide) (by decide), jumpTo_one]

theorem registeredEndpointGuard_eq (agent : AgentDialplanAgentInput) :
    registeredEndpointGuard agent = ⟨none, "GotoIf".toList,
      (isValue ("PJSIP_DIAL_CONTACTS(" ++ agent.extension ++ ")") "").toList ++
        '?' :: "unregistered-agent,1".toList⟩ := by
  simp [registeredEndpointGuard, plainStep]

theorem contactsName_plain (hdigits : ∀ c ∈ agent.extension.toList, isDigit c = true) :
    ("PJSIP_DIAL_CONTACTS(" ++ agent.extension ++ ")").toList.all isPlainChar = true := by
  have hall : agent.extension.toList.all isPlainChar = true := by
    rw [List.all_eq_true]
    intro c hc
    have hdigit := hdigits c hc
    simp [isPlainChar, ne_of_isDigit hdigit (show isDigit '$' = false from rfl),
      ne_of_isDigit hdigit (show isDigit '\x7d' = false from rfl),
      ne_of_isDigit hdigit (show isDigit ']' = false from rfl)]
  rw [String.toList_append, String.toList_append, List.all_append, List.all_append, hall]
  decide

/-- Without a contact the guard jumps within its context, else it does nothing. -/
theorem step_guard (hdigits : ∀ c ∈ agent.extension.toList, isDigit c = true)
    (hcontacts : PlainContacts world agent s.vars)
    (hcode : stepAt dialplan s.pos = some (registeredEndpointGuard agent)) :
    step dialplan world s =
      if contactsAt world agent s = [] then
        .inl { s.visit none with pos := ⟨s.pos.context, "unregistered-agent".toList, 1⟩ }
      else .inl (s.visit none).advance := by
  have hshown : valueOf ((s.visit none).lookup world)
      ("PJSIP_DIAL_CONTACTS(" ++ agent.extension ++ ")").toList = contactsAt world agent s :=
    (valueOf_contacts _ agent).trans (lookup_contacts world s)
  have hplain : expand ((s.visit none).lookup world) "unregistered-agent,1".toList =
      "unregistered-agent,1".toList := expand_plain _ (by decide)
  have hquote : '"' ∉ contactsAt world agent s := hcontacts (s.trace.length + 1)
  rw [registeredEndpointGuard_eq] at hcode
  rw [step_gotoIf_isValue hcode (contactsName_plain hdigits) (by decide) (by decide)
    (by rw [hshown]; exact hquote) (by rw [hplain]; decide) (by rw [hplain]; decide), hshown,
    hplain, goto_unregistered]
  rfl

end Guard

section Inside
variable {input : AgentDialplanInput} {sections : List Section} {agent : AgentDialplanAgentInput}
  {world : Nat → Text → Text}

/-- Still within the context, with the variables as they were. -/
structure Inside (agent : AgentDialplanAgentInput) (vars : List (Text × Text)) (s : State) :
    Prop where
  context : s.pos.context = (phoneContext agent).toList
  vars : s.vars = vars

section Locked
variable (hrender : renderAgentDialplan input = .ok sections)
  (hextensions : (input.agents.map (·.extension)).Nodup) (hagent : agent ∈ input.agents)
  (hlocked : Locked input agent)
include hrender hextensions hagent hlocked

/-- The line at hand is one of a locked telephone. -/
theorem lockedLine_of_stepAt {s : State} (hcontext : s.pos.context = (phoneContext agent).toList)
    {code : Step} (hcode : stepAt (sections.flatMap Section.entries) s.pos = some code) :
    ∃ exten, matchesExten exten s.pos.exten = true ∧ LockedLine input agent exten code := by
  obtain ⟨sec, hsec, hsame, block, hblock, hmem, -, hmatch⟩ := stepAt_sections hcode
  have hphone := phoneSection_of_mem hrender hextensions hagent hsec (hsame.trans hcontext)
  exact ⟨block.exten, hmatch, lockedLine_of_render hlocked hphone block hblock code hmem⟩

/-- One step stays inside, or hangs up. -/
theorem inside_step (hdigits : ∀ c ∈ agent.extension.toList, isDigit c = true)
    {vars : List (Text × Text)} (hcontacts : PlainContacts world agent vars) (s : State)
    (hinside : Inside agent vars s) :
    Sum.elim (Inside agent vars) (fun r => r.outcome = .hungUp)
      (step (sections.flatMap Section.entries) world s) := by
  cases hcode : stepAt (sections.flatMap Section.entries) s.pos with
  | none =>
    rw [step, hcode]
    exact rfl
  | some code =>
    obtain ⟨exten, -, hline⟩ :=
      lockedLine_of_stepAt hrender hextensions hagent hlocked hinside.context hcode
    have hadvance : ∀ label, Inside agent vars (s.visit label).advance :=
      fun _ => ⟨hinside.context, hinside.vars⟩
    cases hline with
    | still hstill =>
      rcases hstill.2.2 with happ | happ
      · rw [step_pass hcode happ]
        exact hadvance _
      · rw [step_hangup hcode happ]
        exact rfl
    | guard =>
      rw [step_guard hdigits (hinside.vars ▸ hcontacts) hcode]
      split
      · exact ⟨hinside.context, hinside.vars⟩
      · exact hadvance _
    | internal =>
      rw [step_pass hcode rfl]
      exact hadvance _

end Locked

theorem app_of_dialled {dialplan : List Entry} {s : State} {code : Step} {args : Text}
    (hcode : stepAt dialplan s.pos = some code) (h : dialled dialplan world s = some args) :
    code.app = "Dial".toList := by
  by_contra happ
  rw [dialled, hcode] at h
  dsimp only at h
  rw [if_neg happ] at h
  cases h

/-- What the `Dial` of an endpoint dials. -/
theorem dialled_endpoint {dialplan : List Entry} {s : State} {number : String} {shown : Text}
    (hexpand : expand ((s.visit none).lookup world)
      (number.toList ++ ",20,tTU(agent-pre-bridge)".toList) =
      shown ++ ",20,tTU(agent-pre-bridge)".toList)
    (hcode : stepAt dialplan s.pos = some (dialEndpoint number)) :
    dialled dialplan world s =
      some ("PJSIP/".toList ++ shown ++ ",20,tTU(agent-pre-bridge)".toList) := by
  have hargs : (dialEndpoint number).args =
      "PJSIP/".toList ++ (number.toList ++ ",20,tTU(agent-pre-bridge)".toList) := by
    simp [dialEndpoint, plainStep]
  rw [dialled, hcode]
  dsimp only
  rw [if_pos (show (dialEndpoint number).app = "Dial".toList from rfl), hargs,
    show (dialEndpoint number).label = none from rfl, expand_prefix _ (by decide), hexpand,
    List.append_assoc]

/-- The internal `Dial` dials the endpoint of the number that was dialled. -/
theorem dialled_self {dialplan : List Entry} {s : State}
    (hcode : stepAt dialplan s.pos = some (dialEndpoint (varRef "EXTEN"))) :
    dialled dialplan world s =
      some ("PJSIP/".toList ++ s.pos.exten ++ ",20,tTU(agent-pre-bridge)".toList) := by
  refine dialled_endpoint ?_ hcode
  rw [expand_varRef _ (by decide), expand_plain _ (by decide), valueOf_plain _ (by decide)]
  simp [State.lookup, State.visit]

/-- What is dialled inside is the number of an internal extension. -/
theorem dialled_inside (hrender : renderAgentDialplan input = .ok sections)
    (hextensions : (input.agents.map (·.extension)).Nodup) (hagent : agent ∈ input.agents)
    (hlocked : Locked input agent) {s : State}
    (hcontext : s.pos.context = (phoneContext agent).toList) {args : Text}
    (h : dialled (sections.flatMap Section.entries) world s = some args) :
    agent.extensionLockMode ≠ some .fullLocked ∧ (∀ c ∈ s.pos.exten, isDigit c = true) ∧
      args = "PJSIP/".toList ++ s.pos.exten ++ ",20,tTU(agent-pre-bridge)".toList := by
  cases hcode : stepAt (sections.flatMap Section.entries) s.pos with
  | none =>
    rw [dialled, hcode] at h
    cases h
  | some code =>
    obtain ⟨exten, hmatch, hline⟩ :=
      lockedLine_of_stepAt hrender hextensions hagent hlocked hcontext hcode
    have hdials := app_of_dialled hcode h
    cases hline with
    | still hstill => exact absurd hdials hstill.2.1
    | guard => exact absurd hdials (by simp [registeredEndpointGuard, plainStep])
    | internal hlock hpattern hexten =>
      subst hexten
      rw [dialled_self hcode] at h
      exact ⟨hlock, all_isDigit_of_internal hpattern hmatch, (Option.some.inj h).symm⟩

/-- What is dialled without an endpoint behind it is not over a trunk. -/
theorem not_trunk_of_plain {number : Text} (hnumber : '@' ∉ number) :
    ¬ "@trunk-".toList <:+: "PJSIP/".toList ++ number ++ ",20,tTU(agent-pre-bridge)".toList := by
  intro hinfix
  have hat : '@' ∈ "PJSIP/".toList ++ number ++ ",20,tTU(agent-pre-bridge)".toList :=
    hinfix.subset (by decide)
  simp only [List.mem_append, or_assoc] at hat
  rcases hat with hat | hat | hat
  · exact absurd hat (by decide)
  · exact hnumber hat
  · exact absurd hat (by decide)

/-- Whatever is dialled on a locked telephone, the call stays in the context of the
telephone until it is hung up, at no time dials over a trunk, and dials nothing when the
telephone is locked in full. -/
theorem locked_phone_stays_inside (hrender : renderAgentDialplan input = .ok sections)
    (hextensions : (input.agents.map (·.extension)).Nodup) (hagent : agent ∈ input.agents)
    (hlocked : Locked input agent) (hdigits : ∀ c ∈ agent.extension.toList, isDigit c = true)
    {s : State} (hcontacts : PlainContacts world agent s.vars)
    (hstart : s.pos.context = (phoneContext agent).toList) :
    (∀ t, Comes (step (sections.flatMap Section.entries) world) s (.inl t) →
      t.pos.context = (phoneContext agent).toList ∧
        ¬ DialsTrunk (sections.flatMap Section.entries) world t ∧
        (agent.extensionLockMode = some .fullLocked →
          dialled (sections.flatMap Section.entries) world t = none)) ∧
      ∀ r, Ends (step (sections.flatMap Section.entries) world) s r → r.outcome = .hungUp := by
  have hstep := inside_step hrender hextensions hagent hlocked hdigits hcontacts
  have hinside : Inside agent s.vars s := ⟨hstart, rfl⟩
  refine ⟨?_, fun r hends => Leads.invariant hstep hinside hends⟩
  · intro t hcomes
    have ht : Inside agent s.vars t := hcomes.invariant hstep hinside
    refine ⟨ht.context, ?_, ?_⟩
    · rintro ⟨args, hargs, htrunk⟩
      obtain ⟨-, hnumber, rfl⟩ :=
        dialled_inside hrender hextensions hagent hlocked ht.context hargs
      exact not_trunk_of_plain (notMem_of_digits hnumber rfl) htrunk
    · intro hfull
      cases hdialled : dialled (sections.flatMap Section.entries) world t with
      | none => rfl
      | some args =>
        exact absurd hfull
          (dialled_inside hrender hextensions hagent hlocked ht.context hdialled).1

end Inside

section Office

/-- 1001 may not dial out, 1002 may. -/
def officeAgents : List AgentDialplanAgentInput :=
  [⟨"1001", true, .prohib, true, some .outboundLocked, [], none⟩,
    ⟨"1002", true, .prohib, true, none, [], some ⟨.allow, [], true, true, true, true⟩⟩]

def office : AgentDialplanInput :=
  ⟨true, some "0212345678", [], none, [⟨"Main trunk", true⟩], [], officeAgents,
    [⟨"7", "01012345678", none, true⟩], [⟨"pickup", some "*8", true⟩], []⟩

theorem renders_of_isOk {input : AgentDialplanInput} (hok : (renderAgentDialplan input).isOk) :
    ∃ sections, renderAgentDialplan input = .ok sections := by
  cases hrender : renderAgentDialplan input with
  | ok sections => exact ⟨sections, rfl⟩
  | error message =>
    rw [hrender] at hok
    cases hok

theorem renders_office : ∃ sections, renderAgentDialplan office = .ok sections :=
  renders_of_isOk (by decide)

/-- A call to a mobile telephone from 1001, which is registered. -/
def officeCall : State :=
  ⟨⟨"agent-phone-1001".toList, "01012345678".toList, 1⟩, [], ⟨[], [], [], []⟩, [], []⟩

def officeChannel : Nat → Text → Text := fun _ _ => "PJSIP/1001/sip:1001@10.0.0.7:5060".toList

theorem locked_office_phone_stays_inside :
    ∃ sections, renderAgentDialplan office = .ok sections ∧
      (∀ t, Comes (step (sections.flatMap Section.entries) officeChannel) officeCall (.inl t) →
        t.pos.context = "agent-phone-1001".toList ∧
          ¬ DialsTrunk (sections.flatMap Section.entries) officeChannel t ∧
          (some ExtensionLockMode.outboundLocked = some .fullLocked →
            dialled (sections.flatMap Section.entries) officeChannel t = none)) ∧
        ∀ r, Ends (step (sections.flatMap Section.entries) officeChannel) officeCall r →
          r.outcome = .hungUp := by
  obtain ⟨sections, hrender⟩ := renders_office
  have hcontacts : PlainContacts officeChannel
      ⟨"1001", true, .prohib, true, some .outboundLocked, [], none⟩ officeCall.vars := by
    intro n
    show '"' ∉ "PJSIP/1001/sip:1001@10.0.0.7:5060".toList
    decide
  exact ⟨sections, hrender, locked_phone_stays_inside hrender (by decide) (List.mem_cons_self)
    (.inr (.inl rfl)) (by decide) hcontacts rfl⟩

end Office

end KasterCti.Renderers
