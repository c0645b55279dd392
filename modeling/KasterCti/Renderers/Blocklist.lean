import Mathlib.Data.List.ReduceOption
import KasterCti.Renderers.Conditions
import KasterCti.Renderers.Dialplan

/-!
# Callers on the blocklist

Every route of a DID keeps the DID in a variable and compares the number of the caller with the
blocklist, before it does anything else.

Results:
1. `renderDidExtension_shape`: the lines of every route, with the checks in front.
2. `check_step`: what one check does.
3. `blocked_callers_stopped_iff`: who is sent to `blocked-ani` before the route begins.
-/

namespace KasterCti.Renderers

open Dialplan Lines Machine
open ArsFlow (plainStep labeledStep varRef given)

/-! ## The lines of a route -/

def isGotoIf (code : Step) : Bool := code.app = "GotoIf".toList

/-- `GotoIf($["${CALLERID(num)…`. -/
def isCallerCheck (code : Step) : Bool :=
  isGotoIf code &&
    (JsText.afterPrefix? "$[\"$\x7bCALLERID(num)".toList code.args).isSome

/-- A line that plays, answers, queues, transfers and hooks nothing. -/
def isUnrouted (code : Step) : Bool :=
  code.app = "NoOp".toList || code.app = "Set".toList || isCallerCheck code

/-- The block of a DID: the checks stand in front of the route, which ends with a jump or with
`Hangup` and has no check of its own. -/
def RouteShape (did : DidInput) (checks : List Step) (block : Block) : Prop :=
  ∃ noop front last, block = didBlock did noop checks (front ++ [last]) ∧
    (∀ code ∈ front, isCallerCheck code = false) ∧ isUnrouted last = false

section Shape

variable {did : DidInput} {checks lines : List Step} {block : Block} {code : Step}

/-- Lines of which none is a condition. -/
def Unconditional (lines : List Step) : Prop := ∀ code ∈ lines, isGotoIf code = false

@[simp] theorem isGotoIf_plainStep (app args : String) :
    isGotoIf (plainStep app args) = decide (app = "GotoIf") :=
  decide_eq_decide.mpr String.toList_inj

@[simp] theorem isGotoIf_setVar (name value : String) : isGotoIf (setVar name value) = false := by
  rw [setVar, isGotoIf_plainStep]
  decide

theorem unconditional_nil : Unconditional [] := nofun

theorem unconditional_cons : Unconditional (code :: lines) ↔
    isGotoIf code = false ∧ Unconditional lines :=
  List.forall_mem_cons

theorem unconditional_append {lines' : List Step} :
    Unconditional (lines ++ lines') ↔ Unconditional lines ∧ Unconditional lines' :=
  List.forall_mem_append

theorem unconditional_flatMap {α : Type} {f : α → List Step} {xs : List α}
    (h : ∀ x ∈ xs, Unconditional (f x)) : Unconditional (xs.flatMap f) := by
  intro code hcode
  obtain ⟨x, hx, hcode⟩ := List.mem_flatMap.mp hcode
  exact h x hx code hcode

theorem unconditional_dtmfMenuLines {menu : OptOutDtmfMenuInput}
    (h : dtmfMenuLines menu = .ok lines) : Unconditional lines := by
  obtain ⟨invalidPrompt, -, h⟩ := bind_eq_ok.mp h
  obtain ⟨timeoutPrompt, -, h⟩ := bind_eq_ok.mp h
  rw [← pure_eq_ok.mp h, unconditional_append]
  refine ⟨?_, unconditional_flatMap fun mapping _ => ?_⟩
  · simp [unconditional_cons, unconditional_nil]
  · simp [dtmfMappingLines, unconditional_cons, unconditional_nil]

theorem unconditional_smartFlowLines {flow : OptOutSmartFlowInput}
    (h : smartFlowLines flow = .ok lines) : Unconditional lines := by
  unfold smartFlowLines at h
  iterate 8 obtain ⟨_, -, h⟩ := bind_eq_ok.mp h
  rw [← pure_eq_ok.mp h, unconditional_append]
  refine ⟨?_, unconditional_flatMap fun mapping _ => ?_⟩
  · simp [unconditional_cons, unconditional_nil]
  · simp [smartMappingLines, unconditional_cons, unconditional_nil]

theorem unconditional_optOutLines {optOut : BranchOptOut080Input}
    (h : optOutLines did optOut = .ok lines) : Unconditional lines := by
  obtain ⟨basePrompt, -, h⟩ := bind_eq_ok.mp h
  obtain ⟨completionPrompt, -, h⟩ := bind_eq_ok.mp h
  obtain ⟨modeLines, hmode, h⟩ := bind_eq_ok.mp h
  rw [← pure_eq_ok.mp h, unconditional_append]
  constructor
  · simp [unconditional_cons, unconditional_nil]
  · unfold optOutModeLines at hmode
    split at hmode
    · exact unconditional_dtmfMenuLines hmode
    · exact unconditional_smartFlowLines hmode
    · rw [← pure_eq_ok.mp hmode]
      exact unconditional_nil

theorem unconditional_prelude (did : DidInput) : Unconditional (renderPromptQueuePreludeLines did) := by
  unfold renderPromptQueuePreludeLines
  split
  · exact unconditional_nil
  · rw [unconditional_append]
    constructor
    · simp [unconditional_cons, unconditional_nil]
    · unfold prestartLines
      split
      · simp [unconditional_cons, unconditional_nil]
      · exact unconditional_nil

theorem unconditional_playback {promptKeys : List String}
    (h : renderPromptPlaybackLines promptKeys = .ok lines) : Unconditional lines := by
  unfold renderPromptPlaybackLines at h
  split at h
  · rw [← pure_eq_ok.mp h]
    exact unconditional_nil
  · obtain ⟨plays, hplays, h⟩ := bind_eq_ok.mp h
    rw [← pure_eq_ok.mp h, unconditional_append]
    constructor
    · simp [unconditional_cons, unconditional_nil]
    · intro code hcode
      obtain ⟨key, -, hkey⟩ := exists_of_mem_right (mapM_eq_ok.mp hplays) hcode
      obtain ⟨target, -, hkey⟩ := bind_eq_ok.mp hkey
      rw [← pure_eq_ok.mp hkey, isGotoIf_plainStep]
      decide

theorem unconditional_promptLines (h : promptLines did = .ok lines) : Unconditional lines := by
  have hprelude : Unconditional
      (if (given did.directQueue).isSome then renderPromptQueuePreludeLines did else []) := by
    split
    · exact unconditional_prelude did
    · exact unconditional_nil
  unfold promptLines at h
  split at h
  · obtain ⟨plays, hplays, h⟩ := bind_eq_ok.mp h
    rw [← pure_eq_ok.mp h, unconditional_append, unconditional_append]
    refine ⟨⟨hprelude, unconditional_playback hplays⟩, ?_⟩
    unfold renderPromptQueueDelayLines
    split
    · exact unconditional_nil
    · simp [unconditional_cons, unconditional_nil]
  · obtain ⟨plays, hplays, h⟩ := bind_eq_ok.mp h
    rw [← pure_eq_ok.mp h, ← pure_eq_ok.mp hplays, unconditional_append, unconditional_append]
    exact ⟨⟨hprelude, unconditional_nil⟩, unconditional_nil⟩

/-- The lines that a route may have behind its checks. -/
def Unchecked (lines : List Step) : Prop := ∀ code ∈ lines, isCallerCheck code = false

theorem Unconditional.unchecked (h : Unconditional lines) : Unchecked lines :=
  fun code hcode => by rw [isCallerCheck, h code hcode, Bool.false_and]

theorem unchecked_append {lines' : List Step} :
    Unchecked (lines ++ lines') ↔ Unchecked lines ∧ Unchecked lines' :=
  List.forall_mem_append

/-- The conditions of the holidays are conditions on the date. -/
theorem isCallerCheck_dateIs (format value dest : String) :
    isCallerCheck (plainStep "GotoIf" (dateIs format value ++ dest)) = false := by
  have hargs : (plainStep "GotoIf" (dateIs format value ++ dest)).args =
      "$[\"$\x7bSTRFTIME".toList ++ ("($\x7bEPOCH\x7d,,".toList ++ format.toList ++ ")\x7d\"=\"".toList ++
        value.toList ++ "\"]".toList ++ dest.toList) := by
    simp [plainStep, dateIs, isValue, varRef]
  rw [isCallerCheck, hargs]
  rfl

theorem unchecked_holidayLine {rule : ForwardingRuleInput} {holiday : HolidayRuleInput}
    (h : holidayLine did rule holiday = .ok (some code)) : isCallerCheck code = false := by
  obtain ⟨expression?, hexpression, h⟩ := bind_eq_ok.mp h
  have hdate : ∀ expression, expression? = some expression →
      ∃ format value, expression = dateIs format value := by
    rintro expression rfl
    have hmatch : ∀ {holidayDate}, buildHolidayMatchExpression.dateMatch holiday holidayDate =
        .ok (some expression) → ∃ format value, expression = dateIs format value := by
      intro holidayDate hmatch
      unfold buildHolidayMatchExpression.dateMatch at hmatch
      split at hmatch
      · split at hmatch
        · obtain ⟨-, -, hmatch⟩ := bind_eq_ok.mp hmatch
          exact ⟨_, _, (Option.some.inj (pure_eq_ok.mp hmatch)).symm⟩
        · cases pure_eq_ok.mp hmatch
      · cases pure_eq_ok.mp hmatch
    unfold buildHolidayMatchExpression at hexpression
    split at hexpression
    · split at hexpression
      · obtain ⟨-, -, hexpression⟩ := bind_eq_ok.mp hexpression
        exact ⟨_, _, (Option.some.inj (pure_eq_ok.mp hexpression)).symm⟩
      · exact hmatch hexpression
    · exact hmatch hexpression
  cases expression? with
  | none => cases pure_eq_ok.mp h
  | some expression =>
    obtain ⟨format, value, rfl⟩ := hdate expression rfl
    simp only at h
    split at h
    · rw [← Option.some.inj (pure_eq_ok.mp h), String.append_assoc]
      exact isCallerCheck_dateIs _ _ _
    · rw [← Option.some.inj (pure_eq_ok.mp h), String.append_assoc, String.append_assoc]
      exact isCallerCheck_dateIs _ _ _

theorem unchecked_holidayLines {rule : ForwardingRuleInput} {rules : List HolidayRuleInput}
    (h : renderHolidayForwardingLines did rule rules = .ok lines) : Unchecked lines := by
  obtain ⟨chain, hchain, h⟩ := bind_eq_ok.mp h
  rw [← pure_eq_ok.mp h]
  split
  · exact nofun
  · rw [unchecked_append]
    constructor
    · intro code hcode
      obtain ⟨holiday, -, hline⟩ :=
        exists_of_mem_right (mapM_eq_ok.mp hchain) (List.reduceOption_mem_iff.mp hcode)
      exact unchecked_holidayLine hline
    · intro code hcode
      rw [List.mem_singleton.mp hcode]
      rfl

/-! ## Every route -/

theorem unrouted_plainStep {app : String} (args : String) (h : app ∈ ["Goto", "Hangup"]) :
    isUnrouted (plainStep app args) = false := by
  simp only [List.mem_cons, List.not_mem_nil, or_false] at h
  rcases h with rfl | rfl <;> rfl

variable {ivrMenus : List IvrMenuInput}

/-- Where the DID goes without a rule: the lines end with a jump or with `Hangup`. -/
theorem fallback_shape (h : renderDidFallbackRoute did ivrMenus = .ok (some lines)) :
    ∃ front last, lines = front ++ [last] ∧ Unchecked front ∧ isUnrouted last = false := by
  unfold renderDidFallbackRoute at h
  split at h
  · split at h
    · cases pure_eq_ok.mp h
    · split at h
      · cases h
      · refine ⟨[], _, (Option.some.inj (pure_eq_ok.mp h)).symm, nofun, ?_⟩
        exact unrouted_plainStep _ (by simp)
  · obtain ⟨-, -, h⟩ := bind_eq_ok.mp h
    refine ⟨[], _, (Option.some.inj (pure_eq_ok.mp h)).symm, nofun, ?_⟩
    exact unrouted_plainStep _ (by simp)
  · obtain ⟨-, -, h⟩ := bind_eq_ok.mp h
    refine ⟨[_, _], _, (Option.some.inj (pure_eq_ok.mp h)).symm, ?_, ?_⟩
    · refine Unconditional.unchecked ?_
      simp [unconditional_cons, unconditional_nil]
    · exact unrouted_plainStep _ (by simp)
  · cases pure_eq_ok.mp h

theorem routeShape_didBlock {noop : String} {first front : List Step} {last : Step}
    (hfirst : Unchecked first) (hfront : Unchecked front) (hlast : isUnrouted last = false) :
    RouteShape did checks (didBlock did noop checks (first ++ (front ++ [last]))) :=
  ⟨noop, first ++ front, last, by rw [List.append_assoc], unchecked_append.mpr ⟨hfirst, hfront⟩, hlast⟩

/-- A route that ends with one jump. -/
theorem routeShape_goto {noop dest : String} {front : List Step} (hfront : Unchecked front) :
    RouteShape did checks (didBlock did noop checks (front ++ [plainStep "Goto" dest])) :=
  ⟨noop, front, _, rfl, hfront, unrouted_plainStep _ (by simp)⟩

theorem plainRoute_shape {prompts : List Step} (hprompts : Unchecked prompts)
    (h : plainRoute did ivrMenus checks prompts = .ok (some block)) :
    RouteShape did checks block := by
  obtain ⟨fallback, hfallback, h⟩ := bind_eq_ok.mp h
  obtain ⟨lines, rfl, rfl⟩ := Option.map_eq_some_iff.mp (pure_eq_ok.mp h)
  obtain ⟨front, last, rfl, hfront, hlast⟩ := fallback_shape hfallback
  exact routeShape_didBlock hprompts hfront hlast

theorem ruleRoute_shape {rule : ForwardingRuleInput} {prompts holidayLines : List Step}
    (hprompts : Unchecked prompts) (hholidays : Unchecked holidayLines)
    (h : ruleRoute did rule ivrMenus checks prompts holidayLines = .ok (some block)) :
    RouteShape did checks block := by
  unfold ruleRoute at h
  dsimp only at h
  split at h
  · obtain ⟨section?, -, rfl⟩ := Option.map_eq_some_iff.mp (pure_eq_ok.mp h)
    exact routeShape_goto (unchecked_append.mpr ⟨hprompts, hholidays⟩)
  · obtain ⟨fallback, hfallback, h⟩ := bind_eq_ok.mp h
    split at h
    · split at h
      · exact plainRoute_shape hprompts h
      · obtain ⟨front, last, rfl, hfront, hlast⟩ := fallback_shape hfallback
        rw [← Option.some.inj (pure_eq_ok.mp h)]
        refine routeShape_didBlock ?_ hfront hlast
        refine unchecked_append.mpr ⟨unchecked_append.mpr ⟨hprompts, hholidays⟩, ?_⟩
        intro code hcode
        obtain ⟨slot, -, rfl⟩ := List.mem_map.mp hcode
        rw [isCallerCheck, windowLine, isGotoIf_plainStep]
        rfl
    · exact plainRoute_shape hprompts h

/-- Every extension of a DID has the checks of the blocklist in front of its route. -/
theorem renderDidExtension_shape {forwardingRules : List ForwardingRuleInput}
    {entries : List BlocklistEntryInput} {holidayRules : List HolidayRuleInput}
    (h : renderDidExtension did ivrMenus forwardingRules entries holidayRules = .ok (some block)) :
    ∃ checks, renderBlocklistChecks entries = .ok checks ∧ RouteShape did checks block := by
  obtain ⟨-, -, h⟩ := bind_eq_ok.mp h
  split at h
  · obtain ⟨route, hroute, h⟩ := map_eq_ok.mp h
    obtain ⟨slug, -, hroute⟩ := bind_eq_ok.mp hroute
    obtain ⟨checks, hchecks, hroute⟩ := bind_eq_ok.mp hroute
    obtain rfl := Option.some.inj h
    rw [← pure_eq_ok.mp hroute]
    exact ⟨checks, hchecks, @routeShape_goto _ _ _ _ [] nofun⟩
  · obtain ⟨route, hroute, h⟩ := map_eq_ok.mp h
    obtain ⟨checks, hchecks, hroute⟩ := bind_eq_ok.mp hroute
    obtain ⟨optOut, hoptOut, hroute⟩ := bind_eq_ok.mp hroute
    obtain rfl := Option.some.inj h
    rw [← pure_eq_ok.mp hroute]
    refine ⟨checks, hchecks, routeShape_goto (Unconditional.unchecked ?_)⟩
    unfold renderOptOutVariableLines at hoptOut
    split at hoptOut
    · exact unconditional_optOutLines hoptOut
    · rw [← pure_eq_ok.mp hoptOut]
      exact unconditional_nil
  · obtain ⟨route, hroute, h⟩ := map_eq_ok.mp h
    obtain ⟨checks, hchecks, hroute⟩ := bind_eq_ok.mp hroute
    obtain rfl := Option.some.inj h
    rw [← pure_eq_ok.mp hroute]
    refine ⟨checks, hchecks, routeShape_goto (Unconditional.unchecked ?_)⟩
    unfold renderSmartArsVariableLines
    split
    · exact unconditional_nil
    · simp [unconditional_cons, unconditional_nil]
  · obtain ⟨checks, hchecks, h⟩ := bind_eq_ok.mp h
    obtain ⟨prompts, hprompts, h⟩ := bind_eq_ok.mp h
    have hprompts := (unconditional_promptLines hprompts).unchecked
    refine ⟨checks, hchecks, ?_⟩
    split at h
    · obtain ⟨holidayLines, hholidays, h⟩ := bind_eq_ok.mp h
      exact ruleRoute_shape hprompts (unchecked_holidayLines hholidays) h
    · exact plainRoute_shape hprompts h

end Shape

/-! ## The caller -/

/-- `CALLERID(num):0:n`. -/
def callerStart (n : Nat) : Text := ("CALLERID(num):0:" ++ toString n).toList

/-- The channel shows the number of the caller, and its first digits as a substring. -/
structure ShowsCaller (world : Nat → Text → Text) (vars : List (Text × Text)) (caller : String) :
    Prop where
  number : ∀ moment, (vars.lookup "CALLERID(num)".toList).getD
    (world moment "CALLERID(num)".toList) = caller.toList
  start : ∀ moment n, (vars.lookup (callerStart n)).getD (world moment (callerStart n)) =
    caller.toList.take n

/-- The entry is for the caller. -/
def BlocklistEntryInput.blocks (entry : BlocklistEntryInput) (caller : String) : Bool :=
  if entry.matchType = "PREFIX" then entry.phoneNumber.toList <+: caller.toList
  else caller = entry.phoneNumber

def isDigits (text : String) : Bool := text.toList.all isDigit

section Check

variable {dialplan : List Entry} {world : Nat → Text → Text} {s : State} {caller : String}
  {entry : BlocklistEntryInput} {code : Step}

theorem isPlainChar_of_isDigits {text : String} (h : isDigits text = true) :
    text.toList.all isPlainChar = true ∧ '"' ∉ text.toList := by
  have hdigit : ∀ c ∈ text.toList, isDigit c = true := List.all_eq_true.mp h
  refine ⟨List.all_eq_true.mpr fun c hc => ?_, fun hc => absurd (hdigit _ hc) (by decide)⟩
  have hne : ∀ d, isDigit d = false → c ≠ d := fun d hd => ne_of_isDigit (hdigit c hc) hd
  simp [isPlainChar, hne '$' (by decide), hne '\x7d' (by decide), hne ']' (by decide)]

theorem utf16Length_of_isDigits {text : String} (h : isDigits text = true) :
    utf16Length text = text.toList.length := by
  have hone : ∀ cs : List Char, cs.all isDigit = true →
      (cs.map (fun c => if 0xFFFF < c.toNat then 2 else 1)).sum = cs.length := by
    intro cs hcs
    induction cs with
    | nil => rfl
    | cons c cs ih =>
      rw [List.all_cons, Bool.and_eq_true] at hcs
      have hsmall : ¬ 0xFFFF < c.toNat := by
        have hle := hcs.1
        rw [isDigit, Bool.and_eq_true, decide_eq_true_eq, decide_eq_true_eq] at hle
        have hnine : c.toNat ≤ '9'.toNat := hle.2
        exact not_lt.mpr (hnine.trans (by decide))
      rw [List.map_cons, List.sum_cons, ih hcs.2, if_neg hsmall, List.length_cons, Nat.add_comm]
  exact hone _ h

/-- What the channel says for a name that is a call of a function. -/
theorem lookup_callerid (s : State) (rest : Text) :
    valueOf (s.lookup world) ("CALLERID".toList ++ '(' :: rest) =
      (s.vars.lookup ("CALLERID".toList ++ '(' :: rest)).getD
        (world s.trace.length ("CALLERID".toList ++ '(' :: rest)) := by
  rw [valueOf_call _ (by decide) (by decide) (by decide), State.lookup, if_neg nofun]

theorem goto_blocked (hblocked : (dialplan.map Entry.context).contains "blocked-ani".toList = true) :
    s.goto dialplan "blocked-ani,s,1".toList =
      .inl { s with pos := ⟨"blocked-ani".toList, "s".toList, 1⟩ } := by
  have hdest : "blocked-ani,s,1".toList =
      "blocked-ani".toList ++ ',' :: ("s".toList ++ ',' :: "1".toList) := by decide
  rw [State.goto, hdest, resolve_context (by decide) (by decide) (by decide), if_pos hblocked,
    show "1".toList = ['1'] from rfl, jumpTo_one]

/-- One check sends the caller away whose number its entry is for. -/
theorem check_step (hcheck : renderBlocklistCheck entry = .ok code)
    (hentry : isDigits entry.phoneNumber = true) (hcaller : isDigits caller = true)
    (hshows : ShowsCaller world s.vars caller)
    (hblocked : (dialplan.map Entry.context).contains "blocked-ani".toList = true)
    (hat : stepAt dialplan s.pos = some code) :
    step dialplan world s =
      if entry.blocks caller then
        .inl { s.visit none with pos := ⟨"blocked-ani".toList, "s".toList, 1⟩ }
      else .inl (s.visit none).advance := by
  obtain ⟨hplain, hquote⟩ := isPlainChar_of_isDigits hentry
  obtain ⟨-, -, hcheck⟩ := bind_eq_ok.mp hcheck
  have hdest : expand ((s.visit none).lookup world) "blocked-ani,s,1".toList =
      "blocked-ani,s,1".toList := expand_plain _ (by decide)
  have hcallerQuote : '"' ∉ caller.toList := (isPlainChar_of_isDigits hcaller).2
  -- both kinds of entries compare a name of the channel with the number of the entry
  have hstep : ∀ {name : String} {shown : Text}, name.toList.all isPlainChar = true →
      valueOf ((s.visit none).lookup world) name.toList = shown → '"' ∉ shown →
      code = plainStep "GotoIf" (isValue name entry.phoneNumber ++ "?blocked-ani,s,1") →
      step dialplan world s = if shown = entry.phoneNumber.toList then
        .inl { s.visit none with pos := ⟨"blocked-ani".toList, "s".toList, 1⟩ }
      else .inl (s.visit none).advance := by
    rintro name shown hname rfl hshown rfl
    have hcode : stepAt dialplan s.pos = some ⟨none, "GotoIf".toList,
        (isValue name entry.phoneNumber).toList ++ '?' :: "blocked-ani,s,1".toList⟩ := by
      rw [hat, plainStep, String.toList_append]
      rfl
    rw [step_gotoIf_isValue hcode hname hplain hquote hshown (by rw [hdest]; decide)
      (by rw [hdest]; decide), hdest, goto_blocked hblocked]
  split at hcheck
  · next hprefix =>
    have hname : ("CALLERID(num):0:" ++ toString (utf16Length entry.phoneNumber)).toList =
        callerStart entry.phoneNumber.toList.length := by
      rw [utf16Length_of_isDigits hentry, callerStart]
    have hvalue : valueOf ((s.visit none).lookup world)
        ("CALLERID(num):0:" ++ toString (utf16Length entry.phoneNumber)).toList =
        caller.toList.take entry.phoneNumber.toList.length := by
      rw [hname, ← hshows.start (s.visit none).trace.length, callerStart, String.toList_append]
      exact lookup_callerid _ _
    have hplainName : ("CALLERID(num):0:" ++ toString (utf16Length entry.phoneNumber)).toList.all
        isPlainChar = true := by
      rw [String.toList_append, List.all_append, isPlainChar_natText]
      decide
    have hblocks : caller.toList.take entry.phoneNumber.toList.length = entry.phoneNumber.toList ↔
        entry.blocks caller = true := by
      rw [BlocklistEntryInput.blocks, if_pos hprefix, decide_eq_true_eq, List.prefix_iff_eq_take,
        eq_comm]
    rw [hstep hplainName hvalue (fun h => hcallerQuote (List.mem_of_mem_take h))
      (pure_eq_ok.mp hcheck).symm]
    simp only [hblocks]
  · next hexact =>
    have hvalue : valueOf ((s.visit none).lookup world) "CALLERID(num)".toList = caller.toList :=
      (lookup_callerid _ _).trans (hshows.number _)
    have hblocks : caller.toList = entry.phoneNumber.toList ↔ entry.blocks caller = true := by
      rw [BlocklistEntryInput.blocks, if_neg hexact, decide_eq_true_eq, String.toList_inj]
    rw [hstep (by decide) hvalue hcallerQuote (pure_eq_ok.mp hcheck).symm]
    simp only [hblocks]

/-- A check is a condition on the number of the caller. -/
theorem isUnrouted_check (hcheck : renderBlocklistCheck entry = .ok code) : isUnrouted code = true := by
  obtain ⟨-, -, hcheck⟩ := bind_eq_ok.mp hcheck
  have hcaller : ∀ rest, isCallerCheck
      (plainStep "GotoIf" (isValue ("CALLERID(num)" ++ rest) entry.phoneNumber ++
        "?blocked-ani,s,1")) = true := by
    intro rest
    have hargs : (plainStep "GotoIf" (isValue ("CALLERID(num)" ++ rest) entry.phoneNumber ++
        "?blocked-ani,s,1")).args = "$[\"$\x7bCALLERID(num)".toList ++ (rest.toList ++ "\x7d\"=\"".toList ++
          entry.phoneNumber.toList ++ "\"]".toList ++ "?blocked-ani,s,1".toList) := by
      simp [plainStep, isValue, varRef]
    rw [isCallerCheck, isGotoIf_plainStep, hargs, JsText.afterPrefix?_eq_some.mpr rfl]
    rfl
  rw [isUnrouted, Bool.or_eq_true]
  refine .inr ?_
  split at hcheck
  · rw [← pure_eq_ok.mp hcheck]
    have hname : "CALLERID(num):0:" ++ toString (utf16Length entry.phoneNumber) =
        "CALLERID(num)" ++ (":0:" ++ toString (utf16Length entry.phoneNumber)) := by
      rw [← String.append_assoc]
      rfl
    rw [hname]
    exact hcaller _
  · rw [← pure_eq_ok.mp hcheck]
    exact hcaller ""

end Check

/-! ## A call to the DID -/

def inboundMain : Text := "inbound-main".toList

def blockedPos : Pos := ⟨"blocked-ani".toList, "s".toList, 1⟩

/-- The line where the call is plays, answers, queues, transfers and hooks nothing. -/
def Unrouted (dialplan : List Entry) (s : State) : Prop :=
  ∃ code, stepAt dialplan s.pos = some code ∧ isUnrouted code = true

section Call

variable {dialplan : List Entry} {world : Nat → Text → Text} {s : State} {caller : String}
  {code : Step}

theorem step_noOp (hat : stepAt dialplan s.pos = some code) (happ : code.app = "NoOp".toList) :
    step dialplan world s = .inl (s.visit code.label).advance :=
  step_pass hat (by rw [happ]; decide)

theorem step_setting (hat : stepAt dialplan s.pos = some code) (happ : code.app = "Set".toList) :
    ∃ vars, step dialplan world s = .inl { (s.visit code.label).advance with vars := vars } := by
  rw [step_at hat, show appOf code.app = .set by rw [happ]; decide]
  simp only [State.apply, State.basic]
  split
  · exact ⟨_, rfl⟩
  · exact ⟨_, rfl⟩

/-- The DID is kept in a variable of its own. -/
theorem step_entryDid (hat : stepAt dialplan s.pos = some (setVar "ENTRY_DID" (varRef "EXTEN"))) :
    ∃ value, step dialplan world s =
      .inl ((s.visit none).setVar "__ENTRY_DID".toList value).advance := by
  have hargs : (setVar "ENTRY_DID" (varRef "EXTEN")).args =
      "__ENTRY_DID=".toList ++ ((varRef "EXTEN").toList ++ []) := by
    simp [setVar, plainStep]
  refine ⟨valueOf ((s.visit none).lookup world) "EXTEN".toList ++
    expand ((s.visit none).lookup world) [], step_set hat (by decide) (by decide) ?_⟩
  rw [hargs, expand_prefix _ (by decide), expand_varRef _ (by decide)]
  rfl

theorem ShowsCaller.set {vars : List (Text × Text)} (h : ShowsCaller world vars caller)
    (value : Text) : ShowsCaller world (("ENTRY_DID".toList, value) :: vars) caller := by
  have hother : ∀ rest : Text, (("ENTRY_DID".toList, value) :: vars).lookup ('C' :: rest) =
      vars.lookup ('C' :: rest) := by
    intro rest
    rw [List.lookup_cons, show ('C' :: rest == "ENTRY_DID".toList) = false from rfl]
  refine ⟨fun moment => ?_, fun moment n => ?_⟩
  · rw [← h.number moment]
    exact congrArg (Option.getD · _) (hother _)
  · rw [← h.start moment n]
    have hhead : callerStart n = 'C' :: ("ALLERID(num):0:".toList ++ (toString n).toList) := by
      rw [callerStart, String.toList_append]
      rfl
    rw [hhead]
    exact congrArg (Option.getD · _) (hother _)

/-- The checks of the entries send a caller away whom one of them is for. -/
theorem run_checks (hcaller : isDigits caller = true)
    (hblocked : (dialplan.map Entry.context).contains "blocked-ani".toList = true)
    {entries : List BlocklistEntryInput} {lines : List Step}
    (hlines : List.Forall₂ (fun entry line => renderBlocklistCheck entry = .ok line) entries lines)
    (hdigits : ∀ entry ∈ entries, isDigits entry.phoneNumber = true)
    (hshows : ShowsCaller world s.vars caller) (hcode : CodeAt dialplan s.pos lines)
    (hblocks : ∃ entry ∈ entries, entry.blocks caller = true) :
    ∃ t : State, LeadsVia (step dialplan world) (Unrouted dialplan) s (.inl t) ∧
      t.pos = blockedPos := by
  induction hlines generalizing s with
  | nil =>
    obtain ⟨entry, hentry, -⟩ := hblocks
    cases hentry
  | @cons entry line entries lines hline _ ih =>
    obtain ⟨hentry, hrest⟩ := List.forall_mem_cons.mp hdigits
    obtain ⟨hat, hcode⟩ := hcode
    have hunrouted : Unrouted dialplan s := ⟨line, hat, isUnrouted_check hline⟩
    have hstep := check_step hline hentry hcaller hshows hblocked hat
    cases hmatch : entry.blocks caller with
    | true =>
      rw [if_pos hmatch] at hstep
      exact ⟨_, .one hunrouted hstep, rfl⟩
    | false =>
      rw [if_neg (by simp [hmatch])] at hstep
      obtain ⟨other, hother, hothers⟩ := hblocks
      rcases List.mem_cons.mp hother with rfl | hother
      · cases hmatch.symm.trans hothers
      · obtain ⟨t, hleads, ht⟩ := @ih (s.visit none).advance hrest hshows hcode ⟨other, hother, hothers⟩
        exact ⟨t, .next hunrouted hstep hleads, ht⟩

/-- The lines of a DID, from the first one on, for a number that reaches it. -/
def LinesAt (dialplan : List Entry) (dialled : Text) (code : List Step) : Prop :=
  ∀ i line, code[i]? = some line → stepAt dialplan ⟨inboundMain, dialled, i + 1⟩ = some line

/-- What holds along the lines for a caller for whom no entry is. -/
def Passing (world : Nat → Text → Text) (dialled : Text) (checks lines : List Step)
    (caller : String) (s : State) : Prop :=
  ∃ i < lines.length, s.pos = ⟨inboundMain, dialled, i + 1⟩ ∧
    (i ≤ checks.length + 1 → ShowsCaller world s.vars caller)

theorem passing_next {dialled : Text} {checks lines : List Step} {s' : State} {i : Nat}
    (hpos : s.pos = ⟨inboundMain, dialled, i + 1⟩) (hpos' : s'.pos = s.pos.next)
    (hi : i + 1 < lines.length) (hshows : i + 1 ≤ checks.length + 1 → ShowsCaller world s'.vars caller) :
    Passing world dialled checks lines caller s' :=
  ⟨i + 1, hi, by rw [hpos', hpos]; rfl, hshows⟩

section Block

variable {did : DidInput} {noop : String} {entries : List BlocklistEntryInput}
  {checks front : List Step} {last : Step} {dialled : Text}
  (hcaller : isDigits caller = true)
  (hblocked : (dialplan.map Entry.context).contains "blocked-ani".toList = true)
  (hchecks : List.Forall₂ (fun entry line => renderBlocklistCheck entry = .ok line) entries checks)
  (hdigits : ∀ entry ∈ entries, isDigits entry.phoneNumber = true)
  (hlines : LinesAt dialplan dialled (didBlock did noop checks (front ++ [last])).code)

include hcaller hblocked hchecks hdigits hlines

/-- A caller for whom no entry is goes on from line to line until the route begins. -/
theorem passing_step (hfront : ∀ code ∈ front, isCallerCheck code = false)
    (hlast : isUnrouted last = false) (hnone : ∀ entry ∈ entries, entry.blocks caller = false)
    {s s' : State}
    (hs : Passing world dialled checks (didBlock did noop checks (front ++ [last])).code caller s)
    (hunrouted : Unrouted dialplan s) (hstep : step dialplan world s = .inl s') :
    Passing world dialled checks (didBlock did noop checks (front ++ [last])).code caller s' := by
  obtain ⟨i, hi, hpos, hshows⟩ := hs
  obtain ⟨line, hat, hline⟩ := hunrouted
  have hcode : (didBlock did noop checks (front ++ [last])).code =
      plainStep "NoOp" ("Inbound DID " ++ varRef "EXTEN" ++ noop) ::
        setVar "ENTRY_DID" (varRef "EXTEN") :: (checks ++ (front ++ [last])) := rfl
  have hget := hlines i _ (List.getElem?_eq_getElem hi)
  rw [← hpos, hat] at hget
  have hget : (didBlock did noop checks (front ++ [last])).code[i]? = some line := by
    rw [List.getElem?_eq_getElem hi, ← Option.some.inj hget]
  rw [hcode] at hget hi ⊢
  have hlength : (plainStep "NoOp" ("Inbound DID " ++ varRef "EXTEN" ++ noop) ::
      setVar "ENTRY_DID" (varRef "EXTEN") :: (checks ++ (front ++ [last]))).length =
      checks.length + front.length + 3 := by
    simp [Nat.add_assoc]
  match i, hget with
  | 0, hget =>
    obtain rfl := Option.some.inj hget
    obtain rfl := Sum.inl.inj ((step_noOp hat rfl).symm.trans hstep)
    exact passing_next hpos rfl (by omega) fun _ => hshows (Nat.zero_le _)
  | 1, hget =>
    obtain rfl := Option.some.inj hget
    obtain ⟨value, hset⟩ := step_entryDid hat
    obtain rfl := Sum.inl.inj (hset.symm.trans hstep)
    exact passing_next hpos rfl (by omega) fun _ => (hshows (Nat.le_add_left _ _)).set value
  | i + 2, hget =>
    rw [List.getElem?_cons_succ, List.getElem?_cons_succ] at hget
    rcases Nat.lt_or_ge i checks.length with hlt | hge
    · rw [List.getElem?_append_left hlt] at hget
      obtain ⟨entry, hentry, hcheck⟩ := exists_of_mem_right hchecks (List.mem_of_getElem? hget)
      have hshows := hshows (Nat.succ_le_succ hlt)
      have hcheckStep := check_step hcheck (hdigits entry hentry) hcaller hshows hblocked hat
      rw [if_neg (by simp [hnone entry hentry])] at hcheckStep
      obtain rfl := Sum.inl.inj (hcheckStep.symm.trans hstep)
      exact passing_next hpos rfl (by omega) fun _ => hshows
    · rw [List.getElem?_append_right hge] at hget
      rcases Nat.lt_or_ge (i - checks.length) front.length with hlt | hback
      · rw [List.getElem?_append_left hlt] at hget
        have hno := hfront line (List.mem_of_getElem? hget)
        rw [isUnrouted, hno, Bool.or_false, Bool.or_eq_true, decide_eq_true_eq,
          decide_eq_true_eq] at hline
        rcases hline with happ | happ
        · obtain rfl := Sum.inl.inj ((step_noOp hat happ).symm.trans hstep)
          exact passing_next hpos rfl (by omega) fun hle => absurd hle (by omega)
        · obtain ⟨vars, hset⟩ := @step_setting _ world _ _ hat happ
          obtain rfl := Sum.inl.inj (hset.symm.trans hstep)
          exact passing_next hpos rfl (by omega) fun hle => absurd hle (by omega)
      · rw [List.getElem?_append_right hback] at hget
        obtain rfl := List.mem_singleton.mp (List.mem_of_getElem? hget)
        rw [hlast] at hline
        cases hline

/-- A call that comes to a DID is sent away, before its route begins, exactly when one of the
entries is for the caller. -/
theorem sent_away_iff (hfront : ∀ code ∈ front, isCallerCheck code = false)
    (hlast : isUnrouted last = false) (hpos : s.pos = ⟨inboundMain, dialled, 1⟩)
    (hshows : ShowsCaller world s.vars caller) :
    (∃ t : State, LeadsVia (step dialplan world) (Unrouted dialplan) s (.inl t) ∧
      t.pos = blockedPos) ↔ ∃ entry ∈ entries, entry.blocks caller = true := by
  constructor
  · rintro ⟨t, hleads, ht⟩
    by_contra hnone
    have hnone : ∀ entry ∈ entries, entry.blocks caller = false := by
      intro entry hentry
      exact Bool.eq_false_iff.mpr fun hblocks => hnone ⟨entry, hentry, hblocks⟩
    have hstart : Passing world dialled checks (didBlock did noop checks (front ++ [last])).code
        caller s := ⟨0, Nat.succ_pos _, hpos, fun _ => hshows⟩
    obtain ⟨i, -, hat, -⟩ := hleads.invariant (fun _ _ => passing_step hcaller hblocked hchecks hdigits
      hlines hfront hlast hnone) hstart
    have hcontext : inboundMain = "blocked-ani".toList := congrArg Pos.context (hat.symm.trans ht)
    exact absurd hcontext (by decide)
  · intro hblocks
    have hfirst := hlines 0 _ rfl
    have hsecond := hlines 1 _ rfl
    rw [← hpos] at hfirst
    have hnoOp : step dialplan world s = .inl (s.visit none).advance := step_noOp hfirst rfl
    have hnext : (s.visit none).advance.pos = ⟨inboundMain, dialled, 2⟩ := by
      simp [State.visit, State.advance, hpos]
    rw [← hnext] at hsecond
    obtain ⟨value, hset⟩ := @step_entryDid _ world _ hsecond
    have hcode : CodeAt dialplan ⟨inboundMain, dialled, 3⟩ checks := by
      have hall : CodeAt dialplan ⟨inboundMain, dialled, 3⟩ (checks ++ (front ++ [last])) := by
        refine codeAt_of_getElem fun i line hline => ?_
        rw [Nat.add_comm]
        exact hlines (i + 2) line hline
      exact (codeAt_append.mp hall).1
    obtain ⟨t, hleads, ht⟩ := run_checks (s := (((s.visit none).advance.visit none).setVar
      "__ENTRY_DID".toList value).advance) hcaller hblocked hchecks hdigits (hshows.set value)
      (by simpa [State.visit, State.advance, State.setVar, hpos] using hcode) hblocks
    exact ⟨t, .next ⟨_, hfirst, rfl⟩ hnoOp (.next ⟨_, hsecond, rfl⟩ hset hleads), ht⟩

end Block

end Call

/-! ## The whole dialplan -/

section Dialplan

variable {input : DialplanInput} {contexts : Contexts} {did : DidInput}

theorem dids_of_render (hrender : renderContexts input = .ok contexts) :
    ∃ blocks : List (Option Block), contexts.dids = blocks.reduceOption ∧
      List.Forall₂ (fun did block => renderDidExtension did input.ivrMenus input.forwardingRules
        input.blocklistEntries input.holidayRules = .ok block) input.enabledDids blocks := by
  obtain ⟨blocks, hblocks, hrender⟩ := bind_eq_ok.mp hrender
  obtain ⟨smartArs, -, hrender⟩ := bind_eq_ok.mp hrender
  obtain ⟨flows, -, hrender⟩ := bind_eq_ok.mp hrender
  obtain ⟨queue, -, hrender⟩ := bind_eq_ok.mp hrender
  obtain ⟨ivrMenus, -, hrender⟩ := bind_eq_ok.mp hrender
  exact ⟨blocks, by rw [← pure_eq_ok.mp hrender], mapM_eq_ok.mp hblocks⟩

/-- The first block with the number of a DID is that of an enabled DID with the number. -/
theorem exists_first_block (hrender : renderContexts input = .ok contexts)
    (hdid : did ∈ input.enabledDids) {block : Block}
    (hblock : renderDidExtension did input.ivrMenus input.forwardingRules input.blocklistEntries
      input.holidayRules = .ok (some block)) :
    ∃ first checks, contexts.dids.find? (fun block => block.exten = did.did.toList) = some first ∧
      renderBlocklistChecks input.blocklistEntries = .ok checks ∧
      ∃ other, RouteShape other checks first := by
  obtain ⟨blocks, hdids, hall⟩ := dids_of_render hrender
  have hmem : block ∈ contexts.dids := by
    obtain ⟨block', hblock', heq⟩ := exists_of_mem_left hall hdid
    rw [hdids, List.reduceOption_mem_iff, ← Except.ok.inj (heq.symm.trans hblock)]
    exact hblock'
  obtain ⟨checks, hchecks, noop, front, last, hshape, -⟩ := renderDidExtension_shape hblock
  have hexten : block.exten = did.did.toList := by rw [hshape]; rfl
  have hsome : (contexts.dids.find? (fun block => block.exten = did.did.toList)).isSome :=
    List.find?_isSome.mpr ⟨block, hmem, decide_eq_true hexten⟩
  obtain ⟨first, hfirst⟩ := Option.isSome_iff_exists.mp hsome
  have hfirstMem := List.mem_of_find?_eq_some hfirst
  rw [hdids, List.reduceOption_mem_iff] at hfirstMem
  obtain ⟨other, -, hother⟩ := exists_of_mem_right hall hfirstMem
  obtain ⟨checks', hchecks', hshape'⟩ := renderDidExtension_shape hother
  obtain rfl := Except.ok.inj (hchecks.symm.trans hchecks')
  exact ⟨first, checks, hfirst, hchecks, other, hshape'⟩

variable (localeCompare : String → String → Int)

theorem linesAt_of_first {block : Block} {dialled : Text}
    (hfind : contexts.dids.find? (fun block => block.exten = did.did.toList) = some block)
    (hfor : extenFor ((contexts.sections localeCompare).flatMap Section.entries) inboundMain
      dialled = some did.did.toList) :
    LinesAt ((contexts.sections localeCompare).flatMap Section.entries) dialled block.code := by
  obtain ⟨rest, hrest⟩ := @first_of_section contexts.inbound _ _ hfind
  obtain ⟨more, hmore⟩ : ∃ more, contexts.sections localeCompare = contexts.inbound :: more :=
    ⟨_, rfl⟩
  intro i line hline
  have hcode := congrArg (· ++ (more.flatMap Section.entries).filter (fun entry =>
    entry.context = inboundMain && entry.exten = did.did.toList)) hrest
  refine stepAt_of_first (Eq.trans ?_ (hcode.trans (List.append_assoc _ _ _))) hfor hline
  rw [hmore, List.flatMap_cons, List.filter_append]
  rfl

theorem blocked_context :
    (((contexts.sections localeCompare).flatMap Section.entries).map Entry.context).contains
      "blocked-ani".toList = true := by
  have hmem : blockedAniContext ∈ contexts.sections localeCompare := by simp [Contexts.sections]
  exact List.contains_iff_mem.mpr (context_mem_sections hmem (List.mem_singleton_self _))

/-- A call to an enabled DID goes to `blocked-ani` from its preamble if and only if an active
entry is for the caller: an entry for numbers that start with it, or one for the number itself. -/
theorem blocked_callers_stopped_iff (hrender : renderContexts input = .ok contexts)
    (hdid : did ∈ input.enabledDids) {block : Block}
    (hblock : renderDidExtension did input.ivrMenus input.forwardingRules input.blocklistEntries
      input.holidayRules = .ok (some block))
    (hdigits : ∀ entry ∈ input.blocklistEntries, isDigits entry.phoneNumber = true)
    {caller : String} (hcaller : isDigits caller = true) {dialled : Text}
    (hfor : extenFor ((contexts.sections localeCompare).flatMap Section.entries) inboundMain
      dialled = some did.did.toList)
    {world : Nat → Text → Text} {s : State} (hpos : s.pos = ⟨inboundMain, dialled, 1⟩)
    (hshows : ShowsCaller world s.vars caller) :
    (∃ t : State, LeadsVia (step ((contexts.sections localeCompare).flatMap Section.entries) world)
        (Unrouted ((contexts.sections localeCompare).flatMap Section.entries)) s (.inl t) ∧
      t.pos = blockedPos) ↔
    ∃ entry ∈ input.blocklistEntries, entry.isActive = true ∧ entry.blocks caller = true := by
  obtain ⟨first, checks, hfirst, hchecks, other, noop, front, last, rfl, hfront, hlast⟩ :=
    exists_first_block hrender hdid hblock
  have hlines := linesAt_of_first localeCompare hfirst hfor
  have hactive : ∀ entry ∈ input.blocklistEntries.filter (·.isActive),
      isDigits entry.phoneNumber = true :=
    fun entry hentry => hdigits entry (List.mem_of_mem_filter hentry)
  rw [sent_away_iff hcaller (blocked_context localeCompare) (mapM_eq_ok.mp hchecks) hactive hlines
    hfront hlast hpos hshows]
  simp only [List.mem_filter, and_assoc]

end Dialplan

/-! ## A caller from the capital -/

section Capital

def deskDid : DidInput :=
  ⟨"d1", "07012345678", none, none, none, some "1001", [], none, false, none, none, none, true⟩

/-- Calls from numbers that start with 02 are blocked. -/
def capitalInput : DialplanInput :=
  ⟨[deskDid], [], none, [], [], [], [⟨"PREFIX", "02", true⟩], []⟩

/-- A channel that shows the number 0212345678. -/
def capitalCaller : Nat → Text → Text := fun _ name =>
  match JsText.afterPrefix? "CALLERID(num):0:".toList name with
  | some count => "0212345678".toList.take (natOf count)
  | none => "0212345678".toList

theorem showsCaller_capitalCaller : ShowsCaller capitalCaller [] "0212345678" := by
  refine ⟨fun moment => rfl, fun moment n => ?_⟩
  have hname : JsText.afterPrefix? "CALLERID(num):0:".toList (callerStart n) = some (natText n) :=
    JsText.afterPrefix?_eq_some.mpr (String.toList_append ..)
  rw [List.lookup_nil, Option.getD_none, capitalCaller, hname]
  simp only [natOf_natText]

def deskCall : State :=
  ⟨⟨inboundMain, "07012345678".toList, 1⟩, [], ⟨[], [], [], []⟩, [], []⟩

theorem render_capitalInput : ∃ contexts, renderContexts capitalInput = .ok contexts ∧
    contexts.dids.map Block.exten = ["07012345678".toList] := by
  have hok : ((renderContexts capitalInput).toOption.map (·.dids.map Block.exten)) =
      some ["07012345678".toList] := by decide
  cases hrender : renderContexts capitalInput with
  | error e =>
    rw [hrender] at hok
    cases hok
  | ok contexts =>
    rw [hrender] at hok
    exact ⟨contexts, rfl, Option.some.inj hok⟩

theorem capital_caller_stopped : ∃ contexts, renderContexts capitalInput = .ok contexts ∧
    ∃ t : State, LeadsVia (step ((contexts.sections fun _ _ => 0).flatMap Section.entries)
        capitalCaller)
      (Unrouted ((contexts.sections fun _ _ => 0).flatMap Section.entries)) deskCall (.inl t) ∧
      t.pos = blockedPos := by
  obtain ⟨contexts, hrender, hdids⟩ := render_capitalInput
  have hblock : ∃ block, renderDidExtension deskDid [] [] [⟨"PREFIX", "02", true⟩] [] =
      .ok (some block) := ⟨_, rfl⟩
  obtain ⟨block, hblock⟩ := hblock
  have hfor : extenFor ((contexts.sections fun _ _ => 0).flatMap Section.entries) inboundMain
      "07012345678".toList = some "07012345678".toList := by
    obtain ⟨first, hfirst, hexten⟩ := List.mem_map.mp
      (show "07012345678".toList ∈ contexts.dids.map Block.exten by rw [hdids]; simp)
    have hinbound : contexts.inbound ∈ contexts.sections fun _ _ => 0 := by simp [Contexts.sections]
    have hmem := mem_extensOf hinbound hfirst
    rw [hexten] at hmem
    exact bestExten_literal rfl hmem
  exact ⟨contexts, hrender, (blocked_callers_stopped_iff _ hrender (List.mem_singleton_self deskDid)
    hblock (by decide) (by decide) hfor rfl showsCaller_capitalCaller).mpr
      ⟨_, List.mem_singleton_self _, rfl, by decide⟩⟩

end Capital

end KasterCti.Renderers
