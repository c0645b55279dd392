import KasterCti.OutboundRules.Sanitizer
import Mathlib.Data.List.Find
import KasterCti.Renderers.OutboundCalls

/-!
# The preview of caller id rules

`outbound-rules.service.ts` shows which rule a number gets: the first one that matches, by
priority and then by age. The PBX goes by the rendered context, where the most specific
extension wins and the priority decides between rules of one extension only.

Results:
1. `cidRuleBlocks_find`: the first block that passes a test is the one of the first rule.
2. `preview_and_pbx`: what the preview and the PBX show, and when they show the same.
3. `priority_is_not_specificity`: two rules for which they show different caller ids.
-/

namespace KasterCti.OutboundRules

open Dialplan Machine
open ArsFlow (plainStep given)
open Renderers
open Common (leadThen)

/-! ## Stored rules -/

structure OutboundRuleRow where
  ruleId : String
  createdAt : Int
  rule : OutboundCallerIdRuleInput
deriving DecidableEq

/-- `orderBy: [{ priority: 'asc' }, { createdAt: 'asc' }]`. -/
def OutboundRuleRow.Before (a b : OutboundRuleRow) : Prop :=
  a.rule.priority < b.rule.priority ∨
    a.rule.priority = b.rule.priority ∧ a.createdAt ≤ b.createdAt

instance : DecidableRel OutboundRuleRow.Before :=
  fun _ _ => inferInstanceAs (Decidable (_ ∨ _))

/-- `findMany({ where: { enabled: true }, orderBy })`. -/
def enabledRows (rows : List OutboundRuleRow) : List OutboundRuleRow :=
  (rows.filter (·.rule.enabled)).insertionSort OutboundRuleRow.Before

/-! ## The preview -/

structure TestOutboundRuleDto where
  inputNumber : String
  branchId : Option String

structure EvaluatedRule where
  ruleId : String
  matched : Bool
  callerIdNumber : String
  displayName : Option String
  matchType : OutboundCallerIdRuleMatchType
  sourceNumberPattern : String
  priority : Int
  branchId : Option String

structure OutboundRuleTest where
  input : String
  winner : Option EvaluatedRule
  candidates : List EvaluatedRule

section Service
variable (regexTest : String → String → Option Bool)

def evaluate (inputNumber : String) (row : OutboundRuleRow) : EvaluatedRule :=
  ⟨row.ruleId,
    matchSourceNumber regexTest row.rule.matchType row.rule.sourceNumberPattern inputNumber,
    row.rule.callerIdNumber, row.rule.displayName, row.rule.matchType,
    row.rule.sourceNumberPattern, row.rule.priority, row.rule.branchId⟩

/-- `OR: [{ branchId }, { branchId: null }]`, when a branch is asked for. -/
def inBranch (branchId : Option String) (row : OutboundRuleRow) : Bool :=
  match given branchId with
  | none => true
  | some branchId => row.rule.branchId = some branchId || row.rule.branchId = none

def test (rows : List OutboundRuleRow) (dto : TestOutboundRuleDto) : Except String OutboundRuleTest :=
  if dto.inputNumber.toList.any (fun c => c = '\r' ∨ c = '\n') then
    .error "inputNumber 가 유효하지 않습니다."
  else
    let rules := enabledRows (rows.filter (inBranch dto.branchId))
    let evaluated := rules.map (evaluate regexTest dto.inputNumber)
    .ok ⟨dto.inputNumber, evaluated.find? (·.matched), evaluated⟩

end Service

/-- The caller id that the preview promises: that of the winner, or the default one. -/
def OutboundRuleTest.callerId (result : OutboundRuleTest) (defaultCallerId : Option String) :
    Option String :=
  match result.winner with
  | some winner => some winner.callerIdNumber
  | none => given defaultCallerId

/-! ## The context -/

def fetchOutboundCallerIdRules (rows : List OutboundRuleRow) : List OutboundCallerIdRuleInput :=
  (enabledRows rows).map OutboundRuleRow.rule

/-- The extension of the rule passes the test. -/
def extenPasses (p : Text → Bool) (rule : OutboundCallerIdRuleInput) : Bool :=
  (ruleToDialplanExten rule).any (fun exten => p exten.toList)

/-- The caller id that an extension of the context sets: that of the first rule with this
extension, or the default one. -/
def contextCallerId (defaultCallerId : Option String) (rules : List OutboundCallerIdRuleInput)
    (exten : Text) : Option String :=
  match rules.find? (extenPasses (fun name => name = exten)) with
  | some rule => some rule.callerIdNumber
  | none => given defaultCallerId

theorem exists_of_rel_some {α β : Type} {R : α → β → Prop} {a : α} {found : Option β}
    (h : Option.Rel R (some a) found) : ∃ b, found = some b ∧ R a b := by
  cases h with
  | some hab => exact ⟨_, rfl, hab⟩

theorem eq_none_of_rel {α β : Type} {R : α → β → Prop} {found : Option β}
    (h : Option.Rel R none found) : found = none := by
  cases h
  rfl

/-- The block of a rule. -/
def BlockOf (rule : OutboundCallerIdRuleInput) (block : Block) : Prop :=
  ∃ exten noop shown, ruleToDialplanExten rule = some exten ∧
    block = callerIdBlock exten noop rule.callerIdNumber shown

/-- The first block that passes a test is the one of the first rule that does. -/
theorem cidRuleBlocks_find {p : Text → Bool} (hempty : p [] = false) {seenPatterns : List String}
    (hseen : ∀ exten ∈ seenPatterns, p exten.toList = false)
    {rules : List OutboundCallerIdRuleInput} {blocks : List Block}
    (h : cidRuleBlocks seenPatterns rules = .ok blocks) :
    Option.Rel BlockOf (rules.find? (extenPasses p)) (blocks.find? (fun block => p block.exten)) := by
  induction rules generalizing seenPatterns blocks with
  | nil =>
    rw [← pure_eq_ok.mp h]
    exact .none
  | cons rule rules ih =>
    unfold cidRuleBlocks at h
    split at h
    · rename_i hnone
      have hfails : extenPasses p rule = false := by
        cases hexten : ruleToDialplanExten rule with
        | none => rw [extenPasses, hexten]; rfl
        | some exten =>
          have hblank : exten = "" := by
            rw [hexten] at hnone
            by_contra hne
            simp [given, hne] at hnone
          rw [extenPasses, hexten, hblank]
          exact hempty
      rw [List.find?_cons, hfails]
      exact ih hseen h
    · rename_i exten hgiven
      have hexten : ruleToDialplanExten rule = some exten := (Option.filter_eq_some_iff.mp hgiven).1
      have hpasses : extenPasses p rule = p exten.toList := by
        rw [extenPasses, hexten]
        rfl
      split at h
      · rename_i hold
        rw [List.find?_cons, hpasses, hseen exten hold]
        exact ih hseen h
      · obtain ⟨-, -, h⟩ := bind_eq_ok.mp h
        obtain ⟨-, -, h⟩ := bind_eq_ok.mp h
        obtain ⟨rest, hrest, h⟩ := bind_eq_ok.mp h
        rw [← pure_eq_ok.mp h, List.find?_cons, List.find?_cons, hpasses,
          show (callerIdBlock exten _ rule.callerIdNumber _).exten = exten.toList from rfl]
        cases hp : p exten.toList with
        | true => exact .some ⟨exten, _, _, hexten, rfl⟩
        | false => exact ih (List.forall_mem_cons.mpr ⟨hp, hseen⟩) hrest

theorem mem_enabledRows {rows : List OutboundRuleRow} {row : OutboundRuleRow} :
    row ∈ enabledRows rows ↔ row ∈ rows ∧ row.rule.enabled = true := by
  rw [enabledRows, List.mem_insertionSort, List.mem_filter]

instance : Std.Total OutboundRuleRow.Before where
  total a b := by
    unfold OutboundRuleRow.Before
    omega

instance : IsTrans OutboundRuleRow OutboundRuleRow.Before where
  trans a b c hab hbc := by
    unfold OutboundRuleRow.Before at *
    omega

/-- The renderer finds the rules in the order it would bring them into. -/
theorem renderer_order {rows : List OutboundRuleRow}
    (hexpressed : ∀ row ∈ rows, row.rule.enabled = true → row.rule.matchType ≠ .regex) :
    ((fetchOutboundCallerIdRules rows).filter
        (fun rule => rule.enabled && rule.matchType ≠ .regex)).insertionSort
      (fun a b => a.priority ≤ b.priority) = fetchOutboundCallerIdRules rows := by
  have hfilter : (fetchOutboundCallerIdRules rows).filter
      (fun rule => rule.enabled && rule.matchType ≠ .regex) = fetchOutboundCallerIdRules rows := by
    rw [List.filter_eq_self]
    intro rule hrule
    obtain ⟨row, hrow, rfl⟩ := List.mem_map.mp hrule
    obtain ⟨hmem, henabled⟩ := mem_enabledRows.mp hrow
    simp [henabled, hexpressed row hmem henabled]
  rw [hfilter]
  refine List.Pairwise.insertionSort_eq ?_
  refine List.pairwise_map.mpr ((List.pairwise_insertionSort _ _).imp ?_)
  rintro a b (hlt | ⟨heq, -⟩)
  · exact hlt.le
  · exact heq.le

/-- A block that sets the caller id, or that leaves it as it was. -/
inductive Shows (block : Block) : Option String → Prop
  | sets {exten noop num name : String} : block = callerIdBlock exten noop num name →
      Shows block (some num)
  | leaves {noop : String} : block.code = [plainStep "NoOp" noop, plainStep "Return" ""] →
      Shows block none

/-- The blocks of the rules, and the fallback behind them. -/
structure CidContext (defaultCallerId : Option String) (rules : List OutboundCallerIdRuleInput)
    (blocks : List Block) (fallback : Block) : Prop where
  blocks : cidRuleBlocks [] rules = .ok blocks
  exten : fallback.exten = "_X.".toList
  shows : Shows fallback (given defaultCallerId)

theorem cidContext_of_render {rows : List OutboundRuleRow} {defaultCallerId : Option String}
    {name : String} {sec : Section}
    (hexpressed : ∀ row ∈ rows, row.rule.enabled = true → row.rule.matchType ≠ .regex)
    (h : renderOutboundCidRules name defaultCallerId (fetchOutboundCallerIdRules rows) =
      .ok (some sec)) :
    ∃ blocks fallback, sec = ⟨name.toList, blocks ++ [fallback]⟩ ∧
      CidContext defaultCallerId (fetchOutboundCallerIdRules rows) blocks fallback := by
  unfold renderOutboundCidRules at h
  rw [renderer_order hexpressed] at h
  dsimp only at h
  split at h
  · cases pure_eq_ok.mp h
  · obtain ⟨blocks, hblocks, h⟩ := bind_eq_ok.mp h
    obtain ⟨fallback, hfallback, h⟩ := bind_eq_ok.mp h
    refine ⟨blocks, fallback, (Option.some.inj (pure_eq_ok.mp h)).symm, hblocks, ?_, ?_⟩
    · unfold cidFallback at hfallback
      split at hfallback
      · obtain ⟨-, -, hfallback⟩ := bind_eq_ok.mp hfallback
        rw [← pure_eq_ok.mp hfallback]
        rfl
      · rw [← pure_eq_ok.mp hfallback]
    · unfold cidFallback at hfallback
      split at hfallback
      · rename_i callerId hgiven
        obtain ⟨-, -, hfallback⟩ := bind_eq_ok.mp hfallback
        rw [← pure_eq_ok.mp hfallback, hgiven]
        exact .sets rfl
      · rename_i hgiven
        rw [← pure_eq_ok.mp hfallback, hgiven]
        exact .leaves rfl

section Context
variable {defaultCallerId : Option String} {rules : List OutboundCallerIdRuleInput}
  {blocks : List Block} {fallback : Block}

/-- The block of an extension that is run shows the caller id of the context. -/
theorem CidContext.find (h : CidContext defaultCallerId rules blocks fallback) (exten : Text)
    (hne : exten ≠ []) (hmem : exten ∈ (blocks ++ [fallback]).map Block.exten) :
    ∃ block, (blocks ++ [fallback]).find? (fun block => block.exten = exten) = some block ∧
      Shows block (contextCallerId defaultCallerId rules exten) := by
  have hfind := cidRuleBlocks_find (p := fun name => name = exten)
    (decide_eq_false (Ne.symm hne)) (by simp) h.blocks
  rw [List.find?_append, contextCallerId]
  cases hrule : rules.find? (extenPasses (fun name => name = exten)) with
  | some rule =>
    rw [hrule] at hfind
    obtain ⟨block, hblock, name, noop, shown, -, hcode⟩ := exists_of_rel_some hfind
    exact ⟨block, by rw [hblock]; rfl, .sets hcode⟩
  | none =>
    rw [hrule] at hfind
    have hnone : blocks.find? (fun block => block.exten = exten) = none := eq_none_of_rel hfind
    have hlast : fallback.exten = exten := by
      obtain ⟨block, hblock, hexten⟩ := List.mem_map.mp hmem
      rcases List.mem_append.mp hblock with hblock | hblock
      · exact absurd (decide_eq_true hexten) (List.find?_eq_none.mp hnone block hblock)
      · obtain rfl := List.mem_singleton.mp hblock
        exact hexten
    refine ⟨fallback, ?_, h.shows⟩
    rw [hnone, Option.none_or, List.find?_cons, hlast, decide_eq_true rfl]

end Context

/-! ## Runs -/

/-- The number that the call shows. -/
def shownCallerId (s : State) : Option Text := s.vars.lookup "CALLERID(num)".toList

section Runs
variable {dialplan : List Entry} {world : Nat → Text → Text} {s : State} {back : Pos}
  {returns : List Pos}

theorem step_return (hreturns : s.returns = back :: returns)
    (hcode : stepAt dialplan s.pos = some (plainStep "Return" "")) :
    step dialplan world s = .inl { s.visit none with pos := back, returns := returns } := by
  rw [step_at hcode, show appOf (plainStep "Return" "").app = .return from rfl]
  simp only [State.apply, State.basic, State.visit, hreturns]
  rfl

theorem step_setCallerId (world : Nat → Text → Text) (s : State) (name value : String)
    (hdollar : '$' ∉ (name ++ "=").toList) (hequals : '=' ∉ name.toList)
    (hcode : stepAt dialplan s.pos = some (plainStep "Set" (name ++ "=" ++ value))) :
    step dialplan world s = .inl ((s.visit none).setVar name.toList
      (expand ((s.visit none).lookup world) value.toList)).advance := by
  refine step_set hcode rfl hequals ?_
  have htext : (plainStep "Set" (name ++ "=" ++ value)).args =
      (name ++ "=").toList ++ value.toList := by
    simp [plainStep]
  have hexpand : ∀ lookup, expand lookup ((name ++ "=").toList ++ value.toList) =
      (name ++ "=").toList ++ expand lookup value.toList :=
    fun lookup => expand_prefix lookup hdollar _
  rw [htext, hexpand, String.toList_append, List.append_assoc]
  rfl

/-- A call comes back from a block with the caller id that the block shows. -/
theorem comes_back_showing {block : Block} {callerId : Option String}
    (hshows : Shows block callerId) (hplain : ∀ num, callerId = some num → '$' ∉ num.toList)
    (hreturns : s.returns = back :: returns) (hcode : CodeAt dialplan s.pos block.code) :
    ∃ t, Comes (step dialplan world) s (.inl t) ∧ t.pos = back ∧ t.returns = returns ∧
      shownCallerId t = (callerId.map String.toList).or (shownCallerId s) := by
  cases hshows with
  | @sets exten noop num name hblock =>
    rw [hblock, callerIdBlock_code] at hcode
    obtain ⟨hnoop, hnum, hname, hreturn, -⟩ := hcode
    have hfirst : step dialplan world s = .inl (s.visit none).advance := step_pass hnoop rfl
    have hsecond : step dialplan world (s.visit none).advance = .inl
        (((s.visit none).advance.visit none).setVar "CALLERID(num)".toList num.toList).advance := by
      rw [step_setCallerId world _ "CALLERID(num)" num (by decide) (by decide) hnum,
        expand_plain _ (hplain num rfl)]
    have hthird := step_setCallerId world
      (((s.visit none).advance.visit none).setVar "CALLERID(num)".toList num.toList).advance
      "CALLERID(name)" name (by decide) (by decide) hname
    refine ⟨_, (Comes.next hfirst (.next hsecond (.next hthird
      (.inr (.one (step_return hreturns hreturn)))))), rfl, rfl, ?_⟩
    rfl
  | @leaves noop hblock =>
    rw [hblock] at hcode
    obtain ⟨hnoop, hreturn, -⟩ := hcode
    have hfirst : step dialplan world s = .inl (s.visit none).advance := step_pass hnoop rfl
    exact ⟨_, .next hfirst (.inr (.one (step_return hreturns hreturn))), rfl, rfl, rfl⟩

end Runs

/-! ## Agreement -/

section Agreement
variable {regexTest : String → String → Option Bool} {rows : List OutboundRuleRow} {number : Text}

/-- The extension of the rule is for the number. -/
def reaches (number : Text) (rule : OutboundCallerIdRuleInput) : Bool :=
  extenPasses (fun name => matchesExten name number) rule

/-- No extension of the context that is for the number is more specific than the rule's. -/
def NoneMoreSpecific (names : List Text) (number : Text) (rule : OutboundCallerIdRuleInput) : Prop :=
  ∀ exten, ruleToDialplanExten rule = some exten → ∀ name ∈ names,
    matchesExten name number = true → betterExten exten.toList name = exten.toList

theorem exten_of_validated {rule : OutboundCallerIdRuleInput} (h : Validated regexTest rule) :
    ∃ exten, ruleToDialplanExten rule = some exten := by
  unfold ruleToDialplanExten
  cases hkind : rule.matchType with
  | regex => exact absurd hkind h.expressed
  | _ => exact ⟨_, rfl⟩

/-- The preview of a number is found by the extensions of the rules. -/
theorem test_eq (hvalid : ∀ row ∈ rows, row.rule.enabled = true → Validated regexTest row.rule)
    (halike : ∀ row ∈ rows, row.rule.enabled = true → ReadsAlike number row.rule)
    (hdigits : ∀ c ∈ number, isDigit c = true) :
    test regexTest rows ⟨String.ofList number, none⟩ = .ok ⟨String.ofList number,
      ((enabledRows rows).find? (fun row => reaches number row.rule)).map
        (evaluate regexTest (String.ofList number)),
      (enabledRows rows).map (evaluate regexTest (String.ofList number))⟩ := by
  have hnewline : (String.ofList number).toList.any (fun c => c = '\r' ∨ c = '\n') = false := by
    rw [String.toList_ofList, List.any_eq_false]
    intro c hc
    simp [ne_of_isDigit (hdigits c hc) (show isDigit '\r' = false from rfl),
      ne_of_isDigit (hdigits c hc) (show isDigit '\n' = false from rfl)]
  have hrows : rows.filter (inBranch none) = rows := List.filter_eq_self.mpr (fun _ _ => rfl)
  have hsame : ∀ row ∈ enabledRows rows,
      (evaluate regexTest (String.ofList number) row).matched = reaches number row.rule := by
    intro row hrow
    obtain ⟨hmem, henabled⟩ := mem_enabledRows.mp hrow
    obtain ⟨exten, hexten⟩ := exten_of_validated (hvalid row hmem henabled)
    rw [reaches, extenPasses, hexten]
    exact matchSourceNumber_eq (hvalid row hmem henabled) (halike row hmem henabled) hdigits hexten
  have hwinner : ((enabledRows rows).map (evaluate regexTest (String.ofList number))).find?
      (·.matched) = ((enabledRows rows).find? (fun row => reaches number row.rule)).map
        (evaluate regexTest (String.ofList number)) := by
    rw [List.find?_map]
    exact congrArg _ (List.find?_congr hsame)
  rw [test, hnewline, if_neg (by decide), hrows]
  dsimp only
  rw [hwinner]

/-- A test that a found element passes, and that is no weaker, finds the element too. -/
theorem find?_narrow {α : Type} {p q : α → Bool} {l : List α} {a : α} (h : l.find? q = some a)
    (ha : p a = true) (hweaker : ∀ b, p b = true → q b = true) : l.find? p = some a := by
  obtain ⟨-, before, after, rfl, hno⟩ := List.find?_eq_some_iff_append.mp h
  refine List.find?_eq_some_iff_append.mpr ⟨ha, before, after, rfl, ?_⟩
  intro b hb
  have hfails := hno b hb
  cases hp : p b with
  | false => rfl
  | true => rw [hweaker b hp] at hfails; cases hfails

theorem find?_fetch (p : OutboundCallerIdRuleInput → Bool) :
    (fetchOutboundCallerIdRules rows).find? p =
      ((enabledRows rows).find? (fun row => p row.rule)).map OutboundRuleRow.rule := by
  rw [fetchOutboundCallerIdRules, List.find?_map]
  rfl

/-- The rules of the context have numbers for caller ids. -/
theorem plain_contextCallerId
    (hvalid : ∀ row ∈ rows, row.rule.enabled = true → Validated regexTest row.rule)
    {defaultCallerId : Option String}
    (hdefault : ∀ callerId, given defaultCallerId = some callerId → isCallerId callerId = true)
    {exten : Text} {num : String}
    (h : contextCallerId defaultCallerId (fetchOutboundCallerIdRules rows) exten = some num) :
    '$' ∉ num.toList := by
  unfold contextCallerId at h
  split at h
  · rename_i rule hrule
    obtain ⟨row, hrow, rfl⟩ := List.mem_map.mp (List.mem_of_find?_eq_some hrule)
    obtain ⟨hmem, henabled⟩ := mem_enabledRows.mp hrow
    obtain rfl := Option.some.inj h
    exact notMem_of_isNumberText (hvalid row hmem henabled).isCallerId rfl
  · exact notMem_of_isNumberText (hdefault num h) rfl

/-- The preview goes by priority and age among the rules whose extensions are for the number,
the PBX by the most specific of these extensions and the fallback. They show the same caller
id when none of them is more specific than that of the rule which the preview finds. -/
theorem preview_and_pbx
    (hvalid : ∀ row ∈ rows, row.rule.enabled = true → Validated regexTest row.rule)
    (halike : ∀ row ∈ rows, row.rule.enabled = true → ReadsAlike number row.rule)
    (hdigits : ∀ c ∈ number, isDigit c = true) (hlength : 2 ≤ number.length)
    {defaultCallerId : Option String}
    (hdefault : ∀ callerId, given defaultCallerId = some callerId → isCallerId callerId = true)
    {sections : List Section} (hnames : (sections.map Section.context).Nodup) {sec : Section}
    (hsec : sec ∈ sections)
    (hrender : renderOutboundCidRules "outbound-cid-rules" defaultCallerId
      (fetchOutboundCallerIdRules rows) = .ok (some sec)) :
    ∃ result best, test regexTest rows ⟨String.ofList number, none⟩ = .ok result ∧
      result.winner = ((enabledRows rows).find? (fun row => reaches number row.rule)).map
        (evaluate regexTest (String.ofList number)) ∧
      extenFor (sections.flatMap Section.entries) "outbound-cid-rules".toList number = some best ∧
      (∀ (world : Nat → Text → Text) (s : State) (back : Pos) (returns : List Pos),
        s.pos = ⟨"outbound-cid-rules".toList, number, 1⟩ → s.returns = back :: returns →
        ∃ t, Comes (step (sections.flatMap Section.entries) world) s (.inl t) ∧ t.pos = back ∧
          t.returns = returns ∧ shownCallerId t =
            ((contextCallerId defaultCallerId (fetchOutboundCallerIdRules rows) best).map
              String.toList).or (shownCallerId s)) ∧
      ((∀ row, (enabledRows rows).find? (fun row => reaches number row.rule) = some row →
          NoneMoreSpecific (extensOf (sections.flatMap Section.entries)
            "outbound-cid-rules".toList) number row.rule) →
        contextCallerId defaultCallerId (fetchOutboundCallerIdRules rows) best =
          result.callerId defaultCallerId) := by
  have hexpressed : ∀ row ∈ rows, row.rule.enabled = true → row.rule.matchType ≠ .regex :=
    fun row hrow henabled => (hvalid row hrow henabled).expressed
  obtain ⟨blocks, fallback, rfl, hcontext⟩ := cidContext_of_render hexpressed hrender
  -- the fallback is for every number of two digits
  have hfallback : matchesExten fallback.exten number = true := by
    have hopen : matchesExten "_X.".toList number = leadThen [""] 2 number.length number :=
      matches_open (k := 1) rfl hdigits
    rw [hcontext.exten, hopen]
    simpa [leadThen, List.isPrefixOf] using hlength
  have hnonempty : matchesExten [] number = false := by
    have hne : number ≠ [] := by
      rintro rfl
      cases hlength
    simpa [matchesExten, patternOf] using Ne.symm hne
  obtain ⟨best, hbest⟩ := exists_bestExten (mem_extensOf hsec
    (List.mem_append.mpr (.inr (List.mem_singleton_self fallback)))) hfallback
  have hmatch := (bestExten_some hbest).2
  refine ⟨_, best, test_eq hvalid halike hdigits, rfl, hbest, ?_, ?_⟩
  · intro world s back returns hpos hreturns
    obtain ⟨block, hfind, hshows⟩ := hcontext.find best
      (by rintro rfl; rw [hnonempty] at hmatch; cases hmatch)
      (extensOf_sections hnames hsec (bestExten_some hbest).1)
    obtain ⟨rest, hfirst⟩ := first_of_sections hnames hsec hfind
    have hcode : CodeAt (sections.flatMap Section.entries) s.pos block.code := by
      rw [hpos]
      refine codeAt_of_getElem ?_
      intro i c hc
      rw [Nat.add_comm]
      exact stepAt_of_first hfirst hbest hc
    exact comes_back_showing hshows (fun num => plain_contextCallerId hvalid hdefault) hreturns hcode
  · intro hspecific
    have hrules : (fetchOutboundCallerIdRules rows).find? (reaches number) =
        ((enabledRows rows).find? (fun row => reaches number row.rule)).map OutboundRuleRow.rule :=
      find?_fetch _
    have hreaches : ∀ rule, extenPasses (fun name => name = best) rule = true →
        reaches number rule = true := by
      intro rule hrule
      obtain ⟨exten, hexten, hsame⟩ := (Option.any_eq_true _ _).mp hrule
      obtain rfl : exten.toList = best := by simpa using hsame
      rw [reaches, extenPasses, hexten]
      exact hmatch
    cases hwinner : (enabledRows rows).find? (fun row => reaches number row.rule) with
    | none =>
      rw [hwinner] at hrules
      have hnone : (fetchOutboundCallerIdRules rows).find?
          (extenPasses (fun name => name = best)) = none := by
        rw [List.find?_eq_none]
        intro rule hmem hpasses
        exact List.find?_eq_none.mp hrules rule hmem (hreaches rule hpasses)
      rw [contextCallerId, hnone]
      rfl
    | some row =>
      rw [hwinner] at hrules
      -- its extension is the first one of the context that is for the number
      have hfind := cidRuleBlocks_find (p := fun name => matchesExten name number) hnonempty
        (by simp) hcontext.blocks
      rw [show (fetchOutboundCallerIdRules rows).find?
        (extenPasses (fun name => matchesExten name number)) = some row.rule from hrules] at hfind
      obtain ⟨block, hblock, exten, noop, shown, hexten, rfl⟩ := exists_of_rel_some hfind
      have hfirst : (extensOf (sections.flatMap Section.entries)
          "outbound-cid-rules".toList).find? (fun name => matchesExten name number) =
            some exten.toList := by
        refine (find?_extensOf hnames hsec _).trans ?_
        rw [List.find?_map, List.find?_append,
          show blocks.find? ((fun name => matchesExten name number) ∘ Block.exten) = _ from hblock]
        rfl
      have hchosen := bestExten_of_first hfirst (hspecific row hwinner exten hexten)
      obtain rfl : exten.toList = best := Option.some.inj (hchosen.symm.trans hbest)
      have hrule : (fetchOutboundCallerIdRules rows).find?
          (extenPasses (fun name => name = exten.toList)) = some row.rule := by
        refine find?_narrow hrules ?_ hreaches
        rw [extenPasses, hexten]
        simp
      rw [contextCallerId, hrule]
      rfl

end Agreement

/-! ## Two rules -/

def noRegex : String → String → Option Bool := fun _ _ => none

/-- All numbers that start with 0 first, those that start with 02 second. -/
def exCidRules : List OutboundRuleRow :=
  [⟨"rule-1", 1, ⟨.leadingDigits, "0", "0311112222", none, 1, true, none⟩⟩,
    ⟨"rule-2", 2, ⟨.leadingDigits, "02", "0233334444", none, 2, true, none⟩⟩]

def exCidCall (number : String) : State :=
  ⟨⟨"outbound-cid-rules".toList, number.toList, 1⟩, [], ⟨[], [], [], []⟩,
    [⟨"outbound-main-1001".toList, number.toList, 4⟩], []⟩

theorem validated_exCidRules :
    ∀ row ∈ exCidRules, row.rule.enabled = true → Validated noRegex row.rule := by
  intro row hrow _
  simp only [exCidRules, List.mem_cons, List.not_mem_nil, or_false] at hrow
  rcases hrow with rfl | rfl
  · exact ⟨by decide, by decide, by decide⟩
  · exact ⟨by decide, by decide, by decide⟩

/-- The preview promises the caller id of the rule with the lower priority, the PBX shows that
of the longer prefix. -/
theorem priority_is_not_specificity :
    (∀ row ∈ exCidRules, row.rule.enabled = true → Validated noRegex row.rule) ∧
    (∀ row ∈ exCidRules, row.rule.enabled = true ∧ row.rule.branchId = none) ∧
    ∃ sec result t, renderOutboundCidRules "outbound-cid-rules" (some "0215881000")
        (fetchOutboundCallerIdRules exCidRules) = .ok (some sec) ∧
      test noRegex exCidRules ⟨"0212345678", none⟩ = .ok result ∧
      result.callerId (some "0215881000") = some "0311112222" ∧
      Comes (step ([sec].flatMap Section.entries) (fun _ _ => [])) (exCidCall "0212345678")
        (.inl t) ∧
      t.pos = ⟨"outbound-main-1001".toList, "0212345678".toList, 4⟩ ∧
      shownCallerId t = some "0233334444".toList :=
  ⟨validated_exCidRules, by decide, _, _, _, rfl, rfl, by decide,
    comes_of_stateAfter (n := 4) rfl, rfl, by decide⟩

def exCidSection : Section :=
  ⟨"outbound-cid-rules".toList,
    [callerIdBlock "_0." "Outbound CID rule PREFIX prio=1" "0311112222" "0311112222",
      callerIdBlock "_02." "Outbound CID rule PREFIX prio=2" "0233334444" "0233334444",
      callerIdBlock "_X." "Outbound CID rule fallback" "0215881000" "0215881000"]⟩

theorem preview_and_pbx_exCidRules :
    ∃ result best t, renderOutboundCidRules "outbound-cid-rules" (some "0215881000")
        (fetchOutboundCallerIdRules exCidRules) = .ok (some exCidSection) ∧
      test noRegex exCidRules ⟨String.ofList "0311234567".toList, none⟩ = .ok result ∧
      Comes (step ([exCidSection].flatMap Section.entries) (fun _ _ => []))
        (exCidCall "0311234567") (.inl t) ∧
      shownCallerId t = ((contextCallerId (some "0215881000")
        (fetchOutboundCallerIdRules exCidRules) best).map String.toList).or none ∧
      contextCallerId (some "0215881000") (fetchOutboundCallerIdRules exCidRules) best =
        result.callerId (some "0215881000") := by
  have halike : ∀ row ∈ exCidRules, row.rule.enabled = true →
      ReadsAlike "0311234567".toList row.rule := by
    intro row hrow _
    simp only [exCidRules, List.mem_cons, List.not_mem_nil, or_false] at hrow
    rcases hrow with rfl | rfl
    · exact ⟨by decide, by decide⟩
    · exact ⟨by decide, by decide⟩
  have hdefault : ∀ callerId, given (some "0215881000") = some callerId →
      isCallerId callerId = true := by
    intro callerId h
    obtain rfl := Option.some.inj h
    decide
  have hnames : ([exCidSection].map Section.context).Nodup := by decide
  have hrender : renderOutboundCidRules "outbound-cid-rules" (some "0215881000")
      (fetchOutboundCallerIdRules exCidRules) = .ok (some exCidSection) := rfl
  obtain ⟨result, best, htest, -, -, hruns, hagrees⟩ :=
    preview_and_pbx validated_exCidRules halike (by decide) (by decide) hdefault hnames
      (List.mem_singleton_self exCidSection) hrender
  obtain ⟨t, hcomes, -, -, hshown⟩ := hruns (fun _ _ => []) (exCidCall "0311234567") _ [] rfl rfl
  refine ⟨result, best, t, hrender, htest, hcomes, hshown, hagrees ?_⟩
  intro row hrow exten hexten
  have hfirst : (enabledRows exCidRules).find?
      (fun row => reaches "0311234567".toList row.rule) = exCidRules.head? := by decide
  obtain rfl := Option.some.inj (hfirst.symm.trans hrow)
  obtain rfl := Option.some.inj hexten
  decide

end KasterCti.OutboundRules
