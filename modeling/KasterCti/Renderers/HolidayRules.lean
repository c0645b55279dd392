import Mathlib.Data.List.ReduceOption
import KasterCti.ArsFlow.ReadBack
import KasterCti.Library.Machine
import KasterCti.Renderers.Conditions
import KasterCti.Renderers.InboundRoutes

/-!
# Holidays, in the preview and in the dialplan

`holiday-rules.util.ts` decides whether a date is a holiday by the priority of the rules
that match it; `renderHolidayForwardingLines` emits the rules as a chain in which the
first match decides. `holiday_lines_follow_decision` says that the two agree.
-/

namespace KasterCti.Renderers

open Dialplan Lines Machine
open ArsFlow (plainStep labeledStep varRef given)

/-! ## The decision -/

/-- `HolidayRuleLike`: a rule with its name. -/
structure HolidayRuleLike extends HolidayRuleInput where
  ruleName : Option String

inductive HolidaySource
  | branch | tenant

structure HolidayDecision where
  isHoliday : Bool
  isWorkdayOverride : Bool
  matchedRuleName : Option String
  source : Option HolidaySource

def HolidayRuleInput.isOverride (rule : HolidayRuleInput) : Bool :=
  rule.ruleType = "WORKDAY_OVERRIDE"

/-- `!!branchId && rule.branchId === branchId`. -/
def isBranchRule (rule : HolidayRuleInput) (branchId : Option String) : Bool :=
  (given branchId).isSome && rule.branchId = branchId

def rulePriority (rule : HolidayRuleInput) (branchId : Option String) : Nat :=
  if isBranchRule rule branchId && rule.isOverride then 4
  else if isBranchRule rule branchId then 3
  else if rule.isOverride then 2
  else 1

/-- `date.slice(5, 10)`. -/
def monthDayOf (date : String) : String := String.ofList ((date.toList.drop 5).take 5)

/-- The rule is for the branch, or for all, and its date is the one given. -/
def matchesHoliday (date : String) (branchId : Option String) (rule : HolidayRuleInput) : Bool :=
  if (given rule.branchId).isSome && rule.branchId ≠ branchId then false
  else if rule.ruleType = "ANNUAL" then rule.monthDay = some (monthDayOf date)
  else rule.holidayDate = some date

/-- The sort keeps the order of rules with one priority. -/
def matchingRules (rules : List HolidayRuleLike) (date : String) (branchId : Option String) :
    List HolidayRuleLike :=
  ((rules.filter (·.isActive)).filter
    (fun rule => matchesHoliday date branchId rule.toHolidayRuleInput)).insertionSort
      (fun a b => rulePriority b.toHolidayRuleInput branchId ≤
        rulePriority a.toHolidayRuleInput branchId)

def resolveHolidayDecision (rules : List HolidayRuleLike) (date : String)
    (branchId : Option String) : HolidayDecision :=
  match matchingRules rules date branchId with
  | [] => ⟨false, false, none, none⟩
  | matched :: _ =>
    ⟨!matched.isOverride, matched.isOverride, matched.ruleName,
      some (if (given matched.branchId).isSome then .branch else .tenant)⟩

/-! ## The rule that decides -/

section Deciding
variable {did : DidInput} {date : String}

theorem branch_cases (did : DidInput) :
    (given did.branchId = none) ∨
      ∃ branchId, given did.branchId = some branchId ∧ did.branchId = some branchId := by
  cases hgiven : given did.branchId with
  | none => exact .inl rfl
  | some branchId => exact .inr ⟨branchId, rfl, (Option.filter_eq_some_iff.mp hgiven).1⟩

variable {rule : HolidayRuleInput}

theorem mem_orderedHolidayRules {rules : List HolidayRuleInput} :
    rule ∈ orderedHolidayRulesForDid did rules ↔ rule ∈ rules ∧ rule.isActive = true ∧
      (isBranchRule rule did.branchId = true ∨ given rule.branchId = none) := by
  have hsplit : ∀ p : Prop, (p ∧ rule.ruleType = "WORKDAY_OVERRIDE" ∨
      p ∧ ¬rule.ruleType = "WORKDAY_OVERRIDE") ↔ p := by
    intro p
    rw [← and_or_left]
    simp [em]
  unfold orderedHolidayRulesForDid
  rcases branch_cases did with hnone | ⟨branchId, hsome, heq⟩
  · simp only [hnone, isBranchRule, List.filter_nil, List.nil_append, List.mem_append, ne_eq,
      List.mem_filter, decide_eq_true_eq, hsplit, Option.isNone_iff_eq_none, Option.isSome_none,
      Bool.false_and, Bool.false_eq_true, false_or]
    rw [and_assoc]
  · rw [heq] at hsome
    simp only [heq, hsome, isBranchRule, List.mem_append, List.mem_filter, decide_eq_true_eq,
      Option.isNone_iff_eq_none, Option.isSome_some, Bool.true_and, or_assoc, ne_eq, hsplit]
    rw [← and_or_left, and_assoc]

theorem pairwise_const {f : HolidayRuleInput → Nat} {l : List HolidayRuleInput} {k : Nat}
    (h : ∀ x ∈ l, f x = k) : l.Pairwise (fun a b => f b ≤ f a) :=
  List.pairwise_of_forall_mem_list (fun a ha b hb => by rw [h a ha, h b hb])

/-- A list with its overrides in front. -/
def overridesFirst (rules : List HolidayRuleInput) : List HolidayRuleInput :=
  rules.filter (fun rule => rule.ruleType = "WORKDAY_OVERRIDE") ++
    rules.filter (fun rule => rule.ruleType ≠ "WORKDAY_OVERRIDE")

/-- The rules of a branch have the priorities above two, those for all the others. -/
theorem pairwise_overridesFirst {rules : List HolidayRuleInput} {branchId : Option String}
    (own : Bool) (h : ∀ rule ∈ rules, isBranchRule rule branchId = own) :
    (overridesFirst rules).Pairwise
        (fun a b => rulePriority b branchId ≤ rulePriority a branchId) ∧
      ∀ rule ∈ overridesFirst rules, 2 < rulePriority rule branchId ↔ own = true := by
  have hover : ∀ rule ∈ rules.filter (fun rule => rule.ruleType = "WORKDAY_OVERRIDE"),
      rulePriority rule branchId = if own then 4 else 2 := by
    intro rule hrule
    obtain ⟨hmem, htype⟩ := List.mem_filter.mp hrule
    simp_all [rulePriority, HolidayRuleInput.isOverride]
  have hplain : ∀ rule ∈ rules.filter (fun rule => rule.ruleType ≠ "WORKDAY_OVERRIDE"),
      rulePriority rule branchId = if own then 3 else 1 := by
    intro rule hrule
    obtain ⟨hmem, htype⟩ := List.mem_filter.mp hrule
    simp_all [rulePriority, HolidayRuleInput.isOverride]
  refine ⟨List.pairwise_append.mpr ⟨pairwise_const hover, pairwise_const hplain, ?_⟩, ?_⟩
  · intro a ha b hb
    rw [hover a ha, hplain b hb]
    cases own <;> decide
  · intro rule hrule
    rcases List.mem_append.mp hrule with hrule | hrule
    · rw [hover rule hrule]
      cases own <;> decide
    · rw [hplain rule hrule]
      cases own <;> decide

/-- The rules of the DID's branch, as the chain picks them. -/
def branchRules (did : DidInput) (rules : List HolidayRuleInput) : List HolidayRuleInput :=
  match given did.branchId with
  | some branchId => (rules.filter (·.isActive)).filter (fun rule => rule.branchId = some branchId)
  | none => []

theorem isBranchRule_of_mem {rules : List HolidayRuleInput} (h : rule ∈ branchRules did rules) :
    isBranchRule rule did.branchId = true := by
  unfold branchRules at h
  rcases branch_cases did with hnone | ⟨branchId, hsome, heq⟩
  · rw [hnone] at h
    cases h
  · rw [hsome] at h
    rw [isBranchRule, hsome, heq, of_decide_eq_true (List.mem_filter.mp h).2]
    simp

theorem not_isBranchRule_of_given (h : given rule.branchId = none) :
    isBranchRule rule did.branchId = false := by
  rcases branch_cases did with hnone | ⟨branchId, hsome, heq⟩
  · simp [isBranchRule, hnone]
  · have hne : rule.branchId ≠ did.branchId := by
      intro hsame
      rw [hsame, hsome] at h
      cases h
    simp [isBranchRule, hne]

/-- The chain is in the order of the priorities. -/
theorem pairwise_orderedHolidayRules (did : DidInput) (rules : List HolidayRuleInput) :
    (orderedHolidayRulesForDid did rules).Pairwise
      (fun a b => rulePriority b did.branchId ≤ rulePriority a did.branchId) := by
  have hclasses : orderedHolidayRulesForDid did rules = overridesFirst (branchRules did rules) ++
      overridesFirst ((rules.filter (·.isActive)).filter fun rule => (given rule.branchId).isNone) := by
    rw [orderedHolidayRulesForDid, branchRules]
    cases given did.branchId <;> simp only [overridesFirst, List.append_assoc]
  rw [hclasses]
  obtain ⟨hbranch, habove⟩ := pairwise_overridesFirst true
    fun rule (hrule : rule ∈ branchRules did rules) => isBranchRule_of_mem hrule
  obtain ⟨htenant, hbelow⟩ := pairwise_overridesFirst false fun rule hrule =>
    not_isBranchRule_of_given (Option.isNone_iff_eq_none.mp (List.mem_filter.mp hrule).2)
  refine List.pairwise_append.mpr ⟨hbranch, htenant, fun a ha b hb => ?_⟩
  have hlow : ¬ 2 < rulePriority b did.branchId := mt (hbelow b hb).mp (by decide)
  exact (Nat.not_lt.mp hlow).trans (Nat.le_of_lt ((habove a ha).mpr rfl))

/-- The first rule of the chain that matches the date. -/
def decidingRule (did : DidInput) (date : String) (rules : List HolidayRuleInput) :
    Option HolidayRuleInput :=
  (orderedHolidayRulesForDid did rules).find? (matchesHoliday date did.branchId)

/-- A rule that matches is for the DID's branch or for all. -/
theorem scope_of_matches (h : matchesHoliday date did.branchId rule = true) :
    isBranchRule rule did.branchId = true ∨ given rule.branchId = none := by
  cases hgiven : given rule.branchId with
  | none => exact .inr rfl
  | some branchId =>
    refine .inl ?_
    unfold matchesHoliday at h
    by_cases heq : rule.branchId = did.branchId
    · rw [isBranchRule, ← heq, hgiven]
      simp
    · simp [hgiven, heq] at h

theorem mem_matchingRules {rules : List HolidayRuleLike} {rule : HolidayRuleLike} :
    rule ∈ matchingRules rules date did.branchId ↔
      rule ∈ rules ∧ rule.isActive = true ∧
        matchesHoliday date did.branchId rule.toHolidayRuleInput = true := by
  rw [matchingRules, List.mem_insertionSort, List.mem_filter, List.mem_filter, and_assoc]

/-- Among rules that match, the override is the one with an even priority. -/
theorem isOverride_iff_priority (rule : HolidayRuleInput) (branchId : Option String) :
    rule.isOverride = (rulePriority rule branchId % 2 == 0) := by
  unfold rulePriority
  cases isBranchRule rule branchId <;> cases rule.isOverride <;> rfl

theorem pairwise_matchingRules (rules : List HolidayRuleLike) (date : String)
    (branchId : Option String) : (matchingRules rules date branchId).Pairwise
      (fun a b => rulePriority b.toHolidayRuleInput branchId ≤
        rulePriority a.toHolidayRuleInput branchId) := by
  have htotal : Std.Total (fun a b : HolidayRuleLike =>
      rulePriority b.toHolidayRuleInput branchId ≤ rulePriority a.toHolidayRuleInput branchId) :=
    ⟨fun a b => Nat.le_total _ _⟩
  have htrans : IsTrans HolidayRuleLike (fun a b =>
      rulePriority b.toHolidayRuleInput branchId ≤ rulePriority a.toHolidayRuleInput branchId) :=
    ⟨fun a b c hab hbc => Nat.le_trans hbc hab⟩
  exact List.pairwise_insertionSort _ _

/-- The preview and the chain decide alike. -/
theorem isHoliday_eq_decidingRule (rules : List HolidayRuleLike) :
    (resolveHolidayDecision rules date did.branchId).isHoliday =
      (decidingRule did date (rules.map HolidayRuleLike.toHolidayRuleInput)).any
        (fun rule => !rule.isOverride) := by
  have hpairwise := pairwise_matchingRules rules date did.branchId
  have hchain := pairwise_orderedHolidayRules did (rules.map HolidayRuleLike.toHolidayRuleInput)
  unfold resolveHolidayDecision
  cases hmatching : matchingRules rules date did.branchId with
  | nil =>
    have hnone : decidingRule did date (rules.map HolidayRuleLike.toHolidayRuleInput) = none := by
      rw [decidingRule, List.find?_eq_none]
      intro rule hrule hmatches
      obtain ⟨hmem, hactive, -⟩ := mem_orderedHolidayRules.mp hrule
      obtain ⟨like, hlike, rfl⟩ := List.mem_map.mp hmem
      have hin := mem_matchingRules.mpr ⟨hlike, hactive, hmatches⟩
      rw [hmatching] at hin
      cases hin
    rw [hnone]
    rfl
  | cons matched rest =>
    obtain ⟨hmatched, hactive, hmatches⟩ := mem_matchingRules.mp
      (show matched ∈ matchingRules rules date did.branchId from hmatching ▸ List.mem_cons_self)
    have hordered : matched.toHolidayRuleInput ∈
        orderedHolidayRulesForDid did (rules.map HolidayRuleLike.toHolidayRuleInput) :=
      mem_orderedHolidayRules.mpr ⟨List.mem_map_of_mem hmatched, hactive, scope_of_matches hmatches⟩
    cases hfound : decidingRule did date (rules.map HolidayRuleLike.toHolidayRuleInput) with
    | none => exact absurd hmatches (List.find?_eq_none.mp hfound _ hordered)
    | some found =>
      -- both have the greatest priority of the rules that match
      have hle : rulePriority found did.branchId ≤
          rulePriority matched.toHolidayRuleInput did.branchId := by
        obtain ⟨hmem, hfoundActive, -⟩ :=
          mem_orderedHolidayRules.mp (List.mem_of_find?_eq_some hfound)
        obtain ⟨like, hlike, rfl⟩ := List.mem_map.mp hmem
        have hin := mem_matchingRules.mpr ⟨hlike, hfoundActive, List.find?_some hfound⟩
        rw [hmatching] at hin hpairwise
        rcases List.mem_cons.mp hin with rfl | hin
        · exact Nat.le_refl _
        · exact (List.pairwise_cons.mp hpairwise).1 _ hin
      have hge : rulePriority matched.toHolidayRuleInput did.branchId ≤
          rulePriority found did.branchId := by
        obtain ⟨-, before, after, hsplit, hno⟩ := List.find?_eq_some_iff_append.mp hfound
        rw [hsplit] at hordered hchain
        rcases List.mem_append.mp hordered with hbefore | hafter
        · have hnot := hno _ hbefore
          rw [hmatches] at hnot
          cases hnot
        · rcases List.mem_cons.mp hafter with heq | hafter
          · rw [heq]
          · exact (List.pairwise_cons.mp (List.pairwise_append.mp hchain).2.1).1 _ hafter
      have hsame := Nat.le_antisymm hle hge
      show (!matched.isOverride) = !found.isOverride
      rw [isOverride_iff_priority found did.branchId, hsame, ← isOverride_iff_priority]

end Deciding

/-! ## The lines -/

/-- `/^\d{4}-\d{2}-\d{2}$/`. -/
def isDateText (text : String) : Bool :=
  match text.toList with
  | [a, b, c, d, '-', e, f, '-', g, h] => [a, b, c, d, e, f, g, h].all isDigit
  | _ => false

/-- `/^\d{2}-\d{2}$/`. -/
def isMonthDayText (text : String) : Bool :=
  match text.toList with
  | [a, b, '-', c, d] => [a, b, c, d].all isDigit
  | _ => false

/-- A rule as the request is checked. -/
structure CheckedHoliday (rule : HolidayRuleInput) : Prop where
  ruleType : rule.ruleType ∈ ["DATE", "ANNUAL", "WORKDAY_OVERRIDE"]
  holidayDate : rule.holidayDate.all isDateText = true
  monthDay : rule.monthDay.all isMonthDayText = true

/-- A character of a date. -/
def isDateChar (c : Char) : Bool := isDigit c || c = '-'

theorem all_isDateChar_of_isDateText {text : String} (h : isDateText text = true) :
    text.toList.all isDateChar = true := by
  unfold isDateText at h
  split at h
  · rename_i a b c d e f g i heq
    simp only [List.all_cons, List.all_nil, Bool.and_eq_true] at h
    simp [heq, isDateChar, h]
  · cases h

theorem all_isDateChar_of_isMonthDayText {text : String} (h : isMonthDayText text = true) :
    text.toList.all isDateChar = true := by
  unfold isMonthDayText at h
  split at h
  · rename_i a b c d heq
    simp only [List.all_cons, List.all_nil, Bool.and_eq_true] at h
    simp [heq, isDateChar, h]
  · cases h

variable {date : String}

theorem monthDayOf_date (h : isDateText date = true) :
    (monthDayOf date).toList.all isDateChar = true := by
  unfold isDateText at h
  split at h
  · rename_i a b c d e f g i heq
    simp only [List.all_cons, List.all_nil, Bool.and_eq_true] at h
    rw [monthDayOf, String.toList_ofList, heq]
    simp [isDateChar, h]
  · cases h

/-- A condition on the date, up to its closing bracket. -/
theorem expand_dateIs (lookup : Text → Text) {format value : String}
    (hformat : ∀ c ∈ format.toList, c ≠ '$' ∧ c ≠ '\x7d' ∧ c ≠ ']')
    (hvalue : ∀ c ∈ value.toList, c ≠ '$' ∧ c ≠ '\x7d' ∧ c ≠ ']') (rest : Text) :
    expand lookup ((dateIs format value).toList ++ rest) =
      expandFrom lookup (evalExpr (quoted (lookup (strftime (lookup "EPOCH".toList) format.toList)) ++
        ['='] ++ quoted value.toList)) [] rest := by
  have htext : (dateIs format value).toList ++ rest =
      '$' :: '[' :: (['"'] ++ '$' :: '\x7b' :: ("STRFTIME(".toList ++ '$' :: '\x7b' ::
        ("EPOCH".toList ++ '\x7d' :: ((",,".toList ++ format.toList ++ [')']) ++
          '\x7d' :: (("\"=\"".toList ++ value.toList ++ ['"']) ++ ']' :: rest))))) := by
    simp [dateIs, isValue, varRef]
  rw [htext, expand, expandFrom_openExpr, expandFrom_frame lookup (by decide),
    expandFrom_strftime lookup hformat]
  simp only [put]
  rw [expandFrom_frame lookup (plain_equals hvalue), expandFrom_closeExpr]
  simp [put, quoted]

/-- The channel shows the date, at every moment of the call. -/
structure ShowsDate (world : Nat → Text → Text) (vars : List (Text × Text)) (date : String) :
    Prop where
  day : ∀ n epoch, (vars.lookup (strftime epoch "%Y-%m-%d".toList)).getD
    (world n (strftime epoch "%Y-%m-%d".toList)) = date.toList
  monthDay : ∀ n epoch, (vars.lookup (strftime epoch "%m-%d".toList)).getD
    (world n (strftime epoch "%m-%d".toList)) = (monthDayOf date).toList

/-- What the date is in a format of the renderer. -/
def shownDate (date format : String) : String :=
  if format = "%m-%d" then monthDayOf date else date

theorem ShowsDate.lookup {world : Nat → Text → Text} {s : State} (h : ShowsDate world s.vars date)
    {format : String} (hformat : format ∈ ["%m-%d", "%Y-%m-%d"]) (epoch : Text) :
    s.lookup world (strftime epoch format.toList) = (shownDate date format).toList := by
  have hne : strftime epoch format.toList ≠ "EXTEN".toList := by
    intro heq
    rw [strftime_eq] at heq
    exact absurd (congrArg List.head? heq) (by simp)
  rw [State.lookup, if_neg hne]
  simp only [List.mem_cons, List.not_mem_nil, or_false] at hformat
  rcases hformat with rfl | rfl
  · exact h.monthDay _ epoch
  · exact h.day _ epoch

theorem notMem_of_isDateChar {t : Text} (h : t.all isDateChar = true) {c : Char}
    (hc : isDateChar c = false) : c ∉ t := by
  intro hmem
  rw [List.all_eq_true] at h
  rw [h c hmem] at hc
  cases hc

theorem quote_notMem_shownDate (h : isDateText date = true) (format : String) :
    '"' ∉ (shownDate date format).toList := by
  unfold shownDate
  split
  · exact notMem_of_isDateChar (monthDayOf_date h) rfl
  · exact notMem_of_isDateChar (all_isDateChar_of_isDateText h) rfl

section Run
variable {dialplan : List Entry} {world : Nat → Text → Text} {s : State} {date : String}

/-- A line with a condition on the date. -/
theorem step_dateIs (hshows : ShowsDate world s.vars date) (hdate : isDateText date = true)
    {format value dest : String} (hformat : format ∈ ["%m-%d", "%Y-%m-%d"])
    (hvalue : value.toList.all isDateChar = true) (hne : dest ≠ "") (hplain : '$' ∉ dest.toList)
    (hcolon : ':' ∉ dest.toList)
    (hcode : stepAt dialplan s.pos =
      some (plainStep "GotoIf" (dateIs format value ++ "?" ++ dest))) :
    step dialplan world s = if shownDate date format = value then
        (s.visit none).goto dialplan dest.toList
      else .inl (s.visit none).advance := by
  have hquote := quote_notMem_shownDate hdate format
  have hclean : ∀ c ∈ format.toList, c ≠ '$' ∧ c ≠ '\x7d' ∧ c ≠ ']' := by
    simp only [List.mem_cons, List.not_mem_nil, or_false] at hformat
    rcases hformat with rfl | rfl <;> decide
  have hvalueClean : ∀ c ∈ value.toList, c ≠ '$' ∧ c ≠ '\x7d' ∧ c ≠ ']' := by
    intro c hc
    refine ⟨?_, ?_, ?_⟩
    · rintro rfl
      exact notMem_of_isDateChar hvalue rfl hc
    · rintro rfl
      exact notMem_of_isDateChar hvalue rfl hc
    · rintro rfl
      exact notMem_of_isDateChar hvalue rfl hc
  have hargs : expand ((s.visit none).lookup world)
      (plainStep "GotoIf" (dateIs format value ++ "?" ++ dest)).args =
      truth (decide (shownDate date format = value)) ++ '?' :: dest.toList := by
    have htext : (plainStep "GotoIf" (dateIs format value ++ "?" ++ dest)).args =
        (dateIs format value).toList ++ '?' :: dest.toList := by simp [plainStep]
    have hshown := ShowsDate.lookup (show ShowsDate world (s.visit none).vars date from hshows) hformat
      ((s.visit none).lookup world "EPOCH".toList)
    have hrest : '$' ∉ '?' :: dest.toList := by simp [hplain]
    have hout := expandFrom_output ((s.visit none).lookup world) hrest
      (truth (decide (shownDate date format = value))) []
    rw [List.append_nil, expandFrom_nil] at hout
    rw [htext, expand_dateIs _ hclean hvalueClean, hshown,
      evalExpr_isValue hquote (notMem_of_isDateChar hvalue rfl), ← hout]
    simp only [String.toList_inj]
  have hdest : dest.toList ≠ [] := fun h => hne (String.toList_inj.mp (by simpa using h))
  rw [step_gotoIf hcode rfl hargs hdest hcolon]
  simp only [decide_eq_true_eq]
  rfl

end Run

/-- Where the line of a rule jumps to. -/
def holidayDest (did : DidInput) (rule : ForwardingRuleInput) (holiday : HolidayRuleInput) :
    String :=
  if holiday.isOverride then workdayLabel did else forwardingContext rule ++ ",s,1"

/-- The test of a rule: a format of the date and the value it is compared with. -/
structure HolidayTest where
  format : String
  value : String
  known : format ∈ ["%m-%d", "%Y-%m-%d"]
  clean : value.toList.all isDateChar = true

def HolidayTest.holds (test : HolidayTest) (date : String) : Bool :=
  shownDate date test.format = test.value

def HolidayTest.line (test : HolidayTest) (dest : String) : Step :=
  plainStep "GotoIf" (dateIs test.format test.value ++ "?" ++ dest)

variable {did : DidInput}

theorem matchesHoliday_of_scope {holiday : HolidayRuleInput}
    (hscope : isBranchRule holiday did.branchId = true ∨ given holiday.branchId = none) :
    matchesHoliday date did.branchId holiday =
      if holiday.ruleType = "ANNUAL" then decide (holiday.monthDay = some (monthDayOf date))
      else decide (holiday.holidayDate = some date) := by
  have hin : ((given holiday.branchId).isSome && decide (holiday.branchId ≠ did.branchId)) =
      false := by
    rcases hscope with hbranch | hnone
    · simp only [isBranchRule, Bool.and_eq_true, decide_eq_true_eq] at hbranch
      simp [hbranch.2]
    · simp [hnone]
  rw [matchesHoliday, hin, if_neg (by decide)]

theorem given_of_checked {text : Option String} {p : String → Bool} (h : text.all p = true)
    (hp : p "" = false) : given text = text := by
  cases text with
  | none => rfl
  | some t =>
    have hne : t ≠ "" := by
      rintro rfl
      rw [Option.all_some, hp] at h
      cases h
    simp [given, Option.filter, hne]

/-- A rule has no line when it cannot match, else a line with its test. -/
theorem holidayLine_ok {rule : ForwardingRuleInput} {holiday : HolidayRuleInput} (date : String)
    {line : Option Step} (hchecked : CheckedHoliday holiday)
    (hscope : isBranchRule holiday did.branchId = true ∨ given holiday.branchId = none)
    (h : holidayLine did rule holiday = .ok line) :
    (line = none ∧ matchesHoliday date did.branchId holiday = false) ∨
      ∃ test : HolidayTest, line = some (test.line (holidayDest did rule holiday)) ∧
        matchesHoliday date did.branchId holiday = test.holds date := by
  obtain ⟨htype, hdate, hmonth⟩ := hchecked
  have hgivenDate := given_of_checked hdate (by decide)
  have hgivenMonth := given_of_checked hmonth (by decide)
  obtain ⟨expression, hexpression, h⟩ := bind_eq_ok.mp h
  rw [matchesHoliday_of_scope hscope]
  have hline : ∀ text, expression = some text →
      line = some (plainStep "GotoIf" (text ++ "?" ++ holidayDest did rule holiday)) := by
    rintro text rfl
    simp only [holidayDest, HolidayRuleInput.isOverride, decide_eq_true_eq] at h ⊢
    split at h
    · rw [if_pos ‹_›]
      exact (pure_eq_ok.mp h).symm
    · rw [if_neg ‹_›, ← String.append_assoc]
      exact (pure_eq_ok.mp h).symm
  have hnone : expression = none → line = none := by
    rintro rfl
    exact (pure_eq_ok.mp h).symm
  unfold buildHolidayMatchExpression at hexpression
  rw [hgivenDate, hgivenMonth] at hexpression
  by_cases hannual : holiday.ruleType = "ANNUAL"
  · simp only [hannual, if_true] at hexpression ⊢
    cases hvalue : holiday.monthDay with
    | none =>
      rw [hvalue] at hexpression
      refine .inl ⟨hnone ?_, by simp⟩
      unfold buildHolidayMatchExpression.dateMatch at hexpression
      rw [hannual] at hexpression
      simp only at hexpression
      split at hexpression <;> exact (pure_eq_ok.mp hexpression).symm
    | some monthDay =>
      rw [hvalue] at hexpression hmonth
      obtain ⟨-, -, hexpression⟩ := bind_eq_ok.mp hexpression
      have hclean := all_isDateChar_of_isMonthDayText hmonth
      refine .inr ⟨⟨"%m-%d", monthDay, by simp, hclean⟩, hline _ (pure_eq_ok.mp hexpression).symm, ?_⟩
      simp [HolidayTest.holds, shownDate, eq_comm]
  · have hdated : holiday.ruleType = "DATE" ∨ holiday.ruleType = "WORKDAY_OVERRIDE" := by
      simp only [List.mem_cons, List.not_mem_nil, or_false] at htype
      rcases htype with htype | htype | htype
      · exact .inl htype
      · exact absurd htype hannual
      · exact .inr htype
    have hmatch : buildHolidayMatchExpression.dateMatch holiday holiday.holidayDate =
        .ok expression := by
      simp only [hannual, if_false] at hexpression
      cases hvalue : holiday.monthDay <;> (rw [hvalue] at hexpression; exact hexpression)
    unfold buildHolidayMatchExpression.dateMatch at hmatch
    rw [if_neg hannual]
    cases hvalue : holiday.holidayDate with
    | none =>
      rw [hvalue] at hmatch
      exact .inl ⟨hnone (pure_eq_ok.mp hmatch).symm, by simp⟩
    | some text =>
      rw [hvalue] at hmatch hdate
      have hbranch : (decide (holiday.ruleType = "DATE") ||
          decide (holiday.ruleType = "WORKDAY_OVERRIDE")) = true := by
        simpa using hdated
      simp only [hbranch, if_true] at hmatch
      obtain ⟨-, -, hmatch⟩ := bind_eq_ok.mp hmatch
      have hclean := all_isDateChar_of_isDateText hdate
      refine .inr ⟨⟨"%Y-%m-%d", text, by simp, hclean⟩, hline _ (pure_eq_ok.mp hmatch).symm, ?_⟩
      simp [HolidayTest.holds, shownDate, eq_comm]

/-! ## A run over the lines -/

/-- An id of the database. -/
def isIdText (id : String) : Bool := id.toList.all (fun c => ArsFlow.isLabelChar c)

section Chain
variable {dialplan : List Entry} {world : Nat → Text → Text} {did : DidInput}
  {rule : ForwardingRuleInput} {date : String}

theorem notMem_workdayLabel (did : DidInput) {c : Char} (hc : ArsFlow.isLabelChar c = false) :
    c ∉ (workdayLabel did).toList := by
  have hall : (workdayLabel did).toList.all ArsFlow.isLabelChar = true := by
    have hsuffix : (contextSuffix did.id).toList.all ArsFlow.isLabelChar = true := by
      unfold contextSuffix
      split
      · decide
      · exact ArsFlow.all_isLabelChar_toSlug _
    rw [workdayLabel, String.toList_append, List.all_append, hsuffix]
    decide
  exact ArsFlow.notMem_of_all hall hc

theorem holidayDest_plain (did : DidInput) (hid : isIdText rule.id = true) (holiday : HolidayRuleInput) :
    holidayDest did rule holiday ≠ "" ∧ '$' ∉ (holidayDest did rule holiday).toList ∧
      ':' ∉ (holidayDest did rule holiday).toList := by
  have hforward : ∀ c, ArsFlow.isLabelChar c = false → c ≠ ',' →
      c ∉ (forwardingContext rule ++ ",s,1").toList := by
    intro c hc hcomma
    have hid' : c ∉ rule.id.toList := ArsFlow.notMem_of_all hid hc
    have hlead : c ∉ "forwarding-rule-".toList := ArsFlow.notMem_of_all (by decide) hc
    have hone : c ∉ "s".toList ∧ c ∉ "1".toList :=
      ⟨ArsFlow.notMem_of_all (by decide) hc, ArsFlow.notMem_of_all (by decide) hc⟩
    have htext : (forwardingContext rule ++ ",s,1").toList = "forwarding-rule-".toList ++
        rule.id.toList ++ ',' :: ("s".toList ++ ',' :: "1".toList) := by
      simp [forwardingContext]
    rw [htext]
    simp only [List.mem_append, List.mem_cons, not_or]
    exact ⟨⟨hlead, hid'⟩, hcomma, hone.1, hcomma, hone.2⟩
  unfold holidayDest
  split
  · refine ⟨?_, notMem_workdayLabel did rfl, notMem_workdayLabel did rfl⟩
    intro heq
    have hlength := congrArg (fun t : String => t.toList.length) heq
    simp [workdayLabel] at hlength
  · refine ⟨?_, hforward '$' rfl (by decide), hforward ':' rfl (by decide)⟩
    intro heq
    have hlength := congrArg (fun t : String => t.toList.length) heq
    simp [forwardingContext] at hlength

/-- The run from `s` to `t` has stayed in the extension and has changed nothing. -/
structure Within (s t : State) : Prop where
  vars : t.vars = s.vars
  returns : t.returns = s.returns
  caller : t.caller = s.caller
  context : t.pos.context = s.pos.context
  exten : t.pos.exten = s.pos.exten
  trace : ∃ visited, t.trace = visited ++ s.trace ∧
    ∀ v ∈ visited, v.pos.context = s.pos.context ∧ v.pos.exten = s.pos.exten

theorem Within.refl (s : State) : Within s s :=
  ⟨rfl, rfl, rfl, rfl, rfl, [], rfl, by simp⟩

theorem Within.visit {s t : State} (h : Within s t) (label : Option Text) :
    Within s (t.visit label) := by
  obtain ⟨visited, htrace, hvisited⟩ := h.trace
  refine ⟨h.vars, h.returns, h.caller, h.context, h.exten, ⟨t.pos, label⟩ :: visited, ?_, ?_⟩
  · rw [State.visit, htrace, List.cons_append]
  · exact List.forall_mem_cons.mpr ⟨⟨h.context, h.exten⟩, hvisited⟩

theorem Within.move {s t : State} (h : Within s t) (priority : Nat) :
    Within s { t with pos := ⟨t.pos.context, t.pos.exten, priority⟩ } :=
  ⟨h.vars, h.returns, h.caller, h.context, h.exten, h.trace⟩

theorem Within.trans {s t u : State} (h : Within s t) (h' : Within t u) : Within s u := by
  obtain ⟨visited, htrace, hvisited⟩ := h.trace
  obtain ⟨visited', htrace', hvisited'⟩ := h'.trace
  refine ⟨h'.vars.trans h.vars, h'.returns.trans h.returns, h'.caller.trans h.caller,
    h'.context.trans h.context, h'.exten.trans h.exten, visited' ++ visited, ?_, ?_⟩
  · rw [htrace', htrace, List.append_assoc]
  · rw [h.context, h.exten] at hvisited'
    exact List.forall_mem_append.mpr ⟨hvisited', hvisited⟩

/-- The lines run up to the first rule that matches the date, and past all of them when
none does. -/
theorem run_holidayLines (hdate : isDateText date = true) (hid : isIdText rule.id = true)
    {rules : List HolidayRuleInput} {lines : List (Option Step)}
    (hchecked : ∀ holiday ∈ rules, CheckedHoliday holiday ∧
      (isBranchRule holiday did.branchId = true ∨ given holiday.branchId = none))
    (hlines : List.Forall₂ (fun holiday line => holidayLine did rule holiday = .ok line) rules
      lines)
    {s : State} (hshows : ShowsDate world s.vars date)
    (hcode : CodeAt dialplan s.pos lines.reduceOption) :
    ∃ t : State, Within s t ∧
      match rules.find? (matchesHoliday date did.branchId) with
      | some holiday => lines.reduceOption ≠ [] ∧
          Leads (step dialplan world) s (t.goto dialplan (holidayDest did rule holiday).toList)
      | none => t.pos = s.pos.after lines.reduceOption.length ∧
          Comes (step dialplan world) s (.inl t) := by
  induction hlines generalizing s with
  | nil => exact ⟨s, .refl s, rfl, .inl rfl⟩
  | cons hline _ ih =>
    rename_i holiday line rules lines _
    obtain ⟨hholiday, hscope⟩ := hchecked holiday (by simp)
    have hrest := fun h hh => hchecked h (List.mem_cons_of_mem _ hh)
    rcases holidayLine_ok date hholiday hscope hline with ⟨rfl, hno⟩ | ⟨test, rfl, hmatch⟩
    · rw [List.reduceOption_cons_of_none] at hcode ⊢
      rw [List.find?_cons_of_neg (by simp [hno])]
      exact ih hrest hshows hcode
    · rw [List.reduceOption_cons_of_some] at hcode ⊢
      obtain ⟨hat, hcode⟩ := hcode
      obtain ⟨hne, hplain, hcolon⟩ := holidayDest_plain did hid holiday
      have hstep := step_dateIs hshows hdate test.known test.clean hne hplain hcolon hat
      by_cases hholds : shownDate date test.format = test.value
      · have htrue : matchesHoliday date did.branchId holiday = true := by
          simp [hmatch, HolidayTest.holds, hholds]
        rw [if_pos hholds] at hstep
        rw [List.find?_cons_of_pos htrue]
        exact ⟨s.visit none, (Within.refl s).visit none, by simp, .one hstep⟩
      · have hfalse : matchesHoliday date did.branchId holiday = false := by
          simp [hmatch, HolidayTest.holds, hholds]
        rw [if_neg hholds] at hstep
        rw [List.find?_cons_of_neg (by simp [hfalse])]
        have hnext : Within s (s.visit none).advance := ((Within.refl s).visit none).move _
        obtain ⟨t, hwithin, hend⟩ :=
          ih hrest (show ShowsDate world ((s.visit none).advance).vars date from hshows) hcode
        refine ⟨t, hnext.trans hwithin, ?_⟩
        cases hfind : rules.find? (matchesHoliday date did.branchId) with
        | some found =>
          rw [hfind] at hend
          exact ⟨by simp, .next hstep hend.2⟩
        | none =>
          rw [hfind] at hend
          refine ⟨hend.1.trans ?_, hend.2.next hstep⟩
          exact Pos.next_after s.pos lines.reduceOption.length

end Chain

/-- The chain has a line for each rule that can match, and a label behind them. -/
theorem renderHolidayForwardingLines_ok {rule : ForwardingRuleInput} {rules : List HolidayRuleInput}
    {lines : List Step} (h : renderHolidayForwardingLines did rule rules = .ok lines) :
    ∃ chain : List (Option Step),
      List.Forall₂ (fun holiday line => holidayLine did rule holiday = .ok line)
        (orderedHolidayRulesForDid did rules) chain ∧
      lines = if chain.reduceOption = [] then [] else chain.reduceOption ++
        [labeledStep (workdayLabel did) "NoOp" "Holiday routing checks complete"] := by
  obtain ⟨chain, hchain, h⟩ := bind_eq_ok.mp h
  exact ⟨chain, mapM_eq_ok.mp hchain, (pure_eq_ok.mp h).symm⟩

/-- The label behind the lines. -/
def workdayLine (did : DidInput) : Step :=
  labeledStep (workdayLabel did) "NoOp" "Holiday routing checks complete"

section Label
variable {dialplan : List Entry} {world : Nat → Text → Text} {did : DidInput}
  {before code after : List Step} {context name dialled : Text}

theorem workdayLabel_head (did : DidInput) : (workdayLabel did).toList.head? = some 'h' := by
  simp [workdayLabel]

section Workday
variable (hcode : HasCode dialplan context name (before ++ code ++ workdayLine did :: after))
  (hfor : extenFor dialplan context dialled = some name)
include hcode hfor

/-- A jump to the label goes on behind it. -/
theorem goto_workdayLabel
    (hlabel : ∀ line ∈ before ++ code, line.label ≠ some (workdayLabel did).toList) {t : State}
    (hcontext : t.pos.context = context) (hexten : t.pos.exten = dialled) :
    t.goto dialplan (workdayLabel did).toList =
      .inl { t with pos := ⟨context, dialled, (before ++ code).length + 1⟩ } := by
  have hindex : (before ++ code ++ workdayLine did :: after).findIdx?
      (fun c => c.label = some (workdayLabel did).toList) = some (before ++ code).length :=
    findIdx?_first rfl hlabel
  have hnumber : isNumber (workdayLabel did).toList = false := by
    have hhead := workdayLabel_head did
    cases htext : (workdayLabel did).toList with
    | nil => rfl
    | cons c rest =>
      rw [htext, List.head?_cons, Option.some.injEq] at hhead
      subst hhead
      simp [isNumber, show isDigit 'h' = false from rfl]
  have hpriority := hcode.priorityOf_dialled hfor hnumber hindex
  rw [State.goto, resolve_priority (notMem_workdayLabel did rfl), jumpTo, hcontext, hexten,
    hpriority]

/-- The label does nothing. -/
theorem step_workdayLine {t : State}
    (hpos : t.pos = ⟨context, dialled, (before ++ code).length + 1⟩) :
    step dialplan world t = .inl (t.visit (workdayLine did).label).advance := by
  have hline : stepAt dialplan t.pos = some (workdayLine did) := by
    rw [hpos]
    exact hcode.stepAt_dialled hfor (by simp)
  exact step_pass hline rfl

end Workday

end Label

/-- No line of the chain has a label. -/
theorem label_of_mem_chain {rule : ForwardingRuleInput} {rules : List HolidayRuleInput}
    {chain : List (Option Step)}
    (h : List.Forall₂ (fun holiday line => holidayLine did rule holiday = .ok line) rules chain) :
    ∀ line ∈ chain.reduceOption, line.label = none := by
  induction h with
  | nil => simp
  | cons hline _ ih =>
    rename_i holiday line rules chain _
    obtain ⟨expression, -, hline⟩ := bind_eq_ok.mp hline
    cases expression with
    | none =>
      rw [← pure_eq_ok.mp hline, List.reduceOption_cons_of_none]
      exact ih
    | some expression =>
      have hsome : ∃ args, line = some (plainStep "GotoIf" args) := by
        simp only at hline
        split at hline
        · exact ⟨_, (pure_eq_ok.mp hline).symm⟩
        · exact ⟨_, (pure_eq_ok.mp hline).symm⟩
      obtain ⟨args, rfl⟩ := hsome
      rw [List.reduceOption_cons_of_some]
      exact List.forall_mem_cons.mpr ⟨rfl, ih⟩

/-- The lines jump to the forwarding rule when the preview says that the date is a
holiday; when it does not, they run to their end. -/
theorem holiday_lines_follow_decision {dialplan : List Entry} {world : Nat → Text → Text}
    {did : DidInput} {rule : ForwardingRuleInput} {rules : List HolidayRuleLike} {date : String}
    {lines before after : List Step} {context name dialled : Text} {s : State}
    (hrender : renderHolidayForwardingLines did rule
      (rules.map HolidayRuleLike.toHolidayRuleInput) = .ok lines)
    (hchecked : ∀ holiday ∈ rules, CheckedHoliday holiday.toHolidayRuleInput)
    (hdate : isDateText date = true) (hid : isIdText rule.id = true)
    (hcode : HasCode dialplan context name (before ++ lines ++ after))
    (hlabel : ∀ line ∈ before, line.label ≠ some (workdayLabel did).toList)
    (hfor : extenFor dialplan context dialled = some name)
    (hpos : s.pos = ⟨context, dialled, before.length + 1⟩) (hshows : ShowsDate world s.vars date) :
    ∃ t : State, Within s t ∧
      if (resolveHolidayDecision rules date did.branchId).isHoliday = true then
        Leads (step dialplan world) s
          (t.goto dialplan (forwardingContext rule ++ ",s,1").toList)
      else t.pos = ⟨context, dialled, before.length + lines.length + 1⟩ ∧
        Comes (step dialplan world) s (.inl t) := by
  obtain ⟨chain, hchain, hlines⟩ := renderHolidayForwardingLines_ok hrender
  have hscoped : ∀ holiday ∈ orderedHolidayRulesForDid did
      (rules.map HolidayRuleLike.toHolidayRuleInput), CheckedHoliday holiday ∧
        (isBranchRule holiday did.branchId = true ∨ given holiday.branchId = none) := by
    intro holiday hholiday
    obtain ⟨hmem, -, hscope⟩ := mem_orderedHolidayRules.mp hholiday
    obtain ⟨like, hlike, rfl⟩ := List.mem_map.mp hmem
    exact ⟨hchecked like hlike, hscope⟩
  rw [isHoliday_eq_decidingRule]
  unfold decidingRule
  by_cases hempty : chain.reduceOption = []
  · -- no rule can match, and there are no lines
    have hat : CodeAt dialplan s.pos chain.reduceOption := by
      rw [hempty]
      trivial
    obtain ⟨t, hwithin, hend⟩ := run_holidayLines hdate hid hscoped hchain hshows hat
    rw [if_pos hempty] at hlines
    refine ⟨t, hwithin, ?_⟩
    cases hfind : (orderedHolidayRulesForDid did
      (rules.map HolidayRuleLike.toHolidayRuleInput)).find?
        (matchesHoliday date did.branchId) with
    | some holiday =>
      rw [hfind] at hend
      exact absurd hempty hend.1
    | none =>
      rw [hfind] at hend
      refine ⟨?_, hend.2⟩
      rw [hend.1, hpos, hempty, hlines]
      rfl
  · rw [if_neg hempty] at hlines
    have hcode' : HasCode dialplan context name
        (before ++ chain.reduceOption ++ workdayLine did :: after) := by
      rw [hlines] at hcode
      simpa [workdayLine] using hcode
    have hat : CodeAt dialplan s.pos chain.reduceOption := by
      rw [hpos]
      exact hcode'.codeAt_dialled hfor
    have hlabels : ∀ line ∈ before ++ chain.reduceOption,
        line.label ≠ some (workdayLabel did).toList := by
      refine List.forall_mem_append.mpr ⟨hlabel, ?_⟩
      intro line hline
      rw [label_of_mem_chain hchain line hline]
      exact fun h => nomatch h
    have hlength : before.length + lines.length + 1 =
        (before ++ chain.reduceOption).length + 1 + 1 := by
      rw [hlines]
      simp [Nat.add_assoc]
    obtain ⟨t, hwithin, hend⟩ := run_holidayLines hdate hid hscoped hchain hshows hat
    have hcontext : t.pos.context = context := by rw [hwithin.context, hpos]
    have hexten : t.pos.exten = dialled := by rw [hwithin.exten, hpos]
    -- from the label on, whoever comes there runs to the end of the lines
    have hbehind : ∀ u : State, Within s u →
        u.pos = ⟨context, dialled, (before ++ chain.reduceOption).length + 1⟩ →
        Comes (step dialplan world) s (.inl u) →
        ∃ t : State, Within s t ∧
          t.pos = ⟨context, dialled, before.length + lines.length + 1⟩ ∧
          Comes (step dialplan world) s (.inl t) := by
      intro u hu hupos hcomes
      have hstep : step dialplan world u = .inl (u.visit (workdayLine did).label).advance :=
        step_workdayLine hcode' hfor hupos
      refine ⟨(u.visit (workdayLine did).label).advance, (hu.visit _).move _, ?_,
        hcomes.trans (.inr (.one hstep))⟩
      rw [hlength]
      simp [State.visit, State.advance, hupos]
    cases hfind : (orderedHolidayRulesForDid did
      (rules.map HolidayRuleLike.toHolidayRuleInput)).find?
        (matchesHoliday date did.branchId) with
    | none =>
      rw [hfind] at hend
      refine hbehind t hwithin ?_ hend.2
      rw [hend.1, hpos, List.length_append]
      simp [Pos.after, Nat.add_right_comm]
    | some holiday =>
      rw [hfind] at hend
      have hjump := hend.2
      by_cases hoverride : holiday.isOverride = true
      · rw [holidayDest, if_pos hoverride,
          goto_workdayLabel hcode' hfor hlabels hcontext hexten] at hjump
        simp only [Option.any_some, hoverride, Bool.not_true, Bool.false_eq_true, if_false]
        refine hbehind _ ?_ rfl (.inr hjump)
        have hmove := hwithin.move ((before ++ chain.reduceOption).length + 1)
        rwa [hcontext, hexten] at hmove
      · rw [holidayDest, if_neg hoverride] at hjump
        simp only [Option.any_some, hoverride, Bool.not_false, if_true]
        exact ⟨t, hwithin, hjump⟩

/-! ## A clock at a date -/

/-- A channel whose clock shows the date. -/
def clockAt (date : String) : Nat → Text → Text := fun _ name =>
  -- before the month stands the year, or nothing
  if name.reverse[6]? = some '-' then date.toList else (monthDayOf date).toList

theorem showsDate_clockAt (date : String) : ShowsDate (clockAt date) [] date := by
  refine ⟨?_, ?_⟩
  · intro n epoch
    have hreverse : (strftime epoch "%Y-%m-%d".toList).reverse =
        ')' :: 'd' :: '%' :: '-' :: 'm' :: '%' :: '-' :: 'Y' :: '%' :: ',' :: ',' ::
          (epoch.reverse ++ "(EMITFRTS".toList) := by
      simp [strftime_eq]
    rw [List.lookup_nil, Option.getD_none, clockAt, hreverse, if_pos (by simp)]
  · intro n epoch
    have hreverse : (strftime epoch "%m-%d".toList).reverse =
        ')' :: 'd' :: '%' :: '-' :: 'm' :: '%' :: ',' :: ',' ::
          (epoch.reverse ++ "(EMITFRTS".toList) := by
      simp [strftime_eq]
    rw [List.lookup_nil, Option.getD_none, clockAt, hreverse, if_neg (by simp)]

section NewYear

/-- A DID of the branch. -/
def seoulDid : DidInput :=
  ⟨"d1", "07012345678", some "seoul", none, none, none, [], none, false, none, none, none, true⟩

def nightRule : ForwardingRuleInput :=
  ⟨"r1", "d1", "QUEUE", "night", none, none, none, "TIME_RANGE", none, none, none, none, true⟩

/-- New Year is a holiday, but not in 2026 for the branch. -/
def newYearRules : List HolidayRuleLike :=
  [⟨⟨none, "ANNUAL", none, some "01-01", true⟩, some "New Year"⟩,
    ⟨⟨some "seoul", "WORKDAY_OVERRIDE", some "2026-01-01", none, true⟩, none⟩]

def newYearLines : List Step :=
  [plainStep "GotoIf" (dateIs "%Y-%m-%d" "2026-01-01" ++ "?" ++ workdayLabel seoulDid),
    plainStep "GotoIf" (dateIs "%m-%d" "01-01" ++ "?" ++ "forwarding-rule-r1,s,1"),
    workdayLine seoulDid]

def newYearCall : State :=
  ⟨⟨"inbound-main".toList, "07012345678".toList, 1⟩, [], ⟨[], [], [], []⟩, [], []⟩

theorem checked_newYearRules :
    ∀ holiday ∈ newYearRules, CheckedHoliday holiday.toHolidayRuleInput := by
  intro holiday hholiday
  simp only [newYearRules, List.mem_cons, List.not_mem_nil, or_false] at hholiday
  rcases hholiday with rfl | rfl
  · exact ⟨by simp, rfl, rfl⟩
  · exact ⟨by simp, rfl, rfl⟩

theorem new_year_lines_follow_decision :
    ∃ t : State, Within newYearCall t ∧
      if (resolveHolidayDecision newYearRules "2027-01-01" seoulDid.branchId).isHoliday = true then
        Leads (step (blockEntries "inbound-main".toList "07012345678".toList 1 newYearLines)
          (clockAt "2027-01-01")) newYearCall
          (t.goto (blockEntries "inbound-main".toList "07012345678".toList 1 newYearLines)
            (forwardingContext nightRule ++ ",s,1").toList)
      else t.pos = ⟨"inbound-main".toList, "07012345678".toList, 4⟩ ∧
        Comes (step (blockEntries "inbound-main".toList "07012345678".toList 1 newYearLines)
          (clockAt "2027-01-01")) newYearCall (.inl t) := by
  have hcode : HasCode (blockEntries "inbound-main".toList "07012345678".toList 1 newYearLines)
      "inbound-main".toList "07012345678".toList ([] ++ newYearLines ++ []) := by
    rw [HasCode, filter_blockEntries_self, List.nil_append, List.append_nil]
  exact holiday_lines_follow_decision rfl checked_newYearRules rfl rfl hcode (by simp)
    (HasCode.extenFor hcode (by simp [newYearLines]) rfl) rfl (showsDate_clockAt "2027-01-01")

end NewYear

end KasterCti.Renderers
