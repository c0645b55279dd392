import KasterCti.Renderers.OutboundPatterns

/-!
# Patterns of caller id rules

`outbound-rule.sanitizer.ts`: which patterns a rule may have, and the matcher that previews
a rule for a number. The test of a regular expression is a parameter; it gives nothing where
the expression does not compile.

Results:
1. `matchBody_eq`: on digits the hand-written matcher takes what the pattern takes in the
   dialplan, where its brackets are closed and have no hyphen between them.
2. `matchSourceNumber_eq`: the same for a rule of any kind, where a prefix is not the number
   itself.
-/

namespace KasterCti.OutboundRules

open Dialplan
open Renderers (OutboundCallerIdRuleMatchType OutboundCallerIdRuleInput ruleToDialplanExten)

section Rules

variable (regexTest : String → String → Option Bool)

def isNumberChar (c : Char) : Bool := isDigit c || c = '+'

def isPatternChar (c : Char) : Bool := isDigit c || c ∈ ['N', 'X', 'Z', '.', '[', ']', '-']

def isNumberText (least most : Nat) (cs : List Char) : Bool :=
  least ≤ cs.length && cs.length ≤ most && cs.all isNumberChar

/-- `PATTERNS[matchType].test(pattern)`. -/
def patternAllowed (matchType : OutboundCallerIdRuleMatchType) (pattern : List Char) : Bool :=
  match matchType with
  | .exactNumber => isNumberText 1 20 pattern
  | .leadingDigits => isNumberText 1 20 pattern
  | .regex => 1 ≤ pattern.length && pattern.length ≤ 200
  | .dialplanPattern =>
    match pattern with
    | '_' :: body => 1 ≤ body.length && body.length ≤ 32 && body.all isPatternChar
    | _ => false

def validateSourceNumberPattern (matchType : OutboundCallerIdRuleMatchType) (pattern : String) :
    Except String Unit :=
  if pattern.toList.any (fun c => c = '\r' ∨ c = '\n') then
    .error "sourceNumberPattern 에 개행을 포함할 수 없습니다."
  else if patternAllowed matchType pattern.toList = false then
    .error ("sourceNumberPattern 형식이 matchType=" ++ matchType.text ++ " 규칙에 맞지 않습니다.")
  else if matchType = .regex ∧ (regexTest pattern "").isNone then
    .error "REGEX 컴파일 실패: invalid regex"
  else .ok ()

/-- `CALLER_ID_PATTERN`. -/
def isCallerId (value : String) : Bool := isNumberText 1 20 value.toList

def validateCallerIdNumber (value : String) : Except String Unit :=
  if isCallerId value then .ok () else .error "callerIdNumber 는 숫자/+ 만 1~20자 허용합니다."

/-- The loop over the pattern and the number. What stands between brackets is a class of the
characters in it: the hyphens are gone. -/
def matchBody (body : List Char) : List Char → Bool
  | [] => body = []
  | ch :: value =>
    match body with
    | [] => false
    | c :: body =>
      if c = 'N' then ('2' ≤ ch && ch ≤ '9') && matchBody body value
      else if c = 'X' then isDigit ch && matchBody body value
      else if c = 'Z' then ('1' ≤ ch && ch ≤ '9') && matchBody body value
      else if c = '[' then
        match cut ']' body with
        | (_, none) => false
        | (set, some rest) => ch ∈ set && matchBody rest value
      else if c = '.' then (ch :: value).all isDigit
      else c = ch && matchBody body value

def matchAsteriskPattern (pattern value : List Char) : Bool :=
  match pattern with
  | '_' :: body => matchBody (body.filter (· ≠ '-')) value
  | _ => pattern = value

def matchSourceNumber (matchType : OutboundCallerIdRuleMatchType) (pattern inputNumber : String) :
    Bool :=
  match matchType with
  | .exactNumber => inputNumber = pattern
  | .leadingDigits => JsText.startsWith inputNumber pattern
  | .regex => (regexTest pattern inputNumber).getD false
  | .dialplanPattern => matchAsteriskPattern pattern.toList inputNumber.toList

end Rules

/-! ## Brackets -/

/-- Every bracket is closed, and no hyphen stands between brackets. -/
def bracketsPlain (inside : Bool) : List Char → Bool
  | [] => !inside
  | c :: t =>
    if inside then (if c = ']' then bracketsPlain false t else c ≠ '-' && bracketsPlain true t)
    else bracketsPlain (c = '[') t

theorem split_of_bracketsPlain {t : List Char} (h : bracketsPlain true t = true) :
    ∃ set rest, t = set ++ ']' :: rest ∧ ']' ∉ set ∧ '-' ∉ set ∧ bracketsPlain false rest = true := by
  induction t with
  | nil => cases h
  | cons c t ih =>
    rw [bracketsPlain, if_pos rfl] at h
    by_cases hc : c = ']'
    · rw [if_pos hc] at h
      exact ⟨[], t, by rw [hc]; rfl, List.not_mem_nil, List.not_mem_nil, h⟩
    · rw [if_neg hc, Bool.and_eq_true, decide_eq_true_iff] at h
      obtain ⟨set, rest, rfl, hclose, hdash, hrest⟩ := ih h.2
      exact ⟨c :: set, rest, rfl, by simp [Ne.symm hc, hclose], by simp [Ne.symm h.1, hdash], hrest⟩

theorem digitRange {ch : Char} (h : isDigit ch = true) :
    (('2' ≤ ch && ch ≤ '9') = decide (ch ∈ digitsFrom 2)) ∧
      (('1' ≤ ch && ch ≤ '9') = decide (ch ∈ digitsFrom 1)) ∧
      isDigit ch = decide (ch ∈ digitsFrom 0) := by
  have hall : ∀ ch ∈ digitsFrom 0, (('2' ≤ ch && ch ≤ '9') = decide (ch ∈ digitsFrom 2)) ∧
      (('1' ≤ ch && ch ≤ '9') = decide (ch ∈ digitsFrom 1)) ∧
      isDigit ch = decide (ch ∈ digitsFrom 0) := by decide
  exact hall ch (mem_digitsFrom_zero.mpr h)

/-- One character of a pattern stands for the same digits in the preview and in the dialplan. -/
theorem digitsOf_patternChar {c : Char} (hallowed : isPatternChar c = true) (hopen : c ≠ '[')
    (hdot : c ≠ '.') (hdash : c ≠ '-') :
    ∃ chars, (∀ t, parsePattern none (c :: t) = .one chars :: parsePattern none t) ∧
      ∀ body ch value, isDigit ch = true →
        matchBody (c :: body) (ch :: value) = (decide (ch ∈ chars) && matchBody body value) := by
  by_cases hN : c = 'N'
  · subst hN
    refine ⟨digitsFrom 2, fun t => rfl, ?_⟩
    intro body ch value hdigit
    rw [matchBody, if_pos rfl, (digitRange hdigit).1]
  by_cases hX : c = 'X'
  · subst hX
    refine ⟨digitsFrom 0, fun t => rfl, ?_⟩
    intro body ch value hdigit
    rw [matchBody, if_neg (by decide), if_pos rfl, (digitRange hdigit).2.2]
  by_cases hZ : c = 'Z'
  · subst hZ
    refine ⟨digitsFrom 1, fun t => rfl, ?_⟩
    intro body ch value hdigit
    rw [matchBody, if_neg (by decide), if_neg (by decide), if_pos rfl, (digitRange hdigit).2.1]
  -- a digit, or a bracket that closes nothing
  refine ⟨[c], ?_, ?_⟩
  · simp only [isPatternChar, Bool.or_eq_true, decide_eq_true_eq, List.mem_cons,
      List.not_mem_nil, or_false, hN, hX, hZ, hopen, hdot, hdash, false_or] at hallowed
    rcases hallowed with hdigit | rfl
    · exact Renderers.parsePattern_digit hdigit
    · exact fun t => rfl
  · intro body ch value _
    rw [matchBody, if_neg hN, if_neg hX, if_neg hZ, if_neg hopen, if_neg hdot]
    simp [eq_comm]

/-- On digits the matcher of the preview takes what the pattern takes. -/
theorem matchBody_eq {pattern : List Char} (hallowed : ∀ c ∈ pattern, isPatternChar c = true)
    (hbrackets : bracketsPlain false pattern = true) {value : List Char}
    (hdigits : ∀ c ∈ value, isDigit c = true) :
    matchBody (pattern.filter (· ≠ '-')) value = matchElems (parsePattern none pattern) value := by
  induction hn : pattern.length using Nat.strong_induction_on generalizing pattern value with
  | _ n ih =>
    subst hn
    cases pattern with
    | nil => cases value <;> rfl
    | cons c t =>
      have hrest : ∀ c ∈ t, isPatternChar c = true := fun d hd => hallowed d (List.mem_cons_of_mem _ hd)
      rw [bracketsPlain, if_neg (by decide)] at hbrackets
      by_cases hdash : c = '-'
      · subst hdash
        rw [List.filter_cons_of_neg (by simp)]
        exact ih t.length (by simp) hrest hbrackets hdigits rfl
      rw [List.filter_cons_of_pos (by simpa using hdash)]
      by_cases hopen : c = '['
      · -- a set, up to its closing bracket
        subst hopen
        obtain ⟨set, rest, rfl, hclose, hplain, hbrackets⟩ := split_of_bracketsPlain hbrackets
        have hfilter : (set ++ ']' :: rest).filter (· ≠ '-') =
            set ++ ']' :: rest.filter (· ≠ '-') := by
          have hset : set.filter (· ≠ '-') = set := by
            rw [List.filter_eq_self]
            intro d hd
            simpa using fun heq : d = '-' => hplain (heq ▸ hd)
          rw [List.filter_append, hset, List.filter_cons_of_pos (by decide)]
        have hparse : parsePattern none ('[' :: (set ++ ']' :: rest)) =
            .one set :: parsePattern none rest := by
          rw [parsePattern, if_pos rfl, Renderers.parsePattern_set [] hclose, List.reverse_nil,
            List.nil_append, Renderers.charRange_of_notMem hplain]
        rw [hfilter, hparse]
        cases value with
        | nil => rfl
        | cons ch value =>
          have hshorter : rest.length < ('[' :: (set ++ ']' :: rest)).length := by
            simp only [List.length_cons, List.length_append]
            omega
          rw [matchBody, if_neg (by decide), if_neg (by decide), if_neg (by decide), if_pos rfl,
            cut_append hclose, matchElems]
          dsimp only
          rw [ih rest.length hshorter
            (fun d hd => hrest d (List.mem_append.mpr (.inr (List.mem_cons_of_mem _ hd)))) hbrackets
            (fun d hd => hdigits d (List.mem_cons_of_mem _ hd)) rfl]
      by_cases hdot : c = '.'
      · subst hdot
        rw [parsePattern]
        cases value with
        | nil => rfl
        | cons ch value => exact List.all_eq_true.mpr hdigits
      · rw [decide_eq_false hopen] at hbrackets
        obtain ⟨chars, hparse, hmatch⟩ :=
          digitsOf_patternChar (hallowed c List.mem_cons_self) hopen hdot hdash
        rw [hparse]
        cases value with
        | nil => rfl
        | cons ch value =>
          rw [hmatch _ _ _ (hdigits ch List.mem_cons_self), matchElems,
            ih t.length (by simp) hrest hbrackets
              (fun d hd => hdigits d (List.mem_cons_of_mem _ hd)) rfl]

/-! ## Rules -/

section Rules
variable {regexTest : String → String → Option Bool}

/-- A rule that `create` lets in, and that the dialplan can express. -/
structure Validated (regexTest : String → String → Option Bool) (rule : OutboundCallerIdRuleInput) :
    Prop where
  pattern : (validateSourceNumberPattern regexTest rule.matchType rule.sourceNumberPattern).isOk = true
  callerId : (validateCallerIdNumber rule.callerIdNumber).isOk = true
  expressed : rule.matchType ≠ .regex

/-- A pattern that the matcher reads as the dialplan does: its brackets are plain, and a prefix
is not the number itself. -/
structure ReadsAlike (number : Text) (rule : OutboundCallerIdRuleInput) : Prop where
  brackets : rule.matchType = .dialplanPattern →
    bracketsPlain false (rule.sourceNumberPattern.toList.drop 1) = true
  longer : rule.matchType = .leadingDigits → rule.sourceNumberPattern.toList ≠ number

theorem Validated.allowed {rule : OutboundCallerIdRuleInput} (h : Validated regexTest rule) :
    patternAllowed rule.matchType rule.sourceNumberPattern.toList = true := by
  have hpattern := h.pattern
  unfold validateSourceNumberPattern at hpattern
  split at hpattern
  · cases hpattern
  · split at hpattern
    · cases hpattern
    · rename_i hallowed
      exact eq_true_of_ne_false hallowed

theorem Validated.isCallerId {rule : OutboundCallerIdRuleInput} (h : Validated regexTest rule) :
    isCallerId rule.callerIdNumber = true := by
  have hcallerId := h.callerId
  unfold validateCallerIdNumber at hcallerId
  split at hcallerId
  · assumption
  · cases hcallerId

/-- A number has no character but digits and `+`. -/
theorem notMem_of_isNumberText {least most : Nat} {cs : List Char}
    (h : isNumberText least most cs = true) {d : Char} (hd : isNumberChar d = false) : d ∉ cs := by
  intro hmem
  simp only [isNumberText, Bool.and_eq_true, List.all_eq_true] at h
  rw [h.2 d hmem] at hd
  cases hd

theorem patternOf_number {least most : Nat} {cs : List Char}
    (h : isNumberText least most cs = true) : patternOf cs = none := by
  have hunderscore : '_' ∉ cs := notMem_of_isNumberText h rfl
  cases cs with
  | nil => rfl
  | cons c cs =>
    have hc : c ≠ '_' := fun hc => hunderscore (by simp [hc])
    rw [patternOf]
    exact fun t ht => hc (List.cons.inj ht).1

/-- The pattern of a prefix: its characters, and one digit or more. -/
theorem parsePattern_prefix {cs : List Char} (h : ∀ c ∈ cs, isNumberChar c = true) :
    parsePattern none (cs ++ ['.']) = cs.map (fun c => .one [c]) ++ [.wild] := by
  induction cs with
  | nil => rfl
  | cons c cs ih =>
    have hone : ∀ t, parsePattern none (c :: t) = .one [c] :: parsePattern none t := by
      have hc := h c List.mem_cons_self
      rw [isNumberChar, Bool.or_eq_true, decide_eq_true_eq] at hc
      rcases hc with hdigit | rfl
      · exact Renderers.parsePattern_digit hdigit
      · exact fun t => rfl
    rw [List.cons_append, hone, ih (fun d hd => h d (List.mem_cons_of_mem _ hd))]
    rfl

/-- The preview takes a number for a rule exactly when the extension of the rule matches it. -/
theorem matchSourceNumber_eq {rule : OutboundCallerIdRuleInput} (hvalid : Validated regexTest rule)
    {number : Text} (halike : ReadsAlike number rule) (hdigits : ∀ c ∈ number, isDigit c = true)
    {exten : String} (hexten : ruleToDialplanExten rule = some exten) :
    matchSourceNumber regexTest rule.matchType rule.sourceNumberPattern (String.ofList number) =
      matchesExten exten.toList number := by
  have hallowed := hvalid.allowed
  unfold ruleToDialplanExten at hexten
  cases hkind : rule.matchType with
  | regex => exact absurd hkind hvalid.expressed
  | exactNumber =>
    rw [hkind] at hallowed hexten
    obtain rfl := Option.some.inj hexten
    rw [matchesExten, patternOf_number hallowed, matchSourceNumber, decide_eq_decide,
      ← String.toList_inj, String.toList_ofList]
    exact eq_comm
  | leadingDigits =>
    rw [hkind] at hallowed hexten
    obtain rfl := Option.some.inj hexten
    have hchars : ∀ c ∈ rule.sourceNumberPattern.toList, isNumberChar c = true := by
      simp only [patternAllowed, isNumberText, Bool.and_eq_true, List.all_eq_true] at hallowed
      exact hallowed.2
    have hpattern : patternOf ("_" ++ rule.sourceNumberPattern ++ ".").toList =
        some (rule.sourceNumberPattern.toList.map (fun c => .one [c]) ++ [.wild]) := by
      rw [← parsePattern_prefix hchars]
      simp [patternOf]
    rw [matchesExten, hpattern, matchSourceNumber, Bool.eq_iff_iff, JsText.startsWith_iff]
    simp only [Renderers.matchElems_lead, Bool.and_eq_true, List.isPrefixOf_iff_prefix,
      String.toList_ofList]
    constructor
    · rintro ⟨rest, hrest⟩
      refine ⟨⟨rest, hrest.symm⟩, ?_⟩
      rw [hrest, List.drop_left]
      cases rest with
      | nil => exact absurd (hrest.trans (List.append_nil _)).symm (halike.longer hkind)
      | cons c rest => rfl
    · rintro ⟨⟨rest, hrest⟩, -⟩
      exact ⟨rest, hrest.symm⟩
  | dialplanPattern =>
    rw [hkind] at hallowed hexten
    obtain rfl := Option.some.inj hexten
    have hplain := halike.brackets hkind
    rw [matchSourceNumber, String.toList_ofList]
    cases hlist : rule.sourceNumberPattern.toList with
    | nil =>
      rw [hlist] at hallowed
      cases hallowed
    | cons c body =>
      rw [hlist] at hallowed hplain
      by_cases hunderscore : c = '_'
      · subst hunderscore
        simp only [patternAllowed, Bool.and_eq_true, List.all_eq_true] at hallowed
        exact matchBody_eq hallowed.2 hplain hdigits
      · simp [patternAllowed, hunderscore] at hallowed

end Rules

end KasterCti.OutboundRules
