import KasterCti.Renderers.HandsetLock

/-!
# The patterns of the way out

Which of the seven patterns a number of digits reaches, by its first digits and its
length, and which category the classifier of the server gives it. The permissions open
both alike, except for the numbers that are let out (`letOut_iff`).
-/

namespace KasterCti.Renderers

open Dialplan
open Common

/-! ## Matching digits -/

section Match

/-- Literal digits in front. -/
theorem matchElems_lead (lead : Text) (es : List Elem) (t : Text) :
    matchElems (lead.map (fun c => .one [c]) ++ es) t =
      (lead.isPrefixOf t && matchElems es (t.drop lead.length)) := by
  induction lead generalizing t with
  | nil => simp
  | cons c lead ih =>
    cases t with
    | nil => simp [matchElems]
    | cons d t =>
      rw [List.map_cons, List.cons_append, matchElems, ih]
      simp [List.isPrefixOf, Bool.and_assoc, eq_comm, beq_eq_decide]

/-- `XXX` over digits. -/
theorem matchElems_row {k : Nat} {t : Text} (h : ∀ c ∈ t, isDigit c = true) :
    matchElems (List.replicate k (.one (digitsFrom 0))) t = decide (t.length = k) := by
  induction k generalizing t with
  | zero => cases t <;> rfl
  | succ k ih =>
    cases t with
    | nil => rfl
    | cons c t =>
      rw [List.replicate_succ, matchElems, ih (fun d hd => h d (List.mem_cons_of_mem _ hd)),
        decide_eq_true (mem_digitsFrom_zero.mpr (h c List.mem_cons_self))]
      simp

/-- `XXX.` over digits. -/
theorem matchElems_row_wild {k : Nat} {t : Text} (h : ∀ c ∈ t, isDigit c = true) :
    matchElems (List.replicate k (.one (digitsFrom 0)) ++ [.wild]) t = decide (k < t.length) := by
  induction k generalizing t with
  | zero => cases t <;> simp [matchElems]
  | succ k ih =>
    cases t with
    | nil => rfl
    | cons c t =>
      rw [List.replicate_succ, List.cons_append, matchElems,
        ih (fun d hd => h d (List.mem_cons_of_mem _ hd)),
        decide_eq_true (mem_digitsFrom_zero.mpr (h c List.mem_cons_self))]
      simp

/-- A pattern of a lead and so many digits. -/
theorem matches_fixed {name : Text} {lead : String} {k : Nat}
    (hpattern : patternOf name =
      some (lead.toList.map (fun c => .one [c]) ++ List.replicate k (.one (digitsFrom 0))))
    {digits : Text} (h : ∀ c ∈ digits, isDigit c = true) :
    matchesExten name digits = leadThen [lead] k k digits := by
  rw [matchesExten, hpattern]
  simp only [matchElems_lead, matchElems_row (fun c hc => h c (List.mem_of_mem_drop hc)),
    leadThen, List.any_cons, List.any_nil, Bool.or_false, List.length_drop, String.length_toList]
  rw [Bool.and_assoc, ← Bool.decide_and]
  congr 1
  rw [decide_eq_decide]
  omega

/-- A pattern of a lead and more than so many digits. -/
theorem matches_open {name : Text} {lead : String} {k : Nat}
    (hpattern : patternOf name =
      some (lead.toList.map (fun c => .one [c]) ++
        (List.replicate k (.one (digitsFrom 0)) ++ [.wild])))
    {digits : Text} (h : ∀ c ∈ digits, isDigit c = true) :
    matchesExten name digits = leadThen [lead] (k + 1) digits.length digits := by
  rw [matchesExten, hpattern]
  simp only [matchElems_lead, matchElems_row_wild (fun c hc => h c (List.mem_of_mem_drop hc)),
    leadThen, List.any_cons, List.any_nil, Bool.or_false, List.length_drop, String.length_toList]
  rw [Bool.and_assoc, ← Bool.decide_and]
  congr 1
  rw [decide_eq_decide]
  omega

end Match

/-! ## The seven patterns -/

/-- The patterns from the most specific one on, with their categories. -/
def orderedPatterns : List (String × OutboundDialNumberCategory) :=
  [("_00.", .international), ("_060XXXXXXXX", .paid), ("_060XXXXXXX", .paid), ("_0X.", .domestic),
    ("_15XXXXXX", .representative), ("_16XXXXXX", .representative), ("_18XXXXXX", .representative)]

theorem pairwise_orderedPatterns :
    (orderedPatterns.map (fun route => route.1.toList)).Pairwise Beats := by
  decide

/-- The category of the pattern that a number reaches. -/
def routeCategory (digits : Text) : Option OutboundDialNumberCategory :=
  if leadThen ["00"] 1 digits.length digits then some .international
  else if leadThen ["060"] 7 8 digits then some .paid
  else if leadThen ["0"] 2 digits.length digits then some .domestic
  else if leadThen ["15", "16", "18"] 6 6 digits then some .representative
  else none

/-- The pattern that a number reaches. -/
def routeOf (digits : Text) : Option (String × OutboundDialNumberCategory) :=
  orderedPatterns.find? (fun route => matchesExten route.1.toList digits)

theorem routeOf_category {digits : Text} (h : ∀ c ∈ digits, isDigit c = true) :
    (routeOf digits).map Prod.snd = routeCategory digits := by
  have hinternational : matchesExten "_00.".toList digits = leadThen ["00"] 1 digits.length digits :=
    matches_open (k := 0) rfl h
  have hlong : matchesExten "_060XXXXXXXX".toList digits = leadThen ["060"] 8 8 digits :=
    matches_fixed rfl h
  have hshort : matchesExten "_060XXXXXXX".toList digits = leadThen ["060"] 7 7 digits :=
    matches_fixed rfl h
  have hdomestic : matchesExten "_0X.".toList digits = leadThen ["0"] 2 digits.length digits :=
    matches_open (k := 1) rfl h
  have h15 : matchesExten "_15XXXXXX".toList digits = leadThen ["15"] 6 6 digits :=
    matches_fixed rfl h
  have h16 : matchesExten "_16XXXXXX".toList digits = leadThen ["16"] 6 6 digits :=
    matches_fixed rfl h
  have h18 : matchesExten "_18XXXXXX".toList digits = leadThen ["18"] 6 6 digits :=
    matches_fixed rfl h
  have hpaid : leadThen ["060"] 7 8 digits =
      (leadThen ["060"] 8 8 digits || leadThen ["060"] 7 7 digits) := by
    simp only [leadThen, List.any_cons, List.any_nil, Bool.or_false, Bool.and_assoc,
      ← Bool.and_or_distrib_left, ← Bool.decide_and, ← Bool.decide_or]
    congr 1
    rw [decide_eq_decide]
    omega
  have hrep : leadThen ["15", "16", "18"] 6 6 digits = (leadThen ["15"] 6 6 digits ||
      (leadThen ["16"] 6 6 digits || leadThen ["18"] 6 6 digits)) := by
    simp [leadThen]
  rw [routeOf, routeCategory, hpaid, hrep]
  simp only [orderedPatterns, List.find?_cons, hinternational, hlong, hshort, hdomestic, h15, h16,
    h18, List.find?_nil]
  generalize leadThen ["00"] 1 digits.length digits = international,
    leadThen ["060"] 8 8 digits = long, leadThen ["060"] 7 7 digits = short,
    leadThen ["0"] 2 digits.length digits = domestic, leadThen ["15"] 6 6 digits = service15,
    leadThen ["16"] 6 6 digits = service16, leadThen ["18"] 6 6 digits = service18
  clear * -
  revert international long short domestic service15 service16 service18
  decide

/-! ## Permissions and categories -/

/-- Whether the permissions open a category. -/
def opens (permissions : OutboundDialPermissions) : OutboundDialNumberCategory → Bool
  | .international => permissions.international
  | .paid => permissions.paid
  | .representative => permissions.representative
  | .domestic => permissions.domestic
  | .unsupported => false

/-- The server accepts a number when the permissions open its category. -/
theorem assertOutboundDialAllowed_isOk (value : String)
    (permissionsInput : Option OutboundDialPermissions) :
    (assertOutboundDialAllowed value permissionsInput).isOk =
      opens (normalizeOutboundDialPermissions permissionsInput) (classifyOutboundDialNumber value) := by
  unfold assertOutboundDialAllowed normalizeOutboundDialPermissions
  dsimp only
  split <;> rename_i hcategory <;> rw [hcategory]
  · cases hopen : (permissionsInput.getD defaultOutboundDialPermissions).international <;>
      simp [opens, hopen, Except.isOk, Except.toBool]
  · cases hopen : (permissionsInput.getD defaultOutboundDialPermissions).paid <;>
      simp [opens, hopen, Except.isOk, Except.toBool]
  · cases hopen : (permissionsInput.getD defaultOutboundDialPermissions).representative <;>
      simp [opens, hopen, Except.isOk, Except.toBool]
  · cases hopen : (permissionsInput.getD defaultOutboundDialPermissions).domestic <;>
      simp [opens, hopen, Except.isOk, Except.toBool]
  · rfl

section Digits
variable {digits : Text}

theorem filter_digits (h : ∀ c ∈ digits, isDigit c = true) :
    digits.filter JsText.isDigit = digits :=
  List.filter_eq_self.mpr h

theorem trimChars_digits (h : ∀ c ∈ digits, isDigit c = true) :
    JsText.trimChars digits = digits :=
  JsText.trimChars_eq_self (fun c hc => JsText.isWhitespace_of_isDigit (h c hc))

theorem leads_of_leadThen {leads : List String} {least most : Nat}
    (h : leadThen leads least most digits = true) :
    ∃ lead ∈ leads, lead.toList <+: digits ∧ lead.length + least ≤ digits.length := by
  obtain ⟨lead, hlead, h⟩ := List.any_eq_true.mp h
  simp only [Bool.and_eq_true, decide_eq_true_eq, List.isPrefixOf_iff_prefix] at h
  have hlength := h.1.1.length_le
  rw [String.length_toList] at hlength
  exact ⟨lead, hlead, h.1.1, by omega⟩

/-- The classifier over digits. -/
theorem classify_digits (h : ∀ c ∈ digits, isDigit c = true) :
    classifyOutboundDialNumber (String.ofList digits) =
      if leadThen ["00"] 3 digits.length digits then .international
      else if leadThen ["060"] 7 8 digits then .paid
      else if leadThen ["15", "16", "18"] 6 6 digits then .representative
      else if isAllowedDomesticDialNumber digits then .domestic
      else .unsupported := by
  unfold classifyOutboundDialNumber
  rw [String.toList_ofList, trimChars_digits h]
  dsimp only
  rw [filter_digits h, Bool.or_self]
  cases digits with
  | nil => rfl
  | cons c digits =>
    have hplus : ['+'].isPrefixOf (c :: digits) = false := by
      have hne : c ≠ '+' := ne_of_isDigit (h c List.mem_cons_self) rfl
      simp [List.isPrefixOf, Ne.symm hne]
    rw [if_neg (by simp), hplus, Bool.false_or]

/-- A number has one of two leads that differ. -/
theorem leadThen_apart {leads leads' : List String} {least most least' most' : Nat}
    (hapart : ∀ a ∈ leads, ∀ b ∈ leads', ¬ a.toList <+: b.toList ∧ ¬ b.toList <+: a.toList)
    (h : leadThen leads least most digits = true) : leadThen leads' least' most' digits = false := by
  cases h' : leadThen leads' least' most' digits with
  | false => rfl
  | true =>
    obtain ⟨a, ha, hfront, -⟩ := leads_of_leadThen h
    obtain ⟨b, hb, hfront', -⟩ := leads_of_leadThen h'
    rcases List.prefix_or_prefix_of_prefix hfront hfront' with hab | hba
    · exact absurd hab (hapart a ha b hb).1
    · exact absurd hba (hapart a ha b hb).2

/-- A number with a lead has every shorter lead. -/
theorem leadThen_shorter {leads : List String} {lead : String} {least most least' : Nat}
    (hshorter : ∀ a ∈ leads, lead.toList <+: a.toList ∧ lead.length + least' ≤ a.length + least)
    (h : leadThen leads least most digits = true) :
    leadThen [lead] least' digits.length digits = true := by
  obtain ⟨a, ha, hfront, hlength⟩ := leads_of_leadThen h
  obtain ⟨hlead, hle⟩ := hshorter a ha
  have hlong : least' ≤ digits.length - lead.length := by omega
  simp [leadThen, (hlead.trans hfront), hlong]

/-- The domestic numbers start with a zero, but neither with two nor like the paid ones. -/
theorem domestic_lead (h : isAllowedDomesticDialNumber digits = true) :
    leadThen ["0"] 2 digits.length digits = true ∧ leadThen ["00"] 1 digits.length digits = false ∧
      leadThen ["060"] 7 8 digits = false := by
  simp only [isAllowedDomesticDialNumber, Bool.or_eq_true] at h
  rcases h with (((h | h) | h) | h) | h <;>
    exact ⟨leadThen_shorter (by decide) h, leadThen_apart (by decide) h, leadThen_apart (by decide) h⟩

/-- The server and the patterns agree on the category of a number that the server knows. -/
theorem routeCategory_of_classify (h : ∀ c ∈ digits, isDigit c = true)
    (hknown : classifyOutboundDialNumber (String.ofList digits) ≠ .unsupported) :
    routeCategory digits = some (classifyOutboundDialNumber (String.ofList digits)) := by
  rw [classify_digits h] at hknown ⊢
  unfold routeCategory
  by_cases hinternational : leadThen ["00"] 3 digits.length digits = true
  · have hroute : leadThen ["00"] 1 digits.length digits = true :=
      leadThen_shorter (by decide) hinternational
    rw [if_pos hinternational, if_pos hroute]
  · rw [if_neg hinternational] at hknown ⊢
    by_cases hpaid : leadThen ["060"] 7 8 digits = true
    · have hroute : leadThen ["00"] 1 digits.length digits = false := leadThen_apart (by decide) hpaid
      simp only [hpaid, hroute, Bool.false_eq_true, if_false, if_true]
    · rw [if_neg hpaid] at hknown ⊢
      by_cases hrepresentative : leadThen ["15", "16", "18"] 6 6 digits = true
      · have hinternational' : leadThen ["00"] 1 digits.length digits = false :=
          leadThen_apart (by decide) hrepresentative
        have hdomestic : leadThen ["0"] 2 digits.length digits = false :=
          leadThen_apart (by decide) hrepresentative
        simp only [hrepresentative, hinternational', hpaid, hdomestic, Bool.false_eq_true, if_false,
          if_true]
      · rw [if_neg hrepresentative] at hknown ⊢
        have hdomestic : isAllowedDomesticDialNumber digits = true := by
          by_contra hno
          rw [if_neg hno] at hknown
          exact hknown rfl
        obtain ⟨hlead, hinternational', hpaid'⟩ := domestic_lead hdomestic
        simp only [hdomestic, hinternational', hpaid', hrepresentative, hlead, Bool.false_eq_true,
          if_false, if_true]

/-- A number that the server does not know, but that the patterns of a permission let out:
two zeros with one or two digits behind them, or a zero with two or more digits that is
neither paid nor domestic. -/
def LetOut (permissions : OutboundDialPermissions) (digits : Text) : Prop :=
  (permissions.international = true ∧ leadThen ["00"] 1 2 digits = true) ∨
    (permissions.domestic = true ∧ leadThen ["0"] 2 digits.length digits = true ∧
      leadThen ["00"] 1 digits.length digits = false ∧ leadThen ["060"] 7 8 digits = false ∧
      isAllowedDomesticDialNumber digits = false)

instance (permissions : OutboundDialPermissions) (digits : Text) :
    Decidable (LetOut permissions digits) := inferInstanceAs (Decidable (_ ∨ _))

/-- Two zeros and a digit: so many digits that the server knows the number, or not. -/
theorem leadThen_zeros (digits : Text) : leadThen ["00"] 1 digits.length digits =
    (leadThen ["00"] 3 digits.length digits || leadThen ["00"] 1 2 digits) := by
  simp only [leadThen, List.any_cons, List.any_nil, Bool.or_false, Bool.and_assoc,
    ← Bool.and_or_distrib_left, ← Bool.decide_and, ← Bool.decide_or]
  congr 1
  rw [decide_eq_decide]
  omega

/-- The server knows no number that is let out. -/
theorem unsupported_of_letOut (h : ∀ c ∈ digits, isDigit c = true)
    {permissions : OutboundDialPermissions} (hout : LetOut permissions digits) :
    classifyOutboundDialNumber (String.ofList digits) = .unsupported := by
  rw [classify_digits h]
  rcases hout with ⟨-, hzeros⟩ | ⟨-, hlead, hzeros, hpaid, hdomestic⟩
  · have hlong : leadThen ["00"] 3 digits.length digits = false := by
      obtain ⟨lead, hlead, -, hlength⟩ := leads_of_leadThen hzeros
      simp only [leadThen, List.any_cons, List.any_nil, Bool.or_false, Bool.and_eq_true,
        decide_eq_true_eq] at hzeros
      simp only [leadThen, List.any_cons, List.any_nil, Bool.or_false, Bool.and_eq_false_iff,
        decide_eq_false_iff_not]
      omega
    have hpaid : leadThen ["060"] 7 8 digits = false := leadThen_apart (by decide) hzeros
    have hrepresentative : leadThen ["15", "16", "18"] 6 6 digits = false :=
      leadThen_apart (by decide) hzeros
    have hdomestic : isAllowedDomesticDialNumber digits = false := by
      cases hd : isAllowedDomesticDialNumber digits with
      | false => rfl
      | true =>
        have hno := (domestic_lead hd).2.1
        rw [leadThen_zeros, hzeros, Bool.or_true] at hno
        cases hno
    simp only [hlong, hpaid, hrepresentative, hdomestic, Bool.false_eq_true, if_false]
  · have hrepresentative : leadThen ["15", "16", "18"] 6 6 digits = false :=
      leadThen_apart (by decide) hlead
    rw [leadThen_zeros, Bool.or_eq_false_iff] at hzeros
    simp only [hzeros.1, hpaid, hrepresentative, hdomestic, Bool.false_eq_true, if_false]

/-- The patterns and the server come to the same exactly when the number is not let out. -/
theorem letOut_iff (h : ∀ c ∈ digits, isDigit c = true) (permissions : OutboundDialPermissions) :
    ((routeCategory digits).any (opens permissions) =
        opens permissions (classifyOutboundDialNumber (String.ofList digits))) ↔
      ¬ LetOut permissions digits := by
  by_cases hknown : classifyOutboundDialNumber (String.ofList digits) = .unsupported
  · have hclosed : leadThen ["00"] 3 digits.length digits = false ∧
        leadThen ["060"] 7 8 digits = false ∧ leadThen ["15", "16", "18"] 6 6 digits = false ∧
        isAllowedDomesticDialNumber digits = false := by
      rw [classify_digits h] at hknown
      split at hknown
      · cases hknown
      · rename_i hlong
        split at hknown
        · cases hknown
        · rename_i hpaid
          split at hknown
          · cases hknown
          · rename_i hrepresentative
            split at hknown
            · cases hknown
            · rename_i hdomestic
              exact ⟨eq_false_of_ne_true hlong, eq_false_of_ne_true hpaid,
                eq_false_of_ne_true hrepresentative, eq_false_of_ne_true hdomestic⟩
    obtain ⟨hlong, hpaid, hrepresentative, hdomestic⟩ := hclosed
    have hzeros := leadThen_zeros digits
    rw [hlong, Bool.false_or] at hzeros
    simp only [hknown, opens, routeCategory, LetOut, hpaid, hrepresentative, hdomestic, hzeros]
    cases leadThen ["00"] 1 2 digits <;> cases leadThen ["0"] 2 digits.length digits <;>
      simp [opens]
  · refine iff_of_true ?_ (fun hout => hknown (unsupported_of_letOut h hout))
    rw [routeCategory_of_classify h hknown]
    rfl

end Digits

end KasterCti.Renderers
