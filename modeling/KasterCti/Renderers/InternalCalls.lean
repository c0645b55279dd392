import KasterCti.Renderers.PhoneCalls

/-!
# Internal calls

A telephone reaches the extension of another agent over the pattern for its length, unless
the number is one of the representative ones, which have patterns of their own
(`internal_call_iff`). A code that no internal pattern catches takes no call away.
-/

namespace KasterCti.Renderers

open Dialplan Machine
open ArsFlow (plainStep varRef given)
open Common

/-! ## The groups of the extensions -/

/-- Whether the code is caught by the pattern of internal calls. -/
def isShadowedByInternalPattern (code : String) (extensions : List String) : Bool :=
  let target := JsText.trimChars code.toList
  if target = [] || !target.all isDigit then false
  else
    match JsMap.get (groupFirstDigitsByLength extensions) target.length with
    | none => false
    | some firstDigits => target.headD '0' ∈ firstDigits

/-- The digits of a group. -/
structure FirstDigits (digits : List Char) : Prop where
  nodup : digits.Nodup
  digits : ∀ d ∈ digits, isDigit d = true ∧ d ≠ '0'

theorem FirstDigits.add {digits : List Char} (h : FirstDigits digits) {first : Char}
    (hfirst : isDigit first = true) (hzero : first ≠ '0') :
    FirstDigits (if first ∈ digits then digits else digits ++ [first]) := by
  split
  · exact h
  · rename_i hmem
    refine ⟨JsMap.nodup_append_singleton h.nodup hmem, ?_⟩
    exact List.forall_mem_append.mpr ⟨h.digits, by simpa using ⟨hfirst, hzero⟩⟩

theorem mem_add {digits : List Char} {first d : Char} :
    d ∈ (if first ∈ digits then digits else digits ++ [first]) ↔ d ∈ digits ∨ d = first := by
  split
  · rename_i hmem
    refine ⟨.inl, ?_⟩
    rintro (hd | rfl)
    · exact hd
    · exact hmem
  · rw [List.mem_append, List.mem_singleton]

/-- The first digits that the extensions are grouped by. -/
structure Groups (extensions : List String) (groups : List (Nat × List Char)) : Prop where
  nodup : (JsMap.keys groups).Nodup
  positive : ∀ group ∈ groups, 0 < group.1
  digits : ∀ group ∈ groups, FirstDigits group.2
  covers : ∀ extension ∈ extensions, isExtensionNumber (JsText.trimChars extension.toList) = true →
    ∃ firstDigits, JsMap.get groups (JsText.trimChars extension.toList).length = some firstDigits ∧
      (JsText.trimChars extension.toList).headD '0' ∈ firstDigits

theorem Groups.firstDigits {extensions : List String} {groups : List (Nat × List Char)}
    (h : Groups extensions groups) (length : Nat) :
    FirstDigits ((JsMap.get groups length).getD []) := by
  cases hget : JsMap.get groups length with
  | none => exact ⟨List.nodup_nil, by simp⟩
  | some firstDigits => exact h.digits _ (JsMap.mem_of_get hget)

/-- One more extension. -/
theorem Groups.add {extensions : List String} {groups : List (Nat × List Char)}
    (h : Groups extensions groups) {raw : String} {first : Char} {rest : Text}
    (hraw : JsText.trimChars raw.toList = first :: rest) (hfirst : isDigit first = true)
    (hzero : first ≠ '0') :
    Groups (extensions ++ [raw]) (JsMap.set groups (first :: rest).length
      (if first ∈ (JsMap.get groups (first :: rest).length).getD []
        then (JsMap.get groups (first :: rest).length).getD []
        else (JsMap.get groups (first :: rest).length).getD [] ++ [first])) where
  nodup := JsMap.nodup_keys_set h.nodup
  positive := by
    intro group hgroup
    rcases JsMap.mem_set hgroup with rfl | hgroup
    · exact Nat.succ_pos _
    · exact h.positive group hgroup
  digits := by
    intro group hgroup
    rcases JsMap.mem_set hgroup with rfl | hgroup
    · exact (h.firstDigits _).add hfirst hzero
    · exact h.digits group hgroup
  covers := by
    intro extension hextension hnumber
    rw [JsMap.get_set]
    rcases List.mem_append.mp hextension with hextension | hextension
    · obtain ⟨firstDigits, hget, hmem⟩ := h.covers extension hextension hnumber
      split
      · rename_i hsame
        refine ⟨_, rfl, mem_add.mpr (.inl ?_)⟩
        rw [← hsame, hget]
        exact hmem
      · exact ⟨firstDigits, hget, hmem⟩
    · obtain rfl := List.mem_singleton.mp hextension
      rw [hraw, if_pos rfl]
      exact ⟨_, rfl, mem_add.mpr (.inr rfl)⟩

theorem groups_of_extensions (extensions : List String) :
    Groups extensions (groupFirstDigitsByLength extensions) := by
  induction extensions using List.reverseRecOn with
  | nil => exact ⟨List.nodup_nil, by simp [groupFirstDigitsByLength],
      by simp [groupFirstDigitsByLength], by simp⟩
  | append_singleton extensions raw ih =>
    rw [groupFirstDigitsByLength, List.foldl_append, List.foldl_cons, List.foldl_nil,
      ← groupFirstDigitsByLength]
    dsimp only
    by_cases hnumber : isExtensionNumber (JsText.trimChars raw.toList) = true
    · rw [if_pos hnumber]
      cases hraw : JsText.trimChars raw.toList with
      | nil =>
        rw [hraw] at hnumber
        cases hnumber
      | cons first rest =>
        rw [hraw] at hnumber
        simp only [isExtensionNumber, Bool.and_eq_true, decide_eq_true_eq] at hnumber
        exact ih.add hraw hnumber.1.1 hnumber.1.2
    · rw [if_neg hnumber]
      refine ⟨ih.nodup, ih.positive, ih.digits, ?_⟩
      intro extension hextension hextensionNumber
      rcases List.mem_append.mp hextension with hextension | hextension
      · exact ih.covers extension hextension hextensionNumber
      · obtain rfl := List.mem_singleton.mp hextension
        exact absurd hextensionNumber hnumber

/-! ## The internal patterns -/

section Patterns
variable {extensions : List String}

variable {pattern : String}

theorem mem_internalPatterns :
    pattern ∈ buildInternalExtensionPatterns extensions ↔ ∃ length digits,
      JsMap.get (groupFirstDigitsByLength extensions) length = some digits ∧
        internalPattern length digits = pattern := by
  rw [buildInternalExtensionPatterns, List.mem_map]
  constructor
  · rintro ⟨group, hgroup, rfl⟩
    exact ⟨group.1, group.2, JsMap.get_of_mem (groups_of_extensions extensions).nodup
      ((List.mem_insertionSort _).mp hgroup), rfl⟩
  · rintro ⟨length, digits, hget, rfl⟩
    exact ⟨(length, digits), (List.mem_insertionSort _).mpr (JsMap.mem_of_get hget), rfl⟩

/-- An internal pattern: the first digit is not zero, and so many digits follow. -/
theorem patternOf_internal (h : pattern ∈ buildInternalExtensionPatterns extensions) :
    ∃ length digits, JsMap.get (groupFirstDigitsByLength extensions) (length + 1) = some digits ∧
      pattern = internalPattern (length + 1) digits ∧
      FirstDigits (digits.insertionSort (· ≤ ·)) ∧
      patternOf pattern.toList = some (.one (digits.insertionSort (· ≤ ·)) ::
        List.replicate length (.one (digitsFrom 0))) := by
  obtain ⟨length, digits, hget, rfl⟩ := mem_internalPatterns.mp h
  have hmem := JsMap.mem_of_get hget
  have hgroups := groups_of_extensions extensions
  obtain ⟨length, rfl⟩ := Nat.exists_eq_succ_of_ne_zero (hgroups.positive _ hmem).ne'
  have hdigits := hgroups.digits _ hmem
  refine ⟨length, digits, hget, rfl, ⟨?_, ?_⟩, ?_⟩
  · exact (List.perm_insertionSort _ _).nodup_iff.mpr hdigits.nodup
  · intro d hd
    exact hdigits.digits d ((List.mem_insertionSort _).mp hd)
  · exact patternOf_internalPattern (length + 1) (fun d hd => (hdigits.digits d hd).1)

/-- A number matches the pattern for its length, by its first digit. -/
theorem matches_internalPattern {length : Nat} {digits : List Char}
    (hdigits : ∀ d ∈ digits, isDigit d = true) {number : Text} (hnumber : IsDigits number) :
    matchesExten (internalPattern (length + 1) digits).toList number =
      (decide (number.length = length + 1) && decide (number.headD '0' ∈ digits)) := by
  rw [matchesExten, patternOf_internalPattern _ hdigits]
  cases number with
  | nil => rfl
  | cons c number =>
    have hrest : IsDigits number := fun d hd => hnumber d (List.mem_cons_of_mem _ hd)
    simp only [matchElems, Nat.add_sub_cancel, List.mem_insertionSort, matchElems_row hrest,
      List.length_cons, List.headD_cons, Nat.add_right_cancel_iff]
    exact Bool.and_comm _ _

/-- A code is shadowed exactly when an internal pattern matches it. -/
theorem isShadowedByInternalPattern_eq (code : String) :
    isShadowedByInternalPattern code extensions =
      (buildInternalExtensionPatterns extensions).any
        (fun pattern => matchesExten pattern.toList (JsText.trimChars code.toList)) := by
  have hgroups := groups_of_extensions extensions
  unfold isShadowedByInternalPattern
  generalize JsText.trimChars code.toList = target
  dsimp only
  by_cases hnumber : IsDigits target
  · have hmatch : ∀ length digits,
        JsMap.get (groupFirstDigitsByLength extensions) length = some digits →
        matchesExten (internalPattern length digits).toList target =
          (decide (target.length = length) && decide (target.headD '0' ∈ digits)) := by
      intro length digits hget
      have hmem := JsMap.mem_of_get hget
      obtain ⟨length, rfl⟩ := Nat.exists_eq_succ_of_ne_zero (hgroups.positive _ hmem).ne'
      exact matches_internalPattern (fun d hd => ((hgroups.digits _ hmem).digits d hd).1) hnumber
    have hall : target.all isDigit = true := List.all_eq_true.mpr hnumber
    rw [Bool.eq_iff_iff, List.any_eq_true]
    constructor
    · intro hshadowed
      split at hshadowed
      · cases hshadowed
      · split at hshadowed
        · cases hshadowed
        · rename_i firstDigits hget
          refine ⟨_, mem_internalPatterns.mpr ⟨_, _, hget, rfl⟩, ?_⟩
          rw [hmatch _ _ hget, decide_eq_true rfl, hshadowed]
          rfl
    · rintro ⟨pattern, hpattern, hmatches⟩
      obtain ⟨length, digits, hget, rfl⟩ := mem_internalPatterns.mp hpattern
      rw [hmatch _ _ hget, Bool.and_eq_true, decide_eq_true_eq] at hmatches
      obtain ⟨rfl, hfirst⟩ := hmatches
      have hne : target ≠ [] := by
        rintro rfl
        exact absurd (hgroups.positive _ (JsMap.mem_of_get hget)) (Nat.lt_irrefl 0)
      rw [hall, decide_eq_false hne, if_neg (by decide), hget]
      exact hfirst
  · have hall : target.all isDigit = false := by
      rw [← Bool.not_eq_true, List.all_eq_true]
      exact hnumber
    rw [hall, Bool.not_false, Bool.or_true, if_pos rfl, eq_comm, List.any_eq_false]
    intro pattern hpattern hmatches
    exact hnumber (all_isDigit_of_internal hpattern hmatches)

/-- A group stems from extensions of its length. -/
theorem exists_extension_of_group {group : Nat × List Char}
    (hgroup : group ∈ groupFirstDigitsByLength extensions) :
    ∃ extension ∈ extensions, isExtensionNumber (JsText.trimChars extension.toList) = true ∧
      (JsText.trimChars extension.toList).length = group.1 := by
  induction extensions using List.reverseRecOn with
  | nil => cases hgroup
  | append_singleton extensions raw ih =>
    rw [groupFirstDigitsByLength, List.foldl_append, List.foldl_cons, List.foldl_nil,
      ← groupFirstDigitsByLength] at hgroup
    have hearlier : group ∈ groupFirstDigitsByLength extensions →
        ∃ extension ∈ extensions ++ [raw],
          isExtensionNumber (JsText.trimChars extension.toList) = true ∧
            (JsText.trimChars extension.toList).length = group.1 := fun hgroup =>
      (ih hgroup).imp fun extension h => ⟨List.mem_append_left _ h.1, h.2⟩
    dsimp only at hgroup
    split at hgroup
    · rename_i hnumber
      rcases JsMap.mem_set hgroup with rfl | hgroup
      · exact ⟨raw, List.mem_append_right _ (List.mem_singleton_self raw), hnumber, rfl⟩
      · exact hearlier hgroup
    · exact hearlier hgroup

/-- The text and the test: the patterns match the digit strings that are shadowed, among them
every extension, and nothing that begins with a zero or has the length of no extension. -/
theorem internalPatterns_agree (extensions : List String) :
    (∀ code : String, IsDigits code.toList →
      ((∃ pattern ∈ buildInternalExtensionPatterns extensions,
          matchesExten pattern.toList code.toList = true) ↔
        isShadowedByInternalPattern code extensions = true)) ∧
    (∀ extension ∈ extensions, isExtensionNumber (JsText.trimChars extension.toList) = true →
      ∃ pattern ∈ buildInternalExtensionPatterns extensions,
        matchesExten pattern.toList (JsText.trimChars extension.toList) = true) ∧
    (∀ number : Text, number.head? = some '0' →
      ∀ pattern ∈ buildInternalExtensionPatterns extensions,
        matchesExten pattern.toList number = false) ∧
    (∀ number : Text,
      (∀ extension ∈ extensions, isExtensionNumber (JsText.trimChars extension.toList) = true →
        (JsText.trimChars extension.toList).length ≠ number.length) →
      ∀ pattern ∈ buildInternalExtensionPatterns extensions,
        matchesExten pattern.toList number = false) := by
  have hgroups := groups_of_extensions extensions
  -- what a match says of the number, and of the group of the pattern
  have hmatch : ∀ pattern ∈ buildInternalExtensionPatterns extensions, ∀ number : Text,
      matchesExten pattern.toList number = true → ∃ digits,
        (number.length, digits) ∈ groupFirstDigitsByLength extensions ∧
          number.headD '0' ∈ digits := by
    intro pattern hpattern number hmatches
    have hnumber := all_isDigit_of_internal hpattern hmatches
    obtain ⟨length, digits, hget, rfl⟩ := mem_internalPatterns.mp hpattern
    have hmem := JsMap.mem_of_get hget
    obtain ⟨length, rfl⟩ := Nat.exists_eq_succ_of_ne_zero (hgroups.positive _ hmem).ne'
    rw [matches_internalPattern (fun d hd => ((hgroups.digits _ hmem).digits d hd).1) hnumber,
      Bool.and_eq_true, decide_eq_true_eq, decide_eq_true_eq] at hmatches
    exact ⟨digits, hmatches.1 ▸ hmem, hmatches.2⟩
  refine ⟨fun code hcode => ?_, fun extension hextension hnumber => ?_,
    fun number hzero pattern hpattern => ?_, fun number hlength pattern hpattern => ?_⟩
  · have htrim : JsText.trimChars code.toList = code.toList :=
      JsText.trimChars_eq_self fun c hc => JsText.isWhitespace_of_isDigit (hcode c hc)
    rw [isShadowedByInternalPattern_eq, htrim, List.any_eq_true]
  · obtain ⟨firstDigits, hget, hfirst⟩ := hgroups.covers extension hextension hnumber
    have hmem := JsMap.mem_of_get hget
    refine ⟨_, mem_internalPatterns.mpr ⟨_, firstDigits, hget, rfl⟩, ?_⟩
    cases htrim : JsText.trimChars extension.toList with
    | nil => rw [htrim] at hnumber; cases hnumber
    | cons first rest =>
      rw [htrim] at hnumber hfirst hmem
      simp only [isExtensionNumber, Bool.and_eq_true, decide_eq_true_eq] at hnumber
      rw [List.length_cons,
        matches_internalPattern (fun d hd => ((hgroups.digits _ hmem).digits d hd).1)]
      · simpa using hfirst
      · exact List.forall_mem_cons.mpr ⟨hnumber.1.1, List.all_eq_true.mp hnumber.2⟩
  · rw [← Bool.not_eq_true]
    intro hmatches
    obtain ⟨digits, hmem, hfirst⟩ := hmatch pattern hpattern number hmatches
    rw [List.headD_eq_head?_getD, hzero] at hfirst
    exact ((hgroups.digits _ hmem).digits _ hfirst).2 rfl
  · rw [← Bool.not_eq_true]
    intro hmatches
    obtain ⟨digits, hmem, -⟩ := hmatch pattern hpattern number hmatches
    obtain ⟨extension, hextension, hnumber, hsame⟩ := exists_extension_of_group hmem
    exact hlength extension hextension hnumber hsame

/-! ## Which pattern is more specific -/

theorem foldr_min_le (codes : List Nat) : codes.foldr min 255 ≤ 255 := by
  induction codes with
  | nil => exact le_refl 255
  | cons code codes ih => exact (min_le_right _ _).trans ih

theorem le_foldr_min {least : Nat} (hleast : least ≤ 255) {codes : List Nat}
    (h : ∀ code ∈ codes, least ≤ code) : least ≤ codes.foldr min 255 := by
  induction codes with
  | nil => exact hleast
  | cons code codes ih =>
    exact le_min (h code List.mem_cons_self) (ih (fun c hc => h c (List.mem_cons_of_mem _ hc)))

/-- A set of first digits is smaller than that of all digits. -/
theorem rank_firstDigits_lt {digits : List Char} (h : FirstDigits digits) :
    (Elem.one digits).rank < (Elem.one (digitsFrom 0)).rank := by
  have hsubset : digits ⊆ digitsFrom 1 := by
    intro d hd
    have hmem : d ∈ digitsFrom 0 := mem_digitsFrom_zero.mpr (h.digits d hd).1
    exact (List.mem_cons.mp hmem).resolve_left (h.digits d hd).2
  have hlength : digits.length ≤ 9 := (h.nodup.subperm hsubset).length_le
  have hmin := foldr_min_le (digits.map Char.toNat)
  have hall : (Elem.one (digitsFrom 0)).rank = 2608 := by decide
  rw [hall, Elem.rank]
  omega

/-- No set of first digits is smaller than that of the digit one, which is the only one of its
rank. -/
theorem rank_one_le {digits : List Char} (hne : digits ≠ []) (h : FirstDigits digits) :
    (Elem.one ['1']).rank ≤ (Elem.one digits).rank := by
  have hcodes : ∀ code ∈ digits.map Char.toNat, 49 ≤ code := by
    intro code hcode
    obtain ⟨d, hd, rfl⟩ := List.mem_map.mp hcode
    have hmem : d ∈ digitsFrom 0 := mem_digitsFrom_zero.mpr (h.digits d hd).1
    have hall : ∀ d ∈ digitsFrom 1, 49 ≤ d.toNat := by decide
    exact hall d ((List.mem_cons.mp hmem).resolve_left (h.digits d hd).2)
  have hlength := List.length_pos_iff.mpr hne
  have hmin := le_foldr_min (by decide) hcodes
  have hone : (Elem.one ['1']).rank = 305 := by decide
  rw [hone, Elem.rank]
  omega

/-- An internal pattern is more specific than the pattern for everything. -/
theorem internal_beats_rest (h : pattern ∈ buildInternalExtensionPatterns extensions) :
    Beats pattern.toList "_X.".toList := by
  obtain ⟨length, digits, -, -, hdigits, hpattern⟩ := patternOf_internal h
  have hrank := rank_firstDigits_lt hdigits
  refine beats_of_moreSpecific hpattern (show patternOf "_X.".toList =
    some [.one (digitsFrom 0), .wild] from rfl) ?_ ?_
  · simp [moreSpecific, hrank]
  · simp [moreSpecific, hrank.le, hrank.ne']

/-- The pattern of a representative number is more specific than an internal one that some
number matches. -/
theorem representative_beats_internal {route : String × OutboundDialNumberCategory}
    (hroute : route ∈ orderedPatterns) (hcategory : route.2 = .representative)
    (h : pattern ∈ buildInternalExtensionPatterns extensions) {number : Text}
    (hmatch : matchesExten pattern.toList number = true) : Beats route.1.toList pattern.toList := by
  obtain ⟨length, digits, -, -, hdigits, hpattern⟩ := patternOf_internal h
  obtain ⟨second, hsecond, hrep⟩ : ∃ second,
      (Elem.one [second]).rank < (Elem.one (digitsFrom 0)).rank ∧ patternOf route.1.toList =
        some (.one ['1'] :: .one [second] :: List.replicate 6 (.one (digitsFrom 0))) := by
    simp only [orderedPatterns, List.mem_cons, List.not_mem_nil, or_false] at hroute
    rcases hroute with rfl | rfl | rfl | rfl | rfl | rfl | rfl
    · cases hcategory
    · cases hcategory
    · cases hcategory
    · cases hcategory
    · exact ⟨'5', by decide, rfl⟩
    · exact ⟨'6', by decide, rfl⟩
    · exact ⟨'8', by decide, rfl⟩
  generalize digits.insertionSort (· ≤ ·) = sorted at hdigits hpattern
  have hne : sorted ≠ [] := by
    rintro rfl
    rw [matchesExten, hpattern] at hmatch
    cases number <;> cases hmatch
  -- the first digits decide, or else the second position does
  refine beats_of_moreSpecific hrep hpattern ?_ ?_
  · rcases (rank_one_le hne hdigits).lt_or_eq with hlt | heq
    · simp [moreSpecific, hlt]
    · cases length with
      | zero => simp [moreSpecific, heq]
      | succ length => simp [moreSpecific, heq, List.replicate_succ, hsecond]
  · rcases (rank_one_le hne hdigits).lt_or_eq with hlt | heq
    · simp [moreSpecific, hlt.le, hlt.ne']
    · cases length with
      | zero => simp [moreSpecific, heq]
      | succ length =>
        simp [moreSpecific, heq, List.replicate_succ, hsecond.le, hsecond.ne']

/-- No pattern of the way out is an internal one. -/
theorem route_ne_internal {route : String × OutboundDialNumberCategory}
    (hroute : route ∈ orderedPatterns) (h : pattern ∈ buildInternalExtensionPatterns extensions) :
    route.1 ≠ pattern := by
  rintro rfl
  obtain ⟨length, digits, -, -, hdigits, hpattern⟩ := patternOf_internal h
  generalize digits.insertionSort (· ≤ ·) = sorted at hdigits hpattern
  have hzero : sorted ≠ ['0'] := by
    rintro rfl
    exact (hdigits.digits '0' List.mem_cons_self).2 rfl
  have hfirst : ∀ {rest : List Elem}, some (.one ['0'] :: rest) ≠
      some (.one sorted :: List.replicate length (.one (digitsFrom 0))) := by
    intro rest heq
    exact hzero (Elem.one.inj (List.cons.inj (Option.some.inj heq)).1).symm
  have hsecond : ∀ {second : Char} {rest : List Elem}, [second] ≠ digitsFrom 0 →
      some (.one ['1'] :: .one [second] :: rest) ≠
        some (.one sorted :: List.replicate length (.one (digitsFrom 0))) := by
    intro second rest hne heq
    have hrow := (List.cons.inj (Option.some.inj heq)).2
    cases length with
    | zero => cases hrow
    | succ length => exact hne (Elem.one.inj (List.cons.inj hrow).1)
  simp only [orderedPatterns, List.mem_cons, List.not_mem_nil, or_false] at hroute
  rcases hroute with rfl | rfl | rfl | rfl | rfl | rfl | rfl
  · exact hfirst hpattern
  · exact hfirst hpattern
  · exact hfirst hpattern
  · exact hfirst hpattern
  · exact hsecond (by decide) hpattern
  · exact hsecond (by decide) hpattern
  · exact hsecond (by decide) hpattern

end Patterns

/-! ## The blocks of a telephone -/

/-- A code that takes no internal call away: no extension, and under no internal pattern. -/
structure FreeCode (extensions : List String) (code : String) : Prop where
  keys : ∀ c ∈ code.toList, isDigit c = true ∨ c = '*' ∨ c = '#'
  free : code ∉ extensions
  unshadowed : isShadowedByInternalPattern code extensions = false

/-- A block of a telephone that is not locked in full. -/
inductive PhoneBlock (extensions : List String) (agent : AgentDialplanAgentInput) (block : Block) :
    Prop
  | route {route : String × OutboundDialNumberCategory} : route ∈ orderedPatterns →
      block.exten = route.1.toList → PhoneBlock extensions agent block
  | rest : block.exten = "_X.".toList → PhoneBlock extensions agent block
  | literal : patternOf block.exten = none → (∀ extension ∈ extensions,
      block.exten ≠ extension.toList) → PhoneBlock extensions agent block
  | internal {pattern : String} : pattern ∈ buildInternalExtensionPatterns extensions →
      block = internalBlock agent pattern → PhoneBlock extensions agent block

section Blocks
variable {input : AgentDialplanInput} {agent : AgentDialplanAgentInput}

variable {extensions : List String}

theorem phoneBlock_code {code : String} (h : FreeCode extensions code) {block : Block}
    (hexten : block.exten = code.toList) : PhoneBlock extensions agent block := by
  refine .literal ?_ ?_
  · rw [hexten]
    cases hcode : code.toList with
    | nil => rfl
    | cons c rest =>
      have hkey := h.keys c (by rw [hcode]; exact List.mem_cons_self)
      have hc : c ≠ '_' := by
        rintro rfl
        rcases hkey with hkey | hkey | hkey
        · cases hkey
        · exact absurd hkey (by decide)
        · exact absurd hkey (by decide)
      rw [patternOf]
      exact fun t ht => hc (List.cons.inj ht).1
  · intro extension hextension hsame
    rw [hexten, String.toList_inj] at hsame
    exact h.free (hsame ▸ hextension)

theorem phoneBlock_outbound {allowed : Bool} :
    ∀ block ∈ outboundEntryBlocks agent allowed, PhoneBlock extensions agent block := by
  have hroutes : ∀ route ∈ getAllowedOutboundDialplanPatterns agent.outboundDialPermissions,
      ∀ block : Block, block.exten = route.1.toList → PhoneBlock extensions agent block := by
    intro route hroute block hexten
    obtain ⟨category, hmem, -⟩ := of_mem_allowed hroute
    exact .route hmem hexten
  intro block hblock
  simp only [outboundEntryBlocks] at hblock
  split at hblock
  · rcases List.mem_append.mp hblock with hblock | hblock
    · split at hblock
      · obtain rfl := List.mem_singleton.mp hblock
        exact .rest rfl
      · split at hblock
        · obtain rfl := List.mem_singleton.mp hblock
          exact .rest rfl
        · cases hblock
    · obtain ⟨route, hroute, rfl⟩ := List.mem_map.mp hblock
      exact hroutes route hroute _ rfl
  · obtain ⟨route, hroute, rfl⟩ := List.mem_map.mp hblock
    exact hroutes route hroute _ rfl

theorem phoneBlock_speedDials {allowed : Bool} {blocks : List Block}
    (hspeed : ∀ item ∈ input.speedDials, item.enabled = true → FreeCode extensions item.code)
    (h : renderAgentSpeedDialLines agent allowed input.speedDials extensions = .ok blocks) :
    ∀ block ∈ blocks, PhoneBlock extensions agent block := by
  unfold renderAgentSpeedDialLines at h
  split at h
  · rw [← pure_eq_ok.mp h]
    simp
  · intro block hblock
    obtain ⟨item, hitem, hrender⟩ := exists_of_mem_right (mapM_eq_ok.mp h) hblock
    obtain ⟨hmem, henabled⟩ := List.mem_filter.mp hitem
    obtain ⟨-, -, hrender⟩ := bind_eq_ok.mp hrender
    obtain ⟨-, -, hrender⟩ := bind_eq_ok.mp hrender
    obtain ⟨-, -, hrender⟩ := bind_eq_ok.mp hrender
    rw [← pure_eq_ok.mp hrender]
    exact phoneBlock_code (hspeed item hmem henabled) rfl

theorem phoneBlock_features {blocks : List Block}
    (hfeatures : ∀ item ∈ input.featureCodes, item.enabled = true →
      ∀ code, item.code = some code → FreeCode extensions code)
    (h : renderAgentFeatureCodeLines agent input.featureCodes = .ok blocks) :
    ∀ block ∈ blocks, PhoneBlock extensions agent block := by
  obtain ⟨rendered, hrendered, h⟩ := bind_eq_ok.mp h
  rw [← pure_eq_ok.mp h]
  intro block hblock
  obtain ⟨some?, hmem, hsome⟩ := List.mem_filterMap.mp hblock
  obtain ⟨item, hitemMem, hitem⟩ := exists_of_mem_right (mapM_eq_ok.mp hrendered) hmem
  obtain rfl : some? = some block := hsome
  split at hitem
  · cases pure_eq_ok.mp hitem
  · rename_i code hcode
    split at hitem
    · rename_i henabled
      obtain ⟨-, -, hitem⟩ := bind_eq_ok.mp hitem
      split at hitem
      · rw [← Option.some.inj (pure_eq_ok.mp hitem)]
        exact phoneBlock_code (hfeatures item hitemMem (Bool.and_eq_true_iff.mp henabled).1 code
          (Option.filter_eq_some_iff.mp hcode).1) rfl
      · cases pure_eq_ok.mp hitem
    · cases pure_eq_ok.mp hitem

/-- The settings under which internal calls are to be open. -/
structure Numbered (input : AgentDialplanInput) : Prop where
  distinct : (input.agents.map (·.extension)).Nodup
  extensions : ∀ agent ∈ input.agents, isExtensionNumber agent.extension.toList = true
  speedDials : ∀ item ∈ input.speedDials, item.enabled = true →
    FreeCode input.internalExtensions item.code
  featureCodes : ∀ item ∈ input.featureCodes, item.enabled = true →
    ∀ code, item.code = some code → FreeCode input.internalExtensions code

theorem isDigits_of_extensionNumber {t : Text} (h : isExtensionNumber t = true) : IsDigits t := by
  cases t with
  | nil => cases h
  | cons first rest =>
    simp only [isExtensionNumber, Bool.and_eq_true, List.all_eq_true] at h
    exact List.forall_mem_cons.mpr ⟨h.1.1, h.2⟩

theorem Numbered.isDigits (h : Numbered input) :
    ∀ extension ∈ input.internalExtensions, IsDigits extension.toList := by
  intro extension hextension
  obtain ⟨agent, hagent, rfl⟩ := List.mem_map.mp hextension
  exact isDigits_of_extensionNumber (h.extensions agent hagent)

/-- The blocks of a telephone that is not locked in full, with a block for every pattern. -/
theorem phoneBlock_of_render (hnumbered : Numbered input)
    (hlock : agent.extensionLockMode ≠ some .fullLocked) {sec : Section}
    (h : renderAgentEntryContext agent input.allowDirectSipDial input.internalExtensions
      input.speedDials input.featureCodes = .ok sec) :
    (∀ block ∈ sec.blocks, PhoneBlock input.internalExtensions agent block) ∧
      (∀ route ∈ orderedPatterns, ∃ block ∈ sec.blocks, block.exten = route.1.toList) ∧
      ∀ pattern ∈ buildInternalExtensionPatterns input.internalExtensions,
        internalBlock agent pattern ∈ sec.blocks := by
  unfold renderAgentEntryContext at h
  rw [if_neg hlock] at h
  obtain ⟨speed, hspeed, h⟩ := bind_eq_ok.mp h
  obtain ⟨features, hfeatures, h⟩ := bind_eq_ok.mp h
  rw [← pure_eq_ok.mp h]
  refine ⟨?_, ?_, ?_⟩
  · intro block hblock
    simp only [List.mem_append, List.mem_singleton] at hblock
    rcases hblock with ((((hblock | hblock) | hblock) | hblock) | hblock) | rfl
    · obtain ⟨pattern, hpattern, rfl⟩ := List.mem_map.mp hblock
      obtain ⟨category, hmem, -⟩ := of_mem_blocked hpattern
      exact .route hmem rfl
    · exact phoneBlock_outbound block hblock
    · exact phoneBlock_speedDials hnumbered.speedDials hspeed block hblock
    · exact phoneBlock_features hnumbered.featureCodes hfeatures block hblock
    · obtain ⟨pattern, hpattern, rfl⟩ := List.mem_map.mp hblock
      exact .internal hpattern rfl
    · refine .literal rfl ?_
      intro extension hextension hsame
      have hletter : 'u' ∈ extension.toList := by
        rw [← hsame]
        exact show 'u' ∈ "unregistered-agent".toList by decide
      exact notMem_of_digits (hnumbered.isDigits extension hextension) rfl hletter
  · intro route hroute
    have hcover := (patterns_cover agent.outboundDialPermissions).2 route hroute
    split at hcover
    · obtain ⟨allowed, hallowed, hsame⟩ := List.mem_map.mp hcover
      have hmem : ∃ block ∈ outboundEntryBlocks agent
          (directDialAllowed agent input.allowDirectSipDial), block.exten = route.1.toList := by
        simp only [outboundEntryBlocks]
        split
        · exact ⟨_, List.mem_append.mpr (.inr (List.mem_map_of_mem hallowed)), by rw [← hsame]; rfl⟩
        · exact ⟨_, List.mem_map_of_mem hallowed, by rw [← hsame]⟩
      obtain ⟨block, hblock, hexten⟩ := hmem
      exact ⟨block, by simp [hblock], hexten⟩
    · exact ⟨_, by
        simp only [List.mem_append]
        exact .inl (.inl (.inl (.inl (.inl (List.mem_map_of_mem hcover))))), rfl⟩
  · intro pattern hpattern
    simp only [List.mem_append]
    exact .inl (.inr (List.mem_map_of_mem hpattern))

end Blocks

/-! ## Which extension is chosen -/

section Choice
variable {input : AgentDialplanInput} {sections : List Section} {agent : AgentDialplanAgentInput}

/-- The context of a telephone is in the file. -/
theorem exists_phoneSection (hrender : renderAgentDialplan input = .ok sections)
    (hagent : agent ∈ input.agents) : ∃ sec ∈ sections, sec.context = (phoneContext agent).toList ∧
      renderAgentEntryContext agent input.allowDirectSipDial input.internalExtensions
        input.speedDials input.featureCodes = .ok sec := by
  obtain ⟨cidRules, -, h⟩ := bind_eq_ok.mp hrender
  obtain ⟨phones, hphones, h⟩ := bind_eq_ok.mp h
  obtain ⟨routes, -, h⟩ := bind_eq_ok.mp h
  obtain ⟨sec, hsec, hphone⟩ := exists_of_mem_left (mapM_eq_ok.mp hphones) hagent
  refine ⟨sec, ?_, context_of_entry hphone, hphone⟩
  rw [← pure_eq_ok.mp h]
  simp [hsec]

/-- A number that is one of the extensions has a pattern. -/
theorem exists_internalPattern (hnumbered : Numbered input) {extension : String}
    (hextension : extension ∈ input.internalExtensions) :
    ∃ pattern ∈ buildInternalExtensionPatterns input.internalExtensions,
      matchesExten pattern.toList extension.toList = true := by
  have hdigits := hnumbered.isDigits extension hextension
  have htrim := trimChars_digits hdigits
  obtain ⟨callee, hcallee, rfl⟩ := List.mem_map.mp hextension
  have hnumber := hnumbered.extensions callee hcallee
  have hgroups := groups_of_extensions input.internalExtensions
  obtain ⟨firstDigits, hget, hfirst⟩ := hgroups.covers _ hextension (by rw [htrim]; exact hnumber)
  rw [htrim] at hget hfirst
  refine ⟨_, mem_internalPatterns.mpr ⟨_, _, hget, rfl⟩, ?_⟩
  obtain ⟨length, hlength⟩ :=
    Nat.exists_eq_succ_of_ne_zero (hgroups.positive _ (JsMap.mem_of_get hget)).ne'
  have hall : ∀ d ∈ firstDigits, isDigit d = true :=
    fun d hd => ((hgroups.digits _ (JsMap.mem_of_get hget)).digits d hd).1
  dsimp only at hlength
  rw [hlength, matches_internalPattern hall hdigits, hlength]
  simpa using hfirst

/-- Two internal patterns for one number are the same. -/
theorem internalPattern_unique {extensions : List String} {number : Text} {a b : String}
    (ha : a ∈ buildInternalExtensionPatterns extensions)
    (hb : b ∈ buildInternalExtensionPatterns extensions)
    (hmatchA : matchesExten a.toList number = true)
    (hmatchB : matchesExten b.toList number = true) : a = b := by
  have hlength : ∀ {pattern : String}, pattern ∈ buildInternalExtensionPatterns extensions →
      matchesExten pattern.toList number = true → ∃ digits,
        JsMap.get (groupFirstDigitsByLength extensions) number.length = some digits ∧
          internalPattern number.length digits = pattern := by
    intro pattern hpattern hmatch
    obtain ⟨length, digits, hget, rfl, hdigits, -⟩ := patternOf_internal hpattern
    have hall : ∀ d ∈ digits, isDigit d = true :=
      fun d hd => (hdigits.digits d ((List.mem_insertionSort _).mpr hd)).1
    rw [matches_internalPattern hall (all_isDigit_of_internal hpattern hmatch), Bool.and_eq_true,
      decide_eq_true_eq] at hmatch
    rw [hmatch.1]
    exact ⟨digits, hget, rfl⟩
  obtain ⟨digits, hget, rfl⟩ := hlength ha hmatchA
  obtain ⟨digits', hget', rfl⟩ := hlength hb hmatchB
  rw [hget] at hget'
  rw [Option.some.inj hget']

/-- Only representative numbers reach a pattern of the way out with their extension. -/
theorem routeOf_extension {number : Text} (h : isExtensionNumber number = true) :
    (routeOf number).map Prod.snd =
      if leadThen ["15", "16", "18"] 6 6 number then some .representative else none := by
  have hzero : ∀ {lead : String} {least most : Nat}, lead.toList.head? = some '0' →
      leadThen [lead] least most number = false := by
    intro lead least most hlead
    cases number with
    | nil => cases h
    | cons first rest =>
      simp only [isExtensionNumber, Bool.and_eq_true, decide_eq_true_eq] at h
      cases hchars : lead.toList with
      | nil =>
        rw [hchars] at hlead
        cases hlead
      | cons c cs =>
        rw [hchars] at hlead
        obtain rfl := Option.some.inj hlead
        have hne : '0' ≠ first := Ne.symm h.1.2
        simp [leadThen, hchars, List.isPrefixOf, hne]
  rw [routeOf_category (isDigits_of_extensionNumber h), routeCategory, hzero (by rfl), hzero (by rfl),
    hzero (by rfl)]
  simp

section Numbered
variable (hrender : renderAgentDialplan input = .ok sections) (hnumbered : Numbered input)
  (hagent : agent ∈ input.agents) (hlock : agent.extensionLockMode ≠ some .fullLocked)
include hrender hnumbered hagent hlock

/-- The name that beats the patterns for an extension is chosen: no code is in its way. -/
theorem extenFor_phone {extension : String}
    (hextension : extension ∈ input.internalExtensions) {best : Text}
    (hbest : best ∈ extensOf (sections.flatMap Section.entries) (phoneContext agent).toList)
    (hmatch : matchesExten best extension.toList = true)
    (hroute : ∀ route ∈ orderedPatterns, matchesExten route.1.toList extension.toList = true →
      route.1.toList ≠ best → Beats best route.1.toList)
    (hrest : Beats best "_X.".toList)
    (hinternal : ∀ pattern ∈ buildInternalExtensionPatterns input.internalExtensions,
      matchesExten pattern.toList extension.toList = true → pattern.toList ≠ best →
        Beats best pattern.toList) :
    extenFor (sections.flatMap Section.entries) (phoneContext agent).toList extension.toList =
      some best := by
  have hnames := nodup_contexts hrender hnumbered.distinct
  obtain ⟨sec, hsec, hcontext, hphone⟩ := exists_phoneSection hrender hagent
  have hblocks := (phoneBlock_of_render hnumbered hlock hphone).1
  rw [← hcontext] at hbest ⊢
  refine bestExten_of_best hbest hmatch ?_
  intro name hname hmatches hne
  obtain ⟨block, hblock, rfl⟩ := List.mem_map.mp (extensOf_sections hnames hsec hname)
  cases hblocks block hblock with
  | route hmem hexten =>
    rw [hexten] at hmatches hne ⊢
    exact hroute _ hmem hmatches hne
  | rest hexten =>
    rw [hexten]
    exact hrest
  | literal hlit hother =>
    rw [matchesExten, hlit] at hmatches
    exact absurd (of_decide_eq_true hmatches) (hother extension hextension)
  | internal hpattern hinternalBlock =>
    subst hinternalBlock
    exact hinternal _ hpattern hmatches hne

/-- An extension that is no representative number reaches the pattern of internal calls. -/
theorem extenFor_internal {callee : AgentDialplanAgentInput} (hcallee : callee ∈ input.agents)
    (hrep : leadThen ["15", "16", "18"] 6 6 callee.extension.toList = false) :
    ∃ pattern ∈ buildInternalExtensionPatterns input.internalExtensions,
      extenFor (sections.flatMap Section.entries) (phoneContext agent).toList
        callee.extension.toList = some pattern.toList := by
  have hextension : callee.extension ∈ input.internalExtensions := List.mem_map_of_mem hcallee
  obtain ⟨pattern, hpattern, hmatch⟩ := exists_internalPattern hnumbered hextension
  obtain ⟨sec, hsec, hcontext, hphone⟩ := exists_phoneSection hrender hagent
  have hblock := (phoneBlock_of_render hnumbered hlock hphone).2.2 pattern hpattern
  have hnone : routeOf callee.extension.toList = none := by
    have hroute := routeOf_extension (hnumbered.extensions callee hcallee)
    rw [hrep, if_neg (by decide)] at hroute
    exact Option.map_eq_none_iff.mp hroute
  refine ⟨pattern, hpattern, extenFor_phone hrender hnumbered hagent hlock hextension
    (hcontext ▸ mem_extensOf hsec hblock) hmatch ?_ (internal_beats_rest hpattern) ?_⟩
  · intro route hroute hmatches
    exact absurd hmatches (List.find?_eq_none.mp hnone route hroute)
  · intro other hother hmatches hne
    exact absurd (congrArg String.toList (internalPattern_unique hother hpattern hmatches hmatch)) hne

/-- A representative number does not, though it is an extension. -/
theorem extenFor_representative {callee : AgentDialplanAgentInput} (hcallee : callee ∈ input.agents)
    (hrep : leadThen ["15", "16", "18"] 6 6 callee.extension.toList = true) :
    ∃ route ∈ orderedPatterns, extenFor (sections.flatMap Section.entries)
      (phoneContext agent).toList callee.extension.toList = some route.1.toList := by
  have hextension : callee.extension ∈ input.internalExtensions := List.mem_map_of_mem hcallee
  obtain ⟨sec, hsec, hcontext, hphone⟩ := exists_phoneSection hrender hagent
  have hroute := routeOf_extension (hnumbered.extensions callee hcallee)
  rw [hrep, if_pos rfl] at hroute
  obtain ⟨route, hfound, hcategory⟩ := Option.map_eq_some_iff.mp hroute
  have hordered := List.mem_of_find?_eq_some hfound
  have hmatch := List.find?_some hfound
  obtain ⟨block, hblock, hexten⟩ :=
    (phoneBlock_of_render hnumbered hlock hphone).2.1 route hordered
  have hnames : (orderedPatterns.map (fun route => route.1.toList)).find?
      (fun name => matchesExten name callee.extension.toList) = some route.1.toList := by
    rw [List.find?_map]
    exact congrArg (Option.map _) hfound
  refine ⟨route, hordered, extenFor_phone hrender hnumbered hagent hlock hextension
    (hexten ▸ hcontext ▸ mem_extensOf hsec hblock) hmatch ?_ ?_ ?_⟩
  · intro other hother hmatches hne
    exact beats_of_find? pairwise_orderedPatterns hnames (List.mem_map_of_mem hother) hmatches hne
  · have hall : ∀ route ∈ orderedPatterns, Beats route.1.toList "_X.".toList := by decide
    exact hall route hordered
  · intro pattern hpattern hmatches _
    exact representative_beats_internal hordered hcategory hpattern hmatches

end Numbered

end Choice

/-! ## Calls -/

section Calls
variable {input : AgentDialplanInput} {sections : List Section} {agent : AgentDialplanAgentInput}

/-- The telephone has a registered contact whenever it is asked. -/
def Registered (world : Nat → Text → Text) (agent : AgentDialplanAgentInput)
    (vars : List (Text × Text)) : Prop :=
  ∀ n, (vars.lookup (contactsName agent)).getD (world n (contactsName agent)) ≠ []

/-- From a registered telephone the call to the number comes to the endpoint of the number. -/
def DialsInside (sections : List Section) (agent : AgentDialplanAgentInput) (number : Text) : Prop :=
  ∀ (world : Nat → Text → Text) (s : State),
    s.pos = ⟨(phoneContext agent).toList, number, 1⟩ →
    PlainContacts world agent s.vars → Registered world agent s.vars →
    ∃ t, Comes (step (sections.flatMap Section.entries) world) s (.inl t) ∧
      dialled (sections.flatMap Section.entries) world t =
        some ("PJSIP/".toList ++ number ++ ",20,tTU(agent-pre-bridge)".toList)

theorem dialsInside_of_internal (hrender : renderAgentDialplan input = .ok sections)
    (hnumbered : Numbered input) (hagent : agent ∈ input.agents)
    (hlock : agent.extensionLockMode ≠ some .fullLocked) {number : Text} {pattern : String}
    (hpattern : pattern ∈ buildInternalExtensionPatterns input.internalExtensions)
    (hfor : extenFor (sections.flatMap Section.entries) (phoneContext agent).toList number =
      some pattern.toList) : DialsInside sections agent number := by
  have hnames := nodup_contexts hrender hnumbered.distinct
  obtain ⟨sec, hsec, hcontext, hphone⟩ := exists_phoneSection hrender hagent
  obtain ⟨hblocks, -, hinternal⟩ := phoneBlock_of_render hnumbered hlock hphone
  -- the first block of this name is the one of the internal calls
  obtain ⟨block, hfind⟩ : ∃ block,
      sec.blocks.find? (fun block => block.exten = pattern.toList) = some block := by
    rw [← Option.isSome_iff_exists, List.find?_isSome]
    exact ⟨_, hinternal pattern hpattern, decide_eq_true rfl⟩
  have hexten : block.exten = pattern.toList := by simpa using List.find?_some hfind
  obtain ⟨length, digits, -, -, hdigits, hparsed⟩ := patternOf_internal hpattern
  have hblock : block = internalBlock agent pattern := by
    cases hblocks block (List.mem_of_find?_eq_some hfind) with
    | route hroute hname =>
      exact absurd (String.toList_inj.mp (hname.symm.trans hexten))
        (route_ne_internal hroute hpattern)
    | rest hname =>
      rw [← hexten, hname] at hparsed
      have hfirst := Elem.one.inj (List.cons.inj (Option.some.inj hparsed)).1
      have hzero : '0' ∈ digits.insertionSort (· ≤ ·) := hfirst ▸ (by decide)
      exact absurd rfl (hdigits.digits '0' hzero).2
    | literal hlit =>
      rw [hexten, hparsed] at hlit
      cases hlit
    | internal hother hsame =>
      subst hsame
      rw [String.toList_inj.mp hexten]
  obtain ⟨rest, hfirst⟩ := first_of_sections hnames hsec hfind
  rw [hcontext] at hfirst
  have hat : ∀ i c, (internalBlock agent pattern).code[i]? = some c →
      stepAt (sections.flatMap Section.entries) ⟨(phoneContext agent).toList, number, 1 + i⟩ =
        some c := by
    intro i c hc
    rw [Nat.add_comm]
    exact stepAt_of_first hfirst hfor (hblock ▸ hc)
  intro world s hpos hcontacts hregistered
  have hcode : CodeAt (sections.flatMap Section.entries) s.pos
      (internalBlock agent pattern).code := by
    rw [hpos]
    exact codeAt_of_getElem hat
  obtain ⟨hnoop, hguard, hdial, -⟩ := hcode
  have hfirstStep : step (sections.flatMap Section.entries) world s = .inl (s.visit none).advance :=
    step_pass hnoop rfl
  have hsecondStep : step (sections.flatMap Section.entries) world (s.visit none).advance =
      .inl ((s.visit none).advance.visit none).advance := by
    rw [step_guard (s := (s.visit none).advance)
      (isDigits_of_extensionNumber (hnumbered.extensions agent hagent)) hcontacts hguard]
    exact if_neg (hregistered _)
  refine ⟨_, .next hfirstStep (.next hsecondStep (.inl rfl)), ?_⟩
  rw [dialled_self hdial]
  show some ("PJSIP/".toList ++ s.pos.exten ++ _) = _
  rw [hpos]

/-- Dialling the extension of another agent reaches the pattern of internal calls, and the
endpoint of the extension over it, exactly when the extension is no representative number. -/
theorem internal_call_iff (hrender : renderAgentDialplan input = .ok sections)
    (hnumbered : Numbered input) (hagent : agent ∈ input.agents)
    (hlock : agent.extensionLockMode ≠ some .fullLocked) {callee : AgentDialplanAgentInput}
    (hcallee : callee ∈ input.agents) :
    ((∃ pattern ∈ buildInternalExtensionPatterns input.internalExtensions,
        extenFor (sections.flatMap Section.entries) (phoneContext agent).toList
          callee.extension.toList = some pattern.toList) ∧
      DialsInside sections agent callee.extension.toList) ↔
      leadThen ["15", "16", "18"] 6 6 callee.extension.toList = false := by
  constructor
  · rintro ⟨⟨pattern, hpattern, hfor⟩, -⟩
    cases hrep : leadThen ["15", "16", "18"] 6 6 callee.extension.toList with
    | false => rfl
    | true =>
      obtain ⟨route, hroute, hfor'⟩ :=
        extenFor_representative hrender hnumbered hagent hlock hcallee hrep
      rw [hfor] at hfor'
      exact absurd (String.toList_inj.mp (Option.some.inj hfor')).symm
        (route_ne_internal hroute hpattern)
  · intro hrep
    obtain ⟨pattern, hpattern, hfor⟩ :=
      extenFor_internal hrender hnumbered hagent hlock hcallee hrep
    exact ⟨⟨pattern, hpattern, hfor⟩,
      dialsInside_of_internal hrender hnumbered hagent hlock hpattern hfor⟩

end Calls

/-! ## An extension like a representative number -/

section Office

/-- 1001 may not dial out; 15001234 has the extension of a representative number. -/
def longOffice : AgentDialplanInput :=
  { office with agents := office.agents ++ [⟨"15001234", true, .prohib, true, none, [], none⟩] }

theorem numbered_longOffice : Numbered longOffice := by
  have hfree : FreeCode longOffice.internalExtensions "7" :=
    ⟨by decide, by decide, by decide⟩
  have hpickup : FreeCode longOffice.internalExtensions "*8" :=
    ⟨by decide, by decide, by decide⟩
  refine ⟨by decide, by decide, ?_, ?_⟩
  · intro item hitem _
    obtain rfl := List.mem_singleton.mp hitem
    exact hfree
  · intro item hitem _ code hcode
    obtain rfl := List.mem_singleton.mp hitem
    obtain rfl := Option.some.inj hcode
    exact hpickup

theorem renders_longOffice : ∃ sections, renderAgentDialplan longOffice = .ok sections :=
  renders_of_isOk (by decide)

def lockedAgent : AgentDialplanAgentInput :=
  ⟨"1001", true, .prohib, true, some .outboundLocked, [], none⟩

def longAgent : AgentDialplanAgentInput :=
  ⟨"15001234", true, .prohib, true, none, [], none⟩

/-- 1001 calls 15001234, and reaches a pattern of the way out. -/
theorem representative_extension_not_internal :
    Numbered longOffice ∧ lockedAgent ∈ longOffice.agents ∧ longAgent ∈ longOffice.agents ∧
      lockedAgent.extensionLockMode ≠ some .fullLocked ∧
      ∃ sections, renderAgentDialplan longOffice = .ok sections ∧
        (∃ route ∈ orderedPatterns, extenFor (sections.flatMap Section.entries)
          "agent-phone-1001".toList "15001234".toList = some route.1.toList) ∧
        ¬ ∃ pattern ∈ buildInternalExtensionPatterns longOffice.internalExtensions,
          extenFor (sections.flatMap Section.entries) "agent-phone-1001".toList
            "15001234".toList = some pattern.toList := by
  obtain ⟨sections, hrender⟩ := renders_longOffice
  have hagent : lockedAgent ∈ longOffice.agents := by decide
  have hcallee : longAgent ∈ longOffice.agents := by decide
  obtain ⟨route, hroute, hfor⟩ := extenFor_representative hrender numbered_longOffice hagent
    (by decide) hcallee (by decide)
  refine ⟨numbered_longOffice, hagent, hcallee, by decide, sections, hrender,
    ⟨route, hroute, hfor⟩, ?_⟩
  rintro ⟨pattern, hpattern, hfor'⟩
  exact route_ne_internal hroute hpattern
    (String.toList_inj.mp (Option.some.inj (hfor.symm.trans hfor')))

theorem internal_call_iff_longOffice :
    ∃ sections, renderAgentDialplan longOffice = .ok sections ∧
      (∃ pattern ∈ buildInternalExtensionPatterns longOffice.internalExtensions,
        extenFor (sections.flatMap Section.entries) (phoneContext lockedAgent).toList
          officeAgent.extension.toList = some pattern.toList) ∧
      DialsInside sections lockedAgent officeAgent.extension.toList := by
  obtain ⟨sections, hrender⟩ := renders_longOffice
  have hagent : lockedAgent ∈ longOffice.agents := by decide
  have hcallee : officeAgent ∈ longOffice.agents := by decide
  exact ⟨sections, hrender, (internal_call_iff hrender numbered_longOffice hagent (by decide)
    hcallee).mpr (by decide)⟩

end Office

end KasterCti.Renderers
