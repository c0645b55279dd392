import KasterCti.CallAnalysis.PiiMask

/-!
# What the masking of a transcript leaves to mask

The last four digits of a masked number stand behind a dash. Where three groups of four digits go
on behind them, the result shows a card number that was none before, and no replacement is left to
see it. `Exposed` says of a text, before anything is masked, that this will happen.

Results:
1. `exposed_of_match`: a number that is left to mask comes from an exposed one.
2. `test_of_exposed`: an exposed number leaves one to mask.
3. `masking_leaves_nothing_iff`: the masking leaves nothing to mask exactly where no number is
   exposed.
4. `masked_mobile_number_leaves_card_number`: a text in which one is.
-/

namespace KasterCti.CallAnalysis

open WordText DigitPattern

def patterns : List Pattern := [CARD_NUMBER, RESIDENT_NUMBER, MOBILE_NUMBER, LANDLINE_NUMBER]

/-- No pattern matches in the result, and to mask it again changes nothing. -/
def LeavesNothing (text : Text) : Prop :=
  (∀ p ∈ patterns, test p none (maskPii text) = false) ∧ maskPii (maskPii text) = maskPii text

/-- The search for card numbers finds one with three groups of four behind it, and no card number
starts at any of the three. -/
def CardExposed (es : List Entry) : Prop :=
  ∃ m t rest, Scan CARD_NUMBER es (m ++ (t ++ rest)) ∧ Full CARD_NUMBER m ∧ Follows t ∧
    Kept CARD_NUMBER t rest

/-- A phone number has three groups of four behind it, no card number starts in it or at any of
the three, and, if it is a landline number, no mobile number does. -/
def PhoneExposed (es : List Entry) : Prop :=
  ∃ a m t rest, es = a ++ (m ++ t ++ rest) ∧ Follows t ∧ Kept CARD_NUMBER (m ++ t) rest ∧
    (Full MOBILE_NUMBER m ∨ Full LANDLINE_NUMBER m ∧ ¬ Has MOBILE_NUMBER (m ++ t))

def Exposed (text : Text) : Prop :=
  CardExposed (entries '\n' text) ∨ PhoneExposed (entries '\n' text)

/-! ## Lengths -/

theorem prefixFree_of_mem {p : Pattern} (known : p ∈ patterns) : PrefixFree p := by
  have all : ∀ p ∈ patterns, ∀ x ∈ shapes p.atoms, ∀ y ∈ shapes p.atoms, x <+: y → x = y := by
    decide
  exact all p known

/-- Words that do not end in a front of a masked number. -/
def Row (ls : List Nat) : Prop := 0 ∉ ls ∧ ∀ n ∈ ls.getLast?, n ∉ heads

instance (ls : List Nat) : Decidable (Row ls) := inferInstanceAs (Decidable (_ ∧ _))

theorem row_of_full {p : Pattern} {m : List Entry} (known : p ∈ patterns) (full : Full p m) :
    Row (runs m) := by
  have all : ∀ p ∈ patterns, ∀ shape ∈ shapes p.atoms, Row shape := by decide
  exact all p known _ (full_shape full)

theorem eq_card_of_four {p : Pattern} {e : Entry} {t : List Entry} (known : p ∈ patterns)
    (full : Full p (e :: t)) (four : e.2.length = 4) : p = CARD_NUMBER := by
  have all : ∀ p ∈ [RESIDENT_NUMBER, MOBILE_NUMBER, LANDLINE_NUMBER], ∀ shape ∈ shapes p.atoms,
      shape.head? ≠ some 4 := by decide
  cases List.mem_cons.mp known with
  | inl card => exact card
  | inr other => exact absurd (congrArg some four) (all p other _ (full_shape full))

theorem words_of_row {r : List Entry} (row : Row (runs r)) : ∀ f ∈ r, f.2 ≠ [] := by
  intro f member empty
  exact row.1 (List.mem_map.mpr ⟨f, member, by rw [empty]; rfl⟩)

theorem ends_of_row {r : List Entry} (row : Row (runs r)) :
    ∀ f ∈ r.getLast?, f.2.length ∉ heads := by
  intro f last
  refine row.2 f.2.length ?_
  rw [runs, List.getLast?_map, Option.mem_def.mp last]
  rfl

/-- A phone number and the groups behind it. -/
theorem row_of_phone {m t : List Entry} (number : Full MOBILE_NUMBER m ∨ Full LANDLINE_NUMBER m)
    (follows : Follows t) :
    m ++ t ≠ [] ∧ Row (runs (m ++ t)) ∧ (runs (m ++ t)).head? ≠ some 4 := by
  have all : ∀ p ∈ [MOBILE_NUMBER, LANDLINE_NUMBER], ∀ x ∈ shapes p.atoms,
      ∀ y ∈ shapes threeGroups.atoms, Row (x ++ y) ∧ (x ++ y).head? ≠ some 4 := by decide
  have someEntry : m ≠ [] := number.elim full_ne_nil full_ne_nil
  refine ⟨fun none => someEntry (List.append_eq_nil_iff.mp none).1, ?_⟩
  rw [runs_append]
  cases number with
  | inl mobile => exact all _ (by simp) _ (full_shape mobile) _ (full_shape follows.1)
  | inr landline => exact all _ (by simp) _ (full_shape landline) _ (full_shape follows.1)

/-! ## From the result to the text -/

section Back

variable {p q : Pattern} {mask : Path → Text} {Last : List Entry → Prop}
  {es es₁ out a b m t r : List Entry}

section Passes
variable (leaves : ∀ c path, Reads p.atoms path → Leaves heads Last (entries c (mask path)))
  (short : ∀ last, Last last → last.length ≤ 1) (fours : ∀ e, Last [e] → LastFour [e])
include leaves short fours

/-- Words that do not start with four digits were there before the replacement. -/
theorem row_of_pass (pass : Pass p mask es (a ++ (r ++ b))) (row : Row (runs r)) (nonempty : r ≠ [])
    (notFour : (runs r).head? ≠ some 4) : ∃ a' b', es = a' ++ (r ++ b') ∧ Kept p r b' := by
  obtain ⟨e, s, rfl⟩ := List.exists_cons_of_ne_nil nonempty
  obtain kept | ⟨m, b', -, last, -, -⟩ :=
    words_of_pass leaves short pass (words_of_row row) (ends_of_row row)
  · exact kept
  · obtain ⟨w, equal, four, -⟩ := fours e last
    rw [List.cons.injEq] at equal
    exact absurd (by rw [equal.1, runs_cons, four]; rfl) notFour

/-- A match in the result was there before, or it is a card number that opens with the last digits
of a masked number. -/
theorem match_of_pass (known : q ∈ patterns) (full : Full q m)
    (pass : Pass p mask es (a ++ (m ++ b))) :
    (∃ a' b', es = a' ++ (m ++ b') ∧ Kept p m b') ∨
      ∃ e n t b', Last [e] ∧ Full p n ∧ Follows t ∧ Scan p es (n ++ (t ++ b')) ∧ Kept p t b' := by
  obtain ⟨e, t, rfl⟩ := List.exists_cons_of_ne_nil (full_ne_nil full)
  have row := row_of_full known full
  obtain kept | ⟨n, b', fullN, last, scan, kept⟩ :=
    words_of_pass leaves short pass (words_of_row row) (ends_of_row row)
  · exact Or.inl kept
  · obtain ⟨w, equal, four, digits⟩ := fours e last
    rw [List.cons.injEq] at equal
    have four : e.2.length = 4 := equal.1 ▸ four
    have digits : ∀ d ∈ e.2, JsText.isDigit d = true := equal.1 ▸ digits
    have card := eq_card_of_four known full four
    subst card
    exact Or.inr ⟨e, n, t, b', last, fullN, (full_card_iff four digits).mp full, scan, kept⟩

end Passes

theorem not_has_of_kept (kept : Kept p r b) : ¬ Has p r := by
  induction r with
  | nil => exact not_has_nil
  | cons e r ih =>
    rw [has_cons_iff, not_or]
    refine ⟨?_, ih kept.2⟩
    rintro ⟨m, rest, split, full⟩
    exact kept.1 ⟨m, rest ++ b, by rw [← List.cons_append, split, List.append_assoc], full⟩

/-- A phone number that the first two replacements leave was there before them. -/
theorem phoneExposed_of_passes (card : Pass CARD_NUMBER maskCard es es₁)
    (resident : Pass RESIDENT_NUMBER maskResident es₁ (a ++ (m ++ t ++ b))) (follows : Follows t)
    (number : Full MOBILE_NUMBER m ∨ Full LANDLINE_NUMBER m ∧ ¬ Has MOBILE_NUMBER (m ++ t)) :
    PhoneExposed es := by
  obtain ⟨nonempty, row, notFour⟩ := row_of_phone (number.imp_right And.left) follows
  obtain ⟨a₁, b₁, rfl, -⟩ := row_of_pass (fun c _ reads => leaves_maskResident c reads)
    (fun last none => by simp [none]) (fun e none => absurd none (List.cons_ne_nil _ _))
    resident row nonempty notFour
  obtain ⟨a₂, b₂, rfl, kept⟩ := row_of_pass (fun c _ reads => leaves_maskCard c reads)
    (fun _ => short_of_lastFour) (fun _ => id) card row nonempty notFour
  exact ⟨a₂, m, t, b₂, rfl, follows, kept, number⟩

theorem exposed_of_match {text : Text} (known : q ∈ patterns)
    (found : test q none (maskPii text) = true) : Exposed text := by
  obtain ⟨es₁, es₂, es₃, card, resident, mobile, landline⟩ := maskPii_passes text
  obtain ⟨a, b, split, m, rest, equal, full⟩ := (test_iff '\n' rfl).mp found
  rw [split, equal] at landline
  obtain ⟨a, b, rfl, kept₃⟩ | ⟨e, n, t, b, -, number, follows, scan, -⟩ :=
    match_of_pass leaves_landline (fun _ => short_of_lastFour) (fun _ => id) known full landline
  · obtain ⟨a, b, rfl, kept₂⟩ | ⟨e, n, t, b, -, number, follows, scan, -⟩ :=
      match_of_pass leaves_mobile (fun _ => short_of_lastFour) (fun _ => id) known full mobile
    · obtain ⟨a, b, rfl, kept₁⟩ | ⟨e, n, t, b, last, -⟩ :=
        match_of_pass (fun c _ reads => leaves_maskResident c reads)
          (fun last none => by simp [none]) (fun e none => absurd none (List.cons_ne_nil _ _))
          known full resident
      · obtain ⟨a, b, -, kept₀⟩ | ⟨e, n, t, b, -, number, follows, scan, kept⟩ :=
          match_of_pass (fun c _ reads => leaves_maskCard c reads) (fun _ => short_of_lastFour)
            (fun _ => id) known full card
        · -- no replacement has kept a match of its own pattern
          simp only [patterns, List.mem_cons, List.not_mem_nil, or_false] at known
          obtain rfl | rfl | rfl | rfl := known
          · exact absurd full (not_full_of_kept kept₀)
          · exact absurd full (not_full_of_kept kept₁)
          · exact absurd full (not_full_of_kept kept₂)
          · exact absurd full (not_full_of_kept kept₃)
        · exact Or.inl ⟨n, t, b, scan, number, follows, kept⟩
      · exact absurd last (List.cons_ne_nil _ _)
    · obtain ⟨y, rfl⟩ := scan.exists_append
      rw [← List.append_assoc n] at resident
      exact Or.inr (phoneExposed_of_passes card resident follows (Or.inl number))
  · obtain ⟨y, rfl⟩ := scan.exists_append
    rw [← List.append_assoc n] at mobile
    -- the mobile replacement has left the landline number and the groups behind it
    obtain ⟨nonempty, row, notFour⟩ := row_of_phone (Or.inr number) follows
    obtain ⟨a, b, rfl, kept⟩ := row_of_pass leaves_mobile (fun _ => short_of_lastFour)
      (fun _ => id) mobile row nonempty notFour
    exact Or.inr (phoneExposed_of_passes card resident follows
      (Or.inr ⟨number, not_has_of_kept kept⟩))

end Back

/-! ## From the text to the result -/

section Forth

variable {p : Pattern} {mask : Path → Text} {es out a b m t : List Entry} {star : Entry}
  {last : List Entry}

/-- No shape reaches into words of these lengths from before them. -/
def Unentered (p : Pattern) (ls : List Nat) : Prop :=
  ∀ shape ∈ shapes p.atoms, ∀ t ∈ shape.tails.tail, t ≠ [] → ¬ t <+: ls ∧ ¬ ls <+: t

instance (p : Pattern) (ls : List Nat) : Decidable (Unentered p ls) :=
  inferInstanceAs (Decidable (∀ shape ∈ shapes p.atoms, _))

/-- The last digits of a masked number and the groups behind them. -/
def Shown (out : List Entry) : Prop :=
  ∃ a star last t b, out = a ++ (star :: last ++ t ++ b) ∧ star.2 = [] ∧ LastFour last ∧ Follows t

theorem has_card_of_shown (shown : Shown out) : Has CARD_NUMBER out := by
  obtain ⟨a, star, last, t, b, rfl, -, ⟨w, rfl, four, digits⟩, follows⟩ := shown
  refine ⟨a ++ [star], ('-', w) :: t ++ b, by simp, ('-', w) :: t, b, rfl, ?_⟩
  exact (full_card_iff four digits).mpr follows

theorem groups_start_nothing (later : p ∈ [RESIDENT_NUMBER, MOBILE_NUMBER, LANDLINE_NUMBER])
    (follows : Follows t) :
    ∀ n ∈ 0 :: 4 :: runs t, ∀ shape ∈ shapes p.atoms, shape.head? ≠ some n := by
  have all : ∀ p ∈ [RESIDENT_NUMBER, MOBILE_NUMBER, LANDLINE_NUMBER],
      ∀ ls ∈ shapes threeGroups.atoms, ∀ n ∈ 0 :: 4 :: ls, ∀ shape ∈ shapes p.atoms,
        shape.head? ≠ some n := by decide
  exact all p later _ (full_shape follows.1)

theorem shown_of_pass (later : p ∈ [RESIDENT_NUMBER, MOBILE_NUMBER, LANDLINE_NUMBER])
    (pass : Pass p mask es out) (shown : Shown es) : Shown out := by
  have all : ∀ p ∈ [RESIDENT_NUMBER, MOBILE_NUMBER, LANDLINE_NUMBER],
      ∀ ls ∈ shapes threeGroups.atoms, Unentered p (0 :: 4 :: ls) := by decide
  obtain ⟨a, star, last, t, b, rfl, empty, lastFour, follows⟩ := shown
  obtain ⟨w, rfl, four, -⟩ := id lastFour
  have lengths : runs (star :: [('-', w)] ++ t) = 0 :: 4 :: runs t := by
    simp [empty, four]
  have apart := all p later _ (full_shape follows.1)
  have starts := groups_start_nothing later follows
  rw [← lengths] at apart starts
  obtain ⟨a', b', rfl⟩ := pass_through
    (prefixFree_of_mem (List.mem_cons_of_mem _ later)) (notEntered_of_runs b apart)
    (kept_of_starts b starts) pass
  exact ⟨a', star, _, t, b', rfl, empty, lastFour, follows⟩

/-- What is left of a number, with the groups behind it. -/
theorem shown_of_replaced (known : p ∈ patterns)
    (leaves : ∀ c path, Reads p.atoms path → Leaves heads LastFour (entries c (mask path)))
    (scan : Scan p es (m ++ (t ++ b))) (full : Full p m) (follows : Follows t)
    (kept : Kept p t b) (pass : Pass p mask es out) : Shown out := by
  obtain ⟨a', star, last, b', rfl, empty, lastFour⟩ :=
    pass_replaced (prefixFree_of_mem known) scan full kept leaves pass
  exact ⟨a', star, last, t, b', rfl, empty, lastFour, follows⟩

theorem shown_of_cardExposed (pass : Pass CARD_NUMBER maskCard es out)
    (exposed : CardExposed es) : Shown out := by
  obtain ⟨m, t, rest, scan, full, follows, kept⟩ := exposed
  exact shown_of_replaced (by simp [patterns]) (fun c _ reads => leaves_maskCard c reads) scan
    full follows kept pass

/-- The last group of the phone number stands together with digits before it: alone it would open
a card number. -/
theorem merged_of_kept (number : Full p m) (follows : Follows t)
    (kept : Kept CARD_NUMBER (m ++ t) b) : (runs m).getLast? ≠ some 4 := by
  intro last
  rw [runs, List.getLast?_map, Option.map_eq_some_iff] at last
  obtain ⟨e, lastEntry, four⟩ := last
  obtain ⟨front, rfl⟩ := List.getLast?_eq_some_iff.mp lastEntry
  have digits := (full_written number).1 e (List.mem_append_right _ (List.mem_singleton.mpr rfl))
  rw [List.append_assoc, kept_append_iff] at kept
  refine not_full_of_kept kept.2 ?_
  exact (full_card_iff four digits).mpr follows

/-- No match of any pattern reaches into the phone number, and no resident number starts in it. -/
theorem phone_untouched (number : Full MOBILE_NUMBER m ∨ Full LANDLINE_NUMBER m)
    (follows : Follows t) (kept : Kept CARD_NUMBER (m ++ t) b) :
    (∀ q ∈ patterns, Unentered q (runs (m ++ t))) ∧
      ∀ n ∈ runs (m ++ t), ∀ shape ∈ shapes RESIDENT_NUMBER.atoms, shape.head? ≠ some n := by
  have all : ∀ p ∈ [MOBILE_NUMBER, LANDLINE_NUMBER], ∀ x ∈ shapes p.atoms,
      x.getLast? ≠ some 4 → ∀ y ∈ shapes threeGroups.atoms, (∀ q ∈ patterns, Unentered q (x ++ y)) ∧
        ∀ n ∈ x ++ y, ∀ shape ∈ shapes RESIDENT_NUMBER.atoms, shape.head? ≠ some n := by
    decide
  rw [runs_append]
  cases number with
  | inl mobile =>
    exact all _ (by simp) _ (full_shape mobile) (merged_of_kept mobile follows kept) _
      (full_shape follows.1)
  | inr landline =>
    exact all _ (by simp) _ (full_shape landline) (merged_of_kept landline follows kept) _
      (full_shape follows.1)

/-- A mobile number that starts at a landline number or at the groups behind it ends in them. -/
theorem kept_mobile_of_landline (number : Full LANDLINE_NUMBER m) (follows : Follows t)
    (kept : Kept CARD_NUMBER (m ++ t) b) (absent : ¬ Has MOBILE_NUMBER (m ++ t))
    (rest : List Entry) : Kept MOBILE_NUMBER (m ++ t) rest := by
  have all : ∀ x ∈ shapes LANDLINE_NUMBER.atoms, x.getLast? ≠ some 4 →
      ∀ y ∈ shapes threeGroups.atoms, ∀ ls ∈ (x ++ y).tails, ls ≠ [] →
        ∀ shape ∈ shapes MOBILE_NUMBER.atoms, ls <+: shape → ls = shape := by decide
  refine kept_of_not_has rest ?_ absent
  rw [runs_append]
  exact all _ (full_shape number) (merged_of_kept number follows kept) _ (full_shape follows.1)

theorem shown_of_phoneExposed {es₁ es₂ es₃ es₄ : List Entry}
    (card : Pass CARD_NUMBER maskCard es es₁)
    (resident : Pass RESIDENT_NUMBER maskResident es₁ es₂)
    (mobile : Pass MOBILE_NUMBER maskMiddle es₂ es₃)
    (landline : Pass LANDLINE_NUMBER maskMiddle es₃ es₄) (exposed : PhoneExposed es) :
    Shown es₄ := by
  obtain ⟨a, m, t, rest, rfl, follows, kept, number⟩ := exposed
  obtain ⟨apart, starts⟩ := phone_untouched (number.imp_right And.left) follows kept
  have outside {q : Pattern} (known : q ∈ patterns) (b : List Entry) :
      NotEntered q (m ++ t ++ b) := notEntered_of_runs b (apart q known)
  have free {q : Pattern} (known : q ∈ patterns) : PrefixFree q := prefixFree_of_mem known
  have keptBehind {q : Pattern}
      (later : q ∈ [RESIDENT_NUMBER, MOBILE_NUMBER, LANDLINE_NUMBER]) (b : List Entry) :
      Kept q t b := kept_of_starts b fun n member =>
    groups_start_nothing later follows n (List.mem_cons_of_mem _ (List.mem_cons_of_mem _ member))
  have found {q : Pattern} (known : q ∈ patterns) (a b : List Entry) :
      Scan q (a ++ (m ++ t ++ b)) (m ++ (t ++ b)) :=
    List.append_assoc m t b ▸ scan_of_notEntered (outside known b) a
  obtain ⟨a, b, rfl⟩ := pass_through (free (by simp [patterns])) (outside (by simp [patterns]) _)
    kept card
  obtain ⟨a, b, rfl⟩ := pass_through (free (by simp [patterns])) (outside (by simp [patterns]) _)
    (kept_of_starts b starts) resident
  obtain full | ⟨full, absent⟩ := number
  · have shown := shown_of_replaced (by simp [patterns]) leaves_mobile
      (found (by simp [patterns]) a b) full follows (keptBehind (by simp) b) mobile
    exact shown_of_pass (by simp) landline shown
  · obtain ⟨a, b, rfl⟩ := pass_through (free (by simp [patterns]))
      (outside (by simp [patterns]) _) (kept_mobile_of_landline full follows kept absent b) mobile
    exact shown_of_replaced (by simp [patterns]) leaves_landline
      (found (by simp [patterns]) a b) full follows (keptBehind (by simp) b) landline

theorem test_of_exposed {text : Text} (exposed : Exposed text) :
    test CARD_NUMBER none (maskPii text) = true := by
  obtain ⟨es₁, es₂, es₃, card, resident, mobile, landline⟩ := maskPii_passes text
  refine (test_iff '\n' rfl).mpr (has_card_of_shown ?_)
  cases exposed with
  | inl cardExposed =>
    have shown₁ := shown_of_cardExposed card cardExposed
    have shown₂ := shown_of_pass (by simp) resident shown₁
    have shown₃ := shown_of_pass (by simp) mobile shown₂
    exact shown_of_pass (by simp) landline shown₃
  | inr phoneExposed => exact shown_of_phoneExposed card resident mobile landline phoneExposed

end Forth

/-! ## Masking twice -/

theorem replace_eq_self {p : Pattern} {mask : Path → Text} {text : Text}
    (clean : test p none text = false) : replace p mask text = text :=
  replaceAll_eq_self clean

theorem maskPii_eq_self {text : Text} (clean : ∀ p ∈ patterns, test p none text = false) :
    maskPii text = text := by
  rw [maskPii_eq, replace_eq_self (clean CARD_NUMBER (by simp [patterns])),
    replace_eq_self (clean RESIDENT_NUMBER (by simp [patterns])),
    replace_eq_self (clean MOBILE_NUMBER (by simp [patterns])),
    replace_eq_self (clean LANDLINE_NUMBER (by simp [patterns]))]

/-- The masking leaves nothing to mask, and masks nothing more when it runs again, exactly where
no card or phone number stands before three groups of four digits that nothing masks. -/
theorem masking_leaves_nothing_iff (text : Text) : LeavesNothing text ↔ ¬ Exposed text := by
  constructor
  · rintro ⟨clean, -⟩ exposed
    have card := clean CARD_NUMBER (by simp [patterns])
    rw [test_of_exposed exposed] at card
    contradiction
  · intro safe
    have clean : ∀ p ∈ patterns, test p none (maskPii text) = false := by
      intro p known
      cases found : test p none (maskPii text) with
      | false => rfl
      | true => exact absurd (exposed_of_match known found) safe
    exact ⟨clean, maskPii_eq_self clean⟩

/-- `01012345678-1111-2222-3333` becomes `010-****-5678-1111-2222-3333`. -/
theorem masked_mobile_number_leaves_card_number : ¬ ∀ text, LeavesNothing text := by
  intro all
  have clean := (all "01012345678-1111-2222-3333".toList).1 CARD_NUMBER (by simp [patterns])
  exact absurd clean (by decide)

end KasterCti.CallAnalysis
