import KasterCti.Library.DigitPattern
import Mathlib

/-!
# Patterns over the entries of a text

A match of a pattern covers whole entries, so a replacement of all matches is
a walk over entries, and which entries a match may cover is read off the
lengths of their words: every pattern has finitely many such shapes.
-/

namespace DigitPattern

open WordText

/-- The entries of one match. -/
def Full (p : Pattern) (m : List Entry) : Prop :=
  ∃ c path, Reads p.atoms path ∧ m = entries c (chars path)

/-- A match starts at the first entry. -/
def Begins (p : Pattern) (es : List Entry) : Prop :=
  ∃ m rest, es = m ++ rest ∧ Full p m

def Has (p : Pattern) (es : List Entry) : Prop :=
  ∃ a b, es = a ++ b ∧ Begins p b

/-- No match starts at an entry of the first list, which stands before the second. -/
def Kept (p : Pattern) : List Entry → List Entry → Prop
  | [], _ => True
  | e :: s, b => ¬ Begins p (e :: (s ++ b)) ∧ Kept p s b

/-- Where the search for the next match goes on: behind a match, or behind an
entry at which none starts. -/
inductive Scan (p : Pattern) : List Entry → List Entry → Prop
  | here (es : List Entry) : Scan p es es
  | keep {e : Entry} {es rest : List Entry} (absent : ¬ Begins p (e :: es))
      (later : Scan p es rest) : Scan p (e :: es) rest
  | found {m es rest : List Entry} (full : Full p m) (later : Scan p es rest) :
      Scan p (m ++ es) rest

/-- The replacement of all matches. -/
inductive Pass (p : Pattern) (mask : Path → Text) : List Entry → List Entry → Prop
  | done : Pass p mask [] []
  | keep {e : Entry} {es out : List Entry} (absent : ¬ Begins p (e :: es))
      (rest : Pass p mask es out) : Pass p mask (e :: es) (e :: out)
  | found {c : Char} {path : Path} {es out : List Entry} (reads : Reads p.atoms path)
      (rest : Pass p mask es out) :
      Pass p mask (entries c (chars path) ++ es) (entries c (mask path) ++ out)

section Text

variable {p : Pattern} {mask : Path → Text} {before : Option Char} {path : Path}
  {text rest : Text} {m es : List Entry}

theorem full_ne_nil (full : Full p m) : m ≠ [] := by
  obtain ⟨c, path, -, rfl⟩ := full
  exact List.cons_ne_nil _ _

/-- The entries behind a match. -/
def following : Text → List Entry
  | [] => []
  | d :: rest => entries d rest

theorem entries_append_following (c : Char) (u : Text) (ends : isWordAt rest.head? = false) :
    entries c (u ++ rest) = entries c u ++ following rest := by
  cases rest with
  | nil => simp [following]
  | cons d rest => exact entries_append_break c u ends rest

theorem begins_iff (c : Char) (outside : isWordAt before = false) :
    Begins p (entries c text) ↔ (matchAt p before text).isSome = true := by
  constructor
  · rintro ⟨m, es, split, d, path, reads, rfl⟩
    have flat := congrArg flatten split
    rw [flatten_append, flatten_entries, flatten_entries, List.cons_append,
      List.cons.injEq] at flat
    rw [flat.2]
    refine matchAt_isSome outside reads (isWordAt_head_flatten fun e member => ?_)
    simp only [entries, List.cons_append, List.cons.injEq] at split
    exact not_word_of_mem_splitWords (split.2 ▸ List.mem_append_right _ member)
  · intro found
    obtain ⟨⟨path, rest⟩, equal⟩ := Option.isSome_iff_exists.mp found
    obtain ⟨-, reads, rfl, ends⟩ := matchAt_eq_some equal
    exact ⟨_, following rest, entries_append_following c _ ends, c, path, reads, rfl⟩

theorem not_begins_iff (c : Char) (outside : isWordAt before = false) :
    ¬ Begins p (entries c text) ↔ matchAt p before text = none := by
  rw [begins_iff c outside, Bool.not_eq_true, Option.isSome_eq_false_iff,
    Option.isNone_iff_eq_none]

theorem has_cons_iff (e : Entry) : Has p (e :: es) ↔ Begins p (e :: es) ∨ Has p es := by
  constructor
  · rintro ⟨a, b, split, begins⟩
    cases a with
    | nil => exact Or.inl (split ▸ begins)
    | cons _ a =>
      simp only [List.cons_append, List.cons.injEq] at split
      exact Or.inr ⟨a, b, split.2, begins⟩
  · rintro (begins | ⟨a, b, rfl, begins⟩)
    · exact ⟨[], _, rfl, begins⟩
    · exact ⟨e :: a, b, rfl, begins⟩

theorem not_has_nil : ¬ Has p [] := by
  rintro ⟨a, b, split, m, rest, equal, full⟩
  have empty := (List.append_eq_nil_iff.mp split.symm).2
  rw [empty] at equal
  exact full_ne_nil full (List.append_eq_nil_iff.mp equal.symm).1

theorem test_iff (c : Char) (outside : isWordAt before = false) :
    test p before text = true ↔ Has p (entries c text) := by
  induction text using word_induction generalizing c before with
  | words w words =>
    have single : test p before w = (matchAt p before w).isSome := by
      have step : test p before (w ++ []) = _ := test_word words rfl
      simpa [test_nil] using step
    rw [single, entries_words c words, has_cons_iff, ← begins_iff c outside,
      entries_words c words]
    simp [not_has_nil]
  | step w d rest words notWord ih =>
    rw [test_word words (by simpa using notWord), test_break notWord, Bool.or_eq_true,
      ih d (show isWordAt (some d) = false from notWord), ← begins_iff c outside,
      entries_append_break c w notWord, entries_words c words]
    exact (has_cons_iff (c, w)).symm

/-- The replacement of all matches in a text is the walk over its entries. -/
theorem pass_replaceAll {p : Pattern} {mask : Path → Text} {before : Option Char} {text : Text}
    (c : Char) (outside : isWordAt before = false) :
    Pass p mask (entries c text) (entries c (replaceAll p mask before 0 text)) := by
  cases found : matchAt p before text with
  | some way =>
    obtain ⟨path, rest⟩ := way
    rw [replaceAll_match found]
    obtain ⟨-, reads, rfl, ends⟩ := matchAt_eq_some found
    rw [entries_append_following c _ ends]
    cases rest with
    | nil =>
      have whole : Pass p mask (entries c (chars path) ++ []) (entries c (mask path) ++ []) :=
        .found reads .done
      simpa [following, replaceAll] using whole
    | cons d rest =>
      rw [replaceAll_break ends, entries_append_break c _ ends]
      exact .found reads (pass_replaceAll d (show isWordAt (some d) = false from ends))
  | none =>
    have absent := (not_begins_iff c outside).mpr found
    cases word_or_break text with
    | inl words =>
      have kept : replaceAll p mask before 0 (text ++ []) = _ :=
        replaceAll_word words (by simpa using found)
      rw [List.append_nil] at kept
      rw [kept]
      simp only [replaceAll, List.append_nil, entries_words c words] at absent ⊢
      exact .keep absent .done
    | inr broken =>
      obtain ⟨w, d, rest, rfl, words, notWord⟩ := broken
      rw [replaceAll_word words found, replaceAll_break notWord,
        entries_append_break c w notWord, entries_append_break c w notWord,
        entries_words c words]
      rw [entries_append_break c w notWord, entries_words c words] at absent
      exact .keep absent (pass_replaceAll d (show isWordAt (some d) = false from notWord))
termination_by text.length
decreasing_by
  all_goals
    simp_all only [List.length_append, List.length_cons]
    omega

end Text

section Shapes

variable {p : Pattern} {atoms : List Atom} {path : Path} {m : List Entry}

/-- The lengths of the words. -/
def runs (es : List Entry) : List Nat := es.map fun e => e.2.length

def grow : List Nat → List Nat
  | [] => []
  | n :: ns => (n + 1) :: ns

/-- The lengths that the words of a reading may have. -/
def shapes : List Atom → List (List Nat)
  | [] => [[0]]
  | .digit _ _ optional :: more =>
      (shapes more).map grow ++ (if optional then shapes more else [])
  | .separator :: more => (shapes more).map (0 :: ·) ++ shapes more

/-- Digits, joined by separators. -/
def Written (es : List Entry) : Prop :=
  (∀ e ∈ es, ∀ d ∈ e.2, JsText.isDigit d = true) ∧
    ∀ e ∈ es.tail, Atom.separator.reads e.1 = true

@[simp] theorem runs_nil : runs [] = [] := rfl

@[simp] theorem runs_cons (e : Entry) (es : List Entry) :
    runs (e :: es) = e.2.length :: runs es := rfl

@[simp] theorem runs_append (xs ys : List Entry) : runs (xs ++ ys) = runs xs ++ runs ys :=
  List.map_append

theorem entries_digit (c : Char) {d : Char} (digit : JsText.isDigit d = true) (rest : Text) :
    entries c (d :: rest) = (c, d :: (splitWords rest).1) :: (splitWords rest).2 := by
  simp [entries, splitWords, isWord_of_isDigit digit]

theorem not_word_of_separator {d : Char} (separator : Atom.separator.reads d = true) :
    isWord d = false := by
  simp only [Atom.reads, Bool.or_eq_true, beq_iff_eq] at separator
  obtain rfl | rfl := separator <;> decide

theorem reads_shape (reads : Reads atoms path) (c : Char) :
    runs (entries c (chars path)) ∈ shapes atoms := by
  induction reads generalizing c with
  | done => exact List.mem_singleton.mpr rfl
  | @take a more d path ok _ ih =>
    cases a with
    | digit group allowed optional =>
      have digit : JsText.isDigit d = true := (Bool.and_eq_true _ _ ▸ ok).1
      rw [chars_cons, entries_digit c digit]
      exact List.mem_append_left _ (List.mem_map.mpr ⟨_, ih c, rfl⟩)
    | separator =>
      rw [chars_cons, entries_break c (not_word_of_separator ok)]
      exact List.mem_append_left _ (List.mem_map.mpr ⟨_, ih d, rfl⟩)
  | @skip a more path left _ ih =>
    cases a with
    | digit group allowed optional =>
      have optional : optional = true := left
      rw [shapes, if_pos optional]
      exact List.mem_append_right _ (ih c)
    | separator => exact List.mem_append_right _ (ih c)

theorem reads_written (reads : Reads atoms path) (c : Char) :
    Written (entries c (chars path)) := by
  induction reads generalizing c with
  | done => exact ⟨by simp, by simp⟩
  | @take a more d path ok _ ih =>
    cases a with
    | digit group allowed optional =>
      have digit : JsText.isDigit d = true := (Bool.and_eq_true _ _ ▸ ok).1
      obtain ⟨digits, separators⟩ := ih c
      rw [chars_cons, entries_digit c digit]
      simp only [entries, List.forall_mem_cons, List.tail_cons] at digits separators
      exact ⟨List.forall_mem_cons.mpr ⟨List.forall_mem_cons.mpr ⟨digit, digits.1⟩, digits.2⟩,
        separators⟩
    | separator =>
      obtain ⟨digits, separators⟩ := ih d
      rw [chars_cons, entries_break c (not_word_of_separator ok)]
      exact ⟨List.forall_mem_cons.mpr ⟨by simp, digits⟩,
        List.forall_mem_cons.mpr ⟨ok, separators⟩⟩
  | skip _ _ ih => exact ih c

/-- A group takes all its mandatory digits and at most all its digits. -/
theorem captured_length (reads : Reads atoms path) (group : Nat) :
    atoms.countP (fun a => a.group == some group && !a.optional) ≤ (captured group path).length ∧
      (captured group path).length ≤ atoms.countP fun a => a.group == some group := by
  induction reads with
  | done => exact ⟨Nat.le_refl 0, Nat.le_refl 0⟩
  | @take a more d path _ _ ih =>
    simp only [captured, List.length_map, List.countP_cons, List.filter_cons] at ih ⊢
    cases inGroup : a.group == some group <;> cases a.optional <;> simp <;> omega
  | @skip a more path left _ ih =>
    simp only [List.countP_cons, left, Bool.not_true, Bool.and_false, Bool.false_eq_true,
      ↓reduceIte, Nat.add_zero]
    omega

theorem captured_digits (reads : Reads atoms path) {group : Nat} {d : Char}
    (member : d ∈ captured group path) : JsText.isDigit d = true := by
  induction reads with
  | done => exact absurd member List.not_mem_nil
  | @take a more e path ok _ ih =>
    simp only [captured, List.filter_cons] at member ih
    split at member
    next inGroup =>
      cases List.mem_cons.mp member with
      | inl equal =>
        subst equal
        cases a with
        | digit group allowed optional => exact (Bool.and_eq_true _ _ ▸ ok).1
        | separator => simp [Atom.group] at inGroup
      | inr later => exact ih later
    · exact ih member
  | skip _ _ ih => exact ih member

theorem full_shape (full : Full p m) : runs m ∈ shapes p.atoms := by
  obtain ⟨c, path, reads, rfl⟩ := full
  exact reads_shape reads c

theorem full_written (full : Full p m) : Written m := by
  obtain ⟨c, path, reads, rfl⟩ := full
  exact reads_written reads c

/-- Every digit of the pattern may be any digit. -/
def Plain (p : Pattern) : Prop :=
  ∀ a ∈ p.atoms, ∀ d, a.group ≠ none → JsText.isDigit d = true → a.reads d = true

theorem shapes_ne_nil {shape : List Nat} (member : shape ∈ shapes atoms) : shape ≠ [] := by
  induction atoms generalizing shape with
  | nil => simp_all [shapes]
  | cons a more ih =>
    cases a with
    | digit group allowed optional =>
      cases List.mem_append.mp member with
      | inl grown =>
        obtain ⟨before, beforeMember, rfl⟩ := List.mem_map.mp grown
        cases before with
        | nil => exact absurd rfl (ih beforeMember)
        | cons n ns => exact List.cons_ne_nil _ _
      | inr left =>
        split at left
        · exact ih left
        · exact absurd left List.not_mem_nil
    | separator =>
      cases List.mem_append.mp member with
      | inl taken =>
        obtain ⟨before, -, rfl⟩ := List.mem_map.mp taken
        exact List.cons_ne_nil _ _
      | inr left => exact ih left

theorem exists_reads_of_shape {text : Text} {c : Char}
    (plain : ∀ a ∈ atoms, ∀ d, a.group ≠ none → JsText.isDigit d = true → a.reads d = true)
    (written : Written (entries c text)) (shape : runs (entries c text) ∈ shapes atoms) :
    ∃ path, Reads atoms path ∧ chars path = text := by
  induction atoms generalizing text c with
  | nil =>
    have empty : text = [] := by
      have flat := flatten_entries c text
      simp only [shapes, entries, runs, List.map_cons, List.mem_singleton, List.cons.injEq,
        List.length_eq_zero_iff, List.map_eq_nil_iff] at shape
      simpa [entries, shape.1, shape.2, flatten] using flat.symm
    exact ⟨[], .done, empty.symm⟩
  | cons a more ih =>
    have plainMore := fun b member => plain b (List.mem_cons_of_mem a member)
    have skipped (left : a.optional = true) (later : runs (entries c text) ∈ shapes more) :
        ∃ path, Reads (a :: more) path ∧ chars path = text := by
      obtain ⟨path, reads, equal⟩ := ih plainMore written later
      exact ⟨path, .skip left reads, equal⟩
    cases a with
    | digit group allowed optional =>
      cases List.mem_append.mp shape with
      | inl grown =>
        obtain ⟨ns, member, equal⟩ := List.mem_map.mp grown
        obtain ⟨n, tail, rfl⟩ := List.exists_cons_of_ne_nil (shapes_ne_nil member)
        cases text with
        | nil => simp [grow] at equal
        | cons d text =>
          cases digit : isWord d with
          | false =>
            rw [entries_break c digit] at equal
            simp [grow] at equal
          | true =>
            have isDigit : JsText.isDigit d = true := by
              refine written.1 _ List.mem_cons_self d ?_
              simp [splitWords, digit]
            rw [entries_digit c isDigit] at written equal
            have shorter : runs (entries c text) = n :: tail := by
              simpa [grow, entries] using equal.symm
            have writtenRest : Written (entries c text) := by
              obtain ⟨digits, separators⟩ := written
              simp only [List.forall_mem_cons] at digits
              exact ⟨List.forall_mem_cons.mpr ⟨digits.1.2, digits.2⟩, separators⟩
            obtain ⟨path, reads, rfl⟩ := ih plainMore writtenRest (shorter ▸ member)
            exact ⟨_, .take (plain _ List.mem_cons_self d (by simp [Atom.group]) isDigit) reads,
              rfl⟩
      | inr left =>
        split at left
        next optional => exact skipped optional left
        · exact absurd left List.not_mem_nil
    | separator =>
      cases List.mem_append.mp shape with
      | inl taken =>
        obtain ⟨ns, member, equal⟩ := List.mem_map.mp taken
        cases text with
        | nil =>
          simp only [entries_nil, runs_cons, List.length_nil, runs_nil, List.cons.injEq,
            true_and] at equal
          exact absurd equal (shapes_ne_nil member)
        | cons d text =>
          cases word : isWord d with
          | true => simp [entries, splitWords, word] at equal
          | false =>
            rw [entries_break c word] at written equal
            have separator : Atom.separator.reads d = true :=
              written.2 _ List.mem_cons_self
            have writtenRest : Written (entries d text) :=
              ⟨fun e member => written.1 e (List.mem_cons_of_mem _ member),
                fun e member => written.2 e (List.mem_of_mem_tail member)⟩
            simp only [runs_cons, List.length_nil, List.cons.injEq, true_and] at equal
            obtain ⟨path, reads, rfl⟩ := ih plainMore writtenRest (equal ▸ member)
            exact ⟨_, .take separator reads, rfl⟩
      | inr left => exact skipped rfl left

theorem entries_of_written (written : Written m) (nonempty : m ≠ []) :
    ∃ c text, m = entries c text := by
  induction m with
  | nil => exact absurd rfl nonempty
  | cons e tail ih =>
    obtain ⟨c, w⟩ := e
    have words : ∀ d ∈ w, isWord d = true := fun d member =>
      isWord_of_isDigit (written.1 _ List.mem_cons_self d member)
    cases tail with
    | nil => exact ⟨c, w, (entries_words c words).symm⟩
    | cons e tail =>
      have writtenTail : Written (e :: tail) :=
        ⟨fun e member => written.1 e (List.mem_cons_of_mem _ member),
          fun e member => written.2 e (List.mem_of_mem_tail member)⟩
      obtain ⟨d, text, equal⟩ := ih writtenTail (List.cons_ne_nil _ _)
      have head : e.1 = d := by
        rw [entries, List.cons.injEq] at equal
        rw [equal.1]
      have notWord := not_word_of_separator (head ▸ written.2 e List.mem_cons_self)
      exact ⟨c, w ++ d :: text, by
        rw [entries_append_break c w notWord, entries_words c words, equal]; rfl⟩

/-- Of a pattern that allows every digit, the shape alone makes a match. -/
theorem full_of_shape (plain : Plain p) (written : Written m)
    (shape : runs m ∈ shapes p.atoms) : Full p m := by
  have nonempty : m ≠ [] := by
    rintro rfl
    exact shapes_ne_nil shape rfl
  obtain ⟨c, text, rfl⟩ := entries_of_written written nonempty
  obtain ⟨path, reads, rfl⟩ := exists_reads_of_shape plain written shape
  exact ⟨c, path, reads, rfl⟩

end Shapes

end DigitPattern
