import KasterCti.Library.JsText

/-!
# Texts as words and what stands between them

A text is cut at every character that is not a word character. Each such
character opens an entry, which holds it and the word after it, so that two
neighbouring entries meet exactly where the regular expression `\b` holds or
where a word is empty.
-/

namespace WordText

abbrev Text := List Char

/-- `\w`. -/
def isWord (c : Char) : Bool :=
  ('a' ≤ c && c ≤ 'z') || ('A' ≤ c && c ≤ 'Z') || JsText.isDigit c || c == '_'

/-- Whether there is a word character, `none` standing past an end of the text. -/
def isWordAt : Option Char → Bool
  | none => false
  | some c => isWord c

/-- `\b` between two neighbouring characters. -/
def boundary (before after : Option Char) : Bool := isWordAt before != isWordAt after

abbrev Entry := Char × Text

def splitWords : Text → Text × List Entry
  | [] => ([], [])
  | c :: rest =>
      if isWord c then (c :: (splitWords rest).1, (splitWords rest).2)
      else ([], (c, (splitWords rest).1) :: (splitWords rest).2)

/-- The entries of a text that follows the character `c`. -/
def entries (c : Char) (text : Text) : List Entry :=
  (c, (splitWords text).1) :: (splitWords text).2

def flatten (es : List Entry) : Text := es.flatMap fun e => e.1 :: e.2

@[simp] theorem isWordAt_none : isWordAt none = false := rfl

@[simp] theorem isWordAt_some (c : Char) : isWordAt (some c) = isWord c := rfl

theorem isWord_of_isDigit {c : Char} (digit : JsText.isDigit c = true) : isWord c = true := by
  simp [isWord, digit]

@[simp] theorem entries_nil (c : Char) : entries c [] = [(c, [])] := rfl

theorem entries_break (c : Char) {d : Char} (notWord : isWord d = false) (rest : Text) :
    entries c (d :: rest) = (c, []) :: entries d rest := by
  simp [entries, splitWords, notWord]

theorem entries_words (c : Char) {w : Text} (words : ∀ d ∈ w, isWord d = true) :
    entries c w = [(c, w)] := by
  induction w with
  | nil => rfl
  | cons d rest ih =>
    have tail := ih fun e member => words e (List.mem_cons_of_mem d member)
    simp only [entries, List.cons.injEq, Prod.mk.injEq, true_and] at tail
    simp [entries, splitWords, words d List.mem_cons_self, tail.1, tail.2]

theorem splitWords_append_break (u : Text) {d : Char} (notWord : isWord d = false) (rest : Text) :
    splitWords (u ++ d :: rest) = ((splitWords u).1, (splitWords u).2 ++ entries d rest) := by
  induction u with
  | nil => simp [splitWords, notWord, entries]
  | cons c u ih =>
    rw [List.cons_append, splitWords, splitWords, ih]
    split <;> rfl

theorem entries_append_break (c : Char) (u : Text) {d : Char} (notWord : isWord d = false)
    (rest : Text) : entries c (u ++ d :: rest) = entries c u ++ entries d rest := by
  simp [entries, splitWords_append_break u notWord]

theorem flatten_cons (e : Entry) (es : List Entry) :
    flatten (e :: es) = e.1 :: e.2 ++ flatten es := by
  simp [flatten]

theorem flatten_splitWords (text : Text) :
    (splitWords text).1 ++ flatten (splitWords text).2 = text := by
  induction text with
  | nil => rfl
  | cons c rest ih =>
    rw [splitWords]
    split
    · rw [List.cons_append, ih]
    · simp [flatten_cons, ih]

theorem flatten_entries (c : Char) (text : Text) : flatten (entries c text) = c :: text := by
  simp [entries, flatten_cons, flatten_splitWords]

theorem flatten_append (xs ys : List Entry) : flatten (xs ++ ys) = flatten xs ++ flatten ys :=
  List.flatMap_append

theorem not_word_of_mem_splitWords {text : Text} {e : Entry} (member : e ∈ (splitWords text).2) :
    isWord e.1 = false := by
  induction text with
  | nil => simp [splitWords] at member
  | cons c rest ih =>
    rw [splitWords] at member
    split at member
    · exact ih member
    next notWord =>
      cases List.mem_cons.mp member with
      | inl equal =>
        subst equal
        simpa using notWord
      | inr inTail => exact ih inTail

theorem isWordAt_head_flatten {es : List Entry} (breaks : ∀ e ∈ es, isWord e.1 = false) :
    isWordAt (flatten es).head? = false := by
  cases es with
  | nil => rfl
  | cons e es =>
    rw [flatten_cons]
    exact breaks e List.mem_cons_self

/-- A text is one word, or a word and a break before the rest. -/
theorem word_or_break (text : Text) :
    (∀ c ∈ text, isWord c = true) ∨
      ∃ w d rest, text = w ++ d :: rest ∧ (∀ c ∈ w, isWord c = true) ∧ isWord d = false := by
  induction text with
  | nil => exact Or.inl fun c member => absurd member List.not_mem_nil
  | cons c text ih =>
    cases wordCase : isWord c with
    | false =>
      exact Or.inr ⟨[], c, text, rfl, fun d member => absurd member List.not_mem_nil, wordCase⟩
    | true =>
      cases ih with
      | inl words => exact Or.inl (List.forall_mem_cons.mpr ⟨wordCase, words⟩)
      | inr broken =>
        obtain ⟨w, d, rest, rfl, words, notWord⟩ := broken
        exact Or.inr ⟨c :: w, d, rest, rfl, List.forall_mem_cons.mpr ⟨wordCase, words⟩, notWord⟩

/-- Induction over a text, one word and one break at a time. -/
theorem word_induction {P : Text → Prop} (words : ∀ w, (∀ c ∈ w, isWord c = true) → P w)
    (step : ∀ w d rest, (∀ c ∈ w, isWord c = true) → isWord d = false → P rest →
      P (w ++ d :: rest)) (text : Text) : P text := by
  cases word_or_break text with
  | inl all => exact words text all
  | inr broken =>
    obtain ⟨w, d, rest, rfl, all, notWord⟩ := broken
    exact step w d rest all notWord (word_induction words step rest)
termination_by text.length
decreasing_by
  subst_vars
  simp only [List.length_append, List.length_cons]
  omega

end WordText
