import KasterCti.Library.PatternPasses

/-!
# Personal numbers in a transcript

`maskPii` runs four replacements over the text of a call: card numbers first, then resident
numbers, then the numbers of mobile and of landline phones. Each leaves some digits of the number
that it masks.

Results:
1. `leaves_maskCard`, `leaves_maskResident`, `leaves_maskMiddle`: what is left of a number is its
   front, characters outside words and, but for a resident number, its last four digits.
2. `full_card_iff`: four digits and `Follows` behind them are a card number.
3. `maskPii_passes`: the four replacements as four walks over the entries of the text.
-/

namespace KasterCti.CallAnalysis

open WordText DigitPattern

/-- `\d` in a capture group. -/
def anyDigit (group : Nat) : Atom := .digit group (fun _ => true) false

/-- `(\d{4})`. -/
def fourDigits (group : Nat) : List Atom := List.replicate 4 (anyDigit group)

/-- `(\d{3,4})`. -/
def threeOrFour (group : Nat) : List Atom :=
  List.replicate 3 (anyDigit group) ++ [.digit group (fun _ => true) true]

def CARD_NUMBER : Pattern where
  atoms := fourDigits 1 ++ .separator :: fourDigits 2 ++ .separator :: fourDigits 3 ++
    .separator :: fourDigits 4
  opens := rfl
  closes := rfl

def RESIDENT_NUMBER : Pattern where
  atoms := List.replicate 6 (anyDigit 1) ++ .separator ::
    .digit 2 (fun c => '1' ≤ c && c ≤ '4') false :: List.replicate 6 (anyDigit 2)
  opens := rfl
  closes := rfl

def MOBILE_NUMBER : Pattern where
  atoms := [.digit 1 (· == '0') false, .digit 1 (· == '1') false,
    .digit 1 (['0', '1', '6', '7', '8', '9'].contains ·) false] ++
    .separator :: threeOrFour 2 ++ .separator :: fourDigits 3
  opens := rfl
  closes := rfl

def LANDLINE_NUMBER : Pattern where
  atoms := [.digit 1 (· == '0') false, .digit 1 (fun c => '2' ≤ c && c ≤ '6') false,
    .digit 1 (fun _ => true) true] ++
    .separator :: threeOrFour 2 ++ .separator :: fourDigits 3
  opens := rfl
  closes := rfl

def replace (p : Pattern) (mask : Path → Text) (text : Text) : Text :=
  replaceAll p mask none 0 text

def maskCard (path : Path) : Text :=
  ['*', '*', '*', '*', '-', '*', '*', '*', '*', '-', '*', '*', '*', '*', '-'] ++ captured 4 path

def maskResident (path : Path) : Text :=
  captured 1 path ++ ['-', '*', '*', '*', '*', '*', '*', '*']

def maskMiddle (path : Path) : Text :=
  captured 1 path ++ '-' :: List.replicate (captured 2 path).length '*' ++ '-' :: captured 3 path

def maskPii (text : Text) : Text :=
  if text = [] then []
  else
    replace LANDLINE_NUMBER maskMiddle (replace MOBILE_NUMBER maskMiddle
      (replace RESIDENT_NUMBER maskResident (replace CARD_NUMBER maskCard text)))

example : maskPii "4111-1111-1111-1111, 010 1234 5678".toList =
    "****-****-****-1111, 010-****-5678".toList := by decide

theorem maskPii_eq (text : Text) :
    maskPii text = replace LANDLINE_NUMBER maskMiddle (replace MOBILE_NUMBER maskMiddle
      (replace RESIDENT_NUMBER maskResident (replace CARD_NUMBER maskCard text))) := by
  cases text with
  | nil => rfl
  | cons c text => rfl

/-! ## What is left of a number -/

/-- The lengths of the fronts that are left, none of them the length of a last group. -/
def heads : List Nat := [0, 2, 3, 6]

def LastFour (last : List Entry) : Prop :=
  ∃ w, last = [('-', w)] ∧ w.length = 4 ∧ ∀ d ∈ w, JsText.isDigit d = true

theorem entries_stars (c : Char) (n : Nat) :
    entries c (List.replicate n '*') = (c, []) :: List.replicate n ('*', []) := by
  induction n generalizing c with
  | zero => rfl
  | succ n ih => rw [List.replicate_succ, entries_break c (by decide), ih, List.replicate_succ]

theorem words_of_digits {w : Text} (digits : ∀ d ∈ w, JsText.isDigit d = true) :
    ∀ d ∈ w, isWord d = true := fun d member => isWord_of_isDigit (digits d member)

/-- A front, a dash and stars, and a dash and the last digits. -/
theorem entries_masked (c : Char) {front last : Text}
    (frontDigits : ∀ d ∈ front, JsText.isDigit d = true)
    (lastDigits : ∀ d ∈ last, JsText.isDigit d = true) (n : Nat) :
    entries c (front ++ '-' :: List.replicate n '*' ++ '-' :: last) =
      (c, front) :: (('-', []) :: List.replicate n ('*', [])) ++ [('-', last)] := by
  rw [entries_append_break c _ (by decide), entries_append_break c _ (by decide), entries_stars,
    entries_words c (words_of_digits frontDigits), entries_words '-' (words_of_digits lastDigits)]
  rfl

theorem empty_of_mem_stars {n : Nat} {e : Entry}
    (member : e ∈ ('-', []) :: List.replicate n ('*', [])) : e.2 = [] := by
  cases List.mem_cons.mp member with
  | inl dash => rw [dash]
  | inr star => rw [List.eq_of_mem_replicate star]

theorem leaves_maskCard (c : Char) {path : Path} (reads : Reads CARD_NUMBER.atoms path) :
    Leaves heads LastFour (entries c (maskCard path)) := by
  have digits : ∀ d ∈ captured 4 path, JsText.isDigit d = true :=
    fun d member => captured_digits reads member
  have split : maskCard path = ['*', '*', '*', '*', '-', '*', '*', '*', '*', '-', '*', '*', '*',
      '*'] ++ '-' :: captured 4 path := by
    simp [maskCard]
  have length : (captured 4 path).length = 4 := by
    obtain ⟨atLeast, atMost⟩ := captured_length reads 4
    exact Nat.le_antisymm atMost atLeast
  rw [split, entries_append_break c _ (by decide), entries_words '-' (words_of_digits digits)]
  exact ⟨(c, []), _, _, rfl, by simp [heads], by decide, by decide, _, rfl, length, digits⟩

theorem leaves_maskResident (c : Char) {path : Path}
    (reads : Reads RESIDENT_NUMBER.atoms path) :
    Leaves heads (· = []) (entries c (maskResident path)) := by
  have digits : ∀ d ∈ captured 1 path, JsText.isDigit d = true :=
    fun d member => captured_digits reads member
  have split : maskResident path = captured 1 path ++ '-' :: List.replicate 7 '*' := by
    simp [maskResident, List.replicate]
  have length : (captured 1 path).length = 6 := by
    obtain ⟨atLeast, atMost⟩ := captured_length reads 1
    exact Nat.le_antisymm atMost atLeast
  rw [split, entries_append_break c _ (by decide), entries_words c (words_of_digits digits),
    entries_stars]
  exact ⟨(c, captured 1 path), _, [], (List.append_nil _).symm, by simp [length, heads],
    List.cons_ne_nil _ _, fun e member => empty_of_mem_stars member, rfl⟩

theorem leaves_maskMiddle {p : Pattern}
    (front : p.atoms.countP (fun a => a.group == some 1 && !a.optional) ≥ 2 ∧
      p.atoms.countP (fun a => a.group == some 1) ≤ 3)
    (last : p.atoms.countP (fun a => a.group == some 3 && !a.optional) = 4 ∧
      p.atoms.countP (fun a => a.group == some 3) = 4)
    (c : Char) {path : Path} (reads : Reads p.atoms path) :
    Leaves heads LastFour (entries c (maskMiddle path)) := by
  have frontLength := captured_length reads 1
  have lastLength := captured_length reads 3
  rw [last.1, last.2] at lastLength
  have inHeads : (captured 1 path).length ∈ heads := by
    have twoOrThree : (captured 1 path).length = 2 ∨ (captured 1 path).length = 3 := by omega
    cases twoOrThree with
    | inl two => simp [two, heads]
    | inr three => simp [three, heads]
  rw [maskMiddle, entries_masked c (fun d member => captured_digits reads member)
    (fun d member => captured_digits reads member)]
  exact ⟨_, _, _, rfl, inHeads, List.cons_ne_nil _ _, fun e member => empty_of_mem_stars member,
    _, rfl, Nat.le_antisymm lastLength.2 lastLength.1,
    fun d member => captured_digits reads member⟩

theorem leaves_mobile (c : Char) (path : Path) (reads : Reads MOBILE_NUMBER.atoms path) :
    Leaves heads LastFour (entries c (maskMiddle path)) :=
  leaves_maskMiddle (by decide) (by decide) c reads

theorem leaves_landline (c : Char) (path : Path) (reads : Reads LANDLINE_NUMBER.atoms path) :
    Leaves heads LastFour (entries c (maskMiddle path)) :=
  leaves_maskMiddle (by decide) (by decide) c reads

theorem short_of_lastFour {last : List Entry} (lastFour : LastFour last) : last.length ≤ 1 := by
  obtain ⟨w, rfl, -⟩ := lastFour
  exact Nat.le_refl 1

/-! ## Groups of four digits -/

/-- `\d{4}[- ]?\d{4}[- ]?\d{4}`. -/
def threeGroups : Pattern where
  atoms := fourDigits 1 ++ .separator :: fourDigits 2 ++ .separator :: fourDigits 3
  opens := rfl
  closes := rfl

/-- Behind a separator, three groups of four digits. -/
def Follows (t : List Entry) : Prop :=
  Full threeGroups t ∧ ∀ e ∈ t.head?, Atom.separator.reads e.1 = true

theorem plain_of_fours {p : Pattern}
    (fours : ∀ a ∈ p.atoms, a = .separator ∨ ∃ group, a = anyDigit group) : Plain p := by
  intro a member d grouped digit
  obtain rfl | ⟨group, rfl⟩ := fours a member
  · exact absurd rfl grouped
  · simpa [anyDigit, Atom.reads] using digit

theorem plain_card : Plain CARD_NUMBER := plain_of_fours fun a member => by
  simp only [CARD_NUMBER, fourDigits, List.replicate, List.mem_append, List.mem_cons,
    List.not_mem_nil] at member
  grind

theorem plain_threeGroups : Plain threeGroups := plain_of_fours fun a member => by
  simp only [threeGroups, fourDigits, List.replicate, List.mem_append, List.mem_cons,
    List.not_mem_nil] at member
  grind

/-- Four digits and three more groups behind them are a card number, and nothing else is. -/
theorem full_card_iff {e : Entry} {t : List Entry} (four : e.2.length = 4)
    (digits : ∀ d ∈ e.2, JsText.isDigit d = true) :
    Full CARD_NUMBER (e :: t) ↔ Follows t := by
  have headOfTail : (∀ f ∈ t.head?, Atom.separator.reads f.1 = true) ∧
      (∀ f ∈ t.tail, Atom.separator.reads f.1 = true) ↔
        ∀ f ∈ t, Atom.separator.reads f.1 = true := by
    cases t with
    | nil => simp
    | cons f t => simp
  constructor
  · intro full
    obtain ⟨allDigits, separators⟩ := full_written full
    obtain ⟨head, tail⟩ := headOfTail.mpr separators
    have shape := full_shape full
    rw [runs_cons, four] at shape
    have rest : ∀ ns, 4 :: ns ∈ shapes CARD_NUMBER.atoms → ns ∈ shapes threeGroups.atoms := by
      intro ns member
      have all : ∀ shape ∈ shapes CARD_NUMBER.atoms, shape.head? = some 4 →
          shape.tail ∈ shapes threeGroups.atoms := by decide
      exact all _ member rfl
    exact ⟨full_of_shape plain_threeGroups
      ⟨fun f member => allDigits f (List.mem_cons_of_mem _ member), tail⟩ (rest _ shape), head⟩
  · rintro ⟨full, head⟩
    obtain ⟨tailDigits, separators⟩ := full_written full
    refine full_of_shape plain_card
      ⟨List.forall_mem_cons.mpr ⟨digits, tailDigits⟩, headOfTail.mp ⟨head, separators⟩⟩ ?_
    have all : ∀ shape ∈ shapes threeGroups.atoms, 4 :: shape ∈ shapes CARD_NUMBER.atoms := by
      decide
    rw [runs_cons, four]
    exact all _ (full_shape full)

/-! ## The four walks -/

theorem pass_replace (p : Pattern) (mask : Path → Text) (text : Text) :
    Pass p mask (entries '\n' text) (entries '\n' (replace p mask text)) :=
  pass_replaceAll '\n' rfl

theorem maskPii_passes (text : Text) :
    ∃ es₁ es₂ es₃, Pass CARD_NUMBER maskCard (entries '\n' text) es₁ ∧
      Pass RESIDENT_NUMBER maskResident es₁ es₂ ∧ Pass MOBILE_NUMBER maskMiddle es₂ es₃ ∧
      Pass LANDLINE_NUMBER maskMiddle es₃ (entries '\n' (maskPii text)) := by
  rw [maskPii_eq]
  exact ⟨_, _, _, pass_replace _ _ _, pass_replace _ _ _, pass_replace _ _ _, pass_replace _ _ _⟩

end KasterCti.CallAnalysis
