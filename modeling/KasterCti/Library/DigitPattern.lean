import KasterCti.Library.WordEntries

/-!
# Regular expressions for numbers written in groups

A pattern is a row of digits, some of them optional, with an optional dash or
blank between the groups, and `\b` at both ends. The engine tries the ways to
read a text in the order of a backtracking matcher, which takes an optional
character first and leaves it out afterwards.
-/

namespace DigitPattern

open WordText

inductive Atom where
  | digit (group : Nat) (allowed : Char → Bool) (optional : Bool)
  | separator

namespace Atom

def reads : Atom → Char → Bool
  | .digit _ allowed _, c => JsText.isDigit c && allowed c
  | .separator, c => c == '-' || c == ' '

def optional : Atom → Bool
  | .digit _ _ optional => optional
  | .separator => true

def group : Atom → Option Nat
  | .digit group _ _ => some group
  | .separator => none

end Atom

structure Pattern where
  atoms : List Atom
  opens : atoms.head?.any (fun a => !a.optional) = true
  closes : atoms.getLast?.any (fun a => !a.optional) = true

/-- The characters read, each with its capture group. -/
abbrev Path := List (Option Nat × Char)

def chars (path : Path) : Text := path.map Prod.snd

def captured (group : Nat) (path : Path) : Text :=
  (path.filter fun step => step.1 == some group).map Prod.snd

/-- The ways to read the atoms off the front of a text, first choice first. -/
def ways : List Atom → Text → List (Path × Text)
  | [], text => [([], text)]
  | a :: more, [] => if a.optional then ways more [] else []
  | a :: more, c :: rest =>
      (if a.reads c then (ways more rest).map fun way => ((a.group, c) :: way.1, way.2) else []) ++
        (if a.optional then ways more (c :: rest) else [])

/-- The match that starts exactly here, with the text after it. -/
def matchAt (p : Pattern) (before : Option Char) (text : Text) : Option (Path × Text) :=
  if boundary before text.head? then
    (ways p.atoms text).find? fun way =>
      boundary ((chars way.1).getLast?.or before) way.2.head?
  else none

/-- `RegExp.prototype.test`. -/
def test (p : Pattern) (before : Option Char) : Text → Bool
  | [] => (matchAt p before []).isSome
  | c :: rest => (matchAt p before (c :: rest)).isSome || test p (some c) rest

/-- `text.replace(p, mask)` under the flag `g`; `skip` counts the characters
that the last match still covers. -/
def replaceAll (p : Pattern) (mask : Path → Text) : Option Char → Nat → Text → Text
  | _, _, [] => []
  | _, skip + 1, c :: rest => replaceAll p mask (some c) skip rest
  | before, 0, c :: rest =>
      match matchAt p before (c :: rest) with
      | some way => mask way.1 ++ replaceAll p mask (some c) (way.1.length - 1) rest
      | none => c :: replaceAll p mask (some c) 0 rest

inductive Reads : List Atom → Path → Prop
  | done : Reads [] []
  | take {a : Atom} {more : List Atom} {c : Char} {path : Path} (ok : a.reads c = true)
      (rest : Reads more path) : Reads (a :: more) ((a.group, c) :: path)
  | skip {a : Atom} {more : List Atom} {path : Path} (left : a.optional = true)
      (rest : Reads more path) : Reads (a :: more) path

@[simp] theorem chars_nil : chars [] = [] := rfl

@[simp] theorem chars_cons (step : Option Nat × Char) (path : Path) :
    chars (step :: path) = step.2 :: chars path := rfl

theorem length_chars (path : Path) : (chars path).length = path.length := by
  simp [chars]

section Engine

variable {p : Pattern} {mask : Path → Text} {before : Option Char} {c : Char} {path : Path}
  {text rest : Text} {atoms : List Atom}

theorem reads_of_mem_ways (member : (path, rest) ∈ ways atoms text) :
    Reads atoms path ∧ text = chars path ++ rest := by
  induction atoms generalizing text path with
  | nil =>
    simp only [ways, List.mem_singleton, Prod.mk.injEq] at member
    obtain ⟨rfl, rfl⟩ := member
    exact ⟨.done, rfl⟩
  | cons a more ih =>
    have skipped (left : a.optional = true) (member : (path, rest) ∈ ways more text) :
        Reads (a :: more) path ∧ text = chars path ++ rest :=
      ⟨.skip left (ih member).1, (ih member).2⟩
    cases text with
    | nil =>
      rw [ways] at member
      split at member
      next left => exact skipped left member
      · exact absurd member List.not_mem_nil
    | cons d text =>
      rw [ways, List.mem_append] at member
      cases member with
      | inl taken =>
        split at taken
        next ok =>
          obtain ⟨way, wayMember, equal⟩ := List.mem_map.mp taken
          simp only [Prod.mk.injEq] at equal
          obtain ⟨rfl, rfl⟩ := equal
          obtain ⟨reads, split⟩ := ih wayMember
          exact ⟨.take ok reads, by rw [split, chars_cons, List.cons_append]⟩
        · exact absurd taken List.not_mem_nil
      | inr left =>
        split at left
        next optional => exact skipped optional left
        · exact absurd left List.not_mem_nil

theorem mem_ways_of_reads (reads : Reads atoms path) (rest : Text) :
    (path, rest) ∈ ways atoms (chars path ++ rest) := by
  induction reads with
  | done => exact List.mem_singleton.mpr rfl
  | take ok _ ih =>
    simp only [chars_cons, List.cons_append, ways, ok, ↓reduceIte, List.mem_append]
    exact Or.inl (List.mem_map.mpr ⟨_, ih, rfl⟩)
  | @skip a more path left _ ih =>
    cases pathCase : chars path ++ rest with
    | nil =>
      rw [pathCase] at ih
      simpa [ways, left] using ih
    | cons d tail =>
      rw [pathCase] at ih
      simp only [ways, left, ↓reduceIte, List.mem_append]
      exact Or.inr ih

theorem isDigit_of_mandatory {a : Atom} (mandatory : a.optional = false) {d : Char}
    (ok : a.reads d = true) : JsText.isDigit d = true := by
  cases a with
  | digit group allowed optional =>
    simp only [Atom.reads, Bool.and_eq_true] at ok
    exact ok.1
  | separator => exact absurd mandatory (by decide)

theorem reads_head_mandatory (reads : Reads atoms path)
    (opens : atoms.head?.any (fun a => !a.optional) = true) :
    ∃ d tail, chars path = d :: tail ∧ JsText.isDigit d = true := by
  cases reads with
  | done => simp at opens
  | take ok rest =>
    simp only [List.head?_cons, Option.any_some, Bool.not_eq_eq_eq_not, Bool.not_true] at opens
    exact ⟨_, _, rfl, isDigit_of_mandatory opens ok⟩
  | skip left rest => simp [left] at opens

theorem reads_head (reads : Reads p.atoms path) :
    ∃ d tail, chars path = d :: tail ∧ JsText.isDigit d = true :=
  reads_head_mandatory reads p.opens

theorem reads_last_mandatory (reads : Reads atoms path)
    (closes : atoms.getLast?.any (fun a => !a.optional) = true) :
    ∃ d, (chars path).getLast? = some d ∧ JsText.isDigit d = true := by
  induction reads with
  | done => simp at closes
  | @take a more d path ok rest ih =>
    cases more with
    | nil =>
      cases rest
      simp only [List.getLast?_singleton, Option.any_some, Bool.not_eq_eq_eq_not,
        Bool.not_true] at closes
      exact ⟨d, rfl, isDigit_of_mandatory closes ok⟩
    | cons b more =>
      obtain ⟨last, found, digit⟩ := ih (by simpa [List.getLast?_cons_cons] using closes)
      exact ⟨last, by simp [List.getLast?_cons, found], digit⟩
  | @skip a more path left rest ih =>
    cases more with
    | nil => simp [left] at closes
    | cons b more => exact ih (by simpa [List.getLast?_cons_cons] using closes)

theorem reads_last (reads : Reads p.atoms path) :
    ∃ d, (chars path).getLast? = some d ∧ JsText.isDigit d = true :=
  reads_last_mandatory reads p.closes

/-- A match is a reading that starts and ends beside something that is not a word. -/
theorem matchAt_eq_some (found : matchAt p before text = some (path, rest)) :
    isWordAt before = false ∧ Reads p.atoms path ∧ text = chars path ++ rest ∧
      isWordAt rest.head? = false := by
  unfold matchAt at found
  split at found
  next starts =>
    obtain ⟨reads, rfl⟩ := reads_of_mem_ways (List.mem_of_find?_eq_some found)
    have ends := List.find?_some found
    obtain ⟨d, tail, head, digit⟩ := reads_head reads
    obtain ⟨e, last, lastDigit⟩ := reads_last reads
    simp only [head, List.cons_append, List.head?_cons, boundary, isWordAt_some,
      isWord_of_isDigit digit, bne_iff_ne, ne_eq, Bool.not_eq_true] at starts
    simp only [last, Option.some_or, boundary, isWordAt_some, isWord_of_isDigit lastDigit,
      bne_iff_ne, ne_eq] at ends
    exact ⟨starts, reads, rfl, by simpa using Ne.symm ends⟩
  · exact absurd found (by simp)

theorem matchAt_isSome (outside : isWordAt before = false) (reads : Reads p.atoms path)
    (ends : isWordAt rest.head? = false) :
    (matchAt p before (chars path ++ rest)).isSome = true := by
  obtain ⟨d, tail, head, digit⟩ := reads_head reads
  obtain ⟨e, last, lastDigit⟩ := reads_last reads
  have starts : boundary before (chars path ++ rest).head? = true := by
    simp [head, boundary, outside, isWord_of_isDigit digit]
  rw [matchAt, if_pos starts, List.find?_isSome]
  refine ⟨_, mem_ways_of_reads reads rest, ?_⟩
  simp [last, boundary, ends, isWord_of_isDigit lastDigit]

theorem matchAt_inside (inside : isWordAt before = true) : matchAt p before text = none := by
  cases found : matchAt p before text with
  | none => rfl
  | some way =>
    have outside := (matchAt_eq_some found).1
    rw [inside] at outside
    contradiction

theorem matchAt_break (notWord : isWordAt text.head? = false) : matchAt p before text = none := by
  cases found : matchAt p before text with
  | none => rfl
  | some way =>
    obtain ⟨-, reads, split, -⟩ := matchAt_eq_some found
    obtain ⟨d, tail, head, digit⟩ := reads_head reads
    rw [split, head] at notWord
    simp [isWord_of_isDigit digit] at notWord

theorem getLast?_cons_or (d : Char) (w : Text) (before : Option Char) :
    (d :: w).getLast?.or before = w.getLast?.or (some d) := by
  cases w <;> simp [List.getLast?_cons]

theorem replaceAll_cons_of_none (absent : matchAt p before (c :: rest) = none) :
    replaceAll p mask before 0 (c :: rest) = c :: replaceAll p mask (some c) 0 rest := by
  rw [replaceAll, absent]

theorem replaceAll_skip (u v : Text) (before : Option Char) :
    replaceAll p mask before u.length (u ++ v) =
      replaceAll p mask (u.getLast?.or before) 0 v := by
  induction u generalizing before with
  | nil => rfl
  | cons d u ih =>
    calc replaceAll p mask before (u.length + 1) (d :: (u ++ v))
        = replaceAll p mask (some d) u.length (u ++ v) := rfl
      _ = replaceAll p mask ((d :: u).getLast?.or before) 0 v := by
        rw [ih (some d), getLast?_cons_or]

theorem replaceAll_match (found : matchAt p before text = some (path, rest)) :
    replaceAll p mask before 0 text =
      mask path ++ replaceAll p mask (chars path).getLast? 0 rest := by
  obtain ⟨-, reads, rfl, -⟩ := matchAt_eq_some found
  obtain ⟨d, tail, head, -⟩ := reads_head reads
  have length : path.length - 1 = tail.length := by
    rw [← length_chars, head, List.length_cons, Nat.add_sub_cancel]
  rw [head, List.cons_append] at found ⊢
  rw [replaceAll, found]
  simp only [length, replaceAll_skip, ← getLast?_cons_or d tail none, Option.or_none]

theorem replaceAll_break (notWord : isWord c = false) (rest : Text) :
    replaceAll p mask before 0 (c :: rest) = c :: replaceAll p mask (some c) 0 rest :=
  replaceAll_cons_of_none (matchAt_break (by simpa using notWord))

theorem replaceAll_inside {w : Text} (words : ∀ d ∈ w, isWord d = true)
    (inside : isWordAt before = true) (v : Text) :
    replaceAll p mask before 0 (w ++ v) =
      w ++ replaceAll p mask (w.getLast?.or before) 0 v := by
  induction w generalizing before with
  | nil => rfl
  | cons d w ih =>
    rw [List.cons_append, replaceAll_cons_of_none (matchAt_inside inside), getLast?_cons_or,
      List.cons_append, ih (fun e member => words e (List.mem_cons_of_mem d member))
        (show isWordAt (some d) = true from words d List.mem_cons_self)]

/-- Where nothing matches at a word, the replacement goes on behind it. -/
theorem replaceAll_word {w v : Text} (words : ∀ d ∈ w, isWord d = true)
    (absent : matchAt p before (w ++ v) = none) :
    replaceAll p mask before 0 (w ++ v) =
      w ++ replaceAll p mask (w.getLast?.or before) 0 v := by
  cases w with
  | nil => rfl
  | cons d w =>
    rw [List.cons_append] at absent ⊢
    rw [replaceAll_cons_of_none absent, getLast?_cons_or, List.cons_append, replaceAll_inside (fun e member => words e (List.mem_cons_of_mem d member))
      (show isWordAt (some d) = true from words d List.mem_cons_self)]

theorem test_cons : test p before (c :: rest) =
    ((matchAt p before (c :: rest)).isSome || test p (some c) rest) := rfl

theorem replaceAll_eq_self (clean : test p before text = false) :
    replaceAll p mask before 0 text = text := by
  induction text generalizing before with
  | nil => rfl
  | cons d rest ih =>
    rw [test_cons, Bool.or_eq_false_iff, Option.isSome_eq_false_iff, Option.isNone_iff_eq_none]
      at clean
    rw [replaceAll_cons_of_none clean.1]
    exact congrArg (d :: ·) (ih clean.2)

theorem test_inside {w : Text} (words : ∀ d ∈ w, isWord d = true)
    (inside : isWordAt before = true) (v : Text) :
    test p before (w ++ v) = test p (w.getLast?.or before) v := by
  induction w generalizing before with
  | nil => rfl
  | cons d w ih =>
    rw [List.cons_append, test_cons, matchAt_inside inside, Option.isSome_none, Bool.false_or,
      getLast?_cons_or, ih (fun e member => words e (List.mem_cons_of_mem d member))
        (show isWordAt (some d) = true from words d List.mem_cons_self)]

theorem test_word {w v : Text} (words : ∀ d ∈ w, isWord d = true)
    (ends : isWordAt v.head? = false) :
    test p before (w ++ v) =
      ((matchAt p before (w ++ v)).isSome || test p (w.getLast?.or before) v) := by
  cases w with
  | nil =>
    rw [List.nil_append, matchAt_break ends]
    simp
  | cons d w =>
    rw [List.cons_append, test_cons, getLast?_cons_or,
      test_inside (fun e member => words e (List.mem_cons_of_mem d member))
        (show isWordAt (some d) = true from words d List.mem_cons_self)]

theorem test_break (notWord : isWord c = false) (rest : Text) :
    test p before (c :: rest) = test p (some c) rest := by
  rw [test_cons, matchAt_break (by simpa using notWord)]
  simp

theorem test_nil : test p before [] = false := by
  rw [test, matchAt_break rfl]
  rfl

end Engine

end DigitPattern
