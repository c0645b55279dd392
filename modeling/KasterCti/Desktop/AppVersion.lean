import KasterCti.Desktop.CallStateStore
import Mathlib

/-!
# Comparing versions

`AppVersion.cs` of the desktop client: the numbers of two versions are compared place by place.
A version that cannot be read equals every other one.

Results:
1. `tryParse_text`: the numbers that are read of a version.
2. `compare_correct_iff`: exactly which versions are compared rightly.
3. `skipped_number`: a number that does not fit is left out, and the next one takes its place.
-/

namespace KasterCti.Desktop.AppVersion

def isAsciiDigit (c : Char) : Bool := '0' ≤ c && c ≤ '9'

def decimal (digits : List Char) : Nat :=
  digits.foldl (fun value c => value * 10 + (c.toNat - '0'.toNat)) 0

/-- Whether a number is in the range of `long`. -/
def fitsLong (value : Nat) : Bool := value < 2 ^ 63

/-- `long.TryParse` of digits. -/
def longTryParse (digits : List Char) : Option Nat :=
  if fitsLong (decimal digits) then some (decimal digits) else none

/-- The loop of `TryParse` over the segments. -/
def readParts : List (List Char) → List Nat
  | [] => []
  | segment :: rest =>
    let digits := segment.takeWhile isAsciiDigit
    let read := if 0 < digits.length then (longTryParse digits).toList else []
    -- what follows behind a number is a tag, and nothing is read any more
    if digits.length < segment.length then read else read ++ readParts rest

def tryParse (text : Option String) : Option (List Nat) :=
  match text.map trimmed with
  | none | some [] => none
  | some trimmed =>
    let read := readParts (trimmed.splitOn '.')
    if read.length = 0 then none else some read

def partAt (parts : List Nat) (index : Nat) : Nat := parts.getD index 0

/-- The loop of `Compare` over the places. -/
def comparePlaces (a b : List Nat) : List Nat → Int
  | [] => 0
  | i :: places =>
    if partAt a i < partAt b i then -1
    else if partAt b i < partAt a i then 1
    else comparePlaces a b places

def compare (left right : Option String) : Int :=
  match tryParse left, tryParse right with
  | some a, some b => comparePlaces a b (List.range (max a.length b.length))
  | _, _ => 0

def isNewer (candidate baseline : Option String) : Bool := 0 < compare candidate baseline

example : compare (some "1.10.0") (some "1.4.0") = 1 := by decide

example : compare (some "1.4.0-beta.2") (some "1.4.0") = 0 := by decide

/-! ## The order of the numbers -/

/-- The result of a comparison of two things in their order. -/
def Tells {α : Type*} [LinearOrder α] (result : Int) (left right : α) : Prop :=
  result = -1 ∧ left < right ∨ result = 0 ∧ left = right ∨ result = 1 ∧ right < left

/-- A sequence of numbers, padded with zeros, in the order of the first difference. -/
def padded (parts : List Nat) : Lex (Nat → Nat) := toLex (partAt parts)

section Tells

variable {α : Type*} [LinearOrder α] {left right third : α} {result other : Int}

theorem Tells.nonpos_iff (tells : Tells result left right) : result ≤ 0 ↔ left ≤ right := by
  obtain ⟨rfl, less⟩ | ⟨rfl, rfl⟩ | ⟨rfl, greater⟩ := tells
  · exact iff_of_true (by decide) less.le
  · exact iff_of_true le_rfl le_rfl
  · exact iff_of_false (by decide) greater.not_ge

theorem Tells.pos_iff (tells : Tells result left right) : 0 < result ↔ right < left := by
  rw [← not_le, tells.nonpos_iff, not_le]

theorem Tells.eq_neg (tells : Tells result left right) (back : Tells other right left) :
    result = -other := by
  obtain ⟨rfl, less⟩ | ⟨rfl, rfl⟩ | ⟨rfl, greater⟩ := tells <;>
    obtain ⟨rfl, less'⟩ | ⟨rfl, equal⟩ | ⟨rfl, greater'⟩ := back
  any_goals rfl
  · exact absurd less' less.asymm
  · exact absurd less equal.not_gt
  · exact absurd less' (lt_irrefl _)
  · exact absurd greater' (lt_irrefl _)
  · exact absurd greater equal.not_lt
  · exact absurd greater' greater.asymm

end Tells

/-- From a place on, with everything equal before it and zeros behind the places. -/
theorem comparePlaces_tells (a b : List Nat) (first count : Nat)
    (before : ∀ i < first, partAt a i = partAt b i)
    (behind : ∀ i, first + count ≤ i → partAt a i = partAt b i) :
    Tells (comparePlaces a b (List.range' first count)) (padded a) (padded b) := by
  induction count generalizing first with
  | zero =>
    refine Or.inr (Or.inl ⟨rfl, congrArg toLex (funext fun i => ?_)⟩)
    obtain early | late := Nat.lt_or_ge i first
    · exact before i early
    · exact behind i late
  | succ count induction =>
    rw [List.range'_succ, comparePlaces]
    obtain less | equal | greater := lt_trichotomy (partAt a first) (partAt b first)
    · rw [if_pos less]
      exact Or.inl ⟨rfl, first, before, less⟩
    · rw [if_neg equal.not_lt, if_neg equal.not_gt]
      refine induction (first + 1) (fun i early => ?_) fun i late => behind i (by omega)
      obtain earlier | rfl := Nat.lt_succ_iff_lt_or_eq.mp early
      · exact before i earlier
      · exact equal
    · rw [if_neg greater.asymm, if_pos greater]
      exact Or.inr (Or.inr ⟨rfl, first, fun i early => (before i early).symm, greater⟩)

theorem compare_tells {left right : Option String} {a b : List Nat} (readLeft : tryParse left = some a)
    (readRight : tryParse right = some b) : Tells (compare left right) (padded a) (padded b) := by
  simp only [compare, readLeft, readRight, List.range_eq_range']
  refine comparePlaces_tells a b 0 _ (fun i none => absurd none (Nat.not_lt_zero i)) fun i late => ?_
  rw [Nat.zero_add] at late
  rw [partAt, partAt, List.getD_eq_default _ _ ((Nat.le_max_left _ _).trans late),
    List.getD_eq_default _ _ ((Nat.le_max_right _ _).trans late)]

/-! ## Versions -/

/-- Numbers between dots with a tag behind the last of them: neither the tag nor what stands
behind its leading dots begins with a digit. -/
structure Version where
  numbers : List (List Char)
  tag : List Char
  some : numbers ≠ []
  digits : ∀ number ∈ numbers, number ≠ [] ∧ ∀ c ∈ number, isAsciiDigit c = true
  noDigit : ∀ c ∈ (tag.dropWhile (· = '.')).head?, isAsciiDigit c = false

def Version.text (version : Version) : String :=
  String.ofList (['.'].intercalate version.numbers ++ version.tag)

def Version.values (version : Version) : List Nat := version.numbers.map decimal

/-- Every number fits in 64 bits. -/
def Version.Fits (version : Version) : Prop := ∀ value ∈ version.values, fitsLong value = true

/-- What the comparison promises of some versions. -/
structure OrderedAmong (known : Version → Prop) : Prop where
  numeric : ∀ left right, known left → known right →
    Tells (compare (some left.text) (some right.text)) (padded left.values) (padded right.values)
  antisymmetric : ∀ left right, known left → known right →
    compare (some left.text) (some right.text) = -compare (some right.text) (some left.text)
  transitive : ∀ first second third, known first → known second → known third →
    compare (some first.text) (some second.text) ≤ 0 →
    compare (some second.text) (some third.text) ≤ 0 →
    compare (some first.text) (some third.text) ≤ 0
  newer : ∀ left right, known left → known right →
    ¬ (isNewer (some left.text) (some right.text) = true ∧
      isNewer (some right.text) (some left.text) = true)

/-- The laws follow from the numeric comparison. -/
theorem orderedAmong_of_numeric {known : Version → Prop}
    (numeric : ∀ left right, known left → known right →
      Tells (compare (some left.text) (some right.text)) (padded left.values)
        (padded right.values)) : OrderedAmong known where
  numeric := numeric
  antisymmetric left right knownLeft knownRight :=
    (numeric left right knownLeft knownRight).eq_neg (numeric right left knownRight knownLeft)
  transitive first second third knownFirst knownSecond knownThird le le' := by
    rw [(numeric _ _ knownFirst knownSecond).nonpos_iff] at le
    rw [(numeric _ _ knownSecond knownThird).nonpos_iff] at le'
    exact (numeric _ _ knownFirst knownThird).nonpos_iff.mpr (le.trans le')
  newer left right knownLeft knownRight := by
    rintro ⟨newer, older⟩
    have greater := (numeric _ _ knownLeft knownRight).pos_iff.mp (of_decide_eq_true newer)
    have less := (numeric _ _ knownRight knownLeft).pos_iff.mp (of_decide_eq_true older)
    exact less.asymm greater

/-! ## What is read of a version -/

theorem notMem_dot {number : List Char} (digits : ∀ c ∈ number, isAsciiDigit c = true) :
    '.' ∉ number := fun member => absurd (digits _ member) (by decide)

theorem splitOn_append {head : List Char} (noDot : '.' ∉ head) (rest : List Char) :
    (head ++ rest).splitOn '.' = (rest.splitOn '.').modifyHead (head ++ ·) := by
  induction head with
  | nil =>
    cases pieces : rest.splitOn '.' with
    | nil => exact absurd pieces (List.splitOn_ne_nil _ _)
    | cons piece pieces => exact pieces
  | cons c head induction =>
    rw [List.mem_cons, not_or] at noDot
    obtain ⟨different, noDot⟩ := noDot
    rw [List.cons_append, List.splitOn_cons_eq_if_modifyHead, if_neg (by simpa using Ne.symm different),
      induction noDot, List.modifyHead_modifyHead]
    rfl

theorem takeWhile_digits {number rest : List Char} (digits : ∀ c ∈ number, isAsciiDigit c = true)
    (noDigit : ∀ c ∈ rest.head?, isAsciiDigit c = false) :
    (number ++ rest).takeWhile isAsciiDigit = number := by
  rw [List.takeWhile_append_of_pos digits]
  cases rest with
  | nil => simp
  | cons c rest => rw [List.takeWhile_cons_of_neg (by simp [noDigit c rfl]), List.append_nil]

/-- A tag behind leading dots is not read. -/
theorem readParts_tag {tag : List Char}
    (noDigit : ∀ c ∈ (tag.dropWhile (· = '.')).head?, isAsciiDigit c = false) :
    readParts (tag.splitOn '.') = [] := by
  induction tag with
  | nil => rfl
  | cons c tag induction =>
    rw [List.splitOn_cons_eq_if_modifyHead]
    by_cases dot : c = '.'
    · subst dot
      rw [List.dropWhile_cons_of_pos (by rfl)] at noDigit
      rw [if_pos (by rfl), readParts, induction noDigit]
      rfl
    · rw [List.dropWhile_cons_of_neg (by simpa using dot)] at noDigit
      rw [if_neg (by simpa using dot)]
      cases pieces : tag.splitOn '.' with
      | nil => exact absurd pieces (List.splitOn_ne_nil _ _)
      | cons piece pieces => simp [readParts, noDigit c rfl]

theorem readParts_number {number : List Char} (some : number ≠ [])
    (digits : ∀ c ∈ number, isAsciiDigit c = true) (rest : List (List Char)) :
    readParts (number :: rest) = (longTryParse number).toList ++ readParts rest := by
  have whole : (number ++ []).takeWhile isAsciiDigit = number := takeWhile_digits digits (by simp)
  rw [List.append_nil] at whole
  rw [readParts, whole, if_pos (List.length_pos_of_ne_nil some), if_neg (lt_irrefl _)]

/-- The last number with its tag. -/
theorem readParts_last {number tag : List Char} (some : number ≠ [])
    (digits : ∀ c ∈ number, isAsciiDigit c = true)
    (noDigit : ∀ c ∈ (tag.dropWhile (· = '.')).head?, isAsciiDigit c = false) :
    readParts ((number ++ tag).splitOn '.') = (longTryParse number).toList := by
  cases tag with
  | nil =>
    rw [List.append_nil, List.splitOn_eq_singleton (notMem_dot digits),
      readParts_number some digits]
    exact List.append_nil _
  | cons c tag =>
    by_cases dot : c = '.'
    · subst dot
      rw [List.dropWhile_cons_of_pos (by rfl)] at noDigit
      rw [List.splitOn_append_cons_self, List.splitOn_eq_singleton (notMem_dot digits),
        List.singleton_append, readParts_number some digits, readParts_tag noDigit,
        List.append_nil]
    · rw [List.dropWhile_cons_of_neg (by simpa using dot)] at noDigit
      rw [splitOn_append (notMem_dot digits), List.splitOn_cons_eq_if_modifyHead,
        if_neg (by simpa using dot)]
      cases pieces : tag.splitOn '.' with
      | nil => exact absurd pieces (List.splitOn_ne_nil _ _)
      | cons piece pieces =>
        have read : (number ++ c :: piece).takeWhile isAsciiDigit = number :=
          takeWhile_digits digits (by simpa using noDigit)
        rw [List.modifyHead_cons, List.modifyHead_cons, readParts, read,
          if_pos (List.length_pos_of_ne_nil some), if_pos (by simp)]

theorem readParts_text {numbers : List (List Char)} {tag : List Char} (some : numbers ≠ [])
    (digits : ∀ number ∈ numbers, number ≠ [] ∧ ∀ c ∈ number, isAsciiDigit c = true)
    (noDigit : ∀ c ∈ (tag.dropWhile (· = '.')).head?, isAsciiDigit c = false) :
    readParts ((['.'].intercalate numbers ++ tag).splitOn '.') =
      (numbers.map decimal).filter fitsLong := by
  have read (number : List Char) (rest : List Nat) :
      (longTryParse number).toList ++ rest.filter fitsLong =
        (decimal number :: rest).filter fitsLong := by
    rw [longTryParse, List.filter_cons]
    split <;> rfl
  induction numbers with
  | nil => exact absurd rfl some
  | cons number numbers induction =>
    obtain ⟨⟨own, ownDigits⟩, others⟩ := List.forall_mem_cons.mp digits
    cases numbers with
    | nil =>
      rw [List.intercalate_singleton, readParts_last own ownDigits noDigit, List.map_singleton,
        ← read]
      exact (List.append_nil _).symm
    | cons next numbers =>
      have rest := induction (List.cons_ne_nil _ _) others
      rw [List.intercalate_cons_cons, List.append_assoc, List.append_assoc, List.singleton_append,
        List.splitOn_append_cons_self, List.splitOn_eq_singleton (notMem_dot ownDigits),
        List.singleton_append, readParts_number own ownDigits, rest]
      exact read number _

theorem not_isWhiteSpace_of_mem_intercalate {numbers : List (List Char)}
    (digits : ∀ number ∈ numbers, number ≠ [] ∧ ∀ c ∈ number, isAsciiDigit c = true) {c : Char}
    (member : c ∈ ['.'].intercalate numbers) : isWhiteSpace c = false := by
  obtain inNumber | dot : (∃ number ∈ numbers, c ∈ number) ∨ c = '.' := by
    induction numbers with
    | nil => cases member
    | cons number numbers induction =>
      cases numbers with
      | nil => exact Or.inl ⟨number, List.mem_cons_self, by simpa using member⟩
      | cons next numbers =>
        rw [List.intercalate_cons_cons, List.append_assoc, List.mem_append, List.mem_append,
          List.mem_singleton] at member
        obtain own | dot | later := member
        · exact Or.inl ⟨number, List.mem_cons_self, own⟩
        · exact Or.inr dot
        · refine (induction (List.forall_mem_cons.mp digits).2 later).imp_left ?_
          exact fun ⟨other, member, inside⟩ => ⟨other, List.mem_cons_of_mem _ member, inside⟩
  · obtain ⟨number, member, inside⟩ := inNumber
    have digit := (digits number member).2 c inside
    simp only [isAsciiDigit, Bool.and_eq_true, decide_eq_true_eq, Char.le_def,
      UInt32.le_iff_toNat_le] at digit
    have low : 48 ≤ c.toNat := digit.1
    have high : c.toNat ≤ 57 := digit.2
    simp only [isWhiteSpace, Bool.or_eq_false_iff, Bool.and_eq_false_iff, decide_eq_false_iff_not]
    omega
  · subst dot
    rfl

theorem dropWhile_of_all_not {p : Char → Bool} {cs : List Char} (none : ∀ c ∈ cs, p c = false) :
    cs.dropWhile p = cs := by
  cases cs with
  | nil => rfl
  | cons c cs => exact List.dropWhile_cons_of_neg (by simp [none c List.mem_cons_self])

/-- To trim a version cuts its tag at most. -/
theorem trimmed_text (version : Version) : ∃ tag, trimmed version.text =
      ['.'].intercalate version.numbers ++ tag ∧
    ∀ c ∈ (tag.dropWhile (· = '.')).head?, isAsciiDigit c = false := by
  have noSpace : ∀ c ∈ ['.'].intercalate version.numbers, isWhiteSpace c = false :=
    fun c member => not_isWhiteSpace_of_mem_intercalate version.digits member
  have front : (['.'].intercalate version.numbers ++ version.tag).dropWhile isWhiteSpace =
      ['.'].intercalate version.numbers ++ version.tag := by
    cases joined : ['.'].intercalate version.numbers with
    | nil =>
      obtain ⟨number, numbers, equal⟩ := List.exists_cons_of_ne_nil version.some
      have own := (version.digits number (equal ▸ List.mem_cons_self)).1
      rw [equal] at joined
      cases numbers with
      | nil => exact absurd (List.intercalate_singleton.symm.trans joined) own
      | cons next numbers =>
        rw [List.intercalate_cons_cons, List.append_assoc] at joined
        exact absurd (List.append_eq_nil_iff.mp joined).1 own
    | cons c rest =>
      exact List.dropWhile_cons_of_neg (by simp [noSpace c (joined ▸ List.mem_cons_self)])
  refine ⟨(version.tag.reverse.dropWhile isWhiteSpace).reverse, ?_, ?_⟩
  · rw [trimmed, Version.text, String.toList_ofList, front, List.reverse_append,
      List.dropWhile_append]
    split
    · rename_i none
      rw [List.isEmpty_iff.mp none, dropWhile_of_all_not fun c member =>
        noSpace c (List.mem_reverse.mp member)]
      simp
    · simp
  · have shorter : (version.tag.reverse.dropWhile isWhiteSpace).reverse <+: version.tag := by
      rw [← List.reverse_suffix, List.reverse_reverse]
      exact List.dropWhile_suffix _
    obtain ⟨rest, equal⟩ := shorter
    intro c first
    refine version.noDigit c ?_
    rw [← equal, List.dropWhile_append]
    split
    · rename_i none
      rw [List.isEmpty_iff.mp none] at first
      cases first
    · rw [Option.mem_def] at first ⊢
      rw [List.head?_append, first]
      rfl

/-- The numbers of a version that fit. -/
def Version.read (version : Version) : List Nat :=
  version.values.filter fitsLong

theorem tryParse_text (version : Version) :
    tryParse (some version.text) = if version.read = [] then none else some version.read := by
  obtain ⟨tag, isTrimmed, noDigit⟩ := trimmed_text version
  have read := readParts_text version.some version.digits noDigit
  rw [← isTrimmed] at read
  rw [tryParse]
  cases trimmedText : trimmed version.text with
  | nil =>
    rw [trimmedText] at read
    have none : version.read = [] := read.symm.trans rfl
    simp only [Option.map_some, trimmedText]
    rw [if_pos none]
  | cons c rest =>
    rw [trimmedText] at read
    simp only [Option.map_some, trimmedText, read, List.length_eq_zero_iff]
    rfl

variable {version : Version}

theorem Version.read_of_fits (fits : version.Fits) : version.read = version.values :=
  List.filter_eq_self.mpr fits

theorem Version.values_ne_nil (version : Version) : version.values ≠ [] :=
  fun none => version.some (List.map_eq_nil_iff.mp none)

theorem tryParse_of_fits (fits : version.Fits) :
    tryParse (some version.text) = some version.values := by
  rw [tryParse_text, Version.read_of_fits fits, if_neg version.values_ne_nil]

/-! ## Which versions are compared rightly -/

/-- The greatest number that fits. -/
def greatest : List Char :=
  ['9', '2', '2', '3', '3', '7', '2', '0', '3', '6', '8', '5', '4', '7', '7', '5', '8', '0', '7']

theorem decimal_greatest : decimal greatest = 2 ^ 63 - 1 := by decide

/-- As a version up to its first number that does not fit, and then as great as can be. -/
def Version.rival (version : Version) : Version where
  numbers := version.numbers.takeWhile (fitsLong ∘ decimal) ++
    List.replicate version.numbers.length greatest
  tag := []
  some := by simp [version.some]
  digits := by
    refine List.forall_mem_append.mpr ⟨fun number member => ?_, fun number member => ?_⟩
    · exact version.digits number (List.takeWhile_subset _ member)
    · rw [List.eq_of_mem_replicate member]
      exact ⟨by decide, List.all_eq_true.mp rfl⟩
  noDigit := by simp

theorem Version.rival_values (version : Version) : version.rival.values =
    (version.numbers.takeWhile (fitsLong ∘ decimal)).map decimal ++
      List.replicate version.numbers.length (2 ^ 63 - 1) := by
  rw [Version.values, Version.rival, List.map_append, List.map_replicate, decimal_greatest]

theorem fitsLong_of_mem_front {value : Nat}
    (member : value ∈ (version.numbers.takeWhile (fitsLong ∘ decimal)).map decimal) :
    fitsLong value = true := by
  obtain ⟨number, inFront, rfl⟩ := List.mem_map.mp member
  exact List.mem_takeWhile_imp (p := fitsLong ∘ decimal) inFront

theorem Version.rival_fits (version : Version) : version.rival.Fits := by
  intro value member
  rw [version.rival_values] at member
  obtain front | great := List.mem_append.mp member
  · exact fitsLong_of_mem_front front
  · rw [List.eq_of_mem_replicate great]
    decide

theorem partAt_append_le {front parts : List Nat} {count bound : Nat} (few : parts.length ≤ count)
    (small : ∀ part ∈ parts, part ≤ bound) (place : Nat) :
    partAt (front ++ parts) place ≤ partAt (front ++ List.replicate count bound) place := by
  obtain inFront | behind := Nat.lt_or_ge place front.length
  · rw [partAt, partAt, List.getD_append _ _ _ _ inFront, List.getD_append _ _ _ _ inFront]
  · rw [partAt, partAt, List.getD_append_right _ _ _ _ behind,
      List.getD_append_right _ _ _ _ behind]
    obtain inside | outside := Nat.lt_or_ge (place - front.length) parts.length
    · rw [List.getD_eq_getElem _ _ inside,
        List.getD_eq_getElem _ _ (by simpa using inside.trans_le few), List.getElem_replicate]
      exact small _ (List.getElem_mem inside)
    · rw [List.getD_eq_default _ _ outside]
      exact Nat.zero_le _

/-- What is read of the version is at no place greater than its rival. -/
theorem Version.read_le_rival (version : Version) (place : Nat) :
    partAt version.read place ≤ partAt version.rival.values place := by
  have split : version.read = (version.numbers.takeWhile (fitsLong ∘ decimal)).map decimal ++
      ((version.numbers.dropWhile (fitsLong ∘ decimal)).map decimal).filter fitsLong := by
    conv_lhs =>
      rw [Version.read, Version.values, ← List.takeWhile_append_dropWhile
        (p := fitsLong ∘ decimal) (l := version.numbers), List.map_append, List.filter_append]
    rw [List.filter_eq_self.mpr fun value member => fitsLong_of_mem_front member]
  rw [split, version.rival_values]
  refine partAt_append_le ?_ (fun part member => ?_) place
  · refine (List.length_filter_le _ _).trans ?_
    rw [List.length_map]
    exact (List.dropWhile_sublist _).length_le
  · exact Nat.le_sub_one_of_lt (of_decide_eq_true (List.of_mem_filter member : fitsLong part = true))

/-- So the version never counts as newer than its rival. -/
theorem compare_rival (version : Version) :
    compare (some version.text) (some version.rival.text) ≤ 0 := by
  have readRival := tryParse_of_fits version.rival_fits
  cases readOwn : tryParse (some version.text) with
  | none => simp [compare, readOwn]
  | some own =>
    have isRead := readOwn
    rw [tryParse_text] at isRead
    split at isRead
    · cases isRead
    · cases isRead
      rw [(compare_tells readOwn readRival).nonpos_iff]
      exact Pi.toLex_monotone version.read_le_rival

/-- But where a number does not fit, it is. -/
theorem rival_lt (unfit : ¬ version.Fits) :
    padded version.rival.values < padded version.values := by
  refine lt_of_not_ge fun le => unfit fun value member => ?_
  cases behind : version.numbers.dropWhile (fitsLong ∘ decimal) with
  | nil =>
    obtain ⟨number, inNumbers, rfl⟩ := List.mem_map.mp member
    exact List.dropWhile_eq_nil_iff.mp behind number inNumbers
  | cons first rest =>
    exfalso
    have large : fitsLong (decimal first) = false := by
      have stop := List.head?_dropWhile_not (fitsLong ∘ decimal) version.numbers
      rw [behind] at stop
      simpa using stop
    have values : version.values =
        (version.numbers.takeWhile (fitsLong ∘ decimal)).map decimal ++
          decimal first :: rest.map decimal := by
      rw [← List.map_cons, ← behind, ← List.map_append, List.takeWhile_append_dropWhile]
      rfl
    have some : 0 < version.numbers.length := List.length_pos_of_ne_nil version.some
    -- up to the number that does not fit the two agree
    have atFirst := Pi.apply_le_of_toLex le
      (i := ((version.numbers.takeWhile (fitsLong ∘ decimal)).map decimal).length)
      fun place inFront => by
        rw [partAt, partAt, values, version.rival_values, List.getD_append _ _ _ _ inFront,
          List.getD_append _ _ _ _ inFront]
    rw [partAt, partAt, values, version.rival_values, List.getD_append_right _ _ _ _ le_rfl,
      List.getD_append_right _ _ _ _ le_rfl, Nat.sub_self, List.getD_cons_zero,
      List.getD_eq_getElem _ _ (by simpa using some), List.getElem_replicate] at atFirst
    have notLess := of_decide_eq_false large
    omega

/-- A version is compared rightly with those whose numbers fit exactly when its own fit. -/
theorem compare_correct_iff (version : Version) :
    OrderedAmong (fun known => known = version ∨ known.Fits) ↔ version.Fits := by
  constructor
  · intro ordered
    by_contra unfit
    have tells := ordered.numeric version version.rival (Or.inl rfl) (Or.inr version.rival_fits)
    exact (tells.nonpos_iff.mp (compare_rival version)).not_gt (rival_lt unfit)
  · intro fits
    refine orderedAmong_of_numeric fun left right knownLeft knownRight => ?_
    have fitsLeft : left.Fits := knownLeft.elim (fun equal => equal ▸ fits) id
    have fitsRight : right.Fits := knownRight.elim (fun equal => equal ▸ fits) id
    exact compare_tells (tryParse_of_fits fitsLeft) (tryParse_of_fits fitsRight)

/-- A number of twenty digits in front of a one. -/
def hugeVersion : Version where
  numbers := [List.replicate 20 '9', ['1']]
  tag := []
  some := by simp
  digits := by simp [isAsciiDigit]
  noDigit := by simp

def secondRelease : Version where
  numbers := [['2'], ['0']]
  tag := []
  some := by simp
  digits := by simp [isAsciiDigit]
  noDigit := by simp

/-- The number that does not fit is left out, and the version counts as `1`. -/
theorem skipped_number : hugeVersion.text = "99999999999999999999.1" ∧
    secondRelease.text = "2.0" ∧
    compare (some hugeVersion.text) (some secondRelease.text) = -1 ∧
    padded secondRelease.values < padded hugeVersion.values ∧
    ¬ OrderedAmong (fun _ => True) := by
  have wrong : compare (some hugeVersion.text) (some secondRelease.text) = -1 := by decide
  have greater : padded secondRelease.values < padded hugeVersion.values :=
    ⟨0, fun _ none => absurd none (Nat.not_lt_zero _), by decide⟩
  refine ⟨by simp [Version.text, hugeVersion], by simp [Version.text, secondRelease], wrong,
    greater, fun ordered => ?_⟩
  have tells := ordered.numeric hugeVersion secondRelease trivial trivial
  exact (tells.nonpos_iff.mp (wrong ▸ by decide)).not_gt greater

end KasterCti.Desktop.AppVersion
