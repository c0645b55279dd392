import KasterCti.Library.Lines
import Mathlib.Data.List.TakeWhile

/-!
# Strings as JavaScript sees them

The string operations that the modelled services call, over Lean strings read
as lists of characters. Every function goes through `String.toList`, so that a
closed call evaluates in the kernel.
-/

namespace JsText

/-- The white space and line terminators that `String.prototype.trim` removes. -/
def isWhitespace (c : Char) : Bool :=
  c.toNat ∈ [9, 10, 11, 12, 13, 32, 160, 5760, 8232, 8233, 8239, 8287, 12288, 65279] ||
    (8192 ≤ c.toNat && c.toNat ≤ 8202)

def isDigit (c : Char) : Bool := '0' ≤ c && c ≤ '9'

/-- `s.trim()` on characters. -/
def trimChars (cs : List Char) : List Char :=
  ((cs.dropWhile isWhitespace).reverse.dropWhile isWhitespace).reverse

def trim (s : String) : String := String.ofList (trimChars s.toList)

/-- What follows `p` in `s`, when `s` starts with `p`. -/
def afterPrefix? : List Char → List Char → Option (List Char)
  | [], cs => some cs
  | _ :: _, [] => none
  | a :: p, c :: cs => if a = c then afterPrefix? p cs else none

theorem afterPrefix?_eq_some {p cs rest : List Char} :
    afterPrefix? p cs = some rest ↔ cs = p ++ rest := by
  induction p generalizing cs with
  | nil => simp [afterPrefix?]
  | cons a p ih =>
    cases cs with
    | nil => simp [afterPrefix?]
    | cons c cs =>
      by_cases hac : a = c
      · simp [afterPrefix?, hac, ih]
      · simp [afterPrefix?, hac, Ne.symm hac]

def startsWith (s p : String) : Bool := (afterPrefix? p.toList s.toList).isSome

theorem startsWith_iff {s p : String} :
    startsWith s p = true ↔ ∃ rest, s.toList = p.toList ++ rest := by
  simp only [startsWith, Option.isSome_iff_exists, afterPrefix?_eq_some]

/-- `s.split(sep)[0]` for a one-character separator. -/
def before (sep : Char) (s : String) : String := String.ofList (s.toList.takeWhile (· ≠ sep))

/-- The text before the last `sep`, when there is one and it is not the first
character (`lastIndexOf(sep) > 0`). -/
def beforeLast? (sep : Char) (cs : List Char) : Option (List Char) :=
  match cs.reverse.dropWhile (· ≠ sep) with
  | [] => none
  | _ :: rest => if rest = [] then none else some rest.reverse

theorem beforeLast?_append {sep : Char} {cs ds : List Char} (hcs : cs ≠ []) (hds : sep ∉ ds) :
    beforeLast? sep (cs ++ sep :: ds) = some cs := by
  have hdrop : (cs ++ sep :: ds).reverse.dropWhile (· ≠ sep) = sep :: cs.reverse := by
    rw [List.reverse_append, List.reverse_cons, List.append_assoc,
      List.dropWhile_append_of_pos (by simpa using fun c hc => ne_of_mem_of_not_mem hc hds)]
    simp
  unfold beforeLast?
  rw [hdrop]
  simp [hcs]

/-- The text before the first separator can be read back. -/
theorem append_sep_inj {sep : Char} {cs cs' ds ds' : List Char} (hcs : sep ∉ cs) (hcs' : sep ∉ cs')
    (h : cs ++ sep :: ds = cs' ++ sep :: ds') : cs = cs' ∧ ds = ds' := by
  have htake : ∀ es fs : List Char, sep ∉ es → (es ++ sep :: fs).takeWhile (· ≠ sep) = es := by
    intro es fs hes
    rw [List.takeWhile_append_of_pos (by simpa using fun c hc => ne_of_mem_of_not_mem hc hes)]
    simp
  have hhead : cs = cs' := by rw [← htake cs ds hcs, h, htake cs' ds' hcs']
  subst hhead
  exact ⟨rfl, (List.cons.inj (List.append_cancel_left h)).2⟩

/-- A field that JavaScript treats as true: present and not the empty string. -/
def truthy : Option String → Bool
  | none => false
  | some s => s ≠ ""

/-- `a || b` on optional strings. -/
def orElse (a b : Option String) : Option String := if truthy a then a else b

/-- `s.replace(/\D+/g, '')`. -/
def digitsOnly (s : String) : String := String.ofList (s.toList.filter isDigit)

/-- The value of a run of decimal digits. -/
def digitsValue (cs : List Char) : Nat :=
  cs.foldl (fun n c => 10 * n + (c.toNat - '0'.toNat)) 0

/-- `Number.parseInt(s, 10)`; `none` is `NaN`. -/
def parseInt (s : String) : Option Int :=
  let cs := s.toList.dropWhile isWhitespace
  let read (sign : Int) (rest : List Char) : Option Int :=
    match rest.takeWhile isDigit with
    | [] => none
    | ds => some (sign * digitsValue ds)
  match cs with
  | '-' :: rest => read (-1) rest
  | '+' :: rest => read 1 rest
  | rest => read 1 rest

theorem isWhitespace_of_isDigit {c : Char} (h : isDigit c = true) : isWhitespace c = false := by
  simp only [isDigit, Bool.and_eq_true, decide_eq_true_eq] at h
  have hlow : 48 ≤ c.toNat := h.1
  have hhigh : c.toNat ≤ 57 := h.2
  simp only [isWhitespace, List.mem_cons, List.not_mem_nil, or_false, Bool.or_eq_false_iff,
    Bool.and_eq_false_iff, decide_eq_false_iff_not]
  omega

/-- A text with a character that is no white space is not blank. -/
theorem trimChars_ne_nil {c : Char} {cs : List Char} (h : isWhitespace c = false) :
    trimChars (c :: cs) ≠ [] := by
  intro hblank
  rw [trimChars, List.dropWhile_cons_of_neg (by simp [h]), List.reverse_eq_nil_iff,
    List.dropWhile_eq_nil_iff] at hblank
  have hall := hblank c (by simp)
  rw [h] at hall
  cases hall

theorem trimChars_eq_self {cs : List Char} (h : ∀ c ∈ cs, isWhitespace c = false) :
    trimChars cs = cs := by
  have hkeep : ∀ ds : List Char, (∀ c ∈ ds, isWhitespace c = false) → ds.dropWhile isWhitespace = ds := by
    intro ds hds
    cases ds with
    | nil => rfl
    | cons d ds => rw [List.dropWhile_cons_of_neg (by simp [hds d])]
  rw [trimChars, hkeep cs h, hkeep cs.reverse (by simpa using h), List.reverse_reverse]

/-- A written number is read back. -/
theorem parseInt_trim_repr (n : Nat) : parseInt (trim n.repr) = some (n : Int) := by
  have hdigit : ∀ c ∈ Nat.toDigits 10 n, isDigit c = true := by
    intro c hc
    have h := Nat.isDigit_of_mem_toDigits (by decide) (by decide) hc
    simpa [Char.isDigit, isDigit, Char.le_def] using h
  have htrim : (trim n.repr).toList = Nat.toDigits 10 n := by
    rw [trim, String.toList_ofList, Nat.toList_repr,
      trimChars_eq_self fun c hc => isWhitespace_of_isDigit (hdigit c hc)]
  have hvalue : digitsValue (Nat.toDigits 10 n) = n := Nat.ofDigitChars_ten_toDigits
  obtain ⟨c, cs, hcons⟩ := List.exists_cons_of_ne_nil (@Nat.toDigits_ne_nil n 10)
  have hc := hdigit c (by simp [hcons])
  have htake : (c :: cs).takeWhile isDigit = c :: cs := by
    rw [← hcons]
    exact List.takeWhile_eq_self_iff.2 hdigit
  have hminus : c ≠ '-' := by
    rintro rfl
    revert hc
    decide
  have hplus : c ≠ '+' := by
    rintro rfl
    revert hc
    decide
  rw [hcons] at htrim hvalue
  unfold parseInt
  rw [htrim, List.dropWhile_cons_of_neg (by simp [isWhitespace_of_isDigit hc])]
  dsimp only
  split
  · next heq => exact absurd (List.cons.inj heq).1 hminus
  · next heq => exact absurd (List.cons.inj heq).1 hplus
  · simp [htake, hvalue]

/-- `c.toLowerCase()`, exact where a letter `a`-`z` can come out: the Latin
capitals, the Kelvin sign and the dotted capital I. Every other character is
left as it is. -/
def lowerChar (c : Char) : List Char :=
  if 'A' ≤ c && c ≤ 'Z' then [Char.ofNat (c.toNat + 32)]
  else if c.toNat = 0x212A then ['k']
  else if c.toNat = 0x130 then ['i', Char.ofNat 0x307]
  else [c]

def toLowerCase (s : String) : String := String.ofList (s.toList.flatMap lowerChar)

/-- `c.toUpperCase()`, exact where letters `A`-`Z` and nothing else come out:
the Latin small letters, the dotless i, the long and the sharp s and the Latin
ligatures. Every other character is left as it is. -/
def upperChar (c : Char) : List Char :=
  if 'a' ≤ c && c ≤ 'z' then [Char.ofNat (c.toNat - 32)]
  else if c.toNat = 0x131 then ['I']
  else if c.toNat = 0x17F then ['S']
  else if c.toNat = 0xDF then ['S', 'S']
  else if c.toNat = 0xFB00 then ['F', 'F']
  else if c.toNat = 0xFB01 then ['F', 'I']
  else if c.toNat = 0xFB02 then ['F', 'L']
  else if c.toNat = 0xFB03 then ['F', 'F', 'I']
  else if c.toNat = 0xFB04 then ['F', 'F', 'L']
  else if c.toNat = 0xFB05 || c.toNat = 0xFB06 then ['S', 'T']
  else [c]

def toUpperCase (s : String) : String := String.ofList (s.toList.flatMap upperChar)

end JsText
