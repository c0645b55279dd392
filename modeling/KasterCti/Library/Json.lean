import KasterCti.Library.JsText

/-!
# JSON texts

`JSON.stringify` without indentation and `JSON.parse`, over lists of characters. A
number is kept as its text, and an object as the list of its members in the order of
the text.

Results:
1. `parse_stringify`: what was written is read back.
2. `stringify_printable`: a written text has no control character, and so no line break.
-/

/-- The characters that can stand in a number. -/
def Json.isNumberChar (c : Char) : Bool := JsText.isDigit c || c ∈ ['-', '+', '.', 'e', 'E']

/-- What follows a run of digits that is not empty. -/
def Json.afterDigits? : List Char → Option (List Char)
  | [] => none
  | c :: cs => if JsText.isDigit c then some (cs.dropWhile JsText.isDigit) else none

/-- The number grammar: a sign, an integer without leading zeros, a fraction and an
exponent. -/
def Json.isNumber (cs : List Char) : Bool :=
  let unsigned := if cs.head? = some '-' then cs.tail else cs
  let afterInteger := if unsigned.head? = some '0' then some unsigned.tail else afterDigits? unsigned
  let afterFraction := afterInteger.bind fun rest =>
    if rest.head? = some '.' then afterDigits? rest.tail else some rest
  let afterExponent := afterFraction.bind fun rest =>
    if rest.head? = some 'e' || rest.head? = some 'E' then
      let power := rest.tail
      afterDigits? (if power.head? = some '-' || power.head? = some '+' then power.tail else power)
    else some rest
  cs.all isNumberChar && afterExponent = some []

structure JsonNumber where
  text : List Char
  valid : Json.isNumber text = true

mutual
inductive Json
  | null
  | boolean (b : Bool)
  | number (n : JsonNumber)
  | string (s : String)
  | array (items : JsonItems)
  | object (members : JsonMembers)

inductive JsonItems
  | nil
  | cons (head : Json) (tail : JsonItems)

inductive JsonMembers
  | nil
  | cons (key : String) (value : Json) (tail : JsonMembers)
end

namespace Json

open JsText

/-! ## Writing -/

def hexDigit (n : Nat) : Char := if n < 10 then Char.ofNat (48 + n) else Char.ofNat (87 + n)

/-- One character of a string. -/
def escape (c : Char) : List Char :=
  if c = '"' then ['\\', '"']
  else if c = '\\' then ['\\', '\\']
  else if c.toNat = 8 then ['\\', 'b']
  else if c.toNat = 9 then ['\\', 't']
  else if c.toNat = 10 then ['\\', 'n']
  else if c.toNat = 12 then ['\\', 'f']
  else if c.toNat = 13 then ['\\', 'r']
  else if c.toNat < 32 then ['\\', 'u', '0', '0', hexDigit (c.toNat / 16), hexDigit (c.toNat % 16)]
  else [c]

/-- A string behind its opening quote. -/
def quoted (s : String) : List Char := s.toList.flatMap escape ++ ['"']

mutual
def stringify : Json → List Char
  | .null => "null".toList
  | .boolean b => if b then "true".toList else "false".toList
  | .number n => n.text
  | .string s => '"' :: quoted s
  | .array items => '[' :: itemsText items
  | .object members => '{' :: membersText members

/-- The items of an array and its closing bracket. -/
def itemsText : JsonItems → List Char
  | .nil => [']']
  | .cons j .nil => stringify j ++ [']']
  | .cons j (.cons k items) => stringify j ++ ',' :: itemsText (.cons k items)

/-- The members of an object and its closing brace. -/
def membersText : JsonMembers → List Char
  | .nil => ['}']
  | .cons key j .nil => '"' :: quoted key ++ ':' :: stringify j ++ ['}']
  | .cons key j (.cons key' k members) =>
    '"' :: quoted key ++ ':' :: stringify j ++ ',' :: membersText (.cons key' k members)
end

/-! ## Reading -/

def isSpace (c : Char) : Bool := c = ' ' || c = '\t' || c = '\n' || c = '\r'

def skip (cs : List Char) : List Char := cs.dropWhile isSpace

def hexValue? (c : Char) : Option Nat :=
  if isDigit c then some (c.toNat - 48)
  else if 'a' ≤ c && c ≤ 'f' then some (c.toNat - 87)
  else if 'A' ≤ c && c ≤ 'F' then some (c.toNat - 55)
  else none

/-- The code unit of four hexadecimal digits. -/
def hex4? (a b c d : Char) : Option Nat := do
  let a ← hexValue? a
  let b ← hexValue? b
  let c ← hexValue? c
  let d ← hexValue? d
  return ((a * 16 + b) * 16 + c) * 16 + d

/-- The character of an escape without a code. -/
def unescape? (c : Char) : Option Char :=
  if c = '"' || c = '\\' || c = '/' then some c
  else if c = 'b' then some (Char.ofNat 8)
  else if c = 't' then some (Char.ofNat 9)
  else if c = 'n' then some (Char.ofNat 10)
  else if c = 'f' then some (Char.ofNat 12)
  else if c = 'r' then some (Char.ofNat 13)
  else none

/-- The code unit of an escape `\uXXXX` that begins the text. -/
def unit? (cs : List Char) : Option (Nat × List Char) :=
  match cs with
  | '\\' :: 'u' :: a :: b :: c :: d :: rest => (hex4? a b c d).map fun n => (n, rest)
  | _ => none

def isHighSurrogate (n : Nat) : Bool := 0xD800 ≤ n && n ≤ 0xDBFF

def isLowSurrogate (n : Nat) : Bool := 0xDC00 ≤ n && n ≤ 0xDFFF

/-- One character of a string, with the text behind it. Two surrogates make one
character; a single one has no character and is read as U+FFFD. -/
def character? (cs : List Char) : Option (Char × List Char) :=
  match unit? cs with
  | some (n, rest) =>
    if isHighSurrogate n then
      match unit? rest with
      | some (m, rest') =>
        if isLowSurrogate m then some (Char.ofNat (0x10000 + (n - 0xD800) * 0x400 + (m - 0xDC00)), rest')
        else some (Char.ofNat 0xFFFD, rest)
      | none => some (Char.ofNat 0xFFFD, rest)
    else if isLowSurrogate n then some (Char.ofNat 0xFFFD, rest)
    else some (Char.ofNat n, rest)
  | none =>
    match cs with
    | [] => none
    | c :: rest =>
      if c = '\\' then
        match rest with
        | [] => none
        | e :: rest => (unescape? e).map fun c => (c, rest)
      else if c.toNat < 32 then none
      else some (c, rest)

/-- The characters of a string up to its closing quote. -/
def characters : Nat → List Char → Option (List Char × List Char)
  | 0, _ => none
  | fuel + 1, cs =>
    if cs.head? = some '"' then some ([], cs.tail)
    else match character? cs with
      | none => none
      | some (c, rest) => (characters fuel rest).map fun p => (c :: p.1, p.2)

def text? (cs : List Char) : Option (String × List Char) :=
  (characters cs.length cs).map fun p => (String.ofList p.1, p.2)

def number? (cs : List Char) : Option (Json × List Char) :=
  let token := cs.takeWhile isNumberChar
  if h : isNumber token = true then some (.number ⟨token, h⟩, cs.dropWhile isNumberChar) else none

/-- A value that is one word. -/
def word? (word : String) (j : Json) (cs : List Char) : Option (Json × List Char) :=
  (afterPrefix? word.toList cs).map fun rest => (j, rest)

mutual
def value : Nat → List Char → Option (Json × List Char)
  | 0, _ => none
  | fuel + 1, cs =>
    match skip cs with
    | [] => none
    | c :: rest =>
      if c = '"' then (text? rest).map fun p => (.string p.1, p.2)
      else if c = '[' then
        if (skip rest).head? = some ']' then some (.array .nil, (skip rest).tail)
        else (items fuel rest).map fun p => (.array p.1, p.2)
      else if c = '{' then
        if (skip rest).head? = some '}' then some (.object .nil, (skip rest).tail)
        else (members fuel rest).map fun p => (.object p.1, p.2)
      else if c = 'n' then word? "null" .null (c :: rest)
      else if c = 't' then word? "true" (.boolean true) (c :: rest)
      else if c = 'f' then word? "false" (.boolean false) (c :: rest)
      else number? (c :: rest)

def items : Nat → List Char → Option (JsonItems × List Char)
  | 0, _ => none
  | fuel + 1, cs =>
    match value fuel cs with
    | none => none
    | some (j, rest) =>
      match skip rest with
      | [] => none
      | c :: rest =>
        if c = ']' then some (.cons j .nil, rest)
        else if c = ',' then (items fuel rest).map fun p => (.cons j p.1, p.2)
        else none

def members : Nat → List Char → Option (JsonMembers × List Char)
  | 0, _ => none
  | fuel + 1, cs =>
    if (skip cs).head? = some '"' then
      match text? (skip cs).tail with
      | none => none
      | some (key, rest) =>
        if (skip rest).head? = some ':' then
          match value fuel (skip rest).tail with
          | none => none
          | some (j, rest) =>
            match skip rest with
            | [] => none
            | c :: rest =>
              if c = '}' then some (.cons key j .nil, rest)
              else if c = ',' then (members fuel rest).map fun p => (.cons key j p.1, p.2)
              else none
        else none
    else none
end

/-- `JSON.parse`; `none` stands for the exception. -/
def parse (cs : List Char) : Option Json :=
  match value cs.length cs with
  | none => none
  | some (j, rest) => if skip rest = [] then some j else none

/-! ## Strings read back -/

theorem hexValue?_hexDigit : ∀ n < 16, hexValue? (hexDigit n) = some n := by decide

variable {c : Char}

theorem ofNat_toNat_eq {n : Nat} (h : c.toNat = n) : Char.ofNat n = c := by
  rw [← h, Char.ofNat_toNat]

variable {cs : List Char}

theorem unit?_of_head (h : c ≠ '\\') : unit? (c :: cs) = none := by
  unfold unit?
  split
  · next heq => exact absurd (List.cons.inj heq).1 h
  · rfl

theorem unit?_of_second {e : Char} (h : e ≠ 'u') : unit? ('\\' :: e :: cs) = none := by
  unfold unit?
  split
  · next heq => exact absurd (List.cons.inj (List.cons.inj heq).2).1 h
  · rfl

/-- An escape without a code is read as its character. -/
theorem character?_short {e c : Char} (rest : List Char) (hcode : e ≠ 'u') (h : unescape? e = some c) :
    character? ('\\' :: e :: rest) = some (c, rest) := by
  simp [character?, unit?_of_second hcode, h]

theorem character?_code (rest : List Char) (h : c.toNat < 32) :
    character? ('\\' :: 'u' :: '0' :: '0' :: hexDigit (c.toNat / 16) :: hexDigit (c.toNat % 16) :: rest) =
      some (c, rest) := by
  have hhigh : hexValue? (hexDigit (c.toNat / 16)) = some (c.toNat / 16) :=
    hexValue?_hexDigit _ (by omega)
  have hlow : hexValue? (hexDigit (c.toNat % 16)) = some (c.toNat % 16) :=
    hexValue?_hexDigit _ (by omega)
  have hunit : unit? ('\\' :: 'u' :: '0' :: '0' :: hexDigit (c.toNat / 16) ::
      hexDigit (c.toNat % 16) :: rest) = some (c.toNat, rest) := by
    have hzero : hexValue? '0' = some 0 := by decide
    have hsum : c.toNat / 16 * 16 + c.toNat % 16 = c.toNat := by omega
    simp [unit?, hex4?, hzero, hhigh, hlow, hsum]
  have hplain : isHighSurrogate c.toNat = false ∧ isLowSurrogate c.toNat = false := by
    simp only [isHighSurrogate, isLowSurrogate, Bool.and_eq_false_iff, decide_eq_false_iff_not]
    omega
  simp [character?, hunit, hplain]

theorem character?_escape (c : Char) (rest : List Char) :
    character? (escape c ++ rest) = some (c, rest) := by
  unfold escape
  split
  · next h => exact character?_short rest (by decide) (by rw [h]; rfl)
  split
  · next h => exact character?_short rest (by decide) (by rw [h]; rfl)
  split
  · next h => exact character?_short rest (by decide) (congrArg some (ofNat_toNat_eq h))
  split
  · next h => exact character?_short rest (by decide) (congrArg some (ofNat_toNat_eq h))
  split
  · next h => exact character?_short rest (by decide) (congrArg some (ofNat_toNat_eq h))
  split
  · next h => exact character?_short rest (by decide) (congrArg some (ofNat_toNat_eq h))
  split
  · next h => exact character?_short rest (by decide) (congrArg some (ofNat_toNat_eq h))
  split
  · next h => exact character?_code rest h
  · next hslash _ _ _ _ _ hcontrol =>
    show character? (c :: rest) = some (c, rest)
    simp [character?, unit?_of_head hslash, hslash, hcontrol]

/-- A written character is not the closing quote. -/
theorem escape_head (c : Char) : ∃ d ds, escape c = d :: ds ∧ d ≠ '"' := by
  unfold escape
  split
  · exact ⟨_, _, rfl, by decide⟩
  · next hquote =>
    split_ifs
    all_goals first
      | exact ⟨_, _, rfl, by decide⟩
      | exact ⟨_, _, rfl, hquote⟩

theorem characters_escaped (cs rest : List Char) (fuel : Nat)
    (h : (cs.flatMap escape).length < fuel) :
    characters fuel (cs.flatMap escape ++ '"' :: rest) = some (cs, rest) := by
  induction cs generalizing fuel with
  | nil =>
    obtain ⟨fuel, rfl⟩ := Nat.exists_eq_succ_of_ne_zero (Nat.ne_of_gt h)
    simp [characters]
  | cons c cs ih =>
    obtain ⟨d, ds, hescape, hquote⟩ := escape_head c
    rw [List.flatMap_cons, List.length_append] at h
    have hpos : 0 < (escape c).length := by simp [hescape]
    obtain ⟨fuel, rfl⟩ := Nat.exists_eq_succ_of_ne_zero (show fuel ≠ 0 by omega)
    have hhead : (escape c ++ (cs.flatMap escape ++ '"' :: rest)).head? ≠ some '"' := by
      simp [hescape, hquote]
    rw [List.flatMap_cons, List.append_assoc, characters, if_neg hhead, character?_escape]
    simp only [ih fuel (by omega), Option.map_some]

theorem text?_quoted (s : String) (rest : List Char) : text? (quoted s ++ rest) = some (s, rest) := by
  have hread := characters_escaped s.toList rest (quoted s ++ rest).length (by
    simp [quoted])
  rw [text?, show quoted s ++ rest = s.toList.flatMap escape ++ '"' :: rest by simp [quoted]] at *
  rw [hread]
  simp

/-! ## Values read back -/

/-- The text behind a value does not go on with a number. -/
def Ends (rest : List Char) : Prop := ∀ c, rest.head? = some c → isNumberChar c = false

theorem skip_cons (h : isSpace c = false) : skip (c :: cs) = c :: cs := by
  simp [skip, h]

/-- A character that can begin a value and is no space or closing bracket. -/
def Opens (c : Char) : Prop := isSpace c = false ∧ c ≠ ']'

theorem isNumberChar_opens (h : isNumberChar c = true) :
    Opens c ∧ c ≠ '"' ∧ c ≠ '[' ∧ c ≠ '\x7b' ∧ c ≠ 'n' ∧ c ≠ 't' ∧ c ≠ 'f' := by
  have hne : ∀ d : Char, isNumberChar d = false → c ≠ d := by
    rintro d hd rfl
    rw [h] at hd
    cases hd
  have hspace : isSpace c = false := by
    simp [isSpace, hne ' ' (by decide), hne '\t' (by decide), hne '\n' (by decide),
      hne '\r' (by decide)]
  exact ⟨⟨hspace, hne _ (by decide)⟩, hne _ (by decide), hne _ (by decide), hne _ (by decide),
    hne _ (by decide), hne _ (by decide), hne _ (by decide)⟩

theorem isNumberChar_of_mem (n : JsonNumber) : ∀ c ∈ n.text, isNumberChar c = true := by
  have h := n.valid
  simp only [isNumber, Bool.and_eq_true, List.all_eq_true] at h
  exact h.1

theorem numberText_ne_nil (n : JsonNumber) : n.text ≠ [] := by
  intro h
  have hvalid := n.valid
  rw [h] at hvalid
  revert hvalid
  decide

theorem stringify_head (j : Json) : ∃ c cs, stringify j = c :: cs ∧ Opens c := by
  cases j with
  | null => exact ⟨_, _, rfl, by decide, by decide⟩
  | boolean b => cases b <;> exact ⟨_, _, rfl, by decide, by decide⟩
  | number n =>
    obtain ⟨c, cs, htext⟩ := List.exists_cons_of_ne_nil (numberText_ne_nil n)
    have hc : isNumberChar c = true := isNumberChar_of_mem n c (by simp [htext])
    exact ⟨c, cs, by rw [stringify, htext], (isNumberChar_opens hc).1⟩
  | string s => exact ⟨_, _, by rw [stringify], by decide, by decide⟩
  | array items => exact ⟨_, _, by rw [stringify], by decide, by decide⟩
  | object members => exact ⟨_, _, by rw [stringify], by decide, by decide⟩

theorem number?_text (n : JsonNumber) {rest : List Char} (h : Ends rest) :
    number? (n.text ++ rest) = some (.number n, rest) := by
  have htoken : (n.text ++ rest).takeWhile isNumberChar = n.text := by
    rw [List.takeWhile_append_of_pos (isNumberChar_of_mem n)]
    cases rest with
    | nil => simp
    | cons c rest => simp [h c rfl]
  have hrest : (n.text ++ rest).dropWhile isNumberChar = rest := by
    rw [List.dropWhile_append_of_pos (isNumberChar_of_mem n)]
    cases rest with
    | nil => simp
    | cons c rest => simp [h c rfl]
  obtain ⟨text, valid⟩ := n
  simp only [number?, htoken, hrest]
  simp [valid]

theorem value_number (n : JsonNumber) {rest : List Char} (h : Ends rest) (fuel : Nat) :
    value (fuel + 1) (n.text ++ rest) = some (.number n, rest) := by
  obtain ⟨c, cs, htext⟩ := List.exists_cons_of_ne_nil (numberText_ne_nil n)
  have hc : isNumberChar c = true := isNumberChar_of_mem n c (by simp [htext])
  obtain ⟨⟨hspace, -⟩, hquote, hbracket, hbrace, hn, ht, hf⟩ := isNumberChar_opens hc
  have hread := number?_text n h
  rw [htext, List.cons_append] at hread ⊢
  rw [value, skip_cons hspace]
  simp [hquote, hbracket, hbrace, hn, ht, hf, hread]

theorem ends_cons (rest : List Char) (h : isNumberChar c = false) : Ends (c :: rest) := by
  intro d hd
  obtain rfl := Option.some.inj hd
  exact h

theorem itemsText_ne_nil (js : JsonItems) : itemsText js ≠ [] := by
  cases js with
  | nil => simp [itemsText]
  | cons j js => cases js <;> simp [itemsText]

theorem membersText_ne_nil (ms : JsonMembers) : membersText ms ≠ [] := by
  cases ms with
  | nil => simp [membersText]
  | cons key j ms => cases ms <;> simp [membersText]

-- The fuel of every call is at least the length of the text that it has to read.
mutual
theorem value_stringify : ∀ (j : Json) (fuel : Nat) (rest : List Char),
    (stringify j).length ≤ fuel → Ends rest → value fuel (stringify j ++ rest) = some (j, rest)
  | j, 0, rest, hfuel, _ => by
    obtain ⟨c, cs, htext, -⟩ := stringify_head j
    simp [htext] at hfuel
  | .null, fuel + 1, rest, _, _ => by simp [stringify, value, skip, isSpace, word?, afterPrefix?]
  | .boolean true, fuel + 1, rest, _, _ => by
    simp [stringify, value, skip, isSpace, word?, afterPrefix?]
  | .boolean false, fuel + 1, rest, _, _ => by
    simp [stringify, value, skip, isSpace, word?, afterPrefix?]
  | .number n, fuel + 1, rest, _, hends => by
    rw [stringify]
    exact value_number n hends fuel
  | .string s, fuel + 1, rest, _, _ => by
    rw [stringify, List.cons_append, value, skip_cons (by decide)]
    simp [text?_quoted]
  | .array .nil, fuel + 1, rest, _, _ => by simp [stringify, itemsText, value, skip, isSpace]
  | .array (.cons j js), fuel + 1, rest, hfuel, _ => by
    rw [stringify, List.length_cons] at hfuel
    have hread := items_itemsText (.cons j js) fuel rest (by omega) (by simp)
    obtain ⟨c, cs, htext, hspace, hclose⟩ := stringify_head j
    have hopen : (skip (itemsText (.cons j js) ++ rest)).head? ≠ some ']' := by
      cases js <;> simp [itemsText, htext, skip_cons hspace, hclose]
    rw [stringify, List.cons_append, value, skip_cons (by decide)]
    simp [hopen, hread]
  | .object .nil, fuel + 1, rest, _, _ => by simp [stringify, membersText, value, skip, isSpace]
  | .object (.cons key j ms), fuel + 1, rest, hfuel, _ => by
    rw [stringify, List.length_cons] at hfuel
    have hread := members_membersText (.cons key j ms) fuel rest (by omega) (by simp)
    have hopen : (skip (membersText (.cons key j ms) ++ rest)).head? ≠ some '\x7d' := by
      cases ms <;> simp [membersText, skip, isSpace]
    rw [stringify, List.cons_append, value, skip_cons (by decide)]
    simp [hopen, hread]

theorem items_itemsText : ∀ (js : JsonItems) (fuel : Nat) (rest : List Char),
    (itemsText js).length ≤ fuel → js ≠ .nil → items fuel (itemsText js ++ rest) = some (js, rest)
  | js, 0, _, hfuel, _ =>
    absurd (List.length_eq_zero_iff.1 (Nat.le_zero.1 hfuel)) (itemsText_ne_nil js)
  | .nil, _, _, _, hne => absurd rfl hne
  | .cons j .nil, fuel + 1, rest, hfuel, _ => by
    have hlength : (stringify j).length ≤ fuel := by
      simp [itemsText] at hfuel
      omega
    have hread := value_stringify j fuel (']' :: rest) hlength (ends_cons _ (by decide))
    simp [itemsText, items, hread, skip, isSpace]
  | .cons j (.cons k js), fuel + 1, rest, hfuel, _ => by
    have hlength : (stringify j).length + (itemsText (.cons k js)).length ≤ fuel := by
      simp [itemsText] at hfuel
      omega
    have hread := value_stringify j fuel (',' :: (itemsText (.cons k js) ++ rest)) (by omega)
      (ends_cons _ (by decide))
    have hmore := items_itemsText (.cons k js) fuel rest (by omega) (by simp)
    simp [itemsText, items, hread, hmore, skip, isSpace]

theorem members_membersText : ∀ (ms : JsonMembers) (fuel : Nat) (rest : List Char),
    (membersText ms).length ≤ fuel → ms ≠ .nil →
      members fuel (membersText ms ++ rest) = some (ms, rest)
  | ms, 0, _, hfuel, _ =>
    absurd (List.length_eq_zero_iff.1 (Nat.le_zero.1 hfuel)) (membersText_ne_nil ms)
  | .nil, _, _, _, hne => absurd rfl hne
  | .cons key j .nil, fuel + 1, rest, hfuel, _ => by
    have hlength : (stringify j).length ≤ fuel := by
      simp [membersText] at hfuel
      omega
    have hread := value_stringify j fuel ('\x7d' :: rest) hlength (ends_cons _ (by decide))
    simp [membersText, members, text?_quoted, hread, skip, isSpace]
  | .cons key j (.cons key' k ms), fuel + 1, rest, hfuel, _ => by
    have hlength : (stringify j).length + (membersText (.cons key' k ms)).length ≤ fuel := by
      simp [membersText] at hfuel
      omega
    have hread := value_stringify j fuel (',' :: (membersText (.cons key' k ms) ++ rest))
      (by omega) (ends_cons _ (by decide))
    have hmore := members_membersText (.cons key' k ms) fuel rest (by omega) (by simp)
    simp [membersText, members, text?_quoted, hread, hmore, skip, isSpace]
end

theorem parse_stringify (j : Json) : parse (stringify j) = some j := by
  have hread := value_stringify j (stringify j).length [] (Nat.le_refl _) (by
    intro c hc
    cases hc)
  rw [List.append_nil] at hread
  simp [parse, hread, skip]

/-- A line that breaks off is not JSON, and neither are two values one after the other. -/
example : (parse "\x7b\"a\":[1,".toList).isNone = true ∧
    (parse "\x7b\"a\":1\x7d\x7b\"a\":1\x7d".toList).isNone = true := by decide +kernel

/-! ## No control characters -/

def Printable (cs : List Char) : Prop := ∀ c ∈ cs, 32 ≤ c.toNat

theorem printable_append {cs ds : List Char} (hcs : Printable cs) (hds : Printable ds) :
    Printable (cs ++ ds) := by
  intro c hc
  rcases List.mem_append.1 hc with hc | hc
  · exact hcs c hc
  · exact hds c hc

theorem printable_cons (hc : 32 ≤ c.toNat) (hcs : Printable cs) : Printable (c :: cs) := by
  intro d hd
  rcases List.mem_cons.1 hd with rfl | hd
  · exact hc
  · exact hcs d hd

theorem printable_word (word : String) (h : word.toList.all (32 ≤ ·.toNat) = true) :
    Printable word.toList := by
  simpa [Printable] using h

theorem printable_singleton (hc : 32 ≤ c.toNat) : Printable [c] :=
  printable_cons hc (by simp [Printable])

theorem printable_hexDigit : ∀ n < 16, 32 ≤ (hexDigit n).toNat := by decide

theorem printable_escape (c : Char) : Printable (escape c) := by
  unfold escape
  split_ifs with _ _ _ _ _ _ _ hcontrol
  all_goals try exact printable_cons (by decide) (printable_singleton (by decide))
  · refine printable_cons (by decide) (printable_cons (by decide) (printable_cons (by decide)
      (printable_cons (by decide) (printable_cons ?_ (printable_singleton ?_)))))
    · exact printable_hexDigit _ (by omega)
    · exact printable_hexDigit _ (by omega)
  · exact printable_singleton (by omega)

theorem printable_quoted (s : String) : Printable (quoted s) := by
  refine printable_append ?_ (printable_singleton (by decide))
  intro c hc
  obtain ⟨d, -, hd⟩ := List.mem_flatMap.1 hc
  exact printable_escape d c hd

theorem printable_number (n : JsonNumber) : Printable n.text := by
  intro c hc
  by_contra hlow
  have hnumber := isNumberChar_of_mem n c hc
  have hall : ∀ k < 32, isNumberChar (Char.ofNat k) = false := by decide
  have hno := hall c.toNat (by omega)
  rw [Char.ofNat_toNat, hnumber] at hno
  cases hno

mutual
theorem stringify_printable : ∀ j : Json, Printable (stringify j)
  | .null => by
    rw [stringify]
    exact printable_word _ (by decide)
  | .boolean b => by
    rw [stringify]
    cases b <;> exact printable_word _ (by decide)
  | .number n => by
    rw [stringify]
    exact printable_number n
  | .string s => by
    rw [stringify]
    exact printable_cons (by decide) (printable_quoted s)
  | .array js => by
    rw [stringify]
    exact printable_cons (by decide) (itemsText_printable js)
  | .object ms => by
    rw [stringify]
    exact printable_cons (by decide) (membersText_printable ms)

theorem itemsText_printable : ∀ js : JsonItems, Printable (itemsText js)
  | .nil => printable_singleton (by decide)
  | .cons j .nil => by
    rw [itemsText]
    exact printable_append (stringify_printable j) (printable_singleton (by decide))
  | .cons j (.cons k js) => by
    rw [itemsText]
    exact printable_append (stringify_printable j)
      (printable_cons (by decide) (itemsText_printable (.cons k js)))

theorem membersText_printable : ∀ ms : JsonMembers, Printable (membersText ms)
  | .nil => printable_singleton (by decide)
  | .cons key j .nil => by
    rw [membersText]
    refine printable_append (printable_append (printable_cons (by decide) (printable_quoted key))
      (printable_cons (by decide) (stringify_printable j))) (printable_singleton (by decide))
  | .cons key j (.cons key' k ms) => by
    rw [membersText]
    refine printable_append (printable_append (printable_cons (by decide) (printable_quoted key))
      (printable_cons (by decide) (stringify_printable j))) ?_
    exact printable_cons (by decide) (membersText_printable (.cons key' k ms))
end

end Json
