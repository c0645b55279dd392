import Mathlib.Data.List.Basic

/-!
# Decoding UTF-8 with replacement

A byte sequence becomes text as a browser or `Buffer.toString('utf8')` makes it:
what is not UTF-8 gives the replacement character, once for every sequence that
breaks off. The decoder keeps at most one sequence open. Text that arrives in
pieces decodes to the same text exactly when no piece ends inside a character that
the next one goes on with.

Results:
1. `decode_append`: two pieces decode one after the other.
2. `decode_newline`: a line feed ends whatever stands before it.
3. `decode_encode_append`: encoded text decodes to itself.
-/

namespace Utf8

/-- U+FFFD. -/
def replacement : Char := Char.ofNat 0xFFFD

/-- A sequence that has begun: the code point so far, the number of bytes to come
and the range of the next one. -/
structure Partial where
  codePoint : Nat
  remaining : Nat
  lower : Nat
  upper : Nat

/-- The next byte continues the sequence. -/
def Partial.accepts (p : Partial) (b : UInt8) : Bool := p.lower ≤ b.toNat && b.toNat ≤ p.upper

/-- A byte with no sequence open. -/
def start (b : UInt8) : List Char × Option Partial :=
  let n := b.toNat
  if n ≤ 0x7F then ([Char.ofNat n], none)
  else if 0xC2 ≤ n && n ≤ 0xDF then ([], some ⟨n - 0xC0, 1, 0x80, 0xBF⟩)
  else if 0xE0 ≤ n && n ≤ 0xEF then
    ([], some ⟨n - 0xE0, 2, if n = 0xE0 then 0xA0 else 0x80, if n = 0xED then 0x9F else 0xBF⟩)
  else if 0xF0 ≤ n && n ≤ 0xF4 then
    ([], some ⟨n - 0xF0, 3, if n = 0xF0 then 0x90 else 0x80, if n = 0xF4 then 0x8F else 0xBF⟩)
  else ([replacement], none)

/-- The next byte of an open sequence. -/
def Partial.continue (p : Partial) (b : UInt8) : List Char × Option Partial :=
  let codePoint := p.codePoint * 64 + (b.toNat - 0x80)
  if p.remaining = 1 then ([Char.ofNat codePoint], none)
  else ([], some ⟨codePoint, p.remaining - 1, 0x80, 0xBF⟩)

/-- One byte. A byte that does not continue the open sequence breaks it off and
starts anew. -/
def feed (s : Option Partial) (b : UInt8) : List Char × Option Partial :=
  match s with
  | none => start b
  | some p => if p.accepts b then p.continue b else (replacement :: (start b).1, (start b).2)

/-- What the end of the input gives for an open sequence. -/
def flush : Option Partial → List Char
  | none => []
  | some _ => [replacement]

def decodeFrom (s : Option Partial) : List UInt8 → List Char
  | [] => flush s
  | b :: bytes => (feed s b).1 ++ decodeFrom (feed s b).2 bytes

def decode (bytes : List UInt8) : List Char := decodeFrom none bytes

/-- The sequence that is open behind the bytes. -/
def openAfter (s : Option Partial) : List UInt8 → Option Partial
  | [] => s
  | b :: bytes => openAfter (feed s b).2 bytes

/-- The piece goes on with a character that the bytes before it have begun. -/
def splitsCharacter (before piece : List UInt8) : Bool :=
  match openAfter none before, piece with
  | some p, b :: _ => p.accepts b
  | _, _ => false

theorem decodeFrom_append (s : Option Partial) (a b : List UInt8) :
    ∃ text, decodeFrom s a = text ++ flush (openAfter s a) ∧
      decodeFrom s (a ++ b) = text ++ decodeFrom (openAfter s a) b := by
  induction a generalizing s with
  | nil => exact ⟨[], rfl, rfl⟩
  | cons c a ih =>
    obtain ⟨text, ha, hab⟩ := ih (feed s c).2
    refine ⟨(feed s c).1 ++ text, ?_, ?_⟩
    · rw [decodeFrom, ha, openAfter, List.append_assoc]
    · rw [List.cons_append, decodeFrom, hab, openAfter, List.append_assoc]

/-- A piece that does not go on with the open sequence decodes on its own. -/
theorem decodeFrom_break {before piece : List UInt8} (h : splitsCharacter before piece = false) :
    decodeFrom (openAfter none before) piece =
      flush (openAfter none before) ++ decode piece := by
  unfold splitsCharacter at h
  cases hopen : openAfter none before with
  | none => rfl
  | some p =>
    cases piece with
    | nil => rfl
    | cons b piece =>
      rw [hopen] at h
      simp only at h
      have hfeed : feed (some p) b = (replacement :: (start b).1, (start b).2) := by
        simp [feed, h]
      rw [decode, decodeFrom, decodeFrom, hfeed]
      rfl

theorem decode_append {a b : List UInt8} (h : splitsCharacter a b = false) :
    decode (a ++ b) = decode a ++ decode b := by
  obtain ⟨text, ha, hab⟩ := decodeFrom_append none a b
  rw [decode, hab, decodeFrom_break h, ← List.append_assoc, ← ha]
  rfl

example : String.ofList (decode "이름".toUTF8.toList) = "이름" := by decide +kernel

/-! ## Line feeds -/

theorem start_lower {b : UInt8} {p : Partial} (h : (start b).2 = some p) : 0x80 ≤ p.lower := by
  simp only [start] at h
  split at h
  · cases h
  split at h
  · obtain rfl := Option.some.inj h
    exact Nat.le_refl _
  split at h
  · obtain rfl := Option.some.inj h
    dsimp only
    split <;> omega
  split at h
  · obtain rfl := Option.some.inj h
    dsimp only
    split <;> omega
  · cases h

theorem feed_lower {s : Option Partial} {b : UInt8} {p : Partial} (h : (feed s b).2 = some p) :
    0x80 ≤ p.lower := by
  cases s with
  | none => exact start_lower h
  | some q =>
    simp only [feed] at h
    split at h
    · unfold Partial.continue at h
      dsimp only at h
      split at h
      · cases h
      · obtain rfl := Option.some.inj h
        exact Nat.le_refl _
    · exact start_lower h

/-- Every byte that goes on with an open sequence is above the ASCII ones. -/
theorem openAfter_lower {s : Option Partial} (hs : ∀ p, s = some p → 0x80 ≤ p.lower)
    (bytes : List UInt8) : ∀ p, openAfter s bytes = some p → 0x80 ≤ p.lower := by
  induction bytes generalizing s with
  | nil => exact hs
  | cons b bytes ih => exact ih fun p hp => feed_lower hp

theorem splitsCharacter_newline (a b : List UInt8) : splitsCharacter a (10 :: b) = false := by
  unfold splitsCharacter
  cases hopen : openAfter none a with
  | none => rfl
  | some p =>
    have hlower := openAfter_lower (fun _ h => by cases h) a p hopen
    show p.accepts 10 = false
    have hten : (10 : UInt8).toNat = 10 := rfl
    simp only [Partial.accepts, hten, Bool.and_eq_false_iff, decide_eq_false_iff_not]
    omega

/-- A line feed ends what stands before it, whatever that is. -/
theorem decode_newline (a b : List UInt8) : decode (a ++ 10 :: b) = decode a ++ '\n' :: decode b :=
  decode_append (splitsCharacter_newline a b)

/-! ## Encoded text -/

/-- `Buffer.from(text, 'utf8')`. -/
def encode (cs : List Char) : List UInt8 := cs.flatMap String.utf8EncodeChar

variable {n : Nat}

theorem toNat_ofNat_byte (h : n < 256) : (UInt8.ofNat n).toNat = n := by
  rw [UInt8.toNat_ofNat', Nat.mod_eq_of_lt h]

/-- A byte of a sequence that more bytes follow. -/
theorem feed_more {p : Partial} (hn : n < 256) (hlower : p.lower ≤ n) (hupper : n ≤ p.upper)
    (hmore : p.remaining ≠ 1) :
    feed (some p) (UInt8.ofNat n) =
      ([], some ⟨p.codePoint * 64 + (n - 0x80), p.remaining - 1, 0x80, 0xBF⟩) := by
  simp [feed, Partial.accepts, Partial.continue, toNat_ofNat_byte hn, hlower, hupper, hmore]

/-- The last byte of a sequence. -/
theorem feed_last {p : Partial} {c : Char} (hn : n < 256) (hlower : p.lower ≤ n)
    (hupper : n ≤ p.upper) (hlast : p.remaining = 1) (hc : c.toNat = p.codePoint * 64 + (n - 0x80)) :
    feed (some p) (UInt8.ofNat n) = ([c], none) := by
  simp [feed, Partial.accepts, Partial.continue, toNat_ofNat_byte hn, hlower, hupper, hlast, ← hc]

theorem start_two (hlower : 0xC2 ≤ n) (hupper : n ≤ 0xDF) :
    feed none (UInt8.ofNat n) = ([], some ⟨n - 0xC0, 1, 0x80, 0xBF⟩) := by
  simp [feed, start, toNat_ofNat_byte (show n < 256 by omega), hlower, hupper,
    show ¬ n ≤ 0x7F by omega]

theorem start_three (hlower : 0xE0 ≤ n) (hupper : n ≤ 0xEF) :
    feed none (UInt8.ofNat n) = ([], some ⟨n - 0xE0, 2, if n = 0xE0 then 0xA0 else 0x80,
      if n = 0xED then 0x9F else 0xBF⟩) := by
  simp [feed, start, toNat_ofNat_byte (show n < 256 by omega), hlower, hupper,
    show ¬ n ≤ 0x7F by omega, show ¬ n ≤ 0xDF by omega]

theorem start_four (hlower : 0xF0 ≤ n) (hupper : n ≤ 0xF4) :
    feed none (UInt8.ofNat n) = ([], some ⟨n - 0xF0, 3, if n = 0xF0 then 0x90 else 0x80,
      if n = 0xF4 then 0x8F else 0xBF⟩) := by
  simp [feed, start, toNat_ofNat_byte (show n < 256 by omega), hlower, hupper,
    show ¬ n ≤ 0x7F by omega, show ¬ n ≤ 0xDF by omega, show ¬ n ≤ 0xEF by omega]

/-- The code points of characters: no surrogate, and none above U+10FFFF. -/
theorem toNat_valid (c : Char) : c.toNat < 0xD800 ∨ 0xDFFF < c.toNat ∧ c.toNat < 0x110000 := c.valid

theorem decodeFrom_encodeChar (c : Char) (bytes : List UInt8) :
    decodeFrom none (String.utf8EncodeChar c ++ bytes) = c :: decodeFrom none bytes := by
  have hvalid := toNat_valid c
  have hval : c.val.toNat = c.toNat := rfl
  unfold String.utf8EncodeChar
  simp only [hval]
  generalize hn : c.toNat = n at hvalid
  split
  · next hone =>
    have hfeed : feed none (UInt8.ofNat n) = ([c], none) := by
      simp only [feed, start, toNat_ofNat_byte (show n < 256 by omega), if_pos hone]
      rw [← hn, Char.ofNat_toNat]
    simp only [List.cons_append, List.nil_append, decodeFrom, hfeed]
  split
  · next hone htwo =>
    clear hvalid
    have hfirst := start_two (n := n / 64 % 0x20 + 0xc0) (by omega) (by omega)
    have hlast := feed_last (c := c) (p := ⟨n / 64 % 0x20 + 0xc0 - 0xC0, 1, 0x80, 0xBF⟩)
      (n := n % 0x40 + 0x80) (by omega) (by dsimp only; omega) (by dsimp only; omega) rfl
      (by dsimp only; omega)
    simp only [List.cons_append, List.nil_append, decodeFrom, hfirst, hlast]
  split
  · next hone htwo hthree =>
    have hfirst := start_three (n := n / 4096 % 0x10 + 0xe0) (by omega) (by omega)
    have hsecond := feed_more (n := n / 64 % 0x40 + 0x80)
      (p := ⟨n / 4096 % 0x10 + 0xe0 - 0xE0, 2, if n / 4096 % 0x10 + 0xe0 = 0xE0 then 0xA0 else 0x80,
        if n / 4096 % 0x10 + 0xe0 = 0xED then 0x9F else 0xBF⟩)
      (by omega) (by dsimp only; split <;> omega) (by dsimp only; split <;> omega) (by simp)
    have hlast := feed_last (c := c) (n := n % 0x40 + 0x80)
      (p := ⟨(n / 4096 % 0x10 + 0xe0 - 0xE0) * 64 + (n / 64 % 0x40 + 0x80 - 0x80), 1, 0x80, 0xBF⟩)
      (by omega) (by dsimp only; omega) (by dsimp only; omega) rfl (by dsimp only; omega)
    simp only [List.cons_append, List.nil_append, decodeFrom, hfirst, hsecond, hlast]
  · next hone htwo hthree =>
    have hmax : n < 0x110000 := by omega
    clear hvalid hone htwo
    have hfirst := start_four (n := n / 262144 % 0x08 + 0xf0) (by omega) (by omega)
    have hsecond := feed_more (n := n / 4096 % 0x40 + 0x80)
      (p := ⟨n / 262144 % 0x08 + 0xf0 - 0xF0, 3, if n / 262144 % 0x08 + 0xf0 = 0xF0 then 0x90 else 0x80,
        if n / 262144 % 0x08 + 0xf0 = 0xF4 then 0x8F else 0xBF⟩)
      (by omega) (by dsimp only; split <;> omega) (by dsimp only; split <;> omega) (by simp)
    have hthird := feed_more (n := n / 64 % 0x40 + 0x80)
      (p := ⟨(n / 262144 % 0x08 + 0xf0 - 0xF0) * 64 + (n / 4096 % 0x40 + 0x80 - 0x80), 2, 0x80, 0xBF⟩)
      (by omega) (by dsimp only; omega) (by dsimp only; omega) (by simp)
    have hlast := feed_last (c := c) (n := n % 0x40 + 0x80)
      (p := ⟨((n / 262144 % 0x08 + 0xf0 - 0xF0) * 64 + (n / 4096 % 0x40 + 0x80 - 0x80)) * 64 +
        (n / 64 % 0x40 + 0x80 - 0x80), 1, 0x80, 0xBF⟩)
      (by omega) (by dsimp only; omega) (by dsimp only; omega) rfl (by dsimp only; omega)
    simp only [List.cons_append, List.nil_append, decodeFrom, hfirst, hsecond, hthird, hlast]

theorem decode_encode_append (cs : List Char) (bytes : List UInt8) :
    decode (encode cs ++ bytes) = cs ++ decode bytes := by
  induction cs with
  | nil => rfl
  | cons c cs ih =>
    rw [encode, List.flatMap_cons, List.append_assoc, decode, decodeFrom_encodeChar]
    exact congrArg (c :: ·) ih

/-- Only a line feed is encoded with the byte of a line feed. -/
theorem newline_not_mem_encode {cs : List Char} (h : '\n' ∉ cs) : 10 ∉ encode cs := by
  intro hmem
  obtain ⟨c, hc, hbyte⟩ := List.mem_flatMap.1 hmem
  have hten : ∀ n, n < 256 → (10 : UInt8) = UInt8.ofNat n → n = 10 := by
    intro n hn heq
    rw [← toNat_ofNat_byte hn, ← heq]
    rfl
  have hval : c.val.toNat = c.toNat := rfl
  unfold String.utf8EncodeChar at hbyte
  simp only [hval] at hbyte
  split at hbyte
  · next hone =>
    have heq := hten c.toNat (by omega) (List.mem_singleton.1 hbyte)
    refine h ?_
    rw [show '\n' = c by rw [← Char.ofNat_toNat c, heq]]
    exact hc
  -- every other byte has its first bit set
  · have hvalid := toNat_valid c
    split at hbyte
    · simp only [List.mem_cons, List.not_mem_nil, or_false] at hbyte
      rcases hbyte with hbyte | hbyte
      all_goals
        have heq := hten _ (by omega) hbyte
        omega
    split at hbyte
    · simp only [List.mem_cons, List.not_mem_nil, or_false] at hbyte
      rcases hbyte with hbyte | hbyte | hbyte
      all_goals
        have heq := hten _ (by omega) hbyte
        omega
    · simp only [List.mem_cons, List.not_mem_nil, or_false] at hbyte
      rcases hbyte with hbyte | hbyte | hbyte | hbyte
      all_goals
        have heq := hten _ (by omega) hbyte
        omega

end Utf8
