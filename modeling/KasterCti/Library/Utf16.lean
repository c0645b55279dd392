import Mathlib.Data.List.Basic

/-!
# Texts of 16-bit units

A string of JavaScript is a list of UTF-16 units, of which two can stand for one character or one
for none. Written as UTF-8, a unit below 128 is one byte and every other one takes more.

Results:
1. `toUtf8_ascii`: what the bytes of plain units are.
2. `plain_of_length_toUtf8`: only plain units are as many bytes as units.
-/

namespace Utf16

abbrev Text := List UInt16

def isHigh (u : UInt16) : Bool := 0xD800 ≤ u.toNat && u.toNat ≤ 0xDBFF

def isLow (u : UInt16) : Bool := 0xDC00 ≤ u.toNat && u.toNat ≤ 0xDFFF

/-- A unit that stands alone; half of a pair is written as the replacement character. -/
def encodeUnit (u : UInt16) : List UInt8 :=
  let n := u.toNat
  if n < 0x80 then [UInt8.ofNat n]
  else if n < 0x800 then [UInt8.ofNat (0xC0 + n / 64), UInt8.ofNat (0x80 + n % 64)]
  else if isHigh u || isLow u then [0xEF, 0xBF, 0xBD]
  else [UInt8.ofNat (0xE0 + n / 4096), UInt8.ofNat (0x80 + n / 64 % 64), UInt8.ofNat (0x80 + n % 64)]

def encodePair (high low : UInt16) : List UInt8 :=
  let n := 0x10000 + (high.toNat - 0xD800) * 1024 + (low.toNat - 0xDC00)
  [UInt8.ofNat (0xF0 + n / 262144), UInt8.ofNat (0x80 + n / 4096 % 64),
    UInt8.ofNat (0x80 + n / 64 % 64), UInt8.ofNat (0x80 + n % 64)]

def toUtf8 : Text → List UInt8
  | [] => []
  | [u] => encodeUnit u
  | u :: v :: rest =>
    if isHigh u && isLow v then encodePair u v ++ toUtf8 rest else encodeUnit u ++ toUtf8 (v :: rest)

/-- The units of a text whose characters are one unit each. -/
def unitsOf (s : String) : Text := s.toList.map fun c => UInt16.ofNat c.toNat

/-- Only units below 128. -/
def Plain (units : Text) : Prop := ∀ u ∈ units, u.toNat < 0x80

instance (units : Text) : Decidable (Plain units) :=
  List.decidableBAll (fun u : UInt16 => u.toNat < 0x80) units

variable {u : UInt16} {units : Text}

theorem encodeUnit_plain (h : u.toNat < 0x80) : encodeUnit u = [UInt8.ofNat u.toNat] := if_pos h

theorem one_lt_length_encodeUnit (h : ¬ u.toNat < 0x80) : 1 < (encodeUnit u).length := by
  unfold encodeUnit
  dsimp only
  rw [if_neg h]
  split
  · exact Nat.lt_succ_self 1
  split
  · exact Nat.lt_trans (Nat.lt_succ_self 1) (Nat.lt_succ_self 2)
  · exact Nat.lt_trans (Nat.lt_succ_self 1) (Nat.lt_succ_self 2)

theorem not_plain_of_isHigh (h : isHigh u = true) : ¬ u.toNat < 0x80 := by
  simp only [isHigh, Bool.and_eq_true, decide_eq_true_eq] at h
  omega

theorem toUtf8_ascii (h : Plain units) : toUtf8 units = units.map fun u => UInt8.ofNat u.toNat := by
  fun_induction toUtf8 units with
  | case1 => rfl
  | case2 u => exact encodeUnit_plain (h u List.mem_cons_self)
  | case3 u v rest hpair =>
    rw [Bool.and_eq_true] at hpair
    exact absurd (h u List.mem_cons_self) (not_plain_of_isHigh hpair.1)
  | case4 u v rest _ ih =>
    rw [ih fun w hw => h w (List.mem_cons_of_mem u hw), encodeUnit_plain (h u List.mem_cons_self)]
    rfl

theorem length_encodeUnit_pos (u : UInt16) : 0 < (encodeUnit u).length := by
  by_cases h : u.toNat < 0x80
  · rw [encodeUnit_plain h]
    exact Nat.zero_lt_one
  · exact Nat.lt_trans Nat.zero_lt_one (one_lt_length_encodeUnit h)

theorem length_le_toUtf8 (units : Text) : units.length ≤ (toUtf8 units).length := by
  fun_induction toUtf8 units with
  | case1 => exact Nat.le_refl 0
  | case2 u => exact length_encodeUnit_pos u
  | case3 u v rest _ ih =>
    have hpair : (encodePair u v).length = 4 := rfl
    rw [List.length_cons, List.length_cons, List.length_append]
    omega
  | case4 u v rest _ ih =>
    have hpos := length_encodeUnit_pos u
    rw [List.length_cons, List.length_append]
    omega

theorem plain_of_length_toUtf8 (h : (toUtf8 units).length = units.length) : Plain units := by
  fun_induction toUtf8 units with
  | case1 => nofun
  | case2 u =>
    refine List.forall_mem_singleton.mpr ?_
    by_contra hplain
    have hlong := one_lt_length_encodeUnit hplain
    rw [h] at hlong
    exact absurd hlong (Nat.lt_irrefl 1)
  | case3 u v rest =>
    -- a pair is four bytes
    have hrest := length_le_toUtf8 rest
    have hpair : (encodePair u v).length = 4 := rfl
    rw [List.length_append, List.length_cons, List.length_cons] at h
    omega
  | case4 u v rest _ ih =>
    have hrest := length_le_toUtf8 (v :: rest)
    have hpos := length_encodeUnit_pos u
    rw [List.length_append, List.length_cons] at h
    refine List.forall_mem_cons.mpr ⟨?_, ih (by omega)⟩
    by_contra hplain
    have hlong := one_lt_length_encodeUnit hplain
    omega

end Utf16
