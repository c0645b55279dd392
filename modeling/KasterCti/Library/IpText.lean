import KasterCti.Library.JsText
import Mathlib.Data.List.Basic

/-!
# Addresses as text

The textual forms of IPv4 and IPv6 addresses: dotted decimal, eight groups of hexadecimal
digits, runs of zero groups written as `::`, a dotted address in the place of the last two
groups, digits in either case.

Results:
1. `Ipv6.lower`: the case of the digits does not matter.
2. `Ipv6.begins`: a text begins with `::` or with its first group.
3. `Ipv6.mapped`: what a text with a dotted address behind `::ffff:` stands for.
4. `take_of_linkLocal`, `take_of_multicast`, `bounds_of_uniqueLocal`: the first digits of a
   group of four and the range that it lies in.
-/

namespace IpText

open JsText

def lowerHexDigits : List Char := "0123456789abcdef".toList

def hexDigits : List Char := lowerHexDigits ++ "ABCDEF".toList

def digitValue (c : Char) : Nat := lowerHexDigits.idxOf c.toLower

def groupValue (cs : List Char) : Nat := cs.foldl (fun n c => 16 * n + digitValue c) 0

/-- One to four hexadecimal digits. -/
structure IsGroup (cs : List Char) (n : Nat) : Prop where
  length_pos : 1 ≤ cs.length
  length_le : cs.length ≤ 4
  digits : ∀ c ∈ cs, c ∈ hexDigits
  value : groupValue cs = n

/-- One to three decimal digits, up to 255. -/
structure IsOctet (cs : List Char) (n : Nat) : Prop where
  length_pos : 1 ≤ cs.length
  length_le : cs.length ≤ 3
  digits : ∀ c ∈ cs, isDigit c = true
  value : digitsValue cs = n
  le : n ≤ 255

/-- `a.b.c.d`. -/
inductive IsDotted : List Char → Nat → Nat → Nat → Nat → Prop
  | mk {as bs cs ds : List Char} {a b c d : Nat} (ha : IsOctet as a) (hb : IsOctet bs b)
      (hc : IsOctet cs c) (hd : IsOctet ds d) :
      IsDotted (as ++ '.' :: (bs ++ '.' :: (cs ++ '.' :: ds))) a b c d

/-- Groups between colons, the last two perhaps as a dotted address. -/
inductive Groups : List Char → List Nat → Prop
  | last {cs : List Char} {n : Nat} (h : IsGroup cs n) : Groups cs [n]
  | dotted {cs : List Char} {a b c d : Nat} (h : IsDotted cs a b c d) :
      Groups cs [256 * a + b, 256 * c + d]
  | cons {cs rest : List Char} {n : Nat} {ns : List Nat} (h : IsGroup cs n)
      (hrest : Groups rest ns) :
      Groups (cs ++ ':' :: rest) (n :: ns)

/-- One side of `::`. -/
def Side (cs : List Char) (ns : List Nat) : Prop := (cs = [] ∧ ns = []) ∨ Groups cs ns

/-- The eight groups of an IPv6 address. -/
inductive Ipv6 : List Char → List Nat → Prop
  | full {cs : List Char} {ns : List Nat} (h : Groups cs ns) (hlength : ns.length = 8) : Ipv6 cs ns
  | compressed {left right : List Char} {ls rs : List Nat} (k : Nat) (hleft : Side left ls)
      (hhex : '.' ∉ left) (hright : Side right rs) (hlength : ls.length + (k + 1) + rs.length = 8) :
      Ipv6 (left ++ ':' :: ':' :: right) (ls ++ List.replicate (k + 1) 0 ++ rs)

variable {cs rest : List Char} {n a b c d : Nat} {ns : List Nat}

/-! ## Characters -/

/-- The characters of an address. -/
def IsTextChar (c : Char) : Prop := c ∈ hexDigits ∨ c = ':' ∨ c = '.'

theorem hexDigit_ne {c : Char} (h : c ∈ hexDigits) : c ≠ ':' ∧ c ≠ '.' := by
  revert c
  decide

theorem mem_hexDigits_of_isDigit {c : Char} (h : isDigit c = true) : c ∈ hexDigits := by
  simp only [isDigit, Bool.and_eq_true, decide_eq_true_eq] at h
  have hlow : 48 ≤ c.toNat := h.1
  have hhigh : c.toNat ≤ 57 := h.2
  have hall : ∀ n : Fin 10, Char.ofNat (48 + n) ∈ hexDigits := by decide
  have hc := hall ⟨c.toNat - 48, by omega⟩
  rwa [show 48 + (c.toNat - 48) = c.toNat by omega, Char.ofNat_toNat] at hc

theorem toLower_of_isDigit {c : Char} (h : isDigit c = true) : c.toLower = c := by
  have hall : ∀ c ∈ hexDigits, isDigit c = true → c.toLower = c := by decide
  exact hall c (mem_hexDigits_of_isDigit h) h

theorem isDigit_ne {c : Char} (h : isDigit c = true) : c ≠ ':' ∧ c ≠ '.' :=
  hexDigit_ne (mem_hexDigits_of_isDigit h)

theorem IsGroup.not_mem (h : IsGroup cs n) : ':' ∉ cs ∧ '.' ∉ cs :=
  ⟨fun hc => (hexDigit_ne (h.digits _ hc)).1 rfl, fun hc => (hexDigit_ne (h.digits _ hc)).2 rfl⟩

theorem IsOctet.not_mem (h : IsOctet cs n) : ':' ∉ cs ∧ '.' ∉ cs :=
  ⟨fun hc => (isDigit_ne (h.digits _ hc)).1 rfl, fun hc => (isDigit_ne (h.digits _ hc)).2 rfl⟩

/-- The characters of a dotted address. -/
theorem IsDotted.chars (h : IsDotted cs a b c d) : ∀ x ∈ cs, isDigit x = true ∨ x = '.' := by
  obtain ⟨ha, hb, hc, hd⟩ := h
  intro x hx
  simp only [List.mem_append, List.mem_cons] at hx
  rcases hx with hx | rfl | hx | rfl | hx | rfl | hx
  · exact .inl (ha.digits x hx)
  · exact .inr rfl
  · exact .inl (hb.digits x hx)
  · exact .inr rfl
  · exact .inl (hc.digits x hx)
  · exact .inr rfl
  · exact .inl (hd.digits x hx)

theorem IsDotted.dot_mem (h : IsDotted cs a b c d) : '.' ∈ cs := by
  obtain ⟨ha, hb, hc, hd⟩ := h
  simp

theorem IsDotted.colon_not_mem (h : IsDotted cs a b c d) : ':' ∉ cs := by
  intro hcolon
  rcases h.chars ':' hcolon with hdigit | hdot
  · exact absurd hdigit (by decide)
  · exact absurd hdot (by decide)

theorem Groups.chars (h : Groups cs ns) : ∀ x ∈ cs, IsTextChar x := by
  induction h with
  | last h => exact fun x hx => .inl (h.digits x hx)
  | dotted h =>
    intro x hx
    rcases h.chars x hx with hdigit | hdot
    · exact .inl (mem_hexDigits_of_isDigit hdigit)
    · exact .inr (.inr hdot)
  | cons h _ ih =>
    intro x hx
    rcases List.mem_append.mp hx with hx | hx
    · exact .inl (h.digits x hx)
    · rcases List.mem_cons.mp hx with rfl | hx
      · exact .inr (.inl rfl)
      · exact ih x hx

theorem Side.chars (h : Side cs ns) : ∀ x ∈ cs, IsTextChar x := by
  rcases h with ⟨rfl, -⟩ | h
  · exact nofun
  · exact h.chars

theorem Ipv6.chars (h : Ipv6 cs ns) : ∀ x ∈ cs, IsTextChar x := by
  cases h with
  | full h _ => exact h.chars
  | compressed k hleft _ hright _ =>
    intro x hx
    simp only [List.mem_append, List.mem_cons] at hx
    rcases hx with hx | rfl | rfl | hx
    · exact hleft.chars x hx
    · exact .inr (.inl rfl)
    · exact .inr (.inl rfl)
    · exact hright.chars x hx

/-! ## Case -/

def lower (cs : List Char) : List Char := cs.map Char.toLower

theorem IsGroup.lower (h : IsGroup cs n) : IsGroup (lower cs) n := by
  have hdigits : ∀ c ∈ hexDigits, c.toLower ∈ hexDigits := by decide
  have hvalues : ∀ c ∈ hexDigits, digitValue c.toLower = digitValue c := by decide
  refine ⟨?_, ?_, ?_, ?_⟩
  · exact (List.length_map _).symm ▸ h.length_pos
  · exact (List.length_map _).symm ▸ h.length_le
  · intro c hc
    obtain ⟨c', hc', rfl⟩ := List.mem_map.mp hc
    exact hdigits c' (h.digits c' hc')
  · rw [← h.value, groupValue, IpText.lower, List.foldl_map]
    exact List.foldl_ext _ _ _ fun m c hc => by rw [hvalues c (h.digits c hc)]

theorem IsDotted.lower_eq (h : IsDotted cs a b c d) : IpText.lower cs = cs := by
  refine (List.map_congr_left fun x hx => ?_).trans (List.map_id cs)
  rcases h.chars x hx with hdigit | rfl
  · exact toLower_of_isDigit hdigit
  · rfl

theorem Groups.lower (h : Groups cs ns) : Groups (lower cs) ns := by
  induction h with
  | last h => exact .last h.lower
  | dotted h => exact h.lower_eq.symm ▸ .dotted h
  | cons h _ ih =>
    rw [IpText.lower, List.map_append, List.map_cons]
    exact .cons h.lower ih

theorem Side.lower (h : Side cs ns) : Side (lower cs) ns := by
  rcases h with ⟨rfl, rfl⟩ | h
  · exact .inl ⟨rfl, rfl⟩
  · exact .inr h.lower

theorem dot_mem_lower (h : ∀ x ∈ cs, IsTextChar x) : '.' ∈ lower cs ↔ '.' ∈ cs := by
  have hdigits : ∀ c ∈ hexDigits, c.toLower ≠ '.' := by decide
  constructor
  · intro hdot
    obtain ⟨x, hx, hlower⟩ := List.mem_map.mp hdot
    rcases h x hx with hdigit | rfl | rfl
    · exact absurd hlower (hdigits x hdigit)
    · exact absurd hlower (by decide)
    · exact hx
  · exact fun hdot => List.mem_map.mpr ⟨'.', hdot, rfl⟩

/-- The case of the digits does not matter. -/
theorem Ipv6.lower (h : Ipv6 cs ns) : Ipv6 (lower cs) ns := by
  cases h with
  | full h hlength => exact .full h.lower hlength
  | compressed k hleft hhex hright hlength =>
    rw [IpText.lower, List.map_append, List.map_cons, List.map_cons]
    exact .compressed k hleft.lower (fun hdot => hhex ((dot_mem_lower hleft.chars).mp hdot))
      hright.lower hlength

/-! ## What a text begins with -/

theorem Groups.begins (h : Groups cs ns) :
    (∃ n, IsGroup cs n ∧ ns = [n]) ∨ (∃ a b c d, IsDotted cs a b c d ∧
      ns = [256 * a + b, 256 * c + d]) ∨
    ∃ group rest n ms, IsGroup group n ∧ Groups rest ms ∧ cs = group ++ ':' :: rest ∧
      ns = n :: ms := by
  cases h with
  | last h => exact .inl ⟨_, h, rfl⟩
  | dotted h => exact .inr (.inl ⟨_, _, _, _, h, rfl⟩)
  | cons h hrest => exact .inr (.inr ⟨_, _, _, _, h, hrest, rfl, rfl⟩)

/-- A text begins with `::`, and so with a group that is zero, or with its first group. -/
theorem Ipv6.begins (h : Ipv6 cs ns) :
    (∃ right, cs = ':' :: ':' :: right ∧ ns.head? = some 0) ∨
      ∃ group rest n, IsGroup group n ∧ cs = group ++ ':' :: rest ∧ ns.head? = some n := by
  cases h with
  | full h hlength =>
    rcases h.begins with ⟨n, -, rfl⟩ | ⟨a, b, c, d, -, rfl⟩ |
      ⟨group, rest, n, ms, hgroup, -, rfl, rfl⟩
    · cases hlength
    · cases hlength
    · exact .inr ⟨group, rest, n, hgroup, rfl, rfl⟩
  | @compressed left right ls rs k hleft hhex hright hlength =>
    rcases hleft with ⟨rfl, rfl⟩ | hleft
    · exact .inl ⟨_, rfl, rfl⟩
    · rcases hleft.begins with ⟨n, hgroup, rfl⟩ | ⟨a, b, c, d, hdotted, -⟩ |
        ⟨group, rest, n, ms, hgroup, -, rfl, rfl⟩
      · exact .inr ⟨_, _, n, hgroup, rfl, rfl⟩
      · exact absurd hdotted.dot_mem hhex
      · exact .inr ⟨group, rest ++ ':' :: ':' :: right, n, hgroup, List.append_assoc _ _ _, rfl⟩

theorem Ipv6.colon_mem (h : Ipv6 cs ns) : ':' ∈ cs := by
  rcases h.begins with ⟨right, rfl, -⟩ | ⟨group, rest, n, -, rfl, -⟩
  · exact List.mem_cons_self
  · exact List.mem_append_right _ List.mem_cons_self

/-! ## A dotted address behind `::ffff:` -/

/-- The digits of `ffff`, in lower case. -/
theorem groupValue_ffff : groupValue "ffff".toList = 65535 := by decide

theorem mapped_right {inner : List Char} {ms : List Nat} (hdot : '.' ∈ inner) (hcolon : ':' ∉ inner)
    (h : Groups ("ffff".toList ++ ':' :: inner) ms) : ∃ a b c d, IsDotted inner a b c d ∧
      ms = [65535, 256 * a + b, 256 * c + d] := by
  have hmem : ':' ∈ "ffff".toList ++ ':' :: inner := List.mem_append_right _ List.mem_cons_self
  rcases h.begins with ⟨n, hgroup, -⟩ | ⟨a, b, c, d, hdotted, -⟩ |
    ⟨group, rest, n, ls, hgroup, hrest, hsplit, rfl⟩
  · exact absurd hmem hgroup.not_mem.1
  · exact absurd hmem hdotted.colon_not_mem
  · obtain ⟨rfl, rfl⟩ := append_sep_inj (by decide) hgroup.not_mem.1 hsplit
    obtain rfl : n = 65535 := hgroup.value.symm.trans groupValue_ffff
    rcases hrest.begins with ⟨m, hlast, -⟩ | ⟨a, b, c, d, hdotted, rfl⟩ |
      ⟨group, rest, m, ls', -, -, rfl, -⟩
    · exact absurd hdot hlast.not_mem.2
    · exact ⟨a, b, c, d, hdotted, rfl⟩
    · exact absurd (List.mem_append_right _ List.mem_cons_self) hcolon

/-- What a text with a dotted address behind `::ffff:` stands for. -/
theorem Ipv6.mapped {inner : List Char} (hdot : '.' ∈ inner) (hcolon : ':' ∉ inner)
    (h : Ipv6 ("::ffff:".toList ++ inner) ns) : ∃ a b c d, IsDotted inner a b c d ∧
      ns = [0, 0, 0, 0, 0, 65535, 256 * a + b, 256 * c + d] := by
  generalize htext : "::ffff:".toList ++ inner = text at h
  have hfirst : ∀ {group rest : List Char} {n : Nat}, IsGroup group n →
      text ≠ group ++ ':' :: rest := by
    rintro group rest n hgroup rfl
    cases group with
    | nil => exact absurd hgroup.length_pos (by decide)
    | cons c group =>
      obtain ⟨rfl, -⟩ := List.cons.inj htext
      exact hgroup.not_mem.1 List.mem_cons_self
  cases h with
  | full h hlength =>
    rcases h.begins with ⟨n, -, rfl⟩ | ⟨a, b, c, d, -, rfl⟩ |
      ⟨group, rest, n, ms, hgroup, -, rfl, rfl⟩
    · cases hlength
    · cases hlength
    · exact absurd rfl (hfirst hgroup)
  | @compressed left right ls rs k hleft hhex hright hlength =>
    rcases hleft with ⟨rfl, rfl⟩ | hleft
    · have hrest : right = "ffff".toList ++ ':' :: inner :=
        (List.cons.inj (List.cons.inj htext).2).2.symm
      rcases hright with ⟨rfl, -⟩ | hright
      · cases hrest
      · obtain ⟨a, b, c, d, hdotted, rfl⟩ := mapped_right hdot hcolon (hrest ▸ hright)
        obtain rfl : k = 4 := by simpa using hlength
        exact ⟨a, b, c, d, hdotted, rfl⟩
    · rcases hleft.begins with ⟨n, hgroup, -⟩ | ⟨a, b, c, d, hdotted, -⟩ |
        ⟨group, rest, n, ms, hgroup, -, rfl, -⟩
      · exact absurd rfl (hfirst hgroup)
      · exact absurd hdotted.dot_mem hhex
      · exact absurd (List.append_assoc _ _ _) (hfirst hgroup)

/-! ## The first digits of a group -/

theorem digitValue_lt {x : Char} (h : x ∈ hexDigits) : digitValue x < 16 := by
  revert x
  decide

/-- A digit in lower case is known by its value. -/
theorem toLower_eq {x y : Char} (h : x ∈ hexDigits) (hy : y ∈ lowerHexDigits)
    (hvalue : digitValue x = digitValue y) : x.toLower = y := by
  have hall : ∀ x ∈ hexDigits, ∀ y ∈ lowerHexDigits, digitValue x = digitValue y →
      x.toLower = y := by decide
  exact hall x h y hy hvalue

/-- Four digits and what they are worth. -/
structure FourDigits (w x y z : Char) (n : Nat) : Prop where
  mem : w ∈ hexDigits ∧ x ∈ hexDigits ∧ y ∈ hexDigits ∧ z ∈ hexDigits
  lt : digitValue w < 16 ∧ digitValue x < 16 ∧ digitValue y < 16 ∧ digitValue z < 16
  value : n = 4096 * digitValue w + 256 * digitValue x + 16 * digitValue y + digitValue z

/-- A group is below 4096, or it has four digits. -/
theorem IsGroup.digits_cases (h : IsGroup cs n) : (cs.length < 4 ∧ n < 4096) ∨
    ∃ w x y z, cs = [w, x, y, z] ∧ FourDigits w x y z n := by
  have hlt : ∀ x ∈ cs, digitValue x < 16 := fun x hx => digitValue_lt (h.digits x hx)
  have hvalue := h.value
  have hlength := h.length_le
  match cs with
  | [] => exact absurd h.length_pos (by decide)
  | [x] =>
    have hx := hlt x (by simp)
    simp only [groupValue, List.foldl_cons, List.foldl_nil] at hvalue
    exact .inl ⟨by simp, by omega⟩
  | [x, y] =>
    have hx := hlt x (by simp)
    have hy := hlt y (by simp)
    simp only [groupValue, List.foldl_cons, List.foldl_nil] at hvalue
    exact .inl ⟨by simp, by omega⟩
  | [x, y, z] =>
    have hx := hlt x (by simp)
    have hy := hlt y (by simp)
    have hz := hlt z (by simp)
    simp only [groupValue, List.foldl_cons, List.foldl_nil] at hvalue
    exact .inl ⟨by simp, by omega⟩
  | [w, x, y, z] =>
    have hmem : w ∈ hexDigits ∧ x ∈ hexDigits ∧ y ∈ hexDigits ∧ z ∈ hexDigits := by
      simpa using h.digits
    obtain ⟨hw, hx, hy, hz⟩ := hmem
    simp only [groupValue, List.foldl_cons, List.foldl_nil] at hvalue
    refine .inr ⟨w, x, y, z, rfl, ⟨hw, hx, hy, hz⟩, ?_, by omega⟩
    exact ⟨digitValue_lt hw, digitValue_lt hx, digitValue_lt hy, digitValue_lt hz⟩
  | _ :: _ :: _ :: _ :: _ :: _ =>
    simp only [List.length_cons] at hlength
    omega

theorem le_foldl_digits (m : Nat) (cs : List Char) :
    m ≤ cs.foldl (fun n c => 16 * n + digitValue c) m := by
  induction cs generalizing m with
  | nil => exact Nat.le_refl m
  | cons c cs ih => exact Nat.le_trans (by omega) (ih (16 * m + digitValue c))

/-- A group that begins with `f` is not zero. -/
theorem IsGroup.pos {tail : List Char} (h : IsGroup cs n) (htext : IpText.lower cs = 'f' :: tail) :
    0 < n := by
  cases cs with
  | nil => cases htext
  | cons w cs =>
    have hlowered : ∀ u ∈ hexDigits, digitValue u = digitValue u.toLower := by decide
    have hw : digitValue w = 15 := by
      rw [hlowered w (h.digits w List.mem_cons_self), (List.cons.inj htext).1]
      decide
    rw [← h.value, groupValue, List.foldl_cons, hw]
    exact Nat.lt_of_lt_of_le (by decide) (le_foldl_digits _ cs)

/-- `fe80::/10`. -/
theorem take_of_linkLocal (h : IsGroup cs n) (hlow : 0xfe80 ≤ n) (hhigh : n ≤ 0xfebf) :
    ∃ y z, lower cs = ['f', 'e', y, z] ∧ y ∈ ['8', '9', 'a', 'b'] := by
  rcases h.digits_cases with ⟨-, hsmall⟩ | ⟨w, x, y, z, rfl, ⟨hw, hx, hy, -⟩, hlt, hn⟩
  · omega
  · have hf : digitValue 'f' = 15 := by decide
    have he : digitValue 'e' = 14 := by decide
    have hwf : w.toLower = 'f' := toLower_eq hw (by decide) (by omega)
    have hxe : x.toLower = 'e' := toLower_eq hx (by decide) (by omega)
    have hthird : ∀ y ∈ hexDigits, 8 ≤ digitValue y → digitValue y ≤ 11 →
        y.toLower ∈ ['8', '9', 'a', 'b'] := by decide
    exact ⟨y.toLower, z.toLower, by simp [lower, hwf, hxe], hthird y hy (by omega) (by omega)⟩

/-- `ff00::/8`. -/
theorem take_of_multicast (h : IsGroup cs n) (hlow : 0xff00 ≤ n) :
    ∃ y z, lower cs = ['f', 'f', y, z] := by
  rcases h.digits_cases with ⟨-, hsmall⟩ | ⟨w, x, y, z, rfl, ⟨hw, hx, -⟩, hlt, hn⟩
  · omega
  · have hf : digitValue 'f' = 15 := by decide
    have hwf : w.toLower = 'f' := toLower_eq hw (by decide) (by omega)
    have hxf : x.toLower = 'f' := toLower_eq hx (by decide) (by omega)
    exact ⟨y.toLower, z.toLower, by simp [lower, hwf, hxf]⟩

/-- `fc00::/7`: a group of four digits that begins with `fc` or `fd`. -/
theorem bounds_of_uniqueLocal {x : Char} {tail : List Char} (h : IsGroup cs n)
    (hfour : 4 ≤ cs.length) (htext : lower cs = 'f' :: x :: tail) (hx : x = 'c' ∨ x = 'd') : 0xfc00 ≤ n ∧ n ≤ 0xfdff := by
  rcases h.digits_cases with ⟨hshort, -⟩ | ⟨w, x', y, z, rfl, ⟨hw, hx', -⟩, hlt, hn⟩
  · omega
  · obtain ⟨hwf, hrest⟩ := List.cons.inj htext
    obtain ⟨hxs, -⟩ := List.cons.inj hrest
    have hlowered : ∀ u ∈ hexDigits, digitValue u = digitValue u.toLower := by decide
    have hwv : digitValue w = 15 := by
      rw [hlowered w hw, hwf]
      decide
    have hxv : digitValue x' = 12 ∨ digitValue x' = 13 := by
      rw [hlowered x' hx', hxs]
      rcases hx with rfl | rfl
      · exact .inl (by decide)
      · exact .inr (by decide)
    omega

end IpText
