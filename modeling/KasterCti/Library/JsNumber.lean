import Mathlib.Data.Nat.Log
import Mathlib.Tactic.Linarith

/-!
# Whole numbers as JavaScript holds them

A number of JavaScript is a binary64. A whole number below `2 ^ 53` is one; from there on the
numbers thin out, and past the largest of them stands Infinity.
-/

namespace JsNumber

/-- The whole numbers up to here are exact. -/
def safeLimit : Nat := 2 ^ 53

/-- The binary64 nearest to `n`, a tie going to the even significand; `none` is Infinity. -/
def nearest (n : Nat) : Option Nat :=
  -- the significand has 53 bits, so this is the distance of two neighbours around `n`
  let unit := 2 ^ (Nat.log 2 n - 52)
  let below := n / unit * unit
  let rounded :=
    if 2 * (n % unit) > unit ∨ 2 * (n % unit) = unit ∧ n / unit % 2 = 1 then below + unit
    else below
  if Nat.log 2 rounded < 1024 then some rounded else none

theorem nearest_of_lt {n : Nat} (h : n < safeLimit) : nearest n = some n := by
  have hlt : Nat.log 2 n < 53 := Nat.log_lt_of_lt_pow' (by decide) h
  have hlog : Nat.log 2 n - 52 = 0 := by omega
  have hfinite : Nat.log 2 n < 1024 := hlt.trans (by decide)
  unfold nearest
  rw [hlog]
  simp [Nat.mod_one, hfinite]

/-- A number past the exact ones stays past them. -/
theorem le_of_nearest {n m : Nat} (h : safeLimit ≤ n) (hm : nearest n = some m) :
    safeLimit ≤ m := by
  have hlog : 53 ≤ Nat.log 2 n := (Nat.le_log_iff_pow_le (by decide) (by
    have : 0 < safeLimit := by decide
    omega)).mpr h
  have hbelow : safeLimit ≤ n / 2 ^ (Nat.log 2 n - 52) * 2 ^ (Nat.log 2 n - 52) := by
    have hpow : 2 ^ Nat.log 2 n ≤ n := Nat.pow_log_le_self 2 (by
      rintro rfl
      simp at hlog)
    have hsplit : 2 ^ Nat.log 2 n = 2 ^ 52 * 2 ^ (Nat.log 2 n - 52) := by
      rw [← Nat.pow_add]
      congr 1
      omega
    have hquotient : 2 ^ 52 ≤ n / 2 ^ (Nat.log 2 n - 52) := by
      rw [Nat.le_div_iff_mul_le (Nat.two_pow_pos _), ← hsplit]
      exact hpow
    calc safeLimit = 2 ^ 52 * 2 ^ 1 := by decide
      _ ≤ n / 2 ^ (Nat.log 2 n - 52) * 2 ^ (Nat.log 2 n - 52) :=
        Nat.mul_le_mul hquotient (Nat.pow_le_pow_right (by decide) (by omega))
  simp only [nearest, Option.ite_none_right_eq_some, Option.some.injEq] at hm
  obtain ⟨-, rfl⟩ := hm
  split
  · exact hbelow.trans (Nat.le_add_right _ _)
  · exact hbelow

/-- A tie at the first place that is not exact, and one above it. -/
example : nearest (2 ^ 53 + 1) = some (2 ^ 53) ∧ nearest (2 ^ 53 + 3) = some (2 ^ 53 + 4) := by
  decide

end JsNumber
