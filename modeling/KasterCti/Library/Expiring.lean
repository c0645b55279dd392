import Mathlib.Data.Option.Basic

/-!
# Values with an expiry

A key of Redis holds a value up to a time, that time included, or without end. Times are
in milliseconds.

`found_eq_some_iff` and `found_eq_none_iff` say what is found.
-/

namespace Expiring

/-- A value and the last moment it is there. -/
structure Slot (α : Type*) where
  value : α
  expiresAt : Option Int

variable {α : Type*} {slot : Option (Slot α)} {now : Int} {a : α}

def Slot.alive (slot : Slot α) (now : Int) : Bool := slot.expiresAt.all fun time => now ≤ time

/-- What is found at a time. -/
def live (slot : Option (Slot α)) (now : Int) : Option (Slot α) := slot.filter (·.alive now)

def found (slot : Option (Slot α)) (now : Int) : Option α := (live slot now).map (·.value)

theorem found_eq_some_iff :
    found slot now = some a ↔ ∃ s, slot = some s ∧ s.alive now = true ∧ s.value = a := by
  simp only [found, live, Option.map_eq_some_iff, Option.filter_eq_some_iff, and_assoc]

theorem found_eq_none_iff :
    found slot now = none ↔ ∀ s, slot = some s → s.alive now = false := by
  simp only [found, live, Option.map_eq_none_iff, Option.filter_eq_none_iff, Bool.not_eq_true]

theorem found_of_le {time : Int} (h : now ≤ time) : found (some ⟨a, some time⟩) now = some a :=
  found_eq_some_iff.mpr ⟨_, rfl, decide_eq_true h, rfl⟩

end Expiring
