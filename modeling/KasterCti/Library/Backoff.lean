import Mathlib.Data.List.Basic
import Mathlib.Data.Option.Basic

/-!
# Attempts that wait for longer and longer

The failures of the attempts on a key, with their times. After each failure the key has to wait,
for as long as the number of its failures so far says, unless it is released in between.

Result: `Spaced.apart`, the distance of two failures in a row.
-/

namespace Backoff

inductive Event (κ : Type)
  | failed (key : κ) (time : Int)
  | released (key : κ) (time : Int)
deriving DecidableEq

variable {κ : Type}

def Event.key : Event κ → κ
  | .failed key _ | .released key _ => key

variable [DecidableEq κ] (wait : Nat → Int) {key : κ} {event : Event κ} {history : List (Event κ)}

/-- The failures of a key. The newest event of a history comes first. -/
def failures (key : κ) : List (Event κ) → Nat
  | [] => 0
  | .failed k _ :: history => if k = key then failures key history + 1 else failures key history
  | .released _ _ :: history => failures key history

/-- The time before which the key should not fail again. -/
def due (key : κ) : List (Event κ) → Option Int
  | [] => none
  | .failed k time :: history =>
    if k = key then some (time + wait (failures key history + 1)) else due key history
  | .released k _ :: history => if k = key then none else due key history

/-- No failure comes too early. -/
def Spaced : List (Event κ) → Prop
  | [] => True
  | .failed key time :: history => (∀ t ∈ due wait key history, t ≤ time) ∧ Spaced history
  | .released _ _ :: history => Spaced history

theorem failures_cons_ne (h : event.key ≠ key) :
    failures key (event :: history) = failures key history := by
  cases event with
  | failed k time => exact if_neg h
  | released k time => rfl

theorem due_cons_ne (h : event.key ≠ key) : due wait key (event :: history) = due wait key history := by
  cases event with
  | failed k time => exact if_neg h
  | released k time => exact if_neg h

theorem failures_failed (key : κ) (time : Int) (history : List (Event κ)) :
    failures key (.failed key time :: history) = failures key history + 1 := if_pos rfl

theorem due_failed (key : κ) (time : Int) (history : List (Event κ)) :
    due wait key (.failed key time :: history) = some (time + wait (failures key history + 1)) :=
  if_pos rfl

theorem due_released (key : κ) (time : Int) (history : List (Event κ)) :
    due wait key (.released key time :: history) = none := if_pos rfl

theorem due_append {between : List (Event κ)} (h : ∀ event ∈ between, event.key ≠ key) :
    due wait key (between ++ history) = due wait key history := by
  induction between with
  | nil => rfl
  | cons event between ih =>
    obtain ⟨hevent, hbetween⟩ := List.forall_mem_cons.mp h
    rw [List.cons_append, due_cons_ne wait hevent, ih hbetween]

variable {wait}

theorem Spaced.of_append {later : List (Event κ)} (h : Spaced wait (later ++ history)) :
    Spaced wait history := by
  induction later with
  | nil => exact h
  | cons event later ih =>
    cases event with
    | failed k time => exact ih h.2
    | released k time => exact ih h

/-- Two failures in a row, without a release in between. -/
theorem Spaced.apart {later between earlier : List (Event κ)} {time time' : Int}
    (h : Spaced wait (later ++ .failed key time' :: (between ++ .failed key time :: earlier)))
    (hbetween : ∀ event ∈ between, event.key ≠ key) :
    time + wait (failures key earlier + 1) ≤ time' := by
  obtain ⟨hdue, -⟩ := h.of_append
  rw [due_append wait hbetween, due_failed] at hdue
  exact hdue _ rfl

end Backoff
