import Mathlib.Data.List.Basic

/-!
# Dropping sections line by line

A pass over lines drops the sections of one kind: it skips from a line that opens one to the next
line that ends one. It has no look at the lines behind, and is compared with the places of the
lines: a line stands in a dropped section if the last line up to it that opens or ends one opens
one.

Results:
1. `drop_eq_outside`: the pass keeps the lines outside, in their order.
2. `drop_eq_self`: lines that open no section are all kept.
-/

namespace SectionDrop

variable {α : Type*} (opens ends : α → Bool)

/-- The pass, `skipping` as long as a section is dropped. -/
def drop (skipping : Bool) : List α → List α
  | [] => []
  | line :: lines =>
    if opens line then drop true lines
    else if skipping && !ends line then drop true lines
    else line :: drop false lines

/-- A section is open behind the lines. -/
def openBehind (lines : List α) : Bool :=
  (lines.reverse.find? fun line => opens line || ends line).any opens

/-- The line at the place `i` stands in a dropped section. -/
def inside (lines : List α) (i : ℕ) : Bool := openBehind opens ends (lines.take (i + 1))

/-- The lines that stand in none. -/
def outside (lines : List α) : List α :=
  (lines.zipIdx.filter fun entry => !inside opens ends lines entry.2).map Prod.fst

variable {opens ends}

theorem drop_cons (skipping : Bool) (line : α) (lines : List α) :
    drop opens ends skipping (line :: lines) =
      if opens line then drop opens ends true lines
      else if skipping && !ends line then drop opens ends true lines
      else line :: drop opens ends false lines := rfl

theorem openBehind_concat (before : List α) (line : α) :
    openBehind opens ends (before ++ [line]) =
      (opens line || (!ends line && openBehind opens ends before)) := by
  rw [openBehind, List.reverse_append, List.reverse_singleton, List.singleton_append,
    List.find?_cons]
  cases hopens : opens line with
  | true => simp [hopens]
  | false =>
    cases hends : ends line with
    | true => simp [hopens]
    | false => rfl

/-- The pass knows of the lines behind it what it has to. -/
theorem drop_openBehind (before lines : List α) :
    drop opens ends (openBehind opens ends before) lines =
      ((lines.zipIdx before.length).filter fun entry =>
        !inside opens ends (before ++ lines) entry.2).map Prod.fst := by
  induction lines generalizing before with
  | nil => rfl
  | cons line lines ih =>
    have htake : (before ++ line :: lines).take (before.length + 1) = before ++ [line] :=
      List.take_length_add_append 1
    have hrest := ih (before ++ [line])
    rw [openBehind_concat, List.length_append, List.length_singleton, List.append_assoc,
      List.singleton_append] at hrest
    rw [drop_cons, List.zipIdx_cons, List.filter_cons, inside, htake, openBehind_concat]
    cases hopens : opens line with
    | true =>
      rw [hopens, Bool.true_or] at hrest
      simpa using hrest
    | false =>
      rw [hopens, Bool.false_or] at hrest
      cases hends : ends line with
      | true =>
        rw [hends] at hrest
        simpa using hrest
      | false =>
        rw [hends] at hrest
        cases hskip : openBehind opens ends before with
        | true | false =>
          rw [hskip] at hrest
          simpa using hrest

theorem drop_eq_outside (lines : List α) :
    drop opens ends false lines = outside opens ends lines :=
  drop_openBehind [] lines

theorem opens_of_mem_drop {skipping : Bool} {lines : List α} {line : α}
    (h : line ∈ drop opens ends skipping lines) : opens line = false := by
  induction lines generalizing skipping with
  | nil => cases h
  | cons first lines ih =>
    rw [drop_cons] at h
    split at h
    · exact ih h
    · rename_i hopens
      split at h
      · exact ih h
      · rcases List.mem_cons.mp h with rfl | h
        · exact Bool.eq_false_iff.mpr hopens
        · exact ih h

theorem drop_sublist (skipping : Bool) (lines : List α) :
    (drop opens ends skipping lines).Sublist lines := by
  induction lines generalizing skipping with
  | nil => exact List.Sublist.refl _
  | cons line lines ih =>
    rw [drop_cons]
    split
    · exact (ih true).cons line
    · split
      · exact (ih true).cons line
      · exact (ih false).cons_cons line

theorem drop_eq_self {lines : List α} (h : ∀ line ∈ lines, opens line = false) :
    drop opens ends false lines = lines := by
  induction lines with
  | nil => rfl
  | cons line lines ih =>
    obtain ⟨hline, hlines⟩ := List.forall_mem_cons.mp h
    simp [drop_cons, hline, ih hlines]

end SectionDrop
