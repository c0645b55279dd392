import Mathlib.Data.List.Sort
import Mathlib.Order.Lattice

/-!
# The first of a list in an order with ties

A query that orders its rows by a key and takes the first of them may put rows
of one key in any order. What such a batch is sure to hold is told by counting
the rows that may stand before.
-/

namespace Batches

variable {α β : Type*} [LinearOrder β] {key : α → β} {limit : Nat} {rows selected : List α}
  {good : α → Bool}

/-- An answer of a query for the first rows by their keys. -/
def Batch (key : α → β) (limit : Nat) (rows selected : List α) : Prop :=
  ∃ ordered : List α, ordered.Perm rows ∧ ordered.Pairwise (fun a b => key a ≤ key b) ∧
    selected = ordered.take limit

/-- The rows that are not wanted and may stand before the row. -/
def crowd (key : α → β) (good : α → Bool) (rows : List α) (row : α) : List α :=
  rows.filter fun other => !good other && decide (key other ≤ key row)

theorem Batch.subset (batch : Batch key limit rows selected) : selected ⊆ rows := by
  obtain ⟨ordered, perm, -, rfl⟩ := batch
  exact fun row member => perm.subset (List.mem_of_mem_take member)

/-- By its key, and of one key what is not wanted first. -/
def worstFirst (key : α → β) (good : α → Bool) (a b : α) : Prop :=
  key a < key b ∨ key a = key b ∧ (good a = true → good b = true)

instance : DecidableRel (worstFirst key good) := fun a b =>
  inferInstanceAs (Decidable (key a < key b ∨ key a = key b ∧ (good a = true → good b = true)))

instance : Std.Total (worstFirst key good) where
  total a b := by
    obtain less | equal | greater := lt_trichotomy (key a) (key b)
    · exact Or.inl (Or.inl less)
    · cases goodA : good a
      · exact Or.inl (Or.inr ⟨equal, by simp [goodA]⟩)
      · exact Or.inr (Or.inr ⟨equal.symm, fun _ => goodA⟩)
    · exact Or.inr (Or.inl greater)

instance : IsTrans α (worstFirst key good) where
  trans a b c := by
    rintro (less | ⟨equal, worse⟩) (less' | ⟨equal', worse'⟩)
    · exact Or.inl (less.trans less')
    · exact Or.inl (equal' ▸ less)
    · exact Or.inl (equal ▸ less')
    · exact Or.inr ⟨equal.trans equal', worse' ∘ worse⟩

theorem le_of_worstFirst {a b : α} (first : worstFirst key good a b) : key a ≤ key b := by
  obtain less | ⟨equal, -⟩ := first
  · exact less.le
  · exact equal.le

/-- The order that puts what is wanted behind everything else of its key. -/
theorem batch_worstFirst (key : α → β) (good : α → Bool) (limit : Nat) (rows : List α) :
    Batch key limit rows ((rows.insertionSort (worstFirst key good)).take limit) :=
  ⟨_, List.perm_insertionSort _ rows,
    (List.pairwise_insertionSort (worstFirst key good) rows).imp le_of_worstFirst, rfl⟩

/-- In that order the whole crowd stands before a wanted row. -/
theorem length_crowd_le {before behind : List α} {row : α} (wanted : good row = true)
    (ordered : (before ++ row :: behind).Pairwise (worstFirst key good))
    (perm : (before ++ row :: behind).Perm rows) :
    (crowd key good rows row).length ≤ before.length := by
  have noneBehind : (row :: behind).filter
      (fun other => !good other && decide (key other ≤ key row)) = [] := by
    rw [List.filter_eq_nil_iff]
    intro other member inCrowd
    simp only [Bool.and_eq_true, Bool.not_eq_true', decide_eq_true_eq] at inCrowd
    cases List.mem_cons.mp member with
    | inl equal =>
      rw [equal, wanted] at inCrowd
      exact absurd inCrowd.1 (by decide)
    | inr later =>
      have first := (List.pairwise_cons.mp (List.pairwise_append.mp ordered).2.1).1 other later
      obtain less | ⟨-, worse⟩ := first
      · exact absurd inCrowd.2 (not_le.mpr less)
      · rw [worse wanted] at inCrowd
        exact absurd inCrowd.1 (by decide)
  calc
    (crowd key good rows row).length = (crowd key good (before ++ row :: behind) row).length :=
      (perm.filter _).length_eq.symm
    _ = (before.filter fun other => !good other && decide (key other ≤ key row)).length := by
      rw [crowd, List.filter_append, noneBehind, List.append_nil]
    _ ≤ before.length := List.length_filter_le _ _

/-- Every batch holds a wanted row exactly when one of them has a small enough crowd. -/
theorem batch_meets_iff :
    (∀ selected, Batch key limit rows selected → ∃ row ∈ selected, good row = true) ↔
      ∃ row ∈ rows, good row = true ∧ (crowd key good rows row).length < limit := by
  constructor
  · intro meets
    have batch := batch_worstFirst key good limit rows
    obtain ⟨row, taken, wanted⟩ := meets _ batch
    obtain ⟨before, behind, split⟩ := List.append_of_mem taken
    have sorted := List.pairwise_insertionSort (worstFirst key good) rows
    have perm := List.perm_insertionSort (worstFirst key good) rows
    rw [← List.take_append_drop limit (rows.insertionSort _), split, List.append_assoc,
      List.cons_append] at sorted perm
    refine ⟨row, batch.subset taken, wanted, ?_⟩
    calc
      (crowd key good rows row).length ≤ before.length := length_crowd_le wanted sorted perm
      _ < (before ++ row :: behind).length := by simp
      _ ≤ limit := by
        rw [← split, List.length_take]
        exact Nat.min_le_left _ _
  · rintro ⟨row, member, wanted, few⟩ selected ⟨ordered, perm, sorted, rfl⟩
    by_contra absent
    have noneWanted : ∀ other ∈ ordered.take limit, ¬ good other = true :=
      fun other taken isGood => absent ⟨other, taken, isGood⟩
    have notTaken : row ∉ ordered.take limit := fun taken => noneWanted row taken wanted
    have inDrop : row ∈ ordered.drop limit := by
      have inOrdered := perm.mem_iff.mpr member
      rw [← List.take_append_drop limit ordered, List.mem_append] at inOrdered
      exact inOrdered.resolve_left notTaken
    -- the whole batch stands before the row and belongs to its crowd
    have allCrowd : ∀ other ∈ ordered.take limit,
        (!good other && decide (key other ≤ key row)) = true := by
      intro other taken
      have notWanted := noneWanted other taken
      rw [← List.take_append_drop limit ordered, List.pairwise_append] at sorted
      simp only [Bool.and_eq_true, Bool.not_eq_true', decide_eq_true_eq]
      exact ⟨Bool.not_eq_true _ ▸ notWanted, sorted.2.2 other taken row inDrop⟩
    have full : (ordered.take limit).length = limit := by
      rw [List.length_take, Nat.min_eq_left]
      have positive := List.length_pos_of_mem inDrop
      rw [List.length_drop] at positive
      omega
    have enough : limit ≤ (crowd key good rows row).length := by
      calc
        limit = ((ordered.take limit).filter
            fun other => !good other && decide (key other ≤ key row)).length := by
          rw [List.filter_eq_self.mpr allCrowd, full]
        _ ≤ (crowd key good ordered row).length :=
          ((List.take_sublist limit ordered).filter _).length_le
        _ = (crowd key good rows row).length := (perm.filter _).length_eq
    omega

end Batches
