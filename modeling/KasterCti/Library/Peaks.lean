import Mathlib.Data.List.MinMax
import Mathlib.Order.Lattice

/-!
# The greatest value of a list

Two lists have the same greatest value when each is dominated by the other: for every value of
the one the other has a value that is not smaller.
-/

namespace Peaks

variable {α : Type*} [LinearOrder α] {as bs : List α}

/-- Every value of `as` is met or passed by one of `bs`. -/
def Dominated (as bs : List α) : Prop := ∀ a ∈ as, ∃ b ∈ bs, a ≤ b

theorem Dominated.of_subset (h : as ⊆ bs) : Dominated as bs := fun a ha => ⟨a, h ha, le_refl a⟩

theorem exists_max? (h : as ≠ []) : ∃ a, as.max? = some a := by
  cases hmax : as.max? with
  | none => exact absurd (List.max?_eq_none_iff.mp hmax) h
  | some a => exact ⟨a, rfl⟩

theorem dominated_of_max?_eq (h : as.max? = bs.max?) : Dominated as bs := by
  intro a ha
  obtain ⟨top, htop⟩ := exists_max? (List.ne_nil_of_mem ha)
  exact ⟨top, (List.max?_eq_some_iff.mp (h.symm.trans htop)).1, (List.max?_eq_some_iff.mp htop).2 a ha⟩

theorem max?_eq_max?_iff : as.max? = bs.max? ↔ Dominated as bs ∧ Dominated bs as := by
  constructor
  · intro h
    exact ⟨dominated_of_max?_eq h, dominated_of_max?_eq h.symm⟩
  rintro ⟨hab, hba⟩
  cases hmax : as.max? with
  | none =>
    -- a list without values dominates only itself
    have has := List.max?_eq_none_iff.mp hmax
    have hbs : bs = [] := by
      by_contra hne
      obtain ⟨b, hb⟩ := List.exists_mem_of_ne_nil bs hne
      obtain ⟨a, ha, -⟩ := hba b hb
      rw [has] at ha
      cases ha
    exact (List.max?_eq_none_iff.mpr hbs).symm
  | some top =>
    obtain ⟨htop, hgreatest⟩ := List.max?_eq_some_iff.mp hmax
    obtain ⟨b, hb, hle⟩ := hab top htop
    have hbelow : ∀ b ∈ bs, b ≤ top := by
      intro b hb
      obtain ⟨a, ha, hba⟩ := hba b hb
      exact hba.trans (hgreatest a ha)
    refine (List.max?_eq_some_iff.mpr ⟨?_, hbelow⟩).symm
    rw [le_antisymm hle (hbelow b hb)]
    exact hb

/-- A part of a list has the greatest value of the list when it dominates it. -/
theorem max?_eq_of_subset_iff (h : as ⊆ bs) : as.max? = bs.max? ↔ Dominated bs as := by
  rw [max?_eq_max?_iff]
  exact and_iff_right (Dominated.of_subset h)

end Peaks
