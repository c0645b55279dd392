import Mathlib.Data.List.Basic

/-!
# Runs of a deterministic step

A component is a state type, a type of labels and a step function. A run is a
list of labels; it passes through the state after every prefix of the list.

Results:
1. `along_congr`: two properties that agree on every step agree along every run.
2. `Along.invariant`: what the steps of a run preserve holds in its last state.
3. `Along.mono`: one property of the steps from another.
4. `always_iff_along`: a property of every state, from what keeps it at a step.
5. `eq_singleton_of_get`: the task that runs, where at most one does.
-/

namespace Trace

variable {σ α : Type*} {step : σ → α → σ} {P Q : σ → α → Prop} {s : σ} {a : α} {as bs : List α}

/-- `P` holds of every step of the run of `step` from `s` over `as`. It sees the
state the step is taken in and its label. -/
def Along (step : σ → α → σ) (P : σ → α → Prop) (s : σ) (as : List α) : Prop :=
  ∀ pre a post, as = pre ++ a :: post → P (pre.foldl step s) a

theorem along_nil : Along step P s [] := by
  intro pre a post h
  simp at h

theorem along_cons : Along step P s (a :: as) ↔ P s a ∧ Along step P (step s a) as := by
  constructor
  · intro h
    refine ⟨h [] a as rfl, ?_⟩
    intro pre b post hsplit
    exact h (a :: pre) b post (by rw [hsplit]; rfl)
  · rintro ⟨hhead, htail⟩ pre b post hsplit
    cases pre with
    | nil =>
      obtain ⟨rfl, rfl⟩ := List.cons.inj hsplit
      exact hhead
    | cons c pre =>
      obtain ⟨rfl, hrest⟩ := List.cons.inj hsplit
      exact htail pre b post hrest

/-- A run can be checked step by step. -/
instance decidableAlong [∀ s a, Decidable (P s a)] :
    ∀ (s : σ) (as : List α), Decidable (Along step P s as)
  | _, [] => .isTrue along_nil
  | s, a :: as =>
    have := decidableAlong (step s a) as
    decidable_of_iff (P s a ∧ Along step P (step s a) as) along_cons.symm

/-- Every part of a run has what the run has. -/
theorem Along.suffix (h : Along step P s (as ++ bs)) : Along step P (as.foldl step s) bs := by
  intro pre a post hsplit
  have hat := h (as ++ pre) a post (by rw [hsplit, List.append_assoc])
  rwa [List.foldl_append] at hat

theorem Along.take (h : Along step P s (as ++ bs)) : Along step P s as := by
  intro pre a post hsplit
  exact h pre a (post ++ bs) (by rw [hsplit, List.append_assoc, List.cons_append])

theorem along_congr (h : ∀ s a, P s a ↔ Q s a) : Along step P s as ↔ Along step Q s as :=
  ⟨fun hP pre a post hsplit => (h _ _).1 (hP pre a post hsplit),
    fun hQ pre a post hsplit => (h _ _).2 (hQ pre a post hsplit)⟩

/-- The invariant rule. A step may use the property that holds of it. -/
theorem Along.invariant {inv : σ → Prop} (h : Along step P s as)
    (hstep : ∀ s a, P s a → inv s → inv (step s a)) (hs : inv s) : inv (as.foldl step s) := by
  induction as generalizing s with
  | nil => exact hs
  | cons a as ih =>
    obtain ⟨hhead, htail⟩ := along_cons.1 h
    exact ih htail (hstep s a hhead hs)

/-- The same rule for a property of the steps. -/
theorem Along.mono {inv : σ → Prop} (h : Along step P s as)
    (hstep : ∀ s a, P s a → inv s → inv (step s a)) (hQ : ∀ s a, P s a → inv s → Q s a)
    (hs : inv s) : Along step Q s as := by
  intro pre a post hsplit
  subst hsplit
  exact hQ _ a (h pre a post rfl) (h.take.invariant hstep hs)

/-- Where a step keeps `inv` exactly when it meets `P`, every state of a run has `inv`
exactly when every step meets `P`. -/
theorem always_iff_along {inv : σ → Prop} (hstep : ∀ s a, inv s → (inv (step s a) ↔ P s a))
    (hs : inv s) :
    (∀ pre post, as = pre ++ post → inv (pre.foldl step s)) ↔ Along step P s as := by
  constructor
  · intro halways pre a post hsplit
    have hbefore := halways pre (a :: post) hsplit
    have hafter := halways (pre ++ [a]) post (by rw [hsplit, List.append_assoc]; rfl)
    rw [List.foldl_append] at hafter
    exact (hstep _ a hbefore).1 hafter
  · intro halong pre post hsplit
    rw [hsplit] at halong
    exact halong.take.invariant (fun s a hP hs => (hstep s a hs).2 hP) hs

/-- Where at most one task is under way, one that is found is the only one. -/
theorem eq_singleton_of_get {tasks : List α} {n : Nat} (hlength : tasks.length ≤ 1)
    (hget : tasks[n]? = some a) : n = 0 ∧ tasks = [a] := by
  match tasks with
  | [] => cases hget
  | [only] =>
    cases n with
    | zero => exact ⟨rfl, congrArg (fun task => [task]) (Option.some.inj hget)⟩
    | succ n => cases hget
  | _ :: _ :: _ => simp at hlength

end Trace
