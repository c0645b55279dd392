import Mathlib

/-!
# Simple paths, counted under a limit

The search that follows every path without repetition and adds up the weights on it, for the
heaviest one. The search takes one step for each path, and when the steps are used up it comes
back with nothing: it has then seen as many paths as it had steps, in depth-first order.
-/

namespace SimplePaths

variable {α : Type*}

def weightOf (weight : α → Nat) (path : List α) : Nat := (path.map weight).sum

/-- The heaviest of the paths, and at least `base`. -/
def heaviest (weight : α → Nat) (base : Nat) (paths : List (List α)) : Nat :=
  (paths.map (weightOf weight)).foldl max base

section Heaviest
variable {weight : α → Nat}

theorem heaviest_append (base : Nat) (paths paths' : List (List α)) :
    heaviest weight base (paths ++ paths') =
      heaviest weight (heaviest weight base paths) paths' := by
  rw [heaviest, List.map_append, List.foldl_append]
  rfl

theorem heaviest_max (a b : Nat) (paths : List (List α)) :
    heaviest weight (max a b) paths = max a (heaviest weight b paths) :=
  List.foldl_assoc

theorem heaviest_cons (v : α) (base : Nat) (paths : List (List α)) :
    heaviest weight (weight v + base) (paths.map (v :: ·)) =
      weight v + heaviest weight base paths := by
  induction paths generalizing base with
  | nil => rfl
  | cons path paths ih =>
    have hmax : max (weight v + base) (weightOf weight (v :: path)) =
        weight v + max base (weightOf weight path) := by
      rw [weightOf, List.map_cons, List.sum_cons, Nat.add_max_add_left]
      rfl
    show heaviest weight (max (weight v + base) (weightOf weight (v :: path))) _ = _
    rw [hmax, ih]
    rfl

theorem lt_heaviest_iff {c base : Nat} {paths : List (List α)} :
    c < heaviest weight base paths ↔ c < base ∨ ∃ path ∈ paths, c < weightOf weight path := by
  induction paths generalizing base with
  | nil => simp [heaviest]
  | cons path paths ih =>
    show c < heaviest weight (max base (weightOf weight path)) paths ↔ _
    rw [ih, lt_max_iff]
    simp [or_assoc]

/-- The loop over the successors, given what the search of each of them finds. -/
theorem foldl_search {limit : Nat} {paths : α → List (List α)} {found : α → Nat → Nat × Nat}
    (hfound : ∀ next steps,
      (found next steps).1 = heaviest weight 0 ((paths next).take (limit - steps)) ∧
        limit - (found next steps).2 = limit - steps - (paths next).length)
    (vs : List α) (best steps : Nat) :
    let loop := vs.foldl (fun (best : Nat × Nat) next =>
      (max best.1 (found next best.2).1, (found next best.2).2)) (best, steps)
    loop.1 = heaviest weight best ((vs.flatMap paths).take (limit - steps)) ∧
      limit - loop.2 = limit - steps - (vs.flatMap paths).length := by
  induction vs generalizing best steps with
  | nil => simp [heaviest]
  | cons v vs ih =>
    obtain ⟨hbest, hsteps⟩ := hfound v steps
    obtain ⟨ihbest, ihsteps⟩ := ih (max best (found v steps).1) (found v steps).2
    rw [List.foldl_cons, List.flatMap_cons, List.take_append, heaviest_append,
      List.length_append, ← Nat.sub_sub, ← hsteps]
    refine ⟨ihbest.trans ?_, ihsteps⟩
    rw [hbest, ← heaviest_max, Nat.max_zero]

end Heaviest

/-- A path stays among the vertices that the edges do not lead out of. -/
theorem chain_stays {succ : α → List α} {P : α → Prop} (hstep : ∀ x, P x → ∀ y ∈ succ x, P y) {v : α} {path : List α}
    (hv : P v) (hhead : path.head? = some v) (hchain : path.IsChain (fun a b => b ∈ succ a)) :
    ∀ x ∈ path, P x := by
  induction path generalizing v with
  | nil => cases hhead
  | cons u rest ih =>
    obtain rfl := Option.some.inj hhead
    refine List.forall_mem_cons.mpr ⟨hv, ?_⟩
    cases rest with
    | nil => exact fun x hx => nomatch hx
    | cons next rest =>
      obtain ⟨hnext, hchain⟩ := List.isChain_cons_cons.mp hchain
      exact ih (hstep u hv next hnext) rfl hchain

variable [DecidableEq α]

/-- The paths from a vertex that avoid the vertices before it, in depth-first order. -/
def pathsFrom (succ : α → List α) : Nat → List α → α → List (List α)
  | 0, _, _ => []
  | fuel + 1, before, v =>
    if v ∈ before then []
    else [v] :: ((succ v).flatMap (pathsFrom succ fuel (v :: before))).map (v :: ·)

/-- The search: the heaviest path it has seen, and the steps it has taken. -/
def search (succ : α → List α) (weight : α → Nat) (limit : Nat) :
    Nat → List α → α → Nat → Nat × Nat
  | 0, _, _, steps => (0, steps)
  | fuel + 1, before, v, steps =>
    if v ∈ before then (0, steps)
    else if steps + 1 > limit then (0, steps + 1)
    else
      let below := (succ v).foldl (fun (best : Nat × Nat) next =>
          let found := search succ weight limit fuel (v :: before) next best.2
          (max best.1 found.1, found.2)) (0, steps + 1)
      (weight v + below.1, below.2)

section Search
variable {succ : α → List α} {weight : α → Nat} {limit : Nat}

/-- The search sees as many paths as it has steps left, and uses up a step for each. -/
theorem search_eq (fuel : Nat) (before : List α) (v : α) (steps : Nat) :
    (search succ weight limit fuel before v steps).1 =
        heaviest weight 0 ((pathsFrom succ fuel before v).take (limit - steps)) ∧
      limit - (search succ weight limit fuel before v steps).2 =
        limit - steps - (pathsFrom succ fuel before v).length := by
  induction fuel generalizing before v steps with
  | zero => simp [search, pathsFrom, heaviest]
  | succ fuel ih =>
    rw [search, pathsFrom]
    split
    · simp [heaviest]
    · split
      · rename_i hlimit
        have hnone : limit - steps = 0 := by omega
        simp only [hnone, List.take_zero, Nat.zero_sub]
        exact ⟨rfl, by omega⟩
      · rename_i hlimit
        obtain ⟨hbest, hsteps⟩ := foldl_search (fun next steps => ih (v :: before) next steps)
          (succ v) 0 (steps + 1)
        have hleft : limit - steps = limit - (steps + 1) + 1 := by omega
        refine ⟨?_, ?_⟩
        · rw [hleft, List.take_succ_cons, ← List.map_take]
          show weight v + _ = heaviest weight (max 0 (weightOf weight [v])) _
          rw [hbest, ← heaviest_cons]
          simp [weightOf]
        · rw [hsteps, List.length_cons, List.length_map]
          omega

theorem mem_pathsFrom {fuel : Nat} {before : List α} {v : α} {path : List α}
    (h : path ∈ pathsFrom succ fuel before v) :
    path.head? = some v ∧ path.IsChain (fun a b => b ∈ succ a) ∧ path.Nodup ∧
      ∀ x ∈ path, x ∉ before := by
  induction fuel generalizing before v path with
  | zero => cases h
  | succ fuel ih =>
    rw [pathsFrom] at h
    split at h
    · cases h
    · rename_i hv
      rcases List.mem_cons.mp h with rfl | h
      · exact ⟨rfl, List.isChain_singleton v, List.nodup_singleton v, by simpa using hv⟩
      · obtain ⟨rest, hrest, rfl⟩ := List.mem_map.mp h
        obtain ⟨next, hnext, hrest⟩ := List.mem_flatMap.mp hrest
        obtain ⟨hhead, hchain, hnodup, havoid⟩ := ih hrest
        refine ⟨rfl, ?_, ?_, ?_⟩
        · refine List.isChain_cons.mpr ⟨?_, hchain⟩
          intro y hy
          rw [hhead] at hy
          obtain rfl := Option.some.inj hy
          exact hnext
        · exact List.nodup_cons.mpr ⟨fun hmem => havoid v hmem (by simp), hnodup⟩
        · refine List.forall_mem_cons.mpr ⟨hv, fun x hx hbefore => ?_⟩
          exact havoid x hx (List.mem_cons_of_mem v hbefore)

theorem pathsFrom_complete {fuel : Nat} {before : List α} {v : α} {path : List α}
    (hhead : path.head? = some v) (hchain : path.IsChain (fun a b => b ∈ succ a))
    (hnodup : path.Nodup) (havoid : ∀ x ∈ path, x ∉ before) (hfuel : path.length ≤ fuel) :
    path ∈ pathsFrom succ fuel before v := by
  induction fuel generalizing before v path with
  | zero =>
    rw [List.length_eq_zero_iff.mp (Nat.le_zero.mp hfuel)] at hhead
    cases hhead
  | succ fuel ih =>
    cases path with
    | nil => cases hhead
    | cons u rest =>
      obtain rfl := Option.some.inj hhead
      rw [pathsFrom, if_neg (havoid u (by simp))]
      cases rest with
      | nil => exact List.mem_cons_self
      | cons next rest =>
        obtain ⟨hstep, hchain⟩ := List.isChain_cons_cons.mp hchain
        obtain ⟨hu, hnodup⟩ := List.nodup_cons.mp hnodup
        refine List.mem_cons_of_mem _ (List.mem_map_of_mem (List.mem_flatMap.mpr ⟨next, hstep, ?_⟩))
        refine ih rfl hchain hnodup ?_ (Nat.le_of_succ_le_succ hfuel)
        intro x hx hbefore
        rcases List.mem_cons.mp hbefore with rfl | hbefore
        · exact hu hx
        · exact havoid x (List.mem_cons_of_mem _ hx) hbefore

/-- The number of paths where all successors are one vertex. -/
theorem length_pathsFrom {fuel k : Nat} {before : List α} {v w : α} (hv : v ∉ before)
    (hsucc : succ v = List.replicate k w) :
    (pathsFrom succ (fuel + 1) before v).length =
      1 + k * (pathsFrom succ fuel (v :: before) w).length := by
  rw [pathsFrom, if_neg hv, hsucc]
  simp [List.length_flatMap, Nat.add_comm]

end Search

end SimplePaths
