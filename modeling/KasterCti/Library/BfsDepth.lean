import KasterCti.Library.Bfs
import Mathlib.Logic.Relation

/-!
# Distances by breadth-first search

The search that writes down the depth at which it meets a vertex. The queue is in the order
of the depths and never spans more than two of them, so a vertex is met along a shortest
path.
-/

namespace Bfs

variable {α : Type*}

/-- A path of so many edges from `start`. -/
def Path (r : α → α → Prop) (start : α) : Nat → α → Prop
  | 0, v => v = start
  | n + 1, v => ∃ u, Path r start n u ∧ r u v

/-- The length of a shortest path from `start`. -/
def IsDistance (r : α → α → Prop) (start : α) (n : Nat) (v : α) : Prop :=
  Path r start n v ∧ ∀ m, Path r start m v → n ≤ m

variable [DecidableEq α]

/-- The loop of `loop` with the depths of the seen vertices. -/
def depthLoop (succ : α → List α) : Nat → List α → List (α × Nat) → List (α × Nat)
  | 0, _, depths => depths
  | _ + 1, [], depths => depths
  | fuel + 1, v :: queue, depths =>
    let depth := (depths.lookup v).getD 0
    let found := (fresh (succ v) (depths.map Prod.fst)).map (fun u => (u, depth + 1))
    depthLoop succ fuel (queue ++ found.map Prod.fst) (depths ++ found)

theorem lookup_of_mem {depths : List (α × Nat)} (hnodup : (depths.map Prod.fst).Nodup)
    {v : α} {d : Nat} (h : (v, d) ∈ depths) : depths.lookup v = some d := by
  induction depths with
  | nil => cases h
  | cons entry depths ih =>
    obtain ⟨hentry, hnodup⟩ := List.nodup_cons.mp hnodup
    rcases List.mem_cons.mp h with rfl | h
    · simp
    · have hne : v ≠ entry.1 := by
        rintro rfl
        exact hentry (List.mem_map.mpr ⟨_, h, rfl⟩)
      rw [List.lookup_cons, beq_false_of_ne hne]
      exact ih hnodup h

/-- What the loop keeps about the depths of the vertices taken and waiting. -/
structure DepthInv (succ : α → List α) (univ : List α) (start : α)
    (taken waiting : List (α × Nat)) : Prop where
  seen : Inv succ univ (taken.map Prod.fst) (waiting.map Prod.fst)
  begun : (start, 0) ∈ taken ++ waiting
  path : ∀ entry ∈ taken ++ waiting, Path (fun a b => b ∈ succ a) start entry.2 entry.1
  sorted : waiting.Pairwise (fun a b => a.2 ≤ b.2)
  spread : ∀ head ∈ waiting.head?, ∀ entry ∈ taken ++ waiting, entry.2 ≤ head.2 + 1
  near : ∀ entry ∈ taken, ∀ y ∈ succ entry.1, ∃ d, d ≤ entry.2 + 1 ∧ (y, d) ∈ taken ++ waiting

section
variable {succ : α → List α} {univ : List α} (hsucc : ∀ x ∈ univ, ∀ y ∈ succ x, y ∈ univ)
  {start : α}
include hsucc

theorem DepthInv.step {taken waiting : List (α × Nat)} {v : α} {d : Nat}
    (h : DepthInv succ univ start taken ((v, d) :: waiting)) :
    DepthInv succ univ start (taken ++ [(v, d)]) (waiting ++
      (fresh (succ v) ((taken ++ (v, d) :: waiting).map Prod.fst)).map (fun u => (u, d + 1))) := by
  have hmem : ∀ entry, entry ∈ taken ++ [(v, d)] ++ (waiting ++
      (fresh (succ v) ((taken ++ (v, d) :: waiting).map Prod.fst)).map (fun u => (u, d + 1))) ↔
      entry ∈ taken ++ (v, d) :: waiting ∨
        entry.2 = d + 1 ∧ entry.1 ∈ fresh (succ v) ((taken ++ (v, d) :: waiting).map Prod.fst) := by
    rintro ⟨u, e⟩
    simp [or_assoc, and_comm, eq_comm]
  have hspread := h.spread (v, d) rfl
  refine ⟨?_, (hmem _).mpr (.inl h.begun), ?_, ?_, ?_, ?_⟩
  · simpa [Function.comp_def] using h.seen.step hsucc
  · intro entry hentry
    rcases (hmem entry).mp hentry with hentry | ⟨hdepth, hfresh⟩
    · exact h.path entry hentry
    · rw [hdepth]
      exact ⟨v, h.path (v, d) (by simp), (mem_fresh.mp hfresh).1⟩
  · refine List.pairwise_append.mpr ⟨(List.pairwise_cons.mp h.sorted).2, ?_, ?_⟩
    · exact List.pairwise_map.mpr (List.pairwise_of_forall (fun _ _ => Nat.le_refl _))
    · intro a ha b hb
      obtain ⟨u, _, rfl⟩ := List.mem_map.mp hb
      exact hspread a (by simp [ha])
  · intro head hhead entry hentry
    -- the next vertex is at least as deep as the one taken
    have hdeep : d ≤ head.2 := by
      cases waiting with
      | nil =>
        obtain ⟨u, _, rfl⟩ := List.mem_map.mp (List.mem_of_mem_head? hhead)
        exact Nat.le_succ d
      | cons w waiting =>
        obtain rfl := Option.some.inj hhead
        exact (List.pairwise_cons.mp h.sorted).1 w (by simp)
    rcases (hmem entry).mp hentry with hentry | ⟨hdepth, _⟩
    · exact Nat.le_trans (hspread entry hentry) (Nat.succ_le_succ hdeep)
    · exact hdepth ▸ Nat.succ_le_succ hdeep
  · intro entry hentry y hy
    rcases List.mem_append.mp hentry with hentry | hentry
    · obtain ⟨e, hle, hfound⟩ := h.near entry hentry y hy
      exact ⟨e, hle, (hmem _).mpr (.inl hfound)⟩
    · obtain rfl := List.mem_singleton.mp hentry
      by_cases hseen : y ∈ (taken ++ (v, d) :: waiting).map Prod.fst
      · obtain ⟨⟨_, e⟩, hfound, rfl⟩ := List.mem_map.mp hseen
        exact ⟨e, hspread _ hfound, (hmem _).mpr (.inl hfound)⟩
      · exact ⟨d + 1, Nat.le_refl _, (hmem _).mpr (.inr ⟨rfl, mem_fresh.mpr ⟨hy, hseen⟩⟩)⟩

theorem depthLoop_inv (fuel : Nat) {taken waiting : List (α × Nat)}
    (h : DepthInv succ univ start taken waiting) (hfuel : univ.length ≤ fuel + taken.length) :
    DepthInv succ univ start
      (depthLoop succ fuel (waiting.map Prod.fst) (taken ++ waiting)) [] := by
  induction fuel generalizing taken waiting with
  | zero =>
    have hlen := (List.subperm_of_subset h.seen.nodup (fun x hx => h.seen.inside x hx)).length_le
    have hwaiting : waiting = [] := by
      rw [List.length_append, List.length_map, List.length_map] at hlen
      exact List.length_eq_zero_iff.mp (by omega)
    subst hwaiting
    simpa [depthLoop] using h
  | succ fuel ih =>
    cases waiting with
    | nil => simpa [depthLoop] using h
    | cons head waiting =>
      obtain ⟨v, d⟩ := head
      have hlookup : (taken ++ (v, d) :: waiting).lookup v = some d :=
        lookup_of_mem (by simpa using h.seen.nodup) (by simp)
      have hnext := ih (h.step hsucc) (by simp; omega)
      rw [List.map_cons, depthLoop, hlookup, Option.getD_some]
      simpa using hnext

/-- The depths that the search writes down are the distances from its start. -/
theorem mem_depthLoop_iff {fuel : Nat} (hstart : start ∈ univ) (hfuel : univ.length ≤ fuel)
    {v : α} {d : Nat} :
    (v, d) ∈ depthLoop succ fuel [start] [(start, 0)] ↔
      IsDistance (fun a b => b ∈ succ a) start d v := by
  have hinit : DepthInv succ univ start [] [(start, 0)] := by
    refine ⟨⟨by simp, by simpa using hstart, by simp⟩, by simp, ?_, by simp, by simp, by simp⟩
    intro entry hentry
    obtain rfl := List.mem_singleton.mp hentry
    rfl
  have hend := depthLoop_inv hsucc fuel hinit (by simpa using hfuel)
  simp only [List.map_cons, List.map_nil, List.nil_append] at hend
  generalize depthLoop succ fuel [start] [(start, 0)] = depths at hend ⊢
  -- by induction on the path: a path of `n` edges ends at a vertex of depth at most `n`
  have hshort : ∀ n v, Path (fun a b => b ∈ succ a) start n v → ∃ e, e ≤ n ∧ (v, e) ∈ depths := by
    intro n
    induction n with
    | zero => exact fun v hv => ⟨0, Nat.le_refl _, by simpa [show v = start from hv] using hend.begun⟩
    | succ n ih =>
      rintro v ⟨u, hpath, hstep⟩
      obtain ⟨e, hle, hmem⟩ := ih u hpath
      obtain ⟨e', hle', hmem'⟩ := hend.near (u, e) hmem v hstep
      exact ⟨e', Nat.le_trans hle' (Nat.succ_le_succ hle), by simpa using hmem'⟩
  have hnodup : (depths.map Prod.fst).Nodup := by simpa using hend.seen.nodup
  have hunique : ∀ e, (v, d) ∈ depths → (v, e) ∈ depths → d = e := fun e hd he =>
    Option.some.inj ((lookup_of_mem hnodup hd).symm.trans (lookup_of_mem hnodup he))
  constructor
  · intro hmem
    refine ⟨hend.path (v, d) (by simpa using hmem), fun m hm => ?_⟩
    obtain ⟨e, hle, he⟩ := hshort m v hm
    exact hunique e hmem he ▸ hle
  · rintro ⟨hpath, hmin⟩
    obtain ⟨e, hle, he⟩ := hshort d v hpath
    have hpath' := hend.path (v, e) (by simpa using he)
    obtain rfl := Nat.le_antisymm (hmin e hpath') hle
    exact he

end

/-- What holds of the start and is handed on along the edges holds of every vertex taken. -/
theorem mem_loop {succ : α → List α} {P : α → Prop} (hstep : ∀ x, P x → ∀ y ∈ succ x, P y)
    (fuel : Nat) {queue seen : List α} (hqueue : ∀ x ∈ queue, P x) :
    ∀ x ∈ loop succ fuel queue seen, P x := by
  induction fuel generalizing queue seen with
  | zero => exact fun x hx => nomatch hx
  | succ fuel ih =>
    cases queue with
    | nil => exact fun x hx => nomatch hx
    | cons v queue =>
      have hv := hqueue v (by simp)
      intro x hx
      rcases List.mem_cons.mp hx with rfl | hx
      · exact hv
      · refine ih ?_ x hx
        intro y hy
        rcases List.mem_append.mp hy with hy | hy
        · exact hqueue y (by simp [hy])
        · exact hstep v hv y (mem_fresh.mp hy).1

/-- The search takes exactly the vertices that a path leads to. -/
theorem mem_order_iff {succ : α → List α} {univ : List α}
    (hsucc : ∀ x ∈ univ, ∀ y ∈ succ x, y ∈ univ) {start : α} {fuel : Nat} (hstart : start ∈ univ)
    (hfuel : univ.length ≤ fuel) {x : α} :
    x ∈ order succ fuel start ↔ Relation.ReflTransGen (fun a b => b ∈ succ a) start x := by
  constructor
  · refine fun hx => mem_loop (fun u hu y hy => hu.tail hy) fuel ?_ x hx
    intro y hy
    obtain rfl := List.mem_singleton.mp hy
    exact .refl
  · intro hpath
    induction hpath with
    | refl => exact start_mem_order (Nat.lt_of_lt_of_le (List.length_pos_of_mem hstart) hfuel)
    | tail _ hstep ih => exact order_closed hsucc hstart hfuel ih hstep

end Bfs
