import Mathlib.Data.List.Nodup
import Mathlib.Data.List.Perm.Subperm

/-!
# Breadth-first order

The textbook search with a queue and a set of seen vertices, over any adjacency
function. A vertex is marked when it is queued, so it is queued once; the
vertices come out in the order in which they were marked. On a universe that
the adjacency never leaves, as many rounds as the universe has vertices are
enough: the order is then free of repetitions and closed under the adjacency.
-/

namespace Bfs

variable {α : Type*} [DecidableEq α]

/-- The vertices of `vs` that are not seen yet, each once, in order. -/
def fresh : List α → List α → List α
  | [], _ => []
  | v :: vs, seen => if v ∈ seen then fresh vs seen else v :: fresh vs (seen ++ [v])

/-- The loop: take a vertex from the queue, mark and queue its unseen
successors. The result lists the vertices taken. -/
def loop (succ : α → List α) : Nat → List α → List α → List α
  | 0, _, _ => []
  | _ + 1, [], _ => []
  | fuel + 1, v :: queue, seen =>
    v :: loop succ fuel (queue ++ fresh (succ v) seen) (seen ++ fresh (succ v) seen)

def order (succ : α → List α) (fuel : Nat) (start : α) : List α := loop succ fuel [start] [start]

theorem mem_fresh {vs seen : List α} {x : α} : x ∈ fresh vs seen ↔ x ∈ vs ∧ x ∉ seen := by
  induction vs generalizing seen with
  | nil => simp [fresh]
  | cons v vs ih =>
    by_cases hv : v ∈ seen
    · simp only [fresh, hv, if_true, ih, List.mem_cons]
      constructor
      · rintro ⟨h, hs⟩
        exact ⟨.inr h, hs⟩
      · rintro ⟨rfl | h, hs⟩
        · exact absurd hv hs
        · exact ⟨h, hs⟩
    · simp only [fresh, hv, if_false, List.mem_cons, ih, List.mem_append,
        List.not_mem_nil, or_false]
      constructor
      · rintro (rfl | ⟨h, hs⟩)
        · exact ⟨.inl rfl, hv⟩
        · exact ⟨.inr h, fun hx => hs (.inl hx)⟩
      · rintro ⟨rfl | h, hs⟩
        · exact .inl rfl
        · by_cases hxv : x = v
          · exact .inl hxv
          · exact .inr ⟨h, fun hx => hx.elim hs hxv⟩

theorem fresh_nodup (vs seen : List α) : (fresh vs seen).Nodup := by
  induction vs generalizing seen with
  | nil => exact List.nodup_nil
  | cons v vs ih =>
    rw [fresh]
    split
    · exact ih seen
    · refine List.nodup_cons.mpr ⟨?_, ih _⟩
      intro hv
      exact (mem_fresh.mp hv).2 (by simp)

theorem append_fresh_nodup {seen : List α} (vs : List α) (h : seen.Nodup) :
    (seen ++ fresh vs seen).Nodup := by
  refine List.nodup_append.mpr ⟨h, fresh_nodup vs seen, ?_⟩
  rintro x hx y hy rfl
  exact (mem_fresh.mp hy).2 hx

/-- What the loop keeps: the seen vertices are those taken followed by those
queued, without repetition and inside the universe, and the successors of
every vertex taken are seen. -/
structure Inv (succ : α → List α) (univ taken queue : List α) : Prop where
  nodup : (taken ++ queue).Nodup
  inside : ∀ x ∈ taken ++ queue, x ∈ univ
  closed : ∀ x ∈ taken, ∀ y ∈ succ x, y ∈ taken ++ queue

section
variable {succ : α → List α} {univ : List α} (hsucc : ∀ x ∈ univ, ∀ y ∈ succ x, y ∈ univ)
include hsucc

theorem Inv.step {taken queue : List α} {v : α} (h : Inv succ univ taken (v :: queue)) :
    Inv succ univ (taken ++ [v]) (queue ++ fresh (succ v) (taken ++ v :: queue)) := by
  have happ : taken ++ [v] ++ (queue ++ fresh (succ v) (taken ++ v :: queue))
      = taken ++ v :: queue ++ fresh (succ v) (taken ++ v :: queue) := by simp
  refine ⟨?_, ?_, ?_⟩
  · rw [happ]
    exact append_fresh_nodup _ h.nodup
  · rw [happ]
    intro x hx
    rcases List.mem_append.mp hx with hx | hx
    · exact h.inside x hx
    · exact hsucc v (h.inside v (by simp)) x (mem_fresh.mp hx).1
  · rw [happ]
    intro x hx y hy
    rcases List.mem_append.mp hx with hx | hx
    · exact List.mem_append_left _ (h.closed x hx y hy)
    · obtain rfl := List.mem_singleton.mp hx
      by_cases hseen : y ∈ taken ++ x :: queue
      · exact List.mem_append_left _ hseen
      · exact List.mem_append_right _ (mem_fresh.mpr ⟨hy, hseen⟩)

/-- With a round for every vertex not taken yet, the loop empties its queue. -/
theorem loop_inv (fuel : Nat) (taken queue : List α) (h : Inv succ univ taken queue)
    (hfuel : univ.length ≤ fuel + taken.length) :
    Inv succ univ (taken ++ loop succ fuel queue (taken ++ queue)) [] := by
  induction fuel generalizing taken queue with
  | zero =>
    have hlen : (taken ++ queue).length ≤ univ.length :=
      (List.subperm_of_subset h.nodup (fun x hx => h.inside x hx)).length_le
    have hqueue : queue = [] := by
      have : queue.length = 0 := by
        rw [List.length_append] at hlen
        omega
      exact List.length_eq_zero_iff.mp this
    subst hqueue
    simpa [loop] using h
  | succ fuel ih =>
    cases queue with
    | nil => simpa [loop] using h
    | cons v queue =>
      have hnext := ih (taken ++ [v]) _ (h.step hsucc) (by simp; omega)
      simpa [loop] using hnext

section Fuel
variable {fuel : Nat} {start : α} (hstart : start ∈ univ) (hfuel : univ.length ≤ fuel)
include hstart hfuel

theorem order_inv : Inv succ univ (order succ fuel start) [] := by
  have hinit : Inv succ univ [] [start] :=
    ⟨by simp, by simpa using hstart, by simp⟩
  have hend := loop_inv hsucc fuel [] [start] hinit (by simpa using hfuel)
  simpa [order] using hend

theorem order_nodup : (order succ fuel start).Nodup := by
  simpa using (order_inv hsucc hstart hfuel).nodup

theorem order_closed {x y : α} (hx : x ∈ order succ fuel start) (hy : y ∈ succ x) :
    y ∈ order succ fuel start := by
  simpa using (order_inv hsucc hstart hfuel).closed x hx y hy

theorem order_inside {x : α} (hx : x ∈ order succ fuel start) : x ∈ univ :=
  (order_inv hsucc hstart hfuel).inside x (by simpa using hx)

end Fuel

omit hsucc in
theorem start_mem_order {fuel : Nat} {start : α} (hfuel : 0 < fuel) :
    start ∈ order succ fuel start := by
  obtain ⟨n, rfl⟩ := Nat.exists_eq_succ_of_ne_zero (Nat.pos_iff_ne_zero.mp hfuel)
  simp [order, loop]

end

end Bfs
