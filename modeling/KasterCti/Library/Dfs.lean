import Mathlib.Data.List.Nodup
import Mathlib.Data.List.Perm.Subperm
import Mathlib.Logic.Relation

/-!
# Cycles by depth-first search

The walk with three colours, over any adjacency function: the vertices on the current
path, the vertices that are finished, and the vertices that are neither. Some vertices are
passed over, as if they were not in the graph. A vertex of the path that is met again is
reported. On a universe that the adjacency never leaves, a walk from every vertex reports
one exactly if a cycle is left among the vertices that are not passed over.
-/

namespace Dfs

variable {α : Type*}

structure Walk (α : Type*) where
  visiting : List α
  visited : List α
  reported : List α

/-- The edges of the graph without the vertices that are passed over. -/
def Edge (succ : α → List α) (skip : α → Bool) (a b : α) : Prop :=
  skip a = false ∧ skip b = false ∧ b ∈ succ a

/-- The edges out of a finished vertex lead to vertices that were finished before it. -/
def Finished (succ : α → List α) (skip : α → Bool) : List α → Prop
  | [] => True
  | v :: vs => (∀ y, Edge succ skip v y → y ∈ vs) ∧ Finished succ skip vs

section
variable {succ : α → List α} {skip : α → Bool}

theorem Finished.closed {vs : List α} (h : Finished succ skip vs) {x y : α} (hx : x ∈ vs)
    (hxy : Edge succ skip x y) : y ∈ vs := by
  induction vs with
  | nil => cases hx
  | cons v vs ih =>
    rcases List.mem_cons.mp hx with rfl | hx
    · exact List.mem_cons_of_mem _ (h.1 y hxy)
    · exact List.mem_cons_of_mem _ (ih h.2 hx)

theorem Finished.path {vs : List α} (h : Finished succ skip vs) {x y : α} (hx : x ∈ vs)
    (hxy : Relation.ReflTransGen (Edge succ skip) x y) : y ∈ vs := by
  induction hxy with
  | refl => exact hx
  | tail _ hstep ih => exact h.closed ih hstep

theorem Finished.acyclic {vs : List α} (h : Finished succ skip vs) (hnodup : vs.Nodup) {x : α}
    (hx : x ∈ vs) : ¬ Relation.TransGen (Edge succ skip) x x := by
  induction vs with
  | nil => cases hx
  | cons v vs ih =>
    obtain ⟨hv, hnodup⟩ := List.nodup_cons.mp hnodup
    rcases List.mem_cons.mp hx with rfl | hx
    · intro hcycle
      obtain ⟨y, hstep, hback⟩ := Relation.TransGen.head'_iff.mp hcycle
      exact hv (h.2.path (h.1 y hstep) hback)
    · exact ih h.2 hnodup hx

end

/-- What the walk keeps. The path is a path of the graph, so whatever is reported lies on a
cycle; as long as nothing is, the finished vertices are in order. -/
structure Inv (succ : α → List α) (skip : α → Bool) (univ : List α) (w : Walk α) : Prop where
  nodup : w.visiting.Nodup
  inside : ∀ x ∈ w.visiting, x ∈ univ
  kept : ∀ x ∈ w.visiting, skip x = false
  path : w.visiting.Pairwise (fun later earlier => Relation.TransGen (Edge succ skip) earlier later)
  apart : ∀ x ∈ w.visiting, x ∉ w.visited
  once : w.visited.Nodup
  finished : w.reported = [] → Finished succ skip w.visited
  sound : ∀ x ∈ w.reported, x ∈ univ ∧ Relation.TransGen (Edge succ skip) x x

/-- A vertex that needs no more visit, unless something has been reported. -/
def Walk.Done (skip : α → Bool) (w : Walk α) (v : α) : Prop :=
  w.reported = [] → skip v = false → v ∈ w.visited

/-- What a walk does to the state besides keeping the invariant. -/
structure Grown (w w' : Walk α) : Prop where
  visiting : w'.visiting = w.visiting
  visited : w.visited ⊆ w'.visited
  reported : w'.reported = [] → w.reported = []

theorem Grown.refl (w : Walk α) : Grown w w := ⟨rfl, fun _ h => h, id⟩

theorem Grown.trans {a b c : Walk α} (h : Grown a b) (h' : Grown b c) : Grown a c :=
  ⟨h'.visiting.trans h.visiting, fun _ hx => h'.visited (h.visited hx),
    fun hc => h.reported (h'.reported hc)⟩

theorem Grown.done {skip : α → Bool} {w w' : Walk α} (h : Grown w w') {v : α}
    (hv : w.Done skip v) : w'.Done skip v :=
  fun hr hs => h.visited (hv (h.reported hr) hs)

section
variable {succ : α → List α} {skip : α → Bool} {univ : List α}

variable {w : Walk α}

/-- A loop of walks over the vertices of a list. -/
theorem foldl_walk (f : Walk α → α → Walk α) (path vs : List α)
    (hf : ∀ w, ∀ v ∈ vs, Inv succ skip univ w → w.visiting = path →
      Inv succ skip univ (f w v) ∧ Grown w (f w v) ∧ (f w v).Done skip v)
    (hw : Inv succ skip univ w) (hpath : w.visiting = path) :
    Inv succ skip univ (vs.foldl f w) ∧ Grown w (vs.foldl f w) ∧
      ∀ v ∈ vs, (vs.foldl f w).Done skip v := by
  induction vs generalizing w with
  | nil => exact ⟨hw, Grown.refl w, fun v hv => nomatch hv⟩
  | cons v vs ih =>
    obtain ⟨hinv, hgrown, hdone⟩ := hf w v (by simp) hw hpath
    obtain ⟨hinv', hgrown', hdone'⟩ := ih (fun w x hx => hf w x (List.mem_cons_of_mem _ hx)) hinv
      (hgrown.visiting.trans hpath)
    refine ⟨hinv', hgrown.trans hgrown', ?_⟩
    intro x hx
    rcases List.mem_cons.mp hx with rfl | hx
    · exact hgrown'.done hdone
    · exact hdone' x hx

section Next
variable (h : Inv succ skip univ w) {v : α} (hv : skip v = false)
  (hnext : ∀ u ∈ w.visiting.head?, v ∈ succ u)
include h hv hnext

/-- The path to a vertex that follows its head. -/
theorem Inv.reaches {x : α} (hx : x ∈ w.visiting) :
    Relation.TransGen (Edge succ skip) x v := by
  obtain ⟨path, visited, reported⟩ := w
  cases path with
  | nil => cases hx
  | cons u path =>
    have hstep : Edge succ skip u v := ⟨h.kept u (by simp), hv, hnext u rfl⟩
    rcases List.mem_cons.mp hx with rfl | hx
    · exact .single hstep
    · exact ((List.pairwise_cons.mp h.path).1 x hx).tail hstep

theorem Inv.report (hmem : v ∈ w.visiting) :
    Inv succ skip univ { w with reported := w.reported ++ [v] } where
  nodup := h.nodup
  inside := h.inside
  kept := h.kept
  path := h.path
  apart := h.apart
  once := h.once
  finished := fun hr => absurd hr (by simp)
  sound := by
    intro x hx
    rcases List.mem_append.mp hx with hx | hx
    · exact h.sound x hx
    · obtain rfl := List.mem_singleton.mp hx
      exact ⟨h.inside x hmem, h.reaches hv hnext hmem⟩

theorem Inv.push (huniv : v ∈ univ) (hvisited : v ∉ w.visited) (hmem : v ∉ w.visiting) :
    Inv succ skip univ { w with visiting := v :: w.visiting } where
  nodup := List.nodup_cons.mpr ⟨hmem, h.nodup⟩
  inside := List.forall_mem_cons.mpr ⟨huniv, h.inside⟩
  kept := List.forall_mem_cons.mpr ⟨hv, h.kept⟩
  path := List.pairwise_cons.mpr ⟨fun _ hx => h.reaches hv hnext hx, h.path⟩
  apart := List.forall_mem_cons.mpr ⟨hvisited, h.apart⟩
  once := h.once
  finished := h.finished
  sound := h.sound

end Next

theorem Inv.pop {v : α} {path : List α} (h : Inv succ skip univ w) (hpath : w.visiting = v :: path)
    (hdone : ∀ y ∈ succ v, w.Done skip y) :
    Inv succ skip univ ⟨path, v :: w.visited, w.reported⟩ := by
  have hnodup := hpath ▸ h.nodup
  have hmem : ∀ x ∈ path, x ∈ w.visiting := fun x hx => hpath ▸ List.mem_cons_of_mem v hx
  refine ⟨(List.nodup_cons.mp hnodup).2, fun x hx => h.inside x (hmem x hx),
    fun x hx => h.kept x (hmem x hx), (List.pairwise_cons.mp (hpath ▸ h.path)).2, ?_, ?_, ?_,
    h.sound⟩
  · intro x hx hvisited
    rcases List.mem_cons.mp hvisited with rfl | hvisited
    · exact (List.nodup_cons.mp hnodup).1 hx
    · exact h.apart x (hmem x hx) hvisited
  · exact List.nodup_cons.mpr ⟨h.apart v (by simp [hpath]), h.once⟩
  · exact fun hr => ⟨fun y hy => hdone y hy.2.2 hr hy.2.1, h.finished hr⟩

end

variable [DecidableEq α]

def walk (succ : α → List α) (skip : α → Bool) : Nat → α → Walk α → Walk α
  | 0, _, w => w
  | fuel + 1, v, w =>
    if skip v || v ∈ w.visited then w
    else if v ∈ w.visiting then
      if v ∈ w.reported then w else { w with reported := w.reported ++ [v] }
    else
      let inside := (succ v).foldl (fun w next => walk succ skip fuel next w)
        { w with visiting := v :: w.visiting }
      { inside with
        visiting := inside.visiting.filter (· ≠ v)
        visited := v :: inside.visited }

theorem filter_head {v : α} {path : List α} (h : (v :: path).Nodup) :
    (v :: path).filter (· ≠ v) = path := by
  obtain ⟨hv, _⟩ := List.nodup_cons.mp h
  rw [List.filter_cons_of_neg (by simp), List.filter_eq_self]
  intro x hx
  simp only [decide_eq_true_eq]
  rintro rfl
  exact hv hx

section
variable {succ : α → List α} {skip : α → Bool} {univ : List α}
  (hsucc : ∀ x ∈ univ, ∀ y ∈ succ x, y ∈ univ)
include hsucc

/-- With more rounds than vertices off the path, a walk finishes its vertex or reports. -/
theorem walk_inv (fuel : Nat) {v : α} {w : Walk α} (h : Inv succ skip univ w) (hv : v ∈ univ)
    (hnext : ∀ u ∈ w.visiting.head?, v ∈ succ u)
    (hfuel : univ.length < fuel + w.visiting.length) :
    Inv succ skip univ (walk succ skip fuel v w) ∧ Grown w (walk succ skip fuel v w) ∧
      (walk succ skip fuel v w).Done skip v := by
  induction fuel generalizing v w with
  | zero =>
    have hlen : w.visiting.length ≤ univ.length :=
      (List.subperm_of_subset h.nodup h.inside).length_le
    omega
  | succ fuel ih =>
    rw [walk]
    split
    · rename_i hskip
      refine ⟨h, Grown.refl w, fun _ hs => ?_⟩
      simpa [hs] using hskip
    · rename_i hskip
      rw [Bool.or_eq_true, decide_eq_true_eq, not_or, Bool.not_eq_true] at hskip
      obtain ⟨hskip, hvisited⟩ := hskip
      split
      · rename_i hmem
        split
        · rename_i hreported
          refine ⟨h, Grown.refl w, fun hr _ => ?_⟩
          rw [hr] at hreported
          cases hreported
        · exact ⟨h.report hskip hnext hmem,
            ⟨rfl, fun _ hx => hx, fun hr => absurd hr (by simp)⟩,
            fun hr _ => absurd hr (by simp)⟩
      · rename_i hmem
        have hpush := h.push hskip hnext hv hvisited hmem
        -- the successors are walked from a path that is one longer
        obtain ⟨hinv, hgrown, hdone⟩ := foldl_walk _ (v :: w.visiting) (succ v)
          (fun w' y hy hw' hpath => ih hw' (hsucc v hv y hy)
            (by simpa [hpath] using hy) (by simp [hpath]; omega)) hpush rfl
        have hfilter := filter_head (hgrown.visiting ▸ hinv.nodup)
        have hpop := hinv.pop hgrown.visiting hdone
        simp only [hgrown.visiting, hfilter]
        refine ⟨hpop, ⟨rfl, fun x hx => List.mem_cons_of_mem _ (hgrown.visited hx),
          hgrown.reported⟩, fun _ _ => List.mem_cons_self⟩

/-- The walks from every vertex report one exactly if there is a cycle. -/
theorem walk_reports_iff {fuel : Nat} (hfuel : univ.length < fuel) :
    (univ.foldl (fun w v => walk succ skip fuel v w) ⟨[], [], []⟩).reported ≠ [] ↔
      ∃ v ∈ univ, Relation.TransGen (Edge succ skip) v v := by
  have hinit : Inv succ skip univ (⟨[], [], []⟩ : Walk α) :=
    ⟨by simp, by simp, by simp, by simp, by simp, by simp, fun _ => trivial, by simp⟩
  obtain ⟨hinv, _, hdone⟩ := foldl_walk (fun w v => walk succ skip fuel v w) [] univ
    (fun w v hv hw hpath => walk_inv hsucc fuel hw hv (by simp [hpath])
      (by rw [hpath]; simpa using hfuel)) hinit rfl
  constructor
  · intro hreported
    obtain ⟨v, hv⟩ := List.exists_mem_of_ne_nil _ hreported
    exact ⟨v, hinv.sound v hv⟩
  · rintro ⟨v, hv, hcycle⟩ hreported
    have hskip : skip v = false := by
      obtain ⟨y, hstep, _⟩ := Relation.TransGen.head'_iff.mp hcycle
      exact hstep.1
    exact (hinv.finished hreported).acyclic hinv.once (hdone v hv hreported hskip) hcycle

end

end Dfs
