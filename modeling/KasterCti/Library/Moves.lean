import Mathlib.Data.List.Induction
import Mathlib.Data.List.Pairwise
import Mathlib.Logic.Function.Basic

/-!
# Moving the values of a store

A move reads the value under a source, writes an encoding of it under a target and deletes
the source. A list of moves keeps a value when it can be read back under its target behind
every later one.

Results:
1. `source_present`: the source of a move that is still to come is there.
2. `encoded_of_separate`: under its target stands an encoding of the value.
3. `kept_iff`: every value is kept exactly when the moves are separate.
-/

namespace Moves

variable {K V : Type*} [DecidableEq K]

structure Move (K V : Type*) where
  source : K
  target : K
  encode : V → V

/-- Nothing is moved where nothing is found. -/
def step (store : K → Option V) (m : Move K V) : K → Option V :=
  match store m.source with
  | none => store
  | some value =>
    Function.update (Function.update store m.target (some (m.encode value))) m.source none

def after (store : K → Option V) (moves : List (Move K V)) : K → Option V := moves.foldl step store

/-- Every value that was moved can be read under its target. -/
def Kept (read : V → Option V) (store : K → Option V) (moves : List (Move K V)) : Prop :=
  ∀ m ∈ moves, ∀ value, store m.source = some value →
    (after store moves m.target).bind read = some value

/-- No target is the source of the same or a later move, and moves to one target move one
value. -/
def Separate (store : K → Option V) (moves : List (Move K V)) : Prop :=
  (∀ m ∈ moves, m.target ≠ m.source) ∧ moves.Pairwise fun m n =>
    m.target ≠ n.source ∧ (m.target = n.target → store m.source = store n.source)

variable {store : K → Option V} {moves before : List (Move K V)} {m n : Move K V} {value : V}
  {key : K} {read : V → Option V}

theorem after_concat : after store (moves ++ [m]) = step (after store moves) m := by
  rw [after, List.foldl_append]
  rfl

theorem step_source : step store m m.source = none := by
  cases h : store m.source with
  | none =>
    simp only [step, h]
  | some value =>
    simp only [step, h]
    exact Function.update_self ..

theorem step_target (h : store m.source = some value) (hne : m.target ≠ m.source) :
    step store m m.target = some (m.encode value) := by
  rw [step, h]
  simp only [Function.update_of_ne hne, Function.update_self]

theorem step_other (hsource : key ≠ m.source) (htarget : key ≠ m.target) :
    step store m key = store key := by
  cases h : store m.source with
  | none => simp only [step, h]
  | some value =>
    simp only [step, h]
    rw [Function.update_of_ne hsource, Function.update_of_ne htarget]

/-- Only its own move deletes a source. -/
theorem source_present (hpresent : (store n.source).isSome)
    (hdistinct : ∀ m ∈ moves, m.source ≠ n.source) : (after store moves n.source).isSome := by
  induction moves using List.reverseRecOn with
  | nil => exact hpresent
  | append_singleton moves m ih =>
    have hbefore := ih fun k hk => hdistinct k (List.mem_append_left _ hk)
    have hne : n.source ≠ m.source := (hdistinct m (List.mem_append_right _ List.mem_cons_self)).symm
    rw [after_concat]
    by_cases htarget : n.source = m.target
    · cases h : after store moves m.source with
      | none =>
        simp only [step, h]
        exact hbefore
      | some value =>
        simp only [step, h]
        rw [Function.update_of_ne hne, htarget, Function.update_self]
        rfl
    · rw [step_other hne htarget]
      exact hbefore

/-- A source that no move writes to or deletes. -/
theorem source_unchanged (h : ∀ m ∈ moves, n.source ≠ m.source ∧ n.source ≠ m.target) :
    after store moves n.source = store n.source := by
  induction moves using List.reverseRecOn with
  | nil => rfl
  | append_singleton moves m ih =>
    obtain ⟨hsource, htarget⟩ := h m (List.mem_append_right _ List.mem_cons_self)
    rw [after_concat, step_other hsource htarget]
    exact ih fun k hk => h k (List.mem_append_left _ hk)

/-- Under the target of a move stands the value, as one of the moves has encoded it. -/
theorem encoded_of_separate (hsources : moves.Pairwise fun m n => m.source ≠ n.source)
    (hseparate : Separate store moves) :
    ∀ m ∈ moves, ∀ value, store m.source = some value → ∃ n ∈ moves,
      store n.source = some value ∧ after store moves m.target = some (n.encode value) := by
  induction moves using List.reverseRecOn with
  | nil => simp
  | append_singleton moves last ih =>
    obtain ⟨hown, hpairs⟩ := hseparate
    obtain ⟨hpairs', -, hlast⟩ := List.pairwise_append.mp hpairs
    obtain ⟨hsources', -, hdistinct⟩ := List.pairwise_append.mp hsources
    have hmem : last ∈ moves ++ [last] := List.mem_append_right _ List.mem_cons_self
    have hbefore := ih hsources' ⟨fun k hk => hown k (List.mem_append_left _ hk), hpairs'⟩
    -- the last move finds what stood under its source at first
    have hfound : after store moves last.source = store last.source :=
      source_unchanged fun k hk => ⟨(hdistinct k hk last List.mem_cons_self).symm,
        (hlast k hk last List.mem_cons_self).1.symm⟩
    intro m hm value hvalue
    rw [after_concat]
    rcases List.mem_append.mp hm with hm | hm
    · obtain ⟨hsource, hsame⟩ := hlast m hm last List.mem_cons_self
      by_cases htarget : m.target = last.target
      · have hvalue' : store last.source = some value := (hsame htarget).symm.trans hvalue
        refine ⟨last, hmem, hvalue', ?_⟩
        rw [htarget, step_target (hfound.trans hvalue') (hown last hmem)]
      · obtain ⟨n, hn, hn', hafter⟩ := hbefore m hm value hvalue
        exact ⟨n, List.mem_append_left _ hn, hn', (step_other hsource htarget).trans hafter⟩
    · obtain rfl := List.mem_singleton.mp hm
      exact ⟨m, hmem, hvalue, step_target (hfound.trans hvalue) (hown m hmem)⟩

omit [DecidableEq K] in
theorem Separate.take (h : Separate store (before ++ moves)) : Separate store before :=
  ⟨fun m hm => h.1 m (List.mem_append_left _ hm), (List.pairwise_append.mp h.2).1⟩

/-- Where every prefix of the moves keeps its values, the moves are separate. -/
theorem separate_of_kept (hsources : moves.Pairwise fun m n => m.source ≠ n.source)
    (hpresent : ∀ m ∈ moves, (store m.source).isSome)
    (hkept : ∀ pre post, moves = pre ++ post → Kept read store pre) : Separate store moves := by
  induction moves using List.reverseRecOn with
  | nil => exact ⟨by simp, List.Pairwise.nil⟩
  | append_singleton moves last ih =>
    obtain ⟨hsources', -, hdistinct⟩ := List.pairwise_append.mp hsources
    have hmem : last ∈ moves ++ [last] := List.mem_append_right _ List.mem_cons_self
    obtain ⟨hown, hpairs⟩ := ih hsources' (fun k hk => hpresent k (List.mem_append_left _ hk))
      fun pre post hsplit => hkept pre (post ++ [last]) (by rw [hsplit, List.append_assoc])
    have hall := hkept (moves ++ [last]) [] (List.append_nil _).symm
    have hdeleted : after store (moves ++ [last]) last.source = none := by
      rw [after_concat]
      exact step_source
    -- what is deleted is kept under no target
    have htarget : ∀ m ∈ moves ++ [last], m.target ≠ last.source := by
      intro m hm heq
      obtain ⟨value, hvalue⟩ := Option.isSome_iff_exists.mp (hpresent m hm)
      have hread := hall m hm value hvalue
      rw [heq, hdeleted] at hread
      cases hread
    refine ⟨?_, List.pairwise_append.mpr ⟨hpairs, List.pairwise_singleton .., ?_⟩⟩
    · intro m hm
      rcases List.mem_append.mp hm with hm' | hm'
      · exact hown m hm'
      · obtain rfl := List.mem_singleton.mp hm'
        exact htarget m hm
    · intro m hm n hn
      obtain rfl := List.mem_singleton.mp hn
      refine ⟨htarget m (List.mem_append_left _ hm), fun heq => ?_⟩
      obtain ⟨value, hvalue⟩ := Option.isSome_iff_exists.mp (hpresent m (List.mem_append_left _ hm))
      obtain ⟨value', hvalue'⟩ := Option.isSome_iff_exists.mp (hpresent n hmem)
      have hread := hall m (List.mem_append_left _ hm) value hvalue
      have hread' := hall n hmem value' hvalue'
      rw [heq, hread'] at hread
      rw [hvalue, hvalue', hread]

/-- The values are kept behind every prefix exactly when the moves are separate. -/
theorem kept_iff (hsources : moves.Pairwise fun m n => m.source ≠ n.source)
    (hpresent : ∀ m ∈ moves, (store m.source).isSome)
    (hread : ∀ m ∈ moves, ∀ value, store m.source = some value →
      read (m.encode value) = some value) :
    (∀ pre post, moves = pre ++ post → Kept read store pre) ↔ Separate store moves := by
  refine ⟨separate_of_kept hsources hpresent, ?_⟩
  rintro hseparate pre post rfl m hm value hvalue
  obtain ⟨n, hn, hn', hafter⟩ := encoded_of_separate (List.pairwise_append.mp hsources).1
    hseparate.take m hm value hvalue
  rw [hafter, Option.bind_some, hread n (List.mem_append_left _ hn) value hn']

end Moves
