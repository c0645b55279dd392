import Mathlib.Data.List.Induction
import Mathlib.Data.List.Nodup

/-!
# Maps that keep the order of insertion

`Map` of JavaScript as a list of entries. `set` leaves an entry where it is and appends
a new one; `delete` takes it out.

Results: what `get` finds after each operation (`get_set`, `get_delete`), that a map in
which `get` finds nothing is empty (`eq_nil_of_get`), and how the operations pass to the
part of a map that a test picks (`filter_set_of_pos`, `filter_set_of_neg`, `filter_delete`);
and the map that groups a list by a key (`mem_group_iff`).
-/

namespace JsMap

variable {κ α : Type*} [DecidableEq κ] {m : List (κ × α)} {k k' : κ} {a b : α}

def get (m : List (κ × α)) (k : κ) : Option α := (m.find? fun e => e.1 = k).map (·.2)

def set (m : List (κ × α)) (k : κ) (a : α) : List (κ × α) :=
  if m.any fun e => e.1 = k then m.map fun e => if e.1 = k then (k, a) else e else m ++ [(k, a)]

def delete (m : List (κ × α)) (k : κ) : List (κ × α) := m.filter fun e => e.1 ≠ k

def keys (m : List (κ × α)) : List κ := m.map (·.1)

@[simp] theorem get_nil : get ([] : List (κ × α)) k = none := rfl

theorem get_cons {e : κ × α} : get (e :: m) k = if e.1 = k then some e.2 else get m k := by
  unfold get
  rw [List.find?_cons]
  by_cases h : e.1 = k
  · simp [h]
  · simp [h]

theorem mem_of_get (h : get m k = some a) : (k, a) ∈ m := by
  induction m with
  | nil => cases h
  | cons e m ih =>
    rw [get_cons] at h
    split at h
    · next hk =>
      obtain rfl := Option.some.inj h
      rw [← hk]
      exact List.mem_cons_self
    · exact List.mem_cons_of_mem _ (ih h)

theorem get_eq_none_iff : get m k = none ↔ k ∉ keys m := by
  induction m with
  | nil => simp [keys]
  | cons e m ih =>
    rw [get_cons]
    by_cases h : e.1 = k
    · simp [keys, h]
    · rw [if_neg h, ih]
      simp [keys, Ne.symm h]

theorem mem_keys_of_get (h : get m k = some a) : k ∈ keys m :=
  List.mem_map.2 ⟨_, mem_of_get h, rfl⟩

/-- A map in which nothing is found has no entry. -/
theorem eq_nil_of_get (h : ∀ k, get m k = none) : m = [] := by
  cases m with
  | nil => rfl
  | cons e m =>
    have hhead := h e.1
    rw [get_cons, if_pos rfl] at hhead
    cases hhead

theorem get_append {m' : List (κ × α)} : get (m ++ m') k = (get m k).or (get m' k) := by
  induction m with
  | nil => rfl
  | cons e m ih =>
    rw [List.cons_append, get_cons, get_cons, ih]
    split <;> rfl

theorem get_map_other {f : κ × α → κ × α} (hf : ∀ e ∈ m, e.1 = k → f e = e)
    (hkey : ∀ e ∈ m, e.1 ≠ k → (f e).1 ≠ k) : get (m.map f) k = get m k := by
  induction m with
  | nil => rfl
  | cons e m ih =>
    obtain ⟨hhead, htail⟩ := List.forall_mem_cons.1 hf
    obtain ⟨hkhead, hktail⟩ := List.forall_mem_cons.1 hkey
    rw [List.map_cons, get_cons, get_cons, ih htail hktail]
    by_cases h : e.1 = k
    · rw [hhead h]
    · rw [if_neg (hkhead h), if_neg h]

theorem get_set : get (set m k a) k' = if k' = k then some a else get m k' := by
  unfold set
  split
  · next hthere =>
    obtain ⟨e, he, hek⟩ := List.any_eq_true.1 hthere
    by_cases hk : k' = k
    · subst hk
      rw [if_pos rfl]
      clear hthere
      induction m with
      | nil => cases he
      | cons e' m ih =>
        rw [List.map_cons, get_cons]
        by_cases he' : e'.1 = k'
        · rw [if_pos he', if_pos rfl]
        · rw [if_neg he', if_neg he']
          rcases List.mem_cons.1 he with rfl | hm
          · exact absurd (of_decide_eq_true hek) he'
          · exact ih hm
    · rw [if_neg hk]
      refine get_map_other ?_ ?_
      · intro e _ hek'
        rw [if_neg (by rw [hek']; exact hk)]
      · intro e _ hek'
        split
        · exact Ne.symm hk
        · exact hek'
  · next hnone =>
    have hget : get m k = none := by
      rw [get_eq_none_iff, keys, List.mem_map]
      rintro ⟨e, he, hek⟩
      exact hnone (List.any_eq_true.2 ⟨e, he, decide_eq_true hek⟩)
    rw [get_append, get_cons, get_nil]
    by_cases hk : k' = k
    · subst hk
      rw [hget, if_pos rfl]
      rfl
    · rw [if_neg (Ne.symm hk), if_neg hk, Option.or_none]

variable {p : κ × α → Bool}

theorem get_filter_of_get (h : ∀ a, get m k = some a → p (k, a) = true) :
    get (m.filter p) k = get m k := by
  induction m with
  | nil => rfl
  | cons e m ih =>
    rw [get_cons]
    rw [get_cons] at h
    by_cases hk : e.1 = k
    · rw [if_pos hk] at h ⊢
      have hp : p e = true := by
        have := h e.2 rfl
        rwa [← hk] at this
      rw [List.filter_cons_of_pos hp, get_cons, if_pos hk]
    · rw [if_neg hk] at h ⊢
      cases hp : p e with
      | true => rw [List.filter_cons_of_pos hp, get_cons, if_neg hk, ih h]
      | false => rw [List.filter_cons_of_neg (by simp [hp]), ih h]

theorem get_delete : get (delete m k) k' = if k' = k then none else get m k' := by
  by_cases hk : k' = k
  · subst hk
    rw [if_pos rfl, get_eq_none_iff, keys, delete, List.mem_map]
    rintro ⟨e, he, hek⟩
    exact of_decide_eq_true (List.mem_filter.1 he).2 hek
  · rw [if_neg hk]
    exact get_filter_of_get fun a _ => decide_eq_true hk

theorem mem_set {e : κ × α} (h : e ∈ set m k a) : e = (k, a) ∨ e ∈ m := by
  unfold set at h
  split at h
  · obtain ⟨e', he', rfl⟩ := List.mem_map.1 h
    split
    · exact .inl rfl
    · exact .inr he'
  · rcases List.mem_append.1 h with hm | hm
    · exact .inr hm
    · exact .inl (List.mem_singleton.1 hm)

theorem delete_set : delete (set m k a) k = delete m k := by
  unfold set
  split
  · clear * -
    induction m with
    | nil => rfl
    | cons e m ih =>
      unfold delete at ih ⊢
      rw [List.map_cons]
      by_cases h : e.1 = k
      · rw [if_pos h, List.filter_cons_of_neg (by simp), List.filter_cons_of_neg (by simp [h]), ih]
      · rw [if_neg h, List.filter_cons_of_pos (by simp [h]), List.filter_cons_of_pos (by simp [h]),
          ih]
  · simp [delete, List.filter_append]

theorem delete_delete : delete (delete m k) k = delete m k := by
  simp [delete, List.filter_filter]

omit [DecidableEq κ] in
theorem keys_append {m' : List (κ × α)} : keys (m ++ m') = keys m ++ keys m' := by simp [keys]

omit [DecidableEq κ] in
theorem keys_map_const {ks : List κ} : keys (ks.map fun k => (k, a)) = ks := by
  simp [keys, Function.comp_def]

/-- Entries that all hold one value. -/
theorem get_map_const {ks : List κ} :
    get (ks.map fun k => (k, a)) k = if k ∈ ks then some a else none := by
  induction ks with
  | nil => rfl
  | cons k' ks ih =>
    rw [List.map_cons, get_cons, ih]
    by_cases h : k' = k
    · simp [h]
    · simp [h, Ne.symm h]

/-! ## Keys stand once -/

omit [DecidableEq κ] in
theorem keys_filter_sublist : (keys (m.filter p)).Sublist (keys m) :=
  List.filter_sublist.map _

theorem keys_set : keys (set m k a) = if k ∈ keys m then keys m else keys m ++ [k] := by
  have hany : (m.any fun e => e.1 = k) = true ↔ k ∈ keys m := by
    simp [keys]
  unfold set
  by_cases hk : k ∈ keys m
  · rw [if_pos (hany.2 hk), if_pos hk, keys, keys, List.map_map]
    refine List.map_congr_left ?_
    intro e _
    by_cases he : e.1 = k
    · simp [he]
    · simp [he]
  · rw [if_neg fun h => hk (hany.1 h), if_neg hk, keys_append]
    rfl

omit [DecidableEq κ] in
theorem nodup_append_singleton {ks : List κ} (h : ks.Nodup) (hk : k ∉ ks) : (ks ++ [k]).Nodup :=
  List.concat_eq_append ▸ List.Nodup.concat hk h

/-- An entry under a new key. -/
theorem nodup_keys_append (h : (keys m).Nodup) (hk : get m k = none) :
    (keys (m ++ [(k, a)])).Nodup := by
  rw [keys_append]
  exact nodup_append_singleton h (get_eq_none_iff.1 hk)

theorem nodup_keys_set (h : (keys m).Nodup) : (keys (set m k a)).Nodup := by
  rw [keys_set]
  split
  · exact h
  · next hk => exact nodup_append_singleton h hk

theorem get_of_mem {e : κ × α} (h : (keys m).Nodup) (he : e ∈ m) : get m e.1 = some e.2 := by
  induction m with
  | nil => cases he
  | cons e' m ih =>
    obtain ⟨hhead, htail⟩ := List.nodup_cons.1 h
    rw [get_cons]
    rcases List.mem_cons.1 he with rfl | hm
    · rw [if_pos rfl]
    · rw [if_neg, ih htail hm]
      intro hsame
      refine hhead ?_
      show e'.1 ∈ keys m
      rw [hsame]
      exact List.mem_map_of_mem hm

theorem get_filter_of_none (h : get m k = none) : get (m.filter p) k = none :=
  get_eq_none_iff.2 fun hk => get_eq_none_iff.1 h (keys_filter_sublist.subset hk)

theorem get_of_filter (h : (keys m).Nodup) (hget : get (m.filter p) k = some a) :
    get m k = some a ∧ p (k, a) = true := by
  obtain ⟨hmem, hp⟩ := List.mem_filter.1 (mem_of_get hget)
  exact ⟨get_of_mem h hmem, hp⟩

/-! ## Parts of a map -/

theorem filter_delete : (delete m k).filter p = delete (m.filter p) k := by
  unfold delete
  rw [List.filter_filter, List.filter_filter]
  exact List.filter_congr fun e _ => Bool.and_comm _ _

theorem filter_delete_of_neg (h : ∀ e ∈ m, e.1 = k → p e = false) :
    (delete m k).filter p = m.filter p := by
  unfold delete
  rw [List.filter_filter]
  refine List.filter_congr ?_
  intro e he
  by_cases hk : e.1 = k
  · simp [h e he hk]
  · simp [hk]

theorem filter_set_of_neg (ha : p (k, a) = false) (h : ∀ e ∈ m, e.1 = k → p e = false) :
    (set m k a).filter p = m.filter p := by
  unfold set
  split
  · clear * - ha h
    induction m with
    | nil => rfl
    | cons e m ih =>
      obtain ⟨hhead, htail⟩ := List.forall_mem_cons.1 h
      rw [List.map_cons, List.filter_cons, List.filter_cons, ih htail]
      by_cases hk : e.1 = k
      · rw [if_pos hk, ha, hhead hk]
        rfl
      · rw [if_neg hk]
  · simp [List.filter_append, ha]

theorem filter_set_of_pos (ha : p (k, a) = true) (h : ∀ e ∈ m, e.1 = k → p e = true) :
    (set m k a).filter p = set (m.filter p) k a := by
  have hany : ((m.filter p).any fun e => e.1 = k) = m.any fun e => e.1 = k := by
    rw [Bool.eq_iff_iff, List.any_eq_true, List.any_eq_true]
    constructor
    · rintro ⟨e, he, hk⟩
      exact ⟨e, (List.mem_filter.1 he).1, hk⟩
    · rintro ⟨e, he, hk⟩
      exact ⟨e, List.mem_filter.2 ⟨he, h e he (of_decide_eq_true hk)⟩, hk⟩
  unfold set
  rw [hany]
  split
  · clear * - ha h
    induction m with
    | nil => rfl
    | cons e m ih =>
      obtain ⟨hhead, htail⟩ := List.forall_mem_cons.1 h
      rw [List.map_cons, List.filter_cons, List.filter_cons, ih htail]
      by_cases hk : e.1 = k
      · rw [if_pos hk, ha, hhead hk, if_pos rfl, if_pos rfl, List.map_cons, if_pos hk]
      · rw [if_neg hk]
        split
        · rw [List.map_cons, if_neg hk]
        · rfl
  · simp [List.filter_append, ha]

/-! ## Groups -/

/-- A list by a key, its elements in their order under each. -/
def group (key : α → κ) (as : List α) : List (κ × List α) :=
  as.foldl (fun m a =>
    match get m (key a) with
    | some group => set m (key a) (group ++ [a])
    | none => set m (key a) [a]) []

variable {key : α → κ}

theorem group_append_singleton {as : List α} :
    group key (as ++ [a]) =
      set (group key as) (key a) (((get (group key as) (key a)).getD []) ++ [a]) := by
  unfold group
  rw [List.foldl_append, List.foldl_cons, List.foldl_nil]
  split
  · next hget => rw [hget]; rfl
  · next hget => rw [hget]; rfl

theorem nodup_keys_group {as : List α} : (keys (group key as)).Nodup := by
  induction as using List.reverseRecOn with
  | nil => exact List.nodup_nil
  | append_singleton as a ih =>
    rw [group_append_singleton]
    exact nodup_keys_set ih

theorem getD_get_group {as : List α} :
    (get (group key as) k).getD [] = as.filter fun a => key a = k := by
  induction as using List.reverseRecOn with
  | nil => rfl
  | append_singleton as a ih =>
    rw [group_append_singleton, get_set, List.filter_append]
    by_cases hk : k = key a
    · subst hk
      rw [if_pos rfl, Option.getD_some, ih]
      simp
    · rw [if_neg hk, ih]
      simp [Ne.symm hk]

theorem ne_nil_of_get_group {as group' : List α} (h : get (group key as) k = some group') :
    group' ≠ [] := by
  induction as using List.reverseRecOn with
  | nil => cases h
  | append_singleton as a ih =>
    rw [group_append_singleton, get_set] at h
    split at h
    · obtain rfl := Option.some.inj h
      simp
    · exact ih h

/-- The groups are the elements of each key that one of them has. -/
theorem mem_group_iff {as group' : List α} :
    (k, group') ∈ group key as ↔ group' = as.filter (fun a => key a = k) ∧ group' ≠ [] := by
  constructor
  · intro hmem
    have hget := get_of_mem nodup_keys_group hmem
    refine ⟨?_, ne_nil_of_get_group hget⟩
    rw [← getD_get_group, hget]
    rfl
  · rintro ⟨rfl, hne⟩
    rw [← getD_get_group] at hne ⊢
    cases hget : get (group key as) k with
    | none => rw [hget] at hne; exact absurd rfl hne
    | some group' => exact mem_of_get hget

/-! ## Other keys for the same groups -/

section

variable {κ' : Type*} [DecidableEq κ'] {e : κ → κ'}

/-- The map under other keys. -/
def rekey (e : κ → κ') (m : List (κ × α)) : List (κ' × α) := m.map fun entry => (e entry.1, entry.2)

theorem get_rekey (he : ∀ k' ∈ keys m, e k' = e k → k' = k) :
    get (rekey e m) (e k) = get m k := by
  induction m with
  | nil => rfl
  | cons entry m ih =>
    have hrest := ih fun k' hk' => he k' (List.mem_cons_of_mem _ hk')
    rw [rekey, List.map_cons, get_cons, get_cons]
    by_cases hk : entry.1 = k
    · rw [if_pos hk, if_pos (congrArg e hk)]
    · rw [if_neg hk, if_neg fun hsame => hk (he entry.1 List.mem_cons_self hsame)]
      exact hrest

theorem set_rekey (he : ∀ k' ∈ keys m, e k' = e k → k' = k) :
    set (rekey e m) (e k) a = rekey e (set m k a) := by
  have hany : ((rekey e m).any fun entry => entry.1 = e k) = m.any fun entry => entry.1 = k := by
    rw [Bool.eq_iff_iff]
    simp only [rekey, List.any_map, List.any_eq_true, Function.comp_apply, decide_eq_true_iff]
    exact exists_congr fun entry => and_congr_right fun hentry =>
      ⟨he entry.1 (List.mem_map_of_mem hentry), congrArg e⟩
  unfold set
  rw [hany]
  split
  · unfold rekey
    rw [List.map_map, List.map_map]
    refine List.map_congr_left fun entry hentry => ?_
    show (if e entry.1 = e k then (e k, a) else (e entry.1, entry.2)) = _
    by_cases hk : entry.1 = k
    · rw [if_pos (congrArg e hk), Function.comp_apply, if_pos hk]
    · rw [if_neg fun h => hk (he entry.1 (List.mem_map_of_mem hentry) h), Function.comp_apply,
        if_neg hk]
  · unfold rekey
    rw [List.map_append]
    rfl

theorem mem_keys_group {key : α → κ} {as : List α} :
    k ∈ keys (group key as) ↔ ∃ a ∈ as, key a = k := by
  constructor
  · intro hk
    obtain ⟨⟨k', group'⟩, hmem, rfl⟩ := List.mem_map.mp hk
    obtain ⟨hgroup, hne⟩ := mem_group_iff.mp hmem
    obtain ⟨a, ha⟩ := List.exists_mem_of_ne_nil _ hne
    rw [hgroup, List.mem_filter, decide_eq_true_iff] at ha
    exact ⟨a, ha⟩
  · rintro ⟨a, ha, rfl⟩
    exact List.mem_map.mpr ⟨_, mem_group_iff.mpr ⟨rfl, List.ne_nil_of_mem
      (List.mem_filter.mpr ⟨ha, decide_eq_true rfl⟩)⟩, rfl⟩

/-- Keys that tell the same elements apart make the same groups in the same order. -/
theorem group_rekey {key : α → κ} {as : List α}
    (he : ∀ a ∈ as, ∀ b ∈ as, e (key a) = e (key b) → key a = key b) :
    group (fun a => e (key a)) as = rekey e (group key as) := by
  induction as using List.reverseRecOn with
  | nil => rfl
  | append_singleton as a ih =>
    have has : ∀ b ∈ as, b ∈ as ++ [a] := fun b hb => List.mem_append_left [a] hb
    have hkeys : ∀ k' ∈ keys (group key as), e k' = e (key a) → k' = key a := by
      intro k' hk' hsame
      obtain ⟨b, hb, rfl⟩ := mem_keys_group.mp hk'
      exact he b (has b hb) a (by simp) hsame
    rw [group_append_singleton, group_append_singleton,
      ih fun b hb c hc => he b (has b hb) c (has c hc), get_rekey hkeys, set_rekey hkeys]

end

end JsMap
