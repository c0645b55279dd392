import Mathlib.Data.List.Basic

/-!
# Texts and their lines

A configuration text is built by joining lines with line feeds and read by
cutting it at every line break, a line feed or a carriage return. The two are
inverse exactly when no joined line holds a break of its own
(`lines_unlines_iff`).
-/

namespace Lines

section Decidable
variable (p : Char → Prop) [DecidablePred p] (cs : List Char)

/-- What holds of the characters of a text is decided along the text, not over all characters. -/
instance (priority := 2000) decidableForallMem : Decidable (∀ c ∈ cs, p c) :=
  List.decidableBAll p cs

instance (priority := 2000) decidableExistsMem : Decidable (∃ c ∈ cs, p c) :=
  List.decidableBEx p cs

end Decidable

def isBreak (c : Char) : Bool := c == '\n' || c == '\r'

theorem isBreak_iff {c : Char} : isBreak c = true ↔ c = '\n' ∨ c = '\r' := by
  simp [isBreak]

/-- The text holds a line feed or a carriage return. -/
def hasBreak (s : String) : Bool := s.toList.any isBreak

/-- The lines of a text: what stands between its breaks. -/
def lines (s : String) : List String := (s.toList.splitOnP isBreak).map String.ofList

/-- `ls.join('\n')`. -/
def unlines (ls : List String) : String := "\n".intercalate ls

@[simp] theorem hasBreak_append (s t : String) :
    hasBreak (s ++ t) = (hasBreak s || hasBreak t) := by
  simp [hasBreak]

theorem hasBreak_ofList (cs : List Char) : hasBreak (String.ofList cs) = cs.any isBreak := by
  simp [hasBreak]

/-- Dropping characters brings no break in. -/
theorem hasBreak_ofList_sublist {cs ds : List Char} (hs : cs.Sublist ds)
    (hd : ds.any isBreak = false) : hasBreak (String.ofList cs) = false := by
  rw [hasBreak_ofList]
  simp only [List.any_eq_false] at hd ⊢
  intro c hc
  exact hd c (hs.subset hc)

variable {ls : List String}

/-- A joined text has the characters of its parts and of the separator. -/
theorem mem_intercalate {sep : String} {c : Char} (h : c ∈ (sep.intercalate ls).toList) :
    c ∈ sep.toList ∨ ∃ l ∈ ls, c ∈ l.toList := by
  induction ls with
  | nil => simp at h
  | cons l ls ih =>
    cases ls with
    | nil =>
      rw [String.intercalate_singleton] at h
      exact .inr ⟨l, List.mem_cons_self, h⟩
    | cons m ms =>
      rw [String.intercalate_cons_cons, String.toList_append, String.toList_append,
        List.mem_append, List.mem_append] at h
      rcases h with (h | h) | h
      · exact .inr ⟨l, List.mem_cons_self, h⟩
      · exact .inl h
      · rcases ih h with h | ⟨k, hk, h⟩
        · exact .inl h
        · exact .inr ⟨k, List.mem_cons_of_mem _ hk, h⟩

theorem hasBreak_eq_false_iff {s : String} : hasBreak s = false ↔ ∀ c ∈ s.toList, isBreak c = false := by
  simp [hasBreak]

/-- Joining by a separator without a break adds none. -/
theorem hasBreak_intercalate {sep : String} (hsep : hasBreak sep = false)
    (h : ∀ l ∈ ls, hasBreak l = false) : hasBreak (sep.intercalate ls) = false := by
  refine hasBreak_eq_false_iff.mpr ?_
  intro c hc
  rcases mem_intercalate hc with hc | ⟨l, hl, hc⟩
  · exact hasBreak_eq_false_iff.mp hsep c hc
  · exact hasBreak_eq_false_iff.mp (h l hl) c hc

theorem splitOnP_free {p : Char → Bool} (cs : List Char) :
    ∀ l ∈ cs.splitOnP p, ∀ c ∈ l, p c = false := by
  induction cs with
  | nil => simp
  | cons c cs ih =>
    rw [List.splitOnP_cons_eq_if_modifyHead]
    split
    · intro l hl
      rcases List.mem_cons.mp hl with rfl | hl
      · simp
      · exact ih l hl
    · rename_i hc
      obtain ⟨hd, tl, hsplit⟩ := List.exists_cons_of_ne_nil (List.splitOnP_ne_nil p cs)
      rw [hsplit] at ih ⊢
      intro l hl d hd'
      simp only [List.modifyHead_cons, List.mem_cons] at hl
      rcases hl with rfl | hl
      · rcases List.mem_cons.mp hd' with rfl | hd'
        · simpa using hc
        · exact ih hd (by simp) d hd'
      · exact ih l (by simp [hl]) d hd'

/-- A line of a text holds no break. -/
theorem hasBreak_of_mem_lines {s l : String} (h : l ∈ lines s) : hasBreak l = false := by
  obtain ⟨cs, hcs, rfl⟩ := List.mem_map.mp h
  rw [hasBreak_ofList, List.any_eq_false]
  intro c hc
  simp [splitOnP_free _ cs hcs c hc]

theorem lines_eq_singleton {s : String} (h : hasBreak s = false) : lines s = [s] := by
  have hfree : ∀ c ∈ s.toList, isBreak c = false := by
    simpa [hasBreak] using h
  rw [lines, List.splitOnP_eq_singleton hfree]
  simp

theorem lines_append_newline (s t : String) :
    lines (s ++ "\n" ++ t) = lines s ++ lines t := by
  have happ : (s ++ "\n" ++ t).toList = s.toList ++ '\n' :: t.toList := by simp
  rw [lines, happ, List.splitOnP_append_cons _ _ (by decide), List.map_append]
  rfl

/-- Cutting what was joined gives the joined lines back. -/
theorem lines_unlines (hne : ls ≠ []) (h : ∀ l ∈ ls, hasBreak l = false) :
    lines (unlines ls) = ls := by
  induction ls with
  | nil => exact absurd rfl hne
  | cons l ls ih =>
    cases ls with
    | nil => simpa [unlines] using lines_eq_singleton (h l (by simp))
    | cons m ms =>
      rw [unlines, String.intercalate_cons_cons, lines_append_newline,
        lines_eq_singleton (h l (by simp))]
      exact congrArg _ (ih (by simp) (fun x hx => h x (List.mem_cons_of_mem _ hx)))

/-- The lines read back are the lines written exactly when none of them has a
break of its own. -/
theorem lines_unlines_iff (hne : ls ≠ []) :
    lines (unlines ls) = ls ↔ ∀ l ∈ ls, hasBreak l = false := by
  constructor
  · intro heq l hl
    rw [← heq] at hl
    exact hasBreak_of_mem_lines hl
  · exact lines_unlines hne

/-- Blocks of lines joined with an empty line between them are one list of
lines. -/
theorem intercalate_unlines {ls : List (List String)} (hne : ∀ l ∈ ls, l ≠ []) :
    "\n\n".intercalate (ls.map unlines) = unlines ([""].intercalate ls) := by
  induction ls with
  | nil => rfl
  | cons l ls ih =>
    cases ls with
    | nil => simp
    | cons m ms =>
      have hm : m ≠ [] := hne m (by simp)
      have htail : [""].intercalate (m :: ms) ≠ [] := by
        cases ms with
        | nil => simpa using hm
        | cons _ _ => simp [List.intercalate_cons_cons]
      have ih := ih (fun x hx => hne x (List.mem_cons_of_mem _ hx))
      rw [List.map_cons, List.map_cons, String.intercalate_cons_cons, ← List.map_cons, ih,
        List.intercalate_cons_cons]
      rw [unlines, unlines, unlines, List.append_assoc,
        String.intercalate_append_of_ne_nil (hne l (by simp)) (by simp),
        String.intercalate_append_of_ne_nil (by simp) htail, String.intercalate_singleton]
      simp only [String.empty_append, String.append_assoc]
      congr 1

end Lines
