import KasterCti.Library.JsText
import Mathlib.Data.List.DropRight
import Mathlib.Data.List.Flatten

/-!
# Tidying the line breaks of a text

`.replace(/\n{3,}/g, '\n\n').trimEnd()` on a joined text, and what it does to the lines that were
joined: an empty line with two line breaks before it goes, and so do the blank lines at the end and
the white space behind the last line that is left.

Results:
1. `trimEnd_capBreaks_joinLines`: the tidied text is the text of the tidied lines.
2. `nonBlank_tidyLines`: every line that is not blank is kept.
3. `Tidy.concat_empty`, `Tidy.append_line`: tidy lines with more behind them.
-/

namespace TidyText

open JsText

/-- `lines.join('\n')`. -/
def joinLines (lines : List (List Char)) : List Char := ['\n'].intercalate lines

/-- `.replace(/\n{3,}/g, '\n\n')` behind `n` line breaks. -/
def capBreaks : ℕ → List Char → List Char
  | _, [] => []
  | n, c :: cs =>
    if c = '\n' then if n < 2 then c :: capBreaks (n + 1) cs else capBreaks n cs
    else c :: capBreaks 0 cs

/-- `.trimEnd()`. -/
def trimEnd (cs : List Char) : List Char := cs.rdropWhile isWhitespace

/-- The lines behind `n` line breaks, without the empty ones that have two breaks before them and
one behind. -/
def capEmpty : ℕ → List (List Char) → List (List Char)
  | _, [] => []
  | n, line :: lines =>
    if line = [] ∧ 2 ≤ n ∧ lines ≠ [] then capEmpty n lines
    else line :: capEmpty (if line = [] then n + 1 else 1) lines

/-- The lines without the white space at their end. -/
def trimLast : List (List Char) → List (List Char)
  | [] => []
  | line :: lines =>
    if trimLast lines = [] then if trimEnd line = [] then [] else [trimEnd line]
    else line :: trimLast lines

def tidyLines (lines : List (List Char)) : List (List Char) := trimLast (capEmpty 0 lines)

/-- The lines that are not blank, without the white space behind them. -/
def nonBlank (lines : List (List Char)) : List (List Char) := (lines.map trimEnd).filter (· ≠ [])

/-! ## White space at an end -/

theorem trimEnd_append (cs ds : List Char) :
    trimEnd (cs ++ ds) = if trimEnd ds = [] then trimEnd cs else cs ++ trimEnd ds := by
  simp only [trimEnd, List.rdropWhile, List.reverse_append, List.dropWhile_append,
    List.isEmpty_iff, List.reverse_eq_nil_iff]
  split
  · rfl
  · rw [List.reverse_append, List.reverse_reverse]

@[simp] theorem trimEnd_trimEnd (cs : List Char) : trimEnd (trimEnd cs) = trimEnd cs :=
  List.rdropWhile_idempotent isWhitespace cs

theorem trimEnd_eq_nil_iff {cs : List Char} :
    trimEnd cs = [] ↔ ∀ c ∈ cs, isWhitespace c = true := List.rdropWhile_eq_nil_iff

theorem trimEnd_front (cs : List Char) : trimEnd cs <+: cs := List.rdropWhile_prefix isWhitespace cs

theorem trimChars_eq (cs : List Char) : trimChars cs = trimEnd (cs.dropWhile isWhitespace) := rfl

theorem trimChars_eq_nil_iff {cs : List Char} : trimChars cs = [] ↔ trimEnd cs = [] := by
  rw [trimChars_eq, trimEnd_eq_nil_iff, trimEnd_eq_nil_iff]
  constructor
  · intro h c hc
    rw [← List.takeWhile_append_dropWhile (p := isWhitespace) (l := cs)] at hc
    rcases List.mem_append.mp hc with hc | hc
    · exact List.mem_takeWhile_imp hc
    · exact h c hc
  · exact fun h c hc => h c ((List.dropWhile_sublist _).subset hc)

@[simp] theorem trimChars_trimEnd (cs : List Char) : trimChars (trimEnd cs) = trimChars cs := by
  induction cs with
  | nil => rfl
  | cons c cs ih =>
    have hcons := trimEnd_append [c] cs
    rw [List.singleton_append] at hcons
    rw [hcons]
    cases hc : isWhitespace c with
    | true =>
      have hsingle : trimEnd [c] = [] := trimEnd_eq_nil_iff.mpr (by simpa using hc)
      have hskip (ds : List Char) : trimChars (c :: ds) = trimChars ds := by
        rw [trimChars_eq, trimChars_eq, List.dropWhile_cons_of_pos hc]
      rw [hskip, hsingle]
      split
      · rename_i hblank
        rw [trimChars_eq_nil_iff.mpr hblank]
        rfl
      · rw [List.singleton_append, hskip, ih]
    | false =>
      have hstay (ds : List Char) : trimChars (c :: ds) = trimEnd (c :: ds) := by
        rw [trimChars_eq, List.dropWhile_cons_of_neg (by simp [hc])]
      rw [hstay, hcons]
      have hsingle : trimEnd [c] = [c] := by
        rw [trimEnd, List.rdropWhile_singleton, if_neg (by simp [hc])]
      split
      · rw [hsingle, hstay, hsingle]
      · rename_i hdirty
        rw [List.singleton_append, hstay, ← List.singleton_append, trimEnd_append, trimEnd_trimEnd,
          if_neg hdirty]

/-! ## The text of tidied lines -/

variable {lines : List (List Char)}

theorem joinLines_cons (h : lines ≠ []) (line : List Char) :
    joinLines (line :: lines) = line ++ '\n' :: joinLines lines := by
  rw [joinLines, List.intercalate_cons_of_ne_nil h, List.append_assoc]
  rfl

theorem joinLines_singleton (line : List Char) : joinLines [line] = line :=
  List.intercalate_singleton

theorem joinLines_append {lines more : List (List Char)} (h : lines ≠ []) (hmore : more ≠ []) :
    joinLines (lines ++ more) = joinLines lines ++ '\n' :: joinLines more := by
  induction lines with
  | nil => exact absurd rfl h
  | cons line lines ih =>
    by_cases hlast : lines = []
    · subst hlast
      rw [List.singleton_append, joinLines_cons hmore, joinLines_singleton]
    · rw [List.cons_append, joinLines_cons (List.append_ne_nil_of_left_ne_nil hlast _),
        joinLines_cons hlast, ih hlast, List.append_assoc]
      rfl

variable {line : List Char}

theorem capEmpty_cons (n : ℕ) (line : List Char) (lines : List (List Char)) :
    capEmpty n (line :: lines) =
      if line = [] ∧ 2 ≤ n ∧ lines ≠ [] then capEmpty n lines
      else line :: capEmpty (if line = [] then n + 1 else 1) lines :=
  rfl

theorem capEmpty_line (h : line ≠ []) (n : ℕ) (lines : List (List Char)) :
    capEmpty n (line :: lines) = line :: capEmpty 1 lines := by
  rw [capEmpty_cons, if_neg fun hdrop => h hdrop.1, if_neg h]

theorem capEmpty_empty {n : ℕ} (h : n < 2) (lines : List (List Char)) :
    capEmpty n ([] :: lines) = [] :: capEmpty (n + 1) lines := by
  rw [capEmpty_cons, if_neg fun hdrop => absurd hdrop.2.1 (Nat.not_le.mpr h), if_pos rfl]

theorem capEmpty_drop {n : ℕ} (h : 2 ≤ n) (hne : lines ≠ []) :
    capEmpty n ([] :: lines) = capEmpty n lines := by
  rw [capEmpty_cons, if_pos ⟨rfl, h, hne⟩]

theorem capEmpty_singleton (n : ℕ) (line : List Char) : capEmpty n [line] = [line] := by
  rw [capEmpty_cons, if_neg fun hdrop => hdrop.2.2 rfl]
  rfl

theorem capEmpty_eq_nil_iff {n : ℕ} : capEmpty n lines = [] ↔ lines = [] := by
  induction lines generalizing n with
  | nil => exact iff_of_true rfl rfl
  | cons line lines ih =>
    rw [capEmpty_cons]
    split
    · rename_i hdrop
      simp [ih, hdrop.2.2]
    · simp

theorem capBreaks_append (h : '\n' ∉ line) (n : ℕ) (cs : List Char) :
    capBreaks n (line ++ cs) = line ++ capBreaks (if line = [] then n else 0) cs := by
  induction line generalizing n with
  | nil => rfl
  | cons c line ih =>
    obtain ⟨hc, hline⟩ := not_or.mp (mt List.mem_cons.mpr h)
    rw [List.cons_append, capBreaks, if_neg (Ne.symm hc), ih hline 0, ite_self,
      if_neg (List.cons_ne_nil c line)]
    rfl

theorem capBreaks_joinLines (h : ∀ line ∈ lines, '\n' ∉ line) (n : ℕ) :
    capBreaks n (joinLines lines) = joinLines (capEmpty n lines) := by
  induction lines generalizing n with
  | nil => rfl
  | cons line lines ih =>
    obtain ⟨hline, hlines⟩ := List.forall_mem_cons.mp h
    by_cases hlast : lines = []
    · subst hlast
      have hend := capBreaks_append hline n []
      rw [List.append_nil] at hend
      rw [joinLines_singleton, hend, capEmpty_singleton, joinLines_singleton]
      exact List.append_nil line
    · have hrest (m : ℕ) : capEmpty m lines ≠ [] := mt capEmpty_eq_nil_iff.mp hlast
      rw [joinLines_cons hlast, capBreaks_append hline, capBreaks, if_pos rfl]
      by_cases hempty : line = []
      · subst hempty
        rw [if_pos rfl, List.nil_append]
        split
        · rename_i hn
          rw [capEmpty_empty hn, joinLines_cons (hrest _), ih hlines]
          rfl
        · rename_i hn
          rw [capEmpty_drop (Nat.not_lt.mp hn) hlast, ih hlines]
      · rw [if_neg hempty, if_pos Nat.two_pos, capEmpty_line hempty, joinLines_cons (hrest _),
          ih hlines]

theorem trimLast_concat (lines : List (List Char)) (last : List Char) :
    trimLast (lines ++ [last]) =
      if trimEnd last = [] then trimLast lines else lines ++ [trimEnd last] := by
  induction lines with
  | nil => rfl
  | cons line lines ih =>
    rw [List.cons_append, trimLast, ih]
    split
    · rfl
    · rw [if_neg (List.append_ne_nil_of_right_ne_nil _ (List.cons_ne_nil _ _))]
      rfl

/-- The last line that is not blank is the last one left, without the white space behind it. -/
theorem trimLast_spec (lines : List (List Char)) :
    trimLast lines = [] ∨ ∃ before last, trimEnd last ≠ [] ∧ before ++ [last] <+: lines ∧
      trimLast lines = before ++ [trimEnd last] := by
  induction lines using List.reverseRecOn with
  | nil => exact .inl rfl
  | append_singleton lines last ih =>
    rw [trimLast_concat]
    split
    · rcases ih with hnil | ⟨before, kept, hkept, hfront, htrim⟩
      · exact .inl hnil
      · exact .inr ⟨before, kept, hkept, hfront.trans (List.prefix_append _ _), htrim⟩
    · rename_i hlast
      exact .inr ⟨lines, last, hlast, List.prefix_rfl, rfl⟩

theorem trimLast_trimLast (lines : List (List Char)) :
    trimLast (trimLast lines) = trimLast lines := by
  rcases trimLast_spec lines with hnil | ⟨before, last, hlast, -, htrim⟩
  · rw [hnil]
    rfl
  · rw [htrim, trimLast_concat, trimEnd_trimEnd, if_neg hlast]

theorem joinLines_trimLast_eq_nil_iff : joinLines (trimLast lines) = [] ↔ trimLast lines = [] := by
  constructor
  · intro h
    rcases trimLast_spec lines with hnil | ⟨before, last, hlast, -, htrim⟩
    · exact hnil
    · rw [htrim] at h
      cases before with
      | nil =>
        rw [List.nil_append, joinLines_singleton] at h
        exact absurd h hlast
      | cons line before =>
        rw [List.cons_append,
          joinLines_cons (List.append_ne_nil_of_right_ne_nil _ (List.cons_ne_nil _ _))] at h
        simp at h
  · intro h
    rw [h]
    rfl

theorem trimEnd_joinLines (lines : List (List Char)) :
    trimEnd (joinLines lines) = joinLines (trimLast lines) := by
  induction lines with
  | nil => rfl
  | cons line lines ih =>
    by_cases hlast : lines = []
    · subst hlast
      rw [joinLines_singleton, ← List.nil_append [line], trimLast_concat]
      split
      · rename_i hblank
        exact hblank
      · exact (joinLines_singleton _).symm
    · have hbreak : trimEnd ('\n' :: joinLines lines) =
          if trimLast lines = [] then [] else '\n' :: joinLines (trimLast lines) := by
        have happend := trimEnd_append ['\n'] (joinLines lines)
        rw [ih] at happend
        simp only [joinLines_trimLast_eq_nil_iff] at happend
        exact happend
      rw [joinLines_cons hlast, trimEnd_append, hbreak, trimLast]
      by_cases hrest : trimLast lines = []
      · rw [if_pos hrest, if_pos rfl, if_pos hrest]
        split
        · rename_i hblank
          exact hblank
        · exact (joinLines_singleton _).symm
      · rw [if_neg hrest, if_neg (List.cons_ne_nil _ _), if_neg hrest, joinLines_cons hrest]

theorem trimEnd_capBreaks_joinLines (h : ∀ line ∈ lines, '\n' ∉ line) :
    trimEnd (capBreaks 0 (joinLines lines)) = joinLines (tidyLines lines) := by
  rw [capBreaks_joinLines h, trimEnd_joinLines, tidyLines]

theorem trimChars_joinLines_tidyLines :
    trimChars (joinLines (tidyLines lines)) = [] ↔ tidyLines lines = [] := by
  rw [trimChars_eq_nil_iff, trimEnd_joinLines, tidyLines, trimLast_trimLast,
    joinLines_trimLast_eq_nil_iff]

/-! ## What tidying keeps -/

theorem capEmpty_sublist (n : ℕ) (lines : List (List Char)) : (capEmpty n lines).Sublist lines := by
  induction lines generalizing n with
  | nil => exact List.Sublist.refl _
  | cons line lines ih =>
    rw [capEmpty_cons]
    split
    · exact (ih n).cons line
    · exact (ih _).cons_cons line

theorem nonBlank_append (lines more : List (List Char)) :
    nonBlank (lines ++ more) = nonBlank lines ++ nonBlank more := by
  rw [nonBlank, List.map_append, List.filter_append]
  rfl

theorem nonBlank_capEmpty (n : ℕ) (lines : List (List Char)) :
    nonBlank (capEmpty n lines) = nonBlank lines := by
  induction lines generalizing n with
  | nil => rfl
  | cons line lines ih =>
    have hcons (rest : List (List Char)) : nonBlank (line :: rest) = nonBlank [line] ++ nonBlank rest :=
      nonBlank_append [line] rest
    rw [capEmpty_cons]
    split
    · rename_i hdrop
      rw [ih, hcons lines, hdrop.1]
      rfl
    · rw [hcons, ih, hcons lines]

theorem nonBlank_trimLast (lines : List (List Char)) :
    nonBlank (trimLast lines) = nonBlank lines := by
  induction lines using List.reverseRecOn with
  | nil => rfl
  | append_singleton lines last ih =>
    rw [trimLast_concat, nonBlank_append]
    split
    · rename_i hblank
      have hlast : nonBlank [last] = [] := by
        rw [nonBlank, List.map_singleton, hblank]
        rfl
      rw [ih, hlast, List.append_nil]
    · have hlast : nonBlank [trimEnd last] = nonBlank [last] := by
        rw [nonBlank, nonBlank, List.map_singleton, List.map_singleton, trimEnd_trimEnd]
      rw [nonBlank_append, hlast]

/-- No line that says something is lost. -/
theorem nonBlank_tidyLines (lines : List (List Char)) :
    nonBlank (tidyLines lines) = nonBlank lines := by
  rw [tidyLines, nonBlank_trimLast, nonBlank_capEmpty]

theorem mem_tidyLines (h : line ∈ tidyLines lines) :
    ∃ kept ∈ lines, line = kept ∨ line = trimEnd kept := by
  have hsub := capEmpty_sublist 0 lines
  rw [tidyLines] at h
  rcases trimLast_spec (capEmpty 0 lines) with hnil | ⟨before, last, -, hfront, htrim⟩
  · rw [hnil] at h
    cases h
  · rw [htrim] at h
    have hmem {kept : List Char} (hkept : kept ∈ before ++ [last]) : kept ∈ lines :=
      hsub.subset (hfront.subset hkept)
    rcases List.mem_append.mp h with h | h
    · exact ⟨line, hmem (List.mem_append_left _ h), .inl rfl⟩
    · exact ⟨last, hmem (List.mem_append_right _ (List.mem_singleton_self _)),
        .inr (List.mem_singleton.mp h)⟩

/-- Nothing is added. -/
theorem flatten_tidyLines_sublist (lines : List (List Char)) :
    (tidyLines lines).flatten.Sublist lines.flatten := by
  refine List.Sublist.trans ?_ (capEmpty_sublist 0 lines).flatten
  rw [tidyLines]
  rcases trimLast_spec (capEmpty 0 lines) with hnil | ⟨before, last, -, ⟨rest, hrest⟩, htrim⟩
  · rw [hnil]
    exact List.nil_sublist _
  · rw [htrim, ← hrest, List.flatten_append, List.flatten_append, List.flatten_append,
      List.flatten_singleton, List.flatten_singleton, List.append_assoc]
    exact List.Sublist.append_left ((trimEnd_front last).sublist.trans (List.sublist_append_left _ _)) _

/-! ## Tidy lines -/

structure Tidy (lines : List (List Char)) : Prop where
  capped : capEmpty 0 lines = lines
  trimmed : trimLast lines = lines

theorem capEmpty_capEmpty (n : ℕ) (lines : List (List Char)) :
    capEmpty n (capEmpty n lines) = capEmpty n lines := by
  induction lines generalizing n with
  | nil => rfl
  | cons line lines ih =>
    rw [capEmpty_cons]
    split
    · exact ih n
    · rename_i hkeep
      rw [capEmpty_cons, if_neg fun hdrop => hkeep ⟨hdrop.1, hdrop.2.1, mt capEmpty_eq_nil_iff.mpr hdrop.2.2⟩,
        ih]

theorem capEmpty_trimLast {n : ℕ} (h : capEmpty n lines = lines) :
    capEmpty n (trimLast lines) = trimLast lines := by
  induction lines generalizing n with
  | nil => rfl
  | cons line lines ih =>
    rw [capEmpty_cons] at h
    split at h
    · have hlength := (capEmpty_sublist n lines).length_le
      rw [h, List.length_cons] at hlength
      exact absurd hlength (Nat.not_succ_le_self _)
    · rename_i hkeep
      rw [trimLast]
      split
      · split
        · rfl
        · exact capEmpty_singleton n _
      · rename_i hrest
        have hlines : lines ≠ [] := by
          rintro rfl
          exact hrest rfl
        rw [capEmpty_cons, if_neg fun hdrop => hkeep ⟨hdrop.1, hdrop.2.1, hlines⟩, ih (List.cons.inj h).2]

theorem tidy_tidyLines (lines : List (List Char)) : Tidy (tidyLines lines) :=
  ⟨capEmpty_trimLast (capEmpty_capEmpty 0 lines), trimLast_trimLast _⟩

theorem Tidy.exists_last (h : Tidy lines) (hne : lines ≠ []) :
    ∃ before last, lines = before ++ [last] ∧ last ≠ [] ∧ trimEnd last = last := by
  rcases trimLast_spec lines with hnil | ⟨before, last, hlast, -, htrim⟩
  · exact absurd (h.trimmed.symm.trans hnil) hne
  · exact ⟨before, trimEnd last, h.trimmed.symm.trans htrim, hlast, trimEnd_trimEnd last⟩

/-- A line that is not empty ends a run of breaks. -/
theorem capEmpty_append_cons (n : ℕ) (before : List (List Char)) (h : line ≠ [])
    (more : List (List Char)) :
    capEmpty n (before ++ line :: more) = capEmpty n (before ++ [line]) ++ capEmpty 1 more := by
  induction before generalizing n with
  | nil => simp [capEmpty, h]
  | cons first before ih =>
    have hmore (rest : List (List Char)) : before ++ line :: rest ≠ [] :=
      List.append_ne_nil_of_right_ne_nil _ (List.cons_ne_nil _ _)
    rw [List.cons_append, List.cons_append]
    by_cases hfirst : first = []
    · subst hfirst
      by_cases hn : n < 2
      · rw [capEmpty_empty hn, capEmpty_empty hn, ih]
        rfl
      · have hdrop := Nat.not_lt.mp hn
        rw [capEmpty_drop hdrop (hmore more), capEmpty_drop hdrop (hmore []), ih]
    · rw [capEmpty_line hfirst, capEmpty_line hfirst, ih]
      rfl

theorem Tidy.capEmpty_append (h : Tidy lines) (hne : lines ≠ []) (more : List (List Char)) :
    capEmpty 0 (lines ++ more) = lines ++ capEmpty 1 more := by
  obtain ⟨before, last, rfl, hlast, -⟩ := h.exists_last hne
  rw [List.append_assoc, List.singleton_append, capEmpty_append_cons 0 before hlast, h.capped]

/-- The break that ends the last line is no line. -/
theorem Tidy.concat_empty (h : Tidy lines) (hne : lines ≠ []) :
    tidyLines (lines ++ [[]]) = lines := by
  rw [tidyLines, h.capEmpty_append hne]
  show trimLast (lines ++ [[]]) = lines
  rw [trimLast_concat]
  exact h.trimmed

/-- Behind an empty line. -/
theorem Tidy.append_line (h : Tidy lines) (hne : lines ≠ []) (hline : line ≠ [])
    (htrim : trimEnd line = line) : Tidy (lines ++ [[], line]) := by
  constructor
  · rw [h.capEmpty_append hne]
    simp [capEmpty]
  · rw [show lines ++ [[], line] = (lines ++ [[]]) ++ [line] by simp, trimLast_concat, htrim,
      if_neg hline]

end TidyText
