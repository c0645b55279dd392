import KasterCti.Library.Dialplan
import Mathlib.Data.List.DropRight

/-!
# Reading a configuration text

The part of Asterisk's `.conf` files that generated files use: `[name]` headers and
`key=value` or `key => value` entries, with comments from a semicolon on. A semicolon behind a
backslash is not told apart: a text that holds one is not read back as it is written either way.

Results:
1. `readValue_eq_self`: the values that are read as they are written.
2. `name_of_mem_readConf`, `value_of_mem_readConf`: what can be read at all.
3. `Reads.join`: a text of joined blocks is read block by block.
-/

namespace ConfText

open Dialplan Lines

structure ConfSection where
  name : Text
  entries : List (Text × Text)

inductive ConfLine
  | header (name : Text)
  | entry (key value : Text)
  | other

/-- What stands before a comment. -/
def beforeComment (line : Text) : Text := line.takeWhile (· ≠ ';')

def readLine (line : Text) : ConfLine :=
  match (beforeComment line).dropWhile isBlank with
  | '[' :: rest =>
    match cut ']' rest with
    | (name, some _) => .header name
    | (_, none) => .other
  | line =>
    match cut '=' line with
    | (key, some value) => .entry (strip key) (strip (dropArrow value))
    | (_, none) => .other

/-- The entries before the first header, and the sections. -/
def readLines : List Text → List (Text × Text) × List ConfSection
  | [] => ([], [])
  | line :: rest =>
    match readLine line with
    | .header name => ([], ⟨name, (readLines rest).1⟩ :: (readLines rest).2)
    | .entry key value => ((key, value) :: (readLines rest).1, (readLines rest).2)
    | .other => readLines rest

def textLines (s : String) : List Text := (lines s).map String.toList

def readConf (s : String) : List ConfSection := (readLines (textLines s)).2

/-- The first value of a key. -/
def ConfSection.value? (sec : ConfSection) (key : String) : Option Text :=
  sec.entries.lookup key.toList

/-- The value of an entry, as it is read. -/
def readValue (value : Text) : Text := strip (dropArrow (beforeComment value))

/-! ## Values -/

theorem strip_eq (t : Text) : strip t = (t.dropWhile isBlank).rdropWhile isBlank := rfl

theorem strip_sublist (t : Text) : (strip t).Sublist t :=
  (List.rdropWhile_prefix isBlank (t.dropWhile isBlank)).sublist.trans (List.dropWhile_sublist _)

theorem stripped_strip (t : Text) : Stripped (strip t) := by
  constructor
  · intro c hc
    obtain ⟨rest, hrest⟩ := List.rdropWhile_prefix isBlank (t.dropWhile isBlank)
    have hhead := List.head?_dropWhile_not isBlank t
    rw [← hrest, ← strip_eq, List.head?_append, hc] at hhead
    exact hhead
  · intro c hc
    obtain ⟨hne, rfl⟩ := List.mem_getLast?_eq_getLast hc
    exact Bool.eq_false_iff.2 (List.rdropWhile_last_not isBlank (t.dropWhile isBlank) hne)

theorem dropArrow_sublist (t : Text) : (dropArrow t).Sublist t := by
  rw [dropArrow.eq_def]
  split
  · exact List.sublist_cons_self _ _
  · exact List.Sublist.refl _

theorem beforeComment_free {line : Text} {c : Char} (h : c ∈ beforeComment line) : c ≠ ';' := by
  have hne := List.mem_takeWhile_imp h
  simpa using hne

theorem beforeComment_of_free {line : Text} (h : ';' ∉ line) : beforeComment line = line := by
  refine List.takeWhile_eq_self_iff.2 fun c hc => ?_
  have hne : c ≠ ';' := fun heq => h (heq ▸ hc)
  simpa using hne

theorem readValue_sublist (value : Text) : (readValue value).Sublist (beforeComment value) :=
  (strip_sublist _).trans (dropArrow_sublist _)

/-- A value is read as it is written if it has no semicolon, no arrow at its front and no blanks
at its ends. -/
theorem readValue_eq_self {value : Text} :
    readValue value = value ↔ ';' ∉ value ∧ value.head? ≠ some '>' ∧ Stripped value := by
  constructor
  · intro h
    have hfree : ';' ∉ value := by
      intro hmem
      rw [← h] at hmem
      exact beforeComment_free ((readValue_sublist value).subset hmem) rfl
    refine ⟨hfree, ?_, h ▸ stripped_strip _⟩
    intro harrow
    obtain ⟨rest, rfl⟩ := List.head?_eq_some_iff.1 harrow
    rw [readValue, beforeComment_of_free hfree] at h
    have hshort := (strip_sublist rest).length_le
    rw [show strip rest = '>' :: rest from h, List.length_cons] at hshort
    exact absurd hshort (Nat.not_succ_le_self _)
  · rintro ⟨hfree, harrow, hstripped⟩
    rw [readValue, beforeComment_of_free hfree, dropArrow.eq_def]
    split
    · exact absurd rfl harrow
    · exact hstripped.strip

theorem stripped_of_free {t : Text} (h : ∀ c ∈ t, isBlank c = false) : Stripped t :=
  ⟨fun c hc => h c (List.mem_of_head? hc), fun c hc => h c (List.mem_of_getLast? hc)⟩

/-- What stands between two ends without blanks may be anything. -/
theorem stripped_between {a t b : Text} (ha : a ≠ []) (hb : b ≠ [])
    (h : ∀ c ∈ a ++ b, isBlank c = false) : Stripped (a ++ t ++ b) := by
  obtain ⟨hfront, hback⟩ := List.forall_mem_append.1 h
  constructor
  · intro c hc
    rw [List.append_assoc, List.head?_append_of_ne_nil a ha] at hc
    exact hfront c (List.mem_of_head? hc)
  · intro c hc
    rw [List.getLast?_append_of_ne_nil (a ++ t) hb] at hc
    exact hback c (List.mem_of_getLast? hc)

/-! ## Lines -/

theorem readLine_header {name : Text} (h : ∀ c ∈ name, c ≠ ']' ∧ c ≠ ';') :
    readLine ('[' :: name ++ [']']) = .header name := by
  have hclose : ']' ∉ name := fun hmem => (h _ hmem).1 rfl
  have hfree : ';' ∉ '[' :: name ++ [']'] := by
    have hsemi : ';' ∉ name := fun hmem => (h _ hmem).2 rfl
    simp [hsemi]
  rw [readLine, beforeComment_of_free hfree, List.cons_append,
    List.dropWhile_cons_of_neg (show ¬ isBlank '[' = true by decide)]
  simp only [cut_append hclose]

/-- What may stand before the equals sign of a generated line. -/
def isKey (key : Text) : Bool :=
  match key with
  | [] => false
  | c :: _ => c ≠ '[' && !isBlank c && key.all (fun d => d ≠ ';' && d ≠ '=')

theorem readLine_entry {key : Text} (h : isKey key = true) (value : Text) :
    readLine (key ++ '=' :: value) = .entry (strip key) (readValue value) := by
  cases key with
  | nil => cases h
  | cons c key =>
    simp only [isKey, Bool.and_eq_true, decide_eq_true_eq, Bool.not_eq_true', List.all_eq_true] at h
    obtain ⟨⟨hbracket, hblank⟩, hall⟩ := h
    have hequals : '=' ∉ c :: key := fun hmem => (hall _ hmem).2 rfl
    have hcomment : beforeComment (c :: key ++ '=' :: value) = c :: key ++ '=' :: beforeComment value := by
      rw [beforeComment, List.takeWhile_append_of_pos fun d hd => by simpa using (hall d hd).1,
        List.takeWhile_cons_of_pos (by decide)]
      rfl
    rw [readLine, hcomment, List.cons_append,
      List.dropWhile_cons_of_neg (Bool.not_eq_true _ ▸ hblank)]
    split
    · rename_i heq
      exact absurd (List.cons.inj heq).1 hbracket
    · rw [← List.cons_append, cut_append hequals]
      rfl

def NotHeader (line : Text) : Prop := ∀ name, readLine line ≠ .header name

/-! ## What can be read -/

theorem cut_fst_free {sep : Char} (t : Text) : ∀ c ∈ (cut sep t).1, c ≠ sep ∧ c ∈ t := by
  induction t with
  | nil => simp [cut]
  | cons d t ih =>
    rw [cut]
    split
    · simp
    · rename_i hd
      intro c hc
      rcases List.mem_cons.1 hc with rfl | hc
      · exact ⟨hd, List.mem_cons_self⟩
      · exact ⟨(ih c hc).1, List.mem_cons_of_mem _ (ih c hc).2⟩

theorem mem_of_cut_snd {sep : Char} {t rest : Text} (h : (cut sep t).2 = some rest) {c : Char}
    (hc : c ∈ rest) : c ∈ t := by
  induction t with
  | nil => cases h
  | cons d t ih =>
    rw [cut] at h
    split at h
    · exact List.mem_cons_of_mem _ (Option.some.inj h ▸ hc)
    · exact List.mem_cons_of_mem _ (ih h)

/-- The name of a header is cut out of its line, before a bracket and before a comment. -/
theorem name_of_readLine {line name : Text} (h : readLine line = .header name) {c : Char}
    (hc : c ∈ name) : c ≠ ']' ∧ c ≠ ';' ∧ c ∈ line := by
  rw [readLine] at h
  split at h
  · rename_i rest hrest
    have hname : (cut ']' rest).1 = name := by
      split at h
      · rename_i hcut
        rw [hcut]
        exact ConfLine.header.inj h
      · cases h
    obtain ⟨hne, hmem⟩ := cut_fst_free rest c (hname ▸ hc)
    have hcomment : c ∈ beforeComment line :=
      (List.dropWhile_sublist isBlank).subset (hrest ▸ List.mem_cons_of_mem _ hmem)
    exact ⟨hne, beforeComment_free hcomment, (List.takeWhile_sublist _).subset hcomment⟩
  · split at h <;> cases h

/-- The value of an entry is stripped, and cut out of its line before a comment. -/
theorem value_of_readLine {line key value : Text} (h : readLine line = .entry key value) :
    Stripped value ∧ ∀ c ∈ value, c ≠ ';' ∧ c ∈ line := by
  rw [readLine] at h
  split at h
  · split at h <;> cases h
  · split at h
    · rename_i raw hcut
      obtain ⟨-, rfl⟩ := ConfLine.entry.inj h
      refine ⟨stripped_strip _, fun c hc => ?_⟩
      have hraw := (dropArrow_sublist raw).subset ((strip_sublist _).subset hc)
      have hcomment : c ∈ beforeComment line :=
        (List.dropWhile_sublist isBlank).subset (mem_of_cut_snd (congrArg Prod.snd hcut) hraw)
      exact ⟨beforeComment_free hcomment, (List.takeWhile_sublist _).subset hcomment⟩
    · cases h

theorem lines_of_readLines (ls : List Text) :
    (∀ e ∈ (readLines ls).1, ∃ line ∈ ls, readLine line = .entry e.1 e.2) ∧
    ∀ sec ∈ (readLines ls).2, (∃ line ∈ ls, readLine line = .header sec.name) ∧
      ∀ e ∈ sec.entries, ∃ line ∈ ls, readLine line = .entry e.1 e.2 := by
  induction ls with
  | nil => exact ⟨fun e he => absurd he List.not_mem_nil, fun sec hsec => absurd hsec List.not_mem_nil⟩
  | cons line ls ih =>
    obtain ⟨hentries, hsections⟩ := ih
    have hmore {p : Text → Prop} : (∃ line ∈ ls, p line) → ∃ other ∈ line :: ls, p other := by
      rintro ⟨other, hother, hp⟩
      exact ⟨other, List.mem_cons_of_mem _ hother, hp⟩
    rw [readLines]
    split
    · rename_i name hname
      refine ⟨fun e he => absurd he List.not_mem_nil, fun sec hsec => ?_⟩
      rcases List.mem_cons.1 hsec with rfl | hsec
      · exact ⟨⟨line, List.mem_cons_self, hname⟩, fun e he => hmore (hentries e he)⟩
      · exact ⟨hmore (hsections sec hsec).1, fun e he => hmore ((hsections sec hsec).2 e he)⟩
    · rename_i key value hentry
      refine ⟨fun e he => ?_, fun sec hsec =>
        ⟨hmore (hsections sec hsec).1, fun e he => hmore ((hsections sec hsec).2 e he)⟩⟩
      rcases List.mem_cons.1 he with rfl | he
      · exact ⟨line, List.mem_cons_self, hentry⟩
      · exact hmore (hentries e he)
    · exact ⟨fun e he => hmore (hentries e he), fun sec hsec =>
        ⟨hmore (hsections sec hsec).1, fun e he => hmore ((hsections sec hsec).2 e he)⟩⟩

theorem isBreak_of_mem_textLines {s : String} {line : Text} (h : line ∈ textLines s) {c : Char}
    (hc : c ∈ line) : isBreak c = false := by
  obtain ⟨l, hl, rfl⟩ := List.mem_map.1 h
  exact hasBreak_eq_false_iff.1 (hasBreak_of_mem_lines hl) c hc

theorem name_of_mem_readConf {s : String} {sec : ConfSection} (h : sec ∈ readConf s) {c : Char}
    (hc : c ∈ sec.name) : c ≠ ']' ∧ c ≠ ';' ∧ isBreak c = false := by
  obtain ⟨line, hline, hread⟩ := ((lines_of_readLines (textLines s)).2 sec h).1
  obtain ⟨hclose, hsemi, hmem⟩ := name_of_readLine hread hc
  exact ⟨hclose, hsemi, isBreak_of_mem_textLines hline hmem⟩

theorem value_of_mem_readConf {s : String} {sec : ConfSection} (h : sec ∈ readConf s)
    {e : Text × Text} (he : e ∈ sec.entries) :
    Stripped e.2 ∧ ∀ c ∈ e.2, c ≠ ';' ∧ isBreak c = false := by
  obtain ⟨line, hline, hread⟩ := ((lines_of_readLines (textLines s)).2 sec h).2 e he
  obtain ⟨hstripped, hmem⟩ := value_of_readLine hread
  exact ⟨hstripped, fun c hc => ⟨(hmem c hc).1, isBreak_of_mem_textLines hline (hmem c hc).2⟩⟩

/-! ## Blocks -/

def entryOf (line : Text) : Option (Text × Text) :=
  match readLine line with
  | .entry key value => some (key, value)
  | _ => none

variable {secs : List ConfSection}

/-- A header, its lines, and blocks behind them. -/
theorem readLines_section {head name : Text} (hhead : readLine head = .header name)
    {body rest : List Text} (hbody : ∀ line ∈ body, NotHeader line)
    (hrest : readLines rest = ([], secs)) :
    readLines (head :: body ++ rest) = ([], ⟨name, body.filterMap entryOf⟩ :: secs) := by
  have hentries : readLines (body ++ rest) = (body.filterMap entryOf, secs) := by
    induction body with
    | nil => exact hrest
    | cons line body ih =>
      obtain ⟨hline, hbody⟩ := List.forall_mem_cons.1 hbody
      rw [List.cons_append, readLines, ih hbody]
      cases hread : readLine line with
      | header other => exact absurd hread (hline other)
      | entry key value => rw [List.filterMap_cons_some (by rw [entryOf, hread])]
      | other => rw [List.filterMap_cons_none (by rw [entryOf, hread])]
  rw [List.cons_append, readLines, hhead, hentries]

theorem readLines_append {xs ys : List Text} (h : readLines ys = ([], secs)) :
    readLines (xs ++ ys) = ((readLines xs).1, (readLines xs).2 ++ secs) := by
  induction xs with
  | nil => exact h
  | cons line xs ih =>
    rw [List.cons_append, readLines, readLines, ih]
    split <;> rfl

theorem readLines_blank {rest : List Text} (h : readLines rest = ([], secs)) :
    readLines ([] :: rest) = ([], secs) := h

/-! ## Sections as they are generated -/

def keyedLine (e : String × String) : String := e.1 ++ "=" ++ e.2

def sectionLines (name : String) (es : List (String × String)) : List String :=
  ("[" ++ name ++ "]") :: es.map keyedLine

/-- The section that the lines are read as. -/
def sectionOf (name : String) (es : List (String × String)) : ConfSection :=
  ⟨name.toList, es.map fun e => (strip e.1.toList, readValue e.2.toList)⟩

theorem value?_sectionOf_cons (name entryKey value : String) (es : List (String × String))
    (key : String) :
    (sectionOf name ((entryKey, value) :: es)).value? key =
      if strip entryKey.toList = key.toList then some (readValue value.toList)
      else (sectionOf name es).value? key := by
  rw [ConfSection.value?, ConfSection.value?, sectionOf, sectionOf, List.map_cons, List.lookup_cons]
  split
  · rename_i heq
    rw [if_pos (beq_iff_eq.1 heq).symm]
  · rename_i hne
    rw [if_neg fun heq => beq_eq_false_iff_ne.1 hne heq.symm]

theorem readLine_keyed {e : String × String} (h : isKey e.1.toList = true) :
    readLine (keyedLine e).toList = .entry (strip e.1.toList) (readValue e.2.toList) := by
  have hline : (keyedLine e).toList = e.1.toList ++ '=' :: e.2.toList := by
    simp [keyedLine]
  rw [hline]
  exact readLine_entry h e.2.toList

theorem readLines_sectionLines {name : String} (hname : ∀ c ∈ name.toList, c ≠ ']' ∧ c ≠ ';')
    {es : List (String × String)} (hkeys : ∀ e ∈ es, isKey e.1.toList = true) {rest : List Text}
    {secs : List ConfSection} (hrest : readLines rest = ([], secs)) :
    readLines ((sectionLines name es).map String.toList ++ rest) =
      ([], sectionOf name es :: secs) := by
  have hhead : readLine ("[" ++ name ++ "]").toList = .header name.toList := by
    have hline : ("[" ++ name ++ "]").toList = '[' :: name.toList ++ [']'] := by
      simp
    rw [hline]
    exact readLine_header hname
  have hbody : ∀ line ∈ (es.map keyedLine).map String.toList, NotHeader line := by
    intro line hline other hother
    obtain ⟨l, hl, rfl⟩ := List.mem_map.1 hline
    obtain ⟨e, he, rfl⟩ := List.mem_map.1 hl
    rw [readLine_keyed (hkeys e he)] at hother
    cases hother
  have hentries : ((es.map keyedLine).map String.toList).filterMap entryOf =
      es.map fun e => (strip e.1.toList, readValue e.2.toList) := by
    rw [List.map_map, List.filterMap_map]
    refine List.filterMap_eq_map_iff_forall_eq_some.2 fun e he => ?_
    rw [Function.comp_apply, Function.comp_apply, entryOf, readLine_keyed (hkeys e he)]
  rw [sectionLines, List.map_cons, readLines_section hhead hbody hrest, hentries]
  rfl

/-- The text is a block: its first line that says something is a header. -/
def Reads (s : String) (secs : List ConfSection) : Prop := readLines (textLines s) = ([], secs)

theorem Reads.readConf {s : String} (h : Reads s secs) :
    readConf s = secs := congrArg Prod.snd h

theorem reads_empty : Reads "" [] := rfl

theorem reads_unlines {ls : List String} (hne : ls ≠ []) (hbreak : ∀ l ∈ ls, hasBreak l = false)
    (h : readLines (ls.map String.toList) = ([], secs)) : Reads (unlines ls) secs := by
  rw [Reads, textLines, lines_unlines hne hbreak]
  exact h

theorem textLines_append_newline (s t : String) :
    textLines (s ++ "\n" ++ t) = textLines s ++ textLines t := by
  rw [textLines, lines_append_newline, List.map_append]
  rfl

theorem Reads.join {s t : String} {ss ts : List ConfSection} (hs : Reads s ss) (ht : Reads t ts) :
    Reads (s ++ "\n\n" ++ t) (ss ++ ts) := by
  have hsplit : s ++ "\n\n" ++ t = s ++ "\n" ++ ("" ++ "\n" ++ t) := by
    refine String.toList_inj.1 ?_
    simp
  have hblank : readLines (textLines ("" ++ "\n" ++ t)) = ([], ts) := by
    rw [textLines_append_newline]
    exact ht
  rw [Reads, hsplit, textLines_append_newline, readLines_append hblank, hs]

theorem reads_intercalate {parts : List (String × List ConfSection)}
    (h : ∀ part ∈ parts, Reads part.1 part.2) :
    Reads ("\n\n".intercalate (parts.map Prod.fst)) (parts.flatMap Prod.snd) := by
  induction parts with
  | nil => exact reads_empty
  | cons part parts ih =>
    obtain ⟨hpart, hparts⟩ := List.forall_mem_cons.1 h
    cases parts with
    | nil => simpa using hpart
    | cons next parts =>
      rw [List.map_cons, List.map_cons, String.intercalate_cons_cons, ← List.map_cons,
        List.flatMap_cons]
      exact hpart.join (ih hparts)

/-- The same where the empty texts are left out. -/
theorem reads_intercalate_filter {parts : List (String × List ConfSection)}
    (h : ∀ part ∈ parts, Reads part.1 part.2) :
    Reads ("\n\n".intercalate ((parts.map Prod.fst).filter (· ≠ "")))
      (parts.flatMap Prod.snd) := by
  have hkept : parts.flatMap Prod.snd =
      (parts.filter fun part => part.1 ≠ "").flatMap Prod.snd := by
    induction parts with
    | nil => rfl
    | cons part parts ih =>
      obtain ⟨hpart, hparts⟩ := List.forall_mem_cons.1 h
      rw [List.flatMap_cons, ih hparts, List.filter_cons]
      split
      · rfl
      · rename_i hempty
        have htext : part.1 = "" := by simpa using hempty
        rw [htext] at hpart
        rw [← hpart.readConf, show readConf "" = [] from rfl, List.nil_append]
  rw [hkept, List.filter_map]
  exact reads_intercalate fun part hpart => h part (List.mem_filter.1 hpart).1

/-! ## Texts of sections -/

/-- The sections with an empty line between them. -/
def blocksText (blocks : List (String × List (String × String))) : String :=
  "\n\n".intercalate (blocks.map fun block => unlines (sectionLines block.1 block.2))

/-- The entry is one line, and a key stands at its front. -/
structure CleanEntry (e : String × String) : Prop where
  key : isKey e.1.toList = true
  oneLine : hasBreak e.1 = false
  value : hasBreak e.2 = false

/-- The section is read back under its name and its keys. -/
structure CleanBlock (block : String × List (String × String)) : Prop where
  name : ∀ c ∈ block.1.toList, c ≠ ']' ∧ c ≠ ';' ∧ isBreak c = false
  entries : ∀ e ∈ block.2, CleanEntry e

theorem reads_blocksText {blocks : List (String × List (String × String))}
    (h : ∀ block ∈ blocks, CleanBlock block) :
    Reads (blocksText blocks) (blocks.map fun block => sectionOf block.1 block.2) := by
  have hone : ∀ block ∈ blocks,
      Reads (unlines (sectionLines block.1 block.2)) [sectionOf block.1 block.2] := by
    intro block hblock
    have hclean := h block hblock
    refine reads_unlines (List.cons_ne_nil _ _) ?_ ?_
    · intro l hl
      rcases List.mem_cons.1 hl with rfl | hl
      · rw [hasBreak_append, hasBreak_append,
          hasBreak_eq_false_iff.2 fun c hc => (hclean.name c hc).2.2]
        rfl
      · obtain ⟨e, he, rfl⟩ := List.mem_map.1 hl
        have hentry := hclean.entries e he
        rw [keyedLine, hasBreak_append, hasBreak_append, hentry.oneLine, hentry.value]
        rfl
    · rw [← List.append_nil ((sectionLines block.1 block.2).map String.toList)]
      exact readLines_sectionLines (fun c hc => ⟨(hclean.name c hc).1, (hclean.name c hc).2.1⟩)
        (fun e he => (hclean.entries e he).key) rfl
  have hall := @reads_intercalate (blocks.map fun block =>
    (unlines (sectionLines block.1 block.2), [sectionOf block.1 block.2])) (by
      intro part hpart
      obtain ⟨block, hblock, rfl⟩ := List.mem_map.1 hpart
      exact hone block hblock)
  have hsections : (blocks.map fun block => sectionOf block.1 block.2) =
      blocks.flatMap fun block => [sectionOf block.1 block.2] := List.map_eq_flatMap
  rw [List.map_map, List.flatMap_map] at hall
  rw [blocksText, hsections]
  exact hall

end ConfText
