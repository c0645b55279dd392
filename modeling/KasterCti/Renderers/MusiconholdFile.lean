import KasterCti.Ami.Parser
import KasterCti.Library.SectionDrop
import KasterCti.Library.TidyText
import KasterCti.Library.Utf8
import KasterCti.Renderers.PromptMusic

/-!
# The operator's musiconhold.conf

Every apply goes through the main file of the music classes: the sections of an earlier layout,
whose classes are in the include now, are dropped line by line, the line breaks are tidied, and the
include is put at the end where there is none. A section goes from a line with nothing but
`[branch-prompt-...]` on it to the next one with nothing but a bracketed name, or to an `#include`.

Results:
1. `decode_ensurePromptMohInclude`: the lines of the file afterwards.
2. `exists_isIncludeLine`: when the pattern of the include finds a line.
3. `ensure_ensure_iff`, `appliedFile_succ`: when the file settles with the first apply.
4. `musiconhold_edit_conservative`: what an edit keeps.
-/

namespace KasterCti.Renderers

open Ami (splitLines)
open Dialplan (Text)
open JsText (afterPrefix? isWhitespace trimChars)
open TidyText

/-! ## The file -/

def defaultMohDir : Text := "/var/lib/asterisk/moh".toList

def promptMohIncludeName : Text := promptMohIncludeFilename.toList

def promptMohIncludeLine : Text := "#include ".toList ++ promptMohIncludeName

def buildDefaultMusiconholdBaseContent (includeLine : Text) : Text :=
  joinLines
    ["; Managed by KAster CTI - base MOH file".toList,
      "[default]".toList,
      "mode=files".toList,
      "directory=".toList ++ defaultMohDir,
      "random=no".toList,
      [],
      includeLine,
      []]

/-- `/^\[branch-prompt-[^\]]+\]$/i`. -/
def isManagedHeader (trimmed : Text) : Bool :=
  match afterPrefix? "[branch-prompt-".toList (trimmed.map Char.toLower) with
  | some rest => rest.takeWhile (· ≠ ']') ≠ [] && rest.dropWhile (· ≠ ']') = [']']
  | none => false

/-- `/^\[.+\]$/`. -/
def isSectionHeader (trimmed : Text) : Bool :=
  match trimmed with
  | '[' :: rest => 2 ≤ rest.length && rest.getLast? = some ']' && !rest.any isLineTerminator
  | _ => false

/-- `/^#include\s+/`. -/
def isIncludeDirective (trimmed : Text) : Bool :=
  match afterPrefix? "#include".toList trimmed with
  | some (c :: _) => isWhitespace c
  | _ => false

def autoGeneratedMarker : Text := "; Auto-generated by KAster CTI - do not edit manually".toList

/-- The loop of `stripManagedPromptMohClasses`: the lines that it collects. -/
def cleanLines (skippingManagedSection : Bool) : List Text → List Text
  | [] => []
  | line :: lines =>
    let trimmed := trimChars line
    if isManagedHeader trimmed then cleanLines true lines
    else if skippingManagedSection && !(isSectionHeader trimmed || isIncludeDirective trimmed) then
      cleanLines true lines
    else if trimmed = autoGeneratedMarker then cleanLines false lines
    else line :: cleanLines false lines

def stripManagedPromptMohClasses (content : Text) : Text :=
  let cleaned := cleanLines false (splitLines content)
  let normalized := trimEnd (capBreaks 0 (joinLines cleaned))
  if trimChars normalized ≠ [] then normalized ++ ['\n']
  else buildDefaultMusiconholdBaseContent promptMohIncludeLine

/-- `#include\s+musiconhold_kaster_prompts\.conf` at the front of a text: what stands behind it. The
white space is all in front of the name, which begins with none. -/
def afterInclude? (cs : Text) : Option Text :=
  match afterPrefix? "#include".toList cs with
  | some (c :: rest) =>
    if isWhitespace c then afterPrefix? promptMohIncludeName (rest.dropWhile isWhitespace)
    else none
  | _ => none

/-- `$` with the flag `m`. -/
def atLineEnd : Text → Bool
  | [] => true
  | c :: _ => isLineTerminator c

/-- `includePattern.test`, where `lineStart` says that `^` holds at the front. -/
def includePatternTest (lineStart : Bool) : Text → Bool
  | [] => false
  | c :: cs => (lineStart && (afterInclude? (c :: cs)).any atLineEnd) ||
      includePatternTest (isLineTerminator c) cs

/-- The bytes of the main file, if there is one, and those that are there afterwards. -/
def ensurePromptMohInclude (main : Option (List UInt8)) : List UInt8 :=
  match main with
  | none => Utf8.encode (buildDefaultMusiconholdBaseContent promptMohIncludeLine)
  | some file =>
    let content := stripManagedPromptMohClasses (Utf8.decode file)
    if includePatternTest true content then
      if content ≠ Utf8.decode file then Utf8.encode content else file
    else
      let suffix := if content.getLast? = some '\n' then [] else ['\n']
      Utf8.encode (content ++ suffix ++ '\n' :: promptMohIncludeLine ++ ['\n'])

/-! ## The lines that stay -/

def opensManaged (line : Text) : Bool := isManagedHeader (trimChars line)

def endsManaged (line : Text) : Bool :=
  isSectionHeader (trimChars line) || isIncludeDirective (trimChars line)

def isMarker (line : Text) : Bool := trimChars line = autoGeneratedMarker

/-- The lines outside of the managed sections, but for the marker. -/
def otherLines (text : Text) : List Text :=
  (SectionDrop.outside opensManaged endsManaged (splitLines text)).filter (!isMarker ·)

/-- The same, tidied. -/
def keptLines (text : Text) : List Text := tidyLines (otherLines text)

theorem cleanLines_eq (skipping : Bool) (lines : List Text) :
    cleanLines skipping lines =
      (SectionDrop.drop opensManaged endsManaged skipping lines).filter (!isMarker ·) := by
  induction lines generalizing skipping with
  | nil => rfl
  | cons line lines ih =>
    rw [cleanLines, SectionDrop.drop_cons]
    split
    · rename_i hopens
      rw [ih, if_pos (show opensManaged line = true from hopens)]
    · rename_i hopens
      rw [if_neg (show ¬ opensManaged line = true from hopens)]
      split
      · rename_i hskip
        rw [ih, if_pos (show (skipping && !endsManaged line) = true from hskip)]
      · rename_i hskip
        rw [if_neg (show ¬ (skipping && !endsManaged line) = true from hskip)]
        split
        · rename_i hmarker
          rw [ih, List.filter_cons_of_neg (by simp [isMarker, hmarker])]
        · rename_i hmarker
          rw [ih, List.filter_cons_of_pos (by simp [isMarker, hmarker])]

theorem cleanLines_splitLines (text : Text) :
    cleanLines false (splitLines text) = otherLines text := by
  rw [cleanLines_eq, SectionDrop.drop_eq_outside, otherLines]

variable {text line : Text}

theorem newline_not_mem_splitLines (h : line ∈ splitLines text) : '\n' ∉ line := by
  induction text using Ami.splitLines.induct generalizing line with
  | case1 rest ih | case2 rest ih =>
    rcases List.mem_cons.mp h with rfl | h
    · exact List.not_mem_nil
    · exact ih h
  | case3 c rest hcr hlf ih =>
    rw [splitLines] at h
    · obtain ⟨first, more, hsplit⟩ : ∃ first more, splitLines rest = first :: more := by
        cases hsplit : splitLines rest with
        | nil =>
          rw [hsplit] at h
          cases h
        | cons first more => exact ⟨first, more, rfl⟩
      rw [hsplit] at h ih
      rcases List.mem_cons.mp h with rfl | h
      · intro hmem
        rcases List.mem_cons.mp hmem with hc | hmem
        · exact hlf hc.symm
        · exact ih List.mem_cons_self hmem
      · exact ih (List.mem_cons_of_mem _ h)
    · exact hcr
    · exact hlf
  | case4 =>
    rw [List.mem_singleton.mp h]
    exact List.not_mem_nil

/-- A line as it is read: a carriage return before the break belongs to the break. -/
def dropReturn (line : Text) : Text := if line.getLast? = some '\r' then line.dropLast else line

theorem dropReturn_eq_self {line : Text} (h : line.getLast? ≠ some '\r') : dropReturn line = line :=
  if_neg h

theorem trimEnd_dropReturn (line : Text) : trimEnd (dropReturn line) = trimEnd line := by
  rw [dropReturn]
  split
  · rename_i hreturn
    obtain ⟨front, rfl⟩ := List.getLast?_eq_some_iff.mp hreturn
    rw [List.dropLast_concat, trimEnd_append, if_pos (by decide)]
  · rfl

theorem trimChars_dropReturn (line : Text) : trimChars (dropReturn line) = trimChars line := by
  rw [← trimChars_trimEnd, trimEnd_dropReturn, trimChars_trimEnd]

theorem splitLines_break {line : Text} (h : '\n' ∉ line) (rest : Text) :
    splitLines (line ++ '\n' :: rest) = dropReturn line :: splitLines rest := by
  induction line with
  | nil => rfl
  | cons c line ih =>
    obtain ⟨hc, hline⟩ := not_or.mp (mt List.mem_cons.mpr h)
    cases line with
    | nil =>
      by_cases hreturn : c = '\r'
      · rw [hreturn]
        rfl
      · rw [dropReturn_eq_self (by simpa using hreturn), List.singleton_append, splitLines]
        · rfl
        · exact fun tail heq => absurd heq hreturn
        · exact fun heq => hc heq.symm
    | cons d line =>
      have hdrop : dropReturn (c :: d :: line) = c :: dropReturn (d :: line) := by
        rw [dropReturn, dropReturn, List.getLast?_cons_cons, List.dropLast_cons_cons]
        split <;> rfl
      rw [List.cons_append, splitLines, ih hline, hdrop]
      · rfl
      · intro tail _ htail
        exact hline (List.mem_cons.mpr (.inl (List.cons.inj htail).1.symm))
      · exact fun heq => hc heq.symm

variable {lines : List Text}

theorem splitLines_joinLines (h : ∀ line ∈ lines, '\n' ∉ line) :
    splitLines (joinLines (lines ++ [[]])) = lines.map dropReturn ++ [[]] := by
  induction lines with
  | nil => rfl
  | cons line lines ih =>
    obtain ⟨hline, hlines⟩ := List.forall_mem_cons.mp h
    rw [List.cons_append, joinLines_cons (List.append_ne_nil_of_right_ne_nil _ (List.cons_ne_nil _ _)),
      splitLines_break hline, ih hlines]
    rfl

/-! ## The lines afterwards -/

/-- The lines of the file that is written where there is none. -/
def defaultLines : List Text :=
  ["; Managed by KAster CTI - base MOH file".toList, "[default]".toList, "mode=files".toList,
    "directory=".toList ++ defaultMohDir, "random=no".toList, [], promptMohIncludeLine]

def ensuredLines (text : Text) : List Text :=
  if keptLines text = [] then defaultLines
  else if includePatternTest true (joinLines (keptLines text ++ [[]])) then keptLines text
  else keptLines text ++ [[], promptMohIncludeLine]

theorem buildDefaultMusiconholdBaseContent_eq :
    buildDefaultMusiconholdBaseContent promptMohIncludeLine = joinLines (defaultLines ++ [[]]) := rfl

theorem newline_not_mem_otherLines (h : line ∈ otherLines text) : '\n' ∉ line := by
  rw [otherLines, ← SectionDrop.drop_eq_outside] at h
  exact newline_not_mem_splitLines
    ((SectionDrop.drop_sublist false _).subset (List.mem_of_mem_filter h))

theorem stripManagedPromptMohClasses_eq (text : Text) :
    stripManagedPromptMohClasses text =
      if keptLines text = [] then joinLines (defaultLines ++ [[]])
      else joinLines (keptLines text ++ [[]]) := by
  have hblank : trimChars (joinLines (keptLines text)) = [] ↔ keptLines text = [] :=
    trimChars_joinLines_tidyLines
  rw [stripManagedPromptMohClasses, cleanLines_splitLines,
    trimEnd_capBreaks_joinLines fun line => newline_not_mem_otherLines, ← keptLines,
    buildDefaultMusiconholdBaseContent_eq]
  by_cases hkept : keptLines text = []
  · rw [if_pos hkept, if_neg fun hne => hne (hblank.mpr hkept)]
  · rw [if_neg hkept, if_pos (mt hblank.mp hkept),
      joinLines_append hkept (List.cons_ne_nil _ _)]
    rfl

theorem includePatternTest_defaultLines :
    includePatternTest true (joinLines (defaultLines ++ [[]])) = true := by
  decide

theorem getLast?_joinLines_concat (h : lines ≠ []) :
    (joinLines (lines ++ [[]])).getLast? = some '\n' := by
  rw [joinLines_append h (List.cons_ne_nil _ _)]
  exact List.getLast?_concat

theorem decode_encode (cs : Text) : Utf8.decode (Utf8.encode cs) = cs := by
  have happend := Utf8.decode_encode_append cs []
  rw [List.append_nil] at happend
  exact happend.trans (List.append_nil cs)

/-- The file afterwards, line by line. -/
theorem decode_ensurePromptMohInclude (file : List UInt8) :
    Utf8.decode (ensurePromptMohInclude (some file)) =
      joinLines (ensuredLines (Utf8.decode file) ++ [[]]) := by
  have hwritten (content : Text) : Utf8.decode
      (if content ≠ Utf8.decode file then Utf8.encode content else file) = content := by
    split
    · exact decode_encode content
    · rename_i hsame
      exact (not_not.mp hsame).symm
  rw [ensurePromptMohInclude, stripManagedPromptMohClasses_eq, ensuredLines]
  by_cases hkept : keptLines (Utf8.decode file) = []
  · rw [if_pos hkept, if_pos hkept, if_pos includePatternTest_defaultLines, hwritten]
  · rw [if_neg hkept, if_neg hkept]
    split
    · rw [hwritten]
    · have hlines : keptLines (Utf8.decode file) ++ [[], promptMohIncludeLine] ++ [[]] =
          keptLines (Utf8.decode file) ++ [[], promptMohIncludeLine, []] := by simp
      rw [decode_encode, if_pos (getLast?_joinLines_concat hkept), List.append_nil, hlines,
        joinLines_append hkept (List.cons_ne_nil _ _), joinLines_append hkept (List.cons_ne_nil _ _)]
      simp only [List.append_assoc, List.cons_append]
      rfl

/-! ## The include -/

/-- A match is the directive, white space and the name. -/
theorem afterInclude?_eq_some {cs rest : Text} :
    afterInclude? cs = some rest ↔ ∃ white, white ≠ [] ∧ (∀ c ∈ white, isWhitespace c = true) ∧
      cs = "#include".toList ++ white ++ promptMohIncludeName ++ rest := by
  have hname (white : Text) (hwhite : ∀ c ∈ white, isWhitespace c = true) :
      (white ++ promptMohIncludeName ++ rest).dropWhile isWhitespace =
        promptMohIncludeName ++ rest := by
    rw [List.append_assoc, List.dropWhile_append_of_pos hwhite]
    rfl
  constructor
  · intro h
    rw [afterInclude?] at h
    split at h
    · rename_i c tail hdirective
      split at h
      · rename_i hc
        have htail := JsText.afterPrefix?_eq_some.mp h
        refine ⟨c :: tail.takeWhile isWhitespace, List.cons_ne_nil _ _, ?_, ?_⟩
        · exact List.forall_mem_cons.mpr ⟨hc, fun d hd => List.mem_takeWhile_imp hd⟩
        · rw [JsText.afterPrefix?_eq_some.mp hdirective]
          simp only [List.append_assoc, List.cons_append]
          rw [← htail, List.takeWhile_append_dropWhile]
      · cases h
    · cases h
  · rintro ⟨white, hne, hwhite, rfl⟩
    obtain ⟨c, white, rfl⟩ := List.exists_cons_of_ne_nil hne
    obtain ⟨hc, hwhite⟩ := List.forall_mem_cons.mp hwhite
    have hdirective : afterPrefix? "#include".toList
        ("#include".toList ++ (c :: white) ++ promptMohIncludeName ++ rest) =
          some (c :: (white ++ promptMohIncludeName ++ rest)) :=
      JsText.afterPrefix?_eq_some.mpr (by simp)
    rw [afterInclude?, hdirective]
    dsimp only
    rw [if_pos hc, hname white hwhite]
    exact JsText.afterPrefix?_eq_some.mpr rfl

theorem includePatternTest_cons (lineStart : Bool) (c : Char) (cs : Text) :
    includePatternTest lineStart (c :: cs) = ((lineStart && (afterInclude? (c :: cs)).any atLineEnd) ||
      includePatternTest (isLineTerminator c) cs) :=
  rfl

theorem includePatternTest_behind {rest : Text} (h : includePatternTest true rest = true)
    (lineStart : Bool) (cs : Text) : includePatternTest lineStart (cs ++ '\n' :: rest) = true := by
  induction cs generalizing lineStart with
  | nil =>
    rw [List.nil_append, includePatternTest_cons, show isLineTerminator '\n' = true from rfl, h,
      Bool.or_true]
  | cons c cs ih => rw [List.cons_append, includePatternTest_cons, ih, Bool.or_true]

/-- A match begins at the front or behind a line terminator of the line, or it comes later. -/
theorem match_of_includePatternTest {lineStart : Bool} {line rest : Text}
    (h : includePatternTest lineStart (line ++ '\n' :: rest) = true) :
    (∃ before behind, line = before ++ behind ∧
      (before = [] ∧ lineStart = true ∨ ∃ c ∈ before, isLineTerminator c = true) ∧
      (afterInclude? (behind ++ '\n' :: rest)).any atLineEnd = true) ∨
    includePatternTest true rest = true := by
  induction line generalizing lineStart with
  | nil =>
    rw [List.nil_append, includePatternTest_cons, show afterInclude? ('\n' :: rest) = none from rfl,
      Option.any_none, Bool.and_false, Bool.false_or] at h
    exact .inr h
  | cons c line ih =>
    rw [List.cons_append, includePatternTest_cons, Bool.or_eq_true, Bool.and_eq_true] at h
    rcases h with ⟨hstart, hmatch⟩ | h
    · exact .inl ⟨[], c :: line, rfl, .inl ⟨rfl, hstart⟩, hmatch⟩
    · rcases ih h with ⟨before, behind, rfl, hbefore, hmatch⟩ | hrest
      · refine .inl ⟨c :: before, behind, rfl, .inr ?_, hmatch⟩
        rcases hbefore with ⟨-, hc⟩ | ⟨d, hd, hterm⟩
        · exact ⟨c, List.mem_cons_self, hc⟩
        · exact ⟨d, List.mem_cons_of_mem _ hd, hterm⟩
      · exact .inr hrest

/-- The line is the include and nothing else. -/
def isIncludeLine (line : Text) : Bool := afterInclude? line = some []

/-- An `#include` has its name on its line, and no other line terminator stands in the line. -/
def WholeInclude (line : Text) : Prop :=
  "#include".toList <:+: line →
    (∀ c ∈ line, isLineTerminator c = false) ∧ trimEnd line ≠ "#include".toList

instance : DecidablePred WholeInclude := fun line =>
  inferInstanceAs (Decidable ("#include".toList <:+: line →
    (∀ c ∈ line, isLineTerminator c = false) ∧ trimEnd line ≠ "#include".toList))

/-- A front without the separator ends before it. -/
theorem append_of_append_eq {front rest cs ds : Text} {sep : Char} (hsep : sep ∉ front)
    (h : front ++ rest = cs ++ sep :: ds) : ∃ more, cs = front ++ more ∧ rest = more ++ sep :: ds := by
  rcases List.append_eq_append_iff.mp h with ⟨more, hcs, hrest⟩ | ⟨more, hfront, hrest⟩
  · exact ⟨more, hcs, hrest⟩
  · cases more with
    | nil => exact ⟨[], by simpa using hfront.symm, by simpa using hrest.symm⟩
    | cons c more =>
      obtain ⟨rfl, -⟩ := List.cons.inj hrest
      exact absurd (hfront ▸ List.mem_append_right _ List.mem_cons_self) hsep

theorem isIncludeLine_of_match {line rest : Text} (hbreak : '\n' ∉ line) (hwhole : WholeInclude line)
    {before behind : Text} (hline : line = before ++ behind)
    (hbefore : before = [] ∨ ∃ c ∈ before, isLineTerminator c = true)
    (hmatch : (afterInclude? (behind ++ '\n' :: rest)).any atLineEnd = true) :
    isIncludeLine line = true := by
  obtain ⟨more, hmore, hend⟩ := (Option.any_eq_true _ _).mp hmatch
  obtain ⟨white, hne, hwhite, htext⟩ := afterInclude?_eq_some.mp hmore
  rw [List.append_assoc, List.append_assoc] at htext
  obtain ⟨tail, rfl, htail⟩ := append_of_append_eq (by decide) htext.symm
  obtain ⟨hterm, htrim⟩ := hwhole ⟨before, tail, by rw [hline, List.append_assoc]⟩
  obtain rfl : before = [] := by
    refine hbefore.resolve_right fun ⟨c, hc, hcterm⟩ => ?_
    rw [hterm c (hline ▸ List.mem_append_left _ hc)] at hcterm
    cases hcterm
  rw [List.nil_append] at hline
  have hbreakTail : '\n' ∉ tail := fun hmem => hbreak (hline ▸ List.mem_append_right _ hmem)
  -- with a break in its white space the match would leave the directive alone on its line
  have hbreakWhite : '\n' ∉ white := by
    intro hmem
    obtain ⟨front, back, rfl, hfront⟩ := List.eq_append_cons_of_mem hmem
    rw [List.append_assoc, List.cons_append] at htail
    obtain ⟨rfl, -⟩ := JsText.append_sep_inj hfront hbreakTail htail
    refine htrim ?_
    rw [hline, trimEnd_append, if_pos]
    · rfl
    · exact trimEnd_eq_nil_iff.mpr fun c hc => hwhite c (List.mem_append_left _ hc)
  have hbreakName : '\n' ∉ white ++ promptMohIncludeName := fun hmem =>
    (List.mem_append.mp hmem).elim hbreakWhite (by decide)
  rw [← List.append_assoc] at htail
  obtain ⟨last, rfl, rfl⟩ := append_of_append_eq hbreakName htail
  have hlast : last = [] := by
    cases last with
    | nil => rfl
    | cons c last =>
      have hc : isLineTerminator c = true := hend
      rw [hterm c (hline ▸ by simp)] at hc
      cases hc
  refine decide_eq_true (afterInclude?_eq_some.mpr ⟨white, hne, hwhite, ?_⟩)
  rw [hline, hlast, List.append_nil, List.append_nil, List.append_assoc]

/-- Where every include is whole, the pattern finds one only as a line. -/
theorem exists_isIncludeLine (hbreak : ∀ line ∈ lines, '\n' ∉ line)
    (hwhole : ∀ line ∈ lines, WholeInclude line)
    (h : includePatternTest true (joinLines (lines ++ [[]])) = true) :
    ∃ line ∈ lines, isIncludeLine line = true := by
  induction lines with
  | nil => exact absurd h (by decide)
  | cons line lines ih =>
    obtain ⟨hbreakLine, hbreak⟩ := List.forall_mem_cons.mp hbreak
    obtain ⟨hwholeLine, hwhole⟩ := List.forall_mem_cons.mp hwhole
    rw [List.cons_append, joinLines_cons (List.append_ne_nil_of_right_ne_nil _ (List.cons_ne_nil _ _))]
      at h
    rcases match_of_includePatternTest h with ⟨before, behind, hline, hbefore, hmatch⟩ | hrest
    · exact ⟨line, List.mem_cons_self,
        isIncludeLine_of_match hbreakLine hwholeLine hline (hbefore.imp_left And.left) hmatch⟩
    · obtain ⟨found, hfound, hinclude⟩ := ih hbreak hwhole hrest
      exact ⟨found, List.mem_cons_of_mem _ hfound, hinclude⟩

/-! ## What an edit leaves -/

/-- One line that no edit drops. -/
structure PlainLine (line : Text) : Prop where
  oneLine : '\n' ∉ line
  unmanaged : opensManaged line = false
  unmarked : isMarker line = false

/-- The lines of a file that an edit leaves alone. -/
structure Settled (lines : List Text) : Prop where
  tidy : Tidy lines
  nonempty : lines ≠ []
  plain : ∀ line ∈ lines, PlainLine line
  included : includePatternTest true (joinLines (lines ++ [[]])) = true

theorem plainLine_of_mem_otherLines (h : line ∈ otherLines text) : PlainLine line := by
  have hline := h
  rw [otherLines, ← SectionDrop.drop_eq_outside] at hline
  obtain ⟨hdrop, hmarker⟩ := List.mem_filter.mp hline
  exact ⟨newline_not_mem_otherLines h, SectionDrop.opens_of_mem_drop hdrop, by simpa using hmarker⟩

theorem plainLine_of_mem_keptLines (h : line ∈ keptLines text) : PlainLine line := by
  obtain ⟨other, hother, rfl | rfl⟩ := mem_tidyLines h
  · exact plainLine_of_mem_otherLines hother
  · have hplain := plainLine_of_mem_otherLines hother
    refine ⟨fun hmem => hplain.oneLine ((trimEnd_front other).subset hmem), ?_, ?_⟩
    · rw [opensManaged, trimChars_trimEnd]
      exact hplain.unmanaged
    · rw [isMarker, trimChars_trimEnd]
      exact hplain.unmarked

theorem plainLine_of_decide
    (h : ∀ line ∈ lines, '\n' ∉ line ∧ opensManaged line = false ∧ isMarker line = false) :
    ∀ line ∈ lines, PlainLine line := fun line hline =>
  ⟨(h line hline).1, (h line hline).2.1, (h line hline).2.2⟩

theorem settled_defaultLines : Settled defaultLines where
  tidy := ⟨by decide, by decide⟩
  nonempty := List.cons_ne_nil _ _
  plain := plainLine_of_decide (by decide)
  included := includePatternTest_defaultLines

theorem settled_ensuredLines (text : Text) : Settled (ensuredLines text) := by
  have htidy : Tidy (keptLines text) := tidy_tidyLines _
  have hplain : ∀ line ∈ keptLines text, PlainLine line := fun line => plainLine_of_mem_keptLines
  rw [ensuredLines]
  split
  · exact settled_defaultLines
  · rename_i hkept
    split
    · rename_i hincluded
      exact ⟨htidy, hkept, hplain, hincluded⟩
    · have hadded : ∀ line ∈ [[], promptMohIncludeLine], PlainLine line :=
        plainLine_of_decide (by decide)
      refine ⟨htidy.append_line hkept (List.cons_ne_nil _ _) (by decide), ?_, ?_, ?_⟩
      · exact List.append_ne_nil_of_left_ne_nil hkept _
      · exact List.forall_mem_append.mpr ⟨hplain, hadded⟩
      · have hlines : keptLines text ++ [[], promptMohIncludeLine] ++ [[]] =
            keptLines text ++ [[]] ++ [promptMohIncludeLine, []] := by simp
        rw [hlines, joinLines_append (List.append_ne_nil_of_left_ne_nil hkept _)
          (List.cons_ne_nil _ _)]
        exact includePatternTest_behind (by decide) true _

theorem splitOn_joinLines (h : ∀ line ∈ lines, PlainLine line) :
    (joinLines (lines ++ [[]])).splitOn '\n' = lines ++ [[]] :=
  List.splitOn_intercalate '\n'
    (List.forall_mem_append.mpr ⟨fun line hline => (h line hline).oneLine, by simp⟩) (by simp)

theorem Settled.keptLines_eq (h : Settled lines) :
    keptLines (joinLines (lines ++ [[]])) = tidyLines (lines.map dropReturn ++ [[]]) := by
  have hread : ∀ line ∈ lines.map dropReturn ++ [[]],
      opensManaged line = false ∧ isMarker line = false := by
    refine List.forall_mem_append.mpr ⟨List.forall_mem_map.mpr fun line hline => ?_, by decide⟩
    rw [opensManaged, isMarker, trimChars_dropReturn]
    exact ⟨(h.plain line hline).unmanaged, (h.plain line hline).unmarked⟩
  rw [keptLines, otherLines, splitLines_joinLines fun line hline => (h.plain line hline).oneLine,
    ← SectionDrop.drop_eq_outside, SectionDrop.drop_eq_self fun line hline => (hread line hline).1,
    List.filter_eq_self.mpr fun line hline => by rw [(hread line hline).2]; rfl]

/-- How many carriage returns the lines hold. -/
def returns (lines : List Text) : ℕ := lines.flatten.count '\r'

theorem returns_append (lines more : List Text) : returns (lines ++ more) = returns lines + returns more := by
  rw [returns, List.flatten_append, List.count_append]
  rfl

theorem returns_tidyLines_le (lines : List Text) : returns (tidyLines lines) ≤ returns lines :=
  (flatten_tidyLines_sublist lines).count_le _

theorem returns_ensuredLines_le (text : Text) : returns (ensuredLines text) ≤ returns (keptLines text) := by
  rw [ensuredLines]
  split
  · rw [show returns defaultLines = 0 by decide]
    exact Nat.zero_le _
  · split
    · exact Nat.le_refl _
    · rw [returns_append, show returns [[], promptMohIncludeLine] = 0 by decide]
      exact Nat.le_refl _

/-- Reading loses a carriage return of every line that ends in one. -/
theorem returns_map_dropReturn (lines : List Text) :
    returns (lines.map dropReturn) + lines.countP (·.getLast? = some '\r') = returns lines := by
  induction lines with
  | nil => rfl
  | cons line lines ih =>
    have hone : (dropReturn line).count '\r' + (if line.getLast? = some '\r' then 1 else 0) =
        line.count '\r' := by
      rw [dropReturn]
      split
      · rename_i hreturn
        obtain ⟨front, rfl⟩ := List.getLast?_eq_some_iff.mp hreturn
        rw [List.dropLast_concat, List.count_append]
        rfl
      · rfl
    simp only [returns, List.map_cons, List.flatten_cons, List.count_append, List.countP_cons,
      decide_eq_true_eq] at ih ⊢
    omega

/-- A settled file is written again only if a line of it ends in a carriage return. -/
theorem Settled.ensure_eq_iff (h : Settled lines) {file : List UInt8}
    (hfile : Utf8.decode file = joinLines (lines ++ [[]])) :
    ensurePromptMohInclude (some file) = file ↔ ∀ line ∈ lines, line.getLast? ≠ some '\r' := by
  constructor
  · intro heq line hline hreturn
    have hlines : ensuredLines (Utf8.decode file) = lines := by
      have htext := decode_ensurePromptMohInclude file
      rw [heq, hfile] at htext
      have hsplit := congrArg (List.splitOn '\n') htext
      rw [splitOn_joinLines h.plain, splitOn_joinLines (settled_ensuredLines _).plain] at hsplit
      rw [hfile]
      exact (List.append_cancel_right hsplit).symm
    have hlost : 0 < lines.countP (·.getLast? = some '\r') :=
      List.countP_pos_iff.mpr ⟨line, hline, decide_eq_true hreturn⟩
    have hcount := returns_map_dropReturn lines
    have hensured := returns_ensuredLines_le (Utf8.decode file)
    have hkept := returns_tidyLines_le (lines.map dropReturn ++ [[]])
    rw [returns_append, show returns [[]] = 0 from rfl] at hkept
    rw [hlines, hfile, h.keptLines_eq] at hensured
    omega
  · intro hreturn
    have hmap : lines.map dropReturn = lines :=
      (List.map_congr_left fun line hline => dropReturn_eq_self (hreturn line hline)).trans
        (List.map_id lines)
    have hstrip : stripManagedPromptMohClasses (Utf8.decode file) = Utf8.decode file := by
      rw [stripManagedPromptMohClasses_eq, hfile, h.keptLines_eq, hmap,
        h.tidy.concat_empty h.nonempty, if_neg h.nonempty]
    have hincluded : includePatternTest true (Utf8.decode file) = true := hfile ▸ h.included
    rw [ensurePromptMohInclude, hstrip, if_pos hincluded, if_neg fun hne => hne rfl]

/-- What the texts of the file before and after an edit have in common. -/
structure ConservativeEdit (before after : Text) : Prop where
  included : includePatternTest true after = true
  unmanaged : ∀ line ∈ after.splitOn '\n', opensManaged line = false
  /-- The lines that stay are the first ones afterwards, in their order. -/
  kept : keptLines before <+: after.splitOn '\n'
  /-- No line that says something is missing. -/
  nonBlank : nonBlank (otherLines before) <+: nonBlank (after.splitOn '\n')

theorem keptLines_front (text : Text) : keptLines text <+: ensuredLines text := by
  rw [ensuredLines]
  split
  · rename_i hkept
    rw [hkept]
    exact List.nil_prefix
  · split
    · exact List.prefix_rfl
    · exact List.prefix_append _ _

theorem conservativeEdit (file : List UInt8) :
    ConservativeEdit (Utf8.decode file) (Utf8.decode (ensurePromptMohInclude (some file))) := by
  have hsettled := settled_ensuredLines (Utf8.decode file)
  have hplain : ∀ line ∈ ensuredLines (Utf8.decode file) ++ [[]], PlainLine line :=
    List.forall_mem_append.mpr ⟨hsettled.plain, plainLine_of_decide (by decide)⟩
  have hfront : keptLines (Utf8.decode file) <+: ensuredLines (Utf8.decode file) ++ [[]] :=
    (keptLines_front _).trans (List.prefix_append _ _)
  rw [decode_ensurePromptMohInclude]
  refine ⟨hsettled.included, ?_, ?_, ?_⟩ <;> rw [splitOn_joinLines hsettled.plain]
  · exact fun line hline => (hplain line hline).unmanaged
  · exact hfront
  · obtain ⟨more, hmore⟩ := hfront
    rw [← hmore, nonBlank_append, keptLines, nonBlank_tidyLines]
    exact List.prefix_append _ _

theorem exists_isIncludeLine_ensuredLines {text : Text}
    (h : ∀ line ∈ keptLines text, WholeInclude line) :
    ∃ line ∈ ensuredLines text, isIncludeLine line = true := by
  rw [ensuredLines]
  split
  · exact ⟨promptMohIncludeLine, by decide, by decide⟩
  · split
    · rename_i hincluded
      exact exists_isIncludeLine (fun line hline => (plainLine_of_mem_keptLines hline).oneLine) h
        hincluded
    · exact ⟨promptMohIncludeLine, List.mem_append_right _ (by simp), by decide⟩

theorem getLast?_ensuredLines {text : Text}
    (h : ∀ line ∈ keptLines text, line.getLast? ≠ some '\r') :
    ∀ line ∈ ensuredLines text, line.getLast? ≠ some '\r' := by
  rw [ensuredLines]
  split
  · decide
  · split
    · exact h
    · exact List.forall_mem_append.mpr ⟨h, by decide⟩

/-- The second apply changes nothing exactly if no line that stays ends in a carriage return. -/
theorem ensure_ensure_iff (file : List UInt8) :
    ensurePromptMohInclude (some (ensurePromptMohInclude (some file))) =
      ensurePromptMohInclude (some file) ↔
    ∀ line ∈ keptLines (Utf8.decode file), line.getLast? ≠ some '\r' := by
  rw [(settled_ensuredLines _).ensure_eq_iff (decode_ensurePromptMohInclude file)]
  exact ⟨fun h line hline => h line ((keptLines_front _).subset hline), getLast?_ensuredLines⟩

/-- Every apply edits the file that the last one left. -/
def appliedFile (main : Option (List UInt8)) : ℕ → Option (List UInt8)
  | 0 => main
  | n + 1 => some (ensurePromptMohInclude (appliedFile main n))

/-- The first apply settles the file. -/
theorem appliedFile_succ {main : Option (List UInt8)}
    (h : ∀ file, main = some file →
      ∀ line ∈ keptLines (Utf8.decode file), line.getLast? ≠ some '\r') (n : ℕ) :
    appliedFile main (n + 1) = some (ensurePromptMohInclude main) := by
  induction n with
  | zero => rfl
  | succ n ih =>
    rw [appliedFile, ih]
    cases main with
    | none => exact congrArg some (((settled_defaultLines.ensure_eq_iff (decode_encode _)).mpr (by decide)))
    | some file => rw [(ensure_ensure_iff file).mpr (h file rfl)]

theorem musiconhold_edit_conservative (file : List UInt8) :
    ConservativeEdit (Utf8.decode file) (Utf8.decode (ensurePromptMohInclude (some file))) ∧
    ((∀ line ∈ keptLines (Utf8.decode file), WholeInclude line) →
      ∃ line ∈ (Utf8.decode (ensurePromptMohInclude (some file))).splitOn '\n',
        isIncludeLine line = true) ∧
    ((∀ line ∈ keptLines (Utf8.decode file), line.getLast? ≠ some '\r') →
      ensurePromptMohInclude (some (ensurePromptMohInclude (some file))) =
        ensurePromptMohInclude (some file)) := by
  refine ⟨conservativeEdit file, fun hwhole => ?_, (ensure_ensure_iff file).mpr⟩
  obtain ⟨line, hline, hinclude⟩ := exists_isIncludeLine_ensuredLines hwhole
  refine ⟨line, ?_, hinclude⟩
  rw [decode_ensurePromptMohInclude, splitOn_joinLines (settled_ensuredLines _).plain]
  exact List.mem_append_left _ hline

/-- A file of an earlier layout, written with both line breaks. -/
def operatorFile : List UInt8 :=
  Utf8.encode "; site\r\n\n\n\n[branch-prompt-a]\nmode=files\n[lobby]\n".toList

theorem operator_edit_conservative :
    (∃ line ∈ (Utf8.decode (ensurePromptMohInclude (some operatorFile))).splitOn '\n',
      isIncludeLine line = true) ∧
    ensurePromptMohInclude (some (ensurePromptMohInclude (some operatorFile))) =
      ensurePromptMohInclude (some operatorFile) ∧
    ConservativeEdit (Utf8.decode operatorFile)
      (Utf8.decode (ensurePromptMohInclude (some operatorFile))) :=
  have h := musiconhold_edit_conservative operatorFile
  ⟨h.2.1 (by decide), h.2.2 (by decide), h.1⟩

/-- The text of a file after an edit. -/
def editedText (text : String) : Text :=
  Utf8.decode (ensurePromptMohInclude (some (Utf8.encode text.toList)))

/-- An edit changes more than that: white space at the end of the file goes, an include may be
written with other white space, a carriage return goes with every edit, a directive without its name
or behind a lone carriage return passes for the include, and a section whose header has a comment
goes with the one before it. -/
theorem edit_changes_more :
    ("mode=files ".toList ∈ otherLines "mode=files \n".toList ∧
      "mode=files ".toList ∉ (editedText "mode=files \n").splitOn '\n') ∧
    promptMohIncludeLine ∉
      (editedText "#include\tmusiconhold_kaster_prompts.conf\n").splitOn '\n' ∧
    ensurePromptMohInclude (some (Utf8.encode (editedText "[moh]\r\r\n;\n"))) ≠
      Utf8.encode (editedText "[moh]\r\r\n;\n") ∧
    (∀ text ∈ ["#include\nmusiconhold_kaster_prompts.conf\n",
        ";\r#include musiconhold_kaster_prompts.conf\n"],
      ∀ line ∈ (editedText text).splitOn '\n', isIncludeLine line = false) ∧
    (let site := "[branch-prompt-a]\n[default] ; site\ndirectory=/srv/moh\n"
     musicClass site "default" = some "/srv/moh".toList ∧
      "directory=/srv/moh".toList ∉ (editedText site).splitOn '\n') := by
  decide

end KasterCti.Renderers
