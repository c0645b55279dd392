import KasterCti.Library.DialplanRun
import Mathlib.Data.List.Nodup

/-!
# Known code

How a dialplan that is known section by section runs: what the loader makes of
it, where a jump ends up and what each application does there. The statements
are those a proof about generated code uses step by step.
-/

namespace Dialplan

/-! ## Sections -/

/-- The priorities of one extension, numbered from `first` on. -/
def blockEntries (context exten : Text) (first : Nat) : List Step → List Entry
  | [] => []
  | code :: rest => ⟨context, exten, first, code⟩ :: blockEntries context exten (first + 1) rest

/-- An extension with its code: the first priority and the ones after it. -/
structure Block where
  exten : Text
  first : Step
  rest : List Step

def Block.code (block : Block) : List Step := block.first :: block.rest

def Block.lines (block : Block) : List Line :=
  .exten block.exten (.number 1) block.first :: block.rest.map (.same .next)

structure Section where
  context : Text
  blocks : List Block

def Section.lines (sec : Section) : List Line :=
  .header sec.context :: sec.blocks.flatMap Block.lines

def Section.entries (sec : Section) : List Entry :=
  sec.blocks.flatMap (fun block => blockEntries sec.context block.exten 1 block.code)

theorem loadFrom_sames (cursor : Cursor) (code : List Step) (rest : List Line) :
    loadFrom cursor (code.map (.same .next) ++ rest) =
      blockEntries cursor.context cursor.exten (cursor.last + 1) code ++
        loadFrom ⟨cursor.context, cursor.exten, cursor.last + code.length⟩ rest := by
  induction code generalizing cursor with
  | nil => rfl
  | cons c code ih =>
    have hnext := ih (cursor.advance (.same .next c))
    simp only [List.map_cons, List.cons_append, loadFrom, blockEntries, hnext]
    simp only [Cursor.entry, Cursor.advance, Priority.after, List.singleton_append,
      List.length_cons, Nat.add_assoc, Nat.add_comm 1]

theorem loadFrom_block (cursor : Cursor) (block : Block) (rest : List Line) :
    ∃ last, loadFrom cursor (block.lines ++ rest) =
      blockEntries cursor.context block.exten 1 block.code ++
        loadFrom ⟨cursor.context, block.exten, last⟩ rest := by
  have hsames := loadFrom_sames (cursor.advance (.exten block.exten (.number 1) block.first))
    block.rest rest
  refine ⟨1 + block.rest.length, ?_⟩
  rw [Block.lines, List.cons_append, loadFrom, hsames]
  rfl

theorem loadFrom_blocks (cursor : Cursor) (blocks : List Block) (rest : List Line) :
    ∃ exten last, loadFrom cursor (blocks.flatMap Block.lines ++ rest) =
      blocks.flatMap (fun block => blockEntries cursor.context block.exten 1 block.code) ++
        loadFrom ⟨cursor.context, exten, last⟩ rest := by
  induction blocks generalizing cursor with
  | nil => exact ⟨cursor.exten, cursor.last, rfl⟩
  | cons block blocks ih =>
    obtain ⟨last, hblock⟩ := loadFrom_block cursor block (blocks.flatMap Block.lines ++ rest)
    obtain ⟨exten, last', hblocks⟩ := ih ⟨cursor.context, block.exten, last⟩
    refine ⟨exten, last', ?_⟩
    rw [List.flatMap_cons, List.append_assoc, hblock, hblocks, List.flatMap_cons,
      List.append_assoc]

/-- Sections are read one after another, with or without an empty line between
them. -/
theorem loadFrom_section (cursor : Cursor) (sec : Section) (rest : List Line) :
    ∃ cursor', loadFrom cursor (sec.lines ++ rest) = sec.entries ++ loadFrom cursor' rest := by
  obtain ⟨exten, last, hblocks⟩ := loadFrom_blocks ⟨sec.context, [], 0⟩ sec.blocks rest
  exact ⟨⟨sec.context, exten, last⟩, hblocks⟩

theorem loadFrom_sections (cursor : Cursor) (sec : Section) (secs : List Section) :
    loadFrom cursor (sec.lines ++ secs.flatMap (fun sec => .other :: sec.lines)) =
      (sec :: secs).flatMap Section.entries := by
  induction secs generalizing cursor sec with
  | nil =>
    obtain ⟨cursor', hsec⟩ := loadFrom_section cursor sec []
    rw [List.flatMap_nil, hsec, loadFrom, List.append_nil, List.flatMap_cons, List.flatMap_nil,
      List.append_nil]
  | cons next secs ih =>
    obtain ⟨cursor', hsec⟩ := loadFrom_section cursor sec
      ((next :: secs).flatMap (fun sec => .other :: sec.lines))
    rw [hsec, List.flatMap_cons, List.cons_append, loadFrom, List.flatMap_cons]
    exact congrArg (sec.entries ++ ·) (ih cursor' next)

/-! ## The code of an extension -/

/-- The entries of the extension are its code, numbered from one, and nothing
else. -/
def HasCode (dialplan : List Entry) (context exten : Text) (code : List Step) : Prop :=
  dialplan.filter (fun entry => entry.context = context && entry.exten = exten) =
    blockEntries context exten 1 code

variable {context exten : Text} {code : List Step}

theorem mem_blockEntries {first : Nat} {entry : Entry}
    (h : entry ∈ blockEntries context exten first code) :
    entry.context = context ∧ entry.exten = exten := by
  induction code generalizing first with
  | nil => cases h
  | cons c code ih =>
    rcases List.mem_cons.mp h with rfl | h
    · exact ⟨rfl, rfl⟩
    · exact ih h

theorem find?_blockEntries_priority (context exten : Text) (first : Nat) (code : List Step)
    (i : Nat) : ((blockEntries context exten first code).find?
      (fun entry => entry.priority = first + i)).map Entry.step = code[i]? := by
  induction code generalizing first i with
  | nil => simp [blockEntries]
  | cons c code ih =>
    cases i with
    | zero => simp [blockEntries]
    | succ i =>
      have hnext := ih (first + 1) i
      rw [blockEntries, List.find?_cons_of_neg (by simp), List.getElem?_cons_succ,
        ← hnext, Nat.add_right_comm, Nat.add_assoc]

theorem find?_blockEntries_label (context exten : Text) (first : Nat) (code : List Step)
    (label : Text) : ((blockEntries context exten first code).find?
      (fun entry => entry.step.label = some label)).map Entry.priority =
      (code.findIdx? (fun c => c.label = some label)).map (first + ·) := by
  induction code generalizing first with
  | nil => simp [blockEntries]
  | cons c code ih =>
    by_cases hc : c.label = some label
    · simp [blockEntries, hc, List.findIdx?_cons]
    · have hnext := ih (first + 1)
      rw [blockEntries, List.find?_cons_of_neg (by simpa using hc), hnext, List.findIdx?_cons]
      simp only [hc, decide_false, Bool.false_eq_true, if_false, Option.map_map]
      congr 1
      funext i
      simp [Nat.add_comm, Nat.add_left_comm]

/-- A search among the entries of one extension. -/
theorem find?_and_filter {p q : Entry → Bool} (dialplan : List Entry) :
    dialplan.find? (fun entry => p entry && q entry) = (dialplan.filter p).find? q := by
  rw [List.find?_filter]
  simp

section HasCode
variable {dialplan : List Entry} {context exten : Text} {code : List Step}

theorem HasCode.mem (h : HasCode dialplan context exten code) (hne : code ≠ []) :
    ∃ c, (⟨context, exten, 1, c⟩ : Entry) ∈ dialplan := by
  obtain ⟨c, rest, rfl⟩ := List.exists_cons_of_ne_nil hne
  refine ⟨c, List.mem_of_mem_filter (p := fun entry => entry.context = context && entry.exten = exten) ?_⟩
  rw [h]
  exact List.mem_cons_self

theorem HasCode.extenFor (h : HasCode dialplan context exten code) (hne : code ≠ [])
    (hlit : patternOf exten = none) : extenFor dialplan context exten = some exten := by
  obtain ⟨c, hmem⟩ := h.mem hne
  exact bestExten_literal hlit (List.mem_map.mpr ⟨_, List.mem_filter.mpr ⟨hmem, by simp⟩, rfl⟩)

/-- Entries that begin with the code of an extension are run as that code. -/
theorem stepAt_of_first {rest : List Entry}
    (h : dialplan.filter (fun entry => entry.context = context && entry.exten = exten) =
      blockEntries context exten 1 code ++ rest) {dialled : Text}
    (hfor : Dialplan.extenFor dialplan context dialled = some exten) {i : Nat} {c : Step}
    (hc : code[i]? = some c) : stepAt dialplan ⟨context, dialled, i + 1⟩ = some c := by
  have hfirst := find?_blockEntries_priority context exten 1 code i
  rw [hc, Option.map_eq_some_iff] at hfirst
  obtain ⟨entry, hfind, rfl⟩ := hfirst
  rw [Dialplan.stepAt, hfor]
  show (dialplan.find? (fun entry => (entry.context = context && entry.exten = exten) &&
    entry.priority = i + 1)).map Entry.step = some entry.step
  rw [find?_and_filter, h, List.find?_append]
  rw [Nat.add_comm] at hfind
  rw [hfind]
  rfl

/-- The code is where a number that reaches the extension finds it. -/
theorem HasCode.stepAt_dialled (h : HasCode dialplan context exten code) {dialled : Text}
    (hfor : Dialplan.extenFor dialplan context dialled = some exten) {i : Nat} {c : Step}
    (hc : code[i]? = some c) : stepAt dialplan ⟨context, dialled, i + 1⟩ = some c :=
  stepAt_of_first (h.trans (List.append_nil _).symm) hfor hc

theorem HasCode.priorityOf_dialled (h : HasCode dialplan context exten code) {dialled : Text}
    (hfor : Dialplan.extenFor dialplan context dialled = some exten) {label : Text}
    (hlabel : isNumber label = false) {i : Nat}
    (hi : code.findIdx? (fun c => c.label = some label) = some i) :
    Dialplan.priorityOf dialplan context dialled label = some (i + 1) := by
  rw [Dialplan.priorityOf, hlabel, if_neg (by decide), hfor]
  simp only
  rw [find?_and_filter, h, find?_blockEntries_label, hi, Option.map_some, Nat.add_comm]

theorem HasCode.priorityOf (h : HasCode dialplan context exten code)
    (hlit : patternOf exten = none) {label : Text} (hlabel : isNumber label = false) {i : Nat}
    (hi : code.findIdx? (fun c => c.label = some label) = some i) :
    priorityOf dialplan context exten label = some (i + 1) := by
  have hne : code ≠ [] := by
    rintro rfl
    cases hi
  exact h.priorityOf_dialled (h.extenFor hne hlit) hlabel hi

theorem HasCode.context_mem (h : HasCode dialplan context exten code) (hne : code ≠ []) :
    (dialplan.map Entry.context).contains context = true := by
  obtain ⟨c, hmem⟩ := h.mem hne
  rw [List.contains_iff_mem]
  exact List.mem_map.mpr ⟨_, hmem, rfl⟩

end HasCode

/-! ## Where a step stands -/

theorem step_of_mem_blockEntries {first : Nat} {entry : Entry}
    (h : entry ∈ blockEntries context exten first code) : entry.step ∈ code := by
  induction code generalizing first with
  | nil => cases h
  | cons c code ih =>
    rcases List.mem_cons.mp h with rfl | h
    · exact List.mem_cons_self
    · exact List.mem_cons_of_mem _ (ih h)

variable {dialplan : List Entry}

/-- The step at a place is that of an entry whose extension the dialled number matches. -/
theorem stepAt_some {pos : Pos} {code : Step} (h : stepAt dialplan pos = some code) :
    ∃ entry ∈ dialplan, entry.context = pos.context ∧
      extenFor dialplan pos.context pos.exten = some entry.exten ∧
      matchesExten entry.exten pos.exten = true ∧ entry.step = code := by
  unfold stepAt at h
  split at h
  · cases h
  · rename_i name hfor
    obtain ⟨entry, hfind, rfl⟩ := Option.map_eq_some_iff.mp h
    have hat := List.find?_some hfind
    simp only [Pos.isAt, Bool.and_eq_true, decide_eq_true_eq] at hat
    obtain ⟨⟨hcontext, rfl⟩, -⟩ := hat
    exact ⟨entry, List.mem_of_find?_eq_some hfind, hcontext, hfor, (bestExten_some hfor).2, rfl⟩

variable {secs : List Section}

/-- The block of sections in which the step at a place stands. -/
theorem stepAt_sections {pos : Pos} {code : Step}
    (h : stepAt (secs.flatMap Section.entries) pos = some code) :
    ∃ sec ∈ secs, sec.context = pos.context ∧ ∃ block ∈ sec.blocks, code ∈ block.code ∧
      extenFor (secs.flatMap Section.entries) pos.context pos.exten = some block.exten ∧
      matchesExten block.exten pos.exten = true := by
  obtain ⟨entry, hentry, hcontext, hfor, hmatch, rfl⟩ := stepAt_some h
  obtain ⟨sec, hsec, hentry⟩ := List.mem_flatMap.mp hentry
  obtain ⟨block, hblock, hentry⟩ := List.mem_flatMap.mp hentry
  obtain ⟨hctx, hexten⟩ := mem_blockEntries hentry
  rw [hexten] at hfor hmatch
  exact ⟨sec, hsec, hctx.symm.trans hcontext, block, hblock, step_of_mem_blockEntries hentry,
    hfor, hmatch⟩

theorem filter_blockEntries_self (context exten : Text) (first : Nat) (code : List Step) :
    (blockEntries context exten first code).filter
      (fun entry => entry.context = context && entry.exten = exten) =
      blockEntries context exten first code := by
  rw [List.filter_eq_self]
  intro entry hentry
  obtain ⟨hcontext, hexten⟩ := mem_blockEntries hentry
  simp [hcontext, hexten]

theorem filter_blockEntries_other {context exten context' exten' : Text} {first : Nat}
    (h : context ≠ context' ∨ exten ≠ exten') :
    (blockEntries context exten first code).filter
      (fun entry => entry.context = context' && entry.exten = exten') = [] := by
  rw [List.filter_eq_nil_iff]
  intro entry hentry
  obtain ⟨hcontext, hexten⟩ := mem_blockEntries hentry
  rcases h with h | h <;> simp [hcontext, hexten, h]

variable {sec : Section}

theorem filter_entries_other (h : exten ∉ sec.blocks.map Block.exten) :
    sec.entries.filter (fun entry => entry.context = context && entry.exten = exten) = [] := by
  rw [Section.entries, List.filter_flatMap, List.flatMap_eq_nil_iff]
  intro block hblock
  refine filter_blockEntries_other (.inr ?_)
  rintro rfl
  exact h (List.mem_map_of_mem hblock)

variable {block : Block}

/-- In a section whose extensions have different names, each has its own code. -/
theorem filter_entries_block {context : Text} {blocks : List Block}
    (hnodup : (blocks.map Block.exten).Nodup) (hblock : block ∈ blocks) :
    (Section.entries ⟨context, blocks⟩).filter
      (fun entry => entry.context = context && entry.exten = block.exten) =
      blockEntries context block.exten 1 block.code := by
  induction blocks with
  | nil => cases hblock
  | cons head blocks ih =>
    rw [List.map_cons, List.nodup_cons] at hnodup
    have hcons : Section.entries ⟨context, head :: blocks⟩ =
        blockEntries context head.exten 1 head.code ++ Section.entries ⟨context, blocks⟩ := rfl
    rw [hcons, List.filter_append]
    rcases List.mem_cons.mp hblock with rfl | hblock
    · have hrest : (Section.entries ⟨context, blocks⟩).filter (fun entry =>
          entry.context = context && entry.exten = block.exten) = [] :=
        filter_entries_other hnodup.1
      rw [filter_blockEntries_self, hrest, List.append_nil]
    · have hne : head.exten ≠ block.exten := by
        intro heq
        exact hnodup.1 (heq ▸ List.mem_map_of_mem hblock)
      rw [filter_blockEntries_other (.inr hne), List.nil_append, ih hnodup.2 hblock]

/-- The entries of a section in a text of sections with different names. -/
theorem filter_context (hcontexts : (secs.map Section.context).Nodup) (hsec : sec ∈ secs) :
    (secs.flatMap Section.entries).filter (fun entry => entry.context = sec.context) =
      sec.entries := by
  have hself : sec.entries.filter (fun entry => entry.context = sec.context) = sec.entries := by
    rw [List.filter_eq_self]
    intro entry hentry
    obtain ⟨block, -, hentry⟩ := List.mem_flatMap.mp hentry
    simpa using (mem_blockEntries hentry).1
  have hother : ∀ other : Section, other.context ≠ sec.context →
      other.entries.filter (fun entry => entry.context = sec.context) = [] := by
    intro other hne
    rw [List.filter_eq_nil_iff]
    intro entry hentry
    obtain ⟨block, -, hentry⟩ := List.mem_flatMap.mp hentry
    rw [(mem_blockEntries hentry).1]
    simpa using hne
  induction secs with
  | nil => cases hsec
  | cons head secs ih =>
    rw [List.map_cons, List.nodup_cons] at hcontexts
    rw [List.flatMap_cons, List.filter_append]
    rcases List.mem_cons.mp hsec with rfl | hsec
    · have hrest : (secs.flatMap Section.entries).filter
          (fun entry => entry.context = sec.context) = [] := by
        rw [List.filter_flatMap, List.flatMap_eq_nil_iff]
        intro other hmem
        exact hother other (fun heq => hcontexts.1 (heq ▸ List.mem_map_of_mem hmem))
      rw [hself, hrest, List.append_nil]
    · rw [hother head (fun heq => hcontexts.1 (heq ▸ List.mem_map_of_mem hsec)), List.nil_append,
        ih hcontexts.2 hsec]

theorem filter_section (hcontexts : (secs.map Section.context).Nodup) (hsec : sec ∈ secs)
    (name : Text) : (secs.flatMap Section.entries).filter
      (fun entry => entry.context = sec.context && entry.exten = name) =
        sec.entries.filter (fun entry => entry.context = sec.context && entry.exten = name) := by
  rw [← filter_context hcontexts hsec, List.filter_filter]
  exact List.filter_congr fun entry _ => by simp +contextual

/-- The code of an extension in a text of sections with different names. -/
theorem hasCode_of_sections (hcontexts : (secs.map Section.context).Nodup) (hsec : sec ∈ secs)
    (hnodup : (sec.blocks.map Block.exten).Nodup) (hblock : block ∈ sec.blocks) :
    HasCode (secs.flatMap Section.entries) sec.context block.exten block.code :=
  (filter_section hcontexts hsec block.exten).trans (filter_entries_block hnodup hblock)

/-- The first block of a name is run, when there are more of them in the section. -/
theorem first_of_section {name : Text}
    (hfind : sec.blocks.find? (fun block => block.exten = name) = some block) :
    ∃ rest, sec.entries.filter (fun entry => entry.context = sec.context && entry.exten = name) =
      blockEntries sec.context name 1 block.code ++ rest := by
  obtain ⟨hexten, before, after, hsplit, hno⟩ := List.find?_eq_some_iff_append.mp hfind
  have hexten : block.exten = name := by simpa using hexten
  refine ⟨(after.flatMap (fun block => blockEntries sec.context block.exten 1 block.code)).filter
      (fun entry => entry.context = sec.context && entry.exten = name), ?_⟩
  have hbefore : (before.flatMap (fun block => blockEntries sec.context block.exten 1 block.code)).filter
      (fun entry => entry.context = sec.context && entry.exten = name) = [] := by
    rw [List.filter_flatMap, List.flatMap_eq_nil_iff]
    intro other hother
    refine filter_blockEntries_other (.inr ?_)
    simpa using hno other hother
  rw [Section.entries, hsplit, List.flatMap_append, List.flatMap_cons, List.filter_append,
    List.filter_append, hbefore, hexten, filter_blockEntries_self, List.nil_append]

theorem first_of_sections (hcontexts : (secs.map Section.context).Nodup) (hsec : sec ∈ secs)
    {name : Text} (hfind : sec.blocks.find? (fun block => block.exten = name) = some block) :
    ∃ rest, (secs.flatMap Section.entries).filter
        (fun entry => entry.context = sec.context && entry.exten = name) =
        blockEntries sec.context name 1 block.code ++ rest := by
  obtain ⟨rest, hrest⟩ := first_of_section hfind
  exact ⟨rest, (filter_section hcontexts hsec name).trans hrest⟩

theorem mem_extensOf (hsec : sec ∈ secs) (hblock : block ∈ sec.blocks) :
    block.exten ∈ extensOf (secs.flatMap Section.entries) sec.context := by
  have hentry : (⟨sec.context, block.exten, 1, block.first⟩ : Entry) ∈ secs.flatMap Section.entries :=
    List.mem_flatMap.mpr ⟨sec, hsec, List.mem_flatMap.mpr ⟨block, hblock, List.mem_cons_self⟩⟩
  exact List.mem_map.mpr ⟨_, List.mem_filter.mpr ⟨hentry, by simp⟩, rfl⟩

/-- A section with a block is a context of the text. -/
theorem context_mem_sections (hsec : sec ∈ secs) (hblock : block ∈ sec.blocks) :
    sec.context ∈ (secs.flatMap Section.entries).map Entry.context := by
  obtain ⟨entry, hentry, -⟩ := List.mem_map.mp (mem_extensOf hsec hblock)
  obtain ⟨hentry, hcontext⟩ := List.mem_filter.mp hentry
  exact List.mem_map.mpr ⟨entry, hentry, by simpa using hcontext⟩

theorem extensOf_sections (hcontexts : (secs.map Section.context).Nodup) (hsec : sec ∈ secs)
    {name : Text} (h : name ∈ extensOf (secs.flatMap Section.entries) sec.context) :
    name ∈ sec.blocks.map Block.exten := by
  rw [extensOf, filter_context hcontexts hsec] at h
  obtain ⟨entry, hentry, rfl⟩ := List.mem_map.mp h
  obtain ⟨block, hblock, hentry⟩ := List.mem_flatMap.mp hentry
  rw [(mem_blockEntries hentry).2]
  exact List.mem_map_of_mem hblock

theorem find?_blockEntries_exten {p : Text → Bool} (context exten : Text) (first : Nat)
    (code : List Step) (more : List Text) (hno : p exten = false) :
    ((blockEntries context exten first code).map Entry.exten ++ more).find? p = more.find? p := by
  have hnone : ((blockEntries context exten first code).map Entry.exten).find? p = none := by
    rw [List.find?_eq_none]
    intro name hname
    obtain ⟨entry, hentry, rfl⟩ := List.mem_map.mp hname
    rw [(mem_blockEntries hentry).2, hno]
    exact Bool.false_ne_true
  rw [List.find?_append, hnone, Option.none_or]

/-- The first name of a context that passes a test is that of the first block that does. -/
theorem find?_extensOf (hcontexts : (secs.map Section.context).Nodup) (hsec : sec ∈ secs)
    (p : Text → Bool) :
    (extensOf (secs.flatMap Section.entries) sec.context).find? p =
      (sec.blocks.map Block.exten).find? p := by
  have hown : ∀ blocks : List Block,
      ((Section.entries ⟨sec.context, blocks⟩).map Entry.exten).find? p =
        (blocks.map Block.exten).find? p := by
    intro blocks
    induction blocks with
    | nil => rfl
    | cons block blocks ih =>
      have hcons : Section.entries ⟨sec.context, block :: blocks⟩ =
          blockEntries sec.context block.exten 1 block.code ++
            Section.entries ⟨sec.context, blocks⟩ := rfl
      rw [hcons, List.map_append, List.map_cons, List.find?_cons]
      cases hp : p block.exten with
      | true => simp [Block.code, blockEntries, hp]
      | false => rw [find?_blockEntries_exten _ _ _ _ _ hp, ih]
  rw [extensOf, filter_context hcontexts hsec]
  exact hown sec.blocks

/-! ## Code at a place -/

def Pos.next (pos : Pos) : Pos := ⟨pos.context, pos.exten, pos.priority + 1⟩

/-- The code that starts at the place. -/
def CodeAt (dialplan : List Entry) (pos : Pos) : List Step → Prop
  | [] => True
  | c :: code => stepAt dialplan pos = some c ∧ CodeAt dialplan pos.next code

def Pos.after (pos : Pos) (n : Nat) : Pos := ⟨pos.context, pos.exten, pos.priority + n⟩

theorem Pos.next_after (pos : Pos) (n : Nat) : pos.next.after n = pos.after (n + 1) := by
  simp [Pos.next, Pos.after, Nat.add_assoc, Nat.add_comm 1]

theorem codeAt_append {pos : Pos} {code code' : List Step} :
    CodeAt dialplan pos (code ++ code') ↔
      CodeAt dialplan pos code ∧ CodeAt dialplan (pos.after code.length) code' := by
  induction code generalizing pos with
  | nil => simp [CodeAt, Pos.after]
  | cons c code ih =>
    rw [List.cons_append, CodeAt, CodeAt, ih, Pos.next_after, List.length_cons, and_assoc]

theorem codeAt_of_getElem {n : Nat}
    (h : ∀ i c, code[i]? = some c → stepAt dialplan ⟨context, exten, n + i⟩ = some c) :
    CodeAt dialplan ⟨context, exten, n⟩ code := by
  induction code generalizing n with
  | nil => trivial
  | cons c code ih =>
    refine ⟨h 0 c rfl, ih ?_⟩
    intro i d hd
    have hnext := h (i + 1) d hd
    rwa [Nat.add_comm i, ← Nat.add_assoc] at hnext

theorem HasCode.codeAt_dialled {context exten dialled : Text} {before code after : List Step}
    (h : HasCode dialplan context exten (before ++ code ++ after))
    (hfor : Dialplan.extenFor dialplan context dialled = some exten) :
    CodeAt dialplan ⟨context, dialled, before.length + 1⟩ code := by
  induction code generalizing before with
  | nil => trivial
  | cons c code ih =>
    refine ⟨h.stepAt_dialled hfor (by simp), ?_⟩
    have hmoved : HasCode dialplan context exten (before ++ [c] ++ code ++ after) := by
      simpa using h
    simpa [Pos.next] using ih hmoved

theorem HasCode.codeAt {before code after : List Step}
    (h : HasCode dialplan context exten (before ++ code ++ after)) (hlit : patternOf exten = none) :
    CodeAt dialplan ⟨context, exten, before.length + 1⟩ code := by
  cases code with
  | nil => trivial
  | cons c code => exact h.codeAt_dialled (h.extenFor (by simp) hlit)

/-- The code of an extension starts at its first priority. -/
theorem HasCode.codeAt_first (h : HasCode dialplan context exten code)
    (hlit : patternOf exten = none) : CodeAt dialplan ⟨context, exten, 1⟩ code := by
  have hwhole : HasCode dialplan context exten ([] ++ code ++ []) := by simpa using h
  exact hwhole.codeAt hlit

/-- A label is found where it first stands. -/
theorem findIdx?_first {before after : List Step} {c : Step} {label : Text}
    (hc : c.label = some label) (hbefore : ∀ d ∈ before, d.label ≠ some label) :
    (before ++ c :: after).findIdx? (fun c => c.label = some label) = some before.length := by
  have hnone : before.findIdx? (fun c => c.label = some label) = none := by
    rw [List.findIdx?_eq_none_iff]
    intro d hd
    exact decide_eq_false (hbefore d hd)
  simp [List.findIdx?_append, hnone, List.findIdx?_cons, hc]

/-! ## Expansion -/

section Expansion
variable (lookup : Text → Text)

theorem expandFrom_cons_output {c : Char} (hc : c ≠ '$') (out t : Text) :
    expandFrom lookup out [] (c :: t) = expandFrom lookup (out ++ [c]) [] t := by
  rw [expandFrom]
  · intro u h
    exact absurd h hc
  · intro u h
    exact absurd h hc

theorem expandFrom_output {a : Text} (h : '$' ∉ a) (out t : Text) :
    expandFrom lookup out [] (a ++ t) = expandFrom lookup (out ++ a) [] t := by
  induction a generalizing out with
  | nil => simp
  | cons c a ih =>
    rw [List.cons_append, expandFrom_cons_output lookup (fun hc => h (by simp [hc])),
      ih (fun ha => h (List.mem_cons_of_mem _ ha)), List.append_assoc, List.singleton_append]

theorem expandFrom_cons_frame {c : Char} (hc : c ≠ '$') (hbrace : c ≠ '\x7d')
    (hbracket : c ≠ ']') (out : Text) (frame : Frame) (frames : List Frame) (t : Text) :
    expandFrom lookup out (frame :: frames) (c :: t) =
      expandFrom lookup out (⟨frame.isExpr, frame.text ++ [c]⟩ :: frames) t := by
  rw [expandFrom]
  · simp only [hbrace, hbracket, decide_false, Bool.false_and, Bool.false_eq_true, if_false, put]
  · intro u h
    exact absurd h hc
  · intro u h
    exact absurd h hc

/-- Plain text inside a frame is collected. -/
theorem expandFrom_frame {a : Text} (h : ∀ c ∈ a, c ≠ '$' ∧ c ≠ '\x7d' ∧ c ≠ ']') (out : Text)
    (frame : Frame) (frames : List Frame) (t : Text) :
    expandFrom lookup out (frame :: frames) (a ++ t) =
      expandFrom lookup out (⟨frame.isExpr, frame.text ++ a⟩ :: frames) t := by
  induction a generalizing frame with
  | nil => simp
  | cons c a ih =>
    obtain ⟨hdollar, hbrace, hbracket⟩ := h c (by simp)
    rw [List.cons_append, expandFrom_cons_frame lookup hdollar hbrace hbracket,
      ih (fun d hd => h d (List.mem_cons_of_mem _ hd)), List.append_assoc, List.singleton_append]

theorem expandFrom_openVar (out : Text) (frames : List Frame) (t : Text) :
    expandFrom lookup out frames ('$' :: '\x7b' :: t) =
      expandFrom lookup out (⟨false, []⟩ :: frames) t := by
  rw [expandFrom]

theorem expandFrom_openExpr (out : Text) (frames : List Frame) (t : Text) :
    expandFrom lookup out frames ('$' :: '[' :: t) =
      expandFrom lookup out (⟨true, []⟩ :: frames) t := by
  rw [expandFrom]

theorem expandFrom_closeVar (out inner : Text) (frames : List Frame) (t : Text) :
    expandFrom lookup out (⟨false, inner⟩ :: frames) ('\x7d' :: t) =
      expandFrom lookup (put out frames (valueOf lookup inner)).1
        (put out frames (valueOf lookup inner)).2 t := by
  rw [expandFrom]
  · rfl
  · intro u h
    cases h
  · intro u h
    cases h

theorem expandFrom_closeExpr (out inner : Text) (frames : List Frame) (t : Text) :
    expandFrom lookup out (⟨true, inner⟩ :: frames) (']' :: t) =
      expandFrom lookup (put out frames (evalExpr inner)).1
        (put out frames (evalExpr inner)).2 t := by
  rw [expandFrom]
  · rfl
  · intro u h
    cases h
  · intro u h
    cases h

theorem expand_plain {a : Text} (h : '$' ∉ a) : expand lookup a = a := by
  have hall := expandFrom_output lookup h [] []
  rw [List.append_nil] at hall
  rw [expand, hall, List.nil_append, expandFrom_nil]

/-- Plain text in front is kept. -/
theorem expand_append {a : Text} (h : '$' ∉ a) (t : Text) :
    expand lookup (a ++ t) = expandFrom lookup a [] t := by
  rw [expand, expandFrom_output lookup h, List.nil_append]

theorem put_out (a out : Text) (frames : List Frame) (t : Text) :
    put (a ++ out) frames t = (a ++ (put out frames t).1, (put out frames t).2) := by
  cases frames with
  | nil => simp [put]
  | cons frame frames => rfl

/-- What has been put out stays in front. -/
theorem expandFrom_out (a out : Text) (frames : List Frame) (t : Text) :
    expandFrom lookup (a ++ out) frames t = a ++ expandFrom lookup out frames t := by
  fun_induction expandFrom lookup out frames t with
  | case1 out frames => rw [expandFrom]
  | case2 out frames t ih => rw [expandFrom, ih]
  | case3 out frames t ih => rw [expandFrom, ih]
  | case4 out c t hvar hexpr frame frames hclose next ih =>
    rw [expandFrom.eq_4 _ _ _ _ _ _ hvar hexpr]
    simp only [hclose, if_true, put_out, ih, next]
  | case5 out c t hvar hexpr frame frames hclose hclose' next ih =>
    rw [expandFrom.eq_4 _ _ _ _ _ _ hvar hexpr]
    simp only [hclose, hclose', Bool.false_eq_true, if_true, if_false, put_out, ih, next]
  | case6 out c t hvar hexpr frame frames hclose hclose' next ih =>
    rw [expandFrom.eq_4 _ _ _ _ _ _ hvar hexpr]
    simp only [hclose, hclose', Bool.false_eq_true, if_false, put_out, ih, next]
  | case7 out c t hvar hexpr ih =>
    rw [expandFrom.eq_5 _ _ _ _ hvar hexpr, List.append_assoc, ih]

/-- Plain text in front does not change how the rest is expanded. -/
theorem expand_prefix {a : Text} (h : '$' ∉ a) (t : Text) :
    expand lookup (a ++ t) = a ++ expand lookup t := by
  rw [expand_append lookup h]
  simpa [expand] using expandFrom_out lookup a [] [] t

/-- A name without a parenthesis is looked up. -/
theorem valueOf_plain {name : Text} (h : '(' ∉ name) : valueOf lookup name = lookup name := by
  rw [valueOf, cut_of_notMem h]

/-- So is a call of a function of the channel. -/
theorem valueOf_call {function args : Text} (h : '(' ∉ function)
    (hlen : function ≠ "LEN".toList) (hfilter : function ≠ "FILTER".toList) :
    valueOf lookup (function ++ '(' :: args) = lookup (function ++ '(' :: args) := by
  rw [valueOf, cut_append h]
  simp only [if_neg hlen, if_neg hfilter]

end Expansion

/-! ## Numbers in expressions -/

theorem isDigit_of_isDigit {c : Char} (h : c.isDigit = true) : isDigit c = true := by
  simp only [Char.isDigit, ge_iff_le, Bool.and_eq_true, decide_eq_true_eq] at h
  simp only [isDigit, Bool.and_eq_true, decide_eq_true_eq]
  exact h

theorem natText_eq (n : Nat) : natText n = Nat.toDigits 10 n := Nat.toList_repr

theorem isDigit_of_mem_natText {n : Nat} {c : Char} (h : c ∈ natText n) : isDigit c = true := by
  rw [natText_eq] at h
  exact isDigit_of_isDigit (Nat.isDigit_of_mem_toDigits (by decide) (by decide) h)

theorem natText_ne_nil (n : Nat) : natText n ≠ [] := by
  rw [natText_eq]
  exact Nat.toDigits_ne_nil

theorem isNumber_natText (n : Nat) : isNumber (natText n) = true := by
  simp only [isNumber, natText_ne_nil, ne_eq, not_false_eq_true, decide_true, Bool.true_and,
    List.all_eq_true]
  intro c hc
  exact isDigit_of_mem_natText hc

theorem natOf_natText (n : Nat) : natOf (natText n) = n := by
  rw [natOf, natText_eq]
  exact Nat.ofDigitChars_toDigits (by decide) (by decide)

/-- A digit is none of the characters with a meaning in expressions. -/
theorem ne_of_isDigit {c d : Char} (h : isDigit c = true) (hd : isDigit d = false) : c ≠ d := by
  rintro rfl
  rw [h] at hd
  cases hd

theorem notMem_of_digits {n : Text} (h : ∀ c ∈ n, isDigit c = true) {c : Char}
    (hc : isDigit c = false) : c ∉ n := by
  intro hmem
  rw [h c hmem] at hc
  cases hc

theorem notMem_natText (n : Nat) {d : Char} (hd : isDigit d = false) : d ∉ natText n :=
  fun h => ne_of_isDigit (isDigit_of_mem_natText h) hd rfl

theorem isBlank_of_isDigit {c : Char} (h : isDigit c = true) : isBlank c = false := by
  simp only [isDigit, Bool.and_eq_true, decide_eq_true_eq] at h
  have hle : '0'.toNat ≤ c.toNat := h.1
  simp only [isBlank, decide_eq_false_iff_not, Nat.not_le]
  exact Nat.lt_of_lt_of_le (by decide) hle

theorem strip_natText (n : Nat) : strip (natText n) = natText n := by
  refine Stripped.strip ⟨?_, ?_⟩
  · intro c hc
    exact isBlank_of_isDigit (isDigit_of_mem_natText (List.mem_of_mem_head? hc))
  · intro c hc
    exact isBlank_of_isDigit (isDigit_of_mem_natText (List.mem_of_getLast? hc))

theorem unquote_natText (n : Nat) : unquote (natText n) = natText n := by
  unfold unquote
  split
  · rename_i rest heq
    exact absurd (heq ▸ List.mem_cons_self) (notMem_natText n (by decide))
  · rfl

variable {t : Text}

theorem splitUnquoted_of_notMem {sep : Char} (h : sep ∉ t) (quoted : Bool) :
    splitUnquoted sep quoted t = [t] := by
  induction t generalizing quoted with
  | nil => rfl
  | cons c t ih =>
    have hc : c ≠ sep := fun hc => h (by simp [hc])
    have ht : sep ∉ t := fun ht => h (List.mem_cons_of_mem _ ht)
    simp [splitUnquoted, hc, ih ht]

theorem evalExpr_comparison (hor : '|' ∉ t) (hand : '&' ∉ t) : evalExpr t = evalComparison t := by
  rw [evalExpr, splitUnquoted_of_notMem hor]
  simp only [splitUnquoted_of_notMem hand]

/-- The operator behind a run of digits. -/
theorem cutOp_digits {ds : Text} (hdigits : ∀ c ∈ ds, isDigit c = true) {found : Op × Text}
    (h : readOp t = some found) : cutOp false (ds ++ t) = (ds, some found) := by
  induction ds with
  | nil =>
    cases t with
    | nil => cases h
    | cons c t => simp [cutOp, h]
  | cons c ds ih =>
    have hc := hdigits c (by simp)
    have hread : readOp (c :: (ds ++ t)) = none := by
      unfold readOp
      split <;> first
        | rfl
        | (rename_i heq
           rw [(List.cons.inj heq).1] at hc
           exact absurd hc (by decide))
    have hquote : c ≠ '"' := ne_of_isDigit hc (by decide)
    have hrest := ih (fun d hd => hdigits d (List.mem_cons_of_mem _ hd))
    rw [List.cons_append, cutOp]
    simp only [hread, hquote, if_false, Bool.false_eq_true, hrest]

theorem evalExpr_numbers (a b : Nat) {op : Op} (h : readOp t = some (op, natText b)) (hor : '|' ∉ t)
    (hand : '&' ∉ t) : evalExpr (natText a ++ t) = evalOp op (natText a) (natText b) := by
  rw [evalExpr_comparison, evalComparison, cutOp_digits (fun c hc => isDigit_of_mem_natText hc) h]
  · simp only [strip_natText]
  · rw [List.mem_append, not_or]
    exact ⟨notMem_natText a (by decide), hor⟩
  · rw [List.mem_append, not_or]
    exact ⟨notMem_natText a (by decide), hand⟩

theorem evalExpr_ge (a b : Nat) :
    evalExpr (natText a ++ '>' :: '=' :: natText b) = truth (decide (b ≤ a)) := by
  rw [evalExpr_numbers a b rfl]
  · simp [evalOp, isNumber_natText, natOf_natText, unquote_natText]
  · simp [notMem_natText b (show isDigit '|' = false from rfl)]
  · simp [notMem_natText b (show isDigit '&' = false from rfl)]

theorem evalExpr_le (a b : Nat) :
    evalExpr (natText a ++ '<' :: '=' :: natText b) = truth (decide (a ≤ b)) := by
  rw [evalExpr_numbers a b rfl]
  · simp [evalOp, isNumber_natText, natOf_natText, unquote_natText]
  · simp [notMem_natText b (show isDigit '|' = false from rfl)]
  · simp [notMem_natText b (show isDigit '&' = false from rfl)]

theorem evalExpr_plus (a b : Nat) :
    evalExpr (natText a ++ '+' :: natText b) = natText (a + b) := by
  rw [evalExpr_numbers a b rfl]
  · simp [evalOp, natOf_natText, unquote_natText]
  · simp [notMem_natText b (show isDigit '|' = false from rfl)]
  · simp [notMem_natText b (show isDigit '&' = false from rfl)]

/-! ## Texts in expressions -/

/-- A text between quotes. -/
def quoted (t : Text) : Text := '"' :: t ++ ['"']

theorem quoted_append (t rest : Text) : quoted t ++ rest = '"' :: (t ++ '"' :: rest) := by
  simp [quoted]

theorem unquote_quoted (t : Text) : unquote (quoted t) = t := by
  simp [unquote, quoted]

theorem strip_quoted (t : Text) : strip (quoted t) = quoted t :=
  (stripped_of rfl (show (quoted t).getLast? = some '"' by simp [quoted, List.getLast?_cons]) rfl
    rfl).strip

theorem splitUnquoted_inQuotes {sep : Char} (h : '"' ∉ t) (rest : Text) :
    splitUnquoted sep true (t ++ '"' :: rest) =
      (splitUnquoted sep false rest).modifyHead (t ++ ['"'] ++ ·) := by
  induction t with
  | nil =>
    rw [List.nil_append, splitUnquoted]
    simp only [Bool.not_true, Bool.and_false, Bool.false_eq_true, if_false, if_true]
    rfl
  | cons c t ih =>
    have hc : c ≠ '"' := fun hc => h (by simp [hc])
    rw [List.cons_append, splitUnquoted]
    simp only [Bool.not_true, Bool.and_false, Bool.false_eq_true, if_false, hc]
    rw [ih (fun ht => h (List.mem_cons_of_mem _ ht)), List.modifyHead_modifyHead]
    rfl

/-- A separator between quotes does not separate. -/
theorem splitUnquoted_quoted {sep : Char} (hsep : sep ≠ '"') (h : '"' ∉ t) (rest : Text) :
    splitUnquoted sep false (quoted t ++ rest) =
      (splitUnquoted sep false rest).modifyHead (quoted t ++ ·) := by
  have hin : splitUnquoted sep true (t ++ '"' :: rest) = _ := splitUnquoted_inQuotes h rest
  rw [quoted_append, splitUnquoted]
  simp only [Ne.symm hsep, decide_false, Bool.false_and, Bool.false_eq_true, if_false, if_true,
    Bool.not_false]
  rw [hin, List.modifyHead_modifyHead]
  rfl

theorem cutOp_inQuotes (h : '"' ∉ t) (rest : Text) :
    cutOp true (t ++ '"' :: rest) = (t ++ '"' :: (cutOp false rest).1, (cutOp false rest).2) := by
  induction t with
  | nil => rfl
  | cons c t ih =>
    have hc : c ≠ '"' := fun hc => h (by simp [hc])
    rw [List.cons_append, cutOp]
    simp only [if_true, hc, if_false, ih (fun ht => h (List.mem_cons_of_mem _ ht))]
    rfl

theorem cutOp_quoted (h : '"' ∉ t) (rest : Text) :
    cutOp false (quoted t ++ rest) =
      (quoted t ++ (cutOp false rest).1, (cutOp false rest).2) := by
  have hin := cutOp_inQuotes h rest
  rw [quoted_append, cutOp]
  have hread : readOp ('"' :: (t ++ '"' :: rest)) = none := rfl
  simp only [hread, Bool.false_eq_true, if_false, if_true, Bool.not_false, hin]
  simp [quoted]

/-- Two texts compared between quotes. -/
theorem evalExpr_quoted {a b : Text} (ha : '"' ∉ a) (hb : '"' ∉ b) {mark : Text} {op : Op}
    (hmark : ∀ t, readOp (mark ++ '"' :: t) = some (op, '"' :: t))
    (hor : '|' ∉ mark) (hand : '&' ∉ mark) (hquote : '"' ∉ mark) :
    evalExpr (quoted a ++ mark ++ quoted b) = evalOp op (quoted a) (quoted b) := by
  have hsplit : ∀ sep, sep ≠ '"' → sep ∉ mark → splitUnquoted sep false
      (quoted a ++ mark ++ quoted b) = [quoted a ++ mark ++ quoted b] := by
    intro sep hsep hmem
    have hrest : splitUnquoted sep false (mark ++ quoted b) = [mark ++ quoted b] := by
      clear hmark hor hand
      induction mark with
      | nil =>
        have hb' := splitUnquoted_quoted hsep hb []
        rw [List.append_nil] at hb'
        simp [hb', splitUnquoted]
      | cons c mark ih =>
        have hc : c ≠ sep := fun hc => hmem (by simp [hc])
        have hq : c ≠ '"' := fun hq => hquote (by simp [hq])
        rw [List.cons_append, splitUnquoted]
        simp only [hc, decide_false, Bool.false_and, Bool.false_eq_true, if_false, hq]
        rw [ih (fun h => hquote (List.mem_cons_of_mem _ h))
          (fun h => hmem (List.mem_cons_of_mem _ h))]
        rfl
    rw [List.append_assoc, splitUnquoted_quoted hsep ha, hrest]
    rfl
  have hcut : cutOp false (mark ++ quoted b) = ([], some (op, quoted b)) := by
    have hread := hmark (b ++ ['"'])
    cases mark with
    | nil => cases hread
    | cons c mark =>
      rw [List.cons_append, cutOp]
      have hread' : readOp (c :: (mark ++ quoted b)) = some (op, quoted b) := hread
      simp only [hread', Bool.false_eq_true, if_false]
  rw [evalExpr, hsplit '|' (by decide) hor]
  simp only [hsplit '&' (by decide) hand]
  rw [evalComparison, List.append_assoc, cutOp_quoted ha, hcut]
  simp only [List.append_nil, strip_quoted]

theorem isNumber_quoted (t : Text) : isNumber (quoted t) = false := rfl

theorem evalExpr_isValue {a b : Text} (ha : '"' ∉ a) (hb : '"' ∉ b) :
    evalExpr (quoted a ++ ['='] ++ quoted b) = truth (decide (a = b)) := by
  rw [evalExpr_quoted ha hb (fun _ => rfl) (by decide) (by decide) (by decide)]
  simp [evalOp, isNumber_quoted, unquote_quoted]

theorem isTrue_truth (b : Bool) : isTrue (truth b) = b := by
  cases b <;> decide

/-! ## Destinations -/

theorem splitComma_single {a : Text} (h : ',' ∉ a) : a.splitOnP (· == ',') = [a] := by
  refine List.splitOnP_eq_singleton ?_
  intro c hc
  simpa using fun heq : c = ',' => h (heq ▸ hc)

theorem splitComma_cons {a : Text} (h : ',' ∉ a) (t : Text) :
    (a ++ ',' :: t).splitOnP (· == ',') = a :: t.splitOnP (· == ',') := by
  refine List.splitOnP_append_cons_of_forall_mem ?_ ',' rfl t
  intro c hc
  simpa using fun heq : c = ',' => h (heq ▸ hc)

section Destinations
variable {dialplan : List Entry}

theorem resolve_priority {priority : Text} (h : ',' ∉ priority) (pos : Pos) :
    resolve dialplan pos priority = jumpTo dialplan pos.context pos.exten priority := by
  rw [resolve, splitComma_single h]

theorem resolve_exten {exten priority : Text} (he : ',' ∉ exten) (hp : ',' ∉ priority)
    (pos : Pos) : resolve dialplan pos (exten ++ ',' :: priority) =
      jumpTo dialplan pos.context exten priority := by
  rw [resolve, splitComma_cons he, splitComma_single hp]

theorem resolve_context {context exten priority : Text} (hc : ',' ∉ context) (he : ',' ∉ exten)
    (hp : ',' ∉ priority) (pos : Pos) :
    resolve dialplan pos (context ++ ',' :: (exten ++ ',' :: priority)) =
      if (dialplan.map Entry.context).contains context then
        jumpTo dialplan context exten priority
      else .leave context exten priority := by
  rw [resolve, splitComma_cons hc, splitComma_cons he, splitComma_single hp]

theorem jumpTo_one (context exten : Text) :
    jumpTo dialplan context exten ['1'] = .to ⟨context, exten, 1⟩ := by
  rfl

theorem HasCode.jumpTo {context exten : Text} {code : List Step}
    (h : HasCode dialplan context exten code) (hlit : patternOf exten = none) {label : Text}
    (hlabel : isNumber label = false) {i : Nat}
    (hi : code.findIdx? (fun c => c.label = some label) = some i) :
    jumpTo dialplan context exten label = .to ⟨context, exten, i + 1⟩ := by
  rw [Dialplan.jumpTo, h.priorityOf hlit hlabel hi]

/-- A label that the code does not have leads nowhere. -/
theorem HasCode.jumpTo_fail {context exten : Text} {code : List Step}
    (h : HasCode dialplan context exten code) (hne : code ≠ []) (hlit : patternOf exten = none)
    {label : Text} (hlabel : isNumber label = false) (hno : ∀ c ∈ code, c.label ≠ some label) :
    Dialplan.jumpTo dialplan context exten label = .fail := by
  have hnone : code.findIdx? (fun c => c.label = some label) = none := by
    rw [List.findIdx?_eq_none_iff]
    exact fun c hc => decide_eq_false (hno c hc)
  have hfind := find?_blockEntries_label context exten 1 code label
  rw [hnone, Option.map_none, ← h, ← find?_and_filter] at hfind
  rw [Dialplan.jumpTo, Dialplan.priorityOf, hlabel, if_neg (by decide), h.extenFor hne hlit]
  simp only [hfind]

end Destinations

/-! ## Steps -/

/-- The state in which the code at its place runs. -/
def State.visit (s : State) (label : Option Text) : State :=
  { s with trace := ⟨s.pos, label⟩ :: s.trace }

section Steps
variable {dialplan : List Entry} {world : Nat → Text → Text} {s : State} {code : Step}

section At
variable (h : stepAt dialplan s.pos = some code)
include h

theorem step_at :
    step dialplan world s = (s.visit code.label).apply dialplan (appOf code.app)
      (expand ((s.visit code.label).lookup world) code.args) := by
  rw [step, h]
  rfl

theorem step_pass (happ : appOf code.app = .pass) :
    step dialplan world s = .inl (s.visit code.label).advance := by
  rw [step_at h, happ]
  rfl

theorem step_hangup (happ : appOf code.app = .hangup) :
    step dialplan world s = .inr ⟨.hungUp, (s.visit code.label).trace⟩ := by
  rw [step_at h, happ]
  rfl

theorem step_set (happ : appOf code.app = .set) {name value : Text} (hname : '=' ∉ name)
    (hargs : expand ((s.visit code.label).lookup world) code.args = name ++ '=' :: value) :
    step dialplan world s = .inl ((s.visit code.label).setVar name value).advance := by
  rw [step_at h, happ, hargs]
  simp only [State.apply, State.basic, cut_append hname]

theorem step_goto (happ : appOf code.app = .goto) (hplain : '$' ∉ code.args) :
    step dialplan world s = (s.visit code.label).goto dialplan code.args := by
  rw [step_at h, happ, expand_plain _ hplain]
  rfl

end At

theorem branch_single {condition : Bool} {dest : Text} (hdest : dest ≠ []) (hcolon : ':' ∉ dest) :
    s.branch dialplan condition dest =
      if condition then s.goto dialplan dest else .inl s.advance := by
  rw [State.branch, cut_of_notMem hcolon]
  simp [hdest]

section Conditions
variable (h : stepAt dialplan s.pos = some code)
include h

theorem step_gotoIf (happ : appOf code.app = .gotoIf) {condition : Bool} {dest : Text}
    (hargs : expand ((s.visit code.label).lookup world) code.args = truth condition ++ '?' :: dest)
    (hdest : dest ≠ []) (hcolon : ':' ∉ dest) :
    step dialplan world s = if condition then (s.visit code.label).goto dialplan dest
      else .inl (s.visit code.label).advance := by
  have hno : '?' ∉ truth condition := by cases condition <;> decide
  rw [step_at h, happ, hargs]
  simp only [State.apply, State.basic, cut_append hno, isTrue_truth]
  exact branch_single hdest hcolon

theorem step_gotoIfTime (happ : appOf code.app = .gotoIfTime) {spec dest : Text}
    (hspec : '?' ∉ spec) (hargs : code.args = spec ++ '?' :: dest) (hplain : '$' ∉ code.args)
    (hdest : dest ≠ []) (hcolon : ':' ∉ dest) :
    step dialplan world s =
      if spec = "*,*,*,*".toList then (s.visit code.label).goto dialplan dest
      else
        match s.caller.windows with
        | [] => .inr ⟨.gone, (s.visit code.label).trace⟩
        | isOpen :: windows =>
          let s := { s.visit code.label with caller := { s.caller with windows := windows } }
          if isOpen then s.goto dialplan dest else .inl s.advance := by
  rw [step_at h, happ, expand_plain _ hplain, hargs]
  simp only [State.apply, State.basic, State.gotoIfTime, cut_append hspec]
  split
  · rw [branch_single hdest hcolon, if_pos rfl]
  · show (match s.caller.windows with
      | [] => State.finish _ _
      | isOpen :: windows => _) = _
    cases s.caller.windows with
    | nil => rfl
    | cons isOpen windows => exact branch_single hdest hcolon

theorem step_read (happ : appOf code.app = .read) (hplain : '$' ∉ code.args) :
    step dialplan world s = (s.visit code.label).read code.args := by
  rw [step_at h, happ, expand_plain _ hplain]
  rfl

theorem step_waitExten (happ : appOf code.app = .waitExten) :
    step dialplan world s = (s.visit code.label).waitExten dialplan := by
  rw [step_at h, happ]
  rfl

theorem step_agi (happ : appOf code.app = .agi) :
    step dialplan world s = (s.visit code.label).agi := by
  rw [step_at h, happ]
  rfl

end Conditions

end Steps

end Dialplan
