import KasterCti.Ami.Actions
import KasterCti.Library.ConfText
import Mathlib

/-!
# Queues and their members

`queues.renderer.ts`: the text of `queues.conf`. It is read back as sections other than
`[general]`, whose `member` lines are split at commas.

Results:
1. `clean_of_readQueues`: what can be read back from any text.
2. `readQueues_render_iff`: the queues that are read back as they were given.
-/

namespace KasterCti.Renderers

open ConfText Dialplan Lines
open Ami (queueMemberInterface agentOfferContext)

/-! ## The renderer -/

inductive QueueStrategy
  | rrmemory | leastrecent | fewestcalls | random | linear | ringall

def QueueStrategy.text : QueueStrategy → String
  | rrmemory => "rrmemory"
  | leastrecent => "leastrecent"
  | fewestcalls => "fewestcalls"
  | random => "random"
  | linear => "linear"
  | ringall => "ringall"

structure QueueMemberInput where
  extension : String
  agentName : String
  penalty : Int
  memberOrder : Int

structure QueueInput where
  queueName : String
  strategy : QueueStrategy
  ringTimeoutSeconds : Int
  retrySeconds : Int
  wrapupSeconds : Int
  maxWaitSeconds : Int
  autopause : Bool
  members : List QueueMemberInput

/-- `a.memberOrder - b.memberOrder || a.penalty - b.penalty`, not above zero. -/
def notAfter (a b : QueueMemberInput) : Bool :=
  if a.memberOrder = b.memberOrder then a.penalty ≤ b.penalty else a.memberOrder < b.memberOrder

def sortedMembers (q : QueueInput) : List QueueMemberInput := q.members.mergeSort notAfter

def memberLine (m : QueueMemberInput) : String :=
  "member => " ++ queueMemberInterface m.extension ++ "," ++ toString m.penalty ++ "," ++ m.agentName

/-- The setting `autopause` is not rendered: a queue never takes a member out by itself. -/
def queueSettings (q : QueueInput) : List String :=
  ["strategy=" ++ q.strategy.text,
    "ringinuse=no",
    "joinempty=yes",
    "leavewhenempty=no",
    "timeout=" ++ toString q.ringTimeoutSeconds,
    "retry=" ++ toString q.retrySeconds,
    "wrapuptime=" ++ toString q.wrapupSeconds,
    "maxlen=0",
    "autopause=no"]

def queueLines (q : QueueInput) : List String :=
  ("[" ++ q.queueName ++ "]") :: (queueSettings q ++ (sortedMembers q).map memberLine) ++ [""]

def queuesHeader : List String :=
  ["; Auto-generated by KAster CTI - do not edit manually",
    "[general]",
    "persistentmembers=yes",
    "autofill=yes",
    "ringinuse=no",
    ""]

def renderQueuesConf (queues : List QueueInput) : String :=
  unlines (queuesHeader ++ queues.flatMap queueLines)

/-! ## Reading it back -/

/-- Asterisk compares the name without regard to case. -/
def isGeneral (name : Text) : Bool := name.map Char.toLower = "general".toList

def membersOf (sec : ConfSection) : List (List Text) :=
  (sec.entries.filter fun e => e.1 = "member".toList).map fun e => e.2.splitOn ','

def readQueues (s : String) : List (Text × List (List Text)) :=
  ((readConf s).filter fun sec => !isGeneral sec.name).map fun sec => (sec.name, membersOf sec)

/-- Interface, penalty and name. -/
def givenMember (m : QueueMemberInput) : List Text :=
  [(queueMemberInterface m.extension).toList, (toString m.penalty).toList, m.agentName.toList]

def givenQueue (q : QueueInput) : Text × List (List Text) :=
  (q.queueName.toList, (sortedMembers q).map givenMember)

/-- Neither ends a field, nor a line, nor begins a comment. -/
def FieldChar (c : Char) : Prop := c ≠ ',' ∧ c ≠ ';' ∧ isBreak c = false

structure CleanMember (m : QueueMemberInput) : Prop where
  extension : ∀ c ∈ m.extension.toList, FieldChar c
  agentName : ∀ c ∈ m.agentName.toList, FieldChar c
  last : ∀ c, m.agentName.toList.getLast? = some c → isBlank c = false

structure CleanQueue (q : QueueInput) : Prop where
  queueName : ∀ c ∈ q.queueName.toList, c ≠ ']' ∧ c ≠ ';' ∧ isBreak c = false
  notGeneral : isGeneral q.queueName.toList = false
  members : ∀ m ∈ q.members, CleanMember m

/-! ## What can be read back -/

theorem intercalate_three (a b c : Text) :
    [','].intercalate [a, b, c] = a ++ ',' :: (b ++ ',' :: c) := by
  simp [List.intercalate]

/-- The value of a member line. -/
def fieldsText (m : QueueMemberInput) : Text :=
  (queueMemberInterface m.extension).toList ++
    ',' :: ((toString m.penalty).toList ++ ',' :: m.agentName.toList)

theorem mem_sortedMembers {q : QueueInput} {m : QueueMemberInput} :
    m ∈ sortedMembers q ↔ m ∈ q.members := List.mem_mergeSort

theorem clean_of_fields {value : Text} (hstripped : Stripped value)
    (hchars : ∀ c ∈ value, c ≠ ';' ∧ isBreak c = false) {m : QueueMemberInput}
    (h : value.splitOn ',' = givenMember m) : CleanMember m := by
  have hfree : ∀ field ∈ givenMember m, ',' ∉ field := by
    intro field hfield hcomma
    rw [← h] at hfield
    have hne := splitOnP_free value field hfield ',' hcomma
    simp at hne
  have hvalue : value = fieldsText m := by
    have hjoin : [','].intercalate (value.splitOn ',') = value := List.intercalate_splitOn ','
    rw [← hjoin, h]
    exact intercalate_three _ _ _
  have hfield : ∀ field ∈ givenMember m, ∀ c ∈ field, FieldChar c := by
    intro field hmem c hc
    have hcv : c ∈ value := by
      rw [hvalue]
      simp only [givenMember, List.mem_cons, List.not_mem_nil, or_false] at hmem
      rcases hmem with rfl | rfl | rfl
      · exact List.mem_append_left _ hc
      · exact List.mem_append_right _ (List.mem_cons_of_mem _ (List.mem_append_left _ hc))
      · exact List.mem_append_right _
          (List.mem_cons_of_mem _ (List.mem_append_right _ (List.mem_cons_of_mem _ hc)))
    exact ⟨fun heq => hfree field hmem (heq ▸ hc), hchars c hcv⟩
  refine ⟨fun c hc => ?_, hfield _ (by simp [givenMember]), fun c hc => ?_⟩
  · exact hfield _ (List.mem_cons_self) c (by simp [queueMemberInterface, hc])
  · refine hstripped.last c ?_
    rw [hvalue, fieldsText, ← List.cons_append, ← List.append_assoc]
    exact getLast?_append_of (getLast?_append_of (a := [',']) hc)

variable {queues : List QueueInput}

/-- What is read from any text at all is clean. -/
theorem clean_of_readQueues {s : String} (h : readQueues s = queues.map givenQueue) :
    ∀ q ∈ queues, CleanQueue q := by
  intro q hq
  have hread : givenQueue q ∈ readQueues s := by
    rw [h]
    exact List.mem_map_of_mem hq
  obtain ⟨sec, hsec, heq⟩ := List.mem_map.1 hread
  obtain ⟨hmem, hnot⟩ := List.mem_filter.1 hsec
  obtain ⟨hname, hmembers⟩ := Prod.mk.inj heq
  refine ⟨fun c hc => name_of_mem_readConf hmem (hname ▸ hc), ?_, fun m hm => ?_⟩
  · rw [← hname]
    simpa using hnot
  · have hgiven : givenMember m ∈ membersOf sec := by
      rw [hmembers]
      exact List.mem_map_of_mem (mem_sortedMembers.2 hm)
    obtain ⟨e, he, hfields⟩ := List.mem_map.1 hgiven
    obtain ⟨hstripped, hchars⟩ := value_of_mem_readConf hmem (List.mem_filter.1 he).1
    exact clean_of_fields hstripped hchars hfields

/-! ## What the renderer writes -/

/-- The lines of a queue as keys with their values. -/
def settingEntries (q : QueueInput) : List (String × String) :=
  [("strategy", q.strategy.text), ("ringinuse", "no"), ("joinempty", "yes"),
    ("leavewhenempty", "no"), ("timeout", toString q.ringTimeoutSeconds),
    ("retry", toString q.retrySeconds), ("wrapuptime", toString q.wrapupSeconds), ("maxlen", "0"),
    ("autopause", "no")]

def memberEntry (m : QueueMemberInput) : String × String :=
  ("member ", "> " ++ queueMemberInterface m.extension ++ "," ++ toString m.penalty ++ "," ++
    m.agentName)

def queueEntries (q : QueueInput) : List (String × String) :=
  settingEntries q ++ (sortedMembers q).map memberEntry

theorem memberLine_eq (m : QueueMemberInput) : memberLine m = keyedLine (memberEntry m) := by
  rw [memberLine, keyedLine, memberEntry]
  simp only [← String.append_assoc]
  rfl

theorem queueLines_eq (q : QueueInput) :
    queueLines q = sectionLines q.queueName (queueEntries q) ++ [""] := by
  rw [queueLines, sectionLines, queueEntries, List.map_append, List.map_map]
  have hmembers : (sortedMembers q).map memberLine =
      (sortedMembers q).map (keyedLine ∘ memberEntry) :=
    List.map_congr_left fun m _ => memberLine_eq m
  rw [hmembers]
  rfl

theorem isKey_queueEntries (q : QueueInput) : ∀ e ∈ queueEntries q, isKey e.1.toList = true := by
  intro e he
  rcases List.mem_append.1 he with he | he
  · have hkeys : ∀ key ∈ (settingEntries q).map Prod.fst, isKey key.toList = true := by
      show ∀ key ∈ ["strategy", "ringinuse", "joinempty", "leavewhenempty", "timeout", "retry",
        "wrapuptime", "maxlen", "autopause"], isKey key.toList = true
      decide
    exact hkeys e.1 (List.mem_map_of_mem he)
  · obtain ⟨m, -, rfl⟩ := List.mem_map.1 he
    show isKey "member ".toList = true
    decide

theorem isDigit_or_minus {n : Int} {c : Char} (h : c ∈ (toString n).toList) :
    c.isDigit = true ∨ c = '-' := by
  have hnat {m : Nat} (h : c ∈ m.repr.toList) : c.isDigit = true := by
    rw [Nat.toList_repr] at h
    exact Nat.isDigit_of_mem_toDigits (by decide) (by decide) h
  cases n with
  | ofNat m => exact .inl (hnat h)
  | negSucc m =>
    have htext : (toString (Int.negSucc m)).toList = '-' :: (m + 1).repr.toList := by
      simp [toString, Int.repr]
    rw [htext] at h
    rcases List.mem_cons.1 h with rfl | h
    · exact .inr rfl
    · exact .inl (hnat h)

theorem fieldChar_of_int {n : Int} {c : Char} (h : c ∈ (toString n).toList) : FieldChar c := by
  have hother {d : Char} (hdigit : d.isDigit = false) (hminus : d ≠ '-') : c ≠ d := by
    rintro rfl
    rcases isDigit_or_minus h with hd | hd
    · rw [hdigit] at hd
      cases hd
    · exact hminus hd
  refine ⟨hother rfl (by decide), hother rfl (by decide), ?_⟩
  rw [Bool.eq_false_iff, Ne, isBreak_iff, not_or]
  exact ⟨hother rfl (by decide), hother rfl (by decide)⟩

/-- The characters of a member line that come from the renderer itself. -/
theorem fieldChar_interface {m : QueueMemberInput} (h : ∀ c ∈ m.extension.toList, FieldChar c) :
    ∀ c ∈ (queueMemberInterface m.extension).toList, FieldChar c := by
  intro c hc
  simp only [queueMemberInterface, String.toList_append, List.mem_append] at hc
  rcases hc with ((hc | hc) | hc) | hc
  · have hlead : ∀ c ∈ "Local/".toList, c ≠ ',' ∧ c ≠ ';' ∧ isBreak c = false := by decide
    exact hlead c hc
  · exact h c hc
  · have hat : ∀ c ∈ "@".toList, c ≠ ',' ∧ c ≠ ';' ∧ isBreak c = false := by decide
    exact hat c hc
  · have hcontext : ∀ c ∈ agentOfferContext.toList, c ≠ ',' ∧ c ≠ ';' ∧ isBreak c = false := by
      decide
    exact hcontext c hc

section Clean
variable {m : QueueMemberInput} {q : QueueInput}

theorem CleanMember.fields (h : CleanMember m) :
    ∀ field ∈ givenMember m, ∀ c ∈ field, FieldChar c := by
  intro field hfield
  simp only [givenMember, List.mem_cons, List.not_mem_nil, or_false] at hfield
  rcases hfield with rfl | rfl | rfl
  · exact fieldChar_interface h.extension
  · exact fun c => fieldChar_of_int
  · exact h.agentName

theorem CleanMember.text (h : CleanMember m) :
    ∀ c ∈ fieldsText m, c ≠ ';' ∧ isBreak c = false := by
  intro c hc
  rw [fieldsText, ← intercalate_three] at hc
  have hfrom : c = ',' ∨ ∃ field ∈ givenMember m, c ∈ field := by
    rw [intercalate_three] at hc
    simp only [List.mem_append, List.mem_cons] at hc
    rcases hc with hc | rfl | hc | rfl | hc
    · exact .inr ⟨_, List.mem_cons_self, hc⟩
    · exact .inl rfl
    · exact .inr ⟨_, List.mem_cons_of_mem _ List.mem_cons_self, hc⟩
    · exact .inl rfl
    · exact .inr ⟨_, List.mem_cons_of_mem _ (List.mem_cons_of_mem _ List.mem_cons_self), hc⟩
  rcases hfrom with rfl | ⟨field, hfield, hc⟩
  · decide
  · exact (h.fields field hfield c hc).2

theorem CleanMember.stripped (h : CleanMember m) : Stripped (fieldsText m) := by
  refine ⟨?_, ?_⟩
  · intro c hc
    have hlead : (fieldsText m).head? = some 'L' := by
      simp [fieldsText, queueMemberInterface]
    rw [hlead] at hc
    exact Option.some.inj hc ▸ rfl
  · intro c hc
    have hlast : (fieldsText m).getLast? = some (m.agentName.toList.getLast?.getD ',') := by
      rw [fieldsText, ← List.cons_append, ← List.append_assoc]
      simp only [List.getLast?_append, List.getLast?_cons, Option.some_or]
    rw [hlast] at hc
    cases hname : m.agentName.toList.getLast? with
    | none =>
      rw [hname] at hc
      exact Option.some.inj hc ▸ rfl
    | some last =>
      rw [hname] at hc
      exact h.last c (hname.trans hc)

theorem CleanMember.value (h : CleanMember m) :
    readValue (memberEntry m).2.toList = fieldsText m := by
  have hvalue : (memberEntry m).2.toList = '>' :: ' ' :: fieldsText m := by
    simp only [memberEntry, fieldsText, String.toList_append, List.append_assoc]
    rfl
  have hfree : ';' ∉ '>' :: ' ' :: fieldsText m := by
    simp only [List.mem_cons, not_or]
    exact ⟨by decide, by decide, fun hmem => (h.text _ hmem).1 rfl⟩
  rw [hvalue, readValue, beforeComment_of_free hfree]
  exact h.stripped.strip_cons_blank rfl

theorem CleanMember.split (h : CleanMember m) : (fieldsText m).splitOn ',' = givenMember m := by
  have hsplit : ([','].intercalate (givenMember m)).splitOn ',' = givenMember m :=
    List.splitOn_intercalate ',' (fun field hfield hcomma =>
      (h.fields field hfield ',' hcomma).1 rfl) (List.cons_ne_nil _ _)
  rw [← hsplit]
  exact congrArg (List.splitOn ',') (intercalate_three _ _ _).symm

theorem CleanQueue.membersOf (h : CleanQueue q) :
    membersOf (sectionOf q.queueName (queueEntries q)) = (sortedMembers q).map givenMember := by
  have hsettings : (((settingEntries q).map fun e =>
      (strip e.1.toList, readValue e.2.toList)).filter fun e => e.1 = "member".toList) = [] := by
    rw [List.filter_eq_nil_iff]
    intro e he
    obtain ⟨entry, hentry, rfl⟩ := List.mem_map.1 he
    have hkeys : ∀ key ∈ (settingEntries q).map Prod.fst, strip key.toList ≠ "member".toList := by
      show ∀ key ∈ ["strategy", "ringinuse", "joinempty", "leavewhenempty", "timeout", "retry",
        "wrapuptime", "maxlen", "autopause"], strip key.toList ≠ "member".toList
      decide
    exact fun hkey => hkeys entry.1 (List.mem_map_of_mem hentry) (of_decide_eq_true hkey)
  have hmembers : ∀ ms : List QueueMemberInput, (∀ m ∈ ms, CleanMember m) →
      ((((ms.map memberEntry).map fun e => (strip e.1.toList, readValue e.2.toList)).filter
        fun e => e.1 = "member".toList).map fun e => e.2.splitOn ',') = ms.map givenMember := by
    intro ms hms
    induction ms with
    | nil => rfl
    | cons m ms ih =>
      obtain ⟨hm, hms⟩ := List.forall_mem_cons.1 hms
      have hkey : strip (memberEntry m).1.toList = "member".toList := by
        show strip "member ".toList = "member".toList
        decide
      rw [List.map_cons, List.map_cons, List.filter_cons_of_pos (by simpa using hkey),
        List.map_cons, ih hms, hm.value, hm.split, List.map_cons]
  rw [Renderers.membersOf, sectionOf, queueEntries, List.map_append, List.filter_append, hsettings,
    List.nil_append]
  exact hmembers _ fun m hm => h.members m (mem_sortedMembers.1 hm)

theorem hasBreak_of_chars {s : String} (h : ∀ c ∈ s.toList, isBreak c = false) :
    hasBreak s = false := hasBreak_eq_false_iff.2 h

theorem CleanQueue.lines (h : CleanQueue q) : ∀ l ∈ queueLines q, hasBreak l = false := by
  have hint : ∀ n : Int, hasBreak (toString n) = false := fun n =>
    hasBreak_of_chars fun c hc => (fieldChar_of_int hc).2.2
  have hstrategy : hasBreak q.strategy.text = false := by
    cases q.strategy <;> decide
  intro l hl
  rw [queueLines] at hl
  rcases List.mem_append.1 hl with hl | hl
  · rcases List.mem_cons.1 hl with rfl | hl
    · rw [hasBreak_append, hasBreak_append, hasBreak_of_chars fun c hc => (h.queueName c hc).2.2]
      decide
    · rcases List.mem_append.1 hl with hl | hl
      · simp only [queueSettings, List.mem_cons, List.not_mem_nil, or_false] at hl
        have hkeyed {key value : String} (hkey : hasBreak key = false)
            (hvalue : hasBreak value = false) : hasBreak (key ++ value) = false := by
          rw [hasBreak_append, hkey, hvalue]
          rfl
        rcases hl with rfl | rfl | rfl | rfl | rfl | rfl | rfl | rfl | rfl
        exacts [hkeyed (by decide) hstrategy, by decide, by decide, by decide,
          hkeyed (by decide) (hint _), hkeyed (by decide) (hint _), hkeyed (by decide) (hint _),
          by decide, by decide]
      · obtain ⟨m, hm, rfl⟩ := List.mem_map.1 hl
        have hclean := h.members m (mem_sortedMembers.1 hm)
        have hline : (memberLine m).toList = "member => ".toList ++ fieldsText m := by
          simp only [memberLine, fieldsText, String.toList_append, List.append_assoc]
          rfl
        refine hasBreak_of_chars fun c hc => ?_
        rw [hline] at hc
        rcases List.mem_append.1 hc with hc | hc
        · have hlead : ∀ c ∈ "member => ".toList, isBreak c = false := by decide
          exact hlead c hc
        · exact (hclean.text c hc).2
  · rw [List.mem_singleton.1 hl]
    decide

end Clean

/-! ## Writing and reading -/

def queueSection (q : QueueInput) : ConfSection := sectionOf q.queueName (queueEntries q)

theorem readLines_queues (h : ∀ q ∈ queues, CleanQueue q) :
    readLines ((queues.flatMap queueLines).map String.toList) = ([], queues.map queueSection) := by
  induction queues with
  | nil => rfl
  | cons q queues ih =>
    obtain ⟨hq, hqueues⟩ := List.forall_mem_cons.1 h
    rw [List.flatMap_cons, queueLines_eq, List.append_assoc, List.map_append]
    exact readLines_sectionLines (fun c hc => ⟨(hq.queueName c hc).1, (hq.queueName c hc).2.1⟩)
      (isKey_queueEntries q) (readLines_blank (ih hqueues))

def generalEntries : List (String × String) :=
  [("persistentmembers", "yes"), ("autofill", "yes"), ("ringinuse", "no")]

theorem readConf_render (h : ∀ q ∈ queues, CleanQueue q) :
    readConf (renderQueuesConf queues) =
      sectionOf "general" generalEntries :: queues.map queueSection := by
  have hbreak : ∀ l ∈ queuesHeader ++ queues.flatMap queueLines, hasBreak l = false := by
    intro l hl
    rcases List.mem_append.1 hl with hl | hl
    · have hheader : ∀ l ∈ queuesHeader, hasBreak l = false := by decide
      exact hheader l hl
    · obtain ⟨q, hq, hl⟩ := List.mem_flatMap.1 hl
      exact (h q hq).lines l hl
  have hname : ∀ c ∈ "general".toList, c ≠ ']' ∧ c ≠ ';' := by decide
  have hkeys : ∀ e ∈ generalEntries, isKey e.1.toList = true := by decide
  have hread : readLines ((queuesHeader ++ queues.flatMap queueLines).map String.toList) =
      ([], sectionOf "general" generalEntries :: queues.map queueSection) := by
    rw [List.map_append]
    exact readLines_sectionLines hname hkeys (readLines_blank (readLines_queues h))
  exact (reads_unlines (by simp [queuesHeader]) hbreak hread).readConf

/-- The queues are read back exactly if every name of a queue, of a member and of an extension is
clean. -/
theorem readQueues_render_iff :
    readQueues (renderQueuesConf queues) = queues.map givenQueue ↔ ∀ q ∈ queues, CleanQueue q := by
  constructor
  · exact clean_of_readQueues
  · intro h
    rw [readQueues, readConf_render h, List.filter_cons_of_neg (by decide), List.filter_map,
      List.filter_eq_self.2, List.map_map]
    · exact List.map_congr_left fun q hq => Prod.ext rfl (h q hq).membersOf
    · intro q hq
      rw [Function.comp_apply, Bool.not_eq_true']
      exact (h q hq).notGeneral

end KasterCti.Renderers
