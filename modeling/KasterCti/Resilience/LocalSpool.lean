import KasterCti.Library.Json
import KasterCti.Library.Trace
import KasterCti.Library.Utf8

/-!
# The local spool on disk

`LocalSpoolStore` byte by byte, for one tenant: the data file, the cursor file and
its temporary file. A call is cut at its file-system steps, any number of calls run
next to each other, and the process may die between two steps or inside a write.

Results:
1. `Placed.readPending`: a line that the cursor has not passed is read.
2. `localStep_places`: a step that meets `Orderly` keeps the lines of all kept records.
3. `kept_records_pending`: in every run of such steps, crashes included, every kept
   record is pending.
4. `torn_line_hides_next`: the line that breaks off takes the next record with it.
5. `half_compact_hides_next`: so does a cursor that `compact` could not reset.
-/

namespace KasterCti.Resilience

open JsText Trace

/-! ## The files -/

structure LocalFiles where
  /-- `<tenant>-ami.jsonl`. -/
  data : Option (List UInt8)
  /-- `<tenant>-ami.cursor`. -/
  cursor : Option (List Char)
  /-- `<tenant>-ami.cursor.tmp`. -/
  tmp : Option (List Char)

namespace LocalFiles

def bytes (files : LocalFiles) : List UInt8 := files.data.getD []

def fileSize (files : LocalFiles) : Option Nat := files.data.map List.length

end LocalFiles

/-- The text of a record: its members, as an object. -/
def recordText (record : JsonMembers) : List Char := Json.stringify (.object record)

/-- The line that `append` writes. -/
def recordLine (record : JsonMembers) : List UInt8 := Utf8.encode (recordText record ++ ['\n'])

/-- The number in a cursor file. -/
def cursorValue (raw : List Char) : Nat :=
  match parseInt (trim (String.ofList raw)) with
  | some parsed => if 0 ≤ parsed then parsed.toNat else 0
  | none => 0

/-- `String(offset)`. -/
def cursorText (offset : Nat) : List Char := offset.repr.toList

/-- A committed cursor is read back. -/
theorem cursorValue_cursorText (offset : Nat) : cursorValue (cursorText offset) = offset := by
  rw [cursorValue, cursorText, String.ofList_toList, parseInt_trim_repr]
  simp

namespace LocalFiles

def readCursor (files : LocalFiles) : Nat :=
  match files.cursor with
  | some raw => cursorValue raw
  | none => 0

end LocalFiles

structure LocalPendingResult where
  records : List Json
  nextOffset : Nat

/-- The values of the lines: blank and corrupt lines are passed over. -/
def parseLines (lines : List (List Char)) : List Json :=
  lines.filterMap fun line => if trimChars line = [] then none else Json.parse line

def LocalFiles.readPending (files : LocalFiles) : LocalPendingResult :=
  match files.fileSize with
  | none => ⟨[], 0⟩
  | some size =>
    if size ≤ files.readCursor then ⟨[], size⟩
    else
      let text := Utf8.decode (files.bytes.drop files.readCursor)
      ⟨parseLines (text.splitOn '\n'), size⟩

/-! ## The calls -/

/-- The file-system step that a call is at. -/
inductive LocalCall
  | opening (record : JsonMembers)
  | writing (record : JsonMembers)
  | sizing (record : JsonMembers)
  | writingTmp (offset : Nat)
  | renamingTmp
  | checkingCursor
  | checkingSize (cursor : Nat)
  | truncating

structure LocalSpool where
  files : LocalFiles
  calls : Nat → Option LocalCall
  nextCall : Nat
  /-- The highest cursor committed since the file was last truncated. -/
  committed : Nat
  /-- The records whose `append` returned, with the offset, unless a cursor at or past
  the offset was committed. -/
  kept : List (JsonMembers × Nat)

inductive LocalAction
  | append (record : JsonMembers)
  | commitCursor (offset : Nat)
  | compact
  /-- The step that the call is at. -/
  | next (call : Nat)
  /-- The process dies and starts again. `torn` says how many bytes of their write some
  of the calls have written. -/
  | crash (torn : List (Nat × Nat))

namespace LocalSpool

/-- No file and no call. -/
def init : LocalSpool := ⟨⟨none, none, none⟩, fun _ => none, 0, 0, []⟩

def start (s : LocalSpool) (call : LocalCall) : LocalSpool :=
  { s with
    calls := fun m => if m = s.nextCall then some call else s.calls m
    nextCall := s.nextCall + 1 }

def setCall (s : LocalSpool) (n : Nat) (call : Option LocalCall) : LocalSpool :=
  { s with calls := fun m => if m = n then call else s.calls m }

def size (s : LocalSpool) : Nat := s.files.bytes.length

/-- `append` returns the size of the file as the offset of its record. -/
def returned (s : LocalSpool) (record : JsonMembers) : LocalSpool :=
  if s.committed < s.size then { s with kept := (record, s.size) :: s.kept } else s

/-- The temporary file takes the place of the cursor file. -/
def renamed (s : LocalSpool) (raw : List Char) : LocalSpool :=
  { s with
    files := { s.files with cursor := some raw, tmp := none }
    committed := max s.committed (cursorValue raw)
    kept := s.kept.filter fun p => cursorValue raw < p.2 }

def next (s : LocalSpool) (n : Nat) : LocalCall → LocalSpool
  | .opening record =>
    { s with files := { s.files with data := some s.files.bytes } }.setCall n (some (.writing record))
  | .writing record =>
    { s with files := { s.files with data := some (s.files.bytes ++ recordLine record) } }.setCall n
      (some (.sizing record))
  | .sizing record => (s.returned record).setCall n none
  | .writingTmp offset =>
    { s with files := { s.files with tmp := some (cursorText offset) } }.setCall n (some .renamingTmp)
  | .renamingTmp =>
    match s.files.tmp with
    -- another call has renamed it
    | none => s.setCall n none
    | some raw => (s.renamed raw).setCall n none
  | .checkingCursor => s.setCall n (some (.checkingSize s.files.readCursor))
  | .checkingSize cursor =>
    match s.files.fileSize with
    | none => s.setCall n none
    | some size =>
      if size = 0 || cursor < size then s.setCall n none else s.setCall n (some .truncating)
  -- the reset of the cursor is a commit of its own
  | .truncating =>
    { s with files := { s.files with data := s.files.data.map fun _ => [] }, committed := 0 }.setCall n
      (some (.writingTmp 0))

/-- What a write that breaks off leaves behind. -/
def tear (calls : Nat → Option LocalCall) (files : LocalFiles) (torn : Nat × Nat) : LocalFiles :=
  match calls torn.1 with
  | some (.writing record) =>
    { files with data := some (files.bytes ++ (recordLine record).take torn.2) }
  | some (.writingTmp offset) => { files with tmp := some ((cursorText offset).take torn.2) }
  | _ => files

end LocalSpool

def localStep (s : LocalSpool) : LocalAction → LocalSpool
  | .append record => s.start (.opening record)
  | .commitCursor offset => s.start (.writingTmp offset)
  | .compact => s.start .checkingCursor
  | .next n =>
    match s.calls n with
    | none => s
    | some call => s.next n call
  | .crash torn =>
    { s with files := torn.foldl (LocalSpool.tear s.calls) s.files, calls := fun _ => none }

/-! ## What the store is for -/

/-- Every kept record is returned by `readPending`. -/
def KeptPending (s : LocalSpool) : Prop :=
  ∀ p ∈ s.kept, Json.object p.1 ∈ s.files.readPending.records

/-- The bytes do not end inside a line. -/
def EndsLine (bytes : List UInt8) : Prop := ∀ b, bytes.getLast? = some b → b = 10

instance (bytes : List UInt8) : Decidable (EndsLine bytes) :=
  decidable_of_iff (bytes.getLast?.all (· = 10) = true) (by simp [EndsLine, Option.all_eq_true])

/-- The offset is the end of a line of the file. -/
def LineEnd (bytes : List UInt8) (offset : Nat) : Prop :=
  offset ≤ bytes.length ∧ EndsLine (bytes.take offset)

/-- No `append` is between its write and its look at the size. -/
def NoneSizing (s : LocalSpool) : Prop := ∀ n record, s.calls n ≠ some (.sizing record)

/-- A line is written behind a whole line, alone, and not under a cursor that is past
the end; a cursor put in place is the end of a line; and a file is truncated when all of
it has been committed and no `append` is in between. -/
def Orderly (s : LocalSpool) : LocalAction → Prop
  | .next n =>
    match s.calls n with
    | some (.writing _) =>
      EndsLine s.files.bytes ∧ s.files.readCursor ≤ s.size ∧ NoneSizing s
    | some .renamingTmp => ∀ raw, s.files.tmp = some raw → LineEnd s.files.bytes (cursorValue raw)
    | some .truncating => s.size ≤ s.committed ∧ NoneSizing s
    | _ => True
  | _ => True

/-! ## Lines -/

theorem recordLine_eq (record : JsonMembers) :
    recordLine record = Utf8.encode (recordText record) ++ [10] := by
  rw [recordLine, Utf8.encode, Utf8.encode, List.flatMap_append]
  rfl

theorem newline_not_mem_recordText (record : JsonMembers) : '\n' ∉ recordText record := by
  intro h
  have hprintable := Json.stringify_printable (.object record) '\n' h
  revert hprintable
  decide

theorem trimChars_recordText (record : JsonMembers) : trimChars (recordText record) ≠ [] := by
  rw [recordText, Json.stringify]
  exact trimChars_ne_nil (by decide)

/-- A text without a line feed is the first line of what it begins. -/
theorem head_mem_splitOn_newline {text : List Char} (h : '\n' ∉ text) (after : List Char) :
    text ∈ (text ++ '\n' :: after).splitOn '\n' := by
  have hline : ∀ c ∈ text, (c == '\n') = false := by
    intro c hc
    exact beq_false_of_ne fun heq => h (heq ▸ hc)
  rw [List.splitOn, List.splitOnP_append_cons _ _ (by decide), List.splitOnP_eq_singleton hline]
  simp

theorem mem_splitOn_newline {text : List Char} (h : '\n' ∉ text) (before after : List Char) :
    text ∈ (before ++ '\n' :: (text ++ '\n' :: after)).splitOn '\n' := by
  rw [List.splitOn, List.splitOnP_append_cons _ _ (by decide)]
  exact List.mem_append_right _ (head_mem_splitOn_newline h after)

/-- The line of a record behind whole lines is one of the lines read. -/
theorem mem_splitOn_recordLine {before : List UInt8} (hbefore : EndsLine before)
    (record : JsonMembers) (after : List UInt8) :
    recordText record ∈ (Utf8.decode (before ++ recordLine record ++ after)).splitOn '\n' := by
  have hline : Utf8.decode (recordLine record ++ after) =
      recordText record ++ '\n' :: Utf8.decode after := by
    rw [recordLine_eq, List.append_assoc, Utf8.decode_encode_append]
    exact congrArg _ (Utf8.decode_newline [] after)
  rw [List.append_assoc]
  rcases List.eq_nil_or_concat before with rfl | ⟨lines, b, rfl⟩
  · rw [List.nil_append, hline]
    exact head_mem_splitOn_newline (newline_not_mem_recordText record) _
  · obtain rfl : b = 10 := hbefore b (by simp)
    rw [List.concat_eq_append, List.append_assoc, List.singleton_append, Utf8.decode_newline, hline]
    exact mem_splitOn_newline (newline_not_mem_recordText record) _ _

theorem mem_parseLines {record : JsonMembers} {lines : List (List Char)}
    (h : recordText record ∈ lines) : Json.object record ∈ parseLines lines := by
  refine List.mem_filterMap.2 ⟨_, h, ?_⟩
  rw [if_neg (trimChars_recordText record)]
  exact Json.parse_stringify (.object record)

theorem EndsLine.drop {bytes : List UInt8} (h : EndsLine bytes) (n : Nat) : EndsLine (bytes.drop n) := by
  intro b hb
  rw [List.getLast?_drop] at hb
  split at hb
  · cases hb
  · exact h b hb

/-- No line ends inside the line of a record. -/
theorem lineEnd_le {before after : List UInt8} {record : JsonMembers} {offset : Nat}
    (h : LineEnd (before ++ recordLine record ++ after) offset)
    (hlt : offset < (before ++ recordLine record).length) : offset ≤ before.length := by
  by_contra hinside
  obtain ⟨-, hends⟩ := h
  rw [recordLine_eq, List.length_append, List.length_append, List.length_singleton] at hlt
  have htake : (before ++ recordLine record ++ after).take offset =
      before ++ (Utf8.encode (recordText record)).take (offset - before.length) := by
    rw [recordLine_eq, List.append_assoc, List.append_assoc, List.take_append,
      List.take_of_length_le (by omega), List.take_append_of_le_length (by omega)]
  -- the last byte of that is a byte of the text
  have hne : (Utf8.encode (recordText record)).take (offset - before.length) ≠ [] := by
    intro hnil
    rw [List.take_eq_nil_iff, ← List.length_eq_zero_iff] at hnil
    omega
  have hlast := hends _ (by rw [htake, List.getLast?_append_of_ne_nil _ hne, List.getLast?_eq_some_getLast hne])
  refine Utf8.newline_not_mem_encode (newline_not_mem_recordText record) ?_
  rw [← hlast]
  exact List.mem_of_mem_take (List.getLast_mem hne)

/-! ## Where the kept records are -/

/-- The line of the record stands behind whole lines, which the cursor has not passed
further than to their end, and ends at the offset. -/
def Placed (s : LocalSpool) (record : JsonMembers) (offset : Nat) : Prop :=
  ∃ before after, s.files.bytes = before ++ recordLine record ++ after ∧ EndsLine before ∧
    s.files.readCursor ≤ before.length ∧ s.committed ≤ before.length ∧
    offset = (before ++ recordLine record).length

/-- The line of the record is the last one, and no cursor has passed it unless one at
the end of the file was committed. -/
def PlacedLast (s : LocalSpool) (record : JsonMembers) : Prop :=
  ∃ before, s.files.bytes = before ++ recordLine record ∧ EndsLine before ∧
    (s.committed < s.size → s.files.readCursor ≤ before.length ∧ s.committed ≤ before.length)

structure Places (s : LocalSpool) : Prop where
  kept : ∀ p ∈ s.kept, Placed s p.1 p.2
  sizing : ∀ n record, s.calls n = some (.sizing record) → PlacedLast s record
  committed : s.committed ≤ s.size

theorem recordLine_length_pos (record : JsonMembers) : 0 < (recordLine record).length := by
  rw [recordLine_eq, List.length_append, List.length_singleton]
  omega

/-- A line that the cursor has not passed is read. -/
theorem Placed.readPending {s : LocalSpool} {record : JsonMembers} {offset : Nat}
    (h : Placed s record offset) : Json.object record ∈ s.files.readPending.records := by
  obtain ⟨before, after, hbytes, hbefore, hcursor, -, -⟩ := h
  have hpos := recordLine_length_pos record
  have hlength : s.files.bytes.length = before.length + (recordLine record).length + after.length := by
    rw [hbytes, List.length_append, List.length_append]
  have hsize : s.files.fileSize = some s.files.bytes.length := by
    cases hdata : s.files.data with
    | none =>
      have hempty : s.files.bytes = [] := by rw [LocalFiles.bytes, hdata]; rfl
      rw [hempty, List.length_nil] at hlength
      omega
    | some bytes => simp [LocalFiles.fileSize, LocalFiles.bytes, hdata]
  have hdrop : s.files.bytes.drop s.files.readCursor =
      before.drop s.files.readCursor ++ recordLine record ++ after := by
    rw [hbytes, List.append_assoc, List.drop_append_of_le_length hcursor, List.append_assoc]
  unfold LocalFiles.readPending
  rw [hsize]
  dsimp only
  rw [if_neg (by omega), hdrop]
  exact mem_parseLines (mem_splitOn_recordLine (hbefore.drop _) record after)

/-! ## Steps -/

variable {s s' : LocalSpool}

/-- A step that leaves the bytes, the cursor and the books as they are. -/
theorem Places.congr (h : Places s) (hbytes : s'.files.bytes = s.files.bytes)
    (hcursor : s'.files.cursor = s.files.cursor) (hcommitted : s'.committed = s.committed)
    (hkept : s'.kept = s.kept)
    (hcalls : ∀ n record, s'.calls n = some (.sizing record) → s.calls n = some (.sizing record)) :
    Places s' := by
  have hread : s'.files.readCursor = s.files.readCursor := by
    simp only [LocalFiles.readCursor, hcursor]
  refine ⟨?_, ?_, ?_⟩
  · intro p hp
    rw [hkept] at hp
    simpa only [Placed, hbytes, hread, hcommitted] using h.kept p hp
  · intro n record hcall
    simpa only [PlacedLast, LocalSpool.size, hbytes, hread, hcommitted] using
      h.sizing n record (hcalls n record hcall)
  · simpa only [LocalSpool.size, hbytes, hcommitted] using h.committed

theorem Placed.grow {record : JsonMembers} {offset : Nat} (h : Placed s record offset)
    {more : List UInt8} (hbytes : s'.files.bytes = s.files.bytes ++ more)
    (hcursor : s'.files.readCursor = s.files.readCursor) (hcommitted : s'.committed = s.committed) :
    Placed s' record offset := by
  obtain ⟨before, after, hplace, hbefore, hread, hcommit, hoffset⟩ := h
  refine ⟨before, after ++ more, ?_, hbefore, ?_, ?_, hoffset⟩
  · rw [hbytes, hplace, List.append_assoc _ after]
  · rw [hcursor]
    exact hread
  · rw [hcommitted]
    exact hcommit

theorem setCall_sizing {n m : Nat} {call : Option LocalCall} {record : JsonMembers}
    (hcall : ∀ r, call ≠ some (.sizing r))
    (h : (s.setCall n call).calls m = some (.sizing record)) : s.calls m = some (.sizing record) := by
  simp only [LocalSpool.setCall] at h
  split at h
  · exact absurd h (hcall record)
  · exact h

variable {n : Nat}

theorem Places.setCall (h : Places s) {call : Option LocalCall}
    (hcall : ∀ r, call ≠ some (.sizing r)) : Places (s.setCall n call) :=
  h.congr rfl rfl rfl rfl fun _ _ => setCall_sizing hcall

theorem Places.start (h : Places s) {call : LocalCall} (hcall : ∀ r, call ≠ .sizing r) :
    Places (s.start call) := by
  refine h.congr rfl rfl rfl rfl ?_
  intro n record hsizing
  simp only [LocalSpool.start] at hsizing
  split at hsizing
  · exact absurd (Option.some.inj hsizing) (hcall record)
  · exact hsizing

/-- A line written alone, behind a whole line. -/
theorem Places.write (h : Places s) (record : JsonMembers) (hends : EndsLine s.files.bytes)
    (hread : s.files.readCursor ≤ s.size) (hnone : NoneSizing s) :
    Places (s.next n (.writing record)) := by
  refine ⟨?_, ?_, ?_⟩
  · intro p hp
    exact (h.kept p hp).grow rfl rfl rfl
  · intro m r hcall
    simp only [LocalSpool.next, LocalSpool.setCall] at hcall
    split at hcall
    · cases hcall
      exact ⟨s.files.bytes, rfl, hends, fun _ => ⟨hread, h.committed⟩⟩
    · exact absurd hcall (hnone m r)
  · refine Nat.le_trans h.committed ?_
    simp [LocalSpool.next, LocalSpool.setCall, LocalSpool.size, LocalFiles.bytes]

/-- `append` returns. -/
theorem Places.returned (h : Places s) {record : JsonMembers}
    (hcall : s.calls n = some (.sizing record)) : Places ((s.returned record).setCall n none) := by
  unfold LocalSpool.returned
  split
  · next hopen =>
    obtain ⟨before, hplace, hbefore, hpassed⟩ := h.sizing n record hcall
    obtain ⟨hread, hcommit⟩ := hpassed hopen
    refine ⟨?_, ?_, h.committed⟩
    · intro p hp
      rcases List.mem_cons.1 hp with rfl | hp
      · refine ⟨before, [], ?_, hbefore, hread, hcommit, ?_⟩
        · rw [List.append_nil]
          exact hplace
        · show s.size = _
          rw [LocalSpool.size, hplace]
      · exact h.kept p hp
    · intro m r hsizing
      exact h.sizing m r (setCall_sizing (by simp) hsizing)
  · exact h.setCall (by simp)

/-- A cursor is put in place at the end of a line. -/
theorem Places.rename (h : Places s) {raw : List Char}
    (hline : LineEnd s.files.bytes (cursorValue raw)) :
    Places ((s.renamed raw).setCall n none) := by
  refine ⟨?_, ?_, ?_⟩
  · intro p hp
    obtain ⟨hp, hopen⟩ := List.mem_filter.1 hp
    obtain ⟨before, after, hplace, hbefore, -, hcommit, hoffset⟩ := h.kept p hp
    have hvalue : cursorValue raw ≤ before.length := by
      refine lineEnd_le (hplace ▸ hline) ?_
      rw [← hoffset]
      exact of_decide_eq_true hopen
    exact ⟨before, after, hplace, hbefore, hvalue, Nat.max_le.2 ⟨hcommit, hvalue⟩, hoffset⟩
  · intro m record hcall
    obtain ⟨before, hplace, hbefore, hpassed⟩ := h.sizing m record (setCall_sizing (by simp) hcall)
    refine ⟨before, hplace, hbefore, ?_⟩
    intro hopen
    have hlt : max s.committed (cursorValue raw) < s.size := hopen
    have hcommit := (hpassed (by omega)).2
    have hvalue : cursorValue raw ≤ before.length := by
      refine @lineEnd_le before [] record _ ?_ ?_
      · rw [List.append_nil, ← hplace]
        exact hline
      · rw [← hplace]
        exact Nat.lt_of_le_of_lt (Nat.le_max_right _ _) hlt
    exact ⟨hvalue, Nat.max_le.2 ⟨hcommit, hvalue⟩⟩
  · exact Nat.max_le.2 ⟨h.committed, hline.1⟩

/-- When all of the file has been committed, no kept record is in it. -/
theorem Places.kept_eq_nil (h : Places s) (hall : s.size ≤ s.committed) : s.kept = [] := by
  refine List.eq_nil_iff_forall_not_mem.2 fun p hp => ?_
  obtain ⟨before, after, hplace, -, -, hcommit, -⟩ := h.kept p hp
  have hpos := recordLine_length_pos p.1
  have hsize : s.size = before.length + (recordLine p.1).length + after.length := by
    rw [LocalSpool.size, hplace, List.length_append, List.length_append]
  omega

theorem Places.truncate (h : Places s) (hall : s.size ≤ s.committed) (hnone : NoneSizing s) :
    Places (s.next n .truncating) := by
  refine ⟨?_, ?_, Nat.zero_le _⟩
  · intro p hp
    have hkept : (s.next n .truncating).kept = [] := h.kept_eq_nil hall
    rw [hkept] at hp
    cases hp
  · intro m record hcall
    exact absurd (setCall_sizing (by simp) hcall) (hnone m record)

theorem tear_bytes (calls : Nat → Option LocalCall) (files : LocalFiles) (torn : Nat × Nat) :
    ∃ more, (LocalSpool.tear calls files torn).bytes = files.bytes ++ more ∧
      (LocalSpool.tear calls files torn).cursor = files.cursor := by
  unfold LocalSpool.tear
  split
  · exact ⟨_, rfl, rfl⟩
  · exact ⟨[], (List.append_nil _).symm, rfl⟩
  · exact ⟨[], (List.append_nil _).symm, rfl⟩

/-- What a crash leaves of the writes stands behind the file as it was. -/
theorem foldl_tear_bytes (calls : Nat → Option LocalCall) (torn : List (Nat × Nat))
    (files : LocalFiles) :
    ∃ more, (torn.foldl (LocalSpool.tear calls) files).bytes = files.bytes ++ more ∧
      (torn.foldl (LocalSpool.tear calls) files).cursor = files.cursor := by
  induction torn generalizing files with
  | nil => exact ⟨[], (List.append_nil _).symm, rfl⟩
  | cons t torn ih =>
    obtain ⟨first, hfirst, hcursor⟩ := tear_bytes calls files t
    obtain ⟨more, hmore, hrest⟩ := ih (LocalSpool.tear calls files t)
    refine ⟨first ++ more, ?_, hrest.trans hcursor⟩
    rw [List.foldl_cons, hmore, hfirst, List.append_assoc]

theorem Places.crash (h : Places s) (torn : List (Nat × Nat)) : Places (localStep s (.crash torn)) := by
  obtain ⟨more, hbytes, hcursor⟩ := foldl_tear_bytes s.calls torn s.files
  have hread : (torn.foldl (LocalSpool.tear s.calls) s.files).readCursor = s.files.readCursor := by
    simp only [LocalFiles.readCursor, hcursor]
  refine ⟨?_, ?_, ?_⟩
  · intro p hp
    exact (h.kept p hp).grow hbytes hread rfl
  · intro n record hcall
    cases hcall
  · refine Nat.le_trans h.committed ?_
    show s.files.bytes.length ≤ (torn.foldl (LocalSpool.tear s.calls) s.files).bytes.length
    rw [hbytes, List.length_append]
    exact Nat.le_add_right _ _

/-- One file-system step. -/
theorem Places.next (h : Places s) (hok : Orderly s (.next n)) :
    Places (localStep s (.next n)) := by
  simp only [localStep]
  simp only [Orderly] at hok
  cases hcall : s.calls n with
  | none => exact h
  | some call =>
    rw [hcall] at hok
    cases call with
    | opening record =>
      exact h.congr rfl rfl rfl rfl fun _ _ => setCall_sizing (by simp)
    | writing record => exact h.write record hok.1 hok.2.1 hok.2.2
    | sizing record => exact h.returned hcall
    | writingTmp offset => exact h.congr rfl rfl rfl rfl fun _ _ => setCall_sizing (by simp)
    | renamingTmp =>
      simp only [LocalSpool.next]
      cases htmp : s.files.tmp with
      | none => exact h.setCall (by simp)
      | some raw => exact h.rename (hok raw htmp)
    | checkingCursor => exact h.setCall (by simp)
    | checkingSize cursor =>
      simp only [LocalSpool.next]
      split
      · exact h.setCall (by simp)
      · split
        · exact h.setCall (by simp)
        · exact h.setCall (by simp)
    | truncating => exact h.truncate hok.1 hok.2

theorem localStep_places {a : LocalAction} (h : Places s) (hok : Orderly s a) :
    Places (localStep s a) := by
  cases a with
  | append record => exact h.start (by simp)
  | commitCursor offset => exact h.start (by simp)
  | compact => exact h.start (by simp)
  | next n => exact h.next hok
  | crash torn => exact h.crash torn

/-! ## Runs -/

/-- In every run of calls, file-system steps and crashes whose steps are orderly, every
record whose `append` returned is pending until a cursor at or past its offset is
committed. -/
theorem kept_records_pending (actions : List LocalAction)
    (hrun : Along localStep Orderly LocalSpool.init actions) (pre post : List LocalAction)
    (hsplit : actions = pre ++ post) : KeptPending (pre.foldl localStep LocalSpool.init) := by
  rw [hsplit] at hrun
  have hstart : Places LocalSpool.init := by
    refine ⟨?_, ?_, Nat.le_refl _⟩
    · intro p hp
      cases hp
    · intro n record hcall
      cases hcall
  have hplaces : Places (pre.foldl localStep LocalSpool.init) :=
    hrun.take.invariant (fun _ _ hok hinv => localStep_places hinv hok) hstart
  intro p hp
  exact (hplaces.kept p hp).readPending

def exLine (key : String) : JsonMembers :=
  .cons "entryType" (.string "AMI_EVENT") (.cons "idempotencyKey" (.string key) .nil)

/-- One record is appended and committed, the process dies, and another one is appended. -/
def exOrderly : List LocalAction :=
  [.append (exLine "1"), .next 0, .next 0, .next 0,
    .commitCursor (recordLine (exLine "1")).length, .next 1, .next 1, .crash [],
    .append (exLine "2"), .next 2, .next 2, .next 2]

theorem kept_records_pending_crash :
    ((exOrderly.foldl localStep LocalSpool.init).kept.map (·.2)).length = 1 ∧
      KeptPending (exOrderly.foldl localStep LocalSpool.init) := by
  refine ⟨by rfl, kept_records_pending exOrderly ?_ exOrderly [] (by simp)⟩
  have hline : EndsLine (recordLine (exLine "1")) := by
    intro b hb
    rw [recordLine_eq, List.getLast?_concat] at hb
    exact (Option.some.inj hb).symm
  refine along_cons.2 ⟨trivial, along_cons.2 ⟨trivial, ?_⟩⟩
  refine along_cons.2 ⟨⟨by decide, Nat.le_refl _, ?_⟩, ?_⟩
  · rintro (_ | n) record hcall <;> cases hcall
  refine along_cons.2 ⟨trivial, along_cons.2 ⟨trivial, along_cons.2 ⟨trivial, ?_⟩⟩⟩
  refine along_cons.2 ⟨?_, along_cons.2 ⟨trivial, along_cons.2 ⟨trivial, along_cons.2 ⟨trivial, ?_⟩⟩⟩⟩
  · intro raw hraw
    obtain rfl := Option.some.inj hraw
    rw [cursorValue_cursorText]
    refine ⟨Nat.le_refl _, ?_⟩
    show EndsLine ((recordLine (exLine "1")).take (recordLine (exLine "1")).length)
    rw [List.take_length]
    exact hline
  refine along_cons.2 ⟨⟨hline, ?_, ?_⟩, along_cons.2 ⟨trivial, along_nil⟩⟩
  · show cursorValue (cursorText (recordLine (exLine "1")).length) ≤ (recordLine (exLine "1")).length
    rw [cursorValue_cursorText]
  · rintro (_ | _ | _ | n) record hcall <;> cases hcall

/-! ## A torn line -/

/-- The process dies inside the write of the first line. The second record is appended
after the restart, and `append` returns. -/
def exTorn : List LocalAction :=
  [.append (exLine "1"), .next 0, .crash [(0, 20)], .append (exLine "2"), .next 1, .next 1, .next 1]

/-- The second record is never committed and never read. -/
theorem torn_line_hides_next : ¬ KeptPending (exTorn.foldl localStep LocalSpool.init) := by
  intro h
  have hkept : (exTorn.foldl localStep LocalSpool.init).kept =
      [(exLine "2", 20 + (recordLine (exLine "2")).length)] := by
    rfl
  have hmem := h _ (by rw [hkept]; exact List.mem_singleton_self _)
  have hnone : (exTorn.foldl localStep LocalSpool.init).files.readPending.records.length = 0 := by
    decide +kernel
  rw [List.length_eq_zero_iff] at hnone
  rw [hnone] at hmem
  cases hmem

/-! ## A cursor past the end -/

/-- A committed record is compacted away, and the process dies between the truncation
and the reset of the cursor. -/
def exHalfCompact : List LocalAction :=
  [.append (exLine "1"), .next 0, .next 0, .next 0,
    .commitCursor (recordLine (exLine "1")).length, .next 1, .next 1,
    .compact, .next 2, .next 2, .next 2, .crash [],
    .append (exLine "2"), .next 3, .next 3, .next 3]

/-- The next record is kept, and nothing is pending. `compact` does not help: it
returns at once from an empty file, and later the cursor is inside a line. -/
theorem half_compact_hides_next :
    (exHalfCompact.foldl localStep LocalSpool.init).kept.length = 1 ∧
      (exHalfCompact.foldl localStep LocalSpool.init).files.readPending.records.length = 0 :=
  ⟨by rfl, by decide +kernel⟩

end KasterCti.Resilience
