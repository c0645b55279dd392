import KasterCti.Library.Bytes
import KasterCti.Library.JsText
import KasterCti.Library.Utf16

/-!
# Call reports for CID programs

`buildSmdrCallReport`: the record of a call in fixed columns of UTF-16 units, which
`SmdrTcpServerService.broadcast` sends as UTF-8.

Results:
1. `slice_record`: the columns of the record, in units.
2. `broadcast_sends`: what a client receives.
3. `wire_layout_iff`: exactly when the columns are the columns of the bytes.
4. `korean_queue_shifts`: a queue with a Korean name.
-/

namespace KasterCti.Smdr

open Bytes Utf16

/-! ## Payload -/

/-- What `new Date` makes of a value that is there. -/
inductive DateValue
  | time (ms : Int)
  | invalid

structure PrimaryAgent where
  extension : Option Text

structure SmdrCallSessionPayload where
  callId : Option Text
  linkedid : Option Text
  direction : Option Text
  ani : Option Text
  dnis : Option Text
  queueName : Option Text
  trunkName : Option Text
  startedAt : Option DateValue
  answeredAt : Option DateValue
  endedAt : Option DateValue
  talkSeconds : Option Int
  waitSeconds : Option Int
  primaryAgentId : Option Text
  primaryAgent : Option PrimaryAgent

structure SmdrCallReport where
  callId : Text
  line : Text

/-- `month: '2-digit'` and so on. -/
structure DateParts where
  month : Fin 100
  day : Fin 100
  hour : Fin 100
  minute : Fin 100
  second : Fin 100

/-- `CDR_DATE_FORMAT`, in the configured time zone. -/
abbrev DateFormat := Int → DateParts

/-! ## Texts -/

def truthy (value : Option Text) : Bool := value.any (· ≠ [])

def digits (n : Nat) : Text := unitsOf n.repr

def padStart (width : Nat) (fill : UInt16) (text : Text) : Text :=
  List.replicate (width - text.length) fill ++ text

def padEnd (width : Nat) (fill : UInt16) (text : Text) : Text :=
  text ++ List.replicate (width - text.length) fill

def blank : UInt16 := 32

def zero : UInt16 := 48

def resolveExtension (payload : SmdrCallSessionPayload) : Text :=
  ((payload.primaryAgent.bind (·.extension)).or payload.primaryAgentId).getD []

def resolveDurationSeconds (payload : SmdrCallSessionPayload) : Nat :=
  (payload.talkSeconds.getD 0).toNat

def resolveDialedPhone (payload : SmdrCallSessionPayload) : Text :=
  if payload.direction = some (unitsOf "outbound") then payload.dnis.getD []
  else (payload.dnis.or payload.queueName).getD []

def isDigit (u : UInt16) : Bool := 48 ≤ u.toNat && u.toNat ≤ 57

def resolveTrunkOrCallType (payload : SmdrCallSessionPayload) : Text :=
  let trunk := (payload.trunkName.getD []).filter isDigit
  if trunk ≠ [] then padStart 2 zero (trunk.drop (trunk.length - 2))
  else if payload.direction = some (unitsOf "outbound") then unitsOf "O"
  else if payload.direction = some (unitsOf "internal") then unitsOf "T"
  else unitsOf "I"

def toDate : Option DateValue → Option Int
  | some (.time ms) => some ms
  | _ => none

def twoDigits (n : Nat) : Text := [UInt16.ofNat (48 + n / 10), UInt16.ofNat (48 + n % 10)]

def formatSamsungDateTime (format : DateFormat) (value : Int) : Text :=
  let parts := format value
  -- some implementations write midnight as 24
  let hh := if parts.hour = 24 then 0 else parts.hour
  twoDigits parts.month ++ unitsOf "/" ++ twoDigits parts.day ++ unitsOf " " ++ twoDigits hh ++
    unitsOf ":" ++ twoDigits parts.minute ++ unitsOf ":" ++ twoDigits parts.second

def formatHhMmSs (seconds : Nat) : Text :=
  padStart 2 zero (digits (seconds / 3600)) ++ unitsOf ":" ++
    padStart 2 zero (digits (seconds % 3600 / 60)) ++ unitsOf ":" ++
    padStart 2 zero (digits (seconds % 60))

/-- `char.charCodeAt(0)` of every character of a text. -/
def characterHeads : Text → List UInt16
  | [] => []
  | [u] => [u]
  | u :: v :: rest =>
    if isHigh u && isLow v then u :: characterHeads rest else u :: characterHeads (v :: rest)

def numericCallIndex (value : Text) : Text :=
  padStart 6 zero (digits ((characterHeads value).foldl (fun hash u => (hash * 31 + u.toNat) % 1000000) 0))

/-! ## Record -/

def fixedRecord (length : Nat) : Text := List.replicate length blank

/-- One call of `write`. -/
structure Field where
  start : Nat
  width : Nat
  text : Text
  alignLeft : Bool := true

/-- `replace(/[\r\n\t]/g, ' ')`. -/
def sanitized (text : Text) : Text :=
  text.map fun u => if u = 13 ∨ u = 10 ∨ u = 9 then blank else u

/-- The text of a field, cut and padded to its width. -/
def Field.fitted (field : Field) : Text :=
  let text := (sanitized field.text).take field.width
  if field.alignLeft then padEnd field.width blank text else padStart field.width blank text

def write (record : Text) (field : Field) : Text := writeAt record field.start field.fitted

structure SmdrCallReportOptions where
  includeOriginalCallerId : Option Bool

variable (format : DateFormat) (payload : SmdrCallSessionPayload) (callId : Text) (now : Int)
  (options : SmdrCallReportOptions)

def reportedAni : Option Text :=
  if options.includeOriginalCallerId.getD true then payload.ani else none

def includeExtendedCallerFields : Bool :=
  truthy (reportedAni payload options) || truthy payload.queueName || payload.waitSeconds.any (· ≠ 0)

def occurredAt : Int :=
  (((toDate payload.startedAt).or (toDate payload.answeredAt)).or (toDate payload.endedAt)).getD now

def standardFields : List Field :=
  [{ start := 2, width := 6, text := numericCallIndex (payload.linkedid.getD callId) },
   { start := 9, width := 6, text := resolveExtension payload },
   { start := 16, width := 9, text := [] },
   { start := 26, width := 14, text := formatSamsungDateTime format (occurredAt payload now) },
   { start := 41, width := 8, text := formatHhMmSs (resolveDurationSeconds payload) },
   { start := 50, width := 2, text := resolveTrunkOrCallType payload },
   { start := 53, width := 18, text := resolveDialedPhone payload },
   { start := 72, width := 17, text := [] },
   { start := 90, width := 10, text := unitsOf "0.00", alignLeft := false },
   { start := 101, width := 16, text := (reportedAni payload options).getD [] }]

def extendedFields : List Field :=
  [{ start := 118, width := 18, text := [] },
   { start := 137, width := 6, text := payload.queueName.getD [] },
   { start := 143, width := 8, text := formatHhMmSs (payload.waitSeconds.getD 0).toNat }]

/-- All calls of `write`. -/
def recordFields : List Field :=
  standardFields format payload callId now options ++
    if includeExtendedCallerFields payload options then extendedFields payload else []

def SAMSUNG_STANDARD_RECORD_LENGTH : Nat := 122

def SAMSUNG_EXTENDED_RECORD_LENGTH : Nat := 154

def expectedLength : Nat :=
  if includeExtendedCallerFields payload options then SAMSUNG_EXTENDED_RECORD_LENGTH
  else SAMSUNG_STANDARD_RECORD_LENGTH

def formatSamsungOfficeServCdr : Text :=
  let body := fixedRecord (if includeExtendedCallerFields payload options then 151 else 119)
  let body := (recordFields format payload callId now options).foldl write body
  let line := body ++ [13, 10, 0]
  let expected := expectedLength payload options
  if line.length = expected then line else padEnd (expected - 1) blank line ++ [0]

def callEnded : String := "call.ended"

def buildSmdrCallReport (event : String) : Option SmdrCallReport :=
  if event ≠ callEnded then none
  else
    let callId := if truthy payload.callId then payload.callId else payload.linkedid
    match callId with
    | none => none
    | some callId =>
      if callId = [] then none
      else some ⟨callId, formatSamsungOfficeServCdr format payload callId now options⟩

/-! ## Sockets -/

structure SmdrClient where
  id : Nat
  destroyed : Bool
  writable : Bool
  received : List UInt8

def SmdrClient.dead (client : SmdrClient) : Bool := client.destroyed || !client.writable

/-- `client.socket.write(line, 'utf8')` for every client that is alive; the others leave. -/
def broadcast (clients : List SmdrClient) (line : Text) : List SmdrClient :=
  (clients.filter fun client => !client.dead).map fun client =>
    { client with received := client.received ++ toUtf8 line }

/-! ## Columns -/

section

variable {record : Text} {field : Field} {fields : List Field} {start count : Nat}

theorem length_fitted : field.fitted.length = field.width := by
  unfold Field.fitted padEnd padStart
  dsimp only
  split
  · rw [List.length_append, List.length_replicate, List.length_take]
    omega
  · rw [List.length_append, List.length_replicate, List.length_take]
    omega

/-- Every field has its columns, behind those of the fields before it. -/
def InOrder (fields : List Field) : Prop :=
  fields.Pairwise fun field later => field.start + field.width ≤ later.start

theorem length_foldl_write (h : ∀ field ∈ fields, field.start + field.width ≤ record.length) :
    (fields.foldl write record).length = record.length := by
  induction fields generalizing record with
  | nil => rfl
  | cons field fields ih =>
    obtain ⟨hfield, hrest⟩ := List.forall_mem_cons.mp h
    have hlength : (write record field).length = record.length :=
      length_writeAt (by rw [length_fitted]; exact hfield)
    rw [List.foldl_cons, ih fun later hlater => by rw [hlength]; exact hrest later hlater, hlength]

/-- What stands before all fields stays. -/
theorem slice_foldl_write_before (h : ∀ field ∈ fields, field.start + field.width ≤ record.length)
    (hbefore : ∀ field ∈ fields, start + count ≤ field.start) :
    slice (fields.foldl write record) start count = slice record start count := by
  induction fields generalizing record with
  | nil => rfl
  | cons field fields ih =>
    obtain ⟨hfield, hrest⟩ := List.forall_mem_cons.mp h
    obtain ⟨hfirst, hlater⟩ := List.forall_mem_cons.mp hbefore
    have hfits : field.start + field.fitted.length ≤ record.length := by
      rw [length_fitted]
      exact hfield
    have hlength : (write record field).length = record.length := length_writeAt hfits
    rw [List.foldl_cons, ih (fun later hmem => by rw [hlength]; exact hrest later hmem) hlater]
    exact slice_writeAt_other hfits (.inl hfirst)

theorem slice_record (horder : InOrder fields)
    (h : ∀ field ∈ fields, field.start + field.width ≤ record.length) (hmem : field ∈ fields) :
    slice (fields.foldl write record) field.start field.width = field.fitted := by
  induction fields generalizing record with
  | nil => cases hmem
  | cons first fields ih =>
    obtain ⟨hfirst, hrest⟩ := List.forall_mem_cons.mp h
    obtain ⟨hbefore, horder⟩ := List.pairwise_cons.mp horder
    have hfits : first.start + first.fitted.length ≤ record.length := by
      rw [length_fitted]
      exact hfirst
    have hlength : (write record first).length = record.length := length_writeAt hfits
    have hrest' : ∀ later ∈ fields, later.start + later.width ≤ (write record first).length := by
      rw [hlength]
      exact hrest
    rw [List.foldl_cons]
    rcases List.mem_cons.mp hmem with rfl | htail
    · rw [slice_foldl_write_before hrest' hbefore]
      have hslice := slice_writeAt hfits
      rwa [length_fitted] at hslice
    · exact ih horder hrest' htail

theorem plain_foldl_write (hrecord : Plain record) (h : ∀ field ∈ fields, Plain field.fitted) :
    Plain (fields.foldl write record) := by
  induction fields generalizing record with
  | nil => exact hrecord
  | cons field fields ih =>
    obtain ⟨hfield, hrest⟩ := List.forall_mem_cons.mp h
    rw [List.foldl_cons]
    refine ih (fun u hu => ?_) hrest
    simp only [write, writeAt, List.mem_append] at hu
    rcases hu with (hu | hu) | hu
    · exact hrecord u (List.mem_of_mem_take hu)
    · exact hfield u hu
    · exact hrecord u (List.mem_of_mem_drop hu)

end

/-! ## The layout on the wire -/

/-- The bytes have the length of the record, and every field has its own columns of them. -/
structure WireLayout (fields : List Field) (length : Nat) (bytes : List UInt8) : Prop where
  length_eq : bytes.length = length
  columns : ∀ field ∈ fields, slice bytes field.start field.width = toUtf8 field.fitted

section

variable {format : DateFormat} {payload : SmdrCallSessionPayload} {callId : Text} {now : Int}
  {options : SmdrCallReportOptions}

theorem recordFields_inOrder : InOrder (recordFields format payload callId now options) := by
  unfold recordFields standardFields extendedFields InOrder
  split <;> simp

theorem recordFields_inside : ∀ field ∈ recordFields format payload callId now options,
    field.start + field.width ≤
      (fixedRecord (if includeExtendedCallerFields payload options then 151 else 119)).length := by
  unfold recordFields standardFields extendedFields fixedRecord
  rw [List.length_replicate]
  split <;> simp

theorem format_eq :
    formatSamsungOfficeServCdr format payload callId now options =
        (recordFields format payload callId now options).foldl write
          (fixedRecord (if includeExtendedCallerFields payload options then 151 else 119)) ++
          [13, 10, 0] ∧
      (formatSamsungOfficeServCdr format payload callId now options).length =
        expectedLength payload options := by
  have hlength : ((recordFields format payload callId now options).foldl write
      (fixedRecord (if includeExtendedCallerFields payload options then 151 else 119)) ++
      [13, 10, 0]).length = expectedLength payload options := by
    rw [List.length_append, length_foldl_write recordFields_inside, fixedRecord,
      List.length_replicate, expectedLength]
    split <;> rfl
  have hline : formatSamsungOfficeServCdr format payload callId now options = _ := if_pos hlength
  exact ⟨hline, hline ▸ hlength⟩

/-- The bytes keep the layout of the units exactly when every unit is one byte. -/
theorem wireLayout_iff_fitted :
    WireLayout (recordFields format payload callId now options) (expectedLength payload options)
        (toUtf8 (formatSamsungOfficeServCdr format payload callId now options)) ↔
      ∀ field ∈ recordFields format payload callId now options, Plain field.fitted := by
  obtain ⟨hline, hlength⟩ := @format_eq format payload callId now options
  have hbody := @length_foldl_write _ _ (@recordFields_inside format payload callId now options)
  have hslice : ∀ field ∈ recordFields format payload callId now options,
      slice (formatSamsungOfficeServCdr format payload callId now options) field.start field.width =
        field.fitted := by
    intro field hfield
    have hinside := recordFields_inside field hfield
    rw [← hbody] at hinside
    rw [hline, slice, List.drop_append_of_le_length (by omega),
      List.take_append_of_le_length (by rw [List.length_drop]; omega)]
    exact slice_record recordFields_inOrder recordFields_inside hfield
  constructor
  · intro h field hfield u hu
    have hplain := plain_of_length_toUtf8 (h.length_eq.trans hlength.symm)
    rw [← hslice field hfield] at hu
    exact hplain u (List.mem_of_mem_drop (List.mem_of_mem_take hu))
  · intro h
    have hplain : Plain (formatSamsungOfficeServCdr format payload callId now options) := by
      have hblank : ∀ length, Plain (fixedRecord length) := by
        intro length u hu
        rw [List.eq_of_mem_replicate hu]
        decide
      have hend : Plain [13, 10, 0] := by decide
      rw [hline]
      intro u hu
      rcases List.mem_append.mp hu with hu | hu
      · exact plain_foldl_write (hblank _) h u hu
      · exact hend u hu
    constructor
    · rw [toUtf8_ascii hplain, List.length_map, hlength]
    · intro field hfield
      rw [toUtf8_ascii hplain, toUtf8_ascii (h field hfield), ← hslice field hfield]
      simp only [slice, List.map_take, List.map_drop]

end

/-! ## Texts of one-byte units -/

section

variable {text text' : Text} {width : Nat} {fill : UInt16}

theorem plain_append (h : Plain text) (h' : Plain text') : Plain (text ++ text') := by
  intro u hu
  rcases List.mem_append.mp hu with hu | hu
  · exact h u hu
  · exact h' u hu

theorem plain_of_subset (h : Plain text) (hsub : text' ⊆ text) : Plain text' :=
  fun u hu => h u (hsub hu)

theorem plain_padStart (hfill : fill.toNat < 0x80) (h : Plain text) : Plain (padStart width fill text) := by
  refine plain_append (fun u hu => ?_) h
  rw [List.eq_of_mem_replicate hu]
  exact hfill

theorem plain_digits (n : Nat) : Plain (digits n) := by
  intro u hu
  obtain ⟨c, hc, rfl⟩ := List.mem_map.mp hu
  rw [Nat.toList_repr] at hc
  have hdigit := Nat.isDigit_of_mem_toDigits (by decide) (by decide) hc
  have hle : c.toNat ≤ 57 := by
    simp only [Char.isDigit, Bool.and_eq_true, decide_eq_true_eq] at hdigit
    exact hdigit.2
  rw [UInt16.toNat_ofNat_of_lt' (Nat.lt_of_le_of_lt hle (by decide))]
  omega

theorem plain_twoDigits (n : Fin 100) : Plain (twoDigits n) := by
  revert n
  decide

theorem plain_formatHhMmSs (seconds : Nat) : Plain (formatHhMmSs seconds) := by
  have hpart : ∀ n, Plain (padStart 2 zero (digits n)) := fun n =>
    plain_padStart (by decide) (plain_digits n)
  have hcolon : Plain (unitsOf ":") := by decide
  exact plain_append (plain_append (plain_append (plain_append (hpart _) hcolon) (hpart _)) hcolon) (hpart _)

theorem plain_formatSamsungDateTime (format : DateFormat) (value : Int) :
    Plain (formatSamsungDateTime format value) := by
  have hcolon : Plain (unitsOf ":") := by decide
  have hslash : Plain (unitsOf "/") := by decide
  have hspace : Plain (unitsOf " ") := by decide
  exact plain_append (plain_append (plain_append (plain_append (plain_append (plain_append
    (plain_append (plain_append (plain_twoDigits _) hslash) (plain_twoDigits _)) hspace)
    (plain_twoDigits _)) hcolon) (plain_twoDigits _)) hcolon) (plain_twoDigits _)

theorem plain_numericCallIndex (value : Text) : Plain (numericCallIndex value) :=
  plain_padStart (by decide) (plain_digits _)

theorem plain_resolveTrunkOrCallType (payload : SmdrCallSessionPayload) :
    Plain (resolveTrunkOrCallType payload) := by
  unfold resolveTrunkOrCallType
  dsimp only
  split
  · refine plain_padStart (by decide) fun u hu => ?_
    have hdigit := (List.mem_filter.mp (List.mem_of_mem_drop hu)).2
    simp only [isDigit, Bool.and_eq_true, decide_eq_true_eq] at hdigit
    omega
  split
  · decide
  split
  · decide
  · decide

theorem plain_fitted_iff {field : Field} : Plain field.fitted ↔ Plain (field.text.take field.width) := by
  have hunit : ∀ u : UInt16,
      (if u = 13 ∨ u = 10 ∨ u = 9 then blank else u).toNat < 0x80 ↔ u.toNat < 0x80 := by
    intro u
    split
    · next h =>
      rcases h with rfl | rfl | rfl
      · decide
      · decide
      · decide
    · exact Iff.rfl
  have htext : Plain ((sanitized field.text).take field.width) ↔ Plain (field.text.take field.width) := by
    unfold Plain sanitized
    rw [← List.map_take, List.forall_mem_map]
    exact forall₂_congr fun u _ => hunit u
  have hblanks : ∀ n, Plain (List.replicate n blank) := by
    intro n u hu
    rw [List.eq_of_mem_replicate hu]
    decide
  rw [← htext]
  unfold Field.fitted padEnd padStart
  dsimp only
  split
  · exact ⟨fun h => plain_of_subset h (List.subset_append_left _ _), fun h => plain_append h (hblanks _)⟩
  · exact ⟨fun h => plain_of_subset h (List.subset_append_right _ _), fun h => plain_append (hblanks _) h⟩

end

/-- The four texts that are not written by the program itself, cut to their columns, are of
characters below 128. -/
structure PlainTexts (payload : SmdrCallSessionPayload) (options : SmdrCallReportOptions) : Prop where
  extension : Plain ((resolveExtension payload).take 6)
  dialedPhone : Plain ((resolveDialedPhone payload).take 18)
  ani : Plain (((reportedAni payload options).getD []).take 16)
  queueName : Plain ((payload.queueName.getD []).take 6)

section

variable {format : DateFormat} {payload : SmdrCallSessionPayload} {callId : Text} {now : Int}
  {options : SmdrCallReportOptions}

theorem plain_fields_iff :
    (∀ field ∈ recordFields format payload callId now options, Plain field.fitted) ↔
      PlainTexts payload options := by
  have hof : ∀ {text : Text}, Plain text → ∀ {field : Field}, field.text = text → Plain field.fitted := by
    intro text h field htext
    rw [plain_fitted_iff, htext]
    exact plain_of_subset h (List.take_subset _ _)
  have hempty : Plain [] := nofun
  unfold recordFields standardFields extendedFields
  rw [List.forall_mem_append]
  simp only [List.forall_mem_cons, List.not_mem_nil, false_implies, implies_true, and_true]
  constructor
  · rintro ⟨⟨-, hextension, -, -, -, -, hphone, -, -, hani⟩, hextended⟩
    refine ⟨plain_fitted_iff.mp hextension, plain_fitted_iff.mp hphone, plain_fitted_iff.mp hani, ?_⟩
    cases hqueue : truthy payload.queueName with
    | false =>
      have hnone : payload.queueName.getD [] = [] := by
        cases hname : payload.queueName with
        | none => rfl
        | some name => simpa [truthy, hname] using hqueue
      rw [hnone]
      exact nofun
    | true =>
      have hinclude : includeExtendedCallerFields payload options = true := by
        simp [includeExtendedCallerFields, hqueue]
      rw [if_pos hinclude] at hextended
      exact plain_fitted_iff.mp (hextended _ (List.mem_cons_of_mem _ List.mem_cons_self))
  · intro h
    refine ⟨⟨hof (plain_numericCallIndex _) rfl, plain_fitted_iff.mpr h.extension, hof hempty rfl,
      hof (plain_formatSamsungDateTime _ _) rfl, hof (plain_formatHhMmSs _) rfl,
      hof (plain_resolveTrunkOrCallType _) rfl, plain_fitted_iff.mpr h.dialedPhone, hof hempty rfl,
      hof (by decide : Plain (unitsOf "0.00")) rfl, plain_fitted_iff.mpr h.ani⟩, ?_⟩
    split
    · simp only [List.forall_mem_cons, List.not_mem_nil, false_implies, implies_true, and_true]
      exact ⟨hof hempty rfl, plain_fitted_iff.mpr h.queueName, hof (plain_formatHhMmSs _) rfl⟩
    · exact nofun

/-- A client that is alive receives the bytes of the line. -/
theorem broadcast_sends {clients : List SmdrClient} {client : SmdrClient} {line : Text}
    (h : client ∈ clients) (halive : client.dead = false) :
    { client with received := client.received ++ toUtf8 line } ∈ broadcast clients line :=
  List.mem_map_of_mem (List.mem_filter.mpr ⟨h, by rw [halive]; rfl⟩)

theorem report_of_callId (hcallId : payload.callId = some callId) (hne : callId ≠ []) :
    buildSmdrCallReport format payload now options callEnded =
      some ⟨callId, formatSamsungOfficeServCdr format payload callId now options⟩ := by
  have htruthy : truthy payload.callId = true := by
    rw [hcallId]
    exact decide_eq_true hne
  unfold buildSmdrCallReport
  rw [if_neg (not_not.mpr rfl)]
  dsimp only
  rw [if_pos htruthy, hcallId]
  exact if_neg hne

theorem line_of_report {event : String} {report : SmdrCallReport}
    (h : buildSmdrCallReport format payload now options event = some report) :
    report.line = formatSamsungOfficeServCdr format payload report.callId now options := by
  unfold buildSmdrCallReport at h
  split at h
  · cases h
  dsimp only at h
  split at h
  · cases h
  split at h
  · cases h
  obtain rfl := Option.some.inj h
  rfl

/-- For every payload, clock and client that is alive. -/
theorem wire_layout_iff (format : DateFormat) (event : String) (payload : SmdrCallSessionPayload)
    (now : Int) (options : SmdrCallReportOptions) (report : SmdrCallReport)
    (clients : List SmdrClient) (client : SmdrClient)
    (hreport : buildSmdrCallReport format payload now options event = some report)
    (hclient : client ∈ clients) (halive : client.dead = false) :
    { client with received := client.received ++ toUtf8 report.line } ∈
        broadcast clients report.line ∧
      (WireLayout (recordFields format payload report.callId now options)
        (expectedLength payload options) (toUtf8 report.line) ↔ PlainTexts payload options) := by
  refine ⟨broadcast_sends hclient halive, ?_⟩
  rw [line_of_report hreport, wireLayout_iff_fitted, plain_fields_iff]

end

/-- The fifth of June, one o'clock. -/
def exDateFormat : DateFormat := fun _ => ⟨6, 5, 13, 0, 0⟩

def exPayload (queueName : Text) : SmdrCallSessionPayload where
  callId := some (unitsOf "c1")
  linkedid := none
  direction := some (unitsOf "inbound")
  ani := some (unitsOf "01012345678")
  dnis := some (unitsOf "0212345678")
  queueName := some queueName
  trunkName := none
  startedAt := none
  answeredAt := none
  endedAt := none
  talkSeconds := some 75
  waitSeconds := some 3
  primaryAgentId := none
  primaryAgent := some ⟨some (unitsOf "1001")⟩

def exClient : SmdrClient := ⟨1, false, true, []⟩

def exReport (queueName : Text) : SmdrCallReport :=
  ⟨unitsOf "c1", formatSamsungOfficeServCdr exDateFormat (exPayload queueName) (unitsOf "c1") 0 ⟨none⟩⟩

theorem wire_layout_iff_sales :
    buildSmdrCallReport exDateFormat (exPayload (unitsOf "sales")) 0 ⟨none⟩ callEnded =
        some (exReport (unitsOf "sales")) ∧
      { exClient with received := exClient.received ++ toUtf8 (exReport (unitsOf "sales")).line } ∈
        broadcast [exClient] (exReport (unitsOf "sales")).line ∧
      (WireLayout (recordFields exDateFormat (exPayload (unitsOf "sales")) (unitsOf "c1") 0 ⟨none⟩)
        (expectedLength (exPayload (unitsOf "sales")) ⟨none⟩)
        (toUtf8 (exReport (unitsOf "sales")).line) ↔
          PlainTexts (exPayload (unitsOf "sales")) ⟨none⟩) := by
  have hreport := @report_of_callId exDateFormat (exPayload (unitsOf "sales")) (unitsOf "c1") 0 ⟨none⟩
    rfl (by decide)
  exact ⟨hreport, wire_layout_iff exDateFormat callEnded (exPayload (unitsOf "sales")) 0 ⟨none⟩
    (exReport (unitsOf "sales")) [exClient] exClient hreport List.mem_cons_self rfl⟩

set_option maxRecDepth 2000

/-- The record of the queue "영업" is longer on the wire by two bytes for each letter. -/
theorem korean_queue_shifts :
    buildSmdrCallReport exDateFormat (exPayload (unitsOf "영업")) 0 ⟨none⟩ callEnded =
        some (exReport (unitsOf "영업")) ∧
      (exReport (unitsOf "영업")).line.length = 154 ∧
      (toUtf8 (exReport (unitsOf "영업")).line).length = 158 ∧
      ¬ WireLayout (recordFields exDateFormat (exPayload (unitsOf "영업")) (unitsOf "c1") 0 ⟨none⟩)
        (expectedLength (exPayload (unitsOf "영업")) ⟨none⟩)
        (toUtf8 (exReport (unitsOf "영업")).line) := by
  have hbytes : (toUtf8 (exReport (unitsOf "영업")).line).length = 158 := by
    decide
  refine ⟨report_of_callId rfl (by decide), by decide, hbytes, fun h => ?_⟩
  have hlength := h.length_eq
  rw [hbytes] at hlength
  revert hlength
  decide

end KasterCti.Smdr
