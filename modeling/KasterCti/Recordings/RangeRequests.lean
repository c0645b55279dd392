import KasterCti.Library.JsNumber
import KasterCti.Library.JsText
import KasterCti.Recordings.Encryption

/-!
# Range requests for a recording

`CallsService.openRecordingReadStream` and what `CallsController.streamRecording` answers with
it. The rule it is held against is the one of RFC 7233 for a single range of bytes.

Results:
1. `parseRange_header`: what the code makes of the three forms.
2. `range_follows_rule_iff`: the first two forms always follow the rule, the last bytes of a file
   only where they are the whole file.
-/

namespace KasterCti.Recordings

open JsText

/-- A file as `fs.stat` sees it: its size is a number of JavaScript. -/
structure StoredFile where
  bytes : List UInt8
  safe : bytes.length < JsNumber.safeLimit
deriving DecidableEq

/-- `none` is a path with no regular file. -/
abbrev StoredFiles := List String → Option StoredFile

structure RecordingPaths where
  filePath : String
  encryptedFilePath : Option String
  encryptionStatus : Option EncryptionStatus

/-! ## The code -/

/-- The bytes of a file from `start` to `stop`, both included. -/
structure ByteRange (size : Nat) where
  start : Nat
  stop : Nat
  start_le_stop : start ≤ stop
  stop_lt : stop < size

/-- `c` is the small letter or sign `d`, or its capital. -/
def sameLetter (c d : Char) : Bool := c == d || 'A' ≤ c && c ≤ 'Z' && c.toNat + 32 == d.toNat

/-- What follows `p` in a text that starts with `p` in any case. -/
def afterLetters? : List Char → List Char → Option (List Char)
  | [], cs => some cs
  | _ :: _, [] => none
  | d :: p, c :: cs => if sameLetter c d then afterLetters? p cs else none

def rangeUnit : List Char := ['b', 'y', 't', 'e', 's', '=']

/-- `/^bytes=(\d*)-(\d*)$/i`, with its two groups. -/
def matchRange (cs : List Char) : Option (List Char × List Char) := do
  let rest ← afterLetters? rangeUnit cs
  match rest.dropWhile isDigit with
  | '-' :: last => if last.all isDigit then some (rest.takeWhile isDigit, last) else none
  | _ => none

/-- `Number.parseInt(digits, 10)`; `none` is Infinity. -/
def parseDigits (digits : List Char) : Option Nat := JsNumber.nearest (digitsValue digits)

/-- The last byte to send; `none` is Infinity. -/
def clampEnd (requestedEnd : Option Int) (size : Nat) : Int :=
  match requestedEnd with
  | some requested => min requested (size - 1)
  | none => size - 1

theorem clampEnd_le (requestedEnd : Option Int) (size : Nat) :
    clampEnd requestedEnd size ≤ size - 1 := by
  cases requestedEnd with
  | none => exact le_refl _
  | some requested => exact min_le_right _ _

def ByteRange.make? {size : Nat} (start : Nat) (stop : Int) (hstop : stop ≤ size - 1) :
    Option (ByteRange size) :=
  if h : (start : Int) ≤ stop ∧ start < size then
    some ⟨start, stop.toNat, by omega, by omega⟩
  else none

def parseRange (rangeHeader : Option String) (size : Nat) : Option (ByteRange size) :=
  if !truthy rangeHeader then none
  else
    match matchRange (trim (rangeHeader.getD "")).toList with
    | none => none
    | some (first, last) =>
      let start := if first = [] then some 0 else parseDigits first
      let requestedEnd : Option Int :=
        if last = [] then some (size - 1) else (parseDigits last).map Int.ofNat
      match start with
      | none => none
      | some start =>
        ByteRange.make? start (clampEnd requestedEnd size) (clampEnd_le requestedEnd size)

structure RecordingStream where
  /-- The bytes of the stream; `none` where it breaks off. -/
  stream : Option (List UInt8)
  size : Nat
  statusCode : Nat
  contentRange : Option String
  acceptRanges : Bool
deriving DecidableEq

def openRecordingReadStream (gcm : Aes256Gcm) (cfg : EncryptionConfig) (files : StoredFiles)
    (recording : RecordingPaths) (rangeHeader : Option String) :
    Except String (Option RecordingStream) := do
  if recording.encryptionStatus = some .encrypted then
    let some path := recording.encryptedFilePath | throw "암호화 녹취를 복호화할 수 없습니다."
    if path = "" then throw "암호화 녹취를 복호화할 수 없습니다."
    let decrypted ← openDecryptedReadStream gcm cfg (fun at_ => (files at_).map (·.bytes)) path
    return some ⟨decrypted.stream, decrypted.size, 200, none, false⟩
  let some stat := files (cfg.location recording.filePath) | return none
  let size := stat.bytes.length
  if !truthy rangeHeader then return some ⟨some stat.bytes, size, 200, none, true⟩
  match parseRange rangeHeader size with
  | none => return none
  | some range =>
    return some ⟨some (readStream stat.bytes range.start range.stop),
      range.stop - range.start + 1, 206, some s!"bytes {range.start}-{range.stop}/{size}", true⟩

/-- The answer of the controller. -/
inductive StreamAnswer
  | failed (message : String)
  | notFound
  | rangeNotSatisfiable
  | content (payload : RecordingStream)
deriving DecidableEq

def streamRecording (gcm : Aes256Gcm) (cfg : EncryptionConfig) (files : StoredFiles)
    (recording : RecordingPaths) (rangeHeader : Option String) : StreamAnswer :=
  match openRecordingReadStream gcm cfg files recording rangeHeader with
  | .error message => .failed message
  | .ok none => if truthy rangeHeader then .rangeNotSatisfiable else .notFound
  | .ok (some payload) => .content payload

/-! ## The rule -/

/-- Decimal digits, at least one. -/
structure Digits where
  chars : List Char
  ne_nil : chars ≠ []
  digits : ∀ c ∈ chars, isDigit c = true

def Digits.value (ds : Digits) : Nat := digitsValue ds.chars

/-- The single range of a header. -/
inductive RangeSpec
  | fromTo (first last : Digits)
  | startingAt (first : Digits)
  | suffix (length : Digits)

def headerText (first last : List Char) : String :=
  String.ofList (rangeUnit ++ first ++ '-' :: last)

def RangeSpec.header : RangeSpec → String
  | .fromTo first last => headerText first.chars last.chars
  | .startingAt first => headerText first.chars []
  | .suffix length => headerText [] length.chars

/-- The first position and the number of the bytes that a range selects of a representation of
`size` bytes; `none` where the range is invalid or unsatisfiable. -/
def RangeSpec.selected (size : Nat) : RangeSpec → Option (Nat × Nat)
  | .fromTo first last =>
    if first.value ≤ last.value ∧ first.value < size then
      some (first.value, min last.value (size - 1) + 1 - first.value)
    else none
  | .startingAt first =>
    if first.value < size then some (first.value, size - first.value) else none
  -- a suffix of at least one byte is satisfiable, and a shorter representation is taken whole
  | .suffix length =>
    if 0 < length.value then some (size - length.value, min length.value size) else none

/-- The answer that the rule prescribes for a range. -/
def FollowsRule (bytes : List UInt8) (spec : RangeSpec) (answer : StreamAnswer) : Prop :=
  match spec.selected bytes.length with
  | none => answer = .rangeNotSatisfiable
  | some (first, count) => ∃ payload, answer = .content payload ∧
    payload.stream = some ((bytes.drop first).take count) ∧ payload.size = count ∧
    payload.statusCode = 206 ∧
    payload.contentRange = some s!"bytes {first}-{first + count - 1}/{bytes.length}"

/-- The last bytes are asked for only where they are the whole file. -/
def RangeSpec.SuffixIsWhole (size : Nat) : RangeSpec → Prop
  | .suffix length => 0 < size ∧ size ≤ length.value ∨ size = 0 ∧ length.value = 0
  | _ => True

instance (size : Nat) : DecidablePred (RangeSpec.SuffixIsWhole size)
  | .fromTo _ _ => inferInstanceAs (Decidable True)
  | .startingAt _ => inferInstanceAs (Decidable True)
  | .suffix _ => inferInstanceAs (Decidable (_ ∨ _))

/-! ## What the code makes of a header -/

section

variable {size : Nat} {first last ds cs : List Char}

theorem afterLetters?_append (p : List Char) : afterLetters? p (p ++ cs) = some cs := by
  induction p with
  | nil => rfl
  | cons d p ih => simp [afterLetters?, sameLetter, ih]

theorem matchRange_digits (hfirst : ∀ c ∈ first, isDigit c = true)
    (hlast : ∀ c ∈ last, isDigit c = true) :
    matchRange (rangeUnit ++ first ++ '-' :: last) = some (first, last) := by
  have hdash : isDigit '-' = false := by decide
  have hdrop : (first ++ '-' :: last).dropWhile isDigit = '-' :: last := by
    rw [List.dropWhile_append_of_pos hfirst, List.dropWhile_cons_of_neg (by simp [hdash])]
  have htake : (first ++ '-' :: last).takeWhile isDigit = first := by
    rw [List.takeWhile_append_of_pos hfirst, List.takeWhile_cons_of_neg (by simp [hdash]),
      List.append_nil]
  rw [matchRange, List.append_assoc, afterLetters?_append]
  simp only [bind, Option.bind, hdrop, htake, List.all_eq_true.mpr hlast, if_true]

theorem truthy_headerText (first last : List Char) :
    truthy (some (headerText first last)) = true := by
  simp [truthy, headerText]

/-- Nothing is cut off a header of digits. -/
theorem trim_digits (hfirst : ∀ c ∈ first, isDigit c = true)
    (hlast : ∀ c ∈ last, isDigit c = true) :
    (trim (headerText first last)).toList = rangeUnit ++ first ++ '-' :: last := by
  have hletters : ∀ c ∈ rangeUnit, isWhitespace c = false := by decide
  have hdash : isWhitespace '-' = false := by decide
  rw [trim, headerText, String.toList_ofList, String.toList_ofList, trimChars_eq_self]
  intro c hc
  simp only [List.mem_append, List.mem_cons] at hc
  rcases hc with (hc | hc) | rfl | hc
  · exact hletters c hc
  · exact isWhitespace_of_isDigit (hfirst c hc)
  · exact hdash
  · exact isWhitespace_of_isDigit (hlast c hc)

/-- Rounding and Infinity stand beyond every file. -/
theorem parseDigits_cases (hsize : size < JsNumber.safeLimit) (ds : List Char) :
    parseDigits ds = some (digitsValue ds) ∨
      size ≤ digitsValue ds ∧ ∀ n, parseDigits ds = some n → size ≤ n := by
  rcases Nat.lt_or_ge (digitsValue ds) JsNumber.safeLimit with hlt | hge
  · exact .inl (JsNumber.nearest_of_lt hlt)
  · exact .inr ⟨hsize.le.trans hge, fun n hn => hsize.le.trans (JsNumber.le_of_nearest hge hn)⟩

theorem clampEnd_parseDigits (hsize : size < JsNumber.safeLimit) (ds : List Char) :
    clampEnd ((parseDigits ds).map Int.ofNat) size = min (digitsValue ds : Int) (size - 1) := by
  rcases parseDigits_cases hsize ds with hexact | ⟨hvalue, hfar⟩
  · rw [hexact]
    rfl
  · rw [min_eq_right (by omega)]
    cases hparse : parseDigits ds with
    | none => rfl
    | some n =>
      have hn := hfar n hparse
      exact min_eq_right (by simp only [Int.ofNat_eq_natCast]; omega)

/-- The two ends of the range to send. -/
def ByteRange.ends (range : ByteRange size) : Nat × Nat := (range.start, range.stop)

theorem ends_make? {start : Nat} {stop : Int} (hstop : stop ≤ size - 1) :
    (ByteRange.make? start stop hstop).map ByteRange.ends =
      if (start : Int) ≤ stop then some (start, stop.toNat) else none := by
  unfold ByteRange.make?
  by_cases hle : (start : Int) ≤ stop
  · rw [dif_pos ⟨hle, by omega⟩, if_pos hle]
    rfl
  · rw [dif_neg fun h => hle h.1, if_neg hle]
    rfl

/-- The number that an end stands for, where a missing one has its default. -/
def endValue (default : Int) (ds : List Char) : Int := if ds = [] then default else digitsValue ds

theorem parseRange_header (hsize : size < JsNumber.safeLimit)
    (hfirst : ∀ c ∈ first, isDigit c = true) (hlast : ∀ c ∈ last, isDigit c = true) :
    (parseRange (some (headerText first last)) size).map ByteRange.ends =
      let start := endValue 0 first
      let stop := min (endValue (size - 1) last) (size - 1)
      if start ≤ stop then some (start.toNat, stop.toNat) else none := by
  have htruthy : truthy (some (headerText first last)) = true := truthy_headerText first last
  have hstop : clampEnd (if last = [] then some (size - 1 : Int) else
      (parseDigits last).map Int.ofNat) size = min (endValue (size - 1) last) (size - 1) := by
    unfold endValue
    split
    · rfl
    · exact clampEnd_parseDigits hsize last
  have hle : min (endValue (size - 1) last) (size - 1 : Int) ≤ size - 1 := min_le_right _ _
  unfold parseRange
  rw [htruthy, Option.getD_some, trim_digits hfirst hlast, matchRange_digits hfirst hlast]
  simp only [Bool.not_true, Bool.false_eq_true, if_false]
  by_cases hnil : first = []
  · have hstart : endValue 0 first = 0 := if_pos hnil
    simp only [hstart]
    simp only [hnil, if_true, ends_make?, hstop, Nat.cast_zero, Int.toNat_zero]
  · have hstart : endValue 0 first = digitsValue first := if_neg hnil
    simp only [hnil, if_false, hstart]
    rcases parseDigits_cases hsize first with hexact | ⟨hvalue, hfar⟩
    · simp only [hexact, ends_make?, hstop, Int.toNat_natCast]
    · -- a first byte that is not exact stands behind the file, in both readings
      have hbehind : ∀ n : Nat, size ≤ n →
          ¬ (n : Int) ≤ min (endValue (size - 1) last) (size - 1) := fun n hn => by omega
      simp only [if_neg (hbehind _ hvalue)]
      cases hparse : parseDigits first with
      | none => rfl
      | some n => simp only [ends_make?, hstop, if_neg (hbehind n (hfar n hparse))]

/-- The answer for the two ends of a range. -/
def rangeAnswer (bytes : List UInt8) : Option (Nat × Nat) → StreamAnswer
  | none => .rangeNotSatisfiable
  | some (start, stop) => .content ⟨some (readStream bytes start stop), stop - start + 1, 206,
      some s!"bytes {start}-{stop}/{bytes.length}", true⟩

variable {gcm : Aes256Gcm} {cfg : EncryptionConfig} {files : StoredFiles}
  {recording : RecordingPaths} {file : StoredFile}

theorem streamRecording_plain {rangeHeader : Option String}
    (hplain : recording.encryptionStatus ≠ some .encrypted)
    (hfile : files (cfg.location recording.filePath) = some file)
    (hheader : truthy rangeHeader = true) :
    streamRecording gcm cfg files recording rangeHeader =
      rangeAnswer file.bytes ((parseRange rangeHeader file.bytes.length).map ByteRange.ends) := by
  unfold streamRecording openRecordingReadStream
  rw [if_neg hplain, hfile]
  simp only [hheader, Bool.not_true, Bool.false_eq_true, if_false, if_true]
  cases parseRange rangeHeader file.bytes.length with
  | none => rfl
  | some range => rfl

theorem endValue_digits {ds : Digits} (default : Int) : endValue default ds.chars = ds.value :=
  if_neg ds.ne_nil

theorem followsRule_none {bytes : List UInt8} {spec : RangeSpec}
    (hspec : spec.selected bytes.length = none) :
    FollowsRule bytes spec (rangeAnswer bytes none) := by
  unfold FollowsRule
  rw [hspec]
  rfl

theorem followsRule_some {bytes : List UInt8} {spec : RangeSpec} {start stop : Nat}
    (hle : start ≤ stop) (hspec : spec.selected bytes.length = some (start, stop + 1 - start)) :
    FollowsRule bytes spec (rangeAnswer bytes (some (start, stop))) := by
  unfold FollowsRule
  rw [hspec]
  have hlast : start + (stop + 1 - start) - 1 = stop := by omega
  refine ⟨_, rfl, rfl, ?_, rfl, ?_⟩
  · show stop - start + 1 = stop + 1 - start
    omega
  · rw [hlast]

/-- An answer with a content counts the selected bytes. -/
theorem size_of_followsRule {bytes : List UInt8} {spec : RangeSpec} {start stop : Nat}
    (h : FollowsRule bytes spec (rangeAnswer bytes (some (start, stop)))) :
    ∃ first, spec.selected bytes.length = some (first, stop - start + 1) := by
  unfold FollowsRule at h
  split at h
  · cases h
  · next first count hspec =>
    obtain ⟨payload, hpayload, -, hsize, -⟩ := h
    obtain rfl := StreamAnswer.content.inj hpayload
    exact ⟨first, by rw [hspec, ← hsize]⟩

theorem follows_fromTo (file : StoredFile) (first last : Digits) :
    FollowsRule file.bytes (.fromTo first last) (rangeAnswer file.bytes
      ((parseRange (some (headerText first.chars last.chars)) file.bytes.length).map ByteRange.ends)) := by
  rw [parseRange_header file.safe first.digits last.digits]
  simp only [endValue_digits]
  by_cases hin : first.value ≤ last.value ∧ first.value < file.bytes.length
  · have hends : (min (last.value : Int) (file.bytes.length - 1)).toNat =
        min last.value (file.bytes.length - 1) := by omega
    rw [if_pos (by omega), Int.toNat_natCast, hends]
    exact followsRule_some (by omega) (if_pos hin)
  · rw [if_neg (by omega)]
    exact followsRule_none (if_neg hin)

theorem follows_startingAt (file : StoredFile) (first : Digits) :
    FollowsRule file.bytes (.startingAt first) (rangeAnswer file.bytes
      ((parseRange (some (headerText first.chars [])) file.bytes.length).map ByteRange.ends)) := by
  rw [parseRange_header file.safe first.digits (by simp)]
  have hmissing : ∀ default, endValue default [] = default := fun _ => if_pos rfl
  simp only [endValue_digits, hmissing, min_self]
  by_cases hin : first.value < file.bytes.length
  · rw [if_pos (by omega), Int.toNat_natCast]
    refine followsRule_some (by omega) ?_
    rw [RangeSpec.selected, if_pos hin]
    congr 2
    omega
  · rw [if_neg (by omega)]
    exact followsRule_none (if_neg hin)

theorem follows_suffix_iff (file : StoredFile) (length : Digits) :
    FollowsRule file.bytes (.suffix length) (rangeAnswer file.bytes
      ((parseRange (some (headerText [] length.chars)) file.bytes.length).map ByteRange.ends)) ↔ RangeSpec.SuffixIsWhole file.bytes.length (.suffix length) := by
  rw [parseRange_header file.safe (by simp) length.digits]
  have hmissing : endValue 0 [] = 0 := if_pos rfl
  simp only [endValue_digits, hmissing, Int.toNat_zero]
  rcases Nat.eq_zero_or_pos file.bytes.length with hempty | hpos
  · rw [if_neg (by omega)]
    constructor
    · intro hfollows
      refine .inr ⟨hempty, ?_⟩
      by_contra hlength
      -- a suffix of some bytes is satisfiable also in an empty file
      have hspec : RangeSpec.selected file.bytes.length (.suffix length) =
          some (file.bytes.length - length.value, min length.value file.bytes.length) :=
        if_pos (Nat.pos_of_ne_zero hlength)
      unfold FollowsRule at hfollows
      rw [hspec] at hfollows
      obtain ⟨payload, hpayload, -⟩ := hfollows
      cases hpayload
    · rintro (⟨hpos, -⟩ | ⟨-, hlength⟩)
      · omega
      · exact followsRule_none (if_neg (by omega))
  · have hends : (min (length.value : Int) (file.bytes.length - 1)).toNat =
        min length.value (file.bytes.length - 1) := by omega
    rw [if_pos (by omega), hends]
    constructor
    · intro hfollows
      obtain ⟨first, hspec⟩ := size_of_followsRule hfollows
      have hselected : 0 < length.value ∧ min length.value file.bytes.length =
          min length.value (file.bytes.length - 1) - 0 + 1 := by
        simp only [RangeSpec.selected, Option.ite_none_right_eq_some, Option.some.injEq,
          Prod.mk.injEq] at hspec
        exact ⟨hspec.1, hspec.2.2⟩
      exact .inl ⟨hpos, by omega⟩
    · rintro (⟨-, hwhole⟩ | ⟨hempty, -⟩)
      · refine followsRule_some (Nat.zero_le _) ?_
        rw [RangeSpec.selected, if_pos (by omega)]
        congr 2
        · omega
        · omega
      · omega

/-- For every plain recording and every single range, whatever its numbers are. -/
theorem range_follows_rule_iff (gcm : Aes256Gcm) (cfg : EncryptionConfig) (files : StoredFiles)
    (recording : RecordingPaths) (file : StoredFile) (spec : RangeSpec)
    (hplain : recording.encryptionStatus ≠ some .encrypted)
    (hfile : files (cfg.location recording.filePath) = some file) :
    FollowsRule file.bytes spec (streamRecording gcm cfg files recording (some spec.header)) ↔
      spec.SuffixIsWhole file.bytes.length := by
  have htruthy : truthy (some spec.header) = true := by
    cases spec with
    | fromTo first last => exact truthy_headerText _ _
    | startingAt first => exact truthy_headerText _ _
    | suffix length => exact truthy_headerText _ _
  rw [streamRecording_plain hplain hfile htruthy]
  cases spec with
  | fromTo first last => exact iff_of_true (follows_fromTo file first last) trivial
  | startingAt first => exact iff_of_true (follows_startingAt file first) trivial
  | suffix length => exact follows_suffix_iff file length

end

def exTenBytes : StoredFile := ⟨[0, 1, 2, 3, 4, 5, 6, 7, 8, 9], by decide⟩

def exStoredFiles : StoredFiles := fun location =>
  if location = ["rec", "a.wav"] then some exTenBytes else none

def exRecordingPaths : RecordingPaths := ⟨"/rec/a.wav", none, some .none⟩

theorem exRecordingPaths_stored :
    exStoredFiles ((exEncryption none).location exRecordingPaths.filePath) = some exTenBytes := by
  decide

def exLastThree : RangeSpec := .suffix ⟨['3'], by decide, by decide⟩

theorem range_follows_rule_iff_middle :
    exRecordingPaths.encryptionStatus ≠ some .encrypted ∧
      (FollowsRule exTenBytes.bytes (.fromTo ⟨['2'], by decide, by decide⟩ ⟨['4'], by decide, by decide⟩)
        (streamRecording exGcm (exEncryption none) exStoredFiles exRecordingPaths
          (some "bytes=2-4")) ↔ True) :=
  ⟨by decide, range_follows_rule_iff exGcm (exEncryption none) exStoredFiles exRecordingPaths
    exTenBytes _ (by decide) exRecordingPaths_stored⟩

/-- The last three of ten bytes: the first four are sent. -/
theorem last_bytes_are_first :
    streamRecording exGcm (exEncryption none) exStoredFiles exRecordingPaths (some "bytes=-3") =
        .content ⟨some [0, 1, 2, 3], 4, 206, some "bytes 0-3/10", true⟩ ∧
      ¬ FollowsRule exTenBytes.bytes exLastThree
        (streamRecording exGcm (exEncryption none) exStoredFiles exRecordingPaths
          (some exLastThree.header)) := by
  have hanswer : streamRecording exGcm (exEncryption none) exStoredFiles exRecordingPaths
      (some "bytes=-3") = .content ⟨some [0, 1, 2, 3], 4, 206, some "bytes 0-3/10", true⟩ := by
    decide
  have hheader : exLastThree.header = "bytes=-3" := by decide
  have hspec : exLastThree.selected exTenBytes.bytes.length = some (7, 3) := by decide
  refine ⟨hanswer, fun hfollows => ?_⟩
  unfold FollowsRule at hfollows
  rw [hheader, hanswer, hspec] at hfollows
  obtain ⟨payload, hpayload, -, hsize, -⟩ := hfollows
  obtain rfl := StreamAnswer.content.inj hpayload
  cases hsize

end KasterCti.Recordings
