import KasterCti.Library.PosixPath
import Mathlib

/-!
# The input of a packet capture

`capture-filter.util.ts`, which the server runs on the input of `startCapture`, and
`assertValidRequest` of the capture agent, which checks the request once more. Texts are
Unicode characters; a duration that is not an integer is none.

Results:
1. `validateCaptureFilter_sound`: what the filter check lets through.
2. `agent_accepts`: the agent takes every input that passed the checks of the server, where
   those allow no more than an hour and the output path lies in the storage root.
-/

namespace KasterCti.PacketCapture

open JsText

def maxFilterLength : Nat := 512

def minCaptureDurationSeconds : Int := 5

/-- `ALLOWED_FILTER_PATTERN`, for one character. -/
def allowedInFilter (c : Char) : Bool :=
  c.isAlphanum || c ∈ [' ', '.', ':', '_', '-', '/', '(', ')', '[', ']', ',']

/-- `CONTROL_CHAR_PATTERN`. -/
def isControl (c : Char) : Bool := c.toNat < 0x20 || c.toNat = 0x7f

/-- `INTERFACE_NAME_PATTERN`. -/
def isInterfaceName (name : String) : Bool :=
  1 ≤ name.toList.length && name.toList.length ≤ 64 &&
    name.toList.all fun c => c.isAlphanum || c ∈ ['_', '.', ':', '-']

/-- `.replace(/\s+/g, ' ')`. -/
def collapseSpaces : List Char → List Char
  | [] => []
  | c :: cs =>
    if isWhitespace c then
      match collapseSpaces cs with
      | ' ' :: rest => ' ' :: rest
      | rest => ' ' :: rest
    else c :: collapseSpaces cs

/-- `.length`, in UTF-16 units. -/
def unitLength (cs : List Char) : Nat := (cs.map fun c => if c.toNat < 0x10000 then 1 else 2).sum

def validateCaptureFilter (filter : Option String) : Except String String := do
  let trimmed := trimChars (filter.getD "").toList
  -- before the spaces are collapsed: a line break would become one of them
  if trimmed.any isControl then throw "캡처 필터에 제어 문자가 포함될 수 없습니다"
  let normalized := collapseSpaces trimmed
  if unitLength normalized > maxFilterLength then throw "캡처 필터가 너무 깁니다 (최대 512자)"
  if !normalized.all allowedInFilter then throw "캡처 필터에 허용되지 않는 문자가 있습니다"
  if normalized.head? = some '-' then throw "캡처 필터는 - 로 시작할 수 없습니다"
  return String.ofList normalized

def validateInterfaceName (name : Option String) (available : List String) :
    Except String String := do
  let normalized := trim (name.getD "")
  if !isInterfaceName normalized then throw "인터페이스 이름 형식이 올바르지 않습니다"
  if normalized ∉ available then throw s!"인터페이스 {normalized} 를 찾을 수 없습니다"
  return normalized

def validateDurationSeconds (durationSeconds : Option Int) (maxSeconds : Int) :
    Except String Int := do
  let some value := durationSeconds | throw "캡처 시간은 정수(초)여야 합니다"
  if value < minCaptureDurationSeconds then
    throw s!"캡처 시간은 최소 {minCaptureDurationSeconds}초입니다"
  if value > maxSeconds then throw s!"캡처 시간은 최대 {maxSeconds}초입니다"
  return value

/-- What a job is started with. -/
structure CaptureInput where
  interfaceName : String
  captureFilter : String
  durationSeconds : Int
deriving DecidableEq

structure StartCaptureInput where
  interfaceName : Option String
  captureFilter : Option String
  durationSeconds : Option Int

def validateInput (defaultInterface : String) (maxDurationSeconds : Int) (interfaces : List String)
    (input : StartCaptureInput) : Except String CaptureInput := do
  let interfaceName ←
    validateInterfaceName (orElse input.interfaceName (some defaultInterface)) interfaces
  let captureFilter ← validateCaptureFilter input.captureFilter
  let durationSeconds ← validateDurationSeconds input.durationSeconds maxDurationSeconds
  return ⟨interfaceName, captureFilter, durationSeconds⟩

/-! ## The agent -/

/-- `path.resolve(path)`. -/
def resolvePath (cwd path : String) : String := "/" ++ PosixPath.joined (PosixPath.resolved cwd path)

/-- The checks of the agent; its storage root is a resolved path. -/
def assertValidRequest (cwd storageRoot : String) (input : CaptureInput) (outputPath : String) :
    Except String String := do
  let filter := input.captureFilter.toList
  if !isInterfaceName input.interfaceName then throw "인터페이스 이름 형식이 올바르지 않습니다"
  if filter.any isControl then throw "캡처 필터에 제어 문자가 있습니다"
  if unitLength filter > maxFilterLength then throw "캡처 필터가 너무 깁니다"
  if !filter.all allowedInFilter then throw "캡처 필터에 허용되지 않는 문자가 있습니다"
  if filter.head? = some '-' then throw "캡처 필터는 - 로 시작할 수 없습니다"
  if input.durationSeconds < 5 || input.durationSeconds > 3600 then
    throw "캡처 시간이 허용 범위를 벗어났습니다"
  let target := resolvePath cwd outputPath
  if target ≠ storageRoot && !startsWith target (storageRoot ++ "/") then
    throw "출력 경로가 캡처 저장소 밖입니다"
  return target

/-! ## What passes the checks -/

theorem not_isControl_of_allowed {c : Char} (h : allowedInFilter c = true) :
    isControl c = false := by
  unfold allowedInFilter at h
  unfold isControl
  rcases Bool.or_eq_true_iff.mp h with halnum | hlisted
  · have hrange : 48 ≤ c.toNat ∧ c.toNat ≤ 57 ∨ 65 ≤ c.toNat ∧ c.toNat ≤ 90 ∨
        97 ≤ c.toNat ∧ c.toNat ≤ 122 := by
      simp only [Char.isAlphanum, Char.isAlpha, Char.isUpper, Char.isLower, Char.isDigit,
        Bool.or_eq_true, Bool.and_eq_true, decide_eq_true_eq, UInt32.le_iff_toNat_le] at halnum
      have hc : c.toNat = c.val.toNat := rfl
      rw [hc]
      rcases halnum with (h | h) | h
      · exact .inr (.inl h)
      · exact .inr (.inr h)
      · exact .inl h
    rw [Bool.or_eq_false_iff]
    exact ⟨decide_eq_false (by omega), decide_eq_false (by omega)⟩
  · simp only [List.mem_cons, List.not_mem_nil, or_false, decide_eq_true_eq] at hlisted
    rcases hlisted with rfl | rfl | rfl | rfl | rfl | rfl | rfl | rfl | rfl | rfl | rfl <;> rfl

/-- Filters that the server lets through are made of harmless characters, are no longer than
the limit and cannot be read as a flag. -/
theorem validateCaptureFilter_sound {filter : Option String} {normalized : String}
    (h : validateCaptureFilter filter = .ok normalized) :
    normalized.toList.all allowedInFilter = true ∧
      unitLength normalized.toList ≤ maxFilterLength ∧ normalized.toList.head? ≠ some '-' := by
  unfold validateCaptureFilter at h
  simp only [bind, Except.bind, pure, Except.pure, throw, throwThe, MonadExceptOf.throw] at h
  split at h
  · cases h
  split at h
  · cases h
  next _ hlength =>
  split at h
  · cases h
  next hallowed =>
  split at h
  · cases h
  next hflag =>
  obtain rfl := Except.ok.inj h
  rw [String.toList_ofList]
  exact ⟨by simpa using hallowed, by omega, hflag⟩

theorem validateInterfaceName_sound {name : Option String} {available : List String}
    {normalized : String} (h : validateInterfaceName name available = .ok normalized) :
    isInterfaceName normalized = true ∧ normalized ∈ available := by
  unfold validateInterfaceName at h
  simp only [bind, Except.bind, pure, Except.pure, throw, throwThe, MonadExceptOf.throw] at h
  split at h
  · cases h
  next hname =>
  split at h
  · cases h
  next hlisted =>
  obtain rfl := Except.ok.inj h
  exact ⟨by simpa using hname, not_not.mp hlisted⟩

theorem validateDurationSeconds_sound {durationSeconds : Option Int} {maxSeconds value : Int}
    (h : validateDurationSeconds durationSeconds maxSeconds = .ok value) :
    minCaptureDurationSeconds ≤ value ∧ value ≤ maxSeconds := by
  cases durationSeconds with
  | none => cases h
  | some seconds =>
    simp only [validateDurationSeconds, bind, Except.bind, pure, Except.pure, throw, throwThe,
      MonadExceptOf.throw] at h
    split at h
    · cases h
    next hmin =>
    split at h
    · cases h
    next hmax =>
    obtain rfl := Except.ok.inj h
    exact ⟨Int.not_lt.mp hmin, Int.not_lt.mp hmax⟩

theorem validateInput_ok {defaultInterface : String} {maxDurationSeconds : Int}
    {interfaces : List String} {input : StartCaptureInput} {valid : CaptureInput}
    (h : validateInput defaultInterface maxDurationSeconds interfaces input = .ok valid) :
    validateInterfaceName (orElse input.interfaceName (some defaultInterface)) interfaces =
        .ok valid.interfaceName ∧
      validateCaptureFilter input.captureFilter = .ok valid.captureFilter ∧
      validateDurationSeconds input.durationSeconds maxDurationSeconds =
        .ok valid.durationSeconds := by
  simp only [validateInput, bind, Except.bind, pure, Except.pure] at h
  split at h
  · cases h
  next hinterface =>
  split at h
  · cases h
  next hfilter =>
  split at h
  · cases h
  next hduration =>
  obtain rfl := Except.ok.inj h
  exact ⟨hinterface, hfilter, hduration⟩

/-- The agent refuses nothing that the server let through. -/
theorem agent_accepts {defaultInterface cwd storageRoot outputPath : String}
    {maxDurationSeconds : Int} {interfaces : List String} {input : StartCaptureInput}
    {valid : CaptureInput}
    (hvalid : validateInput defaultInterface maxDurationSeconds interfaces input = .ok valid)
    (hhour : maxDurationSeconds ≤ 3600)
    (hroot : startsWith (resolvePath cwd outputPath) (storageRoot ++ "/") = true) :
    assertValidRequest cwd storageRoot valid outputPath = .ok (resolvePath cwd outputPath) := by
  obtain ⟨hinterface, hfilter, hduration⟩ := validateInput_ok hvalid
  obtain ⟨hname, -⟩ := validateInterfaceName_sound hinterface
  obtain ⟨hallowed, hlength, hflag⟩ := validateCaptureFilter_sound hfilter
  obtain ⟨hmin, hmax⟩ := validateDurationSeconds_sound hduration
  have hcontrol : valid.captureFilter.toList.any isControl = false := by
    rw [List.any_eq_false]
    intro c hc
    rw [not_isControl_of_allowed (List.all_eq_true.mp hallowed c hc)]
    exact Bool.false_ne_true
  have hrange : (valid.durationSeconds < 5 || valid.durationSeconds > 3600) = false := by
    unfold minCaptureDurationSeconds at hmin
    rw [Bool.or_eq_false_iff]
    exact ⟨decide_eq_false (by omega), decide_eq_false (by omega)⟩
  simp only [assertValidRequest, bind, Except.bind, pure, Except.pure, hname, hcontrol, hallowed,
    hrange, hroot, Nat.not_lt.mpr hlength, hflag, Bool.not_true, Bool.false_eq_true, if_false,
    gt_iff_lt, Bool.and_false]

theorem agent_accepts_sip :
    assertValidRequest "/" "/pcap" ⟨"eth0", "udp port 5060", 60⟩ "/pcap/a.pcap" = .ok "/pcap/a.pcap" :=
  @agent_accepts "eth0" "/" "/pcap" "/pcap/a.pcap" 600 ["eth0"] ⟨none, some " udp port  5060", some 60⟩
    _ (by decide) (by decide) (by decide)

end KasterCti.PacketCapture
