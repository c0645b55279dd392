import KasterCti.ArsLookup.ResponseExtract
import Mathlib

/-!
# The lookup script of the dialplan

`buildArsHttpLookupAgiScript`: the script asks the server during a call and writes the answer into
two channel variables. It filters the value once more; its class of characters is ASCII and
Hangul, where the server's is every letter and number.

Results:
1. `agiValue_eq_iff`: which values pass the filter uncut.
2. `agi_sets_value_iff`: exactly when the channel gets the value of a match.
3. `accented_value`: a value that arrives without one of its letters.
-/

namespace KasterCti.ArsLookup

/-! ## The answer of the server -/

def LookupStatus.text : LookupStatus → String
  | .isMatch => "MATCH"
  | .noMatch => "NOMATCH"
  | .error => "ERROR"

/-- The other members of an outcome. -/
structure OutcomeDetails where
  code : Json
  httpStatus : Json
  timeoutMs : Json
  durationMs : Json

def outcomeJson (extracted : ExtractLookupResult) (details : OutcomeDetails) : Json :=
  let behind := JsonMembers.cons "code" details.code <| .cons "httpStatus" details.httpStatus <|
    .cons "timeoutMs" details.timeoutMs <| .cons "durationMs" details.durationMs .nil
  .object <| .cons "status" (.string extracted.status.text) <|
    .cons "value" (.string extracted.value) <|
      match extracted.reason with
      | some reason => .cons "reason" (.string reason) behind
      | none => behind

/-- `ResponseTransformInterceptor` around what the controller returns. -/
def envelope (data : Json) : Json :=
  .object <| .cons "success" (.boolean true) <| .cons "data" data <| .cons "error" .null .nil

/-! ## The script -/

/-- The truth of a value in Python; of a number it is a parameter. -/
def isTruthy (isZero : JsonNumber → Bool) : Json → Bool
  | .null => false
  | .boolean b => b
  | .number n => !isZero n
  | .string s => s ≠ ""
  | .array .nil => false
  | .array (.cons _ _) => true
  | .object .nil => false
  | .object (.cons _ _ _) => true

/-- `left or right`. -/
def pyOr (isZero : JsonNumber → Bool) (left : Option Json) (right : Json) : Json :=
  match left with
  | some left => if isTruthy isZero left then left else right
  | none => right

/-- `status` and `value` behind the `try`. -/
def readReply (isZero : JsonNumber → Bool) (reply : Option Json) : String × Json :=
  let failed := ("ERROR", Json.string "")
  match reply with
  | some (.object members) =>
    match pyOr isZero (ownProperty "data" members) (.object members) with
    | .object result =>
      match ownProperty "status" result with
      | some (.string status) =>
        if ["MATCH", "NOMATCH", "ERROR"].contains status then
          (status, pyOr isZero (ownProperty "value" result) (.string ""))
        else failed
      | _ => failed
    | _ => failed
  | _ => failed

/-- The class of the last filter. -/
def isAgiChar (c : Char) : Bool :=
  ('0' ≤ c && c ≤ '9') || ('A' ≤ c && c ≤ 'Z') || ('a' ≤ c && c ≤ 'z') || c = '_' || c = '.' ||
    c = '-' || (0xac00 ≤ c.toNat && c.toNat ≤ 0xd7a3)

def agiValue (value : String) : String := String.ofList ((value.toList.filter isAgiChar).take 64)

def agiPayload (getVar : String → String) (endpointId : String) : List (String × String) :=
  [("endpointId", endpointId), ("tenantId", getVar "SMART_ARS_TENANT_ID"),
    ("caller", getVar "CALLERID(num)"), ("collected", getVar "ARS_COLLECTED_DIGITS"),
    ("entryDid", getVar "ENTRY_DID"), ("linkedid", getVar "CHANNEL(linkedid)")]

/-- The variables that the script sets, and nothing where `re.sub` gets no text. The server gives
no reply where the request or the reading of its answer throws. -/
def runLookupAgi (isZero : JsonNumber → Bool) (getVar : String → String)
    (server : List (String × String) → Option Json) (endpointId : String) :
    Option (List (String × String)) :=
  let (status, value) :=
    if endpointId = "" then ("ERROR", Json.string "")
    else readReply isZero (server (agiPayload getVar endpointId))
  match value with
  | .string value => some [("ARS_LOOKUP_STATUS", status), ("ARS_LOOKUP_VALUE", agiValue value)]
  | _ => none

section

variable {isZero : JsonNumber → Bool} {reading : ValueReading} {body : Json}
  {resultPath matchMode value endpointId : String} {matchValue : Option String}

theorem length_le_jsLength (value : String) : value.toList.length ≤ jsLength value := by
  rw [jsLength]
  induction value.toList with
  | nil => exact le_rfl
  | cons c cs induction =>
    rw [List.length_cons, List.map_cons, List.sum_cons]
    split <;> omega

/-- A value short enough for the server passes exactly when each of its characters does. -/
theorem agiValue_eq_iff (short : jsLength value ≤ maxValueLength) :
    agiValue value = value ↔ ∀ c ∈ value.toList, isAgiChar c = true := by
  constructor
  · intro same
    have cut : (value.toList.filter isAgiChar).take 64 = value.toList := by
      rw [← String.toList_ofList (l := (value.toList.filter isAgiChar).take 64)]
      exact congrArg String.toList same
    refine List.filter_eq_self.mp ?_
    refine List.filter_sublist.eq_of_length_le ?_
    rw [← congrArg List.length cut]
    exact List.length_take_le' _ _
  · intro all
    have few : value.toList.length ≤ 64 := (length_le_jsLength value).trans short
    rw [agiValue, List.filter_eq_self.mpr all, List.take_of_length_le few, String.ofList_toList]

/-- The script reads out of the envelope what the server found. -/
theorem readReply_outcome (extracted : ExtractLookupResult) (details : OutcomeDetails) :
    readReply isZero (some (envelope (outcomeJson extracted details))) =
      (extracted.status.text, .string extracted.value) := by
  obtain ⟨status, value, reason⟩ := extracted
  cases status <;> cases reason <;>
    simp [readReply, envelope, outcomeJson, ownProperty, pyOr, isTruthy, LookupStatus.text]

/-- The channel gets the value of a match exactly when every character is in the script's class. -/
theorem agi_sets_value_iff (getVar : String → String) (details : OutcomeDetails)
    (asked : endpointId ≠ "")
    (matched : (extractLookupResult reading body resultPath matchMode matchValue).status = .isMatch) :
    runLookupAgi isZero getVar
        (fun _ => some (envelope (outcomeJson
          (extractLookupResult reading body resultPath matchMode matchValue) details))) endpointId =
      some [("ARS_LOOKUP_STATUS", "MATCH"), ("ARS_LOOKUP_VALUE",
        (extractLookupResult reading body resultPath matchMode matchValue).value)] ↔
      ∀ c ∈ (extractLookupResult reading body resultPath matchMode matchValue).value.toList,
        isAgiChar c = true := by
  have extracted := @extractLookupResult_value reading body resultPath matchMode matchValue
  rw [runLookupAgi, if_neg asked, readReply_outcome _ details, matched,
    ← agiValue_eq_iff (extracted.1 matched).1]
  simp [LookupStatus.text]

end

/-- The classes of letters and numbers as far as the examples need them. -/
def westernReading : ValueReading where
  isLetterOrNumber c := c.isAlphanum || c = 'é' || (0xac00 ≤ c.toNat && c.toNat ≤ 0xd7a3)
  numberText n := String.ofList n.text

def noDetails : OutcomeDetails := ⟨.null, .null, .null, .null⟩

/-- A body with one member. -/
def gradeBody (grade : String) : Json := .object (.cons "grade" (.string grade) .nil)

theorem hangul_value : runLookupAgi (fun _ => false) (fun _ => "")
      (fun _ => some (envelope (outcomeJson
        (extractLookupResult westernReading (gradeBody "우수-1") "grade" "EXISTS" none) noDetails)))
      "e1" =
    some [("ARS_LOOKUP_STATUS", "MATCH"), ("ARS_LOOKUP_VALUE",
      (extractLookupResult westernReading (gradeBody "우수-1") "grade" "EXISTS" none).value)] :=
  (agi_sets_value_iff _ noDetails (by decide) (by decide)).mpr (by decide)

/-- The server accepts the letter, and the script deletes it. -/
theorem accented_value :
    extractLookupResult westernReading (gradeBody "café") "grade" "EXISTS" none =
      ⟨.isMatch, "café", none⟩ ∧
    runLookupAgi (fun _ => false) (fun _ => "")
        (fun _ => some (envelope (outcomeJson
          (extractLookupResult westernReading (gradeBody "café") "grade" "EXISTS" none)
          noDetails))) "e1" =
      some [("ARS_LOOKUP_STATUS", "MATCH"), ("ARS_LOOKUP_VALUE", "caf")] := by
  refine ⟨by decide, by decide⟩

end KasterCti.ArsLookup
