import KasterCti.ArsLookup.LookupRuns
import KasterCti.Library.Json
import Mathlib

/-!
# What a response says

`response-extract.util.ts`: the value at a dotted path of a parsed body, cleaned for a channel
variable and matched. The classes of letters and numbers and the text of a number are
parameters.
-/

namespace KasterCti.ArsLookup

open JsText

def maxValueLength : Nat := 64

/-- How values are read as text. -/
structure ValueReading where
  /-- `\p{L}` or `\p{N}`. -/
  isLetterOrNumber : Char → Bool
  /-- `String(n)` of the number that the text is read as. -/
  numberText : JsonNumber → String

def jsLength (value : String) : Nat :=
  (value.toList.map fun c => if c.toNat < 65536 then 1 else 2).sum

/-- `ALLOWED_VALUE`. -/
def ValueReading.isAllowed (reading : ValueReading) (value : String) : Bool :=
  value ≠ "" && value.toList.all fun c => reading.isLetterOrNumber c || c ∈ ['_', '.', '-']

structure ExtractLookupResult where
  status : LookupStatus
  value : String
  reason : Option String
deriving DecidableEq

/-- What stands at a path. -/
inductive Picked
  | undefined
  | json (value : Json)
  /-- A method that every object inherits. -/
  | method
  /-- `Object.prototype`. -/
  | prototype

def inheritedMethods : List String :=
  ["constructor", "__defineGetter__", "__defineSetter__", "hasOwnProperty", "__lookupGetter__",
    "__lookupSetter__", "isPrototypeOf", "propertyIsEnumerable", "toString", "valueOf",
    "toLocaleString"]

/-- The own property of a name; of two members the later counts. -/
def ownProperty (name : String) : JsonMembers → Option Json
  | .nil => none
  | .cons key value rest =>
    (ownProperty name rest).or (if key = name then some value else none)

/-- `current[segment]`, and `undefined` for what is no object. -/
def Picked.property (segment : String) : Picked → Picked
  | .json (.object members) =>
    match ownProperty segment members with
    | some value => .json value
    | none =>
      if segment = "__proto__" then .prototype
      else if segment ∈ inheritedMethods then .method
      else .undefined
  | .prototype =>
    if segment = "__proto__" then .json .null
    else if segment ∈ inheritedMethods then .method
    else .undefined
  | _ => .undefined

def splitText (sep : Char) (value : String) : List String :=
  (value.toList.splitOn sep).map String.ofList

def pickByPath (body : Json) (path : String) : Picked :=
  (splitText '.' path).foldl (fun current segment => current.property segment) (.json body)

/-- `sanitizeLookupValue`: the value, or the reason why there is none. -/
def sanitizeLookupValue (reading : ValueReading) (raw : Picked) : Except String String :=
  let text? := match raw with
    | .json (.string s) => some s
    | .json (.number n) => some (reading.numberText n)
    | .json (.boolean b) => some (if b then "true" else "false")
    | _ => none
  match text? with
  | none => .error "lookup value must be a string, number or boolean"
  | some value =>
    if jsLength value > maxValueLength then
      .error ("lookup value is longer than " ++ maxValueLength.repr ++ " characters")
    else if reading.isAllowed value then .ok value
    else .error "lookup value contains characters that are not allowed in a dialplan variable"

/-- A mode other than the first two is read as `IN`. -/
def matchesValue (value mode : String) (matchValue : Option String) : Bool :=
  if mode = "EXISTS" then true
  else match matchValue with
    | none => false
    | some matchValue =>
      if mode = "EQUALS" then value = trim matchValue
      else ((splitText ',' matchValue).map trim).filter (· ≠ "") |>.contains value

def extractLookupResult (reading : ValueReading) (body : Json) (resultPath matchMode : String)
    (matchValue : Option String) : ExtractLookupResult :=
  match body with
  | .object _ =>
    match pickByPath body resultPath with
    | .undefined | .json .null => ⟨.noMatch, "", none⟩
    | picked =>
      match sanitizeLookupValue reading picked with
      | .error reason => ⟨.error, "", some reason⟩
      | .ok value =>
        if matchesValue value matchMode matchValue then ⟨.isMatch, value, none⟩
        else ⟨.noMatch, "", none⟩
  | _ => ⟨.error, "", some "response body is not a JSON object"⟩

section

variable {reading : ValueReading} {body : Json} {resultPath matchMode value : String}
  {matchValue : Option String} {raw : Picked}

theorem sanitizeLookupValue_ok (h : sanitizeLookupValue reading raw = .ok value) :
    jsLength value ≤ maxValueLength ∧ reading.isAllowed value = true := by
  unfold sanitizeLookupValue at h
  dsimp only at h
  split at h
  · cases h
  · split at h
    · cases h
    · next hlength =>
      split at h
      · next hallowed =>
        obtain rfl := Except.ok.inj h
        exact ⟨not_lt.mp hlength, hallowed⟩
      · cases h

/-- A value that goes on to the channel is short and of allowed characters; other results
have none. -/
theorem extractLookupResult_value :
    let extracted := extractLookupResult reading body resultPath matchMode matchValue
    (extracted.status = .isMatch → jsLength extracted.value ≤ maxValueLength ∧
      reading.isAllowed extracted.value = true) ∧
    (extracted.status ≠ .isMatch → extracted.value = "") := by
  unfold extractLookupResult
  split
  · split
    · exact ⟨nofun, fun _ => rfl⟩
    · exact ⟨nofun, fun _ => rfl⟩
    · split
      · exact ⟨nofun, fun _ => rfl⟩
      · next hvalue =>
        split
        · exact ⟨fun _ => sanitizeLookupValue_ok hvalue, fun h => absurd rfl h⟩
        · exact ⟨nofun, fun _ => rfl⟩
  · exact ⟨nofun, fun _ => rfl⟩

end

end KasterCti.ArsLookup
