import KasterCti.ArsLookup.ResponseExtract
import KasterCti.ArsLookup.SafeTarget
import KasterCti.Library.Effects
import KasterCti.Library.Utf8
import KasterCti.Recordings.Encryption
import Mathlib

/-!
# How a lookup ends

`ArsHttpLookupService.lookup` as one computation. The database, the resolver, `fetch`, the
body and the URL class are parameters, and each of them may throw. At every await the other
calls may do anything to what the calls share.

Results:
1. `lookup_slots`: the call gives back the slot that it took.
2. `lookup_resolves_iff`: when the call resolves.
3. `database_failure_rejects`: the query that stands before the `try`.
-/

namespace KasterCti.ArsLookup

open Effects JsText CircuitBreaker

def maxTimeoutMs : Int := 5000
def defaultTimeoutMs : Int := 2000
def maxBodyBytes : Nat := 64 * 1024

/-! ## What a call works with -/

structure LookupVariables where
  caller : String
  collected : String
  entryDid : String
  linkedid : String

structure LookupInput where
  tenantId : String
  endpointId : String
  vars : LookupVariables

structure LookupOutcome where
  status : LookupStatus
  code : LookupCode
  value : String
  reason : Option String
  httpStatus : Option Nat
  timeoutMs : Option Int
  durationMs : Int

/-- What is thrown: its `name` and its `message` where they are texts, and `String(error)`. -/
structure LookupError where
  name : Option String
  message : Option String
  text : String

def newError (message : String) : LookupError := ⟨some "Error", some message, "Error: " ++ message⟩

def describeError (error : LookupError) : String :=
  if error.name = some "TimeoutError" then "lookup timed out" else error.message.getD error.text

/-- The row is read as `any`, so that a column may be missing. -/
structure ArsHttpEndpoint where
  endpointId : String
  url : String
  method : String
  requestMapping : Option Json
  authType : String
  authHeaderName : Option String
  authSecretEnc : Option String
  resultPath : Option String
  matchMode : Option String
  matchValue : Option String
  timeoutMs : Option Int

structure LookupRequest where
  url : String
  method : String
  headers : List (String × String)
  body : Option String
  timeoutMs : Int

inductive ResponseBody
  /-- `response.text()`, where the body is no stream. -/
  | whole (text : Except LookupError String)
  /-- What `reader.read()` gives until it is done, and what `reader.cancel()` does. -/
  | chunks (reads : List (Except LookupError (List UInt8))) (cancel : Except LookupError Unit)

structure LookupResponse where
  status : Nat
  contentLength : Option String
  body : ResponseBody

def LookupResponse.ok (response : LookupResponse) : Bool :=
  200 ≤ response.status && response.status ≤ 299

inductive LookupAwait
  | findFirst
  | target
  | fetch
  | text
  | read
  | cancel
  /-- `return await` of `perform`, in front of the `finally`. -/
  | performed

/-- The clock, and what the calls of the service share. -/
structure LookupShared where
  now : Int
  breaker : EndpointStates
  inFlight : List (String × Nat)
  metrics : List (String × LookupCode × Int)

inductive SlotEvent
  | acquired (endpointId : String)
  | released (endpointId : String)

structure LookupState extends LookupShared where
  /-- What the call did with slots, the first first. -/
  slots : List SlotEvent

structure LookupEnv where
  /-- `ARS_HTTP_LOOKUP_ENABLED`. -/
  enabledSetting : Option String
  /-- `ARS_HTTP_SECRET_KEY`. -/
  secretKeySetting : Option String
  hasRegistry : Bool
  /-- The active row of a tenant and an id. -/
  findFirst : String → String → Except LookupError (Option ArsHttpEndpoint)
  parseUrl : String → Option TargetUrl
  urlText : TargetUrl → String
  /-- The text of the URL with parameters appended. -/
  withSearchParams : TargetUrl → List (String × String) → String
  resolveAddresses : String → Except String (List String)
  fetch : LookupRequest → Except LookupError LookupResponse
  gcm : Recordings.Aes256Gcm
  /-- `Number(text)`, where it is finite. -/
  toNumber : String → Option Rat
  reading : ValueReading
  /-- What the other calls and the clock do while this one waits. -/
  meanwhile : LookupAwait → LookupShared → LookupShared

/-! ## The request -/

def isParamName (name : String) : Bool :=
  1 ≤ name.length && name.length ≤ 64 && name.toList.all fun c =>
    c.isAlphanum || c ∈ ['_', '.', '-']

def resolveSource (source : Json) (vars : LookupVariables) : Except String String :=
  match source with
  | .string source =>
    match afterPrefix? "LITERAL:".toList source.toList with
    | some rest => .ok (String.ofList rest)
    | none =>
      if source = "CALLER" then .ok vars.caller
      else if source = "COLLECTED" then .ok vars.collected
      else if source = "ENTRY_DID" then .ok vars.entryDid
      else if source = "LINKEDID" then .ok vars.linkedid
      else .error ("unknown requestMapping source: " ++ source)
  | _ => .error "requestMapping values must be strings"

def paramsOfMembers (vars : LookupVariables) : JsonMembers → Except String (List (String × String))
  | .nil => .ok []
  | .cons name source rest => do
    if !isParamName name then throw ("requestMapping has an invalid parameter name: " ++ name)
    let value ← resolveSource source vars
    let params ← paramsOfMembers vars rest
    return (name, value) :: params

def buildRequestParams (mapping : Option Json) (vars : LookupVariables) :
    Except String (List (String × String)) :=
  match mapping with
  | none | some .null => .ok []
  | some (.object members) => paramsOfMembers vars members
  | some _ => .error "requestMapping must be an object"

def membersOfParams : List (String × String) → JsonMembers
  | [] => .nil
  | (name, value) :: params => .cons name (.string value) (membersOfParams params)

structure AppliedRequest where
  url : String
  body : Option String

def LookupEnv.applyRequest (env : LookupEnv) (url : TargetUrl) (method : String)
    (params : List (String × String)) : AppliedRequest :=
  if method = "POST" then
    ⟨env.urlText url, some (String.ofList (Json.stringify (.object (membersOfParams params))))⟩
  else ⟨env.withSearchParams url params, none⟩

def loadEndpointSecretKey (raw : Option String) : Except String (List UInt8) :=
  let value := trim (raw.getD "")
  if value = "" then .error "ARS_HTTP_SECRET_KEY is not configured"
  else
    let decoded := Recordings.decodeKey value.toList
    if decoded.length ≠ Recordings.keyBytes then .error "ARS_HTTP_SECRET_KEY must decode to 32 bytes"
    else .ok decoded

/-- The box begins with the IV and the tag. -/
def decryptEndpointSecret (gcm : Recordings.Aes256Gcm) (cipherText : String) (key : List UInt8) :
    Except String String :=
  let raw := Recordings.base64Bytes (trim cipherText).toList
  let payloadOffset := Recordings.gcmIvBytes + Recordings.gcmTagBytes
  if raw.length ≤ payloadOffset then .error "stored endpoint secret is malformed"
  else
    let iv := Recordings.subarray raw 0 Recordings.gcmIvBytes
    let tag := Recordings.subarray raw Recordings.gcmIvBytes payloadOffset
    match gcm.decrypt key iv tag (raw.drop payloadOffset) with
    | some plain => .ok (String.ofList (Utf8.decode plain))
    | none => .error "Unsupported state or unable to authenticate data"

def LookupEnv.buildHeaders (env : LookupEnv) (endpoint : ArsHttpEndpoint) (method : String) :
    Except String (List (String × String)) :=
  let accept := [("Accept", "application/json")]
  let headers :=
    if method = "POST" then JsMap.set accept "Content-Type" "application/json" else accept
  if endpoint.authType = "NONE" ∨ truthy endpoint.authSecretEnc = false then .ok headers
  else do
    let key ← loadEndpointSecretKey env.secretKeySetting
    let secret ← decryptEndpointSecret env.gcm (endpoint.authSecretEnc.getD "") key
    if endpoint.authType = "BEARER" then
      return JsMap.set headers "Authorization" ("Bearer " ++ secret)
    else if endpoint.authType = "HEADER" ∧ truthy endpoint.authHeaderName then
      return JsMap.set headers (endpoint.authHeaderName.getD "") secret
    else return headers

/-! ## The call -/

abbrev LookupM := Effect LookupState LookupError

def ofExcept {α : Type} : Except LookupError α → LookupM α
  | .ok a => pure a
  | .error error => throw error

def orThrow {α : Type} (value : Except String α) : LookupM α := ofExcept (value.mapError newError)

/-- A promise: by the time it settles, the others have run. -/
def LookupEnv.wait {α : Type} (env : LookupEnv) (point : LookupAwait) (value : Except LookupError α) :
    LookupM α := do
  modify fun s => { s with toLookupShared := env.meanwhile point s.toLookupShared }
  ofExcept value

def setBreaker (f : EndpointStates → Int → EndpointStates) : LookupM PUnit :=
  modify fun s => { s with breaker := f s.breaker s.now }

def LookupEnv.readChunks (env : LookupEnv) (cap : Nat) (cancel : Except LookupError Unit) :
    List (Except LookupError (List UInt8)) → List UInt8 → LookupM (Option (List UInt8))
  | [], read => do
    env.wait .read (.ok ())
    return some read
  | chunk :: rest, read => do
    let value ← env.wait .read chunk
    if (read ++ value).length > cap then
      env.wait .cancel cancel
      return none
    else env.readChunks cap cancel rest (read ++ value)

def LookupEnv.readCapped (env : LookupEnv) (response : LookupResponse) (cap : Nat) :
    LookupM (Option String) :=
  let declared := env.toNumber (response.contentLength.getD "")
  if declared.any fun declared => (cap : Rat) < declared then pure none
  else match response.body with
    | .whole text => do
      let text ← env.wait .text text
      return if text.utf8ByteSize > cap then none else some text
    | .chunks reads cancel => do
      let bytes? ← env.readChunks cap cancel reads []
      return bytes?.map fun bytes => String.ofList (Utf8.decode bytes)

/-- `done`, with the time since the call began. -/
def finished (startedAt timeoutMs : Int) (status : LookupStatus) (code : LookupCode) (value : String)
    (reason : Option String) (httpStatus : Nat) : LookupM LookupOutcome := do
  let s ← get
  return ⟨status, code, value, reason, some httpStatus, some timeoutMs, s.now - startedAt⟩

def LookupEnv.perform (env : LookupEnv) (endpoint : ArsHttpEndpoint) (vars : LookupVariables)
    (timeoutMs startedAt : Int) : LookupM LookupOutcome := do
  let target ← env.wait .target
    ((assertSafeTarget env.parseUrl env.resolveAddresses endpoint.url).mapError newError)
  let params ← orThrow (buildRequestParams endpoint.requestMapping vars)
  let method := if endpoint.method = "POST" then "POST" else "GET"
  let request := env.applyRequest target.url method params
  let headers ← orThrow (env.buildHeaders endpoint method)
  -- `AbortSignal.timeout` takes no negative delay
  if timeoutMs < 0 then throw ⟨some "RangeError", some "The value of \"delay\" is out of range.",
    "RangeError [ERR_OUT_OF_RANGE]: The value of \"delay\" is out of range."⟩
  else
    let response ← env.wait .fetch (env.fetch ⟨request.url, method, headers, request.body, timeoutMs⟩)
    if 300 ≤ response.status ∧ response.status < 400 then
      setBreaker fun breaker now => recordFailure breaker now endpoint.endpointId
      finished startedAt timeoutMs .error .httpError "" (some "endpoint answered with a redirect")
        response.status
    else if !response.ok then
      setBreaker fun breaker now => recordFailure breaker now endpoint.endpointId
      finished startedAt timeoutMs .error .httpError ""
        (some ("endpoint returned " ++ response.status.repr)) response.status
    else
      match ← env.readCapped response maxBodyBytes with
      | none =>
        setBreaker fun breaker now => recordFailure breaker now endpoint.endpointId
        finished startedAt timeoutMs .error .badResponse "" (some "response body is too large")
          response.status
      | some text =>
        setBreaker fun breaker _ => recordSuccess breaker endpoint.endpointId
        match Json.parse text.toList with
        | none =>
          finished startedAt timeoutMs .error .badResponse "" (some "response body is not JSON")
            response.status
        | some body =>
          match endpoint.resultPath with
          | none => throw ⟨some "TypeError", some "Cannot read properties of null (reading 'split')",
            "TypeError: Cannot read properties of null (reading 'split')"⟩
          | some resultPath =>
            let extracted := extractLookupResult env.reading body resultPath
              (endpoint.matchMode.getD "EXISTS") endpoint.matchValue
            let code := match extracted.status with
              | .isMatch => .isMatch
              | .noMatch => .noMatch
              | .error => .badResponse
            finished startedAt timeoutMs extracted.status code extracted.value extracted.reason
              response.status

def LookupEnv.isEnabled (env : LookupEnv) : Bool :=
  toLowerCase (trim (env.enabledSetting.getD "false")) = "true"

/-- `fail`. -/
def failing (startedAt : Int) (code : LookupCode) (reason : String) (timeoutMs : Option Int) :
    LookupM LookupOutcome := do
  let s ← get
  return ⟨.error, code, "", some reason, none, timeoutMs, s.now - startedAt⟩

def letThrough (endpointId : String) : LookupM Bool := do
  let s ← get
  let (admitted, breaker) := canRequest s.breaker s.now endpointId
  set { s with breaker }
  return admitted

def takeSlot (endpointId : String) : LookupM Bool :=
  modifyGet fun s =>
    let (acquired, inFlight) := acquireSlot s.inFlight endpointId
    (acquired,
      if acquired then { s with inFlight, slots := s.slots ++ [.acquired endpointId] } else s)

def giveSlot (endpointId : String) (s : LookupState) : LookupState :=
  { s with
    inFlight := releaseSlot s.inFlight endpointId
    slots := s.slots ++ [.released endpointId] }

/-- `Math.min(Number(endpoint.timeoutMs) || DEFAULT_TIMEOUT_MS, MAX_TIMEOUT_MS)`. -/
def timeoutOf (endpoint : ArsHttpEndpoint) : Int :=
  let timeoutMs := endpoint.timeoutMs.getD 0
  min (if timeoutMs = 0 then defaultTimeoutMs else timeoutMs) maxTimeoutMs

/-- The `try` of `runLookup`. -/
def LookupEnv.tryPerform (env : LookupEnv) (endpoint : ArsHttpEndpoint) (vars : LookupVariables)
    (startedAt : Int) : LookupM LookupOutcome :=
  let timeoutMs := timeoutOf endpoint
  attempt
    (do
      let outcome ← env.perform endpoint vars timeoutMs startedAt
      env.wait .performed (.ok outcome))
    (fun error => do
      setBreaker fun breaker now => recordFailure breaker now endpoint.endpointId
      failing startedAt .transportError (describeError error) (some timeoutMs))
    (giveSlot endpoint.endpointId)

def LookupEnv.runLookup (env : LookupEnv) (input : LookupInput) : LookupM LookupOutcome := do
  let startedAt := (← get).now
  if !env.isEnabled then failing startedAt .disabled "ARS_HTTP_LOOKUP_ENABLED is false" none
  else
    match ← env.wait .findFirst (env.findFirst input.tenantId input.endpointId) with
    | none =>
      failing startedAt .endpointNotFound ("endpoint not found or inactive: " ++ input.endpointId) none
    | some endpoint =>
      if !(← letThrough endpoint.endpointId) then
        failing startedAt .breakerOpen "circuit breaker is open for this endpoint" none
      else if !(← takeSlot endpoint.endpointId) then
        failing startedAt .tooManyInFlight "too many concurrent lookups for this endpoint" none
      else env.tryPerform endpoint input.vars startedAt

def LookupEnv.record (env : LookupEnv) (endpointId : String) (outcome : LookupOutcome) :
    LookupM PUnit :=
  modify fun s => if env.hasRegistry then
    { s with metrics := s.metrics ++ [(endpointId, outcome.code, outcome.durationMs)] } else s

def LookupEnv.lookup (env : LookupEnv) (input : LookupInput) : LookupM LookupOutcome := do
  let outcome ← env.runLookup input
  env.record input.endpointId outcome
  return outcome

/-! ## What a call keeps -/

section Keeping

variable {γ : Type} {f : LookupState → γ} {env : LookupEnv}

theorem keeps_ofExcept {α : Type} (value : Except LookupError α) : Keeps f (ofExcept value) := by
  cases value with
  | ok a => exact keeps_pure
  | error error => exact keeps_throw

/-- A reading of the state that awaits and the breaker do not change. -/
structure Untouched (env : LookupEnv) (f : LookupState → γ) : Prop where
  wait : ∀ point (s : LookupState),
    f { s with toLookupShared := env.meanwhile point s.toLookupShared } = f s
  breaker : ∀ (s : LookupState) breaker, f { s with breaker := breaker } = f s

variable (h : Untouched env f)

include h

theorem keeps_wait {α : Type} (point : LookupAwait) (value : Except LookupError α) :
    Keeps f (env.wait point value) :=
  (keeps_modify (h.wait point)).bind fun _ => keeps_ofExcept value

theorem keeps_setBreaker (g : EndpointStates → Int → EndpointStates) : Keeps f (setBreaker g) :=
  keeps_modify fun s => h.breaker s _

theorem keeps_readChunks (cap : Nat) (cancel : Except LookupError Unit)
    (reads : List (Except LookupError (List UInt8))) (read : List UInt8) :
    Keeps f (env.readChunks cap cancel reads read) := by
  induction reads generalizing read with
  | nil => exact (keeps_wait h _ _).bind fun _ => keeps_pure
  | cons chunk rest ih =>
    refine (keeps_wait h _ _).bind fun value => ?_
    split
    · exact (keeps_wait h _ _).bind fun _ => keeps_pure
    · exact ih (read ++ value)

theorem keeps_readCapped (response : LookupResponse) (cap : Nat) :
    Keeps f (env.readCapped response cap) := by
  unfold LookupEnv.readCapped
  dsimp only
  split
  · exact keeps_pure
  split
  · exact (keeps_wait h _ _).bind fun _ => keeps_pure
  · exact (keeps_readChunks h _ _ _ _).bind fun _ => keeps_pure

omit h in
theorem keeps_finished (startedAt timeoutMs : Int) (status : LookupStatus) (code : LookupCode)
    (value : String) (reason : Option String) (httpStatus : Nat) :
    Keeps f (finished startedAt timeoutMs status code value reason httpStatus) :=
  keeps_get.bind fun _ => keeps_pure

omit h in
theorem keeps_failing (startedAt : Int) (code : LookupCode) (reason : String)
    (timeoutMs : Option Int) : Keeps f (failing startedAt code reason timeoutMs) :=
  keeps_get.bind fun _ => keeps_pure

theorem keeps_perform (endpoint : ArsHttpEndpoint) (vars : LookupVariables)
    (timeoutMs startedAt : Int) : Keeps f (env.perform endpoint vars timeoutMs startedAt) := by
  refine (keeps_wait h _ _).bind fun target => ?_
  refine (keeps_ofExcept _).bind fun params => ?_
  refine (keeps_ofExcept _).bind fun headers => ?_
  split
  · exact keeps_throw
  refine (keeps_wait h _ _).bind fun response => ?_
  have hfinish := keeps_finished (f := f) startedAt timeoutMs
  split
  · exact (keeps_setBreaker h _).bind fun _ => hfinish _ _ _ _ _
  split
  · exact (keeps_setBreaker h _).bind fun _ => hfinish _ _ _ _ _
  refine (keeps_readCapped h _ _).bind fun text? => ?_
  cases text? with
  | none => exact (keeps_setBreaker h _).bind fun _ => hfinish _ _ _ _ _
  | some text =>
    refine (keeps_setBreaker h _).bind fun _ => ?_
    dsimp only
    split
    · exact hfinish _ _ _ _ _
    split
    · exact keeps_throw
    · exact hfinish _ _ _ _ _

theorem keeps_letThrough (endpointId : String) : Keeps f (letThrough endpointId) :=
  fun s => h.breaker s _

/-- Behind the `try`, only the slot has changed. -/
theorem state_tryPerform (endpoint : ArsHttpEndpoint) (vars : LookupVariables) (startedAt : Int)
    (s : LookupState) : ∃ s', f s' = f s ∧
      state (env.tryPerform endpoint vars startedAt) s = giveSlot endpoint.endpointId s' := by
  refine ⟨_, ?_, state_attempt⟩
  refine Keeps.catch ?_ ?_ s
  · exact (keeps_perform h _ _ _ _).bind fun _ => keeps_wait h _ _
  · exact fun error => (keeps_setBreaker h _).bind fun _ => keeps_failing _ _ _ _

end Keeping

/-! ## The slot -/

/-- The call gives back the slot that it takes, if it takes one. -/
def GivesBack (before after : List SlotEvent) : Prop :=
  after = before ∨ ∃ endpointId, after = before ++ [.acquired endpointId, .released endpointId]

variable {env : LookupEnv} {input : LookupInput} {s : LookupState}

theorem untouched_slots (env : LookupEnv) : Untouched env (·.slots) := ⟨fun _ _ => rfl, fun _ _ => rfl⟩

theorem givesBack_of_keeps {m : LookupM LookupOutcome} (h : Keeps (·.slots) m) :
    GivesBack s.slots (state m s).slots := .inl (h s)

theorem givesBack_bind {α β : Type} {m : LookupM α} {k : α → LookupM β} (hm : Keeps (·.slots) m)
    (hk : ∀ a s, GivesBack s.slots (state (k a) s).slots) :
    GivesBack s.slots (state (m >>= k) s).slots := by
  have hslots : (state m s).slots = s.slots := hm s
  cases hresult : result m s with
  | ok a =>
    rw [(bind_of_ok hresult).2, ← hslots]
    exact hk a _
  | error error =>
    rw [(bind_of_error hresult).2]
    exact .inl hslots

theorem takeSlot_ends (endpointId : String) (s : LookupState) :
    (result (takeSlot endpointId) s = .ok false ∧ state (takeSlot endpointId) s = s) ∨
      (result (takeSlot endpointId) s = .ok true ∧
        (state (takeSlot endpointId) s).slots = s.slots ++ [.acquired endpointId]) := by
  have hrun : (takeSlot endpointId).run.run s =
      (.ok (acquireSlot s.inFlight endpointId).1, if (acquireSlot s.inFlight endpointId).1 then
        { s with
          inFlight := (acquireSlot s.inFlight endpointId).2
          slots := s.slots ++ [.acquired endpointId] } else s) := rfl
  obtain ⟨hresult, hstate⟩ := ends_of_run hrun
  cases hacquired : (acquireSlot s.inFlight endpointId).1 with
  | false =>
    rw [hacquired] at hresult hstate
    exact .inl ⟨hresult, hstate⟩
  | true =>
    rw [hacquired] at hresult hstate
    exact .inr ⟨hresult, congrArg (·.slots) hstate⟩

/-- `acquireSlot` and what follows. -/
theorem givesBack_slot (endpoint : ArsHttpEndpoint) (startedAt : Int) (s : LookupState) :
    GivesBack s.slots (state (do
      if !(← takeSlot endpoint.endpointId) then
        failing startedAt .tooManyInFlight "too many concurrent lookups for this endpoint" none
      else env.tryPerform endpoint input.vars startedAt) s).slots := by
  rcases takeSlot_ends endpoint.endpointId s with ⟨hresult, hstate⟩ | ⟨hresult, hslots⟩
  · rw [(bind_of_ok hresult).2, hstate]
    exact givesBack_of_keeps (keeps_failing _ _ _ _)
  · rw [(bind_of_ok hresult).2]
    obtain ⟨s', hs', hstate⟩ := state_tryPerform (untouched_slots env) endpoint input.vars startedAt
      (state (takeSlot endpoint.endpointId) s)
    have hs' : s'.slots = s.slots ++ [.acquired endpoint.endpointId] := hs'.trans hslots
    refine .inr ⟨endpoint.endpointId, ?_⟩
    change (state (env.tryPerform endpoint input.vars startedAt) _).slots = _
    rw [hstate]
    change s'.slots ++ [.released endpoint.endpointId] = _
    rw [hs', List.append_assoc]
    rfl

theorem runLookup_slots : GivesBack s.slots (state (env.runLookup input) s).slots := by
  unfold LookupEnv.runLookup
  refine givesBack_bind keeps_get fun s₀ s => ?_
  dsimp only
  split
  · exact givesBack_of_keeps (keeps_failing _ _ _ _)
  refine givesBack_bind (keeps_wait (untouched_slots env) _ _) fun found s => ?_
  cases found with
  | none => exact givesBack_of_keeps (keeps_failing _ _ _ _)
  | some endpoint =>
    refine givesBack_bind (keeps_letThrough (untouched_slots env) _) fun admitted s => ?_
    split
    · exact givesBack_of_keeps (keeps_failing _ _ _ _)
    · exact givesBack_slot endpoint _ s

theorem keeps_record (endpointId : String) (outcome : LookupOutcome) :
    Keeps (·.slots) (env.record endpointId outcome) := by
  refine keeps_modify fun s => ?_
  split <;> rfl

/-- A call gives back what it took, however it ends. -/
theorem lookup_slots : GivesBack s.slots (state (env.lookup input) s).slots := by
  have hrest (outcome : LookupOutcome) : Keeps (·.slots) (do
      env.record input.endpointId outcome
      return outcome) := (keeps_record _ _).bind fun _ => keeps_pure
  have hrun : GivesBack s.slots (state (env.runLookup input) s).slots := runLookup_slots
  cases hresult : result (env.runLookup input) s with
  | ok outcome =>
    have hkept : (state _ (state (env.runLookup input) s)).slots = _ := hrest outcome _
    unfold LookupEnv.lookup
    rwa [(bind_of_ok hresult).2, hkept]
  | error error =>
    unfold LookupEnv.lookup
    rwa [(bind_of_error hresult).2]

/-! ## The outcome -/

theorem failing_resolves (startedAt : Int) (code : LookupCode) (reason : String)
    (timeoutMs : Option Int) (s : LookupState) :
    Resolves (failing startedAt code reason timeoutMs) s := ⟨_, rfl⟩

theorem tryPerform_resolves (endpoint : ArsHttpEndpoint) (vars : LookupVariables) (startedAt : Int)
    (s : LookupState) : Resolves (env.tryPerform endpoint vars startedAt) s := by
  refine attempt_resolves fun error s => resolves_bind ⟨_, rfl⟩ fun _ => ?_
  exact failing_resolves _ _ _ _ _

theorem takeSlot_resolves (endpointId : String) (s : LookupState) :
    Resolves (takeSlot endpointId) s := by
  rcases takeSlot_ends endpointId s with ⟨hresult, -⟩ | ⟨hresult, -⟩
  · exact ⟨false, hresult⟩
  · exact ⟨true, hresult⟩

/-- Nothing is thrown but by the query. -/
theorem runLookup_resolves_iff : Resolves (env.runLookup input) s ↔
    env.isEnabled = false ∨ ∃ found, env.findFirst input.tenantId input.endpointId = .ok found := by
  have hget : result (get : LookupM LookupState) s = .ok s := rfl
  unfold LookupEnv.runLookup
  rw [resolves_bind_iff hget]
  change Resolves (if !env.isEnabled then _ else _) s ↔ _
  cases henabled : env.isEnabled with
  | false => exact ⟨fun _ => .inl rfl, fun _ => failing_resolves _ _ _ _ _⟩
  | true =>
    cases hfound : env.findFirst input.tenantId input.endpointId with
    | error error =>
      have hwait : result (env.wait .findFirst (.error error) :
          LookupM (Option ArsHttpEndpoint)) s = .error error := rfl
      exact ⟨fun h => absurd h (not_resolves_bind hwait), fun h => by
        obtain h | ⟨found, h⟩ := h <;> cases h⟩
    | ok found =>
      have hwait : result (env.wait .findFirst (.ok found)) s = .ok found := rfl
      refine ⟨fun _ => .inr ⟨found, rfl⟩, fun _ => (resolves_bind_iff hwait).mpr ?_⟩
      cases found with
      | none => exact failing_resolves _ _ _ _ _
      | some endpoint =>
        refine resolves_bind ⟨_, rfl⟩ fun admitted => ?_
        split
        · exact failing_resolves _ _ _ _ _
        refine resolves_bind (takeSlot_resolves _ _) fun acquired => ?_
        split
        · exact failing_resolves _ _ _ _ _
        · exact tryPerform_resolves _ _ _ _

theorem lookup_resolves : Resolves (env.lookup input) s ↔ Resolves (env.runLookup input) s := by
  unfold LookupEnv.lookup
  cases hresult : result (env.runLookup input) s with
  | ok outcome =>
    exact ⟨fun _ => ⟨outcome, hresult⟩, fun _ => (resolves_bind_iff hresult).mpr ⟨outcome, rfl⟩⟩
  | error error =>
    refine ⟨fun h => absurd h (not_resolves_bind hresult), ?_⟩
    rintro ⟨outcome, houtcome⟩
    cases houtcome.symm.trans hresult

/-- A call begins with no slot. -/
def LookupShared.start (shared : LookupShared) : LookupState := ⟨shared, []⟩

/-- A lookup resolves, and has given back its slot, exactly when it is switched off or the query
for the endpoint does not fail. -/
theorem lookup_resolves_iff (env : LookupEnv) (input : LookupInput) (shared : LookupShared) :
    ((∃ outcome, result (env.lookup input) shared.start = .ok outcome) ∧
      GivesBack [] (state (env.lookup input) shared.start).slots) ↔
    env.isEnabled = false ∨
      ∃ found, env.findFirst input.tenantId input.endpointId = .ok found := by
  rw [← runLookup_resolves_iff, ← lookup_resolves]
  exact ⟨And.left, fun h => ⟨h, lookup_slots⟩⟩

/-- A service whose database does not answer. -/
def exLookupEnv : LookupEnv where
  enabledSetting := some "true"
  secretKeySetting := none
  hasRegistry := false
  findFirst _ _ := .error (newError "Can't reach database server")
  parseUrl := exParseUrl
  urlText url := url.protocol ++ "//" ++ url.hostname ++ "/"
  withSearchParams url _ := url.protocol ++ "//" ++ url.hostname ++ "/"
  resolveAddresses := exResolve
  fetch _ := .error (newError "fetch failed")
  gcm := Recordings.exGcm
  toNumber text := (parseInt text).map fun n => (n : Rat)
  reading := ⟨Char.isAlphanum, fun n => String.ofList n.text⟩
  meanwhile _ shared := shared

/-- The query is awaited in front of the `try`. -/
theorem database_failure_rejects : ¬ ∀ (env : LookupEnv) (input : LookupInput)
    (shared : LookupShared),
    (∃ outcome, result (env.lookup input) shared.start = .ok outcome) ∧
      GivesBack [] (state (env.lookup input) shared.start).slots := by
  intro h
  obtain ⟨hresolves, -⟩ := h exLookupEnv ⟨"tenant", "endpoint", ⟨"01012345678", "", "16001234", "1.2"⟩⟩
    ⟨0, [], [], []⟩
  have hon : exLookupEnv.isEnabled = true := by decide
  rcases runLookup_resolves_iff.mp (lookup_resolves.mp hresolves) with hoff | ⟨found, hfound⟩
  · cases hoff.symm.trans hon
  · cases hfound

end KasterCti.ArsLookup
