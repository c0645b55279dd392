import KasterCti.Library.JsMap

/-!
# The circuit breaker of external lookups

`CircuitBreaker` keeps one state for each endpoint that has failed since its last
success. The clock, in milliseconds, is an argument of every method.

Results:
1. `canRequest_eq_true`: when a request is admitted, and that the one of a half-open
   breaker raises `probeInFlight`.
2. `get_recordFailure`: a failure of a closed breaker counts, one of an open breaker
   starts the sixty seconds again.
-/

namespace KasterCti.ArsLookup

def failureThreshold : Nat := 5
def failureWindowMs : Int := 60000
def openMs : Int := 60000

inductive BreakerState
  | closed
  | isOpen
  | halfOpen

structure EndpointState where
  failures : Nat
  /-- `none` is `Number.NEGATIVE_INFINITY`. -/
  lastFailureAt : Option Int
  openedAt : Option Int
  probeInFlight : Bool

abbrev EndpointStates := List (String × EndpointState)

namespace CircuitBreaker

variable {states : EndpointStates} {now : Int} {key key' : String} {s : EndpointState} {t : Int}

/-- When the breaker opened. -/
def openedAt (states : EndpointStates) (key : String) : Option Int :=
  (JsMap.get states key).bind (·.openedAt)

def probeInFlight (states : EndpointStates) (key : String) : Bool :=
  ((JsMap.get states key).map (·.probeInFlight)).getD false

def state (states : EndpointStates) (now : Int) (key : String) : BreakerState :=
  match openedAt states key with
  | none => .closed
  | some opened => if now - opened ≥ openMs then .halfOpen else .isOpen

def created : EndpointState := ⟨0, none, none, false⟩

/-- The entry that `stateFor` finds or makes. -/
def stateFor (states : EndpointStates) (key : String) : EndpointState :=
  (JsMap.get states key).getD created

def canRequest (states : EndpointStates) (now : Int) (key : String) : Bool × EndpointStates :=
  match state states now key with
  | .closed => (true, states)
  | .isOpen => (false, states)
  | .halfOpen =>
    let entry := stateFor states key
    if entry.probeInFlight then (false, JsMap.set states key entry)
    else (true, JsMap.set states key { entry with probeInFlight := true })

def recordSuccess (states : EndpointStates) (key : String) : EndpointStates := JsMap.delete states key

/-- The failures in a row when one more comes at `now`. -/
def countFailure (entry : EndpointState) (now : Int) : Nat :=
  match entry.lastFailureAt with
  | none => 1
  | some last => if now - last > failureWindowMs then 1 else entry.failures + 1

def failed (entry : EndpointState) (now : Int) : EndpointState :=
  if entry.openedAt.isSome then { entry with openedAt := some now, probeInFlight := false }
  else
    let counted := { entry with failures := countFailure entry now, lastFailureAt := some now }
    if counted.failures ≥ failureThreshold then
      { counted with openedAt := some now, probeInFlight := false }
    else counted

def recordFailure (states : EndpointStates) (now : Int) (key : String) : EndpointStates :=
  JsMap.set states key (failed (stateFor states key) now)

/-! ## What each method leaves -/

theorem get_of_openedAt (h : openedAt states key = some t) :
    ∃ s, JsMap.get states key = some s ∧ s.openedAt = some t :=
  Option.bind_eq_some_iff.mp h

theorem openedAt_of_get (h : JsMap.get states key = some s) :
    openedAt states key = s.openedAt := by
  rw [openedAt, h]
  rfl

theorem probeInFlight_of_get (h : JsMap.get states key = some s) :
    probeInFlight states key = s.probeInFlight := by
  rw [probeInFlight, h]
  rfl

theorem stateFor_of_get (h : JsMap.get states key = some s) : stateFor states key = s := by
  rw [stateFor, h]
  rfl

theorem stateFor_openedAt : (stateFor states key).openedAt = openedAt states key := by
  cases h : JsMap.get states key with
  | none => rw [stateFor, openedAt, h]; rfl
  | some s => rw [stateFor_of_get h, openedAt_of_get h]

theorem state_eq_closed : state states now key = .closed ↔ openedAt states key = none := by
  unfold state
  cases openedAt states key with
  | none => simp
  | some opened => dsimp only; split <;> simp

/-- A request is admitted by a closed breaker, or as the probe of a half-open one. -/
theorem canRequest_eq_true (h : (canRequest states now key).1 = true) :
    (openedAt states key = none ∧ (canRequest states now key).2 = states) ∨
      ∃ s t, JsMap.get states key = some s ∧ s.openedAt = some t ∧ t + openMs ≤ now ∧
        s.probeInFlight = false ∧
        (canRequest states now key).2 = JsMap.set states key { s with probeInFlight := true } := by
  unfold canRequest at h ⊢
  cases hstate : state states now key with
  | closed => exact .inl ⟨state_eq_closed.mp hstate, rfl⟩
  | isOpen => rw [hstate] at h; cases h
  | halfOpen =>
    rw [hstate] at h
    unfold state at hstate
    cases hopened : openedAt states key with
    | none => rw [hopened] at hstate; cases hstate
    | some t =>
      obtain ⟨s, hs, ht⟩ := get_of_openedAt hopened
      simp only [hopened, ge_iff_le] at hstate
      split at hstate
      · next hpast =>
        simp only [stateFor_of_get hs] at h ⊢
        cases hprobe : s.probeInFlight with
        | true => rw [hprobe] at h; cases h
        | false => exact .inr ⟨s, t, hs, ht, by omega, hprobe, rfl⟩
      · cases hstate

/-- A refused request leaves every entry as it was. -/
theorem canRequest_eq_false (h : (canRequest states now key).1 = false) :
    JsMap.get (canRequest states now key).2 key' = JsMap.get states key' := by
  unfold canRequest at h ⊢
  cases hstate : state states now key with
  | closed => rfl
  | isOpen => rfl
  | halfOpen =>
    rw [hstate] at h
    dsimp only at h ⊢
    split at h
    · next hprobe =>
      rw [if_pos hprobe, JsMap.get_set]
      split
      · next hkey =>
        subst hkey
        cases hget : JsMap.get states key' with
        | none => rw [stateFor, hget] at hprobe; cases hprobe
        | some s => rw [stateFor_of_get hget]
      · rfl
    · cases h

theorem get_canRequest_of_ne (h : key' ≠ key) :
    JsMap.get (canRequest states now key).2 key' = JsMap.get states key' := by
  unfold canRequest
  split
  · rfl
  · rfl
  · dsimp only
    split <;> rw [JsMap.get_set, if_neg h]

/-- A half-open breaker without a probe admits. -/
theorem canRequest_halfOpen (h : state states now key = .halfOpen)
    (hprobe : probeInFlight states key = false) : (canRequest states now key).1 = true := by
  unfold canRequest
  rw [h]
  dsimp only
  have hentry : (stateFor states key).probeInFlight = false := by
    cases hget : JsMap.get states key with
    | none => rw [stateFor, hget]; rfl
    | some s => rwa [stateFor_of_get hget, ← probeInFlight_of_get hget]
  rw [if_neg (by simp [hentry])]

theorem get_recordSuccess :
    JsMap.get (recordSuccess states key) key' = if key' = key then none else JsMap.get states key' :=
  JsMap.get_delete

theorem get_recordFailure : JsMap.get (recordFailure states now key) key' =
    if key' = key then some (failed (stateFor states key) now) else JsMap.get states key' :=
  JsMap.get_set

theorem failed_of_open (h : s.openedAt = some t) :
    failed s now = { s with openedAt := some now, probeInFlight := false } := by
  rw [failed, h]
  rfl

/-- A closed breaker opens with the failure that reaches the threshold. -/
theorem failed_of_closed (now : Int) (h : s.openedAt = none) :
    (failed s now).failures = countFailure s now ∧ (failed s now).lastFailureAt = some now ∧
      ((failureThreshold ≤ countFailure s now ∧ (failed s now).openedAt = some now ∧
          (failed s now).probeInFlight = false) ∨
        (countFailure s now < failureThreshold ∧ (failed s now).openedAt = none ∧
          (failed s now).probeInFlight = s.probeInFlight)) := by
  unfold failed
  rw [h]
  by_cases hmany : countFailure s now ≥ failureThreshold
  · simp [hmany]
  · simp [hmany, Nat.lt_of_not_ge hmany]

end CircuitBreaker

end KasterCti.ArsLookup
