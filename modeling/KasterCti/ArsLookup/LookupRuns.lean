import KasterCti.ArsLookup.CircuitBreaker
import Mathlib

/-!
# Runs of external lookups

`ArsHttpLookupService` on one node. A call is cut at its awaits: the query for the
endpoint, what `perform` waits for, and the microtask between the return of `perform` and
the `finally` that gives the slot back. `perform` itself touches nothing shared before it
records its result, so it is one await. Calls of all endpoints interleave in any way.

Results:
1. `step_sound`: what every step keeps, for every endpoint.
2. `circuit_breaker_and_slots`: probes a minute apart, no probe flag without a call, slots
   counted, and the breaker opens with a fifth failure in a row.
-/

namespace KasterCti.ArsLookup

open CircuitBreaker

def maxConcurrency : Nat := 20

inductive LookupStatus
  | isMatch
  | noMatch
  | error
deriving DecidableEq

inductive LookupCode
  | isMatch
  | noMatch
  | disabled
  | endpointNotFound
  | breakerOpen
  | tooManyInFlight
  | httpError
  | badResponse
  | transportError
deriving DecidableEq

/-- The await that a call is in. -/
inductive LookupPhase
  | finding
  /-- In `perform`: it holds a slot and has recorded nothing. -/
  | performing
  /-- `perform` came back at `time`; without a code it has thrown behind its record. -/
  | settled (time : Int) (code : Option LookupCode)
deriving DecidableEq

/-- What happens to the breaker of an endpoint. -/
inductive LookupEvent
  | admitted (time : Int)
  | failed (time : Int)
  | opened (time : Int)
  | succeeded (time : Int)

/-- How `perform` ends. -/
inductive LookupReply
  | redirect
  | errorStatus
  | oversized
  /-- A body was read. `error` also stands for a body that is not JSON. -/
  | answered (status : LookupStatus)
  /-- A body was read, and what looks at it throws. -/
  | answeredThrows
  | throws

/-- A call that `runLookup` has not ended. -/
structure LookupCall where
  endpointId : String
  phase : LookupPhase
deriving DecidableEq

structure LookupWorld where
  now : Int
  breaker : EndpointStates
  inFlight : List (String × Nat)
  calls : List LookupCall
  outcomes : List (String × LookupCode)
  /-- What the breaker of each endpoint went through, the last first. -/
  history : String → List LookupEvent

inductive LookupAction
  | wait (ms : Nat)
  | lookup (endpointId : String) (enabled : Bool)
  /-- `findFirst` comes back. -/
  | found (endpointId : String) (isActive : Bool)
  | findThrows (endpointId : String)
  | perform (endpointId : String) (reply : LookupReply)
  | finish (endpointId : String) (time : Int) (code : Option LookupCode)

def slotsOf (inFlight : List (String × Nat)) (endpointId : String) : Nat :=
  (JsMap.get inFlight endpointId).getD 0

def acquireSlot (inFlight : List (String × Nat)) (endpointId : String) : Bool × List (String × Nat) :=
  let current := slotsOf inFlight endpointId
  if current ≥ maxConcurrency then (false, inFlight)
  else (true, JsMap.set inFlight endpointId (current + 1))

def releaseSlot (inFlight : List (String × Nat)) (endpointId : String) : List (String × Nat) :=
  let current := slotsOf inFlight endpointId
  if current ≤ 1 then JsMap.delete inFlight endpointId
  else JsMap.set inFlight endpointId (current - 1)

namespace LookupWorld

/-- A call goes on from one await to the next. -/
def move (w : LookupWorld) (endpointId : String) (phase phase' : LookupPhase) : LookupWorld :=
  { w with calls := ⟨endpointId, phase'⟩ :: w.calls.erase ⟨endpointId, phase⟩ }

/-- A call is over. -/
def answer (w : LookupWorld) (endpointId : String) (phase : LookupPhase) (code : LookupCode) :
    LookupWorld :=
  { w with
    calls := w.calls.erase ⟨endpointId, phase⟩
    outcomes := (endpointId, code) :: w.outcomes }

def note (w : LookupWorld) (endpointId : String) (events : List LookupEvent) : LookupWorld :=
  { w with history := Function.update w.history endpointId (events ++ w.history endpointId) }

def succeed (w : LookupWorld) (endpointId : String) : LookupWorld :=
  { w with breaker := recordSuccess w.breaker endpointId }.note endpointId [.succeeded w.now]

def fail (w : LookupWorld) (endpointId : String) : LookupWorld :=
  let breaker := recordFailure w.breaker w.now endpointId
  let opens := (openedAt w.breaker endpointId).isNone && (openedAt breaker endpointId).isSome
  { w with breaker }.note endpointId
    (if opens then [.opened w.now, .failed w.now] else [.failed w.now])

def release (w : LookupWorld) (endpointId : String) : LookupWorld :=
  { w with inFlight := releaseSlot w.inFlight endpointId }

/-- What `runLookup` does with the row that `findFirst` found. -/
def letIn (w : LookupWorld) (endpointId : String) : LookupWorld :=
  let (admitted, breaker) := canRequest w.breaker w.now endpointId
  let w := { w with breaker }
  if admitted then
    let w := w.note endpointId [.admitted w.now]
    let (acquired, inFlight) := acquireSlot w.inFlight endpointId
    if acquired then { w with inFlight }.move endpointId .finding .performing
    else w.answer endpointId .finding .tooManyInFlight
  else w.answer endpointId .finding .breakerOpen

/-- `perform` comes back; where it throws, the `catch` and the `finally` are one step. -/
def settle (w : LookupWorld) (endpointId : String) : LookupReply → LookupWorld
  | .redirect | .errorStatus =>
    (w.fail endpointId).move endpointId .performing (.settled w.now (some .httpError))
  | .oversized =>
    (w.fail endpointId).move endpointId .performing (.settled w.now (some .badResponse))
  | .answered status =>
    let code := match status with
      | .isMatch => .isMatch
      | .noMatch => .noMatch
      | .error => .badResponse
    (w.succeed endpointId).move endpointId .performing (.settled w.now (some code))
  | .answeredThrows =>
    (w.succeed endpointId).move endpointId .performing (.settled w.now none)
  | .throws =>
    ((w.fail endpointId).release endpointId).answer endpointId .performing .transportError

def finish (w : LookupWorld) (endpointId : String) (time : Int) : Option LookupCode → LookupWorld
  | some code => (w.release endpointId).answer endpointId (.settled time (some code)) code
  | none => ((w.fail endpointId).release endpointId).answer endpointId (.settled time none)
      .transportError

/-- A call that has come back reaches its `finally` in the next microtask. The clock may
move meanwhile, but not by the minute that a breaker stays open. -/
def waits (w : LookupWorld) (ms : Nat) : Bool :=
  w.calls.all fun call => match call.phase with
    | .settled time _ => w.now + ms < time + openMs
    | _ => true

end LookupWorld

/-- One step; a label that fits no call changes nothing. -/
def lookupStep (w : LookupWorld) : LookupAction → LookupWorld
  | .wait ms => if w.waits ms then { w with now := w.now + ms } else w
  | .lookup endpointId enabled =>
    if enabled then { w with calls := ⟨endpointId, .finding⟩ :: w.calls }
    else { w with outcomes := (endpointId, .disabled) :: w.outcomes }
  | .found endpointId isActive =>
    if (⟨endpointId, .finding⟩ : LookupCall) ∈ w.calls then
      if isActive then w.letIn endpointId else w.answer endpointId .finding .endpointNotFound
    else w
  | .findThrows endpointId => { w with calls := w.calls.erase ⟨endpointId, .finding⟩ }
  | .perform endpointId reply =>
    if (⟨endpointId, .performing⟩ : LookupCall) ∈ w.calls then w.settle endpointId reply else w
  | .finish endpointId time code =>
    if (⟨endpointId, .settled time code⟩ : LookupCall) ∈ w.calls then w.finish endpointId time code
    else w

/-- A process that starts at `now`. -/
def LookupWorld.start (now : Int) : LookupWorld := ⟨now, [], [], [], [], fun _ => []⟩

/-! ## What a run keeps -/

def LookupPhase.holds : LookupPhase → Bool
  | .finding => false
  | .performing | .settled _ _ => true

/-- The call is one of the endpoint, between `acquireSlot` and `releaseSlot`. -/
def LookupCall.running (endpointId : String) (call : LookupCall) : Bool :=
  call.endpointId = endpointId && call.phase.holds

/-- When requests were admitted, the last first. -/
def admissions (events : List LookupEvent) : List Int :=
  events.filterMap fun
    | .admitted time => some time
    | _ => none

/-- The results in a history: the time of a failure, `none` for a success. -/
def results (events : List LookupEvent) : List (Option Int) :=
  events.filterMap fun
    | .failed time => some (some time)
    | .succeeded _ => some none
    | _ => none

/-- The failures `times`, the last first, are the ones that count: none is more than the
window behind the one before, and what comes before them is no failure or is further
away. -/
def Streak (results : List (Option Int)) (times : List Int) : Prop :=
  ∃ before, results = times.map some ++ before ∧
    times.IsChain (fun later earlier => later - earlier ≤ failureWindowMs) ∧
    ∀ earlier, before.head? = some (some earlier) →
      ∃ first, times.getLast? = some first ∧ failureWindowMs < first - earlier

/-- No success among the events. -/
def Unbroken (events : List LookupEvent) : Prop := ∀ time, .succeeded time ∉ events

/-- Between an opening and the next success two admitted requests are a minute apart. -/
def ProbesApart (history : List LookupEvent) : Prop :=
  ∀ later between time earlier, history = later ++ between ++ .opened time :: earlier →
    Unbroken between →
      (admissions between).Pairwise fun second first => first + openMs ≤ second

/-- The breaker opens with the fifth failure of a streak. -/
def OpensOnFifth (history : List LookupEvent) : Prop :=
  ∀ later time earlier, history = later ++ .opened time :: earlier →
    ∃ times, Streak (results earlier) times ∧ times.length = failureThreshold ∧
      times.head? = some time

/-- The invariant, for one endpoint. -/
structure Sound (w : LookupWorld) (key : String) : Prop where
  slots : slotsOf w.inFlight key = w.calls.countP (·.running key)
  bounded : slotsOf w.inFlight key ≤ maxConcurrency
  counted : openedAt w.breaker key = none →
    (stateFor w.breaker key).failures < failureThreshold ∧
      ∃ times, Streak (results (w.history key)) times ∧
        times.length = (stateFor w.breaker key).failures ∧
        times.head? = (stateFor w.breaker key).lastFailureAt
  unprobed : openedAt w.breaker key = none → probeInFlight w.breaker key = false
  probed : probeInFlight w.breaker key = true → ⟨key, .performing⟩ ∈ w.calls
  opened_le : ∀ t, openedAt w.breaker key = some t → t ≤ w.now
  settled : ∀ time code, ⟨key, .settled time code⟩ ∈ w.calls →
    time ≤ w.now ∧ w.now < time + openMs ∧ ∀ t, openedAt w.breaker key = some t → time ≤ t
  since : ∀ between time earlier, w.history key = between ++ .opened time :: earlier →
    Unbroken between → ∃ t, openedAt w.breaker key = some t ∧
      ∀ a ∈ admissions between, a ≤ w.now ∧ (probeInFlight w.breaker key = false → a ≤ t)
  apart : ProbesApart (w.history key)
  fifth : OpensOnFifth (w.history key)

section Streaks

variable {rs : List (Option Int)} {times : List Int} {entry : EndpointState} {now : Int}

theorem streak_nil : Streak [] [] := ⟨[], rfl, .nil, nofun⟩

theorem streak_success : Streak (none :: rs) [] := ⟨none :: rs, rfl, .nil, nofun⟩

/-- One more failure, as the code counts it. -/
theorem Streak.failure (now : Int) (h : Streak rs times) (hlen : times.length = entry.failures)
    (hhead : times.head? = entry.lastFailureAt) :
    ∃ times', Streak (some now :: rs) times' ∧ times'.length = countFailure entry now ∧
      times'.head? = some now := by
  obtain ⟨before, hsplit, hchain, hbreak⟩ := h
  -- where the streak starts again, the failure before it is the last one of `rs`
  have hagain (hfar : ∀ last, rs.head? = some (some last) → failureWindowMs < now - last) :
      Streak (some now :: rs) [now] := by
    refine ⟨rs, rfl, .singleton now, ?_⟩
    intro earlier hearlier
    exact ⟨now, rfl, hfar earlier hearlier⟩
  cases times with
  | nil =>
    rw [List.head?_nil] at hhead
    refine ⟨[now], hagain ?_, ?_, rfl⟩
    · intro last hlast
      rw [hsplit, List.map_nil, List.nil_append] at hlast
      obtain ⟨first, hfirst, -⟩ := hbreak last hlast
      cases hfirst
    · rw [countFailure, ← hhead]
      rfl
  | cons last times =>
    rw [List.head?_cons] at hhead
    by_cases hfar : now - last > failureWindowMs
    · refine ⟨[now], hagain ?_, ?_, rfl⟩
      · intro last' hlast'
        rw [hsplit, List.map_cons, List.cons_append, List.head?_cons] at hlast'
        obtain rfl := Option.some.inj (Option.some.inj hlast')
        exact hfar
      · simp only [countFailure, ← hhead, if_pos hfar]
        rfl
    · refine ⟨now :: last :: times, ⟨before, ?_, ?_, ?_⟩, ?_, rfl⟩
      · rw [hsplit]
        rfl
      · exact List.isChain_cons_cons.mpr ⟨Int.not_lt.mp hfar, hchain⟩
      · intro earlier hearlier
        obtain ⟨first, hfirst, hgap⟩ := hbreak earlier hearlier
        exact ⟨first, by rwa [List.getLast?_cons_cons], hgap⟩
      · simp only [countFailure, ← hhead, if_neg hfar]
        rw [List.length_cons, hlen]

end Streaks

section Histories

variable {history : List LookupEvent} {event : LookupEvent} {now : Int}

theorem OpensOnFifth.cons (h : OpensOnFifth history) (hevent : ∀ time, event ≠ .opened time) :
    OpensOnFifth (event :: history) := by
  intro later time earlier hsplit
  cases later with
  | nil => exact absurd (List.cons.inj hsplit).1 (hevent time)
  | cons _ later => exact h later time earlier (List.cons.inj hsplit).2

theorem ProbesApart.cons (h : ProbesApart history)
    (hevent : ∀ between time earlier, history = between ++ LookupEvent.opened time :: earlier →
      Unbroken (event :: between) →
        (admissions (event :: between)).Pairwise fun second first => first + openMs ≤ second) :
    ProbesApart (event :: history) := by
  intro later between time earlier hsplit hunbroken
  cases later with
  | cons _ later => exact h later between time earlier (List.cons.inj hsplit).2 hunbroken
  | nil =>
    cases between with
    | nil => exact .nil
    | cons _ between =>
      obtain ⟨rfl, hrest⟩ := List.cons.inj hsplit
      exact hevent between time earlier hrest hunbroken

theorem Unbroken.tail {events : List LookupEvent} (h : Unbroken (event :: events)) :
    Unbroken events :=
  fun time hmem => h time (List.mem_cons_of_mem _ hmem)

/-- An event that admits nobody. -/
theorem ProbesApart.cons_of_not_admitted (h : ProbesApart history)
    (hevent : admissions [event] = []) : ProbesApart (event :: history) := by
  refine h.cons fun between time earlier hsplit hunbroken => ?_
  have hsame : admissions (event :: between) = admissions [event] ++ admissions between := by
    rw [admissions, ← List.singleton_append, List.filterMap_append]
    rfl
  rw [hsame, hevent]
  exact h [] between time earlier hsplit hunbroken.tail

/-- An admission a minute behind the ones since the opening. -/
theorem ProbesApart.cons_admitted (h : ProbesApart history)
    (hlate : ∀ between time earlier, history = between ++ LookupEvent.opened time :: earlier →
      Unbroken between → ∀ a ∈ admissions between, a + openMs ≤ now) :
    ProbesApart (.admitted now :: history) := by
  refine h.cons fun between time earlier hsplit hunbroken => ?_
  exact .cons (hlate between time earlier hsplit hunbroken.tail)
    (h [] between time earlier hsplit hunbroken.tail)

end Histories

/-! ## Endpoints do not touch each other -/

/-- The two worlds agree on what concerns the endpoint. -/
structure Same (key : String) (w w' : LookupWorld) : Prop where
  now : w'.now = w.now
  breaker : JsMap.get w'.breaker key = JsMap.get w.breaker key
  inFlight : JsMap.get w'.inFlight key = JsMap.get w.inFlight key
  calls : w'.calls.filter (·.endpointId = key) = w.calls.filter (·.endpointId = key)
  history : w'.history key = w.history key

namespace Same

variable {key key' : String} {w w' w'' : LookupWorld}

theorem trans (h : Same key w w') (h' : Same key w' w'') : Same key w w'' :=
  ⟨h'.now.trans h.now, h'.breaker.trans h.breaker, h'.inFlight.trans h.inFlight,
    h'.calls.trans h.calls, h'.history.trans h.history⟩

theorem mem_calls (h : Same key w w') {phase : LookupPhase} :
    ⟨key, phase⟩ ∈ w'.calls ↔ ⟨key, phase⟩ ∈ w.calls := by
  have hmem : ∀ calls : List LookupCall,
      ⟨key, phase⟩ ∈ calls ↔ ⟨key, phase⟩ ∈ calls.filter (·.endpointId = key) := by
    intro calls
    rw [List.mem_filter]
    exact ⟨fun h => ⟨h, decide_eq_true rfl⟩, And.left⟩
  rw [hmem, h.calls, ← hmem]

theorem countP_running (h : Same key w w') :
    w'.calls.countP (·.running key) = w.calls.countP (·.running key) := by
  have hcount : ∀ calls : List LookupCall, calls.countP (·.running key) =
      (calls.filter (·.endpointId = key)).countP (·.running key) := by
    intro calls
    rw [List.countP_filter]
    refine List.countP_congr fun call _ => ?_
    simp only [LookupCall.running, Bool.and_eq_true, decide_eq_true_eq]
    exact ⟨fun h => ⟨h, h.1⟩, And.left⟩
  rw [hcount, h.calls, ← hcount]

theorem sound (h : Same key w w') (hw : Sound w key) : Sound w' key := by
  have hopened : openedAt w'.breaker key = openedAt w.breaker key := by
    rw [openedAt, h.breaker, openedAt]
  have hprobe : probeInFlight w'.breaker key = probeInFlight w.breaker key := by
    rw [probeInFlight, h.breaker, probeInFlight]
  have hstate : stateFor w'.breaker key = stateFor w.breaker key := by
    rw [stateFor, h.breaker, stateFor]
  have hslots : slotsOf w'.inFlight key = slotsOf w.inFlight key := by
    rw [slotsOf, h.inFlight, slotsOf]
  constructor
  · rw [hslots, h.countP_running]; exact hw.slots
  · rw [hslots]; exact hw.bounded
  · rw [hopened, hstate, h.history]; exact hw.counted
  · rw [hopened, hprobe]; exact hw.unprobed
  · rw [hprobe, h.mem_calls]; exact hw.probed
  · rw [hopened, h.now]; exact hw.opened_le
  · intro time code hmem
    rw [hopened, h.now]
    exact hw.settled time code (h.mem_calls.mp hmem)
  · rw [h.history, hopened, hprobe, h.now]; exact hw.since
  · rw [h.history]; exact hw.apart
  · rw [h.history]; exact hw.fifth

section Others
variable (hne : key ≠ key')
include hne

theorem calls_erase (phase : LookupPhase) :
    (w.calls.erase ⟨key', phase⟩).filter (·.endpointId = key) =
      w.calls.filter (·.endpointId = key) := by
  rw [← List.erase_filter, List.erase_of_not_mem]
  intro hmem
  exact hne (of_decide_eq_true (List.mem_filter.mp hmem).2).symm

theorem move (phase phase' : LookupPhase) : Same key w (w.move key' phase phase') := by
  refine ⟨rfl, rfl, rfl, ?_, rfl⟩
  rw [LookupWorld.move, List.filter_cons_of_neg (by simpa using Ne.symm hne), calls_erase hne]

theorem answer (phase : LookupPhase) (code : LookupCode) : Same key w (w.answer key' phase code) :=
  ⟨rfl, rfl, rfl, calls_erase hne phase, rfl⟩

theorem note (events : List LookupEvent) : Same key w (w.note key' events) :=
  ⟨rfl, rfl, rfl, rfl, Function.update_of_ne hne _ _⟩

theorem succeed : Same key w (w.succeed key') :=
  ⟨rfl, by rw [LookupWorld.succeed, LookupWorld.note, get_recordSuccess, if_neg hne], rfl, rfl,
    Function.update_of_ne hne _ _⟩

theorem fail : Same key w (w.fail key') :=
  ⟨rfl, by rw [LookupWorld.fail, LookupWorld.note, get_recordFailure, if_neg hne], rfl, rfl,
    Function.update_of_ne hne _ _⟩

theorem release : Same key w (w.release key') := by
  refine ⟨rfl, rfl, ?_, rfl, rfl⟩
  unfold LookupWorld.release releaseSlot
  dsimp only
  split
  · rw [JsMap.get_delete, if_neg hne]
  · rw [JsMap.get_set, if_neg hne]

theorem get_acquireSlot (inFlight : List (String × Nat)) :
    JsMap.get (acquireSlot inFlight key').2 key = JsMap.get inFlight key := by
  unfold acquireSlot
  dsimp only
  split
  · rfl
  · rw [JsMap.get_set, if_neg hne]

theorem letIn : Same key w (w.letIn key') := by
  have hrequest : Same key w { w with breaker := (canRequest w.breaker w.now key').2 } :=
    ⟨rfl, get_canRequest_of_ne hne, rfl, rfl, rfl⟩
  unfold LookupWorld.letIn
  dsimp only
  split
  · refine hrequest.trans ((note hne [.admitted w.now]).trans ?_)
    split
    · refine Same.trans ?_ (move hne .finding .performing)
      exact ⟨rfl, rfl, get_acquireSlot hne w.inFlight, rfl, rfl⟩
    · exact answer hne .finding .tooManyInFlight
  · exact hrequest.trans (answer hne .finding .breakerOpen)

theorem settle (reply : LookupReply) : Same key w (w.settle key' reply) := by
  cases reply with
  | redirect => exact (fail hne).trans (move hne _ _)
  | errorStatus => exact (fail hne).trans (move hne _ _)
  | oversized => exact (fail hne).trans (move hne _ _)
  | answered status => exact (succeed hne).trans (move hne _ _)
  | answeredThrows => exact (succeed hne).trans (move hne _ _)
  | throws => exact (fail hne).trans ((release hne).trans (answer hne _ _))

theorem finish (time : Int) (code : Option LookupCode) :
    Same key w (w.finish key' time code) := by
  cases code with
  | some code => exact (release hne).trans (answer hne _ _)
  | none => exact (fail hne).trans ((release hne).trans (answer hne _ _))

end Others

end Same

/-! ## The endpoint that a step is about -/

namespace Sound

variable {w : LookupWorld} {key : String} {phase : LookupPhase}

/-- Where nothing but the calls changes. -/
theorem calls (h : Sound w key) {calls : List LookupCall} {outcomes : List (String × LookupCode)}
    (hcount : calls.countP (·.running key) = w.calls.countP (·.running key))
    (hperforming : ⟨key, .performing⟩ ∈ w.calls → ⟨key, .performing⟩ ∈ calls)
    (hsettled : ∀ time code, ⟨key, .settled time code⟩ ∈ calls →
      ⟨key, .settled time code⟩ ∈ w.calls) :
    Sound { w with calls := calls, outcomes := outcomes } key := by
  refine ⟨?_, h.bounded, h.counted, h.unprobed, fun hprobe => hperforming (h.probed hprobe),
    h.opened_le, fun time code hmem => h.settled time code (hsettled time code hmem), h.since,
    h.apart, h.fifth⟩
  rw [hcount]
  exact h.slots

theorem start (h : Sound w key) : Sound { w with calls := ⟨key, .finding⟩ :: w.calls } key := by
  refine h.calls (List.countP_cons_of_neg (by simp [LookupCall.running, LookupPhase.holds])) ?_ ?_
  · exact List.mem_cons_of_mem _
  · intro time code hmem
    rcases List.mem_cons.mp hmem with heq | hmem
    · cases heq
    · exact hmem

/-- A call that holds no slot is over. -/
theorem giveUp (h : Sound w key) (outcomes : List (String × LookupCode)) :
    Sound { w with calls := w.calls.erase ⟨key, .finding⟩, outcomes := outcomes } key := by
  refine h.calls ?_ ?_ fun time code hmem => List.mem_of_mem_erase hmem
  · rw [List.countP_erase, if_neg (by simp [LookupCall.running, LookupPhase.holds])]
    rfl
  · intro hmem
    rwa [List.mem_erase_of_ne (by simp)]

theorem succeed (h : Sound w key) : Sound (w.succeed key) key ∧
    openedAt (w.succeed key).breaker key = none ∧
    probeInFlight (w.succeed key).breaker key = false := by
  have hget : JsMap.get (w.succeed key).breaker key = none := by
    rw [LookupWorld.succeed, LookupWorld.note, get_recordSuccess, if_pos rfl]
  have hopened : openedAt (w.succeed key).breaker key = none := by rw [openedAt, hget]; rfl
  have hprobe : probeInFlight (w.succeed key).breaker key = false := by
    rw [probeInFlight, hget]
    rfl
  have hstate : stateFor (w.succeed key).breaker key = created := by rw [stateFor, hget]; rfl
  have hhistory : (w.succeed key).history key = .succeeded w.now :: w.history key :=
    Function.update_self ..
  refine ⟨⟨h.slots, h.bounded, ?_, fun _ => hprobe, ?_, ?_, ?_, ?_, ?_, ?_⟩, hopened, hprobe⟩
  · intro _
    rw [hstate, hhistory]
    exact ⟨by decide, [], streak_success, rfl, rfl⟩
  · rw [hprobe]
    rintro ⟨⟩
  · rw [hopened]
    rintro t ⟨⟩
  · intro time code hmem
    obtain ⟨hle, hlt, -⟩ := h.settled time code hmem
    rw [hopened]
    exact ⟨hle, hlt, (by rintro t ⟨⟩)⟩
  · intro between time earlier hsplit hunbroken
    rw [hhistory] at hsplit
    cases between with
    | nil => cases hsplit
    | cons event between =>
      obtain ⟨rfl, -⟩ := List.cons.inj hsplit
      exact absurd List.mem_cons_self (hunbroken w.now)
  · rw [hhistory]
    exact h.apart.cons_of_not_admitted rfl
  · rw [hhistory]
    exact h.fifth.cons (by rintro t ⟨⟩)

/-- A failure of a breaker that is open starts the minute again. -/
theorem fail_open (h : Sound w key) {t : Int} (ht : openedAt w.breaker key = some t) :
    Sound (w.fail key) key ∧ openedAt (w.fail key).breaker key = some w.now ∧
      probeInFlight (w.fail key).breaker key = false := by
  obtain ⟨s, hs, hst⟩ := get_of_openedAt ht
  have hget : JsMap.get (w.fail key).breaker key =
      some { s with openedAt := some w.now, probeInFlight := false } := by
    rw [LookupWorld.fail, LookupWorld.note, get_recordFailure, if_pos rfl, stateFor_of_get hs,
      failed_of_open hst]
  have hopened : openedAt (w.fail key).breaker key = some w.now := openedAt_of_get hget
  have hprobe : probeInFlight (w.fail key).breaker key = false := probeInFlight_of_get hget
  have hhistory : (w.fail key).history key = .failed w.now :: w.history key := by
    refine (Function.update_self ..).trans ?_
    rw [ht]
    rfl
  refine ⟨⟨h.slots, h.bounded, ?_, ?_, ?_, ?_, ?_, ?_, ?_, ?_⟩, hopened, hprobe⟩
  · rw [hopened]
    exact nofun
  · rw [hopened]
    exact nofun
  · rw [hprobe]
    exact nofun
  · rw [hopened]
    rintro t' ⟨⟩
    exact Int.le_refl w.now
  · intro time code hmem
    obtain ⟨hle, hlt, -⟩ := h.settled time code hmem
    rw [hopened]
    exact ⟨hle, hlt, by rintro t' ⟨⟩; exact hle⟩
  · intro between time earlier hsplit hunbroken
    rw [hhistory] at hsplit
    cases between with
    | nil => cases hsplit
    | cons event between =>
      obtain ⟨rfl, hrest⟩ := List.cons.inj hsplit
      obtain ⟨t', -, hall⟩ := h.since between time earlier hrest hunbroken.tail
      exact ⟨w.now, hopened, fun a ha => ⟨(hall a ha).1, fun _ => (hall a ha).1⟩⟩
  · rw [hhistory]
    exact h.apart.cons_of_not_admitted rfl
  · rw [hhistory]
    exact h.fifth.cons nofun

/-- A failure of a closed breaker counts, and the fifth opens it. -/
theorem fail_closed (h : Sound w key) (hclosed : openedAt w.breaker key = none) :
    Sound (w.fail key) key ∧ (∀ t, openedAt (w.fail key).breaker key = some t → t = w.now) ∧
      probeInFlight (w.fail key).breaker key = false := by
  have hget : JsMap.get (w.fail key).breaker key =
      some (failed (stateFor w.breaker key) w.now) := by
    rw [LookupWorld.fail, LookupWorld.note, get_recordFailure, if_pos rfl]
  have hentry : (stateFor w.breaker key).openedAt = none := stateFor_openedAt.trans hclosed
  obtain ⟨hfailures, hlast, hends⟩ := failed_of_closed w.now hentry
  obtain ⟨hfew, times, hstreak, hlength, hhead⟩ := h.counted hclosed
  obtain ⟨times', hstreak', hlength', hhead'⟩ := hstreak.failure w.now hlength hhead
  have hopened : openedAt (w.fail key).breaker key =
      (failed (stateFor w.breaker key) w.now).openedAt := openedAt_of_get hget
  have hprobe : probeInFlight (w.fail key).breaker key =
      (failed (stateFor w.breaker key) w.now).probeInFlight := probeInFlight_of_get hget
  have hstate : stateFor (w.fail key).breaker key = failed (stateFor w.breaker key) w.now :=
    stateFor_of_get hget
  -- no opening is still in force
  have hnone (between time earlier)
      (hsplit : w.history key = between ++ LookupEvent.opened time :: earlier)
      (hunbroken : Unbroken between) : False := by
    obtain ⟨t, ht, -⟩ := h.since between time earlier hsplit hunbroken
    rw [hclosed] at ht
    cases ht
  have hfew' : countFailure (stateFor w.breaker key) w.now ≤ failureThreshold := by
    unfold countFailure
    split
    · decide
    · split
      · decide
      · exact hfew
  rcases hends with ⟨hmany, hopens, hquiet⟩ | ⟨hless, hstays, hquiet⟩
  · have hhistory : (w.fail key).history key = .opened w.now :: .failed w.now :: w.history key := by
      refine (Function.update_self ..).trans ?_
      have hafter : openedAt (recordFailure w.breaker w.now key) key = some w.now :=
        hopened.trans hopens
      rw [hclosed, hafter]
      rfl
    rw [hopens] at hopened
    rw [hquiet] at hprobe
    refine ⟨⟨h.slots, h.bounded, ?_, ?_, ?_, ?_, ?_, ?_, ?_, ?_⟩, ?_, hprobe⟩
    · rw [hopened]
      rintro ⟨⟩
    · rw [hopened]
      rintro ⟨⟩
    · rw [hprobe]
      rintro ⟨⟩
    · rw [hopened]
      rintro t' ⟨⟩
      exact Int.le_refl w.now
    · intro time code hmem
      obtain ⟨hle, hlt, -⟩ := h.settled time code hmem
      rw [hopened]
      exact ⟨hle, hlt, by rintro t' ⟨⟩; exact hle⟩
    · intro between time earlier hsplit hunbroken
      rw [hhistory] at hsplit
      cases between with
      | nil => exact ⟨w.now, hopened, (by rintro t ⟨⟩)⟩
      | cons event between =>
        obtain ⟨rfl, hrest⟩ := List.cons.inj hsplit
        cases between with
        | nil => cases hrest
        | cons event between =>
          exact absurd (List.cons.inj hrest).2
            fun hsplit => hnone between time earlier hsplit hunbroken.tail.tail
    · rw [hhistory]
      exact (h.apart.cons_of_not_admitted rfl).cons_of_not_admitted rfl
    · rw [hhistory]
      intro later time earlier hsplit
      cases later with
      | nil =>
        obtain ⟨heq, rfl⟩ := List.cons.inj hsplit
        cases heq
        exact ⟨times', hstreak', hlength'.trans (Nat.le_antisymm hfew' hmany), hhead'⟩
      | cons event later =>
        have hbefore : OpensOnFifth (.failed w.now :: w.history key) := h.fifth.cons (by rintro t ⟨⟩)
        exact hbefore later time earlier (List.cons.inj hsplit).2
    · rw [hopened]
      intro t' ht'
      exact (Option.some.inj ht').symm
  · have hhistory : (w.fail key).history key = .failed w.now :: w.history key := by
      refine (Function.update_self ..).trans ?_
      have hafter : openedAt (recordFailure w.breaker w.now key) key = none :=
        hopened.trans hstays
      rw [hclosed, hafter]
      rfl
    have hcalm : (stateFor w.breaker key).probeInFlight = false := by
      have hbefore := h.unprobed hclosed
      cases hget : JsMap.get w.breaker key with
      | none => rw [stateFor, hget]; rfl
      | some s => rwa [stateFor_of_get hget, ← probeInFlight_of_get hget]
    rw [hstays] at hopened
    rw [hquiet, hcalm] at hprobe
    refine ⟨⟨h.slots, h.bounded, ?_, fun _ => hprobe, ?_, ?_, ?_, ?_, ?_, ?_⟩, ?_, hprobe⟩
    · intro _
      rw [hstate, hfailures, hlast, hhistory]
      exact ⟨hless, times', hstreak', hlength', hhead'⟩
    · rw [hprobe]
      rintro ⟨⟩
    · rw [hopened]
      rintro t ⟨⟩
    · intro time code hmem
      obtain ⟨hle, hlt, -⟩ := h.settled time code hmem
      rw [hopened]
      exact ⟨hle, hlt, (by rintro t ⟨⟩)⟩
    · intro between time earlier hsplit hunbroken
      rw [hhistory] at hsplit
      cases between with
      | nil => cases hsplit
      | cons event between =>
        exact absurd (List.cons.inj hsplit).2
          fun hsplit => hnone between time earlier hsplit hunbroken.tail
    · rw [hhistory]
      exact h.apart.cons_of_not_admitted rfl
    · rw [hhistory]
      exact h.fifth.cons (by rintro t ⟨⟩)
    · rw [hopened]
      rintro t ⟨⟩

theorem fail (h : Sound w key) : Sound (w.fail key) key ∧
    (∀ t, openedAt (w.fail key).breaker key = some t → w.now ≤ t) ∧
    probeInFlight (w.fail key).breaker key = false := by
  cases hopened : openedAt w.breaker key with
  | none =>
    obtain ⟨hsound, hat, hprobe⟩ := h.fail_closed hopened
    exact ⟨hsound, fun t ht => Int.le_of_eq (hat t ht).symm, hprobe⟩
  | some t =>
    obtain ⟨hsound, hat, hprobe⟩ := h.fail_open hopened
    refine ⟨hsound, ?_, hprobe⟩
    rw [hat]
    rintro t' ⟨⟩
    exact Int.le_refl w.now

/-- The call has recorded its result and comes back. -/
theorem comeBack (h : Sound w key) (hmem : ⟨key, .performing⟩ ∈ w.calls)
    (hopened : ∀ t, openedAt w.breaker key = some t → w.now ≤ t)
    (hprobe : probeInFlight w.breaker key = false) (code : Option LookupCode) :
    Sound (w.move key .performing (.settled w.now code)) key := by
  refine ⟨?_, h.bounded, h.counted, h.unprobed, ?_, h.opened_le, ?_, h.since, h.apart, h.fifth⟩
  · have hpos : 0 < w.calls.countP (·.running key) := List.countP_pos_iff.mpr
      ⟨_, hmem, by simp [LookupCall.running, LookupPhase.holds]⟩
    rw [LookupWorld.move, List.countP_cons_of_pos (by simp [LookupCall.running, LookupPhase.holds]),
      List.countP_erase, if_pos ⟨hmem, by simp [LookupCall.running, LookupPhase.holds]⟩]
    rw [Nat.sub_add_cancel hpos]
    exact h.slots
  · intro hraised
    exact absurd (hprobe.symm.trans hraised) (by decide)
  · intro time code' hsettled
    rcases List.mem_cons.mp hsettled with heq | hsettled
    · cases heq
      exact ⟨Int.le_refl w.now, Int.lt_add_of_pos_right w.now (by decide), hopened⟩
    · exact h.settled time code' (List.mem_of_mem_erase hsettled)

theorem slotsOf_releaseSlot (inFlight : List (String × Nat)) :
    slotsOf (releaseSlot inFlight key) key = slotsOf inFlight key - 1 := by
  unfold releaseSlot
  dsimp only
  split
  · next hlast =>
    rw [slotsOf, JsMap.get_delete, if_pos rfl]
    exact (Nat.sub_eq_zero_of_le hlast).symm
  · rw [slotsOf, JsMap.get_set, if_pos rfl]
    rfl

/-- A call gives its slot back and is over. -/
theorem leave (h : Sound w key) (hmem : ⟨key, phase⟩ ∈ w.calls) (hholds : phase.holds = true)
    (hprobe : phase = .performing → probeInFlight w.breaker key = false) (code : LookupCode) :
    Sound ((w.release key).answer key phase code) key := by
  have hslots : slotsOf (releaseSlot w.inFlight key) key = slotsOf w.inFlight key - 1 :=
    slotsOf_releaseSlot w.inFlight
  refine ⟨?_, ?_, h.counted, h.unprobed, ?_, h.opened_le,
    fun time code hsettled => h.settled time code (List.mem_of_mem_erase hsettled), h.since,
    h.apart, h.fifth⟩
  · refine hslots.trans ?_
    rw [LookupWorld.answer, List.countP_erase,
      if_pos ⟨hmem, by simp [LookupCall.running, hholds]⟩, h.slots]
    rfl
  · exact (Nat.le_of_eq hslots).trans ((Nat.sub_le _ 1).trans h.bounded)
  · intro hraised
    have hthere := h.probed hraised
    by_cases hphase : phase = .performing
    · exact absurd ((hprobe hphase).symm.trans hraised) (by decide)
    · exact (List.mem_erase_of_ne (by simpa using Ne.symm hphase)).mpr hthere

theorem settle (h : Sound w key) (hmem : ⟨key, .performing⟩ ∈ w.calls) (reply : LookupReply) :
    Sound (w.settle key reply) key := by
  obtain ⟨hfail, hopened, hprobe⟩ := h.fail
  obtain ⟨hsucceed, hclosed, hcalm⟩ := h.succeed
  have hnever (t) (ht : openedAt (w.succeed key).breaker key = some t) : w.now ≤ t := by
    rw [hclosed] at ht
    cases ht
  cases reply with
  | redirect => exact hfail.comeBack hmem hopened hprobe _
  | errorStatus => exact hfail.comeBack hmem hopened hprobe _
  | oversized => exact hfail.comeBack hmem hopened hprobe _
  | answered status => exact hsucceed.comeBack hmem hnever hcalm _
  | answeredThrows => exact hsucceed.comeBack hmem hnever hcalm _
  | throws => exact hfail.leave hmem rfl (fun _ => hprobe) _

theorem finish (h : Sound w key) {time : Int} {code : Option LookupCode}
    (hmem : ⟨key, .settled time code⟩ ∈ w.calls) : Sound (w.finish key time code) key := by
  cases code with
  | some code => exact h.leave hmem rfl nofun code
  | none => exact h.fail.1.leave hmem rfl nofun _

/-- An admitted request, where a probe has a call behind it. -/
theorem mark (h : Sound w key) (hadmits : (canRequest w.breaker w.now key).1 = true)
    (hthere : ∀ t, openedAt w.breaker key = some t → t + openMs ≤ w.now →
      ⟨key, .performing⟩ ∈ w.calls) :
    Sound ({ w with breaker := (canRequest w.breaker w.now key).2 }.note key [.admitted w.now])
      key := by
  have hhistory : ({ w with breaker := (canRequest w.breaker w.now key).2 }.note key
      [.admitted w.now]).history key = .admitted w.now :: w.history key := Function.update_self ..
  rcases canRequest_eq_true hadmits with ⟨hclosed, hsame⟩ | ⟨s, t, hs, hst, hpast, hcalm, hset⟩
  · have hnone (between time earlier)
        (hsplit : w.history key = between ++ LookupEvent.opened time :: earlier)
        (hunbroken : Unbroken between) : False := by
      obtain ⟨t, ht, -⟩ := h.since between time earlier hsplit hunbroken
      rw [hclosed] at ht
      cases ht
    rw [hsame] at hhistory ⊢
    refine ⟨h.slots, h.bounded, ?_, h.unprobed, h.probed, h.opened_le, h.settled, ?_, ?_, ?_⟩
    · rw [hhistory]
      exact h.counted
    · intro between time earlier hsplit hunbroken
      rw [hhistory] at hsplit
      cases between with
      | nil => cases hsplit
      | cons event between =>
        exact absurd (List.cons.inj hsplit).2
          fun hsplit => hnone between time earlier hsplit hunbroken.tail
    · rw [hhistory]
      exact h.apart.cons_admitted fun between time earlier hsplit hunbroken =>
        absurd hunbroken fun hunbroken => hnone between time earlier hsplit hunbroken
    · rw [hhistory]
      exact h.fifth.cons nofun
  · have hopened : openedAt w.breaker key = some t := (openedAt_of_get hs).trans hst
    have hget : JsMap.get (canRequest w.breaker w.now key).2 key =
        some { s with probeInFlight := true } := by
      rw [hset, JsMap.get_set, if_pos rfl]
    have hopened' : openedAt (canRequest w.breaker w.now key).2 key = some t :=
      (openedAt_of_get hget).trans hst
    have hprobe' : probeInFlight (canRequest w.breaker w.now key).2 key = true :=
      probeInFlight_of_get hget
    have hquiet : probeInFlight w.breaker key = false := (probeInFlight_of_get hs).trans hcalm
    refine ⟨h.slots, h.bounded, fun hclosed => ?_, fun hclosed => ?_,
      fun _ => hthere t hopened hpast, ?_, ?_, ?_, ?_, ?_⟩
    · cases hopened'.symm.trans hclosed
    · cases hopened'.symm.trans hclosed
    · intro t' ht'
      exact h.opened_le t' (hopened.trans (hopened'.symm.trans ht'))
    · intro time code hmem
      obtain ⟨hle, hlt, hall⟩ := h.settled time code hmem
      exact ⟨hle, hlt, fun t' ht' => hall t' (hopened.trans (hopened'.symm.trans ht'))⟩
    · intro between time earlier hsplit hunbroken
      rw [hhistory] at hsplit
      refine ⟨t, hopened', fun a ha => ?_⟩
      have hraised (hlow : probeInFlight (canRequest w.breaker w.now key).2 key = false) :
          a ≤ t := absurd (hprobe'.symm.trans hlow) (by decide)
      refine ⟨?_, hraised⟩
      cases between with
      | nil => cases hsplit
      | cons event between =>
        obtain ⟨rfl, hrest⟩ := List.cons.inj hsplit
        obtain ⟨t', -, hall⟩ := h.since between time earlier hrest hunbroken.tail
        rcases List.mem_cons.mp ha with rfl | ha
        · exact Int.le_refl w.now
        · exact (hall a ha).1
    · rw [hhistory]
      refine h.apart.cons_admitted fun between time earlier hsplit hunbroken a ha => ?_
      obtain ⟨t', ht', hall⟩ := h.since between time earlier hsplit hunbroken
      obtain rfl := Option.some.inj (hopened.symm.trans ht')
      have hle := (hall a ha).2 hquiet
      omega
    · rw [hhistory]
      exact h.fifth.cons nofun

/-- A call takes a slot. -/
theorem enter (h : Sound w key) (hfree : slotsOf w.inFlight key < maxConcurrency) :
    Sound ({ w with inFlight := JsMap.set w.inFlight key (slotsOf w.inFlight key + 1) }.move key
      .finding .performing) key := by
  have hslots : slotsOf (JsMap.set w.inFlight key (slotsOf w.inFlight key + 1)) key =
      slotsOf w.inFlight key + 1 := by
    rw [slotsOf, JsMap.get_set, if_pos rfl]
    rfl
  refine ⟨hslots.trans ?_, (Nat.le_of_eq hslots).trans hfree, h.counted, h.unprobed,
    fun _ => List.mem_cons_self, h.opened_le, ?_, h.since, h.apart, h.fifth⟩
  · rw [LookupWorld.move, List.countP_cons_of_pos (by simp [LookupCall.running, LookupPhase.holds]),
      List.countP_erase, if_neg (by simp [LookupCall.running, LookupPhase.holds]), h.slots]
    rfl
  · intro time code hsettled
    rcases List.mem_cons.mp hsettled with heq | hsettled
    · cases heq
    · exact h.settled time code (List.mem_of_mem_erase hsettled)

/-- Where every slot is taken and the minute of an open breaker is over, one of the calls
has yet to record its result. -/
theorem performing_of_full (h : Sound w key) (hfull : maxConcurrency ≤ slotsOf w.inFlight key)
    {t : Int} (ht : openedAt w.breaker key = some t) (hpast : t + openMs ≤ w.now) :
    ⟨key, .performing⟩ ∈ w.calls := by
  rw [h.slots] at hfull
  obtain ⟨call, hmem, hrunning⟩ :=
    List.countP_pos_iff.mp (Nat.lt_of_lt_of_le (by decide) hfull)
  obtain ⟨id, phase⟩ := call
  obtain ⟨hid, hholds⟩ := Bool.and_eq_true_iff.mp hrunning
  obtain rfl : id = key := of_decide_eq_true hid
  cases phase with
  | finding => cases hholds
  | performing => exact hmem
  | settled time code =>
    obtain ⟨-, hlt, hopened⟩ := h.settled time code hmem
    have hle := hopened t ht
    omega

theorem letIn (h : Sound w key) : Sound (w.letIn key) key := by
  unfold LookupWorld.letIn acquireSlot
  dsimp only
  cases hadmits : (canRequest w.breaker w.now key).1 with
  | false =>
    have hsame : Same key w { w with breaker := (canRequest w.breaker w.now key).2 } :=
      ⟨rfl, canRequest_eq_false hadmits, rfl, rfl, rfl⟩
    exact (hsame.sound h).giveUp _
  | true =>
    rw [if_pos rfl]
    split
    · next hfull =>
      have hmark := h.mark hadmits fun t ht hpast => h.performing_of_full hfull ht hpast
      exact hmark.giveUp _
    · next hfree =>
      have henter := h.enter (Nat.lt_of_not_ge hfree)
      exact henter.mark hadmits fun _ _ _ => List.mem_cons_self

theorem wait (h : Sound w key) {ms : Nat} (hwaits : w.waits ms = true) :
    Sound { w with now := w.now + ms } key := by
  refine ⟨h.slots, h.bounded, h.counted, h.unprobed, h.probed, ?_, ?_, ?_, h.apart, h.fifth⟩
  · intro t ht
    have hle := h.opened_le t ht
    dsimp only
    omega
  · intro time code hmem
    obtain ⟨hle, -, hopened⟩ := h.settled time code hmem
    have hlt := List.all_eq_true.mp hwaits _ hmem
    simp only [decide_eq_true_eq] at hlt
    exact ⟨by dsimp only; omega, hlt, hopened⟩
  · intro between time earlier hsplit hunbroken
    obtain ⟨t, ht, hall⟩ := h.since between time earlier hsplit hunbroken
    refine ⟨t, ht, fun a ha => ?_⟩
    obtain ⟨hle, hprobe⟩ := hall a ha
    exact ⟨by dsimp only; omega, hprobe⟩

end Sound

theorem sound_start (now : Int) (key : String) : Sound (LookupWorld.start now) key := by
  have hfew : created.failures < failureThreshold := by decide
  refine ⟨rfl, Nat.zero_le _, fun _ => ⟨hfew, [], streak_nil, rfl, rfl⟩, fun _ => rfl, nofun,
    nofun, nofun, ?_, ?_, ?_⟩
  · intro between time earlier hsplit
    cases between <;> cases hsplit
  · intro later between time earlier hsplit
    cases later <;> cases between <;> cases hsplit
  · intro later time earlier hsplit
    cases later <;> cases hsplit

/-- Every step keeps the invariant of every endpoint. -/
theorem step_sound {w : LookupWorld} {key : String} (h : Sound w key) (action : LookupAction) :
    Sound (lookupStep w action) key := by
  cases action with
  | wait ms =>
    rw [lookupStep]
    split
    · next hwaits => exact h.wait hwaits
    · exact h
  | lookup id enabled =>
    rw [lookupStep]
    split
    · by_cases hid : key = id
      · exact hid ▸ (hid ▸ h : Sound w id).start
      · have hsame : Same key w { w with calls := ⟨id, .finding⟩ :: w.calls } :=
          ⟨rfl, rfl, rfl, List.filter_cons_of_neg (by simpa using Ne.symm hid), rfl⟩
        exact hsame.sound h
    · have hsame : Same key w { w with outcomes := (id, .disabled) :: w.outcomes } :=
        ⟨rfl, rfl, rfl, rfl, rfl⟩
      exact hsame.sound h
  | found id isActive =>
    rw [lookupStep]
    split
    · next hmem =>
      by_cases hid : key = id
      · subst hid
        split
        · exact h.letIn
        · exact h.giveUp _
      · split
        · exact (Same.letIn hid).sound h
        · exact (Same.answer hid _ _).sound h
    · exact h
  | findThrows id =>
    by_cases hid : key = id
    · subst hid
      exact h.giveUp _
    · have hsame : Same key w { w with calls := w.calls.erase ⟨id, .finding⟩ } :=
        ⟨rfl, rfl, rfl, Same.calls_erase hid _, rfl⟩
      exact hsame.sound h
  | perform id reply =>
    rw [lookupStep]
    split
    · next hmem =>
      by_cases hid : key = id
      · subst hid
        exact h.settle hmem reply
      · exact (Same.settle hid reply).sound h
    · exact h
  | finish id time code =>
    rw [lookupStep]
    split
    · next hmem =>
      by_cases hid : key = id
      · subst hid
        exact h.finish hmem
      · exact (Same.finish hid time code).sound h
    · exact h

theorem run_sound {w : LookupWorld} {key : String} (h : Sound w key) (actions : List LookupAction) :
    Sound (actions.foldl lookupStep w) key := by
  induction actions generalizing w with
  | nil => exact h
  | cons action actions ih => exact ih (step_sound h action)

/-- In every run, for every endpoint: probes are a minute apart; without a running call no
probe flag is up, so that a half-open breaker admits; the counter is the number of slots in
use and at most twenty; and the breaker opens with the fifth failure of a streak. -/
theorem circuit_breaker_and_slots (now : Int) (actions : List LookupAction) (key : String) :
    let w := actions.foldl lookupStep (LookupWorld.start now)
    ProbesApart (w.history key) ∧
      ((∀ call ∈ w.calls, call.running key = false) →
        probeInFlight w.breaker key = false ∧
          (state w.breaker w.now key = .halfOpen → (canRequest w.breaker w.now key).1 = true)) ∧
      (slotsOf w.inFlight key = w.calls.countP (·.running key) ∧
        slotsOf w.inFlight key ≤ maxConcurrency) ∧
      OpensOnFifth (w.history key) := by
  intro w
  have h : Sound w key := run_sound (sound_start now key) actions
  refine ⟨h.apart, fun hidle => ?_, ⟨h.slots, h.bounded⟩, h.fifth⟩
  have hprobe : probeInFlight w.breaker key = false := by
    rw [← Bool.not_eq_true]
    intro hraised
    have hrunning := hidle _ (h.probed hraised)
    simp [LookupCall.running, LookupPhase.holds] at hrunning
  exact ⟨hprobe, fun hhalf => canRequest_halfOpen hhalf hprobe⟩

end KasterCti.ArsLookup
