import KasterCti.Library.Expiring
import KasterCti.Library.JsMap
import KasterCti.Library.JsText
import KasterCti.Library.Trace
import Mathlib

/-!
# Blocks for SIP abuse

`SipSecurityService.applySignal`, cut at its Redis commands. Signals interleave in any way,
and each may stop at any command: the process crashes or Redis throws. Counters get their
expiry from a second command, the set of an address gets a new one with every signal.

Results:
1. `sipStep_sound`: what every step keeps when no counter and no set is found that has
   outlived its window.
2. `blocks_need_abuse`: in a run of such steps every block is there for as many signals, or
   numbers, as its threshold asks for, within one window.
3. `slow_signals_blocked`: a crash behind `INCR`, and a set whose expiry is renewed.
-/

namespace KasterCti.SipSecurity

open Expiring Trace

/-! ## Signals and configuration -/

/-- What `numberCandidate` lets through. -/
structure SipNumber where
  text : String
  digits : ∀ c ∈ text.toList, JsText.isDigit c = true
  length : 2 ≤ text.toList.length ∧ text.toList.length ≤ 32
deriving DecidableEq

/-- What `ipCandidate` lets through. -/
structure SipAddress where
  text : String
  nonempty : text ≠ ""
deriving DecidableEq

/-- The fields that the detector reads. -/
structure SipSecuritySignal where
  tenantId : String
  sourceIp : Option SipAddress
  sourceNumber : Option SipNumber
  targetNumber : Option SipNumber
  eventName : String
  securityEvent : Option String

/-- `signal.sourceNumber ?? signal.targetNumber` -/
def SipSecuritySignal.marker (signal : SipSecuritySignal) : Option SipNumber :=
  signal.sourceNumber.or signal.targetNumber

/-- The variables that hold an integer. -/
abbrev Env := String → Option Int

def positiveInt (env : Env) (key : String) (fallback : Nat) : Nat :=
  match env key with
  | some value => if value > 0 then value.toNat else fallback
  | none => fallback

section Config
variable (env : Env)

def numberWindowSeconds : Nat := positiveInt env "SIP_SECURITY_NUMBER_WINDOW_SECONDS" 60

def numberThreshold : Nat := positiveInt env "SIP_SECURITY_NUMBER_THRESHOLD" 5

def numberBlockSeconds : Nat := positiveInt env "SIP_SECURITY_NUMBER_BLOCK_SECONDS" 600

def ipWindowSeconds : Nat := positiveInt env "SIP_SECURITY_IP_WINDOW_SECONDS" 60

def ipThreshold : Nat := positiveInt env "SIP_SECURITY_IP_THRESHOLD" 15

def ipDistinctNumberThreshold : Nat :=
  positiveInt env "SIP_SECURITY_IP_DISTINCT_NUMBER_THRESHOLD" 5

def ipBlockSeconds : Nat := positiveInt env "SIP_SECURITY_IP_BLOCK_SECONDS" 3600

end Config

def key (name : String) : String := "kaster:cti:sip-security:" ++ name

def numberKey (tenantId : String) (number : SipNumber) : String :=
  key ("number:" ++ tenantId ++ ":" ++ number.text)

def ipKey (ip : SipAddress) : String := key ("ip:" ++ ip.text)

def ipNumbersKey (ip : SipAddress) : String := key ("ip-numbers:" ++ ip.text)

/-! ## The detector -/

structure Counter where
  count : Nat
  /-- When `INCR` returned 1. -/
  begun : Int

/-- The members of a set, each with the time it was last added. -/
abbrev NumberSet := List (SipNumber × Int)

inductive BlockSubject
  | number (number : SipNumber)
  | ip (ip : SipAddress)
deriving DecidableEq

def BlockSubject.blockKey : BlockSubject → String
  | number value => "NUMBER:" ++ value.text
  | ip value => "IP:" ++ value.text

/-- A row of `sipSecurityBlocks`, unique in tenant and `blockKey`. -/
structure SipBlock where
  tenantId : String
  subject : BlockSubject
  reason : String
  sourceIp : Option SipAddress
  sourceNumber : Option SipNumber
  targetNumber : Option SipNumber
  hitCount : Nat
  blockedUntil : Int
  eventName : String
  securityEvent : Option String
  observedAt : Int

/-- The await that a signal is in. -/
inductive SignalPhase
  | numberIncr (number : SipNumber)
  | numberExpire (number : SipNumber) (count : Nat)
  | numberBlock (number : SipNumber)
  | ipIncr (ip : SipAddress)
  | ipExpire (ip : SipAddress) (ipCount : Nat)
  | setAdd (ip : SipAddress) (marker : SipNumber) (ipCount : Nat)
  | setExpire (ip : SipAddress) (ipCount : Nat)
  | setCount (ip : SipAddress) (ipCount : Nat)
  | ipBlock (ip : SipAddress) (distinctNumberCount : Nat)

structure SignalRun where
  signal : SipSecuritySignal
  phase : SignalPhase

/-- What a signal has been counted for, and when. -/
inductive Seen
  | number (tenantId : String) (number : SipNumber) (time : Int)
  | ip (ip : SipAddress) (time : Int)
  | marker (ip : SipAddress) (marker : SipNumber) (time : Int)

structure SipState where
  now : Int
  counters : String → Option (Slot Counter)
  sets : String → Option (Slot NumberSet)
  blocks : List SipBlock
  runs : Nat → Option SignalRun
  nextRun : Nat
  /-- The signals so far, the last one first. -/
  seen : List Seen

inductive SipAction
  | signal (signal : SipSecuritySignal)
  | tick (ms : Nat)
  /-- The command that a signal waits for comes back; or it does not run, and the signal
  goes no further. -/
  | next (run : Nat) (fails : Bool)

namespace SipState

def setRun (s : SipState) (n : Nat) (run : Option SignalRun) : SipState :=
  { s with runs := fun m => if m = n then run else s.runs m }

def setPhase (s : SipState) (n : Nat) (signal : SipSecuritySignal) (phase : SignalPhase) : SipState :=
  s.setRun n (some ⟨signal, phase⟩)

def counter (s : SipState) (key : String) : Option Counter := found (s.counters key) s.now

def numbers (s : SipState) (key : String) : NumberSet := (found (s.sets key) s.now).getD []

/-- What `INCR` leaves. -/
def incremented (s : SipState) (key : String) : Slot Counter :=
  match live (s.counters key) s.now with
  | some slot => { slot with value := { slot.value with count := slot.value.count + 1 } }
  | none => ⟨⟨1, s.now⟩, none⟩

def incr (s : SipState) (key : String) (seen : Seen) : SipState :=
  { s with
    counters := fun k => if k = key then some (s.incremented key) else s.counters k
    seen := seen :: s.seen }

def expireCounter (s : SipState) (key : String) (seconds : Nat) : SipState :=
  { s with counters := fun k =>
      if k = key then
        (live (s.counters key) s.now).map fun slot =>
          { slot with expiresAt := some (s.now + seconds * 1000) }
      else s.counters k }

/-- What `SADD` leaves. -/
def added (s : SipState) (key : String) (marker : SipNumber) : Slot NumberSet :=
  match live (s.sets key) s.now with
  | some slot => { slot with value := JsMap.set slot.value marker s.now }
  | none => ⟨[(marker, s.now)], none⟩

def sadd (s : SipState) (ip : SipAddress) (marker : SipNumber) : SipState :=
  { s with
    sets := fun k => if k = ipNumbersKey ip then some (s.added (ipNumbersKey ip) marker) else s.sets k
    seen := .marker ip marker s.now :: s.seen }

def expireSet (s : SipState) (key : String) (seconds : Nat) : SipState :=
  { s with sets := fun k =>
      if k = key then
        (live (s.sets key) s.now).map fun slot =>
          { slot with expiresAt := some (s.now + seconds * 1000) }
      else s.sets k }

def upsertBlock (s : SipState) (tenantId : String) (subject : BlockSubject) (reason : String)
    (blockedSeconds : Nat) (signal : SipSecuritySignal) : SipState :=
  let block : SipBlock :=
    ⟨tenantId, subject, reason, signal.sourceIp, signal.sourceNumber, signal.targetNumber, 1,
      s.now + blockedSeconds * 1000, signal.eventName, signal.securityEvent, s.now⟩
  let same (row : SipBlock) : Bool :=
    row.tenantId = tenantId && row.subject.blockKey = subject.blockKey
  if s.blocks.any same then
    { s with blocks := s.blocks.map fun row =>
        if same row then { block with subject := row.subject, hitCount := row.hitCount + 1 }
        else row }
  else { s with blocks := s.blocks ++ [block] }

section Phases
variable (env : Env)

/-- Behind the number: `if (!signal.sourceIp) return`. -/
def atAddress (s : SipState) (n : Nat) (signal : SipSecuritySignal) : SipState :=
  match signal.sourceIp with
  | none => s.setRun n none
  | some ip => s.setPhase n signal (.ipIncr ip)

def countedNumber (s : SipState) (n : Nat) (signal : SipSecuritySignal) (number : SipNumber)
    (count : Nat) : SipState :=
  if count ≥ numberThreshold env then s.setPhase n signal (.numberBlock number)
  else s.atAddress n signal

def judged (s : SipState) (n : Nat) (signal : SipSecuritySignal) (ip : SipAddress)
    (ipCount distinctNumberCount : Nat) : SipState :=
  if ipCount ≥ ipThreshold env ∨ distinctNumberCount ≥ ipDistinctNumberThreshold env then
    s.setPhase n signal (.ipBlock ip distinctNumberCount)
  else s.setRun n none

def countedIp (s : SipState) (n : Nat) (signal : SipSecuritySignal) (ip : SipAddress)
    (ipCount : Nat) : SipState :=
  match signal.marker with
  | some marker => s.setPhase n signal (.setAdd ip marker ipCount)
  | none => s.judged env n signal ip ipCount 0

def next (s : SipState) (n : Nat) (run : SignalRun) : SipState :=
  let signal := run.signal
  match run.phase with
  | .numberIncr number =>
    let key := numberKey signal.tenantId number
    let count := (s.incremented key).value.count
    let s := s.incr key (.number signal.tenantId number s.now)
    if count = 1 then s.setPhase n signal (.numberExpire number count)
    else s.countedNumber env n signal number count
  | .numberExpire number count =>
    (s.expireCounter (numberKey signal.tenantId number) (numberWindowSeconds env)).countedNumber env n
      signal number count
  | .numberBlock number =>
    (s.upsertBlock signal.tenantId (.number number) "SIP_NUMBER_ABUSE" (numberBlockSeconds env)
      signal).atAddress n signal
  | .ipIncr ip =>
    let count := (s.incremented (ipKey ip)).value.count
    let s := s.incr (ipKey ip) (.ip ip s.now)
    if count = 1 then s.setPhase n signal (.ipExpire ip count)
    else s.countedIp env n signal ip count
  | .ipExpire ip ipCount =>
    (s.expireCounter (ipKey ip) (ipWindowSeconds env)).countedIp env n signal ip ipCount
  | .setAdd ip marker ipCount => (s.sadd ip marker).setPhase n signal (.setExpire ip ipCount)
  | .setExpire ip ipCount =>
    (s.expireSet (ipNumbersKey ip) (ipWindowSeconds env)).setPhase n signal (.setCount ip ipCount)
  | .setCount ip ipCount => s.judged env n signal ip ipCount (s.numbers (ipNumbersKey ip)).length
  | .ipBlock ip distinctNumberCount =>
    (s.upsertBlock signal.tenantId (.ip ip)
      (if distinctNumberCount ≥ ipDistinctNumberThreshold env then "SIP_IP_NUMBER_ROTATION"
        else "SIP_IP_ABUSE")
      (ipBlockSeconds env) signal).setRun n none

/-- `applySignal` runs up to its first command. -/
def applySignal (s : SipState) (signal : SipSecuritySignal) : SipState :=
  let started := { s with nextRun := s.nextRun + 1 }
  match signal.sourceNumber with
  | some number => started.setPhase s.nextRun signal (.numberIncr number)
  | none => started.atAddress s.nextRun signal

end Phases

end SipState

def sipStep (env : Env) (s : SipState) : SipAction → SipState
  | .signal signal => s.applySignal signal
  | .tick ms => { s with now := s.now + ms }
  | .next n fails =>
    match s.runs n with
    | none => s
    | some run => if fails then s.setRun n none else s.next env n run

def noSignals : SipState := ⟨0, fun _ => none, fun _ => none, [], fun _ => none, 0, []⟩

/-! ## The property and its condition -/

/-- As many of the times as asked for lie within one window. -/
def Crowded (threshold seconds : Nat) (times : List Int) : Prop :=
  ∃ start : Int, threshold ≤ times.countP fun time => start ≤ time && time ≤ start + seconds * 1000

/-- As many different numbers as asked for came within one window. -/
def Rotating (threshold seconds : Nat) (markers : NumberSet) : Prop :=
  ∃ (start : Int) (numbers : List SipNumber), numbers.Nodup ∧ threshold ≤ numbers.length ∧
    ∀ number ∈ numbers, ∃ time, (number, time) ∈ markers ∧
      start ≤ time ∧ time ≤ start + seconds * 1000

def Seen.numberTime (tenantId : String) (number : SipNumber) : Seen → Option Int
  | .number tenantId' source time =>
    if tenantId' = tenantId ∧ source = number then some time else none
  | _ => none

def Seen.ipTime (ip : SipAddress) : Seen → Option Int
  | .ip source time => if source = ip then some time else none
  | _ => none

def Seen.markerOf (ip : SipAddress) : Seen → Option (SipNumber × Int)
  | .marker source sent time => if source = ip then some (sent, time) else none
  | _ => none

section Property
variable (env : Env)

def NumberAbuse (seen : List Seen) (tenantId : String) (number : SipNumber) : Prop :=
  Crowded (numberThreshold env) (numberWindowSeconds env)
    (seen.filterMap (Seen.numberTime tenantId number))

def IpFlood (seen : List Seen) (ip : SipAddress) : Prop :=
  Crowded (ipThreshold env) (ipWindowSeconds env) (seen.filterMap (Seen.ipTime ip))

def IpRotation (seen : List Seen) (ip : SipAddress) : Prop :=
  Rotating (ipDistinctNumberThreshold env) (ipWindowSeconds env) (seen.filterMap (Seen.markerOf ip))

/-- What a block of the tenant stands for has happened. -/
def Justified (seen : List Seen) (tenantId : String) : BlockSubject → Prop
  | .number number => NumberAbuse env seen tenantId number
  | .ip ip => IpFlood env seen ip ∨ IpRotation env seen ip

def BlocksNeedAbuse (s : SipState) : Prop :=
  ∀ block ∈ s.blocks, Justified env s.seen block.tenantId block.subject

/-- When the windows end of what the next command of a signal finds. -/
def deadlines (s : SipState) (run : SignalRun) : List Int :=
  match run.phase with
  | .numberIncr number => (s.counter (numberKey run.signal.tenantId number)).toList.map fun counter =>
      counter.begun + numberWindowSeconds env * 1000
  | .ipIncr ip => (s.counter (ipKey ip)).toList.map fun counter =>
      counter.begun + ipWindowSeconds env * 1000
  | .setAdd ip _ _ => (s.numbers (ipNumbersKey ip)).map fun entry =>
      entry.2 + ipWindowSeconds env * 1000
  | _ => []

/-- A counter that `INCR` finds was begun at most its window ago, and the numbers that
`SADD` finds were added at most theirs ago. -/
def InWindow (s : SipState) : SipAction → Prop
  | .next n false => ∀ time ∈ ((s.runs n).map (deadlines env s)).getD [], s.now ≤ time
  | _ => True

instance (s : SipState) : (action : SipAction) → Decidable (InWindow env s action)
  | .next _ false => inferInstanceAs (Decidable (∀ time ∈ _, _))
  | .next _ true | .signal _ | .tick _ => .isTrue trivial

end Property

/-! ## Keys -/

theorem key_inj {name name' : String} (h : key name = key name') : name = name' :=
  String.append_right_inj _ |>.mp h

theorem SipNumber.colon_not_mem (number : SipNumber) : ':' ∉ number.text.toList :=
  fun h => absurd (number.digits _ h) (by decide)

theorem numberKey_inj {tenantId tenantId' : String} {number number' : SipNumber}
    (h : numberKey tenantId number = numberKey tenantId' number') :
    tenantId = tenantId' ∧ number = number' := by
  have htexts := congrArg String.toList (key_inj h)
  simp only [String.toList_append] at htexts
  have hreversed := congrArg List.reverse htexts
  simp only [List.reverse_append, List.append_assoc] at hreversed
  obtain ⟨hnumber, htenant⟩ := JsText.append_sep_inj
    (fun hmem => number.colon_not_mem (List.mem_reverse.mp hmem))
    (fun hmem => number'.colon_not_mem (List.mem_reverse.mp hmem)) hreversed
  have htenant := List.reverse_injective (List.append_cancel_right htenant)
  refine ⟨String.toList_injective htenant, ?_⟩
  obtain ⟨text, digits, length⟩ := number
  obtain ⟨text', digits', length'⟩ := number'
  obtain rfl := String.toList_injective (List.reverse_injective hnumber)
  rfl

theorem ipKey_inj {ip ip' : SipAddress} (h : ipKey ip = ipKey ip') : ip = ip' := by
  obtain ⟨text, nonempty⟩ := ip
  obtain ⟨text', nonempty'⟩ := ip'
  obtain rfl := String.append_right_inj _ |>.mp (key_inj h)
  rfl

theorem ipNumbersKey_inj {ip ip' : SipAddress} (h : ipNumbersKey ip = ipNumbersKey ip') : ip = ip' := by
  obtain ⟨text, nonempty⟩ := ip
  obtain ⟨text', nonempty'⟩ := ip'
  obtain rfl := String.append_right_inj _ |>.mp (key_inj h)
  rfl

theorem numberKey_ne_ipKey (tenantId : String) (number : SipNumber) (ip : SipAddress) :
    numberKey tenantId number ≠ ipKey ip := by
  intro h
  have htexts := congrArg String.toList (key_inj h)
  simp only [String.toList_append] at htexts
  exact absurd (List.cons.inj htexts).1 (by decide)

/-! ## The invariant -/

/-- When the signal was counted under the key. -/
def Seen.keyTime (key : String) : Seen → Option Int
  | .number tenantId source time => if numberKey tenantId source = key then some time else none
  | .ip source time => if ipKey source = key then some time else none
  | .marker .. => none

def Seen.time : Seen → Int
  | .number _ _ time | .ip _ time | .marker _ _ time => time

theorem keyTime_numberKey (tenantId : String) (number : SipNumber) :
    Seen.keyTime (numberKey tenantId number) = Seen.numberTime tenantId number := by
  funext seen
  cases seen with
  | number tenantId' number' time =>
    refine if_congr ⟨numberKey_inj, ?_⟩ rfl rfl
    rintro ⟨rfl, rfl⟩
    rfl
  | ip source time =>
    rw [Seen.keyTime, if_neg (numberKey_ne_ipKey tenantId number source).symm]
    rfl
  | marker ip number time => rfl

theorem keyTime_ipKey (ip : SipAddress) : Seen.keyTime (ipKey ip) = Seen.ipTime ip := by
  funext seen
  cases seen with
  | number tenantId' source time =>
    rw [Seen.keyTime, if_neg (numberKey_ne_ipKey tenantId' source ip)]
    rfl
  | ip source time => exact if_congr ⟨ipKey_inj, congrArg ipKey⟩ rfl rfl
  | marker ip number time => rfl

/-- The counter is not ahead of the signals that were counted since it was begun. -/
structure CounterSound (now : Int) (seen : List Seen) (key : String) (counter : Counter) : Prop where
  begun : counter.begun ≤ now
  count : counter.count ≤ (seen.filterMap (Seen.keyTime key)).countP (counter.begun ≤ ·)

section Invariant
variable (env : Env)

/-- Every number of the set came from the address, all within one window. -/
structure SetSound (seen : List Seen) (ip : SipAddress) (numbers : NumberSet) : Prop where
  nodup : (JsMap.keys numbers).Nodup
  seen : numbers ⊆ seen.filterMap (Seen.markerOf ip)
  window : ∃ start : Int, ∀ entry ∈ numbers,
    start ≤ entry.2 ∧ entry.2 ≤ start + ipWindowSeconds env * 1000

/-- What a signal knows in its await. -/
def Fits (seen : List Seen) (run : SignalRun) : Prop :=
  match run.phase with
  | .numberIncr _ | .ipIncr _ => True
  | .numberExpire number count =>
    numberThreshold env ≤ count → NumberAbuse env seen run.signal.tenantId number
  | .numberBlock number => NumberAbuse env seen run.signal.tenantId number
  | .ipExpire ip ipCount | .setAdd ip _ ipCount | .setExpire ip ipCount | .setCount ip ipCount =>
    ipThreshold env ≤ ipCount → IpFlood env seen ip
  | .ipBlock ip _ => IpFlood env seen ip ∨ IpRotation env seen ip

structure Sound (s : SipState) : Prop where
  past : ∀ e ∈ s.seen, e.time ≤ s.now
  counters : ∀ key slot, s.counters key = some slot → CounterSound s.now s.seen key slot.value
  sets : ∀ ip slot, s.sets (ipNumbersKey ip) = some slot → SetSound env s.seen ip slot.value
  fits : ∀ n run, s.runs n = some run → Fits env s.seen run
  blocks : BlocksNeedAbuse env s

end Invariant

variable {env : Env} {s : SipState} {seen : List Seen} {e : Seen} {n : Nat}
  {signal : SipSecuritySignal} {number : SipNumber} {ip : SipAddress} {tenantId name : String}

/-! ## More signals do not undo anything -/

variable {threshold seconds : Nat}

theorem Crowded.cons {f : Seen → Option Int} (h : Crowded threshold seconds (seen.filterMap f)) :
    Crowded threshold seconds ((e :: seen).filterMap f) := by
  obtain ⟨start, hmany⟩ := h
  exact ⟨start, hmany.trans ((List.sublist_cons_self e seen).filterMap f |>.countP_le)⟩

theorem filterMap_cons_subset {α : Type} (f : Seen → Option α) :
    seen.filterMap f ⊆ (e :: seen).filterMap f :=
  ((List.sublist_cons_self e seen).filterMap f).subset

theorem IpRotation.cons (h : IpRotation env seen ip) : IpRotation env (e :: seen) ip := by
  obtain ⟨start, numbers, hnodup, hmany, hall⟩ := h
  refine ⟨start, numbers, hnodup, hmany, ?_⟩
  intro number hnumber
  obtain ⟨time, hmem, hwithin⟩ := hall number hnumber
  exact ⟨time, filterMap_cons_subset _ hmem, hwithin⟩

theorem ipAbuse_cons (h : IpFlood env seen ip ∨ IpRotation env seen ip) :
    IpFlood env (e :: seen) ip ∨ IpRotation env (e :: seen) ip :=
  h.imp Crowded.cons IpRotation.cons

theorem Justified.cons {subject : BlockSubject} (h : Justified env seen tenantId subject) :
    Justified env (e :: seen) tenantId subject := by
  cases subject with
  | number number => exact Crowded.cons h
  | ip ip => exact ipAbuse_cons h

theorem Fits.cons {run : SignalRun} (h : Fits env seen run) : Fits env (e :: seen) run := by
  obtain ⟨signal, phase⟩ := run
  cases phase with
  | numberIncr number => trivial
  | ipIncr ip => trivial
  | numberExpire number count => exact fun hmany => Crowded.cons (h hmany)
  | numberBlock number => exact Crowded.cons h
  | ipExpire ip ipCount => exact fun hmany => Crowded.cons (h hmany)
  | setAdd ip marker ipCount => exact fun hmany => Crowded.cons (h hmany)
  | setExpire ip ipCount => exact fun hmany => Crowded.cons (h hmany)
  | setCount ip ipCount => exact fun hmany => Crowded.cons (h hmany)
  | ipBlock ip distinctNumberCount => exact ipAbuse_cons h

theorem CounterSound.cons {now : Int} {counter : Counter} (h : CounterSound now seen name counter) :
    CounterSound now (e :: seen) name counter := by
  refine ⟨h.begun, h.count.trans ?_⟩
  exact ((List.sublist_cons_self e seen).filterMap (Seen.keyTime name)).countP_le

theorem SetSound.cons {numbers : NumberSet} (h : SetSound env seen ip numbers) :
    SetSound env (e :: seen) ip numbers :=
  ⟨h.nodup, fun _ hentry => filterMap_cons_subset _ (h.seen hentry), h.window⟩

/-! ## Counters and sets -/

theorem keyTime_eq_some {time : Int} (h : e.keyTime name = some time) : e.time = time := by
  cases e with
  | number tenantId number time'
  | ip ip time' => exact Option.some.inj (Option.ite_none_right_eq_some.mp h).2
  | marker ip number time' => cases h

theorem keyTime_mem {time : Int} (h : time ∈ seen.filterMap (Seen.keyTime name)) :
    ∃ e ∈ seen, e.time = time := by
  obtain ⟨e, he, htime⟩ := List.mem_filterMap.mp h
  exact ⟨e, he, keyTime_eq_some htime⟩

theorem incremented_new (h : live (s.counters name) s.now = none) :
    s.incremented name = ⟨⟨1, s.now⟩, none⟩ := by rw [SipState.incremented, h]

theorem incremented_old {slot : Slot Counter} (h : live (s.counters name) s.now = some slot) :
    s.incremented name = ⟨⟨slot.value.count + 1, slot.value.begun⟩, slot.expiresAt⟩ := by
  rw [SipState.incremented, h]

theorem countP_since {begun now : Int} (times : List Int) (h : begun ≤ now) :
    (now :: times).countP (begun ≤ ·) = times.countP (begun ≤ ·) + 1 := by
  rw [List.countP_cons, if_pos (decide_eq_true h)]

section Steps
variable (h : Sound env s)
include h

theorem Sound.incremented (he : e.keyTime name = some s.now) :
    CounterSound s.now (e :: s.seen) name (s.incremented name).value := by
  cases hlive : live (s.counters name) s.now with
  | none =>
    rw [incremented_new hlive]
    refine ⟨le_rfl, ?_⟩
    rw [List.filterMap_cons_some he, countP_since _ le_rfl]
    exact Nat.le_add_left 1 _
  | some slot =>
    have hsound := h.counters name slot (Option.filter_eq_some_iff.mp hlive).1
    rw [incremented_old hlive]
    refine ⟨hsound.begun, ?_⟩
    rw [List.filterMap_cons_some he, countP_since _ hsound.begun]
    exact Nat.succ_le_succ hsound.count

/-- Of a counter that has not outlived its window all signals lie within it. -/
theorem Sound.crowded (he : e.keyTime name = some s.now)
    (hwindow : ∀ counter, s.counter name = some counter → s.now ≤ counter.begun + seconds * 1000)
    (hmany : threshold ≤ (s.incremented name).value.count) :
    Crowded threshold seconds ((e :: s.seen).filterMap (Seen.keyTime name)) := by
  have hsound := h.incremented he
  have hopen : s.now ≤ (s.incremented name).value.begun + seconds * 1000 := by
    cases hlive : live (s.counters name) s.now with
    | none =>
      rw [incremented_new hlive]
      show s.now ≤ s.now + seconds * 1000
      omega
    | some slot =>
      rw [incremented_old hlive]
      refine hwindow slot.value ?_
      rw [SipState.counter, found, hlive]
      rfl
  refine ⟨(s.incremented name).value.begun, hmany.trans (hsound.count.trans ?_)⟩
  refine List.countP_mono_left ?_
  intro time htime hbegun
  obtain ⟨e', he', rfl⟩ := keyTime_mem htime
  have hpast : e'.time ≤ s.now := by
    rcases List.mem_cons.mp he' with rfl | hmem
    · exact (keyTime_eq_some he).le
    · exact h.past e' hmem
  rw [Bool.and_eq_true]
  exact ⟨hbegun, decide_eq_true (hpast.trans hopen)⟩

theorem Sound.incr (he : e.keyTime name = some s.now) : Sound env (s.incr name e) := by
  refine ⟨?_, ?_, fun ip slot hslot => (h.sets ip slot hslot).cons,
    fun n run hrun => (h.fits n run hrun).cons, fun block hblock => (h.blocks block hblock).cons⟩
  · intro e' he'
    rcases List.mem_cons.mp he' with rfl | hmem
    · exact (keyTime_eq_some he).le
    · exact h.past e' hmem
  · intro key slot hslot
    simp only [SipState.incr] at hslot
    split at hslot
    · next hkey =>
      obtain rfl := Option.some.inj hslot
      rw [hkey]
      exact h.incremented he
    · exact (h.counters key slot hslot).cons

theorem Sound.expireCounter (name : String) (seconds : Nat) :
    Sound env (s.expireCounter name seconds) := by
  refine ⟨h.past, ?_, h.sets, h.fits, h.blocks⟩
  intro key slot hslot
  simp only [SipState.expireCounter] at hslot
  split at hslot
  · next hkey =>
    obtain ⟨old, hold, rfl⟩ := Option.map_eq_some_iff.mp hslot
    rw [hkey]
    exact h.counters name old (Option.filter_eq_some_iff.mp hold).1
  · exact h.counters key slot hslot

theorem Sound.past_marker {entry : SipNumber × Int}
    (hentry : entry ∈ s.seen.filterMap (Seen.markerOf ip)) : entry.2 ≤ s.now := by
  obtain ⟨e, he, hmarker⟩ := List.mem_filterMap.mp hentry
  cases e with
  | number tenantId number time => cases hmarker
  | ip source time => cases hmarker
  | marker source number time =>
    obtain rfl := Option.some.inj (Option.ite_none_right_eq_some.mp hmarker).2
    exact h.past _ he

theorem Sound.added (marker : SipNumber)
    (hwindow : ∀ entry ∈ s.numbers (ipNumbersKey ip),
      s.now ≤ entry.2 + ipWindowSeconds env * 1000) :
    SetSound env (.marker ip marker s.now :: s.seen) ip (s.added (ipNumbersKey ip) marker).value := by
  have hself : (marker, s.now) ∈ (Seen.marker ip marker s.now :: s.seen).filterMap
      (Seen.markerOf ip) := List.mem_filterMap.mpr ⟨_, List.mem_cons_self, if_pos rfl⟩
  unfold SipState.added
  cases hlive : live (s.sets (ipNumbersKey ip)) s.now with
  | none =>
    refine ⟨List.nodup_singleton _, ?_, s.now, ?_⟩
    · intro entry hentry
      rw [List.mem_singleton.mp hentry]
      exact hself
    · intro entry hentry
      rw [List.mem_singleton.mp hentry]
      show s.now ≤ s.now ∧ s.now ≤ s.now + ipWindowSeconds env * 1000
      omega
  | some slot =>
    have hsound := h.sets ip slot (Option.filter_eq_some_iff.mp hlive).1
    have hnumbers : s.numbers (ipNumbersKey ip) = slot.value := by
      rw [SipState.numbers, found, hlive]
      rfl
    rw [hnumbers] at hwindow
    refine ⟨JsMap.nodup_keys_set hsound.nodup, ?_, s.now - ipWindowSeconds env * 1000, ?_⟩
    · intro entry hentry
      rcases JsMap.mem_set hentry with rfl | hmem
      · exact hself
      · exact filterMap_cons_subset _ (hsound.seen hmem)
    · intro entry hentry
      rcases JsMap.mem_set hentry with rfl | hmem
      · show s.now - ipWindowSeconds env * 1000 ≤ s.now ∧ _
        omega
      · have hpast := h.past_marker (hsound.seen hmem)
        have hrecent := hwindow entry hmem
        omega

theorem Sound.sadd (marker : SipNumber)
    (hwindow : ∀ entry ∈ s.numbers (ipNumbersKey ip),
      s.now ≤ entry.2 + ipWindowSeconds env * 1000) : Sound env (s.sadd ip marker) := by
  refine ⟨?_, fun key slot hslot => (h.counters key slot hslot).cons, ?_,
    fun n run hrun => (h.fits n run hrun).cons, fun block hblock => (h.blocks block hblock).cons⟩
  · intro e he
    rcases List.mem_cons.mp he with rfl | hmem
    · exact Int.le_refl s.now
    · exact h.past e hmem
  · intro ip' slot hslot
    simp only [SipState.sadd] at hslot
    split at hslot
    · next hkey =>
      obtain rfl := ipNumbersKey_inj hkey
      obtain rfl := Option.some.inj hslot
      exact h.added marker hwindow
    · exact (h.sets ip' slot hslot).cons

theorem Sound.expireSet (name : String) (seconds : Nat) : Sound env (s.expireSet name seconds) := by
  refine ⟨h.past, h.counters, ?_, h.fits, h.blocks⟩
  intro ip slot hslot
  simp only [SipState.expireSet] at hslot
  split at hslot
  · next hkey =>
    obtain ⟨old, hold, rfl⟩ := Option.map_eq_some_iff.mp hslot
    rw [← hkey] at hold
    exact h.sets ip old (Option.filter_eq_some_iff.mp hold).1
  · exact h.sets ip slot hslot

/-- The members that are found are numbers within one window. -/
theorem Sound.rotation
    (hmany : ipDistinctNumberThreshold env ≤ (s.numbers (ipNumbersKey ip)).length) :
    IpRotation env s.seen ip := by
  unfold SipState.numbers found at hmany
  cases hlive : live (s.sets (ipNumbersKey ip)) s.now with
  | none =>
    rw [hlive] at hmany
    exact ⟨0, [], List.nodup_nil, hmany, nofun⟩
  | some slot =>
    rw [hlive] at hmany
    have hsound := h.sets ip slot (Option.filter_eq_some_iff.mp hlive).1
    obtain ⟨start, hall⟩ := hsound.window
    refine ⟨start, JsMap.keys slot.value, hsound.nodup, ?_, ?_⟩
    · rw [JsMap.keys, List.length_map]
      exact hmany
    · intro number hnumber
      obtain ⟨entry, hentry, rfl⟩ := List.mem_map.mp hnumber
      exact ⟨entry.2, hsound.seen hentry, hall entry hentry⟩

theorem Sound.upsertBlock {subject : BlockSubject} {reason : String} {blockedSeconds : Nat}
    (hjustified : Justified env s.seen tenantId subject) :
    Sound env (s.upsertBlock tenantId subject reason blockedSeconds signal) := by
  unfold SipState.upsertBlock
  dsimp only
  split
  · refine ⟨h.past, h.counters, h.sets, h.fits, ?_⟩
    intro block hblock
    obtain ⟨row, hrow, rfl⟩ := List.mem_map.mp hblock
    split
    · next hsame =>
      rw [Bool.and_eq_true, decide_eq_true_eq] at hsame
      exact hsame.1 ▸ h.blocks row hrow
    · exact h.blocks row hrow
  · refine ⟨h.past, h.counters, h.sets, h.fits, ?_⟩
    intro block hblock
    rcases List.mem_append.mp hblock with hold | hnew
    · exact h.blocks block hold
    · rw [List.mem_singleton.mp hnew]
      exact hjustified

/-! ## Phases -/

theorem Sound.setRun (n : Nat) {run : Option SignalRun}
    (hfits : ∀ r, run = some r → Fits env s.seen r) : Sound env (s.setRun n run) := by
  refine ⟨h.past, h.counters, h.sets, ?_, h.blocks⟩
  intro m r hr
  simp only [SipState.setRun] at hr
  split at hr
  · exact hfits r hr
  · exact h.fits m r hr

theorem Sound.endRun (n : Nat) : Sound env (s.setRun n none) :=
  h.setRun n (by rintro _ ⟨⟩)

theorem Sound.setPhase (n : Nat) {phase : SignalPhase} (hfits : Fits env s.seen ⟨signal, phase⟩) :
    Sound env (s.setPhase n signal phase) := by
  refine h.setRun n ?_
  rintro r ⟨⟩
  exact hfits

theorem Sound.atAddress (n : Nat) : Sound env (s.atAddress n signal) := by
  unfold SipState.atAddress
  split
  · exact h.endRun n
  · exact h.setPhase n trivial

theorem Sound.countedNumber (n : Nat) {count : Nat}
    (habuse : numberThreshold env ≤ count → NumberAbuse env s.seen signal.tenantId number) :
    Sound env (s.countedNumber env n signal number count) := by
  unfold SipState.countedNumber
  split
  · next hmany => exact h.setPhase n (habuse hmany)
  · exact h.atAddress n

theorem Sound.judged (n : Nat) {ipCount distinctNumberCount : Nat}
    (hflood : ipThreshold env ≤ ipCount → IpFlood env s.seen ip)
    (hrotation : ipDistinctNumberThreshold env ≤ distinctNumberCount → IpRotation env s.seen ip) :
    Sound env (s.judged env n signal ip ipCount distinctNumberCount) := by
  unfold SipState.judged
  split
  · next hmany => exact h.setPhase n (hmany.imp hflood hrotation)
  · exact h.endRun n

theorem Sound.countedIp (n : Nat) {ipCount : Nat}
    (hflood : ipThreshold env ≤ ipCount → IpFlood env s.seen ip) :
    Sound env (s.countedIp env n signal ip ipCount) := by
  unfold SipState.countedIp
  split
  · exact h.setPhase n hflood
  -- without a number there is none to count
  · exact h.judged n hflood fun hnone => ⟨0, [], List.nodup_nil, hnone, nofun⟩

end Steps

theorem Sound.next {phase : SignalPhase} (h : Sound env s) (hrun : s.runs n = some ⟨signal, phase⟩)
    (hwindow : InWindow env s (.next n false)) : Sound env (s.next env n ⟨signal, phase⟩) := by
  have hfits := h.fits n _ hrun
  have hopen : ∀ time ∈ deadlines env s ⟨signal, phase⟩, s.now ≤ time := by
    rw [InWindow, hrun] at hwindow
    exact hwindow
  cases phase with
  | numberIncr number =>
    have htime : (Seen.number signal.tenantId number s.now).keyTime
        (numberKey signal.tenantId number) = some s.now := if_pos rfl
    have habuse (hmany : numberThreshold env ≤
        (s.incremented (numberKey signal.tenantId number)).value.count) :
        NumberAbuse env (.number signal.tenantId number s.now :: s.seen) signal.tenantId number := by
      have hcrowded := h.crowded htime (fun counter hcounter => hopen _ (List.mem_map_of_mem
        (Option.mem_toList.mpr hcounter))) hmany
      rwa [keyTime_numberKey] at hcrowded
    unfold SipState.next
    dsimp only
    split
    · exact (h.incr htime).setPhase n habuse
    · exact (h.incr htime).countedNumber n habuse
  | numberExpire number count => exact (h.expireCounter _ _).countedNumber n hfits
  | numberBlock number =>
    have habuse : Justified env s.seen signal.tenantId (.number number) := hfits
    exact (h.upsertBlock habuse).atAddress n
  | ipIncr ip =>
    have htime : (Seen.ip ip s.now).keyTime (ipKey ip) = some s.now := if_pos rfl
    have hflood (hmany : ipThreshold env ≤ (s.incremented (ipKey ip)).value.count) :
        IpFlood env (.ip ip s.now :: s.seen) ip := by
      have hcrowded := h.crowded htime (fun counter hcounter => hopen _ (List.mem_map_of_mem
        (Option.mem_toList.mpr hcounter))) hmany
      rwa [keyTime_ipKey] at hcrowded
    unfold SipState.next
    dsimp only
    split
    · exact (h.incr htime).setPhase n hflood
    · exact (h.incr htime).countedIp n hflood
  | ipExpire ip ipCount => exact (h.expireCounter _ _).countedIp n hfits
  | setAdd ip marker ipCount =>
    have hrecent (entry) (hentry : entry ∈ s.numbers (ipNumbersKey ip)) :
        s.now ≤ entry.2 + ipWindowSeconds env * 1000 := hopen _ (List.mem_map_of_mem hentry)
    exact (h.sadd marker hrecent).setPhase n fun hmany => Crowded.cons (hfits hmany)
  | setExpire ip ipCount => exact (h.expireSet _ _).setPhase n hfits
  | setCount ip ipCount => exact h.judged n hfits h.rotation
  | ipBlock ip distinctNumberCount =>
    have habuse : Justified env s.seen signal.tenantId (.ip ip) := hfits
    exact (h.upsertBlock habuse).endRun n

/-- Every step that meets the condition. -/
theorem sipStep_sound {action : SipAction} (h : Sound env s) (hwindow : InWindow env s action) :
    Sound env (sipStep env s action) := by
  cases action with
  | signal signal =>
    have hstarted : Sound env { s with nextRun := s.nextRun + 1 } :=
      ⟨h.past, h.counters, h.sets, h.fits, h.blocks⟩
    unfold sipStep SipState.applySignal
    dsimp only
    split
    · exact hstarted.setPhase s.nextRun trivial
    · exact hstarted.atAddress s.nextRun
  | tick ms =>
    have hlater : s.now ≤ s.now + ms := by omega
    refine ⟨fun e he => (h.past e he).trans hlater, ?_, h.sets, h.fits, h.blocks⟩
    intro key slot hslot
    have hsound := h.counters key slot hslot
    exact ⟨hsound.begun.trans hlater, hsound.count⟩
  | next n fails =>
    rw [sipStep]
    split
    · exact h
    · next run hrun =>
      split
      · exact h.endRun n
      · next hruns =>
        rw [Bool.not_eq_true] at hruns
        subst hruns
        exact h.next hrun hwindow

theorem sound_noSignals : Sound env noSignals := by
  refine ⟨?_, ?_, ?_, ?_, ?_⟩
  · rintro _ ⟨⟩
  · rintro _ _ ⟨⟩
  · rintro _ _ ⟨⟩
  · rintro _ _ ⟨⟩
  · rintro _ ⟨⟩

/-- In every run in which no counter and no set is found that has outlived its window, the
signals that a block stands for have come within one. -/
theorem blocks_need_abuse (env : Env) (actions : List SipAction)
    (h : Along (sipStep env) (InWindow env) noSignals actions) :
    BlocksNeedAbuse env (actions.foldl (sipStep env) noSignals) :=
  (h.invariant (fun _ _ hwindow hs => sipStep_sound hs hwindow) sound_noSignals).blocks

/-- Two signals of a number are abuse. -/
def exEnv : Env := fun key => if key = "SIP_SECURITY_NUMBER_THRESHOLD" then some 2 else none

def exNumber (text : String) (h : text.toList.all JsText.isDigit = true ∧
    2 ≤ text.toList.length ∧ text.toList.length ≤ 32) : SipNumber :=
  ⟨text, List.all_eq_true.mp h.1, h.2⟩

def exSignal (sourceIp : Option SipAddress) (number : SipNumber) : SipSecuritySignal :=
  ⟨"t1", sourceIp, some number, none, "SecurityEvent", some "InvalidPassword"⟩

def exFirst : SipNumber := exNumber "1001" (by decide)

def exSignals : List SipAction :=
  [.signal (exSignal none exFirst), .next 0 false, .next 0 false, .tick 10000,
    .signal (exSignal none exFirst), .next 1 false, .next 1 false]

theorem blocks_need_abuse_exSignals :
    (exSignals.foldl (sipStep exEnv) noSignals).blocks.length = 1 ∧
      BlocksNeedAbuse exEnv (exSignals.foldl (sipStep exEnv) noSignals) :=
  ⟨by decide, blocks_need_abuse exEnv exSignals (by decide)⟩

/-- The first signal crashes behind `INCR`; the counter never expires. -/
def exCrash : List SipAction :=
  [.signal (exSignal none exFirst), .next 0 false, .next 0 true,
    .tick 100000, .signal (exSignal none exFirst), .next 1 false,
    .tick 100000, .signal (exSignal none exFirst), .next 2 false,
    .tick 100000, .signal (exSignal none exFirst), .next 3 false,
    .tick 100000, .signal (exSignal none exFirst), .next 4 false, .next 4 false]

def exAddress : SipAddress := ⟨"203.0.113.7", by decide⟩

def exLast : SipNumber := exNumber "1005" (by decide)

def exNumbers : List SipNumber :=
  [exFirst, exNumber "1002" (by decide), exNumber "1003" (by decide), exNumber "1004" (by decide),
    exLast]

/-- The commands of a signal with an address that comes 59 seconds after the one before. -/
def exRotation (n : Nat) (number : SipNumber) : List SipAction :=
  [.tick 59000, .signal (exSignal (some exAddress) number)] ++ List.replicate 8 (.next n false)

/-- Five numbers within four minutes. -/
def exSlow : List SipAction := (exNumbers.zipIdx.map fun entry => exRotation entry.2 entry.1).flatten

/-- The configuration without a variable. -/
def exDefaults : Env := fun _ => none

/-- Where as many times as there are lie within one window, the first and the last do. -/
theorem Crowded.all {times : List Int} (h : Crowded threshold seconds times)
    (hlength : times.length ≤ threshold) : ∃ start : Int, ∀ time ∈ times,
      start ≤ time ∧ time ≤ start + seconds * 1000 := by
  obtain ⟨start, hmany⟩ := h
  refine ⟨start, fun time htime => ?_⟩
  have hall := List.countP_eq_length.mp (le_antisymm List.countP_le_length (hlength.trans hmany))
  have hwithin := hall time htime
  rw [Bool.and_eq_true, decide_eq_true_eq, decide_eq_true_eq] at hwithin
  exact hwithin

/-- Where no number can be done without, all of them came within one window. -/
theorem Rotating.all {markers : NumberSet} (h : Rotating threshold seconds markers)
    (hlength : markers.length ≤ threshold) :
    ∃ start : Int, ∀ number ∈ markers.map (·.1), ∃ time, (number, time) ∈ markers ∧
      start ≤ time ∧ time ≤ start + seconds * 1000 := by
  obtain ⟨start, numbers, hnodup, hmany, hall⟩ := h
  have hsubset : numbers ⊆ markers.map (·.1) := by
    intro number hnumber
    obtain ⟨time, hmem, -⟩ := hall number hnumber
    exact List.mem_map_of_mem hmem
  have hlength' : (markers.map (·.1)).length ≤ numbers.length := by
    rw [List.length_map]
    exact hlength.trans hmany
  have hperm := (List.subperm_of_subset hnodup hsubset).perm_of_length_le hlength'
  exact ⟨start, fun number hnumber => hall number (hperm.mem_iff.mpr hnumber)⟩

theorem slow_signals_blocked :
    ¬ BlocksNeedAbuse exDefaults (exCrash.foldl (sipStep exDefaults) noSignals) ∧
      ¬ BlocksNeedAbuse exDefaults (exSlow.foldl (sipStep exDefaults) noSignals) := by
  constructor
  · intro h
    obtain ⟨block, hblock, htenant, hsubject⟩ :
        ∃ block ∈ (exCrash.foldl (sipStep exDefaults) noSignals).blocks,
          block.tenantId = "t1" ∧ block.subject = .number exFirst := by decide
    have habuse := h block hblock
    have htimes : (exCrash.foldl (sipStep exDefaults) noSignals).seen.filterMap
        (Seen.numberTime "t1" exFirst) = [400000, 300000, 200000, 100000, 0] := by decide
    rw [htenant, hsubject, Justified, NumberAbuse, htimes] at habuse
    obtain ⟨start, hall⟩ := habuse.all (by decide)
    have hfirst := (hall 0 (by decide)).1
    have hlast := (hall 400000 (by decide)).2
    rw [show numberWindowSeconds exDefaults = 60 by decide] at hlast
    omega
  · intro h
    obtain ⟨block, hblock, hsubject⟩ : ∃ block ∈ (exSlow.foldl (sipStep exDefaults) noSignals).blocks,
        block.subject = .ip exAddress := by decide
    have habuse := h block hblock
    rw [hsubject] at habuse
    rcases habuse with hflood | hrotation
    · have htimes : ((exSlow.foldl (sipStep exDefaults) noSignals).seen.filterMap
          (Seen.ipTime exAddress)).length = 5 := by decide
      obtain ⟨start, hmany⟩ := hflood
      have hfew := hmany.trans List.countP_le_length
      rw [htimes] at hfew
      exact absurd hfew (by decide)
    · have hmarkers : (exSlow.foldl (sipStep exDefaults) noSignals).seen.filterMap
          (Seen.markerOf exAddress) =
            exNumbers.reverse.zip [295000, 236000, 177000, 118000, 59000] := by decide
      rw [IpRotation, hmarkers] at hrotation
      obtain ⟨start, hall⟩ := hrotation.all (by decide)
      obtain ⟨first, hfirst, hstart, -⟩ := hall exFirst (by decide)
      obtain ⟨last, hlast, -, hend⟩ := hall exLast (by decide)
      have htimes : ∀ entry ∈ exNumbers.reverse.zip [295000, 236000, 177000, 118000, (59000 : Int)],
          (entry.1 = exFirst → entry.2 = 59000) ∧ (entry.1 = exLast → entry.2 = 295000) := by
        decide
      have hsame : first = 59000 := (htimes _ hfirst).1 rfl
      have hlate : last = 295000 := (htimes _ hlast).2 rfl
      rw [show ipWindowSeconds exDefaults = 60 by decide] at hend
      omega

end KasterCti.SipSecurity
