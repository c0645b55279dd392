import KasterCti.Library.Trace
import Mathlib

/-!
# The call of the softphone

`SipSoftphoneClient.cs`: an INVITE rings, `AnswerAsync` opens the sound and waits for the user
agent, and either side hangs up. A step runs to its end, or to the `await` of `AnswerAsync`,
before the next one; the user agent answers true or false at any later time. The registration is
left out, and the user agent tells nothing by itself when it is closed or hung up.

Results:
1. `endCall_idle`, `endCall_busy`: the end of a call.
2. `softphone_lifecycle`: in which runs the fields, the status and the notifications agree.
-/

namespace KasterCti.Desktop

open Trace

/-! ## The softphone -/

inductive SoftphoneCallState
  | idle | ringing | answered | ended
deriving DecidableEq

structure IncomingCallInfo where
  dialogId : String
  remoteNumber : String
  remoteDisplayName : String
deriving DecidableEq

structure SoftphoneCallStatus where
  state : SoftphoneCallState
  call : Option IncomingCallInfo
  reason : Option String
deriving DecidableEq

/-- The pending call is known by its INVITE, an audio end point by the number of the
`AnswerAsync` that opened it. `answering` are the calls of `AnswerAsync` at their `await`,
`notified` is what `CallStatusChanged` told, latest first, and `stoppedLast` says whether the
last step to start was `Stop`. -/
structure Softphone where
  userAgent : Bool
  pendingCall : Option IncomingCallInfo
  audio : Option Nat
  callStatus : SoftphoneCallStatus
  answering : List Nat
  notified : List SoftphoneCallStatus
  stoppedLast : Bool

def idleStatus : SoftphoneCallStatus := ⟨.idle, none, none⟩

/-- After `Start`. -/
def Softphone.started : Softphone := ⟨true, none, none, idleStatus, [], [], false⟩

def Softphone.raiseCall (s : Softphone) (status : SoftphoneCallStatus) : Softphone :=
  if s.callStatus = status then s
  else { s with callStatus := status, notified := status :: s.notified }

def Softphone.endCall (s : Softphone) (reason : String) : Softphone :=
  if s.callStatus.state = .idle then s
  else
    ({ s with audio := none, pendingCall := none }.raiseCall
      ⟨.ended, none, some reason⟩).raiseCall idleStatus

def Softphone.handleIncomingCall (s : Softphone) (info : IncomingCallInfo) : Softphone :=
  { s with pendingCall := some info }.raiseCall ⟨.ringing, some info, none⟩

/-- `AnswerAsync` up to its `await`. -/
def Softphone.answerAsync (s : Softphone) (n : Nat) : Softphone :=
  if s.pendingCall = none || !s.userAgent then s else { s with answering := n :: s.answering }

/-- `AnswerAsync` from what the user agent answered. -/
def Softphone.answerDone (s : Softphone) (n : Nat) (answered : Bool) : Softphone :=
  let s := { s with answering := s.answering.filter (fun m => m ≠ n) }
  if answered then
    { s with audio := some n, pendingCall := none }.raiseCall ⟨.answered, s.callStatus.call, none⟩
  else s.endCall "응답에 실패했다"

def Softphone.hangup (s : Softphone) : Softphone :=
  (if s.pendingCall = none then s else { s with pendingCall := none }).endCall "이 단말에서 끊었다"

/-- `OnCallHungup`. -/
def Softphone.remoteHungup (s : Softphone) : Softphone := s.endCall "상대가 끊었다"

/-- `StopCore`, what it does to the call. -/
def Softphone.stop (s : Softphone) : Softphone :=
  { s with audio := none, pendingCall := none, userAgent := false }

inductive SoftphoneStep
  | incoming (info : IncomingCallInfo)
  | answerAsync (n : Nat)
  | answered (n : Nat) (answered : Bool)
  | hangup
  | remoteHungup
  | stop

/-- An INVITE comes only to an idle softphone; a label that does not fit changes nothing. -/
def softphoneStep (s : Softphone) : SoftphoneStep → Softphone
  | .incoming info =>
    if s.callStatus.state = .idle then { s with stoppedLast := false }.handleIncomingCall info
    else s
  | .answerAsync n =>
    if n ∈ s.answering then s else { s with stoppedLast := false }.answerAsync n
  | .answered n answered => if n ∈ s.answering then s.answerDone n answered else s
  | .hangup => { s with stoppedLast := false }.hangup
  | .remoteHungup => { s with stoppedLast := false }.remoteHungup
  | .stop => { s with stoppedLast := true }.stop

def softphoneAfter (steps : List SoftphoneStep) : Softphone :=
  steps.foldl softphoneStep .started

/-! ## What should agree -/

/-- Sound is open for a call that was answered, a call is pending while it rings, and a softphone
that was stopped last is idle. -/
structure Agrees (s : Softphone) : Prop where
  audio : s.audio ≠ none ↔ s.callStatus.state = .answered ∧ s.callStatus.call ≠ none
  pending : s.pendingCall ≠ none ↔ s.callStatus.state = .ringing
  stopped : s.stoppedLast = true → s.callStatus.state = .idle

/-- Two `Ringing` in a row have one `Ended` between them. -/
def OneEnded (notified : List SoftphoneCallStatus) : Prop :=
  ∀ later second mid first earlier, notified = later ++ second :: mid ++ first :: earlier →
    second.state = .ringing → first.state = .ringing → (∀ status ∈ mid, status.state ≠ .ringing) →
    mid.countP (fun status => status.state = .ended) = 1

structure Lifecycle (s : Softphone) : Prop where
  agrees : s.answering = [] → Agrees s
  once : OneEnded s.notified

/-- The line is stopped only when it is idle, and a call that was answered has not ended before. -/
def Orderly (s : Softphone) : SoftphoneStep → Prop
  | .stop => s.callStatus.state = .idle
  | .answered n true => n ∈ s.answering → s.callStatus.state ≠ .idle
  | _ => True

instance (s : Softphone) (step : SoftphoneStep) : Decidable (Orderly s step) :=
  match step with
  | .stop => inferInstanceAs (Decidable (_ = _))
  | .answered n true => inferInstanceAs (Decidable (n ∈ s.answering → _))
  | .answered _ false => .isTrue trivial
  | .incoming _ => .isTrue trivial
  | .answerAsync _ => .isTrue trivial
  | .hangup => .isTrue trivial
  | .remoteHungup => .isTrue trivial

/-! ## Notifications -/

/-- How many `Ended` came after the last `Ringing`, where there was one. -/
def endedSince : List SoftphoneCallStatus → Option Nat
  | [] => none
  | status :: earlier =>
    match status.state with
    | .ringing => some 0
    | .ended => (endedSince earlier).map (· + 1)
    | _ => endedSince earlier

theorem endedSince_append {first : SoftphoneCallStatus} (hfirst : first.state = .ringing)
    {mid : List SoftphoneCallStatus} (earlier : List SoftphoneCallStatus)
    (hmid : ∀ status ∈ mid, status.state ≠ .ringing) :
    endedSince (mid ++ first :: earlier) =
      some (mid.countP (fun status => status.state = .ended)) := by
  induction mid with
  | nil => simp [endedSince, hfirst]
  | cons status mid ih =>
    obtain ⟨hstatus, hmid⟩ := List.forall_mem_cons.1 hmid
    rw [List.cons_append, endedSince, ih hmid, List.countP_cons]
    cases hstate : status.state with
    | ringing => exact absurd hstate hstatus
    | ended => rfl
    | _ => rfl

theorem oneEnded_nil : OneEnded [] := by
  intro later second mid first earlier h
  simp at h

theorem oneEnded_cons {status : SoftphoneCallStatus} {notified : List SoftphoneCallStatus}
    (h : OneEnded notified)
    (hringing : status.state = .ringing → endedSince notified = none ∨ endedSince notified = some 1) :
    OneEnded (status :: notified) := by
  intro later second mid first earlier hsplit hsecond hfirst hmid
  cases later with
  | nil =>
    obtain ⟨rfl, rfl⟩ := List.cons.inj hsplit
    have hsince := hringing hsecond
    rw [List.append_eq, endedSince_append hfirst earlier hmid] at hsince
    simpa using hsince
  | cons status later =>
    obtain ⟨rfl, hrest⟩ := List.cons.inj hsplit
    exact h later second mid first earlier hrest hsecond hfirst hmid

/-! ## One step -/

/-- The fields of an orderly softphone, by its status. -/
inductive Phase (s : Softphone) : Prop
  | idle : s.callStatus = idleStatus → s.pendingCall = none → s.audio = none →
      endedSince s.notified = none ∨ endedSince s.notified = some 1 → Phase s
  | ringing (info : IncomingCallInfo) : s.callStatus = ⟨.ringing, some info, none⟩ →
      s.pendingCall = some info → s.audio = none → endedSince s.notified = some 0 → Phase s
  | answered (info : IncomingCallInfo) (n : Nat) : s.callStatus = ⟨.answered, some info, none⟩ →
      s.pendingCall = none → s.audio = some n → endedSince s.notified = some 0 → Phase s

structure Tidy (s : Softphone) : Prop where
  phase : Phase s
  stopped : s.stoppedLast = true → s.callStatus.state = .idle
  once : OneEnded s.notified

section Step
variable {s : Softphone}

theorem raiseCall_of_ne {status : SoftphoneCallStatus} (h : s.callStatus.state ≠ status.state) :
    s.raiseCall status = { s with callStatus := status, notified := status :: s.notified } := by
  rw [Softphone.raiseCall, if_neg]
  exact fun heq => h (congrArg SoftphoneCallStatus.state heq)

theorem endCall_idle (h : s.callStatus.state = .idle) (reason : String) : s.endCall reason = s := by
  rw [Softphone.endCall, if_pos h]

/-- A call that was not over is told as ended, and the softphone is idle. -/
theorem endCall_busy (h : s.callStatus.state = .ringing ∨ s.callStatus.state = .answered)
    (reason : String) :
    s.endCall reason = { s with
      audio := none
      pendingCall := none
      callStatus := idleStatus
      notified := idleStatus :: ⟨.ended, none, some reason⟩ :: s.notified } := by
  have hidle : s.callStatus.state ≠ .idle := by
    rcases h with h | h <;> rw [h] <;> rintro ⟨⟩
  have hended : s.callStatus.state ≠ .ended := by
    rcases h with h | h <;> rw [h] <;> rintro ⟨⟩
  have htold := @raiseCall_of_ne { s with audio := none, pendingCall := none }
    ⟨.ended, none, some reason⟩ hended
  rw [Softphone.endCall, if_neg hidle, htold, raiseCall_of_ne (by rintro ⟨⟩)]

theorem Phase.busy (h : Phase s) (hstate : s.callStatus.state ≠ .idle) :
    (s.callStatus.state = .ringing ∨ s.callStatus.state = .answered) ∧
      endedSince s.notified = some 0 := by
  cases h with
  | idle hstatus => exact absurd (congrArg SoftphoneCallStatus.state hstatus) hstate
  | ringing info hstatus hpending haudio hsince =>
    exact ⟨.inl (congrArg SoftphoneCallStatus.state hstatus), hsince⟩
  | answered info n hstatus hpending haudio hsince =>
    exact ⟨.inr (congrArg SoftphoneCallStatus.state hstatus), hsince⟩

theorem Tidy.endCall (h : Tidy s) (reason : String) : Tidy (s.endCall reason) := by
  by_cases hidle : s.callStatus.state = .idle
  · rw [endCall_idle hidle]
    exact h
  · obtain ⟨hbusy, hsince⟩ := h.phase.busy hidle
    rw [endCall_busy hbusy]
    refine ⟨.idle rfl rfl rfl (.inr ?_), fun _ => rfl, ?_⟩
    · show (endedSince s.notified).map (· + 1) = some 1
      rw [hsince]
      rfl
    · exact oneEnded_cons (oneEnded_cons h.once (by rintro ⟨⟩)) (by rintro ⟨⟩)

/-- To take the pending call back first makes no difference to the end of the call. -/
theorem hangup_eq (h : Tidy s) : s.hangup = s.endCall "이 단말에서 끊었다" := by
  rw [Softphone.hangup]
  split
  · rfl
  · rename_i hpending
    have hidle : s.callStatus.state ≠ .idle := by
      cases h.phase with
      | idle hstatus hnone => exact absurd hnone hpending
      | ringing info hstatus => rw [hstatus]; rintro ⟨⟩
      | answered info n hstatus => rw [hstatus]; rintro ⟨⟩
    obtain ⟨hbusy, -⟩ := h.phase.busy hidle
    rw [endCall_busy hbusy]
    exact @endCall_busy { s with pendingCall := none } hbusy "이 단말에서 끊었다"

theorem Phase.congr {s' : Softphone} (h : Phase s) (hstatus : s'.callStatus = s.callStatus)
    (hpending : s'.pendingCall = s.pendingCall) (haudio : s'.audio = s.audio)
    (hnotified : s'.notified = s.notified) : Phase s' := by
  cases h with
  | idle hidle hnone hsilent hsince =>
    exact .idle (hstatus.trans hidle) (hpending.trans hnone) (haudio.trans hsilent)
      (hnotified ▸ hsince)
  | ringing info hringing hcall hsilent hsince =>
    exact .ringing info (hstatus.trans hringing) (hpending.trans hcall) (haudio.trans hsilent)
      (hnotified ▸ hsince)
  | answered info n hanswered hnone hopen hsince =>
    exact .answered info n (hstatus.trans hanswered) (hpending.trans hnone) (haudio.trans hopen)
      (hnotified ▸ hsince)

/-- A step other than `Stop` starts. -/
theorem Tidy.starts (h : Tidy s) : Tidy { s with stoppedLast := false } :=
  ⟨h.phase.congr rfl rfl rfl rfl, by rintro ⟨⟩, h.once⟩

theorem Tidy.incoming (h : Tidy s) (hidle : s.callStatus.state = .idle)
    (hstopped : s.stoppedLast = false) (info : IncomingCallInfo) :
    Tidy (s.handleIncomingCall info) := by
  have hringing : s.callStatus.state ≠ .ringing := by
    rw [hidle]
    rintro ⟨⟩
  rw [Softphone.handleIncomingCall, raiseCall_of_ne hringing]
  refine ⟨?_, fun hstop => absurd hstop (Bool.eq_false_iff.1 hstopped), ?_⟩
  · cases h.phase with
    | idle hstatus hpending haudio hsince => exact .ringing info rfl rfl haudio rfl
    | ringing other hstatus => exact absurd (congrArg SoftphoneCallStatus.state hstatus) hringing
    | answered other n hstatus => rw [hstatus] at hidle; cases hidle
  · refine oneEnded_cons h.once fun _ => ?_
    cases h.phase with
    | idle hstatus hpending haudio hsince => exact hsince
    | ringing other hstatus => exact absurd (congrArg SoftphoneCallStatus.state hstatus) hringing
    | answered other n hstatus => rw [hstatus] at hidle; cases hidle

theorem Tidy.answerAsync (h : Tidy s) (n : Nat) : Tidy (s.answerAsync n) := by
  rw [Softphone.answerAsync]
  split
  · exact h
  · exact ⟨h.phase.congr rfl rfl rfl rfl, h.stopped, h.once⟩

/-- The user agent answered true while the call rang, or once more after that. -/
theorem Tidy.answered (h : Tidy s) (hbusy : s.callStatus.state ≠ .idle) (n : Nat) :
    Tidy ({ s with audio := some n, pendingCall := none }.raiseCall
      ⟨.answered, s.callStatus.call, none⟩) := by
  have hstopped : s.stoppedLast = true → False := fun hstop => hbusy (h.stopped hstop)
  cases h.phase with
  | idle hstatus => exact absurd (congrArg SoftphoneCallStatus.state hstatus) hbusy
  | ringing info hstatus hpending haudio hsince =>
    rw [raiseCall_of_ne (show s.callStatus.state ≠ .answered by rw [hstatus]; rintro ⟨⟩)]
    refine ⟨.answered info n ?_ rfl rfl hsince, fun hstop => (hstopped hstop).elim, ?_⟩
    · rw [hstatus]
    · exact oneEnded_cons h.once (by rintro ⟨⟩)
  | answered info m hstatus hpending haudio hsince =>
    have hsame : s.callStatus = ⟨.answered, s.callStatus.call, none⟩ := by rw [hstatus]
    rw [Softphone.raiseCall, if_pos hsame]
    exact ⟨.answered info n hstatus rfl rfl hsince, fun hstop => (hstopped hstop).elim, h.once⟩

theorem Tidy.step (h : Tidy s) {step : SoftphoneStep} (horderly : Orderly s step) :
    Tidy (softphoneStep s step) := by
  cases step with
  | incoming info =>
    rw [softphoneStep]
    split
    · rename_i hidle
      exact h.starts.incoming hidle rfl info
    · exact h
  | answerAsync n =>
    rw [softphoneStep]
    split
    · exact h
    · exact h.starts.answerAsync n
  | answered n answered =>
    rw [softphoneStep]
    split
    · rename_i hmem
      have hawake : Tidy { s with answering := s.answering.filter (fun m => m ≠ n) } :=
        ⟨h.phase.congr rfl rfl rfl rfl, h.stopped, h.once⟩
      cases answered with
      | true => exact hawake.answered (horderly hmem) n
      | false => exact hawake.endCall "응답에 실패했다"
    · exact h
  | hangup =>
    rw [softphoneStep, hangup_eq h.starts]
    exact h.starts.endCall "이 단말에서 끊었다"
  | remoteHungup => exact h.starts.endCall "상대가 끊었다"
  | stop =>
    have hidle : s.callStatus.state = .idle := horderly
    refine ⟨?_, fun _ => hidle, h.once⟩
    cases h.phase with
    | idle hstatus hpending haudio hsince => exact .idle hstatus rfl rfl hsince
    | ringing info hstatus => rw [hstatus] at hidle; cases hidle
    | answered info n hstatus => rw [hstatus] at hidle; cases hidle

end Step

/-! ## Runs -/

theorem tidy_run {steps : List SoftphoneStep}
    (h : Along softphoneStep Orderly .started steps) : Tidy (softphoneAfter steps) :=
  h.invariant (fun _ _ horderly htidy => htidy.step horderly)
    ⟨.idle rfl rfl rfl (.inl rfl), by rintro ⟨⟩, oneEnded_nil⟩

theorem Tidy.lifecycle {s : Softphone} (h : Tidy s) : Lifecycle s where
  agrees _ := by
    cases h.phase with
    | idle hstatus hpending haudio =>
      refine ⟨?_, ?_, h.stopped⟩
      · simp [haudio, hstatus, idleStatus]
      · simp [hpending, hstatus, idleStatus]
    | ringing info hstatus hpending haudio | answered info n hstatus hpending haudio =>
      refine ⟨?_, ?_, h.stopped⟩
      · simp [haudio, hstatus]
      · simp [hpending, hstatus]
  once := h.once

/-- The first disorderly step breaks the agreement, where no answer is awaited after it. -/
theorem orderly_of_agrees {s : Softphone} (h : Tidy s) {step : SoftphoneStep}
    (hagrees : Agrees (softphoneStep s step)) : Orderly s step := by
  cases step with
  | stop => exact hagrees.stopped rfl
  | answered n answered =>
    cases answered with
    | true =>
      intro hmem hidle
      have hstatus : s.callStatus = idleStatus := by
        cases h.phase with
        | idle hstatus => exact hstatus
        | ringing info hstatus => rw [hstatus] at hidle; cases hidle
        | answered info m hstatus => rw [hstatus] at hidle; cases hidle
      have hdone : softphoneStep s (.answered n true) = { s with
          answering := s.answering.filter (fun m => m ≠ n)
          audio := some n
          pendingCall := none
          callStatus := ⟨.answered, s.callStatus.call, none⟩
          notified := ⟨.answered, s.callStatus.call, none⟩ :: s.notified } := by
        rw [softphoneStep, if_pos hmem]
        exact raiseCall_of_ne (by show s.callStatus.state ≠ .answered; rw [hidle]; rintro ⟨⟩)
      rw [hdone] at hagrees
      refine (hagrees.audio.1 (Option.some_ne_none n)).2 ?_
      show s.callStatus.call = none
      rw [hstatus]
      rfl
    | false => trivial
  | _ => trivial

/-- In every run where the line is stopped only when idle, and where no call is answered after its
end, the fields agree with the status whenever no answer is awaited, and one `Ended` stands between
two `Ringing`. The first step of another kind breaks that, unless an answer is still awaited. -/
theorem softphone_lifecycle (steps : List SoftphoneStep)
    (h : Along softphoneStep Orderly .started steps) :
    Lifecycle (softphoneAfter steps) ∧
    ∀ step, (softphoneAfter (steps ++ [step])).answering = [] →
      (Lifecycle (softphoneAfter (steps ++ [step])) ↔ Orderly (softphoneAfter steps) step) := by
  have htidy := tidy_run h
  refine ⟨htidy.lifecycle, fun step hawaited => ?_⟩
  have hlast : softphoneAfter (steps ++ [step]) = softphoneStep (softphoneAfter steps) step :=
    List.foldl_append
  rw [hlast] at hawaited ⊢
  exact ⟨fun hlife => orderly_of_agrees htidy (hlife.agrees hawaited),
    fun horderly => (htidy.step horderly).lifecycle⟩

def exInfo : IncomingCallInfo := ⟨"dialog-1", "01012345678", ""⟩

/-- A call is answered and hung up, and the line is stopped. -/
theorem softphone_lifecycle_exCall :
    Lifecycle (softphoneAfter [.incoming exInfo, .answerAsync 0, .answered 0 true, .hangup, .stop]) :=
  (softphone_lifecycle [.incoming exInfo, .answerAsync 0, .answered 0 true, .hangup, .stop]
    (by decide)).1

/-- The caller hangs up while the softphone answers, and the answer succeeds. -/
theorem microphone_left_open : ¬ ∀ steps, Lifecycle (softphoneAfter steps) := by
  intro h
  have hagrees := (h [.incoming exInfo, .answerAsync 0, .remoteHungup, .answered 0 true]).agrees
    (by decide)
  exact (hagrees.audio.1 (by decide)).2 (by decide)

end KasterCti.Desktop
