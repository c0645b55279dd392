import KasterCti.Library.Trace
import Mathlib

/-!
# Token rotation of the desktop client

`TokenRefreshHandler.cs`: every request of the client carries the stored access token, and a 401
rotates the pair once and sends the request a second time. Requests interleave at every `await`.
The body of a request is buffered, the inner handler and the refresh call answer or throw, and a
wait for the gate can be cancelled. The store and the gate do not fail.

Results:
1. `step_move`: what a step can do.
2. `token_rotation`: what the gate ensures for any answers, and what it ensures where a refresh
   hands out new tokens.
-/

namespace KasterCti.Desktop

open Trace

/-! ## Requests and refresh calls -/

structure TokenPair where
  accessToken : String
  refreshToken : String
deriving DecidableEq

structure HttpRequest where
  method : String
  requestUri : String
  headers : List (String × String)
  content : Option (List UInt8)
deriving DecidableEq

/-- A clone of the request, as the inner handler gets it. -/
structure SentMessage where
  request : HttpRequest
  authorization : Option String
deriving DecidableEq

/-- What the inner handler does. -/
inductive Reply
  | status (code : Nat)
  | threw
deriving DecidableEq

inductive RefreshOutcome
  | returned (pair : Option TokenPair)
  | threw
deriving DecidableEq

/-- A call of the refresh function, made by the request of this number; one that still runs has
no outcome. -/
structure RefreshCall where
  request : Nat
  token : String
  outcome : Option RefreshOutcome

/-- The `await` that a request stands at. -/
inductive SendPhase
  | buffering
  | sending (used : Option String)
  | waiting (used : Option String)
  | refreshing (current : TokenPair)
  | resending
  | done

structure Sending where
  original : HttpRequest
  phase : SendPhase
  sent : List SentMessage

/-- The calls of the refresh function and the pairs signed out of are kept latest first. -/
structure HandlerState where
  store : Option TokenPair
  gateFree : Bool
  sendings : Nat → Option Sending
  refreshCalls : List RefreshCall
  signedOut : List TokenPair

def HandlerState.initial (store : Option TokenPair) : HandlerState :=
  ⟨store, true, fun _ => none, [], []⟩

/-! ## The handler -/

/-- `SendOnceAsync`, up to its `await`. -/
def sendOnce (original : HttpRequest) (accessToken : Option String) : SentMessage :=
  ⟨original, accessToken.filter (fun token => token ≠ "")⟩

def Sending.sendFirst (r : Sending) (used : Option String) : Sending :=
  { r with phase := .sending used, sent := r.sent ++ [sendOnce r.original used] }

def Sending.resend (r : Sending) (accessToken : String) : Sending :=
  { r with phase := .resending, sent := r.sent ++ [sendOnce r.original (some accessToken)] }

def HandlerState.setSending (s : HandlerState) (n : Nat) (r : Sending) : HandlerState :=
  { s with sendings := Function.update s.sendings n (some r) }

def HandlerState.finish (s : HandlerState) (n : Nat) (r : Sending) : HandlerState :=
  s.setSending n { r with phase := .done }

/-- `RotateAsync` from the gate to the refresh call. Where it needs none, the gate is free again
before the next `await`. -/
def HandlerState.enter (s : HandlerState) (n : Nat) (r : Sending) (used : Option String) :
    HandlerState :=
  match s.store with
  | none => s.finish n r
  | some current =>
    if some current.accessToken ≠ used then s.setSending n (r.resend current.accessToken)
    else
      { s with
        gateFree := false
        refreshCalls := ⟨n, current.refreshToken, none⟩ :: s.refreshCalls }.setSending n
          { r with phase := .refreshing current }

def settle (n : Nat) (outcome : RefreshOutcome) (calls : List RefreshCall) : List RefreshCall :=
  calls.map fun call =>
    if call.request = n && call.outcome = none then { call with outcome := some outcome } else call

/-- `RotateAsync` from the refresh call to its end; an exception passes through `finally`. -/
def HandlerState.rotated (s : HandlerState) (n : Nat) (r : Sending) (current : TokenPair)
    (outcome : RefreshOutcome) : HandlerState :=
  let s := { s with gateFree := true, refreshCalls := settle n outcome s.refreshCalls }
  match outcome with
  | .threw => s.finish n r
  | .returned none => { s with store := none, signedOut := current :: s.signedOut }.finish n r
  | .returned (some pair) => { s with store := some pair }.setSending n (r.resend pair.accessToken)

inductive TokenAction
  | start (n : Nat) (request : HttpRequest)
  | buffered (n : Nat) (ok : Bool)
  | replied (n : Nat) (reply : Reply)
  | entered (n : Nat)
  | cancelled (n : Nat)
  | refreshed (n : Nat) (outcome : RefreshOutcome)

def HandlerState.buffered (s : HandlerState) (n : Nat) (r : Sending) (ok : Bool) : HandlerState :=
  match r.phase with
  | .buffering =>
    if ok then s.setSending n (r.sendFirst (s.store.map TokenPair.accessToken)) else s.finish n r
  | _ => s

def HandlerState.replied (s : HandlerState) (n : Nat) (r : Sending) (reply : Reply) :
    HandlerState :=
  match r.phase with
  | .sending used =>
    if reply = .status 401 then s.setSending n { r with phase := .waiting used } else s.finish n r
  | .resending => s.finish n r
  | _ => s

def HandlerState.entered (s : HandlerState) (n : Nat) (r : Sending) : HandlerState :=
  match r.phase with
  | .waiting used => if s.gateFree then s.enter n r used else s
  | _ => s

def HandlerState.cancelled (s : HandlerState) (n : Nat) (r : Sending) : HandlerState :=
  match r.phase with
  | .waiting _ => s.finish n r
  | _ => s

def HandlerState.refreshed (s : HandlerState) (n : Nat) (r : Sending) (outcome : RefreshOutcome) :
    HandlerState :=
  match r.phase with
  | .refreshing current => s.rotated n r current outcome
  | _ => s

/-- A step of the request `n`; a label that does not fit it changes nothing. -/
def tokenStep (s : HandlerState) : TokenAction → HandlerState
  | .start n request =>
    if s.sendings n = none then s.setSending n ⟨request, .buffering, []⟩ else s
  | .buffered n ok => (s.sendings n).elim s fun r => s.buffered n r ok
  | .replied n reply => (s.sendings n).elim s fun r => s.replied n r reply
  | .entered n => (s.sendings n).elim s fun r => s.entered n r
  | .cancelled n => (s.sendings n).elim s fun r => s.cancelled n r
  | .refreshed n outcome => (s.sendings n).elim s fun r => s.refreshed n r outcome

def handlerAfter (store : Option TokenPair) (actions : List TokenAction) : HandlerState :=
  actions.foldl tokenStep (.initial store)

/-! ## What a step can do -/

inductive Move (s : HandlerState) : TokenAction → HandlerState → Prop
  | idle (a : TokenAction) : Move s a s
  | start (n : Nat) (request : HttpRequest) : s.sendings n = none →
      Move s (.start n request) (s.setSending n ⟨request, .buffering, []⟩)
  | send (n : Nat) (r : Sending) : s.sendings n = some r → r.phase = .buffering →
      Move s (.buffered n true) (s.setSending n (r.sendFirst (s.store.map TokenPair.accessToken)))
  | wait (n : Nat) (r : Sending) (used : Option String) : s.sendings n = some r →
      r.phase = .sending used →
      Move s (.replied n (.status 401)) (s.setSending n { r with phase := .waiting used })
  | reuse (n : Nat) (r : Sending) (used : Option String) (current : TokenPair) :
      s.sendings n = some r → r.phase = .waiting used → s.store = some current →
      some current.accessToken ≠ used →
      Move s (.entered n) (s.setSending n (r.resend current.accessToken))
  | refresh (n : Nat) (r : Sending) (current : TokenPair) : s.sendings n = some r →
      r.phase = .waiting (some current.accessToken) → s.gateFree = true → s.store = some current →
      Move s (.entered n) (s.enter n r (some current.accessToken))
  | rotated (n : Nat) (r : Sending) (current : TokenPair) (outcome : RefreshOutcome) :
      s.sendings n = some r → r.phase = .refreshing current →
      Move s (.refreshed n outcome) (s.rotated n r current outcome)
  | finish (a : TokenAction) (n : Nat) (r : Sending) : s.sendings n = some r →
      (∀ current, r.phase ≠ .refreshing current) → Move s a (s.finish n r)

theorem move_entered {s : HandlerState} {n : Nat} {r : Sending} (h : s.sendings n = some r) :
    Move s (.entered n) (s.entered n r) := by
  rw [HandlerState.entered]
  split
  · rename_i used hphase
    split
    · rename_i hfree
      have hwaits : ∀ current, r.phase ≠ .refreshing current := by
        intro current hrefreshing
        rw [hphase] at hrefreshing
        cases hrefreshing
      cases hstore : s.store with
      | none =>
        rw [HandlerState.enter, hstore]
        exact .finish _ n r h hwaits
      | some current =>
        by_cases hused : some current.accessToken = used
        · rw [← hused] at hphase ⊢
          exact .refresh n r current h hphase hfree hstore
        · rw [HandlerState.enter, hstore]
          simp only [if_pos hused]
          exact .reuse n r used current h hphase hstore hused
    · exact .idle _
  · exact .idle _

theorem step_move (s : HandlerState) (a : TokenAction) : Move s a (tokenStep s a) := by
  cases a with
  | start n request =>
    rw [tokenStep]
    split
    · rename_i hfree
      exact .start n request hfree
    · exact .idle _
  | buffered n ok =>
    rw [tokenStep]
    cases hr : s.sendings n with
    | none => exact .idle _
    | some r =>
      rw [Option.elim_some, HandlerState.buffered]
      split
      · rename_i hphase
        cases ok with
        | true => exact .send n r hr hphase
        | false => exact .finish _ n r hr fun current hrefreshing => by cases hphase ▸ hrefreshing
      · exact .idle _
  | replied n reply =>
    rw [tokenStep]
    cases hr : s.sendings n with
    | none => exact .idle _
    | some r =>
      rw [Option.elim_some, HandlerState.replied]
      split
      · rename_i used hphase
        split
        · rename_i hcode
          subst hcode
          exact .wait n r used hr hphase
        · exact .finish _ n r hr fun current hrefreshing => by cases hphase ▸ hrefreshing
      · rename_i hphase
        exact .finish _ n r hr fun current hrefreshing => by cases hphase ▸ hrefreshing
      · exact .idle _
  | entered n =>
    rw [tokenStep]
    cases hr : s.sendings n with
    | none => exact .idle _
    | some r => exact move_entered hr
  | cancelled n =>
    rw [tokenStep]
    cases hr : s.sendings n with
    | none => exact .idle _
    | some r =>
      rw [Option.elim_some, HandlerState.cancelled]
      split
      · rename_i hphase
        exact .finish _ n r hr fun current hrefreshing => by cases hphase ▸ hrefreshing
      · exact .idle _
  | refreshed n outcome =>
    rw [tokenStep]
    cases hr : s.sendings n with
    | none => exact .idle _
    | some r =>
      rw [Option.elim_some, HandlerState.refreshed]
      split
      · rename_i current hphase
        exact .rotated n r current outcome hr hphase
      · exact .idle _

/-! ## One request at the refresh call -/

/-- What a request has sent at its `await`. -/
def Sending.SentAs (r : Sending) : Prop :=
  match r.phase with
  | .buffering => r.sent = []
  | .sending used => r.sent = [sendOnce r.original used]
  | .waiting used => r.sent = [sendOnce r.original used]
  | .refreshing current => r.sent = [sendOnce r.original (some current.accessToken)]
  | .resending => r.sent.length ≤ 2
  | .done => r.sent.length ≤ 2

/-- The request `n` stands at its refresh call. -/
def HandlerState.Refreshing (s : HandlerState) (n : Nat) (current : TokenPair) : Prop :=
  ∃ r, s.sendings n = some r ∧ r.phase = .refreshing current

/-- The invariant of the gate: who refreshes holds it, alone, and nobody else writes the store. -/
structure Gated (s : HandlerState) : Prop where
  holds : ∀ n current, s.Refreshing n current → s.gateFree = false ∧ s.store = some current
  alone : ∀ m n current current', s.Refreshing m current → s.Refreshing n current' → m = n
  running : ∀ call ∈ s.refreshCalls, call.outcome = none →
    ∃ current, s.Refreshing call.request current
  sent : ∀ n r, s.sendings n = some r → r.SentAs
  signedOut : s.signedOut = [] ∨ s.signedOut.length = 1 ∧ s.store = none

section Moves
variable {s : HandlerState} {n m : Nat} {r : Sending} {current : TokenPair}

theorem setSending_self (s : HandlerState) (n : Nat) (r : Sending) :
    (s.setSending n r).sendings n = some r := by
  simp only [HandlerState.setSending, Function.update_self]

theorem setSending_of_ne (s : HandlerState) (r : Sending) (h : m ≠ n) :
    (s.setSending n r).sendings m = s.sendings m := by
  simp only [HandlerState.setSending, Function.update_of_ne h]

/-- A request that was put elsewhere stands at no refresh call, the others stay. -/
theorem refreshing_setSending (h : ∀ current, r.phase ≠ .refreshing current) :
    (s.setSending n r).Refreshing m current ↔ m ≠ n ∧ s.Refreshing m current := by
  by_cases hm : m = n
  · subst hm
    constructor
    · rintro ⟨r', hr', hphase⟩
      rw [setSending_self, Option.some.injEq] at hr'
      subst hr'
      exact absurd hphase (h current)
    · exact fun hboth => absurd rfl hboth.1
  · rw [HandlerState.Refreshing, setSending_of_ne s r hm]
    exact ⟨fun hr => ⟨hm, hr⟩, fun hr => hr.2⟩

theorem sent_setSending (h : ∀ n r, s.sendings n = some r → r.SentAs) (hr : r.SentAs) :
    ∀ m r', (s.setSending n r).sendings m = some r' → r'.SentAs := by
  intro m r' hr'
  by_cases hm : m = n
  · subst hm
    rw [setSending_self, Option.some.injEq] at hr'
    exact hr' ▸ hr
  · rw [setSending_of_ne s r hm] at hr'
    exact h m r' hr'

theorem Sending.SentAs.length_le (h : r.SentAs) : r.sent.length ≤ 2 := by
  rw [Sending.SentAs] at h
  split at h <;> simp_all

/-- A request that does not refresh goes on to another `await` of that kind. -/
theorem Gated.setSending (h : Gated s) (hn : ∀ current, ¬ s.Refreshing n current)
    (hphase : ∀ current, r.phase ≠ .refreshing current) (hr : r.SentAs) :
    Gated (s.setSending n r) where
  holds m current hm := h.holds m current ((refreshing_setSending hphase).1 hm).2
  alone m m' current current' hm hm' :=
    h.alone m m' current current' ((refreshing_setSending hphase).1 hm).2
      ((refreshing_setSending hphase).1 hm').2
  running call hcall hnone := by
    obtain ⟨current, hrefreshing⟩ := h.running call hcall hnone
    refine ⟨current, (refreshing_setSending hphase).2 ⟨?_, hrefreshing⟩⟩
    intro heq
    exact hn current (heq ▸ hrefreshing)
  sent := sent_setSending h.sent hr
  signedOut := h.signedOut

theorem not_refreshing (hr : s.sendings n = some r) (hphase : ∀ current, r.phase ≠ .refreshing current)
    (current : TokenPair) : ¬ s.Refreshing n current := by
  rintro ⟨r', hr', hrefreshing⟩
  rw [hr, Option.some.injEq] at hr'
  subst hr'
  exact hphase current hrefreshing

theorem SentAs_done (h : r.SentAs) : Sending.SentAs { r with phase := .done } :=
  h.length_le

theorem Gated.finish (h : Gated s) (hr : s.sendings n = some r)
    (hphase : ∀ current, r.phase ≠ .refreshing current) : Gated (s.finish n r) :=
  h.setSending (not_refreshing hr hphase) (by rintro current ⟨⟩) (SentAs_done (h.sent n r hr))

theorem enter_refresh (hstore : s.store = some current) :
    s.enter n r (some current.accessToken) =
      { s with
        gateFree := false
        refreshCalls := ⟨n, current.refreshToken, none⟩ :: s.refreshCalls }.setSending n
          { r with phase := .refreshing current } := by
  rw [HandlerState.enter, hstore]
  exact if_neg (not_not.2 rfl)

theorem Gated.idle (h : Gated s) (hfree : s.gateFree = true) : ¬ s.Refreshing n current := by
  intro hn
  rw [(h.holds n current hn).1] at hfree
  cases hfree

theorem Gated.refresh (h : Gated s) (hr : s.sendings n = some r)
    (hphase : r.phase = .waiting (some current.accessToken)) (hfree : s.gateFree = true)
    (hstore : s.store = some current) : Gated (s.enter n r (some current.accessToken)) := by
  rw [enter_refresh hstore]
  -- the gate was free, so the request is the only one at a refresh call
  have honly : ∀ m current', HandlerState.Refreshing ({ s with
      gateFree := false
      refreshCalls := ⟨n, current.refreshToken, none⟩ :: s.refreshCalls }.setSending n
        { r with phase := .refreshing current }) m current' → m = n ∧ current' = current := by
    rintro m current' ⟨r', hr', hphase'⟩
    by_cases hm : m = n
    · subst hm
      rw [setSending_self, Option.some.injEq] at hr'
      subst hr'
      exact ⟨rfl, (SendPhase.refreshing.inj hphase').symm⟩
    · rw [setSending_of_ne _ _ hm] at hr'
      exact absurd ⟨r', hr', hphase'⟩ (h.idle hfree)
  refine ⟨?_, ?_, ?_, ?_, h.signedOut⟩
  · intro m current' hm
    obtain ⟨-, rfl⟩ := honly m current' hm
    exact ⟨rfl, hstore⟩
  · intro m m' c c' hm hm'
    exact (honly m c hm).1.trans (honly m' c' hm').1.symm
  · intro call hcall hnone
    rcases List.mem_cons.1 hcall with rfl | hcall
    · exact ⟨current, _, setSending_self _ _ _, rfl⟩
    · obtain ⟨current', hrefreshing⟩ := h.running call hcall hnone
      exact absurd hrefreshing (h.idle hfree)
  · refine sent_setSending h.sent ?_
    have hsent := h.sent n r hr
    rw [Sending.SentAs, hphase] at hsent
    exact hsent

theorem mem_settle {outcome : RefreshOutcome} {calls : List RefreshCall} {call : RefreshCall}
    (h : call ∈ settle n outcome calls) :
    (call ∈ calls ∧ (call.request = n → call.outcome ≠ none)) ∨
      ∃ old ∈ calls, old.request = n ∧ old.outcome = none ∧
        call = { old with outcome := some outcome } := by
  obtain ⟨old, hold, rfl⟩ := List.mem_map.1 h
  split
  · rename_i hboth
    simp only [Bool.and_eq_true, decide_eq_true_eq] at hboth
    exact .inr ⟨old, hold, hboth.1, hboth.2, rfl⟩
  · rename_i hnot
    simp only [Bool.and_eq_true, decide_eq_true_eq, not_and] at hnot
    exact .inl ⟨hold, hnot⟩

/-- The request that refreshes lets the gate go. -/
theorem Gated.release (h : Gated s) (hn : s.Refreshing n current) {store : Option TokenPair}
    {signedOut : List TokenPair} (outcome : RefreshOutcome)
    (hphase : ∀ current, r.phase ≠ .refreshing current) (hsent : r.SentAs)
    (hsigned : signedOut = [] ∨ signedOut.length = 1 ∧ store = none) :
    Gated ({ s with
      store := store
      gateFree := true
      refreshCalls := settle n outcome s.refreshCalls
      signedOut := signedOut }.setSending n r) := by
  have hnone : ∀ m current', ¬ HandlerState.Refreshing ({ s with
      store := store
      gateFree := true
      refreshCalls := settle n outcome s.refreshCalls
      signedOut := signedOut }.setSending n r) m current' := by
    intro m current' hm
    obtain ⟨hne, hm⟩ := (refreshing_setSending hphase).1 hm
    exact hne (h.alone m n current' current hm hn)
  refine ⟨fun m c hm => absurd hm (hnone m c), fun m m' c c' hm => absurd hm (hnone m c), ?_,
    sent_setSending h.sent hsent, hsigned⟩
  intro call hcall hopen
  rcases mem_settle hcall with ⟨hold, hnot⟩ | ⟨old, -, -, -, rfl⟩
  · obtain ⟨current', hrefreshing⟩ := h.running call hold hopen
    exact absurd hopen (hnot (h.alone _ n current' current hrefreshing hn))
  · cases hopen

theorem SentAs_resend (h : r.sent.length ≤ 1) (accessToken : String) :
    (r.resend accessToken).SentAs := by
  show (r.sent ++ [sendOnce r.original (some accessToken)]).length ≤ 2
  rw [List.length_append]
  exact Nat.add_le_add_right h 1

theorem Gated.not_signedOut (h : Gated s) (hn : s.Refreshing n current) : s.signedOut = [] := by
  refine h.signedOut.resolve_right fun hboth => ?_
  rw [(h.holds n current hn).2] at hboth
  cases hboth.2

theorem Gated.rotated (h : Gated s) (hr : s.sendings n = some r)
    (hphase : r.phase = .refreshing current) (outcome : RefreshOutcome) :
    Gated (s.rotated n r current outcome) := by
  have hn : s.Refreshing n current := ⟨r, hr, hphase⟩
  have hsent : r.sent.length ≤ 1 := by
    have hone := h.sent n r hr
    rw [Sending.SentAs, hphase] at hone
    rw [hone, List.length_singleton]
  have hdone : ∀ current : TokenPair, SendPhase.done ≠ .refreshing current := by rintro current ⟨⟩
  match outcome with
  | .threw =>
    exact h.release hn .threw hdone (Nat.le_succ_of_le hsent) (.inl (h.not_signedOut hn))
  | .returned none =>
    refine h.release hn (.returned none) hdone (Nat.le_succ_of_le hsent) (.inr ⟨?_, rfl⟩)
    rw [h.not_signedOut hn, List.length_singleton]
  | .returned (some pair) =>
    exact h.release hn (.returned (some pair)) (by rintro current ⟨⟩)
      (SentAs_resend hsent pair.accessToken) (.inl (h.not_signedOut hn))

theorem Gated.step (h : Gated s) (a : TokenAction) : Gated (tokenStep s a) := by
  have hmove := step_move s a
  generalize tokenStep s a = s' at hmove
  cases hmove with
  | idle => exact h
  | start n request hfree =>
    refine h.setSending ?_ (by rintro current ⟨⟩) rfl
    rintro current ⟨r, hr, -⟩
    rw [hfree] at hr
    cases hr
  | send n r hr hphase =>
    refine h.setSending (not_refreshing hr (by rw [hphase]; rintro current ⟨⟩))
      (by rintro current ⟨⟩) ?_
    have hsent := h.sent n r hr
    rw [Sending.SentAs, hphase] at hsent
    show r.sent ++ _ = [_]
    rw [hsent]
    rfl
  | wait n r used hr hphase =>
    refine h.setSending (not_refreshing hr (by rw [hphase]; rintro current ⟨⟩))
      (by rintro current ⟨⟩) ?_
    have hsent := h.sent n r hr
    rw [Sending.SentAs, hphase] at hsent
    exact hsent
  | reuse n r used current hr hphase =>
    refine h.setSending (not_refreshing hr (by rw [hphase]; rintro current ⟨⟩))
      (by rintro current ⟨⟩) (SentAs_resend ?_ current.accessToken)
    have hsent := h.sent n r hr
    rw [Sending.SentAs, hphase] at hsent
    rw [hsent, List.length_singleton]
  | refresh n r current hr hphase hfree hstore => exact h.refresh hr hphase hfree hstore
  | rotated n r current outcome hr hphase => exact h.rotated hr hphase outcome
  | finish _ n r hr hphase => exact h.finish hr hphase

end Moves

/-! ## Each refresh token once -/

/-- A refresh hands out a refresh token that no earlier call was made with, except calls that
threw. -/
def NewRefreshToken (s : HandlerState) : TokenAction → Prop
  | .refreshed _ (.returned (some pair)) =>
    ∀ call ∈ s.refreshCalls, call.outcome ≠ some .threw → call.token ≠ pair.refreshToken
  | _ => True

instance (s : HandlerState) (a : TokenAction) : Decidable (NewRefreshToken s a) :=
  match a with
  | .refreshed _ (.returned (some pair)) =>
    inferInstanceAs (Decidable (∀ call ∈ s.refreshCalls, call.outcome ≠ some .threw →
      call.token ≠ pair.refreshToken))
  | .refreshed _ (.returned none) => .isTrue trivial
  | .refreshed _ .threw => .isTrue trivial
  | .start _ _ => .isTrue trivial
  | .buffered _ _ => .isTrue trivial
  | .replied _ _ => .isTrue trivial
  | .entered _ => .isTrue trivial
  | .cancelled _ => .isTrue trivial

/-- No two calls have one token, unless the earlier one threw. -/
def SingleUse (s : HandlerState) : Prop :=
  s.refreshCalls.Pairwise fun later earlier =>
    later.token = earlier.token → earlier.outcome = some .threw

instance (s : HandlerState) : Decidable (SingleUse s) :=
  inferInstanceAs (Decidable (List.Pairwise _ _))

/-- The stored refresh token is unused, up to calls that run or threw. -/
def Unspent (s : HandlerState) : Prop :=
  ∀ pair ∈ s.store, ∀ call ∈ s.refreshCalls, call.token = pair.refreshToken →
    call.outcome = none ∨ call.outcome = some .threw

section SingleUse
variable {s : HandlerState} {n : Nat} {r : Sending} {current : TokenPair} {outcome : RefreshOutcome}

theorem settle_once {calls : List RefreshCall}
    (h : calls.Pairwise fun later earlier =>
      later.token = earlier.token → earlier.outcome = some .threw) :
    (settle n outcome calls).Pairwise fun later earlier =>
      later.token = earlier.token → earlier.outcome = some .threw := by
  have htoken : ∀ call : RefreshCall, (if call.request = n && call.outcome = none then
      { call with outcome := some outcome } else call).token = call.token := by
    intro call
    split <;> rfl
  refine List.Pairwise.map _ ?_ h
  intro later earlier hthrew hsame
  rw [htoken, htoken] at hsame
  have hnot : (earlier.request = n && earlier.outcome = none) = false := by
    rw [hthrew hsame]
    simp
  rw [hnot]
  exact hthrew hsame

theorem singleUse_refresh (h : SingleUse s) (hgate : Gated s) (hunspent : Unspent s)
    (hfree : s.gateFree = true) (hstore : s.store = some current) :
    SingleUse (s.enter n r (some current.accessToken)) ∧
      Unspent (s.enter n r (some current.accessToken)) := by
  rw [enter_refresh hstore]
  constructor
  · refine List.pairwise_cons.2 ⟨fun call hcall hsame => ?_, h⟩
    refine (hunspent current hstore call hcall hsame.symm).resolve_left fun hopen => ?_
    obtain ⟨other, hrefreshing⟩ := hgate.running call hcall hopen
    exact hgate.idle hfree hrefreshing
  · intro pair hpair call hcall hsame
    rcases List.mem_cons.1 hcall with rfl | hcall
    · exact .inl rfl
    · exact hunspent pair hpair call hcall hsame

/-- A pair is unspent after a call, if it was before and the call threw or had another token. -/
theorem unspent_settle {pair : TokenPair}
    (h : ∀ call ∈ s.refreshCalls, call.token = pair.refreshToken →
      call.outcome = none ∧ outcome = .threw ∨ call.outcome = some .threw) :
    ∀ call ∈ settle n outcome s.refreshCalls, call.token = pair.refreshToken →
      call.outcome = none ∨ call.outcome = some .threw := by
  intro call hcall hsame
  rcases mem_settle hcall with ⟨hold, -⟩ | ⟨old, hold, -, hopen, rfl⟩
  · exact (h call hold hsame).imp_left And.left
  · rcases h old hold hsame with ⟨-, rfl⟩ | hthrew
    · exact .inr rfl
    · rw [hopen] at hthrew
      cases hthrew

theorem unspent_rotated (hunspent : Unspent s)
    (hnew : NewRefreshToken s (.refreshed n outcome)) : Unspent (s.rotated n r current outcome) := by
  match outcome, hnew with
  | .threw, _ =>
    intro pair hpair
    refine unspent_settle fun call hcall hsame => ?_
    exact (hunspent pair hpair call hcall hsame).imp_left fun hopen => ⟨hopen, rfl⟩
  | .returned none, _ => exact fun pair hpair => absurd hpair (Option.not_mem_none pair)
  | .returned (some pair), hnew =>
    intro stored hstored
    obtain rfl := Option.some.inj hstored
    refine unspent_settle fun call hcall hsame => .inr ?_
    by_contra hthrew
    exact hnew call hcall hthrew hsame

theorem singleUse_step (hgate : Gated s) (h : SingleUse s ∧ Unspent s) {a : TokenAction}
    (hnew : NewRefreshToken s a) : SingleUse (tokenStep s a) ∧ Unspent (tokenStep s a) := by
  have hmove := step_move s a
  generalize tokenStep s a = s' at hmove
  cases hmove with
  | refresh n r current hr hphase hfree hstore => exact singleUse_refresh h.1 hgate h.2 hfree hstore
  | rotated n r current outcome hr hphase =>
    refine ⟨?_, unspent_rotated h.2 hnew⟩
    match outcome with
    | .threw => exact settle_once h.1
    | .returned none => exact settle_once h.1
    | .returned (some pair) => exact settle_once h.1
  | _ => exact h

end SingleUse

/-! ## A retry has another token -/

/-- A refresh hands out an access token that is not empty and not the one it replaces. -/
def NewAccessToken (s : HandlerState) : TokenAction → Prop
  | .refreshed _ (.returned (some pair)) =>
    pair.accessToken ≠ "" ∧ ∀ current ∈ s.store, pair.accessToken ≠ current.accessToken
  | _ => True

instance (s : HandlerState) (a : TokenAction) : Decidable (NewAccessToken s a) :=
  match a with
  | .refreshed _ (.returned (some pair)) =>
    inferInstanceAs (Decidable (pair.accessToken ≠ "" ∧
      ∀ current ∈ s.store, pair.accessToken ≠ current.accessToken))
  | .refreshed _ (.returned none) => .isTrue trivial
  | .refreshed _ .threw => .isTrue trivial
  | .start _ _ => .isTrue trivial
  | .buffered _ _ => .isTrue trivial
  | .replied _ _ => .isTrue trivial
  | .entered _ => .isTrue trivial
  | .cancelled _ => .isTrue trivial

/-- The second of two messages carries an access token, and not the one of the first. -/
def CarriesAnother (first retry : SentMessage) : Prop :=
  ∃ token, retry.authorization = some token ∧ first.authorization ≠ some token

/-- What a request has still to wait for is not the empty token, and its retry carried another
token. -/
structure Renewed (s : HandlerState) : Prop where
  behind : ∀ n r used, s.sendings n = some r → r.phase = .sending used ∨ r.phase = .waiting used →
    ∀ pair ∈ s.store, some pair.accessToken ≠ used → pair.accessToken ≠ ""
  retried : ∀ n r first retry, s.sendings n = some r → r.sent = [first, retry] →
    CarriesAnother first retry

section Renewed
variable {s : HandlerState} {n : Nat} {r : Sending} {current : TokenPair}

theorem carriesAnother_sendOnce {original : HttpRequest} {used : Option String} {accessToken : String}
    (hne : accessToken ≠ "") (hused : some accessToken ≠ used) :
    CarriesAnother (sendOnce original used) (sendOnce original (some accessToken)) := by
  refine ⟨accessToken, ?_, ?_⟩
  · rw [sendOnce, Option.filter_some, if_pos (decide_eq_true hne)]
  · intro hsame
    exact hused (Option.filter_eq_some_iff.1 hsame).1.symm

/-- The request `n` goes on, and the store keeps its pair or gets one with an access token. -/
theorem Renewed.put {s' : HandlerState} (h : Renewed s) (hr : s'.sendings n = some r)
    (hothers : ∀ m, m ≠ n → s'.sendings m = s.sendings m)
    (hstore : ∀ pair ∈ s'.store, pair ∈ s.store ∨ pair.accessToken ≠ "")
    (hbehind : ∀ used, r.phase = .sending used ∨ r.phase = .waiting used →
      ∀ pair ∈ s'.store, some pair.accessToken ≠ used → pair.accessToken ≠ "")
    (hretried : ∀ first retry, r.sent = [first, retry] → CarriesAnother first retry) :
    Renewed s' := by
  constructor
  · intro m r' used hr' hphase pair hpair hused
    by_cases hm : m = n
    · subst hm
      obtain rfl := Option.some.inj (hr.symm.trans hr')
      exact hbehind used hphase pair hpair hused
    · rw [hothers m hm] at hr'
      rcases hstore pair hpair with hkept | hne
      · exact h.behind m r' used hr' hphase pair hkept hused
      · exact hne
  · intro m r' first retry hr' hsent
    by_cases hm : m = n
    · subst hm
      obtain rfl := Option.some.inj (hr.symm.trans hr')
      exact hretried first retry hsent
    · rw [hothers m hm] at hr'
      exact h.retried m r' first retry hr' hsent

theorem Renewed.setSending (h : Renewed s) (hbehind : ∀ used,
      r.phase = .sending used ∨ r.phase = .waiting used →
      ∀ pair ∈ s.store, some pair.accessToken ≠ used → pair.accessToken ≠ "")
    (hretried : ∀ first retry, r.sent = [first, retry] → CarriesAnother first retry) :
    Renewed (s.setSending n r) :=
  h.put (setSending_self s n r) (fun _ hm => setSending_of_ne s r hm) (fun _ hpair => .inl hpair)
    hbehind hretried

theorem Renewed.rotated (h : Renewed s) (hgate : Gated s) (hr : s.sendings n = some r)
    (hphase : r.phase = .refreshing current) {outcome : RefreshOutcome}
    (hnew : NewAccessToken s (.refreshed n outcome)) : Renewed (s.rotated n r current outcome) := by
  have hdone : ∀ used, SendPhase.done = .sending used ∨ SendPhase.done = .waiting used → False := by
    rintro used (hphase | hphase) <;> cases hphase
  match outcome, hnew with
  | .threw, _ =>
    exact h.put (setSending_self _ n _) (fun _ hm => setSending_of_ne _ _ hm)
      (fun _ hpair => .inl hpair) (fun used hphase => (hdone used hphase).elim)
      fun first retry => h.retried n r first retry hr
  | .returned none, _ =>
    exact h.put (setSending_self _ n _) (fun _ hm => setSending_of_ne _ _ hm)
      (fun pair hpair => absurd hpair (Option.not_mem_none pair))
      (fun used hphase => (hdone used hphase).elim) fun first retry => h.retried n r first retry hr
  | .returned (some pair), hnew =>
    refine h.put (setSending_self _ n _) (fun _ hm => setSending_of_ne _ _ hm) ?_ ?_ ?_
    · intro stored hstored
      obtain rfl := Option.some.inj hstored
      exact .inr hnew.1
    · rintro used (hphase | hphase) <;> cases hphase
    · intro first retry hsent
      have hone := hgate.sent n r hr
      rw [Sending.SentAs, hphase] at hone
      rw [Sending.resend, hone] at hsent
      obtain ⟨rfl, hrest⟩ := List.cons.inj hsent
      obtain ⟨rfl, -⟩ := List.cons.inj hrest
      refine carriesAnother_sendOnce hnew.1 fun hsame => ?_
      exact hnew.2 current (hgate.holds n current ⟨r, hr, hphase⟩).2 (Option.some.inj hsame)

theorem Renewed.step (h : Renewed s) (hgate : Gated s) {a : TokenAction}
    (hnew : NewAccessToken s a) : Renewed (tokenStep s a) := by
  have hmove := step_move s a
  generalize tokenStep s a = s' at hmove
  cases hmove with
  | idle => exact h
  | start n request hfree =>
    refine h.setSending ?_ (by rintro first retry ⟨⟩)
    rintro used (hphase | hphase) <;> cases hphase
  | send n r hr hphase =>
    refine h.setSending ?_ ?_
    · rintro used (hused | hused) pair hpair hother
      · obtain rfl := SendPhase.sending.inj hused
        rw [hpair] at hother
        exact absurd rfl hother
      · cases hused
    · intro first retry hsent
      have hnone := hgate.sent n r hr
      rw [Sending.SentAs, hphase] at hnone
      rw [Sending.sendFirst, hnone] at hsent
      cases hsent
  | wait n r used hr hphase =>
    refine h.setSending ?_ fun first retry => h.retried n r first retry hr
    rintro used' (hused | hused)
    · cases hused
    · obtain rfl := SendPhase.waiting.inj hused
      exact h.behind n r used hr (.inl hphase)
  | reuse n r used current hr hphase hstore hused =>
    refine h.setSending (by rintro used (hphase | hphase) <;> cases hphase) ?_
    intro first retry hsent
    have hone := hgate.sent n r hr
    rw [Sending.SentAs, hphase] at hone
    rw [Sending.resend, hone] at hsent
    obtain ⟨rfl, hrest⟩ := List.cons.inj hsent
    obtain ⟨rfl, -⟩ := List.cons.inj hrest
    exact carriesAnother_sendOnce (h.behind n r used hr (.inr hphase) current hstore hused) hused
  | refresh n r current hr hphase hfree hstore =>
    rw [enter_refresh hstore]
    refine h.put (setSending_self _ n _) (fun _ hm => setSending_of_ne _ _ hm)
      (fun _ hpair => .inl hpair) ?_ fun first retry => h.retried n r first retry hr
    rintro used (hphase | hphase) <;> cases hphase
  | rotated n r current outcome hr hphase => exact h.rotated hgate hr hphase hnew
  | finish _ n r hr hphase =>
    refine h.setSending ?_ fun first retry => h.retried n r first retry hr
    rintro used (hphase | hphase) <;> cases hphase

end Renewed

/-! ## Runs -/

section Runs
variable (store : Option TokenPair)

theorem gated_initial : Gated (.initial store) where
  holds n current h := by
    obtain ⟨r, hr, -⟩ := h
    cases hr
  alone m n current current' h := by
    obtain ⟨r, hr, -⟩ := h
    cases hr
  running call hcall := absurd hcall List.not_mem_nil
  sent n r hr := by cases hr
  signedOut := .inl rfl

theorem gated_run (actions : List TokenAction) : Gated (handlerAfter store actions) :=
  List.foldlRecOn actions tokenStep (gated_initial store) fun _ h a _ => h.step a

variable {store} {actions : List TokenAction}

theorem singleUse_run (h : Along tokenStep NewRefreshToken (.initial store) actions) :
    Gated (handlerAfter store actions) ∧
      SingleUse (handlerAfter store actions) ∧
      Unspent (handlerAfter store actions) := by
  induction actions using List.reverseRecOn with
  | nil =>
    exact ⟨gated_initial store, .nil, fun pair _ call hcall => absurd hcall List.not_mem_nil⟩
  | append_singleton actions a ih =>
    obtain ⟨hgated, hkept⟩ := ih h.take
    rw [handlerAfter, List.foldl_append]
    exact ⟨hgated.step a, singleUse_step hgated hkept (h actions a [] rfl)⟩

theorem renewed_run (h : Along tokenStep NewAccessToken (.initial store) actions) :
    Gated (handlerAfter store actions) ∧
      Renewed (handlerAfter store actions) := by
  induction actions using List.reverseRecOn with
  | nil => exact ⟨gated_initial store, by rintro n r used ⟨⟩, by rintro n r first retry ⟨⟩⟩
  | append_singleton actions a ih =>
    obtain ⟨hgated, hrenewed⟩ := ih h.take
    rw [handlerAfter, List.foldl_append]
    exact ⟨hgated.step a, hrenewed.step hgated (h actions a [] rfl)⟩

variable (store actions)

/-- Of any requests in any order, with any answers: at most one refresh call runs, a request is
sent at most twice, and the handler signs out at most once. Each refresh token is used once where
refreshes hand out new refresh tokens, and a retry carries another token where they hand out new
access tokens. -/
theorem token_rotation :
    (∀ m n current current', (handlerAfter store actions).Refreshing m current →
      (handlerAfter store actions).Refreshing n current' → m = n) ∧
    (∀ n r, (handlerAfter store actions).sendings n = some r → r.sent.length ≤ 2) ∧
    (handlerAfter store actions).signedOut.length ≤ 1 ∧
    (Along tokenStep NewRefreshToken (.initial store) actions →
      SingleUse (handlerAfter store actions)) ∧
    (Along tokenStep NewAccessToken (.initial store) actions →
      ∀ n r first retry, (handlerAfter store actions).sendings n = some r →
        r.sent = [first, retry] → CarriesAnother first retry) := by
  have hgated := gated_run store actions
  refine ⟨hgated.alone, fun n r hr => (hgated.sent n r hr).length_le, ?_, ?_, ?_⟩
  · rcases hgated.signedOut with hnone | hone
    · rw [hnone]
      exact Nat.zero_le 1
    · exact hone.1.le
  · intro halong
    exact (singleUse_run halong).2.1
  · intro halong
    exact (renewed_run halong).2.retried

end Runs

def exRequest : HttpRequest := ⟨"GET", "calls/active", [], none⟩

/-- Two requests get a 401 for the same token; the second finds the pair that the first got. -/
def exRace : List TokenAction :=
  [.start 0 exRequest, .start 1 exRequest, .buffered 0 true, .buffered 1 true,
    .replied 0 (.status 401), .replied 1 (.status 401), .entered 0, .entered 1,
    .refreshed 0 (.returned (some ⟨"at2", "rt2"⟩)), .entered 1, .replied 0 (.status 200),
    .replied 1 (.status 200)]

theorem token_rotation_exRace :
    SingleUse (handlerAfter (some ⟨"at", "rt"⟩) exRace) ∧
    (∀ n r first retry,
      (handlerAfter (some ⟨"at", "rt"⟩) exRace).sendings n = some r →
      r.sent = [first, retry] → CarriesAnother first retry) ∧
    ((handlerAfter (some ⟨"at", "rt"⟩) exRace).sendings 1).map Sending.sent =
      some [⟨exRequest, some "at"⟩, ⟨exRequest, some "at2"⟩] :=
  have hrotation := token_rotation (some ⟨"at", "rt"⟩) exRace
  ⟨hrotation.2.2.2.1 (by decide), hrotation.2.2.2.2 (by decide),
    by decide⟩

/-- A refresh that hands out the refresh token it was called with, and one that hands out the
access token it replaces. -/
theorem repeated_tokens :
    (¬ ∀ store actions, SingleUse (handlerAfter store actions)) ∧
    ¬ ∀ store actions n r first retry,
      (handlerAfter store actions).sendings n = some r →
      r.sent = [first, retry] → CarriesAnother first retry := by
  constructor
  · intro h
    have honce := h (some ⟨"at", "rt"⟩)
      [.start 0 exRequest, .buffered 0 true, .replied 0 (.status 401), .entered 0,
        .refreshed 0 (.returned (some ⟨"at2", "rt"⟩)), .replied 0 (.status 200),
        .start 1 exRequest, .buffered 1 true, .replied 1 (.status 401), .entered 1]
    exact absurd honce (by decide)
  · intro h
    obtain ⟨token, hretry, hfirst⟩ := h (some ⟨"at", "rt"⟩)
      [.start 0 exRequest, .buffered 0 true, .replied 0 (.status 401), .entered 0,
        .refreshed 0 (.returned (some ⟨"at", "rt2"⟩))] 0 _ ⟨exRequest, some "at"⟩
      ⟨exRequest, some "at"⟩ rfl (by decide)
    exact hfirst hretry

end KasterCti.Desktop
