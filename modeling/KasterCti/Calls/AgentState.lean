import KasterCti.Ami.Actions
import KasterCti.Calls.World
import KasterCti.Library.Trace

/-!
# The status of an agent

`AgentStateService` for one agent, on any number of nodes. Closing the open row, creating
the new one and pausing the queue are awaits of their own, and the calls interleave in any
way.

Results:
1. `statusStep_tidy`: what every step keeps where no call closes the open row while another
   one has not come to its pause.
2. `one_open_row`: in a run of such steps there is at most one open row, and when no call is
   under way its status is the one whose pause was applied last.
3. `two_open_rows`: two changes that overlap.
-/

namespace KasterCti.Calls

open Ami JsText Trace

structure StatusRow where
  tenantId : String
  statusCode : String
  reasonCode : Option String
  startedAt : Time
  endedAt : Option Time

/-- The columns of `agents` that are read. -/
structure StatusAgent where
  tenantId : String
  extension : Option String

def StatusAgent.hasExtension (agent : StatusAgent) : Bool := trim (agent.extension.getD "") ≠ ""

/-! ## Whether the queue may assign calls -/

def notTakingCalls : List String := ["BREAK", "MEAL", "TRAINING", "MANUAL_PAUSED"]

def pausesQueueAssignment (statusCode : Option String) : Bool :=
  String.ofList ((trim (statusCode.getD "")).toList.map Char.toUpper) ∈ notTakingCalls

def shouldPauseQueue (appConnected : Bool) (statusCode : Option String) : Bool :=
  if trim (statusCode.getD "") = "" then true
  else !appConnected || pausesQueueAssignment statusCode

/-! ## Calls -/

/-- The statement that a `changeStatus` has issued, or the pause that it comes to. -/
inductive ChangePhase
  | close
  | find
  | create (agent : StatusAgent)
  | apply (agent : StatusAgent)
  | pause (agent : StatusAgent) (appConnected : Bool)

inductive LogoutPhase
  | find
  | close (agent : StatusAgent)
  | pause (agent : StatusAgent)

inductive StatusCall
  | changeStatus (statusCode : String) (reasonCode : Option String) (phase : ChangePhase)
  | markLoggedOut (phase : LogoutPhase)

/-- How a statement comes back. -/
structure StatusReply where
  fails : Bool
  agent : Option StatusAgent
  appConnected : Bool
  /-- Whether the node is connected to the PBX. -/
  amiConnected : Bool

structure StatusState where
  now : Time
  rows : List StatusRow
  calls : Nat → Option StatusCall
  nextCall : Nat
  /-- The actions that were written to the PBX. -/
  written : List AmiAction
  /-- The status whose pause was applied last: none for a logout. -/
  applied : Option (Option String)

inductive StatusAction
  | tick (ms : Nat)
  | changeStatus (statusCode : String) (reasonCode : Option String)
  | markLoggedOut
  | next (call : Nat) (reply : StatusReply)

namespace StatusState

def setCall (s : StatusState) (n : Nat) (call : Option StatusCall) : StatusState :=
  { s with calls := fun m => if m = n then call else s.calls m }

def begin (s : StatusState) (call : StatusCall) : StatusState :=
  { s with nextCall := s.nextCall + 1 }.setCall s.nextCall (some call)

/-- `updateMany` of the rows that are open. -/
def closeRows (s : StatusState) : StatusState :=
  { s with rows := s.rows.map fun row =>
      if row.endedAt = none then { row with endedAt := some s.now } else row }

def createRow (s : StatusState) (agent : StatusAgent) (statusCode : String)
    (reasonCode : Option String) : StatusState :=
  { s with rows := s.rows ++ [⟨agent.tenantId, statusCode, reasonCode, s.now, none⟩] }

/-- The pause is sent, unless the node is not connected. Without an extension there is no
member to pause. -/
def sendPause (s : StatusState) (agent : StatusAgent) (appConnected amiConnected : Bool)
    (statusCode reason : Option String) : StatusState :=
  if !agent.hasExtension then { s with applied := some statusCode }
  else if amiConnected then
    { s with
      written := s.written ++ setQueuePaused agent.extension
        (shouldPauseQueue appConnected statusCode) reason
      applied := some statusCode }
  else s

def changeNext (s : StatusState) (n : Nat) (statusCode : String) (reasonCode : Option String)
    (reply : StatusReply) : ChangePhase → StatusState
  | .close => s.closeRows.setCall n (some (.changeStatus statusCode reasonCode .find))
  | .find =>
    s.setCall n (reply.agent.map fun agent => .changeStatus statusCode reasonCode (.create agent))
  | .create agent => (s.createRow agent statusCode reasonCode).setCall n
      (some (.changeStatus statusCode reasonCode (.apply agent)))
  | .apply agent =>
    if agent.hasExtension then
      s.setCall n (some (.changeStatus statusCode reasonCode (.pause agent reply.appConnected)))
    else
      (s.sendPause agent reply.appConnected reply.amiConnected (some statusCode)
        (some (reasonCode.getD statusCode))).setCall n none
  | .pause agent appConnected =>
    (s.sendPause agent appConnected reply.amiConnected (some statusCode)
      (some (reasonCode.getD statusCode))).setCall n none

def logoutNext (s : StatusState) (n : Nat) (reply : StatusReply) : LogoutPhase → StatusState
  | .find => s.setCall n (reply.agent.map fun agent => .markLoggedOut (.close agent))
  | .close agent => s.closeRows.setCall n (some (.markLoggedOut (.pause agent)))
  | .pause agent =>
    (s.sendPause agent false reply.amiConnected none (some "LOGGED_OUT")).setCall n none

/-- The pause itself is no await, and without an extension there is no lookup. -/
def callFails (call : StatusCall) (reply : StatusReply) : Bool :=
  match call with
  | .changeStatus _ _ (.apply agent) => agent.hasExtension && reply.fails
  | .changeStatus _ _ (.pause ..) | .markLoggedOut (.pause _) => false
  | _ => reply.fails

def next (s : StatusState) (n : Nat) (call : StatusCall) (reply : StatusReply) : StatusState :=
  if callFails call reply then s.setCall n none
  else
    match call with
    | .changeStatus statusCode reasonCode phase => s.changeNext n statusCode reasonCode reply phase
    | .markLoggedOut phase => s.logoutNext n reply phase

end StatusState

def statusStep (s : StatusState) : StatusAction → StatusState
  | .tick ms => { s with now := s.now + ms }
  | .changeStatus statusCode reasonCode => s.begin (.changeStatus statusCode reasonCode .close)
  | .markLoggedOut => s.begin (.markLoggedOut .find)
  | .next n reply =>
    match s.calls n with
    | none => s
    | some call => s.next n call reply

def noStatus : StatusState := ⟨0, [], fun _ => none, 0, [], none⟩

/-! ## The condition -/

def StatusState.openRows (s : StatusState) : List StatusRow :=
  s.rows.filter fun row => row.endedAt.isNone

/-- The call has closed the open row and not come to its pause. -/
def StatusCall.inside : StatusCall → Bool
  | .changeStatus _ _ .close | .markLoggedOut .find | .markLoggedOut (.close _) => false
  | _ => true

/-- The open row is closed while no other call is inside, and the pause of a new status
reaches the PBX. -/
def Undisturbed (s : StatusState) (reply : StatusReply) : StatusCall → Prop
  | .changeStatus _ _ .close | .markLoggedOut (.close _) => reply.fails = false →
    ∀ m < s.nextCall, ∀ other ∈ s.calls m, other.inside = false
  | .changeStatus _ _ (.apply agent) => agent.hasExtension = true → reply.fails = false
  | .changeStatus _ _ (.pause ..) => reply.amiConnected = true
  | _ => True

def Separate (s : StatusState) : StatusAction → Prop
  | .next n reply => ∀ call ∈ s.calls n, Undisturbed s reply call
  | _ => True

/-- A step can be tested. -/
instance decidableUndisturbed (s : StatusState) (reply : StatusReply) :
    ∀ call, Decidable (Undisturbed s reply call)
  | .changeStatus _ _ .close => inferInstanceAs (Decidable (_ = false → ∀ m < s.nextCall, _))
  | .changeStatus _ _ .find => .isTrue trivial
  | .changeStatus _ _ (.create _) => .isTrue trivial
  | .changeStatus _ _ (.apply agent) =>
    inferInstanceAs (Decidable (agent.hasExtension = true → reply.fails = false))
  | .changeStatus _ _ (.pause ..) => inferInstanceAs (Decidable (reply.amiConnected = true))
  | .markLoggedOut .find => .isTrue trivial
  | .markLoggedOut (.close _) => inferInstanceAs (Decidable (_ = false → ∀ m < s.nextCall, _))
  | .markLoggedOut (.pause _) => .isTrue trivial

instance decidableSeparate (s : StatusState) : ∀ action, Decidable (Separate s action)
  | .tick _ => .isTrue trivial
  | .changeStatus .. => .isTrue trivial
  | .markLoggedOut => .isTrue trivial
  | .next n reply => inferInstanceAs (Decidable (∀ call ∈ s.calls n, Undisturbed s reply call))

/-- The timeline of the agent: one open row, and its status is in force. -/
def OneOpenRow (s : StatusState) : Prop :=
  s.openRows.length ≤ 1 ∧
    ((∀ n, s.calls n = none) → ∀ row ∈ s.openRows, s.applied = some (some row.statusCode))

/-! ## The invariant -/

/-- What an open row may be while the call is under way. -/
def StatusCall.leaves : StatusCall → StatusRow → Prop
  | .changeStatus statusCode _ (.apply _), row => row.statusCode = statusCode
  | .changeStatus statusCode _ (.pause ..), row => row.statusCode = statusCode
  | call, _ => call.inside = false

structure Tidy (s : StatusState) : Prop where
  numbered : ∀ n, ∀ call ∈ s.calls n, n < s.nextCall
  alone : ∀ m n, ∀ call ∈ s.calls m, ∀ other ∈ s.calls n,
    call.inside = true → other.inside = true → m = n
  one : s.openRows.length ≤ 1
  leaves : ∀ n, ∀ call ∈ s.calls n, ∀ row ∈ s.openRows, call.leaves row
  settled : (∀ n, ∀ call ∈ s.calls n, call.inside = false) →
    ∀ row ∈ s.openRows, s.applied = some (some row.statusCode)

variable {s s' : StatusState} {n : Nat} {call : StatusCall} {reply : StatusReply}

theorem StatusCall.leaves_of_outside (h : call.inside = false) (row : StatusRow) :
    call.leaves row := by
  unfold StatusCall.leaves
  split
  · cases h
  · cases h
  · exact h

theorem Tidy.others_outside (h : Tidy s) (hcall : s.calls n = some call)
    (hinside : call.inside = true) : ∀ m ≠ n, ∀ other ∈ s.calls m, other.inside = false := by
  intro m hm other hother
  by_contra hin
  exact hm (h.alone m n other hother call hcall (Bool.eq_true_of_not_eq_false hin) hinside)

/-- A call goes on, and what is open may change. -/
theorem Tidy.goOn (h : Tidy s) (hcall : s.calls n = some call) {after : Option StatusCall}
    (hcalls : s'.calls = fun m => if m = n then after else s.calls m)
    (hnext : s'.nextCall = s.nextCall) (hone : s'.openRows.length ≤ 1)
    (hothers : (∀ m ≠ n, ∀ other ∈ s.calls m, other.inside = false) ∨
      (s'.openRows = s.openRows ∧ ∀ call' ∈ after, call'.inside = false))
    (hafter : ∀ call' ∈ after, ∀ row ∈ s'.openRows, call'.leaves row)
    (hsettled : (∀ m ≠ n, ∀ other ∈ s.calls m, other.inside = false) →
      (∀ call' ∈ after, call'.inside = false) →
        ∀ row ∈ s'.openRows, s'.applied = some (some row.statusCode)) : Tidy s' := by
  have hat : ∀ m, s'.calls m = if m = n then after else s.calls m := fun m => congrFun hcalls m
  have hself : s'.calls n = after := by rw [hat, if_pos rfl]
  have hother : ∀ m ≠ n, s'.calls m = s.calls m := fun m hm => by rw [hat, if_neg hm]
  -- Where a call other than `n` is inside, `n` goes on outside.
  have hclash : ∀ m ≠ n, ∀ other ∈ s'.calls m, other.inside = true →
      ∀ call' ∈ s'.calls n, call'.inside = false := by
    intro m hm other hmem hinside call' hcall'
    rw [hother m hm] at hmem
    rw [hself] at hcall'
    rcases hothers with houtside | ⟨-, houtside⟩
    · rw [houtside m hm other hmem] at hinside
      cases hinside
    · exact houtside call' hcall'
  refine ⟨?_, ?_, hone, ?_, ?_⟩
  · intro m other hmem
    rw [hnext]
    by_cases hm : m = n
    · exact hm ▸ h.numbered n call hcall
    · exact h.numbered m other (hother m hm ▸ hmem)
  · intro m k first hfirst second hsecond hin hin'
    by_cases hm : m = n
    · by_cases hk : k = n
      · rw [hm, hk]
      · subst hm
        rw [hclash k hk second hsecond hin' first hfirst] at hin
        cases hin
    · by_cases hk : k = n
      · subst hk
        rw [hclash m hm first hfirst hin second hsecond] at hin'
        cases hin'
      · exact h.alone m k first (hother m hm ▸ hfirst) second (hother k hk ▸ hsecond) hin hin'
  · intro m other hmem row hrow
    by_cases hm : m = n
    · rw [hm, hself] at hmem
      exact hafter other hmem row hrow
    · rw [hother m hm] at hmem
      rcases hothers with houtside | ⟨hrows, -⟩
      · exact other.leaves_of_outside (houtside m hm other hmem) row
      · exact h.leaves m other hmem row (hrows ▸ hrow)
  · intro houtside
    refine hsettled (fun m hm other hmem => houtside m other ?_) fun call' hcall' =>
      houtside n call' ?_
    · rw [hother m hm]
      exact hmem
    · rw [hself]
      exact hcall'

/-! ## Steps -/

theorem openRows_closeRows (s : StatusState) : s.closeRows.openRows = [] := by
  unfold StatusState.openRows StatusState.closeRows
  refine List.filter_eq_nil_iff.mpr fun row hrow => ?_
  obtain ⟨old, -, rfl⟩ := List.mem_map.mp hrow
  split
  · simp
  · next h => simpa [Option.isNone_iff_eq_none] using h

theorem openRows_createRow (s : StatusState) (agent : StatusAgent) (statusCode : String)
    (reasonCode : Option String) : (s.createRow agent statusCode reasonCode).openRows =
      s.openRows ++ [⟨agent.tenantId, statusCode, reasonCode, s.now, none⟩] := by
  unfold StatusState.openRows StatusState.createRow
  rw [List.filter_append]
  rfl

/-- The pause is sent where there is nothing to pause, or the node is connected. -/
theorem sendPause_applied {agent : StatusAgent} {appConnected amiConnected : Bool}
    {statusCode reason : Option String}
    (h : agent.hasExtension = true → amiConnected = true) :
    (s.sendPause agent appConnected amiConnected statusCode reason).applied = some statusCode := by
  unfold StatusState.sendPause
  cases hext : agent.hasExtension with
  | false => rfl
  | true =>
    rw [h hext]
    rfl

theorem sendPause_rest (s : StatusState) (agent : StatusAgent) (appConnected amiConnected : Bool)
    (statusCode reason : Option String) :
    let s' := s.sendPause agent appConnected amiConnected statusCode reason
    s'.openRows = s.openRows ∧ s'.calls = s.calls ∧ s'.nextCall = s.nextCall := by
  unfold StatusState.sendPause
  cases agent.hasExtension <;> cases amiConnected <;> exact ⟨rfl, rfl, rfl⟩

section Calls
variable (h : Tidy s) (hcall : s.calls n = some call)
include h hcall

/-- A call that has not closed the row goes on outside. -/
theorem Tidy.outside (hout : call.inside = false) {after : Option StatusCall}
    (hafter : ∀ call' ∈ after, call'.inside = false) : Tidy (s.setCall n after) := by
  refine h.goOn hcall rfl rfl h.one (.inr ⟨rfl, hafter⟩)
    (fun call' hcall' row _ => call'.leaves_of_outside (hafter call' hcall') row) ?_
  intro hothers _
  refine h.settled fun m other hmem => ?_
  by_cases hm : m = n
  · rw [hm, hcall] at hmem
    exact Option.some.inj hmem ▸ hout
  · exact hothers m hm other hmem

/-- A call that leaves nothing open goes on, or ends. -/
theorem Tidy.emptyInside (hin : call.inside = true) (hempty : s.openRows = [])
    (after : Option StatusCall) : Tidy (s.setCall n after) := by
  have hnone : (s.setCall n after).openRows = [] := hempty
  refine h.goOn hcall rfl rfl h.one (.inl (h.others_outside hcall hin)) ?_ ?_
  · intro call' _ row hrow
    rw [hnone] at hrow
    cases hrow
  · intro _ _ row hrow
    rw [hnone] at hrow
    cases hrow

/-- The open row is closed while no other call is inside. -/
theorem Tidy.close (halone : ∀ m < s.nextCall, ∀ other ∈ s.calls m, other.inside = false)
    (after : Option StatusCall) : Tidy (s.closeRows.setCall n after) := by
  have hnone : (s.closeRows.setCall n after).openRows = [] := openRows_closeRows s
  refine h.goOn hcall rfl rfl (by rw [hnone]; exact Nat.zero_le _)
    (.inl fun m _ other hmem => halone m (h.numbered m other hmem) other hmem) ?_ ?_
  · intro call' _ row hrow
    rw [hnone] at hrow
    cases hrow
  · intro _ _ row hrow
    rw [hnone] at hrow
    cases hrow

/-- A call that paused the queue for what is open ends. -/
theorem Tidy.pause (hin : call.inside = true) (hopen : s'.openRows = s.openRows)
    (hcalls : s'.calls = s.calls) (hnext : s'.nextCall = s.nextCall)
    (happlied : ∀ row ∈ s.openRows, s'.applied = some (some row.statusCode)) :
    Tidy (s'.setCall n none) := by
  have hone : (s'.setCall n none).openRows.length ≤ 1 := by
    rw [show (s'.setCall n none).openRows = s'.openRows from rfl, hopen]
    exact h.one
  refine h.goOn hcall (by rw [← hcalls]; rfl) hnext hone (.inl (h.others_outside hcall hin))
    (by rintro _ ⟨⟩) ?_
  intro _ _ row hrow
  exact happlied row (hopen ▸ hrow)

end Calls

theorem Tidy.begin (h : Tidy s) (hout : call.inside = false) : Tidy (s.begin call) := by
  have hat : ∀ m, ∀ other ∈ (s.begin call).calls m, other = call ∧ m = s.nextCall ∨
      other ∈ s.calls m := by
    intro m other hmem
    by_cases hm : m = s.nextCall
    · exact .inl ⟨by simpa [StatusState.begin, StatusState.setCall, hm, eq_comm] using hmem, hm⟩
    · exact .inr (by simpa [StatusState.begin, StatusState.setCall, hm] using hmem)
  refine ⟨?_, ?_, h.one, ?_, fun houtside => h.settled fun m other hmem => ?_⟩
  · intro m other hmem
    rcases hat m other hmem with ⟨-, rfl⟩ | hold
    · exact Nat.lt_succ_self _
    · exact Nat.lt_succ_of_lt (h.numbered m other hold)
  · intro m k first hfirst second hsecond hin hin'
    rcases hat m first hfirst with ⟨rfl, -⟩ | hold
    · rw [hout] at hin
      cases hin
    rcases hat k second hsecond with ⟨rfl, -⟩ | hold'
    · rw [hout] at hin'
      cases hin'
    exact h.alone m k first hold second hold' hin hin'
  · intro m other hmem row hrow
    rcases hat m other hmem with ⟨rfl, -⟩ | hold
    · exact other.leaves_of_outside hout row
    · exact h.leaves m other hold row hrow
  · refine houtside m other ?_
    have hm : m ≠ s.nextCall := Nat.ne_of_lt (h.numbered m other hmem)
    simpa [StatusState.begin, StatusState.setCall, hm] using hmem

/-- A call that leaves nothing open is inside with no open row. -/
theorem Tidy.empty (h : Tidy s) (hcall : s.calls n = some call)
    (hleaves : ∀ row, call.leaves row → False) : s.openRows = [] :=
  List.eq_nil_iff_forall_not_mem.mpr fun row hrow =>
    hleaves row (h.leaves n call hcall row hrow)

theorem Tidy.changeNext (h : Tidy s) {statusCode : String} {reasonCode : Option String}
    {phase : ChangePhase} (hcall : s.calls n = some (.changeStatus statusCode reasonCode phase))
    (hfails : StatusState.callFails (.changeStatus statusCode reasonCode phase) reply = false)
    (hsep : Undisturbed s reply (.changeStatus statusCode reasonCode phase)) :
    Tidy (s.changeNext n statusCode reasonCode reply phase) := by
  cases phase with
  | close => exact h.close hcall (hsep hfails) _
  | find => exact h.emptyInside hcall rfl (h.empty hcall fun _ hleaves => by cases hleaves) _
  | create agent =>
    have hempty := h.empty hcall fun _ hleaves => by cases hleaves
    have hrows := openRows_createRow s agent statusCode reasonCode
    rw [hempty, List.nil_append] at hrows
    have hone : (s.changeNext n statusCode reasonCode reply (.create agent)).openRows.length ≤ 1 :=
      Nat.le_of_eq (congrArg List.length hrows)
    refine h.goOn hcall rfl rfl hone (.inl (h.others_outside hcall rfl)) ?_ ?_
    · rintro _ ⟨⟩ row hrow
      have hnew := List.mem_singleton.mp ((congrArg (row ∈ ·) hrows).mp hrow)
      rw [hnew]
      rfl
    · intro _ hafter
      cases hafter _ rfl
  | apply agent =>
    have hopen := h.leaves n _ hcall
    rw [StatusState.changeNext]
    split
    · refine h.goOn hcall rfl rfl h.one (.inl (h.others_outside hcall rfl)) ?_ ?_
      · rintro _ ⟨⟩ row hrow
        exact hopen row hrow
      · intro _ hafter
        cases hafter _ rfl
    · next hext =>
      obtain ⟨hrows, hcalls, hnext⟩ := sendPause_rest s agent reply.appConnected reply.amiConnected
        (some statusCode) (some (reasonCode.getD statusCode))
      refine h.pause hcall rfl hrows hcalls hnext fun row hrow => ?_
      have hstatus : row.statusCode = statusCode := hopen row hrow
      rw [hstatus]
      exact sendPause_applied fun hyes => absurd hyes hext
  | pause agent appConnected =>
    have hopen := h.leaves n _ hcall
    obtain ⟨hrows, hcalls, hnext⟩ := sendPause_rest s agent appConnected reply.amiConnected
      (some statusCode) (some (reasonCode.getD statusCode))
    refine h.pause hcall rfl hrows hcalls hnext fun row hrow => ?_
    have hstatus : row.statusCode = statusCode := hopen row hrow
    rw [hstatus]
    exact sendPause_applied fun _ => hsep

theorem Tidy.logoutNext (h : Tidy s) {phase : LogoutPhase}
    (hcall : s.calls n = some (.markLoggedOut phase))
    (hfails : StatusState.callFails (.markLoggedOut phase) reply = false)
    (hsep : Undisturbed s reply (.markLoggedOut phase)) : Tidy (s.logoutNext n reply phase) := by
  cases phase with
  | find =>
    refine h.outside hcall rfl ?_
    intro call' hcall'
    obtain ⟨agent, -, rfl⟩ := Option.map_eq_some_iff.mp hcall'
    rfl
  | close agent => exact h.close hcall (hsep hfails) _
  | pause agent =>
    have hempty := h.empty hcall fun _ hleaves => by cases hleaves
    obtain ⟨hrows, hcalls, hnext⟩ := sendPause_rest s agent false reply.amiConnected none
      (some "LOGGED_OUT")
    refine h.pause hcall rfl hrows hcalls hnext fun row hrow => ?_
    rw [hempty] at hrow
    cases hrow

/-- A call that fails has nothing open, or has not closed anything. -/
theorem Tidy.fail (h : Tidy s) (hcall : s.calls n = some call)
    (hfails : StatusState.callFails call reply = true) (hsep : Undisturbed s reply call) :
    Tidy (s.setCall n none) := by
  have hout (hout : call.inside = false) : Tidy (s.setCall n none) :=
    h.outside hcall hout (by rintro _ ⟨⟩)
  have hin (hin : call.inside = true) (hleaves : ∀ row, call.leaves row → False) :=
    h.emptyInside hcall hin (h.empty hcall hleaves) none
  match call, hfails, hsep with
  | .changeStatus _ _ .close, _, _ => exact hout rfl
  | .changeStatus _ _ .find, _, _ => exact hin rfl fun _ hleaves => by cases hleaves
  | .changeStatus _ _ (.create _), _, _ => exact hin rfl fun _ hleaves => by cases hleaves
  | .changeStatus _ _ (.apply agent), hfails, hsep =>
    obtain ⟨hext, hreply⟩ := Bool.and_eq_true_iff.mp hfails
    rw [hsep hext] at hreply
    cases hreply
  | .markLoggedOut .find, _, _ => exact hout rfl
  | .markLoggedOut (.close _), _, _ => exact hout rfl

/-- Every step in which no call closes the row while another one is inside, and the pause
of a new status reaches the PBX. -/
theorem statusStep_tidy {action : StatusAction} (h : Tidy s) (hsep : Separate s action) :
    Tidy (statusStep s action) := by
  cases action with
  | tick ms => exact ⟨h.numbered, h.alone, h.one, h.leaves, h.settled⟩
  | changeStatus statusCode reasonCode => exact h.begin rfl
  | markLoggedOut => exact h.begin rfl
  | next n reply =>
    rw [statusStep]
    cases hcall : s.calls n with
    | none => exact h
    | some call =>
      have hundisturbed := hsep call hcall
      dsimp only
      unfold StatusState.next
      split
      · next hfails => exact h.fail hcall hfails hundisturbed
      · next hruns =>
        have hruns := Bool.eq_false_of_not_eq_true hruns
        cases call with
        | changeStatus statusCode reasonCode phase => exact h.changeNext hcall hruns hundisturbed
        | markLoggedOut phase => exact h.logoutNext hcall hruns hundisturbed

theorem tidy_noStatus : Tidy noStatus :=
  ⟨by rintro _ _ ⟨⟩, by rintro _ _ _ ⟨⟩, Nat.zero_le _, by rintro _ _ ⟨⟩,
    fun _ => List.forall_mem_nil _⟩

theorem Tidy.oneOpenRow (h : Tidy s) : OneOpenRow s := by
  refine ⟨h.one, fun hidle => h.settled fun n call hcall => ?_⟩
  rw [hidle n] at hcall
  cases hcall

/-- In every run in which calls close the open row one after the other, each when the one
before has paused the queue, there is at most one open row, and once every call has finished
its status is the one whose pause was applied last. -/
theorem one_open_row (actions : List StatusAction)
    (h : Along statusStep Separate noStatus actions) :
    OneOpenRow (actions.foldl statusStep noStatus) :=
  (h.invariant (fun _ _ hsep hs => statusStep_tidy hs hsep) tidy_noStatus).oneOpenRow

/-! ## Two changes that overlap -/

def exAgent : StatusAgent := ⟨"t1", some "1001"⟩

def exAnswer : StatusReply := ⟨false, some exAgent, true, true⟩

/-- A meal, and a logout after it. -/
def exMeal : List StatusAction :=
  [.changeStatus "MEAL" none] ++ List.replicate 5 (.next 0 exAnswer) ++
    [.tick 1000, .markLoggedOut] ++ List.replicate 3 (.next 1 exAnswer)

/-- Both close what is open before either creates its row. -/
def exOverlap : List StatusAction :=
  [.changeStatus "MEAL" none, .changeStatus "AVAILABLE" none, .next 0 exAnswer, .next 1 exAnswer,
    .next 0 exAnswer, .next 0 exAnswer, .next 1 exAnswer, .next 1 exAnswer]

theorem one_open_row_exMeal :
    OneOpenRow (exMeal.foldl statusStep noStatus) ∧
      (exMeal.foldl statusStep noStatus).rows.map (·.endedAt) = [some 1000] :=
  ⟨one_open_row exMeal (by decide), by decide⟩

theorem two_open_rows : ¬ OneOpenRow (exOverlap.foldl statusStep noStatus) := by
  intro h
  have htwo : (exOverlap.foldl statusStep noStatus).openRows.length = 2 := by decide
  have hone := h.1
  rw [htwo] at hone
  exact absurd hone (by decide)

end KasterCti.Calls
