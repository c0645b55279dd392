import KasterCti.Library.Trace
import Mathlib

/-!
# The current call of the desktop client

`CallStateStore.cs`: events of the whole tenant and dialogs of the local softphone become the
one call that the agent sees. Every change of the private fields runs under the lock and is
one step; the readings of the clock are part of it. Of a call the fields are kept that the
store reads, the customer and the status.

Results:
1. `current_eq`: what is shown is what the fields hold.
2. `foreign_calls_iff`: exactly when an event about a foreign call leaves the screen alone, and
   that no call of a colleague is shown.
-/

namespace KasterCti.Desktop

/-! ## Calls, dialogs and offers -/

structure CustomerInfo where
  customerId : String
  customerName : String
  phoneNumber : String
deriving DecidableEq

structure ActiveCall where
  callId : String
  ani : String
  sessionStatus : String
  primaryAgentId : Option String
  customer : Option CustomerInfo
deriving DecidableEq

inductive LocalSipState
  | incoming | established
deriving DecidableEq

structure LocalSipCall where
  dialogId : String
  remoteNumber : String
  arrivedAt : Int
  state : LocalSipState
deriving DecidableEq

structure CurrentCall where
  server : Option ActiveCall
  sip : Option LocalSipCall
  isPaired : Bool
deriving DecidableEq

structure CallOffer where
  offerId : String
  extension : String

inductive CtiEvent
  | callCreated (call : ActiveCall)
  | callUpdated (call : ActiveCall)
  | callEnded (call : ActiveCall)
  | screenPop (callId : String) (customer : Option CustomerInfo)
  | callOffered (offer : CallOffer)
  | callOfferClosed (offerId : String)
  | other

/-- What the store is built with. -/
structure StoreConfig where
  agentId : String
  extension : String
  pairingWindow : Int

/-- The private fields. -/
structure Held where
  server : Option ActiveCall
  serverReceivedAt : Option Int
  sip : Option LocalSipCall
  paired : Bool
  expectOutboundUntil : Option Int

structure CallStateStore where
  held : Held
  current : Option CurrentCall
  currentOffer : Option CallOffer

def CallStateStore.initial : CallStateStore := ⟨⟨none, none, none, false, none⟩, none, none⟩

/-! ## Numbers -/

def isAsciiDigit (c : Char) : Bool := '0' ≤ c && c ≤ '9'

def digits (value : String) : List Char := value.toList.filter isAsciiDigit

/-- The last eight digits decide, or all of them where there are fewer. -/
def sameNumber (left right : String) : Bool :=
  let a := digits left
  let b := digits right
  if a = [] || b = [] then false
  else if a = b then true
  else if a.length < 8 || b.length < 8 then false
  else a.drop (a.length - 8) = b.drop (b.length - 8)

/-! ## The operations -/

def Held.canPair (config : StoreConfig) (held : Held) : Bool :=
  match held.server, held.sip, held.serverReceivedAt with
  | some server, some sip, some receivedAt =>
    let apart := sip.arrivedAt - receivedAt
    let apart := if apart < 0 then -apart else apart
    if apart > config.pairingWindow then false else sameNumber server.ani sip.remoteNumber
  | _, _, _ => false

def Held.isExpectingOutbound (held : Held) (now : Int) : Bool :=
  held.expectOutboundUntil.any (fun limit => now ≤ limit)

def Held.holdsCall (held : Held) (callId : String) : Bool :=
  held.server.any (fun server => server.callId = callId)

def Held.release (held : Held) : Held :=
  { held with
    server := none
    serverReceivedAt := none
    sip := none
    paired := false
    expectOutboundUntil := none }

def Held.snapshot (held : Held) : Option CurrentCall :=
  if held.server = none && held.sip = none then none
  else some ⟨held.server, held.sip, held.paired⟩

def mutate (change : Held → Held) (store : CallStateStore) : CallStateStore :=
  let held := change store.held
  if held.snapshot = store.current then { store with held := held }
  else { store with held := held, current := held.snapshot }

/-- A screen pop that is there already is not taken back by an update. -/
def keepCustomer (call : ActiveCall) (server : Option ActiveCall) : ActiveCall :=
  match call.customer, server.bind ActiveCall.customer with
  | none, some customer => { call with customer := some customer }
  | _, _ => call

/-- `AdoptServerCall`; the clock is read for the expectation and for the arrival. -/
def adopt (config : StoreConfig) (call : ActiveCall) (asked received : Int) (held : Held) : Held :=
  if call.primaryAgentId.any (fun agentId => agentId ≠ config.agentId) then
    if held.holdsCall call.callId then held.release else held
  else if call.primaryAgentId = none && !held.isExpectingOutbound asked &&
      !held.holdsCall call.callId then held
  else if held.server.any (fun server => server.callId ≠ call.callId) then held
  else
    let next := { held with
      server := some (keepCustomer call held.server)
      serverReceivedAt := some received }
    { next with paired := next.canPair config }

/-- `EndServerCall`. -/
def endCall (call : ActiveCall) (held : Held) : Held :=
  if held.server.any (fun server => server.callId ≠ call.callId) then held else held.release

/-- `AttachCustomer`. -/
def attachCustomer (callId : String) (customer : Option CustomerInfo) (held : Held) : Held :=
  match held.server with
  | some server =>
    if server.callId = callId then { held with server := some { server with customer := customer } }
    else held
  | none => held

/-- White space as `Trim` cuts it off. -/
def isWhiteSpace (c : Char) : Bool :=
  let n := c.toNat
  (9 ≤ n && n ≤ 13) || n = 0x20 || n = 0x85 || n = 0xa0 || n = 0x1680 ||
    (0x2000 ≤ n && n ≤ 0x200a) || n = 0x2028 || n = 0x2029 || n = 0x202f || n = 0x205f || n = 0x3000

def trimmed (text : String) : List Char :=
  ((text.toList.dropWhile isWhiteSpace).reverse.dropWhile isWhiteSpace).reverse

def setOffer (config : StoreConfig) (offer : CallOffer) (store : CallStateStore) : CallStateStore :=
  if trimmed config.extension ≠ [] && trimmed offer.extension ≠ trimmed config.extension then store
  else { store with currentOffer := some offer }

def clearOffer (offerId : String) (store : CallStateStore) : CallStateStore :=
  if store.currentOffer.any (fun offer => offer.offerId = offerId) then
    { store with currentOffer := none }
  else store

def applyEvent (config : StoreConfig) (evt : CtiEvent) (asked received : Int)
    (store : CallStateStore) : CallStateStore :=
  match evt with
  | .callCreated call => mutate (adopt config call asked received) store
  | .callUpdated call => mutate (adopt config call asked received) store
  | .callEnded call => mutate (endCall call) store
  | .screenPop callId customer => mutate (attachCustomer callId customer) store
  | .callOffered offer => setOffer config offer store
  | .callOfferClosed offerId => clearOffer offerId store
  | .other => store

inductive StoreStep
  | apply (evt : CtiEvent) (asked received : Int)
  | expectOutboundCall (window now : Int)
  | sipIncoming (dialogId remoteNumber : String) (now : Int)
  | sipEstablished (dialogId : String)
  | sipEnded (dialogId : String)
  | dismissOffer

/-- `OnSipIncoming`. -/
def incoming (config : StoreConfig) (dialogId remoteNumber : String) (now : Int) (held : Held) :
    Held :=
  let next := { held with sip := some ⟨dialogId, remoteNumber, now, .incoming⟩ }
  { next with paired := next.canPair config }

/-- `OnSipEstablished`. -/
def established (dialogId : String) (held : Held) : Held :=
  match held.sip with
  | some sip =>
    if sip.dialogId = dialogId then { held with sip := some { sip with state := .established } }
    else held
  | none => held

/-- `OnSipEnded`. -/
def ended (dialogId : String) (held : Held) : Held :=
  if held.sip.any (fun sip => sip.dialogId = dialogId) then
    { held with sip := none, paired := false }
  else held

def storeStep (config : StoreConfig) (store : CallStateStore) : StoreStep → CallStateStore
  | .apply evt asked received => applyEvent config evt asked received store
  | .expectOutboundCall window now =>
    mutate (fun held => { held with expectOutboundUntil := some (now + window) }) store
  | .sipIncoming dialogId remoteNumber now =>
    mutate (incoming config dialogId remoteNumber now) store
  | .sipEstablished dialogId => mutate (established dialogId) store
  | .sipEnded dialogId => mutate (ended dialogId) store
  | .dismissOffer => { store with currentOffer := none }

def storeAfter (config : StoreConfig) (steps : List StoreStep) : CallStateStore :=
  steps.foldl (storeStep config) .initial

/-! ## What is shown -/

theorem mutate_held (change : Held → Held) (store : CallStateStore) :
    (mutate change store).held = change store.held := by
  rw [mutate]
  split <;> rfl

theorem mutate_current (change : Held → Held) (store : CallStateStore) :
    (mutate change store).current = (change store.held).snapshot := by
  rw [mutate]
  split
  · rename_i heq
    exact heq.symm
  · rfl

/-- What a step does to the private fields. -/
def changeOf (config : StoreConfig) : StoreStep → Held → Held
  | .apply (.callCreated call) asked received => adopt config call asked received
  | .apply (.callUpdated call) asked received => adopt config call asked received
  | .apply (.callEnded call) _ _ => endCall call
  | .apply (.screenPop callId customer) _ _ => attachCustomer callId customer
  | .expectOutboundCall window now =>
    fun held => { held with expectOutboundUntil := some (now + window) }
  | .sipIncoming dialogId remoteNumber now => incoming config dialogId remoteNumber now
  | .sipEstablished dialogId => established dialogId
  | .sipEnded dialogId => ended dialogId
  | _ => id

theorem storeStep_held (config : StoreConfig) (store : CallStateStore) (e : StoreStep) :
    (storeStep config store e).held = changeOf config e store.held := by
  cases e with
  | apply evt asked received =>
    cases evt with
    | callOffered offer =>
      show (setOffer config offer store).held = store.held
      rw [setOffer]
      split <;> rfl
    | callOfferClosed offerId =>
      show (clearOffer offerId store).held = store.held
      rw [clearOffer]
      split <;> rfl
    | other => rfl
    | _ => exact mutate_held _ store
  | dismissOffer => rfl
  | _ => exact mutate_held _ store

theorem storeStep_current {config : StoreConfig} {store : CallStateStore}
    (h : store.current = store.held.snapshot) (e : StoreStep) :
    (storeStep config store e).current = (changeOf config e store.held).snapshot := by
  cases e with
  | apply evt asked received =>
    cases evt with
    | callOffered offer =>
      show (setOffer config offer store).current = store.held.snapshot
      rw [setOffer]
      split <;> exact h
    | callOfferClosed offerId =>
      show (clearOffer offerId store).current = store.held.snapshot
      rw [clearOffer]
      split <;> exact h
    | other => exact h
    | _ => exact mutate_current _ store
  | dismissOffer => exact h
  | _ => exact mutate_current _ store

/-- What is shown is what the private fields hold. -/
theorem current_eq (config : StoreConfig) (steps : List StoreStep) :
    (storeAfter config steps).current = (storeAfter config steps).held.snapshot := by
  induction steps using List.reverseRecOn with
  | nil => rfl
  | append_singleton steps e ih =>
    rw [storeAfter, List.foldl_append]
    exact (storeStep_current ih e).trans (congrArg Held.snapshot (storeStep_held config _ e).symm)

/-! ## Foreign calls -/

/-- The event is about a call that the store does not hold and that is not this agent's. -/
def Foreign (config : StoreConfig) (held : Held) : CtiEvent → Prop
  | .callCreated call => held.holdsCall call.callId = false ∧
      call.primaryAgentId ≠ some config.agentId
  | .callUpdated call => held.holdsCall call.callId = false ∧
      call.primaryAgentId ≠ some config.agentId
  | .callEnded call => held.holdsCall call.callId = false ∧
      call.primaryAgentId ≠ some config.agentId
  | .screenPop callId _ => held.holdsCall callId = false
  | _ => False

/-- The end of a call, while there is a dialog and no call that the server told of. -/
def EndsOverDialog (held : Held) : CtiEvent → Prop
  | .callEnded _ => held.server = none ∧ held.sip ≠ none
  | _ => False

/-- A call that is not a colleague's. -/
def Ours (config : StoreConfig) (call : ActiveCall) : Prop :=
  call.primaryAgentId = none ∨ call.primaryAgentId = some config.agentId

section Foreign
variable {config : StoreConfig} {held : Held}

theorem any_other_of_not_holds {callId : String} (h : held.holdsCall callId = false)
    (hserver : held.server ≠ none) :
    held.server.any (fun server => server.callId ≠ callId) = true := by
  cases hheld : held.server with
  | none => exact absurd hheld hserver
  | some server =>
    rw [Held.holdsCall, hheld, Option.any_some, decide_eq_false_iff_not] at h
    rw [Option.any_some]
    exact decide_eq_true h

variable {call : ActiveCall}

theorem adopt_foreign {asked received : Int} (hheld : held.holdsCall call.callId = false)
    (howner : call.primaryAgentId ≠ some config.agentId)
    (hexpect : held.isExpectingOutbound asked = false) :
    adopt config call asked received held = held := by
  rw [adopt, hheld, hexpect]
  cases hagent : call.primaryAgentId with
  | none => rfl
  | some agentId =>
    have hne : agentId ≠ config.agentId := fun heq => howner (by rw [hagent, heq])
    simp [hne]

theorem endCall_foreign (hheld : held.holdsCall call.callId = false) :
    endCall call held = if held.server = none then held.release else held := by
  rw [endCall]
  split
  · rename_i hother
    rw [if_neg]
    intro hnone
    rw [hnone] at hother
    cases hother
  · rename_i hother
    rw [if_pos]
    by_contra hserver
    exact hother (any_other_of_not_holds hheld hserver)

theorem attachCustomer_foreign {callId : String} {customer : Option CustomerInfo}
    (hheld : held.holdsCall callId = false) : attachCustomer callId customer held = held := by
  rw [attachCustomer]
  split
  · rename_i server hserver
    rw [Held.holdsCall, hserver, Option.any_some, decide_eq_false_iff_not] at hheld
    exact if_neg hheld
  · rfl

theorem snapshot_of_dialog (hserver : held.server = none) (hsip : held.sip ≠ none) :
    held.snapshot = some ⟨none, held.sip, held.paired⟩ := by
  rw [Held.snapshot, hserver, if_neg (by simp [hsip])]

/-- A foreign event changes what is shown exactly if it ends a call over a dialog. -/
theorem snapshot_foreign {evt : CtiEvent} {asked received : Int} (h : Foreign config held evt)
    (hexpect : held.isExpectingOutbound asked = false) :
    (changeOf config (.apply evt asked received) held).snapshot = held.snapshot ↔
      ¬ EndsOverDialog held evt := by
  cases evt with
  | callCreated call | callUpdated call =>
    rw [changeOf, adopt_foreign h.1 h.2 hexpect]
    exact ⟨fun _ => id, fun _ => rfl⟩
  | callEnded call =>
    rw [changeOf, endCall_foreign h.1]
    split
    · rename_i hserver
      cases hsip : held.sip with
      | none =>
        have hrelease : held.release.snapshot = held.snapshot := by
          rw [Held.snapshot, Held.snapshot, hserver, hsip]
          rfl
        exact ⟨fun _ hends => hends.2 hsip, fun _ => hrelease⟩
      | some sip =>
        have hdialog : held.sip ≠ none := by
          rw [hsip]
          exact Option.some_ne_none sip
        rw [snapshot_of_dialog hserver hdialog]
        exact ⟨fun heq => absurd heq.symm (Option.some_ne_none _),
          fun hkeeps => absurd ⟨hserver, hdialog⟩ hkeeps⟩
    · rename_i hserver
      exact ⟨fun _ hends => hserver hends.1, fun _ => rfl⟩
  | screenPop callId customer =>
    rw [changeOf, attachCustomer_foreign h]
    exact ⟨fun _ => id, fun _ => rfl⟩
  | _ => exact h.elim

theorem ours_keepCustomer {server : Option ActiveCall} (h : Ours config call) :
    Ours config (keepCustomer call server) := by
  rw [keepCustomer]
  split <;> exact h

theorem ours_adopt {asked received : Int} (h : ∀ call ∈ held.server, Ours config call) :
    ∀ server ∈ (adopt config call asked received held).server, Ours config server := by
  rw [adopt]
  split
  · split
    · exact fun server hserver => absurd hserver (Option.not_mem_none server)
    · exact h
  · rename_i howner
    split
    · exact h
    · split
      · exact h
      · intro server hserver
        obtain rfl := Option.some.inj hserver
        refine ours_keepCustomer ?_
        cases hagent : call.primaryAgentId with
        | none => exact .inl hagent
        | some agentId =>
          rw [hagent, Option.any_some, decide_eq_true_eq, not_not] at howner
          exact .inr (hagent.trans (congrArg some howner))

theorem ours_attachCustomer {callId : String} {customer : Option CustomerInfo}
    (h : ∀ call ∈ held.server, Ours config call) :
    ∀ server ∈ (attachCustomer callId customer held).server, Ours config server := by
  rw [attachCustomer]
  split
  · rename_i server hserver
    split
    · intro shown hshown
      obtain rfl := Option.some.inj hshown
      exact h server hserver
    · exact h
  · exact h

/-- No step lets a call of a colleague in. -/
theorem ours_changeOf (e : StoreStep) (h : ∀ call ∈ held.server, Ours config call) :
    ∀ call ∈ (changeOf config e held).server, Ours config call := by
  cases e with
  | apply evt asked received =>
    cases evt with
    | callCreated call => exact ours_adopt h
    | callUpdated call => exact ours_adopt h
    | callEnded call =>
      rw [changeOf, endCall]
      split
      · exact h
      · exact fun server hserver => absurd hserver (Option.not_mem_none server)
    | screenPop callId customer => exact ours_attachCustomer h
    | _ => exact h
  | sipEstablished dialogId =>
    rw [changeOf, established]
    split
    · split <;> exact h
    · exact h
  | sipEnded dialogId =>
    rw [changeOf, ended]
    split <;> exact h
  | _ => exact h

theorem ours_held (config : StoreConfig) (steps : List StoreStep) :
    ∀ call ∈ (storeAfter config steps).held.server, Ours config call := by
  induction steps using List.reverseRecOn with
  | nil => exact fun call hcall => absurd hcall (Option.not_mem_none call)
  | append_singleton steps e ih =>
    rw [storeAfter, List.foldl_append]
    exact (storeStep_held config _ e).symm ▸ ours_changeOf e ih

theorem server_of_shown {shown : CurrentCall} (h : shown ∈ held.snapshot) :
    shown.server = held.server := by
  rw [Held.snapshot] at h
  split at h
  · cases h
  · exact (Option.some.inj h) ▸ rfl

end Foreign

/-- An event about a foreign call, while no outbound call is expected, changes what is shown
exactly if it ends a call over a dialog; and no call of a colleague is ever shown. -/
theorem foreign_calls_iff (config : StoreConfig) (steps : List StoreStep) :
    (∀ evt asked received, Foreign config (storeAfter config steps).held evt →
      (storeAfter config steps).held.isExpectingOutbound asked = false →
      ((storeStep config (storeAfter config steps) (.apply evt asked received)).current =
          (storeAfter config steps).current ↔
        ¬ EndsOverDialog (storeAfter config steps).held evt)) ∧
    ∀ shown ∈ (storeAfter config steps).current, ∀ call ∈ shown.server, Ours config call := by
  have hcurrent := current_eq config steps
  constructor
  · intro evt asked received hforeign hexpect
    rw [storeStep_current hcurrent, hcurrent]
    exact snapshot_foreign hforeign hexpect
  · intro shown hshown call hcall
    rw [hcurrent] at hshown
    rw [server_of_shown hshown] at hcall
    exact ours_held config steps call hcall

/-- The INVITE came before the event of the server, and a colleague hangs up. -/
theorem ringing_wiped :
    ¬ ∀ (config : StoreConfig) (steps : List StoreStep) (evt : CtiEvent) (asked received : Int),
      Foreign config (storeAfter config steps).held evt →
      (storeAfter config steps).held.isExpectingOutbound asked = false →
      (storeStep config (storeAfter config steps) (.apply evt asked received)).current =
        (storeAfter config steps).current := by
  intro h
  have hwiped := h ⟨"agent-1", "1001", 10⟩ [.sipIncoming "dialog-1" "01012345678" 100]
    (.callEnded ⟨"call-2", "01099998888", "ENDED", some "agent-2", none⟩) 101 101
    (by exact ⟨by decide, by decide⟩) (by decide)
  exact absurd hwiped (by decide)

end KasterCti.Desktop
