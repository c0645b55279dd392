import KasterCti.Library.JsMap
import KasterCti.Library.JsText

/-!
# Offers to agents on one node

`AgentOfferService`: a long poll of the PBX waits for an agent to accept or refuse a call.
Offers, their timers and the answers already given are kept in maps whose key is
`linkedid:extension`. Decisions and the end of a call come in over the event bus.

This module is the service as the code has it, with one action for each thing that can
happen on a node.
-/

namespace KasterCti.Calls

open JsMap JsText

inductive AgentOfferDecision where
  | accept
  | reject
  | timeout
  | abandoned
deriving DecidableEq

/-- `Exclude<AgentOfferDecision, 'TIMEOUT' | 'ABANDONED'>`: what an agent can press. -/
inductive SubmittedDecision where
  | accept
  | reject
deriving DecidableEq

def SubmittedDecision.decision : SubmittedDecision → AgentOfferDecision
  | .accept => .accept
  | .reject => .reject

/-- The caller's number is left out: it only goes to the screens. -/
structure AgentOfferRequest where
  tenantId : String
  linkedid : String
  extension : String
  timeoutSeconds : Nat
deriving DecidableEq

structure AgentOfferDecisionInput where
  tenantId : String
  linkedid : String
  extension : String
  decision : SubmittedDecision

def agentOfferId (linkedid extension : String) : String := linkedid ++ ":" ++ extension

def AgentOfferRequest.offerId (request : AgentOfferRequest) : String :=
  agentOfferId request.linkedid request.extension

def answeredRetentionMs : Nat := 10 * 60 * 1000

/-- One long poll. The source has its `resolve` function in this place. -/
structure Waiter where
  tenantId : String
  number : Nat
deriving DecidableEq

/-- A timer is named by the long poll that set it. -/
structure PendingOffer where
  resolvers : List Waiter
  timer : Waiter
  openedAt : Nat
deriving DecidableEq

/-- `of` is history: the timer of the offer the answer was given to. -/
structure AnsweredSeat where
  decision : AgentOfferDecision
  at_ : Nat
  of : Waiter
deriving DecidableEq

structure OfferTimer where
  offerId : String
  delayMs : Nat
deriving DecidableEq

/-- The maps of the service and the timers that are armed. `requests` and `resolved` are
history: who has asked, and what each promise was resolved with, call by call. -/
structure OfferNode where
  pending : List (String × PendingOffer)
  answered : List (String × AnsweredSeat)
  timers : List (Waiter × OfferTimer)
  requests : List (Waiter × AgentOfferRequest)
  resolved : List (Waiter × AgentOfferDecision)
deriving DecidableEq

namespace OfferNode

def init : OfferNode := ⟨[], [], [], [], []⟩

def remember (answered : List (String × AnsweredSeat)) (offerId : String) (answer : AnsweredSeat) :
    List (String × AnsweredSeat) :=
  set (answered.filter fun e => answer.at_ - e.2.at_ ≤ answeredRetentionMs) offerId answer

def settle (s : OfferNode) (offerId : String) (decision : AgentOfferDecision) (now : Nat) :
    OfferNode :=
  match get s.pending offerId with
  | none => s
  | some offer =>
    { s with
      pending := delete s.pending offerId
      timers := delete s.timers offer.timer
      answered := remember s.answered offerId ⟨decision, now, offer.timer⟩
      resolved := s.resolved ++ offer.resolvers.map fun w => (w, decision) }

def offersOfCall (s : OfferNode) (start : String) : List String :=
  (keys s.pending).filter fun offerId => startsWith offerId start

/-- The loop that both `abandonSiblings` and `abandonCall` run over their keys. -/
def abandonAll (s : OfferNode) (offerIds : List String) (now : Nat) : OfferNode :=
  offerIds.foldl (fun s offerId => s.settle offerId .abandoned now) s

/-- The text an accepted key is cut back to, when `lastIndexOf(':')` is past the start. -/
def siblingStart (acceptedOfferId : String) : Option String :=
  (beforeLast? ':' acceptedOfferId.toList).map fun call => String.ofList call ++ ":"

def abandonSiblings (s : OfferNode) (acceptedOfferId : String) (now : Nat) : OfferNode :=
  match siblingStart acceptedOfferId with
  | none => s
  | some start =>
    s.abandonAll ((s.offersOfCall start).filter fun offerId => offerId ≠ acceptedOfferId) now

def abandonCall (s : OfferNode) (linkedid : String) (now : Nat) : OfferNode :=
  let s := s.abandonAll (s.offersOfCall (linkedid ++ ":")) now
  { s with answered := s.answered.filter fun e => !startsWith e.1 (linkedid ++ ":") }

end OfferNode

/-! ### The event bus -/

/-- The events the service listens to. -/
inductive OfferEvent where
  | decided (offerId : String) (decision : AgentOfferDecision)
  | callEnded (linkedid : String)

structure EventBusMessage where
  event : OfferEvent
  tenantId : String

/-- What a node says to all nodes: a pressed button, or a call that ended. -/
inductive OfferNotice where
  | decision (input : AgentOfferDecisionInput)
  | callEnded (tenantId linkedid : String)

def submitDecision (input : AgentOfferDecisionInput) : EventBusMessage :=
  ⟨.decided (agentOfferId input.linkedid input.extension) input.decision.decision, input.tenantId⟩

def notifyCallEnded (tenantId linkedid : String) : EventBusMessage :=
  ⟨.callEnded linkedid, tenantId⟩

def OfferNotice.message : OfferNotice → EventBusMessage
  | .decision input => submitDecision input
  | .callEnded tenantId linkedid => notifyCallEnded tenantId linkedid

namespace OfferNode

/-- The listener that `onModuleInit` subscribes. -/
def listen (s : OfferNode) (event : OfferEvent) (now : Nat) : OfferNode :=
  match event with
  | .callEnded linkedid => if linkedid = "" then s else s.abandonCall linkedid now
  | .decided offerId decision =>
    if offerId = "" then s
    else if decision = .accept then (s.abandonSiblings offerId now).settle offerId decision now
    else s.settle offerId decision now

/-- A message as the node gets it: from Redis, where one without a tenant is dropped, or,
when Redis fails, straight from its own `publish`. -/
def receive (s : OfferNode) (message : EventBusMessage) (fallback : Bool) (now : Nat) : OfferNode :=
  if message.tenantId = "" ∧ fallback = false then s else s.listen message.event now

def enqueue (s : OfferNode) (offerId : String) (w : Waiter) (request : AgentOfferRequest)
    (now : Nat) : OfferNode :=
  match get s.pending offerId with
  | some existing =>
    { s with
      pending := set s.pending offerId { existing with resolvers := existing.resolvers ++ [w] } }
  | none =>
    { s with
      pending := set s.pending offerId ⟨[w], w, now⟩
      timers := set s.timers w ⟨offerId, request.timeoutSeconds * 1000⟩ }

/-- The answer that keeps a seat from being asked again. -/
def rememberedAnswer (s : OfferNode) (offerId : String) : Option AnsweredSeat :=
  (get s.answered offerId).filter fun answer => answer.decision ≠ .accept

def waitForDecision (s : OfferNode) (w : Waiter) (request : AgentOfferRequest) (now : Nat) :
    OfferNode :=
  let s := { s with requests := s.requests ++ [(w, request)] }
  match s.rememberedAnswer request.offerId with
  | some remembered => { s with resolved := s.resolved ++ [(w, remembered.decision)] }
  | none => s.enqueue request.offerId w request now

def dropWaiter (s : OfferNode) (offerId : String) (w : Waiter) (now : Nat) : OfferNode :=
  match get s.pending offerId with
  | none => s
  | some offer =>
    if w ∈ offer.resolvers then
      let left := offer.resolvers.filter fun w' => w' ≠ w
      let s' := { s with
        pending := set s.pending offerId { offer with resolvers := left }
        resolved := s.resolved ++ [(w, .abandoned)] }
      if left = [] then s'.settle offerId .abandoned now else s'
    else s

end OfferNode

/-- What can happen on a node. A long poll is named by its tenant and a number. -/
inductive OfferAction where
  | wait (number : Nat) (request : AgentOfferRequest) (now : Nat)
  | notice (notice : OfferNotice) (fallback : Bool) (now : Nat)
  | timeout (w : Waiter) (now : Nat)
  | abort (w : Waiter) (now : Nat)

/-- A name that is in use, a timer that is not armed and a poll that was never made do
nothing: these are no actions of the node. -/
def OfferNode.step (s : OfferNode) : OfferAction → OfferNode
  | .wait number request now =>
    if (get s.requests ⟨request.tenantId, number⟩).isSome then s
    else s.waitForDecision ⟨request.tenantId, number⟩ request now
  | .notice notice fallback now => s.receive notice.message fallback now
  | .timeout w now =>
    match get s.timers w with
    | none => s
    | some timer => { s with timers := delete s.timers w }.settle timer.offerId .timeout now
  | .abort w now =>
    match get s.requests w with
    | none => s
    | some request => s.dropWaiter request.offerId w now

end KasterCti.Calls
