import KasterCti.Ami.Parser
import KasterCti.Library.Utf8
import Mathlib.Data.List.Infix

/-!
# The AMI connection

`AmiConnectionService` as a state machine. What happens between two awaits is one
step: a chunk arrives and its handler runs up to the first event it awaits, a
handler that waits goes on, an action is sent, a timer fires, the socket fails,
closes or is replaced by a new one. The state also keeps what has happened so far:
the bytes of every connection, the actions that were sent, the frames that were
passed on and where they went.
-/

namespace KasterCti.Ami

open JsText Calls

/-- `PendingAmiAction`; its promise and its timer are numbered. -/
structure PendingAmiAction where
  promise : Nat
  eventList : Bool
  frames : List ParsedAmiFrame

inductive Settlement
  | resolved (frames : List ParsedAmiFrame)
  | rejected (error : String)

/-- A pending action as others see it. -/
structure PendingView where
  actionId : String
  promise : Nat
  eventList : Bool
deriving DecidableEq

/-- The history: an action was sent, or a frame was passed on while the given
actions were pending. -/
inductive LogEntry
  | requested (view : PendingView)
  | frame (raw : List Char) (pending : List PendingView)
deriving DecidableEq

structure Timer where
  promise : Nat
  actionId : String
  error : String

structure Connection where
  connected : Bool
  loggedIn : Bool
  buffer : List Char
  pendingActions : List (String × PendingAmiAction)
  /-- The timers that are armed. -/
  timers : List Timer
  /-- The handlers that wait for an event, each with the frames it has left. -/
  waiting : List (List (List Char))
  /-- The number of promises that were returned. -/
  promises : Nat
  settled : List (Nat × Settlement)
  log : List LogEntry
  /-- The frames pushed to a pending action, by their number in the log. -/
  given : List (Nat × Nat)
  /-- The frames handed to event processing, by their number in the log. -/
  events : List Nat
  /-- The bytes of the connections that were replaced, and those of this one. -/
  streams : List (List UInt8)
  stream : List UInt8

/-- After `onModuleInit`. -/
def Connection.init : Connection :=
  ⟨false, false, [], [], [], [], 0, [], [], [], [], [], []⟩

inductive ConnectionAction
  | connected
  | data (chunk : List UInt8)
  | resume (handler : Nat)
  | request (actionName : Option String) (now : Nat) (random : String) (eventList : Bool)
  | timeout (promise : Nat)
  | error (message : String)
  | close
  | reconnect

def PendingAmiAction.view (actionId : String) (pending : PendingAmiAction) : PendingView :=
  ⟨actionId, pending.promise, pending.eventList⟩

def viewOf (pending : List (String × PendingAmiAction)) : List PendingView :=
  pending.map (fun entry => entry.2.view entry.1)

/-! ## Pending actions -/

def isEventListFrame (frame : ParsedAmiFrame) : Bool :=
  (header frame "Event").getD "" ∈
    ["ContactList", "ContactListComplete", "EndpointList", "EndpointListComplete"]

/-- The frame ends the action it belongs to. -/
def isTerminating (eventList : Bool) (frame : ParsedAmiFrame) : Bool :=
  header frame "Response" = some "Error" || !eventList ||
    header frame "EventList" = some "Complete" ||
    header frame "Event" = some "ContactListComplete" ||
    header frame "Event" = some "EndpointListComplete"

/-- `pendingActions.set`: a key that is there keeps its place. -/
def setPending (pending : List (String × PendingAmiAction)) (actionId : String)
    (action : PendingAmiAction) : List (String × PendingAmiAction) :=
  if pending.any (fun entry => entry.1 = actionId) then
    pending.map (fun entry => if entry.1 = actionId then (actionId, action) else entry)
  else pending ++ [(actionId, action)]

def deletePending (pending : List (String × PendingAmiAction)) (actionId : String) :
    List (String × PendingAmiAction) :=
  pending.filter (fun entry => entry.1 ≠ actionId)

namespace Connection

def clearTimeout (s : Connection) (promise : Nat) : Connection :=
  { s with timers := s.timers.filter (fun timer => timer.promise ≠ promise) }

def settle (s : Connection) (promise : Nat) (settlement : Settlement) : Connection :=
  { s with settled := s.settled ++ [(promise, settlement)] }

/-- For an event of a list that names no action: the only pending one, if it asked
for a list. -/
def soleList (s : Connection) (frame : ParsedAmiFrame) : Option (String × PendingAmiAction) :=
  match s.pendingActions with
  | [entry] => if isEventListFrame frame && entry.2.eventList then some entry else none
  | _ => none

/-- The action that a frame belongs to. -/
def pendingFor (s : Connection) (frame : ParsedAmiFrame) : Option (String × PendingAmiAction) :=
  match header frame "ActionID" with
  | some actionId =>
    if actionId ≠ "" then (s.pendingActions.lookup actionId).map (actionId, ·)
    else s.soleList frame
  | none => s.soleList frame

def finishPendingAction (s : Connection) (actionId : String) (pending : PendingAmiAction) :
    Connection :=
  { s.clearTimeout pending.promise with
    pendingActions := deletePending s.pendingActions actionId }.settle pending.promise
      (.resolved pending.frames)

/-- The frame is pushed to its action. -/
def push (s : Connection) (actionId : String) (pending : PendingAmiAction)
    (frame : ParsedAmiFrame) : Connection :=
  let pending := { pending with frames := pending.frames ++ [frame] }
  if isTerminating pending.eventList frame then s.finishPendingAction actionId pending
  else { s with pendingActions := setPending s.pendingActions actionId pending }

def rejectAll (s : Connection) (error : String) : List (String × PendingAmiAction) → Connection
  | [] => s
  | (_, pending) :: rest =>
    ((s.clearTimeout pending.promise).settle pending.promise (.rejected error)).rejectAll error rest

def failPendingActions (s : Connection) (error : String) : Connection :=
  { s.rejectAll error s.pendingActions with pendingActions := [] }

/-! ## Frames -/

/-- `normalize` finds an event in the frame. -/
def isEventFrame (raw : List Char) : Bool := truthy (header (normalizedPayload raw) "Event")

/-- The loop of the data handler, up to the first event that it awaits. -/
def passFrames : List (List Char) → Connection → Connection
  | [], s => s
  | raw :: rest, s =>
    let number := s.log.length
    let frame := parseAmiFrame raw
    let logged := { s with log := s.log ++ [.frame raw (viewOf s.pendingActions)] }
    match s.pendingFor frame with
    | some (actionId, pending) =>
      passFrames rest ({ logged with given := s.given ++ [(number, pending.promise)] }.push
        actionId pending frame)
    | none =>
      if isEventFrame raw then
        { logged with events := s.events ++ [number], waiting := s.waiting ++ [rest] }
      else passFrames rest logged

def isAsteriskBanner (buffer : List Char) : Bool := "Asterisk Call Manager".toList <:+: buffer

/-- The data handler: the chunk is decoded on its own. -/
def onData (s : Connection) (chunk : List UInt8) : Connection :=
  let buffer := s.buffer ++ Utf8.decode chunk
  passFrames (splitAmiFrames buffer).1
    { s with
      buffer := (splitAmiFrames buffer).2
      loggedIn := s.loggedIn || isAsteriskBanner buffer
      stream := s.stream ++ chunk }

/-- A handler goes on behind the event it waited for. -/
def resume (s : Connection) (handler : Nat) : Connection :=
  match s.waiting[handler]? with
  | some rest => passFrames rest { s with waiting := s.waiting.eraseIdx handler }
  | none => s

/-- The id of a new action; nothing keeps two ids apart but the clock and the random
digits. -/
def newActionId (now : Nat) (random : String) : String :=
  "codex-" ++ toString now ++ "-" ++ random

/-- `sendActionWithResponse`: without a connection the promise is rejected at
once. -/
def request (s : Connection) (actionName : Option String) (now : Nat) (random : String)
    (eventList : Bool) : Connection :=
  let promise := s.promises
  let s := { s with promises := promise + 1 }
  if !s.connected then s.settle promise (.rejected "AMI is not connected")
  else
    let actionId := newActionId now random
    { s with
      timers := s.timers ++ [⟨promise, actionId,
        "AMI action timeout: " ++ actionName.getD "unknown"⟩]
      pendingActions := setPending s.pendingActions actionId ⟨promise, eventList, []⟩
      log := s.log ++ [.requested ⟨actionId, promise, eventList⟩] }

/-- A timer that is armed fires. -/
def timeout (s : Connection) (promise : Nat) : Connection :=
  match s.timers.find? (fun timer => timer.promise = promise) with
  | some timer =>
    { s.clearTimeout promise with
      pendingActions := deletePending s.pendingActions timer.actionId }.settle promise
        (.rejected timer.error)
  | none => s

def step (s : Connection) : ConnectionAction → Connection
  | .connected => { s with connected := true }
  | .data chunk => s.onData chunk
  | .resume handler => s.resume handler
  | .request actionName now random eventList => s.request actionName now random eventList
  | .timeout promise => s.timeout promise
  | .error message => { s with connected := false }.failPendingActions message
  | .close => { s with connected := false, loggedIn := false }.failPendingActions "AMI disconnected"
  | .reconnect => { s with loggedIn := false, streams := s.streams ++ [s.stream], stream := [] }

/-- The frames passed on, in order. -/
def passed (s : Connection) : List (List Char) :=
  s.log.filterMap (fun entry =>
    match entry with
    | .frame raw _ => some raw
    | .requested _ => none)

end Connection

end KasterCti.Ami
