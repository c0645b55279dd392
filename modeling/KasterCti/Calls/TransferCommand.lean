import KasterCti.Ami.Actions
import KasterCti.Calls.ClientCommands
import KasterCti.Calls.TransferBooks

/-!
# Transfers that are not sent

`CallsService.transfer` writes the transfer row, the session and the candidate in statements
of their own and hands the action to `AmiConnectionService`, which sends nothing and says
nothing while it is not connected. Any statement may throw.

Results:
1. `transfer_agrees`: a command that goes through changes the tables as the transfers of the
   two books do.
2. `transfer_all_or_nothing`: when a transfer that is not sent leaves everything as it was.
3. `transfer_while_disconnected`: one that is accepted and was never sent.
-/

namespace KasterCti.Calls.CallsService

open Ami Common JsText

/-- A transfer as its controller passes it on. The clock is read when the request comes in
and once more when the candidate is recorded. -/
structure TransferRequest where
  tenantId : String
  callId : String
  dto : TransferDto
  actor : Option CallCommandActor
  requestedAt : Time
  recordedAt : Time

/-- How the awaits of a transfer come back. -/
structure TransferReplies where
  agentFails : Bool
  /-- The row of the active agent. -/
  agent : Option CommandAgent
  findFails : Bool
  createFails : Bool
  updateFails : Bool
  recordFails : Bool
  publishFails : Bool

structure CommandHost where
  world : World
  /-- The call that a `callId` stands for. -/
  callIds : String → Option CallKey
  /-- There is a socket, and it is connected. -/
  connected : Bool
  /-- What was written to the socket. -/
  written : List AmiAction

abbrev Command := ExceptT CommandError (StateM CommandHost)

/-- A statement that may throw. -/
def statement (fails : Bool) : Command Unit := if fails then throw .failed else pure ()

/-- `sendAction`, for every action of a command. -/
def CommandHost.sendActions (host : CommandHost) (actions : List AmiAction) : CommandHost :=
  if host.connected then { host with written := host.written ++ actions } else host

/-! ## The checks -/

def supervisoryRoles : List String := ["supervisor", "admin"]

def isSupervisoryActor (actor : CallCommandActor) : Bool :=
  actor.role.getD "" ∈ supervisoryRoles

def assertActorCanControlCall (call : CallSession) (agentLeg : CallLeg)
    (actor : Option CallCommandActor) : Except CommandError Unit := do
  let some actor := actor | return
  if isSupervisoryActor actor then return
  if truthy call.primaryAgentId && call.primaryAgentId = some actor.agentId then return
  let actorExtension := trim (actor.extension.getD "")
  if actorExtension ≠ "" && getChannelEndpoint agentLeg.channelName = some actorExtension then
    return
  throw (.forbidden "본인에게 배정된 통화만 제어할 수 있습니다.")

/-- What the checks of a transfer find. -/
structure TransferTarget where
  key : CallKey
  call : CallSession
  controlChannel : String
  fromExtension : String

/-- The part of `transfer` before its first write. -/
def checkTransfer (replies : TransferReplies) (request : TransferRequest) (host : CommandHost) :
    Except CommandError TransferTarget := do
  if request.actor.isSome && replies.agentFails then throw .failed
  let verifiedActor ← resolveCommandActor request.actor replies.agent
  if replies.findFails then throw .failed
  let some key := (host.callIds request.callId).filter fun key => key.tenantId = request.tenantId
    | throw (.notFound "Call not found")
  let some call := host.world.sessions key | throw (.notFound "Call not found")
  let some agentLeg := host.world.agentLeg key
    | throw (.badRequest "상담원 제어 채널을 찾을 수 없습니다.")
  if agentLeg.channelName = "" then
    throw (.badRequest "상담원 제어 채널을 찾을 수 없습니다.")
  assertActorCanControlCall call agentLeg verifiedActor
  (assertTransferTargetAllowed request.dto.target
    (verifiedActor.bind (·.outboundDialPermissions))).mapError .badRequest
  return ⟨key, call, agentLeg.channelName,
    (getChannelEndpoint agentLeg.channelName).getD (trim request.dto.fromExtension)⟩

/-! ## The writes -/

namespace CommandHost

def onWorld (host : CommandHost) (world : World) : CommandHost := { host with world := world }

def createTransfer (host : CommandHost) (request : TransferRequest) (target : TransferTarget) :
    CommandHost :=
  host.onWorld <| host.world.addTransfer
    { transferId := host.world.transfers.length, key := target.key
      transferType := request.dto.transferType, fromExtension := some target.fromExtension
      toExtension := some request.dto.target, transferResult := some .requested
      requestedAt := request.requestedAt, completedAt := none }

def updateSession (host : CommandHost) (target : TransferTarget) : CommandHost :=
  host.onWorld <| host.world.setSession target.key
    { target.call with transferFlag := true, sessionStatus := .transferring }

def recordRequest (host : CommandHost) (request : TransferRequest) (target : TransferTarget) :
    CommandHost :=
  host.onWorld <| Calls.recordRequest host.world target.key target.call.primaryAgentId
    (some target.fromExtension) request.dto.target request.recordedAt

end CommandHost

def transferActions (dto : TransferDto) (controlChannel : String) : List AmiAction :=
  match dto.transferType with
  | .attended => attendedTransfer controlChannel dto.target none
  | .blind => blindTransfer controlChannel dto.target none

def transfer (replies : TransferReplies) (request : TransferRequest) : Command Unit := do
  match checkTransfer replies request (← get) with
  | .error error => throw error
  | .ok target =>
    statement replies.createFails
    modify (·.createTransfer request target)
    statement replies.updateFails
    modify (·.updateSession target)
    if request.dto.transferType = .attended then
      statement replies.recordFails
      modify (·.recordRequest request target)
    modify (·.sendActions (transferActions request.dto target.controlChannel))
    statement replies.publishFails

/-! ## The condition -/

/-- The command was rejected, and the three tables are as they were. -/
def Untouched (host : CommandHost) (outcome : Except CommandError Unit × CommandHost) : Prop :=
  (∃ error, outcome.1 = .error error) ∧
    outcome.2.world.sessions = host.world.sessions ∧
    outcome.2.world.transfers = host.world.transfers ∧
    outcome.2.world.candidates = host.world.candidates

/-- The transfer ends before its first write, or nothing stops it any more. -/
def AllOrNothing (replies : TransferReplies) (request : TransferRequest) (host : CommandHost) :
    Prop :=
  (∃ error, checkTransfer replies request host = .error error) ∨ replies.createFails = true ∨
    (replies.updateFails = false ∧
      (request.dto.transferType = .attended → replies.recordFails = false) ∧
      host.connected = true)

section Runs

variable {replies : TransferReplies} {request : TransferRequest} {host : CommandHost}
  {target : TransferTarget}

/-- What the checks have found when they let a transfer pass. -/
theorem checkTransfer_ok (h : checkTransfer replies request host = .ok target) :
    host.world.sessions target.key = some target.call ∧
      ∃ leg, host.world.agentLeg target.key = some leg ∧ leg.channelName ≠ "" ∧
        leg.channelName = target.controlChannel ∧
        (getChannelEndpoint leg.channelName).getD (trim request.dto.fromExtension) =
          target.fromExtension := by
  simp only [checkTransfer, bind, Except.bind, pure, Except.pure, throw, throwThe,
    MonadExceptOf.throw] at h
  split at h
  · cases h
  split at h
  · cases h
  split at h
  · cases h
  split at h
  case h_2 => cases h
  next key _ =>
    split at h
    case h_2 => cases h
    next call hcall =>
      split at h
      case h_2 => cases h
      next leg hleg =>
        split at h
        · cases h
        next hchannel =>
          split at h
          · cases h
          split at h
          · cases h
          obtain rfl := Except.ok.inj h
          dsimp only
          exact ⟨hcall, leg, hleg, hchannel, rfl, rfl⟩

theorem transfer_refused {error : CommandError}
    (h : checkTransfer replies request host = .error error) :
    transfer replies request host = (.error error, host) := by
  show (match checkTransfer replies request host with
    | .error error => throw error
    | .ok target => _ : Command Unit) host = _
  rw [h]
  rfl

/-- The tables of a host whose statements have all been executed. -/
def CommandHost.afterWrites (host : CommandHost) (request : TransferRequest)
    (target : TransferTarget) : CommandHost :=
  let host := (host.createTransfer request target).updateSession target
  if request.dto.transferType = .attended then host.recordRequest request target else host

/-- Where a transfer that was let pass ends. -/
theorem transfer_checked (h : checkTransfer replies request host = .ok target) :
    transfer replies request host =
      if replies.createFails then (.error .failed, host)
      else if replies.updateFails then (.error .failed, host.createTransfer request target)
      else if request.dto.transferType = .attended ∧ replies.recordFails = true then
        (.error .failed, (host.createTransfer request target).updateSession target)
      else
        (if replies.publishFails then .error .failed else .ok (),
          (host.afterWrites request target).sendActions
            (transferActions request.dto target.controlChannel)) := by
  show (match checkTransfer replies request host with
    | .error error => throw error
    | .ok target => _ : Command Unit) host = _
  rw [h]
  unfold CommandHost.afterWrites
  cases replies.createFails
  case true => rfl
  cases replies.updateFails
  case true => rfl
  cases request.dto.transferType <;> cases replies.recordFails <;> cases replies.publishFails <;> rfl

/-- A command that goes through changes the tables as the transfers of the two books do. -/
theorem transfer_agrees (h : checkTransfer replies request host = .ok target) :
    (host.afterWrites request target).world =
      Calls.transfer host.world target.key request.dto true request.requestedAt
        request.recordedAt := by
  obtain ⟨hcall, leg, hleg, hchannel, -, hfrom⟩ := checkTransfer_ok h
  unfold Calls.transfer
  rw [hcall, hleg]
  simp only [hfrom, if_pos (show (leg.channelName ≠ "" && true) = true by simpa using hchannel)]
  unfold CommandHost.afterWrites
  by_cases hattended : request.dto.transferType = .attended
  · rw [if_pos hattended, if_pos hattended]
    rfl
  · rw [if_neg hattended, if_neg hattended]
    rfl

theorem sendActions_written (host : CommandHost) {actions : List AmiAction} (h : actions ≠ []) :
    (host.sendActions actions).written = host.written ↔ host.connected = false := by
  unfold CommandHost.sendActions
  cases host.connected <;> simp [h]

theorem transferActions_ne_nil (dto : TransferDto) (controlChannel : String) :
    transferActions dto controlChannel ≠ [] := by
  unfold transferActions
  cases dto.transferType <;> exact List.cons_ne_nil _ _

/-- Once the row of the transfer is there, the tables are not as they were. -/
theorem not_untouched {outcome : Except CommandError Unit × CommandHost}
    (h : outcome.2.world.transfers = (host.createTransfer request target).world.transfers) :
    ¬ Untouched host outcome := by
  rintro ⟨-, -, htransfers, -⟩
  rw [h] at htransfers
  simp [CommandHost.createTransfer, CommandHost.onWorld, World.addTransfer] at htransfers

theorem afterWrites_transfers (host : CommandHost) (request : TransferRequest)
    (target : TransferTarget) : (host.afterWrites request target).world.transfers =
      (host.createTransfer request target).world.transfers := by
  unfold CommandHost.afterWrites
  cases request.dto.transferType <;> rfl

theorem afterWrites_connection (host : CommandHost) (request : TransferRequest)
    (target : TransferTarget) : (host.afterWrites request target).connected = host.connected ∧
      (host.afterWrites request target).written = host.written := by
  unfold CommandHost.afterWrites
  cases request.dto.transferType <;> exact ⟨rfl, rfl⟩

theorem sendActions_world (host : CommandHost) (actions : List AmiAction) :
    (host.sendActions actions).world = host.world := by
  unfold CommandHost.sendActions
  cases host.connected <;> rfl

end Runs

/-- A transfer whose action is not written is rejected and leaves the three tables as they
were exactly when it ends before its first write, or every statement goes through on a
connection that is up. -/
theorem transfer_all_or_nothing (replies : TransferReplies) (request : TransferRequest)
    (host : CommandHost) :
    ((transfer replies request host).2.written = host.written →
        Untouched host (transfer replies request host)) ↔
      AllOrNothing replies request host := by
  unfold AllOrNothing
  cases hcheck : checkTransfer replies request host with
  | error error =>
    rw [transfer_refused hcheck]
    exact iff_of_true (fun _ => ⟨⟨error, rfl⟩, rfl, rfl, rfl⟩) (.inl ⟨error, rfl⟩)
  | ok target =>
    rw [transfer_checked hcheck]
    by_cases hcreate : replies.createFails = true
    · rw [if_pos hcreate]
      exact iff_of_true (fun _ => ⟨⟨.failed, rfl⟩, rfl, rfl, rfl⟩) (.inr (.inl hcreate))
    rw [if_neg hcreate]
    by_cases hupdate : replies.updateFails = true
    · rw [if_pos hupdate]
      exact iff_of_false (fun h => not_untouched rfl (h rfl)) (by simp [hcreate, hupdate])
    rw [if_neg hupdate]
    by_cases hrecord : request.dto.transferType = .attended ∧ replies.recordFails = true
    · rw [if_pos hrecord]
      exact iff_of_false (fun h => not_untouched rfl (h rfl)) (by simp [hcreate, hrecord])
    rw [if_neg hrecord]
    have hsent := sendActions_written (host.afterWrites request target)
      (transferActions_ne_nil request.dto target.controlChannel)
    rw [(afterWrites_connection host request target).1,
      (afterWrites_connection host request target).2] at hsent
    cases hconnected : host.connected with
    | true =>
      refine iff_of_true (fun hwritten => ?_) (.inr (.inr ⟨by simpa using hupdate, ?_, rfl⟩))
      · rw [hsent.mp hwritten] at hconnected
        cases hconnected
      · exact fun hattended => Bool.eq_false_of_not_eq_true fun h => hrecord ⟨hattended, h⟩
    | false =>
      have htransfers := (congrArg (·.transfers) (sendActions_world (host.afterWrites request target)
        (transferActions request.dto target.controlChannel))).trans
          (afterWrites_transfers host request target)
      exact iff_of_false (fun h => not_untouched htransfers (h (hsent.mpr hconnected)))
        (by simp [hcreate])

/-! ## A transfer while the PBX is away -/

def exKey : CallKey := ⟨"t1", "1.1"⟩

def exSession : CallSession :=
  { direction := "inbound", sessionStatus := .talking, ani := none, aniNormalized := none
    dnis := none, queueName := none, customerId := none, primaryAgentId := some "a1"
    transferFlag := false, startedAt := 0, queuedAt := none, ringingAt := none
    answeredAt := some 5000, endedAt := none, talkSeconds := 0, holdSeconds := 0, updatedAt := 0 }

def exWorld : World :=
  { World.empty.setSession exKey exSession with
    legs := [⟨exKey, "1.2", "agent", "PJSIP/1001-0000000a", some "1001", none, 1000, none⟩] }

def exHost (connected : Bool) : CommandHost :=
  ⟨exWorld, fun callId => if callId = "c1" then some exKey else none, connected, []⟩

def exTransferRequest : TransferRequest :=
  ⟨"t1", "c1", ⟨.attended, "1002", "1001"⟩, none, 10000, 10001⟩

def exReplies : TransferReplies := ⟨false, none, false, false, false, false, false⟩

/-- The caller is told that the transfer was accepted. The call waits for a consultation
that nobody has been asked for. -/
theorem transfer_while_disconnected :
    ¬ ((transfer exReplies exTransferRequest (exHost false)).2.written = (exHost false).written →
        Untouched (exHost false) (transfer exReplies exTransferRequest (exHost false))) := by
  intro h
  obtain ⟨⟨error, hrejected⟩, -⟩ := h rfl
  cases hrejected

example : (transfer exReplies exTransferRequest (exHost true)).2.written =
    [[("Action", "Atxfer"), ("Channel", "PJSIP/1001-0000000a"), ("Exten", "1002"),
      ("Context", "transfer-target")]] := by decide

end KasterCti.Calls.CallsService
