import KasterCti.Common.OutboundDialPolicy
import KasterCti.Library.Expiring
import KasterCti.Library.JsText
import KasterCti.Library.Trace
import Mathlib

/-!
# Commands of the desktop client

`CallsService.originateFromClientProtocol`: the timestamp of a command is checked when it
arrives, its nonce is reserved in Redis behind the lookup of the agent. Requests are cut at
their awaits and interleave in any way; every node has a clock of its own. `number` reads a
timestamp as JavaScript's `Number` does, and gives nothing where that is not finite.

Results:
1. `commandStep_reserved`: what every step keeps when no command that was executed comes
   to its reservation later than its timestamp lets it pass.
2. `command_executed_once`: in a run of such steps no command is executed twice.
3. `delayed_copy_executed`: a copy that waits for the lookup until the nonce is forgotten.
-/

namespace KasterCti.Calls

open Common Expiring JsText Trace

structure CallCommandActor where
  agentId : String
  extension : Option String
  role : Option String
  outboundDialPermissions : Option OutboundDialPermissions

structure ClientCommandProtocolInput where
  protocol : Option String
  timestamp : Option String
  nonce : Option String

structure CommandMetaInput where
  correlationId : Option String
  idempotencyKey : Option String

inductive CommandError
  | forbidden (message : String)
  | badRequest (message : String)
  | notFound (message : String)
  /-- A statement throws. -/
  | failed

structure VerifiedProtocol where
  protocol : String
  timestamp : Rat
  nonce : String

/-- The columns of `agents` that `resolveCommandActor` selects, the settings as
`extractOutboundDialPermissions` reads them. -/
structure CommandAgent where
  extension : String
  role : String
  outboundDialPermissions : OutboundDialPermissions

def clientCallCommandProtocol : String := "kaster-desktop-v1"

def clientCommandTimestampSkewMs : Int := 60000

def clientCommandNonceTtlSeconds : Int := 120

/-- A character of `[A-Za-z0-9._:-]`. -/
def isNonceChar (c : Char) : Bool :=
  ('A' ≤ c && c ≤ 'Z') || ('a' ≤ c && c ≤ 'z') || isDigit c || c ∈ ['.', '_', ':', '-']

/-- A field that holds more than white space. -/
def given (value : Option String) : Bool := trim (value.getD "") ≠ ""

def assertClientCommandProtocol (number : Option String → Option Rat) (now : Int)
    (input : ClientCommandProtocolInput) : Except CommandError VerifiedProtocol := do
  if input.protocol.map trim ≠ some clientCallCommandProtocol then
    throw (.forbidden "허용되지 않은 발신 클라이언트 프로토콜입니다.")
  let some timestamp := number input.timestamp
    | throw (.badRequest "발신 명령 시간이 필요합니다.")
  if |(now : Rat) - timestamp| > clientCommandTimestampSkewMs then
    throw (.forbidden "발신 명령 시간이 유효하지 않습니다.")
  let nonce := trim (input.nonce.getD "")
  if nonce.length < 16 || nonce.length > 128 || !nonce.toList.all isNonceChar then
    throw (.badRequest "발신 명령 nonce 가 유효하지 않습니다.")
  pure ⟨clientCallCommandProtocol, timestamp, nonce⟩

/-- `resolveCommandActor`, with the row that it finds. -/
def resolveCommandActor (actor : Option CallCommandActor) (agent : Option CommandAgent) :
    Except CommandError (Option CallCommandActor) := do
  let some actor := actor | return none
  let some agent := agent
    | throw (.forbidden "인증된 상담원 세션을 확인할 수 없습니다.")
  let tokenExtension := trim (actor.extension.getD "")
  if tokenExtension ≠ "" && tokenExtension ≠ agent.extension then
    throw (.forbidden "인증 세션의 내선이 현재 상담원 정보와 일치하지 않습니다.")
  return some
    ⟨actor.agentId, some agent.extension, some agent.role, some agent.outboundDialPermissions⟩

def nonceKey (tenantId agentId nonce : String) : String :=
  "kaster:cti:client-command:nonce:" ++ tenantId ++ ":" ++ agentId ++ ":" ++ nonce

/-- What tells one command from another. -/
structure ClientCommand where
  tenantId : String
  agentId : String
  timestamp : Rat
  nonce : String
deriving DecidableEq

def ClientCommand.key (command : ClientCommand) : String :=
  nonceKey command.tenantId command.agentId command.nonce

/-- The await that a request is in. -/
inductive ClientPhase
  | resolving (actor : Option CallCommandActor)
  | reserving (actor : CallCommandActor)

structure ClientRequest where
  tenantId : String
  verified : VerifiedProtocol
  phase : ClientPhase

structure CommandState where
  /-- The clock of Redis. -/
  now : Int
  nonces : String → Option (Slot Unit)
  requests : Nat → Option ClientRequest
  nextRequest : Nat
  /-- The commands that reached `originate`. -/
  executed : List ClientCommand
  refused : List CommandError

/-- How an await comes back. -/
structure ClientReply where
  fails : Bool
  /-- The row of the active agent. -/
  agent : Option CommandAgent

inductive CommandAction (Node : Type*)
  | tick (ms : Nat)
  | request (node : Node) (tenantId : String) (input : ClientCommandProtocolInput)
    (metaInput : CommandMetaInput) (actor : Option CallCommandActor)
  | next (request : Nat) (reply : ClientReply)

section Steps

variable {Node : Type*} (number : Option String → Option Rat) (skew : Node → Int)

namespace CommandState

def setRequest (s : CommandState) (n : Nat) (request : Option ClientRequest) : CommandState :=
  { s with requests := fun m => if m = n then request else s.requests m }

/-- The request is over, and its caller gets the error. -/
def refuse (s : CommandState) (n : Nat) (error : CommandError) : CommandState :=
  { s with refused := error :: s.refused }.setRequest n none

/-- The request up to its first await, on a node whose clock reads `now`. -/
def start (s : CommandState) (now : Int) (tenantId : String) (input : ClientCommandProtocolInput)
    (metaInput : CommandMetaInput) (actor : Option CallCommandActor) : CommandState :=
  match assertClientCommandProtocol number now input with
  | .error error => s.refuse s.nextRequest error
  | .ok verified =>
    if given metaInput.correlationId && given metaInput.idempotencyKey then
      { s with nextRequest := s.nextRequest + 1 }.setRequest s.nextRequest
        (some ⟨tenantId, verified, .resolving actor⟩)
    else s.refuse s.nextRequest
      (.badRequest "발신 명령 correlationId 와 idempotencyKey 가 필요합니다.")

/-- `SET key 1 EX 120 NX`. -/
def assertClientCommandNonceUnused (s : CommandState) (tenantId agentId nonce : String) :
    Except CommandError CommandState :=
  let key := nonceKey tenantId agentId nonce
  if (found (s.nonces key) s.now).isSome then .error (.forbidden "재사용된 발신 명령입니다.")
  else
    .ok { s with nonces := fun k =>
      if k = key then some ⟨(), some (s.now + clientCommandNonceTtlSeconds * 1000)⟩ else s.nonces k }

end CommandState

def ClientRequest.command (request : ClientRequest) (actor : CallCommandActor) : ClientCommand :=
  ⟨request.tenantId, actor.agentId, request.verified.timestamp, request.verified.nonce⟩

namespace CommandState

/-- The lookup of the agent comes back. -/
def resolved (s : CommandState) (n : Nat) (request : ClientRequest)
    (actor : Except CommandError (Option CallCommandActor)) : CommandState :=
  match actor with
  | .error error => s.refuse n error
  | .ok actor =>
    match actor.filter fun actor => given actor.extension with
    | some actor => s.setRequest n (some { request with phase := .reserving actor })
    | none => s.refuse n (.forbidden "인증된 상담원 내선을 확인할 수 없습니다.")

/-- The reservation comes back. -/
def reserve (s : CommandState) (n : Nat) (command : ClientCommand) : CommandState :=
  match s.assertClientCommandNonceUnused command.tenantId command.agentId command.nonce with
  | .error error => s.refuse n error
  | .ok s => { s with executed := command :: s.executed }.setRequest n none

def next (s : CommandState) (n : Nat) (request : ClientRequest) (reply : ClientReply) :
    CommandState :=
  if reply.fails then s.refuse n .failed
  else
    match request.phase with
    | .resolving actor => s.resolved n request (resolveCommandActor actor reply.agent)
    | .reserving actor => s.reserve n (request.command actor)

end CommandState

def commandStep (s : CommandState) : CommandAction Node → CommandState
  | .tick ms => { s with now := s.now + ms }
  | .request node tenantId input metaInput actor =>
    s.start number (s.now + skew node) tenantId input metaInput actor
  | .next n reply =>
    match s.requests n with
    | none => s
    | some request => s.next n request reply

def noCommands : CommandState := ⟨0, fun _ => none, fun _ => none, 0, [], []⟩

/-! ## The condition -/

/-- A command that was executed comes to its reservation only while its timestamp is not
too old on any node. -/
def OnTime (s : CommandState) : CommandAction Node → Prop
  | .next n reply => reply.fails = false → ∀ request actor, s.requests n = some request →
    request.phase = .reserving actor → request.command actor ∈ s.executed →
      ∀ node, ((s.now + skew node : Int) : Rat) ≤
        request.verified.timestamp + clientCommandTimestampSkewMs
  | _ => True

/-- A step can be tested. -/
instance decidableOnTime [Fintype Node] (s : CommandState) :
    ∀ action : CommandAction Node, Decidable (OnTime skew s action)
  | .tick _ => .isTrue trivial
  | .request .. => .isTrue trivial
  | .next n reply =>
    match hrequest : s.requests n with
    | none => .isTrue fun _ r _ hr => by simp [hrequest] at hr
    | some ⟨_, _, .resolving _⟩ => .isTrue fun _ r _ hr hphase => by
        obtain rfl := Option.some.inj (hrequest.symm.trans hr)
        cases hphase
    | some ⟨tenantId, verified, .reserving actor⟩ =>
      decidable_of_iff (reply.fails = false →
          ClientRequest.command ⟨tenantId, verified, .reserving actor⟩ actor ∈ s.executed →
          ∀ node, ((s.now + skew node : Int) : Rat) ≤
            verified.timestamp + clientCommandTimestampSkewMs) <| by
        constructor
        · intro h hruns r other hr hphase
          obtain rfl := Option.some.inj (hrequest.symm.trans hr)
          obtain rfl := ClientPhase.reserving.inj hphase
          exact h hruns
        · intro h hruns
          exact h hruns _ _ hrequest rfl

/-! ## The invariant -/

/-- The nonce of an executed command is kept until its timestamp is too old on some node. -/
def Remembered (s : CommandState) (command : ClientCommand) : Prop :=
  ∃ (node : Node) (expiresAt : Int), s.nonces command.key = some ⟨(), some expiresAt⟩ ∧
    command.timestamp + clientCommandTimestampSkewMs ≤ ((expiresAt + skew node : Int) : Rat)

structure Reserved (s : CommandState) : Prop where
  remembered : ∀ command ∈ s.executed, Remembered skew s command
  /-- The timestamp of a request has passed its check on some node. -/
  checked : ∀ n request, s.requests n = some request → ∃ node,
    request.verified.timestamp - clientCommandTimestampSkewMs ≤ ((s.now + skew node : Int) : Rat)
  once : s.executed.Nodup

end Steps

variable {Node : Type*} {number : Option String → Option Rat} {skew : Node → Int} {s : CommandState}
  {n : Nat}

theorem timestamp_of_assert {now : Int} {input : ClientCommandProtocolInput}
    {verified : VerifiedProtocol} (h : assertClientCommandProtocol number now input = .ok verified) :
    verified.timestamp - clientCommandTimestampSkewMs ≤ (now : Rat) := by
  unfold assertClientCommandProtocol at h
  by_cases hprotocol : input.protocol.map trim ≠ some clientCallCommandProtocol
  · rw [if_pos hprotocol] at h
    cases h
  rw [if_neg hprotocol] at h
  cases htimestamp : number input.timestamp with
  | none =>
    rw [htimestamp] at h
    cases h
  | some timestamp =>
    rw [htimestamp] at h
    by_cases hskew : |(now : Rat) - timestamp| > clientCommandTimestampSkewMs
    · simp only [if_pos hskew] at h
      cases h
    simp only [if_neg hskew] at h
    split at h
    · cases h
    · obtain rfl := Except.ok.inj h
      have hwithin := (abs_le.mp (not_lt.mp hskew)).1
      show timestamp - clientCommandTimestampSkewMs ≤ (now : Rat)
      linarith

theorem Remembered.mono {s' : CommandState} {command : ClientCommand}
    (h : Remembered skew s command) (hnonces : s'.nonces command.key = s.nonces command.key) :
    Remembered skew s' command := by
  obtain ⟨node, expiresAt, hnonce, hlate⟩ := h
  exact ⟨node, expiresAt, hnonces.trans hnonce, hlate⟩

theorem Reserved.setRequest (h : Reserved skew s) (n : Nat) {request : Option ClientRequest}
    (hchecked : ∀ r, request = some r → ∃ node,
      r.verified.timestamp - clientCommandTimestampSkewMs ≤ ((s.now + skew node : Int) : Rat)) :
    Reserved skew (s.setRequest n request) := by
  refine ⟨h.remembered, ?_, h.once⟩
  intro m r hr
  simp only [CommandState.setRequest] at hr
  split at hr
  · exact hchecked r hr
  · exact h.checked m r hr

theorem Reserved.endRequest (h : Reserved skew s) (n : Nat) : Reserved skew (s.setRequest n none) :=
  h.setRequest n (by rintro _ ⟨⟩)

theorem Reserved.refuse (h : Reserved skew s) (n : Nat) (error : CommandError) :
    Reserved skew (s.refuse n error) :=
  Reserved.endRequest (s := { s with refused := error :: s.refused })
    ⟨h.remembered, h.checked, h.once⟩ n

theorem Reserved.resolved (h : Reserved skew s) {request : ClientRequest}
    (hrequest : s.requests n = some request)
    (actor : Except CommandError (Option CallCommandActor)) :
    Reserved skew (s.resolved n request actor) := by
  unfold CommandState.resolved
  split
  · exact h.refuse n _
  · split
    · refine h.setRequest n ?_
      rintro r ⟨⟩
      exact h.checked n request hrequest
    · exact h.refuse n _

/-- A command that was executed is still remembered when it comes on time. -/
theorem Remembered.found {command : ClientCommand} (h : Remembered skew s command)
    (hontime : ∀ node, ((s.now + skew node : Int) : Rat) ≤
      command.timestamp + clientCommandTimestampSkewMs) :
    found (s.nonces command.key) s.now = some () := by
  obtain ⟨node, expiresAt, hnonce, hlate⟩ := h
  have hle := (hontime node).trans hlate
  rw [hnonce]
  refine found_of_le ?_
  have : s.now + skew node ≤ expiresAt + skew node := by exact_mod_cast hle
  omega

/-- The reservation renews the memory of every command with the same key. -/
theorem Remembered.reserve {command other : ClientCommand} (h : Remembered skew s other)
    (hfound : Expiring.found (s.nonces command.key) s.now = none) {s' : CommandState}
    (hnonces : ∀ k, s'.nonces k =
      if k = command.key then some ⟨(), some (s.now + clientCommandNonceTtlSeconds * 1000)⟩
      else s.nonces k) : Remembered skew s' other := by
  by_cases hkey : other.key = command.key
  · obtain ⟨node, expiresAt, hnonce, hlate⟩ := h
    refine ⟨node, _, by rw [hnonces, if_pos hkey], hlate.trans ?_⟩
    have hpast := found_eq_none_iff.mp hfound _ (hkey ▸ hnonce)
    have hexpired : expiresAt < s.now := not_le.mp (of_decide_eq_false hpast)
    have hlater : expiresAt + skew node ≤
        s.now + clientCommandNonceTtlSeconds * 1000 + skew node := by
      simp only [clientCommandNonceTtlSeconds]
      omega
    exact_mod_cast hlater
  · exact h.mono (by rw [hnonces, if_neg hkey])

/-- What a reservation does. -/
theorem reserve_cases (s : CommandState) (n : Nat) (command : ClientCommand) :
    (found (s.nonces command.key) s.now ≠ none ∧ ∃ error, s.reserve n command = s.refuse n error) ∨
    (found (s.nonces command.key) s.now = none ∧ ∃ s' : CommandState,
      s.reserve n command = s'.setRequest n none ∧ s'.now = s.now ∧ s'.requests = s.requests ∧
      s'.executed = command :: s.executed ∧ ∀ k, s'.nonces k =
        if k = command.key then some ⟨(), some (s.now + clientCommandNonceTtlSeconds * 1000)⟩
        else s.nonces k) := by
  unfold CommandState.reserve CommandState.assertClientCommandNonceUnused
  dsimp only
  rw [show nonceKey command.tenantId command.agentId command.nonce = command.key from rfl]
  cases found (s.nonces command.key) s.now with
  | some _ => exact .inl ⟨by simp, _, rfl⟩
  | none => exact .inr ⟨rfl, _, rfl, rfl, rfl, rfl, fun _ => rfl⟩

theorem Reserved.reserve (h : Reserved skew s) {command : ClientCommand}
    (hchecked : ∃ node, command.timestamp - clientCommandTimestampSkewMs ≤
      ((s.now + skew node : Int) : Rat))
    (hontime : command ∈ s.executed → ∀ node,
      ((s.now + skew node : Int) : Rat) ≤ command.timestamp + clientCommandTimestampSkewMs) :
    Reserved skew (s.reserve n command) := by
  rcases reserve_cases s n command with ⟨-, error, hrefused⟩ |
    ⟨hfound, s', hreserved, hnow, hrequests, hexecuted, hnonces⟩
  · rw [hrefused]
    exact h.refuse n error
  · rw [hreserved]
    refine Reserved.endRequest ⟨?_, ?_, ?_⟩ n
    · intro other hother
      rw [hexecuted] at hother
      rcases List.mem_cons.mp hother with rfl | hold
      · obtain ⟨node, hcheck⟩ := hchecked
        refine ⟨node, _, (hnonces _).trans (if_pos rfl), ?_⟩
        simp only [clientCommandTimestampSkewMs, clientCommandNonceTtlSeconds] at hcheck ⊢
        push_cast at hcheck ⊢
        linarith
      · exact (h.remembered other hold).reserve hfound hnonces
    · rw [hnow, hrequests]
      exact h.checked
    · rw [hexecuted]
      refine List.nodup_cons.mpr ⟨fun hmem => ?_, h.once⟩
      rw [(h.remembered command hmem).found (hontime hmem)] at hfound
      cases hfound

/-- Every step that meets the condition. -/
theorem commandStep_reserved {action : CommandAction Node} (h : Reserved skew s)
    (hontime : OnTime skew s action) : Reserved skew (commandStep number skew s action) := by
  cases action with
  | tick ms =>
    refine ⟨h.remembered, ?_, h.once⟩
    intro m request hrequest
    obtain ⟨node, hchecked⟩ := h.checked m request hrequest
    refine ⟨node, hchecked.trans ?_⟩
    have hlater : s.now + skew node ≤ s.now + ms + skew node := by omega
    exact_mod_cast hlater
  | request node tenantId input metaInput actor =>
    unfold commandStep CommandState.start
    dsimp only
    split
    · exact h.refuse s.nextRequest _
    · next verified hverified =>
      split
      · refine Reserved.setRequest (s := { s with nextRequest := s.nextRequest + 1 })
          ⟨h.remembered, h.checked, h.once⟩ s.nextRequest ?_
        rintro r ⟨⟩
        exact ⟨node, timestamp_of_assert hverified⟩
      · exact h.refuse s.nextRequest _
  | next n reply =>
    rw [commandStep]
    split
    · exact h
    · next request hrequest =>
      unfold CommandState.next
      split
      · exact h.refuse n .failed
      · next hruns =>
        split
        · exact h.resolved hrequest _
        · next actor hphase =>
          exact h.reserve (h.checked n request hrequest)
            (hontime (Bool.eq_false_of_not_eq_true hruns) request actor hrequest hphase)

theorem reserved_noCommands : Reserved skew noCommands :=
  ⟨by rintro _ ⟨⟩, by rintro _ _ ⟨⟩, List.nodup_nil⟩

/-- In every run in which no command that was executed comes to its reservation when its
timestamp is too old, every command is executed at most once. -/
theorem command_executed_once (number : Option String → Option Rat) (skew : Node → Int)
    (actions : List (CommandAction Node))
    (h : Along (commandStep number skew) (OnTime skew) noCommands actions) :
    (actions.foldl (commandStep number skew) noCommands).executed.Nodup :=
  (h.invariant (fun _ _ hontime hs => commandStep_reserved hs hontime) reserved_noCommands).once

/-! ## A copy that is sent again -/

def exTimestamp : Option String → Option Rat := fun text =>
  if text = some "1700000000000" then some 1700000000000 else none

def exSkew : Unit → Int := fun _ => 0

def exRequest : CommandAction Unit :=
  .request () "t1" ⟨some "kaster-desktop-v1", some "1700000000000", some "nonce-0123456789"⟩
    ⟨some "c1", some "i1"⟩ (some ⟨"a1", none, none, none⟩)

def exFound : ClientReply := ⟨false, some ⟨"1001", "agent", defaultOutboundDialPermissions⟩⟩

/-- A command, and a copy that is sent while the nonce is still known. -/
def exCopySent : List (CommandAction Unit) :=
  [.tick 1700000000000, exRequest, .next 0 exFound, .next 0 exFound, .tick 50000,
    exRequest, .next 1 exFound, .next 1 exFound]

theorem command_executed_once_exReplay :
    (exCopySent.foldl (commandStep exTimestamp exSkew) noCommands).executed.Nodup ∧
      (exCopySent.foldl (commandStep exTimestamp exSkew) noCommands).executed =
        [⟨"t1", "a1", 1700000000000, "nonce-0123456789"⟩] :=
  ⟨command_executed_once exTimestamp exSkew exCopySent (by with_unfolding_all decide),
    by with_unfolding_all decide⟩

/-- The copy has passed the check when its lookup takes 80 seconds. -/
def exDelayed : List (CommandAction Unit) :=
  [.tick 1700000000000, exRequest, .next 0 exFound, .next 0 exFound, .tick 50000,
    exRequest, .next 1 exFound, .tick 80000, .next 1 exFound]

theorem delayed_copy_executed :
    ¬ (exDelayed.foldl (commandStep exTimestamp exSkew) noCommands).executed.Nodup := by
  with_unfolding_all decide

end KasterCti.Calls
