import KasterCti.Calls.World

/-!
# The transfer detector

`TransferDetectorService`: the phases of an attended-transfer candidate, the
result of the transfer row that belongs to it, and the fallback that puts the
session back when a consultation fails or a candidate expires.

The fallback writes `sessionStatus` without reading it, and it is the only part
of the detector that touches a session (`handle_sessions`, `sweepExpired_sessions`).
-/

namespace KasterCti.Calls

open JsText

/-! ## Queries -/

/-- `findFirst` with `orderBy: { [time]: 'desc' }`: a match with the latest time. -/
def findLatest {α : Type} (time : α → Time) (p : α → Bool) (rows : List α) : Option α :=
  (rows.filter p).foldl
    (fun best row => match best with
      | none => some row
      | some b => if time b < time row then some row else some b) none

def World.getOpenCandidate (w : World) (key : CallKey) : Option TransferCandidate :=
  findLatest (·.requestedAt) (fun c => c.key = key && c.phase.isOpen) w.candidates

def World.getRecentFailedCandidate (w : World) (key : CallKey) (now : Time) :
    Option TransferCandidate :=
  findLatest (·.updatedAt)
    (fun c => c.key = key && c.phase = .failed && now - 60 * 1000 ≤ c.updatedAt) w.candidates

/-- The newest transfer row of the call whose result is still open. -/
def World.getPendingTransfer (w : World) (key : CallKey) (type : TransferType) :
    Option CallTransfer :=
  findLatest (·.requestedAt)
    (fun t => t.key = key && t.transferType = type &&
      (t.transferResult = none || t.transferResult = some .requested)) w.transfers

/-- `haystack.includes(needle)`. -/
def includes : List Char → List Char → Bool
  | cs, needle =>
    (afterPrefix? needle cs).isSome || match cs with
      | [] => false
      | _ :: rest => includes rest needle

/-- The non-empty headers of a frame, out of `names`. -/
def AmiEvent.rawFields (event : AmiEvent) (names : List String) : List String :=
  (names.filterMap event.rawField).filter (· ≠ "")

def eventMentionsExtension (event : AmiEvent) (extension : Option String) : Bool :=
  let needle := trim (extension.getD "")
  needle ≠ "" &&
    (event.rawFields ["Extension", "Exten", "DestExten", "ConnectedLineNum", "CallerIDNum",
      "DialString", "Channel", "DestChannel", "Destination"]).any
      (fun value => includes value.toList needle.toList)

def eventMentionsUniqueid (event : AmiEvent) (uniqueid : Option String) : Bool :=
  let needle := trim (uniqueid.getD "")
  needle ≠ "" &&
    (event.rawFields ["Uniqueid", "DestUniqueid", "SecondTransfererUniqueid",
      "OrigTransfererUniqueid", "TransfererUniqueid", "TransfereeUniqueid"]).contains needle

/-! ## Writes -/

def World.updateCandidate (w : World) (candidateId : Nat)
    (f : TransferCandidate → TransferCandidate) : World :=
  { w with candidates := w.candidates.map fun c => if c.candidateId = candidateId then f c else c }

def World.updateTransfer (w : World) (transferId : Nat) (f : CallTransfer → CallTransfer) : World :=
  { w with transfers := w.transfers.map fun t => if t.transferId = transferId then f t else t }

def World.addCandidate (w : World) (c : TransferCandidate) : World :=
  { w with candidates := w.candidates ++ [c] }

@[simp] theorem World.addCandidate_sessions (w : World) (c : TransferCandidate) :
    (w.addCandidate c).sessions = w.sessions := rfl

@[simp] theorem World.updateCandidate_sessions (w : World) (id : Nat)
    (f : TransferCandidate → TransferCandidate) :
    (w.updateCandidate id f).sessions = w.sessions := rfl

@[simp] theorem World.updateTransfer_sessions (w : World) (id : Nat)
    (f : CallTransfer → CallTransfer) : (w.updateTransfer id f).sessions = w.sessions := rfl

def World.updateCandidatePhase (w : World) (candidateId : Nat) (phase : TransferPhase) (now : Time)
    (extra : TransferCandidate → TransferCandidate := id) : World :=
  w.updateCandidate candidateId fun c => extra { c with phase := phase, updatedAt := now }

/-- The pending transfer of the call gets its result. -/
def World.closeTransfer (w : World) (key : CallKey) (type : TransferType) (result : TransferResult)
    (now : Time) : World :=
  match w.getPendingTransfer key type with
  | none => w
  | some pending => w.updateTransfer pending.transferId fun t =>
      { t with transferResult := some result, completedAt := some now }

@[simp] theorem World.closeTransfer_sessions (w : World) (key : CallKey) (type : TransferType)
    (result : TransferResult) (now : Time) :
    (w.closeTransfer key type result now).sessions = w.sessions := by
  unfold World.closeTransfer
  split <;> rfl

/-- The status a call falls back to when a transfer comes to nothing. -/
def fallbackStatus (row : CallSession) : SessionStatus :=
  if row.answeredAt.isSome then .talking else .ringingAgent

def restoreCallSessionAfterTransferFallback (w : World) (key : CallKey) (now : Time) : World :=
  match w.sessions key with
  | none => w
  | some row => w.setSession key
      { row with sessionStatus := fallbackStatus row, transferFlag := false, updatedAt := now }

/-! ## Handlers -/

/-- `event.linkedid`, when the event has a tenant and a linkedid. -/
def AmiEvent.callKey? (event : AmiEvent) : Option CallKey :=
  if event.tenantId ≠ "" && truthy event.linkedid then
    some ⟨event.tenantId, event.linkedid.getD ""⟩ else none

/-- The consult and target ids a candidate keeps, or takes from the event. -/
def fillUniqueids (event : AmiEvent) (c : TransferCandidate) : TransferCandidate :=
  { c with
    consultUniqueid := c.consultUniqueid <|> event.rawField "DestUniqueid" <|>
      event.rawField "Uniqueid" <|> event.uniqueid
    targetUniqueid := c.targetUniqueid <|> event.rawField "Uniqueid" <|> event.uniqueid }

def mentionsTarget (event : AmiEvent) (c : TransferCandidate) : Bool :=
  eventMentionsExtension event c.toExtension || eventMentionsUniqueid event c.consultUniqueid ||
    eventMentionsUniqueid event c.targetUniqueid

def markConsultRinging (w : World) (event : AmiEvent) (key : CallKey) (now : Time) : World :=
  match w.getOpenCandidate key with
  | none => w
  | some c =>
    if eventMentionsExtension event c.toExtension then
      w.updateCandidatePhase c.candidateId .consultRinging now (fillUniqueids event)
    else w

/-- A failed consultation may be followed by the original leg coming back. -/
def markOriginalLeg (w : World) (event : AmiEvent) (key : CallKey) (now : Time) : World :=
  match w.getRecentFailedCandidate key now with
  | none => w
  | some c =>
    if eventMentionsExtension event c.fromExtension || eventMentionsUniqueid event c.targetUniqueid
    then w.updateCandidatePhase c.candidateId .rebridging now
    else w

def markConsultTalking (w : World) (event : AmiEvent) (key : CallKey) (now : Time) : World :=
  match w.getOpenCandidate key with
  | some c =>
    if mentionsTarget event c then
      w.updateCandidatePhase c.candidateId .consultTalking now (fillUniqueids event)
    else markOriginalLeg w event key now
  | none => markOriginalLeg w event key now

def markRebridging (w : World) (event : AmiEvent) (key : CallKey) (now : Time) : World :=
  match w.getOpenCandidate key <|> w.getRecentFailedCandidate key now with
  | none => w
  | some c =>
    if mentionsTarget event c || eventMentionsExtension event c.fromExtension then
      w.updateCandidatePhase c.candidateId .rebridging now
    else w

/-- `String(raw.DialStatus ?? '').toUpperCase()` is one of the failures. -/
def dialFailed (event : AmiEvent) : Bool :=
  ["BUSY", "NOANSWER", "CANCEL", "CHANUNAVAIL", "CONGESTION"].contains
    (String.ofList (((event.rawField "DialStatus").getD "").toList.map Char.toUpper))

/-- The open candidate that a failed dial is about. -/
def World.failedConsult? (w : World) (event : AmiEvent) (key : CallKey) :
    Option TransferCandidate :=
  if dialFailed event then
    (w.getOpenCandidate key).filter (mentionsTarget event)
  else none

def markConsultFailed (w : World) (event : AmiEvent) (key : CallKey) (now : Time) : World :=
  match w.failedConsult? event key with
  | none => w
  | some c =>
    let w := w.updateCandidate c.candidateId fun c =>
      { c with phase := .failed, expiredAt := none, completedAt := none, updatedAt := now }
    restoreCallSessionAfterTransferFallback (w.closeTransfer key .attended .failed now) key now

/-- The first non-empty of some optional strings. -/
def firstTruthy (candidates : List (Option String)) : Option String :=
  (candidates.find? truthy).join

def completeTransfer (w : World) (event : AmiEvent) (key : CallKey) (type : TransferType)
    (now : Time) : World :=
  let consultUniqueid := firstTruthy
    [event.rawField "SecondTransfererUniqueid", event.rawField "TransfereeUniqueid", event.uniqueid]
  let targetUniqueid := firstTruthy
    [event.rawField "OrigTransfererUniqueid", event.rawField "Uniqueid", event.uniqueid]
  let fromExtension := firstTruthy
    [event.rawField "OrigTransfererCallerIDNum", event.rawField "CallerIDNum"]
  let toExtension := firstTruthy [event.rawField "Extension", event.rawField "Exten"]
  let w := match w.getOpenCandidate key with
    | some c => w.updateCandidate c.candidateId fun c =>
        { c with
          phase := .completed
          completedAt := some now
          consultUniqueid := c.consultUniqueid <|> consultUniqueid
          targetUniqueid := c.targetUniqueid <|> targetUniqueid
          updatedAt := now }
    | none => w.addCandidate
        { candidateId := w.candidates.length, key := key, fromAgentId := none
          fromExtension := fromExtension, toExtension := toExtension
          consultUniqueid := consultUniqueid, targetUniqueid := targetUniqueid
          phase := .completed, requestedAt := now, completedAt := some now, expiredAt := none
          updatedAt := now }
  w.closeTransfer key type .completed now

/-- `handle`: the detector's view of one event. -/
def handle (w : World) (event : AmiEvent) (now : Time) : World :=
  match event.callKey? with
  | none => w
  | some key =>
    match event.eventName with
    | .blindTransfer => completeTransfer w event key .blind now
    | .attendedTransfer => completeTransfer w event key .attended now
    | .dialBegin => markConsultRinging w event key now
    | .bridgeEnter => markConsultTalking w event key now
    | .bridgeLeave => markRebridging w event key now
    | .dialEnd => markConsultFailed w event key now
    | _ => w

/-- `recordRequest`: an API transfer request leaves a candidate behind. -/
def recordRequest (w : World) (key : CallKey) (fromAgentId fromExtension : Option String)
    (toExtension : String) (now : Time) : World :=
  w.addCandidate
    { candidateId := w.candidates.length, key := key, fromAgentId := fromAgentId
      fromExtension := fromExtension, toExtension := some toExtension, consultUniqueid := none
      targetUniqueid := none, phase := .requested, requestedAt := now, completedAt := none
      expiredAt := none, updatedAt := now }

/-! ## Expiry -/

/-- The open candidates older than `olderThanMinutes`. -/
def World.expiredCandidates (w : World) (now : Time) (olderThanMinutes : Nat) :
    List TransferCandidate :=
  w.candidates.filter fun c =>
    c.phase.isOpen && decide (c.requestedAt < now - olderThanMinutes * 60000)

/-- What the sweep does for one expired candidate, after the phases are set. -/
def expireCandidate (now : Time) (w : World) (c : TransferCandidate) : World :=
  restoreCallSessionAfterTransferFallback (w.closeTransfer c.key .attended .expired now) c.key now

/-- `updateMany` over the ids of the expired candidates. -/
def World.expirePhases (w : World) (ids : List Nat) (now : Time) : World :=
  { w with
    candidates := w.candidates.map fun c =>
      if c.candidateId ∈ ids then { c with phase := .expired, expiredAt := some now, updatedAt := now }
      else c }

def sweepExpired (w : World) (now : Time) (olderThanMinutes : Nat := 15) : World :=
  let expired := w.expiredCandidates now olderThanMinutes
  expired.foldl (expireCandidate now) (w.expirePhases (expired.map (·.candidateId)) now)

/-! ## What the detector does to sessions -/

/-- The row after the fallback. -/
def restored (row : CallSession) (now : Time) : CallSession :=
  { row with sessionStatus := fallbackStatus row, transferFlag := false, updatedAt := now }

theorem restore_sessions (w : World) (key k : CallKey) (now : Time) :
    (restoreCallSessionAfterTransferFallback w key now).sessions k =
      if k = key then (w.sessions k).map (restored · now) else w.sessions k := by
  unfold restoreCallSessionAfterTransferFallback
  split
  · next h => split <;> simp_all
  · next row h =>
    by_cases hk : k = key
    · subst hk
      simp [h, restored]
    · rw [World.setSession_other _ _ hk, if_neg hk]

theorem fallbackStatus_ne_ended (row : CallSession) : fallbackStatus row ≠ .ended := by
  unfold fallbackStatus
  split <;> decide

/-- A second fallback of the same call finds the status the first one wrote. -/
theorem restored_restored (row : CallSession) (now : Time) :
    restored (restored row now) now = restored row now := rfl

theorem markOriginalLeg_sessions (w : World) (event : AmiEvent) (key : CallKey) (now : Time) :
    (markOriginalLeg w event key now).sessions = w.sessions := by
  unfold markOriginalLeg
  split
  · rfl
  · split <;> rfl

theorem completeTransfer_sessions (w : World) (event : AmiEvent) (key : CallKey)
    (type : TransferType) (now : Time) :
    (completeTransfer w event key type now).sessions = w.sessions := by
  unfold completeTransfer
  simp only [World.closeTransfer_sessions]
  split <;> rfl

/-- The only event through which the detector writes a session is the failed
dial of the open candidate's target. -/
theorem handle_sessions (w : World) (event : AmiEvent) (now : Time) (k : CallKey) :
    (handle w event now).sessions k =
      if event.eventName = .dialEnd ∧ event.callKey? = some k ∧ (w.failedConsult? event k).isSome
      then (w.sessions k).map (restored · now) else w.sessions k := by
  unfold handle
  cases hkey : event.callKey? with
  | none => simp
  | some key =>
    cases hname : event.eventName with
    | dialEnd =>
      simp only [markConsultFailed]
      cases hfail : w.failedConsult? event key with
      | none =>
        rw [if_neg]
        rintro ⟨_, hk, hsome⟩
        cases hk
        simp [hfail] at hsome
      | some c =>
        simp only [restore_sessions, World.closeTransfer_sessions, World.updateCandidate_sessions]
        by_cases hk : k = key
        · subst hk
          simp [hfail]
        · rw [if_neg hk, if_neg]
          rintro ⟨_, hkey', _⟩
          exact hk (Option.some.inj hkey').symm
    | blindTransfer | attendedTransfer =>
      simp [completeTransfer_sessions]
    | dialBegin =>
      simp only [markConsultRinging]
      split
      · simp
      · split <;> simp [World.updateCandidatePhase]
    | bridgeEnter =>
      simp only [markConsultTalking]
      split
      · split <;> simp [World.updateCandidatePhase, markOriginalLeg_sessions]
      · simp [markOriginalLeg_sessions]
    | bridgeLeave =>
      simp only [markRebridging]
      split
      · simp
      · split <;> simp [World.updateCandidatePhase]
    | _ => simp

theorem foldl_expireCandidate_sessions (now : Time) (expired : List TransferCandidate) (w : World)
    (k : CallKey) :
    (expired.foldl (expireCandidate now) w).sessions k =
      if expired.any (fun c => c.key = k) then (w.sessions k).map (restored · now)
      else w.sessions k := by
  induction expired generalizing w with
  | nil => simp
  | cons c rest ih =>
    rw [List.foldl_cons, ih, List.any_cons]
    simp only [expireCandidate, restore_sessions, World.closeTransfer_sessions]
    by_cases hk : k = c.key
    · subst hk
      by_cases hrest : rest.any (fun d => decide (d.key = c.key))
      · simp [hrest, Function.comp_def, restored_restored]
      · simp [hrest]
    · have hk' : ¬ c.key = k := fun h => hk h.symm
      simp [hk, hk']

/-- A sweep rewrites the session of every call that has an expired candidate,
and no other. -/
theorem sweepExpired_sessions (w : World) (now : Time) (olderThanMinutes : Nat) (k : CallKey) :
    (sweepExpired w now olderThanMinutes).sessions k =
      if (w.expiredCandidates now olderThanMinutes).any (fun c => c.key = k)
      then (w.sessions k).map (restored · now) else w.sessions k := by
  unfold sweepExpired
  exact foldl_expireCandidate_sessions now _ _ k

end KasterCti.Calls
