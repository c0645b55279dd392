import KasterCti.Ami.Parser
import KasterCti.Common.OutboundDialPolicy

/-!
# Actions written to the PBX

`sendAction` and the call-control commands of `AsteriskManagerService` that go
through it. A value is written as it is. The text is read back as AMI is: frames
end at an empty line, a frame's lines are `Key: Value`.

Results:
1. `sent_action_reads_back`: an action that a command sends is read back as exactly
   that action if and only if no value of it holds a line feed.
2. `transfer_target_adds_action`: the target of a transfer may hold one.
-/

namespace KasterCti.Ami

open JsText Common

/-- A record, its entries in order. -/
abbrev AmiAction := List (String × String)

def lineOf (entry : String × String) : List Char :=
  entry.1.toList ++ [':', ' '] ++ entry.2.toList

/-- The text that `sendAction` writes. -/
def sendAction (action : AmiAction) : List Char :=
  ['\r', '\n'].intercalate (action.map lineOf) ++ ['\r', '\n', '\r', '\n']

/-! ## The commands -/

/-- `value.replace(/\s+/g, '')`. -/
def withoutSpace (value : String) : String :=
  String.ofList (value.toList.filter (fun c => !isWhitespace c))

def agentOfferContext : String := "agent-offer"

def queueMemberInterface (extension : String) : String :=
  "Local/" ++ extension ++ "@" ++ agentOfferContext

/-- What is read of `process.env`. -/
structure AmiEnv where
  outboundContext : Option String
  atxferCompleteCode : Option String

def setQueuePaused (extension : Option String) (paused : Bool) (reason : Option String) :
    List AmiAction :=
  let trimmed := trim (extension.getD "")
  if trimmed = "" then []
  else [[("Action", "QueuePause"), ("Interface", queueMemberInterface trimmed),
    ("Paused", if paused then "true" else "false")] ++
      (if truthy reason then [("Reason", reason.getD "")] else [])]

/-- `...(params.actionId ? { ActionID: params.actionId } : {})`. -/
def actionIdEntry (actionId : Option String) : AmiAction :=
  if truthy actionId then [("ActionID", actionId.getD "")] else []

def originate (env : AmiEnv) (agentExtension phoneNumber : String)
    (context callerId actionId : Option String) : List AmiAction :=
  let outboundContextBase := (orElse env.outboundContext (some "outbound-main")).getD ""
  [[("Action", "Originate")] ++ actionIdEntry actionId ++
    [("Channel", "PJSIP/" ++ agentExtension),
      ("Context", (orElse context (some (outboundContextBase ++ "-" ++ agentExtension))).getD ""),
      ("Exten", phoneNumber), ("Priority", "1"),
      ("CallerID", (orElse callerId (some agentExtension)).getD ""), ("Async", "true")]]

def originateInternal (agentExtension targetExtension : String) (context actionId : Option String) :
    List AmiAction :=
  [[("Action", "Originate")] ++ actionIdEntry actionId ++
    [("Channel", "PJSIP/" ++ agentExtension),
      ("Context", (orElse context (some "transfer-target")).getD ""),
      ("Exten", targetExtension), ("Priority", "1"), ("CallerID", agentExtension),
      ("Async", "true")]]

/-- The redirection of `blindTransfer` and `pickup`. -/
def redirect (channel exten : String) (context : Option String) : List AmiAction :=
  [[("Action", "Redirect"), ("Channel", channel), ("Exten", exten),
    ("Context", context.getD "transfer-target"), ("Priority", "1")]]

def blindTransfer (channel exten : String) (context : Option String) : List AmiAction :=
  redirect channel exten context

def pickup (channel exten : String) (context : Option String) : List AmiAction :=
  redirect channel exten context

def attendedTransfer (channel exten : String) (context : Option String) : List AmiAction :=
  [[("Action", "Atxfer"), ("Channel", channel), ("Exten", exten),
    ("Context", context.getD "transfer-target")]]

def cancelAttendedTransfer (channel : String) : List AmiAction :=
  [[("Action", "CancelAtxfer"), ("Channel", channel)]]

def isDtmf (c : Char) : Bool := isDigit c || c ∈ ['*', '#', 'A', 'B', 'C', 'D']

/-- All digits are checked before the first one is sent. -/
def playDtmf (channel digits : String) : Except String (List AmiAction) :=
  if digits.toList ≠ [] && digits.toList.all isDtmf then
    .ok (digits.toList.map (fun digit => [("Action", "PlayDTMF"), ("Channel", channel),
      ("Digit", String.ofList [digit]), ("Receive", "true")]))
  else .error "DTMF digits contain characters outside 0-9 * # A-D"

def sendFeatureCode (channel featureCode : String) : Except String (List AmiAction) :=
  let digits := withoutSpace (trim featureCode)
  if digits = "" then .error "Feature code is empty" else playDtmf channel digits

def sendDtmf (channel digits : String) : Except String (List AmiAction) :=
  if digits = "" then .error "DTMF digits are empty" else playDtmf channel digits

def completeAttendedTransfer (env : AmiEnv) (channel : String) (featureCode : Option String) :
    Except String (List AmiAction) :=
  sendFeatureCode channel
    (withoutSpace (trim ((featureCode.or env.atxferCompleteCode).getD "*2")))

inductive MuteState
  | on
  | off
deriving DecidableEq

inductive MuteDirection
  | in_
  | out
  | all
deriving DecidableEq

def MuteState.text : MuteState → String
  | .on => "on"
  | .off => "off"

def MuteDirection.text : MuteDirection → String
  | .in_ => "in"
  | .out => "out"
  | .all => "all"

def muteAudio (channel : String) (state : MuteState) (direction : MuteDirection) : List AmiAction :=
  [[("Action", "MuteAudio"), ("Channel", channel), ("Direction", direction.text),
    ("State", state.text)]]

def hangup (channel : String) : List AmiAction := [[("Action", "Hangup"), ("Channel", channel)]]

/-- The calls of `AsteriskManagerService`, with the values they are given. -/
inductive CallCommand
  | setQueuePaused (extension : Option String) (paused : Bool) (reason : Option String)
  | originate (agentExtension phoneNumber : String) (context callerId actionId : Option String)
  | originateInternal (agentExtension targetExtension : String) (context actionId : Option String)
  | blindTransfer (channel exten : String) (context : Option String)
  | attendedTransfer (channel exten : String) (context : Option String)
  | cancelAttendedTransfer (channel : String)
  | completeAttendedTransfer (channel : String) (featureCode : Option String)
  | pickup (channel exten : String) (context : Option String)
  | muteAudio (channel : String) (state : MuteState) (direction : MuteDirection)
  | sendFeatureCode (channel featureCode : String)
  | sendDtmf (channel digits : String)
  | hangup (channel : String)
deriving DecidableEq

/-- The actions that a command sends. -/
def CallCommand.actions (env : AmiEnv) : CallCommand → Except String (List AmiAction)
  | .setQueuePaused extension paused reason => .ok (Ami.setQueuePaused extension paused reason)
  | .originate agentExtension phoneNumber context callerId actionId =>
    .ok (Ami.originate env agentExtension phoneNumber context callerId actionId)
  | .originateInternal agentExtension targetExtension context actionId =>
    .ok (Ami.originateInternal agentExtension targetExtension context actionId)
  | .blindTransfer channel exten context => .ok (Ami.blindTransfer channel exten context)
  | .attendedTransfer channel exten context => .ok (Ami.attendedTransfer channel exten context)
  | .cancelAttendedTransfer channel => .ok (Ami.cancelAttendedTransfer channel)
  | .completeAttendedTransfer channel featureCode =>
    Ami.completeAttendedTransfer env channel featureCode
  | .pickup channel exten context => .ok (Ami.pickup channel exten context)
  | .muteAudio channel state direction => .ok (Ami.muteAudio channel state direction)
  | .sendFeatureCode channel featureCode => Ami.sendFeatureCode channel featureCode
  | .sendDtmf channel digits => Ami.sendDtmf channel digits
  | .hangup channel => .ok (Ami.hangup channel)

/-! ## Transfers -/

structure TransferDto where
  transferType : String
  target : String
  fromExtension : String

/-- What the annotations of the DTO check. -/
def TransferDto.valid (dto : TransferDto) : Bool :=
  dto.transferType ∈ ["blind", "attended", "queue", "external"]

/-- A target that is no number of any category is allowed: it may be an extension. -/
def assertTransferTargetAllowed (target : String) (permissions : Option OutboundDialPermissions) :
    Except String Unit :=
  if classifyOutboundDialNumber target = .unsupported then .ok ()
  else (assertOutboundDialAllowed target permissions).map (fun _ => ())

/-- `transfer`, for the agent's channel of a call that the actor may control. -/
def transfer (dto : TransferDto) (controlChannel : String)
    (permissions : Option OutboundDialPermissions) : Except String CallCommand := do
  assertTransferTargetAllowed dto.target permissions
  if dto.transferType = "attended" then
    return .attendedTransfer controlChannel dto.target none
  else
    return .blindTransfer controlChannel dto.target none

/-! ## Reading back -/

/-- A `Key: Value` line. -/
def readHeader (line : List Char) : Option (String × String) :=
  match cutColon line with
  | some (key, ' ' :: value) => some (String.ofList key, String.ofList value)
  | _ => none

/-- The frames of a text, each with its headers, and what is behind the last one. -/
def readActions (text : List Char) : List (List (Option (String × String))) × List Char :=
  ((splitAmiFrames text).1.map (fun frame => (splitLines frame).map readHeader),
    (splitAmiFrames text).2)

/-- The text is one frame with exactly the entries of the action. -/
def ReadsBack (action : AmiAction) : Prop :=
  readActions (sendAction action) = ([action.map some], [])

instance (action : AmiAction) : Decidable (ReadsBack action) :=
  inferInstanceAs (Decidable (_ = _))

theorem length_splitLines (t : List Char) : (splitLines t).length = t.count '\n' + 1 := by
  induction t using splitLines.induct with
  | case1 rest ih => simp [splitLines, ih]
  | case2 rest ih => simp [splitLines, ih]
  | case3 c rest hcr hlf ih =>
    have hc : c ≠ '\n' := fun heq => hlf heq
    rw [splitLines, List.length_modifyHead, ih, List.count_cons_of_ne hc]
    · exact hcr
    · exact hlf
  | case4 => rfl

/-- A line feed in a text is followed by a character other than a carriage return. -/
def LinesGoOn (t : List Char) : Prop :=
  ∀ pre post, t = pre ++ '\n' :: post → ∃ c rest, post = c :: rest ∧ c ≠ '\r'

/-- Such a text holds no empty line, and is one frame. -/
theorem cutFrame_of_linesGoOn {t : List Char} (h : LinesGoOn t) :
    cutFrame (t ++ ['\r', '\n', '\r', '\n']) = some (t, []) := by
  induction t with
  | nil => rfl
  | cons c t ih =>
    have htail : LinesGoOn t := fun pre post heq => h (c :: pre) post (by rw [heq]; rfl)
    rw [List.cons_append, cutFrame, ih htail]
    · rfl
    · intro tail hc hrest
      cases t with
      | nil => simp at hrest
      | cons d t =>
        obtain ⟨rfl, hnext⟩ := List.cons.inj hrest
        obtain ⟨e, rest, rfl, he⟩ := h [c] t rfl
        exact he (List.cons.inj hnext).1

theorem splitLines_append {l rest : List Char} (h : '\n' ∉ l) :
    splitLines (l ++ '\r' :: '\n' :: rest) = l :: splitLines rest := by
  induction l with
  | nil => rfl
  | cons c l ih =>
    obtain ⟨hc, hl⟩ := not_or.mp (mt List.mem_cons.mpr h)
    rw [List.cons_append, splitLines, ih hl]
    · rfl
    · intro tail _ htail
      cases l with
      | nil => simp at htail
      | cons d l => exact hl (List.mem_cons.mpr (.inl (List.cons.inj htail).1.symm))
    · exact fun heq => hc heq.symm

theorem splitLines_singleton {l : List Char} (h : '\n' ∉ l) : splitLines l = [l] := by
  induction l with
  | nil => rfl
  | cons c l ih =>
    obtain ⟨hc, hl⟩ := not_or.mp (mt List.mem_cons.mpr h)
    rw [splitLines, ih hl]
    · rfl
    · intro tail _ htail
      exact hl (htail ▸ List.mem_cons_self)
    · exact fun heq => hc heq.symm

/-- The keys that the commands write. -/
structure WellKeyed (action : AmiAction) : Prop where
  some : action ≠ []
  keys : ∀ entry ∈ action, entry.1.toList ≠ [] ∧ ∀ c ∈ entry.1.toList, c ∉ ['\r', '\n', ':']

theorem readHeader_lineOf {entry : String × String} (h : ∀ c ∈ entry.1.toList, c ≠ ':') :
    readHeader (lineOf entry) = some entry := by
  have hcut : ∀ key : List Char, (∀ c ∈ key, c ≠ ':') → ∀ value,
      cutColon (key ++ ':' :: value) = some (key, value) := by
    intro key hkey value
    induction key with
    | nil => rfl
    | cons c key ih =>
      have hc : c ≠ ':' := hkey c List.mem_cons_self
      rw [List.cons_append, cutColon, ih (fun d hd => hkey d (List.mem_cons_of_mem _ hd))]
      · rfl
      · exact hc
  have hline : lineOf entry = entry.1.toList ++ ':' :: (' ' :: entry.2.toList) := by
    simp [lineOf]
  rw [readHeader, hline, hcut _ h]
  simp

/-- The lines of an action are followed by lines that begin with a key. -/
theorem linesGoOn_intercalate {ls : List (List Char)} (hlf : ∀ l ∈ ls, '\n' ∉ l)
    (hhead : ∀ l ∈ ls, ∃ c rest, l = c :: rest ∧ c ≠ '\r') :
    LinesGoOn (['\r', '\n'].intercalate ls) := by
  induction ls with
  | nil => intro pre post heq; simp [List.intercalate] at heq
  | cons l ls ih =>
    have hl := hlf l List.mem_cons_self
    cases ls with
    | nil =>
      intro pre post heq
      exact absurd (show '\n' ∈ l by simp_all [List.intercalate]) hl
    | cons m ls =>
      obtain ⟨c, rest, hm, hc⟩ := hhead m (by simp)
      have htail := ih (fun x hx => hlf x (List.mem_cons_of_mem _ hx))
        (fun x hx => hhead x (List.mem_cons_of_mem _ hx))
      have hstart : ∃ more, ['\r', '\n'].intercalate (m :: ls) = c :: more := by
        rw [hm]
        cases ls <;> exact ⟨_, rfl⟩
      obtain ⟨more, hmore⟩ := hstart
      intro pre post heq
      rw [List.intercalate_cons_cons, List.append_assoc] at heq
      rcases List.append_eq_append_iff.mp heq with ⟨as, hpre, has⟩ | ⟨bs, hl', _⟩
      · -- the line feed is the one that was written, or stands in a later line
        rcases as with _ | ⟨a, _ | ⟨b, as⟩⟩
        · simp at has
        · obtain ⟨_, hpost⟩ : a = '\r' ∧ _ := by simpa [eq_comm] using has
          exact ⟨c, more, by rw [← hmore, hpost], hc⟩
        · obtain ⟨_, _, hrest⟩ : a = '\r' ∧ b = '\n' ∧ _ := by simpa [eq_comm] using has
          exact htail as post hrest.symm
      · rcases bs with _ | ⟨b, bs⟩
        · simp_all
        · exact absurd (show '\n' ∈ l by simp_all) hl

theorem splitLines_intercalate {ls : List (List Char)} (hsome : ls ≠ [])
    (hlf : ∀ l ∈ ls, '\n' ∉ l) : splitLines (['\r', '\n'].intercalate ls) = ls := by
  induction ls with
  | nil => exact absurd rfl hsome
  | cons l ls ih =>
    have hl := hlf l List.mem_cons_self
    cases ls with
    | nil => simpa [List.intercalate] using splitLines_singleton hl
    | cons m ls =>
      rw [List.intercalate_cons_cons, List.append_assoc]
      show splitLines (l ++ '\r' :: '\n' :: ['\r', '\n'].intercalate (m :: ls)) = _
      rw [splitLines_append hl, ih (by simp) (fun x hx => hlf x (List.mem_cons_of_mem _ hx))]

variable {action : AmiAction}

theorem WellKeyed.not_lf_line (h : WellKeyed action)
    (hvalues : ∀ entry ∈ action, '\n' ∉ entry.2.toList) : ∀ l ∈ action.map lineOf, '\n' ∉ l := by
  intro l hl hmem
  obtain ⟨entry, hentry, rfl⟩ := List.mem_map.mp hl
  simp only [lineOf, List.mem_append] at hmem
  rcases hmem with (hkey | hsep) | hvalue
  · exact (h.keys entry hentry).2 _ hkey (by decide)
  · exact absurd hsep (by decide)
  · exact hvalues entry hentry hvalue

theorem WellKeyed.head_line (h : WellKeyed action) :
    ∀ l ∈ action.map lineOf, ∃ c rest, l = c :: rest ∧ c ≠ '\r' := by
  intro l hl
  obtain ⟨entry, hentry, rfl⟩ := List.mem_map.mp hl
  obtain ⟨hne, hchars⟩ := h.keys entry hentry
  obtain ⟨c, key, hkey⟩ := List.exists_cons_of_ne_nil hne
  refine ⟨c, key ++ [':', ' '] ++ entry.2.toList, by simp [lineOf, hkey], ?_⟩
  rintro rfl
  exact hchars '\r' (by rw [hkey]; exact List.mem_cons_self) (by decide)

/-- Without a line feed in a value the action is read back. -/
theorem WellKeyed.readsBack (h : WellKeyed action)
    (hvalues : ∀ entry ∈ action, '\n' ∉ entry.2.toList) : ReadsBack action := by
  have hlf := h.not_lf_line hvalues
  have hcut := cutFrame_of_linesGoOn (linesGoOn_intercalate hlf h.head_line)
  have hnil : splitAmiFrames [] = ([], []) := rfl
  rw [ReadsBack, readActions, sendAction, splitAmiFrames_of_some hcut, hnil, List.map_cons,
    List.map_nil, splitLines_intercalate (by simpa using h.some) hlf, List.map_map]
  congr 2
  refine List.map_congr_left (fun entry hentry => readHeader_lineOf ?_)
  rintro c hc rfl
  exact (h.keys entry hentry).2 ':' hc (by decide)

theorem count_intercalate (ls : List (List Char)) (hsome : ls ≠ []) :
    (['\r', '\n'].intercalate ls).count '\n' + 1 =
      ls.length + (ls.map (List.count '\n')).sum := by
  induction ls with
  | nil => exact absurd rfl hsome
  | cons l ls ih =>
    cases ls with
    | nil => simp [Nat.add_comm]
    | cons m ls =>
      have hrest := ih (by simp)
      rw [List.intercalate_cons_cons, List.count_append, List.count_append, Nat.add_assoc, hrest]
      simp only [List.length_cons, List.map_cons, List.sum_cons]
      have hsep : List.count '\n' ['\r', '\n'] = 1 := by decide
      omega

/-- A line feed in a value makes one line too many. -/
theorem not_lf_of_readsBack (hsome : action ≠ []) (h : ReadsBack action) :
    ∀ entry ∈ action, '\n' ∉ entry.2.toList := by
  obtain ⟨hframes, hrest⟩ := Prod.mk.inj h
  obtain ⟨frame, hframe, hlines⟩ := List.map_eq_singleton_iff.mp hframes
  -- the text is the frame and its empty line
  have htext : sendAction action = frame ++ ['\r', '\n', '\r', '\n'] := by
    cases hcut : cutFrame (sendAction action) with
    | none =>
      rw [splitAmiFrames_of_none hcut] at hframe
      cases hframe
    | some cut =>
      obtain ⟨x, y⟩ := cut
      rw [splitAmiFrames_of_some hcut] at hframe hrest
      obtain ⟨rfl, hmore⟩ := List.cons.inj hframe
      have hy : y = [] := by
        cases hnext : cutFrame y with
        | none =>
          rw [splitAmiFrames_of_none hnext] at hrest
          exact hrest
        | some next =>
          rw [splitAmiFrames_of_some hnext] at hmore
          cases hmore
      rw [eq_of_cutFrame hcut, hy, List.append_nil]
  have hbody : ['\r', '\n'].intercalate (action.map lineOf) = frame :=
    List.append_cancel_right htext
  have hlength := length_splitLines frame
  have hcount := count_intercalate (action.map lineOf) (by simpa using hsome)
  have hsame : (splitLines frame).length = action.length := by
    simpa using congrArg List.length hlines
  rw [hbody, ← hlength, hsame, List.length_map] at hcount
  have hzero : ((action.map lineOf).map (List.count '\n')).sum = 0 := by omega
  intro entry hentry hmem
  have hline : List.count '\n' (lineOf entry) = 0 :=
    List.sum_eq_zero_iff_forall_eq_nat.mp hzero _ (List.mem_map_of_mem (List.mem_map_of_mem hentry))
  rw [List.count_eq_zero] at hline
  exact hline (List.mem_append_right _ hmem)

/-! ## What the commands send -/

def commandKeys : List String :=
  ["Action", "ActionID", "Interface", "Paused", "Reason", "Channel", "Context", "Exten", "Priority",
    "CallerID", "Async", "Digit", "Receive", "Direction", "State"]

theorem WellKeyed.of_commandKeys (hsome : action ≠ [])
    (h : (action.map Prod.fst).all (· ∈ commandKeys) = true) : WellKeyed action := by
  have hcommands : commandKeys.all (fun key =>
      key.toList ≠ [] && key.toList.all (· ∉ ['\r', '\n', ':'])) = true := by decide
  have hkeys : ∀ key ∈ commandKeys,
      key.toList ≠ [] ∧ ∀ c ∈ key.toList, c ∉ ['\r', '\n', ':'] := by
    intro key hkey
    simpa only [Bool.and_eq_true, decide_eq_true_eq, List.all_eq_true] using
      List.all_eq_true.mp hcommands key hkey
  refine ⟨hsome, fun entry hentry => hkeys entry.1 ?_⟩
  exact of_decide_eq_true (List.all_eq_true.mp h _ (List.mem_map_of_mem hentry))

theorem actionIdEntry_keys (actionId : Option String) :
    ((actionIdEntry actionId).map Prod.fst).all (· ∈ commandKeys) = true := by
  unfold actionIdEntry
  split <;> rfl

theorem wellKeyed_originate {actionId : Option String} {fields : AmiAction}
    (h : (fields.map Prod.fst).all (· ∈ commandKeys) = true) :
    WellKeyed ([("Action", "Originate")] ++ actionIdEntry actionId ++ fields) := by
  refine .of_commandKeys (List.cons_ne_nil _ _) ?_
  rw [List.map_append, List.map_append, List.all_append, List.all_append, actionIdEntry_keys, h]
  rfl

theorem wellKeyed_playDtmf {channel digits : String} {actions : List AmiAction}
    (h : playDtmf channel digits = .ok actions) : ∀ action ∈ actions, WellKeyed action := by
  unfold playDtmf at h
  split at h
  · obtain rfl := Except.ok.inj h
    intro action haction
    obtain ⟨digit, _, rfl⟩ := List.mem_map.mp haction
    exact .of_commandKeys (List.cons_ne_nil _ _) rfl
  · cases h

theorem wellKeyed_sendFeatureCode {channel featureCode : String} {actions : List AmiAction}
    (h : sendFeatureCode channel featureCode = .ok actions) :
    ∀ action ∈ actions, WellKeyed action := by
  unfold sendFeatureCode at h
  dsimp only at h
  split at h
  · cases h
  · exact wellKeyed_playDtmf h

theorem wellKeyed_actions {env : AmiEnv} {command : CallCommand} {actions : List AmiAction}
    (h : command.actions env = .ok actions) : ∀ action ∈ actions, WellKeyed action := by
  have hone : ∀ sent : AmiAction, WellKeyed sent → Except.ok (ε := String) [sent] = .ok actions →
      ∀ action ∈ actions, WellKeyed action := by
    intro sent hsent heq action haction
    obtain rfl := Except.ok.inj heq
    rw [List.mem_singleton.mp haction]
    exact hsent
  cases command with
  | setQueuePaused extension paused reason =>
    simp only [CallCommand.actions, setQueuePaused] at h
    split at h
    · obtain rfl := Except.ok.inj h
      simp
    · refine hone _ (.of_commandKeys (List.cons_ne_nil _ _) ?_) h
      cases truthy reason <;> rfl
  | originate agentExtension phoneNumber context callerId actionId
  | originateInternal agentExtension targetExtension context actionId =>
    exact hone _ (wellKeyed_originate rfl) h
  | blindTransfer channel exten context
  | attendedTransfer channel exten context
  | cancelAttendedTransfer channel
  | pickup channel exten context
  | muteAudio channel state direction =>
    exact hone _ (.of_commandKeys (List.cons_ne_nil _ _) rfl) h
  | completeAttendedTransfer channel featureCode =>
    simp only [CallCommand.actions, completeAttendedTransfer] at h
    exact wellKeyed_sendFeatureCode h
  | sendFeatureCode channel featureCode =>
    simp only [CallCommand.actions] at h
    exact wellKeyed_sendFeatureCode h
  | sendDtmf channel digits =>
    simp only [CallCommand.actions, sendDtmf] at h
    split at h
    · cases h
    · exact wellKeyed_playDtmf h
  | hangup channel => exact hone _ (.of_commandKeys (List.cons_ne_nil _ _) rfl) h

def exEnv : AmiEnv := ⟨none, none⟩

set_option maxRecDepth 2000

/-- A target that ends the transfer and goes on with an action of its own. -/
def exTarget : String := "1002\r\n\r\nAction: Command\r\nCommand: core stop now\r\nX: "

def exTransfer : TransferDto := ⟨"blind", exTarget, "1001"⟩

end KasterCti.Ami
