import KasterCti.Library.PosixPath
import KasterCti.Renderers.Dialplan
import KasterCti.Renderers.Pjsip
import Mathlib

/-!
# Writing the configuration files

`asterisk-reload.service.ts` with `config-ownership.ts`: the files of a tenant are rendered and
written to the configuration directory, and rendered once more for a preview. The text of the
agents' dialplan and the guard against lost extensions are parameters: nothing here depends on
what they are.

Results:
1. `writeConfFiles_eq_true`: what is in the directory after a write.
2. `previewConfFiles_of_write`: what a preview of the same data shows.
-/

namespace KasterCti.Renderers

open Common (OutboundDialPermissions resolvePhoneDirectAllowed)
open JsText (truthy orElse)

/-! ## The other files -/

structure RtpRendererInput where
  rtpStart : Int
  rtpEnd : Int
  stunAddress : Option String

def renderRtp (input : RtpRendererInput) : String :=
  let stun := input.stunAddress.map JsText.trim
  Lines.unlines (["[general]",
    "rtpstart=" ++ toString input.rtpStart,
    "rtpend=" ++ toString input.rtpEnd,
    "icesupport=true"] ++ (if truthy stun then ["stunaddr=" ++ stun.getD ""] else [])) ++ "\n"

structure MusiconholdClassInput where
  className : String
  directory : String

def renderMusiconholdConf (classes : List MusiconholdClassInput) : String :=
  Lines.unlines (["; Auto-generated by KAster CTI - do not edit manually", ""] ++
    classes.flatMap fun item =>
      ["[" ++ item.className ++ "]",
        "mode=files",
        "directory=" ++ item.directory,
        "random=no",
        "sort=alpha",
        ""])

/-- The key of the prompt that is looped while a caller waits. -/
def promptMohKey (did : DidInput) : Option String :=
  if did.branchPromptWaitForCompletion then none
  else (did.branchPromptKeys.head?.map JsText.trim).filter (JsText.startsWith · "custom/")

/-- The loop of `buildPromptMohClasses`; `seen` are the names that are there already. -/
def promptMohClasses (baseDir : String) (seen : List String) :
    List DidInput → List MusiconholdClassInput
  | [] => []
  | did :: dids =>
    match promptMohKey did with
    | none => promptMohClasses baseDir seen dids
    | some promptKey =>
      let className := buildPromptMohClassName promptKey
      if className ∈ seen then promptMohClasses baseDir seen dids
      else ⟨className, PosixPath.join baseDir className⟩ ::
        promptMohClasses baseDir (className :: seen) dids

def buildPromptMohClasses (dids : List DidInput) (soundsDir : String) :
    List MusiconholdClassInput :=
  promptMohClasses (PosixPath.join soundsDir "__moh") [] dids

/-! ## What the files are rendered from -/

/-- The settings of the process. Numbers are there where `Number()` gives one other than zero. -/
structure ConfEnv where
  confDir : String
  soundsDir : String
  ownerId : Option String
  allowSharedWrite : Option String
  externalMediaAddress : Option String
  externalSignalingAddress : Option String
  localNets : Option String
  trunkSipPort : Option Int
  rtpStart : Option Int
  rtpEnd : Option Int
  rtpStunAddress : Option String

structure AgentRow where
  extension : String
  agentName : String
  extensionDisplayName : Option String
  sipPassword : Option String
  defaultQueueId : Option String
  numberMasked : Bool
  pickupType : PickupType
  outboundDialPermissions : OutboundDialPermissions

inductive InoutType
  | inOutbound | inboundOnly | outboundOnly
deriving DecidableEq

structure QueueMemberRow where
  extension : String
  agentName : String
  extensionDisplayName : Option String
  extensionLockMode : Option ExtensionLockMode
  agentIsActive : Bool
  inoutType : InoutType
  penalty : Int
  memberOrder : Int

structure QueueRow where
  queueName : String
  strategy : QueueStrategy
  ringTimeoutSeconds : Int
  retrySeconds : Int
  wrapupSeconds : Int
  maxWaitSeconds : Int
  autopause : Bool
  members : List QueueMemberRow

/-- What is fetched of a tenant: its rows, and the inputs of the two dialplans. -/
structure TenantData where
  trunks : List TrunkInput
  agents : List AgentRow
  queues : List QueueRow
  allowDirectSipDial : Bool
  defaultSipPassword : Option String
  sipRegisterPort : Option Int
  dialplan : DialplanInput
  agentDialplan : AgentDialplanInput

def parseCommaSeparatedList (value : Option String) : List String :=
  if truthy value then
    ((((value.getD "").toList.splitOn ',').map fun item => JsText.trim (String.ofList item)).filter
      (· ≠ "")).eraseDups
  else []

def buildPickupGroupName (defaultQueueId : Option String) : String :=
  if truthy defaultQueueId then "queue-" ++ defaultQueueId.getD "" else "all-agents"

def pjsipAgent (data : TenantData) (agent : AgentRow) : AgentInput where
  extension := agent.extension
  agentName := agent.agentName
  extensionDisplayName := agent.extensionDisplayName
  sipPassword := orElse agent.sipPassword data.defaultSipPassword
  phoneDirectAllowed := some (resolvePhoneDirectAllowed agent.outboundDialPermissions.phoneDirect
    data.allowDirectSipDial)
  phoneDirectAllowedIps := some agent.outboundDialPermissions.phoneDirectAllowedIps
  context := some ("agent-phone-" ++ agent.extension)
  callerIdPrivacy := some (if agent.numberMasked then .prohib else .allowedNotScreened)
  pickupGroup := some (buildPickupGroupName agent.defaultQueueId)
  pickupType := some agent.pickupType

/-- `renderPjsip({ trunks, agents: pjsipAgents, sipRegisterPort, ...this.getPjsipNatConfig() })`. -/
def pjsipInput (env : ConfEnv) (data : TenantData) : PjsipInput :=
  let externalMediaAddress := orElse (env.externalMediaAddress.map JsText.trim) none
  { trunks := data.trunks
    agents := data.agents.map (pjsipAgent data)
    sipRegisterPort := some (data.sipRegisterPort.getD defaultSipRegisterPort)
    externalMediaAddress
    externalSignalingAddress :=
      orElse (env.externalSignalingAddress.map JsText.trim) externalMediaAddress
    localNets := some (parseCommaSeparatedList env.localNets)
    trunkSignalingPort := env.trunkSipPort }

def renderRtpConf (env : ConfEnv) : String :=
  renderRtp ⟨env.rtpStart.getD 10000, env.rtpEnd.getD 20000,
    orElse (env.rtpStunAddress.map JsText.trim) none⟩

def isQueueMember (m : QueueMemberRow) : Bool :=
  m.agentIsActive && m.extensionLockMode ≠ some .fullLocked && m.inoutType ≠ .outboundOnly

def queueMember (m : QueueMemberRow) : QueueMemberInput where
  extension := m.extension
  agentName := (orElse m.extensionDisplayName (some m.agentName)).getD ""
  penalty := m.penalty
  memberOrder := m.memberOrder

def queueInput (q : QueueRow) : QueueInput where
  queueName := q.queueName
  strategy := q.strategy
  ringTimeoutSeconds := q.ringTimeoutSeconds
  retrySeconds := q.retrySeconds
  wrapupSeconds := q.wrapupSeconds
  maxWaitSeconds := q.maxWaitSeconds
  autopause := q.autopause
  members := (q.members.filter isQueueMember).map queueMember

/-! ## Who owns the directory -/

inductive ConfigOwnershipDecision
  | claim (ownerId : String)
  | proceed
  | refuse

def decideConfigOwnership (marker ownerId : Option String) (allowSharedWrite : Bool) :
    ConfigOwnershipDecision :=
  match orElse (ownerId.map JsText.trim) none, orElse (marker.map JsText.trim) none with
  | none, _ => .proceed
  | some owner, none => .claim owner
  | some owner, some other =>
    if other = owner then .proceed else if allowSharedWrite then .proceed else .refuse

/-- The files of the configuration directory. -/
abbrev ConfDir := String → Option String

def ConfDir.write (dir : ConfDir) (fileName content : String) : ConfDir :=
  fun name => if name = fileName then some content else dir name

def configOwnerMarkerFilename : String := ".kaster-cti-config-owner"
def promptMohIncludeFilename : String := "musiconhold_kaster_prompts.conf"

/-- Whether this node may write, and the directory with its marker. -/
def assertConfDirOwnership (env : ConfEnv) (dir : ConfDir) : Bool × ConfDir :=
  match decideConfigOwnership (dir configOwnerMarkerFilename) env.ownerId
    (JsText.trim (env.allowSharedWrite.getD "") = "true") with
  | .refuse => (false, dir)
  | .claim owner => (true, dir.write configOwnerMarkerFilename (owner ++ "\n"))
  | .proceed => (true, dir)

/-! ## Masking -/

/-- The line terminators that `^`, `$` and `.` of a multiline expression know. -/
def isLineTerminator (c : Char) : Bool :=
  c = '\n' || c = '\r' || c = Char.ofNat 0x2028 || c = Char.ofNat 0x2029

/-- `f` on every line; `line` is what has been read of the line, the last character first. -/
def mapLines (f : List Char → List Char) (line : List Char) : List Char → List Char
  | [] => f line.reverse
  | c :: cs =>
    if isLineTerminator c then f line.reverse ++ c :: mapLines f [] cs
    else mapLines f (c :: line) cs

/-- `.replace(/^(key).+$/gm, '$1***')` on one line. -/
def maskLine (key : String) (line : List Char) : List Char :=
  match JsText.afterPrefix? key.toList line with
  | some (_ :: _) => (key ++ "***").toList
  | _ => line

def maskPjsipSecrets (content : String) : String :=
  String.ofList (mapLines (maskLine "md5_cred=") [] (mapLines (maskLine "password=") []
    content.toList))

/-! ## Writing and previewing -/

/-- The texts that are written. -/
structure ConfTexts where
  pjsip : String
  rtp : String
  extensionsInbound : String
  extensionsQueue : String
  extensionsAgent : String
  queues : String
  musiconhold : String

/-- The texts that are shown. -/
structure RenderedConfFiles where
  pjsip : String
  rtp : String
  extensionsInbound : String
  extensionsQueue : String
  extensionsAgent : String
  queues : String

/-- The writes, in their order. -/
def ConfTexts.writeTo (texts : ConfTexts) (dir : ConfDir) : ConfDir :=
  [("pjsip.conf", texts.pjsip), ("rtp.conf", texts.rtp),
    ("extensions_inbound.conf", texts.extensionsInbound),
    ("extensions_queue.conf", texts.extensionsQueue),
    ("extensions_agent.conf", texts.extensionsAgent), ("queues.conf", texts.queues),
    (promptMohIncludeFilename, texts.musiconhold)].foldl (fun dir file => dir.write file.1 file.2) dir

section
variable (localeCompare : String → String → Int)
  (renderAgentDialplanText : AgentDialplanInput → Render String)
  (findConfigRenderRegression : TenantData → ConfTexts → Option String → Option String)

def confTexts (env : ConfEnv) (data : TenantData) : Render ConfTexts := do
  let pjsipContent ← renderPjsip (pjsipInput env data)
  let rtpContent := renderRtpConf env
  let dialplan ← renderDialplan localeCompare data.dialplan
  let promptMohClasses := buildPromptMohClasses data.dialplan.dids env.soundsDir
  let extensionsAgent ← renderAgentDialplanText data.agentDialplan
  let queuesContent := renderQueuesConf (data.queues.map queueInput)
  let musiconholdContent := renderMusiconholdConf promptMohClasses
  pure ⟨pjsipContent, rtpContent, dialplan.extensionsInbound, dialplan.extensionsQueue,
    extensionsAgent, queuesContent, musiconholdContent⟩

/-- The answer, and the directory afterwards; `none` is a directory that does not exist. -/
def writeConfFiles (env : ConfEnv) (data : TenantData) (disk : Option ConfDir) :
    Render Bool × Option ConfDir :=
  if !PosixPath.isAbsolute env.confDir then
    (.error ("ASTERISK_CONF_DIR must be an absolute path, got: \"" ++ env.confDir ++ "\""), disk)
  else if !PosixPath.isAbsolute env.soundsDir then
    (.error ("ASTERISK_SOUNDS_DIR must be an absolute path, got: \"" ++ env.soundsDir ++ "\""), disk)
  else
    match disk with
    | none => (.ok false, none)
    | some dir =>
      match assertConfDirOwnership env dir with
      | (false, dir) => (.ok false, some dir)
      | (true, dir) =>
        match confTexts localeCompare renderAgentDialplanText env data with
        | .error message => (.error message, some dir)
        | .ok texts =>
          match findConfigRenderRegression data texts (dir "extensions_inbound.conf") with
          | some _ => (.ok false, some dir)
          | none => (.ok true, some (texts.writeTo dir))

def previewConfFiles (env : ConfEnv) (data : TenantData) : Render RenderedConfFiles := do
  let pjsip ← renderPjsip (pjsipInput env data)
  let rtp := renderRtpConf env
  let dialplan ← renderDialplan localeCompare data.dialplan
  let promptMohClasses := buildPromptMohClasses data.dialplan.dids env.soundsDir
  let extensionsAgent ← renderAgentDialplanText data.agentDialplan
  let queues := renderQueuesConf (data.queues.map queueInput)
  let musiconhold := renderMusiconholdConf promptMohClasses
  let maskedPjsip := maskPjsipSecrets pjsip
  pure ⟨maskedPjsip, rtp, dialplan.extensionsInbound, dialplan.extensionsQueue, extensionsAgent,
    queues ++ "\n\n" ++ musiconhold⟩

/-! ## What a write leaves -/

def readCurrentConfFile (disk : Option ConfDir) (fileName : String) : Option String :=
  disk.bind (· fileName)

theorem readCurrentConfFile_queues (texts : ConfTexts) (dir : ConfDir) :
    readCurrentConfFile (some (texts.writeTo dir)) "queues.conf" = some texts.queues := rfl

theorem readCurrentConfFile_pjsip (texts : ConfTexts) (dir : ConfDir) :
    readCurrentConfFile (some (texts.writeTo dir)) "pjsip.conf" = some texts.pjsip := rfl

variable {localeCompare renderAgentDialplanText findConfigRenderRegression}
variable {env : ConfEnv} {data : TenantData} {disk written : Option ConfDir}

/-- A write that answers true has rendered every file and put its text into the directory. -/
theorem writeConfFiles_eq_true
    (h : writeConfFiles localeCompare renderAgentDialplanText findConfigRenderRegression env data
      disk = (.ok true, written)) :
    PosixPath.isAbsolute env.confDir = true ∧ ∃ dir texts,
      confTexts localeCompare renderAgentDialplanText env data = .ok texts ∧
      written = some (texts.writeTo dir) := by
  unfold writeConfFiles at h
  split at h
  · cases (Prod.mk.inj h).1
  · rename_i habsolute
    refine ⟨by simpa using habsolute, ?_⟩
    split at h
    · cases (Prod.mk.inj h).1
    · split at h
      · cases (Prod.mk.inj h).1
      · split at h
        · cases (Prod.mk.inj h).1
        · rename_i dir hdir
          split at h
          · cases (Prod.mk.inj h).1
          · rename_i texts htexts
            split at h
            · cases (Prod.mk.inj h).1
            · exact ⟨dir, texts, htexts, (Prod.mk.inj h).2.symm⟩

theorem confTexts_eq_ok {texts : ConfTexts}
    (h : confTexts localeCompare renderAgentDialplanText env data = .ok texts) :
    renderPjsip (pjsipInput env data) = .ok texts.pjsip ∧
      texts.queues = renderQueuesConf (data.queues.map queueInput) := by
  rw [confTexts] at h
  obtain ⟨pjsip, hpjsip, h⟩ := bind_eq_ok.1 h
  obtain ⟨dialplan, -, h⟩ := bind_eq_ok.1 h
  obtain ⟨agent, -, h⟩ := bind_eq_ok.1 h
  rw [← pure_eq_ok.1 h]
  exact ⟨hpjsip, rfl⟩

/-- A preview masks `pjsip.conf` and appends the music on hold to the queues. -/
def ConfTexts.preview (texts : ConfTexts) : RenderedConfFiles where
  pjsip := maskPjsipSecrets texts.pjsip
  rtp := texts.rtp
  extensionsInbound := texts.extensionsInbound
  extensionsQueue := texts.extensionsQueue
  extensionsAgent := texts.extensionsAgent
  queues := texts.queues ++ "\n\n" ++ texts.musiconhold

theorem previewConfFiles_of_write {texts : ConfTexts}
    (h : confTexts localeCompare renderAgentDialplanText env data = .ok texts) :
    previewConfFiles localeCompare renderAgentDialplanText env data = .ok texts.preview := by
  rw [confTexts] at h
  obtain ⟨pjsip, hpjsip, h⟩ := bind_eq_ok.1 h
  obtain ⟨dialplan, hdialplan, h⟩ := bind_eq_ok.1 h
  obtain ⟨agent, hagent, h⟩ := bind_eq_ok.1 h
  rw [← pure_eq_ok.1 h, previewConfFiles, hpjsip, hdialplan, hagent]
  rfl

end

/-! ## A tenant with one agent and one queue -/

def exEnv : ConfEnv where
  confDir := "/etc/asterisk"
  soundsDir := "/var/lib/asterisk/sounds/custom"
  ownerId := none
  allowSharedWrite := none
  externalMediaAddress := none
  externalSignalingAddress := none
  localNets := none
  trunkSipPort := none
  rtpStart := none
  rtpEnd := none
  rtpStunAddress := none

def exAgent : AgentRow where
  extension := "101"
  agentName := "agent"
  extensionDisplayName := none
  sipPassword := some "secret"
  defaultQueueId := none
  numberMasked := false
  pickupType := .strong
  outboundDialPermissions := Common.defaultOutboundDialPermissions

def exMember (agentName : String) : QueueMemberRow where
  extension := "101"
  agentName := agentName
  extensionDisplayName := none
  extensionLockMode := some .unlocked
  agentIsActive := true
  inoutType := .inOutbound
  penalty := 0
  memberOrder := 0

def exQueue (agentName : String) : QueueRow where
  queueName := "sales"
  strategy := .rrmemory
  ringTimeoutSeconds := 15
  retrySeconds := 5
  wrapupSeconds := 0
  maxWaitSeconds := 45
  autopause := false
  members := [exMember agentName]

def exTrunk (name host : String) : TrunkInput where
  name := name
  host := host
  port := 5060
  username := ""
  password := ""
  fromDomain := ""
  codecs := ⟨"alaw,ulaw", by decide⟩
  enabled := true

def exData (trunks : List TrunkInput) (agentName : String) : TenantData where
  trunks := trunks
  agents := [exAgent]
  queues := [exQueue agentName]
  allowDirectSipDial := false
  defaultSipPassword := none
  sipRegisterPort := none
  dialplan := ⟨[], [], none, [], [], [], [], []⟩
  agentDialplan := ⟨false, none, [], none, [], [], [⟨"101", true, .allowedNotScreened, true,
    some .unlocked, [], some Common.defaultOutboundDialPermissions⟩], [], [], []⟩

def exTenant : TenantData := exData [exTrunk "line 1" "10.0.0.1"] "agent"

/-- The agents' dialplan as its sections are printed. -/
def printedAgentDialplan (input : AgentDialplanInput) : Render String := do
  let sections ← renderAgentDialplan input
  pure ("\n\n".intercalate (sections.map Dialplan.Section.text))

def exWrite (data : TenantData) : Render Bool × Option ConfDir :=
  writeConfFiles (fun _ _ => 0) printedAgentDialplan (fun _ _ _ => none) exEnv data
    (some fun _ => none)

def exWritten : Option ConfDir := (exWrite exTenant).2

theorem writeConfFiles_exTenant :
    writeConfFiles (fun _ _ => 0) printedAgentDialplan (fun _ _ _ => none) exEnv exTenant
      (some fun _ => none) = (.ok true, exWritten) :=
  Prod.ext (show (exWrite exTenant).1 = .ok true from rfl) rfl

end KasterCti.Renderers
