import KasterCti.Renderers.AgentDialplan
import KasterCti.Renderers.Queues
import Mathlib

/-!
# Trunks and telephones

`pjsip.renderer.ts`: the text of `pjsip.conf`. A trunk gives sections under the slug of its name,
an agent with a password gives sections under the extension. Every line below a header is a key
with its value, so a section is kept as its name and these pairs.

Results:
1. `renderPjsip_eq_ok`: what a rendered file has passed.
2. `readConf_renderPjsip`: what its text is read as.
-/

namespace KasterCti.Renderers

open ConfText Dialplan Lines
open JsText (truthy orElse trimChars digitsValue)

/-! ## Input -/

def isCodecChar (c : Char) : Bool := isSlugChar c || c = ','

/-- Codec names with commas between them, as the API takes them. -/
structure Codecs where
  text : String
  valid : text.toList.all isCodecChar = true

structure TrunkInput where
  name : String
  host : String
  port : Int
  username : String
  password : String
  fromDomain : String
  codecs : Codecs
  enabled : Bool

inductive PickupType
  | strong | normal | notUse
deriving DecidableEq

structure AgentInput where
  extension : String
  agentName : String
  extensionDisplayName : Option String
  sipPassword : Option String
  phoneDirectAllowed : Option Bool
  phoneDirectAllowedIps : Option (List String)
  context : Option String
  callerIdPrivacy : Option CallerIdPrivacy
  pickupGroup : Option String
  pickupType : Option PickupType

structure PjsipInput where
  trunks : List TrunkInput
  agents : List AgentInput
  sipRegisterPort : Option Int
  externalMediaAddress : Option String
  externalSignalingAddress : Option String
  localNets : Option (List String)
  trunkSignalingPort : Option Int

/-! ## The renderer -/

def sipWsPort : Int := 8088
def defaultSipRegisterPort : Int := 48950
def defaultSipTrunkPort : Int := 5060
def trunkTransport : String := "transport-trunk-udp"
def agentTransport : String := "transport-udp"
def asteriskAuthRealm : String := "asterisk"

/-- A section name with its keys and values. -/
abbrev Block := String × List (String × String)

def isOctet (part : List Char) : Bool :=
  1 ≤ part.length && part.length ≤ 3 && part.all JsText.isDigit && digitsValue part ≤ 255

def isDottedAddress (address : List Char) : Bool :=
  let parts := address.splitOn '.'
  parts.length = 4 && parts.all isOctet

/-- `[0-9]|[12][0-9]|3[0-2]`. -/
def isPrefixLength (bits : List Char) : Bool :=
  ((List.range 33).map fun n => n.repr.toList).contains bits

def isValidIpv4Cidr (value : String) : Bool :=
  match value.toList.splitOn '/' with
  | [address] => isDottedAddress address
  | [address, bits] => isDottedAddress address && isPrefixLength bits
  | _ => false

/-- `value && value > 0 ? value : fallback`. -/
def positiveOr (value : Option Int) (fallback : Int) : Int :=
  match value with
  | some n => if 0 < n then n else fallback
  | none => fallback

/-- `[...new Set(values.map((value) => value.trim()).filter(Boolean))]`. -/
def distinctTrimmed (values : Option (List String)) : List String :=
  (((values.getD []).map JsText.trim).filter fun value => value ≠ "").eraseDups

def transportNatEntries (input : PjsipInput) (localNets : List String) : List (String × String) :=
  (if truthy input.externalMediaAddress then
    [("external_media_address", input.externalMediaAddress.getD "")] else []) ++
  (if truthy input.externalSignalingAddress then
    [("external_signaling_address", input.externalSignalingAddress.getD "")] else []) ++
  localNets.map fun localNet => ("local_net", localNet)

def trunkHasAuth (trunk : TrunkInput) : Bool := trunk.username ≠ "" && trunk.password ≠ ""

def trunkName (trunk : TrunkInput) : String := "trunk-" ++ toSlug trunk.name

def trunkBlocks (trunk : TrunkInput) (transport : String) : List Block :=
  (if trunkHasAuth trunk then
    [(trunkName trunk ++ "-auth",
      [("type", "auth"),
        ("auth_type", "userpass"),
        ("username", trunk.username),
        ("password", trunk.password)])]
  else []) ++
  [(trunkName trunk ++ "-aor",
      [("type", "aor"),
        ("contact", "sip:" ++ trunk.host ++ ":" ++ toString trunk.port)]),
    (trunkName trunk ++ "-identify",
      [("type", "identify"),
        ("endpoint", trunkName trunk),
        ("match", trunk.host)]),
    (trunkName trunk,
      [("type", "endpoint"),
        ("transport", transport),
        ("context", "inbound-main"),
        ("disallow", "all"),
        ("allow", trunk.codecs.text),
        ("aors", trunkName trunk ++ "-aor")] ++
      (if trunkHasAuth trunk then
        [("outbound_auth", trunkName trunk ++ "-auth"), ("from_user", trunk.username)]
      else []) ++
      (if trunk.fromDomain ≠ "" then [("from_domain", trunk.fromDomain)] else []) ++
      [("direct_media", "no"),
        ("rtp_symmetric", "yes"),
        ("force_rport", "yes"),
        ("rewrite_contact", "yes"),
        ("trust_id_inbound", "yes"),
        ("send_pai", "yes"),
        ("dtmf_mode", "auto")])]

/-- The check of a field that may be empty. -/
def assertFilled (value field : String) : Render Unit :=
  if value = "" then pure () else assertNoNewlines value field

def assertOptional (value : Option String) (field : String) : Render Unit :=
  assertFilled (value.getD "") field

def renderTrunk (trunk : TrunkInput) (transport : String) : Render String := do
  if toSlug trunk.name = "" then
    throw ("Trunk name \"" ++ trunk.name ++ "\" produces an empty slug")
  assertNoNewlines trunk.host "host"
  assertFilled trunk.username "username"
  assertFilled trunk.password "password"
  assertFilled trunk.fromDomain "fromDomain"
  pure (blocksText (trunkBlocks trunk transport))

def phoneDirectAllowedIps (agent : AgentInput) : List String :=
  if agent.phoneDirectAllowed = some false then []
  else (((agent.phoneDirectAllowedIps.getD []).map JsText.trim).filter fun ip =>
    ip ≠ "" && isValidIpv4Cidr ip).eraseDups

def namedCallGroup (agent : AgentInput) : Option String :=
  match agent.pickupType with
  | none => none
  | some .notUse => none
  | some _ => some ((orElse agent.pickupGroup (some "all-agents")).getD "")

def namedPickupGroup (agent : AgentInput) : Option String :=
  if agent.pickupType = some .strong then
    some (",".intercalate ((namedCallGroup agent).toList ++ ["all-agents"]))
  else namedCallGroup agent

/-- `agent.extensionDisplayName?.trim() || agent.agentName`. -/
def shownName (agent : AgentInput) : String :=
  (orElse (agent.extensionDisplayName.map JsText.trim) (some agent.agentName)).getD ""

def agentBlocks (agent : AgentInput) : List Block :=
  [(agent.extension ++ "-auth",
      [("type", "auth"),
        ("auth_type", "userpass"),
        ("username", agent.extension),
        ("realm", asteriskAuthRealm),
        ("password", agent.sipPassword.getD "")]),
    (agent.extension,
      [("type", "aor"),
        ("max_contacts", "2"),
        ("remove_existing", "yes"),
        ("qualify_frequency", "30")]),
    (agent.extension,
      [("type", "endpoint"),
        ("context", (orElse agent.context (some ("agent-phone-" ++ agent.extension))).getD ""),
        ("disallow", "all"),
        ("allow", "alaw,ulaw"),
        ("auth", agent.extension ++ "-auth"),
        ("aors", agent.extension),
        ("callerid", shownName agent ++ " <" ++ agent.extension ++ ">"),
        ("callerid_privacy", (agent.callerIdPrivacy.getD .allowedNotScreened).text)] ++
      (if phoneDirectAllowedIps agent = [] then []
      else ("deny", "0.0.0.0/0.0.0.0") ::
        (phoneDirectAllowedIps agent).map fun ip => ("permit", ip)) ++
      ((namedCallGroup agent).toList.map fun group => ("named_call_group", group)) ++
      ((namedPickupGroup agent).toList.map fun group => ("named_pickup_group", group)) ++
      [("direct_media", "no"),
        ("rtp_symmetric", "yes"),
        ("force_rport", "yes"),
        ("rewrite_contact", "yes"),
        ("moh_suggest", "default")])]

def renderAgent (agent : AgentInput) : Render String := do
  if !truthy agent.sipPassword then pure ""
  else
    assertNoNewlines agent.extension "extension"
    assertNoNewlines agent.agentName "agentName"
    assertOptional agent.extensionDisplayName "extensionDisplayName"
    assertNoNewlines (agent.sipPassword.getD "") "sipPassword"
    assertOptional agent.context "context"
    assertOptional agent.pickupGroup "pickupGroup"
    (phoneDirectAllowedIps agent).forM fun ip => assertNoNewlines ip "phoneDirectAllowedIp"
    pure (blocksText (agentBlocks agent))

def registerPort (input : PjsipInput) : Int :=
  positiveOr input.sipRegisterPort defaultSipRegisterPort

def signalingPort (input : PjsipInput) : Int :=
  positiveOr input.trunkSignalingPort defaultSipTrunkPort

def needsTrunkTransport (input : PjsipInput) : Bool := registerPort input ≠ signalingPort input

def transportOf (input : PjsipInput) : String :=
  if needsTrunkTransport input then trunkTransport else agentTransport

def headerBlocks (input : PjsipInput) : List Block :=
  let nat := transportNatEntries input (distinctTrimmed input.localNets)
  [("global",
      [("type", "global"),
        ("user_agent", "KAster_CTI"),
        ("endpoint_identifier_order", "auth_username,username,ip,anonymous")]),
    ("transport-udp",
      [("type", "transport"),
        ("protocol", "udp"),
        ("bind", "0.0.0.0:" ++ toString (registerPort input))] ++ nat),
    ("transport-ws",
      [("type", "transport"),
        ("protocol", "ws"),
        ("bind", "0.0.0.0:" ++ toString sipWsPort)] ++ nat)] ++
  (if needsTrunkTransport input then
    [(trunkTransport,
      [("type", "transport"),
        ("protocol", "udp"),
        ("bind", "0.0.0.0:" ++ toString (signalingPort input))] ++ nat)]
  else [])

def enabledTrunks (input : PjsipInput) : List TrunkInput := input.trunks.filter TrunkInput.enabled

def passwordAgents (input : PjsipInput) : List AgentInput :=
  input.agents.filter fun agent => truthy agent.sipPassword

def renderPjsip (input : PjsipInput) : Render String := do
  assertOptional input.externalMediaAddress "externalMediaAddress"
  assertOptional input.externalSignalingAddress "externalSignalingAddress"
  (distinctTrimmed input.localNets).forM fun localNet => assertNoNewlines localNet "localNet"
  let trunks ← (enabledTrunks input).mapM fun trunk => renderTrunk trunk (transportOf input)
  let agents ← (passwordAgents input).mapM renderAgent
  pure ("\n\n".intercalate
    ([blocksText (headerBlocks input), "\n\n".intercalate trunks, "\n\n".intercalate agents].filter
      (· ≠ "")))

/-! ## What the checks let through -/

theorem assertFilled_eq_ok {value field : String} {u : Unit} :
    assertFilled value field = .ok u ↔ hasBreak value = false := by
  rw [assertFilled]
  split
  · rename_i hempty
    rw [hempty]
    exact ⟨fun _ => rfl, fun _ => rfl⟩
  · exact assertNoNewlines_eq_ok

theorem forM_eq_ok {α : Type} {f : α → Render Unit} {xs : List α} {u : Unit} :
    xs.forM f = .ok u ↔ ∀ x ∈ xs, f x = .ok () := by
  induction xs with
  | nil => exact ⟨fun _ x hx => absurd hx List.not_mem_nil, fun _ => rfl⟩
  | cons x xs ih =>
    show (f x >>= fun _ => xs.forM f) = .ok u ↔ ∀ y ∈ x :: xs, f y = .ok ()
    rw [bind_eq_ok, List.forall_mem_cons]
    exact ⟨fun ⟨_, hx, hxs⟩ => ⟨hx, ih.1 hxs⟩, fun ⟨hx, hxs⟩ => ⟨(), hx, ih.2 hxs⟩⟩

/-- What a rendered trunk has passed. -/
structure TrunkPassed (trunk : TrunkInput) : Prop where
  slug : toSlug trunk.name ≠ ""
  host : hasBreak trunk.host = false
  username : hasBreak trunk.username = false
  password : hasBreak trunk.password = false
  fromDomain : hasBreak trunk.fromDomain = false

theorem renderTrunk_eq_ok {trunk : TrunkInput} {transport text : String}
    (h : renderTrunk trunk transport = .ok text) :
    TrunkPassed trunk ∧ text = blocksText (trunkBlocks trunk transport) := by
  rw [renderTrunk] at h
  split at h
  · cases h
  · rename_i hslug
    obtain ⟨_, hhost, h⟩ := bind_eq_ok.1 h
    obtain ⟨_, husername, h⟩ := bind_eq_ok.1 h
    obtain ⟨_, hpassword, h⟩ := bind_eq_ok.1 h
    obtain ⟨_, hfromDomain, h⟩ := bind_eq_ok.1 h
    exact ⟨⟨hslug, assertNoNewlines_eq_ok.1 hhost, assertFilled_eq_ok.1 husername,
      assertFilled_eq_ok.1 hpassword, assertFilled_eq_ok.1 hfromDomain⟩, (pure_eq_ok.1 h).symm⟩

/-- What a rendered agent has passed. -/
structure AgentPassed (agent : AgentInput) : Prop where
  extension : hasBreak agent.extension = false
  agentName : hasBreak agent.agentName = false
  displayName : hasBreak (agent.extensionDisplayName.getD "") = false
  sipPassword : hasBreak (agent.sipPassword.getD "") = false
  context : hasBreak (agent.context.getD "") = false
  pickupGroup : hasBreak (agent.pickupGroup.getD "") = false
  ips : ∀ ip ∈ phoneDirectAllowedIps agent, hasBreak ip = false

theorem renderAgent_eq_ok {agent : AgentInput} {text : String}
    (hpassword : truthy agent.sipPassword = true) (h : renderAgent agent = .ok text) :
    AgentPassed agent ∧ text = blocksText (agentBlocks agent) := by
  rw [renderAgent, hpassword] at h
  obtain ⟨_, hextension, h⟩ := bind_eq_ok.1 h
  obtain ⟨_, hname, h⟩ := bind_eq_ok.1 h
  obtain ⟨_, hdisplay, h⟩ := bind_eq_ok.1 h
  obtain ⟨_, hsip, h⟩ := bind_eq_ok.1 h
  obtain ⟨_, hcontext, h⟩ := bind_eq_ok.1 h
  obtain ⟨_, hgroup, h⟩ := bind_eq_ok.1 h
  obtain ⟨_, hips, h⟩ := bind_eq_ok.1 h
  exact ⟨⟨assertNoNewlines_eq_ok.1 hextension, assertNoNewlines_eq_ok.1 hname,
    assertFilled_eq_ok.1 hdisplay, assertNoNewlines_eq_ok.1 hsip, assertFilled_eq_ok.1 hcontext,
    assertFilled_eq_ok.1 hgroup, fun ip hip => assertNoNewlines_eq_ok.1 (forM_eq_ok.1 hips ip hip)⟩,
    (pure_eq_ok.1 h).symm⟩

/-! ## The sections are read as they are rendered -/

instance (e : String × String) : Decidable (CleanEntry e) :=
  decidable_of_iff (isKey e.1.toList = true ∧ hasBreak e.1 = false ∧ hasBreak e.2 = false)
    ⟨fun h => ⟨h.1, h.2.1, h.2.2⟩, fun h => ⟨h.key, h.oneLine, h.value⟩⟩

theorem cleanEntries_cons {key value : String} {es : List (String × String)}
    (hkey : CleanEntry (key, "")) (hvalue : hasBreak value = false)
    (h : ∀ e ∈ es, CleanEntry e) : ∀ e ∈ (key, value) :: es, CleanEntry e :=
  List.forall_mem_cons.2 ⟨⟨hkey.key, hkey.oneLine, hvalue⟩, h⟩

theorem cleanEntries_append {es fs : List (String × String)} (hes : ∀ e ∈ es, CleanEntry e)
    (hfs : ∀ e ∈ fs, CleanEntry e) : ∀ e ∈ es ++ fs, CleanEntry e :=
  List.forall_mem_append.2 ⟨hes, hfs⟩

/-- Entries that are there on a condition. -/
theorem forall_mem_ite {α : Type} {p : α → Prop} {c : Prop} [Decidable c] {xs : List α}
    (h : ∀ x ∈ xs, p x) : ∀ x ∈ (if c then xs else []), p x := by
  split
  · exact h
  · exact fun x hx => absurd hx List.not_mem_nil

theorem hasBreak_int (n : Int) : hasBreak (toString n) = false :=
  hasBreak_of_chars fun _ hc => (fieldChar_of_int hc).2.2

theorem trimChars_sublist (cs : List Char) : (trimChars cs).Sublist cs := by
  rw [trimChars, ← List.reverse_sublist, List.reverse_reverse]
  exact (List.dropWhile_sublist _).trans (List.reverse_sublist.2 (List.dropWhile_sublist _))

theorem hasBreak_trim {s : String} (h : hasBreak s = false) : hasBreak (JsText.trim s) = false :=
  hasBreak_ofList_sublist (trimChars_sublist _) h

theorem hasBreak_orElse {a b : Option String} (ha : hasBreak (a.getD "") = false)
    (hb : hasBreak (b.getD "") = false) : hasBreak ((orElse a b).getD "") = false := by
  rw [orElse]
  split
  · exact ha
  · exact hb

/-! ### Trunks -/

section Trunk
variable {trunk : TrunkInput}

theorem slugChar_of_trunkName {tail : String}
    (htail : ∀ c ∈ tail.toList, isSlugChar c = true ∨ c = '-') :
    ∀ c ∈ (trunkName trunk ++ tail).toList, isSlugChar c = true ∨ c = '-' := by
  have hlead : ∀ c ∈ "trunk-".toList, isSlugChar c = true ∨ c = '-' := by decide
  intro c hc
  rw [trunkName, String.toList_append, String.toList_append] at hc
  rcases List.mem_append.1 hc with hc | hc
  · rcases List.mem_append.1 hc with hc | hc
    · exact hlead c hc
    · exact isSlugChar_or_dash_of_mem_toSlug hc
  · exact htail c hc

theorem sectionChar_of_slugChar {c : Char} (h : isSlugChar c = true ∨ c = '-') :
    c ≠ ']' ∧ c ≠ ';' ∧ isBreak c = false := by
  have hother {d : Char} (hslug : isSlugChar d = false) (hdash : d ≠ '-') : c ≠ d := by
    rintro rfl
    rcases h with hd | hd
    · rw [hslug] at hd
      cases hd
    · exact hdash hd
  exact ⟨hother (by decide) (by decide), hother (by decide) (by decide), isBreak_of_slugChar h⟩

theorem sectionChar_of_trunkName {tail : String}
    (htail : ∀ c ∈ tail.toList, isSlugChar c = true ∨ c = '-') :
    ∀ c ∈ (trunkName trunk ++ tail).toList, c ≠ ']' ∧ c ≠ ';' ∧ isBreak c = false :=
  fun c hc => sectionChar_of_slugChar (slugChar_of_trunkName htail c hc)

theorem hasBreak_trunkName {tail : String}
    (htail : ∀ c ∈ tail.toList, isSlugChar c = true ∨ c = '-') :
    hasBreak (trunkName trunk ++ tail) = false :=
  hasBreak_of_chars fun c hc => (sectionChar_of_trunkName htail c hc).2.2

theorem hasBreak_codecs (codecs : Codecs) : hasBreak codecs.text = false := by
  refine hasBreak_of_chars fun c hc => ?_
  have hvalid := List.all_eq_true.1 codecs.valid c hc
  rw [isCodecChar, Bool.or_eq_true, decide_eq_true_eq] at hvalid
  rcases hvalid with hslug | rfl
  · exact isBreak_of_slugChar (.inl hslug)
  · decide

theorem cleanBlock_of_mem_trunkBlocks (h : TrunkPassed trunk) {transport : String}
    (htransport : hasBreak transport = false) :
    ∀ block ∈ trunkBlocks trunk transport, CleanBlock block := by
  have htail : ∀ tail ∈ ["-auth", "-aor", "-identify"],
      ∀ c ∈ tail.toList, isSlugChar c = true ∨ c = '-' := by decide
  have hauth := htail "-auth" (by decide)
  have haor := htail "-aor" (by decide)
  have hname : ∀ c ∈ (trunkName trunk).toList, c ≠ ']' ∧ c ≠ ';' ∧ isBreak c = false := by
    have hempty := @sectionChar_of_trunkName trunk "" (fun c hc => absurd hc List.not_mem_nil)
    rwa [String.append_empty] at hempty
  refine List.forall_mem_append.2 ⟨forall_mem_ite ?_, ?_⟩
  · intro block hblock
    rw [List.mem_singleton.1 hblock]
    exact ⟨sectionChar_of_trunkName hauth, cleanEntries_cons (by decide) rfl <|
      cleanEntries_cons (by decide) rfl <| cleanEntries_cons (by decide) h.username <|
      cleanEntries_cons (by decide) h.password (by decide)⟩
  · refine List.forall_mem_cons.2 ⟨⟨sectionChar_of_trunkName haor, ?_⟩,
      List.forall_mem_cons.2 ⟨⟨sectionChar_of_trunkName (htail "-identify" (by decide)), ?_⟩,
      List.forall_mem_cons.2 ⟨⟨hname, ?_⟩, fun block hblock => absurd hblock List.not_mem_nil⟩⟩⟩
    · have hcontact : hasBreak ("sip:" ++ trunk.host ++ ":" ++ toString trunk.port) = false := by
        rw [hasBreak_append, hasBreak_append, hasBreak_append, h.host, hasBreak_int]
        rfl
      exact cleanEntries_cons (by decide) rfl (cleanEntries_cons (by decide) hcontact (by decide))
    · exact cleanEntries_cons (by decide) rfl <|
        cleanEntries_cons (by decide) (hasBreak_of_chars fun c hc => (hname c hc).2.2) <|
        cleanEntries_cons (by decide) h.host (by decide)
    · refine cleanEntries_append (cleanEntries_append (cleanEntries_append ?_ (forall_mem_ite ?_))
        (forall_mem_ite ?_)) (by decide)
      · exact cleanEntries_cons (by decide) rfl <| cleanEntries_cons (by decide) htransport <|
          cleanEntries_cons (by decide) rfl <| cleanEntries_cons (by decide) rfl <|
          cleanEntries_cons (by decide) (hasBreak_codecs _) <|
          cleanEntries_cons (by decide) (hasBreak_trunkName haor) (by decide)
      · exact cleanEntries_cons (by decide) (hasBreak_trunkName hauth)
          (cleanEntries_cons (by decide) h.username (by decide))
      · exact cleanEntries_cons (by decide) h.fromDomain (by decide)

end Trunk

/-! ### Agents -/

section Agent
variable {agent : AgentInput}

/-- The extension can stand between the brackets of a header. -/
def SectionName (extension : String) : Prop := ∀ c ∈ extension.toList, c ≠ ']' ∧ c ≠ ';'

theorem sectionChar_append {name tail : String} (hname : SectionName name)
    (hbreak : hasBreak name = false)
    (htail : ∀ c ∈ tail.toList, c ≠ ']' ∧ c ≠ ';' ∧ isBreak c = false) :
    ∀ c ∈ (name ++ tail).toList, c ≠ ']' ∧ c ≠ ';' ∧ isBreak c = false := by
  intro c hc
  rw [String.toList_append] at hc
  rcases List.mem_append.1 hc with hc | hc
  · exact ⟨(hname c hc).1, (hname c hc).2, hasBreak_eq_false_iff.1 hbreak c hc⟩
  · exact htail c hc

theorem AgentPassed.shownName (h : AgentPassed agent) : hasBreak (shownName agent) = false := by
  refine hasBreak_orElse ?_ h.agentName
  cases hdisplay : agent.extensionDisplayName with
  | none => rfl
  | some name =>
    have hname := h.displayName
    rw [hdisplay] at hname
    exact hasBreak_trim hname

theorem AgentPassed.contextName (h : AgentPassed agent) :
    hasBreak ((orElse agent.context (some ("agent-phone-" ++ agent.extension))).getD "") =
      false := by
  refine hasBreak_orElse h.context ?_
  rw [Option.getD_some, hasBreak_append, h.extension]
  decide

theorem AgentPassed.callGroup (h : AgentPassed agent) :
    ∀ group ∈ (namedCallGroup agent).toList, hasBreak group = false := by
  have hgiven : hasBreak ((orElse agent.pickupGroup (some "all-agents")).getD "") = false :=
    hasBreak_orElse h.pickupGroup (by decide)
  intro group hgroup
  rw [namedCallGroup] at hgroup
  split at hgroup
  · cases hgroup
  · cases hgroup
  · rw [List.mem_singleton.1 hgroup]
    exact hgiven

theorem AgentPassed.groups (h : AgentPassed agent) :
    ∀ group ∈ (namedPickupGroup agent).toList, hasBreak group = false := by
  intro group hgroup
  rw [namedPickupGroup] at hgroup
  split at hgroup
  · rw [List.mem_singleton.1 hgroup]
    refine hasBreak_intercalate (by decide) (List.forall_mem_append.2 ⟨h.callGroup, ?_⟩)
    decide
  · exact h.callGroup group hgroup

/-- The lines of one key with a value for each element. -/
theorem cleanEntries_map {key : String} {values : List String} (hkey : CleanEntry (key, ""))
    (h : ∀ value ∈ values, hasBreak value = false) :
    ∀ e ∈ values.map fun value => (key, value), CleanEntry e := by
  intro e he
  obtain ⟨value, hvalue, rfl⟩ := List.mem_map.1 he
  exact ⟨hkey.key, hkey.oneLine, h value hvalue⟩

theorem cleanBlock_of_mem_agentBlocks (h : AgentPassed agent) (hname : SectionName agent.extension) :
    ∀ block ∈ agentBlocks agent, CleanBlock block := by
  have hauth : ∀ c ∈ (agent.extension ++ "-auth").toList, c ≠ ']' ∧ c ≠ ';' ∧ isBreak c = false :=
    sectionChar_append hname h.extension (by decide)
  have hplain : ∀ c ∈ agent.extension.toList, c ≠ ']' ∧ c ≠ ';' ∧ isBreak c = false := fun c hc =>
    ⟨(hname c hc).1, (hname c hc).2, hasBreak_eq_false_iff.1 h.extension c hc⟩
  have haor : ∀ e ∈ [("type", "aor"), ("max_contacts", "2"), ("remove_existing", "yes"),
      ("qualify_frequency", "30")], CleanEntry e := by
    decide
  refine List.forall_mem_cons.2 ⟨⟨hauth, ?_⟩, List.forall_mem_cons.2 ⟨⟨hplain, haor⟩,
    List.forall_mem_cons.2 ⟨⟨hplain, ?_⟩, fun block hblock => absurd hblock List.not_mem_nil⟩⟩⟩
  · exact cleanEntries_cons (by decide) rfl <| cleanEntries_cons (by decide) rfl <|
      cleanEntries_cons (by decide) h.extension <| cleanEntries_cons (by decide) (by decide) <|
      cleanEntries_cons (by decide) h.sipPassword (by decide)
  · have hcallerid : hasBreak (Renderers.shownName agent ++ " <" ++ agent.extension ++ ">") =
        false := by
      rw [hasBreak_append, hasBreak_append, hasBreak_append, h.shownName, h.extension]
      rfl
    have hprivacy : ∀ privacy : CallerIdPrivacy, hasBreak privacy.text = false := by
      intro privacy
      cases privacy <;> decide
    refine cleanEntries_append (cleanEntries_append (cleanEntries_append (cleanEntries_append ?_ ?_)
      (cleanEntries_map (by decide) h.callGroup)) (cleanEntries_map (by decide) h.groups))
      (by decide)
    · exact cleanEntries_cons (by decide) rfl <| cleanEntries_cons (by decide) h.contextName <|
        cleanEntries_cons (by decide) rfl <| cleanEntries_cons (by decide) rfl <|
        cleanEntries_cons (by decide) (hasBreak_of_chars fun c hc => (hauth c hc).2.2) <|
        cleanEntries_cons (by decide) h.extension <| cleanEntries_cons (by decide) hcallerid <|
        cleanEntries_cons (by decide) (hprivacy _) (by decide)
    · split
      · exact fun e he => absurd he List.not_mem_nil
      · exact cleanEntries_cons (by decide) (by decide) (cleanEntries_map (by decide) h.ips)

end Agent

/-! ### The whole file -/

/-- What a rendered file has passed. -/
structure PjsipPassed (input : PjsipInput) : Prop where
  media : hasBreak (input.externalMediaAddress.getD "") = false
  signaling : hasBreak (input.externalSignalingAddress.getD "") = false
  localNets : ∀ localNet ∈ distinctTrimmed input.localNets, hasBreak localNet = false
  trunks : ∀ trunk ∈ enabledTrunks input, TrunkPassed trunk
  agents : ∀ agent ∈ passwordAgents input, AgentPassed agent

def pjsipBlocks (input : PjsipInput) : List Block :=
  headerBlocks input ++ (enabledTrunks input).flatMap (trunkBlocks · (transportOf input)) ++
    (passwordAgents input).flatMap agentBlocks

theorem hasBreak_transportOf (input : PjsipInput) : hasBreak (transportOf input) = false := by
  rw [transportOf]
  split <;> decide

theorem cleanBlock_of_mem_headerBlocks {input : PjsipInput} (h : PjsipPassed input) :
    ∀ block ∈ headerBlocks input, CleanBlock block := by
  have hnat : ∀ e ∈ transportNatEntries input (distinctTrimmed input.localNets), CleanEntry e :=
    cleanEntries_append (cleanEntries_append
      (forall_mem_ite (cleanEntries_cons (by decide) h.media (by decide)))
      (forall_mem_ite (cleanEntries_cons (by decide) h.signaling (by decide))))
      (cleanEntries_map (by decide) h.localNets)
  have hbind : ∀ port : Int, hasBreak ("0.0.0.0:" ++ toString port) = false := by
    intro port
    rw [hasBreak_append, hasBreak_int]
    decide
  have htransport {protocol : String} (hprotocol : hasBreak protocol = false) (port : Int) :
      ∀ e ∈ [("type", "transport"), ("protocol", protocol), ("bind", "0.0.0.0:" ++ toString port)] ++
        transportNatEntries input (distinctTrimmed input.localNets), CleanEntry e :=
    cleanEntries_append (cleanEntries_cons (by decide) (by decide) <|
      cleanEntries_cons (by decide) hprotocol <| cleanEntries_cons (by decide) (hbind port)
      (by decide)) hnat
  have hname : ∀ name ∈ ["transport-udp", "transport-ws", trunkTransport],
      ∀ c ∈ name.toList, c ≠ ']' ∧ c ≠ ';' ∧ isBreak c = false := by
    decide
  refine List.forall_mem_append.2 ⟨?_, forall_mem_ite ?_⟩
  · exact List.forall_mem_cons.2 ⟨⟨by decide, by decide⟩,
      List.forall_mem_cons.2 ⟨⟨hname "transport-udp" (by decide), htransport (by decide) _⟩,
      List.forall_mem_cons.2 ⟨⟨hname "transport-ws" (by decide), htransport (by decide) _⟩,
      fun block hblock => absurd hblock List.not_mem_nil⟩⟩⟩
  · intro block hblock
    rw [List.mem_singleton.1 hblock]
    exact ⟨hname trunkTransport (by decide), htransport (by decide) _⟩

theorem mapM_passed {α : Type} {f : α → Render String} {passed : α → Prop} {text : α → String}
    {xs : List α} {texts : List String} (h : xs.mapM f = .ok texts)
    (hf : ∀ x ∈ xs, ∀ s, f x = .ok s → passed x ∧ s = text x) :
    (∀ x ∈ xs, passed x) ∧ texts = xs.map text := by
  have hall := mapM_eq_ok.1 h
  clear h
  induction hall with
  | nil => exact ⟨fun x hx => absurd hx List.not_mem_nil, rfl⟩
  | cons hx _ ih =>
    obtain ⟨hhead, htail⟩ := List.forall_mem_cons.1 hf
    obtain ⟨hpassed, htext⟩ := hhead _ hx
    obtain ⟨hrest, htexts⟩ := ih htail
    exact ⟨List.forall_mem_cons.2 ⟨hpassed, hrest⟩, by rw [htext, htexts, List.map_cons]⟩

def trunksText (input : PjsipInput) : String :=
  "\n\n".intercalate ((enabledTrunks input).map fun trunk =>
    blocksText (trunkBlocks trunk (transportOf input)))

def agentsText (input : PjsipInput) : String :=
  "\n\n".intercalate ((passwordAgents input).map fun agent => blocksText (agentBlocks agent))

theorem renderPjsip_eq_ok {input : PjsipInput} {text : String} (h : renderPjsip input = .ok text) :
    PjsipPassed input ∧ text = "\n\n".intercalate
      ([blocksText (headerBlocks input), trunksText input, agentsText input].filter (· ≠ "")) := by
  rw [renderPjsip] at h
  obtain ⟨_, hmedia, h⟩ := bind_eq_ok.1 h
  obtain ⟨_, hsignaling, h⟩ := bind_eq_ok.1 h
  obtain ⟨_, hnets, h⟩ := bind_eq_ok.1 h
  obtain ⟨trunks, htrunks, h⟩ := bind_eq_ok.1 h
  obtain ⟨agents, hagents, h⟩ := bind_eq_ok.1 h
  obtain ⟨htrunk, rfl⟩ := mapM_passed htrunks fun trunk _ s hs => renderTrunk_eq_ok hs
  obtain ⟨hagent, rfl⟩ := mapM_passed hagents fun agent hagent s hs =>
    renderAgent_eq_ok (List.mem_filter.1 hagent).2 hs
  exact ⟨⟨assertFilled_eq_ok.1 hmedia, assertFilled_eq_ok.1 hsignaling,
    fun localNet hnet => assertNoNewlines_eq_ok.1 (forM_eq_ok.1 hnets localNet hnet), htrunk,
    hagent⟩, (pure_eq_ok.1 h).symm⟩

def sectionsOf (blocks : List Block) : List ConfSection :=
  blocks.map fun block => sectionOf block.1 block.2

theorem reads_joined {α : Type} {xs : List α} {blocks : α → List Block}
    (h : ∀ x ∈ xs, ∀ block ∈ blocks x, CleanBlock block) :
    Reads ("\n\n".intercalate (xs.map fun x => blocksText (blocks x)))
      (sectionsOf (xs.flatMap blocks)) := by
  have hall := @reads_intercalate (xs.map fun x => (blocksText (blocks x), sectionsOf (blocks x))) (by
    intro part hpart
    obtain ⟨x, hx, rfl⟩ := List.mem_map.1 hpart
    exact reads_blocksText (h x hx))
  rw [List.map_map, List.flatMap_map] at hall
  rw [sectionsOf, List.map_flatMap]
  exact hall

/-- A rendered file is read as its blocks, if the extensions can stand in headers. -/
theorem readConf_renderPjsip {input : PjsipInput} {text : String}
    (h : renderPjsip input = .ok text)
    (hnames : ∀ agent ∈ passwordAgents input, SectionName agent.extension) :
    readConf text = sectionsOf (pjsipBlocks input) := by
  obtain ⟨hpassed, rfl⟩ := renderPjsip_eq_ok h
  have htrunks : Reads (trunksText input)
      (sectionsOf ((enabledTrunks input).flatMap (trunkBlocks · (transportOf input)))) :=
    reads_joined fun trunk htrunk =>
      cleanBlock_of_mem_trunkBlocks (hpassed.trunks trunk htrunk) (hasBreak_transportOf input)
  have hagents : Reads (agentsText input)
      (sectionsOf ((passwordAgents input).flatMap agentBlocks)) :=
    reads_joined fun agent hagent =>
      cleanBlock_of_mem_agentBlocks (hpassed.agents agent hagent) (hnames agent hagent)
  have hheader : Reads (blocksText (headerBlocks input)) (sectionsOf (headerBlocks input)) :=
    reads_blocksText (cleanBlock_of_mem_headerBlocks hpassed)
  have hall := @reads_intercalate_filter
    [(blocksText (headerBlocks input), sectionsOf (headerBlocks input)),
      (trunksText input,
        sectionsOf ((enabledTrunks input).flatMap (trunkBlocks · (transportOf input)))),
      (agentsText input, sectionsOf ((passwordAgents input).flatMap agentBlocks))] (by
    intro part hpart
    simp only [List.mem_cons, List.not_mem_nil, or_false] at hpart
    rcases hpart with rfl | rfl | rfl
    exacts [hheader, htrunks, hagents])
  refine hall.readConf.trans ?_
  simp only [List.flatMap_cons, List.flatMap_nil, List.append_nil, pjsipBlocks, sectionsOf,
    List.map_append, List.append_assoc]

end KasterCti.Renderers
