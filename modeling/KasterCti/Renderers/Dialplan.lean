import KasterCti.Library.DialplanText
import KasterCti.Renderers.InboundRoutes

/-!
# The whole dialplan

`renderDialplan`: the routes of the DIDs in one file, the contexts they lead to in
another. `sections` is what the two files say, context by context.
-/

namespace KasterCti.Renderers

open Dialplan Lines
open ArsFlow (plainStep varRef ArsFlowRenderInput renderArsFlow flowSections)

def blockedAniPrompt : String := customSoundAbsolutePrefix ++ "blocked_ani"

def blockedAniContext : Section where
  context := "blocked-ani".toList
  blocks := [⟨"s".toList, plainStep "NoOp" ("Blocked ANI " ++ varRef "CALLERID(num)"),
    [plainStep "Playback" blockedAniPrompt, plainStep "Hangup" ""]⟩]

/-- The forwarding context of a DID, unless its calls go to the opt-out. -/
def forwardingSection (rules : List ForwardingRuleInput) (did : DidInput) : Option Section :=
  if did.optOut?.isSome then none
  else (ruleFor rules did).bind (renderForwardingRuleContext did)

def flowInput (did : DidInput) (flow : ArsFlowRouteInput) : ArsFlowRenderInput :=
  ⟨flow.graph, did.did, flow.tenantId, did.branchId⟩

/-- The loop of `renderArsFlowContexts`: the first DID of every slug. -/
def firstPerSlug (seen : List String) : List DidInput → Render (List ArsFlowRenderInput)
  | [] => pure []
  | did :: dids =>
    match did.arsFlow with
    | none => firstPerSlug seen dids
    | some flow => do
      let slug ← arsFlowContextSlug flow.graph
      if slug ∈ seen then firstPerSlug seen dids
      else pure (flowInput did flow :: (← firstPerSlug (slug :: seen) dids))

/-- `rules.filter(enabled).sort((a, b) => (a.priority ?? 100) - (b.priority ?? 100))`. -/
def activeOverflowRules (rules : List QueueOverflowRuleInput) : List QueueOverflowRuleInput :=
  (rules.filter (·.enabled)).insertionSort (fun a b => a.priority.getD 100 ≤ b.priority.getD 100)

/-- What the two files are printed from. -/
structure Contexts where
  dids : List Block
  forwarding : List Section
  queue : List Section
  ivrMenus : List Section
  smartArs : List Section
  flows : List ArsFlowRenderInput

def DialplanInput.enabledDids (input : DialplanInput) : List DidInput :=
  input.dids.filter (·.enabled)

def DialplanInput.fileExtension (input : DialplanInput) : String :=
  getRecordingFileExtension (normalizeRecordingChannelMode input.recordingChannelMode)

def queueSections (input : DialplanInput) : Render (List Section) := do
  let rules := activeOverflowRules input.queueOverflowRules
  let overflowTimeout ← renderQueueOverflowTimeoutContext rules
  let offerTimeout ← renderAgentOfferTimeoutContext input.queueOfferTimeouts
  let overflow ← renderQueueOverflowContext rules
  pure [queueEntry input.fileExtension, queueExit, overflowTimeout, offerTimeout, overflow]

def renderContexts (input : DialplanInput) : Render Contexts := do
  let dids ← input.enabledDids.mapM (fun did => renderDidExtension did input.ivrMenus
    input.forwardingRules input.blocklistEntries input.holidayRules)
  let smartArs ← input.enabledDids.mapM renderSmartArsContext
  let flows ← firstPerSlug [] input.enabledDids
  let queue ← queueSections input
  let ivrMenus ← (input.ivrMenus.filter (fun menu => !menu.entries.isEmpty)).mapM renderIvrMenu
  pure ⟨dids.reduceOption, (input.enabledDids.map (forwardingSection input.forwardingRules)).reduceOption,
    queue, ivrMenus, smartArs.flatten, flows⟩

structure DialplanOutput where
  extensionsInbound : String
  extensionsQueue : String

def Contexts.inbound (contexts : Contexts) : Section :=
  ⟨"inbound-main".toList, contexts.dids⟩

section
variable (localeCompare : String → String → Int)

/-- The contexts of both files. -/
def Contexts.sections (contexts : Contexts) : List Section :=
  contexts.inbound :: contexts.forwarding ++ [blockedAniContext] ++ contexts.queue ++
    renderOptOutContexts ++ contexts.ivrMenus ++ contexts.smartArs ++
    contexts.flows.flatMap (flowSections localeCompare) ++ [buildDynamicDispatchLines]

def renderDialplan (input : DialplanInput) : Render DialplanOutput := do
  let contexts ← renderContexts input
  let flows ← contexts.flows.mapM (renderArsFlow localeCompare)
  pure ⟨"\n\n".intercalate ("[inbound-main]" :: contexts.dids.map Block.text ++
      (contexts.forwarding ++ [blockedAniContext]).map Section.text),
    "\n\n".intercalate ((contexts.queue ++ renderOptOutContexts ++ contexts.ivrMenus ++
      contexts.smartArs).map Section.text ++ flows ++ [buildDynamicDispatchLines.text])⟩

end

/-- The dialplan that the two files stand for, in the order in which they are included. -/
def DialplanOutput.dialplan (output : DialplanOutput) : List Entry :=
  load (output.extensionsInbound ++ "\n" ++ output.extensionsQueue)

end KasterCti.Renderers
