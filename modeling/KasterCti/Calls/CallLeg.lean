import KasterCti.Library.JsText

/-!
# Call legs

What an AMI channel name says about the leg it belongs to: the endpoint behind
the technology prefix, whether the leg is the agent's, the carrier's or the
queue's intermediate `Local` channel, and whether its hangup ends the call.
-/

namespace KasterCti.Calls

open JsText

def trunkEndpointPrefix : String := "trunk-"

def localChannelPrefix : String := "Local/"

/-- `PJSIP/1001-0000001b` gives `1001`; a name of another shape gives `none`. -/
def getChannelEndpointName (channelName : Option String) : Option String :=
  let channel := (trim (channelName.getD "")).toList
  match channel.dropWhile (· ≠ '/') with
  -- No slash, or nothing behind it (the empty name included).
  | [] => none
  | [_] => none
  | _ :: rest =>
    let afterSlash := rest.takeWhile (· ≠ ';')
    -- Only the last hyphen starts the channel suffix: an endpoint name may hold others.
    let endpoint := (beforeLast? '-' afterSlash).getD afterSlash
    if endpoint = [] then none else some (String.ofList endpoint)

inductive CallLegType
  | agent
  | inbound
  | local
deriving DecidableEq

def classifyLeg (channelName : Option String) : Option CallLegType :=
  match getChannelEndpointName channelName with
  | none => none
  | some endpoint =>
    if startsWith (trim (channelName.getD "")) localChannelPrefix then some .local
    else if startsWith endpoint trunkEndpointPrefix then some .inbound
    else some .agent

/-- The queue's intermediate channels come and go during a call; every other
hangup, of an unknown channel too, ends it. -/
def hangupEndsCall (channelName : Option String) : Bool :=
  classifyLeg channelName ≠ some .local

def getAgentExtensionFromChannel (channelName : Option String) : Option String :=
  match getChannelEndpointName channelName with
  | none => none
  | some endpoint =>
    if startsWith endpoint trunkEndpointPrefix then none
    else
      let extension := trim (before '@' endpoint)
      if extension = "" then none else some extension

example : getAgentExtensionFromChannel (some "Local/1001@agent-offer-00000007;1") = some "1001" := by
  decide

example : hangupEndsCall (some "Local/1001@agent-offer-00000007;1") = false := by decide

end KasterCti.Calls
