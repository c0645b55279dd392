import KasterCti.Library.JsText

/-!
# Which numbers may be dialled

`outbound-dial-policy.util.ts`: a number is put into a category by its digits, and
each category has a permission of its own.
-/

namespace KasterCti.Common

open JsText

inductive OutboundDialNumberCategory
  | domestic
  | representative
  | paid
  | international
  | unsupported
deriving DecidableEq

inductive PhoneDirectPolicy
  | inherit
  | allow
  | deny
deriving DecidableEq

structure OutboundDialPermissions where
  phoneDirect : PhoneDirectPolicy
  phoneDirectAllowedIps : List String
  domestic : Bool
  representative : Bool
  paid : Bool
  international : Bool
deriving DecidableEq

def defaultOutboundDialPermissions : OutboundDialPermissions :=
  ⟨.inherit, [], true, true, false, false⟩

/-- The regular expressions over digits: one of the leads, of one length, and then
from `least` to `most` more digits. -/
def leadThen (leads : List String) (least most : Nat) (digits : List Char) : Bool :=
  leads.any (fun lead => lead.toList.isPrefixOf digits &&
    least ≤ digits.length - lead.length && digits.length - lead.length ≤ most)

def isAllowedDomesticDialNumber (digits : List Char) : Bool :=
  leadThen ["02"] 7 8 digits ||
  leadThen ["031", "032", "033", "041", "042", "043", "044", "051", "052", "053", "054", "055",
    "061", "062", "063", "064"] 7 8 digits ||
  leadThen ["010", "011", "016", "017", "018", "019"] 7 8 digits ||
  leadThen ["070"] 7 8 digits ||
  leadThen ["080"] 7 8 digits

def classifyOutboundDialNumber (value : String) : OutboundDialNumberCategory :=
  let raw := trimChars value.toList
  let digits := raw.filter isDigit
  if raw = [] || digits = [] then .unsupported
  else if ['+'].isPrefixOf raw || leadThen ["00"] 3 digits.length digits then .international
  else if leadThen ["060"] 7 8 digits then .paid
  else if leadThen ["15", "16", "18"] 6 6 digits then .representative
  else if isAllowedDomesticDialNumber digits then .domestic
  else .unsupported

/-- An actor without permissions has the default ones. -/
def assertOutboundDialAllowed (value : String) (permissionsInput : Option OutboundDialPermissions) :
    Except String OutboundDialNumberCategory :=
  let permissions := permissionsInput.getD defaultOutboundDialPermissions
  let category := classifyOutboundDialNumber value
  match category with
  | .international =>
    if permissions.international then .ok category else .error "해외 발신은 차단되어 있습니다."
  | .paid => if permissions.paid then .ok category else .error "유료 번호 발신은 차단되어 있습니다."
  | .representative =>
    if permissions.representative then .ok category else .error "대표번호 발신 권한이 없습니다."
  | .domestic =>
    if permissions.domestic then .ok category else .error "국내 일반번호 발신 권한이 없습니다."
  | .unsupported => .error "허용되지 않은 발신번호 형식입니다."

def normalizeOutboundDialPermissions (permissionsInput : Option OutboundDialPermissions) :
    OutboundDialPermissions :=
  permissionsInput.getD defaultOutboundDialPermissions

/-- Whether the agent may dial out from the telephone itself. -/
def resolvePhoneDirectAllowed (policy : PhoneDirectPolicy) (siteDefaultAllowed : Bool) : Bool :=
  match policy with
  | .allow => true
  | .deny => false
  | .inherit => siteDefaultAllowed

def normalizeAllowedOutboundDialNumber (value : String)
    (permissionsInput : Option OutboundDialPermissions) : Except String String := do
  let _ ← assertOutboundDialAllowed value permissionsInput
  pure (String.ofList (value.toList.filter isDigit))

/-! ## The patterns of the dialplan -/

def representativeOutboundDialplanPatterns : List String := ["_15XXXXXX", "_16XXXXXX", "_18XXXXXX"]
def internationalOutboundDialplanPatterns : List String := ["_00."]
def paidOutboundDialplanPatterns : List String := ["_060XXXXXXX", "_060XXXXXXXX"]
def domesticOutboundDialplanPatterns : List String := ["_0X."]

def getBlockedOutboundDialplanPatterns (permissionsInput : Option OutboundDialPermissions) :
    List String :=
  let permissions := normalizeOutboundDialPermissions permissionsInput
  (if permissions.international then [] else internationalOutboundDialplanPatterns) ++
    (if permissions.paid then [] else paidOutboundDialplanPatterns) ++
    (if permissions.representative then [] else representativeOutboundDialplanPatterns) ++
    (if permissions.domestic then [] else domesticOutboundDialplanPatterns)

end KasterCti.Common
