import KasterCti.Library.IpText
import Mathlib

/-!
# Targets of a lookup

`safe-target.util.ts`: where an HTTP lookup may go. The URL parser and the resolver are
parameters; an address comes as text, from the host of the URL or from the resolver.

Results:
1. `missed_of_forbidden`: of the addresses that no request may go to, which spellings are
   let through.
2. `assertSafeTarget_complete_iff`: when a target that is accepted is a safe one.
3. `hexadecimal_loopback_accepted`: the host that the URL parser makes of `[::ffff:127.0.0.1]`.
-/

namespace KasterCti.ArsLookup

open IpText JsText

inductive AddressClass
  | publicAddress
  | privateAddress
  | blockedAddress
deriving DecidableEq

/-- The parts of a `URL` that are read. -/
structure TargetUrl where
  protocol : String
  username : String
  password : String
  hostname : String
deriving DecidableEq

structure SafeTarget where
  url : TargetUrl
  allPrivate : Bool
deriving DecidableEq

def isOctetText (cs : List Char) : Bool := 1 ≤ cs.length && cs.length ≤ 3 && cs.all isDigit

/-- The octets of a text that `IPV4_PATTERN` matches. -/
def ipv4Octets? (value : List Char) : Option (List Nat) :=
  match value.splitOn '.' with
  | [a, b, c, d] =>
    if [a, b, c, d].all isOctetText then some ([a, b, c, d].map digitsValue) else none
  | _ => none

def classifyIpv4 (octets : List Nat) : AddressClass :=
  if octets.any (255 < ·) then .blockedAddress
  else
    match octets with
    | a :: b :: _ =>
      if a = 0 then .blockedAddress
      else if a = 127 then .blockedAddress
      else if a = 169 ∧ b = 254 then .blockedAddress
      else if 224 ≤ a then .blockedAddress
      else if a = 10 then .privateAddress
      else if a = 172 ∧ 16 ≤ b ∧ b ≤ 31 then .privateAddress
      else if a = 192 ∧ b = 168 then .privateAddress
      else .publicAddress
    | _ => .publicAddress

def startsWithAny (value : List Char) (prefixes : List String) : Bool :=
  prefixes.any fun start => (afterPrefix? start.toList value).isSome

def classifyIpv6 (value : List Char) : AddressClass :=
  if value = "::".toList ∨ value = "::1".toList then .blockedAddress
  else if startsWithAny value ["fe8", "fe9", "fea", "feb"] then .blockedAddress
  else if startsWithAny value ["ff"] then .blockedAddress
  else if startsWithAny value ["fc", "fd"] then .privateAddress
  else if value ≠ [] ∧ value.all fun c => c ∈ lowerHexDigits ∨ c = ':' then .publicAddress
  else .blockedAddress

/-- `replace(/^\[|\]$/g, '')`. -/
def withoutBrackets (cs : List Char) : List Char :=
  let opened := if cs.head? = some '[' then cs.tail else cs
  if opened.getLast? = some ']' then opened.dropLast else opened

def normalized (address : List Char) : List Char :=
  withoutBrackets ((trimChars address).flatMap lowerChar)

/-- The dotted address behind `::ffff:`. -/
def mappedOctets? (value : List Char) : Option (List Nat) :=
  (afterPrefix? "::ffff:".toList value).bind ipv4Octets?

/-- A mapped address is classified by the one inside: the call with that text ends at
`classifyIpv4`. -/
def classifyAddress (address : List Char) : AddressClass :=
  let value := normalized address
  match mappedOctets? value with
  | some octets => classifyIpv4 octets
  | none =>
    match ipv4Octets? value with
    | some octets => classifyIpv4 octets
    | none => if ':' ∈ value then classifyIpv6 value else .blockedAddress

def isLiteralAddress (hostname : List Char) : Bool :=
  (ipv4Octets? hostname).isSome || ':' ∈ hostname

section Target

variable (parseUrl : String → Option TargetUrl) (resolve : String → Except String (List String))

/-- The host itself, or what the resolver answers. -/
def addressesOf (url : TargetUrl) : Except String (List String) :=
  if isLiteralAddress url.hostname.toList then .ok [url.hostname] else resolve url.hostname

def assertSafeTarget (rawUrl : String) : Except String SafeTarget :=
  match parseUrl rawUrl with
  | none => .error ("endpoint url is not a valid URL: " ++ rawUrl)
  | some url =>
    if url.protocol ≠ "https:" ∧ url.protocol ≠ "http:" then
      .error ("endpoint url must use http or https: " ++ url.protocol)
    else if url.username ≠ "" ∨ url.password ≠ "" then
      .error "endpoint url must not embed credentials"
    else
      match addressesOf resolve url with
      | .error message => .error message
      | .ok [] => .error ("endpoint host does not resolve: " ++ url.hostname)
      | .ok addresses =>
        match addresses.find? fun address => classifyAddress address.toList = .blockedAddress with
        | some address => .error ("endpoint host resolves to a blocked address: " ++ address)
        | none =>
          let allPrivate :=
            addresses.all fun address => classifyAddress address.toList = .privateAddress
          if url.protocol = "http:" ∧ allPrivate = false then
            .error "endpoint url must use https unless it resolves to a private address"
          else .ok ⟨url, allPrivate⟩

end Target

/-! ## What an address stands for -/

inductive IpAddress
  | v4 (a b c d : Nat)
  | v6 (groups : List Nat)

/-- The addresses that a text stands for; in a URL an IPv6 address stands in brackets. -/
inductive Denotes : List Char → IpAddress → Prop
  | ipv4 {cs : List Char} {a b c d : Nat} (h : IsDotted cs a b c d) : Denotes cs (.v4 a b c d)
  | ipv6 {cs : List Char} {groups : List Nat} (h : Ipv6 cs groups) : Denotes cs (.v6 groups)
  | bracketed {cs : List Char} {groups : List Nat} (h : Ipv6 cs groups) :
      Denotes ('[' :: (cs ++ [']'])) (.v6 groups)

/-- 0/8, 127/8, 169.254/16 and 224/3. -/
def forbiddenIpv4 (a b : Nat) : Bool := a = 0 || a = 127 || (a = 169 && b = 254) || 224 ≤ a

/-- The IPv4 address in `::ffff:a.b.c.d`, by its first two octets. -/
def embedded? : List Nat → Option (Nat × Nat)
  | [0, 0, 0, 0, 0, 65535, high, _] => some (high / 256, high % 256)
  | _ => none

def isLoopbackOrUnspecified (groups : List Nat) : Bool :=
  groups = [0, 0, 0, 0, 0, 0, 0, 0] || groups = [0, 0, 0, 0, 0, 0, 0, 1]

def embedsForbidden (groups : List Nat) : Bool :=
  (embedded? groups).any fun octets => forbiddenIpv4 octets.1 octets.2

/-- No request may go there. -/
def IpAddress.forbidden : IpAddress → Bool
  | .v4 a b _ _ => forbiddenIpv4 a b
  | .v6 groups =>
    isLoopbackOrUnspecified groups || embedsForbidden groups ||
      groups.head?.any fun first => (0xfe80 ≤ first && first ≤ 0xfebf) || 0xff00 ≤ first

def privateIpv4 (a b : Nat) : Bool :=
  a = 10 || (a = 172 && 16 ≤ b && b ≤ 31) || (a = 192 && b = 168)

/-- RFC 1918 networks and fc00::/7. -/
def IpAddress.isPrivate : IpAddress → Bool
  | .v4 a b _ _ => privateIpv4 a b
  | .v6 groups =>
    (embedded? groups).any (fun octets => privateIpv4 octets.1 octets.2) ||
      groups.head?.any fun first => 0xfc00 ≤ first && first ≤ 0xfdff

/-- An IPv6 address, plain or as the host of a URL. -/
def IsLiteral6 (text cs : List Char) : Prop := text = cs ∨ text = '[' :: (cs ++ [']'])

/-- A spelling in hexadecimal digits and colons only of an address that no request may go to:
of `::ffff:a.b.c.d`, of the loopback other than `::1`, of the unspecified one other than `::`. -/
def MissedSpelling (text : List Char) : Prop :=
  ∃ cs groups, IsLiteral6 text cs ∧ Ipv6 cs groups ∧ '.' ∉ cs ∧ lower cs ≠ "::".toList ∧
    lower cs ≠ "::1".toList ∧ (isLoopbackOrUnspecified groups = true ∨ embedsForbidden groups = true)

/-- An address whose first group begins with `fc` or `fd` and has fewer than four digits. -/
def ShortUniqueLocal (text : List Char) : Prop :=
  ∃ cs groups, IsLiteral6 text cs ∧ Ipv6 cs groups ∧ startsWithAny (lower cs) ["fc", "fd"] = true ∧
    ':' ∈ cs.take 4

/-! ## Normalised text -/

section Normalised

variable {cs : List Char} {groups : List Nat} {a b c d : Nat}

theorem textChar_facts {x : Char} (h : IsTextChar x) :
    isWhitespace x = false ∧ lowerChar x = [x.toLower] ∧ x.toLower ≠ '[' ∧ x.toLower ≠ ']' := by
  have hall : ∀ x ∈ hexDigits ++ [':', '.'], isWhitespace x = false ∧
      lowerChar x = [x.toLower] ∧ x.toLower ≠ '[' ∧ x.toLower ≠ ']' := by decide
  refine hall x ?_
  rcases h with h | rfl | rfl
  · exact List.mem_append_left _ h
  · decide
  · decide

theorem flatMap_lowerChar (h : ∀ x ∈ cs, IsTextChar x) : cs.flatMap lowerChar = lower cs := by
  induction cs with
  | nil => rfl
  | cons x cs ih =>
    obtain ⟨hx, hcs⟩ := List.forall_mem_cons.mp h
    rw [List.flatMap_cons, ih hcs, (textChar_facts hx).2.1]
    rfl

theorem withoutBrackets_lower (h : ∀ x ∈ cs, IsTextChar x) :
    withoutBrackets (lower cs) = lower cs := by
  have hopen : (lower cs).head? ≠ some '[' := by
    intro hhead
    obtain ⟨x, hx, hlower⟩ := List.mem_map.mp (List.mem_of_head? hhead)
    exact (textChar_facts (h x hx)).2.2.1 hlower
  have hclose : (lower cs).getLast? ≠ some ']' := by
    intro hlast
    obtain ⟨x, hx, hlower⟩ := List.mem_map.mp (List.mem_of_getLast? hlast)
    exact (textChar_facts (h x hx)).2.2.2 hlower
  unfold withoutBrackets
  rw [if_neg hopen]
  exact if_neg hclose

theorem normalized_of_text (h : ∀ x ∈ cs, IsTextChar x) : normalized cs = lower cs := by
  unfold normalized
  rw [trimChars_eq_self fun x hx => (textChar_facts (h x hx)).1, flatMap_lowerChar h,
    withoutBrackets_lower h]

theorem normalized_of_bracketed (h : ∀ x ∈ cs, IsTextChar x) :
    normalized ('[' :: (cs ++ [']'])) = lower cs := by
  have hblank : ∀ x ∈ '[' :: (cs ++ [']']), isWhitespace x = false := by
    intro x hx
    simp only [List.mem_cons, List.mem_append, List.not_mem_nil, or_false] at hx
    rcases hx with rfl | hx | rfl
    · decide
    · exact (textChar_facts (h x hx)).1
    · decide
  have hlower : ('[' :: (cs ++ [']'])).flatMap lowerChar = '[' :: (lower cs ++ [']']) := by
    rw [List.flatMap_cons, List.flatMap_append, flatMap_lowerChar h]
    rfl
  unfold normalized
  rw [trimChars_eq_self hblank, hlower]
  unfold withoutBrackets
  simp

variable {text : List Char}

theorem IsLiteral6.normalized_eq (h : IsLiteral6 text cs) (hchars : ∀ x ∈ cs, IsTextChar x) :
    normalized text = lower cs := by
  rcases h with rfl | rfl
  · exact normalized_of_text hchars
  · exact normalized_of_bracketed hchars

/-! ## Dotted addresses -/

theorem isOctetText_of_isOctet {n : Nat} (h : IsOctet cs n) : isOctetText cs = true := by
  unfold isOctetText
  rw [Bool.and_eq_true, Bool.and_eq_true]
  exact ⟨⟨decide_eq_true h.length_pos, decide_eq_true h.length_le⟩, List.all_eq_true.mpr h.digits⟩

theorem ipv4Octets?_of_isDotted (h : IsDotted cs a b c d) : ipv4Octets? cs = some [a, b, c, d] := by
  obtain @⟨as, bs, cs, ds, a, b, c, d, ha, hb, hc, hd⟩ := h
  have hsplit : (as ++ '.' :: (bs ++ '.' :: (cs ++ '.' :: ds))).splitOn '.' = [as, bs, cs, ds] := by
    have hjoin : as ++ '.' :: (bs ++ '.' :: (cs ++ '.' :: ds)) =
        List.intercalate ['.'] [as, bs, cs, ds] := by
      simp [List.intercalate]
    rw [hjoin]
    refine List.splitOn_intercalate '.' ?_ (List.cons_ne_nil _ _)
    intro part hpart
    simp only [List.mem_cons, List.not_mem_nil, or_false] at hpart
    rcases hpart with rfl | rfl | rfl | rfl
    · exact ha.not_mem.2
    · exact hb.not_mem.2
    · exact hc.not_mem.2
    · exact hd.not_mem.2
  unfold ipv4Octets?
  rw [hsplit]
  simp [isOctetText_of_isOctet ha, isOctetText_of_isOctet hb, isOctetText_of_isOctet hc,
    isOctetText_of_isOctet hd, ha.value, hb.value, hc.value, hd.value]

/-- What the pattern matches has dots and no colon. -/
theorem chars_of_ipv4Octets? {octets : List Nat} (h : ipv4Octets? cs = some octets) :
    '.' ∈ cs ∧ ':' ∉ cs := by
  unfold ipv4Octets? at h
  split at h
  · next as bs cs' ds hsplit =>
    have hjoin : as ++ '.' :: (bs ++ '.' :: (cs' ++ '.' :: ds)) = cs := by
      have hback : List.intercalate ['.'] (cs.splitOn '.') = cs := List.intercalate_splitOn '.'
      rw [hsplit] at hback
      simpa [List.intercalate] using hback
    split at h
    · next hoctets =>
      have hdigits : ∀ part ∈ [as, bs, cs', ds], ':' ∉ part := by
        intro part hpart hcolon
        have hpart := List.all_eq_true.mp hoctets part hpart
        unfold isOctetText at hpart
        rw [Bool.and_eq_true] at hpart
        exact absurd (List.all_eq_true.mp hpart.2 ':' hcolon) (by decide)
      simp only [List.forall_mem_cons] at hdigits
      rw [← hjoin]
      simp [hdigits]
    · cases h
  · cases h

/-- A dotted address is classified by its octets. -/
theorem classifyAddress_of_isDotted (h : IsDotted cs a b c d) :
    classifyAddress cs = classifyIpv4 [a, b, c, d] := by
  have hchars : ∀ x ∈ cs, IsTextChar x := by
    intro x hx
    rcases h.chars x hx with hdigit | hdot
    · exact .inl (mem_hexDigits_of_isDigit hdigit)
    · exact .inr (.inr hdot)
  have hmapped : mappedOctets? cs = none := by
    unfold mappedOctets?
    cases hafter : afterPrefix? "::ffff:".toList cs with
    | none => rfl
    | some rest =>
      have hsplit := afterPrefix?_eq_some.mp hafter
      exact absurd (hsplit ▸ List.mem_cons_self) h.colon_not_mem
  unfold classifyAddress
  rw [normalized_of_text hchars, h.lower_eq]
  dsimp only
  rw [hmapped, ipv4Octets?_of_isDotted h]

/-- The text of an IPv6 address is one with a dotted address behind `::ffff:`, or it is
classified by `classifyIpv6`. -/
theorem classifyAddress_of_ipv6 (htext : IsLiteral6 text cs) (h : Ipv6 cs groups) :
    (∃ a b c d, b ≤ 255 ∧ groups = [0, 0, 0, 0, 0, 65535, 256 * a + b, 256 * c + d] ∧
      classifyAddress text = classifyIpv4 [a, b, c, d]) ∨
    classifyAddress text = classifyIpv6 (lower cs) := by
  unfold classifyAddress
  rw [htext.normalized_eq h.chars]
  dsimp only
  cases hmapped : mappedOctets? (lower cs) with
  | some octets =>
    obtain ⟨inner, hafter, hoctets⟩ := Option.bind_eq_some_iff.mp hmapped
    have hsplit := afterPrefix?_eq_some.mp hafter
    obtain ⟨hdot, hcolon⟩ := chars_of_ipv4Octets? hoctets
    obtain ⟨a, b, c, d, hdotted, hgroups⟩ := (hsplit ▸ h.lower).mapped hdot hcolon
    obtain rfl := Option.some.inj (hoctets.symm.trans (ipv4Octets?_of_isDotted hdotted))
    obtain ⟨-, hb, -, -⟩ := hdotted
    exact .inl ⟨_, _, _, _, hb.le, hgroups, rfl⟩
  | none =>
    refine .inr ?_
    have hcolon : ':' ∈ lower cs := List.mem_map.mpr ⟨':', h.colon_mem, rfl⟩
    cases hoctets : ipv4Octets? (lower cs) with
    | some octets => exact absurd hcolon (chars_of_ipv4Octets? hoctets).2
    | none => exact if_pos hcolon

/-! ## What is let through -/

theorem classifyIpv4_of_forbidden (h : forbiddenIpv4 a b = true) :
    classifyIpv4 [a, b, c, d] = .blockedAddress := by
  unfold forbiddenIpv4 at h
  unfold classifyIpv4
  simp only [Bool.or_eq_true, Bool.and_eq_true, decide_eq_true_eq] at h
  split
  · rfl
  · dsimp only
    rcases h with ((h | h) | h) | h
    · rw [if_pos h]
    · simp [h]
    · simp [h]
    · simp [h]

theorem classifyIpv4_eq_private (h : classifyIpv4 [a, b, c, d] = .privateAddress) :
    privateIpv4 a b = true := by
  unfold classifyIpv4 at h
  unfold privateIpv4
  grind

theorem embedded?_mapped {low : Nat} (hb : b ≤ 255) :
    embedded? [0, 0, 0, 0, 0, 65535, 256 * a + b, low] = some (a, b) := by
  have hhigh : (256 * a + b) / 256 = a := by omega
  have hlow : (256 * a + b) % 256 = b := by omega
  show some ((256 * a + b) / 256, (256 * a + b) % 256) = some (a, b)
  rw [hhigh, hlow]

theorem startsWithAny_iff {value : List Char} {prefixes : List String} :
    startsWithAny value prefixes = true ↔
      ∃ start ∈ prefixes, ∃ rest, value = start.toList ++ rest := by
  unfold startsWithAny
  simp only [List.any_eq_true, Option.isSome_iff_exists, afterPrefix?_eq_some]

/-- An address whose text begins with `fc` or `fd`: it does not begin with a zero group, and
where the first group has four digits it is in fc00::/7. -/
theorem Ipv6.uniqueLocal (h : Ipv6 cs groups)
    (hstart : startsWithAny (lower cs) ["fc", "fd"] = true) :
    ∃ group rest n, IsGroup group n ∧ cs = group ++ ':' :: rest ∧ groups.head? = some n ∧ 0 < n ∧
      (4 ≤ group.length → 0xfc00 ≤ n ∧ n ≤ 0xfdff) := by
  have htext : ∃ x tail, (x = 'c' ∨ x = 'd') ∧ lower cs = 'f' :: x :: tail := by
    obtain ⟨start, hmem, rest, hsplit⟩ := startsWithAny_iff.mp hstart
    simp only [List.mem_cons, List.not_mem_nil, or_false] at hmem
    rcases hmem with rfl | rfl
    · exact ⟨'c', rest, .inl rfl, hsplit⟩
    · exact ⟨'d', rest, .inr rfl, hsplit⟩
  obtain ⟨x, tail, hx, hlower⟩ := htext
  rcases h.begins with ⟨right, rfl, -⟩ | ⟨group, rest, n, hgroup, rfl, hhead⟩
  · exact absurd (List.cons.inj hlower).1 (by decide)
  · refine ⟨group, rest, n, hgroup, rfl, hhead, ?_, fun hfour => ?_⟩
    · cases group with
      | nil => exact absurd hgroup.length_pos (by decide)
      | cons w group =>
        have hfirst : lower (w :: group) = 'f' :: lower group := by
          rw [lower, List.map_cons, (List.cons.inj hlower).1]
          rfl
        exact hgroup.pos hfirst
    · cases group with
      | nil => exact absurd hgroup.length_pos (by decide)
      | cons w group =>
        cases group with
        | nil => exact absurd hfour (by simp)
        | cons y group =>
          have hfirst : lower (w :: y :: group) = 'f' :: x :: lower group := by
            obtain ⟨hw, hrest⟩ := List.cons.inj hlower
            rw [lower, List.map_cons, List.map_cons, hw, (List.cons.inj hrest).1]
            rfl
          exact bounds_of_uniqueLocal hgroup hfour hfirst hx

theorem colon_mem_take {group rest : List Char} {n : Nat} (hgroup : IsGroup group n) :
    ':' ∈ (group ++ ':' :: rest).take 4 ↔ group.length < 4 := by
  rw [List.take_append]
  constructor
  · intro hmem
    rcases List.mem_append.mp hmem with hmem | hmem
    · exact absurd (List.mem_of_mem_take hmem) hgroup.not_mem.1
    · by_contra hlong
      rw [Nat.sub_eq_zero_of_le (Nat.le_of_not_lt hlong)] at hmem
      cases hmem
  · intro hshort
    refine List.mem_append_right _ ?_
    obtain ⟨k, hk⟩ := Nat.exists_eq_succ_of_ne_zero (Nat.sub_ne_zero_of_lt hshort)
    rw [hk]
    exact List.mem_cons_self

/-- What `classifyIpv6` does not block has no dot or begins with `fc` or `fd`, and is neither
`::` nor `::1`. -/
theorem of_classifyIpv6_ne {value : List Char} (h : classifyIpv6 value ≠ .blockedAddress) :
    value ≠ "::".toList ∧ value ≠ "::1".toList ∧
      startsWithAny value ["fe8", "fe9", "fea", "feb"] = false ∧ startsWithAny value ["ff"] = false ∧
        (startsWithAny value ["fc", "fd"] = true ∨ '.' ∉ value) := by
  unfold classifyIpv6 at h
  split at h
  · exact absurd rfl h
  · next hshort =>
    rw [not_or] at hshort
    split at h
    · exact absurd rfl h
    · next hlink =>
      split at h
      · exact absurd rfl h
      · next hmulticast =>
        refine ⟨hshort.1, hshort.2, by simpa using hlink, by simpa using hmulticast, ?_⟩
        split at h
        · next hlocal => exact .inl hlocal
        · split at h
          · next hhex =>
            refine .inr fun hdot => ?_
            exact absurd (List.all_eq_true.mp hhex.2 '.' hdot) (by decide)
          · exact absurd rfl h

/-- The first group of an address that no request may go to, by the first digits. -/
theorem blocked_of_head {group rest : List Char} {n : Nat} (hgroup : IsGroup group n)
    (hn : (0xfe80 ≤ n ∧ n ≤ 0xfebf) ∨ 0xff00 ≤ n) :
    classifyIpv6 (lower (group ++ ':' :: rest)) = .blockedAddress := by
  have hlower : lower (group ++ ':' :: rest) = lower group ++ lower (':' :: rest) := List.map_append
  by_contra h
  obtain ⟨-, -, hlink, hmulticast, -⟩ := of_classifyIpv6_ne h
  rw [hlower] at hlink hmulticast
  rcases hn with ⟨hlow, hhigh⟩ | hlow
  · obtain ⟨y, z, htake, hy⟩ := take_of_linkLocal hgroup hlow hhigh
    rw [htake] at hlink
    simp only [List.mem_cons, List.not_mem_nil, or_false] at hy
    rcases hy with rfl | rfl | rfl | rfl
    · cases hlink
    · cases hlink
    · cases hlink
    · cases hlink
  · obtain ⟨y, z, htake⟩ := take_of_multicast hgroup hlow
    rw [htake] at hmulticast
    cases hmulticast

theorem head?_of_low (h : isLoopbackOrUnspecified groups = true ∨ embedsForbidden groups = true) :
    groups.head? = some 0 := by
  rcases h with h | h
  · unfold isLoopbackOrUnspecified at h
    rcases (Bool.or_eq_true _ _).mp h with h | h
    · rw [of_decide_eq_true h]
      rfl
    · rw [of_decide_eq_true h]
      rfl
  · unfold embedsForbidden embedded? at h
    split at h
    · rfl
    · cases h

/-- Of the addresses that no request may go to, those are let through whose spelling is
missed. -/
theorem missed_of_forbidden (htext : IsLiteral6 text cs) (h : Ipv6 cs groups)
    (hforbidden : (IpAddress.v6 groups).forbidden = true)
    (hclass : classifyAddress text ≠ .blockedAddress) : MissedSpelling text := by
  rcases classifyAddress_of_ipv6 htext h with ⟨a, b, c, d, hb, rfl, hipv4⟩ | hipv6
  · have hinner : forbiddenIpv4 a b = true := by
      unfold IpAddress.forbidden embedsForbidden at hforbidden
      dsimp only at hforbidden
      rw [embedded?_mapped hb] at hforbidden
      simpa [isLoopbackOrUnspecified] using hforbidden
    rw [hipv4, classifyIpv4_of_forbidden hinner] at hclass
    exact absurd rfl hclass
  · rw [hipv6] at hclass
    obtain ⟨hunspecified, hloopback, -, -, hlocal⟩ := of_classifyIpv6_ne hclass
    unfold IpAddress.forbidden at hforbidden
    simp only [Bool.or_eq_true] at hforbidden
    have hlow : isLoopbackOrUnspecified groups = true ∨ embedsForbidden groups = true := by
      rcases hforbidden with hlow | hhead
      · exact hlow
      · obtain ⟨n, hn, hrange⟩ := (Option.any_eq_true _ _).mp hhead
        simp only [Bool.or_eq_true, Bool.and_eq_true, decide_eq_true_eq] at hrange
        rcases h.begins with ⟨right, rfl, hzero⟩ | ⟨group, rest, m, hgroup, rfl, hm⟩
        · obtain rfl := Option.some.inj (hzero.symm.trans hn)
          omega
        · obtain rfl := Option.some.inj (hm.symm.trans hn)
          exact absurd (blocked_of_head hgroup hrange) hclass
    have hzero : groups.head? = some 0 := head?_of_low hlow
    refine ⟨cs, groups, htext, h, ?_, hunspecified, hloopback, hlow⟩
    rcases hlocal with hstart | hdot
    · obtain ⟨group, rest, n, -, -, hn, hpos, -⟩ := Ipv6.uniqueLocal h hstart
      obtain rfl := Option.some.inj (hn.symm.trans hzero)
      exact absurd hpos (Nat.lt_irrefl 0)
    · exact fun hin => hdot ((dot_mem_lower h.chars).mpr hin)

theorem forbidden_of_missed (h : MissedSpelling text) :
    ∃ address, Denotes text address ∧ address.forbidden = true := by
  obtain ⟨cs, groups, htext, hipv6, -, -, -, hlow⟩ := h
  refine ⟨.v6 groups, ?_, ?_⟩
  · rcases htext with rfl | rfl
    · exact .ipv6 hipv6
    · exact .bracketed hipv6
  · unfold IpAddress.forbidden
    simp only [Bool.or_eq_true]
    exact .inl hlow

/-- A short first group that begins with `fc` or `fd` is none of a private address. -/
theorem not_private_of_short (h : ShortUniqueLocal text) :
    ∃ address, Denotes text address ∧ address.isPrivate = false := by
  obtain ⟨cs, groups, htext, hipv6, hstart, hshort⟩ := h
  refine ⟨.v6 groups, ?_, ?_⟩
  · rcases htext with rfl | rfl
    · exact .ipv6 hipv6
    · exact .bracketed hipv6
  · obtain ⟨group, rest, n, hgroup, rfl, hhead, hpos, -⟩ := Ipv6.uniqueLocal hipv6 hstart
    have hlength := (colon_mem_take hgroup).mp hshort
    have hsmall : n < 4096 := by
      rcases hgroup.digits_cases with ⟨-, hsmall⟩ | ⟨w, x, y, z, rfl, -⟩
      · exact hsmall
      · exact absurd hlength (by simp)
    have hembedded : embedded? groups = none := by
      unfold embedded?
      split
      · exact absurd (Option.some.inj hhead) (Nat.ne_of_lt hpos)
      · rfl
    unfold IpAddress.isPrivate
    dsimp only
    rw [hembedded, hhead]
    simp only [Option.any_none, Option.any_some, Bool.false_or, Bool.and_eq_false_iff,
      decide_eq_false_iff_not]
    omega

/-- What is classified as private is, or its first group is short. -/
theorem isPrivate_of_class (htext : IsLiteral6 text cs) (h : Ipv6 cs groups)
    (hclass : classifyAddress text = .privateAddress) :
    (IpAddress.v6 groups).isPrivate = true ∨ ShortUniqueLocal text := by
  rcases classifyAddress_of_ipv6 htext h with ⟨a, b, c, d, hb, rfl, hipv4⟩ | hipv6
  · refine .inl ?_
    unfold IpAddress.isPrivate
    dsimp only
    rw [embedded?_mapped hb]
    exact (Bool.or_eq_true _ _).mpr (.inl (classifyIpv4_eq_private (hipv4.symm.trans hclass)))
  · have hstart : startsWithAny (lower cs) ["fc", "fd"] = true := by
      have hprivate := hipv6.symm.trans hclass
      unfold classifyIpv6 at hprivate
      grind
    obtain ⟨group, rest, n, hgroup, hsplit, hhead, -, hfour⟩ := Ipv6.uniqueLocal h hstart
    by_cases hlength : 4 ≤ group.length
    · refine .inl ?_
      unfold IpAddress.isPrivate
      dsimp only
      rw [hhead]
      simp [hfour hlength]
    · refine .inr ⟨cs, groups, htext, h, hstart, ?_⟩
      rw [hsplit]
      exact (colon_mem_take hgroup).mpr (Nat.lt_of_not_le hlength)

end Normalised

/-! ## Accepted targets -/

/-- A request may go to the host, where that is an address, and to everything that it was
resolved to; over plain http all of this is private. -/
def IsSafe (url : TargetUrl) (addresses : List String) : Prop :=
  ∀ text, text = url.hostname ∨ text ∈ addresses → ∀ address, Denotes text.toList address →
    address.forbidden = false ∧ (url.protocol = "http:" → address.isPrivate = true)

section Accepted

variable {parseUrl : String → Option TargetUrl} {resolve : String → Except String (List String)}
  {rawUrl : String} {target : SafeTarget}

/-- What the checks of an accepted target have found. -/
theorem of_accepted (h : assertSafeTarget parseUrl resolve rawUrl = .ok target) :
    ∃ addresses, addressesOf resolve target.url = .ok addresses ∧
      (∀ text ∈ addresses, classifyAddress text.toList ≠ .blockedAddress) ∧
      (target.url.protocol = "http:" →
        ∀ text ∈ addresses, classifyAddress text.toList = .privateAddress) := by
  unfold assertSafeTarget at h
  split at h
  · cases h
  · next url hurl =>
    split at h
    · cases h
    · split at h
      · cases h
      · split at h
        · cases h
        · cases h
        · next addresses hne haddresses =>
          split at h
          · cases h
          · next hfind =>
            dsimp only at h
            split at h
            · cases h
            · next hhttp =>
              cases h
              refine ⟨addresses, haddresses, fun text htext hblocked => ?_, fun hprotocol => ?_⟩
              · exact List.find?_eq_none.mp hfind text htext (decide_eq_true hblocked)
              · have hall : (addresses.all fun address =>
                    classifyAddress address.toList = .privateAddress) = true := by
                  by_contra hnot
                  exact hhttp ⟨hprotocol, Bool.eq_false_iff.mpr hnot⟩
                exact fun text htext => of_decide_eq_true (List.all_eq_true.mp hall text htext)

/-- A host that is an address is not resolved. -/
theorem mem_addressesOf {url : TargetUrl} {addresses : List String} {address : IpAddress}
    (h : addressesOf resolve url = .ok addresses) (hdenotes : Denotes url.hostname.toList address) :
    url.hostname ∈ addresses := by
  have hliteral : isLiteralAddress url.hostname.toList = true := by
    unfold isLiteralAddress
    rw [Bool.or_eq_true, decide_eq_true_iff]
    generalize url.hostname.toList = cs at hdenotes
    cases hdenotes with
    | ipv4 hdotted =>
      rw [ipv4Octets?_of_isDotted hdotted]
      exact .inl rfl
    | ipv6 hgroups => exact .inr hgroups.colon_mem
    | bracketed hgroups =>
      exact .inr (List.mem_cons_of_mem _ (List.mem_append_left _ hgroups.colon_mem))
  unfold addressesOf at h
  rw [if_pos hliteral] at h
  obtain rfl := Except.ok.inj h
  exact List.mem_cons_self

/-- An accepted target is safe exactly when none of its addresses is a spelling that the
classification misses and, over plain http, none has a short first group in `fc` or `fd`. -/
theorem assertSafeTarget_complete_iff
    (h : assertSafeTarget parseUrl resolve rawUrl = .ok target) :
    (∃ addresses, addressesOf resolve target.url = .ok addresses ∧ IsSafe target.url addresses) ↔
      ∀ addresses, addressesOf resolve target.url = .ok addresses → ∀ text ∈ addresses,
        ¬ MissedSpelling text.toList ∧
          (target.url.protocol = "http:" → ¬ ShortUniqueLocal text.toList) := by
  obtain ⟨addresses, haddresses, hopen, hprivate⟩ := of_accepted h
  constructor
  · rintro ⟨addresses', haddresses', hsafe⟩ others hothers text htext
    obtain rfl := Except.ok.inj (haddresses'.symm.trans hothers)
    refine ⟨fun hmissed => ?_, fun hhttp hshort => ?_⟩
    · obtain ⟨address, hdenotes, hforbidden⟩ := forbidden_of_missed hmissed
      rw [(hsafe text (.inr htext) address hdenotes).1] at hforbidden
      cases hforbidden
    · obtain ⟨address, hdenotes, hpublic⟩ := not_private_of_short hshort
      rw [(hsafe text (.inr htext) address hdenotes).2 hhttp] at hpublic
      cases hpublic
  · intro hcondition
    refine ⟨addresses, haddresses, fun text hreached address hdenotes => ?_⟩
    have htext : text ∈ addresses := by
      rcases hreached with rfl | htext
      · exact mem_addressesOf haddresses hdenotes
      · exact htext
    obtain ⟨hseen, hlong⟩ := hcondition addresses haddresses text htext
    have hclass := hopen text htext
    have hipv6 : ∀ cs groups, IsLiteral6 text.toList cs → Ipv6 cs groups →
        (IpAddress.v6 groups).forbidden = false ∧
          (target.url.protocol = "http:" → (IpAddress.v6 groups).isPrivate = true) := by
      intro cs groups hliteral hgroups
      refine ⟨?_, fun hhttp => ?_⟩
      · exact Bool.eq_false_iff.mpr fun hforbidden =>
          hseen (missed_of_forbidden hliteral hgroups hforbidden hclass)
      · exact (isPrivate_of_class hliteral hgroups (hprivate hhttp text htext)).resolve_right
          (hlong hhttp)
    generalize hcs : text.toList = cs at hdenotes
    cases hdenotes with
    | ipv4 hdotted =>
      have hipv4 := classifyAddress_of_isDotted hdotted
      rw [← hcs] at hipv4
      refine ⟨?_, fun hhttp => ?_⟩
      · refine Bool.eq_false_iff.mpr fun hforbidden => hclass ?_
        exact hipv4.trans (classifyIpv4_of_forbidden hforbidden)
      · exact classifyIpv4_eq_private (hipv4.symm.trans (hprivate hhttp text htext))
    | ipv6 hgroups => exact hipv6 _ _ (.inl hcs) hgroups
    | bracketed hgroups => exact hipv6 _ _ (.inr hcs) hgroups

end Accepted

/-- The URL parser on two targets; it writes a mapped address in hexadecimal. -/
def exParseUrl (rawUrl : String) : Option TargetUrl :=
  if rawUrl = "https://93.184.216.34/x" then some ⟨"https:", "", "", "93.184.216.34"⟩
  else if rawUrl = "https://[::ffff:127.0.0.1]/" then some ⟨"https:", "", "", "[::ffff:7f00:1]"⟩
  else none

/-- A resolver that is not asked. -/
def exResolve (hostname : String) : Except String (List String) :=
  .error ("getaddrinfo ENOTFOUND " ++ hostname)

theorem exTarget_addresses : addressesOf exResolve ⟨"https:", "", "", "93.184.216.34"⟩ =
    .ok ["93.184.216.34"] := by
  decide

theorem assertSafeTarget_complete_iff_exTarget :
    ∃ addresses, addressesOf exResolve ⟨"https:", "", "", "93.184.216.34"⟩ = .ok addresses ∧
      IsSafe ⟨"https:", "", "", "93.184.216.34"⟩ addresses := by
  have haccepted : assertSafeTarget exParseUrl exResolve "https://93.184.216.34/x" =
      .ok ⟨⟨"https:", "", "", "93.184.216.34"⟩, false⟩ := by decide
  refine (assertSafeTarget_complete_iff haccepted).mpr ?_
  intro addresses haddresses text htext
  obtain rfl := Except.ok.inj (exTarget_addresses.symm.trans haddresses)
  obtain rfl := List.mem_singleton.mp htext
  refine ⟨?_, nofun⟩
  rintro ⟨cs, groups, htext | htext, hipv6, hdot, -⟩
  · exact hdot (htext ▸ by decide)
  · have hhead : some '9' = some '[' := congrArg List.head? htext
    cases hhead

theorem exMapped_ipv6 : Ipv6 "::ffff:7f00:1".toList [0, 0, 0, 0, 0, 65535, 0x7f00, 1] := by
  have hffff : IsGroup "ffff".toList 65535 := ⟨by decide, by decide, by decide, by decide⟩
  have hhigh : IsGroup "7f00".toList 0x7f00 := ⟨by decide, by decide, by decide, by decide⟩
  have hlow : IsGroup "1".toList 1 := ⟨by decide, by decide, by decide, by decide⟩
  exact .compressed 4 (.inl ⟨rfl, rfl⟩) nofun
    (.inr (.cons hffff (.cons hhigh (.last hlow)))) rfl

/-- The loopback in `::ffff:127.0.0.1`, as the URL parser writes it. -/
theorem hexadecimal_loopback_accepted :
    ¬ ∀ (parseUrl : String → Option TargetUrl) (resolve : String → Except String (List String))
      (rawUrl : String) (target : SafeTarget),
      assertSafeTarget parseUrl resolve rawUrl = .ok target →
        ∃ addresses, addressesOf resolve target.url = .ok addresses ∧
          IsSafe target.url addresses := by
  intro h
  obtain ⟨addresses, -, hsafe⟩ := h exParseUrl exResolve "https://[::ffff:127.0.0.1]/"
    ⟨⟨"https:", "", "", "[::ffff:7f00:1]"⟩, false⟩ (by decide)
  have hloopback := (hsafe "[::ffff:7f00:1]" (.inl rfl) _ (.bracketed exMapped_ipv6)).1
  revert hloopback
  decide

end KasterCti.ArsLookup
