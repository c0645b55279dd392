import KasterCti.Calls.World
import KasterCti.Library.Trace
import Mathlib.Data.List.Nodup

/-!
# Refresh tokens

`AuthService` and `PlatformAuthService` keep refresh tokens as hashes and rotate them:
`refresh` reads the row, checks it, revokes it and issues a new token, each in a
statement of its own. Requests are cut at their awaits and interleave in any way, on one
node or on several: they share the database only.

Results:
1. `authStep_rotating`: what every step keeps when no two refreshes of one token are
   between the check and the revocation, and no logout ends while one is on its way.
2. `refresh_tokens_single_use`: in a run of such steps a token is worth one new token,
   and none after its logout.
3. `revoked_token_refused`: a revoked token is refused in every later state.
4. `two_refreshes_issue_twice`: without the condition two holders get one each.
-/

namespace KasterCti.Auth

open Calls (Time)
open Trace

/-- Whose tokens: the agents' of `AuthService`, or the platform administrators'. -/
inductive Realm
  | agent
  | platform
deriving DecidableEq

/-- A token is known by its hash, which is unique in its table. -/
structure TokenKey where
  realm : Realm
  tokenHash : String
deriving DecidableEq

/-- A row of `refreshTokens` or `platformAdminRefreshTokens`. -/
structure TokenRow where
  key : TokenKey
  ownerId : String
  expiresAt : Time
  revokedAt : Option Time
  userAgent : Option String
  ipAddress : Option String
deriving DecidableEq

/-- The await that a request is in. -/
inductive AuthPhase
  | refreshFind (token : String)
  | refreshRevoke (token : String) (row : TokenRow)
  | refreshIssue (token : String) (row : TokenRow)
  | logoutFind (token : String)
  | logoutRevoke (token : String) (ownerId : Option String)
  | logoutAllRevoke (ownerId : String)
  /-- `markLoggedOut`, behind the revocation of the rows `keys`. -/
  | logoutMark (keys : List TokenKey)
deriving DecidableEq

structure AuthRequest where
  realm : Realm
  phase : AuthPhase
deriving DecidableEq

/-- A refresh token that was issued in exchange for another one. -/
structure Exchange where
  realm : Realm
  token : String
  value : String
  /-- A logout of the token had come to its end. -/
  afterLogout : Bool
deriving DecidableEq

structure AuthState where
  tokens : List TokenRow
  /-- The accounts with `isActive`. -/
  active : Realm → String → Bool
  requests : Nat → Option AuthRequest
  nextRequest : Nat
  exchanges : List Exchange
  /-- The rows that a completed logout has revoked. -/
  loggedOut : List TokenKey

/-- How an await comes back. -/
structure AuthReply where
  /-- The statement throws. -/
  fails : Bool
  /-- What `randomBytes` returned. -/
  value : String
  now : Time

inductive AuthAction
  /-- A login issues the first token. -/
  | login (realm : Realm) (ownerId : String) (userAgent ipAddress : Option String) (reply : AuthReply)
  | setActive (realm : Realm) (ownerId : String) (isActive : Bool)
  | refresh (realm : Realm) (token : String)
  | logout (realm : Realm) (token : String)
  /-- Agents only. -/
  | logoutAll (agentId : String)
  | next (request : Nat) (reply : AuthReply)

/-- 14 days, in both services. -/
def refreshTokenTtlMs : Int := 14 * 24 * 60 * 60 * 1000

section Requests

variable (sha256 : String → String)

namespace AuthState

def setRequest (s : AuthState) (n : Nat) (request : Option AuthRequest) : AuthState :=
  { s with requests := fun m => if m = n then request else s.requests m }

def start (s : AuthState) (realm : Realm) (phase : AuthPhase) : AuthState :=
  { s with nextRequest := s.nextRequest + 1 }.setRequest s.nextRequest (some ⟨realm, phase⟩)

def find (s : AuthState) (key : TokenKey) : Option TokenRow := s.tokens.find? (·.key = key)

/-- `revokedAt: new Date()` in the rows that match. -/
def revoke (s : AuthState) (p : TokenRow → Bool) (now : Time) : AuthState :=
  { s with tokens := s.tokens.map fun row => if p row then { row with revokedAt := some now } else row }

/-- The `create` of `issueRefreshToken`. -/
def issueRefreshToken (s : AuthState) (realm : Realm) (ownerId : String)
    (userAgent ipAddress : Option String) (reply : AuthReply) : Option AuthState :=
  let key : TokenKey := ⟨realm, sha256 reply.value⟩
  if reply.fails || (s.find key).isSome then none
  else some { s with tokens := s.tokens ++
    [⟨key, ownerId, reply.now + refreshTokenTtlMs, none, userAgent, ipAddress⟩] }

/-- The row that a refresh goes on with. -/
def usableRow (s : AuthState) (key : TokenKey) (now : Time) : Option TokenRow :=
  (s.find key).filter fun row =>
    row.revokedAt.isNone && !(row.expiresAt < now) && s.active key.realm row.ownerId

/-- A logout is over. -/
def completeLogout (s : AuthState) (n : Nat) (keys : List TokenKey) : AuthState :=
  { s with loggedOut := keys ++ s.loggedOut }.setRequest n none

def next (s : AuthState) (n : Nat) (request : AuthRequest) (reply : AuthReply) : AuthState :=
  let realm := request.realm
  if reply.fails then s.setRequest n none
  else
    match request.phase with
    | .refreshFind token =>
      match s.usableRow ⟨realm, sha256 token⟩ reply.now with
      | some row => s.setRequest n (some ⟨realm, .refreshRevoke token row⟩)
      | none => s.setRequest n none
    -- the update is by id: it does not ask again whether the row is revoked
    | .refreshRevoke token row =>
      (s.revoke (·.key = row.key) reply.now).setRequest n (some ⟨realm, .refreshIssue token row⟩)
    | .refreshIssue token row =>
      match s.issueRefreshToken sha256 realm row.ownerId row.userAgent row.ipAddress reply with
      | none => s.setRequest n none
      | some s' =>
        { s' with
          exchanges := ⟨realm, token, reply.value, row.key ∈ s.loggedOut⟩ :: s.exchanges
          }.setRequest n none
    | .logoutFind token =>
      let row := s.find ⟨realm, sha256 token⟩
      s.setRequest n (some ⟨realm, .logoutRevoke token (row.map (·.ownerId))⟩)
    | .logoutRevoke token ownerId =>
      let p (row : TokenRow) : Bool := row.key = ⟨realm, sha256 token⟩
      let keys := (s.tokens.filter p).map (·.key)
      let s := s.revoke (fun row => p row && row.revokedAt.isNone) reply.now
      if ownerId.isSome then s.setRequest n (some ⟨realm, .logoutMark keys⟩)
      else s.completeLogout n keys
    | .logoutAllRevoke ownerId =>
      let p (row : TokenRow) : Bool := row.key.realm = realm && row.ownerId = ownerId
      let keys := (s.tokens.filter p).map (·.key)
      let s := s.revoke (fun row => p row && row.revokedAt.isNone) reply.now
      s.setRequest n (some ⟨realm, .logoutMark keys⟩)
    | .logoutMark keys => s.completeLogout n keys

end AuthState

/-- One step. `PlatformAuthService.logout` does not look the row up first: its account
has no queue to leave. -/
def authStep (s : AuthState) : AuthAction → AuthState
  | .login realm ownerId userAgent ipAddress reply =>
    (s.issueRefreshToken sha256 realm ownerId userAgent ipAddress reply).getD s
  | .setActive realm ownerId isActive =>
    { s with active := fun r id => if r = realm ∧ id = ownerId then isActive else s.active r id }
  | .refresh realm token => if token = "" then s else s.start realm (.refreshFind token)
  | .logout realm token =>
    if token = "" then s
    else match realm with
      | .agent => s.start realm (.logoutFind token)
      | .platform => s.start realm (.logoutRevoke token none)
  | .logoutAll agentId => s.start .agent (.logoutAllRevoke agentId)
  | .next n reply =>
    match s.requests n with
    | none => s
    | some request => s.next sha256 n request reply

/-! ## The property and its condition -/

def Exchange.key (e : Exchange) : TokenKey := ⟨e.realm, sha256 e.token⟩

/-- No token was exchanged twice, and none after its logout. -/
def SingleUse (s : AuthState) : Prop :=
  (∀ realm token, (s.exchanges.filter fun e => e.realm = realm && e.token = token).length ≤ 1) ∧
    ∀ e ∈ s.exchanges, e.afterLogout = false

/-- The request has passed the check of `refresh` for the token and has not revoked it. -/
def AuthRequest.checked (request : AuthRequest) (key : TokenKey) : Bool :=
  match request.phase with
  | .refreshRevoke _ row => row.key = key
  | _ => false

/-- The request has revoked the token and has not issued a new one. -/
def AuthRequest.revoked (request : AuthRequest) (key : TokenKey) : Bool :=
  match request.phase with
  | .refreshIssue _ row => row.key = key
  | _ => false

/-- A refresh of the token is on its way, behind the check. -/
def Busy (s : AuthState) (n : Nat) (key : TokenKey) : Prop :=
  ∃ request, s.requests n = some request ∧ (request.checked key ∨ request.revoked key)

/-- The keys of the logout that ends in this step. -/
def endingKeys (s : AuthState) (request : AuthRequest) : List TokenKey :=
  match request.phase with
  | .logoutRevoke token none =>
    (s.tokens.filter fun row => row.key = ⟨request.realm, sha256 token⟩).map (·.key)
  | .logoutMark keys => keys
  | _ => []

/-- A refresh passes the check only while no other one is between the check of the same
token and its revocation, and a logout ends only while no refresh of a token of its is on
the way. -/
def Apart (s : AuthState) : AuthAction → Prop
  | .next n reply => ∀ request, s.requests n = some request → reply.fails = false →
    (∀ token, request.phase = .refreshFind token →
      (s.usableRow ⟨request.realm, sha256 token⟩ reply.now).isSome →
      ∀ m other, s.requests m = some other → other.checked ⟨request.realm, sha256 token⟩ = false) ∧
    ∀ key ∈ endingKeys sha256 s request, ∀ m, ¬ Busy s m key
  | _ => True

/-! ## The invariant -/

/-- The row of the token is there and revoked. -/
def Dead (s : AuthState) (key : TokenKey) : Prop :=
  (∃ row ∈ s.tokens, row.key = key) ∧ ∀ row ∈ s.tokens, row.key = key → row.revokedAt ≠ none

/-- The token was neither exchanged nor logged out, and nobody else is at it. -/
structure Sole (s : AuthState) (n : Nat) (key : TokenKey) : Prop where
  others : ∀ m, m ≠ n → ¬ Busy s m key
  unexchanged : ∀ e ∈ s.exchanges, e.key sha256 ≠ key
  unended : key ∉ s.loggedOut

/-- What a request knows in its await. -/
def Fits (s : AuthState) (n : Nat) (request : AuthRequest) : Prop :=
  match request.phase with
  | .refreshRevoke token row => row.key = ⟨request.realm, sha256 token⟩ ∧
      (∃ row' ∈ s.tokens, row'.key = row.key) ∧ Sole sha256 s n row.key
  | .refreshIssue token row => row.key = ⟨request.realm, sha256 token⟩ ∧
      Dead s row.key ∧ Sole sha256 s n row.key
  | .logoutMark keys => ∀ key ∈ keys, Dead s key
  | _ => True

structure Rotating (s : AuthState) : Prop where
  unique : (s.tokens.map (·.key)).Nodup
  fits : ∀ n request, s.requests n = some request → Fits sha256 s n request
  exchanged : ∀ e ∈ s.exchanges, Dead s (e.key sha256)
  ended : ∀ key ∈ s.loggedOut, Dead s key
  once : (s.exchanges.map (·.key sha256)).Nodup
  early : ∀ e ∈ s.exchanges, e.afterLogout = false

end Requests

variable {sha256 : String → String} {s s' : AuthState} {n : Nat} {key : TokenKey}

/-! ## Rows -/

variable {row : TokenRow}

theorem mem_revoke {p : TokenRow → Bool} {now : Time} (h : row ∈ (s.revoke p now).tokens) :
    ∃ old ∈ s.tokens, old.key = row.key ∧
      (row = old ∨ (p old = true ∧ row.revokedAt = some now)) := by
  obtain ⟨old, hold, rfl⟩ := List.mem_map.1 h
  split
  · next hp => exact ⟨old, hold, rfl, .inr ⟨hp, rfl⟩⟩
  · exact ⟨old, hold, rfl, .inl rfl⟩

theorem present_revoke (p : TokenRow → Bool) (now : Time) (h : ∃ row ∈ s.tokens, row.key = key) :
    ∃ row ∈ (s.revoke p now).tokens, row.key = key := by
  obtain ⟨row, hrow, hkey⟩ := h
  refine ⟨_, List.mem_map_of_mem hrow, ?_⟩
  split <;> exact hkey

/-- A revoked row stays so. -/
theorem Dead.revoke (h : Dead s key) (p : TokenRow → Bool) (now : Time) :
    Dead (s.revoke p now) key := by
  refine ⟨present_revoke p now h.1, ?_⟩
  intro row hrow hkey
  obtain ⟨old, hold, hsame, rfl | ⟨-, hset⟩⟩ := mem_revoke hrow
  · exact h.2 row hold hkey
  · rw [hset]
    exact nofun

/-- The rows that match are revoked now. -/
theorem dead_of_revoke {p : TokenRow → Bool} {now : Time} (hthere : ∃ row ∈ s.tokens, row.key = key)
    (hp : ∀ row ∈ s.tokens, row.key = key → row.revokedAt = none → p row = true) :
    Dead (s.revoke p now) key := by
  refine ⟨present_revoke p now hthere, ?_⟩
  intro row hrow hkey
  obtain ⟨old, hold, rfl⟩ := List.mem_map.1 hrow
  split
  · exact nofun
  · next hno =>
    intro hnone
    rw [if_neg hno] at hkey
    exact hno (hp old hold hkey hnone)

theorem Dead.not_usable {now : Time} (h : Dead s key) : s.usableRow key now = none := by
  unfold AuthState.usableRow AuthState.find
  rw [Option.filter_eq_none_iff]
  intro row hrow huse
  have hkey : row.key = key := by simpa using List.find?_some hrow
  have hsome := h.2 row (List.mem_of_find?_eq_some hrow) hkey
  simp only [Bool.and_eq_true, Option.isNone_iff_eq_none] at huse
  exact hsome huse.1.1

theorem usableRow_eq_some {now : Time} (h : s.usableRow key now = some row) :
    row ∈ s.tokens ∧ row.key = key := by
  obtain ⟨hrow, -⟩ := Option.filter_eq_some_iff.1 h
  exact ⟨List.mem_of_find?_eq_some hrow, by simpa using List.find?_some hrow⟩

/-- A new row has a key of its own. -/
theorem issue_eq_some {realm : Realm} {ownerId : String} {userAgent ipAddress : Option String}
    {reply : AuthReply}
    (h : s.issueRefreshToken sha256 realm ownerId userAgent ipAddress reply = some s') :
    ∃ row, s' = { s with tokens := s.tokens ++ [row] } ∧ ∀ old ∈ s.tokens, old.key ≠ row.key := by
  unfold AuthState.issueRefreshToken at h
  dsimp only at h
  split at h
  · cases h
  · next hno =>
    refine ⟨_, (Option.some.inj h).symm, ?_⟩
    simp only [Bool.or_eq_true, not_or, Bool.not_eq_true, Option.isSome_eq_false_iff,
      Option.isNone_iff_eq_none, AuthState.find, List.find?_eq_none] at hno
    intro old hold
    simpa using hno.2 old hold

theorem Dead.append (h : Dead s key) (hnew : ∀ old ∈ s.tokens, old.key ≠ row.key) :
    Dead { s with tokens := s.tokens ++ [row] } key := by
  obtain ⟨⟨old, hold, hkey⟩, hall⟩ := h
  refine ⟨⟨old, List.mem_append_left _ hold, hkey⟩, ?_⟩
  intro r hr hrkey
  rcases List.mem_append.1 hr with hr | hr
  · exact hall r hr hrkey
  · obtain rfl := List.mem_singleton.1 hr
    exact absurd (hkey.trans hrkey.symm) (hnew old hold)

/-! ## Requests -/

theorem busy_setRequest {m : Nat} {request : Option AuthRequest} (hm : m ≠ n) :
    Busy (s.setRequest n request) m key ↔ Busy s m key := by
  have hrequest : (s.setRequest n request).requests m = s.requests m := if_neg hm
  unfold Busy
  rw [hrequest]

theorem busy_setRequest_self {request : Option AuthRequest} :
    Busy (s.setRequest n request) n key ↔
      ∃ r, request = some r ∧ (r.checked key ∨ r.revoked key) := by
  have hrequest : (s.setRequest n request).requests n = request := if_pos rfl
  unfold Busy
  rw [hrequest]

/-- A request that is at a token is alone with it. -/
theorem Fits.sole {request : AuthRequest} (h : Fits sha256 s n request)
    (hbusy : request.checked key ∨ request.revoked key) : Sole sha256 s n key := by
  unfold Fits at h
  unfold AuthRequest.checked AuthRequest.revoked at hbusy
  split at h
  · next hphase =>
    rw [hphase] at hbusy
    simp only [decide_eq_true_eq, Bool.false_eq_true, or_false] at hbusy
    exact hbusy ▸ h.2.2
  · next hphase =>
    rw [hphase] at hbusy
    simp only [decide_eq_true_eq, Bool.false_eq_true, false_or] at hbusy
    exact hbusy ▸ h.2.2
  · next hphase =>
    rw [hphase] at hbusy
    simp at hbusy
  · next hno hno' _ =>
    exfalso
    rcases hbusy with hbusy | hbusy
    · split at hbusy
      · next hphase => exact hno _ _ hphase
      · cases hbusy
    · split at hbusy
      · next hphase => exact hno' _ _ hphase
      · cases hbusy

/-- `Fits` in another state: what it says of rows, and of the token it is at. -/
theorem Fits.mono {request : AuthRequest} (h : Fits sha256 s n request)
    (hthere : ∀ key, (∃ row ∈ s.tokens, row.key = key) → ∃ row ∈ s'.tokens, row.key = key)
    (hdead : ∀ key, Dead s key → Dead s' key)
    (hsole : ∀ key, (request.checked key ∨ request.revoked key) → Sole sha256 s n key →
      Sole sha256 s' n key) : Fits sha256 s' n request := by
  unfold Fits at h ⊢
  unfold AuthRequest.checked AuthRequest.revoked at hsole
  split at h
  · next hphase =>
    rw [hphase] at hsole
    exact ⟨h.1, hthere _ h.2.1, hsole _ (.inl (by simp)) h.2.2⟩
  · next hphase =>
    rw [hphase] at hsole
    exact ⟨h.1, hdead _ h.2.1, hsole _ (.inr (by simp)) h.2.2⟩
  · intro key hkey
    exact hdead key (h key hkey)
  · trivial

section Requests
variable (h : Rotating sha256 s)
include h

/-- The request `n` goes to another await, or ends. -/
theorem Rotating.setRequest {request : Option AuthRequest}
    (hfits : ∀ r, request = some r → Fits sha256 s n r) :
    Rotating sha256 (s.setRequest n request) := by
  refine ⟨h.unique, ?_, h.exchanged, h.ended, h.once, h.early⟩
  intro m r hr
  by_cases hm : m = n
  · subst hm
    have hreq : request = some r := by simpa [AuthState.setRequest] using hr
    refine (hfits r hreq).mono (fun _ => id) (fun _ => id) ?_
    intro key _ hsole
    exact ⟨fun k hk => by rw [busy_setRequest hk]; exact hsole.others k hk,
      hsole.unexchanged, hsole.unended⟩
  · have hold : s.requests m = some r := by simpa [AuthState.setRequest, hm] using hr
    refine (h.fits m r hold).mono (fun _ => id) (fun _ => id) ?_
    intro key hbusy hsole
    refine ⟨?_, hsole.unexchanged, hsole.unended⟩
    intro k hk
    by_cases hkn : k = n
    · subst hkn
      rw [busy_setRequest_self]
      rintro ⟨r', hr', hbusy'⟩
      -- the other one is at the same token already
      exact ((hfits r' hr').sole hbusy').others m hm ⟨r, hold, hbusy⟩
    · rw [busy_setRequest hkn]
      exact hsole.others k hk

theorem Rotating.drop (n : Nat) : Rotating sha256 (s.setRequest n none) :=
  h.setRequest (by rintro _ ⟨⟩)

theorem Rotating.revoke (p : TokenRow → Bool) (now : Time) : Rotating sha256 (s.revoke p now) := by
  refine ⟨?_, ?_, ?_, ?_, h.once, h.early⟩
  · have hkeys : (s.revoke p now).tokens.map (·.key) = s.tokens.map (·.key) := by
      rw [AuthState.revoke, List.map_map]
      refine List.map_congr_left ?_
      intro row _
      simp only [Function.comp_apply]
      split <;> rfl
    rw [hkeys]
    exact h.unique
  · intro m r hr
    exact (h.fits m r hr).mono (fun _ => present_revoke p now) (fun _ hd => hd.revoke p now)
      (fun _ _ hsole => ⟨hsole.others, hsole.unexchanged, hsole.unended⟩)
  · exact fun e he => (h.exchanged e he).revoke p now
  · exact fun key hkey => (h.ended key hkey).revoke p now

theorem Rotating.issue (hnew : ∀ old ∈ s.tokens, old.key ≠ row.key) :
    Rotating sha256 { s with tokens := s.tokens ++ [row] } := by
  refine ⟨?_, ?_, ?_, ?_, h.once, h.early⟩
  · rw [List.map_append, List.map_singleton]
    refine List.nodup_append.2 ⟨h.unique, by simp, ?_⟩
    rintro _ hold _ hrow rfl
    obtain ⟨old, hold, hkey⟩ := List.mem_map.1 hold
    rw [List.mem_singleton] at hrow
    exact hnew old hold (hkey.trans hrow)
  · intro m r hr
    refine (h.fits m r hr).mono ?_ (fun _ hd => hd.append hnew)
      (fun _ _ hsole => ⟨hsole.others, hsole.unexchanged, hsole.unended⟩)
    rintro key ⟨old, hold, hkey⟩
    exact ⟨old, List.mem_append_left _ hold, hkey⟩
  · exact fun e he => (h.exchanged e he).append hnew
  · exact fun key hkey => (h.ended key hkey).append hnew

/-- The refresh ends with its new token. -/
theorem Rotating.exchange {realm : Realm} {token value : String}
    (hrequest : s.requests n = some ⟨realm, .refreshIssue token row⟩) :
    Rotating sha256 ({ s with
      exchanges := ⟨realm, token, value, row.key ∈ s.loggedOut⟩ :: s.exchanges }.setRequest n none) := by
  obtain ⟨hkey, hdead, hsole⟩ := h.fits n _ hrequest
  have hbusy : Busy s n row.key := ⟨_, hrequest, .inr (by simp [AuthRequest.revoked])⟩
  refine ⟨h.unique, ?_, ?_, h.ended, ?_, ?_⟩
  · intro m r hr
    by_cases hm : m = n
    · simp [AuthState.setRequest, hm] at hr
    have hold : s.requests m = some r := by simpa [AuthState.setRequest, hm] using hr
    refine (h.fits m r hold).mono (fun _ => id) (fun _ => id) ?_
    intro key hbusyM hsoleM
    refine ⟨?_, ?_, hsoleM.unended⟩
    · intro k hk
      by_cases hkn : k = n
      · subst hkn
        rw [busy_setRequest_self]
        rintro ⟨_, hnone, _⟩
        cases hnone
      · rw [busy_setRequest hkn]
        exact hsoleM.others k hk
    · intro e he
      rcases List.mem_cons.1 he with rfl | he
      · -- the token of this refresh is not the other one's
        rintro rfl
        refine hsoleM.others n (Ne.symm hm) ?_
        have hsame : Exchange.key sha256 ⟨realm, token, value, row.key ∈ s.loggedOut⟩ = row.key :=
          hkey.symm
        rw [hsame]
        exact hbusy
      · exact hsoleM.unexchanged e he
  · intro e he
    rcases List.mem_cons.1 he with rfl | he
    · have hown := hdead
      rw [hkey] at hown
      exact hown
    · exact h.exchanged e he
  · refine List.nodup_cons.2 ⟨?_, h.once⟩
    intro hmem
    obtain ⟨e, he, hsame⟩ := List.mem_map.1 hmem
    exact hsole.unexchanged e he (hsame.trans hkey.symm)
  · intro e he
    rcases List.mem_cons.1 he with rfl | he
    · exact decide_eq_false hsole.unended
    · exact h.early e he

/-- The logout ends. -/
theorem Rotating.completeLogout {keys : List TokenKey} (hdead : ∀ key ∈ keys, Dead s key)
    (hidle : ∀ key ∈ keys, ∀ m, ¬ Busy s m key) : Rotating sha256 (s.completeLogout n keys) := by
  have hlogged : Rotating sha256 { s with loggedOut := keys ++ s.loggedOut } := by
    refine ⟨h.unique, ?_, h.exchanged, ?_, h.once, h.early⟩
    · intro m r hr
      refine (h.fits m r hr).mono (fun _ => id) (fun _ => id) ?_
      intro key hbusy hsole
      refine ⟨hsole.others, hsole.unexchanged, ?_⟩
      intro hmem
      rcases List.mem_append.1 hmem with hmem | hmem
      · exact hidle key hmem m ⟨r, hr, hbusy⟩
      · exact hsole.unended hmem
    · intro key hkey
      rcases List.mem_append.1 hkey with hkey | hkey
      · exact hdead key hkey
      · exact h.ended key hkey
  exact hlogged.drop n

/-- Accounts and the number of the next request do not matter. -/
theorem Rotating.congr (active : Realm → String → Bool) (next : Nat) :
    Rotating sha256 { s with active := active, nextRequest := next } := by
  refine ⟨h.unique, ?_, h.exchanged, h.ended, h.once, h.early⟩
  intro m r hr
  exact (h.fits m r hr).mono (fun _ => id) (fun _ => id)
    (fun _ _ hsole => ⟨hsole.others, hsole.unexchanged, hsole.unended⟩)

theorem Rotating.start {realm : Realm} {phase : AuthPhase}
    (hfits : ∀ t m, Fits sha256 t m ⟨realm, phase⟩) : Rotating sha256 (s.start realm phase) := by
  refine (h.congr s.active (s.nextRequest + 1)).setRequest ?_
  intro r hr
  obtain rfl := Option.some.inj hr
  exact hfits _ _

end Requests

/-! ## Steps -/

section Next

variable {request : AuthRequest} {reply : AuthReply}

theorem Rotating.next_find (h : Rotating sha256 s) {token : String} {row : TokenRow}
    (hrow : s.usableRow ⟨request.realm, sha256 token⟩ reply.now = some row)
    (hapart : ∀ m other, s.requests m = some other →
      other.checked ⟨request.realm, sha256 token⟩ = false) :
    Rotating sha256 (s.setRequest n (some ⟨request.realm, .refreshRevoke token row⟩)) := by
  obtain ⟨hmem, hkey⟩ := usableRow_eq_some hrow
  have halive : ¬ Dead s ⟨request.realm, sha256 token⟩ := by
    intro hdead
    rw [hdead.not_usable] at hrow
    cases hrow
  refine h.setRequest ?_
  intro r hr
  obtain rfl := Option.some.inj hr
  refine ⟨hkey, ⟨row, hmem, rfl⟩, ?_, ?_, ?_⟩
  · rintro m - ⟨other, hother, hbusy⟩
    rw [hkey] at hbusy
    rcases hbusy with hchecked | hrevoked
    · rw [hapart m other hother] at hchecked
      cases hchecked
    · have hfits := h.fits m other hother
      unfold AuthRequest.revoked at hrevoked
      unfold Fits at hfits
      split at hrevoked
      · next hissue =>
        rw [hissue] at hfits
        rw [decide_eq_true_eq] at hrevoked
        exact halive (hrevoked ▸ hfits.2.1)
      · cases hrevoked
  · intro e he hsame
    refine halive ?_
    rw [← hkey, ← hsame]
    exact h.exchanged e he
  · intro hended
    refine halive ?_
    rw [← hkey]
    exact h.ended _ hended

theorem Rotating.next_revoke (h : Rotating sha256 s) {token : String} {row : TokenRow}
    (hrequest : s.requests n = some request) (hphase : request.phase = .refreshRevoke token row) :
    Rotating sha256 ((s.revoke (·.key = row.key) reply.now).setRequest n
      (some ⟨request.realm, .refreshIssue token row⟩)) := by
  have hfits := h.fits n request hrequest
  unfold Fits at hfits
  rw [hphase] at hfits
  obtain ⟨hkey, hthere, hsole⟩ := hfits
  refine (h.revoke _ reply.now).setRequest ?_
  intro r hr
  obtain rfl := Option.some.inj hr
  refine ⟨hkey, dead_of_revoke hthere ?_, hsole.others, hsole.unexchanged, hsole.unended⟩
  intro old _ hold _
  exact decide_eq_true hold

/-- The rows that a logout matches are revoked behind its `updateMany`. -/
theorem Rotating.dead_matched (h : Rotating sha256 s) (p : TokenRow → Bool) (now : Time) :
    ∀ key ∈ (s.tokens.filter p).map (·.key),
      Dead (s.revoke (fun row => p row && row.revokedAt.isNone) now) key := by
  intro key hkey
  obtain ⟨row, hrow, rfl⟩ := List.mem_map.1 hkey
  obtain ⟨hmem, hp⟩ := List.mem_filter.1 hrow
  refine dead_of_revoke ⟨row, hmem, rfl⟩ ?_
  intro old hold hsame hnone
  obtain rfl : old = row := List.inj_on_of_nodup_map h.unique hold hmem hsame
  rw [hp, hnone]
  rfl

theorem Rotating.next (h : Rotating sha256 s) (hrequest : s.requests n = some request)
    (hapart : Apart sha256 s (.next n reply)) : Rotating sha256 (s.next sha256 n request reply) := by
  unfold AuthState.next
  dsimp only
  cases hfails : reply.fails with
  | true => exact h.drop n
  | false =>
    obtain ⟨hfind, hending⟩ := hapart request hrequest hfails
    rw [if_neg Bool.false_ne_true]
    cases hphase : request.phase with
    | refreshFind token =>
      dsimp only
      cases hrow : s.usableRow ⟨request.realm, sha256 token⟩ reply.now with
      | none => exact h.drop n
      | some row => exact h.next_find hrow (hfind token hphase (by rw [hrow]; rfl))
    | refreshRevoke token row => exact h.next_revoke hrequest hphase
    | refreshIssue token row =>
      dsimp only
      cases hissue : s.issueRefreshToken sha256 request.realm row.ownerId row.userAgent row.ipAddress
          reply with
      | none => exact h.drop n
      | some s' =>
        obtain ⟨new, rfl, hnew⟩ := issue_eq_some hissue
        refine (h.issue hnew).exchange ?_
        rw [← hphase]
        exact hrequest
    | logoutFind token =>
      refine h.setRequest ?_
      intro r hr
      obtain rfl := Option.some.inj hr
      trivial
    | logoutRevoke token ownerId =>
      have hdead := h.dead_matched (fun row => row.key = ⟨request.realm, sha256 token⟩) reply.now
      have hrevoked := h.revoke (fun row => decide (row.key = ⟨request.realm, sha256 token⟩) &&
        row.revokedAt.isNone) reply.now
      cases ownerId with
      | some ownerId =>
        refine hrevoked.setRequest ?_
        intro r hr
        obtain rfl := Option.some.inj hr
        exact hdead
      | none =>
        refine hrevoked.completeLogout hdead ?_
        unfold endingKeys at hending
        rw [hphase] at hending
        exact hending
    | logoutAllRevoke ownerId =>
      refine (h.revoke _ reply.now).setRequest ?_
      intro r hr
      obtain rfl := Option.some.inj hr
      exact h.dead_matched (fun row => row.key.realm = request.realm && row.ownerId = ownerId) reply.now
    | logoutMark keys =>
      have hfits := h.fits n request hrequest
      unfold Fits at hfits
      unfold endingKeys at hending
      rw [hphase] at hfits hending
      exact h.completeLogout hfits hending

end Next

theorem authStep_rotating {a : AuthAction} (h : Rotating sha256 s) (hapart : Apart sha256 s a) :
    Rotating sha256 (authStep sha256 s a) := by
  cases a with
  | login realm ownerId userAgent ipAddress reply =>
    simp only [authStep]
    cases hissue : s.issueRefreshToken sha256 realm ownerId userAgent ipAddress reply with
    | none => exact h
    | some s' =>
      obtain ⟨new, rfl, hnew⟩ := issue_eq_some hissue
      exact h.issue hnew
  | setActive realm ownerId isActive =>
    exact h.congr _ s.nextRequest
  | refresh realm token =>
    simp only [authStep]
    split
    · exact h
    · exact h.start fun _ _ => trivial
  | logout realm token =>
    simp only [authStep]
    split
    · exact h
    · cases realm with
      | agent => exact h.start fun _ _ => trivial
      | platform => exact h.start fun _ _ => trivial
  | logoutAll agentId => exact h.start fun _ _ => trivial
  | next n reply =>
    simp only [authStep]
    cases hrequest : s.requests n with
    | none => exact h
    | some request => exact h.next hrequest hapart

/-! ## Runs -/

/-- No token was issued yet. -/
def AuthState.init (active : Realm → String → Bool) : AuthState :=
  ⟨[], active, fun _ => none, 0, [], []⟩

theorem init_rotating (active : Realm → String → Bool) : Rotating sha256 (AuthState.init active) := by
  constructor
  · exact List.nodup_nil
  · rintro _ _ ⟨⟩
  · rintro _ ⟨⟩
  · rintro _ ⟨⟩
  · exact List.nodup_nil
  · rintro _ ⟨⟩

theorem Rotating.singleUse (h : Rotating sha256 s) : SingleUse s := by
  refine ⟨?_, h.early⟩
  intro realm token
  have hnodup : ((s.exchanges.filter fun e => e.realm = realm && e.token = token).map
      (·.key sha256)).Nodup :=
    List.Nodup.sublist (List.Sublist.map _ List.filter_sublist) h.once
  have hsame : (s.exchanges.filter fun e => e.realm = realm && e.token = token).map (·.key sha256) =
      List.replicate (s.exchanges.filter fun e => e.realm = realm && e.token = token).length
        ⟨realm, sha256 token⟩ := by
    rw [List.eq_replicate_iff]
    refine ⟨List.length_map _, ?_⟩
    intro key hkey
    obtain ⟨e, he, rfl⟩ := List.mem_map.1 hkey
    have heq := (List.mem_filter.1 he).2
    simp only [Bool.and_eq_true, decide_eq_true_eq] at heq
    rw [Exchange.key, heq.1, heq.2]
  rw [hsame, List.nodup_replicate] at hnodup
  exact hnodup

/-- In every run of logins, refreshes, logouts and changes of accounts, in both services,
with any statement failing, whose steps stand apart: each token yields at most one new
token, and none after its logout. -/
theorem refresh_tokens_single_use (sha256 : String → String) (active : Realm → String → Bool)
    (actions : List AuthAction)
    (hrun : Along (authStep sha256) (Apart sha256) (AuthState.init active) actions)
    (pre post : List AuthAction) (hsplit : actions = pre ++ post) :
    SingleUse (pre.foldl (authStep sha256) (AuthState.init active)) := by
  rw [hsplit] at hrun
  have hrotating : Rotating sha256 (pre.foldl (authStep sha256) (AuthState.init active)) :=
    hrun.take.invariant (fun _ _ hok hinv => authStep_rotating hinv hok) (init_rotating active)
  exact hrotating.singleUse

theorem Dead.next {request : AuthRequest} {reply : AuthReply} (h : Dead s key) :
    Dead (s.next sha256 n request reply) key := by
  unfold AuthState.next
  dsimp only
  split
  · exact h
  · split
    · split <;> exact h
    · exact h.revoke _ reply.now
    · split
      · exact h
      · next hissue =>
        obtain ⟨new, rfl, hnew⟩ := issue_eq_some hissue
        exact h.append hnew
    · exact h
    · split <;> exact h.revoke _ reply.now
    · exact h.revoke _ reply.now
    · exact h

theorem Dead.step (h : Dead s key) (a : AuthAction) : Dead (authStep sha256 s a) key := by
  unfold authStep
  split
  · next realm ownerId userAgent ipAddress reply =>
    cases hissue : s.issueRefreshToken sha256 realm ownerId userAgent ipAddress reply with
    | none => exact h
    | some s' =>
      obtain ⟨new, rfl, hnew⟩ := issue_eq_some hissue
      exact h.append hnew
  · exact h
  · split <;> exact h
  · split
    · exact h
    · split <;> exact h
  · exact h
  · split
    · exact h
    · exact h.next

/-- However requests interleave from then on, a revoked token is refused. -/
theorem revoked_token_refused (sha256 : String → String) (s : AuthState) (key : TokenKey)
    (actions : List AuthAction) (now : Time) (h : Dead s key) :
    (actions.foldl (authStep sha256) s).usableRow key now = none := by
  have hdead : Dead (actions.foldl (authStep sha256) s) key :=
    List.foldlRecOn (motive := (Dead · key)) actions _ h fun _ h a _ => h.step a
  exact hdead.not_usable

/-! ## Two holders of one token -/

def exHash (value : String) : String := "#" ++ value

def exAllActive (_ : Realm) (_ : String) : Bool := true

def exReply (value : String) : AuthReply := ⟨false, value, 0⟩

def exLogin (realm : Realm) : AuthAction := .login realm "o" none none (exReply "a")

/-- One refresh from its start to its end, then a second one that finds the token revoked. -/
def exRotation : List AuthAction :=
  [exLogin .agent, .refresh .agent "a", .next 0 (exReply ""), .next 0 (exReply ""), .next 0 (exReply "b"),
    .refresh .agent "a", .next 1 (exReply "")]

/-- The state before a step of the run. -/
def exAt (n : Nat) : AuthState :=
  (exRotation.take n).foldl (authStep exHash) (AuthState.init exAllActive)

/-- A step of a request that neither passes the check nor ends a logout. -/
theorem apart_next {reply : AuthReply} {request : AuthRequest} (hrequest : s.requests n = some request)
    (hfind : ∀ token, request.phase = .refreshFind token →
      s.usableRow ⟨request.realm, sha256 token⟩ reply.now = none)
    (hending : endingKeys sha256 s request = []) : Apart sha256 s (.next n reply) := by
  intro r hr _
  obtain rfl : r = request := Option.some.inj (hr.symm.trans hrequest)
  refine ⟨?_, ?_⟩
  · intro token hphase hsome
    rw [hfind token hphase] at hsome
    cases hsome
  · intro key hkey
    rw [hending] at hkey
    cases hkey

def exRow : TokenRow := ⟨⟨.agent, "#a"⟩, "o", refreshTokenTtlMs, none, none, none⟩

theorem exRotation_apart :
    Along (authStep exHash) (Apart exHash) (AuthState.init exAllActive) exRotation := by
  -- the first refresh is the only request when it passes the check
  have hfirst : Apart exHash (exAt 2) (.next 0 (exReply "")) := by
    intro request hrequest _
    have hsole : (exAt 2).requests = fun m => if m = 0 then some ⟨.agent, .refreshFind "a"⟩ else none := rfl
    rw [hsole] at hrequest
    obtain rfl := Option.some.inj hrequest
    refine ⟨?_, nofun⟩
    intro token _ _ m other hother
    rw [hsole] at hother
    dsimp only at hother
    split at hother
    · obtain rfl := Option.some.inj hother
      rfl
    · cases hother
  have hrevoke : Apart exHash (exAt 3) (.next 0 (exReply "")) :=
    @apart_next _ _ _ _ ⟨.agent, .refreshRevoke "a" exRow⟩ (by decide) nofun rfl
  have hissue : Apart exHash (exAt 4) (.next 0 (exReply "b")) :=
    @apart_next _ _ _ _ ⟨.agent, .refreshIssue "a" exRow⟩ (by decide) nofun rfl
  have hsecond : Apart exHash (exAt 6) (.next 1 (exReply "")) := by
    refine @apart_next _ _ _ _ ⟨.agent, .refreshFind "a"⟩ (by decide) ?_ rfl
    intro token htoken
    obtain rfl : "a" = token := by simpa using htoken
    decide
  exact along_cons.2 ⟨trivial, along_cons.2 ⟨trivial, along_cons.2 ⟨hfirst, along_cons.2 ⟨hrevoke,
    along_cons.2 ⟨hissue, along_cons.2 ⟨trivial, along_cons.2 ⟨hsecond, along_nil⟩⟩⟩⟩⟩⟩⟩

/-- The token is exchanged once, and the second refresh gets nothing. -/
theorem refresh_tokens_single_use_rotation :
    (exAt 7).exchanges = [⟨.agent, "a", "b", false⟩] ∧ SingleUse (exAt 7) :=
  ⟨by decide, refresh_tokens_single_use exHash exAllActive exRotation exRotation_apart exRotation []
    (List.append_nil _).symm⟩

theorem revoked_token_refused_rotation :
    ([exLogin .agent, .refresh .agent "a", .next 0 (exReply "b")].foldl (authStep exHash)
      (exAt 4)).usableRow ⟨.agent, "#a"⟩ 0 = none :=
  revoked_token_refused exHash (exAt 4) ⟨.agent, "#a"⟩ _ 0 (by unfold Dead; decide)

/-- Two refreshes of one token read the row before either has revoked it. -/
def exReplay (realm : Realm) : List AuthAction :=
  [exLogin realm, .refresh realm "a", .refresh realm "a", .next 0 (exReply ""), .next 1 (exReply ""),
    .next 0 (exReply ""), .next 1 (exReply ""), .next 0 (exReply "b"), .next 1 (exReply "c")]

/-- Both get a new token, in either service. -/
theorem two_refreshes_issue_twice :
    ¬ SingleUse ((exReplay .agent).foldl (authStep exHash) (AuthState.init exAllActive)) ∧
      ¬ SingleUse ((exReplay .platform).foldl (authStep exHash) (AuthState.init exAllActive)) := by
  refine ⟨?_, ?_⟩
  · intro h
    exact absurd (h.1 .agent "a") (by decide)
  · intro h
    exact absurd (h.1 .platform "a") (by decide)

/- A refresh that has revoked its token before `logoutAll` issues another one behind it. -/
example :
    ¬ SingleUse ([exLogin .agent, .refresh .agent "a", .next 0 (exReply ""), .next 0 (exReply ""),
      .logoutAll "o", .next 1 (exReply ""), .next 1 (exReply ""), .next 0 (exReply "b")].foldl
      (authStep exHash) (AuthState.init exAllActive)) := by
  intro h
  have hearly := h.2 ⟨.agent, "a", "b", true⟩ (by decide)
  cases hearly

end KasterCti.Auth
