import KasterCti.Calls.SessionEngine
import Mathlib.Data.List.Nodup

/-!
# Exactly-once application on the live path

Calls of `processNormalizedEvent` that are not replays, interleaved at their awaits:
`SET NX`, the raw insert, the release of the key and the state change are steps of
their own, and any of the first three may fail. A call that is not interrupted does
what `processNormalizedEvent` does (`runCall_world`).

The raw row is unique in tenant and fingerprint, the Redis key is that of the
fingerprint alone.

Results:
1. `LiveInv.step`: a raw row stands for the one call that goes on to the state change,
   a key for a call under way, a stored row or a lost release.
2. `live_path_applies_once`: so no two calls change the state for one tenant and
   fingerprint, and an event that was not stored can still be applied.
3. `two_tenants_apply`: two tenants' events of one fingerprint may both be applied.
-/

namespace KasterCti.Calls

open JsText

/-! ## The state change leaves the dedupe stores alone -/

/-- The raw rows and the dedupe keys. -/
def World.dedupeStores (w : World) : List (String × String) × List (String × Time) :=
  (w.rawAmiEvents, w.dedupeKeys)

theorem trackLeg_dedupeStores (w : World) (event : AmiEvent) (key : CallKey) (now : Time) :
    (trackLeg w event key now).dedupeStores = w.dedupeStores := by
  unfold trackLeg
  split <;> rfl

theorem takeOriginate_dedupeStores (w : World) (event : AmiEvent) (now : Time) :
    (w.takeOriginate event now).2.dedupeStores = w.dedupeStores := by
  unfold World.takeOriginate
  split
  · unfold consumePendingOriginateForNewChannel
    dsimp only
    split
    · rfl
    · split <;> rfl
  · rfl

theorem commit_dedupeStores (w : World) (key : CallKey) (write : Option RowWrite) :
    (w.commit key write).dedupeStores = w.dedupeStores := by
  cases write with
  | none => rfl
  | some write => rfl

theorem transition_dedupeStores (w : World) (env : Env) (event : AmiEvent) (key : CallKey)
    (now : Time) : (w.transition env event key now).dedupeStores = w.dedupeStores := by
  have hcommit := (commit_dedupeStores (w.takeOriginate event now).2 key
    (eventWrite env event (w.takeOriginate event now).1 now
      ((w.takeOriginate event now).2.sessions key))).trans (takeOriginate_dedupeStores w event now)
  unfold World.transition
  dsimp only
  split
  · exact hcommit
  · exact hcommit

theorem closeTransfer_dedupeStores (w : World) (key : CallKey) (type : TransferType)
    (result : TransferResult) (now : Time) :
    (w.closeTransfer key type result now).dedupeStores = w.dedupeStores := by
  unfold World.closeTransfer
  split <;> rfl

theorem completeTransfer_dedupeStores (w : World) (event : AmiEvent) (key : CallKey)
    (type : TransferType) (now : Time) :
    (completeTransfer w event key type now).dedupeStores = w.dedupeStores := by
  unfold completeTransfer
  dsimp only
  rw [closeTransfer_dedupeStores]
  split <;> rfl

theorem detectTransfer_dedupeStores (w : World) (event : AmiEvent) (now : Time) :
    (w.detectTransfer event now).dedupeStores = w.dedupeStores := by
  unfold World.detectTransfer
  split
  · rename_i htransfer
    unfold handle
    split
    · rfl
    · cases hname : event.eventName with
      | blindTransfer => exact completeTransfer_dedupeStores _ _ _ _ _
      | attendedTransfer => exact completeTransfer_dedupeStores _ _ _ _ _
      | _ => simp [hname] at htransfer
  · rfl

theorem applyEvent_dedupeStores (w : World) (env : Env) (call : EngineCall) (key : CallKey) :
    (w.applyEvent env call key).2.dedupeStores = w.dedupeStores := by
  have htrack : (if call.faults.trackLeg then trackLeg w call.event key call.now
      else w).dedupeStores = w.dedupeStores := by
    split
    · exact trackLeg_dedupeStores w call.event key call.now
    · rfl
  unfold World.applyEvent
  dsimp only
  split
  · rw [detectTransfer_dedupeStores, transition_dedupeStores]
    exact htrack
  · exact htrack

/-! ## Calls in steps -/

/-- A call of the live path. -/
structure LiveCall where
  event : AmiEvent
  now : Time
  faults : Faults := {}
deriving DecidableEq

namespace LiveCall

def toEngineCall (call : LiveCall) : EngineCall :=
  { event := call.event, now := call.now, faults := call.faults }

def fingerprint (env : Env) (call : LiveCall) : String :=
  computeFingerprint env call.event call.now

/-- The unique pair of the raw row. -/
def row (env : Env) (call : LiveCall) : String × String :=
  (call.event.tenantId, call.fingerprint env)

end LiveCall

/-- Where a call that is under way stands. -/
inductive LiveStage
  | insert (owned : Bool)
  | release
  | apply
deriving DecidableEq

structure LiveState where
  world : World
  /-- The calls under way, numbered. -/
  flights : List (Nat × LiveCall × LiveStage)
  calls : Nat
  /-- The calls that went on to the state change, with their raw rows. -/
  applied : List (Nat × (String × String))
  /-- The fingerprints of keys that could not be released. -/
  lost : List String

def LiveState.init : LiveState := ⟨World.empty, [], 0, [], []⟩

inductive LiveAction
  | start (call : LiveCall)
  | go (number : Nat)
deriving DecidableEq

namespace LiveState

def land (s : LiveState) (number : Nat) : LiveState :=
  { s with flights := s.flights.filter (fun flight => flight.1 ≠ number) }

/-- The call goes on to a stage. -/
def goOn (s : LiveState) (number : Nat) (call : LiveCall) (stage : LiveStage) : LiveState :=
  { s with flights := (s.land number).flights ++ [(number, call, stage)] }

/-- The call begins, up to the answer of `SET NX`. -/
def start (env : Env) (s : LiveState) (call : LiveCall) : LiveState :=
  let number := s.calls
  let s := { s with calls := number + 1 }
  if !truthy call.event.linkedid then s
  else
    match s.world.redisDedupe call.toEngineCall (call.fingerprint env) with
    | (false, _, w) => { s with world := w }
    | (true, owned, w) => { s with world := w }.goOn number call (.insert owned)

/-- The answer of the raw insert. -/
def insert (env : Env) (s : LiveState) (number : Nat) (call : LiveCall) (owned : Bool) : LiveState :=
  if !call.faults.rawInsert then
    if owned then s.goOn number call .release else s.land number
  else if call.row env ∈ s.world.rawAmiEvents then s.land number
  else
    { s with world := { s.world with rawAmiEvents := call.row env :: s.world.rawAmiEvents } }.goOn
      number call .apply

/-- The key is released, or that fails. -/
def release (env : Env) (s : LiveState) (number : Nat) (call : LiveCall) : LiveState :=
  { s with
    world := s.world.releaseDedupeKey (call.fingerprint env) true call.faults.keyRelease
    lost := if call.faults.keyRelease then s.lost else call.fingerprint env :: s.lost }.land number

/-- The state change. -/
def apply (env : Env) (s : LiveState) (number : Nat) (call : LiveCall) : LiveState :=
  { s with
    world := (s.world.applyEvent env call.toEngineCall call.toEngineCall.key).2
    applied := s.applied ++ [(number, call.row env)] }.land number

def step (env : Env) (s : LiveState) : LiveAction → LiveState
  | .start call => s.start env call
  | .go number =>
    match s.flights.lookup number with
    | some (call, .insert owned) => s.insert env number call owned
    | some (call, .release) => s.release env number call
    | some (call, .apply) => s.apply env number call
    | none => s

/-- The call begins and runs to its end without another in between. -/
def runCall (env : Env) (s : LiveState) (call : LiveCall) : LiveState :=
  [.go s.calls, .go s.calls].foldl (step env) (s.start env call)

end LiveState

/-! ## Calls under way -/

namespace LiveState

variable {env : Env} {s : LiveState} {number : Nat} {call : LiveCall} {stage : LiveStage}

theorem lookup_of_no_flight {flights : List (Nat × LiveCall × LiveStage)}
    (h : ∀ flight ∈ flights, flight.1 ≠ number) : flights.lookup number = none := by
  rw [List.lookup_eq_none_iff]
  intro flight hflight
  exact bne_iff_ne.mpr (h flight hflight).symm

theorem ne_of_mem_land {flight : Nat × LiveCall × LiveStage}
    (h : flight ∈ (s.land number).flights) : flight.1 ≠ number := by
  simpa using (List.mem_filter.mp h).2

theorem lookup_goOn (s : LiveState) (number : Nat) (call : LiveCall) (stage : LiveStage) :
    (s.goOn number call stage).flights.lookup number = some (call, stage) := by
  show ((s.land number).flights ++ [(number, call, stage)]).lookup number = _
  rw [List.lookup_append, lookup_of_no_flight (fun _ h => ne_of_mem_land h)]
  simp

theorem step_goOn (s : LiveState) (number : Nat) (call : LiveCall) (stage : LiveStage) :
    (s.goOn number call stage).step env (.go number) =
      match stage with
      | .insert owned => (s.goOn number call stage).insert env number call owned
      | .release => (s.goOn number call stage).release env number call
      | .apply => (s.goOn number call stage).apply env number call := by
  rw [step, lookup_goOn]
  cases stage <;> rfl

theorem step_of_no_flight (h : ∀ flight ∈ s.flights, flight.1 ≠ number) :
    s.step env (.go number) = s := by
  rw [step, lookup_of_no_flight h]

theorem step_land (s : LiveState) (number : Nat) :
    (s.land number).step env (.go number) = s.land number :=
  step_of_no_flight (fun _ h => ne_of_mem_land h)

theorem insert_of_new {owned : Bool} (hinsert : call.faults.rawInsert = true)
    (hnew : call.row env ∉ s.world.rawAmiEvents) :
    s.insert env number call owned =
      { s with world := { s.world with rawAmiEvents := call.row env :: s.world.rawAmiEvents } }.goOn
        number call .apply := by
  have hok : ¬ (!call.faults.rawInsert) = true := by rw [hinsert]; exact Bool.false_ne_true
  unfold insert
  rw [if_neg hok, if_neg hnew]

/-- A call that is not interrupted is a call of `processNormalizedEvent`. -/
theorem runCall_world (hfresh : ∀ flight ∈ s.flights, flight.1 ≠ s.calls) :
    (s.runCall env call).world = (processNormalizedEvent env s.world call.toEngineCall).2 := by
  have hstay : ∀ t : LiveState, t.flights = s.flights →
      [LiveAction.go s.calls, .go s.calls].foldl (step env) t = t := by
    intro t ht
    have hnone : t.step env (.go s.calls) = t := step_of_no_flight (by rw [ht]; exact hfresh)
    rw [List.foldl_cons, hnone, List.foldl_cons, hnone, List.foldl_nil]
  unfold runCall start processNormalizedEvent
  dsimp only
  split
  · rename_i hlink
    have hskip : (!truthy call.toEngineCall.event.linkedid) = true := hlink
    rw [if_pos hskip, hstay { s with calls := s.calls + 1 } rfl]
  · rename_i hlink
    have hgo : ¬ (!truthy call.toEngineCall.event.linkedid) = true := hlink
    rw [if_neg hgo]
    have hprint : computeFingerprint env call.toEngineCall.event call.toEngineCall.now =
        call.fingerprint env := rfl
    rw [hprint]
    rcases s.world.redisDedupe call.toEngineCall (call.fingerprint env) with ⟨_ | _, owned, w⟩
    · exact congrArg world (hstay { s with world := w, calls := s.calls + 1 } rfl)
    · dsimp only
      rw [List.foldl_cons, step_goOn]
      dsimp only
      unfold insert
      split
      · rename_i hfail
        have hfail' : (!call.toEngineCall.faults.rawInsert) = true := hfail
        rw [if_pos hfail']
        split
        · rename_i howned
          rw [List.foldl_cons, step_goOn, List.foldl_nil, howned]
          rfl
        · rename_i howned
          rw [List.foldl_cons, step_land, List.foldl_nil, Bool.eq_false_iff.mpr howned]
          rfl
      · rename_i hok
        have hok' : ¬ (!call.toEngineCall.faults.rawInsert) = true := hok
        rw [if_neg hok']
        split
        · rename_i hdup
          have hdup' : (call.toEngineCall.event.tenantId, call.fingerprint env) ∈
            w.rawAmiEvents := hdup
          rw [List.foldl_cons, step_land, List.foldl_nil, if_pos hdup']
          rfl
        · rename_i hnew
          have hnew' : (call.toEngineCall.event.tenantId, call.fingerprint env) ∉
            w.rawAmiEvents := hnew
          rw [List.foldl_cons, step_goOn, List.foldl_nil, if_neg hnew']
          rfl

end LiveState

/-! ## The invariant -/

/-- The row of a call that has stored it and has yet to change the state. -/
def storedRow (env : Env) : Nat × LiveCall × LiveStage → Option (String × String)
  | (_, call, .apply) => some (call.row env)
  | _ => none

/-- The fingerprint whose key a call under way will release. -/
def heldKey (env : Env) : Nat × LiveCall × LiveStage → Option String
  | (_, call, .insert true) => some (call.fingerprint env)
  | (_, call, .release) => some (call.fingerprint env)
  | _ => none

structure LiveInv (env : Env) (s : LiveState) : Prop where
  numbered : ∀ flight ∈ s.flights, flight.1 < s.calls
  flights : (s.flights.map Prod.fst).Nodup
  /-- A raw row stands for one call that changed the state or is about to. -/
  rows : (s.applied.map Prod.snd ++ s.flights.filterMap (storedRow env)).Perm s.world.rawAmiEvents
  unique : s.world.rawAmiEvents.Nodup
  /-- A key stands for a stored row, a lost release or a call that will release it. -/
  covered : ∀ key ∈ s.world.dedupeKeys, key.1 ∈ s.world.rawAmiEvents.map Prod.snd ∨
    key.1 ∈ s.lost ∨ key.1 ∈ s.flights.filterMap (heldKey env)

namespace LiveInv

variable {env : Env} {s : LiveState} {number : Nat} {call : LiveCall} {stage : LiveStage}

/-- The flight with a number, and the others. -/
theorem flights_perm (h : LiveInv env s) (hflight : (number, call, stage) ∈ s.flights) :
    s.flights.Perm ((number, call, stage) :: (s.land number).flights) := by
  have hnodup : s.flights.Nodup := h.flights.of_map
  have herase : s.flights.erase (number, call, stage) = (s.land number).flights := by
    rw [hnodup.erase_eq_filter]
    refine List.filter_congr (fun flight hmem => ?_)
    by_cases heq : flight = (number, call, stage)
    · simp [heq]
    · have hne : flight.1 ≠ number := fun hnumber =>
        heq (List.inj_on_of_nodup_map h.flights hmem hflight hnumber)
      simp [heq, hne]
  rw [← herase]
  exact List.perm_cons_erase hflight

theorem mem_of_lookup (hlookup : s.flights.lookup number = some (call, stage)) :
    (number, call, stage) ∈ s.flights := by
  obtain ⟨before, after, heq, _⟩ := List.lookup_eq_some_iff.mp hlookup
  rw [heq]
  exact List.mem_append_right _ List.mem_cons_self

/-- What a call in the air stands for, and what the others stand for. -/
theorem stored_perm (h : LiveInv env s) (hflight : (number, call, stage) ∈ s.flights) :
    (s.flights.filterMap (storedRow env)).Perm
      ((storedRow env (number, call, stage)).toList ++
        (s.land number).flights.filterMap (storedRow env)) := by
  refine ((h.flights_perm hflight).filterMap _).trans ?_
  cases hstored : storedRow env (number, call, stage) <;> simp [hstored]

theorem held_perm (h : LiveInv env s) (hflight : (number, call, stage) ∈ s.flights) :
    (s.flights.filterMap (heldKey env)).Perm
      ((heldKey env (number, call, stage)).toList ++
        (s.land number).flights.filterMap (heldKey env)) := by
  refine ((h.flights_perm hflight).filterMap _).trans ?_
  cases hheld : heldKey env (number, call, stage) <;> simp [hheld]

theorem land_numbered (h : LiveInv env s) : ∀ flight ∈ (s.land number).flights, flight.1 < s.calls :=
  fun flight hflight => h.numbered flight (List.mem_of_mem_filter hflight)

theorem land_flights (h : LiveInv env s) : ((s.land number).flights.map Prod.fst).Nodup :=
  h.flights.sublist (List.filter_sublist.map Prod.fst)

theorem goOn_flights (h : LiveInv env s) (call : LiveCall) (stage : LiveStage) :
    ((s.goOn number call stage).flights.map Prod.fst).Nodup := by
  show (((s.land number).flights ++ [(number, call, stage)]).map Prod.fst).Nodup
  rw [List.map_append, List.nodup_append]
  refine ⟨h.land_flights, List.nodup_singleton _, ?_⟩
  rintro key hkey _ hlast rfl
  obtain ⟨flight, hflight, rfl⟩ := List.mem_map.mp hkey
  exact LiveState.ne_of_mem_land hflight (List.mem_singleton.mp hlast)

theorem goOn_numbered (h : LiveInv env s) (hnumber : number < s.calls) (call : LiveCall)
    (stage : LiveStage) : ∀ flight ∈ (s.goOn number call stage).flights, flight.1 < s.calls := by
  intro flight hflight
  rcases List.mem_append.mp hflight with hold | hnew
  · exact h.land_numbered flight hold
  · rw [List.mem_singleton.mp hnew]
    exact hnumber

/-- The answers of `SET NX`: a failure, a key that is held, a key that is taken. -/
theorem redisDedupe_cases (w : World) (call : LiveCall) (fingerprint : String) :
    call.faults.redisSet = false ∧
        w.redisDedupe call.toEngineCall fingerprint = (true, false, w) ∨
      w.dedupeHeld fingerprint call.now = true ∧
        w.redisDedupe call.toEngineCall fingerprint = (false, false, w) ∨
      w.dedupeHeld fingerprint call.now = false ∧
        w.redisDedupe call.toEngineCall fingerprint = (true, true,
          { w with dedupeKeys := (fingerprint, call.now + dedupeTtlSeconds * 1000) ::
              w.dedupeKeys.filter fun p => p.1 ≠ fingerprint }) := by
  unfold World.redisDedupe
  have hlive : ¬ call.toEngineCall.replay = true := Bool.false_ne_true
  rw [if_neg hlive]
  split
  · rename_i hfail
    exact .inl ⟨by simpa [LiveCall.toEngineCall] using hfail, rfl⟩
  · split
    · rename_i hheld
      exact .inr (.inl ⟨hheld, rfl⟩)
    · rename_i hfree
      exact .inr (.inr ⟨Bool.eq_false_iff.mpr hfree, rfl⟩)

section Steps
variable (h : LiveInv env s)
include h

theorem later : LiveInv env { s with calls := s.calls + 1 } :=
  ⟨fun flight hflight => Nat.lt_succ_of_lt (h.numbered flight hflight), h.flights, h.rows, h.unique,
    h.covered⟩

/-- A call begins with a key of its own or without one. -/
theorem goOn_start (call : LiveCall) (owned : Bool) (keys : List (String × Time))
    (hkeys : ∀ key ∈ keys, key ∈ s.world.dedupeKeys ∨ owned = true ∧ key.1 = call.fingerprint env) :
    LiveInv env (LiveState.goOn
      { s with calls := s.calls + 1, world := { s.world with dedupeKeys := keys } }
      s.calls call (.insert owned)) := by
  have hland : (s.land s.calls).flights = s.flights := by
    refine List.filter_eq_self.mpr (fun flight hflight => ?_)
    simpa using Nat.ne_of_lt (h.numbered flight hflight)
  refine ⟨h.later.goOn_numbered (Nat.lt_succ_self _) call _, h.goOn_flights call _, ?_, h.unique, ?_⟩
  · have hnone : [(s.calls, call, LiveStage.insert owned)].filterMap (storedRow env) = [] := rfl
    show (s.applied.map Prod.snd ++ ((s.land s.calls).flights ++ [_]).filterMap
      (storedRow env)).Perm s.world.rawAmiEvents
    rw [hland, List.filterMap_append, hnone, List.append_nil]
    exact h.rows
  · intro key hkey
    show _ ∨ _ ∨ key.1 ∈ ((s.land s.calls).flights ++ [_]).filterMap (heldKey env)
    rw [hland, List.filterMap_append, List.mem_append]
    rcases hkeys key hkey with hold | ⟨rfl, hnew⟩
    · rcases h.covered key hold with hrow | hlost | hheld
      · exact .inl hrow
      · exact .inr (.inl hlost)
      · exact .inr (.inr (.inl hheld))
    · exact .inr (.inr (.inr (by simp [heldKey, hnew])))

theorem start (call : LiveCall) : LiveInv env (s.start env call) := by
  unfold LiveState.start
  dsimp only
  split
  · exact h.later
  · rcases redisDedupe_cases s.world call (call.fingerprint env) with ⟨_, hset⟩ | ⟨_, hset⟩ | ⟨_, hset⟩
    · rw [hset]
      exact h.goOn_start call false s.world.dedupeKeys (fun key hkey => .inl hkey)
    · rw [hset]
      exact h.later
    · rw [hset]
      refine h.goOn_start call true _ ?_
      intro key hkey
      rcases List.mem_cons.mp hkey with rfl | hold
      · exact .inr ⟨rfl, rfl⟩
      · exact .inl (List.mem_of_mem_filter hold)

/-- A call that holds no key and has stored no row ends. -/
theorem land (hflight : (number, call, stage) ∈ s.flights)
    (hstored : storedRow env (number, call, stage) = none)
    (hheld : ∀ fingerprint, heldKey env (number, call, stage) = some fingerprint →
      fingerprint ∈ s.world.rawAmiEvents.map Prod.snd ∨ fingerprint ∈ s.lost ∨
        ∀ key ∈ s.world.dedupeKeys, key.1 ≠ fingerprint) :
    LiveInv env (s.land number) := by
  refine ⟨h.land_numbered, h.land_flights, ?_, h.unique, ?_⟩
  · have hperm := h.stored_perm hflight
    rw [hstored, Option.toList_none, List.nil_append] at hperm
    exact (hperm.symm.append_left _).trans h.rows
  · intro key hkey
    rcases h.covered key hkey with hrow | hlost | hair
    · exact .inl hrow
    · exact .inr (.inl hlost)
    · rcases List.mem_append.mp ((h.held_perm hflight).mem_iff.mp hair) with hself | hother
      · rcases hheld key.1 (Option.mem_toList.mp hself) with hrow | hlost | hfree
        · exact .inl hrow
        · exact .inr (.inl hlost)
        · exact absurd rfl (hfree key hkey)
      · exact .inr (.inr hother)

theorem insert {owned : Bool} (hflight : (number, call, .insert owned) ∈ s.flights) :
    LiveInv env (s.insert env number call owned) := by
  have hnumber := h.numbered _ hflight
  have hstored := h.stored_perm hflight
  have hheld := h.held_perm hflight
  unfold LiveState.insert
  split
  · split
    · rename_i howned
      subst howned
      -- the call keeps its key until it is released
      refine ⟨h.goOn_numbered hnumber call _, h.goOn_flights call _, ?_, h.unique, ?_⟩
      · show (s.applied.map Prod.snd ++ ((s.land number).flights ++ [_]).filterMap
          (storedRow env)).Perm _
        rw [List.filterMap_append]
        simp only [storedRow, List.filterMap_cons, List.filterMap_nil, List.append_nil]
        exact (hstored.symm.append_left _).trans h.rows
      · intro key hkey
        rcases h.covered key hkey with hrow | hlost | hair
        · exact .inl hrow
        · exact .inr (.inl hlost)
        · refine .inr (.inr ?_)
          show key.1 ∈ ((s.land number).flights ++ [_]).filterMap (heldKey env)
          rw [List.filterMap_append, List.mem_append]
          rcases List.mem_append.mp (hheld.mem_iff.mp hair) with hself | hother
          · exact .inr (by simpa [heldKey] using hself)
          · exact .inl hother
    · rename_i howned
      refine h.land hflight rfl ?_
      intro fingerprint hsome
      rw [Bool.eq_false_iff.mpr howned] at hsome
      cases hsome
  · split
    · rename_i hdup
      refine h.land hflight rfl ?_
      intro fingerprint hsome
      refine .inl (List.mem_map.mpr ⟨call.row env, hdup, ?_⟩)
      cases owned with
      | true => exact Option.some.inj hsome
      | false => cases hsome
    · rename_i hnew
      refine ⟨h.goOn_numbered hnumber call _, h.goOn_flights call _, ?_,
        List.nodup_cons.mpr ⟨hnew, h.unique⟩, ?_⟩
      · show (s.applied.map Prod.snd ++ ((s.land number).flights ++ [_]).filterMap
          (storedRow env)).Perm (call.row env :: s.world.rawAmiEvents)
        rw [List.filterMap_append, ← List.append_assoc]
        refine (List.perm_append_singleton _ _).trans (List.Perm.cons _ ?_)
        exact (hstored.symm.append_left _).trans h.rows
      · intro key hkey
        rcases h.covered key hkey with hrow | hlost | hair
        · exact .inl (List.mem_cons_of_mem _ hrow)
        · exact .inr (.inl hlost)
        · rcases List.mem_append.mp (hheld.mem_iff.mp hair) with hself | hother
          · have hkeyEq : key.1 = call.fingerprint env := by
              cases owned with
              | true => simpa [heldKey] using hself
              | false => simp [heldKey] at hself
            exact .inl (by rw [hkeyEq]; exact List.mem_cons_self)
          · refine .inr (.inr ?_)
            show key.1 ∈ ((s.land number).flights ++ [_]).filterMap (heldKey env)
            rw [List.filterMap_append]
            exact List.mem_append_left _ hother

theorem release (hflight : (number, call, .release) ∈ s.flights) :
    LiveInv env (s.release env number call) := by
  unfold LiveState.release World.releaseDedupeKey
  cases hok : call.faults.keyRelease with
  | false =>
    have hlost : LiveInv env { s with lost := call.fingerprint env :: s.lost } := by
      refine ⟨h.numbered, h.flights, h.rows, h.unique, ?_⟩
      intro key hkey
      rcases h.covered key hkey with hrow | hlost | hair
      · exact .inl hrow
      · exact .inr (.inl (List.mem_cons_of_mem _ hlost))
      · exact .inr (.inr hair)
    refine hlost.land hflight rfl ?_
    intro fingerprint hsome
    obtain rfl := Option.some.inj hsome
    exact .inr (.inl List.mem_cons_self)
  | true =>
    have hfreed : LiveInv env { s with world := { s.world with
        dedupeKeys := s.world.dedupeKeys.filter fun p => p.1 ≠ call.fingerprint env } } :=
      ⟨h.numbered, h.flights, h.rows, h.unique,
        fun key hkey => h.covered key (List.mem_of_mem_filter hkey)⟩
    refine hfreed.land hflight rfl ?_
    intro fingerprint hsome
    obtain rfl := Option.some.inj hsome
    refine .inr (.inr (fun key hkey => ?_))
    simpa using (List.mem_filter.mp hkey).2

theorem apply (hflight : (number, call, .apply) ∈ s.flights) :
    LiveInv env (s.apply env number call) := by
  obtain ⟨hrows, hkeys⟩ := Prod.mk.inj
    (applyEvent_dedupeStores s.world env call.toEngineCall call.toEngineCall.key)
  refine ⟨h.land_numbered, h.land_flights, ?_, ?_, ?_⟩
  · show ((s.applied ++ [(number, call.row env)]).map Prod.snd ++
      (s.land number).flights.filterMap (storedRow env)).Perm _
    rw [List.map_append, List.append_assoc, show (s.apply env number call).world.rawAmiEvents =
      s.world.rawAmiEvents from hrows]
    exact ((h.stored_perm hflight).symm.append_left _).trans h.rows
  · show (s.world.applyEvent env _ _).2.rawAmiEvents.Nodup
    rw [hrows]
    exact h.unique
  · intro key hkey
    have hold : key ∈ s.world.dedupeKeys := hkeys ▸ hkey
    show key.1 ∈ (s.world.applyEvent env _ _).2.rawAmiEvents.map Prod.snd ∨ _ ∨ _
    rw [hrows]
    rcases h.covered key hold with hrow | hlost | hair
    · exact .inl hrow
    · exact .inr (.inl hlost)
    · exact .inr (.inr ((h.held_perm hflight).mem_iff.mp hair))

theorem step (a : LiveAction) : LiveInv env (s.step env a) := by
  cases a with
  | start call => exact h.start call
  | go number =>
    show LiveInv env (LiveState.step env s (.go number))
    unfold LiveState.step
    dsimp only
    split
    · rename_i hlookup
      exact h.insert (mem_of_lookup hlookup)
    · rename_i hlookup
      exact h.release (mem_of_lookup hlookup)
    · rename_i hlookup
      exact h.apply (mem_of_lookup hlookup)
    · exact h

end Steps

theorem run (env : Env) (actions : List LiveAction) :
    LiveInv env (actions.foldl (LiveState.step env) LiveState.init) := by
  have hrun : ∀ s : LiveState, LiveInv env s → LiveInv env (actions.foldl (LiveState.step env) s) := by
    induction actions with
    | nil => exact fun s h => h
    | cons a rest ih => exact fun s h => ih _ (h.step a)
  refine hrun _ ⟨?_, List.nodup_nil, List.Perm.refl _, List.nodup_nil, ?_⟩
  all_goals simp [LiveState.init, World.empty]

end LiveInv

/-! ## Runs -/

/-- The event could not be applied before: no call with its fingerprint is under way,
no key of it was lost, and no other tenant has stored the fingerprint. -/
structure Retriable (env : Env) (s : LiveState) (call : LiveCall) : Prop where
  linked : truthy call.event.linkedid = true
  faultless : call.faults = {}
  idle : ∀ flight ∈ s.flights, flight.2.1.fingerprint env ≠ call.fingerprint env
  kept : call.fingerprint env ∉ s.lost
  sole : ∀ row ∈ s.world.rawAmiEvents, row.2 = call.fingerprint env → row.1 = call.event.tenantId

/-- A free key and no row: the call goes through. -/
theorem runCall_applies {env : Env} {s : LiveState} {call : LiveCall}
    (hlinked : truthy call.event.linkedid = true) (hfaultless : call.faults = {})
    (hfree : s.world.dedupeHeld (call.fingerprint env) call.now = false)
    (hnew : call.row env ∉ s.world.rawAmiEvents) :
    (s.calls, call.row env) ∈ (s.runCall env call).applied := by
  have hlink : ¬ (!truthy call.event.linkedid) = true := by rw [hlinked]; exact Bool.false_ne_true
  have hset : s.world.redisDedupe call.toEngineCall (call.fingerprint env) = (true, true,
      { s.world with dedupeKeys := (call.fingerprint env, call.now + dedupeTtlSeconds * 1000) ::
          s.world.dedupeKeys.filter fun p => p.1 ≠ call.fingerprint env }) := by
    rcases LiveInv.redisDedupe_cases s.world call (call.fingerprint env) with
      ⟨h, _⟩ | ⟨h, _⟩ | ⟨_, h⟩
    · rw [hfaultless] at h
      cases h
    · rw [hfree] at h
      cases h
    · exact h
  have hinsert : call.faults.rawInsert = true := by rw [hfaultless]
  unfold LiveState.runCall LiveState.start
  dsimp only
  rw [if_neg hlink, hset, List.foldl_cons, LiveState.step_goOn]
  dsimp only
  rw [LiveState.insert_of_new hinsert, List.foldl_cons, LiveState.step_goOn, List.foldl_nil]
  · exact List.mem_append_right _ (List.mem_singleton_self _)
  · exact hnew

/-- A key that is held stands in the way only for a reason. -/
theorem free_of_retriable {env : Env} {s : LiveState} {call : LiveCall} (h : LiveInv env s)
    (hcall : Retriable env s call) (hrow : call.row env ∉ s.world.rawAmiEvents) :
    s.world.dedupeHeld (call.fingerprint env) call.now = false := by
  rw [World.dedupeHeld, List.any_eq_false]
  intro key hkey hheld
  rw [Bool.and_eq_true, decide_eq_true_eq] at hheld
  obtain ⟨hprint, _⟩ := hheld
  rcases h.covered key hkey with hstored | hlost | hair
  · obtain ⟨row, hmem, heq⟩ := List.mem_map.mp hstored
    have htenant := hcall.sole row hmem (heq.trans hprint)
    refine hrow ?_
    rw [LiveCall.row, ← htenant, ← hprint, ← heq]
    exact hmem
  · exact hcall.kept (hprint ▸ hlost)
  · obtain ⟨⟨number, other, stage⟩, hflight, hsome⟩ := List.mem_filterMap.mp hair
    refine hcall.idle _ hflight ?_
    rw [← hprint]
    cases stage with
    | apply => cases hsome
    | insert owned =>
      cases owned with
      | true => exact Option.some.inj hsome
      | false => cases hsome
    | release => exact Option.some.inj hsome

/-- A row that was stored belongs to a call that changed the state, when none with its
fingerprint is under way. -/
theorem applied_of_stored {env : Env} {s : LiveState} {call : LiveCall} (h : LiveInv env s)
    (hidle : ∀ flight ∈ s.flights, flight.2.1.fingerprint env ≠ call.fingerprint env)
    (hrow : call.row env ∈ s.world.rawAmiEvents) : call.row env ∈ s.applied.map Prod.snd := by
  rcases List.mem_append.mp (h.rows.mem_iff.mpr hrow) with happlied | hair
  · exact happlied
  · obtain ⟨⟨number, other, stage⟩, hflight, hstored⟩ := List.mem_filterMap.mp hair
    cases stage with
    | apply =>
      have hsame : other.row env = call.row env := Option.some.inj hstored
      rw [LiveCall.row, LiveCall.row, Prod.mk.injEq] at hsame
      have hother := hidle _ hflight
      exact absurd hsame.2 hother
    | insert owned => cases hstored
    | release => cases hstored

/-- In every interleaving of live calls with any failures: no two calls change the
state for one tenant and fingerprint, and an event that is not under way, not lost and
not stored by another tenant has been applied or is applied by a call without
failures. -/
theorem live_path_applies_once (env : Env) (actions : List LiveAction) :
    let s := actions.foldl (LiveState.step env) LiveState.init
    (s.applied.map Prod.snd).Nodup ∧
      ∀ call : LiveCall, Retriable env s call → call.row env ∈ s.applied.map Prod.snd ∨
        (s.calls, call.row env) ∈ (s.runCall env call).applied := by
  have h := LiveInv.run env actions
  generalize actions.foldl (LiveState.step env) LiveState.init = s at h
  refine ⟨(List.nodup_append.mp (h.rows.nodup_iff.mpr h.unique)).1, ?_⟩
  intro call hcall
  by_cases hrow : call.row env ∈ s.world.rawAmiEvents
  · exact .inl (applied_of_stored h hcall.idle hrow)
  · exact .inr (runCall_applies hcall.linked hcall.faultless (free_of_retriable h hcall hrow) hrow)

/-- A hangup of one call, for a tenant and with faults. -/
def exHangup (tenantId : String) (faults : Faults) : LiveCall :=
  { event := { eventName := .hangup, tenantId := tenantId, linkedid := some "17.1"
               uniqueid := some "17.1", eventTime := some 1000 }
    now := 1000
    faults := faults }

/-- The raw insert fails, the key is released and the event arrives again. -/
theorem live_path_applies_once_retry :
    let s := [LiveAction.start (exHangup "t1" { rawInsert := false }), .go 0, .go 0].foldl
      (LiveState.step exEnv) LiveState.init
    s.applied = [] ∧ (1, (exHangup "t1" {}).row exEnv) ∈ (s.runCall exEnv (exHangup "t1" {})).applied := by
  refine ⟨rfl, ?_⟩
  have hretriable : Retriable exEnv ([LiveAction.start (exHangup "t1" { rawInsert := false }), .go 0,
      .go 0].foldl (LiveState.step exEnv) LiveState.init) (exHangup "t1" {}) :=
    ⟨rfl, rfl, List.forall_mem_nil _, List.not_mem_nil, List.forall_mem_nil _⟩
  exact ((live_path_applies_once exEnv _).2 _ hretriable).resolve_left List.not_mem_nil

/-- Redis fails for the second tenant's call, and its raw row is another one: two calls
change the state for one fingerprint. -/
def exTwoTenants : List LiveAction :=
  [.start (exHangup "t1" {}), .go 0, .go 0, .start (exHangup "t2" { redisSet := false }), .go 1, .go 1]

theorem two_tenants_apply :
    ((exTwoTenants.foldl (LiveState.step exEnv) LiveState.init).applied.map
        (fun entry => (entry.1, entry.2.2))) =
      [(0, (exHangup "t1" {}).fingerprint exEnv), (1, (exHangup "t1" {}).fingerprint exEnv)] := by
  decide

end KasterCti.Calls
