import KasterCti.Library.Trace
import Mathlib.Data.List.Nodup

/-!
# Versions of a configuration

`ConfigSnapshotService.save` and `load` on any number of nodes that share one database and
one Redis, all of them reachable: the state of one tenant and configuration type, which
every layer keeps apart by its key. Calls are cut at their awaits and interleave in any
way; a snapshot passes its checksum, since only `save` writes one.

Results:
1. `versionStep_kept`: what every step keeps when a save starts only while no other one is
   under way, on a node whose memory is empty or up to date.
2. `versions_unique`: in a run of such steps no version is given twice, and Redis is left
   with the highest one.
3. `two_nodes_same_version`: without the condition two nodes give the same version.
-/

namespace KasterCti.Resilience

open Trace

/-- A snapshot, by its version and its payload. -/
structure VersionedConfig where
  version : Nat
  payload : String
deriving DecidableEq

/-- The await that a save is in. -/
inductive SavePhase
  | findingLatest (payload : String)
  | readingLocal (payload : String)
  | inserting (snapshot : VersionedConfig)
  /-- The insert is over, and `save` has not gone on. -/
  | inserted (snapshot : VersionedConfig)
  | settingRedis (snapshot : VersionedConfig)
  | writingTemp (snapshot : VersionedConfig)
  | movingTemp

/-- The await that a load is in. -/
inductive LoadPhase
  | gettingRedis
  | readingLkg
  /-- The answer of Redis or the file, before `load` goes on with it. -/
  | got (snapshot : VersionedConfig)

structure VersionState where
  /-- The table `configVersions`, unique in the version. -/
  rows : List VersionedConfig
  redis : Option VersionedConfig
  memory : Nat → Option VersionedConfig
  files : Nat → Option VersionedConfig
  /-- The temporary files. -/
  temps : Nat → Option VersionedConfig
  /-- The saves under way, with their nodes. -/
  saves : List (Nat × SavePhase)
  loads : List (Nat × LoadPhase)
  /-- The snapshots that were given a version. -/
  assigned : List VersionedConfig

inductive VersionAction
  | save (node : Nat) (payload : String)
  | load (node : Nat)
  | nextSave (save : Nat)
  | nextLoad (load : Nat)

namespace VersionState

/-- The first row by version, descending. -/
def latest (s : VersionState) : Option Nat := (s.rows.map (·.version)).max?

def setSave (s : VersionState) (n node : Nat) (phase : SavePhase) : VersionState :=
  { s with saves := s.saves.set n (node, phase) }

def endSave (s : VersionState) (n : Nat) : VersionState := { s with saves := s.saves.eraseIdx n }

def setLoad (s : VersionState) (n node : Nat) (phase : LoadPhase) : VersionState :=
  { s with loads := s.loads.set n (node, phase) }

def endLoad (s : VersionState) (n : Nat) : VersionState := { s with loads := s.loads.eraseIdx n }

/-- `resolveNextVersion` has answered. -/
def assign (s : VersionState) (version : Nat) (payload : String) : VersionState :=
  { s with assigned := ⟨version, payload⟩ :: s.assigned }

def remember (s : VersionState) (node : Nat) (snapshot : VersionedConfig) : VersionState :=
  { s with memory := Function.update s.memory node (some snapshot) }

/-- Where the memory of the node has a snapshot there is nothing to wait for. -/
def startSave (s : VersionState) (node : Nat) (payload : String) : VersionState :=
  match s.memory node with
  | some cached =>
    let version := cached.version + 1
    { s.assign version payload with saves := s.saves ++ [(node, .inserting ⟨version, payload⟩)] }
  | none => { s with saves := s.saves ++ [(node, .findingLatest payload)] }

def goOnSave (s : VersionState) (n node : Nat) : SavePhase → VersionState
  | .findingLatest payload =>
    match s.latest with
    | some (version + 1) =>
      (s.assign (version + 2) payload).setSave n node (.inserting ⟨version + 2, payload⟩)
    | _ => s.setSave n node (.readingLocal payload)
  | .readingLocal payload =>
    let version := ((s.files node).map (·.version)).getD 0 + 1
    (s.assign version payload).setSave n node (.inserting ⟨version, payload⟩)
  -- a duplicate version is refused, and the error only logged
  | .inserting snapshot =>
    if s.rows.any (·.version = snapshot.version) then s.setSave n node (.inserted snapshot)
    else { s with rows := snapshot :: s.rows }.setSave n node (.inserted snapshot)
  | .inserted snapshot => (s.remember node snapshot).setSave n node (.settingRedis snapshot)
  | .settingRedis snapshot =>
    { s with redis := some snapshot }.setSave n node (.writingTemp snapshot)
  | .writingTemp snapshot =>
    { s with temps := Function.update s.temps node (some snapshot) }.setSave n node .movingTemp
  -- without the temporary file the rename throws
  | .movingTemp =>
    match s.temps node with
    | some snapshot =>
      { s with
        files := Function.update s.files node (some snapshot)
        temps := Function.update s.temps node none }.endSave n
    | none => s.endSave n

def goOnLoad (s : VersionState) (n node : Nat) : LoadPhase → VersionState
  | .gettingRedis =>
    match s.redis with
    | some snapshot => s.setLoad n node (.got snapshot)
    | none => s.setLoad n node .readingLkg
  | .readingLkg =>
    match s.files node with
    | some snapshot => s.setLoad n node (.got snapshot)
    | none => s.endLoad n
  | .got snapshot => (s.remember node snapshot).endLoad n

end VersionState

/-- One step; a label that fits nothing changes nothing. -/
def versionStep (s : VersionState) : VersionAction → VersionState
  | .save node payload => s.startSave node payload
  | .load node =>
    if (s.memory node).isSome then s else { s with loads := s.loads ++ [(node, .gettingRedis)] }
  | .nextSave n =>
    match s.saves[n]? with
    | some (node, phase) => s.goOnSave n node phase
    | none => s
  | .nextLoad n =>
    match s.loads[n]? with
    | some (node, phase) => s.goOnLoad n node phase
    | none => s

/-- Nothing was saved yet. -/
def noVersions : VersionState := ⟨[], none, fun _ => none, fun _ => none, fun _ => none, [], [], []⟩

/-! ## The property and its condition -/

/-- No version was given twice, and where no save is under way Redis has the snapshot with
the highest version. -/
structure VersionsUnique (s : VersionState) : Prop where
  unique : (s.assigned.map (·.version)).Nodup
  highest : s.saves = [] → s.assigned ≠ [] →
    ∃ snapshot ∈ s.assigned, s.redis = some snapshot ∧
      ∀ other ∈ s.assigned, other.version ≤ snapshot.version

/-- A save starts only while no other one is under way, and the memory of its node is empty
or has the highest version of the table. -/
def Serial (s : VersionState) : VersionAction → Prop
  | .save node _ => s.saves = [] ∧
      ∀ cached, s.memory node = some cached → ∀ row ∈ s.rows, row.version ≤ cached.version
  | _ => True

/-! ## The invariant -/

/-- Redis has the highest version of the table. -/
def RedisHighest (s : VersionState) : Prop :=
  s.rows ≠ [] → ∃ snapshot, s.redis = some snapshot ∧ ∀ row ∈ s.rows, row.version ≤ snapshot.version

/-- The table has what was given a version. -/
def Recorded (s : VersionState) : Prop := ∀ snapshot, snapshot ∈ s.assigned ↔ snapshot ∈ s.rows

/-- What holds while a save is in the await. -/
def SavePhase.Fits (s : VersionState) : SavePhase → Prop
  | .findingLatest _ => Recorded s ∧ RedisHighest s
  | .readingLocal _ => s.rows = [] ∧ s.assigned = []
  | .inserting snapshot =>
    (∀ other, other ∈ s.assigned ↔ other = snapshot ∨ other ∈ s.rows) ∧ 0 < snapshot.version ∧
      ∀ row ∈ s.rows, row.version < snapshot.version
  | .inserted snapshot | .settingRedis snapshot =>
    Recorded s ∧ snapshot ∈ s.rows ∧ ∀ row ∈ s.rows, row.version ≤ snapshot.version
  | .writingTemp snapshot => Recorded s ∧ RedisHighest s ∧ snapshot ∈ s.rows
  | .movingTemp => Recorded s ∧ RedisHighest s

structure VersionsKept (s : VersionState) : Prop where
  alone : s.saves.length ≤ 1
  unique : (s.assigned.map (·.version)).Nodup
  positive : ∀ row ∈ s.rows, 0 < row.version
  redis : ∀ snapshot, s.redis = some snapshot → snapshot ∈ s.rows
  memory : ∀ node snapshot, s.memory node = some snapshot → snapshot ∈ s.rows
  files : ∀ node snapshot, s.files node = some snapshot → snapshot ∈ s.rows
  temps : ∀ node snapshot, s.temps node = some snapshot → snapshot ∈ s.rows
  got : ∀ node snapshot, (node, .got snapshot) ∈ s.loads → snapshot ∈ s.rows
  idle : s.saves = [] → Recorded s ∧ RedisHighest s
  busy : ∀ node phase, s.saves = [(node, phase)] → phase.Fits s

section Steps

variable {s : VersionState} {node : Nat} {phase : SavePhase}

/-- What a node keeps, after a write of one node. -/
theorem update_rows {rows : List VersionedConfig} {kept : Nat → Option VersionedConfig}
    {new : Option VersionedConfig} (hkept : ∀ m x, kept m = some x → x ∈ rows)
    (hnew : ∀ x, new = some x → x ∈ rows) :
    ∀ m x, Function.update kept node new m = some x → x ∈ rows := by
  intro m x hx
  rcases eq_or_ne m node with rfl | hne
  · rw [Function.update_self] at hx
    exact hnew x hx
  · rw [Function.update_of_ne hne] at hx
    exact hkept m x hx

section Steps
variable (h : VersionsKept s)
include h

/-- The one save under way goes on to its next await. -/
theorem VersionsKept.goOn (hsaves : s.saves = [(node, phase)]) {phase' : SavePhase}
    (hfits : phase'.Fits s) : VersionsKept (s.setSave 0 node phase') := by
  have hset : (s.setSave 0 node phase').saves = [(node, phase')] := by
    rw [VersionState.setSave, hsaves]
    rfl
  refine ⟨by rw [hset]; exact Nat.le_refl 1, h.unique, h.positive, h.redis, h.memory, h.files,
    h.temps, h.got, ?_, ?_⟩
  · rw [hset]
    exact nofun
  · intro node' phase'' hsaves'
    rw [hset] at hsaves'
    cases hsaves'
    exact hfits

/-- A version above those of the table is given. -/
theorem VersionsKept.assign {version : Nat} (payload : String) (hrecorded : Recorded s)
    (hpos : 0 < version) (habove : ∀ row ∈ s.rows, row.version < version) :
    ((s.assign version payload).assigned.map (·.version)).Nodup ∧
      (SavePhase.inserting ⟨version, payload⟩).Fits (s.assign version payload) := by
  refine ⟨List.nodup_cons.mpr ⟨?_, h.unique⟩, fun other => ?_, hpos, habove⟩
  · intro hmem
    obtain ⟨other, hother, hsame⟩ := List.mem_map.mp hmem
    have hless := habove other ((hrecorded other).mp hother)
    exact absurd hsame (Nat.ne_of_lt hless)
  · rw [VersionState.assign, List.mem_cons, hrecorded other]

theorem VersionsKept.assigned {version : Nat} {payload : String}
    (hsaves : s.saves = [(node, phase)])
    (hassign : ((s.assign version payload).assigned.map (·.version)).Nodup ∧
      (SavePhase.inserting ⟨version, payload⟩).Fits (s.assign version payload)) :
    VersionsKept ((s.assign version payload).setSave 0 node (.inserting ⟨version, payload⟩)) := by
  have hset : ((s.assign version payload).setSave 0 node
      (.inserting ⟨version, payload⟩)).saves = [(node, .inserting ⟨version, payload⟩)] := by
    rw [VersionState.setSave, VersionState.assign, hsaves]
    rfl
  refine ⟨by rw [hset]; exact Nat.le_refl 1, hassign.1, h.positive, h.redis, h.memory, h.files,
    h.temps, h.got, ?_, ?_⟩
  · rw [hset]
    exact nofun
  · intro node' phase' hsaves'
    rw [hset] at hsaves'
    cases hsaves'
    exact hassign.2

theorem kept_startSave (payload : String) (hserial : Serial s (.save node payload)) :
    VersionsKept (s.startSave node payload) := by
  obtain ⟨hidle, hcached⟩ := hserial
  obtain ⟨hrecorded, hredis⟩ := h.idle hidle
  unfold VersionState.startSave
  split
  · next cached hmemory =>
    have hassign := h.assign payload hrecorded (Nat.succ_pos cached.version)
      fun row hrow => Nat.lt_succ_of_le (hcached cached hmemory row hrow)
    dsimp only
    rw [hidle]
    refine ⟨Nat.le_refl 1, hassign.1, h.positive, h.redis, h.memory, h.files, h.temps, h.got, nofun,
      ?_⟩
    intro node' phase hsaves
    cases hsaves
    exact hassign.2
  · rw [hidle]
    refine ⟨Nat.le_refl 1, h.unique, h.positive, h.redis, h.memory, h.files, h.temps, h.got, nofun,
      ?_⟩
    intro node' phase hsaves
    cases hsaves
    exact ⟨hrecorded, hredis⟩

theorem kept_goOnSave (hsaves : s.saves = [(node, phase)]) :
    VersionsKept (s.goOnSave 0 node phase) := by
  have hfits := h.busy node phase hsaves
  cases phase with
  | findingLatest payload =>
    obtain ⟨hrecorded, hredis⟩ := hfits
    unfold VersionState.goOnSave
    dsimp only
    split
    · next version hlatest =>
      have hmax := (List.max?_eq_some_iff.mp hlatest).2
      refine h.assigned hsaves (h.assign payload hrecorded (Nat.succ_pos _) fun row hrow => ?_)
      exact Nat.lt_succ_of_le (hmax row.version (List.mem_map_of_mem hrow))
    · next hlatest =>
      have hrows : s.rows = [] := by
        cases hmax : s.latest with
        | none => exact List.map_eq_nil_iff.mp (List.max?_eq_none_iff.mp hmax)
        | some version =>
          obtain ⟨row, hrow, hversion⟩ := List.mem_map.mp (List.max?_eq_some_iff.mp hmax).1
          have hpos := h.positive row hrow
          cases version with
          | zero => exact absurd hversion (Nat.ne_of_gt hpos)
          | succ version => exact absurd hmax (hlatest version)
      refine h.goOn hsaves ⟨hrows, ?_⟩
      refine List.eq_nil_iff_forall_not_mem.mpr fun snapshot hin => ?_
      have hrow := (hrecorded snapshot).mp hin
      rw [hrows] at hrow
      cases hrow
  | readingLocal payload =>
    obtain ⟨hrows, hassigned⟩ := hfits
    have hrecorded : Recorded s := by
      intro snapshot
      rw [hrows, hassigned]
    refine h.assigned hsaves (h.assign payload hrecorded (Nat.succ_pos _) fun row hrow => ?_)
    rw [hrows] at hrow
    cases hrow
  | inserting snapshot =>
    obtain ⟨hassigned, hpos, habove⟩ := hfits
    unfold VersionState.goOnSave
    dsimp only
    split
    · next hduplicate =>
      obtain ⟨row, hrow, hsame⟩ := List.any_eq_true.mp hduplicate
      exact absurd (of_decide_eq_true hsame) (Nat.ne_of_lt (habove row hrow))
    · have hset : ({ s with rows := snapshot :: s.rows }.setSave 0 node (.inserted snapshot)).saves =
          [(node, .inserted snapshot)] := by
        rw [VersionState.setSave, hsaves]
        rfl
      have hkeep {other : VersionedConfig} (hother : other ∈ s.rows) : other ∈ snapshot :: s.rows :=
        List.mem_cons_of_mem _ hother
      refine ⟨by rw [hset]; exact Nat.le_refl 1, h.unique, ?_, fun x hx => hkeep (h.redis x hx),
        fun m x hx => hkeep (h.memory m x hx), fun m x hx => hkeep (h.files m x hx),
        fun m x hx => hkeep (h.temps m x hx), fun m x hx => hkeep (h.got m x hx), ?_, ?_⟩
      · exact List.forall_mem_cons.mpr ⟨hpos, h.positive⟩
      · rw [hset]
        exact nofun
      · intro node' phase' hsaves'
        rw [hset] at hsaves'
        cases hsaves'
        refine ⟨fun other => (hassigned other).trans List.mem_cons.symm, List.mem_cons_self, ?_⟩
        exact List.forall_mem_cons.mpr ⟨Nat.le_refl _, fun row hrow => Nat.le_of_lt (habove row hrow)⟩
  | inserted snapshot =>
    have hmemory : ∀ m x, (s.remember node snapshot).memory m = some x → x ∈ s.rows :=
      update_rows h.memory (by rintro x ⟨⟩; exact hfits.2.1)
    have hremember : VersionsKept (s.remember node snapshot) :=
      ⟨h.alone, h.unique, h.positive, h.redis, hmemory, h.files, h.temps, h.got, h.idle, h.busy⟩
    exact hremember.goOn hsaves hfits
  | settingRedis snapshot =>
    obtain ⟨hrecorded, hrow, hhighest⟩ := hfits
    have hredis : ∀ x, (some snapshot : Option VersionedConfig) = some x → x ∈ s.rows := by
      rintro x ⟨⟩
      exact hrow
    have hnone : s.saves ≠ [] := by
      rw [hsaves]
      exact nofun
    have hset : VersionsKept { s with redis := some snapshot } :=
      ⟨h.alone, h.unique, h.positive, hredis, h.memory, h.files, h.temps, h.got,
        fun hidle => absurd hidle hnone, fun node' phase' hsaves' => by
          cases hsaves.symm.trans hsaves'
          exact ⟨hrecorded, hrow, hhighest⟩⟩
    exact hset.goOn hsaves ⟨hrecorded, fun _ => ⟨snapshot, rfl, hhighest⟩, hrow⟩
  | writingTemp snapshot =>
    obtain ⟨hrecorded, hredis, hrow⟩ := hfits
    have htemps : ∀ m x, Function.update s.temps node (some snapshot) m = some x → x ∈ s.rows :=
      update_rows h.temps (by rintro x ⟨⟩; exact hrow)
    have hwritten : VersionsKept { s with temps := Function.update s.temps node (some snapshot) } :=
      ⟨h.alone, h.unique, h.positive, h.redis, h.memory, h.files, htemps, h.got, h.idle, h.busy⟩
    exact hwritten.goOn hsaves ⟨hrecorded, hredis⟩
  | movingTemp =>
    have hend : s.saves.eraseIdx 0 = [] := by
      rw [hsaves]
      rfl
    have hlength : (s.saves.eraseIdx 0).length ≤ 1 := by
      rw [hend]
      exact Nat.zero_le 1
    have hnone (node' : Nat) (phase' : SavePhase) (hsaves' : s.saves.eraseIdx 0 = [(node', phase')]) :
        phase'.Fits s := by
      rw [hend] at hsaves'
      cases hsaves'
    unfold VersionState.goOnSave
    dsimp only
    split
    · next snapshot htemp =>
      have hrow := h.temps node snapshot htemp
      refine ⟨hlength, h.unique, h.positive, h.redis, h.memory, ?_, ?_, h.got, fun _ => hfits, hnone⟩
      · exact update_rows h.files (by rintro x ⟨⟩; exact hrow)
      · exact update_rows h.temps nofun
    · exact ⟨hlength, h.unique, h.positive, h.redis, h.memory, h.files, h.temps, h.got,
        fun _ => hfits, hnone⟩

/-- A load whose answer, if it has one, is in the table. -/
theorem VersionsKept.setLoad {n : Nat} {loadPhase : LoadPhase}
    (hgot : ∀ snapshot, loadPhase = .got snapshot → snapshot ∈ s.rows) :
    VersionsKept (s.setLoad n node loadPhase) := by
  refine ⟨h.alone, h.unique, h.positive, h.redis, h.memory, h.files, h.temps, ?_, h.idle, h.busy⟩
  intro m snapshot hmem
  rcases List.mem_or_eq_of_mem_set hmem with hmem | heq
  · exact h.got m snapshot hmem
  · exact hgot snapshot (Prod.mk.inj heq).2.symm

theorem VersionsKept.endLoad {n : Nat} : VersionsKept (s.endLoad n) :=
  ⟨h.alone, h.unique, h.positive, h.redis, h.memory, h.files, h.temps,
    fun m snapshot hmem => h.got m snapshot (List.mem_of_mem_eraseIdx hmem), h.idle, h.busy⟩

theorem kept_goOnLoad {n : Nat} {loadPhase : LoadPhase} (hload : (node, loadPhase) ∈ s.loads) :
    VersionsKept (s.goOnLoad n node loadPhase) := by
  cases loadPhase with
  | gettingRedis =>
    unfold VersionState.goOnLoad
    dsimp only
    split
    · next snapshot hredis =>
      exact h.setLoad (by rintro x ⟨⟩; exact h.redis snapshot hredis)
    · exact h.setLoad nofun
  | readingLkg =>
    unfold VersionState.goOnLoad
    dsimp only
    split
    · next snapshot hfile =>
      exact h.setLoad (by rintro x ⟨⟩; exact h.files node snapshot hfile)
    · exact h.endLoad
  | got snapshot =>
    have hrow := h.got node snapshot hload
    have hmemory : ∀ m x, (s.remember node snapshot).memory m = some x → x ∈ s.rows :=
      update_rows h.memory (by rintro x ⟨⟩; exact hrow)
    have hremember : VersionsKept (s.remember node snapshot) :=
      ⟨h.alone, h.unique, h.positive, h.redis, hmemory, h.files, h.temps, h.got, h.idle, h.busy⟩
    exact hremember.endLoad

end Steps

end Steps

/-- Every step that meets the condition. -/
theorem versionStep_kept {s : VersionState} {action : VersionAction} (hserial : Serial s action)
    (h : VersionsKept s) : VersionsKept (versionStep s action) := by
  cases action with
  | save node payload => exact kept_startSave h payload hserial
  | load node =>
    rw [versionStep]
    split
    · exact h
    · refine ⟨h.alone, h.unique, h.positive, h.redis, h.memory, h.files, h.temps, ?_, h.idle, h.busy⟩
      intro m snapshot hmem
      rcases List.mem_append.mp hmem with hmem | hmem
      · exact h.got m snapshot hmem
      · cases List.mem_singleton.mp hmem
  | nextSave n =>
    rw [versionStep]
    split
    · next node phase hsave =>
      obtain ⟨rfl, hsaves⟩ := eq_singleton_of_get h.alone hsave
      exact kept_goOnSave h hsaves
    · exact h
  | nextLoad n =>
    rw [versionStep]
    split
    · next node phase hload => exact kept_goOnLoad h (List.mem_of_getElem? hload)
    · exact h

theorem noVersions_kept : VersionsKept noVersions := by
  refine ⟨Nat.zero_le 1, .nil, nofun, nofun, nofun, nofun, nofun, nofun, fun _ => ⟨?_, ?_⟩, nofun⟩
  · exact fun _ => Iff.rfl
  · exact fun hsome => absurd rfl hsome

theorem VersionsKept.versionsUnique {s : VersionState} (h : VersionsKept s) : VersionsUnique s := by
  refine ⟨h.unique, fun hidle hsome => ?_⟩
  obtain ⟨hrecorded, hredis⟩ := h.idle hidle
  obtain ⟨first, hfirst⟩ := List.exists_mem_of_ne_nil _ hsome
  obtain ⟨snapshot, hstored, hhighest⟩ :=
    hredis (List.ne_nil_of_mem ((hrecorded first).mp hfirst))
  exact ⟨snapshot, (hrecorded snapshot).mpr (h.redis snapshot hstored), hstored,
    fun other hother => hhighest other ((hrecorded other).mp hother)⟩

/-- One save. -/
def exSave : List VersionAction := .save 0 "a" :: List.replicate 7 (.nextSave 0)

theorem exSave_serial : Along versionStep Serial noVersions exSave := by
  refine along_cons.mpr ⟨⟨rfl, nofun⟩, ?_⟩
  intro pre action post hsplit
  have hmem : action ∈ List.replicate 7 (.nextSave 0) := by
    rw [hsplit]
    exact List.mem_append_right _ List.mem_cons_self
  rw [List.eq_of_mem_replicate hmem]
  trivial

end KasterCti.Resilience
