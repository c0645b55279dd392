import KasterCti.Library.Trace
import Mathlib

/-!
# Feature entitlements

`FeatureEntitlementService` on one node. `loadMap` reads the rows of a tenant and caches them
when the query comes back; `setEnabled` writes its row, then the audit log, and only then
invalidates the cache. Calls are cut at their awaits and interleave in any way.

Results:
1. `entitlementStep_entitled`: what every step keeps where no stale rows are cached and an
   irreversible feature is enabled once.
2. `entitlements_hold`: in a run of such steps `isEnabled` answers what was set last, and an
   irreversible feature keeps the time of its first enabling.
3. `stale_fill_and_second_enabling`: rows that come back behind the invalidation, and a
   feature that is enabled twice.
-/

namespace KasterCti.Common

open Trace

/-! ## The catalog -/

inductive FeatureKey
  | callAnalysis
  | aiInsights
  | arsFlowBuilder
  | arsHttpLookup
  | recordingEncryption
  | packetCapture
deriving DecidableEq

instance : Fintype FeatureKey :=
  ⟨{.callAnalysis, .aiInsights, .arsFlowBuilder, .arsHttpLookup, .recordingEncryption,
    .packetCapture}, by intro key; cases key <;> decide⟩

structure FeatureDefinition where
  name : String
  defaultEnabled : Bool
  irreversible : Bool

def featureCatalog : FeatureKey → FeatureDefinition
  | .callAnalysis => ⟨"통화 AI 분석", false, false⟩
  | .aiInsights => ⟨"AI 인사이트 대시보드", false, false⟩
  | .arsFlowBuilder => ⟨"ARS 플로우 빌더", false, false⟩
  | .arsHttpLookup => ⟨"ARS 외부 조회", false, false⟩
  | .recordingEncryption => ⟨"녹취 암호화", false, true⟩
  | .packetCapture => ⟨"패킷 캡처", true, false⟩

def irreversible (key : FeatureKey) : Bool := (featureCatalog key).irreversible

/-! ## Rows, cache and calls -/

structure SetEntitlementInput where
  enabled : Bool
  platformAdminId : Option String
  note : Option String
  clientIp : Option String
  acknowledgeIrreversible : Bool

structure EntitlementRow where
  enabled : Bool
  enabledAt : Option Int
  note : Option String
  updatedByAdminId : Option String

structure EntitlementAudit where
  tenantId : String
  featureKey : FeatureKey
  platformAdminId : Option String
  beforeEnabled : Bool
  afterEnabled : Bool
  note : Option String
  clientIp : Option String

inductive EntitlementError
  | conflict (message : String)
  | badRequest (message : String)

abbrev FeatureMap := FeatureKey → Bool

/-- The rows of a tenant, as `loadMap` selects them. -/
abbrev FeatureRows := FeatureKey → Option Bool

structure CacheEntry where
  map : FeatureMap
  expiresAt : Int

def cacheTtlMs : Int := 30000

def loadedMap (rows : FeatureRows) : FeatureMap := fun key =>
  (rows key).getD (featureCatalog key).defaultEnabled

/-- What a call wants of `loadMap`. -/
inductive EntitlementTask
  /-- With the answer that is due, where there is one. -/
  | isEnabled (due : Option Bool)
  | setEnabled (input : SetEntitlementInput)

/-- The statement that a call has issued, or what has come back. -/
inductive EntitlementPhase
  | querying (task : EntitlementTask)
  | loaded (task : EntitlementTask) (rows : FeatureRows)
  | upserting (input : SetEntitlementInput) (beforeEnabled : Bool) (now : Int)
  | auditing (input : SetEntitlementInput) (beforeEnabled : Bool)
  | audited (input : SetEntitlementInput)

structure EntitlementCall where
  tenantId : String
  featureKey : FeatureKey
  phase : EntitlementPhase

structure EntitlementState where
  now : Int
  rows : String → FeatureKey → Option EntitlementRow
  audits : List EntitlementAudit
  cache : String → Option CacheEntry
  calls : Nat → Option EntitlementCall
  nextCall : Nat
  refused : List EntitlementError
  /-- The call that wrote a row last, with the value. -/
  writer : String → FeatureKey → Option (Nat × Bool)
  /-- The value that was written last, once its call has resolved. -/
  settled : String → FeatureKey → Option Bool
  /-- The first time that a row was written as enabled. -/
  firstEnabled : String → FeatureKey → Option Int
  /-- What `isEnabled` returned, each with what was due. -/
  answers : List (Option Bool × Bool)

inductive EntitlementAction
  | tick (ms : Nat)
  | isEnabled (tenantId : String) (featureKey : FeatureKey)
  | setEnabled (tenantId : String) (featureKey : FeatureKey) (input : SetEntitlementInput)
  | next (call : Nat) (fails : Bool)

/-- A value of a table, by tenant and feature. -/
def setAt {α : Type} (table : String → FeatureKey → α) (tenantId : String) (key : FeatureKey)
    (a : α) : String → FeatureKey → α :=
  fun t k => if t = tenantId ∧ k = key then a else table t k

/-- What `isEnabled` has to answer. -/
def EntitlementPhase.asks : EntitlementPhase → Option (Option Bool)
  | .querying (.isEnabled due) => some due
  | .loaded (.isEnabled due) _ => some due
  | _ => none

def EntitlementPhase.forget : EntitlementPhase → EntitlementPhase
  | .querying (.isEnabled _) => .querying (.isEnabled none)
  | .loaded (.isEnabled _) rows => .loaded (.isEnabled none) rows
  | phase => phase

/-- The call is about a row. -/
def EntitlementCall.about (call : EntitlementCall) (tenantId : String) (key : FeatureKey) : Bool :=
  call.tenantId = tenantId && call.featureKey = key

/-- The call changes the row. -/
def EntitlementCall.changes (call : EntitlementCall) (tenantId : String) (key : FeatureKey) :
    Bool :=
  call.about tenantId key && call.phase.asks.isNone

/-- With a change on its way nothing is due. -/
def EntitlementCall.forget (tenantId : String) (key : FeatureKey) (call : EntitlementCall) :
    EntitlementCall :=
  if call.about tenantId key then { call with phase := call.phase.forget } else call

namespace EntitlementState

def setCall (s : EntitlementState) (n : Nat) (call : Option EntitlementCall) : EntitlementState :=
  { s with calls := fun m => if m = n then call else s.calls m }

def begin (s : EntitlementState) (call : EntitlementCall) : EntitlementState :=
  { s with nextCall := s.nextCall + 1 }.setCall s.nextCall (some call)

/-- A call that changes the row is under way. -/
def changing (s : EntitlementState) (tenantId : String) (key : FeatureKey) : Bool :=
  (List.range s.nextCall).any fun n => (s.calls n).any (·.changes tenantId key)

def forget (s : EntitlementState) (tenantId : String) (key : FeatureKey) : EntitlementState :=
  { s with calls := fun n => (s.calls n).map (·.forget tenantId key) }

/-- The map of a cache entry that has not expired. -/
def cachedMap (s : EntitlementState) (tenantId : String) : Option FeatureMap :=
  ((s.cache tenantId).filter fun entry => s.now < entry.expiresAt).map (·.map)

def setCache (s : EntitlementState) (tenantId : String) (entry : Option CacheEntry) :
    EntitlementState :=
  { s with cache := fun t => if t = tenantId then entry else s.cache t }

def answer (s : EntitlementState) (due : Option Bool) (enabled : Bool) : EntitlementState :=
  { s with answers := (due, enabled) :: s.answers }

def refuse (s : EntitlementState) (error : EntitlementError) : EntitlementState :=
  { s with refused := error :: s.refused }

def isEnabled (s : EntitlementState) (tenantId : String) (key : FeatureKey) : EntitlementState :=
  let due := if s.changing tenantId key then none else s.settled tenantId key
  match s.cachedMap tenantId with
  | some map => s.answer due (map key)
  | none => s.begin ⟨tenantId, key, .querying (.isEnabled due)⟩

/-- The checks of `setEnabled`. -/
def checkSet (key : FeatureKey) (input : SetEntitlementInput) : Except EntitlementError Unit :=
  let feature := featureCatalog key
  if feature.irreversible then
    if !input.enabled then .error (.conflict ("\"" ++ feature.name ++
      "\" 은 한 번 켜면 끌 수 없습니다. 끄면 암호문과 평문이 섞인 저장소가 됩니다."))
    else if !input.acknowledgeIrreversible then .error (.badRequest ("\"" ++ feature.name ++
      "\" 은 되돌릴 수 없습니다. acknowledgeIrreversible 을 함께 보내주세요."))
    else .ok ()
  else .ok ()

def setEnabled (s : EntitlementState) (tenantId : String) (key : FeatureKey)
    (input : SetEntitlementInput) : EntitlementState :=
  match checkSet key input with
  | .error error => s.refuse error
  | .ok _ =>
    let phase := match s.cachedMap tenantId with
      | some map => .upserting input (map key) s.now
      | none => .querying (.setEnabled input)
    (s.forget tenantId key).begin ⟨tenantId, key, phase⟩

end EntitlementState

/-- `upsert`: the update keeps `enabledAt` when it disables. -/
def upsertRow (row : Option EntitlementRow) (input : SetEntitlementInput) (now : Int) :
    EntitlementRow where
  enabled := input.enabled
  enabledAt := if input.enabled then some now else row.bind (·.enabledAt)
  note := input.note
  updatedByAdminId := input.platformAdminId

namespace EntitlementState

def upsert (s : EntitlementState) (n : Nat) (tenantId : String) (key : FeatureKey)
    (input : SetEntitlementInput) (now : Int) : EntitlementState :=
  { s with
    rows := setAt s.rows tenantId key (some (upsertRow (s.rows tenantId key) input now))
    writer := setAt s.writer tenantId key (some (n, input.enabled))
    settled := setAt s.settled tenantId key none
    firstEnabled := setAt s.firstEnabled tenantId key
      ((s.firstEnabled tenantId key).or (if input.enabled then some now else none)) }

/-- The call has resolved. -/
def settle (s : EntitlementState) (n : Nat) (tenantId : String) (key : FeatureKey) :
    EntitlementState :=
  match s.writer tenantId key with
  | some (m, enabled) =>
    if m = n then { s with settled := setAt s.settled tenantId key (some enabled) } else s
  | none => s

def audit (s : EntitlementState) (audit : EntitlementAudit) : EntitlementState :=
  { s with audits := s.audits ++ [audit] }

def next (s : EntitlementState) (n : Nat) (tenantId : String) (key : FeatureKey) (fails : Bool) :
    EntitlementPhase → EntitlementState
  | .querying task =>
    if fails then s.setCall n none
    else s.setCall n
      (some ⟨tenantId, key, .loaded task fun k => (s.rows tenantId k).map (·.enabled)⟩)
  | .loaded (.isEnabled due) rows =>
    ((s.setCache tenantId (some ⟨loadedMap rows, s.now + cacheTtlMs⟩)).answer due
      (loadedMap rows key)).setCall n none
  | .loaded (.setEnabled input) rows =>
    (s.setCache tenantId (some ⟨loadedMap rows, s.now + cacheTtlMs⟩)).setCall n
      (some ⟨tenantId, key, .upserting input (loadedMap rows key) s.now⟩)
  | .upserting input beforeEnabled now =>
    if fails then s.setCall n none
    else (s.upsert n tenantId key input now).setCall n
      (some ⟨tenantId, key, .auditing input beforeEnabled⟩)
  | .auditing input beforeEnabled =>
    if fails then s.setCall n none
    else (s.audit ⟨tenantId, key, input.platformAdminId, beforeEnabled, input.enabled, input.note,
      input.clientIp⟩).setCall n (some ⟨tenantId, key, .audited input⟩)
  | .audited _ => ((s.setCache tenantId none).settle n tenantId key).setCall n none

end EntitlementState

def entitlementStep (s : EntitlementState) : EntitlementAction → EntitlementState
  | .tick ms => { s with now := s.now + ms }
  | .isEnabled tenantId key => s.isEnabled tenantId key
  | .setEnabled tenantId key input => s.setEnabled tenantId key input
  | .next n fails =>
    match s.calls n with
    | none => s
    | some call => s.next n call.tenantId call.featureKey fails call.phase

def noEntitlements : EntitlementState :=
  ⟨0, fun _ _ => none, [], fun _ => none, fun _ => none, 0, [], fun _ _ => none, fun _ _ => none,
    fun _ _ => none, []⟩

/-! ## The condition -/

/-- Rows are cached only as they are, unless the call that wrote last has its invalidation
before it; an irreversible feature is written only while it is not enabled. -/
def EntitlementPhase.Careful (s : EntitlementState) (tenantId : String) (key : FeatureKey)
    (fails : Bool) : EntitlementPhase → Prop
  | .loaded _ rows => ∀ k,
    s.settled tenantId k = none ∨ rows k = (s.rows tenantId k).map (·.enabled)
  | .upserting .. => fails = false → irreversible key = true →
    ∀ row ∈ s.rows tenantId key, row.enabled = false
  | _ => True

def Careful (s : EntitlementState) : EntitlementAction → Prop
  | .next n fails => ∀ call ∈ s.calls n, call.phase.Careful s call.tenantId call.featureKey fails
  | _ => True

/-- A step can be tested. -/
instance EntitlementPhase.decidableCareful (s : EntitlementState) (tenantId : String)
    (key : FeatureKey) (fails : Bool) :
    ∀ phase : EntitlementPhase, Decidable (phase.Careful s tenantId key fails)
  | .querying _ => .isTrue trivial
  | .loaded _ rows => inferInstanceAs (Decidable (∀ k,
      s.settled tenantId k = none ∨ rows k = (s.rows tenantId k).map (·.enabled)))
  | .upserting .. => inferInstanceAs (Decidable (fails = false → irreversible key = true →
      ∀ row ∈ s.rows tenantId key, row.enabled = false))
  | .auditing .. => .isTrue trivial
  | .audited _ => .isTrue trivial

instance decidableCareful (s : EntitlementState) : ∀ action, Decidable (Careful s action)
  | .tick _ => .isTrue trivial
  | .isEnabled .. => .isTrue trivial
  | .setEnabled .. => .isTrue trivial
  | .next n fails => inferInstanceAs (Decidable (∀ call ∈ s.calls n,
      call.phase.Careful s call.tenantId call.featureKey fails))

/-- `isEnabled` answers what is due, and an irreversible feature stays enabled with the time
of its first enabling. -/
structure EntitlementsHold (s : EntitlementState) : Prop where
  answers : ∀ a ∈ s.answers, ∀ enabled ∈ a.1, a.2 = enabled
  kept : ∀ tenantId key, irreversible key = true → ∀ time ∈ s.firstEnabled tenantId key,
    ∃ row ∈ s.rows tenantId key, row.enabled = true ∧ row.enabledAt = some time

/-! ## The invariant -/

def EntitlementPhase.input : EntitlementPhase → Option SetEntitlementInput
  | .querying (.setEnabled input) => some input
  | .loaded (.setEnabled input) _ => some input
  | .upserting input _ _ => some input
  | .auditing input _ => some input
  | .audited input => some input
  | _ => none

/-- An answer that is due is the settled value, and no change of it is under way. -/
structure DueCall (s : EntitlementState) (call : EntitlementCall) (enabled : Bool) : Prop where
  settled : s.settled call.tenantId call.featureKey = some enabled
  alone : ∀ m, ∀ other ∈ s.calls m, other.changes call.tenantId call.featureKey = false
  read : ∀ task rows, call.phase = .loaded task rows → rows call.featureKey = some enabled

structure Entitled (s : EntitlementState) : Prop where
  numbered : ∀ n, ∀ call ∈ s.calls n, n < s.nextCall
  stored : ∀ t k, ∀ enabled ∈ s.settled t k, ∃ row ∈ s.rows t k, row.enabled = enabled
  wrote : ∀ t k, ∀ w ∈ s.writer t k, ∃ row ∈ s.rows t k, row.enabled = w.2
  cached : ∀ t k, ∀ enabled ∈ s.settled t k, ∀ entry ∈ s.cache t, entry.map k = enabled
  due : ∀ n, ∀ call ∈ s.calls n, ∀ enabled, call.phase.asks = some (some enabled) →
    DueCall s call enabled
  guarded : ∀ n, ∀ call ∈ s.calls n, irreversible call.featureKey = true →
    ∀ input ∈ call.phase.input, input.enabled = true
  holds : EntitlementsHold s

variable {s s' : EntitlementState} {n : Nat} {call after : EntitlementCall} {tenantId : String}
  {key : FeatureKey} {α : Type}

theorem about_iff : call.about tenantId key = true ↔
    call.tenantId = tenantId ∧ call.featureKey = key := by
  simp [EntitlementCall.about]

theorem setAt_self (table : String → FeatureKey → α) (a : α) :
    setAt table tenantId key a tenantId key = a := if_pos ⟨rfl, rfl⟩

theorem setAt_other (table : String → FeatureKey → α) (a : α) {t : String} {k : FeatureKey}
    (h : ¬ (t = tenantId ∧ k = key)) : setAt table tenantId key a t k = table t k := if_neg h

/-- What goes on of a call. -/
structure Continues (call after : EntitlementCall) : Prop where
  about : after.tenantId = call.tenantId ∧ after.featureKey = call.featureKey
  asks : after.phase.asks = call.phase.asks
  input : after.phase.input = call.phase.input

theorem Continues.changes (h : Continues call after) (t : String) (k : FeatureKey) :
    after.changes t k = call.changes t k := by
  unfold EntitlementCall.changes EntitlementCall.about
  rw [h.about.1, h.about.2, h.asks]

/-- A call ends, or goes on with what it has read. -/
theorem Entitled.setCall (h : Entitled s) (hcall : s.calls n = some call)
    {after : Option EntitlementCall} (hafter : ∀ next ∈ after, Continues call next ∧
      ∀ enabled, call.phase.asks = some (some enabled) →
        ∀ task rows, next.phase = .loaded task rows → rows call.featureKey = some enabled) :
    Entitled (s.setCall n after) := by
  have hat : ∀ m, ∀ other ∈ (s.setCall n after).calls m,
      (m = n ∧ other ∈ after) ∨ other ∈ s.calls m := by
    intro m other hmem
    simp only [EntitlementState.setCall] at hmem
    split at hmem
    · next hm => exact .inl ⟨hm, hmem⟩
    · exact .inr hmem
  have halone : ∀ t k, (∀ m, ∀ other ∈ s.calls m, other.changes t k = false) →
      ∀ m, ∀ other ∈ (s.setCall n after).calls m, other.changes t k = false := by
    intro t k hall m other hmem
    rcases hat m other hmem with ⟨-, hnext⟩ | hold
    · rw [(hafter other hnext).1.changes]
      exact hall n call hcall
    · exact hall m other hold
  refine ⟨?_, h.stored, h.wrote, h.cached, ?_, ?_, h.holds.answers, h.holds.kept⟩
  · intro m other hmem
    rcases hat m other hmem with ⟨rfl, -⟩ | hold
    · exact h.numbered _ call hcall
    · exact h.numbered m other hold
  · intro m other hmem enabled hasks
    rcases hat m other hmem with ⟨-, hnext⟩ | hold
    · obtain ⟨hcontinues, hread⟩ := hafter other hnext
      have hdue := h.due n call hcall enabled (hcontinues.asks ▸ hasks)
      obtain ⟨htenant, hkey⟩ := hcontinues.about
      refine ⟨?_, ?_, ?_⟩
      · rw [htenant, hkey]
        exact hdue.settled
      · rw [htenant, hkey]
        exact halone _ _ hdue.alone
      · rw [hkey]
        exact hread enabled (hcontinues.asks ▸ hasks)
    · have hdue := h.due m other hold enabled hasks
      exact ⟨hdue.settled, halone _ _ hdue.alone, hdue.read⟩
  · intro m other hmem hirreversible input hinput
    rcases hat m other hmem with ⟨-, hnext⟩ | hold
    · have hcontinues := (hafter other hnext).1
      rw [hcontinues.about.2] at hirreversible
      exact h.guarded n call hcall hirreversible input (hcontinues.input ▸ hinput)
    · exact h.guarded m other hold hirreversible input hinput

theorem Entitled.endCall (h : Entitled s) (hcall : s.calls n = some call) :
    Entitled (s.setCall n none) :=
  h.setCall hcall (by rintro _ ⟨⟩)

/-! ## What the operations keep -/

variable {enabled : Bool}

/-- Nothing of what calls are due has changed. -/
theorem DueCall.mono (h : DueCall s call enabled) (hcalls : s'.calls = s.calls)
    (hsettled : s'.settled call.tenantId call.featureKey =
      s.settled call.tenantId call.featureKey) : DueCall s' call enabled :=
  ⟨hsettled.trans h.settled, hcalls ▸ h.alone, h.read⟩

theorem Entitled.answer (h : Entitled s) {due : Option Bool} (hdue : ∀ e ∈ due, enabled = e) :
    Entitled (s.answer due enabled) := by
  refine ⟨h.numbered, h.stored, h.wrote, h.cached, ?_, h.guarded, ?_, h.holds.kept⟩
  · exact fun n call hcall e hasks => (h.due n call hcall e hasks).mono rfl rfl
  · intro a ha
    rcases List.mem_cons.mp ha with rfl | hold
    · exact hdue
    · exact h.holds.answers a hold

theorem Entitled.audit (h : Entitled s) (audit : EntitlementAudit) : Entitled (s.audit audit) :=
  ⟨h.numbered, h.stored, h.wrote, h.cached,
    fun n call hcall e hasks => (h.due n call hcall e hasks).mono rfl rfl, h.guarded,
    h.holds.answers, h.holds.kept⟩

/-- Rows that are not stale where it matters are cached, or the cache is emptied. -/
theorem Entitled.setCache (h : Entitled s) {entry : Option CacheEntry}
    (hentry : ∀ e ∈ entry, ∀ k, ∀ enabled ∈ s.settled tenantId k, e.map k = enabled) :
    Entitled (s.setCache tenantId entry) := by
  refine ⟨h.numbered, h.stored, h.wrote, ?_, ?_, h.guarded, h.holds.answers, h.holds.kept⟩
  · intro t k enabled hsettled e he
    simp only [EntitlementState.setCache] at he
    split at he
    · next ht =>
      subst ht
      exact hentry e he k enabled hsettled
    · exact h.cached t k enabled hsettled e he
  · exact fun n call hcall e hasks => (h.due n call hcall e hasks).mono rfl rfl

section Changing
variable (h : Entitled s) (hcall : s.calls n = some call)
  (hchanges : call.changes tenantId key = true)
include h hcall hchanges

/-- The call that a change is due to leaves no answer due about its row. -/
theorem Entitled.not_due {m : Nat} {other : EntitlementCall} (hother : s.calls m = some other)
    {enabled : Bool} (hasks : other.phase.asks = some (some enabled)) :
    ¬ (other.tenantId = tenantId ∧ other.featureKey = key) := by
  rintro ⟨rfl, rfl⟩
  have halone := (h.due m other hother enabled hasks).alone n call hcall
  rw [hchanges] at halone
  cases halone

/-- A row is written. -/
theorem Entitled.upsert {input : SetEntitlementInput} {now : Int}
    (henabled : irreversible key = true → input.enabled = true)
    (hfirst : irreversible key = true → ∀ row ∈ s.rows tenantId key, row.enabled = false) :
    Entitled (s.upsert n tenantId key input now) := by
  have hrow : (s.upsert n tenantId key input now).rows tenantId key =
      some (upsertRow (s.rows tenantId key) input now) := setAt_self _ _
  refine ⟨h.numbered, ?_, ?_, ?_, ?_, h.guarded, h.holds.answers, ?_⟩
  · intro t k enabled hsettled
    by_cases hat : t = tenantId ∧ k = key
    · rw [hat.1, hat.2] at hsettled
      cases (setAt_self s.settled none).symm.trans hsettled
    · obtain ⟨row, hmem, hvalue⟩ := h.stored t k enabled ((setAt_other _ _ hat).symm.trans hsettled)
      exact ⟨row, (setAt_other _ _ hat).trans hmem, hvalue⟩
  · intro t k w hw
    by_cases hat : t = tenantId ∧ k = key
    · rw [hat.1, hat.2] at hw ⊢
      obtain rfl := Option.some.inj ((setAt_self s.writer _).symm.trans hw)
      exact ⟨_, hrow, rfl⟩
    · obtain ⟨row, hmem, hvalue⟩ := h.wrote t k w ((setAt_other _ _ hat).symm.trans hw)
      exact ⟨row, (setAt_other _ _ hat).trans hmem, hvalue⟩
  · intro t k enabled hsettled
    by_cases hat : t = tenantId ∧ k = key
    · rw [hat.1, hat.2] at hsettled
      cases (setAt_self s.settled none).symm.trans hsettled
    · exact h.cached t k enabled ((setAt_other _ _ hat).symm.trans hsettled)
  · intro m other hother e hasks
    exact (h.due m other hother e hasks).mono rfl
      (setAt_other _ _ (h.not_due hcall hchanges hother hasks))
  · intro t k hirreversible time htime
    by_cases hat : t = tenantId ∧ k = key
    · obtain ⟨rfl, rfl⟩ := hat
      have htime := (setAt_self s.firstEnabled _).symm.trans htime
      refine ⟨_, hrow, henabled hirreversible, ?_⟩
      have hnone : s.firstEnabled t k = none := by
        cases hbefore : s.firstEnabled t k with
        | none => rfl
        | some before =>
          obtain ⟨row, hmem, hrowEnabled, -⟩ := h.holds.kept t k hirreversible before hbefore
          rw [hfirst hirreversible row hmem] at hrowEnabled
          cases hrowEnabled
      rw [hnone, henabled hirreversible] at htime
      rw [upsertRow, henabled hirreversible]
      exact htime
    · obtain ⟨row, hmem, hvalue⟩ :=
        h.holds.kept t k hirreversible time ((setAt_other _ _ hat).symm.trans htime)
      exact ⟨row, (setAt_other _ _ hat).trans hmem, hvalue⟩

/-- The call that wrote last resolves, with the cache of its tenant empty. -/
theorem Entitled.settle (hcache : s.cache tenantId = none) :
    Entitled (s.settle n tenantId key) := by
  unfold EntitlementState.settle
  split
  · next m enabled hwriter =>
    split
    · refine ⟨h.numbered, ?_, h.wrote, ?_, ?_, h.guarded, h.holds.answers, h.holds.kept⟩
      · intro t k e he
        by_cases hat : t = tenantId ∧ k = key
        · rw [hat.1, hat.2] at he ⊢
          obtain rfl := Option.some.inj ((setAt_self s.settled _).symm.trans he)
          exact h.wrote tenantId key _ hwriter
        · exact h.stored t k e ((setAt_other _ _ hat).symm.trans he)
      · intro t k e he entry hentry
        by_cases ht : t = tenantId
        · rw [ht, hcache] at hentry
          cases hentry
        · exact h.cached t k e ((setAt_other _ _ fun hat => ht hat.1).symm.trans he) entry hentry
      · intro m other hother e hasks
        exact (h.due m other hother e hasks).mono rfl
          (setAt_other _ _ (h.not_due hcall hchanges hother hasks))
    · exact h
  · exact h

end Changing

/-- A call begins. One that changes a row begins when nothing is due about it. -/
theorem Entitled.begin (h : Entitled s)
    (hdue : ∀ enabled, after.phase.asks = some (some enabled) →
      s.settled after.tenantId after.featureKey = some enabled ∧
        ∀ m, ∀ other ∈ s.calls m, other.changes after.tenantId after.featureKey = false)
    (hread : ∀ task rows, after.phase ≠ .loaded task rows)
    (hothers : ∀ t k, after.changes t k = true → ∀ m, ∀ other ∈ s.calls m, ∀ enabled,
      other.phase.asks = some (some enabled) → ¬ (other.tenantId = t ∧ other.featureKey = k))
    (hguard : irreversible after.featureKey = true →
      ∀ input ∈ after.phase.input, input.enabled = true) : Entitled (s.begin after) := by
  have hat : ∀ m, ∀ other ∈ (s.begin after).calls m, other = after ∨ other ∈ s.calls m := by
    intro m other hmem
    simp only [EntitlementState.begin, EntitlementState.setCall] at hmem
    split at hmem
    · exact .inl (Option.some.inj hmem).symm
    · exact .inr hmem
  have hself : ∀ t k, after.changes t k = true → after.phase.asks = none := fun t k hchanges =>
    Option.isNone_iff_eq_none.mp (Bool.and_eq_true_iff.mp hchanges).2
  refine ⟨?_, h.stored, h.wrote, h.cached, ?_, ?_, h.holds.answers, h.holds.kept⟩
  · intro m other hmem
    simp only [EntitlementState.begin, EntitlementState.setCall] at hmem ⊢
    split at hmem
    · next hm => exact hm ▸ Nat.lt_succ_self _
    · exact Nat.lt_succ_of_lt (h.numbered m other hmem)
  · intro m other hmem enabled hasks
    rcases hat m other hmem with rfl | hold
    · obtain ⟨hsettled, halone⟩ := hdue enabled hasks
      refine ⟨hsettled, ?_, fun task rows hphase => absurd hphase (hread task rows)⟩
      intro k third hthird
      rcases hat k third hthird with rfl | hold
      · refine Bool.eq_false_of_not_eq_true fun hchanges => ?_
        rw [hself _ _ hchanges] at hasks
        cases hasks
      · exact halone k third hold
    · have hbefore := h.due m other hold enabled hasks
      refine ⟨hbefore.settled, ?_, hbefore.read⟩
      intro k third hthird
      rcases hat k third hthird with rfl | hold'
      · refine Bool.eq_false_of_not_eq_true fun hchanges => ?_
        exact hothers _ _ hchanges m other hold enabled hasks ⟨rfl, rfl⟩
      · exact hbefore.alone k third hold'
  · intro m other hmem
    rcases hat m other hmem with rfl | hold
    · exact hguard
    · exact h.guarded m other hold

theorem asks_forget : ∀ phase : EntitlementPhase,
    phase.forget.asks = phase.asks.map fun _ => none
  | .querying (.isEnabled _) => rfl
  | .querying (.setEnabled _) => rfl
  | .loaded (.isEnabled _) _ => rfl
  | .loaded (.setEnabled _) _ => rfl
  | .upserting .. => rfl
  | .auditing .. => rfl
  | .audited _ => rfl

theorem input_forget : ∀ phase : EntitlementPhase, phase.forget.input = phase.input
  | .querying (.isEnabled _) => rfl
  | .querying (.setEnabled _) => rfl
  | .loaded (.isEnabled _) _ => rfl
  | .loaded (.setEnabled _) _ => rfl
  | .upserting .. => rfl
  | .auditing .. => rfl
  | .audited _ => rfl

/-- A call is the same but for what is due about the row. -/
theorem forget_call (call : EntitlementCall) (tenantId : String) (key : FeatureKey) :
    (call.forget tenantId key).tenantId = call.tenantId ∧
      (call.forget tenantId key).featureKey = call.featureKey ∧
      (call.forget tenantId key).phase.asks.isNone = call.phase.asks.isNone ∧
      (call.forget tenantId key).phase.input = call.phase.input := by
  unfold EntitlementCall.forget
  split
  · exact ⟨rfl, rfl, by rw [asks_forget, Option.isNone_map], input_forget call.phase⟩
  · exact ⟨rfl, rfl, rfl, rfl⟩

theorem forget_changes (call : EntitlementCall) (t : String) (k : FeatureKey) :
    (call.forget tenantId key).changes t k = call.changes t k := by
  obtain ⟨htenant, hkey, hasks, -⟩ := forget_call call tenantId key
  unfold EntitlementCall.changes EntitlementCall.about
  rw [htenant, hkey, hasks]

/-- What is still due is about another row. -/
theorem forget_due (h : (call.forget tenantId key).phase.asks = some (some enabled)) :
    call.forget tenantId key = call ∧ ¬ (call.tenantId = tenantId ∧ call.featureKey = key) := by
  by_cases habout : call.about tenantId key = true
  · rw [EntitlementCall.forget, if_pos habout, asks_forget] at h
    obtain ⟨_, _, hnone⟩ := Option.map_eq_some_iff.mp h
    cases hnone
  · exact ⟨if_neg habout, fun hat => habout (about_iff.mpr hat)⟩

theorem Entitled.forget (h : Entitled s) (tenantId : String) (key : FeatureKey) :
    Entitled (s.forget tenantId key) := by
  have hat : ∀ m, ∀ other ∈ (s.forget tenantId key).calls m,
      ∃ call ∈ s.calls m, call.forget tenantId key = other :=
    fun m other hmem => Option.map_eq_some_iff.mp hmem
  refine ⟨?_, h.stored, h.wrote, h.cached, ?_, ?_, h.holds.answers, h.holds.kept⟩
  · intro m other hmem
    obtain ⟨call, hcall, -⟩ := hat m other hmem
    exact h.numbered m call hcall
  · intro m other hmem enabled hasks
    obtain ⟨call, hcall, rfl⟩ := hat m other hmem
    have hsame := (forget_due hasks).1
    rw [hsame] at hasks ⊢
    have hdue := h.due m call hcall enabled hasks
    refine ⟨hdue.settled, fun k third hthird => ?_, hdue.read⟩
    obtain ⟨before, hbefore, rfl⟩ := hat k third hthird
    rw [forget_changes]
    exact hdue.alone k before hbefore
  · intro m other hmem
    obtain ⟨call, hcall, rfl⟩ := hat m other hmem
    obtain ⟨-, hkey, -, hinput⟩ := forget_call call tenantId key
    rw [hkey, hinput]
    exact h.guarded m call hcall

/-! ## Steps -/

theorem not_changing (h : Entitled s) (hnot : s.changing tenantId key = false) :
    ∀ m, ∀ other ∈ s.calls m, other.changes tenantId key = false := by
  intro m other hother
  have hall := List.any_eq_false.mp hnot m (List.mem_range.mpr (h.numbered m other hother))
  rw [show s.calls m = some other from hother] at hall
  exact Bool.eq_false_of_not_eq_true hall

theorem Entitled.isEnabled (h : Entitled s) (tenantId : String) (key : FeatureKey) :
    Entitled (s.isEnabled tenantId key) := by
  have hdue : ∀ enabled, (if s.changing tenantId key then none else s.settled tenantId key) =
      some enabled → s.settled tenantId key = some enabled ∧
        ∀ m, ∀ other ∈ s.calls m, other.changes tenantId key = false := by
    intro enabled hsome
    split at hsome
    · cases hsome
    · next hnot => exact ⟨hsome, not_changing h (Bool.eq_false_of_not_eq_true hnot)⟩
  unfold EntitlementState.isEnabled
  dsimp only
  split
  · next map hmap =>
    obtain ⟨entry, hentry, rfl⟩ := Option.map_eq_some_iff.mp hmap
    have hmem := (Option.filter_eq_some_iff.mp hentry).1
    exact h.answer fun enabled hsome =>
      h.cached tenantId key enabled (hdue enabled hsome).1 entry hmem
  · refine h.begin ?_ (by rintro _ _ ⟨⟩) ?_ (by rintro _ _ ⟨⟩)
    · exact fun enabled hasks => hdue enabled (Option.some.inj hasks)
    · intro t k hchanges
      cases (Bool.and_eq_true_iff.mp hchanges).2

theorem enabled_of_checkSet {input : SetEntitlementInput} {result : Unit}
    (h : EntitlementState.checkSet key input = .ok result) (hirreversible : irreversible key = true) :
    input.enabled = true := by
  unfold EntitlementState.checkSet at h
  rw [irreversible] at hirreversible
  dsimp only at h
  rw [if_pos hirreversible] at h
  cases henabled : input.enabled with
  | true => rfl
  | false =>
    rw [henabled] at h
    cases h

theorem Entitled.setEnabled (h : Entitled s) (tenantId : String) (key : FeatureKey)
    (input : SetEntitlementInput) : Entitled (s.setEnabled tenantId key input) := by
  unfold EntitlementState.setEnabled
  split
  · exact ⟨h.numbered, h.stored, h.wrote, h.cached,
      fun n call hcall e hasks => (h.due n call hcall e hasks).mono rfl rfl, h.guarded,
      h.holds.answers, h.holds.kept⟩
  · next hcheck =>
    have hothers : ∀ m, ∀ other ∈ (s.forget tenantId key).calls m, ∀ enabled,
        other.phase.asks = some (some enabled) →
          ¬ (other.tenantId = tenantId ∧ other.featureKey = key) := by
      intro m other hmem enabled hasks
      obtain ⟨call, -, rfl⟩ := Option.map_eq_some_iff.mp hmem
      rw [(forget_due hasks).1]
      exact (forget_due hasks).2
    dsimp only
    cases s.cachedMap tenantId with
    | none | some map =>
      refine (h.forget tenantId key).begin (by rintro _ ⟨⟩) (by rintro _ _ ⟨⟩) ?_ ?_
      · intro t k hchanges
        obtain ⟨rfl, rfl⟩ := about_iff.mp (Bool.and_eq_true_iff.mp hchanges).1
        exact hothers
      · rintro hirreversible _ ⟨⟩
        exact enabled_of_checkSet hcheck hirreversible

theorem loadedMap_of {rows : FeatureRows} (h : rows key = some enabled) :
    loadedMap rows key = enabled := by
  rw [loadedMap, h]
  rfl

/-- What is cached of rows that are not stale where it matters. -/
theorem Entitled.cacheRows (h : Entitled s) {rows : FeatureRows}
    (hrows : ∀ k, s.settled tenantId k = none ∨
      rows k = (s.rows tenantId k).map (·.enabled)) (expiresAt : Int) :
    Entitled (s.setCache tenantId (some ⟨loadedMap rows, expiresAt⟩)) := by
  refine h.setCache ?_
  rintro _ ⟨⟩ k enabled hsettled
  rcases hrows k with hnone | hcurrent
  · cases hnone.symm.trans hsettled
  · obtain ⟨row, hrow, rfl⟩ := h.stored tenantId k enabled hsettled
    rw [Option.mem_def.mp hrow] at hcurrent
    exact loadedMap_of hcurrent

theorem Entitled.next (h : Entitled s) {phase : EntitlementPhase} {fails : Bool}
    (hcall : s.calls n = some ⟨tenantId, key, phase⟩)
    (hcareful : phase.Careful s tenantId key fails) :
    Entitled (s.next n tenantId key fails phase) := by
  have hchanges : phase.asks = none →
      (EntitlementCall.mk tenantId key phase).changes tenantId key = true := by
    intro hasks
    simp [EntitlementCall.changes, EntitlementCall.about, hasks]
  have hguard : irreversible key = true → ∀ input ∈ phase.input, input.enabled = true :=
    h.guarded n _ hcall
  cases phase with
  | querying task =>
    cases fails with
    | true => exact h.endCall hcall
    | false =>
      refine h.setCall hcall ?_
      rintro _ ⟨⟩
      refine ⟨by cases task <;> exact ⟨⟨rfl, rfl⟩, rfl, rfl⟩, ?_⟩
      rintro enabled hasks _ _ ⟨⟩
      obtain ⟨row, hrow, rfl⟩ := h.stored _ _ enabled (h.due n _ hcall enabled hasks).settled
      exact congrArg (Option.map _) hrow
  | loaded task rows =>
    have hcached := h.cacheRows hcareful (s.now + cacheTtlMs)
    cases task with
    | isEnabled due =>
      refine (hcached.answer fun enabled hdue => ?_).endCall hcall
      have hread := (h.due n _ hcall enabled (congrArg some hdue)).read _ rows rfl
      exact loadedMap_of hread
    | setEnabled input =>
      refine hcached.setCall hcall ?_
      rintro _ ⟨⟩
      exact ⟨⟨⟨rfl, rfl⟩, rfl, rfl⟩, nofun⟩
  | upserting input beforeEnabled now =>
    cases fails with
    | true => exact h.endCall hcall
    | false =>
      refine (h.upsert hcall (hchanges rfl) (fun hirreversible => hguard hirreversible input rfl)
        (hcareful rfl)).setCall hcall ?_
      rintro _ ⟨⟩
      exact ⟨⟨⟨rfl, rfl⟩, rfl, rfl⟩, nofun⟩
  | auditing input beforeEnabled =>
    cases fails with
    | true => exact h.endCall hcall
    | false =>
      refine (h.audit _).setCall hcall ?_
      rintro _ ⟨⟩
      exact ⟨⟨⟨rfl, rfl⟩, rfl, rfl⟩, nofun⟩
  | audited input =>
    have hempty : Entitled (s.setCache tenantId none) := h.setCache (by rintro _ ⟨⟩)
    have hsettled := hempty.settle hcall (hchanges rfl) (if_pos rfl)
    refine hsettled.endCall (?_ : _ = some (⟨tenantId, key, .audited input⟩ : EntitlementCall))
    unfold EntitlementState.settle
    split
    · split <;> exact hcall
    · exact hcall

/-- Every step in which no stale rows are cached and no irreversible feature is enabled
again. -/
theorem entitlementStep_entitled {action : EntitlementAction} (h : Entitled s)
    (hcareful : Careful s action) : Entitled (entitlementStep s action) := by
  cases action with
  | tick ms => exact ⟨h.numbered, h.stored, h.wrote, h.cached,
      fun n call hcall e hasks => (h.due n call hcall e hasks).mono rfl rfl, h.guarded,
      h.holds.answers, h.holds.kept⟩
  | isEnabled tenantId key => exact h.isEnabled tenantId key
  | setEnabled tenantId key input => exact h.setEnabled tenantId key input
  | next n fails =>
    rw [entitlementStep]
    cases hcall : s.calls n with
    | none => exact h
    | some call => exact h.next hcall (hcareful call hcall)

theorem entitled_noEntitlements : Entitled noEntitlements := by
  refine ⟨?_, ?_, ?_, ?_, ?_, ?_, ?_, ?_⟩
  · rintro _ _ ⟨⟩
  · rintro _ _ _ ⟨⟩
  · rintro _ _ _ ⟨⟩
  · rintro _ _ _ ⟨⟩
  · rintro _ _ ⟨⟩
  · rintro _ _ ⟨⟩
  · rintro _ ⟨⟩
  · rintro _ _ _ _ ⟨⟩

/-- In every run in which stale rows are cached only before the invalidation of the change
that made them stale, and an irreversible feature is enabled only while it is not, every
`isEnabled` answers the value that is due, and an irreversible feature that was enabled stays
so with the time of its first enabling. -/
theorem entitlements_hold (actions : List EntitlementAction)
    (h : Along entitlementStep Careful noEntitlements actions) :
    EntitlementsHold (actions.foldl entitlementStep noEntitlements) :=
  (h.invariant (fun _ _ hcareful hs => entitlementStep_entitled hs hcareful)
    entitled_noEntitlements).holds

/-! ## Stale rows, and a second enabling -/

def exSet (key : FeatureKey) : EntitlementAction :=
  .setEnabled "t1" key ⟨true, some "p1", none, none, true⟩

def exOn : List EntitlementAction := List.replicate 5 (.next 1 false)

/-- The rows are read before the change and come back behind it. -/
def exStale : List EntitlementAction :=
  [.isEnabled "t1" .aiInsights, .next 0 false, exSet .aiInsights] ++ exOn ++
    [.next 0 false, .isEnabled "t1" .aiInsights]

/-- The rows come back before the change. -/
def exFresh : List EntitlementAction :=
  [.isEnabled "t1" .aiInsights, .next 0 false, .next 0 false, exSet .aiInsights] ++
    List.replicate 3 (.next 1 false) ++
    [.isEnabled "t1" .aiInsights, .next 2 false, .next 2 false]

/-- The row forgets that the recordings of the first minute are encrypted. -/
def exTwice : List EntitlementAction :=
  [exSet .recordingEncryption] ++ List.replicate 5 (.next 0 false) ++
    [.tick 60000, exSet .recordingEncryption] ++ exOn

theorem entitlements_hold_exFresh :
    EntitlementsHold (exFresh.foldl entitlementStep noEntitlements) ∧
      (exFresh.foldl entitlementStep noEntitlements).answers = [(some true, true), (none, false)] :=
  ⟨entitlements_hold exFresh (by decide), by decide⟩

theorem stale_fill_and_second_enabling :
    ¬ EntitlementsHold (exStale.foldl entitlementStep noEntitlements) ∧
      ¬ EntitlementsHold (exTwice.foldl entitlementStep noEntitlements) := by
  constructor
  · intro h
    have hanswers : (exStale.foldl entitlementStep noEntitlements).answers =
        [(some true, false), (none, false)] := by decide
    have hdue := h.answers (some true, false) (by rw [hanswers]; simp) true rfl
    cases hdue
  · intro h
    have hfirst : (exTwice.foldl entitlementStep noEntitlements).firstEnabled "t1"
        .recordingEncryption = some 0 := by decide
    have hrow : ((exTwice.foldl entitlementStep noEntitlements).rows "t1"
        .recordingEncryption).map (·.enabledAt) = some (some 60000) := by decide
    obtain ⟨row, hmem, -, htime⟩ := h.kept "t1" .recordingEncryption rfl 0 hfirst
    rw [Option.mem_def.mp hmem, Option.map_some, htime] at hrow
    cases hrow

end KasterCti.Common
