import KasterCti.Library.JsText
import KasterCti.Library.Trace

/-!
# Opt-out and the blocklist

`OptOutService` switches the EXACT entry of a number on and off for callers. An
administrator keeps entries in the same table. An entry whose source type starts with
`OPT_OUT_` is the runtime's own; any other passes for a manual one, and the runtime
switches it off only where requester, branch, DID and number are those it finds in the
row.

Results:
1. `opt_out_undone_iff`: when an unregister leaves the entry inactive.
2. `smart_ars_not_undone`: registered through one DID, unregistered through another.
3. `admin_block_kept_iff`: when no run lifts the block of an administrator.
4. `admin_block_lifted`: a block switched on again by hand, lifted by an old requester.
-/

namespace KasterCti.OptOut

open JsText Trace

/-! ## 1. The service -/

/-- `ExecuteOptOutActionDto`, and `ExecuteSmartOptOutDto` where a target is given. -/
structure ExecuteOptOutInput where
  tenantId : String
  branchId : Option String
  entryDid : Option String
  requesterPhoneNumber : String
  targetPhoneNumber : Option String
  sourceType : String
  smsTemplateId : Option String

structure ExecuteSmartArsInput where
  tenantId : String
  branchId : Option String
  entryDid : Option String
  requesterPhoneNumber : String
  smsTemplateId : Option String

structure BlocklistEntry where
  phoneNumber : String
  normalizedPhoneNumber : Option String
  requesterPhoneNumber : Option String
  normalizedRequesterPhone : Option String
  sourceType : Option String
  branchId : Option String
  entryDid : Option String
  description : Option String
  isActive : Bool
deriving DecidableEq

structure NormalizedExecutionInput where
  tenantId : String
  branchId : Option String
  entryDid : Option String
  requesterPhoneNumber : String
  targetPhoneNumber : String
  sourceType : String
  smsTemplateId : Option String
deriving DecidableEq

inductive OptOutError
  | badRequest (message : String)
  | notFound (message : String)
deriving DecidableEq

/-- `tenantId_matchType_phoneNumber`, of match type EXACT. -/
structure ExactWhere where
  tenantId : String
  phoneNumber : String
deriving DecidableEq

/-- The EXACT rows of `asteriskBlocklistEntry`. -/
abbrev Blocklist := ExactWhere → Option BlocklistEntry

/-- `value?.trim() || null` -/
def trimmed (value : Option String) : Option String := (value.map trim).filter (· ≠ "")

def normalizePhoneNumber (value fieldName : String) : Except OptOutError String :=
  let normalized := digitsOnly value
  if 8 ≤ normalized.toList.length && normalized.toList.length ≤ 16 then .ok normalized
  else .error (.badRequest (fieldName ++ " must contain 8 to 16 digits"))

def normalizeExecutionInput (input : ExecuteOptOutInput) :
    Except OptOutError NormalizedExecutionInput := do
  let tenantId := trim input.tenantId
  if tenantId = "" then throw (.badRequest "tenantId is required")
  let requesterPhoneNumber ←
    normalizePhoneNumber input.requesterPhoneNumber "requesterPhoneNumber"
  let targetPhoneNumber ←
    match input.targetPhoneNumber with
    | some target => normalizePhoneNumber target "targetPhoneNumber"
    | none => pure requesterPhoneNumber
  let sourceType := trim input.sourceType
  if sourceType = "" then throw (.badRequest "sourceType is required")
  pure {
    tenantId := tenantId
    branchId := trimmed input.branchId
    entryDid := (input.entryDid.filter (· ≠ "")).map digitsOnly
    requesterPhoneNumber := requesterPhoneNumber
    targetPhoneNumber := targetPhoneNumber
    sourceType := sourceType
    smsTemplateId := trimmed input.smsTemplateId }

def buildExactWhere (normalized : NormalizedExecutionInput) : ExactWhere :=
  ⟨normalized.tenantId, normalized.targetPhoneNumber⟩

def isOptOutManagedSourceType (sourceType : Option String) : Bool :=
  sourceType.any fun sourceType => startsWith sourceType "OPT_OUT_"

def isRuntimeReactivatedManualEntry (entry : BlocklistEntry)
    (normalized : NormalizedExecutionInput) : Bool :=
  entry.isActive &&
    entry.normalizedRequesterPhone = some normalized.requesterPhoneNumber &&
    entry.branchId = normalized.branchId &&
    entry.entryDid = normalized.entryDid &&
    entry.normalizedPhoneNumber.getD entry.phoneNumber = normalized.targetPhoneNumber

/-- The row that `registerExistingEntry` leaves. -/
def registerExistingEntry (existing : BlocklistEntry) (normalized : NormalizedExecutionInput) :
    BlocklistEntry :=
  if !isOptOutManagedSourceType existing.sourceType then
    if existing.isActive then existing
    else
      { existing with
        isActive := true
        requesterPhoneNumber := some normalized.requesterPhoneNumber
        normalizedRequesterPhone := some normalized.requesterPhoneNumber
        normalizedPhoneNumber := some normalized.targetPhoneNumber
        branchId := normalized.branchId
        entryDid := normalized.entryDid }
  else
    { existing with
      requesterPhoneNumber := some normalized.requesterPhoneNumber
      normalizedPhoneNumber := some normalized.targetPhoneNumber
      normalizedRequesterPhone := some normalized.requesterPhoneNumber
      sourceType := some normalized.sourceType
      branchId := normalized.branchId
      entryDid := normalized.entryDid
      description := none
      isActive := true }

/-- The row that `createBlocklistEntry` inserts. -/
def createdEntry (normalized : NormalizedExecutionInput) : BlocklistEntry where
  phoneNumber := normalized.targetPhoneNumber
  normalizedPhoneNumber := some normalized.targetPhoneNumber
  requesterPhoneNumber := some normalized.requesterPhoneNumber
  normalizedRequesterPhone := some normalized.requesterPhoneNumber
  sourceType := some normalized.sourceType
  branchId := normalized.branchId
  entryDid := normalized.entryDid
  description := none
  isActive := true

def Blocklist.set (table : Blocklist) (key : ExactWhere) (entry : BlocklistEntry) : Blocklist :=
  fun k => if k = key then some entry else table k

/-- An insert that the unique key refuses falls back to the row that is there. -/
def createBlocklistEntry (table : Blocklist) (normalized : NormalizedExecutionInput) :
    BlocklistEntry :=
  match table (buildExactWhere normalized) with
  | some existing => registerExistingEntry existing normalized
  | none => createdEntry normalized

structure SmsTemplate where
  templateId : String
  templateName : Option String
  category : Option String
  content : Option String

structure ResolvedOptOutSmsTemplate where
  id : String
  name : Option String
  content : Option String
  raw : SmsTemplate

/-- `resolveSmsTemplate`. `templates` finds an active template of a tenant. -/
def resolveSmsTemplate (templates : String → String → Option SmsTemplate) (tenantId : String)
    (smsTemplateId : Option String) : Option ResolvedOptOutSmsTemplate :=
  (trimmed smsTemplateId).bind fun templateId =>
    (templates tenantId templateId).map fun template =>
      ⟨template.templateId, template.templateName, template.content, template⟩

inductive OptOutResultAction
  | REGISTER
  | UNREGISTER

structure OptOutExecutionResult where
  action : OptOutResultAction
  normalized : NormalizedExecutionInput
  blocklistEntry : BlocklistEntry
  removed : Option Bool
  smsTemplate : Option ResolvedOptOutSmsTemplate

section Service

variable (templates : String → String → Option SmsTemplate)

/-- `register`: the answer, and the table behind it. -/
def register (table : Blocklist) (input : ExecuteOptOutInput) :
    Except OptOutError (OptOutExecutionResult × Blocklist) := do
  let normalized ← normalizeExecutionInput input
  let entry :=
    match table (buildExactWhere normalized) with
    | some existing => registerExistingEntry existing normalized
    | none => createBlocklistEntry table normalized
  pure (⟨.REGISTER, normalized, entry, none,
      resolveSmsTemplate templates normalized.tenantId normalized.smsTemplateId⟩,
    table.set (buildExactWhere normalized) entry)

/-- `unregister`. An entry that passes for a manual one is left alone, unless it looks as
if the runtime had switched it on. -/
def unregister (table : Blocklist) (input : ExecuteOptOutInput) :
    Except OptOutError (OptOutExecutionResult × Blocklist) := do
  let normalized ← normalizeExecutionInput input
  let smsTemplate := resolveSmsTemplate templates normalized.tenantId normalized.smsTemplateId
  match table (buildExactWhere normalized) with
  | none =>
    throw (.notFound ("EXACT opt-out entry not found for tenant " ++ normalized.tenantId ++
      " and phone " ++ normalized.targetPhoneNumber))
  | some existing =>
    let removed :=
      if isOptOutManagedSourceType existing.sourceType then existing.isActive
      else isRuntimeReactivatedManualEntry existing normalized
    let entry := if removed then { existing with isActive := false } else existing
    pure (⟨.UNREGISTER, normalized, entry, some removed, smsTemplate⟩,
      table.set (buildExactWhere normalized) entry)

/-- What `SmartArsRuntimeService.registerOptOut` hands on. -/
def smartArsOptOutInput (input : ExecuteSmartArsInput) : Except OptOutError ExecuteOptOutInput := do
  let tenantId := trim input.tenantId
  if tenantId = "" then throw (.badRequest "tenantId is required")
  let requesterPhoneNumber ←
    normalizePhoneNumber input.requesterPhoneNumber "requesterPhoneNumber"
  pure {
    tenantId := tenantId
    branchId := trimmed input.branchId
    entryDid := trimmed input.entryDid
    requesterPhoneNumber := requesterPhoneNumber
    targetPhoneNumber := none
    sourceType := "SMART_ARS_OPT_OUT"
    smsTemplateId := none }

def registerOptOut (table : Blocklist) (input : ExecuteSmartArsInput) :
    Except OptOutError (OptOutExecutionResult × Blocklist) := do
  register templates table (← smartArsOptOutInput input)

end Service

/-! ## 2. Calls of the runtime -/

/-- What the hooks of the dialplan send: the 080 menus and the ARS flow call `register`
and `unregister` with a source type of their own, Smart ARS has its own endpoint. -/
inductive RuntimeCall
  | register (input : ExecuteOptOutInput)
  | smartArs (input : ExecuteSmartArsInput)
  | unregister (input : ExecuteOptOutInput)

namespace RuntimeCall

def isUnregister : RuntimeCall → Bool
  | unregister _ => true
  | _ => false

/-- What the call asks for, once its fields have passed their checks. -/
def request : RuntimeCall → Except OptOutError NormalizedExecutionInput
  | register input => normalizeExecutionInput input
  | smartArs input => smartArsOptOutInput input >>= normalizeExecutionInput
  | unregister input => normalizeExecutionInput input

/-- The table behind the call. One that throws has written nothing. -/
def apply (templates : String → String → Option SmsTemplate) (table : Blocklist) :
    RuntimeCall → Blocklist
  | register input => ((OptOut.register templates table input).map (·.2)).toOption.getD table
  | smartArs input => ((registerOptOut templates table input).map (·.2)).toOption.getD table
  | unregister input => ((OptOut.unregister templates table input).map (·.2)).toOption.getD table

end RuntimeCall

/-- The row that an accepted registration leaves. -/
def registered (row : Option BlocklistEntry) (normalized : NormalizedExecutionInput) :
    BlocklistEntry :=
  (row.map (registerExistingEntry · normalized)).getD (createdEntry normalized)

/-- The row that an accepted unregister leaves. -/
def unregistered (existing : BlocklistEntry) (normalized : NormalizedExecutionInput) :
    BlocklistEntry :=
  if isOptOutManagedSourceType existing.sourceType ||
      isRuntimeReactivatedManualEntry existing normalized then
    { existing with isActive := false }
  else existing

variable {templates : String → String → Option SmsTemplate} {table : Blocklist}
  {call : RuntimeCall} {n u : NormalizedExecutionInput} {key : ExactWhere} {e : BlocklistEntry}

@[simp] theorem Blocklist.set_self (table : Blocklist) (key : ExactWhere) (e : BlocklistEntry) :
    table.set key e key = some e := if_pos rfl

theorem Blocklist.set_other {other : ExactWhere} (h : other ≠ key) :
    table.set key e other = table other := if_neg h

theorem register_ok {input : ExecuteOptOutInput} (h : normalizeExecutionInput input = .ok n) :
    ((register templates table input).map (·.2)).toOption.getD table =
      table.set (buildExactWhere n) (registered (table (buildExactWhere n)) n) := by
  unfold register
  rw [h]
  cases hrow : table (buildExactWhere n) with
  | none =>
    have hcreate : createBlocklistEntry table n = createdEntry n := by
      rw [createBlocklistEntry, hrow]
    simp only [bind, Except.bind, hrow, hcreate]
    rfl
  | some existing =>
    simp only [bind, Except.bind, hrow]
    rfl

theorem unregistered_eq (existing : BlocklistEntry) (n : NormalizedExecutionInput) :
    unregistered existing n =
      if (if isOptOutManagedSourceType existing.sourceType then existing.isActive
        else isRuntimeReactivatedManualEntry existing n) then { existing with isActive := false }
      else existing := by
  obtain ⟨_, _, _, _, _, _, _, _, isActive⟩ := existing
  unfold unregistered
  cases isOptOutManagedSourceType _ <;> cases isActive <;> simp

theorem apply_refused {error : OptOutError} (h : call.request = .error error) :
    call.apply templates table = table := by
  cases call with
  | register input =>
    rw [RuntimeCall.request] at h
    rw [RuntimeCall.apply, register, h]
    rfl
  | smartArs input =>
    rw [RuntimeCall.request] at h
    rw [RuntimeCall.apply, registerOptOut]
    cases hs : smartArsOptOutInput input with
    | error _ => rfl
    | ok input' =>
      simp only [hs, bind, Except.bind] at h
      simp only [bind, Except.bind, register, h]
      rfl
  | unregister input =>
    rw [RuntimeCall.request] at h
    rw [RuntimeCall.apply, unregister, h]
    rfl

theorem apply_registration (hcall : call.isUnregister = false) (h : call.request = .ok n) :
    call.apply templates table =
      table.set (buildExactWhere n) (registered (table (buildExactWhere n)) n) := by
  cases call with
  | register input =>
    rw [RuntimeCall.request] at h
    rw [RuntimeCall.apply, register_ok h]
  | smartArs input =>
    rw [RuntimeCall.request] at h
    rw [RuntimeCall.apply, registerOptOut]
    cases hs : smartArsOptOutInput input with
    | error _ =>
      rw [hs] at h
      cases h
    | ok input' =>
      simp only [hs, bind, Except.bind] at h ⊢
      rw [register_ok h]
  | unregister input => cases hcall

/-- An unregister of a number without an entry throws. -/
theorem apply_unregister {input : ExecuteOptOutInput}
    (h : (RuntimeCall.unregister input).request = .ok n) :
    (RuntimeCall.unregister input).apply templates table =
      match table (buildExactWhere n) with
      | none => table
      | some existing => table.set (buildExactWhere n) (unregistered existing n) := by
  rw [RuntimeCall.request] at h
  rw [RuntimeCall.apply, unregister, h]
  cases hrow : table (buildExactWhere n) with
  | none =>
    simp only [bind, Except.bind, hrow]
    rfl
  | some existing =>
    simp only [bind, Except.bind, hrow, unregistered_eq]
    rfl

/-- What a call does to the row of `key`. -/
inductive RowStep (call : RuntimeCall) (key : ExactWhere) (e : BlocklistEntry) :
    BlocklistEntry → Prop
  | kept : (∀ n, call.request = .ok n → buildExactWhere n ≠ key) → RowStep call key e e
  | registered (n : NormalizedExecutionInput) :
      call.isUnregister = false → call.request = .ok n → buildExactWhere n = key →
      RowStep call key e (registerExistingEntry e n)
  | unregistered (n : NormalizedExecutionInput) :
      call.isUnregister = true → call.request = .ok n → buildExactWhere n = key →
      RowStep call key e (unregistered e n)

/-- No call of the runtime takes a row away. -/
theorem apply_row (templates : String → String → Option SmsTemplate) (call : RuntimeCall)
    (hrow : table key = some e) :
    ∃ e', call.apply templates table key = some e' ∧ RowStep call key e e' := by
  cases hreq : call.request with
  | error _ =>
    refine ⟨e, ?_, .kept ?_⟩
    · rw [apply_refused hreq, hrow]
    · rw [hreq]
      rintro _ ⟨⟩
  | ok n =>
    cases hcall : call.isUnregister with
    | false =>
      rw [apply_registration hcall hreq]
      by_cases hk : buildExactWhere n = key
      · refine ⟨registerExistingEntry e n, ?_, .registered n hcall hreq hk⟩
        rw [hk, Blocklist.set_self, hrow]
        rfl
      · refine ⟨e, ?_, .kept ?_⟩
        · rw [Blocklist.set_other (Ne.symm hk), hrow]
        · rw [hreq]
          rintro m ⟨⟩
          exact hk
    | true =>
      obtain ⟨input, rfl⟩ : ∃ input, call = .unregister input := by
        cases call with
        | unregister input => exact ⟨input, rfl⟩
        | register => cases hcall
        | smartArs => cases hcall
      rw [apply_unregister hreq]
      by_cases hk : buildExactWhere n = key
      · refine ⟨unregistered e n, ?_, .unregistered n rfl hreq hk⟩
        rw [hk, hrow]
        exact Blocklist.set_self _ _ _
      · refine ⟨e, ?_, .kept ?_⟩
        · cases table (buildExactWhere n) with
          | none => exact hrow
          | some existing => rw [← hrow]; exact Blocklist.set_other (Ne.symm hk)
        · rw [hreq]
          rintro m ⟨⟩
          exact hk

/-! ## 3. What a caller can undo -/

/-- The entry is there and blocks nobody. -/
def Inactive (table : Blocklist) (key : ExactWhere) : Prop :=
  ∃ e, table key = some e ∧ e.isActive = false

/-- The row keeps its number, and remembers no other. -/
def OwnNumber (key : ExactWhere) (e : BlocklistEntry) : Prop :=
  e.phoneNumber = key.phoneNumber ∧ e.normalizedPhoneNumber.getD e.phoneNumber = key.phoneNumber

/-- Every registration of the number is of a source type of the 080 menus. -/
def ManagedRegistrations (key : ExactWhere) (calls : List RuntimeCall) : Prop :=
  ∀ call ∈ calls, call.isUnregister = false → ∀ n, call.request = .ok n →
    buildExactWhere n = key → isOptOutManagedSourceType (some n.sourceType) = true

@[simp] theorem sourceType_unregistered : (unregistered e n).sourceType = e.sourceType := by
  unfold unregistered
  split <;> rfl

theorem managed_registerExistingEntry :
    isOptOutManagedSourceType (registerExistingEntry e n).sourceType = true ↔
      isOptOutManagedSourceType e.sourceType = true ∧
        isOptOutManagedSourceType (some n.sourceType) = true := by
  unfold registerExistingEntry
  cases hmanaged : isOptOutManagedSourceType e.sourceType <;> cases hactive : e.isActive <;>
    simp [hmanaged]

theorem OwnNumber.registerExistingEntry (hk : buildExactWhere n = key) (h : OwnNumber key e) :
    OwnNumber key (registerExistingEntry e n) := by
  subst hk
  unfold OptOut.registerExistingEntry
  split
  · split
    · exact h
    · exact ⟨h.1, rfl⟩
  · exact ⟨h.1, rfl⟩

theorem OwnNumber.unregistered (h : OwnNumber key e) : OwnNumber key (unregistered e n) := by
  unfold OptOut.unregistered
  split
  · exact h
  · exact h

variable {e' : BlocklistEntry}

theorem OwnNumber.step (hstep : RowStep call key e e') (h : OwnNumber key e) :
    OwnNumber key e' := by
  cases hstep with
  | kept _ => exact h
  | registered n _ _ hk => exact h.registerExistingEntry hk
  | unregistered n _ _ _ => exact h.unregistered

/-- Once a registration has given the row another source type, none gives it back. -/
theorem managed_step (hstep : RowStep call key e e') :
    isOptOutManagedSourceType e'.sourceType = true ↔
      isOptOutManagedSourceType e.sourceType = true ∧ ManagedRegistrations key [call] := by
  have hsingle : ManagedRegistrations key [call] ↔ (call.isUnregister = false →
      ∀ n, call.request = .ok n → buildExactWhere n = key →
        isOptOutManagedSourceType (some n.sourceType) = true) := List.forall_mem_singleton
  rw [hsingle]
  cases hstep with
  | kept hkeep =>
    refine ⟨fun h => ⟨h, fun _ n hn hk => absurd hk (hkeep n hn)⟩, And.left⟩
  | registered n hcall hn hk =>
    rw [managed_registerExistingEntry]
    constructor
    · rintro ⟨hold, hnew⟩
      refine ⟨hold, ?_⟩
      intro _ m hm _
      obtain rfl : n = m := Except.ok.inj (hn.symm.trans hm)
      exact hnew
    · rintro ⟨hold, hall⟩
      exact ⟨hold, hall hcall n hn hk⟩
  | unregistered n hcall _ _ =>
    rw [sourceType_unregistered]
    refine ⟨fun h => ⟨h, fun hno => ?_⟩, And.left⟩
    rw [hcall] at hno
    cases hno

theorem managedRegistrations_cons {calls : List RuntimeCall} :
    ManagedRegistrations key (call :: calls) ↔
      ManagedRegistrations key [call] ∧ ManagedRegistrations key calls := by
  unfold ManagedRegistrations
  rw [List.forall_mem_cons, List.forall_mem_singleton]

/-- The row after calls of the runtime. -/
theorem calls_row (templates : String → String → Option SmsTemplate) (calls : List RuntimeCall)
    (hrow : table key = some e) (hown : OwnNumber key e) :
    ∃ e', calls.foldl (RuntimeCall.apply templates) table key = some e' ∧ OwnNumber key e' ∧
      (isOptOutManagedSourceType e'.sourceType = true ↔
        isOptOutManagedSourceType e.sourceType = true ∧ ManagedRegistrations key calls) := by
  induction calls generalizing table e with
  | nil => exact ⟨e, hrow, hown, by simp [ManagedRegistrations]⟩
  | cons call calls ih =>
    obtain ⟨e₁, hrow₁, hstep⟩ := apply_row templates call hrow
    obtain ⟨e', hrow', hown', hmanaged⟩ := ih hrow₁ (hown.step hstep)
    refine ⟨e', hrow', hown', ?_⟩
    rw [hmanaged, managed_step hstep, and_assoc]
    exact and_congr_right' managedRegistrations_cons.symm

/-- The row still shows this requester, branch and DID. -/
def Remembers (e : BlocklistEntry) (n : NormalizedExecutionInput) : Prop :=
  e.normalizedRequesterPhone = some n.requesterPhoneNumber ∧ e.branchId = n.branchId ∧
    e.entryDid = n.entryDid

theorem isRuntimeReactivatedManualEntry_iff (hown : OwnNumber (buildExactWhere n) e) :
    isRuntimeReactivatedManualEntry e n = true ↔ e.isActive = true ∧ Remembers e n := by
  have hnumber : e.normalizedPhoneNumber.getD e.phoneNumber = n.targetPhoneNumber := hown.2
  simp only [isRuntimeReactivatedManualEntry, Remembers, Bool.and_eq_true, decide_eq_true_eq,
    hnumber, and_true, and_assoc]

theorem isActive_unregistered_iff (hown : OwnNumber (buildExactWhere n) e) :
    (unregistered e n).isActive = false ↔ e.isActive = false ∨
      isOptOutManagedSourceType e.sourceType = true ∨ Remembers e n := by
  unfold unregistered
  cases hactive : e.isActive with
  | false =>
    split
    · simp
    · simp [hactive]
  | true =>
    have hlifts : (isOptOutManagedSourceType e.sourceType || isRuntimeReactivatedManualEntry e n) =
        true ↔ isOptOutManagedSourceType e.sourceType = true ∨ Remembers e n := by
      rw [Bool.or_eq_true, isRuntimeReactivatedManualEntry_iff hown, hactive]
      simp only [true_and]
    rw [← hlifts]
    split
    · next h => simp [h]
    · next h => simp [h, hactive]

/-- An unregister leaves an entry that the runtime has created inactive exactly when
every registration of the number before it was of an `OPT_OUT_` source type, or the entry
is inactive already, or it remembers this requester with this branch and DID. Where
nothing comes between the two calls, exactly when the registration was of such a source
type or came with the same branch and DID. -/
theorem opt_out_undone_iff (templates : String → String → Option SmsTemplate) (table : Blocklist)
    (first : RuntimeCall) (between : List RuntimeCall) (input : ExecuteOptOutInput)
    (n u : NormalizedExecutionInput) (hfirst : first.isUnregister = false)
    (hn : first.request = .ok n) (hu : (RuntimeCall.unregister input).request = .ok u)
    (hfresh : table (buildExactWhere n) = none) (hnumber : buildExactWhere u = buildExactWhere n)
    (hrequester : u.requesterPhoneNumber = n.requesterPhoneNumber) :
    ∃ e, (first :: between).foldl (RuntimeCall.apply templates) table (buildExactWhere n) = some e ∧
      (Inactive ((first :: (between ++ [.unregister input])).foldl (RuntimeCall.apply templates) table)
          (buildExactWhere n) ↔
        ManagedRegistrations (buildExactWhere n) (first :: between) ∨ e.isActive = false ∨
          Remembers e u) ∧
      (between = [] →
        (Inactive ([first, .unregister input].foldl (RuntimeCall.apply templates) table)
            (buildExactWhere n) ↔
          isOptOutManagedSourceType (some n.sourceType) = true ∨
            n.branchId = u.branchId ∧ n.entryDid = u.entryDid)) := by
  -- the row that the first call inserts
  have hcreated : first.apply templates table (buildExactWhere n) = some (createdEntry n) := by
    rw [apply_registration hfirst hn, hfresh]
    exact Blocklist.set_self _ _ _
  have hmanagedFirst : ManagedRegistrations (buildExactWhere n) [first] ↔
      isOptOutManagedSourceType (some n.sourceType) = true := by
    refine Iff.trans List.forall_mem_singleton ⟨fun h => h hfirst n hn rfl, ?_⟩
    intro h _ m hm _
    obtain rfl : n = m := Except.ok.inj (hn.symm.trans hm)
    exact h
  have hown : OwnNumber (buildExactWhere n) (createdEntry n) := ⟨rfl, rfl⟩
  -- an unregister of any row of this number
  have hlast : ∀ (t : Blocklist) (e : BlocklistEntry), t (buildExactWhere n) = some e →
      OwnNumber (buildExactWhere n) e →
      (Inactive ((RuntimeCall.unregister input).apply templates t) (buildExactWhere n) ↔
        e.isActive = false ∨ isOptOutManagedSourceType e.sourceType = true ∨ Remembers e u) := by
    intro t e hrow hown
    have hafter : (RuntimeCall.unregister input).apply templates t (buildExactWhere n) =
        some (unregistered e u) := by
      rw [apply_unregister hu, hnumber, hrow]
      exact Blocklist.set_self _ _ _
    rw [← isActive_unregistered_iff (hnumber ▸ hown)]
    simp [Inactive, hafter]
  obtain ⟨e, hrow, howned, hmanaged⟩ := calls_row templates between hcreated hown
  refine ⟨e, hrow, ?_, ?_⟩
  · rw [List.foldl_cons, List.foldl_append, List.foldl_cons, List.foldl_nil, hlast _ e hrow howned,
      hmanaged, managedRegistrations_cons, hmanagedFirst]
    exact or_left_comm
  · intro _
    rw [List.foldl_cons, List.foldl_cons, List.foldl_nil, hlast _ _ hcreated hown]
    simp [createdEntry, Remembers, hrequester]

/-- Through `0801111111`, by Smart ARS. -/
def exSmartArs : RuntimeCall :=
  .smartArs ⟨"t1", some "b1", some "0801111111", "010-1234-5678", none⟩

/-- Through `0801111111`, by the menu. -/
def exMenu : RuntimeCall :=
  .register ⟨"t1", some "b1", some "0801111111", "010-1234-5678", none, "OPT_OUT_080_DTMF", none⟩

/-- Through `0802222222`, by the menu. -/
def exUnregister : ExecuteOptOutInput :=
  ⟨"t1", some "b1", some "0802222222", "010-1234-5678", none, "OPT_OUT_080_DTMF", none⟩

def exNormalized (entryDid sourceType : String) : NormalizedExecutionInput :=
  ⟨"t1", some "b1", some entryDid, "01012345678", "01012345678", sourceType, none⟩

theorem opt_out_undone_menu :
    Inactive ([exMenu, .unregister exUnregister].foldl (RuntimeCall.apply fun _ _ => none)
      fun _ => none) (buildExactWhere (exNormalized "0801111111" "OPT_OUT_080_DTMF")) := by
  obtain ⟨_, _, _, hdirect⟩ := opt_out_undone_iff (fun _ _ => none) (fun _ => none) exMenu []
    exUnregister (exNormalized "0801111111" "OPT_OUT_080_DTMF")
    (exNormalized "0802222222" "OPT_OUT_080_DTMF") rfl (by decide) (by decide) rfl
    rfl rfl
  exact (hdirect rfl).2 (.inl (by decide))

/-- Registered through one DID by Smart ARS, unregistered through another. -/
theorem smart_ars_not_undone :
    ¬ ∀ (templates : String → String → Option SmsTemplate) (table : Blocklist)
      (first : RuntimeCall) (between : List RuntimeCall) (input : ExecuteOptOutInput)
      (n u : NormalizedExecutionInput), first.isUnregister = false →
      first.request = .ok n → (RuntimeCall.unregister input).request = .ok u →
      table (buildExactWhere n) = none → buildExactWhere u = buildExactWhere n →
      u.requesterPhoneNumber = n.requesterPhoneNumber →
      Inactive ((first :: (between ++ [.unregister input])).foldl (RuntimeCall.apply templates) table)
        (buildExactWhere n) := by
  intro h
  obtain ⟨e, he, hoff⟩ := h (fun _ _ => none) (fun _ => none) exSmartArs [] exUnregister
    (exNormalized "0801111111" "SMART_ARS_OPT_OUT") (exNormalized "0802222222" "OPT_OUT_080_DTMF")
    rfl (by decide) (by decide) rfl rfl rfl
  have hon : (([exSmartArs, .unregister exUnregister].foldl (RuntimeCall.apply fun _ _ => none)
      fun _ => none) ⟨"t1", "01012345678"⟩).map (·.isActive) = some true := by
    decide
  have hsame := hon.symm.trans (congrArg (Option.map (·.isActive)) he)
  rw [Option.map_some, hoff] at hsame
  cases hsame

/-! ## 4. The block of an administrator -/

inductive Activator
  | administrator
  | runtime (requesterPhoneNumber : String)
deriving DecidableEq

/-- The table, and who has last switched an entry from inactive to active. -/
structure Audited where
  table : Blocklist
  activatedBy : ExactWhere → Option Activator

/-- `updateBlocklistEntry` stands for the edits that change `isActive` alone. -/
inductive Action
  | runtime (call : RuntimeCall)
  | updateBlocklistEntry (key : ExactWhere) (isActive : Bool)

def active (table : Blocklist) (key : ExactWhere) : Bool := (table key).any (·.isActive)

namespace Action

variable (templates : String → String → Option SmsTemplate)

def apply (table : Blocklist) : Action → Blocklist
  | runtime call => call.apply templates table
  | updateBlocklistEntry key isActive => fun k =>
    if k = key then (table k).map ({ · with isActive := isActive }) else table k

def actor : Action → Option Activator
  | runtime call => call.request.toOption.map (.runtime ·.requesterPhoneNumber)
  | updateBlocklistEntry _ _ => some .administrator

def step (s : Audited) (a : Action) : Audited where
  table := a.apply templates s.table
  activatedBy := fun key =>
    if !active s.table key && active (a.apply templates s.table) key then a.actor
    else s.activatedBy key

end Action

/-- `createBlocklistEntry` of the administrator: neither a source type nor a requester. -/
def manualEntry (phoneNumber : String) (branchId description : Option String)
    (isActive : Option Bool) : BlocklistEntry where
  phoneNumber := phoneNumber
  normalizedPhoneNumber := none
  requesterPhoneNumber := none
  normalizedRequesterPhone := none
  sourceType := none
  branchId := branchId
  entryDid := none
  description := trimmed description
  isActive := isActive.getD true

/-- An entry that was made by hand, and who its activation is put down to. -/
structure Manual (key : ExactWhere) (s : Audited) (e : BlocklistEntry) : Prop where
  row : s.table key = some e
  unmanaged : isOptOutManagedSourceType e.sourceType = false
  own : OwnNumber key e
  activated : e.isActive = true → s.activatedBy key = some .administrator ∨
    ∃ requester, s.activatedBy key = some (.runtime requester) ∧
      e.normalizedRequesterPhone = some requester

variable {s : Audited} {a : Action}

theorem table_step_runtime :
    ((Action.runtime call).step templates s).table = call.apply templates s.table := rfl

theorem active_of_row (h : table key = some e) : active table key = e.isActive := by
  rw [active, h]
  rfl

/-- Where the step does not switch the entry on, its activation stays with whom it was. -/
theorem activatedBy_kept (hrow : s.table key = some e)
    (hrow' : a.apply templates s.table key = some e') (h : e'.isActive = true → e.isActive = true) :
    (a.step templates s).activatedBy key = s.activatedBy key := by
  refine if_neg ?_
  rw [active_of_row hrow, active_of_row hrow', Bool.and_eq_true, Bool.not_eq_true']
  rintro ⟨hoff, hon⟩
  rw [h hon] at hoff
  cases hoff

theorem activatedBy_switched (hrow : s.table key = some e)
    (hrow' : a.apply templates s.table key = some e') (hoff : e.isActive = false)
    (hon : e'.isActive = true) : (a.step templates s).activatedBy key = a.actor := by
  refine if_pos ?_
  rw [active_of_row hrow, active_of_row hrow', hoff, hon]
  rfl

/-- A step that leaves the row as it is, or switches it off, leaves it manual. -/
theorem Manual.of_kept (h : Manual key s e) (hrow' : a.apply templates s.table key = some e')
    (hkept : e' = e ∨ e' = { e with isActive := false }) : Manual key (a.step templates s) e' := by
  obtain rfl | rfl := hkept
  · refine ⟨hrow', h.unmanaged, h.own, ?_⟩
    rw [activatedBy_kept h.row hrow' id]
    exact h.activated
  · exact ⟨hrow', h.unmanaged, h.own, nofun⟩

theorem Manual.runtime (call : RuntimeCall) (h : Manual key s e) :
    ∃ e', Manual key ((Action.runtime call).step templates s) e' := by
  obtain ⟨e', hrow, hstep⟩ := apply_row templates call h.row
  have hrow' : (Action.runtime call).apply templates s.table key = some e' := hrow
  refine ⟨e', ?_⟩
  cases hstep with
  | kept _ => exact h.of_kept hrow' (.inl rfl)
  | unregistered n _ _ _ =>
    refine h.of_kept hrow' ?_
    unfold OptOut.unregistered
    split
    · exact .inr rfl
    · exact .inl rfl
  | registered n _ hn hk =>
    cases hactive : e.isActive with
    | true =>
      refine h.of_kept hrow' (.inl ?_)
      simp [registerExistingEntry, h.unmanaged, hactive]
    | false =>
      refine ⟨hrow', ?_, h.own.registerExistingEntry hk, ?_⟩
      · simp [registerExistingEntry, h.unmanaged, hactive]
      · intro hon
        refine .inr ⟨n.requesterPhoneNumber, ?_, ?_⟩
        · rw [activatedBy_switched h.row hrow' hactive hon, Action.actor, hn]
          rfl
        · simp [registerExistingEntry, h.unmanaged, hactive]

theorem Manual.updateBlocklistEntry (where? : ExactWhere) (isActive : Bool) (h : Manual key s e) :
    ∃ e', Manual key ((Action.updateBlocklistEntry where? isActive).step templates s) e' := by
  by_cases hk : key = where?
  · have hrow' : (Action.updateBlocklistEntry where? isActive).apply templates s.table key =
        some { e with isActive := isActive } := by
      refine (if_pos hk).trans ?_
      rw [h.row]
      rfl
    refine ⟨_, hrow', h.unmanaged, h.own, ?_⟩
    intro hon
    cases hactive : e.isActive with
    | false => exact .inl (activatedBy_switched h.row hrow' hactive hon)
    | true =>
      rw [activatedBy_kept h.row hrow' fun _ => hactive]
      exact h.activated hactive
  · exact ⟨e, h.of_kept ((if_neg hk).trans h.row) (.inl rfl)⟩

theorem Manual.step (a : Action) (h : Manual key s e) :
    ∃ e', Manual key (a.step templates s) e' := by
  cases a with
  | runtime call => exact h.runtime call
  | updateBlocklistEntry where? isActive => exact h.updateBlocklistEntry where? isActive

theorem Manual.run (templates : String → String → Option SmsTemplate) (as : List Action)
    (h : ∃ e, Manual key s e) :
    ∃ e, Manual key (as.foldl (Action.step templates) s) e := by
  induction as generalizing s with
  | nil => exact h
  | cons a as ih =>
    obtain ⟨e, he⟩ := h
    exact ih (he.step a)

/-- An unregister that deactivates the entry is of the requester whose registration has
activated it last. -/
def LiftsOwn (templates : String → String → Option SmsTemplate) (key : ExactWhere) (s : Audited)
    (a : Action) : Prop :=
  ∀ input u, a = .runtime (.unregister input) → (RuntimeCall.unregister input).request = .ok u →
    active s.table key = true → active (a.step templates s).table key = false →
    s.activatedBy key = some (.runtime u.requesterPhoneNumber)

/-- Where an administrator has activated the entry last, it does not remember who
unregisters it, with this branch and DID. -/
def Forgotten (key : ExactWhere) (s : Audited) (a : Action) : Prop :=
  ∀ input u e, a = .runtime (.unregister input) → (RuntimeCall.unregister input).request = .ok u →
    buildExactWhere u = key → s.table key = some e → e.isActive = true →
    s.activatedBy key = some .administrator → ¬ Remembers e u

theorem liftsOwn_iff (h : Manual key s e) : LiftsOwn templates key s a ↔ Forgotten key s a := by
  constructor
  · rintro hlifts input u e' rfl hu rfl hrow hon hadmin hremembers
    obtain rfl : e = e' := Option.some.inj (h.row.symm.trans hrow)
    have hafter : (RuntimeCall.unregister input).apply templates s.table (buildExactWhere u) =
        some (unregistered e u) := by
      rw [apply_unregister hu, hrow]
      exact Blocklist.set_self _ _ _
    have hoff := (isActive_unregistered_iff h.own).2 (.inr (.inr hremembers))
    have hown := hlifts input u rfl hu ((active_of_row hrow).trans hon)
      (by rw [table_step_runtime, active_of_row hafter, hoff])
    rw [hadmin] at hown
    cases hown
  · rintro hforgotten input u rfl hu hon hoff
    obtain ⟨e', hrow', hstep⟩ := apply_row templates (.unregister input) h.row
    rw [active_of_row h.row] at hon
    rw [table_step_runtime, active_of_row hrow'] at hoff
    cases hstep with
    | kept _ =>
      rw [hon] at hoff
      cases hoff
    | registered n hcall _ _ => cases hcall
    | unregistered n _ hn hk =>
      obtain rfl : n = u := Except.ok.inj (hn.symm.trans hu)
      subst hk
      rw [isActive_unregistered_iff h.own, hon, h.unmanaged] at hoff
      have hremembers : Remembers e n := by simpa using hoff
      obtain hadmin | ⟨requester, hruntime, hrequester⟩ := h.activated hon
      · exact absurd hremembers (hforgotten input n e rfl hu rfl h.row hon hadmin)
      · rw [hruntime, Option.some.inj (hrequester.symm.trans hremembers.1)]

/-- From the creation of a manual entry on, whatever the runtime and the administrators do
with `isActive`, an unregister lifts only what a registration of the same requester has
activated last, exactly when the entry never shows the requester, the branch and the DID of
an unregister that comes after an administrator has activated it again. -/
theorem admin_block_kept_iff (templates : String → String → Option SmsTemplate) (key : ExactWhere)
    (s : Audited) (sourceType branchId description : Option String) (isActive : Option Bool)
    (hsource : isOptOutManagedSourceType sourceType = false)
    (hrow : s.table key =
      some { manualEntry key.phoneNumber branchId description isActive with sourceType := sourceType })
    (hactivated : isActive.getD true = true → s.activatedBy key = some .administrator)
    (as : List Action) :
    Along (Action.step templates) (LiftsOwn templates key) s as ↔
      Along (Action.step templates) (Forgotten key) s as := by
  have hmanual : Manual key s
      { manualEntry key.phoneNumber branchId description isActive with sourceType := sourceType } :=
    ⟨hrow, hsource, ⟨rfl, rfl⟩, fun hon => .inl (hactivated hon)⟩
  constructor
  · intro h pre a post hsplit
    obtain ⟨e, he⟩ := Manual.run templates pre ⟨_, hmanual⟩
    exact (liftsOwn_iff he).1 (h pre a post hsplit)
  · intro h pre a post hsplit
    obtain ⟨e, he⟩ := Manual.run templates pre ⟨_, hmanual⟩
    exact (liftsOwn_iff he).2 (h pre a post hsplit)

/-- A manual entry that is switched off. -/
def exManual : Audited where
  table := fun key =>
    if key = ⟨"t1", "01012345678"⟩ then some (manualEntry "01012345678" none none (some false))
    else none
  activatedBy := fun _ => none

def exSameDid : ExecuteOptOutInput :=
  ⟨"t1", some "b1", some "0801111111", "010-1234-5678", none, "OPT_OUT_080_DTMF", none⟩

theorem admin_block_kept_caller :
    Along (Action.step fun _ _ => none) (LiftsOwn (fun _ _ => none) ⟨"t1", "01012345678"⟩) exManual
      [.runtime exMenu, .runtime (.unregister exSameDid)] := by
  refine (admin_block_kept_iff (fun _ _ => none) ⟨"t1", "01012345678"⟩ exManual none none none
    (some false) (by decide) (by decide) (by decide) _).2 ?_
  refine along_cons.2 ⟨?_, along_cons.2 ⟨?_, along_nil⟩⟩
  · intro input _ _ hcall
    have hregister : exMenu = .unregister input := Action.runtime.inj hcall
    cases hregister
  intro _ _ _ _ _ _ _ _ hadmin
  have hruntime : (Action.step (fun _ _ => none) exManual (.runtime exMenu)).activatedBy
      ⟨"t1", "01012345678"⟩ = some (.runtime "01012345678") := by
    decide
  rw [hruntime] at hadmin
  cases hadmin

/-- The caller has registered once; since then an administrator has switched the entry off
and on again. -/
theorem admin_block_lifted :
    ¬ Along (Action.step fun _ _ => none) (LiftsOwn (fun _ _ => none) ⟨"t1", "01012345678"⟩) exManual
      [.runtime exMenu, .updateBlocklistEntry ⟨"t1", "01012345678"⟩ false,
        .updateBlocklistEntry ⟨"t1", "01012345678"⟩ true, .runtime (.unregister exSameDid)] := by
  intro h
  obtain ⟨-, h⟩ := along_cons.1 h
  obtain ⟨-, h⟩ := along_cons.1 h
  obtain ⟨-, h⟩ := along_cons.1 h
  have hlifts := (along_cons.1 h).1 exSameDid (exNormalized "0801111111" "OPT_OUT_080_DTMF") rfl
    (by decide) (by decide) (by decide)
  revert hlifts
  decide

end KasterCti.OptOut
